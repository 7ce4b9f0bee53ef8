import Mathlib.Data.List.Basic

/-!
# Streams of packets that tell their length

`size` looks at the front of a stream and says how long its first packet is, once enough of it is
there. `Splits size stream packets` says what packets such a stream consists of, and `Tracks size
packets handed ahead` that a receiver which has cut off `handed`, with `ahead` before it, has cut
where the packets end. It does if it cuts off what `size` says of the part it has seen
(`Tracks.cut`), and what it has cut off is then a prefix of the packets (`Tracks.isPrefix`).
-/

namespace OpenvasSmb.Kit

section Framing

variable {α : Type} {size : List α → Option Nat}

/-- What follows does not change the length a front tells. -/
def Stable (size : List α → Option Nat) : Prop :=
  ∀ {front : List α} {n : Nat}, size front = some n → ∀ rest, size (front ++ rest) = some n

/-- A stream is its packets one behind the other; it may end inside a packet. -/
inductive Splits (size : List α → Option Nat) : List α → List (List α) → Prop
  | rest {tail : List α} (h : ∀ n, size tail = some n → tail.length < n) : Splits size tail []
  | packet {p rest : List α} {packets : List (List α)} (hp : p ≠ [])
      (hsize : size (p ++ rest) = some p.length) (h : Splits size rest packets) :
      Splits size (p ++ rest) (p :: packets)

/-- The first packet is as long as the stream says. -/
theorem Splits.next {p rest : List α} {packets : List (List α)}
    (h : Splits size (p ++ rest) packets) (hsize : size (p ++ rest) = some p.length) :
    ∃ more, packets = p :: more ∧ Splits size rest more := by
  generalize hstream : p ++ rest = stream at h
  cases h with
  | rest h =>
    have hlt := h p.length (hstream ▸ hsize)
    rw [← hstream, List.length_append] at hlt
    omega
  | @packet p' rest' more hp' hlen h =>
    rw [hstream] at hsize
    have hlength : p.length = p'.length := Option.some.inj (hsize.symm.trans hlen)
    obtain ⟨rfl, rfl⟩ := List.append_inj hstream hlength
    exact ⟨more, rfl, h⟩

/-- What has arrived of packets that tell their own length splits into the first of them. -/
theorem Splits.of_arrived (hstable : Stable size) (hnil : size [] = none)
    {packets : List (List α)} (hown : ∀ p ∈ packets, size p = some p.length) {arrived : List α}
    (h : arrived <+: packets.flatten) : ∃ whole, whole <+: packets ∧ Splits size arrived whole := by
  induction packets generalizing arrived with
  | nil =>
    rw [List.prefix_nil.mp h]
    exact ⟨[], List.nil_prefix, .rest (by simp [hnil])⟩
  | cons p packets ih =>
    obtain ⟨hp, hown⟩ := List.forall_mem_cons.mp hown
    have hfirst := List.prefix_append p packets.flatten
    by_cases hlt : arrived.length < p.length
    · obtain ⟨rest, rfl⟩ := List.prefix_of_prefix_length_le h hfirst (by omega)
      refine ⟨[], List.nil_prefix, .rest fun n hn => ?_⟩
      rwa [← Option.some.inj (hp.symm.trans (hstable hn rest))]
    · obtain ⟨rest, rfl⟩ := List.prefix_of_prefix_length_le hfirst h (by omega)
      obtain ⟨whole, hwhole, hsplits⟩ := ih hown ((List.prefix_append_right_inj p).mp h)
      refine ⟨p :: whole, List.cons_prefix_cons.mpr ⟨rfl, hwhole⟩, ?_⟩
      exact .packet (by rintro rfl; simp [hnil] at hp) (hstable hp rest) hsplits

/-- Of the packets, `handed` have been cut off and the rest is `ahead`. -/
def Tracks (size : List α → Option Nat) (packets handed : List (List α)) (ahead : List α) : Prop :=
  ∃ todo, handed ++ todo = packets ∧ Splits size ahead todo

theorem Splits.tracks {stream : List α} {packets : List (List α)}
    (h : Splits size stream packets) : Tracks size packets [] stream :=
  ⟨packets, rfl, h⟩

variable {packets handed : List (List α)}

theorem Tracks.isPrefix {ahead : List α} (h : Tracks size packets handed ahead) :
    handed <+: packets := by
  obtain ⟨todo, rfl, -⟩ := h
  exact List.prefix_append handed todo

/-- A packet is cut off once the front that has been seen holds all of it. -/
theorem Tracks.cut {front rest : List α} {n : Nat} (hstable : Stable size)
    (h : Tracks size packets handed (front ++ rest)) (hsize : size front = some n)
    (hn : n ≤ front.length) :
    Tracks size packets (handed ++ [front.take n]) (front.drop n ++ rest) := by
  obtain ⟨todo, rfl, hsplits⟩ := h
  have hfront : front ++ rest = front.take n ++ (front.drop n ++ rest) := by
    rw [← List.append_assoc, List.take_append_drop]
  have htake : (front.take n).length = n := List.length_take_of_le hn
  have hahead := hstable hsize rest
  rw [hfront] at hsplits hahead
  obtain ⟨more, rfl, hmore⟩ := hsplits.next (by rw [hahead, htake])
  exact ⟨more, by rw [List.append_assoc]; rfl, hmore⟩

end Framing

end OpenvasSmb.Kit
