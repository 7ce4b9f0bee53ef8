import Mathlib.Data.List.Perm.Subperm
import OpenvasSmb.Dcerpc.Requests

/-!
# The lists of a connection as lists

What the machine in memory is for: `pending` and `request_queue` are two lists without a common
request, which hold every request that is neither done nor freed (`Agree`). `Step` says what each
event does to the board and the two lists. The pointers follow (`Held`), step by step, as long as
no event runs into one of the two places where the source names the wrong list or none (`Tidy`):
the request at the head of `request_queue` must not be timed out or freed, nor the context of a
bind or alter context that is still pending.
-/

namespace OpenvasSmb.Dcerpc.Requests

open Kit List Option Linked

variable {W : Type} {r' : Ref} {slot : Slot} {g : Slot → Slot}

/-! ## Requests that wait -/

variable {rs : List Slot} {r : Ref}

theorem liveSlot_eq_some : liveSlot rs r = some slot ↔ rs[r]? = some slot ∧ slot.freed = false := by
  simp [liveSlot, filter_eq_some_iff]

/-- The request is neither done nor freed. -/
def Waiting (rs : List Slot) (r : Ref) : Prop :=
  ∃ slot, liveSlot rs r = some slot ∧ slot.state = .pending

/-- A change that leaves a request as waiting as it is. -/
def Keeps (g : Slot → Slot) : Prop :=
  ∀ slot, (g slot).state = slot.state ∧ (g slot).freed = slot.freed

theorem Keeps.freed (hg : Keeps g) (slot : Slot) :
    (g slot).freed = slot.freed := (hg slot).2

/-- A change after which a request does not wait any more. -/
def Retires (g : Slot → Slot) : Prop :=
  ∀ slot, (g slot).state = .done ∨ (g slot).freed = true

theorem getElem?_modify_of_ne (h : r' ≠ r) (g : Slot → Slot) : (rs.modify r g)[r']? = rs[r']? := by
  rw [getElem?_modify]
  cases rs[r']? with
  | none => rfl
  | some slot => simp [Ne.symm h]

theorem getElem?_modify_self (h : rs[r]? = some slot) (g : Slot → Slot) :
    (rs.modify r g)[r]? = some (g slot) := by
  simp [h]

theorem exists_of_modify {slot' : Slot} (h : (rs.modify r g)[r']? = some slot') :
    (r' ≠ r ∧ rs[r']? = some slot') ∨ ∃ slot, r' = r ∧ rs[r]? = some slot ∧ slot' = g slot := by
  by_cases hr : r' = r
  · subst hr
    refine .inr ?_
    cases hs : rs[r']? with
    | none => simp [hs] at h
    | some slot =>
      rw [getElem?_modify_self hs] at h
      exact ⟨slot, rfl, rfl, (some.inj h).symm⟩
  · rw [getElem?_modify_of_ne hr] at h
    exact .inl ⟨hr, h⟩

theorem liveSlot_modify_of_ne (h : r' ≠ r) (g : Slot → Slot) :
    liveSlot (rs.modify r g) r' = liveSlot rs r' := by
  unfold liveSlot
  rw [getElem?_modify_of_ne h]

theorem isSome_liveSlot_modify (hg : ∀ slot, (g slot).freed = slot.freed) (rs : List Slot)
    (r r' : Ref) : (liveSlot (rs.modify r g) r').isSome = (liveSlot rs r').isSome := by
  by_cases hr : r' = r
  · subst hr
    unfold liveSlot
    rw [getElem?_modify]
    cases rs[r']? with
    | none => rfl
    | some slot =>
      simp only [Option.filter, hg slot, Option.map_eq_map, Option.map_some, if_true]
      split_ifs <;> rfl
  · rw [liveSlot_modify_of_ne hr]

theorem Waiting.of_slot (h : Waiting rs r) : (liveSlot rs r).isSome := by
  obtain ⟨slot, hslot, -⟩ := h
  simp [hslot]

theorem Waiting.get (h : Waiting rs r) : ∃ slot, rs[r]? = some slot := by
  obtain ⟨slot, hslot, -⟩ := h
  exact ⟨slot, (liveSlot_eq_some.mp hslot).1⟩

theorem waiting_iff_of_slot (h : rs[r]? = some slot) :
    Waiting rs r ↔ ¬ (slot.state = .done ∨ slot.freed = true) := by
  unfold Waiting
  simp only [liveSlot_eq_some, h, some.injEq]
  cases hs : slot.state <;> simp [hs]

theorem Waiting.state_eq (h : Waiting rs r) (hslot : rs[r]? = some slot) :
    slot.state = .pending := by
  obtain ⟨slot', hslot', hstate⟩ := h
  rwa [some.inj (hslot.symm.trans (liveSlot_eq_some.mp hslot').1)]

theorem waiting_modify_of_ne (h : r' ≠ r) (g : Slot → Slot) :
    Waiting (rs.modify r g) r' ↔ Waiting rs r' := by
  unfold Waiting
  rw [liveSlot_modify_of_ne h]

theorem Keeps.waiting (hg : Keeps g) (rs : List Slot) (r r' : Ref) :
    Waiting (rs.modify r g) r' ↔ Waiting rs r' := by
  by_cases hr : r' = r
  swap
  · exact waiting_modify_of_ne hr g
  subst hr
  cases hs : rs[r']? with
  | none => simp [Waiting, liveSlot, hs]
  | some slot =>
    rw [waiting_iff_of_slot (getElem?_modify_self hs g), waiting_iff_of_slot hs, (hg slot).1,
      (hg slot).2]

theorem Retires.not_waiting (hg : Retires g) (rs : List Slot) (r : Ref) :
    ¬ Waiting (rs.modify r g) r := by
  intro hwaiting
  obtain ⟨slot', hslot⟩ := hwaiting.get
  obtain ⟨hne, -⟩ | ⟨slot, -, -, rfl⟩ := exists_of_modify hslot
  · exact hne rfl
  · exact (waiting_iff_of_slot hslot).mp hwaiting (hg slot)

theorem waiting_push (hstate : slot.state = .pending) (hfreed : slot.freed = false) (r : Ref) :
    Waiting (rs ++ [slot]) r ↔ Waiting rs r ∨ r = rs.length := by
  unfold Waiting
  simp only [liveSlot_eq_some]
  rcases Nat.lt_trichotomy r rs.length with hlt | rfl | hgt
  · simp [getElem?_append_left hlt, Nat.ne_of_lt hlt]
  · simp [hstate, hfreed]
  · have hout : (rs ++ [slot])[r]? = none := getElem?_eq_none (by simp; omega)
    simp [hout, getElem?_eq_none (Nat.le_of_lt hgt), Nat.ne_of_gt hgt]

/-! ## Lists and board -/

/-- Every request that waits is in exactly one of the lists, once, and no other is in
one. -/
structure Agree (rs : List Slot) (p q : List Ref) : Prop where
  nodup : (p ++ q).Nodup
  listed : ∀ r, r ∈ p ++ q ↔ Waiting rs r

namespace Agree

variable {rs : List Slot} {p q : List Ref} {r : Ref}

section

variable (h : Agree rs p q)
include h

theorem congr {rs' : List Slot} (hsame : ∀ r, Waiting rs' r ↔ Waiting rs r) : Agree rs' p q :=
  ⟨h.nodup, fun r => (h.listed r).trans (hsame r).symm⟩

theorem keep (hg : Keeps g) (r : Ref) : Agree (rs.modify r g) p q :=
  h.congr (hg.waiting rs r)

theorem pending_notMem (hr : r ∈ p) : r ∉ q :=
  fun hq => (nodup_append.mp h.nodup).2.2 r hr r hq rfl

theorem waiting (hr : r ∈ p) : Waiting rs r :=
  (h.listed r).mp (mem_append_left q hr)

theorem retire (hg : Retires g) (r : Ref) : Agree (rs.modify r g) (p.erase r) (q.erase r) := by
  obtain ⟨hp, hq, hapart⟩ := nodup_append.mp h.nodup
  refine ⟨nodup_append.mpr ⟨hp.erase r, hq.erase r, ?_⟩, ?_⟩
  · exact fun a ha b hb => hapart a (mem_of_mem_erase ha) b (mem_of_mem_erase hb)
  · intro a
    rw [mem_append, hp.mem_erase_iff, hq.mem_erase_iff]
    by_cases ha : a = r
    · subst ha
      simpa using hg.not_waiting rs a
    · rw [waiting_modify_of_ne ha, ← h.listed a, mem_append]
      simp [ha]

theorem retire_pending (hg : Retires g) (hr : r ∈ p) : Agree (rs.modify r g) (p.erase r) q := by
  have hretire := h.retire hg r
  rwa [erase_of_not_mem (h.pending_notMem hr)] at hretire

theorem loose (hr : ¬ Waiting rs r) : r ∉ p ∧ r ∉ q := by
  rw [← not_or, ← mem_append]
  exact fun hmem => hr ((h.listed r).mp hmem)

theorem retire_loose (hg : Retires g) (hr : ¬ Waiting rs r) : Agree (rs.modify r g) p q := by
  obtain ⟨hp, hq⟩ := h.loose hr
  have hretire := h.retire hg r
  rwa [erase_of_not_mem hp, erase_of_not_mem hq] at hretire

theorem perm {p' q' : List Ref} (hperm : (p' ++ q').Perm (p ++ q)) : Agree rs p' q' :=
  ⟨hperm.nodup_iff.mpr h.nodup, fun r => hperm.mem_iff.trans (h.listed r)⟩

theorem next_notMem : rs.length ∉ p ++ q := by
  intro hmem
  obtain ⟨slot, hslot⟩ := ((h.listed _).mp hmem).get
  simp at hslot

theorem push (hstate : slot.state = .pending) (hfreed : slot.freed = false) :
    Agree (rs ++ [slot]) p (q ++ [rs.length]) := by
  refine ⟨?_, ?_⟩
  · rw [← append_assoc]
    refine nodup_append.mpr ⟨h.nodup, by simp, ?_⟩
    rintro a ha b hb rfl
    exact h.next_notMem (mem_singleton.mp hb ▸ ha)
  · intro r
    rw [waiting_push hstate hfreed, ← h.listed r, ← append_assoc, mem_append, mem_singleton]

theorem push_pending (hstate : slot.state = .pending)
    (hfreed : slot.freed = false) : Agree (rs ++ [slot]) (p ++ [rs.length]) q := by
  refine (h.push hstate hfreed).perm ?_
  rw [append_assoc]
  exact perm_append_comm.append_left p

end

theorem ship (h : Agree rs p (r :: q)) : Agree rs (r :: p) q :=
  h.perm perm_middle.symm

theorem drop (h : Agree rs p (r :: q)) (hg : Retires g) : Agree (rs.modify r g) p q := by
  have hretire := h.ship.retire_pending hg (mem_cons_self)
  rwa [erase_cons_head] at hretire

end Agree

/-! ## Lists and pointers -/

variable (p q : List Ref)

/-- The two lists by name. -/
def chains : Chain → List Ref
  | .pending => p
  | .requestQueue => q

@[simp] theorem chains_pending : chains p q .pending = p := rfl

@[simp] theorem chains_requestQueue : chains p q .requestQueue = q := rfl

theorem update_chains_pending (p q l : List Ref) :
    Function.update (chains p q) .pending l = chains l q := by
  funext i
  cases i <;> rfl

theorem update_chains_requestQueue (p q l : List Ref) :
    Function.update (chains p q) .requestQueue l = chains p l := by
  funext i
  cases i <;> rfl

theorem erase_chains (r : Ref) :
    (fun i => (chains p q i).erase r) = chains (p.erase r) (q.erase r) := by
  funext i
  cases i <;> rfl

theorem notMem_chains {p q : List Ref} (hp : r ∉ p) (hq : r ∉ q) (i : Chain) :
    r ∉ chains p q i := by
  cases i with
  | pending => exact hp
  | requestQueue => exact hq

structure IsDList (l : RequestLists) (i : Chain) (xs : List Ref) : Prop where
  head : l.head i = xs.head?
  segment : Segment l.cells none xs none
  nodup : xs.Nodup

theorem IsDList.eq_of_walk {l : RequestLists} {i : Chain} {xs ys : List Ref} {fuel : Nat}
    (h : IsDList l i xs) (hwalk : walk l.cells fuel (l.head i) = some ys) : xs = ys := by
  rw [h.head] at hwalk
  exact Linked.eq_of_walk h.segment hwalk

/-- The request is all there is in the list. -/
def Sole (l : RequestLists) (i : Chain) (r : Ref) : Prop :=
  l.head i = some r ∧ (l.cells r).bind (·.next) = none

theorem IsDList.sole_iff {l : RequestLists} {i : Chain} {xs : List Ref} (h : IsDList l i xs) :
    Sole l i r ↔ xs = [r] := by
  unfold Sole
  rw [h.head]
  cases xs with
  | nil => simp
  | cons a xs =>
    obtain ⟨hcell, -⟩ := h.segment
    constructor
    · rintro ⟨ha, hnext⟩
      obtain rfl := some.inj ha
      rw [hcell, bind_some, or_none, head?_eq_none_iff] at hnext
      rw [hnext]
    · intro hxs
      obtain ⟨rfl, rfl⟩ := cons.inj hxs
      exact ⟨rfl, by rw [hcell]; rfl⟩

/-- The pointers are those of the two lists, and the cells those of the requests that
are not freed. -/
structure Held (rs : List Slot) (l : RequestLists) (p q : List Ref) : Prop where
  threads : l.Threads (chains p q)
  cells : ∀ r, (l.cells r).isSome = (liveSlot rs r).isSome

namespace Held

variable {rs : List Slot} {l : RequestLists} {p q : List Ref} {r : Ref} (h : Held rs l p q)
include h

theorem isDList (i : Chain) : IsDList l i (chains p q i) :=
  ⟨h.threads.head i, h.threads.segment i, h.threads.nodup i⟩

theorem sole_pending : Sole l .pending r ↔ p = [r] :=
  (h.isDList .pending).sole_iff

theorem sole_requestQueue : Sole l .requestQueue r ↔ q = [r] :=
  (h.isDList .requestQueue).sole_iff

theorem head_pending : l.head .pending = p.head? := h.threads.head .pending

theorem head_requestQueue : l.head .requestQueue = q.head? :=
  h.threads.head .requestQueue

theorem cell (hr : (liveSlot rs r).isSome) : ∃ c, l.cells r = some c := by
  rw [← h.cells] at hr
  exact isSome_iff_exists.mp hr

theorem congr {rs' : List Slot}
    (hsame : ∀ r, (liveSlot rs' r).isSome = (liveSlot rs r).isSome) : Held rs' l p q :=
  ⟨h.threads, fun r => (h.cells r).trans (hsame r).symm⟩

theorem keep (hg : ∀ slot, (g slot).freed = slot.freed) (r : Ref) : Held (rs.modify r g) l p q :=
  h.congr (isSome_liveSlot_modify hg rs r)

theorem length_le (i : Chain) : (chains p q i).length ≤ rs.length := by
  have hsub : chains p q i ⊆ range rs.length := by
    intro r hr
    obtain ⟨c, hc⟩ := h.threads.isSome hr
    have hlive : (liveSlot rs r).isSome := by rw [← h.cells, hc]; rfl
    obtain ⟨slot, hslot⟩ := isSome_iff_exists.mp hlive
    obtain ⟨hslot, -⟩ := liveSlot_eq_some.mp hslot
    exact List.mem_range.mpr (List.getElem?_eq_some_iff.mp hslot).1
  have hle := (List.subperm_of_subset (h.threads.nodup i) hsub).length_le
  rwa [List.length_range] at hle

theorem walk_pending : walk l.cells rs.length (l.head .pending) = some p := by
  rw [h.head_pending]
  exact walk_segment (h.threads.segment .pending) (h.length_le .pending)

theorem walk_requestQueue : walk l.cells rs.length (l.head .requestQueue) = some q := by
  rw [h.head_requestQueue]
  exact walk_segment (h.threads.segment .requestQueue) (h.length_le .requestQueue)

theorem search_pending (stop : Ref → Bool) :
    search l.cells stop rs.length (l.head .pending) = some (p.find? stop) := by
  rw [h.head_pending]
  exact search_segment (h.threads.segment .pending) (h.length_le .pending)

/-- `DLIST_REMOVE` with the head of one list, of a request that is not the head of the other. -/
theorem remove (i : Chain) (hr : (liveSlot rs r).isSome)
    (hhead : ∀ j, j ≠ i → (chains p q j).head? ≠ some r) :
    ∃ l', l.remove i r = some l' ∧ Held rs l' (p.erase r) (q.erase r) := by
  obtain ⟨c, hc⟩ := h.cell hr
  obtain ⟨l', hremove, hthreads, hcells⟩ := h.threads.remove i hc fun j hj => by
    rw [h.threads.head]
    exact hhead j hj
  rw [erase_chains] at hthreads
  exact ⟨l', hremove, hthreads, fun a => (hcells a).trans (h.cells a)⟩

theorem remove_pending (hr : (liveSlot rs r).isSome) (hq : q.head? ≠ some r) :
    ∃ l', l.remove .pending r = some l' ∧ Held rs l' (p.erase r) (q.erase r) :=
  h.remove .pending hr fun
    | .pending, hne => absurd rfl hne
    | .requestQueue, _ => hq

theorem take_pending (hr : (liveSlot rs r).isSome) (hq : r ∉ q) :
    ∃ l', l.remove .pending r = some l' ∧ Held rs l' (p.erase r) q := by
  have hremove := h.remove_pending hr fun heq => hq (mem_of_mem_head? heq)
  rwa [erase_of_not_mem hq] at hremove

theorem add_pending (hr : (liveSlot rs r).isSome) (hp : r ∉ p) (hq : r ∉ q) :
    ∃ l', l.add .pending r = some l' ∧ Held rs l' (r :: p) q := by
  obtain ⟨c, hc⟩ := h.cell hr
  obtain ⟨l', hadd, hthreads, hcells⟩ := h.threads.add .pending hc (notMem_chains hp hq)
  rw [update_chains_pending] at hthreads
  exact ⟨l', hadd, hthreads, fun a => (hcells a).trans (h.cells a)⟩

theorem alloc (hfreed : slot.freed = false) :
    Held (rs ++ [slot]) (l.alloc rs.length) p q ∧ ∀ i, rs.length ∉ chains p q i := by
  have hnone : liveSlot rs rs.length = none := by simp [liveSlot]
  have hcell : l.cells rs.length = none := by
    rw [← not_isSome_iff_eq_none, h.cells, hnone]
    simp
  refine ⟨⟨h.threads.alloc hcell, ?_⟩, ?_⟩
  · intro r
    by_cases hr : r = rs.length
    · subst hr
      simp [Linked.alloc, liveSlot, hfreed]
    · have hcells : (l.alloc rs.length).cells r = l.cells r := by simp [Linked.alloc, hr]
      rw [hcells, h.cells]
      unfold liveSlot
      rcases Nat.lt_or_gt_of_ne hr with hlt | hgt
      · rw [getElem?_append_left hlt]
      · rw [getElem?_eq_none (Nat.le_of_lt hgt), getElem?_eq_none (by simp; omega)]
  · intro i hmem
    obtain ⟨c, hc⟩ := h.threads.isSome hmem
    rw [hcell] at hc
    simp at hc

variable (slot : Slot) (hfreed : slot.freed = false)
include hfreed

/-- `DLIST_ADD_END` of a new request. -/
theorem addEnd (i : Chain) :
    ∃ l', (l.alloc rs.length).addEnd rs.length i rs.length = some l' ∧
      l'.Threads (Function.update (chains p q) i (chains p q i ++ [rs.length])) ∧
      ∀ r, (l'.cells r).isSome = (liveSlot (rs ++ [slot]) r).isSome := by
  obtain ⟨halloc, hout⟩ := h.alloc hfreed
  have hcell : (l.alloc rs.length).cells rs.length = some ⟨none, none⟩ := by simp [Linked.alloc]
  obtain ⟨l', hadd, hthreads, hcells⟩ := halloc.threads.addEnd i hcell hout (h.length_le i)
  exact ⟨l', hadd, hthreads, fun r => (hcells r).trans (halloc.cells r)⟩

theorem addEnd_pending :
    ∃ l', (l.alloc rs.length).addEnd rs.length .pending rs.length = some l' ∧
      Held (rs ++ [slot]) l' (p ++ [rs.length]) q := by
  obtain ⟨l', hadd, hthreads, hcells⟩ := h.addEnd slot hfreed .pending
  rw [update_chains_pending] at hthreads
  exact ⟨l', hadd, hthreads, hcells⟩

theorem addEnd_requestQueue :
    ∃ l', (l.alloc rs.length).addEnd rs.length .requestQueue rs.length = some l' ∧
      Held (rs ++ [slot]) l' p (q ++ [rs.length]) := by
  obtain ⟨l', hadd, hthreads, hcells⟩ := h.addEnd slot hfreed .requestQueue
  rw [update_chains_requestQueue] at hthreads
  exact ⟨l', hadd, hthreads, hcells⟩

end Held

theorem retires_free : Retires Slot.free := fun _ => .inr rfl

theorem Held.free {l l' : RequestLists} {p q : List Ref} (h : Held rs l p q) (hp : r ∉ p)
    (hq : r ∉ q) (hfree : l.free r = some l') : Held (rs.modify r Slot.free) l' p q := by
  obtain ⟨c, hc⟩ : ∃ c, l.cells r = some c := by
    unfold Linked.free at hfree
    cases hcell : l.cells r with
    | none => simp [hcell] at hfree
    | some c => exact ⟨c, rfl⟩
  obtain ⟨l'', hfree', hthreads, hnone, hkept⟩ := h.threads.free hc (notMem_chains hp hq)
  obtain rfl := some.inj (hfree'.symm.trans hfree)
  refine ⟨hthreads, ?_⟩
  intro a
  by_cases ha : a = r
  · subst ha
    have hgone : liveSlot (rs.modify a Slot.free) a = none := by
      unfold liveSlot
      cases hs : rs[a]? with
      | none => simp [hs]
      | some slot => simp [getElem?_modify_self hs, Slot.free]
    rw [hnone, hgone]
    rfl
  · rw [hkept a ha, liveSlot_modify_of_ne ha, h.cells]

end OpenvasSmb.Dcerpc.Requests
