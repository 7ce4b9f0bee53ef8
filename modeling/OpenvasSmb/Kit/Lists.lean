import Mathlib.Data.List.Forall2

/-!
# Lists of results

Facts about `mapM` over `Option`, which is how a loop that may fault collects its
results, about texts put together from parts or cut at a character, and about counting the
elements of a list of which one is changed.
-/

namespace OpenvasSmb.Kit

open List Option

/-- The results stand where what they were made from stands. -/
theorem forall₂_of_mapM {α β : Type} {f : α → Option β} : ∀ {l : List α} {r : List β},
    l.mapM f = some r → Forall₂ (fun a b => f a = some b) l r := by
  intro l
  induction l with
  | nil => intro r h; simp_all
  | cons a l ih =>
    intro r h
    simp only [mapM_cons, Option.bind_eq_bind, Option.bind_eq_some_iff, Option.pure_def,
      some.injEq] at h
    obtain ⟨b, hb, bs, hbs, rfl⟩ := h
    exact .cons hb (ih hbs)

theorem getLast_ne_join : ∀ (texts : List String), (∀ t ∈ texts, 0 < t.length) →
    (some (String.join texts) = texts.getLast? ↔ texts.length = 1) := by
  intro texts hpos
  -- a text is never longer than the whole it ends
  have hle : ∀ (ts : List String) (t : String), ts.getLast? = some t →
      t.length ≤ (String.join ts).length := by
    intro ts
    induction ts with
    | nil => intro t ht; simp at ht
    | cons u us ih =>
      intro t ht
      rw [String.join_cons, String.length_append]
      cases us with
      | nil =>
        simp only [getLast?_singleton, some.injEq] at ht
        rw [ht]
        omega
      | cons v vs =>
        have := ih t ht
        omega
  cases texts with
  | nil => simp
  | cons t ts =>
    cases ts with
    | nil => simp
    | cons u us =>
      refine iff_of_false (fun heq => ?_) (by simp)
      have hlen := hle (u :: us) _ heq.symm
      rw [String.join_cons, String.length_append] at hlen
      have := hpos t (mem_cons_self ..)
      omega

/-! ## Counting -/

/-- What changing one element does to the number of elements with a property. -/
theorem countP_modify {α : Type} (f : α → Bool) (g : α → α) {l : List α} {n : Nat} {a : α}
    (h : l[n]? = some a) :
    (l.modify n g).countP f + (if f a then 1 else 0) =
      l.countP f + (if f (g a) then 1 else 0) := by
  induction l generalizing n with
  | nil => simp at h
  | cons b l ih =>
    cases n with
    | zero =>
      obtain rfl := some.inj h
      rw [modify_zero_cons, countP_cons, countP_cons]
      omega
    | succ n =>
      have hrest := ih h
      rw [modify_succ_cons, countP_cons, countP_cons]
      omega

theorem countP_modify_le_succ {α : Type} (f : α → Bool) (g : α → α) (l : List α) (n : Nat) :
    (l.modify n g).countP f ≤ l.countP f + 1 := by
  cases h : l[n]? with
  | none =>
    rw [modify_eq_self (getElem?_eq_none_iff.mp h)]
    omega
  | some a =>
    have hcount := countP_modify f g h
    split_ifs at hcount <;> omega

theorem countP_modify_le {α : Type} {f : α → Bool} {g : α → α}
    (hg : ∀ a, f (g a) = true → f a = true) (l : List α) (n : Nat) :
    (l.modify n g).countP f ≤ l.countP f := by
  cases h : l[n]? with
  | none =>
    have hsame := modify_eq_self (f := g) (getElem?_eq_none_iff.mp h)
    exact Nat.le_of_eq (congrArg _ hsame)
  | some a =>
    have hcount := countP_modify f g h
    by_cases hga : f (g a) = true
    · rw [if_pos hga, if_pos (hg a hga)] at hcount
      omega
    · rw [if_neg hga] at hcount
      omega

theorem countP_modify_lt {α : Type} {f : α → Bool} {g : α → α} {l : List α} {n : Nat} {a : α}
    (h : l[n]? = some a) (ha : f a = true) (hg : f (g a) = false) :
    (l.modify n g).countP f + 1 = l.countP f := by
  have hcount := countP_modify f g h
  rw [if_pos ha, hg] at hcount
  simpa using hcount

/-! ## Cutting a list in two -/

section Cut

variable {α : Type} [DecidableEq α] {c : α} {l r s : List α}

/-- What stands before the first `c` and what stands behind it: `strchr`. -/
def cut (c : α) : List α → Option (List α × List α)
  | [] => none
  | x :: s => if x = c then some ([], s) else (cut c s).map fun parts => (x :: parts.1, parts.2)

theorem cut_append (h : c ∉ l) (r : List α) : cut c (l ++ c :: r) = some (l, r) := by
  induction l with
  | nil => exact if_pos rfl
  | cons x l ih =>
    rw [mem_cons, not_or] at h
    rw [cons_append, cut, if_neg (Ne.symm h.1), ih h.2]
    rfl

theorem cut_eq_none_iff : cut c s = none ↔ c ∉ s := by
  induction s with
  | nil => simp [cut]
  | cons x s ih =>
    rw [cut, mem_cons, not_or]
    split
    · rename_i hx
      simp [hx]
    · rename_i hx
      rw [map_eq_none_iff, ih]
      exact ⟨fun h => ⟨Ne.symm hx, h⟩, And.right⟩

/-- A cut takes out the first `c` and nothing else. -/
theorem cut_eq_some_iff : cut c s = some (l, r) ↔ s = l ++ c :: r ∧ c ∉ l := by
  constructor
  · intro h
    induction s generalizing l r with
    | nil => cases h
    | cons x s ih =>
      rw [cut] at h
      split at h
      · rename_i hx
        cases h
        exact ⟨by rw [hx]; rfl, not_mem_nil⟩
      · rename_i hx
        obtain ⟨⟨l', r'⟩, hparts, hlr⟩ := map_eq_some_iff.mp h
        cases hlr
        obtain ⟨rfl, hl⟩ := ih hparts
        exact ⟨rfl, by simp [Ne.symm hx, hl]⟩
  · rintro ⟨rfl, h⟩
    exact cut_append h r

theorem cut_append_of_not_mem (h : c ∉ r) (s : List α) :
    (cut c (s ++ r)).map Prod.fst = (cut c s).map Prod.fst := by
  cases hs : cut c s with
  | none =>
    have hnot : c ∉ s ++ r := by simp [cut_eq_none_iff.mp hs, h]
    rw [cut_eq_none_iff.mpr hnot]
  | some parts =>
    obtain ⟨rfl, hl⟩ := cut_eq_some_iff.mp hs
    rw [append_assoc, cons_append, cut_append hl]
    rfl

end Cut

end OpenvasSmb.Kit
