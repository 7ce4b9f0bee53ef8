import Mathlib.Data.List.Basic

/-!
# NULL-terminated arrays of pointers

An array of pointers that ends with a NULL. Reading an entry that was never written, and reading
or writing outside of the array, is a fault (`none`). `terminated l junk` is the array whose
entries up to the first NULL are those of `l`; taking an entry out by moving the others down keeps
that form (`shift_terminated`).
-/

namespace OpenvasSmb.Kit

/-- The entries: `none` was not written yet, `some none` is NULL. -/
abbrev PointerArray (α : Type) := List (Option (Option α))

namespace PointerArray

variable {α : Type}

/-- The array that was just allocated. -/
def unset (n : Nat) : PointerArray α := List.replicate n none

def fetch (a : PointerArray α) (i : Nat) : Option (Option α) := (a[i]?).join

def store (a : PointerArray α) (i : Nat) (p : Option α) : Option (PointerArray α) :=
  if i < a.length then some (a.set i (some p)) else none

/-- The entries from `k` on move down by one, up to the NULL, which moves with them:
`for (; a[k]; k++) a[k] = a[k+1]`. -/
def shift : Nat → Nat → PointerArray α → Option (PointerArray α)
  | 0, _, _ => none
  | fuel + 1, k, a =>
    match a.fetch k with
    | none => none
    | some none => some a
    | some (some _) => ((a.fetch (k + 1)).bind (a.store k)).bind (shift fuel (k + 1))

variable (l : List α)

def pointers : PointerArray α := l.map fun x => some (some x)

variable (junk : PointerArray α)

/-- A list with the NULL behind it, and whatever comes then. -/
def terminated : PointerArray α :=
  pointers l ++ some none :: junk

/-- The array as it is given by another part of the program. -/
def ofList : PointerArray α := terminated l []

@[simp] theorem length_pointers : (pointers l).length = l.length :=
  List.length_map _

@[simp] theorem terminated_nil :
    terminated [] junk = some none :: junk := rfl

@[simp] theorem terminated_cons (x : α) (l : List α) (junk : PointerArray α) :
    terminated (x :: l) junk = some (some x) :: terminated l junk := rfl

@[simp] theorem length_terminated :
    (terminated l junk).length = l.length + 1 + junk.length := by
  rw [terminated, List.length_append, length_pointers, List.length_cons]
  omega

/-! ## Reading and writing behind a known part -/

section

variable {pre rest : PointerArray α} {k : Nat}

theorem fetch_append (h : pre.length = k) (e : Option (Option α)) :
    fetch (pre ++ e :: rest) k = e := by
  subst h
  simp [fetch]

theorem fetch_append_succ (h : pre.length = k) (e e' : Option (Option α)) :
    fetch (pre ++ e :: e' :: rest) (k + 1) = e' := by
  subst h
  simp [fetch]

theorem store_append (h : pre.length = k) (e : Option (Option α)) (p : Option α) :
    store (pre ++ e :: rest) k p = some (pre ++ some p :: rest) := by
  subst h
  rw [store, if_pos (by simp), List.set_append_right _ _ (Nat.le_refl _), Nat.sub_self]
  rfl

end

/-- An entry of a list and the NULL behind it can be read, nothing beyond. -/
theorem fetch_ofList (i : Nat) :
    fetch (ofList l) i = if i ≤ l.length then some l[i]? else none := by
  have hlen : (pointers l).length = l.length := length_pointers l
  rw [fetch, ofList, terminated]
  by_cases hi : i < l.length
  · rw [List.getElem?_append_left (by omega), if_pos (by omega)]
    simp [pointers, hi]
  · by_cases heq : i = l.length
    · simp [heq]
    · rw [if_neg (by omega), List.getElem?_eq_none (by simp; omega)]
      rfl

/-- **Moving down** takes out the entry it starts at. One more NULL stays behind. -/
theorem shift_terminated {pre : PointerArray α} {k fuel : Nat} (h : pre.length = k) (x : α)
    (l : List α) (junk : PointerArray α) (hfuel : l.length + 2 ≤ fuel) :
    shift fuel k (pre ++ terminated (x :: l) junk) =
      some (pre ++ terminated l (some none :: junk)) := by
  -- the entries before k are not looked at; each round makes them one more
  induction l generalizing pre k fuel x with
  | nil =>
    obtain ⟨fuel, rfl⟩ : ∃ f, fuel = f + 2 := ⟨fuel - 2, by simp at hfuel; omega⟩
    have hnext : (pre ++ [some (none : Option α)]).length = k + 1 := by simp [h]
    rw [shift, terminated_cons, terminated_nil, fetch_append h]
    show ((fetch _ (k + 1)).bind (store _ k)).bind (shift (fuel + 1) (k + 1)) = _
    rw [fetch_append_succ h, Option.bind_some, store_append h, Option.bind_some, shift,
      show pre ++ some none :: some none :: junk = (pre ++ [some none]) ++ some none :: junk by
        simp, fetch_append hnext]
    simp
  | cons y l ih =>
    obtain ⟨fuel, rfl⟩ : ∃ f, fuel = f + 1 := ⟨fuel - 1, by simp at hfuel; omega⟩
    have hnext : (pre ++ [some (some y)]).length = k + 1 := by simp [h]
    have hless : l.length + 2 ≤ fuel := by simpa using hfuel
    have hrest := ih hnext y hless
    rw [shift, terminated_cons, fetch_append h]
    show ((fetch _ (k + 1)).bind (store _ k)).bind (shift fuel (k + 1)) = _
    rw [terminated_cons, fetch_append_succ h, Option.bind_some, store_append h, Option.bind_some]
    simpa using hrest

end PointerArray

end OpenvasSmb.Kit
