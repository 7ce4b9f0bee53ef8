import Mathlib.Data.List.Basic
import Mathlib.Tactic.Common

/-!
# Choosing the security mechanisms

`auth/gensec/gensec.c`: `gensec_use_kerberos_mechs` copies from the array of all mechanisms those
that the kerberos policy of the credentials allows. Mechanisms are pointers to their
`gensec_security_ops`, in arrays that end with NULL. The new array has one slot for each mechanism
and one for the NULL; writing behind it is `none`.
-/

namespace OpenvasSmb.Gensec

open List Option

/-- `struct gensec_security_ops`: what the choice reads of it. -/
structure GensecSecurityOps where
  oid : Option (List String)
  kerberos : Bool

/-- `enum credentials_use_kerberos`. -/
inductive UseKerberos
  | auto
  | dont
  | must
  deriving DecidableEq

def gensecOidSpnego : String := "1 3 6 1 5 5 2"

/-- `talloc_array` refuses arrays of pointers of this length and more. -/
def maxPointers : Nat := 0x10000000 / 8

variable {P : Type}

/-- An array of pointers that ends with NULL. -/
def nullTerminated (mechs : List P) : List (Option P) := mechs.map some ++ [none]

/-- The entries before the first NULL, if there is one. -/
def entries : List (Option P) → Option (List P)
  | [] => none
  | none :: _ => some []
  | some p :: cells => (entries cells).map (p :: ·)

/-- The array that is filled, with the index `j` of the next slot. -/
structure NewList (P : Type) where
  cells : List (Option P)
  j : Nat

/-- `new_gensec_list[j] = p`. -/
def NewList.write (new : NewList P) (p : Option P) : Option (List (Option P)) :=
  if new.j < new.cells.length then some (new.cells.set new.j p) else none

/-- `new_gensec_list[j] = p; j++`. -/
def NewList.push (new : NewList P) (p : P) : Option (NewList P) :=
  (new.write (some p)).map fun cells => ⟨cells, new.j + 1⟩

section Choice

variable (ops : P → GensecSecurityOps) (policy : UseKerberos) (p : P)

/-- The loop over the OIDs of one mechanism: it is taken when one is that of SPNEGO. -/
def addSpnego (p : P) : List String → NewList P → Option (NewList P)
  | [], new => some new
  | oid :: oids, new => if oid = gensecOidSpnego then new.push p else addSpnego p oids new

/-- The cases of the `switch`: mechanisms taken for their `kerberos` field. -/
def takenByField : Bool :=
  match policy with
  | .auto => false
  | .dont => !(ops p).kerberos
  | .must => (ops p).kerberos

/-- The `switch`. -/
def addByField (new : NewList P) : Option (NewList P) :=
  if takenByField ops policy p then new.push p else some new

def mechsLoop (policy : UseKerberos) : List P → NewList P → Option (NewList P)
  | [], new => some new
  | p :: mechs, new => do
      let new ← addSpnego p ((ops p).oid.getD []) new
      let new ← addByField ops policy p new
      mechsLoop policy mechs new

/-- `gensec_use_kerberos_mechs`; `junk` is in the slots of the new array. The inner `none` is NULL.
-/
def gensecUseKerberosMechs (junk : Nat → Option P) (oldList : Option (List P))
    (policy : UseKerberos) : Option (Option (List (Option P))) :=
  if policy = .auto then some (oldList.map nullTerminated)
  else
    let mechs := oldList.getD []
    if mechs.length + 1 ≥ maxPointers then some none
    else do
      let new ← mechsLoop ops policy mechs ⟨(List.range (mechs.length + 1)).map junk, 0⟩
      (new.write none).map some

/-! ## What is allowed -/

def isSpnego : Bool := ((ops p).oid.getD []).contains gensecOidSpnego

/-- The policy allows the mechanism: SPNEGO always, the others by their `kerberos` field. -/
def allowed : Bool :=
  isSpnego ops p || match policy with
    | .auto => true
    | .dont => !(ops p).kerberos
    | .must => (ops p).kerberos

/-- What the two rules of the loop take for one mechanism. -/
def picks : List P :=
  (if isSpnego ops p then [p] else []) ++ if takenByField ops policy p then [p] else []

/-! ## The loop -/

/-- Writes several entries from the next slot on. -/
def NewList.pushAll (new : NewList P) : List P → Option (NewList P)
  | [] => some new
  | p :: ps => (new.push p).bind fun new => new.pushAll ps

variable (new : NewList P)

theorem NewList.pushAll_append (ps qs : List P) : ∀ new : NewList P,
    new.pushAll (ps ++ qs) = (new.pushAll ps).bind fun new => new.pushAll qs := by
  induction ps with
  | nil =>
    intro new
    rfl
  | cons p ps ih =>
    intro new
    show ((new.push p).bind fun new => new.pushAll (ps ++ qs)) = _
    simp only [ih, NewList.pushAll, bind_assoc]

theorem NewList.pushAll_one (p : P) : new.pushAll [p] = new.push p := by
  rw [pushAll]
  cases new.push p <;> rfl

theorem addSpnego_eq : ∀ oids : List String,
    addSpnego p oids new =
      new.pushAll (if oids.contains gensecOidSpnego then [p] else []) := by
  intro oids
  induction oids with
  | nil => rfl
  | cons oid oids ih =>
    rw [addSpnego]
    by_cases hoid : oid = gensecOidSpnego
    · rw [if_pos hoid, if_pos (by simp [hoid]), NewList.pushAll_one]
    · have hne : ¬gensecOidSpnego = oid := fun h => hoid h.symm
      rw [if_neg hoid, ih]
      simp [hne]

theorem addByField_eq :
    addByField ops policy p new =
      new.pushAll (if takenByField ops policy p then [p] else []) := by
  rw [addByField]
  split
  · exact (new.pushAll_one p).symm
  · rfl

theorem mechsLoop_eq : ∀ (mechs : List P) (new : NewList P),
    mechsLoop ops policy mechs new = new.pushAll (mechs.flatMap (picks ops policy)) := by
  intro mechs
  induction mechs with
  | nil =>
    intro new
    rfl
  | cons p mechs ih =>
    intro new
    rw [mechsLoop, flatMap_cons, picks, NewList.pushAll_append, NewList.pushAll_append]
    simp only [addSpnego_eq, addByField_eq, ih, bind_eq_bind, bind_assoc]
    rfl

/-- Entries are written as long as there are slots. -/
theorem pushAll_spec : ∀ (ps : List P) (done : List P) (free : List (Option P)),
    (NewList.mk (done.map some ++ free) done.length).pushAll ps =
      if ps.length ≤ free.length then
        some ⟨(done ++ ps).map some ++ free.drop ps.length, (done ++ ps).length⟩
      else none := by
  intro ps
  induction ps with
  | nil =>
    intro done free
    simp [NewList.pushAll]
  | cons p ps ih =>
    intro done free
    cases free with
    | nil => simp [NewList.pushAll, NewList.push, NewList.write]
    | cons cell free =>
      have hpush : (NewList.mk (done.map some ++ cell :: free) done.length).push p =
          some ⟨(done ++ [p]).map some ++ free, (done ++ [p]).length⟩ := by
        simp [NewList.push, NewList.write]
      rw [NewList.pushAll, hpush, bind_some, ih]
      simp

theorem entries_map_append (ps : List P) (rest : List (Option P)) :
    entries (ps.map some ++ none :: rest) = some ps := by
  induction ps with
  | nil => rfl
  | cons p ps ih => simp [entries, ih]

/-- **What `gensec_use_kerberos_mechs` does**: both rules are applied to each mechanism. -/
theorem useKerberosMechs_eq (junk : Nat → Option P) {policy : UseKerberos} (hpolicy : policy ≠ .auto)
    {mechs : List P} (hsmall : mechs.length + 1 < maxPointers) :
    gensecUseKerberosMechs ops junk (some mechs) policy =
      if (mechs.flatMap (picks ops policy)).length ≤ mechs.length then
        some (some ((mechs.flatMap (picks ops policy)).map some ++ none ::
          ((List.range (mechs.length + 1)).map junk).drop
            ((mechs.flatMap (picks ops policy)).length + 1)))
      else none := by
  have hspec := pushAll_spec (mechs.flatMap (picks ops policy)) []
    ((range (mechs.length + 1)).map junk)
  simp only [map_nil, nil_append, length_nil, length_map,
    length_range] at hspec
  rw [gensecUseKerberosMechs, if_neg hpolicy]
  simp only [getD_some, if_neg (Nat.not_le.mpr hsmall), bind_eq_bind,
    mechsLoop_eq, hspec]
  generalize mechs.flatMap (picks ops policy) = kept
  by_cases hfits : kept.length ≤ mechs.length
  · rw [if_pos (by omega), if_pos hfits, bind_some, NewList.write, if_pos (by simp; omega)]
    have hcells : ∀ (free : List (Option P)), kept.length < free.length →
        (kept.map some ++ free.drop kept.length).set kept.length none =
          kept.map some ++ none :: free.drop (kept.length + 1) := by
      intro free hlen
      rw [drop_eq_getElem_cons hlen, set_append_right _ _ (by simp),
        length_map, Nat.sub_self, set_cons_zero]
    rw [hcells _ (by simp; omega)]
    rfl
  · split
    · -- every slot is taken: the NULL does not fit
      rw [bind_some, NewList.write, if_neg (by simp; omega)]
      rfl
    · rfl

/-! ## The entries -/

theorem mem_picks {policy : UseKerberos} (hpolicy : policy ≠ .auto) {p q : P} :
    q ∈ picks ops policy p ↔ q = p ∧ allowed ops policy p = true := by
  cases policy with
  | auto => exact absurd rfl hpolicy
  | dont | must =>
    cases hs : isSpnego ops p <;> cases hk : (ops p).kerberos <;>
      simp [picks, allowed, takenByField, hs, hk]

end Choice

end OpenvasSmb.Gensec
