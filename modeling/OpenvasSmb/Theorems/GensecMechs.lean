import OpenvasSmb.Gensec.Mechs
import Mathlib.Data.List.Nodup

/-!
# The mechanisms that a kerberos policy leaves

For a list of mechanisms without duplicates, `gensec_use_kerberos_mechs` is meant to return the
allowed ones, each once and in order, in an array they fit into. SPNEGO is taken for its OID and,
its `kerberos` field being false, once more when kerberos is not to be used: its entry is doubled,
and if nothing else was left out the NULL is written behind the array. Otherwise the list is right
(`use_kerberos_mechs_correct_iff`).
-/

namespace OpenvasSmb.Gensec

open List

variable {P : Type} (ops : P → GensecSecurityOps)

/-- The array was written inside and ends with NULL, and its entries are the allowed mechanisms,
each once and in order. -/
def MechsCorrect (mechs : List P) (policy : UseKerberos)
    (r : Option (Option (List (Option P)))) : Prop :=
  ∃ cells kept, r = some (some cells) ∧ entries cells = some kept ∧
    kept.Nodup ∧ kept = mechs.filter (allowed ops policy)

/-- If not both rules take a mechanism, they take the allowed ones once. -/
theorem flatMap_picks {policy : UseKerberos} (hpolicy : policy ≠ .auto) : ∀ (mechs : List P),
    (∀ p ∈ mechs, isSpnego ops p = true → takenByField ops policy p = false) →
    mechs.flatMap (picks ops policy) = mechs.filter (allowed ops policy) := by
  intro mechs
  induction mechs with
  | nil =>
    intro _
    rfl
  | cons p mechs ih =>
    intro honce
    have hrest := ih fun q hq => honce q (mem_cons_of_mem _ hq)
    have hp := honce p mem_cons_self
    rw [flatMap_cons, hrest, filter_cons]
    by_cases hallowed : allowed ops policy p = true
    · -- one of the rules takes it, and only one
      rw [if_pos hallowed]
      have hmem : p ∈ picks ops policy p := (mem_picks ops hpolicy).mpr ⟨rfl, hallowed⟩
      rw [picks] at hmem ⊢
      cases hs : isSpnego ops p with
      | true => simp [hp hs]
      | false =>
        cases hf : takenByField ops policy p with
        | true => simp
        | false => simp [hs, hf] at hmem
    · rw [if_neg hallowed]
      have hnone : picks ops policy p = [] := by
        rw [eq_nil_iff_forall_not_mem]
        intro q hq
        exact hallowed ((mem_picks ops hpolicy).mp hq).2
      rw [hnone, nil_append]

/-- A mechanism that both rules take is there twice. -/
theorem not_nodup_of_both {policy : UseKerberos} {mechs : List P} {p : P} (hp : p ∈ mechs)
    (hspnego : isSpnego ops p = true) (hfield : takenByField ops policy p = true) :
    ¬(mechs.flatMap (picks ops policy)).Nodup := by
  intro hnodup
  have hpicks : (picks ops policy p).Nodup := (nodup_flatMap.mp hnodup).1 p hp
  simp [picks, hspnego, hfield] at hpicks

/-- **The mechanisms are right** exactly if kerberos is left to choose, or the array can be
allocated and SPNEGO does not meet the policy that excludes kerberos. -/
theorem use_kerberos_mechs_correct_iff (junk : Nat → Option P) {mechs : List P}
    (hnodup : mechs.Nodup) (hspnego : ∀ p ∈ mechs, isSpnego ops p = true → (ops p).kerberos = false)
    (policy : UseKerberos) :
    MechsCorrect ops mechs policy (gensecUseKerberosMechs ops junk (some mechs) policy) ↔
      policy = .auto ∨ (mechs.length + 1 < maxPointers ∧
        (policy = .dont → ∀ p ∈ mechs, isSpnego ops p = false)) := by
  by_cases hauto : policy = .auto
  · subst hauto
    refine iff_of_true ?_ (.inl rfl)
    have hall : mechs.filter (allowed ops .auto) = mechs := by
      rw [filter_eq_self]
      intro p _
      simp [allowed]
    exact ⟨_, mechs, rfl, entries_map_append mechs [], hnodup, hall.symm⟩
  · rw [or_iff_right hauto]
    by_cases hsmall : mechs.length + 1 < maxPointers
    · rw [and_iff_right hsmall, useKerberosMechs_eq ops junk hauto hsmall]
      constructor
      · rintro ⟨cells, kept, hcells, hkept, hkeptNodup, -⟩ rfl p hp
        -- an entry for each rule: the entries are not without duplicates
        rw [Bool.eq_false_iff]
        intro hs
        split at hcells
        · cases hcells
          rw [entries_map_append] at hkept
          cases hkept
          exact not_nodup_of_both ops hp hs (by simp [takenByField, hspnego p hp hs]) hkeptNodup
        · cases hcells
      · intro hdont
        have honce : ∀ p ∈ mechs, isSpnego ops p = true → takenByField ops policy p = false := by
          intro p hp hs
          cases policy with
          | auto => exact absurd rfl hauto
          | dont => simp [hdont rfl p hp] at hs
          | must => exact hspnego p hp hs
        rw [flatMap_picks ops hauto mechs honce, if_pos (length_filter_le _ _)]
        exact ⟨_, _, rfl, entries_map_append _ _, hnodup.filter _, rfl⟩
    · refine iff_of_false ?_ fun h => hsmall h.1
      rintro ⟨cells, kept, hcells, -⟩
      rw [gensecUseKerberosMechs, if_neg hauto] at hcells
      simp only [Option.getD_some, if_pos (Nat.not_lt.mp hsmall)] at hcells
      cases hcells

/-! ## Samples -/

/-- SPNEGO, NTLMSSP and Kerberos as they are registered. -/
def sampleOps (p : Fin 3) : GensecSecurityOps :=
  match p with
  | 0 => ⟨some [gensecOidSpnego], false⟩
  | 1 => ⟨some ["1 3 6 1 4 1 311 2 2 10"], false⟩
  | 2 => ⟨some ["1 2 840 113554 1 2 2"], true⟩

theorem use_kerberos_mechs_must :
    ([0, 1, 2] : List (Fin 3)).Nodup ∧
      MechsCorrect sampleOps [0, 1, 2] .must
        (gensecUseKerberosMechs sampleOps (fun _ => none) (some [0, 1, 2]) .must) :=
  ⟨by decide, (use_kerberos_mechs_correct_iff sampleOps (fun _ => none)
    (by decide) (by decide) .must).mpr (.inr ⟨by decide, by decide⟩)⟩

/-- Without kerberos SPNEGO is there twice; without a kerberos mechanism among them, the array
is too short. -/
theorem spnego_twice :
    (gensecUseKerberosMechs sampleOps (fun _ => none) (some [0, 1, 2]) .dont =
        some (some [some 0, some 0, some 1, none]) ∧
      ¬MechsCorrect sampleOps [0, 1, 2] .dont (some (some [some 0, some 0, some 1, none]))) ∧
    gensecUseKerberosMechs sampleOps (fun _ => none) (some [0, 1]) .dont = none := by
  refine ⟨⟨by decide, ?_⟩, by decide⟩
  rintro ⟨cells, kept, hcells, hkept, hnodup, -⟩
  cases hcells
  cases hkept
  exact absurd hnodup (by decide)

end OpenvasSmb.Gensec
