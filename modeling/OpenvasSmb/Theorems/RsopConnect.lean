import OpenvasSmb.Wmi.Rsop
import OpenvasSmb.Theorems.WmiRegistry

/-!
# The handle of an RSOP session

`wmi_connect_rsop` is meant to return the services of a second connection, made to the namespace
that the server returned for the session, or NULL. The namespace is never read from the object that
the server returned: what is taken for it is the number 4 that was put into the union before. So
the function does what it is meant to do exactly where it does not get that far
(`rsop_handle_iff`).
-/

namespace OpenvasSmb.Wmi

open Wbem

variable {H : Type} (S : RsopServer H) (args : Option String)

/-- The server returned the namespace, as a string property of the object that came back from
`RsopCreateSession`. -/
def ReturnedNamespace (S : Provider) (text : String) : Prop :=
  ∃ out name, (rsopCreateSession S).run = some (.ok (some out)) ∧
    wbemClassObjectGet out name (.ofString none) =
      some (.ok, ⟨some .string, .string (some text)⟩)

/-- A handle is the services of a second connection that succeeded, to the namespace that the server
returned; otherwise NULL is returned. -/
def HandleRight (outcome : Option (RsopOutcome H)) :
    Prop :=
  ∃ o, outcome = some o ∧ ∀ h, o.handle = some h →
    ∃ host pWS text, args = some host ∧
      (S.connect host rsopNamespace).1.isOk = true ∧
      (S.connect host rsopNamespace).2 = some pWS ∧
      ReturnedNamespace (S.provider pWS) text ∧
      o.namespaces = [rsopNamespace, text ++ "\\computer"] ∧
      (S.connect host (text ++ "\\computer")).1.isOk = true ∧
      (S.connect host (text ++ "\\computer")).2 = some h

/-- The function ends before the second connection, with an error. -/
def EndsEarly : Prop :=
  ∀ host, args = some host →
    (S.connect host rsopNamespace).1.isOk = false ∨
      ∃ pWS w, (S.connect host rsopNamespace).2 = some pWS ∧
        (rsopCreateSession (S.provider pWS)).run = some (.error w)

theorem handleRight_null (namespaces : List String) :
    HandleRight S args (some ⟨none, namespaces⟩) :=
  ⟨_, rfl, fun _ hh => absurd hh (by simp)⟩

theorem not_handleRight_none :
    ¬HandleRight S args none := by
  rintro ⟨o, ho, -⟩
  cases ho

/-- **The handle is right** exactly if an error ends the function before the second connection. -/
theorem rsop_handle_iff :
    (∀ P, HandleRight S args (wmiConnectRsop S P args)) ↔ EndsEarly S args := by
  cases args with
  | none =>
    refine iff_of_true (fun P => handleRight_null S none []) ?_
    intro host hhost
    cases hhost
  | some host =>
    have hends : EndsEarly S (some host) ↔ ((S.connect host rsopNamespace).1.isOk = false ∨
        ∃ pWS w, (S.connect host rsopNamespace).2 = some pWS ∧
          (rsopCreateSession (S.provider pWS)).run = some (.error w)) := by
      refine ⟨fun h => h host rfl, fun h host' hhost => ?_⟩
      cases hhost
      exact h
    rw [hends]
    simp only [wmiConnectRsop]
    by_cases hfirst : (S.connect host rsopNamespace).1.isOk = false
    · simp only [if_pos hfirst]
      exact iff_of_true (fun P => handleRight_null S _ _) (.inl hfirst)
    · simp only [if_neg hfirst, or_iff_right hfirst, Option.bind_eq_bind]
      cases hservices : (S.connect host rsopNamespace).2 with
      | none =>
        refine iff_of_false (fun h => not_handleRight_none S _ (h ⟨fun _ _ => 0, fun _ => none⟩)) ?_
        rintro ⟨pWS, w, hpWS, -⟩
        cases hpWS
      | some pWS =>
        rcases hsession : (rsopCreateSession (S.provider pWS)).run with _ | w | out
        case error =>
          refine iff_of_true (fun P => ?_) ⟨pWS, w, rfl, hsession⟩
          simp only [Option.bind_some, hsession]
          exact handleRight_null S _ _
        -- the number of a session is followed as if it were a string
        all_goals
          refine iff_of_false ?_ ?_
          · intro h
            have hnone := h ⟨fun _ _ => 0, fun _ => none⟩
            simp only [Option.bind_some, hsession] at hnone
            exact not_handleRight_none S _ hnone
          · rintro ⟨pWS', w, hpWS, hrun⟩
            cases hpWS
            rw [hsession] at hrun
            cases hrun

/-! ## Samples -/

/-- Services that create a session and return a namespace. -/
def sessionProvider : Provider :=
  serving ["RsopCreateSession"] [propertyOf "flags" cimUint32] [propertyOf "nameSpace" cimString]
    [.string (some "root\\rsop\\session")]

/-- A server with one pair of services, which has the first namespace only. -/
def sampleServer : RsopServer Nat where
  connect _ nspace := if nspace = rsopNamespace then (.ok, some 1) else (⟨5⟩, none)
  provider _ := sessionProvider

/-- The session is created, and the number 4 is followed as an address. Where a string happens to
be, the second connection fails, and the services of the first one are returned. -/
theorem rsop_handle_wrong :
    wmiConnectRsop sampleServer ⟨fun _ _ => 0, fun _ => none⟩ (some "host") = none ∧
      wmiConnectRsop sampleServer ⟨fun _ _ => 0, fun _ => some none⟩ (some "host") =
        some ⟨some 1, ["root\\rsop", "\\computer"]⟩ := by
  decide

end OpenvasSmb.Wmi
