import OpenvasSmb.Kit.Lists
import OpenvasSmb.Kit.Text

/-!
# The identity in credentials (`auth/credentials/credentials.c`)

User name, principal and domain are kept with the level at which they were obtained, and give way
only to a value of at least this level. `cli_credentials_get_ntlm_username_domain` takes the
principal, and no domain, if its level is above that of the user name. A value of the level
`CRED_CALLBACK` is asked of a callback, which none of the calls sets.
-/

namespace OpenvasSmb.Credentials

open Kit List Prod Option

/-- `enum credentials_obtained`, by increasing level. -/
inductive Obtained
  | uninitialised | guessEnv | callback | guessFile | callbackResult | specified
deriving DecidableEq

inductive Field
  | username | principal | domain
deriving DecidableEq

/-- The identity in `struct cli_credentials`: the fields that were set, with their levels. -/
abbrev CliCredentials := Field → Option (Obtained × Text)

/-- The level of a field, which is `CRED_UNINITIALISED` at first. -/
def level (value : Option (Obtained × Text)) : Nat := (value.elim .uninitialised fst).ctorIdx

/-- A call of `cli_credentials_set_username`, `_set_principal` or `_set_domain`. -/
structure Setter where
  field : Field
  val : Text
  obtained : Obtained
deriving DecidableEq

variable {s t : Setter} {ss : List Setter} {c : CliCredentials} {f : Field} {n : Nat}

def set (c : CliCredentials) (s : Setter) : CliCredentials :=
  if level (c s.field) ≤ s.obtained.ctorIdx then Function.update c s.field (some (s.obtained, s.val))
  else c

variable (upper : Text → Text)

/-- Domains are kept in the form `strupper_talloc` gives them. -/
def setDomain (val : Text) (obtained : Obtained) : Setter := ⟨.domain, upper val, obtained⟩

def setAnonymous : List Setter :=
  [⟨.username, [], .specified⟩, setDomain upper [] .specified]

/-- `cli_credentials_parse_string`, without the password and the realm. -/
def parseString (data : Text) (obtained : Obtained) : List Setter :=
  if data = ['%'] then setAnonymous upper
  else
    let uname := data.takeWhile (· ≠ '%')
    if '@' ∈ uname then [⟨.principal, uname, obtained⟩]
    else
      match (cut '\\' uname).or (cut '/' uname) with
      | some (domain, user) => [setDomain upper domain obtained, ⟨.username, user, obtained⟩]
      | none => [⟨.username, uname, obtained⟩]

/-- The value of a field; nothing if the callback would be called. -/
def get (value : Option (Obtained × Text)) : Option (Option Text) :=
  if value.map fst = some .callback then none else some (value.map snd)

/-- The user name and the domain. -/
def getNtlmUsernameDomain (c : CliCredentials) : Option (Option Text × Option Text) :=
  if level (c .username) < level (c .principal) then do some (← get (c .principal), some [])
  else do
    let domain ← get (c .domain)
    some (← get (c .username), domain)

inductive Call
  | setUsername (val : Text) (obtained : Obtained)
  | setPrincipal (val : Text) (obtained : Obtained)
  | setDomain (val : Text) (obtained : Obtained)
  | parseString (data : Text) (obtained : Obtained)
  | setAnonymous

def Call.setters : Call → List Setter
  | .setUsername val obtained => [⟨.username, val, obtained⟩]
  | .setPrincipal val obtained => [⟨.principal, val, obtained⟩]
  | .setDomain val obtained => [Credentials.setDomain upper val obtained]
  | .parseString data obtained => Credentials.parseString upper data obtained
  | .setAnonymous => Credentials.setAnonymous upper

/-- The credentials after some calls on new ones. -/
def run (calls : List Call) : CliCredentials :=
  (calls.flatMap (Call.setters upper)).foldl set fun _ => none

/-! ## Values that stay -/

theorem set_of_ne (h : s.field ≠ f) : set c s f = c f := by
  unfold set
  split
  · exact Function.update_of_ne h.symm ..
  · rfl

theorem set_of_lt (h : s.obtained.ctorIdx < level (c f)) : set c s f = c f := by
  by_cases hf : s.field = f
  · subst hf
    rw [set, if_neg (by omega)]
  · exact set_of_ne hf

theorem set_self (h : level (c s.field) ≤ s.obtained.ctorIdx) :
    set c s s.field = some (s.obtained, s.val) := by
  rw [set, if_pos h, Function.update_self]

theorem level_set_le (h : level (c f) ≤ n) (hs : s.obtained.ctorIdx ≤ n) :
    level (set c s f) ≤ n := by
  by_cases hf : s.field = f
  · subst hf
    rcases Nat.lt_or_ge s.obtained.ctorIdx (level (c s.field)) with hlt | hge
    · rwa [set_of_lt hlt]
    · rwa [set_self hge]
  · rwa [set_of_ne hf]

theorem level_foldl_le (h : ∀ s ∈ ss, s.obtained.ctorIdx ≤ n) (hc : level (c f) ≤ n) :
    level (ss.foldl set c f) ≤ n :=
  foldlRecOn (motive := fun c => level (c f) ≤ n) ss set hc fun _ hc s hs =>
    level_set_le hc (h s hs)

/-- Later setters leave a field alone that is another one, or has a higher level. -/
theorem foldl_of_other (h : ∀ s ∈ ss, s.field ≠ f ∨ s.obtained.ctorIdx < level (c f)) :
    ss.foldl set c f = c f := by
  refine foldlRecOn (motive := fun c' => c' f = c f) ss set rfl fun c' hc' s hs => ?_
  rw [← hc'] at h ⊢
  exact (h s hs).elim set_of_ne set_of_lt

/-- A call sets each field at most once, and all of them at the same level. -/
theorem Call.setters_apart (call : Call) :
    (call.setters upper).Pairwise (fun s t => t.field ≠ s.field) ∧
      ∃ o, ∀ s ∈ call.setters upper, s.obtained = o := by
  cases call with
  | parseString data obtained =>
    simp only [setters, Credentials.parseString]
    split_ifs
    · simp [Credentials.setAnonymous, Credentials.setDomain]
    · simp
    · split <;> simp [Credentials.setDomain]
  | _ => simp [setters, Credentials.setAnonymous, Credentials.setDomain]

theorem foldl_sets {o : Obtained} (h : ss.Pairwise fun s t => t.field ≠ s.field)
    (ho : ∀ s ∈ ss, s.obtained = o) (hc : ∀ f, level (c f) ≤ o.ctorIdx) :
    ∀ s ∈ ss, ss.foldl set c s.field = some (o, s.val) := by
  induction ss generalizing c with
  | nil => simp
  | cons s ss ih =>
    obtain ⟨hhead, hss⟩ := pairwise_cons.mp h
    obtain ⟨rfl, ho⟩ := forall_mem_cons.mp ho
    rw [forall_mem_cons, foldl_cons, foldl_of_other fun t ht => .inl (hhead t ht)]
    exact ⟨set_self (hc _), ih hss ho fun f => level_set_le (hc f) (Nat.le_refl _)⟩

/-! ## The latest call of the highest level -/

def Latest (call : Call) (calls : List Call) : Prop :=
  ∃ earlier later, calls = earlier ++ call :: later ∧ ∀ s ∈ call.setters upper,
    (∀ t ∈ earlier.flatMap (Call.setters upper), t.obtained.ctorIdx ≤ s.obtained.ctorIdx) ∧
    ∀ t ∈ later.flatMap (Call.setters upper), t.obtained.ctorIdx < s.obtained.ctorIdx

variable {upper} {call : Call} {calls : List Call}

/-- The fields of the latest call are as it has set them, and no field has a higher level. -/
theorem Latest.fields (h : Latest upper call calls) (hs : s ∈ call.setters upper) :
    run upper calls s.field = some (s.obtained, s.val) ∧
      ∀ f, level (run upper calls f) ≤ s.obtained.ctorIdx := by
  obtain ⟨earlier, later, rfl, hlevels⟩ := h
  obtain ⟨hapart, o, ho⟩ := call.setters_apart upper
  obtain ⟨hbefore, hafter⟩ := hlevels s hs
  rw [ho s hs] at hbefore hafter ⊢
  have hearly : ∀ f, level ((earlier.flatMap (Call.setters upper)).foldl set (fun _ => none) f) ≤
      o.ctorIdx := fun f => level_foldl_le hbefore (Nat.zero_le _)
  have hcall := foldl_sets hapart ho hearly s hs
  rw [run, flatMap_append, flatMap_cons, foldl_append, foldl_append]
  constructor
  · rwa [foldl_of_other fun t ht => .inr ?_]
    rw [hcall]
    exact hafter t ht
  · intro f
    refine level_foldl_le (fun t ht => (hafter t ht).le) (level_foldl_le (fun t ht => ?_) (hearly f))
    rw [ho t ht]

/-- The value of a setter is what is reported; a principal is a user without a domain. -/
def Setter.Reported (s : Setter) (r : Option Text × Option Text) : Prop :=
  match s.field with
  | .username => r.1 = some s.val
  | .principal => r = (some s.val, some [])
  | .domain => r.2 = some s.val

def Reports (c : CliCredentials) (call : List Setter) : Prop :=
  ∃ r, getNtlmUsernameDomain c = some r ∧ ∀ s ∈ call, s.Reported r

/-- No field that is read is asked of a callback; behind a principal that is preferred nothing but
an empty domain is set, and a principal that is not preferred is what the other fields say. -/
def Preferred (c : CliCredentials) (call : List Setter) : Prop :=
  if level (c .username) < level (c .principal) then
    (c .principal).map fst ≠ some .callback ∧ ∀ s ∈ call, s.field = .domain → s.val = []
  else
    (c .domain).map fst ≠ some .callback ∧ (c .username).map fst ≠ some .callback ∧
      ∀ s ∈ call, s.field = .principal →
        (c .username).map snd = some s.val ∧ (c .domain).map snd = some []

/-- **The identity that is reported** is that of the latest call among those of the highest level
exactly if it is preferred. -/
theorem ntlm_identity_iff (h : Latest upper call calls) :
    Reports (run upper calls) (call.setters upper) ↔
      Preferred (run upper calls) (call.setters upper) := by
  have hfields := fun s hs => h.fields (s := s) hs
  generalize run upper calls = c at hfields
  rw [Reports, Preferred, getNtlmUsernameDomain]
  split
  · rename_i hlt
    by_cases hcb : (c .principal).map fst = some .callback
    · simp [get, hcb]
    simp only [get, hcb, if_false, bind_eq_bind, bind_some, some.injEq,
      exists_eq_left', ne_eq, not_false_eq_true, true_and]
    refine forall₂_congr fun s hs => ?_
    obtain ⟨hfield, hle⟩ := hfields s hs
    cases hf : s.field with
    | username =>
      rw [hf] at hfield
      rw [hfield] at hlt
      exact absurd (hle .principal) (Nat.not_le.mpr hlt)
    | principal =>
      rw [hf] at hfield
      simp [Setter.Reported, hf, hfield]
    | domain => simp [Setter.Reported, hf, eq_comm]
  · by_cases hdom : (c .domain).map fst = some .callback
    · simp [get, hdom]
    by_cases hname : (c .username).map fst = some .callback
    · simp [get, hname, hdom]
    simp only [get, hdom, hname, if_false, bind_eq_bind, bind_some, some.injEq,
      exists_eq_left', ne_eq, not_false_eq_true, true_and]
    refine forall₂_congr fun s hs => ?_
    obtain ⟨hfield, -⟩ := hfields s hs
    cases hf : s.field <;> rw [hf] at hfield <;> simp [Setter.Reported, hf, hfield]

theorem ntlm_identity_user :
    Reports (run id [.setPrincipal ['p'] .guessFile, .parseString "D/u".toList .specified,
        .setUsername ['v'] .guessEnv])
      [⟨.domain, ['D'], .specified⟩, ⟨.username, ['u'], .specified⟩] :=
  have hlast : Latest id (.parseString "D/u".toList .specified) _ :=
    ⟨[.setPrincipal ['p'] .guessFile], [.setUsername ['v'] .guessEnv], rfl, by decide⟩
  (ntlm_identity_iff hlast).mpr (by rw [Preferred]; decide)

/-- A principal loses against a user name of its level that was set before it, and a domain against
a principal; a value of the level `CRED_CALLBACK` is not found at all. -/
theorem ntlm_identity_loses :
    getNtlmUsernameDomain (run id [.parseString "D/u".toList .specified,
        .parseString "p@r".toList .specified]) = some (some ['u'], some ['D']) ∧
      getNtlmUsernameDomain (run id [.setPrincipal "p@r".toList .specified,
        .setDomain ['D'] .specified]) = some (some "p@r".toList, some []) ∧
      getNtlmUsernameDomain (run id [.setUsername ['u'] .callback]) = none := by
  decide

end OpenvasSmb.Credentials
