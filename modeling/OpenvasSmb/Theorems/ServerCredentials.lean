import OpenvasSmb.Dcom.Bindings

/-!
# Credentials of servers

The list of credentials should answer like a map from server names to credentials, with a
default. It does as long as no name is given credentials after it was given none: an entry
without credentials is never changed again (`credentials_answers_iff`).
-/

namespace OpenvasSmb.Dcom

open Kit Dcerpc List ServerCredentials

variable {C : Type}

/-- A call of `dcom_set_server_credentials`. -/
abbrev SetCall (C : Type) := ServerCredentials C

variable (calls : List (SetCall C))

def afterCalls : List (ServerCredentials C) :=
  calls.foldl (fun l call => dcomSetServerCredentials l call.server call.credentials) []

def lastSet (server : Option Text) : Option (Option C) :=
  (calls.filter fun call => call.server = server).getLast?.map credentials

/-- The answers are those of the last calls, and a call for one server leaves those for others
alone. -/
structure AnswersLikeMap (calls : List (SetCall C)) : Prop where
  answer : ∀ server, dcomGetServerCredentials (afterCalls calls) server =
    (lastSet calls server).getD ((lastSet calls none).getD none)
  apart : ∀ name credentials other, other ≠ some name →
    dcomGetServerCredentials (dcomSetServerCredentials (afterCalls calls) (some name) credentials)
      other = dcomGetServerCredentials (afterCalls calls) other

/-! ## The list as a map -/

def entry (l : List (ServerCredentials C)) (server : Option Text) : Option (Option C) :=
  (l.find? fun c => c.server = server).map credentials

/-- No server has two entries. -/
def Unique (l : List (ServerCredentials C)) : Prop := (l.map server).Nodup

variable {l : List (ServerCredentials C)}

theorem entry_cons (c : ServerCredentials C) (l : List (ServerCredentials C))
    (server : Option Text) :
    entry (c :: l) server = if c.server = server then some c.credentials else entry l server := by
  by_cases h : c.server = server <;> simp [h, entry]

theorem entry_eq_none_iff {server : Option Text} :
    entry l server = none ↔ server ∉ l.map ServerCredentials.server := by
  simp [entry]

theorem getLoop_eq (server : Option Text) (d : Option C) (h : Unique l) :
    getLoop server d l = (entry l server).getD ((entry l none).getD d) := by
  induction l generalizing d with
  | nil => rfl
  | cons c l ih =>
    obtain ⟨hc, hl⟩ := nodup_cons.mp h
    rw [← entry_eq_none_iff] at hc
    rw [getLoop, entry_cons, entry_cons]
    cases hserver : c.server with
    | none =>
      rw [hserver] at hc
      cases server <;> simp [ih _ hl, hc]
    | some name => 
      simp only [ih _ hl, eq_comm, reduceCtorEq, if_false]
      split <;> rfl

/-- What the entry of a server holds after a call: one without credentials stays so. -/
def changed : Option (Option C) → Option C → Option C
  | some none, _ => none
  | _, credentials => credentials

theorem changed_eq_iff {old : Option (Option C)} {credentials : Option C} :
    changed old credentials = credentials ↔ (old = some none → credentials = none) := by
  rcases old with _ | _ | held <;> simp [changed, eq_comm]

theorem setLoop_spec (server : Option Text) (credentials : Option C)
    (l : List (ServerCredentials C)) :
    (entry l server = none ∧ setLoop server credentials l = none) ∨
      ∃ l', setLoop server credentials l = some l' ∧
        l'.map ServerCredentials.server = l.map ServerCredentials.server ∧
        ∀ k, entry l' k = if server = k then some (changed (entry l server) credentials)
          else entry l k := by
  induction l with
  | nil => exact .inl ⟨rfl, rfl⟩
  | cons c l ih =>
    rw [setLoop, entry_cons]
    by_cases h : c.server = server
    · subst h
      refine .inr ⟨_, if_pos rfl, ?_, fun k => ?_⟩
      · cases c.credentials <;> rfl
      · rw [entry_cons, entry_cons]
        cases hc : c.credentials <;> simp [changed] <;> grind
    · rw [if_neg h, if_neg h]
      rcases ih with ⟨hnone, hloop⟩ | ⟨l', hloop, hservers, hentry⟩
      · exact .inl ⟨hnone, by rw [hloop]; rfl⟩
      · refine .inr ⟨c :: l', by rw [hloop]; rfl, by simp [hservers], fun k => ?_⟩
        rw [entry_cons, entry_cons, hentry]
        by_cases hk : server = k
        · simp [← hk, h]
        · simp [hk]

theorem entry_set (l : List (ServerCredentials C)) (server : Option Text)
    (credentials : Option C) (k : Option Text) :
    entry (dcomSetServerCredentials l server credentials) k =
      if server = k then some (changed (entry l server) credentials) else entry l k := by
  rw [dcomSetServerCredentials]
  rcases setLoop_spec server credentials l with ⟨hnone, hloop⟩ | ⟨l', hloop, -, hentry⟩
  · rw [hloop, hnone]
    exact entry_cons ..
  · rw [hloop]
    exact hentry k

theorem Unique.set (h : Unique l) (server : Option Text) (credentials : Option C) :
    Unique (dcomSetServerCredentials l server credentials) := by
  rw [dcomSetServerCredentials]
  rcases setLoop_spec server credentials l with ⟨hnone, hloop⟩ | ⟨l', hloop, hservers, -⟩
  · rw [hloop]
    exact nodup_cons.mpr ⟨entry_eq_none_iff.mp hnone, h⟩
  · rw [hloop]
    exact (congrArg List.Nodup hservers).mpr h

/-! ## Sequences of calls -/

variable (calls : List (SetCall C)) (server : Option Text)

theorem afterCalls_append (call : SetCall C) :
    afterCalls (calls ++ [call]) =
      dcomSetServerCredentials (afterCalls calls) call.server call.credentials := by
  simp [afterCalls]

theorem unique_afterCalls : Unique (afterCalls calls) := by
  induction calls using reverseRecOn with
  | nil => exact nodup_nil
  | append_singleton calls call ih =>
    rw [afterCalls_append]
    exact ih.set ..

theorem lastSet_append (call : SetCall C) (server : Option Text) :
    lastSet (calls ++ [call]) server =
      if call.server = server then some call.credentials else lastSet calls server := by
  by_cases h : call.server = server <;> simp [lastSet, filter_append, h]

theorem get_afterCalls :
    dcomGetServerCredentials (afterCalls calls) server =
      (entry (afterCalls calls) server).getD ((entry (afterCalls calls) none).getD none) :=
  getLoop_eq server none (unique_afterCalls calls)

theorem entry_isNone_iff :
    entry (afterCalls calls) server = none ↔ lastSet calls server = none := by
  induction calls using reverseRecOn with
  | nil => exact Iff.rfl
  | append_singleton calls call ih =>
    rw [afterCalls_append, entry_set, lastSet_append]
    split
    · simp
    · exact ih

theorem answersLikeMap_iff :
    AnswersLikeMap calls ↔ ∀ server, entry (afterCalls calls) server = lastSet calls server := by
  constructor
  · intro h server
    have hanswer := h.answer server
    rw [get_afterCalls] at hanswer
    cases hset : lastSet calls server with
    | none => exact (entry_isNone_iff calls server).mpr hset
    | some set =>
      cases hentry : entry (afterCalls calls) server with
      | none => rw [(entry_isNone_iff calls server).mp hentry] at hset; cases hset
      | some held =>
        rw [hset, hentry] at hanswer
        exact congrArg some hanswer
  · intro h
    refine ⟨fun server => by rw [get_afterCalls, h, h], fun name credentials other hne => ?_⟩
    have hget := getLoop_eq other none ((unique_afterCalls calls).set (some name) credentials)
    rw [dcomGetServerCredentials, hget, get_afterCalls, entry_set, entry_set, if_neg (Ne.symm hne)]
    rfl

/-- No server is given credentials after it was given none. -/
def NeverRestored (earlier later : SetCall C) : Prop :=
  earlier.server = later.server → earlier.credentials = none → later.credentials = none

theorem lastSet_null {calls : List (SetCall C)} (h : calls.Pairwise NeverRestored)
    (server : Option Text) :
    lastSet calls server = some none ↔ ∃ e ∈ calls, e.server = server ∧ e.credentials = none := by
  induction calls using reverseRecOn with
  | nil => simp [lastSet]
  | append_singleton calls call ih =>
    obtain ⟨hcalls, -, hlater⟩ := pairwise_append.mp h
    rw [lastSet_append]
    split
    · rename_i hserver
      constructor
      · intro hnull
        exact ⟨call, by simp, hserver, Option.some.inj hnull⟩
      · rintro ⟨e, he, heserver, henull⟩
        rcases mem_append.mp he with he | he
        · exact congrArg some (hlater e he call (by simp) (heserver.trans hserver.symm) henull)
        · rw [← mem_singleton.mp he, henull]
    · rename_i hserver
      grind

/-- **The credentials are a map from names** iff no server is given credentials after it was given
none. -/
theorem credentials_answers_iff :
    (∀ done, done <+: calls → AnswersLikeMap done) ↔ calls.Pairwise NeverRestored := by
  induction calls using reverseRecOn with
  | nil =>
    simp only [prefix_nil, forall_eq, List.Pairwise.nil, iff_true]
    exact (answersLikeMap_iff []).mpr fun _ => rfl
  | append_singleton calls call ih =>
    have hsplit : (∀ done, done <+: calls ++ [call] → AnswersLikeMap done) ↔
        (∀ done, done <+: calls → AnswersLikeMap done) ∧ AnswersLikeMap (calls ++ [call]) := by
      simp only [prefix_concat_iff]
      grind
    rw [hsplit, ih, pairwise_append]
    simp only [pairwise_singleton, true_and, mem_singleton, forall_eq]
    refine and_congr_right fun hcalls => ?_
    have hheld := (answersLikeMap_iff calls).mp (ih.mpr hcalls calls (prefix_refl _))
    rw [answersLikeMap_iff]
    -- only the entry of the new call can be wrong
    have hone : (∀ server, entry (afterCalls (calls ++ [call])) server =
        lastSet (calls ++ [call]) server) ↔
          (lastSet calls call.server = some none → call.credentials = none) := by
      simp only [afterCalls_append, entry_set, lastSet_append, hheld]
      rw [← changed_eq_iff]
      constructor
      · intro h
        have hown := h call.server
        rw [if_pos rfl, if_pos rfl] at hown
        exact Option.some.inj hown
      · intro h server
        rw [h]
    rw [hone, lastSet_null hcalls]
    exact ⟨fun h e he hs hn => h ⟨e, he, hs, hn⟩, fun h ⟨e, he, hs, hn⟩ => h e he hs hn⟩

/-- A server that was once given no credentials keeps none. -/
theorem credentials_not_restored :
    dcomGetServerCredentials (afterCalls [⟨some ['s'], none⟩, ⟨some ['s'], some 1⟩]) (some ['s']) =
      none ∧
    lastSet [⟨some ['s'], none⟩, ⟨some ['s'], some 1⟩] (some ['s']) = some (some 1) := by
  decide

/-- The names of an object exporter are set one after the other. -/
theorem updateForAliases_eq (bindings : List StringBinding) :
    dcomUpdateCredentialsForAliases (afterCalls calls) server bindings =
      afterCalls (calls ++ (aliases bindings).map fun host =>
        ⟨some host, dcomGetServerCredentials (afterCalls calls) server⟩) := by
  rw [dcomUpdateCredentialsForAliases, afterCalls, afterCalls, foldl_append, foldl_map]

end OpenvasSmb.Dcom
