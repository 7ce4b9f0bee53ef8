import OpenvasSmb.Dcerpc.BindingOptions

/-!
# Binding strings are read safely and read back

The parser looks at the last character behind the first `[` before it knows that there is one, and
so reads in front of its copy if nothing is behind the bracket. No other access is outside
(`parse_returns_iff`).

What was parsed is printed in a normal form: a UUID of zeros is left out, the flags come last.
Reading it again gives the same binding unless the text has no UUID and its first `@` happens to
stand where a UUID would end (`parsed_again_iff`).
-/

namespace OpenvasSmb.Dcerpc

open Kit Security List Option Except DcerpcBinding

/-! ## The parser on lists -/

variable (uuid : Security.Guid) (s : Text) (b : DcerpcBinding)

/-- The binding of a host and the text between its brackets. -/
def assembled (transport : Transport) (host : Text) : Option Text → DcerpcBinding
  | none => ⟨transport, uuid, 0, some host, some host, none, none, 0⟩
  | some options =>
    ⟨transport, uuid, 0, some host, some host,
      endpointOf ((options.splitOn ',').filter isPlain),
      optionsOf ((options.splitOn ',').filter isPlain), flagsOf (options.splitOn ',')⟩

/-- The parser, with its array replaced by lists. -/
theorem dcerpcParseBinding_eq :
    dcerpcParseBinding s = (parseObject s).bind fun object =>
      (parseTransport object.2).bind fun transport =>
        (parseHost transport.2).map fun host =>
          assembled object.1 transport.1 host.1 host.2 := by
  rw [dcerpcParseBinding]
  cases parseObject s with
  | error e => rfl
  | ok object =>
    show (parseTransport object.2 >>= _) = (parseTransport object.2).bind _
    cases parseTransport object.2 with
    | error e => rfl
    | ok transport =>
      show (parseHost transport.2 >>= _) = (parseHost transport.2).map _
      cases parseHost transport.2 with
      | error e => rfl
      | ok host =>
        obtain ⟨host, options⟩ := host
        cases options with
        | none => rfl
        | some options =>
          show (orFault (parseOptions options) >>= _) = _
          rw [parseOptions_eq]
          rfl

/-- Where the first `@` of a text stands. -/
def atSign : Option Nat := (cut '@' s).map fun parts => parts.1.length

theorem parseObject_eq :
    parseObject s = if atSign s = some 36 then
      (guidFromString s).elim (.error (.status .invalidParameter)) fun uuid => .ok (uuid, s.drop 37)
    else .ok (guidZero, s) := by
  rw [parseObject, atSign]
  cases hcut : cut '@' s with
  | none => rfl
  | some parts =>
    obtain ⟨rfl, -⟩ := cut_eq_some_iff.mp hcut
    by_cases hlen : parts.1.length = 36
    · have hdrop : (parts.1 ++ '@' :: parts.2).drop 37 = parts.2 := by
        rw [drop_append, hlen, drop_of_length_le (by omega)]
        rfl
      simp only [map_some, hlen, hdrop, if_true]
      cases guidFromString (parts.1 ++ '@' :: parts.2) with
      | none => rfl
      | some uuid => rfl
    · simp [hlen]

/-! ## What stays inside -/

/-- What stands behind the UUID of the object, if the text has one. -/
def BehindObject (s rest : Text) : Prop :=
  (atSign s = some 36 ∧ guidFromString s ≠ none ∧ rest = s.drop 37) ∨
    (atSign s ≠ some 36 ∧ rest = s)

/-- A known transport and a host follow, and the text ends with the bracket behind them. -/
def EndsWithBracket : Prop :=
  ∃ rest type host, BehindObject s rest ∧ rest = type ++ ':' :: (host ++ ['[']) ∧ ':' ∉ type ∧
    (∃ t ∈ transports, strcaseeq type t.name = true) ∧ '[' ∉ host

theorem parseHost_fault {s : Text} :
    parseHost s = .error .fault ↔ ∃ host, s = host ++ ['['] ∧ '[' ∉ host := by
  have hcut : parseHost s = .error .fault ↔ ∃ host, cut '[' s = some (host, []) := by
    rw [parseHost]
    cases cut '[' s with
    | none => simp
    | some parts =>
      obtain ⟨host, options⟩ := parts
      cases hlast : options.getLast? with
      | none => simp [getLast?_eq_none_iff.mp hlast]
      | some last =>
        have hne : options ≠ [] := by rintro rfl; cases hlast
        simp only [hlast]
        split <;> simp [hne]
  rw [hcut]
  exact exists_congr fun host => cut_eq_some_iff

theorem parseTransport_ok {s rest : Text} :
    (∃ transport, parseTransport s = .ok (transport, rest)) ↔
      ∃ type, s = type ++ ':' :: rest ∧ ':' ∉ type ∧
        ∃ t ∈ transports, strcaseeq type t.name = true := by
  have hcut : (∃ transport, parseTransport s = .ok (transport, rest)) ↔
      ∃ type, cut ':' s = some (type, rest) ∧ ∃ t ∈ transports, strcaseeq type t.name = true := by
    rw [parseTransport]
    cases cut ':' s with
    | none => simp
    | some parts =>
      cases hfind : transports.find? fun t => strcaseeq parts.1 t.name with
      | none =>
        have hnone := find?_eq_none.mp hfind
        simp only [hfind, reduceCtorEq, exists_false, false_iff]
        rintro ⟨type, heq, t, ht, hcase⟩
        cases heq
        exact hnone t ht hcase
      | some t =>
        have hsome := find?_some hfind
        have hmem := mem_of_find?_eq_some hfind
        simp only [hfind, ok.injEq, exists_eq_left', some.injEq, Prod.ext_iff, and_assoc]
        exact ⟨fun h => ⟨h, t, hmem, hsome⟩, And.left⟩
  rw [hcut]
  simp only [cut_eq_some_iff, and_assoc]

theorem parseObject_ok {s rest : Text} :
    (∃ uuid, parseObject s = .ok (uuid, rest)) ↔ BehindObject s rest := by
  rw [parseObject_eq, BehindObject]
  split
  · cases hguid : guidFromString s with
    | none => simp [*]
    | some uuid => simp [*, eq_comm]
  · rename_i hat
    simp [hat, eq_comm]

/-- Only the copy of the options is read where nothing is. -/
theorem parse_fault_iff : dcerpcParseBinding s = .error .fault ↔ EndsWithBracket s := by
  have hobject : parseObject s ≠ .error .fault := by
    rw [parseObject_eq]
    cases guidFromString s <;> split <;> simp
  have htransport : ∀ s, parseTransport s ≠ .error .fault := by
    intro s
    rw [parseTransport]
    split
    · split <;> simp
    · simp
  rw [dcerpcParseBinding_eq]
  constructor
  · intro h
    cases ho : parseObject s with
    | error e =>
      rw [ho] at h
      obtain rfl : e = .fault := error.inj h
      exact absurd ho hobject
    | ok object =>
      rw [ho] at h
      change (parseTransport object.2).bind _ = _ at h
      cases ht : parseTransport object.2 with
      | error e =>
        rw [ht] at h
        obtain rfl : e = .fault := error.inj h
        exact absurd ht (htransport _)
      | ok transport =>
        rw [ht] at h
        change (parseHost transport.2).map _ = _ at h
        cases hh : parseHost transport.2 with
        | ok host => rw [hh] at h; cases h
        | error e =>
          rw [hh] at h
          obtain rfl : e = .fault := error.inj h
          obtain ⟨host, hend, hnot⟩ := parseHost_fault.mp hh
          obtain ⟨type, htype, hcolon, hknown⟩ := parseTransport_ok.mp ⟨_, ht⟩
          rw [hend] at htype
          exact ⟨_, type, host, parseObject_ok.mp ⟨_, ho⟩, htype, hcolon, hknown, hnot⟩
  · rintro ⟨rest, type, host, hrest, rfl, hcolon, hknown, hhost⟩
    obtain ⟨uuid, hobj⟩ := parseObject_ok.mpr hrest
    obtain ⟨transport, htrans⟩ := parseTransport_ok.mpr ⟨type, rfl, hcolon, hknown⟩
    rw [hobj]
    show (parseTransport _).bind _ = _
    rw [htrans]
    show (parseHost _).map _ = _
    rw [parseHost_fault.mpr ⟨host, rfl, hhost⟩]
    rfl

/-- **The parser stays inside its copies** and returns a status, unless its text ends right
behind the opening bracket. -/
theorem parse_returns_iff :
    ((∃ b, dcerpcParseBinding s = .ok b) ∨
      ∃ status, dcerpcParseBinding s = .error (.status status)) ↔ ¬EndsWithBracket s := by
  rw [← parse_fault_iff]
  cases dcerpcParseBinding s with
  | ok b => simp
  | error e =>
    cases e with
    | status st => simp
    | fault => simp

/-- An opening bracket at the end makes the parser read in front of its copy. -/
theorem parse_bracket_faults : dcerpcParseBinding "ncacn_np:[".toList = .error .fault := by
  decide

/-! ## Printing and reading again -/

theorem transport_facts (t : Transport) :
    ∃ name, transportName t = some ('n' :: name) ∧ ':' ∉ 'n' :: name ∧
      (transports.find? fun e => strcaseeq ('n' :: name) e.name).map TransportEntry.transport =
        some t := by
  cases t <;> exact ⟨_, rfl, by decide, by decide⟩

theorem option_facts : ∀ o ∈ ncacnOptions, ',' ∉ o.1 ∧ '@' ∉ o.1 ∧ optionFlag o.1 = some o.2 := by
  decide

theorem flagsOf_append (l l' : List Text) : flagsOf (l ++ l') = flagsOf l ||| flagsOf l' := by
  induction l with
  | nil => simp [flagsOf]
  | cons x l ih => rw [cons_append, flagsOf, flagsOf, ih, BitVec.or_assoc]

theorem flagsOf_plain {l : List Text} (h : ∀ x ∈ l, isPlain x = true) : flagsOf l = 0 := by
  induction l with
  | nil => rfl
  | cons x l ih =>
    have hx := h x (mem_cons_self ..)
    rw [isPlain, isNone_iff_eq_none] at hx
    rw [flagsOf, hx, ih fun y hy => h y (mem_cons_of_mem _ hy)]
    rfl

/-- The flags of two words together have the names of both. -/
theorem flagsOf_flagNames_or (f g : BitVec 32) :
    flagsOf (flagNames (f ||| g)) = flagsOf (flagNames f) ||| flagsOf (flagNames g) := by
  unfold flagNames
  induction ncacnOptions with
  | nil => simp [flagsOf]
  | cons o table ih =>
    have hor : ((f ||| g) &&& o.2 != 0) = ((f &&& o.2 != 0) || (g &&& o.2 != 0)) := by
      grind [BitVec.or_eq_zero_iff]
    simp only [filter_cons, hor]
    cases f &&& o.2 != 0 <;> cases g &&& o.2 != 0 <;>
      simp only [Bool.or_false, Bool.or_true, if_true, Bool.false_eq_true, if_false,
        map_cons, flagsOf, ih] <;> grind

/-- The flags that options name are read back from the names that are printed for them. -/
theorem flagsOf_flagNames (items : List Text) :
    flagsOf (flagNames (flagsOf items)) = flagsOf items := by
  induction items with
  | nil => decide
  | cons x items ih =>
    have hflag : flagsOf (flagNames ((optionFlag x).getD 0)) = (optionFlag x).getD 0 := by
      cases h : optionFlag x with
      | none => decide
      | some flag =>
        obtain ⟨o, ho, rfl⟩ := map_eq_some_iff.mp h
        have hall : ∀ o ∈ ncacnOptions, flagsOf (flagNames o.2) = o.2 := by decide
        exact hall o (mem_of_find?_eq_some ho)
    rw [flagsOf, flagsOf_flagNames_or, ih, hflag]

theorem not_mem_of_mem_splitOn {c : Char} (n : Nat) : ∀ {s part : Text}, s.length ≤ n →
    part ∈ s.splitOn c → c ∉ part := by
  induction n with
  | zero =>
    intro s part hlen hpart
    obtain rfl : s = [] := length_eq_zero_iff.mp (by omega)
    simp at hpart
    simp [hpart]
  | succ n ih =>
    intro s part hlen hpart
    cases hcut : cut c s with
    | none =>
      rw [splitOn_eq_singleton (cut_eq_none_iff.mp hcut), mem_singleton] at hpart
      rw [hpart]
      exact cut_eq_none_iff.mp hcut
    | some parts =>
      obtain ⟨rfl, hnot⟩ := cut_eq_some_iff.mp hcut
      rw [splitOn_append_cons_self_of_not_mem hnot] at hpart
      rcases mem_cons.mp hpart with rfl | hrest
      · exact hnot
      · exact ih (by simp at hlen; omega) hrest

theorem intercalate_options (first : Text) (l : List Text) :
    [','].intercalate (first :: l) = first ++ l.flatMap optionText := by
  induction l generalizing first with
  | nil => simp [intercalate]
  | cons x l ih =>
    rw [flatMap_cons, optionText, cons_append, ← ih x]
    simp [intercalate]

namespace DcerpcBinding

def brackets : Option Text :=
  if b.endpoint = none ∧ b.options = none ∧ b.flags = 0 then none
  else some ([','].intercalate (b.endpoint.getD [] :: (b.options.getD [] ++ flagNames b.flags)))

/-- The text of a binding behind the UUID. -/
def address : Text :=
  (transportName b.transport).getD [] ++ ':' :: (b.host.getD [] ++
    b.brackets.elim [] fun inner => '[' :: (inner ++ [']']))

/-- The transport, the host, the endpoint and the options, one behind the other. -/
def parts : Text :=
  (transportName b.transport).getD [] ++ ':' :: (b.host.getD [] ++
    '[' :: [','].intercalate (b.endpoint.getD [] :: b.options.getD []))

end DcerpcBinding

theorem dcerpcBindingString_eq :
    dcerpcBindingString b =
      some ((if b.uuid = guidZero then [] else guidString b.uuid ++ ['@']) ++ b.address) := by
  obtain ⟨name, hname, -⟩ := transport_facts b.transport
  rw [dcerpcBindingString, address, brackets, hname]
  simp only [getD_some]
  split
  · simp
  · simp [intercalate_options]

theorem flagNames_facts {flags : BitVec 32} {x : Text} (h : x ∈ flagNames flags) :
    ',' ∉ x ∧ '@' ∉ x ∧ isPlain x = false := by
  obtain ⟨o, ho, rfl⟩ := mem_map.mp h
  obtain ⟨hcomma, hat, hflag⟩ := option_facts o (mem_filter.mp ho).1
  exact ⟨hcomma, hat, by rw [isPlain, hflag]; rfl⟩

/-- The options that stay are printed as they were; no option at all is printed as an empty
one. -/
theorem printed_options {kept : List Text} (h : ∀ x ∈ kept, ',' ∉ x ∧ isPlain x = true) :
    ∃ first others, (endpointOf kept).getD [] = first ∧ (optionsOf kept).getD [] = others ∧
      endpointOf (first :: others) = endpointOf kept ∧
      optionsOf (first :: others) = optionsOf kept ∧
      ∀ x ∈ first :: others, ',' ∉ x ∧ isPlain x = true := by
  cases kept with
  | nil => exact ⟨[], [], rfl, rfl, rfl, rfl, by decide⟩
  | cons e l =>
    refine ⟨e, l, ?_, ?_, rfl, rfl, h⟩
    · rw [endpointOf]
      split
      · rename_i he
        rw [he]
        rfl
      · rfl
    · cases l with
      | nil => rfl
      | cons x l => rfl

/-- The brackets of what was parsed are read as the same options. -/
theorem assembled_brackets (t : Transport) (host : Text) (options : Option Text) :
    assembled uuid t host (assembled uuid t host options).brackets =
      assembled uuid t host options := by
  cases options with
  | none => rfl
  | some options =>
    rw [brackets]
    split
    · rename_i h
      simp only [assembled] at h ⊢
      rw [h.1, h.2.1, h.2.2]
    · obtain ⟨first, others, hfirst, hothers, hendpoint, hrest, hall⟩ :=
        @printed_options ((options.splitOn ',').filter isPlain) fun x hx =>
          ⟨not_mem_of_mem_splitOn _ (Nat.le_refl _) (mem_filter.mp hx).1,
            (mem_filter.mp hx).2⟩
      have hnames : ∀ x ∈ flagNames (flagsOf (options.splitOn ',')), isPlain x = false :=
        fun x hx => (flagNames_facts hx).2.2
      have hcomma : ∀ x ∈ first :: (others ++ flagNames (flagsOf (options.splitOn ','))),
          ',' ∉ x := by
        intro x hx
        rw [← cons_append, mem_append] at hx
        exact hx.elim (fun hx => (hall x hx).1) fun hx => (flagNames_facts hx).1
      simp only [assembled, hfirst, hothers, splitOn_intercalate ',' hcomma (cons_ne_nil _ _)]
      rw [← cons_append, filter_append, filter_eq_self.mpr fun x hx => (hall x hx).2,
        filter_eq_nil_iff.mpr fun x hx => by simp [hnames x hx], append_nil,
        flagsOf_append, flagsOf_plain fun x hx => (hall x hx).2, flagsOf_flagNames, hendpoint,
        hrest]
      simp

theorem parse_address {uuid : Security.Guid} {t : Transport} {host : Text} (options : Option Text)
    (hhost : '[' ∉ host) :
    (parseTransport (assembled uuid t host options).address).bind (fun transport =>
      (parseHost transport.2).map fun h => assembled uuid transport.1 h.1 h.2) =
        .ok (assembled uuid t host options) := by
  obtain ⟨name, hname, hcolon, hfind⟩ := transport_facts t
  obtain ⟨entry, hentry, rfl⟩ := map_eq_some_iff.mp hfind
  generalize hb : assembled uuid entry.transport host options = b
  have htransport : b.transport = entry.transport := by rw [← hb]; cases options <;> rfl
  have hbhost : b.host = some host := by rw [← hb]; cases options <;> rfl
  have hagain : assembled uuid entry.transport host b.brackets = b := by
    rw [← hb]
    exact assembled_brackets ..
  rw [address, htransport, hname, hbhost, parseTransport]
  simp only [getD_some, cut_append hcolon, hentry]
  show (parseHost _).map _ = _
  rw [parseHost]
  cases hbr : b.brackets with
  | none =>
    rw [hbr] at hagain
    simp only [elim_none, append_nil, cut_eq_none_iff.mpr hhost]
    exact congrArg ok hagain
  | some inner =>
    rw [hbr] at hagain
    simp only [elim_some, cut_append hhost, getLast?_concat, dropLast_concat,
      ne_eq, not_true_eq_false, if_false]
    exact congrArg ok hagain

/-- No UUID begins like a transport. -/
theorem guidFromString_n (rest : Text) : guidFromString ('n' :: rest) = none := by
  have hhex : scanHex 8 ('n' :: rest) = none := by
    show scanDigits 8 ('n' :: rest) = none
    have hread : readHex 8 0 ('n' :: rest) = (0, 'n' :: rest) := rfl
    simp [scanDigits, hread]
  simp [guidFromString, guidFormat, scan, hhex]

/-- The names of flags have no `@`, and neither have the brackets. -/
theorem atSign_address : atSign b.address = atSign b.parts := by
  have hkeep : ∀ s r : Text, '@' ∉ r → atSign (s ++ r) = atSign s := by
    intro s r hr
    have h := congrArg (Option.map length) (cut_append_of_not_mem hr s)
    rwa [Option.map_map, Option.map_map] at h
  rw [address, parts, brackets]
  split
  · rename_i h
    rw [h.1, h.2.1, ← hkeep _ ['['] (by decide)]
    simp
  · rw [intercalate_options, intercalate_options, ← hkeep
        (_ ++ ':' :: (_ ++ '[' :: (_ ++ (b.options.getD []).flatMap optionText)))
        ((flagNames b.flags).flatMap optionText ++ [']'])]
    · simp
    · intro hat
      rcases mem_append.mp hat with hat | hat
      · obtain ⟨x, hx, hat⟩ := mem_flatMap.mp hat
        exact (flagNames_facts hx).2.1 ((mem_cons.mp hat).resolve_left (by decide))
      · simp at hat

theorem parseHost_ok {s host : Text} {options : Option Text}
    (h : parseHost s = .ok (host, options)) : '[' ∉ host := by
  rw [parseHost] at h
  cases hcut : cut '[' s with
  | none =>
    rw [hcut] at h
    cases h
    exact cut_eq_none_iff.mp hcut
  | some parts =>
    have hnot := (cut_eq_some_iff.mp hcut).2
    simp only [hcut] at h
    split at h
    · split at h
      · cases h
      · cases h
        exact hnot
    · cases h

theorem parse_ok {s : Text} {b : DcerpcBinding} (h : dcerpcParseBinding s = .ok b) :
    ∃ uuid t host options, '[' ∉ host ∧ b = assembled uuid t host options := by
  rw [dcerpcParseBinding_eq] at h
  cases ho : parseObject s with
  | error e => rw [ho] at h; cases h
  | ok object =>
    rw [ho] at h
    change (parseTransport object.2).bind _ = _ at h
    cases ht : parseTransport object.2 with
    | error e => rw [ht] at h; cases h
    | ok transport =>
      rw [ht] at h
      change (parseHost transport.2).map _ = _ at h
      cases hh : parseHost transport.2 with
      | error e => rw [hh] at h; cases h
      | ok host =>
        rw [hh] at h
        exact ⟨_, _, host.1, host.2, parseHost_ok hh, (ok.inj h).symm⟩

theorem at_not_mem_guidString : '@' ∉ guidString uuid := by
  intro hat
  have hdigit : ∀ d : Fin 16, '@' ≠ Nat.digitChar d.val := by decide
  rcases guidString_chars hat with h | ⟨d, hd, h⟩
  · exact absurd h (by decide)
  · exact hdigit ⟨d, hd⟩ h

/-- **What was parsed is printed and parsed again** as the same binding, unless there is no UUID and
the first `@` stands where one would end. -/
theorem parsed_again_iff {s : Text} {b : DcerpcBinding} (h : dcerpcParseBinding s = .ok b) :
    (∃ t, dcerpcBindingString b = some t ∧ dcerpcParseBinding t = .ok b) ↔
      (b.uuid = guidZero → atSign b.parts ≠ some 36) := by
  obtain ⟨uuid, t, host, options, hhost, rfl⟩ := parse_ok h
  have huuid : (assembled uuid t host options).uuid = uuid := by cases options <;> rfl
  have hback := @parse_address uuid t host options hhost
  rw [← atSign_address]
  generalize assembled uuid t host options = b at hback huuid
  rw [dcerpcBindingString_eq, huuid]
  simp only [some.injEq, exists_eq_left', dcerpcParseBinding_eq, parseObject_eq]
  by_cases hzero : uuid = guidZero
  · subst hzero
    obtain ⟨name, hname, -⟩ := transport_facts b.transport
    have hno : guidFromString b.address = none := by
      rw [address, hname]
      exact guidFromString_n _
    rw [if_pos rfl, nil_append, hno]
    by_cases hat : atSign b.address = some 36
    · simp [hat, Except.bind]
    · rw [if_neg hat]
      exact iff_of_true hback fun _ => hat
  · have hat : atSign (guidString uuid ++ '@' :: b.address) = some 36 := by
      rw [atSign, cut_append (at_not_mem_guidString uuid), map_some, length_guidString]
    have hdrop : (guidString uuid ++ '@' :: b.address).drop 37 = b.address := by
      rw [drop_append, length_guidString, drop_of_length_le (by rw [length_guidString]; decide)]
      rfl
    rw [if_neg hzero, append_assoc, singleton_append, if_pos hat, guidFromString_append, hdrop]
    exact iff_of_true hback fun h => absurd h hzero

/-- With its flag printed last, the endpoint of this binding moves to where its `@` is taken for
the end of a UUID. -/
theorem parsed_again_fails :
    ∃ b, dcerpcParseBinding "ncacn_np:[sign,aaaaaaaaaaaaaaaaaaaaaaaaaa@]".toList = .ok b ∧
      (dcerpcBindingString b).map dcerpcParseBinding =
        some (.error (.status .invalidParameter)) :=
  ⟨⟨.ncacnNp, guidZero, 0, some [], some [], some "aaaaaaaaaaaaaaaaaaaaaaaaaa@".toList, none, 0x20⟩,
    by decide, by decide⟩

/-- A server with an endpoint and a flag. -/
theorem parsed_again_server :
    ∃ b, dcerpcParseBinding "ncacn_ip_tcp:server[seal,135]".toList = .ok b ∧
      ∃ t, dcerpcBindingString b = some t ∧ dcerpcParseBinding t = .ok b := by
  have h : dcerpcParseBinding "ncacn_ip_tcp:server[seal,135]".toList =
      .ok ⟨.ncacnIpTcp, guidZero, 0, some "server".toList, some "server".toList,
        some "135".toList, none, 0x40⟩ := by decide
  exact ⟨_, h, (parsed_again_iff h).mpr (by decide)⟩

end OpenvasSmb.Dcerpc
