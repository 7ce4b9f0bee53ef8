import OpenvasSmb.Wbem.Data

/-!
# What `SmartNext` hands to its caller

Two results about all sequences of calls on one enumerator.

The loop of `WBEMDATA_Parse` runs as far as the server's `uReturned` says and the bytes last. So
the writes stay below the count of the call exactly when the reply does not go on with a record
after that many.

An `OBJECT` record is decoded with the class its GUID was last delivered with, and what is
returned has a class and an instance, as long as every record has `WCF_INSTANCE` in its flags
byte; nothing in the parser asks for that.
-/

namespace OpenvasSmb.Wbem

open Kit Ndr Outcome List Option Prod

/-! ## How far the parser gets -/

section Parser

variable (charset : Charset) (v : View)

/-- A record of a supported type starts at the offset. -/
def Opens (off : Nat) (header : RecordHeader) (off' : Nat) (datatype : Datatype) : Prop :=
  pullRecordHeader v off = .ok (header, off') ∧ datatypeOf header.datatype = some datatype

theorem Opens.unique {v : View} {off : Nat} {header header' : RecordHeader} {o o' : Nat}
    {d d' : Datatype} (h : Opens v off header o d) (h' : Opens v off header' o' d') :
    header = header' ∧ o = o' ∧ d = d' := by
  obtain ⟨hpull, hdatatype⟩ := h
  obtain ⟨hpull', hdatatype'⟩ := h'
  rw [hpull] at hpull'
  cases hpull'
  rw [hdatatype] at hdatatype'
  cases hdatatype'
  exact ⟨rfl, rfl, rfl⟩

/-- The bytes go on with a record after `k` records that can be decoded. -/
def recordFollows : Nat → Nat → List PairGuidPtr → Prop
  | 0, off, _ => ∃ header off' datatype, Opens v off header off' datatype
  | k + 1, off, cache => ∃ header off' datatype object off'',
      Opens v off header off' datatype ∧
      pullRecordObject charset cache datatype header.guid v off' = .ok (object, off'') ∧
      recordFollows k header.next
        (Parsed.add { cache } ⟨datatype, header.guid, object⟩).cache

/-- A record that was given its entry and decoded. -/
abbrev Parsed.take (p : Parsed) (r : Record) : Parsed :=
  Parsed.add { p with slots := p.slots + 1 } r

/-- One round of the loop: it stops in front of a record, inside a record, or goes
on behind it. -/
theorem parseRecords_succ (n off : Nat) (p : Parsed) :
    ((¬ ∃ header off' datatype, Opens v off header off' datatype) ∧
      ∃ status, status ≠ .ok () ∧ parseRecords charset v (n + 1) off p = (p, status)) ∨
    (∃ header off' datatype, Opens v off header off' datatype ∧
      (∀ r, pullRecordObject charset p.cache datatype header.guid v off' ≠ .ok r) ∧
      ∃ status, status ≠ .ok () ∧
        parseRecords charset v (n + 1) off p = ({ p with slots := p.slots + 1 }, status)) ∨
    (∃ header off' datatype object off'', Opens v off header off' datatype ∧
      pullRecordObject charset p.cache datatype header.guid v off' = .ok (object, off'') ∧
      parseRecords charset v (n + 1) off p =
        parseRecords charset v n header.next (p.take ⟨datatype, header.guid, object⟩)) := by
  rw [parseRecords]
  cases hheader : pullRecordHeader v off with
  | ok r =>
    obtain ⟨header, off'⟩ := r
    cases hdatatype : datatypeOf header.datatype with
    | none =>
      refine Or.inl ⟨?_, .error .notSupported, by simp, by simp [hdatatype]⟩
      rintro ⟨h, o, d, hpull, hd⟩
      rw [hheader] at hpull
      cases hpull
      simp [hdatatype] at hd
    | some datatype =>
      have hopens : Opens v off header off' datatype := ⟨hheader, hdatatype⟩
      refine .inr ?_
      cases hobject : pullRecordObject charset p.cache datatype header.guid v off' with
      | ok r =>
        obtain ⟨object, off''⟩ := r
        exact .inr ⟨header, off', datatype, object, off'', hopens, hobject,
          by simp [hdatatype, hobject]⟩
      | _ =>
        refine Or.inl ⟨header, off', datatype, hopens, by simp [hobject], ?_⟩
        simp [hdatatype, hobject, void]
  | _ =>
    refine .inl ⟨?_, ?_⟩
    · rintro ⟨h, o, d, hpull, -⟩
      simp [hheader] at hpull
    · simp [void]

/-- A parse that succeeds has decoded and written one entry for each record. -/
theorem parseRecords_ok : ∀ n off p, (parseRecords charset v n off p).2 = .ok () →
    (parseRecords charset v n off p).1.slots = p.slots + n ∧
    (parseRecords charset v n off p).1.records.length = p.records.length + n := by
  intro n
  induction n with
  | zero => intro off p _; simp [parseRecords]
  | succ n ih =>
    intro off p hok
    rcases parseRecords_succ charset v n off p with
      ⟨-, status, hne, heq⟩ | ⟨_, _, _, -, -, status, hne, heq⟩ |
      ⟨header, off', datatype, object, off'', -, -, heq⟩
    iterate 2
      rw [heq] at hok
      exact absurd hok hne
    · rw [heq] at hok ⊢
      obtain ⟨hslots, hrecords⟩ := ih _ _ hok
      rw [hslots, hrecords]
      simp only [Parsed.add, length_append, length_singleton]
      omega

theorem parseRecords_slots_ge : ∀ n off p, p.slots ≤ (parseRecords charset v n off p).1.slots := by
  intro n
  induction n with
  | zero => intro off p; simp [parseRecords]
  | succ n ih =>
    intro off p
    rcases parseRecords_succ charset v n off p with
      ⟨-, status, -, heq⟩ | ⟨_, _, _, -, -, status, -, heq⟩ |
      ⟨header, off', datatype, object, off'', -, -, heq⟩
    · exact Nat.le_of_eq (congrArg (·.1.slots) heq).symm
    · rw [heq]
      exact Nat.le_succ _
    · rw [heq]
      have hrest := ih header.next (p.take ⟨datatype, header.guid, object⟩)
      simp only [Parsed.add] at hrest ⊢
      omega

/-- The entry `k` of `apObjects` is written iff the loop has that many rounds and a record follows
`k` others. -/
theorem parseRecords_writes_iff : ∀ k n off p,
    p.slots + k < (parseRecords charset v n off p).1.slots ↔
      k < n ∧ recordFollows charset v k off p.cache := by
  intro k n
  induction n generalizing k with
  | zero =>
    intro off p
    simp [parseRecords]
  | succ n ih =>
    intro off p
    rcases parseRecords_succ charset v n off p with
      ⟨hnone, status, -, heq⟩ | ⟨header, off', datatype, hopens, hfail, status, -, heq⟩ |
      ⟨header, off', datatype, object, off'', hopens, hobject, heq⟩
    · -- no record starts here: nothing is written, and no record follows at all
      have hfollows : ¬ recordFollows charset v k off p.cache := by
        intro h
        cases k with
        | zero => exact hnone h
        | succ k =>
          obtain ⟨header, off', datatype, _, _, hopens, -⟩ := h
          exact hnone ⟨header, off', datatype, hopens⟩
      rw [heq]
      simp [hfollows]
    · rw [heq]
      cases k with
      | zero =>
        have hfollows : recordFollows charset v 0 off p.cache :=
          ⟨header, off', datatype, hopens⟩
        simp [hfollows]
      | succ k =>
        -- the one record that starts here cannot be decoded
        have hfollows : ¬ recordFollows charset v (k + 1) off p.cache := by
          rintro ⟨header', o, d, object, o', hopens', hobject, -⟩
          obtain ⟨rfl, rfl, rfl⟩ := hopens.unique hopens'
          exact hfail _ hobject
        simp [hfollows]
    · rw [heq]
      cases k with
      | zero =>
        have hfollows : recordFollows charset v 0 off p.cache :=
          ⟨header, off', datatype, hopens⟩
        have hslots := parseRecords_slots_ge charset v n header.next
          (p.take ⟨datatype, header.guid, object⟩)
        simp only [Parsed.add] at hslots ⊢
        simp only [hfollows, and_true]
        omega
      | succ k =>
        have hfollows : recordFollows charset v (k + 1) off p.cache ↔
            recordFollows charset v k header.next
              (p.take ⟨datatype, header.guid, object⟩).cache := by
          constructor
          · rintro ⟨header', o, d, object', o', hopens', hobject', hfollows⟩
            obtain ⟨rfl, rfl, rfl⟩ := hopens.unique hopens'
            rw [hobject] at hobject'
            cases hobject'
            exact hfollows
          · intro hfollows
            exact ⟨header, off', datatype, object, off'', hopens, hobject, hfollows⟩
        rw [hfollows, Nat.succ_lt_succ_iff, ← ih k header.next]
        simp only [Parsed.add]
        omega

end Parser

/-! ## One call -/

/-- The class cache of an enumerator; empty before the first call. -/
def Enumerator.cache (d : Enumerator) : List PairGuidPtr :=
  match d.objectData with
  | none => []
  | some s => s.cache

/-- The bytes that a call parses, if it gets as far as a reply with data. -/
def SmartNextCall.parsedData (call : SmartNextCall) (d : Enumerator) : Option Bytes :=
  if d.objectData.isSome || (call.queryInterface.isOk && call.fetch.isOk) then
    if call.reply.accepted then call.reply.pData else none
  else none

variable {charset : Charset} {out : SmartNextResult} {call : SmartNextCall} {d d' : Enumerator}

/-- What a call does: nothing for the caller, or the parse of the reply's data. -/
def NothingOrParse (charset : Charset) (d : Enumerator) (call : SmartNextCall)
    (out : SmartNextResult) (d' : Enumerator) : Prop :=
  (call.parsedData d = none ∧ (∃ requested status, out = .nothing requested status) ∧
    d'.cache = d.cache ∧ d'.history = d.history) ∨
  (∃ s data, call.parsedData d = some data ∧ s.cache = d.cache ∧
    (out, d') = smartNextParse charset d s call.reply data)

theorem smartNextStep_cases (h : smartNextStep charset d call = some (out, d')) :
    NothingOrParse charset d call out d' := by
  -- the part that both kinds of calls share
  have hrecv : ∀ s : EnumData, s.cache = d.cache →
      (d.objectData.isSome || (call.queryInterface.isOk && call.fetch.isOk)) = true →
      (out, d') = smartNextRecv charset d s call.reply → NothingOrParse charset d call out d' := by
    intro s hcache hreached hout
    simp only [NothingOrParse, SmartNextCall.parsedData, hreached, if_true]
    unfold smartNextRecv at hout
    by_cases haccepted : call.reply.accepted = true
    · cases hdata : call.reply.pData with
      | none =>
        simp only [haccepted, hdata, if_true, mk.injEq] at hout
        obtain ⟨rfl, rfl⟩ := hout
        exact Or.inl ⟨by simp, ⟨_, _, rfl⟩, hcache, rfl⟩
      | some data =>
        simp only [haccepted, hdata, if_true] at hout
        exact Or.inr ⟨s, data, by simp [haccepted], hcache, hout⟩
    · simp only [haccepted, Bool.false_eq_true, if_false, mk.injEq] at hout
      obtain ⟨rfl, rfl⟩ := hout
      exact Or.inl ⟨by simp [haccepted], ⟨_, _, rfl⟩, hcache, rfl⟩
  unfold smartNextStep at h
  split at h
  · simp at h
  · cases hdata : d.objectData with
    | none =>
      simp only [hdata] at h
      split_ifs at h with hquery hfetch
      iterate 2
        obtain ⟨rfl, rfl⟩ := h
        refine Or.inl ⟨?_, ⟨_, _, rfl⟩, by simp [Enumerator.cache, hdata], rfl⟩
        simp_all [SmartNextCall.parsedData]
      · refine hrecv _ ?_ ?_ (some.inj h).symm
        · simp [Enumerator.cache, hdata]
        · simp_all
    | some s =>
      simp only [hdata] at h
      split at h
      · refine hrecv s ?_ ?_ (some.inj h).symm
        · simp [Enumerator.cache, hdata]
        · simp [hdata]
      · simp at h

/-! ## The array of the caller -/

/-- The writes to `apObjects` and the value of `*puReturned` stay inside what this
very call asked for. -/
def WithinCount (_ : Enumerator) (call : SmartNextCall) (out : SmartNextResult)
    (_ : Enumerator) : Prop :=
  (∀ i ∈ out.written, i < call.uCount) ∧ out.puReturned ≤ call.uCount

/-- The data of a reply goes on with a record after `k` of them. -/
def dataGoesOn (charset : Charset) (cache : List PairGuidPtr) (data : Bytes) (size uReturned k : Nat) :
    Prop :=
  ∃ off, pullWbemdataHeader uReturned { data, size } 0 = .ok ((), off) ∧
    recordFollows charset { data, size } k off cache

/-- The reply announces no more objects than the call asked for, or the data stops before. -/
def ReplyWithinCount (charset : Charset) (d : Enumerator) (call : SmartNextCall) : Prop :=
  ∀ data, call.parsedData d = some data →
    call.reply.uReturned ≤ call.uCount ∨
    ¬ dataGoesOn charset d.cache data call.reply.size call.reply.uReturned call.uCount

/-- The parser writes entry `k` iff the reply announces it and the data has it. -/
theorem wbemdataParse_writes_iff (charset : Charset) (data : Bytes) (size : Nat)
    (cache : List PairGuidPtr) (uReturned k : Nat) :
    k < (wbemdataParse charset data size cache uReturned).1.slots ↔
      k < uReturned ∧ dataGoesOn charset cache data size uReturned k := by
  unfold wbemdataParse dataGoesOn
  by_cases hzero : uReturned = 0
  · simp [hzero]
  · simp only [hzero, if_false]
    cases hheader : pullWbemdataHeader uReturned { data, size } 0 with
    | ok r =>
      obtain ⟨⟨⟩, off⟩ := r
      have hwrites := parseRecords_writes_iff charset { data, size } k uReturned off { cache }
      simp only [Nat.zero_add] at hwrites
      simp only [hwrites, ok.injEq, mk.injEq, true_and, exists_eq_left']
    | _ => simp

variable {cache : List PairGuidPtr}

/-- On success every announced object has its entry. -/
theorem wbemdataParse_ok {data : Bytes} {size : Nat} {uReturned : Nat}
    (h : (wbemdataParse charset data size cache uReturned).2 = .ok ()) :
    (wbemdataParse charset data size cache uReturned).1.slots = uReturned ∧
    (wbemdataParse charset data size cache uReturned).1.records.length = uReturned := by
  unfold wbemdataParse at h ⊢
  by_cases hzero : uReturned = 0
  · simp [hzero] at h
  · simp only [hzero, if_false] at h ⊢
    cases hheader : pullWbemdataHeader uReturned { data, size } 0 with
    | ok r =>
      simp only [hheader] at h
      simpa using parseRecords_ok charset { data, size } uReturned r.2 { cache } h
    | _ => simp [hheader, void] at h

theorem withinCount_iff (h : smartNextStep charset d call = some (out, d')) :
    WithinCount d call out d' ↔ ReplyWithinCount charset d call := by
  rcases smartNextStep_cases h with ⟨hnone, ⟨_, _, rfl⟩, -, -⟩ | ⟨s, data, hdata, hcache, heq⟩
  · simp [WithinCount, ReplyWithinCount, hnone, SmartNextResult.nothing]
  · obtain ⟨rfl, -⟩ := heq
    have hwrites := wbemdataParse_writes_iff charset data call.reply.size d.cache
      call.reply.uReturned call.uCount
    have hcond : ReplyWithinCount charset d call ↔
        ¬ call.uCount < (wbemdataParse charset data call.reply.size d.cache
          call.reply.uReturned).1.slots := by
      rw [hwrites]
      simp only [ReplyWithinCount, hdata, some.injEq, forall_eq', not_and_or, Nat.not_lt]
    rw [hcond]
    simp only [WithinCount, hcache, Parsed.written, mem_range, Nat.not_lt]
    constructor
    · rintro ⟨hall, -⟩
      by_contra hlt
      exact absurd (hall call.uCount (by omega)) (by omega)
    · -- `*puReturned` is the number of entries written, or 0
      refine fun hle => ⟨fun i hi => by omega, ?_⟩
      split
      · rename_i hok
        rwa [(wbemdataParse_ok hok).1] at hle
      · exact Nat.zero_le _

/-- **The array bound of `SmartNext`.** Every call of a sequence stays inside the array its caller
sized for it iff every call meets the condition on its reply. -/
theorem smart_next_within_count_iff (charset : Charset) (calls : List SmartNextCall)
    (d : Enumerator) :
    (smartNext charset).EachStep WithinCount d calls ↔
      (smartNext charset).EachStep (fun d call _ _ => ReplyWithinCount charset d call) d calls := by
  refine Machine.eachStep_congr (I := fun _ => True) (fun _ _ _ _ _ _ _ => trivial) ?_
    calls d trivial
  exact fun _ _ _ _ _ hstep => withinCount_iff hstep

/-- A record under the zero GUID: its type and the bytes of its object. -/
def recordBytes (r : Nat × Bytes) : Bytes :=
  toLe 4 9 ++ toLe 4 (24 + r.2.length) ++ toLe 1 r.1 ++
    toLe 4 0x18 ++ toLe 4 r.2.length ++ List.replicate 16 0 ++ r.2

/-- The data of a reply with some records. -/
def wbemdataBytes (records : List (Nat × Bytes)) : Bytes :=
  toLe 4 0 ++ toLe 4 0x4D454257 ++ toLe 4 0x41544144 ++ toLe 4 0x1A ++ toLe 4 0 ++ toLe 4 0 ++
    [1, 0] ++ toLe 4 8 ++ toLe 4 0 ++ toLe 4 0xC ++ toLe 4 0 ++ toLe 4 records.length ++
    records.flatMap recordBytes

def replyOf (records : List (Nat × Bytes)) : NextReply where
  result := .ok
  uReturned := records.length
  size := (wbemdataBytes records).length
  pData := some (wbemdataBytes records)

/-- A first call for two objects (none is there yet) and a second call for one. -/
def shrinkingCalls : List SmartNextCall :=
  [{ lTimeout := 0, uCount := 2,
     reply := { result := .ok, uReturned := 0, size := 0, pData := none } },
   { lTimeout := 0, uCount := 1, reply := replyOf [(2, [0]), (2, [0])] }]

/-- A character set without any string. -/
def noStrings : Charset := ⟨fun _ => none, fun _ => none, fun _ => none⟩

/-- The second call is sent with the count of the first, and the second object of the answer is
written behind the caller's array. -/
theorem smart_next_overruns_array :
    ((smartNext noStrings).run {} shrinkingCalls).map (fun r => r.1.map fun out =>
      (out.requested, out.written, out.puReturned)) = some (some (some (0, 2), [0, 1], 2)) ∧
    ¬ (smartNext noStrings).EachStep WithinCount {} shrinkingCalls := by
  refine ⟨by decide +kernel, fun h => ?_⟩
  have hwritten := ((h _ _ rfl).2 _ _ rfl).1.1
  revert hwritten
  decide +kernel

/-! ## What a decoded object has -/

section Objects

variable {charset : Charset} {O : Type} {obj : View → Outcome O} {v : View} {off off' : Nat}

theorem onFlag_isSome {α : Type} {flag : Bool} {p : Pull α} {x : Option α}
    (h : onFlag flag p v off = .ok (x, off')) (hflag : flag = true) : x.isSome = true := by
  simp only [onFlag, hflag, if_true, Pull.bind_apply, bind_eq_ok, Pull.pure_apply,
    ok.injEq, mk.injEq] at h
  obtain ⟨a, -, rfl, -⟩ := h
  rfl

variable {cls : Option (WbemClass O)}

/-- The pull of an instance without a class fails. -/
theorem pullInstanceSection_class {inst : WbemInstance O}
    (h : pullInstanceSection charset obj cls v off = .ok (inst, off')) : cls.isSome = true := by
  cases cls with
  | some _ => rfl
  | none =>
    rw [pullInstanceSection, ndrPullDataWithStack, Pull.withOffset_apply] at h
    simp only [Pull.bind_apply, bind_eq_ok, Pull.within_apply, pullInstanceScalars,
      Pull.fail_apply, error_bind, reduceCtorEq, and_false, exists_false] at h

theorem onFlag_instance_class {flag : Bool} {inst : Option (WbemInstance O)}
    (h : onFlag flag (pullInstanceSection charset obj cls) v off = .ok (inst, off'))
    (hflag : flag = true) : cls.isSome = true := by
  simp only [onFlag, hflag, if_true, Pull.bind_apply, bind_eq_ok] at h
  obtain ⟨r, hpull, -⟩ := h
  exact pullInstanceSection_class hpull

theorem hasFlag_class_or_instance {flags : Nat} (h : hasFlag flags wcfInstance = true) :
    hasFlag flags (wcfClass + wcfInstance) = true := by
  simp only [hasFlag, bne_iff_ne, ne_eq] at h ⊢
  intro hzero
  refine h ?_
  have hmask : (wcfClass + wcfInstance) &&& wcfInstance = wcfInstance := by decide
  rw [← hmask, ← Nat.and_assoc, hzero, Nat.zero_and]

/-- The object of a `CLASSOBJECT` record with `WCF_INSTANCE` has a class and an instance. -/
theorem pullClassObject_parts {o : ClassObject O}
    (h : pullClassObject charset obj v off = .ok (o, off')) :
    (∃ off₁, pullUint8 v off = .ok (o.flags, off₁)) ∧
    (hasFlag o.flags wcfInstance = true → o.objClass.isSome = true ∧ o.inst.isSome = true) := by
  simp only [pullClassObject, Pull.bind_apply, bind_eq_ok, Pull.pure_apply,
    ok.injEq, mk.injEq] at h
  obtain ⟨flags, hflags, _, _, _, _, _, _, _, _, cls, hcls, _, _, inst, hinst, rfl, -⟩ := h
  exact ⟨⟨_, hflags⟩, fun hflag =>
    ⟨onFlag_isSome hcls (hasFlag_class_or_instance hflag), onFlag_isSome hinst hflag⟩⟩

/-- The object of an `OBJECT` record, likewise; its class is the one it was given. -/
theorem pullClassObjectObject_parts {o : ClassObject O}
    (h : pullClassObjectObject charset obj cls v off = .ok (o, off')) :
    (∃ off₁, pullUint8 v off = .ok (o.flags, off₁)) ∧ o.objClass = cls ∧
    (hasFlag o.flags wcfInstance = true → o.objClass.isSome = true ∧ o.inst.isSome = true) := by
  simp only [pullClassObjectObject, Pull.bind_apply, bind_eq_ok, Pull.pure_apply,
    ok.injEq, mk.injEq] at h
  obtain ⟨flags, hflags, _, _, _, _, inst, hinst, rfl, -⟩ := h
  exact ⟨⟨_, hflags⟩, rfl, fun hflag =>
    ⟨onFlag_instance_class hinst hflag, onFlag_isSome hinst hflag⟩⟩

end Objects

/-! ## Deliveries -/

/-- A `CLASSOBJECT` record that brings a class for the GUID. -/
def Record.delivers (r : Record) (guid : Guid) : Bool :=
  r.datatype = .classObject && r.guid = guid && r.object.objClass.isSome

/-- The class most recently delivered under a GUID. -/
def lastDelivered (history : List Record) (guid : Guid) : Option (WbemClass WbemClassObject) :=
  (history.reverse.find? (·.delivers guid)).bind (·.object.objClass)

/-- Every `OBJECT` record has the class most recently delivered under its GUID before it. -/
def WellSourced (history : List Record) : List Record → Prop
  | [] => True
  | r :: rest =>
    (r.datatype = .object → ∃ cls, lastDelivered history r.guid = some cls ∧
      r.object.objClass = some cls) ∧
    WellSourced (history ++ [r]) rest

/-- The cache answers with the class most recently delivered. -/
def Sourced (history : List Record) (cache : List PairGuidPtr) : Prop :=
  ∀ guid, getPtrByGuid cache guid = lastDelivered history guid

theorem lastDelivered_concat (history : List Record) (r : Record) (guid : Guid) :
    lastDelivered (history ++ [r]) guid =
      if r.delivers guid then r.object.objClass else lastDelivered history guid := by
  unfold lastDelivered
  simp only [reverse_append, reverse_singleton, singleton_append, find?_cons]
  cases r.delivers guid <;> rfl

theorem Sourced.add {history : List Record} {p : Parsed} {r : Record}
    (h : Sourced history p.cache) (hcls : r.object.objClass.isSome = true) :
    Sourced (history ++ [r]) (p.add r).cache := by
  intro guid
  rw [lastDelivered_concat, ← h guid]
  cases hdatatype : r.datatype with
  | classObject =>
    by_cases hguid : r.guid = guid <;>
      simp [Parsed.add, Record.delivers, hdatatype, hguid, hcls, getPtrByGuid]
  | object => simp [Parsed.add, Record.delivers, hdatatype]

/-! ## Replies whose records all have `WCF_INSTANCE` -/

/-- The flags bytes of the objects of the remaining records, found by their headers. -/
def recordFlags (v : View) : Nat → Nat → List Nat
  | 0, _ => []
  | n + 1, off =>
    match pullRecordHeader v off with
    | .ok (header, off') =>
      match pullUint8 v off' with
      | .ok (flags, _) => flags :: recordFlags v n header.next
      | _ => []
    | _ => []

def replyFlags (data : Bytes) (size uReturned : Nat) : List Nat :=
  match pullWbemdataHeader uReturned { data, size } 0 with
  | .ok (_, off) => recordFlags { data, size } uReturned off
  | _ => []

/-- The condition on a call: every record of its reply has `WCF_INSTANCE`. -/
def RepliesInstances (d : Enumerator) (call : SmartNextCall) : Prop :=
  ∀ data, call.parsedData d = some data →
    ∀ flags ∈ replyFlags data call.reply.size call.reply.uReturned,
      hasFlag flags wcfInstance = true

/-- A decoded record has the parts its caller relies on. -/
def Record.complete (r : Record) : Prop :=
  r.object.objClass.isSome = true ∧ r.object.inst.isSome = true

/-- One record with `WCF_INSTANCE`: it is complete, and an `OBJECT` has the class of
the cache. -/
theorem pullRecordObject_complete {datatype : Datatype} {guid : Guid} {v : View} {off off' : Nat}
    {object : ClassObject WbemClassObject}
    (h : pullRecordObject charset cache datatype guid v off = .ok (object, off')) :
    (∃ off₁, pullUint8 v off = .ok (object.flags, off₁)) ∧
    (datatype = .object → object.objClass = getPtrByGuid cache guid) ∧
    (hasFlag object.flags wcfInstance = true → Record.complete ⟨datatype, guid, object⟩) := by
  cases datatype with
  | classObject =>
    obtain ⟨hflags, hparts⟩ := pullClassObject_parts h
    exact ⟨hflags, fun hd => absurd hd (by simp), hparts⟩
  | object =>
    obtain ⟨hflags, hcls, hparts⟩ := pullClassObjectObject_parts h
    exact ⟨hflags, fun _ => hcls, hparts⟩

/-- The loop keeps the cache in step with the deliveries. -/
theorem parseRecords_sourced (charset : Charset) (v : View) : ∀ n off p history,
    Sourced history p.cache →
    (∀ flags ∈ recordFlags v n off, hasFlag flags wcfInstance = true) →
    ∃ new, (parseRecords charset v n off p).1.records = p.records ++ new ∧
      Sourced (history ++ new) (parseRecords charset v n off p).1.cache ∧
      WellSourced history new ∧ ∀ r ∈ new, r.complete := by
  intro n
  induction n with
  | zero =>
    intro off p history hsourced _
    exact ⟨[], by simp [parseRecords], by simpa [parseRecords] using hsourced, trivial, by simp⟩
  | succ n ih =>
    intro off p history hsourced hflags
    rcases parseRecords_succ charset v n off p with
      ⟨-, status, -, heq⟩ | ⟨_, _, _, -, -, status, -, heq⟩ |
      ⟨header, off', datatype, object, off'', hopens, hobject, heq⟩
    iterate 2 exact ⟨[], by simp [heq], by simpa [heq] using hsourced, trivial, by simp⟩
    · obtain ⟨⟨off₁, hbyte⟩, hcls, hparts⟩ := pullRecordObject_complete hobject
      have hwalk : recordFlags v (n + 1) off = object.flags :: recordFlags v n header.next := by
        simp [recordFlags, hopens.1, hbyte]
      rw [hwalk] at hflags
      have hcomplete := hparts (hflags _ mem_cons_self)
      obtain ⟨new, hrecords, hsourced', hwell, hall⟩ := ih header.next _ _
        (.add (p := { p with slots := p.slots + 1 }) hsourced hcomplete.1)
        (fun flags hmem => hflags flags (mem_cons_of_mem _ hmem))
      refine ⟨⟨datatype, header.guid, object⟩ :: new, ?_, ?_, ⟨?_, hwell⟩, ?_⟩
      · rw [heq, hrecords]
        simp [Parsed.add]
      · rw [heq]
        simpa using hsourced'
      · -- an `OBJECT` took what the cache answered, and the cache answers deliveries
        intro hobj
        obtain ⟨cls, hsome⟩ := isSome_iff_exists.mp hcomplete.1
        refine ⟨cls, ?_, hsome⟩
        rwa [← hsourced, ← hcls hobj]
      · exact forall_mem_cons.2 ⟨hcomplete, hall⟩

theorem wbemdataParse_sourced (charset : Charset) {data : Bytes} {size uReturned : Nat}
    {history : List Record} (hsourced : Sourced history cache)
    (hflags : ∀ flags ∈ replyFlags data size uReturned, hasFlag flags wcfInstance = true) :
    Sourced (history ++ (wbemdataParse charset data size cache uReturned).1.records)
      (wbemdataParse charset data size cache uReturned).1.cache ∧
    WellSourced history (wbemdataParse charset data size cache uReturned).1.records ∧
    ∀ r ∈ (wbemdataParse charset data size cache uReturned).1.records, r.complete := by
  unfold wbemdataParse
  unfold replyFlags at hflags
  by_cases hzero : uReturned = 0
  · simpa [hzero, WellSourced] using hsourced
  · simp only [hzero, if_false]
    cases hheader : pullWbemdataHeader uReturned { data, size } 0 with
    | ok r =>
      simp only [hheader] at hflags
      obtain ⟨new, hrecords, hrest⟩ := parseRecords_sourced charset { data, size } uReturned
        r.2 { cache } history hsourced hflags
      simp only [hrecords]
      exact hrest
    | _ => simpa [WellSourced] using hsourced

/-! ## The class cache -/

/-- Every `OBJECT` record was decoded with the class most recently delivered under its GUID, and
after a success every announced object was decoded and has a class and an instance. -/
def ClassesSound (d : Enumerator) (_ : SmartNextCall) (out : SmartNextResult)
    (_ : Enumerator) : Prop :=
  WellSourced d.history out.records ∧
  (out.status = .ok () → out.records.length = out.puReturned ∧ ∀ r ∈ out.records, r.complete)

theorem classesSound_step (hsourced : Sourced d.history d.cache)
    (h : smartNextStep charset d call = some (out, d')) (hcond : RepliesInstances d call) :
    ClassesSound d call out d' ∧ Sourced d'.history d'.cache := by
  rcases smartNextStep_cases h with
    ⟨-, ⟨_, _, rfl⟩, hcache, hhistory⟩ | ⟨s, data, hdata, hcache, heq⟩
  · refine ⟨⟨trivial, fun _ => ⟨rfl, by simp [SmartNextResult.nothing]⟩⟩, ?_⟩
    rwa [hcache, hhistory]
  · obtain ⟨rfl, rfl⟩ := heq
    rw [← hcache] at hsourced
    obtain ⟨hafter, hwell, hall⟩ := wbemdataParse_sourced charset hsourced (hcond data hdata)
    refine ⟨⟨hwell, fun hok => ⟨?_, hall⟩⟩, hafter⟩
    rw [if_pos hok]
    exact (wbemdataParse_ok hok).2

/-- **The class cache of `SmartNext`.** On every sequence of calls whose replies carry
`WCF_INSTANCE` in the flags of every record, every call is sound. -/
theorem smart_next_classes_sound (charset : Charset) (calls : List SmartNextCall)
    (hcond : (smartNext charset).EachStep (fun d call _ _ => RepliesInstances d call) {} calls) :
    (smartNext charset).EachStep ClassesSound {} calls := by
  refine Machine.EachStep.of_inv (I := fun d : Enumerator => Sourced d.history d.cache) ?_ calls {}
    (fun guid => rfl) hcond
  intro d call out d' hsourced hstep hc
  exact (classesSound_step hsourced hstep hc).symm

def emptyClassBytes : Bytes :=
  toLe 4 29 ++ [0] ++ toLe 4 nullFfffffff ++ toLe 4 0 ++ toLe 4 4 ++ toLe 4 4 ++ toLe 4 0 ++
    toLe 4 0x80000000

/-- An instance of it in its section. -/
def emptyInstanceBytes : Bytes :=
  toLe 4 18 ++ [0] ++ toLe 4 nullFfffffff ++ toLe 4 0 ++ [1] ++ toLe 4 0x80000000

/-- A call answered by an object with its class and, under the same GUID, one without. -/
def instanceCall : SmartNextCall where
  lTimeout := 0
  uCount := 2
  reply := replyOf [(2, [2] ++ emptyClassBytes ++ emptyInstanceBytes),
    (3, [2] ++ emptyInstanceBytes)]

theorem smart_next_classes_sound_of_instances :
    (smartNext noStrings).EachStep ClassesSound {} [instanceCall] ∧
    ((smartNext noStrings).run {} [instanceCall]).map (fun r => r.1.map fun out =>
      (out.status, out.puReturned)) = some (some (.ok (), 2)) := by
  refine ⟨smart_next_classes_sound noStrings [instanceCall] fun out d' _ => ⟨?_, trivial⟩,
    by decide +kernel⟩
  intro data hdata
  obtain rfl : wbemdataBytes _ = data := some.inj hdata
  decide +kernel

/-- A call answered by an `OBJECT` record with an empty flags byte. -/
def bareObjectCall : SmartNextCall where
  lTimeout := 0
  uCount := 1
  reply := replyOf [(3, [0])]

/-- The record's GUID was never delivered; the object that is returned has neither class nor
instance. -/
theorem smart_next_returns_bare_object :
    ((smartNext noStrings).run {} [bareObjectCall]).map (fun r => r.1.map fun out =>
      (out.status, out.puReturned,
        out.records.map fun r => (r.object.objClass.isSome, r.object.inst.isSome))) =
      some (some (.ok (), 1, [(false, false)])) ∧
    ¬ (smartNext noStrings).EachStep ClassesSound {} [bareObjectCall] := by
  refine ⟨by decide, fun h => ?_⟩
  have hcomplete := ((h _ _ rfl).1.2 (by decide)).2
  revert hcomplete
  unfold Record.complete
  decide

end OpenvasSmb.Wbem
