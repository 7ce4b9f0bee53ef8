import OpenvasSmb.Wbem.Pull
import OpenvasSmb.Ndr.Bounds

/-!
# The WBEM decoders stay in their buffer

What the bytes of an object must be like for the decoders of `Wbem/Pull.lean` to stay inside the
buffer, and that each of them is safe in the sense of `Ndr/Bounds.lean` under that condition.

Four things are used without a test: the descriptor of a property, its number, which selects the
byte of the flags, the offset of its value, which is only checked by the pulls of more than one
byte, and the array of the derivation. The conditions ask for them wherever a decoder gets to, and
for nothing else: a part behind one that cannot be read is not looked at.

Only three lemmas look at more than the shape of the pull: the value area, whose end is checked
once and then set without a check, the values in it, and the section, which narrows the view. At
the end the nesting is closed: one level for every 4 bytes behind the limit is enough.
-/

namespace OpenvasSmb.Wbem

open Kit Ndr Outcome Nat

/-! ## Conditions -/

section Conditions

variable {O : Type} (charset : Charset) (obj : View → Outcome O) (I : View → Prop)

/-- The byte that holds the flags of a property is in the buffer. -/
def FlagsInside (ofs : Nat) (properties : List (WbemProperty O)) : Condition := fun v _ =>
  ∀ p ∈ properties, ∃ desc, p.desc = some desc ∧ v.origin + (ofs + desc.nr / 4) < v.data.length

/-- The value of a property is not a byte at the last offset of 32 bits. -/
def ValueInside (vofs : Nat) (p : WbemProperty O) : Condition := fun v _ =>
  ∃ desc, p.desc = some desc ∧ (cimKind (cimLevel desc.cimtype) = some (.num 1) → 0 < v.size →
    u32 (vofs + desc.offset) ≠ 2 ^ 32 - 1)

/-- The strings of a list have slots. -/
def CimstringsInside : Condition :=
  After pullUint32 fun size => After Pull.offset fun start v off =>
    Rounds (u32Sub (size + start) 4) (pullCimstringsItem charset)
      (fun n => After (ndrPullCimstring charset) fun _ _ _ => slotFor n = true)
      (v.data.length + 1) 0 v off

/-- Asked where a pointer leads, unless it is NULL. -/
def Followed (ptr : Option Nat) (C : Condition) : Condition := fun v off =>
  ∀ p ∈ ptr, At p C v off

/-- Asked of an embedded object. -/
def EmbeddedInside (ptr : Option Nat) : Condition := Followed ptr (Boxed I)

def CimvarInside : RawVar → Condition
  | .pointer .object ptr => EmbeddedInside I ptr
  | .pointer .objects ptr =>
    Followed ptr (After pullPtrs (Each (pullEmbedded obj) (EmbeddedInside I)))
  | _ => fun _ _ => True

def QualifiersInside (r : List RawQualifier) : Condition :=
  Each (pullQualifierBuffers charset obj)
    (fun r => After (pullQualifierName charset r.name) fun _ => CimvarInside obj I r.value) r

def PropertyInside (r : RawProperty) : Condition :=
  After (follow r.name (ndrPullCimstring charset)) fun _ => Followed r.desc
    (After pullAlign fun _ => After pullUint32 fun _ => After pullUint16 fun _ =>
      After pullUint32 fun _ => After pullUint32 fun _ =>
        After pullQualifiersScalars (QualifiersInside charset obj I))

/-- A default value that is flagged `EMPTY` is not pulled. -/
def DefaultInside (vofs : Nat) (r : WbemProperty O × Nat) : Condition := fun v off =>
  hasFlag r.2 defaultFlagEmpty = false →
    Then (ValueInside vofs r.1) (pullValueScalars vofs r.1) (CimvarInside obj I) v off

def ClassBuffersInside (r : RawClass) : Condition :=
  After (follow r.className (ndrPullCimstring charset)) fun _ =>
    Then (QualifiersInside charset obj I r.qualifiers)
      (pullQualifiersBuffers charset obj r.qualifiers) fun _ =>
    Then (Each (pullPropertyBuffers charset obj) (PropertyInside charset obj I) r.properties)
      (Pull.each (pullPropertyBuffers charset obj) r.properties) fun properties =>
    Then (FlagsInside r.flagsOfs properties) (pullFlags r.flagsOfs properties) fun flags =>
    Each (pullDefault charset obj r.valuesOfs) (DefaultInside obj I r.valuesOfs)
      (properties.zip flags)

/-- Asked of a value area that is inside its view. -/
def AreaInside (dataSize : Nat) (C : Nat → Condition) : Condition := fun v off =>
  off + dataSize ≤ v.size → C off v off

def InstanceScalarsInside : Option (WbemClass O) → Condition
  | none => fun _ _ => True
  | some cls => After pullUint8 fun _ => After pullPtrFf fun _ =>
    AreaInside cls.dataSize fun ofs => After (allocArea cls.properties.length) fun _ =>
      Then (FlagsInside ofs cls.properties) (pullFlags ofs cls.properties) fun _ =>
        let vofs := u32 (ofs + flagBytes cls.properties.length)
        Each (pullValueScalars vofs) (ValueInside vofs) cls.properties

def InstanceBuffersInside (r : RawInstance) : Condition :=
  After (follow r.className (ndrPullCimstring charset)) fun _ =>
    Each (pullCimvarBuffers charset obj) (CimvarInside obj I) r.data

def MethodInside (r : RawMethod) : Condition :=
  After (follow r.name (ndrPullCimstring charset)) fun _ =>
    Then (Followed r.qualifiers (After pullQualifiersScalars (QualifiersInside charset obj I)))
      (follow r.qualifiers (pullMethodQualifiers charset obj)) fun _ =>
    Then (EmbeddedInside I r.inObject) (pullEmbedded obj r.inObject) fun _ =>
    EmbeddedInside I r.outObject

/-- Asked of the heap of a section that is inside its view. -/
def StackInside {R : Type} (D : R → Condition) (raw : R) : Condition :=
  After pullUint32 fun ssize v off => 0x80000000 ≤ ssize → off + (ssize - 0x80000000) ≤ v.size →
    D raw { v with size := off + (ssize - 0x80000000), base := off } off

/-- Asked of a section that is inside its view. -/
def SectionInside {R : Type} (C : Condition) (scalars : Pull R) (D : R → Condition) : Condition :=
  fun v start => After pullUint32 (fun size v off => 4 ≤ size → start + size ≤ v.size →
    Then C scalars (StackInside D) { v with size := start + size } off) v start

def ClassInside : Condition :=
  SectionInside (After pullAlign fun _ => After pullUint8 fun _ => After pullPtrFf fun _ =>
    After pullUint32 fun _ => CimstringsInside charset) (pullClassScalars charset)
    (ClassBuffersInside charset obj I)

def MethodsInside : Condition :=
  SectionInside (fun _ _ => True) pullMethodsScalars fun r =>
    Each (pullMethodBuffers charset obj) (MethodInside charset obj I) r.method

def InstanceInside (cls : Option (WbemClass O)) : Condition :=
  SectionInside (InstanceScalarsInside cls) (pullInstanceScalars cls)
    (InstanceBuffersInside charset obj I)

/-- Asked of a part that is only there under a flag. -/
def OnFlag (flag : Bool) (C : Condition) : Condition := fun v off => flag = true → C v off

/-- Asked of an object: of each of its sections in turn. -/
def ObjectInside : Condition :=
  After pullUint8 fun flags =>
    After (onFlag (hasFlag flags wcfClass) (ndrPullCimstring charset)) fun _ =>
    After (onFlag (hasFlag flags wcfClass) (ndrPullCimstring charset)) fun _ =>
    Then (OnFlag (hasFlag flags wcfDecorations) (ClassInside charset obj I))
      (onFlag (hasFlag flags wcfDecorations) (pullClassSection charset obj)) fun _ =>
    Then (OnFlag (hasFlag flags wcfDecorations) (MethodsInside charset obj I))
      (onFlag (hasFlag flags wcfDecorations) (pullMethodsSection charset obj)) fun _ =>
    Then (OnFlag (hasFlag flags (wcfClass + wcfInstance)) (ClassInside charset obj I))
      (onFlag (hasFlag flags (wcfClass + wcfInstance)) (pullClassSection charset obj)) fun cls =>
    Then (OnFlag (hasFlag flags wcfDecorations) (MethodsInside charset obj I))
      (onFlag (hasFlag flags wcfDecorations) (pullMethodsSection charset obj)) fun _ =>
    OnFlag (hasFlag flags wcfInstance) (InstanceInside charset obj I cls)

/-- Asked of an instance that comes without its class. -/
def ObjectObjectInside (cls : Option (WbemClass O)) : Condition :=
  After pullUint8 fun flags =>
    After (onFlag (hasFlag flags wcfClass) (ndrPullCimstring charset)) fun _ =>
    After (onFlag (hasFlag flags wcfClass) (ndrPullCimstring charset)) fun _ =>
    OnFlag (hasFlag flags wcfInstance) (InstanceInside charset obj I cls)

end Conditions

/-- Asked of an embedded object, down to a nesting depth. -/
def Inside (charset : Charset) : Nat → View → Prop
  | 0, _ => True
  | depth + 1, v => ObjectInside charset (pullObject charset depth) (Inside charset depth) v 0

variable {α : Type} {b : Buffer} {limit k : Nat} {C : Condition}

/-! ## Pointers and flags -/

theorem sure_pullPtr : Sure b limit 4 pullPtr :=
  Sure.pullUint32.before fun _ => .pure _

theorem sure_pullPtrFf : Sure b limit 4 pullPtrFf :=
  Sure.pullUint32.before fun _ => .pure _

theorem safe_follow {p q : Pull α} (h : Safe b limit k C p q) (ptr : Option Nat) :
    Safe b limit 0 (Followed ptr C) (follow ptr p) (follow ptr q) := by
  intro v off hv hoff
  cases ptr with
  | none => exact .ok (by simp [Followed]) ⟨Nat.le_refl _, hoff⟩
  | some ptr =>
    exact (h.atRelative.then (fun _ => .pure _) v off hv hoff).congr (by simp [Followed])

theorem sure_follow {p : Pull α} (h : Sure b limit k p) (ptr : Option Nat) :
    Sure b limit 0 (follow ptr p) := by
  intro v off hv hoff
  exact (safe_follow h ptr v off hv hoff).congr (by simp [Followed, At])

theorem safe_onFlag {p q : Pull α} (h : Safe b limit 0 C p q) (flag : Bool) :
    Safe b limit 0 (OnFlag flag C) (onFlag flag p) (onFlag flag q) := by
  intro v off hv hoff
  cases flag with
  | false => exact .ok (by simp [OnFlag]) ⟨Nat.le_refl _, hoff⟩
  | true => exact (h.then (fun _ => .pure _) v off hv hoff).congr (by simp [OnFlag])

section Decoders

variable {O : Type} {charset : Charset} {obj obj' : View → Outcome O}

/-! ## Strings and values -/

theorem sure_ndrPullCimstring : Sure b limit 1 (ndrPullCimstring charset) := by
  refine Sure.pullUint8.before (k := 0) fun u => ?_
  split
  · exact .pullNullTerminated _ _
  · split
    · exact .pullNullTerminated _ _
    · exact .fail _

theorem sure_name (ptr : Option Nat) : Sure b limit 0 (follow ptr (ndrPullCimstring charset)) :=
  sure_follow sure_ndrPullCimstring ptr

theorem safe_demand (condition : Bool) :
    Safe b limit 0 (fun _ _ => condition = true) (Pull.demand condition) (Pull.demand condition) := by
  intro v off hv hoff
  cases condition with
  | true => exact .ok rfl ⟨Nat.le_refl _, hoff⟩
  | false => exact .fault Bool.false_ne_true

theorem safe_ndrPullCimstrings :
    Safe b limit 0 (CimstringsInside charset) (ndrPullCimstrings charset)
      (ndrPullCimstrings charset) := by
  have hitem : ∀ n, Safe b limit 1
      (After (ndrPullCimstring charset) fun _ _ _ => slotFor n = true)
      (pullCimstringsItem charset n) (pullCimstringsItem charset n) := fun n =>
    (Sure.bind sure_ndrPullCimstring fun _ => (safe_demand (slotFor n)).before fun _ =>
      Sure.pullUint32.before fun _ => .pure _).mono (by omega)
  exact Sure.pullUint32.after fun _ => Sure.offset.after fun _ => .loopBelow hitem

theorem sure_pullCimvarScalars (level : Nat) : Sure b limit 0 (pullCimvarScalars level) := by
  unfold pullCimvarScalars
  split
  · exact .fail _
  · exact (Sure.pullNumber _).then fun _ => .pure _
  · exact sure_pullPtr.then fun _ => .pure _

/-- A value at an offset that was never checked: a wide number or a pointer is turned down by its
alignment check, a byte is not. -/
theorem pullCimvarScalars_anywhere (level : Nat) {off : Nat} {v : View} (hv : Ready b limit v)
    (hlt : off < 2 ^ 32) :
    Agree (cimKind level = some (.num 1) → 0 < v.size → off ≠ 2 ^ 32 - 1) (fun _ => True)
      (pullCimvarScalars level v off) (pullCimvarScalars level v off) := by
  by_cases hbyte : cimKind level = some (.num 1)
  · simp only [pullCimvarScalars, hbyte, pullNumber, if_true, Pull.bind_apply]
    exact ((pullUint8_agree hv hlt).then fun _ _ => .ok trivial trivial).congr (by simp)
  · refine Agree.congr (C := True) ?_ (by simp [hbyte])
    by_cases hoff : off ≤ v.size
    · exact (sure_pullCimvarScalars level v off hv hoff).mono fun _ _ => trivial
    · have hwide : ∀ n, Ends (fun _ => True) (pullUintN n v off) := by
        intro n
        have halign : off > v.size := by omega
        simp only [pullUintN, Pull.bind_apply, pullAlign, halign, if_true, error_bind]
        exact .error trivial _
      have hptr : Ends (fun _ => True) (pullPtr v off) := (hwide 4).then fun _ _ => .ok trivial trivial
      unfold pullCimvarScalars
      cases hkind : cimKind level with
      | none => exact .error trivial _
      | some kind =>
        cases kind with
        | num width =>
          have hwidth : ¬ width = 1 := fun h => hbyte (by rw [hkind, h])
          simp only [pullNumber, hwidth, if_false, Pull.bind_apply]
          exact (hwide width).then fun _ _ => .ok trivial trivial
        | _ => exact hptr.then fun _ _ => .ok trivial trivial

theorem sure_pullArrNumbers (width : Nat) : Sure b limit 0 (pullArrNumbers width) :=
  Sure.pullAlign.then fun _ => Sure.pullUint32.then fun count =>
    (Sure.allocN count width).then fun _ => Sure.times (Sure.pullNumber width) count

theorem sure_pullPtrs : Sure b limit 0 pullPtrs :=
  Sure.pullAlign.then fun _ => Sure.pullUint32.then fun count =>
    (Sure.allocN count 8).then fun _ => Sure.times sure_pullPtr.weaken count

theorem sure_pullArrStrings : Sure b limit 0 (pullArrStrings charset) :=
  sure_pullPtrs.then fun ptrs => Sure.each sure_name ptrs

/-! ## Qualifiers and properties -/

theorem sure_pullQualifierScalars : Sure b limit 1 pullQualifierScalars := by
  have h : Sure b limit (0 + (4 + (1 + (4 + (0 + 0))))) pullQualifierScalars :=
    Sure.pullAlign.before fun _ => sure_pullPtrFf.before fun _ => Sure.pullUint8.before fun _ =>
      Sure.pullUint32.before fun _ => (sure_pullCimvarScalars _).before fun _ => .pure _
  exact h.mono (by omega)

theorem sure_pullQualifiersScalars : Sure b limit 0 pullQualifiersScalars :=
  Sure.pullUint32.then fun _ => Sure.offset.then fun _ =>
    .loopBelow fun _ => sure_pullQualifierScalars

theorem sure_pullPropertyScalars : Sure b limit 0 pullPropertyScalars :=
  Sure.pullAlign.then fun _ => sure_pullPtr.then fun _ => sure_pullPtr.then fun _ => .pure _

/-! ## Value areas -/

theorem safe_pullFlags (ofs : Nat) (properties : List (WbemProperty O)) :
    Safe b limit 0 (FlagsInside ofs properties) (pullFlags ofs properties)
      (pullFlags ofs properties) := by
  intro v off hv hoff
  -- the flags are read where they stand: the offset stays, and nothing is an error
  have hall : Agree (FlagsInside ofs properties v off) (fun r => r.2 = off)
      (pullFlags ofs properties v off) (pullFlags ofs properties v off) := by
    induction properties with
    | nil => exact .ok (by simp [FlagsInside]) rfl
    | cons p rest ih =>
      simp only [pullFlags, Pull.each, Pull.bind_apply]
      cases hdesc : p.desc with
      | none =>
        simp only [useDesc, hdesc, fault_bind]
        exact .fault fun h => by simpa [hdesc] using h p (List.mem_cons_self ..)
      | some desc =>
        simp only [useDesc, hdesc, pullFlagBits, Pull.pure_apply, ok_bind, Pull.bind_apply,
          atOffset, takeBytes, View.bytesAt]
        by_cases hin : v.origin + (ofs + desc.nr / 4) < v.data.length
        · rw [if_pos (by omega)]
          exact (ih.then fun r hr => .ok trivial hr).congr (by simp [FlagsInside, hdesc, hin])
        · rw [if_neg (by omega)]
          exact .fault (by simp [FlagsInside, hdesc, hin])
  exact hall.mono fun r hr => by omega

theorem safe_pullValueScalars (vofs : Nat) (p : WbemProperty O) :
    Safe b limit 0 (ValueInside vofs p) (pullValueScalars vofs p) (pullValueScalars vofs p) := by
  intro v off hv hoff
  simp only [pullValueScalars, useDesc, Pull.bind_apply]
  cases hdesc : p.desc with
  | none => exact .fault (by simp [ValueInside, hdesc])
  | some desc =>
    have hlt : u32 (vofs + desc.offset) < 2 ^ 32 := Nat.mod_lt _ (by decide)
    refine ((pullCimvarScalars_anywhere (cimLevel desc.cimtype) hv hlt).then fun r _ => ?_).congr
      (by simp [ValueInside, hdesc])
    exact .ok trivial ⟨Nat.le_refl _, hoff⟩

theorem safe_valueArea (dataSize : Nat) {body : Nat → Pull α} {D : Nat → Condition}
    (hbody : ∀ ofs, Safe b limit 0 (D ofs) (body ofs) (body ofs)) :
    Safe b limit 0 (AreaInside dataSize D) (valueArea dataSize body) (valueArea dataSize body) := by
  intro v off hv hoff
  simp only [valueArea, Pull.withOffset_apply, Pull.bind_apply, needBytes_eq dataSize hv hoff]
  split
  case isFalse hover => exact .error (fun h => absurd h hover) _
  case isTrue hle =>
    -- the end was checked before the body ran
    simp only [ok_bind, Pull.seek_apply, Pull.pure_apply, hv.u32_add hle]
    exact ((hbody off v off hv hoff).then fun r _ => .ok trivial ⟨by simp only; omega, hle⟩).congr
      (by simp [AreaInside, hle])

theorem sure_allocArea (count : Nat) : Sure b limit 0 (allocArea count) :=
  (Sure.allocN count 1).then fun _ => Sure.allocN count 8

/-! ## Classes, instances and methods -/

theorem safe_pullClassScalars :
    Safe b limit 0 (After pullAlign fun _ => After pullUint8 fun _ => After pullPtrFf fun _ =>
      After pullUint32 fun _ => CimstringsInside charset) (pullClassScalars charset)
      (pullClassScalars charset) := by
  have hproperties : Sure b limit 0 pullPropertiesScalars :=
    Sure.pullUint32.then fun count => (Sure.allocN count 16).then fun _ =>
      .times sure_pullPropertyScalars count
  have harea : ∀ dataSize (properties : List RawProperty), Sure b limit 0
      (valueArea dataSize fun ofs => do
        allocArea properties.length
        pure ofs) := by
    intro dataSize properties v off hv hoff
    exact (safe_valueArea dataSize (fun ofs => (sure_allocArea properties.length).then fun _ =>
      .pure ofs) v off hv hoff).congr (by simp [AreaInside])
  exact Sure.pullAlign.after fun _ => Sure.pullUint8.after fun _ => sure_pullPtrFf.after fun _ =>
    Sure.pullUint32.after fun dataSize => safe_ndrPullCimstrings.then fun _ =>
      sure_pullQualifiersScalars.then fun _ => hproperties.then fun properties =>
        (harea dataSize properties).then fun _ => .pure _

theorem safe_pullInstanceScalars (cls : Option (WbemClass O)) :
    Safe b limit 0 (InstanceScalarsInside cls) (pullInstanceScalars cls)
      (pullInstanceScalars cls) := by
  cases cls with
  | none => exact Sure.fail _
  | some cls =>
    exact Sure.pullUint8.after fun _ => sure_pullPtrFf.after fun _ =>
      (safe_valueArea cls.dataSize fun ofs => (sure_allocArea _).after fun _ =>
        (safe_pullFlags ofs cls.properties).seq fun _ =>
          (Safe.each (safe_pullValueScalars _) cls.properties).then fun _ => .pure _).then fun _ =>
        Sure.pullUint32.then fun _ => Sure.pullUint8.then fun _ => .pure _

theorem sure_pullMethodsScalars : Sure b limit 0 pullMethodsScalars := by
  have hmethod : Sure b limit 0 pullMethodScalars :=
    Sure.pullAlign.then fun _ => sure_pullPtrFf.then fun _ => Sure.pullUint32.then fun _ =>
      Sure.pullUint32.then fun _ => sure_pullPtr.then fun _ => sure_pullPtr.then fun _ =>
        sure_pullPtr.then fun _ => .pure _
  exact Sure.pullAlign.then fun _ => Sure.pullUint16.then fun count =>
    Sure.pullUint16.then fun _ => (Sure.times hmethod count).then fun _ => .pure _

/-! ## Sections -/

/-- The heap of a section: its view ends where the checked size says. -/
theorem safe_pullStack {R : Type} {buffers buffers' : R → Pull α} {D : R → Condition}
    (hbuffers : ∀ raw, Safe b limit 0 (D raw) (buffers raw) (buffers' raw)) (raw : R) :
    Safe b limit 0 (StackInside D raw) (pullStack buffers raw) (pullStack buffers' raw) := by
  refine Sure.pullUint32.after (k := 0) fun ssize => ?_
  intro v off hv hoff
  have hinside := hv.inside
  by_cases hlow : ssize < 0x80000000
  · simp only [hlow, if_true, Pull.fail_apply]
    exact .error (fun h => absurd h (by omega)) _
  · simp only [hlow, if_false, Pull.bind_apply, needBytes_eq _ hv hoff]
    split
    case isFalse hover => exact .error (fun _ h => absurd h hover) _
    case isTrue hle =>
      simp only [ok_bind, Pull.within_apply, hv.u32_add hle]
      have hready : Ready b limit { v with size := off + (ssize - 0x80000000), base := off } :=
        ⟨hv.data_eq, by simp only; omega, hv.limit_le⟩
      refine ((hbuffers raw _ off hready (le_add_right _ _)).mono fun r hr => ?_).congr
        (by simp [hle, Nat.le_of_not_lt hlow])
      exact ⟨hr.1, Nat.le_trans hr.2 hle⟩

/-- The size of a section is checked against the view around it, less its own 4 bytes: a size below
4 wraps around and fails the check. -/
theorem safe_ndrPullDataWithStack {R : Type} {scalars : Pull R} {buffers buffers' : R → Pull α}
    {D : R → Condition} (hscalars : Safe b limit 0 C scalars scalars)
    (hbuffers : ∀ raw, Safe b limit 0 (D raw) (buffers raw) (buffers' raw)) :
    Safe b limit 0 (SectionInside C scalars D) (ndrPullDataWithStack scalars buffers)
      (ndrPullDataWithStack scalars buffers') := by
  intro v off hv hoff
  have hsize := hv.size_lt
  have hinside := hv.inside
  simp only [ndrPullDataWithStack, Pull.withOffset_apply, Pull.bind_apply]
  refine ((pullUintN_ends 4 hv hoff).bind (D := fun r => 4 ≤ r.1 → off + r.1 ≤ v.size →
    Then C scalars (StackInside D) { v with size := off + r.1 } r.2) fun r hr => ?_).congr
    (by simp [SectionInside, After, Ndr.pullUint32])
  obtain ⟨hvalue, hr₂, hle⟩ := hr
  rw [needBytes_eq _ hv hle]
  by_cases hneed : 4 ≤ r.1 ∧ off + r.1 ≤ v.size
  · have hwithin : r.2 + u32Sub r.1 4 ≤ v.size := by
      rw [u32Sub_of_le hneed.1 hvalue]
      omega
    have hready : Ready b limit { v with size := off + r.1 } :=
      ⟨hv.data_eq, by simp only; omega, hv.limit_le⟩
    have hbody := hscalars.seq (fun raw => safe_pullStack hbuffers raw) _ r.2 hready
      (by simp only; omega)
    simp only [if_pos hwithin, ok_bind, Pull.within_apply, hv.u32_add hneed.2]
    exact (hbody.then fun r' _ => .ok trivial ⟨by simp only; omega, hneed.2⟩).congr
      (by simp [hneed.1, hneed.2])
  · have hover : ¬ r.2 + u32Sub r.1 4 ≤ v.size := by
      intro hfit
      have hle : u32Sub r.1 4 ≤ v.size := by omega
      obtain ⟨hfour, -⟩ := (u32Sub_le_iff hvalue (by omega) hsize).1 hle
      rw [u32Sub_of_le hfour hvalue] at hfit
      omega
    rw [if_neg hover]
    exact .error (fun h₁ h₂ => absurd ⟨h₁, h₂⟩ hneed) _

/-! ## Decoders of embedded objects -/

variable {I : View → Prop} (hobj : SafeContent b (limit + 4) I obj obj')

include hobj

theorem safe_pullEmbedded (ptr : Option Nat) :
    Safe b limit 0 (EmbeddedInside I ptr) (pullEmbedded obj ptr) (pullEmbedded obj' ptr) :=
  (safe_follow (.subcontext4 hobj) ptr).then fun _ => .pure _

theorem safe_pullCimvarBuffers (raw : RawVar) :
    Safe b limit 0 (CimvarInside obj I raw) (pullCimvarBuffers charset obj raw)
      (pullCimvarBuffers charset obj' raw) := by
  cases raw with
  | num v => exact Sure.pure _
  | pointer kind ptr =>
    cases kind with
    | num _ => exact Sure.fail _
    | string => exact (sure_name ptr).then fun _ => .pure _
    | object => exact (safe_pullEmbedded hobj ptr).then fun _ => .pure _
    | nums width => exact (sure_follow (sure_pullArrNumbers width) ptr).then fun _ => .pure _
    | strings => exact (sure_follow sure_pullArrStrings ptr).then fun _ => .pure _
    | objects =>
      exact (safe_follow (sure_pullPtrs.after fun ptrs =>
        .each (safe_pullEmbedded hobj) ptrs) ptr).then fun _ => .pure _

theorem safe_pullQualifiersBuffers (r : List RawQualifier) :
    Safe b limit 0 (QualifiersInside charset obj I r) (pullQualifiersBuffers charset obj r)
      (pullQualifiersBuffers charset obj' r) := by
  have hname : ∀ name, Sure b limit 0 (pullQualifierName charset name) := by
    intro name
    unfold pullQualifierName
    split
    · exact .pure _
    · split
      · exact .pure _
      · exact sure_name _
  exact .each (fun r => (hname r.name).after fun _ =>
    (safe_pullCimvarBuffers hobj r.value).then fun _ => .pure _) r

theorem safe_pullPropertyBuffers (r : RawProperty) :
    Safe b limit 0 (PropertyInside charset obj I r) (pullPropertyBuffers charset obj r)
      (pullPropertyBuffers charset obj' r) :=
  (sure_name r.name).after fun _ => (safe_follow
    (Sure.pullAlign.after fun _ => Sure.pullUint32.after fun _ => Sure.pullUint16.after fun _ =>
      Sure.pullUint32.after fun _ => Sure.pullUint32.after fun _ =>
        sure_pullQualifiersScalars.after fun raw =>
          (safe_pullQualifiersBuffers hobj raw).then fun _ => .pure _) r.desc).then fun _ => .pure _

theorem safe_pullDefault (vofs : Nat) (r : WbemProperty O × Nat) :
    Safe b limit 0 (DefaultInside obj I vofs r) (pullDefault charset obj vofs r)
      (pullDefault charset obj' vofs r) := by
  intro v off hv hoff
  unfold pullDefault
  cases hflag : hasFlag r.2 defaultFlagEmpty with
  | true => exact .ok (by simp [DefaultInside, hflag]) ⟨Nat.le_refl _, hoff⟩
  | false =>
    exact ((safe_pullValueScalars vofs r.1).seq (fun raw => safe_pullCimvarBuffers hobj raw)
      v off hv hoff).congr (by simp [DefaultInside, hflag])

theorem safe_pullClassBuffers (r : RawClass) :
    Safe b limit 0 (ClassBuffersInside charset obj I r) (pullClassBuffers charset obj r)
      (pullClassBuffers charset obj' r) :=
  (sure_name r.className).after fun _ => (safe_pullQualifiersBuffers hobj r.qualifiers).seq fun _ =>
    (Safe.each (safe_pullPropertyBuffers hobj) r.properties).seq fun properties =>
      (safe_pullFlags r.flagsOfs properties).seq fun flags =>
        (Safe.each (safe_pullDefault hobj r.valuesOfs) (properties.zip flags)).then fun _ => .pure _

theorem safe_pullMethodBuffers (r : RawMethod) :
    Safe b limit 0 (MethodInside charset obj I r) (pullMethodBuffers charset obj r)
      (pullMethodBuffers charset obj' r) :=
  (sure_name r.name).after fun _ =>
    (safe_follow (sure_pullQualifiersScalars.after fun raw =>
      safe_pullQualifiersBuffers hobj raw) r.qualifiers).seq fun _ =>
      (safe_pullEmbedded hobj r.inObject).seq fun _ =>
        (safe_pullEmbedded hobj r.outObject).then fun _ => .pure _

theorem safe_pullClassSection :
    Safe b limit 0 (ClassInside charset obj I) (pullClassSection charset obj)
      (pullClassSection charset obj') :=
  safe_ndrPullDataWithStack safe_pullClassScalars (safe_pullClassBuffers hobj)

theorem safe_pullMethodsSection :
    Safe b limit 0 (MethodsInside charset obj I) (pullMethodsSection charset obj)
      (pullMethodsSection charset obj') :=
  safe_ndrPullDataWithStack sure_pullMethodsScalars fun r =>
    (Safe.each (safe_pullMethodBuffers hobj) r.method).then fun _ => .pure _

theorem safe_pullInstanceSection (cls : Option (WbemClass O)) :
    Safe b limit 0 (InstanceInside charset obj I cls) (pullInstanceSection charset obj cls)
      (pullInstanceSection charset obj' cls) :=
  safe_ndrPullDataWithStack (safe_pullInstanceScalars cls) fun r =>
    (sure_name r.className).after fun _ =>
      (Safe.each (safe_pullCimvarBuffers hobj) r.data).then fun _ => .pure _

/-! ## Objects -/

omit hobj in
theorem sure_onFlag (flag : Bool) :
    Sure b limit 0 (onFlag flag (ndrPullCimstring charset)) := by
  intro v off hv hoff
  exact (safe_onFlag sure_ndrPullCimstring.weaken flag v off hv hoff).congr (by simp [OnFlag])

theorem safe_pullClassObject :
    Safe b limit 0 (ObjectInside charset obj I) (pullClassObject charset obj)
      (pullClassObject charset obj') :=
  Sure.pullUint8.after fun _ => (sure_onFlag _).after fun _ => (sure_onFlag _).after fun _ =>
    (safe_onFlag (safe_pullClassSection hobj) _).seq fun _ =>
      (safe_onFlag (safe_pullMethodsSection hobj) _).seq fun _ =>
        (safe_onFlag (safe_pullClassSection hobj) _).seq fun cls =>
          (safe_onFlag (safe_pullMethodsSection hobj) _).seq fun _ =>
            (safe_onFlag (safe_pullInstanceSection hobj cls) _).then fun _ => .pure _

theorem safe_pullClassObjectObject (cls : Option (WbemClass O)) :
    Safe b limit 0 (ObjectObjectInside charset obj I cls) (pullClassObjectObject charset obj cls)
      (pullClassObjectObject charset obj' cls) :=
  Sure.pullUint8.after fun _ => (sure_onFlag _).after fun _ => (sure_onFlag _).after fun _ =>
    (safe_onFlag (safe_pullInstanceSection hobj cls) _).then fun _ => .pure _

end Decoders

/-! ## Nesting -/

/-- One level for every 4 bytes behind the limit is enough. -/
theorem safeContent_pullObject (charset : Charset) : ∀ depth depth' limit,
    b.bytes.length ≤ limit + 4 * depth → b.bytes.length ≤ limit + 4 * depth' →
    SafeContent b limit (Inside charset depth) (pullObject charset depth)
      (pullObject charset depth') := by
  -- a view that starts behind the end of the buffer has no content
  have hout : ∀ limit v, b.bytes.length ≤ limit → Ready b limit v → ¬ 0 < v.size := by
    intro limit v hroom hv
    have hinside := hv.inside
    have hlimit := hv.limit_le
    omega
  intro depth
  induction depth with
  | zero =>
    intro depth' limit hroom _ v hv hsize
    exact absurd hsize (hout limit v (by omega) hv)
  | succ depth ih =>
    intro depth' limit hroom hroom' v hv hsize
    cases depth' with
    | zero => exact absurd hsize (hout limit v (by omega) hv)
    | succ depth' =>
      have hobj := ih depth' (limit + 4) (by omega) (by omega)
      exact (safe_pullClassObject hobj v 0 hv (zero_le _)).then fun r _ => .ok trivial trivial

end OpenvasSmb.Wbem
