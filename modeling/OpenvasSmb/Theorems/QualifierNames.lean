import OpenvasSmb.Wbem.Reading

/-!
# Names of qualifiers, there and back

A qualifier name is pushed as a number when it is one of the known keys or starts with
`Unknown`, and as a string on the heap otherwise. It comes back as it was exactly when it is
`NameKept`: NULL never does, and of the names that start with `Unknown` and go on with
something that `atoi` does not find negative only `Unknown_qualifier_name0` does.
-/

namespace OpenvasSmb.Wbem

open Kit Ndr List Outcome Prod Layout

variable {charset : Charset} {limit off off' : Nat} {name : String}

/-! ## Which names are kept -/

/-- The names that come back as they were pushed. -/
def NameKept : Option String → Prop
  | none => False
  | some name =>
    (∃ i < qualifierKeysSize, qualifierKeys i = some name) ∨
    name = "Unknown_qualifier_name0" ∨
    ¬ "Unknown".toList <+: name.toList ∨
    atoi (name.toList.drop "Unknown".length) < 0

theorem take_eq_iff (name : String) :
    qnUnknown.toList.take qnUnknownSize = name.toList.take qnUnknownSize ↔
      "Unknown".toList <+: name.toList := by
  rw [prefix_iff_eq_take]
  rfl

/-- The text behind `Unknown` in the names that the pull makes up is no number. -/
theorem atoi_madeUp (rest : List Char) : atoi ("_qualifier_name".toList ++ rest) = 0 := by
  have hstrtol : (strtol ("_qualifier_name".toList ++ rest)).1 = 0 := rfl
  rfl

theorem madeUp_toList (n : Nat) :
    (qnUnknown ++ toString n).toList =
      "Unknown".toList ++ ("_qualifier_name".toList ++ (toString n).toList) := by
  rw [String.toList_append]
  rfl

/-- A name that is no key has a number when it starts with `Unknown`. -/
theorem qualifierIndex_of_noKey (h : ¬ ∃ i < qualifierKeysSize, qualifierKeys i = some name) :
    qualifierIndex name =
      if "Unknown".toList <+: name.toList then atoi (name.toList.drop "Unknown".length)
      else -1 := by
  have hfind : ((range qualifierKeysSize).find? fun i => qualifierKeys i == some name) =
      none := by
    refine find?_eq_none.mpr fun i hi hkey => h ⟨i, mem_range.mp hi, ?_⟩
    simpa using hkey
  rw [qualifierIndex, hfind]
  exact if_congr (take_eq_iff name) rfl rfl

theorem qualifierIndex_of_key {i : Nat} (hi : i < qualifierKeysSize)
    (hkey : qualifierKeys i = some name) :
    ∃ j < qualifierKeysSize, qualifierKeys j = some name ∧ qualifierIndex name = j := by
  cases hfind : (range qualifierKeysSize).find? fun i => qualifierKeys i == some name with
  | none =>
    exact absurd (by simp [hkey]) (find?_eq_none.mp hfind i (mem_range.mpr hi))
  | some j =>
    refine ⟨j, mem_range.mp (mem_of_find?_eq_some hfind), ?_, ?_⟩
    · have hsome := find?_some hfind
      simpa using hsome
    · rw [qualifierIndex, hfind]

/-- A number stands for its name when that is a key, or the one name with `Unknown` for the number
0. -/
theorem keyName_index_iff (h : 0 ≤ qualifierIndex name) :
    qualifierKeyName ((qualifierIndex name).toNat % 256) = name ↔
      (∃ i < qualifierKeysSize, qualifierKeys i = some name) ∨
        name = "Unknown_qualifier_name0" := by
  by_cases hkey : ∃ i < qualifierKeysSize, qualifierKeys i = some name
  · obtain ⟨i, hi, hi'⟩ := hkey
    obtain ⟨j, hj, hj', hindex⟩ := qualifierIndex_of_key hi hi'
    have hsize : qualifierKeysSize = 11 := rfl
    rw [hindex, Int.toNat_natCast, Nat.mod_eq_of_lt (by omega), qualifierKeyName, hj']
    exact ⟨fun _ => .inl ⟨i, hi, hi'⟩, fun _ => rfl⟩
  · have hindex := qualifierIndex_of_noKey hkey
    have hunknown : "Unknown".toList <+: name.toList := by
      by_contra hnot
      rw [if_neg hnot] at hindex
      omega
    rw [if_pos hunknown] at hindex
    constructor
    · intro hname
      right
      generalize hn : (qualifierIndex name).toNat % 256 = n at hname
      rw [qualifierKeyName] at hname
      cases hkeys : qualifierKeys n with
      | some key =>
        rw [hkeys] at hname
        have hlt : n < qualifierKeysSize := by
          by_contra hge
          have hten : 10 < n := by
            have hsize : qualifierKeysSize = 11 := rfl
            omega
          rw [qualifierKeys] at hkeys
          · cases hkeys
          all_goals omega
        exact absurd ⟨n, hlt, by rw [hkeys, ← hname]; rfl⟩ hkey
      | none =>
        rw [hkeys] at hname
        -- the made-up name is no number behind `Unknown`, so that it stands for 0
        have hzero : qualifierIndex name = 0 := by
          rw [hindex, ← hname]
          show atoi ((qnUnknown ++ toString n).toList.drop 7) = 0
          rw [madeUp_toList]
          exact atoi_madeUp _
        rw [hzero] at hn
        obtain rfl : 0 = n := hn
        exact hname.symm
    · rintro (hkey' | rfl)
      · exact absurd hkey' hkey
      · have hzero : qualifierIndex "Unknown_qualifier_name0" = 0 := by
          exact atoi_madeUp ['0']
        rfl

theorem nameKept_iff (name : String) :
    NameKept (some name) ↔ (0 ≤ qualifierIndex name →
      (∃ i < qualifierKeysSize, qualifierKeys i = some name) ∨
        name = "Unknown_qualifier_name0") := by
  by_cases hkey : ∃ i < qualifierKeysSize, qualifierKeys i = some name
  · exact ⟨fun _ _ => .inl hkey, fun _ => .inl hkey⟩
  · rw [qualifierIndex_of_noKey hkey]
    constructor
    · rintro (hkey' | hzero | hnot | hneg) hindex
      · exact absurd hkey' hkey
      · exact .inr hzero
      · rw [if_neg hnot] at hindex
        omega
      · split at hindex <;> omega
    · intro h
      by_cases hunknown : "Unknown".toList <+: name.toList
      · rw [if_pos hunknown] at h
        by_cases hneg : atoi (name.toList.drop "Unknown".length) < 0
        · exact .inr (.inr (.inr hneg))
        · rcases h (by omega) with hkey' | hzero
          · exact absurd hkey' hkey
          · exact .inr (.inl hzero)
      · exact .inr (.inr (.inl hunknown))

/-- Such a name has a small number. -/
theorem index_le_of_keyName (h : 0 ≤ qualifierIndex name)
    (hname : qualifierKeyName ((qualifierIndex name).toNat % 256) = name) :
    qualifierIndex name ≤ 10 := by
  rcases (keyName_index_iff h).mp hname with ⟨i, hi, hkey⟩ | rfl
  · obtain ⟨j, hj, -, hindex⟩ := qualifierIndex_of_key hi hkey
    have hsize : qualifierKeysSize = 11 := rfl
    omega
  · decide

/-! ## What the pull makes of a name -/

section Pulled

variable {v : View} {m : Memory} {base heap : Nat}

theorem follow_ne_none {α : Type} {ptr : Nat} {p : Pull α} :
    follow (some ptr) p v off ≠ .ok (none, off') := by
  intro h
  obtain ⟨a, -, ha⟩ := bind_eq_ok.mp h
  cases ha

theorem follow_of_distance {α : Type} {p : Pull α} (hsmall : v.size < maxTallocSize)
    (hbase : v.base = base) (hle : base ≤ heap) (hheap : heap ≤ v.size) :
    follow (some (heap - base)) p v off =
      (p v heap).bind fun r => .ok (some r.1, off) := by
  have hlt : v.size < 2 ^ 28 := hsmall
  have hsum : u32 (heap - base + v.base) = heap := by
    rw [hbase, Nat.sub_add_cancel hle, u32_of_lt (by omega)]
  show ((atRelative (heap - base) p) v off).bind _ = _
  rw [atRelative, hsum, if_neg (by omega)]
  cases p v heap <;> rfl

theorem follow_stays {α : Type} {ptr : Option Nat} {p : Pull α} {a : Option α}
    (h : follow ptr p v off = .ok (a, off')) : off' = off := by
  cases ptr with
  | none => exact (mk.inj (ok.inj h)).2.symm
  | some ptr =>
    simp only [follow, Pull.bind_apply, atRelative] at h
    obtain ⟨⟨b, off₁⟩, hb, h₁⟩ := bind_eq_ok.mp h
    split at hb
    · cases hb
    · obtain ⟨r, -, hr⟩ := bind_eq_ok.mp hb
      obtain ⟨-, rfl⟩ := mk.inj (ok.inj hr)
      exact (mk.inj (ok.inj h₁)).2.symm

theorem pullQualifierName_stays {name : Option Nat} {a : Option String}
    (h : pullQualifierName charset name v off = .ok (a, off')) : off' = off := by
  cases name with
  | none => exact (mk.inj (ok.inj h)).2.symm
  | some relofs =>
    rw [pullQualifierName] at h
    split at h
    · exact (mk.inj (ok.inj h)).2.symm
    · exact follow_stays h

/-- **The name that comes back.** -/
theorem pullQualifierName_iff (hc : charset.AsciiCompatible) (hv : Frame v m)
    {name : Option String} {cur : Nat} (hname : ∀ s ∈ name, AsciiText s) (hbase : v.base = base)
    (hle : base ≤ heap) (hheap : heap + (qualifierNameLayout charset name).heap ≤ v.size)
    (h : (qualifierNameLayout charset name).Holds base m off heap) :
    pullQualifierName charset (ptrFfOf (nameWord base heap name)) v cur = .ok (name, cur) ↔
      NameKept name := by
  have hsmall : v.size < 2 ^ 28 := hv.small
  cases name with
  | none =>
    -- NULL is written as 0, which is a pointer for the pull
    have hword : ptrFfOf (nameWord base heap none) = some 0 := rfl
    show follow (some 0) (ndrPullCimstring charset) v cur = .ok (none, cur) ↔ False
    exact iff_false_intro follow_ne_none
  | some name =>
    have hs : AsciiText name := hname name rfl
    rw [qualifierNameLayout] at h hheap
    rw [nameWord]
    by_cases hindex : 0 ≤ qualifierIndex name
    · rw [if_pos hindex, index_word]
      rw [nameKept_iff, imp_iff_right hindex, ← keyName_index_iff hindex]
      by_cases hlast : (qualifierIndex name).toNat = 2 ^ 31 - 1
      · -- the number with all bits set is taken for NULL
        rw [hlast]
        refine iff_of_false (fun hnone => ?_) fun hkey => ?_
        · cases (mk.inj (ok.inj hnone)).1
        · rw [← hlast] at hkey
          have := index_le_of_keyName hindex hkey
          omega
      · have hptr : ptrFfOf (2 ^ 31 + (qualifierIndex name).toNat) =
            some (2 ^ 31 + (qualifierIndex name).toNat) := by
          rw [ptrFfOf, if_neg]
          show ¬ _ = 0xFFFFFFFF
          omega
        rw [hptr, pullQualifierName, if_pos (by omega)]
        have hmod : (2 ^ 31 + (qualifierIndex name).toNat) % 256 =
            (qualifierIndex name).toNat % 256 := by omega
        rw [hmod]
        show ok (some _, cur) = _ ↔ _
        simp
    · rw [if_neg hindex] at h hheap ⊢
      simp only [Layout.heap] at hheap
      have hptr : ptrFfOf (heap - base) = some (heap - base) := by
        rw [ptrFfOf, if_neg]
        show ¬ _ = 0xFFFFFFFF
        omega
      rw [hptr, pullQualifierName, if_neg (by omega), follow_of_distance hv.small hbase hle
        (by omega), pullCimstring_of_holds hc hs hv h.2 (by omega)]
      exact iff_of_true rfl ((nameKept_iff name).mpr fun h => absurd h hindex)

end Pulled

/-! ## A qualifier inside an object -/

/-- A qualifier that is pushed and pulled inside an object, which may push anything else that leaves
the bytes of the qualifier alone. -/
structure QualifierInObject (charset : Charset) (q : WbemQualifier Embedded) where
  /-- Where `NDR_SCALARS` starts, and where it ends. -/
  start : Output
  scalars : Output
  /-- Where `NDR_BUFFERS` starts, and where it ends. -/
  heap : Output
  buffers : Output
  /-- `relative_base_offset`. -/
  base : Nat
  /-- What is sent, and how it is looked at. -/
  mem : Memory
  view : View
  start_inside : ndrAllocator.Inside start
  push_scalars : (ndrPushWbemQualifier charset q).scalars ndrAllocator start = .ok scalars
  heap_inside : ndrAllocator.Inside heap
  behind : scalars.offset ≤ heap.offset
  base_le : base ≤ heap.offset
  between : scalars.mem.Same heap.mem start.offset scalars.offset
  push_buffers :
    (ndrPushWbemQualifier charset q).buffers ndrAllocator base start.offset heap = .ok buffers
  after_scalars : buffers.mem.Same mem start.offset scalars.offset
  after_heap : buffers.mem.Same mem heap.offset buffers.offset
  frame : Frame view mem
  view_base : view.base = base
  inside : buffers.offset ≤ view.size

namespace QualifierInObject

variable {q : WbemQualifier Embedded} (r : QualifierInObject charset q)

theorem scalars_offset :
    r.scalars.offset = r.start.offset + (ndrPushWbemQualifier charset q).size :=
  (scalars_ok _ r.start_inside r.push_scalars).1.offset_eq

/-- Both phases are where the pull looks for them. -/
theorem holds : r.buffers.offset = r.heap.offset + (ndrPushWbemQualifier charset q).heap ∧
    (ndrPushWbemQualifier charset q).Holds r.base r.mem r.start.offset r.heap.offset := by
  have hoffset := r.scalars_offset
  have hbehind := r.behind
  obtain ⟨-, hblank⟩ := scalars_ok _ r.start_inside r.push_scalars
  have hbetween := r.between
  rw [hoffset] at hbetween hbehind
  obtain ⟨hfilled, hholds⟩ := buffers_ok _ r.heap_inside
    (Blank.congr _ hbetween hblank) hbehind r.base_le r.push_buffers
  have hscalars := r.after_scalars
  have hheap := r.after_heap
  rw [hoffset] at hscalars
  rw [hfilled.offset_eq] at hheap
  exact ⟨hfilled.offset_eq, Holds.congr _ hscalars hheap hholds⟩

/-- `ndr_pull_WbemQualifier` returns the name that was pushed. -/
def NameComesBack {O : Type} (obj : View → Outcome O) (cur : Nat) : Prop :=
  ∃ raw back, pullQualifierScalars r.view r.start.offset = .ok (raw, r.scalars.offset) ∧
    pullQualifierBuffers charset obj raw r.view cur = .ok (some back, cur) ∧ back.name = q.name

end QualifierInObject

/-- **Names of qualifiers** come back as they were pushed, where the value can be pulled, exactly
when they are kept. -/
theorem qualifier_name_comes_back_iff (hc : charset.AsciiCompatible)
    {q : WbemQualifier Embedded} (hq : q.Fits) (hname : ∀ s ∈ q.name, AsciiText s)
    (r : QualifierInObject charset q) {O : Type} (obj : View → Outcome O) (cur : Nat)
    (hvalue : ∀ raw, pullQualifierScalars r.view r.start.offset = .ok (raw, r.scalars.offset) →
      ∃ value, pullCimvarBuffers charset obj raw.value r.view cur = .ok (value, cur)) :
    r.NameComesBack obj cur ↔ NameKept q.name := by
  obtain ⟨hoffset, hholds⟩ := r.holds
  have hscalars := r.scalars_offset
  have hinside := r.inside
  have hbehind := r.behind
  obtain ⟨kind, -, hpull⟩ := pullQualifierScalars_of_holds r.frame hq hholds (by omega) (by omega)
  rw [← hscalars] at hpull
  obtain ⟨value, hpullValue⟩ := hvalue _ hpull
  have hheap : r.heap.offset + (qualifierNameLayout charset q.name).heap ≤ r.view.size := by
    have hpart : (ndrPushWbemQualifier charset q).heap =
        (qualifierNameLayout charset q.name).heap +
          (0 + (0 + ((cimvarSlot charset (cimLevel q.cimtype) q.value).layout.heap + 0))) := rfl
    omega
  have hkept : pullQualifierName charset (ptrFfOf (nameWord r.base r.heap.offset q.name)) r.view
      cur = .ok (q.name, cur) ↔ NameKept q.name :=
    pullQualifierName_iff hc r.frame hname r.view_base r.base_le hheap hholds.1
  rw [← hkept]
  constructor
  · rintro ⟨raw, back, hraw, hback, hsame⟩
    rw [hpull] at hraw
    obtain ⟨rfl, -⟩ := mk.inj (ok.inj hraw)
    obtain ⟨⟨name, off⟩, hpullName, hback₁⟩ := bind_eq_ok.mp hback
    obtain ⟨⟨value', off'⟩, hpullValue', hback₂⟩ := bind_eq_ok.mp hback₁
    obtain ⟨hmk, rfl⟩ := mk.inj (ok.inj hback₂)
    obtain rfl := Option.some.inj hmk
    obtain rfl := pullQualifierName_stays hpullName
    rwa [show name = q.name from hsame] at hpullName
  · intro hpullName
    refine ⟨_, ⟨q.name, q.flavors, q.cimtype, value⟩, hpull, ?_, rfl⟩
    rw [rawQualifier] at hpullValue ⊢
    simp only [pullQualifierBuffers, Pull.bind_apply, hpullName, ok_bind, hpullValue,
      Pull.pure_apply]

/-! ## Instances -/

def plainQualifier (name : Option String) : WbemQualifier Embedded :=
  { name, flavors := 0, cimtype := cimUint32, value := .num 5 }

def outputOf : Pushed → Output
  | .ok s => s
  | .error _ => ndrPushInit fun _ => 0

/-- The phases of a qualifier alone in a buffer: the heap starts behind the scalars. -/
def aloneScalars (charset : Charset) (q : WbemQualifier Embedded) : Output :=
  outputOf ((ndrPushWbemQualifier charset q).scalars ndrAllocator (ndrPushInit fun _ => 0))

def aloneBuffers (charset : Charset) (q : WbemQualifier Embedded) : Output :=
  outputOf ((ndrPushWbemQualifier charset q).buffers ndrAllocator (aloneScalars charset q).offset 0
    (aloneScalars charset q))

def QualifierInObject.alone (charset : Charset) (q : WbemQualifier Embedded)
    (hscalars : (ndrPushWbemQualifier charset q).scalars ndrAllocator (ndrPushInit fun _ => 0) =
      .ok (aloneScalars charset q))
    (hbuffers : (ndrPushWbemQualifier charset q).buffers ndrAllocator
      (aloneScalars charset q).offset 0 (aloneScalars charset q) =
      .ok (aloneBuffers charset q)) : QualifierInObject charset q where
  start := ndrPushInit fun _ => 0
  scalars := aloneScalars charset q
  heap := aloneScalars charset q
  buffers := aloneBuffers charset q
  base := (aloneScalars charset q).offset
  mem := (aloneBuffers charset q).mem
  view :=
    { View.ofBytes (ndrPushBlob (aloneBuffers charset q)) with
      base := (aloneScalars charset q).offset }
  start_inside := ⟨by decide, by decide⟩
  push_scalars := hscalars
  heap_inside :=
    (scalars_ok _ ⟨by decide, by decide⟩ hscalars).1.inside
  behind := Nat.le_refl _
  base_le := Nat.le_refl _
  between := fun _ _ _ => rfl
  push_buffers := hbuffers
  after_scalars := fun _ _ _ => rfl
  after_heap := fun _ _ _ => rfl
  frame := by
    obtain ⟨hwrote, hblank⟩ := scalars_ok (A := ndrAllocator) _
      ⟨by decide, by decide⟩ hscalars
    obtain ⟨hfilled, -⟩ := buffers_ok _ hwrote.inside hblank
      (Nat.le_of_eq hwrote.offset_eq.symm) (Nat.le_refl _) hbuffers
    have hsize : (ndrPushBlob (aloneBuffers charset q)).length = (aloneBuffers charset q).offset :=
      Memory.length_bytes
    refine ⟨fun a ha => ?_, ?_⟩
    · have hshown := shows_blob (aloneBuffers charset q) [] a (by rw [← hsize]; exact ha)
      rwa [List.append_nil] at hshown
    · show (ndrPushBlob (aloneBuffers charset q)).length < _
      rw [hsize]
      exact Nat.lt_of_le_of_lt hfilled.inside.offset_le hfilled.inside.alloc_lt
  view_base := rfl
  inside := Nat.le_of_eq Memory.length_bytes.symm

/-- A known key. -/
theorem qualifier_name_key :
    NameKept (some "key") ∧ ∃ r : QualifierInObject plainCharset
      (plainQualifier (some "key")), r.NameComesBack (fun _ => ok ()) 0 := by
  have hkept : NameKept (some "key") := .inl ⟨1, by decide, rfl⟩
  let r : QualifierInObject plainCharset (plainQualifier (some "key")) :=
    .alone _ _ rfl rfl
  refine ⟨hkept, r, ?_⟩
  refine (qualifier_name_comes_back_iff plainCharset_ascii ⟨by decide, by decide⟩ ?_ r _ 0
    ?_).mpr hkept
  · intro s hs
    obtain rfl := Option.some.inj hs
    decide
  · intro raw hraw
    have hpull : pullQualifierScalars r.view r.start.offset =
        .ok (⟨some 0x80000001, 0, cimUint32, .num 5⟩, r.scalars.offset) := by decide
    rw [hpull] at hraw
    obtain ⟨rfl, -⟩ := mk.inj (ok.inj hraw)
    exact ⟨.num 5, rfl⟩

/-- A name that the pull itself makes up comes back as another one, the name `Unknown1` as a
key, and NULL as a string. -/
theorem qualifier_names_lost :
    (∃ r : QualifierInObject plainCharset
      (plainQualifier (some "Unknown_qualifier_name5")),
      ∃ raw back, pullQualifierScalars r.view r.start.offset = .ok (raw, r.scalars.offset) ∧
        pullQualifierBuffers plainCharset (fun _ => ok ()) raw r.view 0 =
          .ok (some back, 0) ∧ back.name = some "Unknown_qualifier_name0") ∧
    (∃ r : QualifierInObject plainCharset (plainQualifier (some "Unknown1")),
      ∃ raw back, pullQualifierScalars r.view r.start.offset = .ok (raw, r.scalars.offset) ∧
        pullQualifierBuffers plainCharset (fun _ => ok ()) raw r.view 0 =
          .ok (some back, 0) ∧ back.name = some "key") ∧
    (∃ r : QualifierInObject plainCharset (plainQualifier none),
      ∃ raw, pullQualifierScalars r.view r.start.offset = .ok (raw, r.scalars.offset) ∧
        raw.name = some 0 ∧
        pullQualifierBuffers plainCharset (fun _ => ok ()) raw r.view 0 =
          .error .bufferTooSmall) := by
  refine ⟨⟨.alone _ _ rfl rfl,
      ⟨some 0x80000000, 0, cimUint32, .num 5⟩,
      ⟨some "Unknown_qualifier_name0", 0, cimUint32, .num 5⟩, ?_, ?_, rfl⟩,
    ⟨.alone _ _ rfl rfl,
      ⟨some 0x80000001, 0, cimUint32, .num 5⟩, ⟨some "key", 0, cimUint32, .num 5⟩, ?_, ?_, rfl⟩,
    ⟨.alone _ _ rfl rfl,
      ⟨some 0, 0, cimUint32, .num 5⟩, ?_, rfl, ?_⟩⟩
  all_goals decide

end OpenvasSmb.Wbem
