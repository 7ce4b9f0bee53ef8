import OpenvasSmb.Wbem.Push
import OpenvasSmb.Ndr.Reads

/-!
# Reading what a layout left in memory

The pulls of `Wbem/Pull.lean` over a view that shows a memory in which a layout of
`Wbem/Push.lean` stands. The scalars are read back whatever the layout is; a slot gives the
number that `Slot.word` names.
-/

namespace OpenvasSmb.Wbem

open Kit Ndr List Outcome

/-- The view shows the memory, and is not larger than an output buffer. -/
structure Frame (v : View) (m : Memory) : Prop where
  shown : Shows v m v.size
  small : v.size < maxTallocSize

section Numbers

variable {v : View} {m : Memory} {off n x : Nat}

theorem Frame.reads (hv : Frame v m) {bytes : Bytes} (h : m.Has off bytes)
    (hin : off + bytes.length ≤ v.size) : v.Reads off bytes := by
  have hsmall : v.size < 2 ^ 28 := hv.small
  exact hv.shown.reads (Nat.le_refl _) (by omega) h hin

theorem Frame.data_le (hv : Frame v m) (h : 0 < v.size) : v.origin + v.size ≤ v.data.length := by
  have hlast := hv.shown (v.size - 1) (by omega)
  have := (List.getElem?_eq_some_iff.mp hlast).1
  omega

theorem toLe_ne_nil (hn : 0 < n) : toLe n x ≠ [] := by
  intro hnil
  have hlen := length_toLe n x
  rw [hnil, List.length_nil] at hlen
  omega

theorem Frame.pullUintN (hv : Frame v m) (h : m.Has off (toLe n x)) (hn : 0 < n)
    (hin : off + n ≤ v.size) : pullUintN n v off = .ok (x % 256 ^ n, off + n) := by
  have hreads := hv.reads h (by rwa [length_toLe])
  rw [pullUintN_of_reads hreads (toLe_ne_nil hn) (length_toLe n x).symm, ofLe_toLe]

theorem Frame.pullUint8 (hv : Frame v m) (h : m.Has off (toLe 1 x)) (hin : off + 1 ≤ v.size) :
    pullUint8 v off = .ok (x % 256, off + 1) := by
  rw [pullUint8_of_reads (hv.reads h hin), UInt8.toNat_ofNat']

theorem Frame.pullNumber (hv : Frame v m) (h : m.Has off (toLe n x)) (hn : 0 < n)
    (hin : off + n ≤ v.size) : pullNumber n v off = .ok (x % 256 ^ n, off + n) := by
  unfold Ndr.pullNumber
  by_cases hone : n = 1
  · subst hone
    rw [if_pos rfl, hv.pullUint8 h hin]
    rfl
  · rw [if_neg hone, hv.pullUintN h hn hin]

end Numbers

/-! ## Slots -/

/-- The number in a slot whose target is at `heap`. -/
def slotWord (base heap : Nat) : Slot PushError → Nat
  | .fail _ => 0
  | .raw bytes => ofLe bytes
  | .ref _ _ => heap - base

section Slots

variable {v : View} {m : Memory} {base off heap : Nat}

theorem Frame.pullSlot (hv : Frame v m) {slot : Slot PushError} (hsize : slot.layout.size = 4)
    (hheap : heap ≤ v.size) (h : slot.layout.Holds base m off heap) (hin : off + 4 ≤ v.size) :
    pullUint32 v off = .ok (slotWord base heap slot, off + 4) := by
  have hsmall : v.size < 2 ^ 28 := hv.small
  cases slot with
  | fail e => exact h.elim
  | raw bytes =>
    have hlen : bytes.length = 4 := hsize
    have hreads := hv.reads h (by omega)
    exact pullUintN_of_reads hreads (by rintro rfl; cases hlen) hlen.symm
  | ref null target =>
    show pullUint32 v off = .ok (heap - base, off + 4)
    have hword := hv.pullUintN h.1 (by decide) hin
    rwa [Nat.mod_eq_of_lt (by omega)] at hword

/-- What `pullPtr` makes of a word. -/
def ptrOf (word : Nat) : Option Nat := if word = 0 then none else some word

/-- What `pullPtrFf` makes of a word. -/
def ptrFfOf (word : Nat) : Option Nat := if word = nullFfffffff then none else some word

theorem pullPtr_of_word {word : Nat} (h : pullUint32 v off = .ok (word, off + 4)) :
    pullPtr v off = .ok (ptrOf word, off + 4) := by
  simp only [pullPtr, Pull.bind_apply, h, ok_bind, Pull.pure_apply, ptrOf]

theorem pullPtrFf_of_word {word : Nat} (h : pullUint32 v off = .ok (word, off + 4)) :
    pullPtrFf v off = .ok (ptrFfOf word, off + 4) := by
  simp only [pullPtrFf, Pull.bind_apply, h, ok_bind, Pull.pure_apply, ptrFfOf]

end Slots

/-! ## Strings -/

section Strings

variable {charset : Charset} {v : View} {m : Memory} {base off heap : Nat} {s : String}

theorem cimstringLayout_of_holds (hc : charset.AsciiCompatible) (hs : AsciiText s)
    (h : (cimstringLayout charset (some s)).Holds base m off heap) :
    m.Has off (cimstringBytes s) ∧
      (cimstringLayout charset (some s)).size = (cimstringBytes s).length := by
  unfold cimstringLayout at h ⊢
  cases hdos : toDosTerminated charset (some s) with
  | none =>
    rw [hdos] at h
    exact h.2.elim
  | some bytes =>
    rw [hdos] at h
    obtain ⟨t, ht, rfl, -⟩ := toDosTerminated_some hc (fun t ht => by
      obtain rfl := Option.some.inj ht
      exact hs) hdos
    obtain rfl := Option.some.inj ht
    refine ⟨Memory.has_cons.mpr ⟨(Memory.has_cons.mp h.1).1, h.2⟩, ?_⟩
    show 1 + (asciiBytes s ++ [0]).length = _
    rw [cimstringBytes, length_cons, Nat.add_comm]

theorem pullCimstring_of_holds (hc : charset.AsciiCompatible) (hs : AsciiText s)
    (hv : Frame v m) (h : (cimstringLayout charset (some s)).Holds base m off heap)
    (hin : off + (cimstringLayout charset (some s)).size ≤ v.size) :
    ndrPullCimstring charset v off =
      .ok (s, off + (cimstringLayout charset (some s)).size) := by
  obtain ⟨hhas, hsize⟩ := cimstringLayout_of_holds hc hs h
  rw [hsize] at hin ⊢
  have hreads := hv.reads hhas hin
  rw [show cimstringBytes s = [0] ++ (asciiBytes s ++ [0]) from rfl] at hreads hin ⊢
  have htext := pullNullTerminated_of_reads (asciiBytes_ne_zero hs) hreads.right
    (hv.data_le (by simp at hin; omega)) (hc.fromDos s hs)
  have hzero : UInt8.toNat 0 = 0 := rfl
  simp only [ndrPullCimstring, Pull.bind_apply, pullUint8_of_reads hreads.left, ok_bind,
    hzero, if_pos]
  refine htext.trans ?_
  simp only [length_append, length_cons, length_nil]
  congr 2
  omega

end Strings

/-! ## `CIMVAR` -/

section Values

variable {charset : Charset} {v : View} {m : Memory} {base off heap : Nat}

def CimKind.width : CimKind → Nat
  | .num width => width
  | _ => 4

theorem scalarKind_width {cimtype width : Nat} (h : scalarKind cimtype = some (.num width)) :
    0 < width := by
  unfold scalarKind at h
  split at h
  · cases h; decide
  split at h
  · cases h; decide
  split at h
  · cases h; decide
  split at h
  · cases h; decide
  split at h
  · cases h
  split at h
  · cases h
  · cases h

theorem cimKind_width {level width : Nat} (h : cimKind level = some (.num width)) : 0 < width := by
  unfold cimKind at h
  split at h
  · exact scalarKind_width h
  split at h
  · obtain ⟨kind, -, hkind⟩ := Option.bind_eq_some_iff.mp h
    cases kind <;> cases hkind
  · cases h

/-- What the scalars of a value leave. -/
def rawVar (base heap : Nat) (kind : CimKind) (slot : Slot PushError) : RawVar :=
  match kind with
  | .num _ => .num (slotWord base heap slot)
  | kind => .pointer kind (ptrOf (slotWord base heap slot))

theorem arraySlot_size {α : Type} (item : α → Layout PushError) (items : Option (List α)) :
    (arraySlot item items).layout.size = 4 := by
  cases items <;> rfl

theorem stringSlot_size (s : Option String) : (stringSlot charset s).layout.size = 4 := by
  cases s <;> rfl

theorem objectSlot_size (o : Option Embedded) : (objectSlot o).layout.size = 4 := by
  cases o <;> rfl

theorem cimvarSlot_size {level : Nat} {kind : CimKind} {value : Cimvar Embedded}
    (hkind : cimKind level = some kind)
    (h : (cimvarSlot charset level value).layout.Holds base m off heap) :
    (cimvarSlot charset level value).layout.size = kind.width := by
  unfold cimvarSlot at h ⊢
  rw [hkind] at h ⊢
  cases kind with
  | num width =>
    cases value with
    | num x => exact length_toLe width x
    | unset => exact length_toLe width 0
    | _ => exact h.elim
  | string =>
    cases value with
    | string s => exact stringSlot_size s
    | unset => exact stringSlot_size none
    | _ => exact h.elim
  | object =>
    cases value with
    | object o => exact objectSlot_size o
    | unset => exact objectSlot_size none
    | _ => exact h.elim
  | nums width =>
    cases value with
    | nums items => exact arraySlot_size _ items
    | unset => rfl
    | _ => exact h.elim
  | strings =>
    cases value with
    | strings items => exact arraySlot_size _ items
    | unset => rfl
    | _ => exact h.elim
  | objects =>
    cases value with
    | objects items => exact arraySlot_size _ items
    | unset => rfl
    | _ => exact h.elim

theorem cimvarSlot_num {level width : Nat} {value : Cimvar Embedded}
    (hkind : cimKind level = some (.num width))
    (h : (cimvarSlot charset level value).layout.Holds base m off heap) :
    ∃ x, cimvarSlot charset level value = .raw (toLe width x) := by
  unfold cimvarSlot at h ⊢
  rw [hkind] at h ⊢
  cases value with
  | num x => exact ⟨x, rfl⟩
  | unset => exact ⟨0, rfl⟩
  | _ => exact h.elim

theorem pullCimvarScalars_of_holds {level : Nat} {value : Cimvar Embedded} (hv : Frame v m)
    (hheap : heap ≤ v.size) (h : (cimvarSlot charset level value).layout.Holds base m off heap)
    (hin : off + (cimvarSlot charset level value).layout.size ≤ v.size) :
    ∃ kind, cimKind level = some kind ∧
      pullCimvarScalars level v off =
        .ok (rawVar base heap kind (cimvarSlot charset level value),
          off + (cimvarSlot charset level value).layout.size) := by
  cases hkind : cimKind level with
  | none =>
    unfold cimvarSlot at h
    rw [hkind] at h
    exact h.elim
  | some kind =>
    have hsize := cimvarSlot_size hkind h
    refine ⟨kind, rfl, ?_⟩
    unfold pullCimvarScalars
    rw [hkind]
    by_cases hnum : ∃ width, kind = .num width
    · obtain ⟨width, rfl⟩ := hnum
      obtain ⟨x, hx⟩ := cimvarSlot_num hkind h
      rw [hx] at h hin ⊢
      have hlen : (Slot.raw (toLe width x) : Slot PushError).layout.size = width :=
        length_toLe width x
      rw [hlen] at hin ⊢
      have hpull := hv.pullNumber h (cimKind_width hkind) hin
      simp only [Pull.bind_apply, hpull, ok_bind, Pull.pure_apply, rawVar, slotWord,
        ofLe_toLe]
    · have hfour : kind.width = 4 := by
        cases kind with
        | num width => exact absurd ⟨width, rfl⟩ hnum
        | _ => rfl
      rw [hsize, hfour] at hin ⊢
      have hptr := pullPtr_of_word (hv.pullSlot (hsize.trans hfour) hheap h hin)
      cases kind with
      | num width => exact absurd ⟨width, rfl⟩ hnum
      | _ => simp only [Pull.bind_apply, hptr, ok_bind, Pull.pure_apply, rawVar]

end Values

/-! ## Qualifiers -/

section Qualifiers

variable {charset : Charset} {v : View} {m : Memory} {base off heap : Nat}

def nameWord (base heap : Nat) : Option String → Nat
  | none => 0
  | some name =>
    if 0 ≤ qualifierIndex name then 0x80000000 ||| (qualifierIndex name).toNat
    else heap - base

theorem atoi_lt (s : List Char) : (atoi s).toNat < 2 ^ 31 := by
  have h := Int.bmod_lt (x := (strtol s).1) (m := 2 ^ 32) (by decide)
  unfold atoi
  omega

theorem qualifierIndex_lt (name : String) : (qualifierIndex name).toNat < 2 ^ 31 := by
  unfold qualifierIndex
  cases hfind : (range qualifierKeysSize).find? fun i => qualifierKeys i == some name with
  | some i =>
    have hi := mem_range.mp (mem_of_find?_eq_some hfind)
    have hsize : qualifierKeysSize = 11 := rfl
    show (Int.ofNat i).toNat < 2 ^ 31
    rw [Int.ofNat_eq_natCast]
    omega
  | none =>
    show (if _ then _ else (-1 : Int)).toNat < 2 ^ 31
    split
    · exact atoi_lt _
    · decide

theorem index_word (name : String) :
    0x80000000 ||| (qualifierIndex name).toNat = 2 ^ 31 + (qualifierIndex name).toNat :=
  or_eq_add (k := 31) (by decide) (qualifierIndex_lt name)

theorem qualifierName_size (name : Option String) :
    (qualifierNameLayout charset name).size = 4 := by
  cases name with
  | none => rfl
  | some name =>
    rw [qualifierNameLayout]
    split <;> rfl

theorem pullNameWord_of_holds (hv : Frame v m) {name : Option String} (hheap : heap ≤ v.size)
    (h : (qualifierNameLayout charset name).Holds base m off heap) (hin : off + 4 ≤ v.size) :
    pullUint32 v off = .ok (nameWord base heap name, off + 4) := by
  have hsmall : v.size < 2 ^ 28 := hv.small
  cases name with
  | none => exact hv.pullUintN (x := 0) h (by decide) hin
  | some name =>
    rw [qualifierNameLayout] at h
    rw [nameWord]
    by_cases hindex : 0 ≤ qualifierIndex name
    · rw [if_pos hindex] at h ⊢
      have hword := hv.pullUintN h (by decide) hin
      have hlt := qualifierIndex_lt name
      rwa [index_word, Nat.mod_eq_of_lt (by omega), ← index_word] at hword
    · rw [if_neg hindex] at h ⊢
      have hword := hv.pullUintN h.1 (by decide) hin
      rwa [Nat.mod_eq_of_lt (by omega)] at hword

def rawQualifier (charset : Charset) (base heap : Nat) (kind : CimKind)
    (q : WbemQualifier Embedded) : RawQualifier where
  name := ptrFfOf (nameWord base heap q.name)
  flavors := q.flavors
  cimtype := q.cimtype
  value := rawVar base (heap + (qualifierNameLayout charset q.name).heap) kind
    (cimvarSlot charset (cimLevel q.cimtype) q.value)

/-- The numbers of a qualifier fit the fields of the structure. -/
structure WbemQualifier.Fits {O : Type} (q : WbemQualifier O) : Prop where
  flavors : q.flavors < 2 ^ 8
  cimtype : q.cimtype < 2 ^ 32

theorem pullQualifierScalars_of_holds (hv : Frame v m) {q : WbemQualifier Embedded}
    (hq : q.Fits) (h : (ndrPushWbemQualifier charset q).Holds base m off heap)
    (hin : off + (ndrPushWbemQualifier charset q).size ≤ v.size)
    (hheap : heap + (ndrPushWbemQualifier charset q).heap ≤ v.size) :
    ∃ kind, cimKind (cimLevel q.cimtype) = some kind ∧
      pullQualifierScalars v off = .ok (rawQualifier charset base heap kind q,
        off + (ndrPushWbemQualifier charset q).size) := by
  obtain ⟨hname, hflavors, hcimtype, hvalue, -⟩ := h
  have hnameSize : (qualifierNameLayout charset q.name).size = 4 := qualifierName_size q.name
  simp only [ndrPushWbemQualifier, Layout.all, Layout.size, Layout.heap, hnameSize,
    length_toLe] at hin hheap hflavors hcimtype hvalue ⊢
  obtain ⟨kind, hkind, hpull⟩ := pullCimvarScalars_of_holds hv (by omega) hvalue (by omega)
  refine ⟨kind, hkind, ?_⟩
  have hnamePull := pullPtrFf_of_word (pullNameWord_of_holds hv (by omega) hname (by omega))
  have hflavorsPull := hv.pullUint8 hflavors (by omega)
  have hcimtypePull := hv.pullUintN hcimtype (by decide) (by omega)
  rw [Nat.mod_eq_of_lt (show q.flavors < 256 from hq.flavors)] at hflavorsPull
  rw [Nat.mod_eq_of_lt (show q.cimtype < 256 ^ 4 from hq.cimtype)] at hcimtypePull
  simp only [pullQualifierScalars, Pull.bind_apply, pullAlign_of_le (show off ≤ v.size by omega),
    ok_bind, hnamePull, hflavorsPull, pullUint32, hcimtypePull, hpull, Pull.pure_apply]
  congr 2
  omega

end Qualifiers

end OpenvasSmb.Wbem
