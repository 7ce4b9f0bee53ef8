import OpenvasSmb.Dcom.Bindings
import Mathlib.Data.List.Rotate

/-!
# The search for a binding that answers

Each round of the search reads one entry of the array and moves the offset to the next one, from
the last back to the first. So the offsets are those of the array in cyclic order (`Points`), and
what is tried of them are the TCP bindings (`nextBinding_spec`), until one answers
(`binding_search`).
-/

namespace OpenvasSmb.Dcom.BindingSearch

open Kit Dcerpc List Nat PointerArray EpmProtocol Option

variable {bindings : List StringBinding} {connect : Nat → NtStatus} {s : BindingSearch}
  {p m fuel : Nat}

def isTcp (bindings : List StringBinding) (i : Nat) : Bool :=
  (bindings[i]?).any fun sb => sb.wTowerId == tcp.code

/-- Where a search may start: at a TCP binding, or at the NULL. -/
def Similar (bindings : List StringBinding) (similar : Nat) : Prop :=
  similar = bindings.length ∨ isTcp bindings similar = true

/-- A binding that is found by the name of the host is a TCP binding. -/
theorem findSimilarBinding_similar (bindings : List StringBinding) (host : Text) :
    Similar bindings (findSimilarBinding bindings host) := by
  by_cases hlt : findSimilarBinding bindings host < bindings.length
  · right
    have hfound := findIdx_getElem (w := hlt)
    rw [Bool.and_eq_true] at hfound
    rw [isTcp, getElem?_eq_getElem hlt]
    exact hfound.1
  · exact .inl (le_antisymm findIdx_le_length (not_lt.mp hlt))

/-- The TCP bindings among the next `m` entries in cyclic order. -/
def tcpFrom (bindings : List StringBinding) (p m : Nat) : List Nat :=
  ((List.range' p m).map (· % bindings.length)).filter (isTcp bindings)

/-- The search has `m` entries before it, and `p` is the next one in cyclic order. -/
structure Points (bindings : List StringBinding) (p m : Nat) (s : BindingSearch) : Prop where
  similar : Similar bindings s.similarBindingIndex
  index : s.currentBindingIndex + m = bindings.length
  offset : ∃ q : Nat, s.currentBindingOffset + 1 = q ∧ q ≤ bindings.length ∧
    q % bindings.length = p % bindings.length

theorem entryAt_ofList {i : Nat} (h : i ≤ bindings.length) :
    entryAt (.ofList bindings) i = some bindings[i]? := by
  rw [entryAt, if_neg (by omega), Int.toNat_natCast, fetch_ofList, if_pos h]

/-- The loop goes on to the next TCP binding in cyclic order. -/
theorem nextBinding_spec (h : Points bindings p m s) (hfuel : m < fuel) :
    (∃ s', nextBinding (.ofList bindings) fuel s = some (none, s') ∧ tcpFrom bindings p m = []) ∨
    ∃ sb s' i p' m', nextBinding (.ofList bindings) fuel s = some (some sb, s') ∧
      sb.wTowerId = tcp.code ∧ s'.currentBindingOffset = (i : Nat) ∧
      tcpFrom bindings p m = i :: tcpFrom bindings p' m' ∧ m' < m ∧ Points bindings p' m' s' := by
  induction m generalizing s p fuel with
  | zero =>
    obtain ⟨fuel, rfl⟩ : ∃ k, fuel = k + 1 := ⟨fuel - 1, by omega⟩
    have hindex : s.currentBindingIndex = bindings.length := h.index
    refine .inl ⟨{ s with currentBindingIndex := bindings.length + 1 }, ?_, rfl⟩
    simp [nextBinding, hindex, entryAt_ofList]
  | succ m ih =>
    obtain ⟨fuel, rfl⟩ : ∃ k, fuel = k + 1 := ⟨fuel - 1, by omega⟩
    obtain ⟨hsimilar, hindex, q, hq, hle, hmod⟩ := h
    have hlt : s.currentBindingIndex < bindings.length := by omega
    have hi : p % bindings.length < bindings.length := mod_lt _ (by omega)
    -- behind the last entry the offset is set to the first one
    have hoffset : (if bindings[q]?.isNone then (0 : Int) else q) = (p % bindings.length : Nat) := by
      rw [← hmod]
      by_cases heq : q = bindings.length
      · simp [heq]
      · have hlt : q < bindings.length := by omega
        simp [hlt, mod_eq_of_lt hlt]
    have hstep : nextBinding (.ofList bindings) (fuel + 1) s =
        if p % bindings.length = s.similarBindingIndex ∨
            bindings[p % bindings.length].wTowerId = tcp.code then
          some (some bindings[p % bindings.length], { s with
            currentBindingIndex := s.currentBindingIndex + 1
            currentBindingOffset := (p % bindings.length : Nat) })
        else nextBinding (.ofList bindings) fuel { s with
            currentBindingIndex := s.currentBindingIndex + 1
            currentBindingOffset := (p % bindings.length : Nat) } := by
      simp only [nextBinding, entryAt_ofList hlt.le, hq, entryAt_ofList hle, bind_eq_bind,
        bind_some, getElem?_eq_getElem hlt, isNone_some, Bool.false_eq_true,
        if_false, hoffset, entryAt_ofList hi.le, getElem?_eq_getElem hi, Nat.cast_inj]
    have hpoints : Points bindings (p + 1) m { s with
        currentBindingIndex := s.currentBindingIndex + 1
        currentBindingOffset := (p % bindings.length : Nat) } :=
      ⟨hsimilar, by simp only; omega, p % bindings.length + 1, by simp, hi, by simp⟩
    have htcp : isTcp bindings (p % bindings.length) = true ↔
        bindings[p % bindings.length].wTowerId = tcp.code := by
      simp [isTcp, getElem?_eq_getElem hi]
    have hfrom : tcpFrom bindings p (m + 1) = if isTcp bindings (p % bindings.length) then
        p % bindings.length :: tcpFrom bindings (p + 1) m else tcpFrom bindings (p + 1) m := by
      rw [tcpFrom, range'_succ, map_cons, filter_cons]
      rfl
    rw [hstep, hfrom]
    by_cases hfound : isTcp bindings (p % bindings.length) = true
    · rw [if_pos (.inr (htcp.mp hfound)), if_pos hfound]
      exact .inr ⟨_, _, _, _, m, rfl, htcp.mp hfound, rfl, rfl, by omega, hpoints⟩
    · have hother : ¬ (p % bindings.length = s.similarBindingIndex ∨
          bindings[p % bindings.length].wTowerId = tcp.code) := by
        rintro (heq | htower)
        · rcases hsimilar with hend | hsimilar
          · omega
          · exact hfound (heq ▸ hsimilar)
        · exact hfound (htcp.mpr htower)
      rw [if_neg hother, if_neg hfound]
      rcases ih hpoints (lt_of_succ_lt_succ hfuel) with hnone | ⟨sb, s', i, p', m', hrest⟩
      · exact .inl hnone
      · exact .inr ⟨sb, s', i, p', m', hrest.1, hrest.2.1, hrest.2.2.1, hrest.2.2.2.1, by omega,
          hrest.2.2.2.2.2⟩

/-- Which entries of a list are tried when `k` were tried before, and how it ends. -/
structure Answered (connect : Nat → NtStatus) (k : Nat) (order attempts : List Nat)
    (result : Except NtStatus Nat) : Prop where
  isPrefix : attempts <+: order
  failed : ∀ j, j + 1 < attempts.length → (connect (k + j)).isOk = false
  ends : (∃ i, result = .ok i ∧ attempts.getLast? = some i ∧
      (connect (k + (attempts.length - 1))).isOk = true) ∨
    (result = .error .invalidAddress ∧ attempts = order ∧
      ∀ j < attempts.length, (connect (k + j)).isOk = false)

theorem Answered.cons {k i : Nat} {order attempts : List Nat} {result : Except NtStatus Nat}
    (h : Answered connect (k + 1) order attempts result) (hfail : (connect k).isOk = false) :
    Answered connect k (i :: order) (i :: attempts) result := by
  have hcons : ∀ j, (connect (k + 1 + j)).isOk = (connect (k + (j + 1))).isOk := by
    intro j
    rw [add_assoc, add_comm 1]
  refine ⟨cons_prefix_cons.mpr ⟨rfl, h.isPrefix⟩, ?_, ?_⟩
  · intro j hj
    cases j with
    | zero => exact hfail
    | succ j => exact hcons j ▸ h.failed j (by simpa using hj)
  · rcases h.ends with ⟨j, hresult, hlast, hok⟩ | ⟨hresult, rfl, hall⟩
    · cases attempts with
      | nil => cases hlast
      | cons a attempts => exact .inl ⟨j, hresult, hlast, by simpa using hcons _ ▸ hok⟩
    · refine .inr ⟨hresult, rfl, fun j hj => ?_⟩
      cases j with
      | zero => exact hfail
      | succ j => exact hcons j ▸ hall j (by simpa using hj)

theorem tryNextBinding_spec (tried : List Nat) (h : Points bindings p m s) (hfuel : m < fuel) :
    ∃ attempts result, tryNextBinding (.ofList bindings) connect fuel s tried =
        some (tried ++ attempts, result) ∧
      Answered connect tried.length (tcpFrom bindings p m) attempts result := by
  induction fuel generalizing s p m tried with
  | zero => omega
  | succ fuel ih =>
    have hlength : m < (ofList bindings).length + 1 := by
      have hindex := h.index
      simp only [ofList, length_terminated]
      omega
    rw [tryNextBinding]
    rcases nextBinding_spec h hlength with
      ⟨s', hnext, hnone⟩ | ⟨sb, s', i, p', m', hnext, htower, hoffset, hfrom, hless, hpoints⟩
    · refine ⟨[], .error .invalidAddress, by simp [hnext], ?_⟩
      rw [hnone]
      exact ⟨ nil_prefix, by simp, .inr ⟨rfl, rfl, by simp⟩⟩
    · obtain ⟨b, hbinding⟩ : ∃ b, dcerpcBindingFromStringBinding sb = .ok b := by
        rw [dcerpcBindingFromStringBinding, htower]
        exact ⟨_, rfl⟩
      simp only [hnext, bind_eq_bind, bind_some, hbinding, hoffset, Int.toNat_natCast]
      rw [hfrom]
      by_cases hok : (connect tried.length).isOk = true
      · rw [if_pos hok]
        exact ⟨[i], .ok i, rfl, by simp, by simp, .inl ⟨i, rfl, rfl, hok⟩⟩
      · rw [if_neg hok]
        obtain ⟨attempts, result, hrest, hanswered⟩ := ih (tried ++ [i]) hpoints (by omega)
        rw [length_append] at hanswered
        refine ⟨i :: attempts, result, by simpa using hrest, hanswered.cons (by simpa using hok)⟩

/-- **The search for a binding that answers** ends, and reads nothing behind the NULL; it tries the
TCP bindings in cyclic order from the similar one on, up to the first that answers;
`NT_STATUS_INVALID_ADDRESS` is for when all have failed. -/
theorem binding_search (bindings : List StringBinding) (similar : Nat)
    (hsimilar : Similar bindings similar) (connect : Nat → NtStatus) :
    ∃ attempts result, bindNewPipe bindings similar connect = some (attempts, result) ∧
      attempts.Nodup ∧ Answered connect 0
        (((List.range bindings.length).rotate similar).filter (isTcp bindings)) attempts result := by
  have hle : similar ≤ bindings.length := by
    rcases hsimilar with rfl | htcp
    · exact Nat.le_refl _
    · refine Nat.le_of_not_lt fun hlt => ?_
      simp [isTcp, getElem?_eq_none hlt.le] at htcp
  have horder : tcpFrom bindings similar bindings.length =
      ((range bindings.length).rotate similar).filter (isTcp bindings) := by
    rw [tcpFrom]
    congr 1
    refine ext_getElem (by simp) fun j hj hj' => ?_
    simp [getElem_rotate, add_comm]
  have hpoints : Points bindings similar bindings.length ⟨similar, similar - 1, 0⟩ :=
    ⟨hsimilar, zero_add _, similar, by simp, hle, rfl⟩
  obtain ⟨attempts, result, hsearch, hanswered⟩ :=
    @tryNextBinding_spec _ connect _ _ _ _ [] hpoints (lt_succ_self _)
  rw [horder] at hanswered
  refine ⟨attempts, result, hsearch, ?_, hanswered⟩
  exact hanswered.isPrefix.sublist.nodup
    ((nodup_rotate.mpr nodup_range).filter _)

/-- A search that starts at the second of two TCP bindings. -/
theorem binding_search_from_second :
    Similar [⟨7, "a[1]".toList⟩, ⟨7, "b[1]".toList⟩] 1 ∧
      ∃ attempts result, bindNewPipe [⟨7, "a[1]".toList⟩, ⟨7, "b[1]".toList⟩] 1
        (fun _ => .accessDenied) = some (attempts, result) ∧ attempts.Nodup ∧
        Answered (fun _ => .accessDenied) 0 (((List.range 2).rotate 1).filter
          (isTcp [⟨7, "a[1]".toList⟩, ⟨7, "b[1]".toList⟩])) attempts result :=
  ⟨.inr (by decide), binding_search _ _ (.inr (by decide)) _⟩

end OpenvasSmb.Dcom.BindingSearch
