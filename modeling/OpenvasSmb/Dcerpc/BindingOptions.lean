import OpenvasSmb.Dcerpc.Binding

/-!
# The options of a binding string as a list

The parser keeps the options in an array of pointers and moves entries about in it: the array is
filled with the parts of the text (`fillOptions_eq`), the names of flags are moved out
(`flagLoop_terminated`) and the first of the others becomes the endpoint
(`takeEndpoint_terminated`). No access is outside of the array, and the result is said in terms of
lists only (`parseOptions_eq`).
-/

namespace OpenvasSmb.Dcerpc

open Kit PointerArray List Option

/-- The option stays in the list: it does not name a flag. -/
def isPlain (option : Text) : Bool := (optionFlag option).isNone

/-- The flags that a list of options names. -/
def flagsOf : List Text → BitVec 32
  | [] => 0
  | option :: rest => (optionFlag option).getD 0 ||| flagsOf rest

def endpointOf : List Text → Option Text
  | [] => none
  | endpoint :: _ => if endpoint = [] then none else some endpoint

/-- The options behind the endpoint; without any there is no list. -/
def optionsOf (kept : List Text) : Option (List Text) := kept.tail.head?.map fun _ => kept.tail

/-! ## Filling the array -/

/-- The array is long enough for the parts of the text and the NULL. -/
theorem fillOptions_eq {fuel i : Nat} {options : Text} {pre : PointerArray Text}
    (hpre : pre.length = i) (hfuel : options.length < fuel) :
    fillOptions fuel i options (pre ++ unset (options.count ',' + 2)) =
      some (pre ++ terminated (options.splitOn ',') []) := by
  induction fuel generalizing i options pre with
  | zero => omega
  | succ fuel ih =>
    rw [fillOptions]
    cases hcut : cut ',' options with
    | none =>
      have hnot := cut_eq_none_iff.mp hcut
      have hnext : (pre ++ [some (some options)]).length = i + 1 := by simp [hpre]
      rw [count_eq_zero.mpr hnot, splitOn_eq_singleton hnot]
      show ((pre ++ none :: [none]).store i (some options)).bind _ = _
      rw [store_append hpre, bind_some,
        show pre ++ [some (some options), none] = (pre ++ [some (some options)]) ++ [none] by
          simp, store_append hnext]
      simp
    | some parts =>
      obtain ⟨option, behind⟩ := parts
      obtain ⟨rfl, hnot⟩ := cut_eq_some_iff.mp hcut
      have hcount : (option ++ ',' :: behind).count ',' + 2 = behind.count ',' + 2 + 1 := by
        rw [count_append, count_cons_self, count_eq_zero.mpr hnot]
        omega
      have hnext : (pre ++ [some (some option)]).length = i + 1 := by simp [hpre]
      have hless : behind.length < fuel := by simp at hfuel; omega
      have hrest := ih hnext hless
      rw [hcount, splitOn_append_cons_self_of_not_mem hnot]
      show ((pre ++ none :: unset (behind.count ',' + 2)).store i (some option)).bind _ = _
      rw [store_append hpre, bind_some]
      simpa using hrest

/-! ## Taking the flags out -/

section

variable {fuel i : Nat} {a : PointerArray Text} {flags : BitVec 32} {option : Text}

theorem flagLoop_null (h : a.fetch i = some none) :
    flagLoop (fuel + 1) i a flags = some (a, flags) := by
  rw [flagLoop, h]

theorem flagLoop_flag {flag : BitVec 32} (h : a.fetch i = some (some option))
    (hflag : optionFlag option = some flag) :
    flagLoop (fuel + 1) i a flags =
      (a.shift a.length i).bind fun a => flagLoop fuel i a (flags ||| flag) := by
  rw [flagLoop, h]
  simp only [hflag]

theorem flagLoop_plain (h : a.fetch i = some (some option)) (hflag : optionFlag option = none) :
    flagLoop (fuel + 1) i a flags = flagLoop fuel (i + 1) a flags := by
  rw [flagLoop, h]
  simp only [hflag]

end

/-- The loop has the options up to `i` behind it and leaves of the others those that stay. -/
theorem flagLoop_terminated (rest : List Text) : ∀ (fuel i : Nat) (kept : List Text)
    (junk : PointerArray Text) (flags : BitVec 32), kept.length = i → rest.length < fuel →
    ∃ junk', flagLoop fuel i (pointers kept ++ terminated rest junk) flags =
      some (terminated (kept ++ rest.filter isPlain) junk', flags ||| flagsOf rest) := by
  induction rest with
  | nil =>
    intro fuel i kept junk flags hi hfuel
    obtain ⟨fuel, rfl⟩ : ∃ f, fuel = f + 1 := ⟨fuel - 1, by simp at hfuel; omega⟩
    have hpre : (pointers kept).length = i := by simp [hi]
    refine ⟨junk, ?_⟩
    rw [terminated_nil, flagLoop_null (fetch_append hpre _)]
    simp [terminated, flagsOf]
  | cons option rest ih =>
    intro fuel i kept junk flags hi hfuel
    obtain ⟨fuel, rfl⟩ : ∃ f, fuel = f + 1 := ⟨fuel - 1, by simp at hfuel; omega⟩
    have hpre : (pointers kept).length = i := by simp [hi]
    have hless : rest.length < fuel := by simpa using hfuel
    have hfetch : (pointers kept ++ terminated (option :: rest) junk).fetch i =
        some (some option) := fetch_append hpre _
    cases hflag : optionFlag option with
    | some flag =>
      -- the entry goes, and the next one stands in its place
      obtain ⟨junk', hrest⟩ := ih fuel i kept (some none :: junk) (flags ||| flag) hi hless
      refine ⟨junk', ?_⟩
      rw [flagLoop_flag hfetch hflag, shift_terminated hpre _ _ _ (by simp; omega),
        bind_some, hrest, flagsOf, hflag,
        filter_cons_of_neg (by simp [isPlain, hflag]), BitVec.or_assoc]
      rfl
    | none =>
      have hkept : (kept ++ [option]).length = i + 1 := by simp [hi]
      obtain ⟨junk', hrest⟩ := ih fuel (i + 1) (kept ++ [option]) junk flags hkept hless
      refine ⟨junk', ?_⟩
      rw [flagLoop_plain hfetch hflag, flagsOf, hflag,
        filter_cons_of_pos (by simp [isPlain, hflag])]
      simpa [pointers] using hrest

/-! ## The endpoint and the whole -/

theorem listed_terminated (l : List Text) (junk : PointerArray Text) :
    listed (terminated l junk) = l := by
  induction l with
  | nil => rfl
  | cons x l ih => rw [terminated_cons, listed, ih]

theorem takeEndpoint_terminated (kept : List Text) (junk : PointerArray Text) :
    ∃ junk', takeEndpoint (terminated kept junk) =
      some (endpointOf kept, terminated kept.tail junk') := by
  cases kept with
  | nil => exact ⟨junk, rfl⟩
  | cons endpoint rest =>
    have hshift : shift (terminated (endpoint :: rest) junk).length 0
        (terminated (endpoint :: rest) junk) = some (terminated rest (some none :: junk)) :=
      @shift_terminated _ [] 0 _ rfl endpoint rest junk (by simp)
    refine ⟨some none :: junk, ?_⟩
    show (shift (terminated (endpoint :: rest) junk).length 0 _).map _ = _
    rw [hshift]
    rfl

/-- The array that is left begins with NULL just when there are no options. -/
theorem fetch_zero_terminated (l : List Text) (junk : PointerArray Text) :
    (terminated l junk).fetch 0 = some l.head? := by
  cases l with
  | nil => rfl
  | cons x l => rfl

/-- **The options of a text**: its parts between the commas, without the names of flags. -/
theorem parseOptions_eq (options : Text) :
    parseOptions options =
      some (endpointOf ((options.splitOn ',').filter isPlain),
        optionsOf ((options.splitOn ',').filter isPlain), flagsOf (options.splitOn ',')) := by
  have hfill : fillOptions (options.length + 1) 0 options (unset (options.count ',' + 2)) =
      some (terminated (options.splitOn ',') []) :=
    @fillOptions_eq _ _ _ [] rfl (Nat.lt_succ_self _)
  obtain ⟨junk, hflags⟩ := flagLoop_terminated (options.splitOn ',')
    (terminated (options.splitOn ',') []).length 0 [] [] 0 rfl (by simp)
  have hzero : 0 ||| flagsOf (options.splitOn ',') = flagsOf (options.splitOn ',') :=
    BitVec.zero_or
  rw [nil_append, pointers, map_nil, nil_append] at hflags
  obtain ⟨junk', hend⟩ := takeEndpoint_terminated ((options.splitOn ',').filter isPlain) junk
  rw [parseOptions, hfill, bind_some, hflags, bind_some]
  show ((takeEndpoint _).bind _) = _
  rw [hend, bind_some]
  show (fetch _ 0).map _ = _
  rw [fetch_zero_terminated]
  simp [listed_terminated, optionsOf]

end OpenvasSmb.Dcerpc
