import OpenvasSmb.Kit.Lists
import OpenvasSmb.Wmi.Query

/-!
# What a query prints

The text of a query should be the rendering of all objects delivered: for each
maximal run of consecutive objects of one class name a header, then a line for
each object (`render`). The code starts the text afresh at each change of class,
so what it returns is the rendering of the last run only; the two agree exactly
when there is just one run (`wmi_query_renders_iff`).
-/

namespace OpenvasSmb.Wmi

open Wbem Kit List Option String

variable {O : Type}

/-! ## The rendering -/

def nameOf (o : ClassObject O) : Option String := o.objClass.bind fun cls => cls.className

/-- Two objects carry the same class name. -/
def sameClass (a b : ClassObject O) : Bool := (nameOf a).isSome && nameOf a == nameOf b

def objectLine (o : ClassObject O) : Option String := o.objClass.bind fun cls => rowLine cls o

/-- A run of objects of one class: the header, then the lines. -/
def renderRun : List (ClassObject O) → Option String
  | [] => some ""
  | o :: rest => do
      let cls ← o.objClass
      let lines ← (o :: rest).mapM objectLine
      some (headerLine cls ++ join lines)

def render (objects : List (ClassObject O)) : Option String :=
  ((objects.splitBy sameClass).mapM renderRun).map join

/-- The objects a query takes from `SmartNext`: a batch of other than `cnt`
objects is the last one. -/
def delivered : List (Batch O) → List (ClassObject O)
  | [] => []
  | batch :: rest =>
    if batch.objects.length = cnt then batch.objects ++ delivered rest else batch.objects

/-! ## The loops as one fold -/

theorem queryLoop_fold {errText : Werror → String} {res : Option String} :
    ∀ (batches : List (Batch O)) (st : Printer), queryLoop errText batches st = some (0, res) →
      ∃ st', (delivered batches).foldlM printObject st = some st' ∧ st'.res = res := by
  intro batches
  induction batches with
  | nil => intro st h; simp [queryLoop] at h
  | cons batch rest ih =>
    intro st h
    unfold queryLoop at h
    split at h
    · simp at h
    · split at h
      · -- the last call delivered nothing
        rename_i hlen
        simp only [some.injEq, Prod.mk.injEq, true_and] at h
        refine ⟨st, ?_, h⟩
        have hnil : batch.objects = [] := length_eq_zero_iff.mp hlen
        simp [delivered, hnil, cnt]
      · simp only [bind_eq_bind, bind_eq_some_iff] at h
        obtain ⟨st₁, hfold, h⟩ := h
        by_cases hcnt : batch.objects.length = cnt
        · simp only [hcnt, if_true] at h
          obtain ⟨st', hrest, hres⟩ := ih st₁ h
          refine ⟨st', ?_, hres⟩
          simp [delivered, hcnt, hfold, hrest]
        · simp only [hcnt, if_false, some.injEq, Prod.mk.injEq, true_and] at h
          refine ⟨st₁, ?_, h⟩
          simp [delivered, hcnt, hfold]

/-! ## One object, one run -/

theorem printObject_new {st st' : Printer} {o : ClassObject O}
    (hnew : st.className = none ∨ st.className ≠ nameOf o) (h : printObject st o = some st') :
    ∃ cls line, o.objClass = some cls ∧ objectLine o = some line ∧
      st' = ⟨nameOf o, some (headerLine cls ++ line)⟩ := by
  unfold printObject at h
  simp only [bind_eq_bind, bind_eq_some_iff] at h
  obtain ⟨cls, hcls, changes, hchanges, line, hline, h⟩ := h
  have hname : nameOf o = cls.className := by simp [nameOf, hcls]
  have htrue : changes = true := by
    unfold classChanges at hchanges
    cases hst : st.className with
    | none => simpa [hst] using hchanges.symm
    | some name =>
      rw [hst] at hchanges hnew
      simp only [map_eq_some_iff] at hchanges
      obtain ⟨c, hc, hne⟩ := hchanges
      rw [hname, hc] at hnew
      rcases hnew with hnew | hnew
      · simp at hnew
      · rw [← hne]
        simp only [ne_eq, some.injEq] at hnew
        simpa using fun heq => hnew heq.symm
  rw [htrue] at h
  simp only [if_true, some.injEq] at h
  refine ⟨cls, line, hcls, ?_, ?_⟩
  · simp [objectLine, hcls, hline]
  · rw [← h, hname]

theorem printObject_same {name text : String} {st' : Printer} {o : ClassObject O}
    (hsame : nameOf o = some name) (h : printObject ⟨some name, some text⟩ o = some st') :
    ∃ line, objectLine o = some line ∧ st' = ⟨some name, some (text ++ line)⟩ := by
  unfold printObject at h
  simp only [bind_eq_bind, bind_eq_some_iff] at h
  obtain ⟨cls, hcls, changes, hchanges, line, hline, h⟩ := h
  have hname : cls.className = some name := by simpa [nameOf, hcls] using hsame
  have hfalse : changes = false := by
    simpa [classChanges, hname] using hchanges.symm
  rw [hfalse] at h
  simp only [Bool.false_eq_true, if_false, getD_some, some.injEq] at h
  refine ⟨line, ?_, h.symm⟩
  simp [objectLine, hcls, hline]

theorem foldlM_same {name : String} : ∀ (objects : List (ClassObject O)) (text : String) (st' : Printer),
    (∀ o ∈ objects, nameOf o = some name) →
    objects.foldlM printObject ⟨some name, some text⟩ = some st' →
    ∃ lines, objects.mapM objectLine = some lines ∧
      st' = ⟨some name, some (text ++ join lines)⟩ := by
  intro objects
  induction objects with
  | nil =>
    intro text st' _ h
    refine ⟨[], by simp, ?_⟩
    simpa using h.symm
  | cons o rest ih =>
    intro text st' hall h
    simp only [foldlM_cons, bind_eq_bind, bind_eq_some_iff] at h
    obtain ⟨st₁, ho, h⟩ := h
    obtain ⟨line, hline, rfl⟩ := printObject_same (hall o (mem_cons_self ..)) ho
    obtain ⟨lines, hlines, rfl⟩ :=
      ih (text ++ line) st' (fun x hx => hall x (mem_cons_of_mem _ hx)) h
    refine ⟨line :: lines, by simp [hline, hlines], ?_⟩
    simp [String.append_assoc]

/-- The objects of a run after its first one carry its class name. -/
theorem nameOf_of_chain : ∀ (rest : List (ClassObject O)) (o : ClassObject O),
    (o :: rest).IsChain (fun a b => sameClass a b) →
    ∀ x ∈ rest, nameOf x = nameOf o ∧ (nameOf o).isSome := by
  intro rest
  induction rest with
  | nil => intro o _ x hx; simp at hx
  | cons b rest ih =>
    intro o hchain x hx
    rw [isChain_cons_cons] at hchain
    obtain ⟨hob, hrest⟩ := hchain
    simp only [sameClass, Bool.and_eq_true, beq_iff_eq] at hob
    rcases mem_cons.mp hx with rfl | hx
    · exact ⟨hob.2.symm, hob.1⟩
    · obtain ⟨hxb, -⟩ := ih b hrest x hx
      exact ⟨hxb.trans hob.2.symm, hob.1⟩

theorem foldlM_run {st st' : Printer} {o : ClassObject O} {rest : List (ClassObject O)}
    (hnew : st.className = none ∨ st.className ≠ nameOf o)
    (hchain : (o :: rest).IsChain (fun a b => sameClass a b))
    (h : (o :: rest).foldlM printObject st = some st') :
    ∃ text, renderRun (o :: rest) = some text ∧ st' = ⟨nameOf o, some text⟩ := by
  simp only [foldlM_cons, bind_eq_bind, bind_eq_some_iff] at h
  obtain ⟨st₁, ho, h⟩ := h
  obtain ⟨cls, line, hcls, hline, rfl⟩ := printObject_new hnew ho
  have hnames := nameOf_of_chain rest o hchain
  cases hname : nameOf o with
  | none =>
    -- without a name no second object belongs to the run
    have hnil : rest = [] := by
      cases rest with
      | nil => rfl
      | cons b rest => exact absurd (hnames b (mem_cons_self ..)).2 (by simp [hname])
    subst hnil
    refine ⟨headerLine cls ++ line, by simp [renderRun, hcls, hline], ?_⟩
    simpa [hname] using h.symm
  | some name =>
    rw [hname] at h
    obtain ⟨lines, hlines, rfl⟩ := foldlM_same rest _ st'
      (fun x hx => (hnames x hx).1.trans hname) h
    refine ⟨headerLine cls ++ join (line :: lines), ?_, ?_⟩
    · simp [renderRun, hcls, hline, hlines]
    · simp [String.append_assoc]

/-! ## All runs -/

/-- The names at the two sides of a break between runs make the printer start
afresh. -/
theorem new_of_break {a b : ClassObject O} (h : sameClass a b = false) :
    nameOf a = none ∨ nameOf a ≠ nameOf b := by
  cases ha : nameOf a with
  | none => exact Or.inl rfl
  | some name =>
    refine Or.inr fun heq => ?_
    simp [sameClass, ha, ← heq] at h

theorem foldlM_runs : ∀ (runs : List (List (ClassObject O))) (st st' : Printer),
    (∀ run ∈ runs, run ≠ []) →
    (∀ run ∈ runs, run.IsChain (fun a b => sameClass a b)) →
    (runs.IsChain fun a b => ∃ ha hb, sameClass (a.getLast ha) (b.head hb) = false) →
    (∀ o, runs.flatten.head? = some o → st.className = none ∨ st.className ≠ nameOf o) →
    runs.flatten.foldlM printObject st = some st' →
    ∃ texts, runs.mapM renderRun = some texts ∧ (runs ≠ [] → st'.res = texts.getLast?) := by
  intro runs
  induction runs with
  | nil => intro st st' _ _ _ _ _; exact ⟨[], by simp, fun h => absurd rfl h⟩
  | cons run runs ih =>
    intro st st' hne hchain hbreak hnew h
    rw [flatten_cons, foldlM_append] at h
    simp only [bind_eq_bind, bind_eq_some_iff] at h
    obtain ⟨st₁, hrun, hrest⟩ := h
    cases hrunEq : run with
    | nil => exact absurd hrunEq (hne run (mem_cons_self ..))
    | cons o rest =>
      subst hrunEq
      have hchain₁ := hchain _ (mem_cons_self ..)
      obtain ⟨text, htext, rfl⟩ := foldlM_run (hnew o (by simp)) hchain₁ hrun
      -- the printer now holds the name of the last object of this run
      have hlast : ∀ hlst, nameOf ((o :: rest).getLast hlst) = nameOf o := by
        intro hlst
        rcases mem_cons.mp (getLast_mem hlst) with heq | hmem
        · rw [heq]
        · exact (nameOf_of_chain rest o hchain₁ _ hmem).1
      have hnext : ∀ x, runs.flatten.head? = some x →
          nameOf o = none ∨ nameOf o ≠ nameOf x := by
        intro x hx
        cases runs with
        | nil => simp at hx
        | cons next more =>
          rw [isChain_cons_cons] at hbreak
          obtain ⟨⟨hlst, hhd, hdiff⟩, -⟩ := hbreak
          have hxhd : next.head hhd = x := by
            cases next with
            | nil => exact absurd rfl hhd
            | cons y ys => simpa using hx
          rw [hxhd] at hdiff
          have := new_of_break hdiff
          rwa [hlast hlst] at this
      obtain ⟨texts, htexts, hres⟩ := ih ⟨nameOf o, some text⟩ st'
        (fun r hr => hne r (mem_cons_of_mem _ hr))
        (fun r hr => hchain r (mem_cons_of_mem _ hr))
        (List.IsChain.tail hbreak) hnext hrest
      refine ⟨text :: texts, by simp [htext, htexts], fun _ => ?_⟩
      cases runs with
      | nil =>
        simp only [mapM_nil, Option.pure_def, Option.some.injEq] at htexts
        simp only [flatten_nil, foldlM_nil, Option.pure_def, Option.some.injEq] at hrest
        rw [← htexts, ← hrest]
        rfl
      | cons next more =>
        rw [hres (by simp)]
        cases texts with
        | nil => simp [Option.bind_eq_some_iff] at htexts
        | cons t ts => simp [getLast?_cons_cons]

/-! ## The law -/

theorem renderRun_length_pos {run : List (ClassObject O)} {text : String} (hne : run ≠ [])
    (h : renderRun run = some text) : 0 < text.length := by
  cases run with
  | nil => exact absurd rfl hne
  | cons o rest =>
    simp only [renderRun, bind_eq_bind, bind_eq_some_iff, some.injEq] at h
    obtain ⟨cls, -, lines, -, rfl⟩ := h
    have hnl : ("\n" : String).length = 1 := by decide
    simp only [headerLine, String.length_append, hnl]
    omega

/-- **A query renders its objects exactly when they are of one class.** When `wmi_query` or
`wmi_query_rsop` returns 0 after an object, `*res` is the rendering of all objects iff any two
consecutive ones carry the same class name. -/
theorem wmi_query_renders_iff
    {query : (Werror → String) → Bool → Werror → List (Batch O) → Option String →
      Option (Int × Option String)} (hquery : query = wmiQuery ∨ query = wmiQueryRsop)
    {errText : Werror → String} {hasCtx : Bool} {exec : Werror} {batches : List (Batch O)}
    {res₀ res : Option String} (h : query errText hasCtx exec batches res₀ = some (0, res))
    (hne : delivered batches ≠ []) :
    (res.isSome ∧ res = render (delivered batches)) ↔
      (delivered batches).IsChain (fun a b => sameClass a b) := by
  obtain rfl : query = runQuery := by rcases hquery with rfl | rfl <;> rfl
  have hloop : queryLoop errText batches ⟨none, res₀⟩ = some (0, res) := by
    unfold runQuery at h
    split at h
    · simp at h
    · split at h
      · simp at h
      · exact h
  obtain ⟨st', hfold, hres⟩ := queryLoop_fold batches _ hloop
  set objects := delivered batches with hobjects
  set runs := objects.splitBy sameClass with hruns
  have hflat : runs.flatten = objects := flatten_splitBy ..
  have hruns_ne : runs ≠ [] := splitBy_ne_nil.mpr hne
  rw [← hflat] at hfold
  obtain ⟨texts, htexts, hlast⟩ := foldlM_runs runs _ st'
    (fun _ hr => ne_nil_of_mem_splitBy hr)
    (fun _ hr => isChain_of_mem_splitBy hr)
    (isChain_getLast_head_splitBy _ _) (fun _ _ => Or.inl rfl) hfold
  obtain ⟨hlen, heach⟩ := forall₂_iff_get.mp (forall₂_of_mapM htexts)
  have hpos : ∀ t ∈ texts, 0 < t.length := by
    intro t ht
    obtain ⟨i, rfl⟩ := mem_iff_get.mp ht
    exact renderRun_length_pos (ne_nil_of_mem_splitBy (get_mem ..)) (heach i (by omega) i.isLt)
  have hrender : render objects = some (join texts) := by
    simp [render, ← hruns, htexts]
  have hresLast : res = texts.getLast? := hres ▸ hlast hruns_ne
  have hsome : res.isSome := by
    rw [hresLast, getLast?_isSome]
    rintro rfl
    exact hruns_ne (length_eq_zero_iff.mp hlen)
  rw [hrender, hresLast]
  constructor
  · rintro ⟨-, heq⟩
    -- a single run is the whole sequence
    have hone : runs.length = 1 := hlen.trans ((getLast_ne_join texts hpos).mp heq.symm)
    obtain ⟨run, hrun⟩ := length_eq_one_iff.mp hone
    have : run = objects := by
      rw [← hflat, hrun]
      simp
    rw [← this]
    exact isChain_of_mem_splitBy (l := objects) (r := sameClass) (by rw [← hruns, hrun]; simp)
  · intro hchain
    have hone : runs = [objects] := splitBy_of_isChain hne hchain
    refine ⟨hresLast ▸ hsome, ?_⟩
    exact ((getLast_ne_join texts hpos).mpr (by rw [← hlen, hone]; rfl)).symm

/-! ## A query over two classes -/

/-- An object of a class with one `uint32` property. -/
def sampleObject (name property : String) (v : Nat) : ClassObject Empty where
  flags := 6
  objClass := some
    { u0 := 0, className := some name, dataSize := 5, derivation := [], qualifiers := []
      properties := [⟨some property, some ⟨cimUint32, 0, 0, 0, []⟩⟩]
      defaultFlags := [0], defaultValues := [.num 0] }
  inst := some ⟨0, some name, [0], [.num v], 4, 1⟩

/-- One batch with an object of each of two classes. -/
def twoClasses : List (Batch Empty) :=
  [⟨.ok, [sampleObject "Win32_Process" "ProcessId" 4, sampleObject "Win32_Service" "ExitCode" 0]⟩]

/-- **Rows lost at a class change.** Both queries return 0 with the second
object's header and line only; the line of the first object is gone. -/
theorem wmi_query_loses_rows :
    wmiQuery (fun _ => "") true .ok twoClasses none = some (0, some "ExitCode\n0\n") ∧
    wmiQueryRsop (fun _ => "") true .ok twoClasses none = some (0, some "ExitCode\n0\n") ∧
    render (delivered twoClasses) = some "ProcessId\n4\nExitCode\n0\n" := by
  decide

/-- Two objects of one class come out in full. -/
theorem wmi_query_renders_one_class :
    (some "ProcessId\n4\n8\n").isSome ∧ some "ProcessId\n4\n8\n" =
      render (delivered [⟨.ok, [sampleObject "Win32_Process" "ProcessId" 4,
        sampleObject "Win32_Process" "ProcessId" 8]⟩]) :=
  (wmi_query_renders_iff (Or.inl rfl)
    (show wmiQuery (fun _ => "") true .ok [⟨.ok, [sampleObject "Win32_Process" "ProcessId" 4,
        sampleObject "Win32_Process" "ProcessId" 8]⟩] none =
      some (0, some "ProcessId\n4\n8\n") by decide)
    (by decide)).mpr (by decide)

end OpenvasSmb.Wmi
