import Mathlib.Data.List.Nodup
import Mathlib.Logic.Function.Basic

/-!
# Doubly linked lists through shared cells

Several lists thread through the same cells: a cell has one pair of pointers, so it is in one list
at a time, and an operation that is told the wrong list head works on it all the same. The
operations (`Linked.add`, `Linked.addEnd`, `Linked.remove`) are the usual list macros, store by
store. A store through a pointer to no cell is a fault (`none`).

`Threads s f` says that the pointers of `s` are those of the lists `f`. A list is a chain of
`Segment`s, which come apart and join at any cell (`segment_append`) and survive stores at their
ends (`Segment.set_next`, `Segment.set_prev`); one theorem about `Threads` specifies each
operation.
-/

namespace OpenvasSmb.Kit

open List Option Function

/-- The pointers inside a cell. -/
structure Links (α : Type) where
  prev : Option α
  next : Option α

/-- Cells (`none`: not allocated, or freed) and the head pointers of the lists. -/
structure Linked (ι α : Type) where
  cells : α → Option (Links α)
  head : ι → Option α

variable {ι α : Type} {c : Links α} {l xs ys : List α} {fuel : Nat} {next prev : Option α} {a p : α}
  {cells : α → Option (Links α)} {i : ι}

namespace Linked

/-! ## Segments -/

/-- The cells of a list are linked to each other, the first one back to `prev` and the
last one on to `next`. -/
def Segment (cells : α → Option (Links α)) : Option α → List α → Option α → Prop
  | _, [], _ => True
  | prev, a :: l, next => cells a = some ⟨prev, l.head?.or next⟩ ∧ Segment cells (some a) l next

theorem segment_congr {cells' : α → Option (Links α)} (h : ∀ a ∈ l, cells' a = cells a) :
    Segment cells prev l next → Segment cells' prev l next := by
  induction l generalizing prev with
  | nil => exact fun _ => trivial
  | cons a l ih =>
    rintro ⟨ha, hl⟩
    refine ⟨(h a (by simp)).trans ha, ih ?_ hl⟩
    exact fun b hb => h b (mem_cons_of_mem a hb)

theorem segment_append :
    Segment cells prev (xs ++ ys) next ↔
      Segment cells prev xs (ys.head?.or next) ∧
        Segment cells (xs.getLast?.or prev) ys next := by
  induction xs generalizing prev with
  | nil => simp [Segment]
  | cons a xs ih =>
    have hhead : (xs ++ ys).head?.or next = xs.head?.or (ys.head?.or next) := by
      rw [head?_append, Option.or_assoc]
    have hlast : (a :: xs).getLast?.or prev = xs.getLast?.or (some a) := by
      rw [getLast?_cons]
      cases xs.getLast? <;> rfl
    rw [cons_append, Segment, Segment, ih, hhead, hlast, and_assoc]

/-- The cell at a split of a list. -/
theorem Segment.at_cell (h : Segment cells none (xs ++ p :: ys) none) :
    cells p = some ⟨xs.getLast?, ys.head?⟩ := by
  have hp := (segment_append.mp h).2.1
  simpa using hp

theorem Segment.isSome (h : Segment cells prev l next) (ha : a ∈ l) : ∃ c, cells a = some c := by
  induction l generalizing prev with
  | nil => simp at ha
  | cons b l ih =>
    rcases mem_cons.mp ha with rfl | ha
    · exact ⟨_, h.1⟩
    · exact ih h.2 ha

/-! ## Walks -/

/-- The cells from a pointer on. A walk that is not over after `fuel` cells is in a
cycle. -/
def walk (cells : α → Option (Links α)) : Nat → Option α → Option (List α)
  | _, none => some []
  | 0, some _ => none
  | fuel + 1, some p => do
      let c ← cells p
      let l ← walk cells fuel c.next
      return p :: l

/-- The first cell from a pointer on at which a test succeeds. -/
def search (cells : α → Option (Links α)) (stop : α → Bool) : Nat → Option α → Option (Option α)
  | _, none => some none
  | 0, some _ => none
  | fuel + 1, some p =>
    match cells p with
    | none => none
    | some c => if stop p then some (some p) else search cells stop fuel c.next

theorem walk_segment (h : Segment cells prev l none) (hfuel : l.length ≤ fuel) :
    walk cells fuel l.head? = some l := by
  induction l generalizing prev fuel with
  | nil => simp [walk]
  | cons a l ih =>
    cases fuel with
    | zero => simp at hfuel
    | succ fuel =>
      obtain ⟨ha, hl⟩ := h
      have hrest := ih hl (by simpa using hfuel)
      simp [walk, ha, hrest]

/-- A walk that ends has seen the list. -/
theorem eq_of_walk (h : Segment cells prev l none) (hwalk : walk cells fuel l.head? = some xs) :
    l = xs := by
  induction l generalizing prev fuel xs with
  | nil => simpa [walk] using hwalk
  | cons a l ih =>
    cases fuel with
    | zero => simp [walk] at hwalk
    | succ fuel =>
      obtain ⟨ha, hl⟩ := h
      simp only [head?_cons, walk, ha, bind_eq_bind, bind_some, or_none, bind_eq_some_iff] at hwalk
      obtain ⟨ys, hys, hxs⟩ := hwalk
      rw [ih hl hys]
      exact some.inj hxs

theorem search_segment {stop : α → Bool} (h : Segment cells prev l none) (hfuel : l.length ≤ fuel) :
    search cells stop fuel l.head? = some (l.find? stop) := by
  induction l generalizing prev fuel with
  | nil => simp [search]
  | cons a l ih =>
    cases fuel with
    | zero => simp at hfuel
    | succ fuel =>
      obtain ⟨ha, hl⟩ := h
      have hrest := ih hl (by simpa using hfuel)
      rw [head?_cons, search, ha, find?_cons]
      cases stop a with
      | true => rfl
      | false => simpa using hrest

variable [DecidableEq ι] [DecidableEq α]

/-! ## Pointer operations -/

/-- Change the cell at `p`, if there is a pointer at all. -/
def adjust (cells : α → Option (Links α)) (p : Option α) (g : Links α → Links α) :
    α → Option (Links α) :=
  fun q => if p = some q then (cells q).map g else cells q

def store (p : α) (g : Links α → Links α) (s : Linked ι α) : Option (Linked ι α) :=
  match s.cells p with
  | none => none
  | some _ => some { s with cells := adjust s.cells (some p) g }

/-- A store through a pointer that may be null, in which case it is skipped. -/
def storeAt (p : Option α) (g : Links α → Links α) (s : Linked ι α) : Option (Linked ι α) :=
  match p with
  | none => some s
  | some p => s.store p g

def setHead (i : ι) (p : Option α) (s : Linked ι α) : Linked ι α :=
  { s with head := update s.head i p }

def alloc (p : α) (s : Linked ι α) : Linked ι α :=
  { s with cells := update s.cells p (some ⟨none, none⟩) }

/-- Give a cell back. -/
def free (p : α) (s : Linked ι α) : Option (Linked ι α) :=
  match s.cells p with
  | none => none
  | some _ => some { s with cells := update s.cells p none }

/-- Hook a cell into the front of a list. -/
def add (i : ι) (p : α) (s : Linked ι α) : Option (Linked ι α) :=
  match s.head i with
  | none => (s.setHead i (some p)).store p fun _ => ⟨none, none⟩
  | some h => do
      let s ← s.store h fun c => { c with prev := some p }
      let s ← s.store p fun c => { c with next := some h }
      let s ← s.store p fun c => { c with prev := none }
      return s.setHead i (some p)

/-- Remove a cell from a list. If it is not the head, it is unlinked from its neighbours, whatever
list they are in. -/
def remove (i : ι) (p : α) (s : Linked ι α) : Option (Linked ι α) := do
  let c ← s.cells p
  let s ←
    if s.head i = some p then
      (s.setHead i c.next).storeAt c.next fun n => { n with prev := none }
    else do
      let s ← s.storeAt c.prev fun n => { n with next := c.next }
      s.storeAt c.next fun n => { n with prev := c.prev }
  if s.head i = some p then return s else s.store p fun _ => ⟨none, none⟩

/-- Hook a cell into the end of a list, which is found by walking there. -/
def addEnd (fuel : Nat) (i : ι) (p : α) (s : Linked ι α) : Option (Linked ι α) :=
  match s.head i with
  | none => (s.setHead i (some p)).store p fun _ => ⟨none, none⟩
  | some h => do
      let l ← walk s.cells fuel (some h)
      let last ← l.getLast?
      let s ← s.store last fun c => { c with next := some p }
      let s ← s.store p fun c => { c with next := none }
      s.store p fun c => { c with prev := some last }

/-! ## Stores at the ends of a segment -/

@[simp] theorem adjust_none (cells : α → Option (Links α)) (g : Links α → Links α) :
    adjust cells none g = cells := by
  funext q
  simp [adjust]

@[simp] theorem adjust_self (cells : α → Option (Links α)) (p : α) (g : Links α → Links α) :
    adjust cells (some p) g p = (cells p).map g := by
  simp [adjust]

theorem adjust_of_ne {p : Option α} {q : α} (h : p ≠ some q) (g : Links α → Links α) :
    adjust cells p g q = cells q :=
  if_neg h

@[simp] theorem isSome_adjust (cells : α → Option (Links α)) (p : Option α)
    (g : Links α → Links α) (q : α) : (adjust cells p g q).isSome = (cells q).isSome := by
  unfold adjust
  split_ifs <;> simp

theorem Segment.adjust {p : Option α} (h : Segment cells prev l next) (hp : ∀ a ∈ l, p ≠ some a)
    (g : Links α → Links α) : Segment (adjust cells p g) prev l next :=
  segment_congr (fun a ha => adjust_of_ne (hp a ha) g) h

theorem Segment.set_next (h : Segment cells prev l next) (hnodup : l.Nodup) (next' : Option α) :
    Segment (Linked.adjust cells l.getLast? fun c => { c with next := next' }) prev l next' := by
  induction l generalizing prev with
  | nil => trivial
  | cons a l ih =>
    obtain ⟨ha, hl⟩ := h
    obtain ⟨hfresh, hnodup⟩ := nodup_cons.mp hnodup
    cases l with
    | nil => exact ⟨by simp [ha], trivial⟩
    | cons b l =>
      -- the last cell is not the first one
      have hlast : (a :: b :: l).getLast? = (b :: l).getLast? := by simp [getLast?_cons]
      refine ⟨?_, ih hl hnodup⟩
      rw [adjust_of_ne]
      · simpa using ha
      · exact fun h => hfresh (mem_of_getLast? h)

theorem Segment.set_prev (h : Segment cells prev l next) (hnodup : l.Nodup) (prev' : Option α) :
    Segment (Linked.adjust cells l.head? fun c => { c with prev := prev' }) prev' l next := by
  cases l with
  | nil => trivial
  | cons a l =>
    obtain ⟨ha, hl⟩ := h
    obtain ⟨hfresh, -⟩ := nodup_cons.mp hnodup
    refine ⟨by simp [ha], hl.adjust ?_ _⟩
    rintro b hb heq
    obtain rfl := some.inj heq
    exact hfresh hb

/-! ## Lists and their pointers -/

/-- The pointers are those of the lists `f`, which have no cell in common; other cells have none. -/
structure Threads (s : Linked ι α) (f : ι → List α) : Prop where
  head : ∀ i, s.head i = (f i).head?
  segment : ∀ i, Segment s.cells none (f i) none
  nodup : ∀ i, (f i).Nodup
  disjoint : ∀ i j a, a ∈ f i → a ∈ f j → i = j
  loose : ∀ a c, s.cells a = some c → (∀ i, a ∉ f i) → c = ⟨none, none⟩

variable {s : Linked ι α} {f : ι → List α}

omit [DecidableEq ι] [DecidableEq α] in
theorem Threads.isSome (h : Threads s f) (ha : a ∈ f i) : ∃ c, s.cells a = some c :=
  (h.segment i).isSome ha

omit [DecidableEq ι] [DecidableEq α] in
theorem Threads.split (h : Threads s f) (hp : p ∈ f i) :
    ∃ xs ys, f i = xs ++ p :: ys ∧ s.cells p = some ⟨xs.getLast?, ys.head?⟩ := by
  obtain ⟨xs, ys, hsplit⟩ := append_of_mem hp
  have hseg := h.segment i
  rw [hsplit] at hseg
  exact ⟨xs, ys, hsplit, hseg.at_cell⟩

omit [DecidableEq α] in
/-- One list is replaced by one with the same cells apart from `p`. The cells outside are as before.
-/
theorem Threads.update (h : Threads s f) (i : ι) (p : α) (hsegment : Segment cells none l none)
    (hnodup : l.Nodup) (hkept : ∀ a, a ≠ p → a ∉ f i → cells a = s.cells a)
    (hp : ∀ j, j ≠ i → p ∉ f j) (hmem : ∀ a, a ≠ p → (a ∈ l ↔ a ∈ f i))
    (hloose : p ∉ l → ∀ c, cells p = some c → c = ⟨none, none⟩) :
    Threads ⟨cells, update s.head i l.head?⟩ (update f i l) := by
  have hdisjoint : ∀ j, j ≠ i → ∀ a ∈ l, a ∉ f j := by
    intro j hj a ha haj
    by_cases hap : a = p
    · exact hp j hj (hap ▸ haj)
    · exact hj (h.disjoint j i a haj ((hmem a hap).mp ha))
  refine ⟨fun j => ?_, fun j => ?_, fun j => ?_, ?_, ?_⟩
  · by_cases hj : j = i
    · subst hj
      simp
    · simp [hj, h.head j]
  · by_cases hj : j = i
    · subst hj
      simpa using hsegment
    · have hsame : ∀ a ∈ f j, cells a = s.cells a := fun a ha =>
        hkept a (fun hap => hp j hj (hap ▸ ha)) fun hi => hj (h.disjoint j i a ha hi)
      simpa [hj] using segment_congr hsame (h.segment j)
  · by_cases hj : j = i
    · subst hj
      simpa using hnodup
    · simpa [hj] using h.nodup j
  · intro j k a hj hk
    by_cases hji : j = i <;> by_cases hki : k = i
    · rw [hji, hki]
    · subst hji
      exact absurd (by simpa [hki] using hk) (hdisjoint k hki a (by simpa using hj))
    · subst hki
      exact absurd (by simpa [hji] using hj) (hdisjoint j hji a (by simpa using hk))
    · exact h.disjoint j k a (by simpa [hji] using hj) (by simpa [hki] using hk)
  · intro a c ha hout
    have hl : a ∉ l := by simpa using hout i
    by_cases hap : a = p
    · exact hloose (hap ▸ hl) c (hap ▸ ha)
    · have hi : a ∉ f i := fun hi => hl ((hmem a hap).mpr hi)
      refine h.loose a c (hkept a hap hi ▸ ha) fun j => ?_
      by_cases hj : j = i
      · exact hj ▸ hi
      · simpa [hj] using hout j

theorem adjust_adjust (cells : α → Option (Links α)) (p : Option α) (g g' : Links α → Links α) :
    adjust (adjust cells p g) p g' = adjust cells p fun c => g' (g c) := by
  funext q
  unfold adjust
  split_ifs
  · rw [Option.map_map]
    rfl
  · rfl

omit [DecidableEq ι] in
theorem store_eq (hp : s.cells p = some c) (g : Links α → Links α) :
    s.store p g = some { s with cells := adjust s.cells (some p) g } := by
  simp [store, hp]

omit [DecidableEq ι] in
theorem storeAt_eq {p : Option α} (hp : ∀ a, p = some a → ∃ c, s.cells a = some c)
    (g : Links α → Links α) : s.storeAt p g = some { s with cells := adjust s.cells p g } := by
  cases p with
  | none => simp [storeAt]
  | some a =>
    obtain ⟨c, hc⟩ := hp a rfl
    exact store_eq hc g

/-! ## The operations keep the lists -/

omit [DecidableEq ι] in
/-- A cell in no list is given back, or its pointers are null. -/
theorem Threads.set (h : Threads s f) (hout : ∀ i, p ∉ f i) {o : Option (Links α)}
    (ho : ∀ c, o = some c → c = ⟨none, none⟩) :
    Threads { s with cells := Function.update s.cells p o } f := by
  refine ⟨h.head, fun i => ?_, h.nodup, h.disjoint, ?_⟩
  · refine segment_congr (fun a ha => update_of_ne ?_ ..) (h.segment i)
    rintro rfl
    exact hout i ha
  · intro a c hc hfree
    by_cases ha : a = p
    · subst ha
      exact ho c (by simpa using hc)
    · exact h.loose a c (by simpa [ha] using hc) hfree

omit [DecidableEq ι] in
theorem Threads.alloc (h : Threads s f) (hp : s.cells p = none) : Threads (s.alloc p) f := by
  refine h.set ?_ fun c hc => (some.inj hc).symm
  intro i hmem
  obtain ⟨c, hc⟩ := h.isSome hmem
  simp [hp] at hc

omit [DecidableEq ι] in
theorem Threads.free (h : Threads s f) (hp : s.cells p = some c) (hout : ∀ i, p ∉ f i) :
    ∃ s', s.free p = some s' ∧ Threads s' f ∧
      s'.cells p = none ∧ ∀ q, q ≠ p → s'.cells q = s.cells q :=
  ⟨_, by simp [Linked.free, hp]; rfl, h.set hout (by simp), by simp, fun q hq => by simp [hq]⟩

/-- **Adding at the front.** -/
theorem Threads.add (h : Threads s f) (i : ι) (hp : s.cells p = some c) (hout : ∀ j, p ∉ f j) :
    ∃ s', s.add i p = some s' ∧ Threads s' (Function.update f i (p :: f i)) ∧
      ∀ q, (s'.cells q).isSome = (s.cells q).isSome := by
  have hhead : ∀ a, (f i).head? = some a → a ∈ f i := fun a ha => mem_of_mem_head? ha
  have hp' : (adjust s.cells (f i).head? fun n => { n with prev := some p }) p = some c := by
    rw [adjust_of_ne fun heq => hout i (hhead p heq), hp]
  have hadd : s.add i p = some
      ⟨adjust (adjust s.cells (f i).head? fun n => { n with prev := some p }) (some p)
        (fun _ => ⟨none, (f i).head?⟩), Function.update s.head i (p :: f i).head?⟩ := by
    unfold Linked.add
    rw [h.head i]
    cases hl : (f i).head? with
    | none => simp [setHead, store, hp]
    | some a =>
      obtain ⟨d, hd⟩ := h.isSome (hhead a hl)
      rw [hl] at hp'
      simp [store, hd, hp', setHead, adjust_adjust]
  refine ⟨_, hadd, ?_, fun q => by simp⟩
  refine h.update i p ?_ (nodup_cons.mpr ⟨hout i, h.nodup i⟩) ?_ (fun j _ => hout j)
    (fun a ha => by simp [ha]) (by simp)
  · refine ⟨by simp [hp'], ((h.segment i).set_prev (h.nodup i) (some p)).adjust ?_ _⟩
    rintro a ha heq
    obtain rfl := some.inj heq
    exact hout i ha
  · intro a ha hl
    rw [adjust_of_ne (by simpa using Ne.symm ha), adjust_of_ne fun heq => hl (hhead a heq)]

/-- **Adding at the end.** -/
theorem Threads.addEnd (h : Threads s f) (i : ι) (hp : s.cells p = some c) (hout : ∀ j, p ∉ f j)
    (hfuel : (f i).length ≤ fuel) :
    ∃ s', s.addEnd fuel i p = some s' ∧ Threads s' (Function.update f i (f i ++ [p])) ∧
      ∀ q, (s'.cells q).isSome = (s.cells q).isSome := by
  have hlast : ∀ a, (f i).getLast? = some a → a ∈ f i := fun a ha => mem_of_getLast? ha
  have hp' : (adjust s.cells (f i).getLast? fun n => { n with next := some p }) p = some c := by
    rw [adjust_of_ne fun heq => hout i (hlast p heq), hp]
  have hadd : s.addEnd fuel i p = some
      ⟨adjust (adjust s.cells (f i).getLast? fun n => { n with next := some p }) (some p)
        (fun _ => ⟨(f i).getLast?, none⟩), Function.update s.head i (f i ++ [p]).head?⟩ := by
    have hwalk := walk_segment (h.segment i) hfuel
    unfold Linked.addEnd
    rw [h.head i]
    cases hl : f i with
    | nil => simp [setHead, store, hp]
    | cons b l =>
      obtain ⟨a, ha⟩ : ∃ a, (b :: l).getLast? = some a := ⟨_, getLast?_cons⟩
      obtain ⟨d, hd⟩ := h.isSome (hlast a (hl ▸ ha))
      rw [hl] at hwalk hp'
      rw [ha] at hp'
      have hhead : Function.update s.head i (some b) = s.head := by
        rw [update_eq_self_iff, h.head i, hl, head?_cons]
      rw [head?_cons] at hwalk ⊢
      simp [hwalk, ha, store, hd, hp', adjust_adjust, hhead]
  refine ⟨_, hadd, ?_, fun q => by simp⟩
  refine h.update i p ?_ ?_ ?_ (fun j _ => hout j) (fun a ha => by simp [ha]) (by simp)
  · refine segment_append.mpr ⟨((h.segment i).set_next (h.nodup i) (some p)).adjust ?_ _,
      by simp [hp'], trivial⟩
    rintro a ha heq
    obtain rfl := some.inj heq
    exact hout i ha
  · refine nodup_append.mpr ⟨h.nodup i, by simp, ?_⟩
    rintro a ha b hb rfl
    exact hout i (mem_singleton.mp hb ▸ ha)
  · intro a ha hl
    rw [adjust_of_ne (by simpa using Ne.symm ha), adjust_of_ne fun heq => hl (hlast a heq)]

/-- The pointers after a cell has been taken out between `xs` and `ys`. -/
def unlinked (cells : α → Option (Links α)) (xs : List α) (p : α) (ys : List α) :
    α → Option (Links α) :=
  adjust (adjust (adjust cells xs.getLast? fun n => { n with next := ys.head? }) ys.head?
    fun n => { n with prev := xs.getLast? }) (some p) fun _ => ⟨none, none⟩

/-- The neighbours of a cell that is in a list, unless the list is named by another
head and the cell is its first one. -/
theorem Threads.remove_eq (h : Threads s f) {j : ι} (hsplit : f j = xs ++ p :: ys)
    (hhead : j = i ∨ s.head j ≠ some p) :
    s.remove i p =
      some ⟨unlinked s.cells xs p ys, Function.update s.head j (xs ++ ys).head?⟩ := by
  have hseg := h.segment j
  have hnodup := h.nodup j
  rw [hsplit] at hseg hnodup
  have hp := hseg.at_cell
  obtain ⟨-, hnodup, hapart⟩ := nodup_append.mp hnodup
  have hys : p ∉ ys := (nodup_cons.mp hnodup).1
  have hmem : ∀ a ∈ f j, ∃ c, s.cells a = some c := fun a ha => h.isSome ha
  rw [hsplit] at hmem
  have hprev : ∀ a, xs.getLast? = some a → a ≠ p ∧ a ∉ ys ∧ ∃ c, s.cells a = some c := by
    intro a ha
    have hxs := mem_of_getLast? ha
    refine ⟨hapart a hxs p (by simp), ?_, hmem a (by simp [hxs])⟩
    exact fun hmem => hapart a hxs a (by simp [hmem]) rfl
  have hnext : ∀ a, ys.head? = some a → a ≠ p ∧ ∃ c, s.cells a = some c := by
    intro a ha
    have hys' := mem_of_mem_head? ha
    exact ⟨fun heq => hys (heq ▸ hys'), hmem a (by simp [hys'])⟩
  unfold Linked.remove
  rw [hp]
  by_cases hfirst : s.head i = some p
  · -- the cell is the head of the list it is removed from, so nothing precedes it
    have hji : j = i := by
      refine h.disjoint j i p (by simp [hsplit]) ?_
      rw [h.head i] at hfirst
      exact mem_of_mem_head? hfirst
    subst hji
    have hxs : xs = [] := by
      cases xs with
      | nil => rfl
      | cons b l =>
        rw [h.head j, hsplit] at hfirst
        exact absurd (some.inj hfirst) (hapart b (by simp) p (by simp))
    subst hxs
    have hstore := storeAt_eq (s := s.setHead j ys.head?) (p := ys.head?)
      (fun a ha => (hnext a ha).2) fun n => { n with prev := none }
    have hcell : adjust s.cells ys.head? (fun n => { n with prev := none }) p =
        some ⟨none, ys.head?⟩ := by
      rw [adjust_of_ne (fun heq => (hnext p heq).1 rfl), hp]
      rfl
    have hne : ys.head? ≠ some p := fun heq => (hnext p heq).1 rfl
    simp only [getLast?_nil, bind_eq_bind, bind_some, hfirst, if_true, hstore]
    simp [setHead, hne, store, hcell, unlinked]
  · have hxs : xs ≠ [] := by
      rintro rfl
      rcases hhead with rfl | hother
      · exact hfirst (by rw [h.head j, hsplit]; rfl)
      · exact hother (by rw [h.head j, hsplit]; rfl)
    have hkept : Function.update s.head j (xs ++ ys).head? = s.head := by
      rw [update_eq_self_iff, h.head j, hsplit]
      cases xs with
      | nil => exact absurd rfl hxs
      | cons b l => rfl
    have hstore := storeAt_eq (s := s) (fun a ha => (hprev a ha).2.2)
      fun n => { n with next := ys.head? }
    have hstore' := storeAt_eq
      (s := { s with cells := adjust s.cells xs.getLast? fun n => { n with next := ys.head? } })
      (p := ys.head?) (fun a ha => by
        obtain ⟨c, hc⟩ := (hnext a ha).2
        exact isSome_iff_exists.mp (by simp [hc]))
      fun n => { n with prev := xs.getLast? }
    have hcell : adjust (adjust s.cells xs.getLast? fun n => { n with next := ys.head? }) ys.head?
        (fun n => { n with prev := xs.getLast? }) p = some ⟨xs.getLast?, ys.head?⟩ := by
      rw [adjust_of_ne (fun heq => (hnext p heq).1 rfl),
        adjust_of_ne (fun heq => (hprev p heq).1 rfl), hp]
    simp only [bind_eq_bind, bind_some, hfirst, if_false, hstore, hstore', hkept]
    simp [store, hcell, unlinked]

theorem unlinked_of_notMem (ha : a ≠ p) (hxs : a ∉ xs) (hys : a ∉ ys) :
    unlinked cells xs p ys a = cells a := by
  unfold unlinked
  rw [adjust_of_ne (by simpa using Ne.symm ha),
    adjust_of_ne (fun heq => hys (mem_of_mem_head? heq)),
    adjust_of_ne (fun heq => hxs (mem_of_getLast? heq))]

/-- What was before the cell and what was after it are joined. -/
theorem Segment.unlinked (h : Segment cells none (xs ++ p :: ys) none)
    (hnodup : (xs ++ p :: ys).Nodup) : Segment (unlinked cells xs p ys) none (xs ++ ys) none := by
  obtain ⟨hxs, -, hys⟩ := segment_append.mp h
  obtain ⟨hnxs, hnys, hapart⟩ := nodup_append.mp hnodup
  obtain ⟨hpys, hnys⟩ := nodup_cons.mp hnys
  have hlast : ∀ a ∈ ys, xs.getLast? ≠ some a := fun a ha heq =>
    hapart a (mem_of_getLast? heq) a (by simp [ha]) rfl
  have hfirst : ∀ a ∈ xs, ys.head? ≠ some a := fun a ha heq =>
    hapart a ha a (by simp [mem_of_mem_head? heq]) rfl
  have hxs' := ((hxs.set_next hnxs ys.head?).adjust hfirst fun n =>
    { n with prev := xs.getLast? }).adjust (p := some p)
      (fun a ha heq => hapart a ha p (by simp) (some.inj heq).symm) fun _ => ⟨none, none⟩
  have hys' := ((hys.adjust hlast fun n => { n with next := ys.head? }).set_prev hnys
    xs.getLast?).adjust (p := some p)
      (fun a ha heq => hpys (some.inj heq ▸ ha)) fun _ => ⟨none, none⟩
  refine segment_append.mpr ⟨?_, ?_⟩
  · simpa [Linked.unlinked] using hxs'
  · simpa [Linked.unlinked] using hys'

/-- **Removing.** A cell is removed from the list it is in, by whatever head, unless it is the first
cell of another list. -/
theorem Threads.remove (h : Threads s f) (i : ι) (hp : s.cells p = some c)
    (hhead : ∀ j, j ≠ i → s.head j ≠ some p) :
    ∃ s', s.remove i p = some s' ∧ Threads s' (fun j => (f j).erase p) ∧
      ∀ q, (s'.cells q).isSome = (s.cells q).isSome := by
  by_cases hmem : ∃ j, p ∈ f j
  · obtain ⟨j, hj⟩ := hmem
    obtain ⟨xs, ys, hsplit, -⟩ := h.split hj
    have hremove := h.remove_eq (i := i) hsplit ((em (j = i)).imp id (hhead j))
    have hnodup := h.nodup j
    rw [hsplit] at hnodup
    obtain ⟨hnxs, hnys, hapart⟩ := nodup_append.mp hnodup
    obtain ⟨hpys, hnys⟩ := nodup_cons.mp hnys
    have hpxs : p ∉ xs := fun hmem => hapart p hmem p (by simp) rfl
    have herase : (fun k => (f k).erase p) = Function.update f j (xs ++ ys) := by
      funext k
      by_cases hk : k = j
      · subst hk
        rw [update_self, hsplit, erase_append_right _ hpxs, erase_cons_head]
      · rw [update_of_ne hk]
        exact erase_of_not_mem fun hmem => hk (h.disjoint k j p hmem hj)
    refine ⟨_, hremove, ?_, fun q => by simp [unlinked]⟩
    rw [herase]
    have hseg := h.segment j
    rw [hsplit] at hseg
    refine h.update j p (hseg.unlinked hnodup) ?_ ?_
      (fun k hk hmem => hk (h.disjoint k j p hmem hj)) (fun a ha => by simp [hsplit, ha]) ?_
    · refine nodup_append.mpr ⟨hnxs, hnys, ?_⟩
      exact fun a ha b hb => hapart a ha b (mem_cons_of_mem p hb)
    · intro a ha hl
      rw [hsplit, mem_append, not_or] at hl
      exact unlinked_of_notMem ha hl.1 fun hmem => hl.2 (mem_cons_of_mem p hmem)
    · intro _ d hd
      rw [unlinked, adjust_self, map_eq_some_iff] at hd
      obtain ⟨-, -, rfl⟩ := hd
      rfl
  · -- a cell in no list has null pointers, and nothing changes
    have hout : ∀ j, p ∉ f j := fun j hj => hmem ⟨j, hj⟩
    obtain rfl := h.loose p c hp hout
    have hne : s.head i ≠ some p := by
      rw [h.head i]
      exact fun heq => hout i (mem_of_mem_head? heq)
    have hsame : adjust s.cells (some p) (fun _ => ⟨none, none⟩) = s.cells := by
      funext q
      by_cases hq : q = p
      · subst hq
        rw [adjust_self, hp]
        rfl
      · exact adjust_of_ne (by simpa using Ne.symm hq) _
    have herase : (fun k => (f k).erase p) = f := by
      funext k
      exact erase_of_not_mem (hout k)
    refine ⟨s, ?_, ?_, fun _ => rfl⟩
    · simp [Linked.remove, hp, hne, storeAt, store, hsame]
    · rwa [herase]

theorem remove_head {j : ι} {s' : Linked ι α} (h : s.remove i p = some s') (hj : j ≠ i) :
    s'.head j = s.head j := by
  have hstoreAt : ∀ {t t' : Linked ι α} {q : Option α} {g : Links α → Links α},
      t.storeAt q g = some t' → t'.head = t.head := by
    intro t t' q g ht
    unfold storeAt store at ht
    split at ht
    · rw [← some.inj ht]
    · split at ht
      · simp at ht
      · rw [← some.inj ht]
  have hclear : ∀ {t : Linked ι α},
      (if t.head i = some p then some t else t.store p fun _ => ⟨none, none⟩) = some s' →
        s'.head = t.head := by
    intro t ht
    split_ifs at ht
    · rw [← some.inj ht]
    · exact hstoreAt (q := some p) ht
  unfold Linked.remove at h
  simp only [bind_eq_bind, bind_eq_some_iff] at h
  obtain ⟨c, -, h⟩ := h
  split_ifs at h
  · obtain ⟨t, ht, hlast⟩ := bind_eq_some_iff.mp h
    rw [hclear hlast, hstoreAt ht]
    simp [setHead, hj]
  · obtain ⟨t, ht, h⟩ := bind_eq_some_iff.mp h
    obtain ⟨u, hu, hlast⟩ := bind_eq_some_iff.mp h
    rw [hclear hlast, hstoreAt hu, hstoreAt ht]

end Linked

end OpenvasSmb.Kit
