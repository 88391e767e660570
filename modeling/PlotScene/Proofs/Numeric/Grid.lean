import Mathlib.Algebra.BigOperators.Group.List.Basic
import Mathlib.Data.List.Flatten
import PlotScene.Numeric.Grid
import PlotScene.Proofs.Outcome
import PlotScene.Proofs.Value.Lookup

/-!
# The shape of an array and its cells

Nested lists of scalars are read as an array that has exactly the cells its shape asks for.  Cutting
such an array into rows loses no cell, and turning it rearranges them.
-/

namespace PlotScene

/-! ## 1. Sized and rectangular values -/

/-- A value whose arrays have the cells that their shape asks for. -/
inductive Value.Sized : Value → Prop where
  | scalar (s : Scalar) : Sized (.scalar s)
  | list {vs : List Value} : (∀ v ∈ vs, Sized v) → Sized (.list vs)
  | column {vs : List Value} : (∀ v ∈ vs, Sized v) → Sized (.column vs)
  | map {es : Entries} : (∀ e ∈ es, Sized e.2) → Sized (.map es)
  | array {shape : List Nat} {cells : List Float} : cells.length = shape.prod →
      Sized (.array shape cells)

/-- A value whose arrays are as nested lists spell them: they have the cells that their shape asks
for, and no axis but the last is empty. -/
inductive Value.Rectangular : Value → Prop where
  | scalar (s : Scalar) : Rectangular (.scalar s)
  | list {vs : List Value} : (∀ v ∈ vs, Rectangular v) → Rectangular (.list vs)
  | column {vs : List Value} : (∀ v ∈ vs, Rectangular v) → Rectangular (.column vs)
  | map {es : Entries} : (∀ e ∈ es, Rectangular e.2) → Rectangular (.map es)
  | array {shape : List Nat} {cells : List Float} : cells.length = shape.prod →
      (∀ n ∈ shape.dropLast, n ≠ 0) → Rectangular (.array shape cells)

namespace Value

@[simp]
theorem sized_scalar (s : Scalar) : (Value.scalar s).Sized := .scalar s

@[simp]
theorem sized_list {vs : List Value} : (Value.list vs).Sized ↔ ∀ v ∈ vs, v.Sized := by
  constructor
  · intro h
    cases h
    assumption
  · exact Sized.list

@[simp]
theorem sized_obj {fields : List (String × Value)} :
    (obj fields).Sized ↔ ∀ f ∈ fields, f.2.Sized := by
  constructor
  · intro h f hf
    cases h with
    | map hes => exact hes _ (List.mem_map.mpr ⟨f, hf, rfl⟩)
  · intro h
    apply Sized.map
    intro e he
    obtain ⟨f, hf, rfl⟩ := List.mem_map.mp he
    exact h f hf

@[simp]
theorem rectangular_scalar (s : Scalar) : (Value.scalar s).Rectangular := .scalar s

@[simp]
theorem rectangular_list {vs : List Value} :
    (Value.list vs).Rectangular ↔ ∀ v ∈ vs, v.Rectangular := by
  constructor
  · intro h
    cases h
    assumption
  · exact Rectangular.list

@[simp]
theorem rectangular_obj {fields : List (String × Value)} :
    (obj fields).Rectangular ↔ ∀ f ∈ fields, f.2.Rectangular := by
  constructor
  · intro h f hf
    cases h with
    | map hes => exact hes _ (List.mem_map.mpr ⟨f, hf, rfl⟩)
  · intro h
    apply Rectangular.map
    intro e he
    obtain ⟨f, hf, rfl⟩ := List.mem_map.mp he
    exact h f hf

theorem Rectangular.sized {v : Value} (h : v.Rectangular) : v.Sized := by
  induction h with
  | scalar s => exact .scalar s
  | list _ ih => exact .list ih
  | column _ ih => exact .column ih
  | map _ ih => exact .map ih
  | array hlength _ => exact .array hlength

end Value

theorem Value.Sized.getD {v : Value} (h : v.Sized) (key : String) : (v.getD key).Sized := by
  cases hx : v.get? key with
  | none =>
    rw [getD_of_get?_none hx]
    exact .scalar .null
  | some x =>
    rw [getD_of_get? hx]
    cases h with
    | map hes => exact hes _ (Entries.mem_of_lookup? hx)
    | _ => simp [get?] at hx

theorem Value.Rectangular.getD {v : Value} (h : v.Rectangular) (key : String) :
    (v.getD key).Rectangular := by
  cases hx : v.get? key with
  | none =>
    rw [getD_of_get?_none hx]
    exact .scalar .null
  | some x =>
    rw [getD_of_get? hx]
    cases h with
    | map hes => exact hes _ (Entries.mem_of_lookup? hx)
    | _ => simp [get?] at hx

namespace Grid

/-- An array with the cells that its shape asks for, of which no axis but the last is empty. -/
structure Full (g : Grid) : Prop where
  length_cells : g.cells.length = g.shape.prod
  axes : ∀ n ∈ g.shape.dropLast, n ≠ 0

theorem commonOpening_self (ns : List Nat) : commonOpening ns ns = ns := by
  induction ns with
  | nil => rfl
  | cons n ns ih => rw [commonOpening, if_pos rfl, ih]

-- Items that meet in a regular outline all have this outline.
theorem Outline.of_regular_meet {a b : Outline} (h : (a.meet b).regular = true) :
    a.regular = true ∧ b.regular = true ∧ a.shape = b.shape ∧ (a.meet b).shape = a.shape := by
  have hparts : (a.regular = true ∧ b.regular = true) ∧ a.shape = b.shape := by
    simpa [meet] using h
  obtain ⟨⟨ha, hb⟩, hshape⟩ := hparts
  refine ⟨ha, hb, hshape, ?_⟩
  show commonOpening a.shape b.shape = a.shape
  rw [← hshape, commonOpening_self]

theorem outlineItems_eq_none {vs : List Value} (h : outlineItems vs = none) : vs = [] := by
  cases vs with
  | nil => rfl
  | cons v vs =>
    rw [outlineItems] at h
    split at h <;> cases h

theorem cellsOf_scalar {s : Scalar} {cells : List Float} (h : cellsOf (.scalar s) = .ok cells) :
    ∃ x, cells = [x] := by
  cases s with
  | null => exact ⟨Double.nan, by cases h; rfl⟩
  | _ =>
    simp only [cellsOf] at h
    obtain ⟨x, -, rfl⟩ := map_eq_ok.mp h
    exact ⟨x, rfl⟩

/-- Whether a value with a regular outline has the cells that its shape asks for. -/
def SizedReading (v : Value) : Prop :=
  ∀ cells, (outline v).regular = true → cellsOf v = .ok cells →
    cells.length = (outline v).shape.prod

-- The items of a list share one shape, so the list has as many cells as items of that shape.
theorem length_of_items {vs : List Value} (hvs : ∀ v ∈ vs, SizedReading v) {o : Outline}
    {cells : List Float} (ho : outlineItems vs = some o) (hr : o.regular = true)
    (hc : cellsOfItems vs = .ok cells) : cells.length = vs.length * o.shape.prod := by
  induction vs generalizing o cells with
  | nil => cases ho
  | cons v vs ih =>
    obtain ⟨first, hfirst, hc⟩ := bind_eq_ok.mp hc
    obtain ⟨rest, hrest, hc⟩ := bind_eq_ok.mp hc
    have hcells : first ++ rest = cells := pure_eq_ok.mp hc
    have hv := hvs v List.mem_cons_self
    rw [outlineItems] at ho
    cases hvo : outlineItems vs with
    | none =>
      obtain rfl := outlineItems_eq_none hvo
      cases hrest
      rw [hvo] at ho
      cases ho
      rw [← hcells, List.append_nil, hv first hr hfirst, List.length_singleton, Nat.one_mul]
    | some p =>
      rw [hvo] at ho
      cases ho
      obtain ⟨hra, hrp, hshape, hmeet⟩ := Outline.of_regular_meet hr
      have hlength := ih (fun w hw => hvs w (List.mem_cons_of_mem _ hw)) hvo hrp hrest
      rw [hmeet, ← hcells, List.length_append, hv first hra hfirst, hlength, ← hshape,
        List.length_cons, Nat.succ_mul, Nat.add_comm]

theorem sizedReading_of_sized {v : Value} (h : v.Sized) : SizedReading v := by
  -- A list and a column are read alike, so one argument serves both.
  have ofItems : ∀ (vs : List Value), (∀ v ∈ vs, SizedReading v) → SizedReading (.list vs) := by
    intro vs hvs cells hr hc
    rw [outline] at hr ⊢
    rw [cellsOf] at hc
    cases ho : outlineItems vs with
    | none =>
      obtain rfl := outlineItems_eq_none ho
      cases hc
      rfl
    | some o =>
      rw [ho] at hr
      exact (length_of_items hvs ho hr hc).trans List.prod_cons.symm
  induction h with
  | scalar s =>
    intro cells _ hc
    obtain ⟨x, rfl⟩ := cellsOf_scalar hc
    rfl
  | list _ ih => exact ofItems _ ih
  | column _ ih => exact ofItems _ ih
  | map _ _ =>
    intro cells _ hc
    cases hc
  | array hlength =>
    intro cells _ hc
    cases hc
    exact hlength

/-- Whether no axis but the last of a regular outline is empty. -/
def FilledAxes (o : Outline) : Prop :=
  o.regular = true → ∀ n ∈ o.shape.dropLast, n ≠ 0

-- A list with an outline has an item, and the items share the axes of the first one.
theorem filledAxes_of_items {vs : List Value} (hvs : ∀ v ∈ vs, FilledAxes (outline v))
    {o : Outline} (ho : outlineItems vs = some o) :
    FilledAxes ⟨vs.length :: o.shape, o.regular⟩ := by
  intro hr n hn
  cases vs with
  | nil => cases ho
  | cons v vs =>
    have hinner : ∀ n ∈ o.shape.dropLast, n ≠ 0 := by
      have hv := hvs v List.mem_cons_self
      rw [outlineItems] at ho
      split at ho
      · cases ho
        exact hv hr
      · cases ho
        obtain ⟨hra, -, -, hmeet⟩ := Outline.of_regular_meet hr
        rw [hmeet]
        exact hv hra
    cases hs : o.shape with
    | nil => simp [hs] at hn
    | cons m ms =>
      rw [hs] at hinner
      simp only [hs, List.dropLast_cons_cons, List.mem_cons] at hn
      rcases hn with rfl | hn
      · exact Nat.succ_ne_zero _
      · exact hinner n hn

theorem filledAxes_of_rectangular {v : Value} (h : v.Rectangular) : FilledAxes (outline v) := by
  have ofItems : ∀ (vs : List Value), (∀ v ∈ vs, FilledAxes (outline v)) →
      FilledAxes (outline (.list vs)) := by
    intro vs hvs
    rw [outline]
    cases ho : outlineItems vs with
    | none => exact fun _ n hn => by cases hn
    | some o => exact filledAxes_of_items hvs ho
  induction h with
  | scalar s => exact fun _ n hn => by cases hn
  | list _ ih => exact ofItems _ ih
  | column _ ih => exact ofItems _ ih
  | map _ _ => exact fun _ n hn => by cases hn
  | array _ haxes => exact fun _ => haxes

theorem ofValue_eq_ok {v : Value} {g : Grid} (hg : ofValue v = .ok g) :
    (outline v).regular = true ∧ g.shape = (outline v).shape ∧ cellsOf v = .ok g.cells := by
  rw [ofValue] at hg
  split at hg
  next hr =>
    obtain ⟨cells, hcells, rfl⟩ := map_eq_ok.mp hg
    exact ⟨hr, rfl, hcells⟩
  next => cases hg

theorem shape_of_ofValue {v : Value} {g : Grid} (hg : ofValue v = .ok g) :
    g.shape = (outline v).shape :=
  (ofValue_eq_ok hg).2.1

theorem length_of_ofValue {v : Value} (h : v.Sized) {g : Grid} (hg : ofValue v = .ok g) :
    g.cells.length = g.shape.prod := by
  obtain ⟨hr, hshape, hcells⟩ := ofValue_eq_ok hg
  rw [hshape]
  exact sizedReading_of_sized h g.cells hr hcells

/-- What is read from nested lists has the cells that its shape asks for. -/
theorem full_of_ofValue {v : Value} (h : v.Rectangular) {g : Grid} (hg : ofValue v = .ok g) :
    g.Full where
  length_cells := length_of_ofValue h.sized hg
  axes := by
    obtain ⟨hr, hshape, -⟩ := ofValue_eq_ok hg
    rw [hshape]
    exact filledAxes_of_rectangular h hr

/-! ## 2. Rows -/

section Cut

variable {α : Type} {width : Nat}

@[simp]
theorem length_cut (width count : Nat) (cells : List α) :
    (cut width count cells).length = count := by
  induction count generalizing cells with
  | zero => rfl
  | succ count ih => rw [cut, List.length_cons, ih]

theorem length_of_mem_cut {count : Nat} {cells : List α} (h : cells.length = count * width)
    {part : List α} (hp : part ∈ cut width count cells) : part.length = width := by
  induction count generalizing cells with
  | zero => cases hp
  | succ count ih =>
    rw [Nat.succ_mul] at h
    rcases List.mem_cons.mp hp with rfl | hp
    · rw [List.length_take]
      omega
    · exact ih (by rw [List.length_drop]; omega) hp

theorem flatten_cut {count : Nat} {cells : List α} (h : cells.length = count * width) :
    (cut width count cells).flatten = cells := by
  induction count generalizing cells with
  | zero =>
    rw [Nat.zero_mul] at h
    rw [List.length_eq_zero_iff.mp h]
    rfl
  | succ count ih =>
    rw [Nat.succ_mul] at h
    have hrest : (cells.drop width).length = count * width := by
      rw [List.length_drop]
      omega
    rw [cut, List.flatten_cons, ih hrest, List.take_append_drop]

end Cut

/-! ## 3. Turning -/

theorem flatMap_getElem?_range {α : Type} (xs : List α) :
    (List.range xs.length).flatMap (fun j => xs[j]?.toList) = xs := by
  induction xs with
  | nil => rfl
  | cons x xs ih =>
    rw [List.length_cons, List.range_succ_eq_map, List.flatMap_cons, List.flatMap_map]
    show x :: (List.range xs.length).flatMap (fun j => xs[j]?.toList) = x :: xs
    rw [ih]

theorem interleave_perm {α : Type} {width : Nat} {parts : List (List α)}
    (h : ∀ part ∈ parts, part.length = width) :
    (interleave width parts).Perm parts.flatten := by
  induction parts with
  | nil =>
    have hnil : interleave width ([] : List (List α)) = [] := by simp [interleave]
    rw [hnil]
    exact List.Perm.nil
  | cons p ps ih =>
    have hp : p.length = width := h p List.mem_cons_self
    have hsplit : interleave width (p :: ps) = (List.range width).flatMap fun j =>
        p[j]?.toList ++ ps.filterMap fun part => part[j]? := by
      apply List.flatMap_congr
      intro j _
      cases hj : p[j]? <;> simp [hj]
    rw [hsplit, List.flatten_cons]
    refine (List.flatMap_append_perm _ _ _).symm.trans ?_
    rw [← hp, flatMap_getElem?_range, hp]
    exact (ih fun part hpart => h part (List.mem_cons_of_mem _ hpart)).append_left p

theorem columnMajor_perm {shape : List Nat} {cells : List Float}
    (h : cells.length = shape.prod) : (columnMajor shape cells).Perm cells := by
  induction shape generalizing cells with
  | nil => exact List.Perm.refl _
  | cons count inner ih =>
    have hwidth : inner.foldl (· * ·) 1 = inner.prod := (List.prod_eq_foldl).symm
    rw [List.prod_cons] at h
    simp only [columnMajor, hwidth]
    have hpart : ∀ part ∈ cut inner.prod count cells,
        (columnMajor inner part).Perm part := fun part hp => ih (length_of_mem_cut h hp)
    have hlength : ∀ part ∈ (cut inner.prod count cells).map (columnMajor inner),
        part.length = inner.prod := by
      intro part hp
      obtain ⟨q, hq, rfl⟩ := List.mem_map.mp hp
      rw [(hpart q hq).length_eq, length_of_mem_cut h hq]
    refine (interleave_perm hlength).trans ?_
    rw [← List.flatMap_def]
    refine (List.Perm.flatMap_left _ hpart).trans ?_
    rw [List.flatMap_id', flatten_cut h]

end Grid

end PlotScene
