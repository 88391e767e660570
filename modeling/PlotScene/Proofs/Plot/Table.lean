import PlotScene.Layer.Geometry
import PlotScene.Plot.Table
import PlotScene.Proofs.Layer.Rows
import PlotScene.Proofs.Value.Texts

/-!
# The columns of the table

A plot is regular when its columns are as long as the column of x, which has an entry.  Every row of
the table of a regular plot has the fields that the layers read from it.  There is a table whatever
the columns hold, as long as along an axis of numbers the integers are within the range of doubles
and along an axis of categories every entry has a label.
-/

namespace PlotScene

open Reference

/-- What a description guarantees about the columns of its plot. -/
structure Plot.Regular (p : Plot) : Prop where
  x : p.aesthetics.x ≠ []
  y : p.aesthetics.y.length = p.aesthetics.x.length
  color : p.grouped = true →
    ∃ vs, p.aesthetics.color = some vs ∧ vs.length = p.aesthetics.x.length
  ymin : ∀ vs, p.aesthetics.ymin = some vs → vs.length = p.aesthetics.x.length
  ymax : ∀ vs, p.aesthetics.ymax = some vs → vs.length = p.aesthetics.x.length

/-- The fields that layers read from the table. -/
def tableFields (p : Plot) : List String :=
  let bounds := GeometryKind.intervalFields p.aesthetics
  ["x", "y", bounds.1, bounds.2] ++ if p.grouped then ["color"] else []

/-- Along an axis of numbers every integer can be compared with infinity, and along an axis of
categories every entry that is not missing can be labelled. -/
def Value.Comparable (vs : List Value) : Prop :=
  if allNumeric vs = true then ∀ v ∈ vs, v.InRange else haveLabels vs = true

theorem Value.comparable_of_inRange {vs : List Value} (h : ∀ v ∈ vs, v.InRange) :
    Comparable vs := by
  rw [Comparable]
  split
  · exact h
  · exact haveLabels_of_inRange h

namespace Table

/-! ## 1. Rows -/

theorem names_of_mapM_cell? {cs : List Column} {i : Nat} {cells : List (String × Value)}
    (h : (cs.mapM fun c => Column.cell? c i) = some cells) :
    cells.map Prod.fst = cs.map Column.name := by
  induction cs generalizing cells with
  | nil =>
    cases h
    rfl
  | cons c cs ih =>
    rw [List.mapM_cons] at h
    obtain ⟨cell, hcell, h⟩ := Option.bind_eq_some_iff.mp h
    obtain ⟨rest, hrest, h⟩ := Option.bind_eq_some_iff.mp h
    obtain rfl := Option.some.inj h
    obtain ⟨v, -, rfl⟩ := Option.map_eq_some_iff.mp hcell
    rw [List.map_cons, List.map_cons, ih hrest]

-- A row has a cell of every column.
theorem has_of_row? {cs : List Column} {i : Nat} {row : Value} (h : row? cs i = some row)
    {c : Column} (hc : c ∈ cs) : row.has c.name = true := by
  obtain ⟨cells, hcells, rfl⟩ := Option.map_eq_some_iff.mp h
  apply has_obj
  rw [names_of_mapM_cell? hcells]
  exact List.mem_map.mpr ⟨c, hc, rfl⟩

/-! ## 2. Columns -/

theorem fitting_some {count : Nat} {vs : List Value} (h : vs.length = count) :
    fitting count (some vs) = some vs := by
  rw [fitting, Option.filter_some, if_pos (by simpa using h)]

theorem mem_names_of_option {o : Option (List Value)} {count : Nat} {vs : List Value}
    {f : List Value → Column} {name : String} (hf : ∀ ws, (f ws).name = name)
    (ho : o = some vs) (hv : vs.length = count) :
    ∃ c ∈ ((fitting count o).map f).toList, c.name = name := by
  rw [ho, fitting_some hv]
  exact ⟨f vs, List.mem_singleton.mpr rfl, hf vs⟩

-- A bound of intervals is read only where both columns are there, and otherwise y stands for it.
theorem mem_tableFields {p : Plot} {f : String} (hf : f ∈ tableFields p) :
    f = "x" ∨ f = "y" ∨ (f = "ymin" ∧ p.aesthetics.ymin.isSome = true) ∨
      (f = "ymax" ∧ p.aesthetics.ymax.isSome = true) ∨ (f = "color" ∧ p.grouped = true) := by
  rcases List.mem_append.mp hf with hf | hf
  · rw [GeometryKind.intervalFields] at hf
    split at hf
    next hboth =>
      rw [Bool.and_eq_true] at hboth
      simp only [List.mem_cons, List.not_mem_nil, or_false] at hf
      rcases hf with rfl | rfl | rfl | rfl <;> simp [hboth]
    next =>
      simp only [List.mem_cons, List.not_mem_nil, or_false] at hf
      rcases hf with rfl | rfl | rfl | rfl <;> simp
  · split at hf
    next hg =>
      obtain rfl := List.mem_singleton.mp hf
      simp [hg]
    next => cases hf

-- The columns of a regular plot have the names of all fields that layers read.
theorem exists_column {p : Plot} (hp : p.Regular) {cs : List Column} (h : columns p = .ok cs)
    {f : String} (hf : f ∈ tableFields p) : ∃ c ∈ cs, c.name = f := by
  rw [columns] at h
  obtain ⟨x, hx, h⟩ := bind_eq_ok.mp h
  obtain ⟨y, hy, h⟩ := bind_eq_ok.mp h
  obtain rfl := Except.ok.inj h
  rw [fitting_some hp.y] at hy
  obtain ⟨cells, -, hy⟩ := bind_eq_ok.mp hy
  obtain rfl := Except.ok.inj hy
  -- The columns come in a fixed order: x, y, color, and the two bounds.
  simp only [List.mem_cons, List.mem_append, or_and_right, exists_or, exists_eq_left]
  rcases mem_tableFields hf with rfl | rfl | ⟨rfl, hmin⟩ | ⟨rfl, hmax⟩ | ⟨rfl, hg⟩
  · exact Or.inl rfl
  · exact Or.inr (Or.inl (Or.inl (Or.inl ⟨_, List.mem_singleton.mpr rfl, rfl⟩)))
  · obtain ⟨vs, hvs⟩ := Option.isSome_iff_exists.mp hmin
    exact Or.inr (Or.inl (Or.inr (mem_names_of_option (fun _ => rfl) hvs (hp.ymin vs hvs))))
  · obtain ⟨vs, hvs⟩ := Option.isSome_iff_exists.mp hmax
    exact Or.inr (Or.inr (mem_names_of_option (fun _ => rfl) hvs (hp.ymax vs hvs)))
  · obtain ⟨vs, hvs, hlen⟩ := hp.color hg
    refine Or.inr (Or.inl (Or.inl (Or.inr ?_)))
    rw [hvs, fitting_some hlen, Option.filter_some, if_pos hg]
    exact ⟨_, List.mem_singleton.mpr rfl, rfl⟩

/-- Every row of the table of a regular plot has the fields that layers read. -/
theorem has_of_ofPlot {p : Plot} (hp : p.Regular) {t : Table} (h : ofPlot p = .ok t) :
    ∀ row ∈ t.rows, ∀ f ∈ tableFields p, row.has f = true := by
  intro row hr f hf
  rw [ofPlot, if_neg (by simpa using hp.x)] at h
  obtain ⟨cs, hcs, rfl⟩ := map_eq_ok.mp h
  obtain ⟨i, -, hrow⟩ := List.mem_filterMap.mp hr
  obtain ⟨c, hc, rfl⟩ := exists_column hp hcs hf
  exact has_of_row? hrow hc

/-! ## 3. When there is a table -/

theorem numberCell_answers {v : Value} (h : v.InRange) : ∃ cell, numberCell v = .ok cell := by
  unfold numberCell
  split
  next n =>
    obtain ⟨x, hx⟩ := Option.isSome_iff_exists.mp (Value.inRange_scalar.mp h)
    exact ⟨some (.int n), by rw [hx]⟩
  next => exact ⟨_, rfl⟩
  next => exact ⟨_, rfl⟩

-- An entry of a numeric column that has a cell, even an empty one, is within the range.
theorem inRange_of_numberCell {v : Value} {cell : Option Value} (h : numberCell v = .ok cell)
    (hv : v.fitsNumeric = true) : v.InRange := by
  match v with
  | .int n =>
    rw [numberCell] at h
    split at h
    next x hx => exact Value.inRange_scalar.mpr (by rw [Scalar.inRange, hx]; rfl)
    next => cases h
  | .null | .bool _ | .float _ | .str _ => exact Value.inRange_scalar.mpr rfl
  | .list _ | .map _ | .array _ _ | .column _ => cases hv

theorem axisCells_answers_iff {vs : List Value} :
    (∃ cells, axisCells vs = .ok cells) ↔ Value.Comparable vs := by
  rw [axisCells, Value.Comparable]
  by_cases hnumeric : Value.allNumeric vs = true
  · rw [if_pos hnumeric, if_pos hnumeric]
    constructor
    · rintro ⟨cells, h⟩ v hv
      obtain ⟨cell, -, hcell⟩ := answer_of_mem_mapM h hv
      exact inRange_of_numberCell hcell (List.all_eq_true.mp hnumeric v hv)
    · exact fun h => mapM_of_forall fun v hv => numberCell_answers (h v hv)
  · rw [if_neg hnumeric, if_neg hnumeric, ← Value.requireLabels_eq_ok]
    constructor
    · rintro ⟨cells, h⟩
      obtain ⟨⟨⟩, hlabels, -⟩ := bind_eq_ok.mp h
      exact hlabels
    · exact fun h => ⟨_, bind_eq_ok.mpr ⟨(), h, rfl⟩⟩

theorem ofPlot_answers_iff {p : Plot} (hne : p.aesthetics.x ≠ []) :
    (∃ t, ofPlot p = .ok t) ↔ Value.Comparable p.aesthetics.x ∧
      (p.aesthetics.y.length = p.aesthetics.x.length → Value.Comparable p.aesthetics.y) := by
  rw [ofPlot, if_neg (by simpa using hne)]
  constructor
  · rintro ⟨t, ht⟩
    obtain ⟨cs, hcs, -⟩ := map_eq_ok.mp ht
    obtain ⟨x, hx, hcs⟩ := bind_eq_ok.mp hcs
    obtain ⟨y, hy, -⟩ := bind_eq_ok.mp hcs
    refine ⟨axisCells_answers_iff.mp ⟨x, hx⟩, fun hlen => ?_⟩
    rw [fitting_some hlen] at hy
    obtain ⟨cells, hcells, -⟩ := bind_eq_ok.mp hy
    exact axisCells_answers_iff.mp ⟨cells, hcells⟩
  · rintro ⟨hx, hy⟩
    obtain ⟨x, hx⟩ := axisCells_answers_iff.mpr hx
    -- Without a column of y as long as x there is no such column.
    have hycells : ∃ y, (fitting p.aesthetics.x.length (some p.aesthetics.y)).mapM axisCells =
        .ok y := by
      rw [fitting, Option.filter_some]
      split
      next hlen =>
        obtain ⟨cells, hcells⟩ := axisCells_answers_iff.mpr (hy (beq_iff_eq.mp hlen))
        rw [Option.mapM_some, hcells]
        exact ⟨_, rfl⟩
      next => exact ⟨_, rfl⟩
    obtain ⟨y, hy⟩ := hycells
    rw [columns, hx, ok_bind, hy]
    exact ⟨_, rfl⟩

theorem ofPlot_answers {p : Plot} (hx : ∀ v ∈ p.aesthetics.x, v.InRange)
    (hy : ∀ v ∈ p.aesthetics.y, v.InRange) : ∃ t, ofPlot p = .ok t := by
  by_cases hnil : p.aesthetics.x = []
  · rw [ofPlot, hnil]
    exact ⟨{}, rfl⟩
  · exact (ofPlot_answers_iff hnil).mpr
      ⟨Value.comparable_of_inRange hx, fun _ => Value.comparable_of_inRange hy⟩

end Table

end PlotScene
