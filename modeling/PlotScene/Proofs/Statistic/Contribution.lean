import Mathlib.Data.List.Basic
import PlotScene.Proofs.Numeric.Grid
import PlotScene.Proofs.Statistic.Readers

/-!
# What a group contributes

A record that is read leaves a trace: it gives at least one record or one notice.  The exceptions
are a matrix of counts without a count that could be drawn, and boxes without a row.
-/

namespace PlotScene

/-- Whether a group has given a record or a notice. -/
def Normalized.Contributes {α : Type} (n : Normalized α) : Prop :=
  n.records ≠ [] ∨ n.notices ≠ []

/-- A record of numeric counts without a non-zero one; NaN, which counts nothing, is taken for
zero. -/
def Value.CountsNothing (record : Value) : Prop :=
  ∃ g, Grid.ofValue (record.getD "counts") = .ok g ∧
    ∀ count ∈ g.cells, (count == 0 || count.isNaN) = true

/-- A record whose boxes are an array of at least two axes without a row. -/
def Value.HoldsNoRow (record : Value) : Prop :=
  ∃ g, Grid.ofValue (record.getD "boxplot_data") = .ok g ∧ 2 ≤ g.dimensions ∧ g.rows = []

namespace Normalized

variable {α : Type}

theorem contributes_record (r : α) : (record r).Contributes := Or.inl (List.cons_ne_nil _ _)

theorem contributes_notice (n : Notice) : (notice n : Normalized α).Contributes :=
  Or.inr (List.cons_ne_nil _ _)

theorem Contributes.append {m : Normalized α} (h : m.Contributes) (n : Normalized α) :
    (m.append n).Contributes := by
  rcases h with h | h
  · exact Or.inl fun he => h (List.append_eq_nil_iff.mp he).1
  · exact Or.inr fun he => h (List.append_eq_nil_iff.mp he).1

end Normalized

/-! ## 1. Curves and bins -/

theorem zipWith_ne_nil {α β γ : Type} {f : α → β → γ} {xs : List α} {ys : List β} (h : xs ≠ [])
    (hlength : xs.length = ys.length) : List.zipWith f xs ys ≠ [] := by
  intro hnil
  rw [List.zipWith_eq_nil_iff] at hnil
  rcases hnil with hnil | hnil
  · exact h hnil
  · exact h (List.length_eq_zero_iff.mp (by rw [hlength, hnil]; rfl))

theorem readRegression_contributes {kind : StatisticKind} {observationX record : Value}
    {g : Nat} {n : Normalized RegressionCurve}
    (h : readRegression kind observationX g record = .ok n) : n.Contributes := by
  obtain ⟨curve, -, h⟩ := bind_eq_ok.mp h
  obtain ⟨band, -, h⟩ := bind_eq_ok.mp h
  cases h
  exact Or.inl (List.cons_ne_nil _ _)

theorem readSummary_contributes {observationX record : Value} {g : Nat}
    {n : Normalized SummaryCurve} (h : readSummary observationX g record = .ok n) :
    n.Contributes := by
  obtain ⟨curve, -, h⟩ := bind_eq_ok.mp h
  obtain ⟨band, -, h⟩ := bind_eq_ok.mp h
  cases h
  exact Or.inl (List.cons_ne_nil _ _)

theorem readDensity_contributes {record : Value} {g : Nat} {n : Normalized DensityCurve}
    (h : readDensity g record = .ok n) : n.Contributes := by
  obtain ⟨curve, -, h⟩ := bind_eq_ok.mp h
  cases h
  exact Normalized.contributes_record _

theorem readQuantiles_contributes {record : Value} {g : Nat} {n : Normalized QuantilePoint}
    (h : readQuantiles g record = .ok n) : n.Contributes := by
  obtain ⟨⟨x, y⟩, hcurve, h⟩ := bind_eq_ok.mp h
  cases h
  obtain ⟨-, hne, hlength⟩ := readCurve_eq_ok.mp hcurve
  exact Or.inl (zipWith_ne_nil hne hlength)

theorem readBins_contributes {record : Value} {g : Nat} {n : Normalized BinGroup}
    (h : readBins g record = .ok n) : n.Contributes := by
  obtain ⟨-, -, h⟩ := bind_eq_ok.mp h
  obtain ⟨edges, -, h⟩ := bind_eq_ok.mp h
  obtain ⟨counts, -, h⟩ := bind_eq_ok.mp h
  split at h
  next => cases h
  next =>
    dsimp only at h
    split at h
    next =>
      cases h
      exact Normalized.contributes_record _
    next =>
      obtain ⟨centers, -, h⟩ := bind_eq_ok.mp h
      split at h
      next => cases h
      next =>
        cases h
        exact Normalized.contributes_record _

/-! ## 2. Categories -/

theorem readBox_contributes {g category : Nat} {row : Grid} {n : Normalized Box}
    (h : readBox g category row = .ok n) : n.Contributes := by
  rw [readBox] at h
  split at h
  next =>
    cases h
    exact Normalized.contributes_notice _
  next =>
    obtain ⟨numbers, -, h⟩ := bind_eq_ok.mp h
    split at h
    next =>
      cases h
      exact Normalized.contributes_record _
    next => cases h

theorem readBoxesFrom_contributes {g category : Nat} {rows : List Grid} {n : Normalized Box}
    (hne : rows ≠ []) (h : readBoxesFrom g category rows = .ok n) : n.Contributes := by
  cases rows with
  | nil => exact absurd rfl hne
  | cons row rows =>
    obtain ⟨here, hhere, h⟩ := bind_eq_ok.mp h
    obtain ⟨rest, -, h⟩ := bind_eq_ok.mp h
    cases h
    exact (readBox_contributes hhere).append rest

theorem Grid.two_le_dimensions {g : Grid} (hempty : g.shape ≠ []) (hone : ∀ n, g.shape ≠ [n]) :
    2 ≤ g.dimensions := by
  obtain ⟨shape, cells⟩ := g
  match shape, hempty, hone with
  | [], hempty, _ => exact absurd rfl hempty
  | [n], _, hone => exact absurd rfl (hone n)
  | _ :: _ :: rest, _, _ => exact Nat.le_add_left 2 rest.length

theorem readBoxes_contributes {record : Value} (hrows : ¬ record.HoldsNoRow) {g : Nat}
    {n : Normalized Box} (h : readBoxes g record = .ok n) : n.Contributes := by
  obtain ⟨-, -, h⟩ := bind_eq_ok.mp h
  obtain ⟨grid, hgrid, h⟩ := bind_eq_ok.mp h
  split at h
  next => cases h
  next => exact readBoxesFrom_contributes (List.cons_ne_nil _ _) h
  next hempty hone =>
    refine readBoxesFrom_contributes (fun hnil => hrows ?_) h
    exact ⟨grid, readGrid_eq_ok.mp hgrid, Grid.two_le_dimensions hempty hone, hnil⟩

theorem length_halfWidths {α : Type} [OfNat α 0] [LT α] [DecidableLT α] [Mul α] [Div α]
    (widest : α) (finite densities : List α) :
    (halfWidths widest finite densities).length = densities.length := by
  rw [halfWidths, List.length_map]

theorem readViolinCategory_contributes {g : Nat} {category : Float} {ds ys : List Float}
    (hne : ds ≠ []) (hlength : ds.length = ys.length) :
    (readViolinCategory g category (ds, ys)).Contributes := by
  rw [readViolinCategory]
  split
  next => exact Normalized.contributes_notice _
  next =>
    apply Or.inl
    have hpairs : ds.zip (halfWidths widestHalf (Sequence.finite ds) ds) ≠ [] :=
      zipWith_ne_nil hne (length_halfWidths _ _ _).symm
    apply zipWith_ne_nil hpairs
    rw [List.length_zip, length_halfWidths, Nat.min_self, hlength]

theorem readViolin_contributes {record : Value} {g : Nat} {n : Normalized ViolinPoint}
    (h : readViolin g record = .ok n) : n.Contributes := by
  obtain ⟨outlines, houtlines, rfl⟩ := readViolin_eq_ok.mp h
  cases outlines with
  | nil => exact absurd rfl houtlines.ne_nil
  | cons o rest =>
    have ho : o.Filled := houtlines.filled o List.mem_cons_self
    exact (readViolinCategory_contributes ho.ne_nil ho.length).append _

/-! ## 3. Cells -/

theorem Grid.asMatrix_cells {g : Grid} (h : g.cells.length = g.shape.prod) :
    g.asMatrix.cells = g.cells ∧ g.asMatrix.cells.length = g.asMatrix.shape.prod := by
  obtain ⟨shape, cells⟩ := g
  match shape, h with
  | [], h => exact ⟨rfl, by simpa [Grid.asMatrix] using h⟩
  | [n], h => exact ⟨rfl, by simpa [Grid.asMatrix] using h⟩
  | m :: n :: rest, h => exact ⟨rfl, h⟩

-- The counts are the given ones, in one order or the other.
theorem readCounts_cells {v : Value} (hv : v.Sized) {expected : List Nat} {counts : Grid}
    (h : readCounts v expected = .ok counts) :
    ∃ g, Grid.ofValue v = .ok g ∧ counts.cells.Perm g.cells ∧ counts.shape = expected ∧
      counts.cells.length = expected.prod := by
  obtain ⟨g, hg, h⟩ := bind_eq_ok.mp h
  have hof := readGrid_eq_ok.mp hg
  obtain ⟨hcells, hlength⟩ := Grid.asMatrix_cells (Grid.length_of_ofValue hv hof)
  refine ⟨g, hof, ?_⟩
  dsimp only at h
  split at h
  next hshape =>
    cases h
    exact ⟨hcells ▸ List.Perm.refl _, hshape, hshape ▸ hlength⟩
  next =>
    split at h
    next hshape =>
      cases h
      have hperm : g.asMatrix.transpose.cells.Perm g.asMatrix.cells :=
        Grid.columnMajor_perm hlength
      refine ⟨hcells ▸ hperm, hshape, ?_⟩
      rw [hperm.length_eq, hlength, ← hshape, List.prod_reverse]
    next => cases h

theorem rowCells_ne_nil {g : Nat} {y yWidth : Float} {columns : List (Float × Float)}
    {counts : List Float} {count : Float} (hcount : (count == 0 || count.isNaN) = false)
    (hlength : columns.length = counts.length) (hmem : count ∈ counts) :
    rowCells g y yWidth columns counts ≠ [] := by
  obtain ⟨i, hi, hget⟩ := List.mem_iff_getElem.mp hmem
  have hi' : i < (columns.zip counts).length := by
    rw [List.length_zip, hlength, Nat.min_self]
    exact hi
  have hpair : (columns.zip counts)[i] = (columns[i], count) := by
    rw [List.getElem_zip, hget]
  intro hnil
  have hnone := List.filterMap_eq_nil_iff.mp hnil _ (List.getElem_mem hi')
  rw [hpair] at hnone
  dsimp only at hnone
  rw [hcount] at hnone
  cases hnone

theorem length_bins (edges : List Float) :
    ((Sequence.midpoints edges).zip (Sequence.steps edges)).length = edges.length - 1 := by
  simp [Sequence.midpoints, Sequence.steps]

theorem readCells_contributes {record : Value} (hrec : record.Sized)
    (hcounts : ¬ record.CountsNothing) {g : Nat} {n : Normalized Cell}
    (h : readCells g record = .ok n) : n.Contributes := by
  obtain ⟨-, -, h⟩ := bind_eq_ok.mp h
  obtain ⟨⟨xEdges, yEdges⟩, -, h⟩ := bind_eq_ok.mp h
  obtain ⟨counts, hread, h⟩ := bind_eq_ok.mp h
  cases h
  obtain ⟨given, hgiven, hperm, hshape, hlength⟩ := readCounts_cells (hrec.getD _) hread
  -- Some count is neither zero nor NaN; it stands in a row, and the row gives its cell.
  have hsome : ∃ count ∈ counts.cells, (count == 0 || count.isNaN) = false := by
    by_contra hnone
    apply hcounts
    refine ⟨given, hgiven, fun count hc => ?_⟩
    by_contra hne
    exact hnone ⟨count, hperm.mem_iff.mpr hc, by simpa using hne⟩
  obtain ⟨count, hmem, hne⟩ := hsome
  have hsize : counts.cells.length = (yEdges.length - 1) * (xEdges.length - 1) := by
    simpa using hlength
  have hrows : counts.rows = (Grid.cut (xEdges.length - 1) (yEdges.length - 1) counts.cells).map
      fun cells => ⟨[xEdges.length - 1], cells⟩ := by
    rw [Grid.rows, hshape]
    simp
  rw [← Grid.flatten_cut hsize] at hmem
  obtain ⟨row, hrow, hcount⟩ := List.mem_flatten.mp hmem
  have hwidth : row.length = xEdges.length - 1 := Grid.length_of_mem_cut hsize hrow
  obtain ⟨i, hi, hget⟩ := List.mem_iff_getElem.mp hrow
  apply Or.inl
  intro hnil
  have hcells := List.flatten_eq_nil_iff.mp hnil
  rw [hrows] at hcells
  have hi' : i < yEdges.length - 1 := by simpa using hi
  have hrowCells := hcells _ (List.getElem_mem (n := i) (by
    rw [List.length_zipWith, List.length_map, Grid.length_cut, length_bins]
    omega))
  rw [List.getElem_zipWith, List.getElem_map, hget] at hrowCells
  exact rowCells_ne_nil hne (by rw [length_bins, hwidth]) hcount hrowCells

end PlotScene
