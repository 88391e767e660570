import PlotScene.Proofs.Plot.Description
import PlotScene.Proofs.Value.Strict

/-!
# Plots whose table is strict

Axes and colors have a cell only for a finite number or as a label.  The bounds of intervals are
written as they are given, a scalar that is not finite as null, so the table is strict where the
bounds are scalars.
-/

namespace PlotScene

open Value

def AllScalars (vs : List Value) : Prop :=
  ∀ v ∈ vs, ∃ k, v = .scalar k

/-- The limits of a continuous color are finite. -/
def ContinuousColor.Finite (c : ContinuousColor) : Prop :=
  ∀ low high, c.limits = some (low, high) → low.isFinite = true ∧ high.isFinite = true

/-- A plot whose document can be strict: its bounds are scalars and its limits finite. -/
structure Plot.Strict (p : Plot) : Prop where
  ymin : ∀ vs, p.aesthetics.ymin = some vs → AllScalars vs
  ymax : ∀ vs, p.aesthetics.ymax = some vs → AllScalars vs
  limits : p.continuousColor.Finite

/-! ## 1. Cells -/

namespace Table

theorem strict_numberCell {v x : Value} (h : numberCell v = .ok (some x)) : x.Strict := by
  unfold numberCell at h
  split at h
  next =>
    split at h
    next =>
      rw [← Option.some.inj (Except.ok.inj h)]
      exact Strict.scalar rfl
    next => cases h
  next y =>
    split at h
    next hy =>
      rw [← Option.some.inj (Except.ok.inj h)]
      exact Strict.scalar hy
    next => cases h
  next => cases h

theorem strict_labelCell {v x : Value} (h : labelCell v = some x) : x.Strict := by
  rw [labelCell] at h
  split at h
  · cases h
  · rw [← Option.some.inj h]
    exact Strict.scalar rfl

/-- The cells of a column are strict. -/
def StrictCells (cells : List (Option Value)) : Prop :=
  ∀ v, some v ∈ cells → v.Strict

theorem strictCells_labels (vs : List Value) : StrictCells (vs.map labelCell) := by
  intro v hv
  obtain ⟨w, -, hw⟩ := List.mem_map.mp hv
  exact strict_labelCell hw

theorem strictCells_axisCells {vs : List Value} {cells : List (Option Value)}
    (h : axisCells vs = .ok cells) : StrictCells cells := by
  rw [axisCells] at h
  split at h
  · intro v hv
    obtain ⟨w, -, hw⟩ := exists_of_mem_mapM h hv
    exact strict_numberCell hw
  · obtain ⟨⟨⟩, -, h⟩ := bind_eq_ok.mp h
    rw [← Except.ok.inj h]
    exact strictCells_labels vs

theorem strictCells_plainCells {vs : List Value} (h : AllScalars vs) :
    StrictCells (plainCells vs) := by
  intro v hv
  obtain ⟨w, hw, heq⟩ := List.mem_map.mp hv
  obtain ⟨k, rfl⟩ := h w hw
  rw [← Option.some.inj heq]
  exact strict_plain_scalar k

/-! ## 2. Columns and rows -/

theorem strictCells_bounds {count : Nat} {column : Option (List Value)} {name : String}
    (h : ∀ vs, column = some vs → AllScalars vs) :
    ∀ c ∈ ((fitting count column).map fun vs => (⟨name, plainCells vs⟩ : Column)).toList,
      StrictCells c.cells := by
  intro c hc
  obtain ⟨vs, hvs, rfl⟩ := Option.map_eq_some_iff.mp (Option.mem_toList.mp hc)
  exact strictCells_plainCells (h vs (Option.filter_eq_some_iff.mp hvs).1)

theorem strictCells_columns {p : Plot} (hp : p.Strict) {cs : List Column}
    (h : columns p = .ok cs) : ∀ c ∈ cs, StrictCells c.cells := by
  rw [columns] at h
  obtain ⟨x, hx, h⟩ := bind_eq_ok.mp h
  obtain ⟨y, hy, h⟩ := bind_eq_ok.mp h
  obtain rfl := Except.ok.inj h
  have hycells : ∀ c ∈ (y.map fun cells => (⟨"y", cells⟩ : Column)).toList,
      StrictCells c.cells := by
    intro c hc
    obtain ⟨cells, rfl, rfl⟩ := Option.map_eq_some_iff.mp (Option.mem_toList.mp hc)
    cases hfit : fitting p.aesthetics.x.length (some p.aesthetics.y) with
    | none =>
      rw [hfit] at hy
      cases hy
    | some vs =>
      rw [hfit] at hy
      obtain ⟨read, hread, hy⟩ := bind_eq_ok.mp hy
      obtain rfl := Option.some.inj (Except.ok.inj hy)
      exact strictCells_axisCells hread
  refine List.forall_mem_cons.mpr ⟨strictCells_axisCells hx, ?_⟩
  simp only [List.forall_mem_append]
  refine ⟨⟨⟨hycells, fun c hc => ?_⟩, strictCells_bounds hp.ymin⟩, strictCells_bounds hp.ymax⟩
  obtain ⟨vs, -, rfl⟩ := Option.map_eq_some_iff.mp (Option.mem_toList.mp hc)
  exact strictCells_labels vs

theorem strict_of_row? {cs : List Column} (hcs : ∀ c ∈ cs, StrictCells c.cells) {i : Nat}
    {row : Value} (h : row? cs i = some row) : row.Strict := by
  obtain ⟨cells, hcells, rfl⟩ := Option.map_eq_some_iff.mp h
  apply strict_obj.mpr
  clear h
  induction cs generalizing cells with
  | nil =>
    cases hcells
    exact List.forall_mem_nil _
  | cons c cs ih =>
    obtain ⟨hc, hcs⟩ := List.forall_mem_cons.mp hcs
    rw [List.mapM_cons] at hcells
    obtain ⟨cell, hcell, hcells⟩ := Option.bind_eq_some_iff.mp hcells
    obtain ⟨rest, hrest, hcells⟩ := Option.bind_eq_some_iff.mp hcells
    obtain rfl := Option.some.inj hcells
    obtain ⟨v, hv, rfl⟩ := Option.map_eq_some_iff.mp hcell
    refine List.forall_mem_cons.mpr ⟨hc v ?_, ih hcs rest hrest⟩
    exact List.mem_of_getElem? (Option.join_eq_some_iff.mp hv)

/-- Every row of the table is strict. -/
theorem strict_ofPlot {p : Plot} (hp : p.Strict) {t : Table} (h : ofPlot p = .ok t) :
    ∀ row ∈ t.rows, row.Strict := by
  rw [ofPlot] at h
  split at h
  · rw [← Except.ok.inj h]
    exact List.forall_mem_nil _
  · obtain ⟨cs, hcs, rfl⟩ := map_eq_ok.mp h
    intro row hr
    obtain ⟨i, -, hrow⟩ := List.mem_filterMap.mp hr
    exact strict_of_row? (strictCells_columns hp hcs) hrow

end Table

/-! ## 3. Descriptions -/

theorem finite_of_readLimits {v : Value} {low high : Float}
    (h : readLimits v = .ok (some (low, high))) :
    low.isFinite = true ∧ high.isFinite = true := by
  unfold readLimits at h
  split at h
  next => cases h
  next =>
    obtain ⟨n, -, h⟩ := bind_eq_ok.mp h
    split at h
    next => cases h
    next =>
      obtain ⟨first, -, h⟩ := bind_eq_ok.mp h
      obtain ⟨x, -, h⟩ := bind_eq_ok.mp h
      obtain ⟨second, -, h⟩ := bind_eq_ok.mp h
      obtain ⟨y, -, h⟩ := bind_eq_ok.mp h
      -- Both limits were compared with infinity before they were kept.
      have hlimits := Except.ok.inj h
      split at hlimits
      next hfinite =>
        obtain ⟨rfl, rfl⟩ := Prod.mk.inj (Option.some.inj hlimits)
        exact Bool.and_eq_true_iff.mp hfinite
      next => cases hlimits

theorem ContinuousColor.finite_of_read {options : Value} {c : ContinuousColor}
    (h : ContinuousColor.read options = .ok c) : c.Finite := by
  unfold ContinuousColor.read at h
  obtain ⟨given, -, h⟩ := bind_eq_ok.mp h
  split at h
  next =>
    rw [← Except.ok.inj h]
    exact fun low high hl => by cases hl
  next =>
    obtain ⟨flag, -, h⟩ := bind_eq_ok.mp h
    obtain ⟨active, -, h⟩ := bind_eq_ok.mp h
    split at h
    next =>
      rw [← Except.ok.inj h]
      exact fun low high hl => by cases hl
    next =>
      obtain ⟨limits, -, h⟩ := bind_eq_ok.mp h
      obtain ⟨rows, -, h⟩ := bind_eq_ok.mp h
      obtain ⟨colormap, -, h⟩ := bind_eq_ok.mp h
      obtain ⟨read, hread, h⟩ := bind_eq_ok.mp h
      rw [← Except.ok.inj h]
      intro low high hl
      obtain rfl : read = some (low, high) := hl
      exact finite_of_readLimits hread

/-- The columns of a description that are written as they are given hold scalars. -/
def ScalarBounds (description : Value) : Prop :=
  ∀ key ∈ ["ymin", "ymax"], ∀ vs, columnOf? ((description.getD "aes").getD key) = some vs →
    AllScalars vs

theorem Plot.strict_of_description {description : Value} {p : Plot}
    (h : Plot.ofDescription description = .ok p) (hs : ScalarBounds description) : p.Strict := by
  have hp := Plot.fromDescription h
  obtain ⟨raw, hraw, ha⟩ := hp.aesthetics
  obtain ⟨options, hoptions⟩ := hp.continuousColor
  have hcolumn (key : String) : raw.getD key = (description.getD "aes").getD key := by
    rw [Value.getD, Reference.get?_orEmpty hraw]
    rfl
  refine ⟨fun vs hvs => ?_, fun vs hvs => ?_, ContinuousColor.finite_of_read hoptions⟩
  · have hmin := ha.yminColumn vs hvs
    rw [hcolumn] at hmin
    exact hs "ymin" (by decide) vs hmin
  · have hmax := ha.ymaxColumn vs hvs
    rw [hcolumn] at hmax
    exact hs "ymax" (by decide) vs hmax

end PlotScene
