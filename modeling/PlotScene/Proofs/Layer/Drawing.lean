import PlotScene.Proofs.Layer.Colored
import PlotScene.Proofs.Layer.Rows
import PlotScene.Proofs.Statistic.Shape

/-!
# Drawings of a statistic

A source of a layer has one row for each point, bin, bound or box of the records, in the order of
the records.  A row shows the values of its place in its record, the number of its group, and the
color label of the group where the layer shares the color scale of the observations.
-/

namespace PlotScene

open Reference

/-! ## 1. Drawings -/

/-- What is written of each record into one source: a number of rows, and the fields of each.  A
value that the record does not have is `none`. -/
structure Drawing (ρ : Type) where
  source : String
  rows : ρ → Nat
  fields : ρ → Nat → List (String × Option Value)

/-- The rows of records in order, each as its record and its number within the record. -/
def Drawing.places {ρ : Type} (d : Drawing ρ) (records : List ρ) : List (ρ × Nat) :=
  records.flatMap fun r => (List.range (d.rows r)).map fun i => (r, i)

/-- A number as a row shows it. -/
def shown (x : Float) : Value := (Value.float x).plain

/-- A bound of a curve at a point, null where the curve has no band. -/
def RegressionCurve.boundAt (c : RegressionCurve) (bound : Band → List Float) (i : Nat) :
    Option Value :=
  match c.band with
  | some b => (bound b)[i]?.map shown
  | none => some .null

def Curve.regressionDrawing (source : String) : Drawing RegressionCurve where
  source := source
  rows c := c.x.length
  fields c i := [("x", c.x[i]?.map shown), ("regression_y", c.y[i]?.map shown),
    ("ci_lower", c.boundAt Band.lower i), ("ci_upper", c.boundAt Band.upper i)]

def Bin.drawing : Drawing BinGroup where
  source := "bins"
  rows b := b.counts.length
  fields b i := [("x", b.centers[i]?.map shown), ("count", b.counts[i]?.map shown),
    ("x_left", b.edges[i]?.map shown), ("x_right", b.edges[i + 1]?.map shown),
    ("bin_width", b.edges[i]?.bind fun l => b.edges[i + 1]?.map fun r => shown (r - l))]

def Category.meanDrawing (p : Plot) : Drawing SummaryCurve where
  source := "summary_lines"
  rows c := c.x.length
  fields c i := [("x", c.x[i]?.map fun x => (meanX p x).plain), ("y", c.y[i]?.map shown)]

/-- The bounds of a mean, the lower one before the upper one. -/
def Category.boundDrawing (p : Plot) : Drawing SummaryCurve where
  source := "summary_ci"
  rows c := 2 * c.x.length
  fields c i :=
    [("x", c.x[i / 2]?.map fun x => (meanX p x).plain),
      ("y", (if i % 2 = 0 then c.band.lower else c.band.upper)[i / 2]?.map shown),
      ("ci_type", some (.str (if i % 2 = 0 then "lower" else "upper")))]

def Category.boxDrawing (p : Plot) : Drawing Box where
  source := "boxplot_boxes"
  rows _ := 1
  fields b _ := [("x", some (.str (label p b.category))), ("category", some (.int b.category)),
    ("q1", some (shown b.lowerQuartile)), ("q3", some (shown b.upperQuartile))]

/-- The whiskers of a box, the lower one before the upper one. -/
def Category.whiskerDrawing (p : Plot) : Drawing Box where
  source := "boxplot_whiskers"
  rows _ := 2
  fields b i := [("x", some (.str (label p b.category))), ("category", some (.int b.category)),
    ("y_start", some (shown (if i = 0 then b.lowerQuartile else b.upperQuartile))),
    ("y_end", some (shown (if i = 0 then b.whiskerLow else b.whiskerHigh))),
    ("type", some (.str (if i = 0 then "lower" else "upper")))]

def Category.medianDrawing (p : Plot) : Drawing Box where
  source := "boxplot_medians"
  rows _ := 1
  fields b _ := [("x", some (.str (label p b.category))), ("category", some (.int b.category)),
    ("median", some (shown b.median))]

def Curve.densityDrawing : Drawing DensityCurve where
  source := "density"
  rows c := c.x.length
  fields c i := [("x", c.x[i]?.map shown), ("y", c.y[i]?.map shown)]

def Category.violinDrawing (p : Plot) : Drawing ViolinPoint where
  source := "violin"
  rows _ := 1
  fields v _ := [("category", some (.str (label p v.category))), ("y", some (shown v.y)),
    ("density", some (shown v.density)), ("left", some (shown v.left)),
    ("right", some (shown v.right))]

def Curve.quantileDrawing : Drawing QuantilePoint where
  source := "qq"
  rows _ := 1
  fields q _ := [("x", some (shown q.theoretical)), ("y", some (shown q.sample))]

def Cell.drawing : Drawing Cell where
  source := "heatmap_data"
  rows _ := 1
  fields c _ := [("x", some (shown c.x)), ("y", some (shown c.y)), ("count", some (shown c.count)),
    ("x_width", some (shown c.xWidth)), ("y_width", some (shown c.yWidth)),
    ("x0", some (shown c.left)), ("x1", some (shown c.right)), ("y0", some (shown c.bottom)),
    ("y1", some (shown c.top))]

namespace StatisticKind

/-- The sources that a statistic is written into, in their order. -/
def drawings (p : Plot) : (kind : StatisticKind) → List (Drawing kind.Record)
  | .glm => [Curve.regressionDrawing "stats"]
  | .smooth => [Curve.regressionDrawing "smooth_stats"]
  | .bin => [Bin.drawing]
  | .summary => [Category.meanDrawing p, Category.boundDrawing p]
  | .boxplot => [Category.boxDrawing p, Category.whiskerDrawing p, Category.medianDrawing p]
  | .density => [Curve.densityDrawing]
  | .violin => [Category.violinDrawing p]
  | .qq => [Curve.quantileDrawing]
  | .bin2d => [Cell.drawing]

/-- Whether the rows of a statistic share the color scale of the observations: colors group, and
every group has a label.  Boxes and cells have colors of their own. -/
def SharesColor (p : Plot) (kind : StatisticKind) : Prop :=
  kind ≠ .boxplot ∧ kind ≠ .bin2d ∧ p.grouped = true ∧
    ∀ r ∈ p.statistics.records kind, p.Labelled (Grouped.group r)

/-- A row shows its place in a record: the record has all values there, and the row has them too; it
has the group but for cells, and the label of the group exactly where the color scale is shared. -/
structure Draws (p : Plot) (kind : StatisticKind) (d : Drawing kind.Record)
    (place : kind.Record × Nat) (row : Value) : Prop where
  fields : ∀ f ∈ d.fields place.1 place.2, ∃ v, f.2 = some v ∧ row.get? f.1 = some v
  group : kind ≠ .bin2d → row.get? "group" = some (.int (Grouped.group place.1))
  color : kind.SharesColor p → ∃ label, p.grouping.labels[Grouped.group place.1 - 1]? = some label ∧
    row.get? "color" = some (.str label)
  plain : ¬ kind.SharesColor p → row.get? "color" = none

/-- A source has the rows of a drawing, for the records of the plot in their order. -/
def Drawn (p : Plot) (kind : StatisticKind) (d : Drawing kind.Record) (source : Value) : Prop :=
  Names d.source source ∧ ∃ rows, source.get? "values" = some (.list rows) ∧
    List.Forall₂ (kind.Draws p d) (d.places (p.statistics.records kind)) rows

end StatisticKind

/-! ## 2. Rows -/

theorem get?_obj_append_of_ne {xs ys : List (String × Value)} {key : String}
    (h : ∀ f ∈ xs, f.1 ≠ key) : (Value.obj (xs ++ ys)).get? key = (Value.obj ys).get? key := by
  induction xs with
  | nil => rfl
  | cons f xs ih =>
    obtain ⟨k, v⟩ := f
    rw [List.cons_append, Value.get?_obj_cons, if_neg (h (k, v) List.mem_cons_self)]
    exact ih fun g hg => h g (List.mem_cons_of_mem _ hg)

section

variable {c : Coloring} {p : Plot} {g : Nat} {fields : List (String × Value)}

theorem get?_row_group (h : ∀ f ∈ fields, f.1 ≠ "group") :
    (c.row p g fields).get? "group" = some (.int g) := by
  rw [Coloring.row, List.append_assoc, get?_obj_append_of_ne]
  · rfl
  · intro f hf
    obtain ⟨e, he, rfl⟩ := List.mem_map.mp hf
    exact h e he

theorem get?_row_color (h : ∀ f ∈ fields, f.1 ≠ "color") :
    (c.row p g fields).get? "color" =
      if c.isShared then some (((p.groupColor? g).map Value.str).getD .null) else none := by
  rw [Coloring.row, get?_obj_append_of_ne]
  · cases c.isShared <;> rfl
  · intro f hf
    rcases List.mem_append.mp hf with hf | hf
    · obtain ⟨e, he, rfl⟩ := List.mem_map.mp hf
      exact h e he
    · obtain rfl := List.mem_singleton.mp hf
      show "group" ≠ "color"
      decide

end

theorem exists_groupColor? {p : Plot} {g : Nat} (hp : p.grouped = true) (hg : p.Labelled g) :
    ∃ label, p.grouping.labels[g - 1]? = some label ∧ p.groupColor? g = some label := by
  have hlt : g - 1 < p.grouping.labels.length := by
    have := hg.1
    have := hg.2
    omega
  have hone : (1 : Int) ≤ g := by exact_mod_cast hg.1
  refine ⟨p.grouping.labels[g - 1], List.getElem?_eq_getElem hlt, ?_⟩
  exact (Plot.colorAt?_eq hp hone).trans (List.getElem?_eq_getElem hlt)

namespace Drawing

/-- Fields of a row that hold what is drawn at a place of a record, and neither a group nor a
color. -/
structure Fills {ρ : Type} (d : Drawing ρ) (r : ρ) (i : Nat) (fields : List (String × Value)) :
    Prop where
  own : ∀ f ∈ fields, f.1 ≠ "group" ∧ f.1 ≠ "color"
  shows : ∀ f ∈ d.fields r i, ∃ v, f.2 = some v.plain ∧ (Value.obj fields).get? f.1 = some v

/-- The rows of one record in a coloring, as many as are drawn and each for its place. -/
structure Lays {ρ : Type} [Grouped ρ] (d : Drawing ρ) (c : Coloring) (p : Plot) (r : ρ)
    (rows : List Value) : Prop where
  length : rows.length = d.rows r
  row : ∀ i v, rows[i]? = some v → ∃ fields, d.Fills r i fields ∧
    v = c.row p (Grouped.group r) fields

-- Related row by row within every record, the rows are related as a whole.
theorem forall₂_places {ρ : Type} {d : Drawing ρ} {R : ρ × Nat → Value → Prop}
    {rows : ρ → List Value} {records : List ρ} (hlength : ∀ r ∈ records, (rows r).length = d.rows r)
    (hrow : ∀ r ∈ records, ∀ i v, (rows r)[i]? = some v → R (r, i) v) :
    List.Forall₂ R (d.places records) (records.flatMap rows) := by
  induction records with
  | nil => exact List.Forall₂.nil
  | cons r records ih =>
    rw [places, List.flatMap_cons, List.flatMap_cons]
    refine List.rel_append ?_ (ih (fun r hr => hlength r (List.mem_cons_of_mem _ hr))
      fun r hr => hrow r (List.mem_cons_of_mem _ hr))
    rw [List.forall₂_iff_get]
    have hr := hlength r List.mem_cons_self
    refine ⟨by rw [List.length_map, List.length_range, hr], fun i hplace hi => ?_⟩
    simp only [List.get_eq_getElem, List.getElem_map, List.getElem_range]
    exact hrow r List.mem_cons_self i _ (List.getElem?_eq_getElem hi)

end Drawing

section

variable {kind : StatisticKind} {c : Coloring} {p : Plot} {d : Drawing kind.Record}

theorem isShared_choose_iff_sharesColor {groups : List Nat} {color : String}
    (hbox : kind ≠ .boxplot) (hcell : kind ≠ .bin2d)
    (hgroups : groups = (p.statistics.records kind).map Grouped.group) :
    (Coloring.choose p groups color).isShared = true ↔ kind.SharesColor p := by
  rw [isShared_choose, hgroups, List.forall_mem_map]
  exact ⟨fun h => ⟨hbox, hcell, h⟩, fun h => h.2.2⟩

theorem draws_row {r : kind.Record} {i : Nat} {fields : List (String × Value)}
    (hc : c.isShared = true ↔ kind.SharesColor p) (hr : r ∈ p.statistics.records kind)
    (h : d.Fills r i fields) : kind.Draws p d (r, i) (c.row p (Grouped.group r) fields) where
  fields := by
    intro f hf
    obtain ⟨v, hv, hget⟩ := h.shows f hf
    exact ⟨_, hv, get?_row hget⟩
  group _ := get?_row_group fun f hf => (h.own f hf).1
  color := by
    intro hshares
    obtain ⟨label, hlabel, hcolor⟩ := exists_groupColor? hshares.2.2.1 (hshares.2.2.2 r hr)
    refine ⟨label, hlabel, ?_⟩
    rw [get?_row_color fun f hf => (h.own f hf).2, if_pos (hc.mpr hshares), hcolor]
    rfl
  plain := by
    intro hshares
    rw [get?_row_color fun f hf => (h.own f hf).2, if_neg fun hshared => hshares (hc.mp hshared)]

-- A source whose values are the rows of the records one after the other.
theorem drawn_of_lays {rows : kind.Record → List Value} {source : Value}
    (hc : c.isShared = true ↔ kind.SharesColor p) (hname : Names d.source source)
    (hvalues : source.get? "values" = some (.list ((p.statistics.records kind).flatMap rows)))
    (h : ∀ r ∈ p.statistics.records kind, d.Lays c p r (rows r)) : kind.Drawn p d source := by
  refine ⟨hname, _, hvalues, Drawing.forall₂_places (fun r hr => (h r hr).length) ?_⟩
  intro r hr i v hv
  obtain ⟨fields, hfills, rfl⟩ := (h r hr).row i v hv
  exact draws_row hc hr hfills

-- The same for records that have a single row each.
theorem drawn_of_single {row : kind.Record → Value} {rows : List Value}
    (hrows : rows = (p.statistics.records kind).map row)
    (hone : ∀ r ∈ p.statistics.records kind, d.rows r = 1)
    (h : ∀ r ∈ p.statistics.records kind, kind.Draws p d (r, 0) (row r)) :
    kind.Drawn p d (Fragment.source d.source rows) := by
  refine ⟨rfl, rows, rfl, ?_⟩
  rw [hrows, List.map_eq_flatMap]
  refine Drawing.forall₂_places (fun r hr => (hone r hr).symm) fun r hr i v hv => ?_
  rw [List.getElem?_singleton] at hv
  split at hv
  next hi =>
    obtain rfl := hi
    rw [← Option.some.inj hv]
    exact h r hr
  next => cases hv

end

end PlotScene
