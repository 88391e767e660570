import PlotScene.Layer.Coloring
import PlotScene.Scene.Fragment

/-!
# Layers of curves

Statistics over a numeric x: regression and smoothing curves with their confidence bands, density
curves, and pairs of quantiles.
-/

namespace PlotScene

namespace Curve

/-! ## 1. Regression and smoothing -/

/-- The names of the sources and marks of a regression layer. -/
structure Names where
  curve : String
  banded : String
  bands : String
  bandFacet : String
  lines : String
  line : String
  lineFacet : String
  points : String

def regressionNames : Names where
  curve := "stats"
  banded := "confidence_filtered"
  bands := "confidence_areas"
  bandFacet := "ci_group_data"
  lines := "regression_lines"
  line := "regression_line"
  lineFacet := "group_data"
  points := "data_points"

def smoothingNames : Names where
  curve := "smooth_stats"
  banded := "smooth_confidence_filtered"
  bands := "smooth_confidence_areas"
  bandFacet := "smooth_ci_group_data"
  lines := "smooth_lines"
  line := "smooth_line"
  lineFacet := "smooth_group_data"
  points := "smooth_points"

/-- The rows whose confidence band is there. -/
def bandFilter : String := "isValid(datum.ci_lower) && isValid(datum.ci_upper)"

/-- The bounds at each point of a curve, null where it has no band. -/
def bounds (c : RegressionCurve) : List (Value × Value) :=
  match c.band with
  | some b => b.lower.zipWith (fun l u => (.float l, .float u)) b.upper
  | none => c.x.map fun _ => (.null, .null)

/-- One row for each point of a regression curve. -/
def regressionRows (p : Plot) (coloring : Coloring) (c : RegressionCurve) : List Value :=
  ((c.x.zip c.y).zip (bounds c)).map fun ((x, y), (lower, upper)) =>
    coloring.row p c.group
      [("x", .float x), ("regression_y", .float y), ("ci_lower", lower), ("ci_upper", upper)]

/-- The source of the rows that have a confidence band. -/
def bandSource (n : Names) : Value :=
  .obj [("name", .str n.banded), ("source", .str n.curve),
    ("transform", .list [.obj [("type", .str "filter"), ("expr", .str bandFilter)]])]

def bandArea (n : Names) (color : Value) : Value :=
  .obj [("type", .str "area"), ("from", .obj [("data", .str n.banded)]), ("sort", sortBy "x"),
    ("encode", .obj [("enter", .obj [("x", scaled "xscale" "x"),
      ("y", scaled "yscale" "ci_lower"), ("y2", scaled "yscale" "ci_upper"),
      ("fillOpacity", constant (.float 0.2)), ("strokeWidth", constant (.int 0)),
      ("fill", color)])])]

def regressionLine (n : Names) (color : Value) : Value :=
  .obj [("type", .str "line"), ("from", .obj [("data", .str n.curve)]), ("sort", sortBy "x"),
    ("encode", .obj [("enter", .obj [("x", scaled "xscale" "x"),
      ("y", scaled "yscale" "regression_y"), ("strokeWidth", constant (.int 2)),
      ("stroke", color)])])]

/-- The observations behind the curves. -/
def observations (n : Names) (p : Plot) (o : Presentation) (s : Style) : Value :=
  let fill := if p.grouped then scaled "color" "color" else constant (.str s.markColor)
  withTooltip
    (.obj [("name", .str n.points), ("type", .str "symbol"),
      ("from", .obj [("data", .str "table")]),
      ("encode", .obj [("enter", .obj [("x", scaled "xscale" "x"), ("y", scaled "yscale" "y"),
        ("size", constant (.int 50)), ("stroke", constant (.str "white")),
        ("strokeWidth", constant (.int 1)), ("fill", fill)])])])
    o (xyTooltip o p.grouped)

/-- The bands lie under the curves, and the observations over them. -/
def regressionFragment (n : Names) (curves : List RegressionCurve) (p : Plot) (o : Presentation)
    (s : Style) : Fragment :=
  let coloring := Coloring.choose p (curves.map (·.group)) s.markColor
  let color := coloring.encoding n.curve
  let banded := curves.any fun c => c.band.isSome
  let rows := curves.flatMap (regressionRows p coloring)
  let fields := [("table", "y"), (n.curve, "regression_y")] ++
    if banded then [(n.banded, "ci_lower"), (n.banded, "ci_upper")] else []
  { data := Fragment.source n.curve rows :: if banded then [bandSource n] else []
    scales := xScale p :: yScale p (some (unionDomain fields)) ::
      (coloring.scales s n.curve ++
        if p.grouped && !coloring.isShared then [colorScale s] else [])
    axes := bothAxes o
    marks :=
      (if banded then
        [groupedMark coloring n.bands n.bandFacet n.bands n.banded (bandArea n color)] else []) ++
      [groupedMark coloring n.lines n.lineFacet n.line n.curve (regressionLine n color),
        observations n p o s] }

/-! ## 2. Densities -/

def densityTooltip (coloring : Coloring) : String :=
  (if coloring.isShared then "'Group: ' + datum.color + ', Value: '" else "'Value: '") ++
    " + format(datum.x, '.3f') + ', Density: ' + format(datum.y, '.6f')"

def densityRows (p : Plot) (coloring : Coloring) (c : DensityCurve) : List Value :=
  c.x.zipWith (fun x y => coloring.row p c.group [("x", .float x), ("y", .float y)]) c.y

def densityFragment (curves : List DensityCurve) (p : Plot) (o : Presentation) (s : Style) :
    Fragment :=
  let coloring := Coloring.choose p (curves.map (·.group)) s.markColor
  let line : Value := .obj [("type", .str "line"), ("from", .obj [("data", .str "density")]),
    ("sort", sortBy "x"),
    ("encode", .obj [("enter", .obj [("x", scaled "xscale" "x"), ("y", scaled "yscale" "y"),
      ("strokeWidth", constant (.int 2)), ("stroke", coloring.encoding "density"),
      ("fill", constant (.str "transparent"))])])]
  { data := [Fragment.source "density" (curves.flatMap (densityRows p coloring))]
    scales :=
      linearScale "xscale" (dataRef "density" "x") (.str "width") [("nice", .bool true)] ::
      linearScale "yscale" (dataRef "density" "y") (.str "height")
        [("nice", .bool true), ("zero", .bool true)] ::
      coloring.scales s "density"
    axes := bothAxes o
    marks := [groupedMark coloring "density_curves" "density_group_data" "density_curve" "density"
      (withTooltip line o (densityTooltip coloring))] }

/-! ## 3. Quantiles -/

def quantileTooltip (coloring : Coloring) : String :=
  "'Theoretical: ' + format(datum.x, '.3f') + ', Sample: ' + format(datum.y, '.3f')" ++
    if coloring.isShared then " + ', Group: ' + datum.color" else ""

def quantileFragment (points : List QuantilePoint) (p : Plot) (o : Presentation) (s : Style) :
    Fragment :=
  let coloring := Coloring.choose p (points.map (·.group)) s.markColor
  let mark : Value := .obj [("name", .str "qq_points"), ("type", .str "symbol"),
    ("from", .obj [("data", .str "qq")]),
    ("encode", .obj [("enter", .obj [("x", scaled "xscale" "x"), ("y", scaled "yscale" "y"),
      ("size", constant (.int 60)), ("stroke", constant (.str "white")),
      ("strokeWidth", constant (.int 1)), ("fill", coloring.encoding "qq")])])]
  { data := [Fragment.source "qq" (points.map fun q =>
      coloring.row p q.group [("x", .float q.theoretical), ("y", .float q.sample)])]
    scales :=
      linearScale "xscale" (dataRef "qq" "x") (.str "width") [("nice", .bool true)] ::
      linearScale "yscale" (dataRef "qq" "y") (.str "height") [("nice", .bool true)] ::
      coloring.scales s "qq"
    axes := bothAxes o
    marks := [withTooltip mark o (quantileTooltip coloring)] }

end Curve

end PlotScene
