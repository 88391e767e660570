import PlotScene.Layer.Coloring
import PlotScene.Scene.Fragment

/-!
# Layers of categories

Statistics with one result for each category along x: means with their bands, boxes, and violins.  A
category is known by its number, and its label is the one that the observations have for it.
-/

namespace PlotScene

namespace Category

def label (p : Plot) (number : Int) : String :=
  categoryLabel p.xLabels number

/-- The middle of the band of a category, with an offset. -/
def centered (field : String) (offset : List (String × Value) := []) : Value :=
  scaled "xscale" field (("band", .float 0.5) :: offset)

/-! ## 1. Means -/

/-- The x of a mean: the label of the category with this number, or the number itself along a
numeric axis. -/
def meanX (p : Plot) (x : Float) : Value :=
  if p.xNumeric then .float x
  else
    match Double.integer? x with
    | some number => .str (label p number)
    | none => .float x

/-- A point of a curve of means with its bounds. -/
structure Mean where
  x : Float
  y : Float
  lower : Float
  upper : Float

def means (c : SummaryCurve) : List Mean :=
  (c.x.zip c.y).zipWith (fun (x, y) (l, u) => ⟨x, y, l, u⟩) (c.band.lower.zip c.band.upper)

def meanRow (p : Plot) (coloring : Coloring) (group : Nat) (m : Mean) : Value :=
  coloring.row p group [("x", meanX p m.x), ("y", .float m.y)]

/-- The rows of the two bounds of a mean. -/
def boundRows (p : Plot) (coloring : Coloring) (group : Nat) (m : Mean) : List Value :=
  [("lower", m.lower), ("upper", m.upper)].map fun b =>
    coloring.row p group [("x", meanX p m.x), ("y", .float b.2), ("ci_type", .str b.1)]

def meanTooltip : String :=
  "'Categories: ' + datum.x + ', Values: ' + format(datum.y, '.3f')"

def meanPosition (p : Plot) : Value :=
  if p.xNumeric then scaled "xscale" "x" else centered "x"

/-- The source of the bounds, with one row for each mean after both bounds have been joined. -/
def boundSource (coloring : Coloring) (rows : List Value) : Value :=
  let groupBy := ["x", "group"] ++ if coloring.isShared then ["color"] else []
  .obj [("name", .str "summary_ci"), ("values", .list rows),
    ("transform", .list [
      .obj [("type", .str "pivot"), ("field", .str "ci_type"), ("value", .str "y"),
        ("groupby", .strings groupBy)],
      .obj [("type", .str "collect"),
        ("sort", .obj [("field", .str "x"), ("order", .str "ascending")])]])]

def meanBand (p : Plot) (color : Value) : Value :=
  .obj [("type", .str "area"), ("from", .obj [("data", .str "summary_ci")]),
    ("encode", .obj [("enter", .obj [("x", meanPosition p), ("y", scaled "yscale" "lower"),
      ("y2", scaled "yscale" "upper"), ("fill", color), ("fillOpacity", constant (.float 0.2))])])]

def meanLine (p : Plot) (color : Value) : Value :=
  .obj [("type", .str "line"), ("from", .obj [("data", .str "summary_lines")]),
    ("sort", sortBy "x"),
    ("encode", .obj [("enter", .obj [("x", meanPosition p), ("y", scaled "yscale" "y"),
      ("stroke", color), ("strokeWidth", constant (.int 2))])])]

def meanFragment (curves : List SummaryCurve) (p : Plot) (o : Presentation) (s : Style) :
    Fragment :=
  let coloring := Coloring.choose p (curves.map (·.group)) s.markColor
  let color := coloring.encoding "summary_lines"
  let lines := curves.flatMap fun c => (means c).map (meanRow p coloring c.group)
  let bounds := curves.flatMap fun c => (means c).flatMap (boundRows p coloring c.group)
  let domain := unionDomain [("table", "y"), ("summary_lines", "y"), ("summary_ci", "lower"),
    ("summary_ci", "upper")]
  { data := [Fragment.source "summary_lines" lines, boundSource coloring bounds]
    scales := xScale p :: yScale p (some domain) :: coloring.scales s "summary_lines"
    axes := bothAxes o
    marks := [
      groupedMark coloring "summary_bands" "summary_ci_group" "summary_band" "summary_ci"
        (meanBand p color),
      groupedMark coloring "summary_series" "summary_line_group" "summary_line" "summary_lines"
        (withTooltip (meanLine p color) o meanTooltip)] }

/-! ## 2. Boxes -/

def boxHalfWidth : Int := 15

def boxStroke : Value := constant (.str "#333")

/-- The fields that all rows of a box share. -/
def boxFields (p : Plot) (b : Box) : List (String × Value) :=
  [("x", .str (label p b.category)), ("category", .int b.category), ("group", .int b.group)]

def boxRow (p : Plot) (b : Box) : Value :=
  .obj (boxFields p b ++
    [("q1", (Value.float b.lowerQuartile).plain), ("q3", (Value.float b.upperQuartile).plain)])

/-- A whisker from the box to its end. -/
def whiskerRow (p : Plot) (b : Box) (type : String) (start stop : Float) : Value :=
  .obj (boxFields p b ++
    [("y_start", (Value.float start).plain), ("y_end", (Value.float stop).plain),
     ("type", .str type)])

def whiskerRows (p : Plot) (b : Box) : List Value :=
  [whiskerRow p b "lower" b.lowerQuartile b.whiskerLow,
   whiskerRow p b "upper" b.upperQuartile b.whiskerHigh]

def medianRow (p : Plot) (b : Box) : Value :=
  .obj (boxFields p b ++ [("median", (Value.float b.median).plain)])

def medianTooltip : String :=
  "'Category: ' + datum.x + ', Median: ' + format(datum.median, '.3f')"

def whiskerMark : Value :=
  .obj [("name", .str "whiskers"), ("type", .str "rule"),
    ("from", .obj [("data", .str "boxplot_whiskers")]),
    ("encode", .obj [("enter", .obj [("x", centered "x"), ("y", scaled "yscale" "y_start"),
      ("y2", scaled "yscale" "y_end"), ("stroke", boxStroke),
      ("strokeWidth", constant (.int 1))])])]

def boxMark : Value :=
  .obj [("name", .str "boxes"), ("type", .str "rect"),
    ("from", .obj [("data", .str "boxplot_boxes")]),
    ("encode", .obj [("enter", .obj [
      ("x", centered "x" [("offset", .int (-boxHalfWidth))]),
      ("width", constant (.int (boxHalfWidth * 2))),
      ("y", scaled "yscale" "q3"), ("y2", scaled "yscale" "q1"),
      ("fill", scaled "categoryColor" "category"), ("fillOpacity", constant (.float 0.7)),
      ("stroke", boxStroke), ("strokeWidth", constant (.int 1))])])]

def medianMark (o : Presentation) : Value :=
  withTooltip
    (.obj [("name", .str "medians"), ("type", .str "rule"),
      ("from", .obj [("data", .str "boxplot_medians")]),
      ("encode", .obj [("enter", .obj [
        ("x", centered "x" [("offset", .int (-boxHalfWidth))]),
        ("x2", centered "x" [("offset", .int boxHalfWidth)]),
        ("y", scaled "yscale" "median"), ("stroke", constant (.str "#000")),
        ("strokeWidth", constant (.int 2))])])])
    o medianTooltip

def boxDomain : Value :=
  unionDomain [("table", "y"), ("boxplot_boxes", "q1"), ("boxplot_boxes", "q3"),
    ("boxplot_whiskers", "y_start"), ("boxplot_whiskers", "y_end"), ("boxplot_medians", "median")]

/-- Whiskers lie under the boxes and the medians over them. -/
def boxFragment (boxes : List Box) (p : Plot) (o : Presentation) (s : Style) : Fragment where
  data := [Fragment.source "boxplot_boxes" (boxes.map (boxRow p)),
    Fragment.source "boxplot_whiskers" (boxes.flatMap (whiskerRows p)),
    Fragment.source "boxplot_medians" (boxes.map (medianRow p))]
  scales := [bandScale "xscale" (dataRef "boxplot_boxes" "x") "width" bandPadding,
    yScale p (some boxDomain) false,
    ordinalScale s "categoryColor" "boxplot_boxes" "category"]
  axes := bothAxes o
  marks := [whiskerMark, boxMark, medianMark o]

/-! ## 3. Violins -/

def violinRow (p : Plot) (coloring : Coloring) (v : ViolinPoint) : Value :=
  coloring.row p v.group [("category", .str (label p v.category)), ("y", .float v.y),
    ("density", .float v.density), ("left", .float v.left), ("right", .float v.right)]

def violinTooltip : String :=
  "'Category: ' + datum.category + ', Y: ' + format(datum.y, '.3f')" ++
    " + ', Density: ' + format(datum.density, '.6f')"

/-- The scale from half widths to pixels. -/
def violinWidthScale : Value :=
  linearScale "violin_width" (.list [.float (-0.4), .float 0.4]) (.list [.int (-50), .int 50])

def violinArea (color : Value) : Value :=
  .obj [("type", .str "area"), ("from", .obj [("data", .str "violin")]), ("sort", sortBy "y"),
    ("encode", .obj [("enter", .obj [("orient", constant (.str "horizontal")),
      ("x", centered "category" [("offset", scaled "violin_width" "left")]),
      ("x2", centered "category" [("offset", scaled "violin_width" "right")]),
      ("y", scaled "yscale" "y"), ("fill", color), ("fillOpacity", constant (.float 0.7)),
      ("stroke", color), ("strokeWidth", constant (.int 1))])])]

/-- Violins are always drawn one by one, for each category and group. -/
def violinFragment (points : List ViolinPoint) (p : Plot) (o : Presentation) (s : Style) :
    Fragment :=
  let coloring := Coloring.choose p (points.map (·.group)) s.markColor
  let area := withTooltip (violinArea (coloring.encoding "violin")) o violinTooltip
  { data := [Fragment.source "violin" (points.map (violinRow p coloring))]
    scales := bandScale "xscale" (dataRef "violin" "category") "width" bandPadding ::
      yScale p (some (dataRef "violin" "y")) :: violinWidthScale :: coloring.scales s "violin"
    axes := bothAxes o
    marks := [facetMark "violin_plots" "violin_category" "violin"
      (.strings ["category", "group"]) area] }

end Category

end PlotScene
