import PlotScene.Layer.Coloring
import PlotScene.Scene.Fragment
import PlotScene.Scene.Mark

/-!
# Layers of observations

The geometries draw the rows of the table: points, lines, bars, points that are scattered within a
band, ticks, intervals, reference lines and areas.
-/

namespace PlotScene

namespace GeometryKind

/-! ## 1. Positions -/

/-- The place along x: the number, or the middle of the band of the category. -/
def xPosition (p : Plot) : Value :=
  if p.xNumeric then scaled "xscale" "x" else scaled "xscale" "x" [("band", .float 0.5)]

def xyChannels (p : Plot) : List (String × Value) :=
  [("x", xPosition p), ("y", scaled "yscale" "y")]

/-- The place along x of points that are scattered within their band. -/
def scatterExpression : String :=
  "scale('xscale', datum.x) + bandwidth('xscale')/2 + (random() - 0.5) * bandwidth('xscale') * 0.8"

/-! ## 2. Fragments -/

/-- The fragment of a geometry with one mark at a position. -/
def standardFragment (g : GeometryKind) (channels : List (String × Value)) (p : Plot)
    (o : Presentation) (s : Style) : Fragment where
  scales := positionScales p s (!p.xNumeric)
  axes := bothAxes o
  marks := [assembleMark p o s g { position := .obj channels }]

/-- Lines join the observations in the order of x, one line for each color where colors group. -/
def lineFragment (p : Plot) (o : Presentation) (s : Style) : Fragment :=
  let line := (assembleMark p o s .line { position := .obj (xyChannels p) }).set "sort" (sortBy "x")
  { scales := positionScales p s (!p.xNumeric)
    axes := bothAxes o
    marks :=
      if p.grouped then
        [facetMark "lines" "series" "table" (.str "color") (line.without "name")]
      else [line] }

/-- The scale of the bars within one cluster. -/
def clusterScale : Value :=
  .obj [("name", .str "pos"), ("type", .str "band"), ("range", .str "width"),
    ("domain", dataRef "facet" "color")]

/-- The bars of one color at their place in a cluster. -/
def clusteredBars (p : Plot) (o : Presentation) (s : Style) : Value :=
  assembleMark p o s .bar {
    source := "facet"
    position := .obj [("x", scaled "pos" "color"),
      ("width", .obj [("scale", .str "pos"), ("band", .int 1)]),
      ("y", scaled "yscale" "y"), ("y2", zeroBaseline)] }

/-- Bars that fill their band. -/
def plainBars (p : Plot) (o : Presentation) (s : Style) : Value :=
  assembleMark p o s .bar {
    position := .obj [("x", scaled "xscale" "x"),
      ("width", .obj [("scale", .str "xscale"), ("band", .int 1)]),
      ("y", scaled "yscale" "y"), ("y2", zeroBaseline)] }

/-- Bars stand in a cluster for each x where colors group. -/
def barFragment (p : Plot) (o : Presentation) (s : Style) : Fragment where
  scales := xScaleAs true clusterPadding :: (yScale p).set "round" (.bool true) :: colorScales p s
  axes := [
    bottomAxis o (.obj [("tickSize", .int 0), ("labelPadding", .int 4), ("zindex", .int 1)]),
    leftAxis o]
  marks :=
    if p.grouped then
      [.obj [("name", .str "bar_groups"), ("type", .str "group"),
        ("from", .obj [("facet",
          .obj [("data", .str "table"), ("name", .str "facet"), ("groupby", .str "x")])]),
        ("encode", .obj [("enter", .obj [("x", scaled "xscale" "x")])]),
        ("signals", .list
          [.obj [("name", .str "width"), ("update", .str "bandwidth('xscale')")]]),
        ("scales", .list [clusterScale]),
        ("marks", .list [clusteredBars p o s])]]
    else [plainBars p o s]

/-- Points that are scattered within the band of their x. -/
def scatteredFragment (g : GeometryKind) (xAxisOptions : Value) (p : Plot) (o : Presentation)
    (s : Style) : Fragment where
  scales := positionScales p s true
  axes := [bottomAxis o xAxisOptions, leftAxis o]
  marks := [assembleMark p o s g {
    position := .obj [("y", scaled "yscale" "y")]
    update := .obj [("x", signalRef scatterExpression)] }]

/-- Ticks along x alone. -/
def rasterFragment (p : Plot) (o : Presentation) (s : Style) : Fragment where
  scales := xScale p :: colorScales p s
  axes := [bottomAxis o]
  marks := [assembleMark p o s .raster { position := .obj [
    ("x", xPosition p), ("y", constant (.int 0)), ("height", signalRef "height")] }]

/-- The fields of the lower and upper ends of intervals; without both columns an interval has no
length. -/
def intervalFields (a : Aesthetics) : String × String :=
  if a.ymin.isSome && a.ymax.isSome then ("ymin", "ymax") else ("y", "y")

def intervalFragment (p : Plot) (o : Presentation) (s : Style) : Fragment :=
  let (low, high) := intervalFields p.aesthetics
  { scales :=
      xScale p :: yScale p (some (unionDomain [("table", "y"), ("table", low), ("table", high)])) ::
        colorScales p s
    axes := bothAxes o
    marks := [assembleMark p o s .interval { position := .obj [
      ("x", xPosition p), ("y", scaled "yscale" low), ("y2", scaled "yscale" high)] }] }

/-- The fragment of each geometry. -/
def fragment (g : GeometryKind) (p : Plot) (o : Presentation) (s : Style) : Fragment :=
  match g with
  | .point => standardFragment .point (xyChannels p) p o s
  | .line => lineFragment p o s
  | .bar => barFragment p o s
  | .jitter => scatteredFragment .jitter .null p o s
  | .swarm =>
      scatteredFragment .swarm (.obj [("labelAngle", .int 0), ("labelFontSize", .int 12)]) p o s
  | .raster => rasterFragment p o s
  | .interval => intervalFragment p o s
  | .abline => standardFragment .abline (xyChannels p) p o s
  | .vline =>
      standardFragment .vline
        [("x", xPosition p), ("y", constant (.int 0)), ("y2", signalRef "height")] p o s
  | .hline =>
      standardFragment .hline
        [("x", constant (.int 0)), ("x2", signalRef "width"), ("y", scaled "yscale" "y")] p o s
  | .polygon => standardFragment .polygon (xyChannels p ++ [("y2", zeroBaseline)]) p o s

end GeometryKind

end PlotScene
