import PlotScene.Layer.Coloring
import PlotScene.Scene.Fragment

/-!
# Layers of binned counts

A histogram draws a bar for each bin, a heat map a rectangle for each cell of a histogram in two
dimensions.  Their axes are fixed by the bins and not by the observations.
-/

namespace PlotScene

namespace Bin

/-! ## 1. Histograms -/

def tooltip : String :=
  "'Bin: [' + format(datum.x_left, '.2f') + ', ' + format(datum.x_right, '.2f') + " ++
    "'), Count: ' + datum.count"

/-- The axes of a histogram: x covers the edges, and y goes from zero to the greatest count. -/
def scales (bins : List BinGroup) : List Value :=
  let xDomain := extent (bins.flatMap (·.edges)) unitInterval
  let top := (extent (bins.flatMap (·.counts)) unitInterval)[1]?.getD (.int 1)
  [linearScale "xscale" (.list xDomain) (.str "width"),
   linearScale "yscale" (.list [.int 0, top]) (.str "height")
     [("nice", .bool true), ("zero", .bool true)]]

/-- One row for each bin of a group, between an edge and the next one. -/
def rows (p : Plot) (coloring : Coloring) (b : BinGroup) : List Value :=
  ((b.centers.zip b.counts).zip (b.edges.zip b.edges.tail)).map
    fun ((center, count), (left, right)) =>
      coloring.row p b.group
        [("x", .float center), ("count", .float count), ("bin_width", .float (right - left)),
         ("x_left", .float left), ("x_right", .float right)]

/-- Bars without a name, which the layer gives them. -/
def bars (color : Value) : Value :=
  .obj [("type", .str "rect"), ("from", .obj [("data", .str "bins")]),
    ("encode", .obj [("enter", .obj [("x", scaled "xscale" "x_left"),
      ("x2", scaled "xscale" "x_right"), ("y", scaled "yscale" "count"), ("y2", zeroBaseline),
      ("fill", color), ("stroke", constant (.str "white")),
      ("strokeWidth", constant (.int 1))])])]

def fragment (bins : List BinGroup) (p : Plot) (o : Presentation) (s : Style) : Fragment :=
  let groups := bins.map (·.group)
  let coloring := Coloring.choose p groups (s.categoricalColors.head?.getD s.markColor)
  let mark := withTooltip (bars (coloring.encoding "bins")) o tooltip
  { data := [Fragment.source "bins" (bins.flatMap (rows p coloring))]
    scales := scales bins ++ coloring.scales s "bins"
    axes := bothAxes o
    marks := [
      if 1 < (firsts groups).length then
        facetMark "histogram_bars" "bin_group_data" "bins" (.str "group") mark
      else named "histogram_bars" mark] }

end Bin

namespace Cell

/-! ## 2. Heat maps -/

/-- The sides of a cell. -/
def left (c : Cell) : Float := c.x - c.xWidth / 2

def right (c : Cell) : Float := c.x + c.xWidth / 2

def bottom (c : Cell) : Float := c.y - c.yWidth / 2

def top (c : Cell) : Float := c.y + c.yWidth / 2

def row (c : Cell) : Value :=
  .obj ([("x", c.x), ("y", c.y), ("count", c.count), ("x_width", c.xWidth), ("y_width", c.yWidth),
    ("x0", c.left), ("x1", c.right), ("y0", c.bottom), ("y1", c.top)].map fun f =>
      (f.1, (Value.float f.2).plain))

def tooltip : String :=
  "'X: ' + format(datum.x, '.2f') + ', Y: ' + format(datum.y, '.2f')" ++
    " + ', Count: ' + datum.count"

/-- The rows of a color map as a value. -/
def colormapValue (rows : List (List Float)) : Value :=
  .list (rows.map fun row => .list (row.map .float))

/-- The color scale of the counts: the colors and limits of the description, where it asks for a
continuous color, or else the palette over the counts. -/
def heatScale (p : Plot) (s : Style) : Except Fault Value := do
  let c := p.continuousColor
  let colormap := if c.active then c.colormap.map colormapValue else none
  let scale := linearScale "heatColor" (dataRef "heatmap_data" "count")
    (.strings (← s.heatColors colormap))
  match if c.active then c.limits else none with
  | some (low, high) =>
      return scale.setAll [("domain", .list [.float low, .float high]), ("clamp", .bool true)]
  | none => return scale

def fragment (cells : List Cell) (p : Plot) (o : Presentation) (s : Style) :
    Except Fault Fragment := do
  let heat ← heatScale p s
  let xDomain := extent (cells.flatMap fun c => [c.left, c.right]) unitInterval
  let yDomain := extent (cells.flatMap fun c => [c.bottom, c.top]) unitInterval
  let mark : Value := .obj [("name", .str "heatmap_cells"), ("type", .str "rect"),
    ("from", .obj [("data", .str "heatmap_data")]),
    ("encode", .obj [("enter", .obj [("x", scaled "xscale" "x0"), ("x2", scaled "xscale" "x1"),
      ("y", scaled "yscale" "y1"), ("y2", scaled "yscale" "y0"),
      ("fill", scaled "heatColor" "count"), ("stroke", constant (.str "white")),
      ("strokeWidth", constant (.float 0.5))])])]
  return {
    data := [Fragment.source "heatmap_data" (cells.map row)]
    scales := [linearScale "xscale" (.list xDomain) (.str "width"),
      linearScale "yscale" (.list yDomain) (.str "height"), heat]
    axes := bothAxes o
    marks := [withTooltip mark o tooltip] }

end Cell

end PlotScene
