import PlotScene.LayerKind
import PlotScene.Plot
import PlotScene.Scene.Encoding
import PlotScene.Style

/-!
# Marks

A mark draws one shape for each row of its data.  The geometries differ in the type of their mark,
in constant channels, and in the channel that carries the color.
-/

namespace PlotScene

/-- How a geometry is colored: a channel carries the color of the observation, the stroke has the
color of reference lines, or no channel depends on anything. -/
inductive MarkColor where
  | channel (name : String)
  | reference
  | fixed
deriving DecidableEq, Repr

structure MarkStyle where
  name : String
  type : String
  color : MarkColor
  constants : List (String × Value) := []
  tooltip : Bool := false

/-- The style of the mark of each geometry. -/
def GeometryKind.markStyle : GeometryKind → MarkStyle
  | .point => {
      name := "points", type := "symbol", color := .channel "fill", tooltip := true
      constants := [("size", .int 60), ("stroke", .str "white"), ("strokeWidth", .int 1)] }
  | .jitter => {
      name := "jitteredPoints", type := "symbol", color := .channel "fill", tooltip := true
      constants := [("size", .int 60), ("stroke", .str "white"), ("strokeWidth", .int 1)] }
  | .swarm => {
      name := "swarmPoints", type := "symbol", color := .channel "fill", tooltip := true
      constants := [("size", .int 80), ("stroke", .str "white"), ("strokeWidth", .int 1)] }
  | .line => {
      name := "lines", type := "line", color := .channel "stroke", tooltip := true
      constants := [("strokeWidth", .int 2)] }
  | .bar => { name := "bars", type := "rect", color := .channel "fill", tooltip := true }
  | .raster => {
      name := "ticks", type := "rect", color := .channel "fill"
      constants := [("width", .int 2)] }
  | .interval => {
      name := "errorbars", type := "rule", color := .channel "stroke"
      constants := [("strokeWidth", .int 2)] }
  | .abline => {
      name := "abline", type := "line", color := .reference
      constants := [("strokeWidth", .int 2), ("strokeDash", .list [.int 5, .int 5])] }
  | .vline => {
      name := "vlines", type := "rule", color := .reference
      constants := [("strokeWidth", .int 1), ("strokeDash", .list [.int 3, .int 3])] }
  | .hline => {
      name := "hlines", type := "rule", color := .reference
      constants := [("strokeWidth", .int 1), ("strokeDash", .list [.int 3, .int 3])] }
  | .polygon => {
      name := "polygons", type := "area", color := .fixed
      constants := [("fill", .str "#cccccc"), ("fillOpacity", .float 0.3)] }

/-- The geometry of a layer; a statistic has no mark style. -/
def LayerKind.asGeometry : LayerKind → Except Fault GeometryKind
  | .geometry g => .ok g
  | .statistic _ => .error .missingKey

/-- The color of an observation: through the color scale where colors group, or the mark color. -/
def colorEncoding (p : Plot) (s : Style) : Value :=
  if p.grouped then scaled "color" "color" else constant (.str s.markColor)

/-- What a layer decides about the mark of its geometry: the position, the data that it reads, what
changes after drawing, another name, and channels of its own. -/
structure MarkParts where
  position : Value
  source : String := "table"
  update : Value := .null
  name : String := ""
  overrides : Value := .null

/-- The color channel of a mark style, if it has one. -/
def MarkColor.channels (c : MarkColor) (p : Plot) (s : Style) : List (String × Value) :=
  match c with
  | .channel name => [(name, colorEncoding p s)]
  | .reference => [("stroke", constant (.str s.referenceColor))]
  | .fixed => []

/-- The channels that a mark has from the start: the position, then constants, color and overrides,
each later one in the place of an earlier one of its name. -/
def enterChannels (p : Plot) (s : Style) (style : MarkStyle) (parts : MarkParts) : Value :=
  (parts.position.setAll ((style.constants.map fun c => (c.1, constant c.2)) ++
    style.color.channels p s)).merged parts.overrides

/-- The mark of a geometry. -/
def assembleMark (p : Plot) (presentation : Presentation) (s : Style) (g : GeometryKind)
    (parts : MarkParts) : Value :=
  let style := g.markStyle
  let enter := enterChannels p s style parts
  let encode : List (String × Value) := if parts.update.entries.isEmpty then [("enter", enter)]
    else [("enter", enter), ("update", parts.update)]
  let mark : Value := .obj
    [("name", .str (if parts.name = "" then style.name else parts.name)), ("type", .str style.type),
     ("from", .obj [("data", .str parts.source)]), ("encode", .obj encode)]
  if style.tooltip then withTooltip mark presentation (xyTooltip presentation p.grouped) else mark

end PlotScene
