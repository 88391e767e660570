import PlotScene.Numeric.Grid
import PlotScene.Numeric.Sequence
import PlotScene.Plot
import PlotScene.Presentation
import PlotScene.Style

/-!
# Scales and axes

A numeric axis has a linear scale and an axis of categories a band scale.  The domain of a scale
refers to fields of the data, so that it follows them, except where the layer fixes its ends.
-/

namespace PlotScene

/-! ## 1. Domains -/

/-- The values of a field. -/
def dataRef (source field : String) (sorted : Bool := false) : Value :=
  .obj ([("data", .str source), ("field", .str field)] ++
    (if sorted then [("sort", .bool true)] else []))

/-- The values of several fields of data sources. -/
def unionDomain (refs : List (String × String)) : Value :=
  .obj [("fields", .list (refs.map fun r => dataRef r.1 r.2))]

/-- The least and the greatest of the finite numbers. -/
def extent? (xs : List Float) : Option (Float × Float) :=
  let finite := Sequence.finite xs
  (Sequence.least? finite).bind fun low => (Sequence.greatest? finite).map fun high => (low, high)

/-- The ends of a domain that covers the finite numbers, or others where there is none. -/
def extent (xs : List Float) (otherwise : List Value) : List Value :=
  match extent? xs with
  | some (low, high) => [.float low, .float high]
  | none => otherwise

/-- The ends of a domain over nothing. -/
def unitInterval : List Value := [.int 0, .int 1]

/-- The extent of the numbers in a list of values; null does not count. -/
def readExtent (values : List Value) (otherwise : List Value) : Except Fault (List Value) := do
  let g ← (Grid.ofValue (.list (values.filter fun v => !v.isNull))).mapError .number
  return extent g.cells otherwise

/-! ## 2. Scales -/

/-- The space between bands. -/
def bandPadding : Float := 0.1

/-- The space between bands that hold a cluster of bars. -/
def clusterPadding : Float := 0.2

def bandScale (name : String) (domain : Value) (range : String) (padding : Float) : Value :=
  .obj [("name", .str name), ("type", .str "band"), ("domain", domain), ("range", .str range),
    ("padding", .float padding)]

def linearScale (name : String) (domain range : Value) (more : List (String × Value) := []) :
    Value :=
  .obj ([("name", .str name), ("type", .str "linear"), ("domain", domain), ("range", range)] ++
    more)

/-- The scale of a numeric or banded x axis over the table of observations. -/
def xScaleAs (banded : Bool) (padding : Float) : Value :=
  if banded then bandScale "xscale" (dataRef "table" "x" true) "width" padding
  else linearScale "xscale" (dataRef "table" "x") (.str "width")

def xScale (p : Plot) : Value :=
  xScaleAs (!p.xNumeric) bandPadding

/-- The scale of the y axis, over the table or over a domain of its own, which is numeric. -/
def yScale (p : Plot) (domain : Option Value := none) (zero : Bool := true) : Value :=
  let scale := match domain with
    | some d => linearScale "yscale" d (.str "height")
    | none =>
        if p.yNumeric then linearScale "yscale" (dataRef "table" "y") (.str "height")
        else bandScale "yscale" (dataRef "table" "y" true) "height" bandPadding
  scale.setAll [("nice", .bool true), ("zero", .bool zero)]

/-- A scale of categories over the categorical colors. -/
def ordinalScale (s : Style) (name source field : String) : Value :=
  .obj [("name", .str name), ("type", .str "ordinal"), ("domain", dataRef source field),
    ("range", .strings s.categoricalColors)]

/-- The color scale of the observations, which the legend explains. -/
def colorScale (s : Style) : Value :=
  ordinalScale s "color" "table" "color"

/-- The name of the color scale that a source has for its own groups. -/
def groupColorName (source : String) : String := source ++ "GroupColor"

def groupColorScale (s : Style) (source : String) : Value :=
  ordinalScale s (groupColorName source) source "group"

/-- The color scale where observations are grouped. -/
def colorScales (p : Plot) (s : Style) : List Value :=
  if p.grouped then [colorScale s] else []

/-- The scales of a layer over the table. -/
def positionScales (p : Plot) (s : Style) (banded : Bool) : List Value :=
  xScaleAs banded bandPadding :: yScale p :: colorScales p s

/-! ## 3. Axes -/

def axis (orient scale title : String) (more : Value) : Value :=
  (Value.obj [("orient", .str orient), ("scale", .str scale), ("title", .str title)]).merged more

def bottomAxis (p : Presentation) (more : Value := .null) : Value :=
  axis "bottom" "xscale" p.xLabel more

def leftAxis (p : Presentation) (more : Value := .null) : Value :=
  axis "left" "yscale" p.yLabel more

def bothAxes (p : Presentation) : List Value :=
  [bottomAxis p, leftAxis p]

end PlotScene
