import PlotScene.Numeric.Grid
import PlotScene.Plot
import PlotScene.Statistic.Normalize

/-!
# Reading descriptions

A description is a mapping with the columns of observations under `aes`, the layers under `geoms`,
the results of statistics under `results`, and optional entries for a continuous color, the figure
and the labels.  A part that has no truth counts as absent.
-/

namespace PlotScene

/-! ## 1. Columns -/

/-- The entries of a column: the items of a list, or a single value as the only entry. -/
def columnOf? : Value → Option (List Value)
  | .null => none
  | .list vs => some vs
  | .column vs => some vs
  | .array _ cells => some (cells.map .float)
  | .map es => some (es.map fun e => .scalar e.1)
  | v => some [v]

/-- An optional column; an empty one is none. -/
def optionalColumn (column : Option (List Value)) : Option (List Value) :=
  column.filter fun vs => !vs.isEmpty

/-- Refuses a column that is neither empty nor as long as the column of `x`. -/
def requireLength (name : String) (x : List Value) (column : Option (List Value)) :
    Except Fault Unit :=
  match optionalColumn column with
  | none => .ok ()
  | some vs =>
      if vs.length = x.length then .ok ()
      else .error (.configuration (.aestheticLength name vs.length x.length))

def Aesthetics.read (raw : Value) : Except Fault Aesthetics := do
  let x := (columnOf? (← raw.field "x")).getD []
  let y := (columnOf? (← raw.field "y")).getD []
  let color := columnOf? (← raw.field "color")
  let size := columnOf? (← raw.field "size")
  let shape := columnOf? (← raw.field "shape")
  let ymin := columnOf? (← raw.field "ymin")
  let ymax := columnOf? (← raw.field "ymax")
  if y ≠ [] ∧ x.length ≠ y.length then
    throw (.configuration (.coordinateLengths x.length y.length))
  requireLength "color" x color
  requireLength "size" x size
  requireLength "shape" x shape
  requireLength "ymin" x ymin
  requireLength "ymax" x ymax
  return ⟨x, y, optionalColumn color, optionalColumn size, optionalColumn shape,
    optionalColumn ymin, optionalColumn ymax⟩

/-! ## 2. Continuous color -/

def double (v : Value) : Except Fault Float :=
  v.toDouble.mapError .number

/-- The rows of a color map; an empty one is none. -/
def readColormap (v : Value) : Except Fault (Option (List (List Float))) := do
  if v.isNull then return none
  if (← v.length) = 0 then return none
  return some (← (← v.iterate).mapM fun row => do (← row.iterate).mapM double)

/-- The limits of a color scale: exactly two finite numbers. -/
def readLimits (v : Value) : Except Fault (Option (Float × Float)) := do
  if v.isNull then return none
  if (← v.length) ≠ 2 then return none
  let low ← double (← v.item 0)
  let high ← double (← v.item 1)
  return if low.isFinite && high.isFinite then some (low, high) else none

/-- Reads the options of a continuous color; it is active only where they say so. -/
def ContinuousColor.read (options : Value) : Except Fault ContinuousColor := do
  if !(← options.truthy) then return {}
  if !(← (← options.field "active").truthy) then return {}
  let limits ← options.field "limits"
  let limits := (options.get? "CLim").getD limits
  let colormap ← readColormap (← options.field "colormap")
  return ⟨true, colormap, ← readLimits limits⟩

/-! ## 3. Layers and statistics -/

/-- The kind that a value names, if it is a text that names one. -/
def LayerKind.ofValue? : Value → Option LayerKind
  | .str s => LayerKind.parse s
  | _ => none

/-- The geometry that a value names. -/
def GeometryKind.ofValue? (v : Value) : Option GeometryKind :=
  match LayerKind.ofValue? v with
  | some (.geometry g) => some g
  | _ => none

/-- The geometries that a list of layers names, each once. -/
def readGeometries (layers : Value) : Except Fault (List GeometryKind) := do
  if ← layers.truthy then return firsts ((← layers.iterate).filterMap GeometryKind.ofValue?)
  else return []

/-- Whether a result holds anything: a container with items, or any other value that is true. -/
def hasContent (v : Value) : Except Fault Bool :=
  match v with
  | .map es => .ok !es.isEmpty
  | .list vs => .ok !vs.isEmpty
  | .array _ _ => do return (← v.length) ≠ 0
  | v => v.truthy

/-- What the results of a description contribute to a plot. -/
structure Results where
  declared : List GeometryKind
  statistics : Statistics := .empty
  notices : List Notice := []

namespace Results

/-- Adds a geometry that is not yet there. -/
def declare (r : Results) (g : GeometryKind) : Results :=
  if r.declared.contains g then r else { r with declared := r.declared ++ [g] }

/-- Adds what was read of a statistic; without records the statistic stays as it was. -/
def add (r : Results) (kind : StatisticKind) (n : Normalized kind.Record) : Results :=
  let noted := { r with notices := r.notices ++ n.notices }
  if n.records.isEmpty then noted
  else { noted with statistics := r.statistics.put kind n.records }

/-- Reads one result by its name.  A geometry with a result is a layer of the plot. -/
def readEntry (observationX : Value) (r : Results) (name : Scalar) (raw : Value) :
    Except Fault Results :=
  match LayerKind.ofValue? (.scalar name) with
  | none => .ok r
  | some kind => do
      if ← hasContent raw then
        match kind with
        | .geometry g => return r.declare g
        | .statistic s => return r.add s (← normalize s raw observationX)
      else return r

def read (observationX : Value) : Entries → Results → Except Fault Results
  | [], r => .ok r
  | (name, raw) :: rest, r => do read observationX rest (← readEntry observationX r name raw)

end Results

/-! ## 4. Whole descriptions -/

/-- The entries of a mapping; nothing else has entries. -/
def entriesOf (v : Value) : Except Fault Entries :=
  match v with
  | .map es => .ok es
  | other => .error (.noFields other.typeName)

def optionOf (v : Value) : Option Value :=
  if v.isNull then none else some v

/-- Reads a description.  The observations along x serve the interpolation of confidence bands where
they are numeric. -/
def Plot.ofDescription (description : Value) : Except Fault Plot := do
  let aesthetics ← Aesthetics.read (← (← description.field "aes").orEmpty)
  let grouping ← Grouping.read aesthetics.color
  let continuousColor ←
    ContinuousColor.read (← description.field "continuous_color_options")
  let declared ← readGeometries (← description.field "geoms")
  let observationX : Value :=
    if !aesthetics.x.isEmpty && Value.allNumeric aesthetics.x then .list aesthetics.x else .null
  let results ← entriesOf (← (← description.field "results").orEmpty)
  let r ← Results.read observationX results { declared := declared }
  let figure ← (← description.field "figure").orEmpty
  let labels ← (← description.field "labels").orEmpty
  return {
    aesthetics := aesthetics
    grouping := grouping
    continuousColor := continuousColor
    statistics := r.statistics
    declared := r.declared.map .geometry
    figureWidth := optionOf (← (← figure.field "width").orNull)
    figureHeight := optionOf (← (← figure.field "height").orNull)
    xLabel := optionOf (← (← labels.field "x").orNull)
    yLabel := optionOf (← (← labels.field "y").orNull)
    notices := r.notices }

end PlotScene
