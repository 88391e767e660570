import PlotScene.Datum
import PlotScene.Scene.Highlight
import PlotScene.Style

/-!
# Legends

A document has a legend when it has the color scale of the observations and the table shows more
than one color.  An interactive legend adds signals for clicks, the source of the selection, and the
rules by which marks react to it.
-/

namespace PlotScene.Legend

/-! ## 1. When there is a legend -/

def isColorScale (scale : Value) : Except Fault Bool := do
  let name ← scale.field "name"
  let type ← scale.field "type"
  return name.same (.str Highlight.colorScaleName) && type.same (.str "ordinal")

/-- Whether one of the scales is the color scale of the observations. -/
def hasColorScale : List Value → Except Fault Bool
  | [] => .ok false
  | scale :: rest => do if ← isColorScale scale then return true else hasColorScale rest

/-- The color of a row, unless it is missing or empty. -/
def rowColor? (row : Value) : Option Value :=
  (row.get? "color").filter fun c => !c.isMissing && !c.same (.str "")

/-- Whether a document with these rows in its table needs a legend. -/
def isNeeded (spec : Value) (rows : List Value) : Except Fault Bool := do
  if ← hasColorScale (← spec.itemsUnder "scales") then
    return 1 < (firsts (← (rows.filterMap rowColor?).mapM Value.key)).length
  else return false

/-! ## 2. What a legend is -/

/-- A legend that does not react. -/
def static : Value :=
  .obj [("fill", .str Highlight.colorScaleName), ("orient", .str "right"), ("padding", .int 10),
    ("cornerRadius", .int 5), ("strokeColor", .str "#ddd"), ("fillColor", .str "#fff"),
    ("title", .str "Color"), ("titlePadding", .int 5), ("titleFontSize", .int 12),
    ("titleFontWeight", .str "bold"), ("labelFontSize", .int 11), ("symbolSize", .int 100),
    ("symbolType", .str "circle")]

/-- Clicks on a symbol or a label of the legend. -/
def clickEvents : String := "@legendSymbol:click, @legendLabel:click"

/-- A signal that an event sets. -/
def signal (name : String) (value : Value) (events update : String) : Value :=
  .obj [("name", .str name), ("value", value),
    ("on", .list [.obj [("events", .str events), ("update", .str update), ("force", .bool true)]])]

/-- The signals of an interactive legend: a click beside everything, whether shift was held, and the
value that was clicked. -/
def signals : List Value :=
  [signal "clear" (.bool true) "pointerup[!event.item]" "true",
   signal "shift" (.bool false) clickEvents "event.shiftKey",
   signal "clicked" .null clickEvents "\x7bvalue: datum.value\x7d"]

def legendTest : String := Highlight.selectionTest "datum.value"

/-- A part of an interactive legend: its name for events, and its channels. -/
def interactivePart (name : String) (update : List (String × Value)) : Value :=
  .obj [("name", .str name), ("interactive", .bool true), ("update", .obj update)]

def interactive : Value :=
  .obj [("fill", .str Highlight.colorScaleName), ("title", .str "Color"), ("orient", .str "right"),
    ("padding", .int 10),
    ("encode", .obj [
      ("symbols", interactivePart "legendSymbol" [
        ("fill", .obj [("value", .str "transparent")]),
        ("strokeWidth", .obj [("value", .int 2)]),
        ("opacity", Highlight.rule legendTest [("value", .float activeOpacity)]
          (.float inactiveOpacity)),
        ("size", .obj [("value", .int 64)])]),
      ("labels", interactivePart "legendLabel" [
        ("opacity", Highlight.rule legendTest [("value", .int 1)] (.float 0.25))])])]

/-! ## 3. Documents with a legend -/

/-- The padding of a document, or that of the style where it has none, widened for a legend. -/
def widened (spec : Value) (s : Style) : Except Fault Value := do
  let given ← spec.field "padding"
  let padding := if ← given.truthy then given else s.padding false
  if padding.isMap then return padding.set "right" (.int s.legendPaddingRight)
  else throw .wrongType

/-- Adds a legend that reacts to clicks. -/
def addInteractive (spec : Value) (s : Style) : Except Fault Value := do
  let present ← spec.itemsUnder "signals"
  let data ← spec.itemsUnder "data"
  let marks ← Highlight.marks s.neutralColor (← spec.itemsUnder "marks")
  return spec.setAll [("signals", .list (present ++ signals)),
    ("data", .list (data ++ [selectionSource])), ("legends", .list [interactive]),
    ("marks", .list marks)]

/-- Adds a legend where one is needed. -/
def compose (spec : Value) (rows : List Value) (reacts : Bool) (s : Style) :
    Except Fault Value := do
  if ← isNeeded spec rows then
    let shown ←
      if reacts then addInteractive spec s
      else pure (spec.set "legends" (.list [static]))
    return shown.set "padding" (← widened spec s)
  else return spec

end PlotScene.Legend
