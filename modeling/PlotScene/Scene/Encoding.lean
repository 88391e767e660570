import PlotScene.Presentation

/-!
# Encodings

How a channel of a mark gets its value: a constant, a field of the data through a scale, or an
expression.  Tooltips are expressions in which the titles of the axes stand as quoted texts.
-/

namespace PlotScene

/-! ## 1. Channels -/

def constant (v : Value) : Value := .obj [("value", v)]

/-- A field of the data through a scale. -/
def scaled (scale field : String) (more : List (String × Value) := []) : Value :=
  .obj ([("scale", .str scale), ("field", .str field)] ++ more)

def signalRef (expression : String) : Value := .obj [("signal", .str expression)]

/-- The base line of bars and areas. -/
def zeroBaseline : Value := .obj [("scale", .str "yscale"), ("value", .int 0)]

/-- The order in which the points of a line are joined. -/
def sortBy (field : String) : Value := .obj [("field", .str ("datum." ++ field))]

/-- The mapping itself, or an empty mapping in the place of anything else. -/
def mappingOr (v : Value) : Value := if v.isMap then v else .map []

/-! ## 2. Tooltips -/

/-- The characters of a text inside single quotes: a quote or a backslash is written after a
backslash. -/
def escapeQuotes (s : List Char) : List Char :=
  s.flatMap fun c => if c = '\\' ∨ c = '\'' then ['\\', c] else [c]

/-- A text that ends in a colon, as a quoted text of the expression language. -/
def quotedTitle (opening title : String) : String :=
  "'" ++ opening ++ String.ofList (escapeQuotes title.toList) ++ ": '"

/-- A field with three decimals where it is a number, as it is elsewhere. -/
def numberOrText (field : String) : String :=
  "(isNumber(datum." ++ field ++ ") ? format(datum." ++ field ++ ", '.3f') : datum." ++ field ++ ")"

/-- The tooltip of an observation: both coordinates under the titles of the axes, and the color
where colors group. -/
def xyTooltip (p : Presentation) (grouped : Bool) : String :=
  quotedTitle "" p.xLabel ++ " + " ++ numberOrText "x" ++ " + " ++
    quotedTitle ", " p.yLabel ++ " + " ++ numberOrText "y" ++
    (if grouped then " + ', Color: ' + datum.color" else "")

/-- The mark with a tooltip, or with its encodings alone where tooltips are off. -/
def withTooltip (mark : Value) (p : Presentation) (expression : String) : Value :=
  let encode := mappingOr (mark.getD "encode")
  if p.tooltip then
    let update := (mappingOr (encode.getD "update")).set "tooltip" (signalRef expression)
    mark.set "encode" (encode.set "update" update)
  else mark.set "encode" encode

end PlotScene
