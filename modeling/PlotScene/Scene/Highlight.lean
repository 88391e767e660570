import PlotScene.Scene.Selection

/-!
# Highlighting the selection

With an interactive legend every mark that shows the color scale reacts to the selection: what is
not selected fades and loses its color.  Marks are changed at every depth.
-/

namespace PlotScene.Highlight

/-- The test whether a field holds a selected value, or nothing is selected. -/
def selectionTest (field : String) : String :=
  "!length(data('" ++ selectedName ++ "')) || indata('" ++ selectedName ++ "', 'value', " ++
    field ++ ")"

/-- The name of the scale that a legend explains. -/
def colorScaleName : String := "color"

/-- A channel that has one value where a test holds and another one elsewhere. -/
def rule (test : String) (chosen : List (String × Value)) (otherwise : Value) : Value :=
  .list [.obj (("test", .str test) :: chosen), .obj [("value", otherwise)]]

def markTest : String := selectionTest "datum.color"

def opacityRule : Value :=
  rule markTest [("value", .float activeOpacity)] (.float inactiveOpacity)

def colorRule (neutral : String) : Value :=
  rule markTest [("scale", .str colorScaleName), ("field", .str "color")] (.str neutral)

/-- Whether an encoding goes through the color scale. -/
def usesColorScale (encoding : Value) : Bool :=
  (encoding.getD "scale").same (.str colorScaleName)

/-- The channels of a mark that show the color scale. -/
def coloredChannels (enter : Value) : List String :=
  ["fill", "stroke"].filter fun channel => usesColorScale (enter.getD channel)

/-- Writes the rules of a channel. -/
def withRules (neutral : String) (update : Value) (channel : String) : Value :=
  (update.set "opacity" opacityRule).set channel (colorRule neutral)

/-- The encodings of a mark with the rules for its colored channels. -/
def encode (neutral : String) (encoding : Value) : Except Fault Value :=
  match coloredChannels (encoding.getD "enter") with
  | [] => .ok encoding
  | channels =>
      let update := (encoding.get? "update").getD (.map [])
      if update.isMap then
        .ok (encoding.set "update" (channels.foldl (withRules neutral) update))
      else .error .wrongType

mutual

/-- A mark with the rules at every depth. -/
def mark (neutral : String) : Value → Except Fault Value
  | .map es => do return .map (← entries neutral es)
  | other => .error (.noFields other.typeName)

def entries (neutral : String) : List (Scalar × Value) → Except Fault (List (Scalar × Value))
  | [] => .ok []
  | (k, v) :: es => do
      let here ←
        if k.same (.str "encode") then encode neutral v
        else if k.same (.str "marks") then children neutral v
        else pure v
      let rest ← entries neutral es
      return (k, here) :: rest

def children (neutral : String) : Value → Except Fault Value
  | .list vs => do return .list (← marks neutral vs)
  | other => do
      match ← other.iterate with
      | [] => return other
      | v :: _ => throw (.noFields v.typeName)

/-- Marks with the rules at every depth. -/
def marks (neutral : String) : List Value → Except Fault (List Value)
  | [] => .ok []
  | v :: vs => do
      let first ← mark neutral v
      let rest ← marks neutral vs
      return first :: rest

end

end PlotScene.Highlight
