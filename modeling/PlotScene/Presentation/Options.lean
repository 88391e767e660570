import PlotScene.Plot
import PlotScene.Presentation
import PlotScene.Settings
import PlotScene.Value.Shape

/-!
# Output options

Options come as a mapping or as a list in which names and values alternate.  Of several values for
one name the last one counts, and an unknown name is ignored.  What the options leave open is taken
from the plot, and what the plot leaves open from the settings.
-/

namespace PlotScene

/-! ## 1. Names and values -/

abbrev NamedValues := List (String × Value)

namespace NamedValues

/-- Takes two items at a time; an odd item at the end has no value, and the message shows it. -/
def pairUp : List Value → Except Fault (List (Value × Value))
  | [] => .ok []
  | [name] =>
      if name.hasText then .error (.configuration (.optionWithoutValue name))
      else .error .unusable
  | name :: value :: rest => do return (name, value) :: (← pairUp rest)

/-- Asks every name to be a text; positions count from one. -/
def requireTexts : Nat → List (Value × Value) → Except Fault NamedValues
  | _, [] => .ok []
  | position, (name, value) :: rest =>
      match name with
      | .str s => do return (s, value) :: (← requireTexts (position + 1) rest)
      | other => .error (.configuration (.optionNameNotText position other.typeName))

/-- Reads options in either form. -/
def read (options : Value) : Except Fault NamedValues :=
  match options with
  | .null => .ok []
  | .map es => requireTexts 1 (es.map fun e => (.scalar e.1, e.2))
  | .str _ => .error (.configuration .optionsNotPairs)
  | options => do requireTexts 1 (← pairUp (← options.iterate))

/-- The last value under a name. -/
def last? (options : NamedValues) (name : String) : Option Value :=
  (options.reverse.find? fun o => o.1 == name).map Prod.snd

end NamedValues

/-! ## 2. Dimensions and flags -/

/-- The text of a dimension: a positive finite number, a whole one without a fraction. -/
def dimension? : Value → Option String
  | .bool _ => none
  | v => (Decimal.read? (Text.strip v.text)).bind fun x =>
      if x.isFinite && 0 < x then some (Scalar.float x).label else none

/-- The text of a dimension, or the fallback where the value is none. -/
def dimensionOr (v : Value) (fallback : String) : String :=
  (dimension? v).getD fallback

def trueWords : List String := ["true", "1", "yes", "on"]

def falseWords : List String := ["false", "0", "no", "off"]

/-- A flag: a truth value, a number, or a word in any case. -/
def flag? : Value → Option Bool
  | .bool b => some b
  | .int n => some (n != 0)
  | .float x => some (x != 0)
  | v =>
      let word := Text.lower (Text.strip v.text)
      if trueWords.contains word then some true
      else if falseWords.contains word then some false
      else none

def flagText (b : Bool) : String := if b then "true" else "false"

/-- Reads a flag.  Whatever is no scalar is read through its text. -/
def readFlag (v : Value) : Except Fault (Option Bool) :=
  match v with
  | .scalar _ => .ok (flag? v)
  | v => if v.hasText then .ok (flag? v) else .error .unusable

/-- The text of a flag, or the fallback where the value is none. -/
def flagOr (v : Value) (fallback : String) : String :=
  ((flag? v).map flagText).getD fallback

/-! ## 3. Presentations from options -/

namespace Presentation

/-- A dimension from an option, from the figure of the plot, or from the text of the settings. -/
def chooseDimension (option figure : Option Value) (base : String) : String :=
  let fallback := (figure.map fun f => dimensionOr f base).getD base
  dimensionOr (option.getD (.str fallback)) fallback

/-- A text from an option, from the plot, or the given one. -/
def chooseText (option inPlot : Option Value) (otherwise : String) : Except Fault String :=
  match option <|> inPlot with
  | some v => v.text?
  | none => .ok otherwise

/-- A flag from an option that can be read as one. -/
def chooseFlag (option : Option Value) (otherwise : Bool) : Except Fault Bool :=
  match option with
  | some v => (readFlag v).map (·.getD otherwise)
  | none => .ok otherwise

/-- The presentation that options, a plot and the settings give. -/
def ofNamedValues (s : Settings) (options : NamedValues) (plot : Option Plot) :
    Except Fault Presentation := do
  let baseWidth ← (Value.int s.defaultWidth).text?
  let baseHeight ← (Value.int s.defaultHeight).text?
  let interactive ← chooseFlag (options.last? "interactive") false
  let tooltip ← chooseFlag (options.last? "tooltip") true
  let fileName ← chooseText (options.last? "file_name") none "untitled"
  let exportPath ← chooseText (options.last? "export_path") none "./"
  let xLabel ← chooseText (options.last? "x") (plot.bind Plot.xLabel) "x-axis"
  let yLabel ← chooseText (options.last? "y") (plot.bind Plot.yLabel) "y-axis"
  let title ← chooseText (options.last? "title") none untitled
  return {
    fileName := fileName
    exportPath := exportPath
    xLabel := xLabel
    yLabel := yLabel
    title := title
    width := chooseDimension (options.last? "width") (plot.bind Plot.figureWidth) baseWidth
    height := chooseDimension (options.last? "height") (plot.bind Plot.figureHeight) baseHeight
    interactive := interactive
    tooltip := tooltip }

def ofOptions (s : Settings) (options : Value) (plot : Option Plot) :
    Except Fault Presentation := do
  ofNamedValues s (← NamedValues.read options) plot

end Presentation

end PlotScene
