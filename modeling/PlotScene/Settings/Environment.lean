import PlotScene.Decimal.Reading
import PlotScene.Fault
import PlotScene.Firsts
import PlotScene.Settings

/-!
# Settings from the environment

An environment variable sets the field of the same name when its name begins with `VEGAGRAM_`,
whatever the case of its letters.  Other variables are ignored; a text that a field cannot hold is
refused.
-/

namespace PlotScene

namespace Settings

/-! ## 1. Texts as values -/

/-- The whole part of a number that ends in a point and nothing but zeros. -/
def dropZeroFraction (s : List Char) : List Char :=
  match s.dropWhile (· ≠ '.') with
  | '.' :: fraction => if fraction.all (· == '0') then s.takeWhile (· ≠ '.') else s
  | _ => s

/-- The value of ASCII digits with single underscores between them. -/
def digits? (s : List Char) : Option Nat :=
  let digits := s.filter (· ≠ '_')
  if Decimal.underscoresInside s && !digits.isEmpty && digits.all Char.isDigit then
    some (Decimal.natOfDigits digits)
  else none

/-- The most characters that a whole number may have. -/
def maxIntegerLength : Nat := 4300

/-- A whole number: blanks around it, a sign, and a fraction of zeros are allowed. -/
def integer? (text : String) : Option Int :=
  let body := Text.trimWhile Decimal.isMargin text.toList
  if maxIntegerLength < body.length then none
  else
    match body with
    | '-' :: rest => (digits? (dropZeroFraction rest)).map fun n => -(n : Int)
    | '+' :: rest => (digits? (dropZeroFraction rest)).map Int.ofNat
    | rest => (digits? (dropZeroFraction rest)).map Int.ofNat

def trueWords : List String := ["1", "on", "t", "true", "y", "yes"]

def falseWords : List String := ["0", "off", "f", "false", "n", "no"]

/-- A truth value is one of a few words in any case. -/
def truth? (text : String) : Option Bool :=
  let word := text.map Char.toLower
  if trueWords.contains word then some true
  else if falseWords.contains word then some false
  else none

/-! ## 2. Fields by name -/

/-- Sets the field with this name from a text, where there is such a field; `none` stands for a
text that the field cannot hold. -/
def assign? (s : Settings) (field text : String) : Option Settings :=
  match field with
  | "app_name" => some { s with appName := text }
  | "debug" => (truth? text).map fun b => { s with debug := b }
  | "log_level" => some { s with logLevel := text }
  | "vega_schema_url" => some { s with schemaUrl := text }
  | "default_width" => (integer? text).map fun n => { s with defaultWidth := n }
  | "default_height" => (integer? text).map fun n => { s with defaultHeight := n }
  | "padding_left" => (integer? text).map fun n => { s with paddingLeft := n }
  | "padding_right" => (integer? text).map fun n => { s with paddingRight := n }
  | "padding_top" => (integer? text).map fun n => { s with paddingTop := n }
  | "padding_bottom" => (integer? text).map fun n => { s with paddingBottom := n }
  | "legend_padding_right" => (integer? text).map fun n => { s with legendPaddingRight := n }
  | "mark_color" => some { s with markColor := text }
  | "neutral_color" => some { s with neutralColor := text }
  | "reference_line_color" => some { s with referenceLineColor := text }
  | "categorical_palette" => some { s with categoricalPalette := text }
  | "continuous_palette" => some { s with continuousPalette := text }
  | "colormap_samples" => (integer? text).map fun n => { s with colormapSamples := n }
  | "vega_js_url" => some { s with viewerUrl := text }
  | "vega_embed_js_url" => some { s with embedUrl := text }
  | "html_renderer" => some { s with htmlRenderer := text }
  | "json_indent" => (integer? text).map fun n => { s with jsonIndent := n }
  | _ => some s

/-- The settings by name. -/
def fields (s : Settings) : List (String × Value) :=
  [("app_name", .str s.appName), ("debug", .bool s.debug), ("log_level", .str s.logLevel),
   ("vega_schema_url", .str s.schemaUrl), ("default_width", .int s.defaultWidth),
   ("default_height", .int s.defaultHeight), ("padding_left", .int s.paddingLeft),
   ("padding_right", .int s.paddingRight), ("padding_top", .int s.paddingTop),
   ("padding_bottom", .int s.paddingBottom),
   ("legend_padding_right", .int s.legendPaddingRight), ("mark_color", .str s.markColor),
   ("neutral_color", .str s.neutralColor), ("reference_line_color", .str s.referenceLineColor),
   ("categorical_palette", .str s.categoricalPalette),
   ("continuous_palette", .str s.continuousPalette),
   ("colormap_samples", .int s.colormapSamples), ("vega_js_url", .str s.viewerUrl),
   ("vega_embed_js_url", .str s.embedUrl), ("html_renderer", .str s.htmlRenderer),
   ("json_indent", .int s.jsonIndent)]

def assign (s : Settings) (field text : String) : Except Fault Settings :=
  match s.assign? field text with
  | some s => .ok s
  | none => .error .invalidSetting

/-! ## 3. The environment -/

/-- What the name of an environment variable that holds a setting begins with. -/
def variableOpening : List Char := "vegagram_".toList

/-- The field that an environment variable sets. -/
def fieldOf? (name : String) : Option String :=
  let name := (Text.lower name).toList
  if variableOpening.isPrefixOf name then
    some (String.ofList (name.drop variableOpening.length))
  else none

/-- The settings that environment variables leave; of several variables for one field the last one
counts. -/
def ofEnvironment (environment : List (String × String)) : Except Fault Settings :=
  let given := environment.filterMap fun v => (fieldOf? v.1).map fun field => (field, v.2)
  (firstsBy Prod.fst given.reverse).foldlM (fun s g => s.assign g.1 g.2) {}

end Settings

end PlotScene
