import PlotScene.Firsts
import PlotScene.Text.Blank
import PlotScene.Text.Parts

/-!
# Palettes

A palette is a list of colors, written as one text with commas between them.  Blanks around a color
and empty parts do not count, and each color is kept once.
-/

namespace PlotScene.Palette

/-- The colors of a palette text. -/
def read (text : String) : List String :=
  firsts ((((Text.parts ',' text.toList).map Text.trim).filter (· ≠ [])).map String.ofList)

/-- The colors of a palette text, or others where it has none. -/
def readOr (text : String) (otherwise : List String) : List String :=
  match read text with
  | [] => otherwise
  | colors => colors

/-- The text of a palette. -/
def text (colors : List String) : String :=
  String.intercalate "," colors

end PlotScene.Palette
