import PlotScene.Decimal.Reading
import PlotScene.Decimal.Notation
import PlotScene.Value

/-!
# Presentation

How a plot is shown: its size, its title and labels, whether it reacts to the pointer, and the name
under which it is written.  None of this depends on the observations.
-/

namespace PlotScene

/-- The title of a plot that was given none; it is not shown. -/
def untitled : String := "Untitled"

structure Presentation where
  fileName : String := "untitled"
  exportPath : String := "./"
  xLabel : String := "x-axis"
  yLabel : String := "y-axis"
  title : String := untitled
  /-- The width in pixels as text. -/
  width : String := "500"
  height : String := "500"
  interactive : Bool := false
  tooltip : Bool := true

/-- The number that the text of a dimension spells; a whole number is an integer. -/
def pixels (text : String) : Scalar :=
  match Decimal.read? text with
  | none => .null
  | some x =>
      match Double.integer? x with
      | some n => .int n
      | none => .float x

namespace Presentation

def widthInPixels (p : Presentation) : Scalar := pixels p.width

def heightInPixels (p : Presentation) : Scalar := pixels p.height

def hasTitle (p : Presentation) : Bool := p.title != untitled

end Presentation

end PlotScene
