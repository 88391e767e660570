import PlotScene.Datum
import PlotScene.Presentation
import PlotScene.Scene.Fragment
import PlotScene.Style

/-!
# Merging fragments

The fragments of the layers become one document.  Scales and data sources are known by their names
and axes by the side on which they stand: of several with one name the first one counts.  The table
of observations is the first data source, and marks are painted in the order of the layers.
-/

namespace PlotScene.Scene

/-- The name of the table of observations. -/
def tableName : String := "table"

/-- A part of a document with the scalar under which it is known. -/
structure Keyed where
  key : Scalar
  part : Value

def Keyed.read (field : String) (part : Value) : Except Fault Keyed := do
  return ⟨← (← part.field field).key, part⟩

/-- The first part for each key that is not in `taken`. -/
def firstParts (field : String) (taken : List Scalar) (parts : List Value) :
    Except Fault (List Keyed) :=
  (parts.mapM (Keyed.read field)).map (firstsAfter Keyed.key taken)

/-- The axis with the title that the presentation has for its side. -/
def titled (o : Presentation) (axis : Keyed) : Value :=
  match axis.key with
  | .str "bottom" => axis.part.set "title" (.str o.xLabel)
  | .str "left" => axis.part.set "title" (.str o.yLabel)
  | _ => axis.part

/-- The document of a fragment, which may be that of many layers together. -/
def document (f : Fragment) (rows : List Value) (o : Presentation) (s : Style) :
    Except Fault Value := do
  let scales ← firstParts "name" [] f.scales
  let data ← firstParts "name" [.str tableName] f.data
  let axes ← firstParts "orient" [] f.axes
  let frame := s.frame (.scalar o.widthInPixels) (.scalar o.heightInPixels)
  let filled := frame.setAll [
    ("data", .list (Fragment.source tableName rows :: data.map Keyed.part)),
    ("scales", .list (scales.map Keyed.part)), ("axes", .list (axes.map (titled o))),
    ("marks", .list f.marks)]
  return if o.hasTitle then filled.set "title" (.str o.title) else filled

/-- Merges the fragments of layers into a document. -/
def merge (fragments : List Fragment) (rows : List Value) (o : Presentation) (s : Style) :
    Except Fault Value :=
  document (fragments.foldl Fragment.append {}) rows o s

end PlotScene.Scene
