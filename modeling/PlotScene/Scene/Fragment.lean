import PlotScene.Notice
import PlotScene.Value

/-!
# Fragments

A layer contributes a fragment of the document: data sources, scales, axes and marks.
-/

namespace PlotScene

structure Fragment where
  data : List Value := []
  scales : List Value := []
  axes : List Value := []
  marks : List Value := []
  notices : List Notice := []

/-- A layer of the plot with what it contributes. -/
structure Layer where
  kind : LayerKind
  fragment : Fragment

namespace Fragment

/-- The contributions of one fragment followed by those of another. -/
def append (f g : Fragment) : Fragment where
  data := f.data ++ g.data
  scales := f.scales ++ g.scales
  axes := f.axes ++ g.axes
  marks := f.marks ++ g.marks
  notices := f.notices ++ g.notices

/-- A data source with its rows. -/
def source (name : String) (rows : List Value) : Value :=
  .obj [("name", .str name), ("values", .list rows)]

end Fragment

end PlotScene
