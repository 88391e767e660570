import PlotScene.Layer.Registry

/-!
# The layers of a plot

A plot draws the geometries that were asked for, in that order, and then the statistics that have
records, in the order of the results.  A plot without any layer draws its points.
-/

namespace PlotScene

namespace Plot

/-- Whether a statistic has records. -/
def hasRecords (p : Plot) (kind : StatisticKind) : Bool :=
  !(p.statistics.records kind).isEmpty

/-- Whether a layer has something to draw: a geometry always has. -/
def isDrawable (p : Plot) : LayerKind → Bool
  | .geometry _ => true
  | .statistic s => p.hasRecords s

/-- The layers that the plot asks for, each once. -/
def requested (p : Plot) : List LayerKind :=
  firsts ((p.declared ++ p.statistics.order.map LayerKind.statistic).filter p.isDrawable)

def noLayersNotice : Notice where
  code := .noLayersDetected
  message := "未检测到任何图层，使用散点图作为默认图层"

/-- The layers in the order in which they are painted, with a notice where none was asked for. -/
def layers (p : Plot) : List LayerKind × List Notice :=
  match p.requested with
  | [] => ([.geometry .point], [noLayersNotice])
  | kinds => (kinds, [])

/-- The layers of these kinds, built one after the other; a kind without a builder is left out. -/
def buildKinds (p : Plot) (o : Presentation) (s : Style) (r : Registry) :
    List LayerKind → Except Fault (List Layer)
  | [] => .ok []
  | kind :: rest =>
      match r.get? kind with
      | none => buildKinds p o s r rest
      | some builder => do
          let fragment ← builder.build p o s
          return ⟨kind, fragment⟩ :: (← buildKinds p o s r rest)

/-- Builds the layers of a plot, with the notices of the plan and of each layer. -/
def build (p : Plot) (o : Presentation) (s : Style) (r : Registry) :
    Except Fault (List Layer × List Notice) := do
  let (kinds, notices) := p.layers
  let built ← p.buildKinds o s r kinds
  return (built, notices ++ built.flatMap fun layer => layer.fragment.notices)

end Plot

end PlotScene
