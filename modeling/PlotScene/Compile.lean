import PlotScene.Layer.Plan
import PlotScene.Plot.Description
import PlotScene.Plot.Table
import PlotScene.Presentation.Options
import PlotScene.Scene.Legend
import PlotScene.Scene.Merge
import PlotScene.Scene.Reference.Document

/-!
# Compiling plots

A plot and its presentation become a document: the table is filled, the layers are built and merged,
a legend is added where one is needed, and all references are checked.  What could not be used is
told in notices.
-/

namespace PlotScene

/-- A document with what is to be said about it. -/
structure Compiled where
  spec : Value
  notices : List Notice
  removedPoints : Nat
  layers : List LayerKind

/-- Whether a document has a legend. -/
def Compiled.hasLegend (c : Compiled) : Except Fault Bool := do
  match ← c.spec.entry? "legends" with
  | some legends => legends.truthy
  | none => return false

/-- The notice that a grouping has more labels than the style has colors. -/
def Plot.overflowNotices (p : Plot) (s : Style) : List Notice :=
  if p.grouped then (s.overflowNotice? p.grouping.labels).toList else []

/-- Compiles a plot.  Notices come in the order of the work: those of the description, of the table,
of the palette, of the layers, and of the references. -/
def compile (p : Plot) (o : Presentation) (s : Style) (r : Registry) : Except Fault Compiled := do
  let table ← Table.ofPlot p
  let (layers, layerNotices) ← p.build o s r
  let merged ← Scene.merge (layers.map Layer.fragment) table.rows o s
  let spec ← Legend.compose merged table.rows o.interactive s
  let problems ← Reference.unresolved spec
  return {
    spec := spec
    notices := p.notices ++ table.notice?.toList ++ p.overflowNotices s ++ layerNotices ++
      problems.map Reference.Problem.notice
    removedPoints := table.removed
    layers := layers.map Layer.kind }

/-- Compiles a description with output options.  The names of the options are checked before the
description is read. -/
def compileDescription (settings : Settings) (description options : Value) (s : Style) :
    Except Fault Compiled := do
  let named ← NamedValues.read options
  let p ← Plot.ofDescription description
  let o ← Presentation.ofNamedValues settings named (some p)
  compile p o s .standard

end PlotScene
