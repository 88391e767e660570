import PlotScene.Fault
import PlotScene.Notice
import PlotScene.Datum

/-!
# References within a document

A document names data sources and scales in one place and refers to them in others.  This module has
the parts of a document that name or refer to something, and the rule of scopes: a data source may
build on sources before it; scales and marks see all sources; what is inside a mark also sees the
scales of that mark and the part of the data that it splits off.
-/

namespace PlotScene.Reference

/-! ## 1. What names and what refers -/

/-- A data source and the source that it builds on. -/
structure Source where
  name : Scalar
  base : Option Scalar

/-- A scale and the data sources of its domain. -/
structure Scale where
  name : Scalar
  sources : List Scalar

/-- An axis and the scale that it shows. -/
structure Axis where
  orient : String
  scale : Scalar

/-- The parts of a source that a mark splits off, under the name that they have inside the mark. -/
structure Facet where
  name : Scalar
  source : Scalar

/-- A mark: its name, the source that it reads, its facet, its own scales, the scales that its
channels use, and the marks inside it. -/
inductive Mark where
  | mk (name : Option String) (source : Option Scalar) (facet : Option Facet) (scales : List Scale)
      (used : List String) (children : List Mark)

/-- The naming and referring parts of a document; a legend is the list of scales that it shows. -/
structure Document where
  sources : List Source
  scales : List Scale
  axes : List Axis
  legends : List (List Scalar)
  marks : List Mark

/-! ## 2. What is wrong -/

/-- A reference to something that is not in scope. -/
inductive Problem where
  | base (source base : Scalar)
  | domain (place : String) (scale source : Scalar)
  | axis (orient : String) (scale : Scalar)
  | legend (scale : Scalar)
  | markSource (mark : String) (source : Scalar)
  | facet (mark : String) (source : Scalar)
  | markScale (mark scale : String)

def Problem.text : Problem → String
  | .base s b =>
      "数据源 " ++ s.text ++ " 的上游 " ++ b.text ++ " 未定义或定义在其后"
  | .domain place c s => place ++ "比例尺 " ++ c.text ++ " 引用了未定义的数据源 " ++ s.text
  | .axis orient c => "坐标轴 " ++ orient ++ " 引用了未定义的比例尺 " ++ c.text
  | .legend c => "图例引用了未定义的比例尺 " ++ c.text
  | .markSource mark s => "图元 " ++ mark ++ " 引用了未定义的数据源 " ++ s.text
  | .facet mark s => "图元 " ++ mark ++ " 的分面引用了未定义的数据源 " ++ s.text
  | .markScale mark c => "图元 " ++ mark ++ " 引用了未定义的比例尺 " ++ c

def Problem.notice (p : Problem) : Notice where
  code := .unresolvedReference
  message := p.text

/-! ## 3. The rule of scopes -/

/-- A problem for a reference that is not in scope. -/
def missing (scope : List Scalar) (reference : Scalar) (problem : Problem) : List Problem :=
  if scope.contains reference then [] else [problem]

/-- The problems of data sources, where `before` are the names of the sources before them. -/
def sourceProblems : List Scalar → List Source → List Problem
  | _, [] => []
  | before, s :: rest =>
      (match s.base with
        | some u => missing before u (.base s.name u)
        | none => []) ++ sourceProblems (s.name :: before) rest

def scaleProblems (sources : List Scalar) (place : String) (scales : List Scale) : List Problem :=
  scales.flatMap fun s => s.sources.flatMap fun d => missing sources d (.domain place s.name d)

/-- The name of a mark in a problem: its own, or its place among the marks. -/
def markLabel (name : Option String) (place : String) (index : Nat) : String :=
  name.getD (place ++ "marks[" ++ toString index ++ "]")

mutual

/-- The problems of a mark at a place among the marks. -/
def markProblems (sources scales : List Scalar) (place : String) (index : Nat) :
    Mark → List Problem
  | .mk name source facet own used children =>
      let label := markLabel name place index
      let innerSources := (facet.map Facet.name).toList ++ sources
      let innerScales := own.map Scale.name ++ scales
      source.toList.flatMap (fun d => missing sources d (.markSource label d)) ++
        facet.toList.flatMap (fun f => missing sources f.source (.facet label f.source)) ++
        scaleProblems innerSources (label ++ " 内的") own ++
        used.flatMap (fun u => missing innerScales (.str u) (.markScale label u)) ++
        childProblems innerSources innerScales (label ++ ".") 0 children

/-- The problems of marks, the first of which has the place `index`. -/
def childProblems (sources scales : List Scalar) (place : String) (index : Nat) :
    List Mark → List Problem
  | [] => []
  | m :: ms =>
      markProblems sources scales place index m ++
        childProblems sources scales place (index + 1) ms

end

/-- The problems of a document, in the order in which it is read. -/
def Document.problems (d : Document) : List Problem :=
  let sources := d.sources.map Source.name
  let scales := d.scales.map Scale.name
  sourceProblems [] d.sources ++
    scaleProblems sources "" d.scales ++
    d.axes.flatMap (fun a => missing scales a.scale (.axis a.orient a.scale)) ++
    d.legends.flatMap (fun l => l.flatMap fun s => missing scales s (.legend s)) ++
    childProblems sources scales "" 0 d.marks

end PlotScene.Reference
