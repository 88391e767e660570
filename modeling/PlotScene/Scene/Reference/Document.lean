import PlotScene.Scene.Reference
import PlotScene.Value.Shape

/-!
# The references of a document

Reads from a document what it names and what it refers to.  A document whose parts are not mappings
and lists, or whose names cannot be compared, is refused.
-/

namespace PlotScene.Reference

/-! ## 1. Scales and sources -/

/-- The data source that a reference names, if it names one. -/
def dataOf? (v : Value) : Except Fault (Option Scalar) :=
  match v.get? "data" with
  | some d => d.key.map some
  | none => .ok none

/-- The data sources of a domain: its own and those of its fields. -/
def domainSources (domain : Value) : Except Fault (List Scalar) := do
  if domain.isMap then
    let own ← dataOf? domain
    let fields ← (← domain.itemsUnder "fields").mapM dataOf?
    return own.toList ++ fields.filterMap id
  else return []

def Scale.read (v : Value) : Except Fault Scale := do
  return ⟨← (← v.field "name").key, ← domainSources (← v.field "domain")⟩

def Source.read (v : Value) : Except Fault Source := do
  let base ← v.field "source"
  let base ← if base.isNull then pure none else base.key.map some
  return ⟨← (← v.field "name").key, base⟩

def Axis.read (v : Value) : Except Fault Axis := do
  return ⟨(← v.field "orient").text, ← (← v.field "scale").key⟩

/-- The channels of a legend that show a scale. -/
def legendChannels : List String := ["fill", "stroke", "size", "shape"]

def readLegend (v : Value) : Except Fault (List Scalar) := do
  let shown ← legendChannels.mapM v.field
  (shown.filter fun s => !s.isNull).mapM Value.key

/-! ## 2. Marks -/

/-- The scale that the entries of a mapping name. -/
def scaleOf (es : Entries) : List String :=
  match Entries.lookup? es (.str "scale") with
  | some (.str s) => [s]
  | _ => []

mutual

/-- The texts under a key `scale` anywhere in an encoding. -/
def usedScales : Value → List String
  | .map es => scaleOf es ++ usedInEntries es
  | .list vs => usedInItems vs
  | .scalar _ => []
  | .array _ _ => []
  | .column _ => []

def usedInEntries : List (Scalar × Value) → List String
  | [] => []
  | (_, v) :: es => usedScales v ++ usedInEntries es

def usedInItems : List Value → List String
  | [] => []
  | v :: vs => usedScales v ++ usedInItems vs

end

/-- The name of a mark, where it has one that counts as true. -/
def readMarkName (v : Value) : Except Fault (Option String) := do
  let name ← v.field "name"
  return if ← name.truthy then some name.text else none

def readFacet (source : Value) : Except Fault (Option Facet) := do
  match source.get? "facet" with
  | some (.map es) =>
      let facet : Value := .map es
      return some ⟨← (facet.getD "name").key, ← (facet.getD "data").key⟩
  | _ => return none

/-- What a mark names and refers to, given the marks inside it. -/
def readMark (v : Value) (children : List Mark) : Except Fault Mark := do
  let name ← readMarkName v
  let source ← (← v.field "from").orEmpty
  if !source.isMap then throw (.noFields source.typeName)
  let data ← dataOf? source
  let facet ← readFacet source
  let scales ← (← v.itemsUnder "scales").mapM Scale.read
  return .mk name data facet scales (usedScales (← v.field "encode")) children

mutual

/-- Reads a mark with the marks inside it. -/
def Mark.read : Value → Except Fault Mark
  | .map es => do readMark (.map es) (← readInside es)
  | other => .error (.noFields other.typeName)

/-- Reads the marks under the first key `marks`. -/
def readInside : List (Scalar × Value) → Except Fault (List Mark)
  | [] => .ok []
  | (k, v) :: es => if k.same (.str "marks") then readMarks v else readInside es

def readMarks : Value → Except Fault (List Mark)
  | .list vs => readMarkItems vs
  | other => do
      match ← other.iterate with
      | [] => return []
      | v :: _ => throw (.noFields v.typeName)

def readMarkItems : List Value → Except Fault (List Mark)
  | [] => .ok []
  | v :: vs => do return (← Mark.read v) :: (← readMarkItems vs)

end

/-! ## 3. Documents -/

/-- Reads what a document names and refers to. -/
def Document.read (spec : Value) : Except Fault Document := do
  let sources ← (← spec.itemsUnder "data").mapM Source.read
  let scales ← (← spec.itemsUnder "scales").mapM Scale.read
  let axes ← (← spec.itemsUnder "axes").mapM Axis.read
  let legends ← (← spec.itemsUnder "legends").mapM readLegend
  let marks ← match ← spec.entry? "marks" with
    | some marks => readMarks marks
    | none => pure []
  return ⟨sources, scales, axes, legends, marks⟩

/-- The references of a document that are not in scope. -/
def unresolved (spec : Value) : Except Fault (List Problem) :=
  (Document.read spec).map Document.problems

end PlotScene.Reference
