import PlotScene.Firsts
import PlotScene.Value.Shape

/-!
# Observations

Whether a column of observations is numeric, which of its entries are missing, and the label of an
entry.  A label identifies a number whatever its type: `4` and `4.0` have the label `4`.
-/

namespace PlotScene

/-- Scalars are compared as keys: by quantity or by text. -/
instance : BEq Scalar := ⟨Scalar.same⟩

namespace Scalar

def isNumber : Scalar → Bool
  | .int _ | .float _ => true
  | _ => false

/-- The label of an observation, where it has a text. -/
def label : Scalar → String
  | .bool b => if b then "true" else "false"
  | .float x =>
      match Double.integer? x with
      | some n => toString n
      | none => Double.text x
  | s => s.text

/-- A number as a document can hold it: a double that is not finite becomes null. -/
def plain : Scalar → Scalar
  | .float x => if x.isFinite then .float x else .null
  | s => s

end Scalar

namespace Value

/-- Whether an entry stands in a numeric column: a missing scalar or a number. -/
def fitsNumeric : Value → Bool
  | .scalar s => s.isMissing || s.isNumber
  | _ => false

/-- Whether a column is numeric: all its entries that are not missing are numbers. -/
def allNumeric (vs : List Value) : Bool :=
  vs.all fitsNumeric

def label : Value → String
  | .scalar s => s.label
  | v => v.text

/-- The label of an entry; an integer with too many digits stops the operation. -/
def label? (v : Value) : Except Fault String :=
  if v.hasText then .ok v.label else .error .unusable

/-- Whether every entry that is not missing can be labelled. -/
def haveLabels (vs : List Value) : Bool :=
  vs.all fun v => v.isMissing || v.hasText

/-- Asks every entry that is not missing to have a label. -/
def requireLabels (vs : List Value) : Except Fault Unit :=
  if haveLabels vs then .ok () else .error .unusable

/-- An entry as a document can hold it. -/
def plain (v : Value) : Value :=
  match v with
  | .scalar s => .scalar s.plain
  | v => if v.isMissing then null else v

/-- The entries that are not missing, each once. -/
def distinct (vs : List Value) : Except Fault (List Value) := do
  let keys ← (vs.filter fun v => !v.isMissing).mapM key
  return (firsts keys).map .scalar

/-- The labels of the entries that are not missing, each once. -/
def distinctLabels (vs : List Value) : List String :=
  firsts ((vs.filter fun v => !v.isMissing).map label)

/-- The labels of a column, all of whose entries must have one. -/
def distinctLabels? (vs : List Value) : Except Fault (List String) := do
  requireLabels vs
  return distinctLabels vs

end Value

/-- The label of a category given by its number, which counts from one; a number outside the labels
is written after the fallback word. -/
def categoryLabel (labels : List String) (number : Int) (fallback : String := "Category") :
    String :=
  if 1 ≤ number then (labels[number.toNat - 1]?).getD (fallback ++ toString number)
  else fallback ++ toString number

end PlotScene
