import PlotScene.Decimal.Reading
import PlotScene.Value.Shape

/-!
# Rectangular arrays of doubles

A statistic gives its numbers as nested lists.  They are read as a rectangular array: the lengths of
the lists give its shape, and every scalar becomes a double.  Null reads as NaN, truth values as
zero and one, texts as the number that they spell.  Lists may be nested to any depth; no bound on
the number of axes is modelled.
-/

namespace PlotScene

/-- The cells of an array with this shape, the last axis running fastest. -/
structure Grid where
  shape : List Nat
  cells : List Float

/-- The double that a scalar stands for. -/
def Scalar.toDouble : Scalar → Except NumberFault Float
  | .null => .error (.notANumber "NoneType")
  | .bool b => .ok (if b then 1 else 0)
  | .int n =>
      match Double.ofInt? n with
      | some x => .ok x
      | none => .error .outOfRange
  | .float x => .ok x
  | .str s =>
      match Decimal.read? s with
      | some x => .ok x
      | none => .error (.unreadable s)

/-- The double that a value stands for; null is no number here. -/
def Value.toDouble : Value → Except NumberFault Float
  | .scalar s => s.toDouble
  | .array _ [x] => .ok x
  | v => .error (.notANumber v.typeName)

namespace Grid

/-- The longest list that both lists begin with. -/
def commonOpening : List Nat → List Nat → List Nat
  | m :: ms, n :: ns => if m = n then m :: commonOpening ms ns else []
  | _, _ => []

/-- How far nested lists are regular: the lengths that all of them share, and whether nothing is
nested below these lengths. -/
structure Outline where
  shape : List Nat
  regular : Bool

/-- The outline of the items of a list, from the outlines of the first item and the others. -/
def Outline.meet (a b : Outline) : Outline :=
  ⟨commonOpening a.shape b.shape, a.regular && b.regular && a.shape == b.shape⟩

mutual

def outline : Value → Outline
  | .scalar _ => ⟨[], true⟩
  | .map _ => ⟨[], true⟩
  | .array shape _ => ⟨shape, true⟩
  | .list vs => match outlineItems vs with
      | none => ⟨[0], true⟩
      | some o => ⟨vs.length :: o.shape, o.regular⟩
  | .column vs => match outlineItems vs with
      | none => ⟨[0], true⟩
      | some o => ⟨vs.length :: o.shape, o.regular⟩

/-- What the items of a list have in common. -/
def outlineItems : List Value → Option Outline
  | [] => none
  | v :: vs => match outlineItems vs with
      | none => some (outline v)
      | some o => some ((outline v).meet o)

end

mutual

/-- The doubles in a value, in order. -/
def cellsOf : Value → Except NumberFault (List Float)
  | .scalar .null => .ok [Double.nan]
  | .scalar s => s.toDouble.map ([·])
  | .map es => .error (.notANumber (Value.map es).typeName)
  | .array _ cells => .ok cells
  | .list vs => cellsOfItems vs
  | .column vs => cellsOfItems vs

def cellsOfItems : List Value → Except NumberFault (List Float)
  | [] => .ok []
  | v :: vs => do
      let first ← cellsOf v
      let rest ← cellsOfItems vs
      return first ++ rest

end

/-- Reads a value as an array.  A ragged value is refused before any of its cells is read. -/
def ofValue (v : Value) : Except NumberFault Grid :=
  let o := outline v
  if o.regular then (cellsOf v).map fun cells => ⟨o.shape, cells⟩
  else .error (.ragged o.shape)

def ofList (cells : List Float) : Grid := ⟨[cells.length], cells⟩

def dimensions (g : Grid) : Nat := g.shape.length

def size (g : Grid) : Nat := g.cells.length

/-- Cuts a list into `count` parts of `width` items each. -/
def cut {α : Type} (width : Nat) : Nat → List α → List (List α)
  | 0, _ => []
  | count + 1, cells => cells.take width :: cut width count (cells.drop width)

/-- The parts of an array along its first axis. -/
def rows (g : Grid) : List Grid :=
  match g.shape with
  | [] => []
  | count :: inner => (cut (inner.foldl (· * ·) 1) count g.cells).map fun cells => ⟨inner, cells⟩

/-- Reads equally long rows column by column. -/
def interleave {α : Type} (width : Nat) (parts : List (List α)) : List α :=
  (List.range width).flatMap fun j => parts.filterMap fun part => part[j]?

/-- The cells with the first axis running fastest. -/
def columnMajor : List Nat → List Float → List Float
  | [], cells => cells
  | count :: inner, cells =>
      let width := inner.foldl (· * ·) 1
      interleave width ((cut width count cells).map (columnMajor inner))

/-- The array with its axes in reverse order. -/
def transpose (g : Grid) : Grid :=
  ⟨g.shape.reverse, columnMajor g.shape g.cells⟩

/-- The array as one of at least two dimensions: a scalar or a list is a single row. -/
def asMatrix (g : Grid) : Grid :=
  match g.shape with
  | [] => ⟨[1, 1], g.cells⟩
  | [n] => ⟨[1, n], g.cells⟩
  | _ => g

end Grid

end PlotScene
