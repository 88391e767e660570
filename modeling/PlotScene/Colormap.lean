import PlotScene.Fault
import PlotScene.Numeric.Grid
import PlotScene.Numeric.Sequence

/-!
# Color maps

A color map is a matrix whose rows give the red, green and blue part of a color as numbers between
zero and one.  A scale takes colors from it at equal distances.
-/

namespace PlotScene.Colormap

/-! ## 1. Colors -/

/-- A color channel between zero and one: any other number counts as the nearer end, NaN as
zero. -/
def clip (x : Float) : Float :=
  if x.isNaN then 0 else if x < 0 then 0 else if 1 < x then 1 else x

/-- The byte of a color channel; a half is rounded up. -/
def channel (x : Float) : Nat :=
  ((Double.floor? (clip x * 255 + 0.5)).getD 0).toNat

/-- The color with these bytes. -/
def hexColor (bytes : List Nat) : String :=
  String.ofList ('#' :: bytes.flatMap (Text.hex 2))

/-- The color of the first three numbers of a row. -/
def color (row : List Float) : String :=
  hexColor ((row.take 3).map channel)

/-- Reads a color from a value: a list of at least three numbers. -/
def readColor (v : Value) : Except Fault String := do
  let g ← (Grid.ofValue v).mapError .number
  match g.shape with
  | [] => throw .outOfBounds
  | count :: inner =>
      if count ≠ 0 ∧ inner.foldl (· * ·) 1 ≠ 1 then throw .wrongType
      else if count < 3 then throw .unusable
      else return color g.cells

/-! ## 2. Samples -/

/-- The rows nearest to `count` equally spaced positions over `rows` rows; a position halfway
between two rows takes the later one. -/
def sampleRows {α : Type} [Measure α] (rows count : Nat) : List Nat :=
  (Sequence.spaced (Measure.ofNat 0 : α) (Measure.ofNat (rows - 1)) count).map fun p =>
    (Measure.floor (p + Measure.half)).toNat

/-- The row with this number. -/
def row (width : Nat) (cells : List Float) (i : Nat) : List Float :=
  (cells.drop (i * width)).take width

/-- `count` colors of a color map, its rows taken by positions of the kind `α`.  A value that is no
matrix of at least one row and three columns has none. -/
def sampleIn (α : Type) [Measure α] (colormap : Value) (count : Int) :
    Except Fault (List String) := do
  let g ← (Grid.ofValue colormap).mapError .number
  match g.shape with
  | [rows, width] =>
      if rows = 0 ∨ width < 3 then return []
      else if count < 0 then throw .unusable
      else return (@sampleRows α _ rows count.toNat).map fun i => color (row width g.cells i)
  | _ => return []

/-- `count` colors of a color map by the positions that doubles give. -/
def sample (colormap : Value) (count : Int) : Except Fault (List String) :=
  sampleIn Float colormap count

end PlotScene.Colormap
