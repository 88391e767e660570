import PlotScene.Numeric.Sequence
import PlotScene.Statistic
import PlotScene.Statistic.Record

/-!
# Confidence bands

A band is given as two columns, as two rows, as a flat array with the lower bounds first, or as two
separate fields.  It is brought to the length of its curve: a longer band is cut, a shorter one
interpolated over its own positions, over the observations, or over an even spacing of the curve.
At each point the lesser bound is the lower one.
-/

namespace PlotScene

namespace Band

/-- Splits the cells of rows with two columns into the columns. -/
def columns : List Float → List Float × List Float
  | a :: b :: rest =>
      let (lower, upper) := columns rest
      (a :: lower, b :: upper)
  | _ => ([], [])

/-- The two halves of a list. -/
def halves (cells : List Float) : List Float × List Float :=
  (cells.take (cells.length / 2), cells.drop (cells.length / 2))

/-- Tells the bounds apart by the shape of the array: two columns, two rows, or an even number of
cells that fill two columns one after the other. -/
def split? (g : Grid) : Option (List Float × List Float) :=
  if g.cells.isEmpty then none
  else
    match g.shape with
    | [_, 2] => some (columns g.cells)
    | [2, _] => some (halves g.cells)
    | shape =>
        if g.cells.length % 2 = 0 then some (halves (Grid.columnMajor shape g.cells)) else none

/-- The bounds in a value, if it is a numeric array with a usable shape. -/
def resolve (v : Value) : Except Fault (Option (List Float × List Float)) := do
  return (← readGrid? v).bind split?

/-- Whether no two numbers of a list are equal. -/
def allDifferent : List Float → Bool
  | [] => true
  | x :: xs => !xs.contains x && allDifferent xs

/-- Whether a list can serve as the positions of `count` samples. -/
def isBase (count : Nat) (xs : List Float) : Bool :=
  xs.length == count && xs.all Float.isFinite && allDifferent xs

/-- The first of the given values that can serve as the positions of `count` samples. -/
def base? (count : Nat) : List Value → Except Fault (Option (List Float))
  | [] => .ok none
  | v :: vs => do
      if v.isNull then base? count vs
      else
        match ← readGrid? v with
        | some g => if isBase count g.cells then return some g.cells else base? count vs
        | none => base? count vs

/-- Positions at equal distances over the range of a curve. -/
def evenBase (x : List Float) (count : Nat) : List Float :=
  let known := Sequence.known x
  Sequence.spaced ((Sequence.least? known).getD Double.nan)
    ((Sequence.greatest? known).getD Double.nan) count

/-- Puts the lesser bound below the greater one at each point. -/
def ordered (lower upper : List Float) : Band :=
  ⟨List.zipWith Sequence.lesser lower upper, List.zipWith Sequence.greater lower upper⟩

/-- Brings bounds to the length of a curve; `bases` are the positions that may belong to them.
There is nothing to bring to a curve without any bound. -/
def align (x lower upper : List Float) (bases : List Value) : Except Fault Band := do
  let count := lower.length
  if x.length ≤ count then
    return ordered (lower.take x.length) (upper.take x.length)
  else if count = 0 then throw .outOfBounds
  else if count = 1 ∨ Sequence.constant x = true then
    let all (bound : List Float) := List.replicate x.length (bound.head?.getD Double.nan)
    return ordered (all lower) (all upper)
  else
    let base := (← base? count bases).getD (evenBase x count)
    let along (bound : List Float) := Sequence.interpolate (base.zip bound) x
    return ordered (along lower) (along upper)

/-- Joins two separate bounds into an array with two columns, where they are equally long. -/
def joined? (lower upper : Value) : Except Fault (Option Grid) := do
  match ← readGrid? lower, ← readGrid? upper with
  | some l, some u =>
      if l.cells.length = u.cells.length then
        return some ⟨[l.cells.length, 2],
          (l.cells.zip u.cells).flatMap fun p => [p.1, p.2]⟩
      else return none
  | _, _ => return none

/-- The bounds that a record gives, as one value: its own field, or two separate fields that are
joined where they can be. -/
def given? (record : Value) : Except Fault (Option Value) := do
  let whole := record.getD "yci"
  if !whole.isNull then return some whole
  let lower := record.getD "ci_lower"
  let upper := record.getD "ci_upper"
  if lower.isNull || upper.isNull then return none
  match ← joined? lower upper with
  | some g => return some (.array g.shape g.cells)
  | none => return some (.list [lower, upper])

/-- The shape of a value as a message shows it. -/
def shapeText (v : Value) : String :=
  let o := Grid.outline v
  if o.regular then Text.shape o.shape else "ragged"

def unresolvedNotice (kind : StatisticKind) (group : Nat) (given : Value) : Notice where
  code := .unresolvedCiShape
  message := kind.name ++ " 第 " ++ toString group ++ " 组的置信区间形状 " ++ shapeText given ++
    " 无法识别，已忽略"
  layer := some (.statistic kind)
  group := some group

/-- The band of a curve from its record; a band of unknown shape is dropped with a notice. -/
def ofRecord (kind : StatisticKind) (group : Nat) (record : Value) (x : List Float)
    (observationX : Value) : Except Fault (Option Band × List Notice) := do
  match ← given? record with
  | none => return (none, [])
  | some given =>
      match ← resolve given with
      | none => return (none, [unresolvedNotice kind group given])
      | some (lower, upper) =>
          let band ← align x lower upper [record.getD "ci_x", observationX]
          return (some band, [])

end Band

end PlotScene
