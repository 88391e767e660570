import PlotScene.Plot

/-!
# The table of observations

The table holds one row for each observation that can be drawn.  A column decides observation by
observation whether it has a cell; an observation without a cell in one of the columns is left out
as a whole and counted as removed.
-/

namespace PlotScene

/-- A column of the table; `none` stands where the observation cannot be drawn. -/
structure Column where
  name : String
  cells : List (Option Value)

structure Table where
  rows : List Value := []
  removed : Nat := 0

namespace Table

/-! ## 1. Cells -/

/-- The cell of a numeric axis: a finite number as it is.  An integer beyond the range of doubles
cannot be compared with infinity and stops the operation. -/
def numberCell : Value → Except Fault (Option Value)
  | .int n =>
      match Double.ofInt? n with
      | some _ => .ok (some (.int n))
      | none => .error (.number .outOfRange)
  | .float x => .ok (if x.isFinite then some (.float x) else none)
  | _ => .ok none

/-- The cell of an axis of categories: the label of an entry that is not missing. -/
def labelCell (v : Value) : Option Value :=
  if v.isMissing then none else some (.str v.label)

def axisCells (values : List Value) : Except Fault (List (Option Value)) :=
  if Value.allNumeric values then values.mapM numberCell
  else do
    Value.requireLabels values
    return values.map labelCell

/-- The cells of a column that never removes an observation. -/
def plainCells (values : List Value) : List (Option Value) :=
  values.map fun v => some v.plain

/-! ## 2. Columns and rows -/

/-- A column that is as long as the table has observations. -/
def fitting (count : Nat) (values : Option (List Value)) : Option (List Value) :=
  values.filter fun vs => vs.length == count

/-- The columns of a plot: the axes, the color where it groups, and the bounds of intervals.  Colors
that group have their labels since the grouping was read. -/
def columns (p : Plot) : Except Fault (List Column) := do
  let a := p.aesthetics
  let count := a.x.length
  let x ← axisCells a.x
  let y ← (fitting count (some a.y)).mapM axisCells
  let color := (fitting count a.color).filter fun _ => p.grouped
  return ⟨"x", x⟩ ::
    ((y.map fun cells => ⟨"y", cells⟩).toList ++
      (color.map fun vs => ⟨"color", vs.map labelCell⟩).toList ++
      ((fitting count a.ymin).map fun vs => ⟨"ymin", plainCells vs⟩).toList ++
      ((fitting count a.ymax).map fun vs => ⟨"ymax", plainCells vs⟩).toList)

/-- The cell of a column at an observation, under the name of the column. -/
def Column.cell? (c : Column) (i : Nat) : Option (String × Value) :=
  (c.cells[i]?.join).map fun v => (c.name, v)

/-- The row of an observation, unless one of its columns has no cell for it. -/
def row? (cs : List Column) (i : Nat) : Option Value :=
  (cs.mapM fun c => Column.cell? c i).map Value.obj

def ofColumns (count : Nat) (cs : List Column) : Table :=
  let rows := (List.range count).filterMap (row? cs)
  ⟨rows, count - rows.length⟩

/-- The table of a plot; a plot without observations along x has none. -/
def ofPlot (p : Plot) : Except Fault Table :=
  if p.aesthetics.x.isEmpty then .ok {}
  else (columns p).map (ofColumns p.aesthetics.x.length)

/-! ## 3. What the table says -/

/-- The labels of the colors that the rows carry. -/
def distinctColors (t : Table) : List String :=
  Value.distinctLabels (t.rows.filterMap fun row => row.get? "color")

/-- The notice about observations that were left out. -/
def notice? (t : Table) : Option Notice :=
  if t.removed = 0 then none
  else some {
    code := .invalidNumericObservation
    message := "已从主数据表中剔除 " ++ toString t.removed ++ " 个无效观测" }

theorem removed_add_length (count : Nat) (cs : List Column) :
    (ofColumns count cs).removed + (ofColumns count cs).rows.length = count := by
  have h : ((List.range count).filterMap (row? cs)).length ≤ count := by
    simpa using List.length_filterMap_le (row? cs) (List.range count)
  simp only [ofColumns]
  omega

end Table

end PlotScene
