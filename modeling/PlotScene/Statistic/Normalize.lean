import PlotScene.Statistic.Band

/-!
# Reading the results of statistics

For each kind of statistic, how the record of a group is read.
-/

namespace PlotScene

/-- Carries a fault out of the reading of a record. -/
def Reading.ofExcept {α : Type} : Except Fault α → Reading α
  | .ok a => .ok a
  | .error f => .error (.fault f)

/-! ## 1. Curves -/

def readRegression (kind : StatisticKind) (observationX : Value) (group : Nat) (record : Value) :
    Reading (Normalized RegressionCurve) := do
  let (x, y) ← readCurve record
  let (band, notices) ← Reading.ofExcept (Band.ofRecord kind group record x observationX)
  return ⟨[⟨group, x, y, band⟩], notices⟩

def readSummary (observationX : Value) (group : Nat) (record : Value) :
    Reading (Normalized SummaryCurve) := do
  let (x, y) ← readCurve record
  let (band, notices) ← Reading.ofExcept (Band.ofRecord .summary group record x observationX)
  return ⟨[⟨group, x, y, band.getD ⟨y, y⟩⟩], notices⟩

def readDensity (group : Nat) (record : Value) : Reading (Normalized DensityCurve) := do
  let (x, y) ← readCurve record
  return Normalized.record ⟨group, x, y⟩

def readQuantiles (group : Nat) (record : Value) : Reading (Normalized QuantilePoint) := do
  let (x, y) ← readCurve record
  return ⟨List.zipWith (fun t s => ⟨group, t, s⟩) x y, []⟩

/-! ## 2. Bins -/

/-- Without centers of its own a bin has its center halfway between its edges. -/
def readBins (group : Nat) (record : Value) : Reading (Normalized BinGroup) := do
  requireFields record ["edges", "counts"]
  let edges ← readVector (record.getD "edges") "edges"
  let counts ← readVector (record.getD "counts") "counts"
  if edges.length ≠ counts.length + 1 then
    throw (.malformed (.binCounts edges.length counts.length))
  let given := record.getD "centers"
  if given.isNull then
    return Normalized.record ⟨group, edges, Sequence.midpoints edges, counts⟩
  else
    let centers ← readVector given "centers"
    if centers.length ≠ counts.length then throw (.malformed .centerCounts)
    return Normalized.record ⟨group, edges, centers, counts⟩

/-! ## 3. Boxes -/

/-- The single numbers along the first axis of a row. -/
def rowNumbers (row : Grid) : Except Fault (List Float) :=
  match row.shape with
  | [] => .error .wrongType
  | _ :: inner => if inner.foldl (· * ·) 1 = 1 then .ok row.cells else .error .wrongType

/-- The box of one category; numbers beyond the fifth are left out. -/
def readBox (group category : Nat) (row : Grid) : Reading (Normalized Box) := do
  if row.size < 5 then
    return Normalized.notice
      ((Malformed.shortBox category row.size).notice .boxplot group)
  match ← Reading.ofExcept (rowNumbers row) with
  | low :: q1 :: median :: q3 :: high :: _ =>
      return Normalized.record ⟨group, category, low, q1, median, q3, high⟩
  | _ => throw (.fault .unusable)

def readBoxesFrom (group : Nat) : Nat → List Grid → Reading (Normalized Box)
  | _, [] => .ok Normalized.empty
  | category, row :: rows => do
      let here ← readBox group category row
      let rest ← readBoxesFrom group (category + 1) rows
      return here.append rest

def readBoxes (group : Nat) (record : Value) : Reading (Normalized Box) := do
  requireFields record ["boxplot_data"]
  let g ← readGrid (record.getD "boxplot_data")
  match g.shape with
  | [] => throw (.fault .wrongType)
  | [_] => readBoxesFrom group 1 [g]
  | _ => readBoxesFrom group 1 g.rows

/-! ## 4. Violins -/

/-- The half width of a violin at its densest point. -/
def widestHalf : Float := 0.4

/-- The greatest of the numbers, at least zero. -/
def peak {α : Type} [OfNat α 0] [LT α] [DecidableLT α] (densities : List α) : α :=
  densities.foldl (fun best d => if best < d then d else best) 0

/-- The half widths of a violin: proportional to the density, `widest` where it is greatest.  The
greatest density is taken among `finite`. -/
def halfWidths {α : Type} [OfNat α 0] [LT α] [DecidableLT α] [Mul α] [Div α] (widest : α)
    (finite densities : List α) : List α :=
  let top := peak finite
  let scale := if 0 < top then widest / top else 0
  densities.map (· * scale)

/-- The outline of one category; a category without a finite number is skipped. -/
def readViolinCategory (group : Nat) (category : Float) (curve : List Float × List Float) :
    Normalized ViolinPoint :=
  match Double.round? category with
  | none => Normalized.notice ((Malformed.categoryNotFinite category).notice .violin group)
  | some number =>
      let (densities, ys) := curve
      let widths := halfWidths widestHalf (Sequence.finite densities) densities
      ⟨List.zipWith (fun (d, w) y => ⟨group, number, y, d, w⟩) (densities.zip widths) ys, []⟩

/-- The items of a field that a list is expected in. -/
def readItems (v : Value) : Reading (List Value) :=
  match v, v.iterate with
  | _, .ok vs => .ok vs
  | .array _ _, .error _ => .error (.malformed .noAxis)
  | v, .error _ => .error (.malformed (.notIterable v.typeName))

def readViolin (group : Nat) (record : Value) : Reading (Normalized ViolinPoint) := do
  requireFields record ["densities", "densities_y", "unique_x"]
  let categories ← readVector (record.getD "unique_x") "unique_x"
  let densities ← readItems (record.getD "densities")
  let positions ← readItems (record.getD "densities_y")
  if densities.length ≠ categories.length ∨ positions.length ≠ categories.length then
    throw (.malformed .violinCounts)
  let curves ← (densities.zip positions).mapM fun p => readPair p.1 p.2 "d" "y"
  return Normalized.concat (List.zipWith (readViolinCategory group) categories curves)

/-! ## 5. Cells -/

/-- The edges along both axes: two fields of a mapping, or two items. -/
def readCellEdges (v : Value) : Reading (List Float × List Float) := do
  let (xs, ys) ← match v with
    | .map _ => pure (v.getD "x", v.getD "y")
    | .list _ | .scalar (.str _) | .array _ _ =>
        match v.iterate with
        | .ok [xs, ys] => pure (xs, ys)
        | _ => throw (.malformed .edgesMissing)
    | _ => throw (.malformed .edgesMissing)
  if xs.isNull || ys.isNull then throw (.malformed .edgesMissing)
  return (← readVector xs "edges.x", ← readVector ys "edges.y")

/-- The matrix of counts with a row for each bin along y; given the other way round it is turned. -/
def readCounts (v : Value) (expected : List Nat) : Reading Grid := do
  let counts := (← readGrid v).asMatrix
  if counts.shape = expected then return counts
  else if counts.shape.reverse = expected then return counts.transpose
  else throw (.malformed (.countsShape counts.shape expected))

/-- The cells of one row of counts that are neither zero nor NaN. -/
def rowCells (group : Nat) (y yWidth : Float) (columns : List (Float × Float))
    (counts : List Float) : List Cell :=
  (columns.zip counts).filterMap fun ((x, xWidth), count) =>
    if count == 0 || count.isNaN then none else some ⟨group, x, y, count, xWidth, yWidth⟩

def readCells (group : Nat) (record : Value) : Reading (Normalized Cell) := do
  requireFields record ["counts", "edges"]
  let (xEdges, yEdges) ← readCellEdges (record.getD "edges")
  let counts ← readCounts (record.getD "counts") [yEdges.length - 1, xEdges.length - 1]
  let columns := (Sequence.midpoints xEdges).zip (Sequence.steps xEdges)
  let rows := (Sequence.midpoints yEdges).zip (Sequence.steps yEdges)
  let cells := List.zipWith (fun (y, yWidth) row => rowCells group y yWidth columns row.cells)
    rows counts.rows
  return ⟨cells.flatten, []⟩

/-! ## 6. All kinds -/

/-- Reads the result of a statistic; the observations serve the interpolation of bands. -/
def normalize (kind : StatisticKind) (raw observationX : Value) :
    Except Fault (Normalized kind.Record) :=
  match kind with
  | .glm => readGroups .glm (readRegression .glm observationX) raw
  | .smooth => readGroups .smooth (readRegression .smooth observationX) raw
  | .bin => readGroups .bin readBins raw
  | .summary => readGroups .summary (readSummary observationX) raw
  | .boxplot => readGroups .boxplot readBoxes raw
  | .density => readGroups .density readDensity raw
  | .violin => readGroups .violin readViolin raw
  | .qq => readGroups .qq readQuantiles raw
  | .bin2d => readGroups .bin2d readCells raw

/-- The statistic that a kind of layer draws. -/
def LayerKind.asStatistic : LayerKind → Except Fault StatisticKind
  | .statistic s => .ok s
  | .geometry g => .error (.notAStatistic (.geometry g))

end PlotScene
