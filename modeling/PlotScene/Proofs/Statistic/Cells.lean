import Mathlib.LinearAlgebra.Matrix.Defs
import PlotScene.Proofs.Layer.Heat
import PlotScene.Proofs.Statistic.Answer
import PlotScene.Proofs.Statistic.Layout

/-!
# The cells of a matrix of counts

A histogram in two dimensions is given by the edges along both axes and a matrix of counts with a
row for each bin along y.  Each count but zero and NaN is read as one cell, row by row; the matrix
may also be given with a row for each bin along x.
-/

namespace PlotScene

/-! ## 1. Matrices -/

namespace Grid

variable {R C : Nat}

/-- The entries of a matrix, row by row. -/
def rowMajor (M : Matrix (Fin R) (Fin C) Float) : List Float :=
  (List.finRange R).flatMap fun i => (List.finRange C).map (M i)

theorem cut_flatten {α : Type} {width : Nat} {parts : List (List α)}
    (h : ∀ part ∈ parts, part.length = width) :
    cut width parts.length parts.flatten = parts := by
  induction parts with
  | nil => rfl
  | cons part parts ih =>
    have hpart : part.length = width := h part List.mem_cons_self
    rw [List.flatten_cons, List.length_cons, cut, ← hpart, List.take_left, List.drop_left, hpart,
      ih fun p hp => h p (List.mem_cons_of_mem _ hp)]

theorem cut_rowMajor (M : Matrix (Fin R) (Fin C) Float) :
    cut C R (rowMajor M) = (List.finRange R).map fun i => (List.finRange C).map (M i) := by
  have hrows : ∀ row ∈ (List.finRange R).map fun i => (List.finRange C).map (M i),
      row.length = C := by
    simp
  have hcut := cut_flatten hrows
  rwa [List.length_map, List.length_finRange, ← List.flatMap_def] at hcut

theorem rows_rowMajor (M : Matrix (Fin R) (Fin C) Float) :
    rows ⟨[R, C], rowMajor M⟩ =
      (List.finRange R).map fun i => ⟨[C], (List.finRange C).map (M i)⟩ := by
  show (cut ([C].foldl (· * ·) 1) R (rowMajor M)).map _ = _
  have hwidth : [C].foldl (· * ·) 1 = C := Nat.one_mul C
  rw [hwidth, cut_rowMajor, List.map_map]
  rfl

-- The columns of a matrix are the rows of the other.
theorem interleave_rowMajor (M : Matrix (Fin R) (Fin C) Float) :
    interleave R ((List.finRange C).map fun j => (List.finRange R).map (M.transpose j)) =
      rowMajor M := by
  rw [interleave, rowMajor, ← List.map_coe_finRange_eq_range, List.flatMap_map]
  refine List.flatMap_congr fun i _ => ?_
  rw [List.filterMap_map]
  have hentry : ∀ j ∈ List.finRange C,
      ((fun column => column[i.val]?) ∘ fun j => (List.finRange R).map (M.transpose j)) j =
        (some ∘ M i) j := by
    simp
  rw [List.filterMap_congr hentry, List.filterMap_eq_map]

/-- A matrix that is given the other way round is turned. -/
theorem transpose_rowMajor (M : Matrix (Fin R) (Fin C) Float) :
    transpose ⟨[C, R], rowMajor M.transpose⟩ = ⟨[R, C], rowMajor M⟩ := by
  have hwidth : [R].foldl (· * ·) 1 = R := Nat.one_mul R
  have hflat : ∀ row ∈ (List.finRange C).map fun j => (List.finRange R).map (M.transpose j),
      columnMajor [R] row = row := by
    intro row hrow
    obtain ⟨j, -, rfl⟩ := List.mem_map.mp hrow
    have hrow := Band.columnMajor_flat ((List.finRange R).map (M.transpose j))
    rwa [List.length_map, List.length_finRange] at hrow
  show Grid.mk [R, C] (interleave ([R].foldl (· * ·) 1)
    ((cut ([R].foldl (· * ·) 1) C (rowMajor M.transpose)).map (columnMajor [R]))) = _
  rw [hwidth, cut_rowMajor, List.map_congr_left hflat, List.map_id', interleave_rowMajor]

end Grid

/-- A value gives a matrix: it is numeric, and seen as one of at least two dimensions it has the
shape and the entries of the matrix. -/
structure Value.GivesMatrix {R C : Nat} (M : Matrix (Fin R) (Fin C) Float) (v : Value) : Prop where
  there : v.isNull = false
  reads : ∃ g, Grid.ofValue v = .ok g ∧ g.asMatrix = ⟨[R, C], Grid.rowMajor M⟩

/-- A matrix as a list of rows. -/
def Grid.matrixValue {R C : Nat} (M : Matrix (Fin R) (Fin C) Float) : Value :=
  .list ((List.finRange R).map fun i => rowValue ((List.finRange C).map (M i)))

theorem Grid.givesMatrix_matrixValue {R C : Nat} (hR : 1 ≤ R) (M : Matrix (Fin R) (Fin C) Float) :
    (matrixValue M).GivesMatrix M where
  there := rfl
  reads := by
    have hrows : ∀ row ∈ (List.finRange R).map fun i => (List.finRange C).map (M i),
        row.length = C := by
      simp
    have hne : (List.finRange R).map (fun i => (List.finRange C).map (M i)) ≠ [] := by
      rw [Ne, List.map_eq_nil_iff, ← List.length_eq_zero_iff, List.length_finRange]
      omega
    have hvalue := ofValue_rows_eq hne hrows
    rw [List.map_map, List.length_map, List.length_finRange, ← List.flatMap_def] at hvalue
    exact ⟨_, hvalue, rfl⟩

/-! ## 2. Edges -/

/-- The forms in which the edges along both axes are given: two fields of a mapping, two items of a
list, or two rows of an array. -/
inductive Value.GivesEdges (xs ys : List Float) : Value → Prop where
  | fields {es : Entries} : ((Value.map es).getD "x").Holds xs →
      ((Value.map es).getD "y").Holds ys → GivesEdges xs ys (.map es)
  | items {vx vy : Value} : vx.Holds xs → vy.Holds ys → GivesEdges xs ys (.list [vx, vy])
  | rows {shape : List Nat} {cells : List Float} {vx vy : Value} :
      (Value.array shape cells).iterate = .ok [vx, vy] → vx.Holds xs → vy.Holds ys →
      GivesEdges xs ys (.array shape cells)

-- Null reads as a single number.
theorem isNull_of_holds {v : Value} {xs : List Float} (h : v.Holds xs) (hlength : 2 ≤ xs.length) :
    v.isNull = false := by
  obtain ⟨shape, hg⟩ := h
  cases v with
  | scalar s =>
    obtain ⟨x, rfl⟩ := Grid.cellsOf_scalar (Grid.ofValue_eq_ok hg).2.2
    exact absurd hlength (by simp)
  | _ => rfl

theorem readCellEdges_of_givesEdges {v : Value} {xs ys : List Float} (h : v.GivesEdges xs ys)
    (hx : 2 ≤ xs.length) (hy : 2 ≤ ys.length) : readCellEdges v = .ok (xs, ys) := by
  have hpair {vx vy : Value} (hvx : vx.Holds xs) (hvy : vy.Holds ys) :
      (vx.isNull || vy.isNull) = false ∧ readVector vx "edges.x" = .ok xs ∧
        readVector vy "edges.y" = .ok ys := by
    refine ⟨by rw [isNull_of_holds hvx hx, isNull_of_holds hvy hy]; rfl, ?_, ?_⟩
    · exact readVector_eq_ok.mpr ⟨hvx, by rintro rfl; simp at hx⟩
    · exact readVector_eq_ok.mpr ⟨hvy, by rintro rfl; simp at hy⟩
  cases h with
  | fields hvx hvy =>
    obtain ⟨hnull, hreadx, hready⟩ := hpair hvx hvy
    simp only [readCellEdges, pure_bind, hnull, hreadx, hready]
    rfl
  | items hvx hvy =>
    obtain ⟨hnull, hreadx, hready⟩ := hpair hvx hvy
    simp only [readCellEdges, Value.iterate, pure_bind, hnull, hreadx, hready]
    rfl
  | rows hrows hvx hvy =>
    obtain ⟨hnull, hreadx, hready⟩ := hpair hvx hvy
    simp only [readCellEdges, hrows, pure_bind, hnull, hreadx, hready]
    rfl

/-! ## 3. Cells -/

section

variable {R C : Nat}

/-- The cell of an entry, between the edges of its column and of its row; an entry that is zero or
NaN has none. -/
def cellAt? (g : Nat) (xs : Fin (C + 1) → Float) (ys : Fin (R + 1) → Float)
    (M : Matrix (Fin R) (Fin C) Float) (i : Fin R) (j : Fin C) : Option Cell :=
  if M i j == 0 || (M i j).isNaN then none
  else some {
    group := g
    x := (xs j.castSucc + xs j.succ) / 2
    y := (ys i.castSucc + ys i.succ) / 2
    count := M i j
    xWidth := xs j.succ - xs j.castSucc
    yWidth := ys i.succ - ys i.castSucc }

/-- The cells of a matrix of counts, row by row. -/
def cellsOfMatrix (g : Nat) (xs : Fin (C + 1) → Float) (ys : Fin (R + 1) → Float)
    (M : Matrix (Fin R) (Fin C) Float) : List Cell :=
  (List.finRange R).flatMap fun i => (List.finRange C).filterMap (cellAt? g xs ys M i)

-- What is computed of neighbouring edges, bin by bin.
theorem zipWith_neighbours {n : Nat} (f : Float → Float → Float) (xs : Fin (n + 1) → Float) :
    (List.ofFn xs).zipWith f (List.ofFn xs).tail =
      (List.finRange n).map fun j => f (xs j.castSucc) (xs j.succ) := by
  apply List.ext_getElem
  · simp
  · intro j hj hj'
    simp only [List.getElem_zipWith, List.getElem_tail, List.getElem_ofFn, List.getElem_map,
      List.getElem_finRange]
    rfl

theorem bins_ofFn {n : Nat} (xs : Fin (n + 1) → Float) :
    (Sequence.midpoints (List.ofFn xs)).zip (Sequence.steps (List.ofFn xs)) =
      (List.finRange n).map fun j =>
        ((xs j.castSucc + xs j.succ) / 2, xs j.succ - xs j.castSucc) := by
  rw [Sequence.midpoints, Sequence.steps, zipWith_neighbours, zipWith_neighbours, List.zip_map']

theorem rowCells_eq_filterMap (g : Nat) (xs : Fin (C + 1) → Float) (ys : Fin (R + 1) → Float)
    (M : Matrix (Fin R) (Fin C) Float) (i : Fin R) :
    rowCells g ((ys i.castSucc + ys i.succ) / 2) (ys i.succ - ys i.castSucc)
        ((Sequence.midpoints (List.ofFn xs)).zip (Sequence.steps (List.ofFn xs)))
        ((List.finRange C).map (M i)) =
      (List.finRange C).filterMap (cellAt? g xs ys M i) := by
  rw [rowCells, bins_ofFn, List.zip_map', List.filterMap_map]
  rfl

-- Between edges that have been read, the counts are read in the shape that the edges ask for.
theorem readCells_eq {record : Value} {xs : Fin (C + 1) → Float} {ys : Fin (R + 1) → Float}
    (g : Nat) (hfields : requireFields record ["counts", "edges"] = .ok ())
    (hedges : readCellEdges (record.getD "edges") = .ok (List.ofFn xs, List.ofFn ys)) :
    readCells g record = readCounts (record.getD "counts") [R, C] >>= fun counts =>
      .ok ⟨(List.zipWith (fun bin row => rowCells g bin.1 bin.2
          ((Sequence.midpoints (List.ofFn xs)).zip (Sequence.steps (List.ofFn xs))) row.cells)
        ((Sequence.midpoints (List.ofFn ys)).zip (Sequence.steps (List.ofFn ys)))
        counts.rows).flatten, []⟩ := by
  have hexpected : [(List.ofFn ys).length - 1, (List.ofFn xs).length - 1] = [R, C] := by simp
  rw [readCells, hfields, ok_bind, hedges, ok_bind]
  dsimp only
  rw [hexpected]
  rfl

theorem readCells_of_readCounts {record : Value} {xs : Fin (C + 1) → Float}
    {ys : Fin (R + 1) → Float} {M : Matrix (Fin R) (Fin C) Float} (g : Nat)
    (hfields : requireFields record ["counts", "edges"] = .ok ())
    (hedges : readCellEdges (record.getD "edges") = .ok (List.ofFn xs, List.ofFn ys))
    (hcounts : readCounts (record.getD "counts") [R, C] = .ok ⟨[R, C], Grid.rowMajor M⟩) :
    readCells g record = .ok ⟨cellsOfMatrix g xs ys M, []⟩ := by
  rw [readCells_eq g hfields hedges, hcounts, ok_bind, Grid.rows_rowMajor, bins_ofFn ys,
    List.zipWith_map, List.zipWith_self]
  dsimp only
  rw [List.map_congr_left fun i _ => rowCells_eq_filterMap g xs ys M i, ← List.flatMap_def]
  rfl

theorem readCounts_of_givesMatrix {v : Value} {M : Matrix (Fin R) (Fin C) Float}
    (h : v.GivesMatrix M) : readCounts v [R, C] = .ok ⟨[R, C], Grid.rowMajor M⟩ := by
  obtain ⟨-, g, hg, hmatrix⟩ := h
  rw [readCounts, readGrid_eq_ok.mpr hg, ok_bind, hmatrix]
  exact if_pos rfl

-- A matrix that is not square has its own shape one way only.
theorem readCounts_of_givesMatrix_transpose {v : Value} {M : Matrix (Fin R) (Fin C) Float}
    (h : v.GivesMatrix M.transpose) (hsquare : R ≠ C) :
    readCounts v [R, C] = .ok ⟨[R, C], Grid.rowMajor M⟩ := by
  obtain ⟨-, g, hg, hmatrix⟩ := h
  have hshape : [C, R] ≠ [R, C] := fun heq => hsquare (List.cons.inj heq).1.symm
  rw [readCounts, readGrid_eq_ok.mpr hg, ok_bind, hmatrix]
  refine (if_neg hshape).trans ((if_pos rfl).trans ?_)
  rw [Grid.transpose_rowMajor]
  rfl

theorem readCounts_of_shape_ne {v : Value} {g : Grid} (hg : Grid.ofValue v = .ok g)
    (hshape : g.asMatrix.shape ≠ [R, C]) (hturned : g.asMatrix.shape ≠ [C, R]) :
    readCounts v [R, C] = .error (.malformed (.countsShape g.asMatrix.shape [R, C])) := by
  have hreverse : g.asMatrix.shape.reverse ≠ [R, C] := by
    intro heq
    rw [List.reverse_eq_iff] at heq
    exact hturned heq
  rw [readCounts, readGrid_eq_ok.mpr hg, ok_bind]
  exact (if_neg hshape).trans (if_neg hreverse)

end

/-! ## 4. Groups -/

/-- What is read of a record is this: it is all where the record stands alone, and else what its
group has of all that is read. -/
structure Value.GivesCells (record observationX : Value) (part : Nat → Normalized Cell) : Prop where
  alone : normalize .bin2d record observationX = .ok (part 1)
  group : ∀ raw n i, normalize .bin2d raw observationX = .ok n →
    (groupsOf raw)[i]? = some record → n.ofGroup (i + 1) = part (i + 1)

theorem givesCells_of_readGroup {record observationX : Value} {part : Nat → Normalized Cell}
    (hmap : record.isMap = true) (h : ∀ g, readGroup .bin2d readCells g record = .ok (part g)) :
    record.GivesCells observationX part where
  alone := (normalize_of_isMap hmap).trans (h 1)
  group _ _ i hn hi := Except.ok.inj ((readGroup_of_normalize hn hi).symm.trans (h (i + 1)))

section

variable {R C : Nat} {record : Value} {xs : Fin (C + 1) → Float} {ys : Fin (R + 1) → Float}

theorem isNull_of_givesEdges {v : Value} {xs ys : List Float} (h : v.GivesEdges xs ys) :
    v.isNull = false := by
  cases h <;> rfl

theorem requireFields_of_isNull (hcounts : (record.getD "counts").isNull = false)
    (hedges : (record.getD "edges").isNull = false) :
    requireFields record ["counts", "edges"] = .ok () := by
  exact requireFields_eq_ok.mpr ⟨isMap_of_isNull_getD hedges, by simp [hcounts, hedges]⟩

/-- A matrix of counts between edges is read as its cells, without a notice, whether it has a row
for each bin along y or, unless there are as many along x, for each bin along x.  Counts of any
other shape make a notice and no cell. -/
theorem normalize_matrix (hR : 1 ≤ R) (hC : 1 ≤ C)
    (hedges : (record.getD "edges").GivesEdges (List.ofFn xs) (List.ofFn ys))
    (observationX : Value) :
    (∀ M : Matrix (Fin R) (Fin C) Float, (record.getD "counts").GivesMatrix M →
      record.GivesCells observationX fun g => ⟨cellsOfMatrix g xs ys M, []⟩) ∧
    (R ≠ C → ∀ M : Matrix (Fin R) (Fin C) Float, (record.getD "counts").GivesMatrix M.transpose →
      record.GivesCells observationX fun g => ⟨cellsOfMatrix g xs ys M, []⟩) ∧
    ∀ counts, Grid.ofValue (record.getD "counts") = .ok counts →
      (record.getD "counts").isNull = false →
      counts.asMatrix.shape ≠ [R, C] → counts.asMatrix.shape ≠ [C, R] →
      record.GivesCells observationX fun g => Normalized.notice
        ((Malformed.countsShape counts.asMatrix.shape [R, C]).notice .bin2d g) := by
  have hnull := isNull_of_givesEdges hedges
  have hmap := isMap_of_isNull_getD hnull
  have hread := readCellEdges_of_givesEdges hedges
    (by rw [List.length_ofFn]; omega) (by rw [List.length_ofFn]; omega)
  have hcells {M : Matrix (Fin R) (Fin C) Float} (hthere : (record.getD "counts").isNull = false)
      (hcounts : readCounts (record.getD "counts") [R, C] = .ok ⟨[R, C], Grid.rowMajor M⟩) :
      record.GivesCells observationX fun g => ⟨cellsOfMatrix g xs ys M, []⟩ := by
    refine givesCells_of_readGroup hmap fun g => ?_
    rw [readGroup, readCells_of_readCounts g (requireFields_of_isNull hthere hnull) hread hcounts]
  refine ⟨fun M hM => ?_, fun hsquare M hM => ?_, fun counts hcounts hthere hshape hturned => ?_⟩
  · exact hcells hM.there (readCounts_of_givesMatrix hM)
  · exact hcells hM.there (readCounts_of_givesMatrix_transpose hM hsquare)
  · refine givesCells_of_readGroup hmap fun g => ?_
    rw [readGroup, readCells_eq g (requireFields_of_isNull hthere hnull) hread,
      readCounts_of_shape_ne hcounts hshape hturned]
    rfl

end

/-- Counts between the edges of two bins along x and of one along y. -/
def twoBins (counts : Value) : Value :=
  .obj [("counts", counts), ("edges", .obj [("x", .list [.float 0, .float 1, .float 3]),
    ("y", .list [.float 0, .float 2])])]

/-- A row of two counts, of which one is not known. -/
def twoCounts : Matrix (Fin 1) (Fin 2) Float :=
  ![![5, Double.nan]]

theorem normalize_matrix_twoBins :
    normalize .bin2d (twoBins (Grid.matrixValue twoCounts)) .null =
        .ok ⟨[Cell.mk 1 0.5 1 5 1 2], []⟩ ∧
      normalize .bin2d (twoBins (Grid.matrixValue twoCounts.transpose)) .null =
        .ok ⟨[Cell.mk 1 0.5 1 5 1 2], []⟩ ∧
      normalize .bin2d (twoBins (.list [.float 5])) .null = .ok (Normalized.notice
        ((Malformed.countsShape [1, 1] [1, 2]).notice .bin2d 1)) := by
  have hedges (counts : Value) : ((twoBins counts).getD "edges").GivesEdges
      (List.ofFn ![0, 1, 3]) (List.ofFn ![0, 2]) :=
    .fields ⟨[3], rfl⟩ ⟨[2], rfl⟩
  have hread (counts : Value) := normalize_matrix (by decide) (by decide) (hedges counts) .null
  have hcells : cellsOfMatrix 1 ![0, 1, 3] ![0, 2] twoCounts = [Cell.mk 1 0.5 1 5 1 2] := by
    rfl
  refine ⟨?_, ?_, ?_⟩
  · have hrows := Grid.givesMatrix_matrixValue (by decide) twoCounts
    exact hcells ▸ ((hread _).1 twoCounts hrows).alone
  · have hcolumns := Grid.givesMatrix_matrixValue (by decide) twoCounts.transpose
    exact hcells ▸ ((hread _).2.1 (by decide) twoCounts hcolumns).alone
  · exact ((hread _).2.2 ⟨[1], [5]⟩ rfl rfl (by decide) (by decide)).alone

end PlotScene
