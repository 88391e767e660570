import PlotScene.Proofs.Numeric.Grid
import PlotScene.Proofs.Pairwise

/-!
# Rows as a matrix

Rows of numbers have a regular outline when they are equally long, and then they are read as a
matrix.
-/

namespace PlotScene

/-- The forms in which a row of doubles is given: scalars that stand for them, or an array with one
axis. -/
inductive Value.GivesRow (row : List Float) : Value → Prop
  | scalars {ss : List Scalar} : ss.Forall₂ (fun s x => s.toDouble = .ok x) row →
      GivesRow row (.list (ss.map .scalar))
  | array : GivesRow row (.array [row.length] row)

/-- The forms in which rows of one width are given: one by one, or as an array with two axes. -/
inductive Value.GivesRows (width : Nat) (rows : List (List Float)) : Value → Prop
  | list {vs : List Value} : vs.Forall₂ (fun v row => v.GivesRow row) rows →
      GivesRows width rows (.list vs)
  | array : GivesRows width rows (.array [rows.length, width] rows.flatten)

namespace Grid

/-! ## 1. Outlines -/

theorem outlineItems_scalars (s : Scalar) (rest : List Scalar) :
    outlineItems ((s :: rest).map .scalar) = some ⟨[], true⟩ := by
  induction rest generalizing s with
  | nil => rfl
  | cons t rest ih =>
    rw [List.map_cons, outlineItems, ih t]
    rfl

theorem outline_of_givesRow {v : Value} {row : List Float} (h : v.GivesRow row) :
    outline v = ⟨[row.length], true⟩ := by
  cases h with
  | @scalars ss hss =>
    rw [← hss.length_eq]
    cases ss with
    | nil => rfl
    | cons s rest => rw [outline, outlineItems_scalars, List.length_map]
  | array => rfl

-- Rows meet in a regular outline when they are as long as the first one, and it is then theirs.
theorem outlineItems_rows {v : Value} {vs : List Value} {row : List Float}
    {rest : List (List Float)} (hv : v.GivesRow row)
    (hvs : vs.Forall₂ (fun v row => v.GivesRow row) rest) :
    ∃ o, outlineItems (v :: vs) = some o ∧
      (o.regular = true ↔ ∀ other ∈ rest, other.length = row.length) ∧
      (o.regular = true → o.shape = [row.length]) := by
  induction hvs generalizing v row with
  | nil =>
    refine ⟨outline v, rfl, ?_, ?_⟩
    · simp [outline_of_givesRow hv]
    · rw [outline_of_givesRow hv]
      exact fun _ => rfl
  | @cons w next ws rest hw _ ih =>
    obtain ⟨o, ho, hregular, hshape⟩ := ih hw
    refine ⟨(outline v).meet o, ?_, ?_, ?_⟩
    · rw [outlineItems, ho]
    · rw [outline_of_givesRow hv, List.forall_mem_cons]
      show (true && o.regular && [row.length] == o.shape) = true ↔ _
      rw [Bool.true_and, Bool.and_eq_true, hregular, beq_iff_eq]
      constructor
      · rintro ⟨hrest, hlength⟩
        rw [hshape (hregular.mpr hrest)] at hlength
        obtain hlength : row.length = next.length := by simpa using hlength
        exact ⟨hlength.symm, fun other hother => (hrest other hother).trans hlength.symm⟩
      · rintro ⟨hlength, hrest⟩
        have hnext : ∀ other ∈ rest, other.length = next.length :=
          fun other hother => (hrest other hother).trans hlength.symm
        exact ⟨hnext, by rw [hshape (hregular.mpr hnext), hlength]⟩
    · intro hmeet
      obtain ⟨-, -, -, hfirst⟩ := Outline.of_regular_meet hmeet
      rw [hfirst, outline_of_givesRow hv]

/-! ## 2. Cells -/

theorem cellsOf_of_toDouble {s : Scalar} {x : Float} (h : s.toDouble = .ok x) :
    cellsOf (.scalar s) = .ok [x] := by
  cases s with
  | null => cases h
  | _ =>
    rw [cellsOf, h]
    · rfl
    · exact Scalar.noConfusion

theorem cellsOf_of_givesRow {v : Value} {row : List Float} (h : v.GivesRow row) :
    cellsOf v = .ok row := by
  cases h with
  | array => rfl
  | scalars hss =>
    rw [cellsOf]
    induction hss with
    | nil => rfl
    | cons hs _ ih =>
      rw [List.map_cons, cellsOfItems, cellsOf_of_toDouble hs, ih]
      rfl

theorem cellsOfItems_rows {vs : List Value} {rows : List (List Float)}
    (h : vs.Forall₂ (fun v row => v.GivesRow row) rows) : cellsOfItems vs = .ok rows.flatten := by
  induction h with
  | nil => rfl
  | cons hv _ ih =>
    rw [cellsOfItems, cellsOf_of_givesRow hv, ih]
    rfl

/-! ## 3. Matrices -/

/-- Equally long rows are read as a matrix. -/
theorem ofValue_of_givesRows {width : Nat} {v : Value} {rows : List (List Float)} (hne : rows ≠ [])
    (hwidth : ∀ row ∈ rows, row.length = width) (h : v.GivesRows width rows) :
    ofValue v = .ok ⟨[rows.length, width], rows.flatten⟩ := by
  cases h with
  | array => rfl
  | list h =>
    have hcells := cellsOfItems_rows h
    have hcount := h.length_eq
    cases h with
    | nil => exact absurd rfl hne
    | @cons v row vs rest hv hvs =>
      obtain ⟨o, ho, hregular, hshape⟩ := outlineItems_rows hv hvs
      obtain ⟨hrow, hrest⟩ := List.forall_mem_cons.mp hwidth
      have hr : o.regular = true :=
        hregular.mpr fun other hother => (hrest other hother).trans hrow.symm
      rw [ofValue, outline, ho, cellsOf, hcells]
      dsimp only
      rw [if_pos hr, hshape hr, hrow, hcount]
      rfl

/-- Rows of different lengths are refused. -/
theorem ofValue_ragged {v : Value} {vs : List Value} {row : List Float} {rest : List (List Float)}
    (hv : v.GivesRow row) (hvs : vs.Forall₂ (fun v row => v.GivesRow row) rest)
    (h : ¬ ∀ other ∈ rest, other.length = row.length) :
    ∃ shape, ofValue (.list (v :: vs)) = .error (.ragged shape) := by
  obtain ⟨o, ho, hregular, -⟩ := outlineItems_rows hv hvs
  rw [ofValue, outline, ho]
  exact ⟨_, if_neg fun hr => h (hregular.mp hr)⟩

end Grid

end PlotScene
