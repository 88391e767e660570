import PlotScene.Layer.Bin
import PlotScene.Proofs.Numeric.Matrix
import PlotScene.Proofs.Outcome

/-!
# When a heat map has its color scale

A color map is sampled as a matrix, so its rows have to be equally long.  Nothing else about it
stops a heat map: a matrix that is no color map gives way to the continuous palette.
-/

namespace PlotScene

/-- All rows of a color map have the same length. -/
def EquallyLong (rows : List (List Float)) : Prop :=
  ∀ row ∈ rows, ∀ other ∈ rows, row.length = other.length

instance (rows : List (List Float)) : Decidable (EquallyLong rows) :=
  inferInstanceAs (Decidable (∀ row ∈ rows, ∀ other ∈ rows, row.length = other.length))

theorem equallyLong_cons {row : List Float} {rest : List (List Float)} :
    EquallyLong (row :: rest) ↔ ∀ other ∈ rest, other.length = row.length := by
  constructor
  · intro h other hother
    exact h other (List.mem_cons_of_mem _ hother) row List.mem_cons_self
  · intro h
    have hfirst : ∀ r ∈ row :: rest, r.length = row.length := List.forall_mem_cons.mpr ⟨rfl, h⟩
    intro r hr other hother
    rw [hfirst r hr, hfirst other hother]

/-! ## 1. Rows as a matrix -/

namespace Grid

/-- A row of a color map as a value. -/
def rowValue (row : List Float) : Value :=
  .list (row.map .float)

theorem givesRow_rowValue (row : List Float) : (rowValue row).GivesRow row := by
  have hvalue : rowValue row = .list ((row.map Scalar.float).map .scalar) := by
    rw [rowValue, List.map_map]
    rfl
  rw [hvalue]
  exact .scalars (by simp [Scalar.toDouble])

theorem givesRow_map_rowValue (rows : List (List Float)) :
    (rows.map rowValue).Forall₂ (fun v row => v.GivesRow row) rows := by
  rw [List.forall₂_map_left_iff, List.forall₂_same]
  exact fun row _ => givesRow_rowValue row

/-- Rows of one length are read as a matrix. -/
theorem ofValue_rows_eq {width : Nat} {rows : List (List Float)} (hne : rows ≠ [])
    (h : ∀ row ∈ rows, row.length = width) :
    ofValue (.list (rows.map rowValue)) = .ok ⟨[rows.length, width], rows.flatten⟩ :=
  ofValue_of_givesRows hne h (.list (givesRow_map_rowValue rows))

theorem ofValue_rows {rows : List (List Float)} (h : EquallyLong rows) :
    ∃ g, ofValue (.list (rows.map rowValue)) = .ok g := by
  cases rows with
  | nil => exact ⟨_, rfl⟩
  | cons row rest =>
    exact ⟨_, ofValue_rows_eq (List.cons_ne_nil _ _) fun r hr => h r hr row List.mem_cons_self⟩

theorem ofValue_rows_ragged {rows : List (List Float)} (h : ¬ EquallyLong rows) :
    ∃ shape, ofValue (.list (rows.map rowValue)) = .error (.ragged shape) := by
  cases rows with
  | nil => exact absurd (List.forall_mem_nil _) h
  | cons row rest =>
    rw [equallyLong_cons] at h
    exact ofValue_ragged (givesRow_rowValue row) (givesRow_map_rowValue rest) h

end Grid

/-! ## 2. Samples -/

theorem Colormap.sample_of_ok {m : Value} {g : Grid} (h : Grid.ofValue m = .ok g) (count : Nat) :
    ∃ colors, sample m count = .ok colors := by
  have hg : (Grid.ofValue m).mapError Fault.number = .ok g := by
    rw [h]
    rfl
  rw [sample, sampleIn, hg, ok_bind]
  split
  next rows width _ =>
    split
    · exact ⟨_, rfl⟩
    · rw [if_neg (by omega : ¬ (count : Int) < 0)]
      exact ⟨_, rfl⟩
  next => exact ⟨_, rfl⟩

theorem Colormap.sample_of_error {m : Value} {f : NumberFault} (h : Grid.ofValue m = .error f)
    (count : Nat) : sample m count = .error (.number f) := by
  rw [sample, sampleIn, h]
  rfl

theorem Style.heatColors_of_ok (s : Style) {m : Value} {g : Grid} (h : Grid.ofValue m = .ok g) :
    ∃ colors, s.heatColors (some m) = .ok colors := by
  obtain ⟨colors, hcolors⟩ := Colormap.sample_of_ok h s.colormapSamples
  rw [heatColors, hcolors]
  cases colors <;> exact ⟨_, rfl⟩

theorem Style.heatColors_of_error (s : Style) {m : Value} {f : NumberFault}
    (h : Grid.ofValue m = .error f) : s.heatColors (some m) = .error (.number f) := by
  rw [heatColors, Colormap.sample_of_error h]
  rfl

/-! ## 3. The scale of a heat map -/

/-- The color map that a plot gives to its heat map has rows of different lengths. -/
def Plot.RaggedColormap (p : Plot) : Prop :=
  p.continuousColor.active = true ∧ ∃ rows ∈ p.continuousColor.colormap, ¬ EquallyLong rows

instance (p : Plot) : Decidable p.RaggedColormap :=
  inferInstanceAs (Decidable (_ ∧ _))

namespace Cell

variable {p : Plot} {o : Presentation} {s : Style}

/-- The color map of a heat map as a value, where the plot asks for a continuous color. -/
def givenColormap (p : Plot) : Option Value :=
  if p.continuousColor.active then p.continuousColor.colormap.map colormapValue else none

theorem heatColors_answers (h : ¬ p.RaggedColormap) (s : Style) :
    ∃ colors, s.heatColors (givenColormap p) = .ok colors := by
  rw [givenColormap]
  split
  next hactive =>
    cases hmap : p.continuousColor.colormap with
    | none => exact ⟨_, rfl⟩
    | some rows =>
      have hlong : EquallyLong rows := Decidable.byContradiction fun hragged =>
        h ⟨hactive, rows, hmap, hragged⟩
      obtain ⟨g, hg⟩ := Grid.ofValue_rows hlong
      exact s.heatColors_of_ok hg
  next => exact ⟨_, rfl⟩

theorem heatColors_ragged (h : p.RaggedColormap) :
    ∃ shape, ∀ s : Style, s.heatColors (givenColormap p) = .error (.number (.ragged shape)) := by
  obtain ⟨hactive, rows, hmap, hragged⟩ := h
  obtain ⟨shape, hshape⟩ := Grid.ofValue_rows_ragged hragged
  refine ⟨shape, fun s => ?_⟩
  rw [givenColormap, if_pos hactive, hmap]
  exact s.heatColors_of_error hshape

theorem fragment_answers (h : ¬ p.RaggedColormap) (cells : List Cell) :
    ∃ f, fragment cells p o s = .ok f := by
  obtain ⟨colors, hcolors⟩ := heatColors_answers h s
  have hscale : ∃ scale, heatScale p s = .ok scale := by
    unfold heatScale
    dsimp only
    rw [← givenColormap, hcolors, ok_bind]
    split <;> exact ⟨_, rfl⟩
  obtain ⟨scale, hscale⟩ := hscale
  rw [fragment, hscale]
  exact ⟨_, rfl⟩

theorem fragment_ragged (h : p.RaggedColormap) : ∃ shape, ∀ cells (o : Presentation) (s : Style),
    fragment cells p o s = .error (.number (.ragged shape)) := by
  obtain ⟨shape, hshape⟩ := heatColors_ragged h
  refine ⟨shape, fun cells o s => ?_⟩
  have hscale : heatScale p s = .error (.number (.ragged shape)) := by
    unfold heatScale
    dsimp only
    rw [← givenColormap, hshape s]
    rfl
  rw [fragment, hscale]
  rfl

end Cell

end PlotScene
