import PlotScene.Colormap
import PlotScene.Proofs.Double.Within
import PlotScene.Proofs.Numeric.Matrix
import PlotScene.Proofs.Pairwise

/-!
# Samples of a color map

Any double gives a color channel of one byte.  The samples at equally spaced positions go over the
rows of a color map from the first one to the last, and miss none when there are enough of them.
-/

namespace PlotScene.Colormap

open Double Float.Model

/-! ## 1. Channels -/

theorem within_clip (x : Float) : Within 1 (clip x).toModel.unpack := by
  have hone : ((2 ^ 52 : Nat) : ℚ) * 2 ^ (-52 : Int) = 1 := by norm_num
  have hcanonical : Canonical (2 ^ 52) (-52) := ⟨by decide, by decide, fun _ => le_rfl⟩
  rw [clip]
  split_ifs with hnan hlow hhigh
  · exact .zero .positive
  · exact .zero .positive
  · exact .finite (m := 2 ^ 52) (e := -52) (by decide) (by decide) (by decide) hone.le
  · rw [Bool.not_eq_true] at hnan
    have hlow : rank 0 ≤ rank x := not_lt.mp fun h => hlow (lt_iff.mpr ⟨hnan, rfl, h⟩)
    have hhigh : rank x ≤ rank 1 := not_lt.mp fun h => hhigh (lt_iff.mpr ⟨rfl, hnan, h⟩)
    rw [← hone]
    exact within_of_between (by decide) hcanonical hlow hhigh

-- The product exceeds 255 by one unit in its last place at most, and so does the sum 255.5.
theorem floor?_clip (x : Float) :
    ∃ i : Nat, Double.floor? (clip x * 255 + 0.5) = some (i : Int) ∧ i < 256 := by
  have hscaled : Within (255 + 2 ^ (-45 : Int)) (clip x * 255).toModel.unpack := by
    have h := (within_clip x).mul (n := 255 * 2 ^ 45) (d := -45) (k := -45) (by decide)
      (by decide) (by norm_num) (by norm_num)
    have hback := h.unpack_pack (j := 8) (by norm_num) (by decide)
    exact hback.mono (by norm_num)
  have hlifted : Within (511 / 2 + 2 ^ (-44 : Int)) (clip x * 255 + 0.5).toModel.unpack := by
    have h := hscaled.add (n := 2 ^ 52) (d := -53) (k := -45) (by decide) (by decide) (by decide)
      (by decide) (by decide) (by norm_num) (by norm_num)
    have hback := h.unpack_pack (j := 8) (by norm_num) (by decide)
    exact hback.mono (by norm_num)
  exact floor?_of_within (by norm_num) (by norm_num) hlifted

/-- The byte of a channel is what its double is rounded to. -/
theorem floor?_channel (x : Float) :
    Double.floor? (clip x * 255 + 0.5) = some (channel x : Int) ∧ channel x < 256 := by
  obtain ⟨i, hi, hlt⟩ := floor?_clip x
  have hchannel : channel x = i := by
    rw [channel, hi]
    rfl
  rw [hchannel]
  exact ⟨hi, hlt⟩

/-! ## 2. Colors -/

def hexDigits : List Char :=
  "0123456789abcdef".toList

/-- A number sign and six hexadecimal digits in lower case. -/
def IsHexColor (s : String) : Prop :=
  ∃ digits, s.toList = '#' :: digits ∧ digits.length = 6 ∧ ∀ c ∈ digits, c ∈ hexDigits

theorem digitChar_mem_hexDigits : ∀ d < 16, Nat.digitChar d ∈ hexDigits := by decide

theorem mem_hexDigits_of_mem_toDigits {n : Nat} : ∀ c ∈ Nat.toDigits 16 n, c ∈ hexDigits := by
  induction n using Nat.strongRecOn with
  | ind n ih =>
    rw [Nat.toDigits_eq_if (by decide)]
    split
    next h => simpa using digitChar_mem_hexDigits n h
    next h =>
      rw [List.forall_mem_append]
      exact ⟨ih _ (by omega), by simpa using digitChar_mem_hexDigits _ (Nat.mod_lt n (by decide))⟩

-- A byte has at most two digits, and is filled up to two.
theorem hex_byte {n : Nat} (h : n < 256) :
    (Text.hex 2 n).length = 2 ∧ ∀ c ∈ Text.hex 2 n, c ∈ hexDigits := by
  have hlength : (Nat.toDigits 16 n).length ≤ 2 :=
    (Nat.length_toDigits_le_iff (by decide) (by decide)).mpr h
  rw [Text.hex]
  constructor
  · rw [List.length_append, List.length_replicate]
    omega
  · rw [List.forall_mem_append]
    refine ⟨fun c hc => ?_, mem_hexDigits_of_mem_toDigits⟩
    rw [List.eq_of_mem_replicate hc]
    decide

theorem isHexColor_color {row : List Float} (h : 3 ≤ row.length) : IsHexColor (color row) := by
  match row, h with
  | r :: g :: b :: rest, _ =>
    refine ⟨Text.hex 2 (channel r) ++ Text.hex 2 (channel g) ++ Text.hex 2 (channel b), ?_, ?_, ?_⟩
    · simp [color, hexColor]
    · simp [hex_byte (floor?_channel _).2]
    · intro c hc
      simp only [List.mem_append] at hc
      rcases hc with (hc | hc) | hc <;> exact (hex_byte (floor?_channel _).2).2 c hc

/-! ## 3. Rows at equally spaced positions -/

/-- The row nearest to the position after `k` of `steps` equal steps from row zero to row `last`; a
position halfway between two rows takes the later one. -/
def nearestRow (last steps k : Nat) : Nat :=
  (2 * k * last + steps) / (2 * steps)

section Nearest

variable {last steps : Nat}

theorem nearestRow_mono {k l : Nat} (h : k ≤ l) :
    nearestRow last steps k ≤ nearestRow last steps l := by
  apply Nat.div_le_div_right
  gcongr

theorem nearestRow_zero (h : 0 < steps) : nearestRow last steps 0 = 0 := by
  rw [nearestRow, Nat.div_eq_of_lt]
  omega

theorem nearestRow_steps (h : 0 < steps) : nearestRow last steps steps = last := by
  rw [nearestRow, Nat.mul_add_div (by omega), Nat.div_eq_of_lt (by omega), Nat.add_zero]

theorem nearestRow_succ_le (hle : last ≤ steps) (h : 0 < steps) (k : Nat) :
    nearestRow last steps (k + 1) ≤ nearestRow last steps k + 1 := by
  have hstep : 2 * (k + 1) * last + steps ≤ 2 * k * last + steps + 2 * steps := by nlinarith
  calc (2 * (k + 1) * last + steps) / (2 * steps)
      ≤ (2 * k * last + steps + 2 * steps) / (2 * steps) := Nat.div_le_div_right hstep
    _ = nearestRow last steps k + 1 := Nat.add_div_right _ (by omega)

-- Steps of at most one row pass through every row.
theorem exists_nearestRow (hle : last ≤ steps) (h : 0 < steps) {i l : Nat}
    (hi : i ≤ nearestRow last steps l) : ∃ k ≤ l, nearestRow last steps k = i := by
  induction l with
  | zero =>
    rw [nearestRow_zero h] at hi
    exact ⟨0, le_rfl, by rw [nearestRow_zero h]; omega⟩
  | succ l ih =>
    by_cases hbefore : i ≤ nearestRow last steps l
    · obtain ⟨k, hk, hrow⟩ := ih hbefore
      exact ⟨k, by omega, hrow⟩
    · have hstep := nearestRow_succ_le hle h l
      exact ⟨l + 1, le_rfl, by omega⟩

-- Both ways of taking steps give the same positions when nothing is rounded.
theorem spaced_rat (last : Nat) (h : 0 < steps) :
    @Sequence.spaced ℚ _ (Measure.ofNat 0) (Measure.ofNat last) (steps + 1) =
      (List.range (steps + 1)).map fun k : Nat => (k : ℚ) * (last / steps) := by
  have hsteps : (steps : ℚ) ≠ 0 := by exact_mod_cast h.ne'
  have hposition (k : Nat) : (if ((last : ℚ) - (0 : Nat)) / steps == (0 : Nat) then
      (k : ℚ) / steps * (last - (0 : Nat)) + (0 : Nat)
      else k * ((last - (0 : Nat)) / steps) + (0 : Nat)) = k * (last / steps) := by
    simp only [Nat.cast_zero, sub_zero, add_zero]
    split
    · ring
    · rfl
  have hlast : (steps * (last / steps) : ℚ) = last := by field_simp
  obtain ⟨m, rfl⟩ : ∃ m, steps = m + 1 := ⟨steps - 1, by omega⟩
  rw [List.range_succ, List.map_append, List.map_singleton, hlast]
  exact congrArg (· ++ [(last : ℚ)]) (List.map_congr_left fun k _ => hposition k)

-- The row that the position after `k` steps is rounded to.
theorem floor_position (last : Nat) (h : 0 < steps) (k : Nat) :
    (Rat.floor (k * (last / steps) + 1 / 2)).toNat = nearestRow last steps k := by
  have hsteps : (steps : ℚ) ≠ 0 := by exact_mod_cast h.ne'
  have hposition : (k * (last / steps) + 1 / 2 : ℚ) =
      ((2 * k * last + steps : Nat) : ℚ) / ((2 * steps : Nat) : ℚ) := by
    push_cast
    field_simp
  rw [hposition]
  show ⌊((2 * k * last + steps : Nat) : ℚ) / ((2 * steps : Nat) : ℚ)⌋.toNat = _
  rw [Rat.floor_natCast_div_natCast]
  rfl

/-- Positions that are not rounded lead to the nearest rows. -/
theorem sampleRows_rat (rows : Nat) (h : 0 < steps) :
    @sampleRows ℚ _ rows (steps + 1) =
      (List.range (steps + 1)).map (nearestRow (rows - 1) steps) := by
  rw [sampleRows, spaced_rat _ h, List.map_map]
  exact List.map_congr_left fun k _ => floor_position _ h k

/-- Row numbers that go from the first of `rows` rows to the last one without turning back, and
miss none when there are at least `rows` of them. -/
structure Spread (rows count : Nat) (picks : List Nat) : Prop where
  length : picks.length = count
  ascending : picks.Pairwise (· ≤ ·)
  inside : ∀ i ∈ picks, i < rows
  first : picks.head? = some 0
  last : picks.getLast? = some (rows - 1)
  covers : rows ≤ count → ∀ i < rows, i ∈ picks

theorem spread_sampleRows {rows : Nat} (hrows : 1 ≤ rows) (h : 0 < steps) :
    Spread rows (steps + 1) (@sampleRows ℚ _ rows (steps + 1)) := by
  have hlast : nearestRow (rows - 1) steps steps = rows - 1 := nearestRow_steps h
  rw [sampleRows_rat rows h]
  refine ⟨by simp, ?_, ?_, ?_, ?_, ?_⟩
  · rw [List.pairwise_map]
    exact List.pairwise_lt_range.imp fun hlt => nearestRow_mono hlt.le
  · intro i hi
    obtain ⟨k, hk, rfl⟩ := List.mem_map.mp hi
    have hle : nearestRow (rows - 1) steps k ≤ nearestRow (rows - 1) steps steps :=
      nearestRow_mono (Nat.le_of_lt_succ (List.mem_range.mp hk))
    omega
  · rw [List.head?_map, List.head?_range, if_neg (by omega), Option.map_some, nearestRow_zero h]
  · rw [List.getLast?_map, List.getLast?_range, if_neg (by omega), Option.map_some,
      Nat.add_sub_cancel, hlast]
  · intro hle i hi
    obtain ⟨k, hk, rfl⟩ := exists_nearestRow (show rows - 1 ≤ steps by omega) h
      (show i ≤ nearestRow (rows - 1) steps steps by omega)
    exact List.mem_map.mpr ⟨k, List.mem_range.mpr (by omega), rfl⟩

end Nearest

/-! ## 4. Samples -/

-- The cells of equally long rows are cut into these rows again.
theorem row_flatten {width : Nat} {doubles : List (List Float)}
    (h : ∀ row ∈ doubles, row.length = width) {i : Nat} {r : List Float}
    (hr : doubles[i]? = some r) : row width doubles.flatten i = r := by
  induction doubles generalizing i with
  | nil => cases hr
  | cons first rest ih =>
    obtain ⟨hfirst, hrest⟩ := List.forall_mem_cons.mp h
    rw [row, List.flatten_cons]
    cases i with
    | zero =>
      obtain rfl := Option.some.inj hr
      rw [Nat.zero_mul, List.drop_zero, ← hfirst, List.take_left]
    | succ i =>
      rw [Nat.succ_mul, Nat.add_comm, ← List.drop_drop, ← hfirst, List.drop_left, hfirst]
      exact ih hrest hr

section Samples

variable {v : Value} {doubles : List (List Float)} {width : Nat} (hne : doubles ≠ [])
  (hwidth : ∀ row ∈ doubles, row.length = width)

include hne hwidth

theorem sampleIn_of_givesRows (α : Type) [Measure α] (count : Nat) (hthree : 3 ≤ width)
    (h : v.GivesRows width doubles) :
    sampleIn α v count = .ok ((@sampleRows α _ doubles.length count).map
      fun i => color (row width doubles.flatten i)) := by
  have hshape : ¬ (doubles.length = 0 ∨ width < 3) := by
    rw [List.length_eq_zero_iff]
    exact not_or.mpr ⟨hne, Nat.not_lt.mpr hthree⟩
  rw [sampleIn, Grid.ofValue_of_givesRows hne hwidth h]
  show (if doubles.length = 0 ∨ width < 3 then _ else _) = _
  rw [if_neg hshape, if_neg (by omega), Int.toNat_natCast]
  rfl

/-- Equally long rows of at least three numbers, which may be NaN or infinite, give as many colors
as are asked for.  They are the colors of rows from the first one to the last in ascending order,
and of every row when there are enough of them. -/
theorem sampleIn_spread {count : Int} (hthree : 3 ≤ width) (hrows : v.GivesRows width doubles)
    (hcount : 2 ≤ count) :
    ∃ colors picks, sampleIn ℚ v count = .ok colors ∧
      (colors.length : Int) = count ∧ Spread doubles.length count.toNat picks ∧
      colors.Forall₂ (fun c i => IsHexColor c ∧ ∃ r, doubles[i]? = some r ∧ c = color r) picks := by
  obtain ⟨steps, rfl⟩ : ∃ steps : Nat, count = (steps + 1 : Nat) := ⟨(count - 1).toNat, by omega⟩
  have hspread : Spread doubles.length (steps + 1) (@sampleRows ℚ _ doubles.length (steps + 1)) :=
    spread_sampleRows (List.length_pos_iff.mpr hne) (by omega)
  refine ⟨_, _, sampleIn_of_givesRows hne hwidth ℚ _ hthree hrows, ?_, hspread, ?_⟩
  · rw [List.length_map, hspread.length]
  · rw [List.forall₂_map_left_iff, List.forall₂_same]
    intro i hi
    have hi : i < doubles.length := hspread.inside i hi
    have hr : doubles[i]? = some doubles[i] := List.getElem?_eq_getElem hi
    have hwide : doubles[i].length = width := hwidth _ (List.getElem_mem hi)
    rw [row_flatten hwidth hr]
    exact ⟨isHexColor_color (by omega), _, hr, rfl⟩

end Samples

/-- Two rows of scalars, with integers, NaN and infinities among them, and a row as an array. -/
def unboundedRows : Value :=
  .list [.list [.int 0, .float 0.5, .float infinity], .list [.float nan, .int 7, .float (-infinity)],
    .array [3] [1, 0.25, 0]]

def unboundedDoubles : List (List Float) :=
  [[Float.ofInt 0, 0.5, infinity], [nan, Float.ofInt 7, -infinity], [1, 0.25, 0]]

theorem sampleIn_spread_unboundedRows :
    unboundedRows.GivesRows 3 unboundedDoubles ∧
    ∃ colors picks, sampleIn ℚ unboundedRows 5 = .ok colors ∧
      (colors.length : Int) = 5 ∧ Spread 3 5 picks ∧
      colors.Forall₂ (fun c i => IsHexColor c ∧ ∃ r, unboundedDoubles[i]? = some r ∧ c = color r)
        picks := by
  have hrows : unboundedRows.GivesRows 3 unboundedDoubles := by
    refine .list (.cons ?_ (.cons ?_ (.cons .array .nil)))
    · exact .scalars (.cons rfl (.cons rfl (.cons rfl .nil)))
    · exact .scalars (.cons rfl (.cons rfl (.cons rfl .nil)))
  have hwidth : ∀ row ∈ unboundedDoubles, row.length = 3 := by decide
  exact ⟨hrows, sampleIn_spread (List.cons_ne_nil _ _) hwidth (by decide) hrows (by decide)⟩

-- Two of five positions lie halfway between two rows.
example : (@sampleRows ℚ _ 3 5).map (fun i => unboundedDoubles[i]?.map color) =
    [some "#0080ff", some "#00ff00", some "#00ff00", some "#ff4000", some "#ff4000"] := by
  decide +kernel

end PlotScene.Colormap
