import PlotScene.Proofs.Double.Packing

/-!
# The order of doubles

Doubles compare by their ranks: the class of the number, then its exponent, then its mantissa.  Both
zeros have one rank.  NaN, which compares with nothing, has the greatest rank, so ascending order
with NaN at the end is the order of the ranks.
-/

namespace PlotScene.Double

open Float.Model

/-! ## 1. Ranks -/

/-- A place in ascending order. -/
abbrev Rank := ℤ ×ₗ ℤ ×ₗ ℤ

def rankOf : UnpackedFloat → Rank
  | .infinity .negative => toLex (-2, toLex (0, 0))
  | .finite .negative m e _ => toLex (-1, toLex (-e, -m))
  | .zero _ => toLex (0, toLex (0, 0))
  | .finite .positive m e _ => toLex (1, toLex (e, m))
  | .infinity .positive => toLex (2, toLex (0, 0))
  | .notANumber => toLex (3, toLex (0, 0))

def rank (x : Float) : Rank := rankOf x.toModel.unpack

-- Of two numbers of one sign the one with the greater exponent is further from zero.
theorem then_eq_lt {e₁ e₂ : Int} {m₁ m₂ : Nat} :
    (compare e₁ e₂).then (compare m₁ m₂) = .lt ↔ e₁ < e₂ ∨ e₁ = e₂ ∧ m₁ < m₂ := by
  rw [Ordering.then_eq_lt, compare_lt_iff_lt, compare_eq_iff_eq, compare_lt_iff_lt]

theorem then_eq_gt {e₁ e₂ : Int} {m₁ m₂ : Nat} :
    (compare e₁ e₂).then (compare m₁ m₂) = .gt ↔ e₂ < e₁ ∨ e₁ = e₂ ∧ m₂ < m₁ := by
  rw [Ordering.then_eq_gt, compare_gt_iff_gt, compare_eq_iff_eq, compare_gt_iff_gt]

theorem compare_eq_lt {f g : UnpackedFloat} (hf : f ≠ .notANumber) (hg : g ≠ .notANumber) :
    f.compare g = some .lt ↔ rankOf f < rankOf g := by
  have hsigns : compare UnpackedFloat.Sign.negative UnpackedFloat.Sign.positive = .lt := rfl
  rcases f with (_ | _) | _ | s | ⟨(_ | _), m, e, hm⟩ <;>
    rcases g with (_ | _) | _ | t | ⟨(_ | _), n, d, hn⟩ <;>
    simp_all [UnpackedFloat.compare, rankOf, Prod.Lex.toLex_lt_toLex, then_eq_lt, then_eq_gt]

theorem compare_eq_eq {f g : UnpackedFloat} (hf : f ≠ .notANumber) (hg : g ≠ .notANumber) :
    f.compare g = some .eq ↔ rankOf f = rankOf g := by
  have hnegative : compare UnpackedFloat.Sign.negative UnpackedFloat.Sign.negative = .eq := rfl
  have hpositive : compare UnpackedFloat.Sign.positive UnpackedFloat.Sign.positive = .eq := rfl
  rcases f with (_ | _) | _ | s | ⟨(_ | _), m, e, hm⟩ <;>
    rcases g with (_ | _) | _ | t | ⟨(_ | _), n, d, hn⟩ <;>
    simp_all [UnpackedFloat.compare, rankOf, Ordering.then_eq_eq]

theorem compare_notANumber (f : UnpackedFloat) : f.compare .notANumber = none := by
  cases f <;> rfl

-- Nothing comes after NaN.
theorem rankOf_lt_notANumber {f : UnpackedFloat} (hf : f ≠ .notANumber) :
    rankOf f < rankOf .notANumber := by
  rcases f with (_ | _) | _ | s | ⟨(_ | _), m, e, hm⟩ <;>
    simp_all [rankOf, Prod.Lex.toLex_lt_toLex]

/-! ## 2. Comparisons -/

theorem isNaN_iff {x : Float} : x.isNaN = true ↔ x.toModel.unpack = .notANumber := by
  show x.toModel.unpack.isNaN = true ↔ _
  cases x.toModel.unpack <;> simp [UnpackedFloat.isNaN]

theorem ne_notANumber {x : Float} (hx : x.isNaN = false) : x.toModel.unpack ≠ .notANumber := by
  intro h
  rw [isNaN_iff.mpr h] at hx
  cases hx

theorem rank_lt_of_isNaN {x y : Float} (hx : x.isNaN = false) (hy : y.isNaN = true) :
    rank x < rank y := by
  rw [rank, rank, isNaN_iff.mp hy]
  exact rankOf_lt_notANumber (ne_notANumber hx)

theorem rank_eq_of_isNaN {x y : Float} (hx : x.isNaN = true) (hy : y.isNaN = true) :
    rank x = rank y := by
  rw [rank, rank, isNaN_iff.mp hx, isNaN_iff.mp hy]

theorem isNaN_of_isFinite {x : Float} (hx : x.isFinite = true) : x.isNaN = false := by
  change x.toModel.unpack.isFinite = true at hx
  show x.toModel.unpack.isNaN = false
  cases h : x.toModel.unpack with
  | notANumber =>
    rw [h] at hx
    cases hx
  | _ => rfl

theorem isNaN_eq_false_of_compare {x y : Float} {o : Ordering}
    (h : x.toModel.unpack.compare y.toModel.unpack = some o) :
    x.isNaN = false ∧ y.isNaN = false := by
  constructor
  · refine Bool.eq_false_iff.mpr fun hx => ?_
    rw [isNaN_iff.mp hx] at h
    cases h
  · refine Bool.eq_false_iff.mpr fun hy => ?_
    rw [isNaN_iff.mp hy, compare_notANumber] at h
    cases h

theorem lt_iff {x y : Float} :
    x < y ↔ x.isNaN = false ∧ y.isNaN = false ∧ rank x < rank y := by
  show decide (x.toModel < y.toModel) = true ↔ _
  rw [decide_eq_true_iff]
  show (x.toModel.unpack.compare y.toModel.unpack == some .lt) = true ↔ _
  rw [beq_iff_eq]
  constructor
  · intro h
    obtain ⟨hx, hy⟩ := isNaN_eq_false_of_compare h
    exact ⟨hx, hy, (compare_eq_lt (ne_notANumber hx) (ne_notANumber hy)).mp h⟩
  · rintro ⟨hx, hy, h⟩
    exact (compare_eq_lt (ne_notANumber hx) (ne_notANumber hy)).mpr h

theorem beq_iff {x y : Float} :
    (x == y) = true ↔ x.isNaN = false ∧ y.isNaN = false ∧ rank x = rank y := by
  show (x.toModel.unpack.compare y.toModel.unpack == some .eq) = true ↔ _
  rw [beq_iff_eq]
  constructor
  · intro h
    obtain ⟨hx, hy⟩ := isNaN_eq_false_of_compare h
    exact ⟨hx, hy, (compare_eq_eq (ne_notANumber hx) (ne_notANumber hy)).mp h⟩
  · rintro ⟨hx, hy, h⟩
    exact (compare_eq_eq (ne_notANumber hx) (ne_notANumber hy)).mpr h

theorem le_iff {x y : Float} :
    x ≤ y ↔ x.isNaN = false ∧ y.isNaN = false ∧ rank x ≤ rank y := by
  show decide (x.toModel ≤ y.toModel) = true ↔ _
  rw [decide_eq_true_iff]
  show (x.toModel.unpack.compare y.toModel.unpack).any (·.isLE) = true ↔ _
  rw [Option.any_eq_true]
  constructor
  · rintro ⟨o, ho, hle⟩
    obtain ⟨hx, hy⟩ := isNaN_eq_false_of_compare ho
    refine ⟨hx, hy, ?_⟩
    cases o with
    | lt => exact le_of_lt ((compare_eq_lt (ne_notANumber hx) (ne_notANumber hy)).mp ho)
    | eq => exact le_of_eq ((compare_eq_eq (ne_notANumber hx) (ne_notANumber hy)).mp ho)
    | gt => cases hle
  · rintro ⟨hx, hy, h⟩
    rcases lt_or_eq_of_le h with h | h
    · exact ⟨.lt, (compare_eq_lt (ne_notANumber hx) (ne_notANumber hy)).mpr h, rfl⟩
    · exact ⟨.eq, (compare_eq_eq (ne_notANumber hx) (ne_notANumber hy)).mpr h, rfl⟩

/-- Ascending order with NaN at the end is the order of the ranks. -/
theorem before_iff {x y : Float} : before x y = true ↔ rank x < rank y := by
  rw [before, Bool.or_eq_true, decide_eq_true_iff, lt_iff, Bool.and_eq_true, Bool.not_eq_true']
  cases hx : x.isNaN <;> cases hy : y.isNaN
  · simp
  · simp [rank_lt_of_isNaN hx hy]
  · simp [le_of_lt (rank_lt_of_isNaN hy hx)]
  · simp [rank_eq_of_isNaN hx hy]

theorem not_le_of_isNaN {x y : Float} (h : x.isNaN = true ∨ y.isNaN = true) : ¬ x ≤ y := by
  intro hle
  obtain ⟨hx, hy, _⟩ := le_iff.mp hle
  rcases h with h | h
  · exact Bool.false_ne_true (hx.symm.trans h)
  · exact Bool.false_ne_true (hy.symm.trans h)

theorem le_self {x : Float} (hx : x.isNaN = false) : x ≤ x :=
  le_iff.mpr ⟨hx, hx, le_rfl⟩

theorem le_of_le_of_le {x y z : Float} (h : x ≤ y) (h' : y ≤ z) : x ≤ z := by
  obtain ⟨hx, _, hxy⟩ := le_iff.mp h
  obtain ⟨_, hz, hyz⟩ := le_iff.mp h'
  exact le_iff.mpr ⟨hx, hz, hxy.trans hyz⟩

/-! ## 3. Numbers alike -/

/-- Equal numbers, or both NaN. -/
def Alike (x y : Float) : Prop := (x == y) = true ∨ x.isNaN = true ∧ y.isNaN = true

theorem alike_iff {x y : Float} : Alike x y ↔ rank x = rank y := by
  rw [Alike, beq_iff]
  cases hx : x.isNaN <;> cases hy : y.isNaN
  · simp
  · simp [ne_of_lt (rank_lt_of_isNaN hx hy)]
  · simp [ne_of_gt (rank_lt_of_isNaN hy hx)]
  · simp [rank_eq_of_isNaN hx hy]

end PlotScene.Double
