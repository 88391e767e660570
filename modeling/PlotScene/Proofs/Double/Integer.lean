import PlotScene.Proofs.Double.Scientific
import Mathlib.Data.Rat.Lemmas

/-!
# Doubles that hold integers

A double holds an integer when its exact value is one, and an integer has a double when its absolute
value does.
-/

namespace PlotScene.Double

/-- The value of a finite double up to its sign. -/
def Parts.magnitude (p : Parts) : Rat :=
  if 0 ≤ p.exponent then ((p.mantissa * Nat.pow 2 p.exponent.toNat : Nat) : Rat)
  else mkRat p.mantissa (Nat.pow 2 (-p.exponent).toNat)

theorem toRat_eq (p : Parts) : p.toRat = if p.negative then -p.magnitude else p.magnitude := rfl

/-- A double holds an integer exactly when its exact value is that integer. -/
theorem integer?_eq_some {x : Float} {n : Int} :
    integer? x = some n ↔ rational? x = some (n : Rat) := by
  rw [integer?, Option.bind_eq_some_iff]
  constructor
  · rintro ⟨r, hr, h⟩
    split at h
    next hden =>
      rw [hr, ← Option.some.inj h, Rat.coe_int_num_of_den_eq_one hden]
    next => cases h
  · intro h
    exact ⟨n, h, if_pos (Rat.den_intCast n)⟩

-- An integer has a double when its absolute value is a finite one.
theorem isFinite_ofNat_of_ofInt? {n : Int} (h : (ofInt? n).isSome = true) :
    (Float.ofNat n.natAbs).isFinite = true := by
  have hfinite : (Float.ofInt n).isFinite = true := by
    rw [ofInt?] at h
    by_contra hn
    simp [hn] at h
  cases n with
  | ofNat n => exact hfinite
  | negSucc n => exact isFinite_of_neg hfinite

end PlotScene.Double
