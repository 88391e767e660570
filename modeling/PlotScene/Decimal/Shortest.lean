import PlotScene.Double

/-!
# The shortest decimal of a double

Among the decimals that read back to a given double, the one with the fewest digits identifies it;
of two with equally few digits the nearer one is taken.  The reals that round to a double form an
interval from halfway to the neighbour below to halfway to the neighbour above, and its ends belong
to it exactly when the mantissa is even.  All comparisons are between natural numbers.
-/

namespace PlotScene

/-- The number `digits · 10 ^ exponent`. -/
structure Decimal where
  digits : Nat
  exponent : Int
deriving DecidableEq, Repr

namespace Decimal

/-- Compares `a · 10 ^ i` with `n · 2 ^ j`. -/
def compareScaled (a : Nat) (i : Int) (n : Nat) (j : Int) : Ordering :=
  compare (a * Nat.pow 10 i.toNat * Nat.pow 2 (-j).toNat)
    (n * Nat.pow 2 j.toNat * Nat.pow 10 (-i).toNat)

/-- Whether the decimal lies among the reals that round to `m · 2 ^ q`.  Below a power of two the
neighbour is half as far away as above it. -/
def readsBack (m : Nat) (q : Int) (d : Decimal) : Bool :=
  let narrow := m = Nat.pow 2 52 ∧ -1074 < q
  let low := if narrow then 4 * m - 1 else 4 * m - 2
  let high := 4 * m + 2
  let closed := m % 2 = 0
  let toLow := compareScaled d.digits d.exponent low (q - 2)
  let toHigh := compareScaled d.digits d.exponent high (q - 2)
  (toLow == .gt || (closed && toLow == .eq)) && (toHigh == .lt || (closed && toHigh == .eq))

/-- The greatest multiple of `10 ^ g` that is not above `m · 2 ^ q`, in units of `10 ^ g`. -/
def floorOn (m : Nat) (q g : Int) : Nat :=
  (m * Nat.pow 2 q.toNat * Nat.pow 10 (-g).toNat) / (Nat.pow 10 g.toNat * Nat.pow 2 (-q).toNat)

/-- The least `k` with `m · 2 ^ q < 10 ^ k`, for a positive `m`. -/
def scale (m : Nat) (q : Int) : Int :=
  let guess := Int.fdiv ((m.log2 + q) * 30103) 100000
  let below (k : Int) : Bool := compareScaled 1 k m q == .gt
  if below guess then guess else if below (guess + 1) then guess + 1 else guess + 2

/-- The decimal on the grid of multiples of `10 ^ g` that reads back to `m · 2 ^ q`: of the two
neighbours of the value the nearer one, and on a tie the even one. -/
def onGrid? (m : Nat) (q g : Int) : Option Decimal :=
  let lower : Decimal := ⟨floorOn m q g, g⟩
  let upper : Decimal := ⟨floorOn m q g + 1, g⟩
  match readsBack m q lower, readsBack m q upper with
  | true, true =>
      match compareScaled (lower.digits + upper.digits) g (2 * m) q with
      | .gt => some lower
      | .lt => some upper
      | .eq => some (if lower.digits % 2 = 0 then lower else upper)
  | true, false => some lower
  | false, true => some upper
  | false, false => none

/-- Moves up to `fuel` zeros from the end of the digits into the exponent. -/
def dropZeros : Nat → Decimal → Decimal
  | 0, d => d
  | fuel + 1, d =>
      if d.digits ≠ 0 ∧ d.digits % 10 = 0 then dropZeros fuel ⟨d.digits / 10, d.exponent + 1⟩ else d

/-- The exact decimal value of `m · 2 ^ q`. -/
def ofBinary (m : Nat) (q : Int) : Decimal :=
  if 0 ≤ q then ⟨m * Nat.pow 2 q.toNat, 0⟩ else ⟨m * Nat.pow 5 (-q).toNat, q⟩

/-- The shortest decimal that reads back to `m · 2 ^ q`: the grids of one to seventeen digits are
tried in turn. -/
def shortest (m : Nat) (q : Int) : Decimal :=
  if m = 0 then ⟨0, 0⟩
  else
    let k := scale m q
    dropZeros 17 <|
      ((List.range 17).findSome? fun (n : Nat) => onGrid? m q (k - (n + 1))).getD (ofBinary m q)

end Decimal

end PlotScene
