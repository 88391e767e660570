/-!
# Doubles as exact numbers

A finite double is a whole number times a power of two.  Rounding to whole numbers, telling whole
numbers from fractions and comparing doubles with integers of any size all work on that exact
value, so none of them depends on how the machine rounds.
-/

namespace PlotScene.Double

/-- A finite double taken apart: `mantissa · 2 ^ exponent`, with its sign. -/
structure Parts where
  negative : Bool
  mantissa : Nat
  exponent : Int

/-- The parts of a double; the infinities and NaN have none. -/
def parts? (x : Float) : Option Parts :=
  let bits : Nat := x.toBits.toNat
  let biased : Nat := bits / Nat.pow 2 52 % Nat.pow 2 11
  let fraction : Nat := bits % Nat.pow 2 52
  let negative : Bool := Nat.pow 2 63 ≤ bits
  if biased = 2047 then none
  else if biased = 0 then some ⟨negative, fraction, -1074⟩
  else some ⟨negative, Nat.pow 2 52 + fraction, (biased : Int) - 1075⟩

def Parts.toRat (p : Parts) : Rat :=
  let magnitude : Rat :=
    if 0 ≤ p.exponent then ((p.mantissa * Nat.pow 2 p.exponent.toNat : Nat) : Rat)
    else mkRat p.mantissa (Nat.pow 2 (-p.exponent).toNat)
  if p.negative then -magnitude else magnitude

/-- The exact value of a finite double. -/
def rational? (x : Float) : Option Rat :=
  (parts? x).map Parts.toRat

/-- The integer that a double holds, if it holds one. -/
def integer? (x : Float) : Option Int :=
  (rational? x).bind fun r => if r.den = 1 then some r.num else none

/-- The greatest integer that is not above a finite double. -/
def floor? (x : Float) : Option Int :=
  (rational? x).map Rat.floor

/-- The nearest integer; a half goes to the even neighbour. -/
def nearestInt (r : Rat) : Int :=
  let low := r.floor
  let rest := r - low
  if rest < 1 / 2 then low
  else if 1 / 2 < rest then low + 1
  else if low % 2 = 0 then low else low + 1

/-- The integer nearest to a finite double. -/
def round? (x : Float) : Option Int :=
  (rational? x).map nearestInt

/-- The double nearest to an integer; an integer beyond the range of doubles has none. -/
def ofInt? (n : Int) : Option Float :=
  let x := Float.ofInt n
  if x.isFinite then some x else none

def nan : Float := Float.ofBits 0x7FF8000000000000

def infinity : Float := Float.ofBits 0x7FF0000000000000

/-- `x` comes before `y` in ascending order, where NaN comes after every number. -/
def before (x y : Float) : Bool :=
  x < y || (y.isNaN && !x.isNaN)

end PlotScene.Double
