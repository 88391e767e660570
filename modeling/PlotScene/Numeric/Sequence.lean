import PlotScene.Double

/-!
# Sequences of doubles

Extremes, even spacing and interpolation.  What is computed with doubles and has an exact
counterpart is written for any kind of number.
-/

namespace PlotScene

/-- The numbers that spacing and sampling work with: doubles where the program runs, rationals for
the exact reading. -/
class Measure (α : Type) extends Add α, Sub α, Mul α, Div α, BEq α where
  ofNat : Nat → α
  half : α
  floor : α → Int

instance : Measure Float where
  ofNat := Float.ofNat
  half := 0.5
  floor x := (Double.floor? x).getD 0

instance : Measure Rat where
  ofNat n := n
  half := 1 / 2
  floor := Rat.floor

namespace Sequence

/-! ## 1. Extremes -/

/-- The lesser of two doubles, NaN if either is. -/
def lesser (a b : Float) : Float :=
  if a ≤ b || a.isNaN then a else b

/-- The greater of two doubles, NaN if either is. -/
def greater (a b : Float) : Float :=
  if b ≤ a || a.isNaN then a else b

/-- The least item, NaN if one item is. -/
def least? : List Float → Option Float
  | [] => none
  | x :: xs => some (xs.foldl lesser x)

def greatest? : List Float → Option Float
  | [] => none
  | x :: xs => some (xs.foldl greater x)

def finite (xs : List Float) : List Float :=
  xs.filter Float.isFinite

def known (xs : List Float) : List Float :=
  xs.filter fun x => !x.isNaN

/-- Whether the items are all the same number. -/
def constant (xs : List Float) : Bool :=
  match least? xs, greatest? xs with
  | some low, some high => high - low == 0
  | _, _ => false

/-- The differences between neighbours. -/
def steps (xs : List Float) : List Float :=
  xs.zipWith (fun a b => b - a) xs.tail

/-- The midpoints between neighbours. -/
def midpoints (xs : List Float) : List Float :=
  xs.zipWith (fun a b => (a + b) / 2) xs.tail

/-! ## 2. Spacing and interpolation -/

/-- `count` numbers at equal distances from `a` to `b`, both included. -/
def spaced {α : Type} [Measure α] (a b : α) (count : Nat) : List α :=
  match count with
  | 0 => []
  | 1 => [a]
  | last + 2 =>
      let parts : α := Measure.ofNat (last + 1)
      let span := b - a
      let step := span / parts
      let position (k : Nat) : α :=
        if step == Measure.ofNat 0 then Measure.ofNat k / parts * span + a
        else Measure.ofNat k * step + a
      (List.range (last + 1)).map position ++ [b]

/-- The samples in ascending order of their position; equal positions keep their order. -/
def ordered (samples : List (Float × Float)) : List (Float × Float) :=
  samples.mergeSort fun s t => !Double.before t.1 s.1

/-- The value at `x` of the line through two samples. -/
def onLine (s t : Float × Float) (x : Float) : Float :=
  (t.2 - s.2) / (t.1 - s.1) * (x - s.1) + s.2

/-- The neighbouring samples that `x` falls between, from samples in ascending order: the first pair
whose second position is not below `x`, or the last pair. -/
def bracket? (x : Float) : List (Float × Float) → Option ((Float × Float) × (Float × Float))
  | s :: t :: rest =>
      if rest.isEmpty || !Double.before t.1 x then some (s, t) else bracket? x (t :: rest)
  | _ => none

/-- The piecewise linear curve through samples in ascending order, continued along its first and
last pieces. -/
def along (samples : List (Float × Float)) (x : Float) : Float :=
  match bracket? x samples with
  | some (s, t) => onLine s t x
  | none => Double.nan

/-- The values at `xs` of the piecewise linear curve through samples in any order. -/
def interpolate (samples : List (Float × Float)) (xs : List Float) : List Float :=
  xs.map (along (ordered samples))

end Sequence

end PlotScene
