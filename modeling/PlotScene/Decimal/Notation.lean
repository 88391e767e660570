import PlotScene.Decimal.Shortest

/-!
# How numbers are written

A double is written with its shortest decimal, positionally while the exponent of its leading digit
lies between -4 and 15 and otherwise with an exponent of at least two digits and a sign.  A whole
number keeps `.0`, so that it stays apart from an integer.
-/

namespace PlotScene

namespace Decimal

def digitChars (n : Nat) : List Char :=
  Nat.toDigits 10 n

/-- The exponents of the leading digit that are written positionally. -/
def positionalFrom : Int := -4

def positionalBelow : Int := 16

/-- The exponent of a written number: a sign and at least two digits. -/
def exponentText (e : Int) : List Char :=
  let digits := digitChars e.natAbs
  let padded := if digits.length < 2 then '0' :: digits else digits
  (if e < 0 then '-' else '+') :: padded

/-- Lays a decimal out, for instance `0.001`, `12.5`, `300.0`, `1e-07` and `1.5e+22`. -/
def layout (d : Decimal) : List Char :=
  let digits := digitChars d.digits
  let lead : Int := d.exponent + digits.length - 1
  if positionalFrom ≤ lead ∧ lead < positionalBelow then
    if lead < 0 then
      '0' :: '.' :: (List.replicate (-lead - 1).toNat '0' ++ digits)
    else
      let whole := (lead + 1).toNat
      if digits.length ≤ whole then
        digits ++ List.replicate (whole - digits.length) '0' ++ ['.', '0']
      else
        digits.take whole ++ '.' :: digits.drop whole
  else
    match digits with
    | [] => []
    | [c] => c :: 'e' :: exponentText lead
    | c :: rest => c :: '.' :: rest ++ 'e' :: exponentText lead

end Decimal

namespace Double

/-- The text of a double: `nan`, `inf`, `-inf`, or the shortest decimal with its sign. -/
def text (x : Float) : String :=
  match parts? x with
  | some p =>
      let written := Decimal.layout (Decimal.shortest p.mantissa p.exponent)
      String.ofList (if p.negative then '-' :: written else written)
  | none => if x.isNaN then "nan" else if x < 0 then "-inf" else "inf"

end Double

end PlotScene
