import PlotScene.Double
import PlotScene.Text.Blank
import PlotScene.Text.Numeral

/-!
# Reading numbers from text

A number in a text is a sign, digits with at most one point, and an exponent; or a word for
infinity or NaN in any case.  The digits may be those of any script, single underscores may stand
between two digits, and blanks may surround the number.
-/

namespace PlotScene.Decimal

/-- The blanks that may surround a number: the ASCII ones, and those of other scripts. -/
def isMargin (c : Char) : Bool :=
  Text.isBlank c && !(0x1C ≤ c.toNat && c.toNat ≤ 0x1F)

/-- Writes the digits of every script as ASCII digits. -/
def asciiDigits (s : List Char) : List Char :=
  s.map fun c => ((Text.digitValue? c).map Text.asciiDigit).getD c

/-- Whether every underscore stands between two digits. -/
def underscoresInside : List Char → Bool
  | [] => true
  | c :: rest =>
      match c, rest with
      | '_', _ => false
      | c, '_' :: d :: rest => c.isDigit && d.isDigit && underscoresInside (d :: rest)
      | _, ['_'] => false
      | _, rest => underscoresInside rest

/-- The value of a row of ASCII digits. -/
def natOfDigits (digits : List Char) : Nat :=
  digits.foldl (fun n c => 10 * n + (c.toNat - 0x30)) 0

/-- The double nearest to `digits · 10 ^ exponent`.  Beyond the range of doubles the answer is
infinity, and far below it zero, without computing the power. -/
def toDouble (digits : Nat) (exponent : Int) : Float :=
  let size : Int := (Nat.toDigits 10 digits).length + exponent
  if digits = 0 ∨ size < -400 then 0
  else if 400 < size then Double.infinity
  else Float.ofScientific digits (exponent < 0) exponent.natAbs

/-- The exponent at the end of a number: nothing, or a mark, a sign and digits. -/
def exponent? : List Char → Option Int
  | [] => some 0
  | mark :: rest =>
      if mark = 'e' ∨ mark = 'E' then
        let (negative, digits) := match rest with
          | '-' :: ds => (true, ds)
          | '+' :: ds => (false, ds)
          | ds => (false, ds)
        if digits ≠ [] ∧ digits.all Char.isDigit then
          let n : Int := natOfDigits digits
          some (if negative then -n else n)
        else none
      else none

/-- A number without sign, underscores and blanks. -/
def unsigned? (s : List Char) : Option Float :=
  let whole := s.takeWhile Char.isDigit
  let afterWhole := s.dropWhile Char.isDigit
  let (fraction, rest) := match afterWhole with
    | '.' :: more => (more.takeWhile Char.isDigit, more.dropWhile Char.isDigit)
    | _ => ([], afterWhole)
  if whole = [] ∧ fraction = [] then none
  else (exponent? rest).map fun e =>
    toDouble (natOfDigits (whole ++ fraction)) (e - fraction.length)

/-- The words for the values that are no number. -/
def word? (s : List Char) : Option Float :=
  match String.ofList (s.map Char.toLower) with
  | "inf" | "infinity" => some Double.infinity
  | "nan" => some Double.nan
  | _ => none

/-- Reads a number from a text. -/
def read? (s : String) : Option Float :=
  let body := Text.trimWhile isMargin (asciiDigits s.toList)
  if underscoresInside body then
    let body := body.filter (· ≠ '_')
    let (negative, body) := match body with
      | '-' :: rest => (true, rest)
      | '+' :: rest => (false, rest)
      | rest => (false, rest)
    (word? body <|> unsigned? body).map fun x => if negative then -x else x
  else none

end PlotScene.Decimal
