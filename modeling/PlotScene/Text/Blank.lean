/-!
# Blank characters

The white space that separates a text from what surrounds it: the characters with the Unicode
property White_Space together with the four ASCII information separators.  Names of layers,
option values and palette entries are read with the blanks at both ends removed.
-/

namespace PlotScene.Text

/-- The blank code points as closed ranges, ascending and apart. -/
def blankRanges : List (Nat × Nat) :=
  [(0x09, 0x0D), (0x1C, 0x20), (0x85, 0x85), (0xA0, 0xA0), (0x1680, 0x1680), (0x2000, 0x200A),
   (0x2028, 0x2029), (0x202F, 0x202F), (0x205F, 0x205F), (0x3000, 0x3000)]

/-- Whether a code point lies in one of the ranges. -/
def inRanges (ranges : List (Nat × Nat)) (n : Nat) : Bool :=
  ranges.any fun r => r.1 ≤ n && n ≤ r.2

def isBlank (c : Char) : Bool :=
  inRanges blankRanges c.toNat

/-- Drops the characters of a class at both ends. -/
def trimWhile (p : Char → Bool) (s : List Char) : List Char :=
  ((s.dropWhile p).reverse.dropWhile p).reverse

/-- Drops the blanks at both ends. -/
def trim (s : List Char) : List Char :=
  trimWhile isBlank s

/-- The text without the blanks at both ends. -/
def strip (s : String) : String :=
  String.ofList (trim s.toList)

/-- The lower-case form of a character as far as that form is ASCII: the capital letters and the
Kelvin sign.  Every other character stands for itself, which is enough wherever the lowered text
is only compared with ASCII words. -/
def lowerChar (c : Char) : Char :=
  if c = '\u212A' then 'k' else c.toLower

def lower (s : String) : String :=
  String.ofList (s.toList.map lowerChar)

end PlotScene.Text
