import PlotScene.Value
import PlotScene.Decimal.Notation
import PlotScene.Text.Printable

/-!
# The text of a value

Labels, titles and messages show values as text.  A text stands for itself at the top and is quoted
inside a list, a mapping or a message; numbers, truth values and null have one text everywhere.  An
integer with too many digits has no text, and neither has a value that holds one.  Arrays with axes
are shown on one line with all digits of their cells; the layout that rounds and aligns the cells
is left out.
-/

namespace PlotScene

namespace Text

/-- The code of a character in `width` hexadecimal digits. -/
def hex (width n : Nat) : List Char :=
  let digits := Nat.toDigits 16 n
  List.replicate (width - digits.length) '0' ++ digits

/-- A character as it stands inside a quoted text with this quote. -/
def quotedChar (quote c : Char) : List Char :=
  if c = quote ∨ c = '\\' then ['\\', c]
  else if c = '\n' then ['\\', 'n']
  else if c = '\r' then ['\\', 'r']
  else if c = '\t' then ['\\', 't']
  else if isPrintable c then [c]
  else if c.toNat < 0x100 then '\\' :: 'x' :: hex 2 c.toNat
  else if c.toNat < 0x10000 then '\\' :: 'u' :: hex 4 c.toNat
  else '\\' :: 'U' :: hex 8 c.toNat

/-- A text in single quotes, or in double quotes when it holds a single and no double quote. -/
def quoted (s : String) : String :=
  let chars := s.toList
  let quote := if chars.contains '\'' && !chars.contains '"' then '"' else '\''
  String.ofList (quote :: chars.flatMap (quotedChar quote) ++ [quote])

/-- The lengths of an array as a bracketed list; a single one keeps a comma. -/
def shape (dims : List Nat) : String :=
  match dims with
  | [n] => "(" ++ toString n ++ ",)"
  | dims => "(" ++ String.intercalate ", " (dims.map toString) ++ ")"

end Text

/-- The most digits with which an integer is written or read. -/
def maxIntegerDigits : Nat := 4300

namespace Scalar

/-- Whether a scalar can be written: an integer must not have too many digits. -/
def hasText : Scalar → Bool
  | .int n => (Nat.toDigits 10 n.natAbs).length ≤ maxIntegerDigits
  | _ => true

/-- The text of a scalar that has one. -/
def text : Scalar → String
  | .null => "None"
  | .bool b => if b then "True" else "False"
  | .int n => toString n
  | .float x => Double.text x
  | .str s => s

/-- The text of a scalar inside a message or a container: a text is quoted. -/
def quoted : Scalar → String
  | .str s => Text.quoted s
  | s => s.text

end Scalar

namespace Value

mutual

/-- Whether a value can be written: no integer in it, be it a key, has too many digits. -/
def hasText : Value → Bool
  | .scalar s => s.hasText
  | .list vs => itemsHaveText vs
  | .map es => entriesHaveText es
  | .array _ _ => true
  | .column vs => itemsHaveText vs

def itemsHaveText : List Value → Bool
  | [] => true
  | v :: vs => hasText v && itemsHaveText vs

def entriesHaveText : List (Scalar × Value) → Bool
  | [] => true
  | (k, v) :: es => k.hasText && hasText v && entriesHaveText es

end

mutual

/-- The text of a value inside a message or a container. -/
def quoted : Value → String
  | .scalar s => s.quoted
  | .list vs => "[" ++ String.intercalate ", " (quotedItems vs) ++ "]"
  | .map es => "\x7b" ++ String.intercalate ", " (quotedEntries es) ++ "\x7d"
  | .array _ cells => "array([" ++ String.intercalate ", " (cells.map Double.text) ++ "])"
  | .column vs => "[" ++ String.intercalate ", " (quotedItems vs) ++ "]"

def quotedItems : List Value → List String
  | [] => []
  | v :: vs => quoted v :: quotedItems vs

def quotedEntries : List (Scalar × Value) → List String
  | [] => []
  | (k, v) :: es => (k.quoted ++ ": " ++ quoted v) :: quotedEntries es

end

/-- The text of a value on its own; an array without axes is its only cell. -/
def text : Value → String
  | .scalar s => s.text
  | .array [] [x] => Double.text x
  | v => v.quoted

end Value

end PlotScene
