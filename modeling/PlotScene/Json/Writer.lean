import PlotScene.Fault

/-!
# Writing documents

A document is written as JSON text with its keys in their order and without escapes for characters
beyond ASCII.  NaN and the infinities have no text, and neither has an integer with too many digits:
a document that holds one is refused.  Documents are written to any depth; no bound on the nesting
is modelled.
-/

namespace PlotScene.Json

/-- The escape of a character inside a text, where it needs one. -/
def escapeChar (c : Char) : List Char :=
  match c with
  | '"' => ['\\', '"']
  | '\\' => ['\\', '\\']
  | '\n' => ['\\', 'n']
  | '\r' => ['\\', 'r']
  | '\t' => ['\\', 't']
  | '\x08' => ['\\', 'b']
  | '\x0c' => ['\\', 'f']
  | c => if c.toNat < 0x20 then '\\' :: 'u' :: Text.hex 4 c.toNat else [c]

def textChars (s : String) : List Char :=
  '"' :: s.toList.flatMap escapeChar ++ ['"']

/-- A number, a truth value or null; the text of a finite float. -/
def scalarChars : Scalar → Except Fault (List Char)
  | .null => .ok "null".toList
  | .bool b => .ok (if b then "true" else "false").toList
  | .int n => if (Scalar.int n).hasText then .ok (toString n).toList else .error .unusable
  | .float x => if x.isFinite then .ok (Double.text x).toList else .error .unusable
  | .str s => .ok (textChars s)

/-- A key is written as a text, whatever scalar it is. -/
def keyChars (k : Scalar) : Except Fault (List Char) := do
  match k with
  | .str s => pure (textChars s)
  | k => pure ('"' :: (← scalarChars k) ++ ['"'])

/-- What stands between the parts of a container: `indent` is the width of one level, or none for a
document on one line. -/
structure Layout where
  indent : Option Nat

/-- The line break before an item at a depth, or nothing. -/
def Layout.break (l : Layout) (depth : Nat) : List Char :=
  match l.indent with
  | some width => '\n' :: List.replicate (width * depth) ' '
  | none => []

/-- The mark between two items, before the break. -/
def Layout.separator (l : Layout) : List Char :=
  match l.indent with
  | some _ => [',']
  | none => [',', ' ']

/-- Joins written items between brackets. -/
def Layout.enclose (l : Layout) (depth : Nat) (opening closing : Char) :
    List (List Char) → List Char
  | [] => [opening, closing]
  | item :: more =>
      opening :: (l.break (depth + 1) ++ item ++
        more.flatMap (fun i => l.separator ++ l.break (depth + 1) ++ i) ++
        l.break depth ++ [closing])

mutual

/-- The text of a value that stands at a depth. -/
def write (l : Layout) (depth : Nat) : Value → Except Fault (List Char)
  | .scalar s => scalarChars s
  | .list vs => do return l.enclose depth '[' ']' (← writeItems l (depth + 1) vs)
  | .map es => do return l.enclose depth '\x7b' '\x7d' (← writeEntries l (depth + 1) es)
  | .array _ _ => .error .wrongType
  | .column _ => .error .wrongType

def writeItems (l : Layout) (depth : Nat) : List Value → Except Fault (List (List Char))
  | [] => .ok []
  | v :: vs => do
      let first ← write l depth v
      let rest ← writeItems l depth vs
      return first :: rest

def writeEntries (l : Layout) (depth : Nat) :
    List (Scalar × Value) → Except Fault (List (List Char))
  | [] => .ok []
  | (k, v) :: es => do
      let key ← keyChars k
      let first ← write l depth v
      let rest ← writeEntries l depth es
      return (key ++ ':' :: ' ' :: first) :: rest

end

/-- The text of a document. -/
def document? (l : Layout) (v : Value) : Except Fault String := do
  return String.ofList (← write l 0 v)

end PlotScene.Json
