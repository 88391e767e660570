import PlotScene.Decimal.Reading
import PlotScene.Fault

/-!
# Reading documents

A document is JSON text.  Integers keep all their digits and stay apart from floats; `NaN` and the
infinities are read as floats; of two members with one name the later value counts, in the place of
the first.  The parser works on the characters that are left, so the place of a syntax fault is the
number of characters that were left when it arose.

A text is a list of characters, so an escape that is half a pair of units has no place in one: the
document is refused for it, and what a reader makes of it that can hold half a pair is left open.
Documents are read to any depth; no bound on the nesting is modelled.
-/

namespace PlotScene.Json

/-- Why a text was refused. -/
inductive Refusal where
  | malformed (cause : SyntaxCause) (left : Nat)
  /-- An integer has too many digits. -/
  | longInteger
  /-- A unit is half a pair, which no text can hold. -/
  | halfPair
deriving DecidableEq, Repr

abbrev Step (α : Type) := Except Refusal (α × List Char)

def refuse {α : Type} (cause : SyntaxCause) (left : List Char) : Except Refusal α :=
  .error (.malformed cause left.length)

def isSpace (c : Char) : Bool :=
  c = ' ' || c = '\t' || c = '\n' || c = '\r'

def skipSpace (s : List Char) : List Char :=
  s.dropWhile isSpace

/-! ## 1. Texts -/

def hexValue? (c : Char) : Option Nat :=
  if c.isDigit then some (c.toNat - 0x30)
  else if 'a' ≤ c ∧ c ≤ 'f' then some (c.toNat - 0x61 + 10)
  else if 'A' ≤ c ∧ c ≤ 'F' then some (c.toNat - 0x41 + 10)
  else none

/-- The value of four hexadecimal digits at the front. -/
def hex4? : List Char → Option (Nat × List Char)
  | a :: b :: c :: d :: rest => do
      let a ← hexValue? a
      let b ← hexValue? b
      let c ← hexValue? c
      let d ← hexValue? d
      some (((a * 16 + b) * 16 + c) * 16 + d, rest)
  | _ => none

/-- The 16-bit unit of an escape whose digits follow; something has to stand behind them. -/
def unit (digits : List Char) : Except Refusal (Nat × List Char) :=
  if digits.length < 5 then refuse .shortEscape ('u' :: digits)
  else
    match hex4? digits with
    | some found => .ok found
    | none => refuse .shortEscape ('u' :: digits)

/-- The character of a 16-bit unit, together with the unit after it when the two are a pair.  A unit
that is half a pair is no character. -/
def unitChar (high : Nat) (rest : List Char) : Except Refusal (Char × List Char) :=
  if 0xD800 ≤ high ∧ high < 0xDC00 then
    match rest with
    | '\\' :: 'u' :: digits =>
        match unit digits with
        | .error e => .error e
        | .ok (low, after) =>
            if 0xDC00 ≤ low ∧ low < 0xE000 then
              .ok (Char.ofNat (0x10000 + (high - 0xD800) * 0x400 + (low - 0xDC00)), after)
            else .error .halfPair
    | _ => .error .halfPair
  else if 0xDC00 ≤ high ∧ high < 0xE000 then .error .halfPair
  else .ok (Char.ofNat high, rest)

/-- The characters that an escape with one letter stands for. -/
def escaped? : Char → Option Char
  | '"' => some '"'
  | '\\' => some '\\'
  | '/' => some '/'
  | 'b' => some '\x08'
  | 'f' => some '\x0c'
  | 'n' => some '\n'
  | 'r' => some '\r'
  | 't' => some '\t'
  | _ => none

/-- The rest of a text whose opening quote has been read; `start` is what was left at that quote. -/
def textBody (start : Nat) : Nat → List Char → List Char → Step String
  | 0, _, _ => .error (.malformed .unterminatedText start)
  | fuel + 1, s, seen =>
      match s with
      | [] => .error (.malformed .unterminatedText start)
      | '"' :: rest => .ok (String.ofList seen.reverse, rest)
      | '\\' :: rest =>
          match rest with
          | [] => .error (.malformed .unterminatedText start)
          | 'u' :: digits =>
              match unit digits with
              | .error e => .error e
              | .ok (code, after) =>
                  match unitChar code after with
                  | .error e => .error e
                  | .ok (c, after) => textBody start fuel after (c :: seen)
          | letter :: after =>
              match escaped? letter with
              | some c => textBody start fuel after (c :: seen)
              | none => refuse .unknownEscape s
      | c :: rest =>
          if c.toNat < 0x20 then refuse .controlCharacter s
          else textBody start fuel rest (c :: seen)

/-- A text whose opening quote is the last character before `s`. -/
def text (s : List Char) : Step String :=
  textBody (s.length + 1) (s.length + 1) s []

/-! ## 2. Numbers -/

/-- The digits of a whole part: a zero alone, or digits that do not begin with zero. -/
def wholePart : List Char → Option (List Char × List Char)
  | '0' :: rest => some (['0'], rest)
  | c :: rest =>
      if c.isDigit then some (c :: rest.takeWhile Char.isDigit, rest.dropWhile Char.isDigit)
      else none
  | [] => none

/-- The digits after a point, where a point and a digit follow. -/
def fractionPart : List Char → Option (List Char) × List Char
  | '.' :: rest =>
      let digits := rest.takeWhile Char.isDigit
      if digits.isEmpty then (none, '.' :: rest) else (some digits, rest.dropWhile Char.isDigit)
  | s => (none, s)

/-- The exponent, where a mark with at least one digit follows. -/
def exponentPart : List Char → Option Int × List Char
  | mark :: rest =>
      if mark = 'e' ∨ mark = 'E' then
        let (negative, body) := match rest with
          | '-' :: body => (true, body)
          | '+' :: body => (false, body)
          | body => (false, body)
        let digits := body.takeWhile Char.isDigit
        if digits.isEmpty then (none, mark :: rest)
        else
          let n : Int := Decimal.natOfDigits digits
          (some (if negative then -n else n), body.dropWhile Char.isDigit)
      else (none, mark :: rest)
  | [] => (none, [])

/-- A number; one with a fraction or an exponent is a float. -/
def number (s : List Char) : Step Value :=
  let (negative, body) := match s with
    | '-' :: body => (true, body)
    | body => (false, body)
  match wholePart body with
  | none => refuse .valueExpected s
  | some (whole, rest) =>
      let (fraction, rest) := fractionPart rest
      let (exponent, rest) := exponentPart rest
      if fraction.isNone && exponent.isNone then
        if maxIntegerDigits < whole.length then .error .longInteger
        else
          let n : Int := Decimal.natOfDigits whole
          .ok (.int (if negative then -n else n), rest)
      else
        let digits := fraction.getD []
        let x := Decimal.toDouble (Decimal.natOfDigits (whole ++ digits))
          (exponent.getD 0 - digits.length)
        .ok (.float (if negative then -x else x), rest)

/-! ## 3. Values -/

/-- The words that stand for a value. -/
def words : List (List Char × Value) :=
  [("null".toList, .null), ("true".toList, .bool true), ("false".toList, .bool false),
   ("NaN".toList, .float Double.nan), ("Infinity".toList, .float Double.infinity),
   ("-Infinity".toList, .float (-Double.infinity))]

def word? (s : List Char) : Option (Value × List Char) :=
  (words.find? fun w => w.1.isPrefixOf s).map fun w => (w.2, s.drop w.1.length)

mutual

/-- A value at the front of `s`. -/
def value : Nat → List Char → Step Value
  | 0, s => refuse .valueExpected s
  | fuel + 1, s =>
      match s with
      | '"' :: rest => (text rest).map fun (t, after) => (.str t, after)
      | '{' :: rest =>
          match skipSpace rest with
          | '}' :: after => .ok (.map [], after)
          | body => members fuel [] body
      | '[' :: rest =>
          match skipSpace rest with
          | ']' :: after => .ok (.list [], after)
          | body => elements fuel [] body
      | s =>
          match word? s with
          | some found => .ok found
          | none => number s

/-- The items of a list from the next item on; `seen` are the items before it, last first. -/
def elements : Nat → List Value → List Char → Step Value
  | 0, _, s => refuse .valueExpected s
  | fuel + 1, seen, s =>
      match value fuel s with
      | .error e => .error e
      | .ok (v, rest) =>
          match skipSpace rest with
          | ']' :: after => .ok (.list (v :: seen).reverse, after)
          | ',' :: after => elements fuel (v :: seen) (skipSpace after)
          | other => refuse .commaExpected other

/-- The members of a mapping from the next name on. -/
def members : Nat → Entries → List Char → Step Value
  | 0, _, s => refuse .nameExpected s
  | fuel + 1, seen, s =>
      match s with
      | '"' :: rest =>
          match text rest with
          | .error e => .error e
          | .ok (name, rest) =>
              match skipSpace rest with
              | ':' :: rest =>
                  match value fuel (skipSpace rest) with
                  | .error e => .error e
                  | .ok (v, rest) =>
                      let seen := Entries.put seen (.str name) v
                      match skipSpace rest with
                      | '}' :: after => .ok (.map seen, after)
                      | ',' :: after => members fuel seen (skipSpace after)
                      | other => refuse .commaExpected other
              | other => refuse .colonExpected other
      | other => refuse .nameExpected other

end

/-- A whole document: one value with nothing but space around it. -/
def document (s : List Char) : Except Refusal Value :=
  match s with
  | '\uFEFF' :: _ => refuse .unexpectedMark s
  | s =>
      match value (2 * s.length + 2) (skipSpace s) with
      | .error e => .error e
      | .ok (v, rest) =>
          match skipSpace rest with
          | [] => .ok v
          | other => refuse .extraData other

/-- The place in a text at which `left` characters remain. -/
def placeOf (s : List Char) (cause : SyntaxCause) (left : Nat) : SyntaxFault :=
  let before := s.take (s.length - left)
  let lastLine := before.reverse.takeWhile (· ≠ '\n')
  ⟨cause, before.count '\n' + 1, lastLine.length + 1, before.length⟩

end PlotScene.Json
