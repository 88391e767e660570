import PlotScene.Value

/-!
# Expressions

The updates of signals, the tests of rules and the conditions of triggers are texts of an expression
language that the renderer reads.  Here is as much of this language as an interactive legend uses:
signals, fields of what is at hand, the rows of a data source, and the logical operators, whose
operands need not be truth values.
-/

namespace PlotScene

inductive Expression where
  | literal (b : Bool)
  | signal (name : String)
  /-- A field of the row or of the event at hand. -/
  | field (subject name : String)
  /-- A mapping with one field. -/
  | record (name : String) (e : Expression)
  /-- The rows of a data source. -/
  | data (source : String)
  | length (e : Expression)
  /-- Whether some row of a data source has the value in a field. -/
  | indata (source field : String) (e : Expression)
  | not (e : Expression)
  | and (a b : Expression)
  | or (a b : Expression)
deriving DecidableEq, Repr

namespace Expression

/-! ## 1. Reading -/

/-- A name, a quoted text, or a single character of punctuation. -/
inductive Token where
  | word (s : String)
  | text (s : String)
  | mark (c : Char)
deriving DecidableEq, Repr

/-- What has been read of the token that a text is in. -/
inductive Scanning where
  | between
  | word (read : List Char)
  | text (read : List Char)

/-- Goes on with a character between tokens. -/
def start (c : Char) : List Token × Scanning :=
  if c = ' ' then ([], .between)
  else if c = '\'' then ([], .text [])
  else if c.isAlpha then ([], .word [c])
  else ([.mark c], .between)

/-- Goes on with a character: the tokens that end before it or with it. -/
def Scanning.next (c : Char) : Scanning → List Token × Scanning
  | .between => start c
  | .word read =>
      if c.isAlphanum then ([], .word (read ++ [c]))
      else (.word (String.ofList read) :: (start c).1, (start c).2)
  | .text read =>
      if c = '\'' then ([.text (String.ofList read)], .between) else ([], .text (read ++ [c]))

/-- The tokens of a text; a quotation that does not end is left as its opening mark. -/
def tokens : Scanning → List Char → List Token
  | .between, [] => []
  | .word read, [] => [.word (String.ofList read)]
  | .text _, [] => [.mark '\'']
  | scanning, c :: cs => (scanning.next c).1 ++ tokens (scanning.next c).2 cs

/-- An expression that ends with a closing mark. -/
def closing (c : Char) (e : Expression) : List Token → Option (Expression × List Token)
  | .mark d :: rest => if d = c then some (e, rest) else none
  | _ => none

mutual

/-- Reads alternatives from the front of tokens, down to a depth, which the number of tokens
limits. -/
def readOr : Nat → List Token → Option (Expression × List Token)
  | 0, _ => none
  | n + 1, ts => do
      let (a, rest) ← readAnd n ts
      match rest with
      | .mark '|' :: .mark '|' :: rest =>
          let (b, rest) ← readOr n rest
          return (.or a b, rest)
      | rest => return (a, rest)

def readAnd : Nat → List Token → Option (Expression × List Token)
  | 0, _ => none
  | n + 1, ts => do
      let (a, rest) ← readNot n ts
      match rest with
      | .mark '&' :: .mark '&' :: rest =>
          let (b, rest) ← readAnd n rest
          return (.and a b, rest)
      | rest => return (a, rest)

def readNot : Nat → List Token → Option (Expression × List Token)
  | 0, _ => none
  | n + 1, .mark '!' :: ts => do
      let (e, rest) ← readNot n ts
      return (.not e, rest)
  | n + 1, ts => readSimple n ts

def readSimple : Nat → List Token → Option (Expression × List Token)
  | 0, _ => none
  | _ + 1, .word "true" :: rest => some (.literal true, rest)
  | _ + 1, .word "false" :: rest => some (.literal false, rest)
  | _ + 1, .word "data" :: .mark '(' :: .text source :: .mark ')' :: rest =>
      some (.data source, rest)
  | n + 1, .word "length" :: .mark '(' :: ts => do
      let (e, rest) ← readOr n ts
      closing ')' (.length e) rest
  | n + 1, .word "indata" :: .mark '(' :: .text source :: .mark ',' :: .text name :: .mark ',' ::
        ts => do
      let (e, rest) ← readOr n ts
      closing ')' (.indata source name e) rest
  | n + 1, .mark '\x7b' :: .word name :: .mark ':' :: ts => do
      let (e, rest) ← readOr n ts
      closing '\x7d' (.record name e) rest
  | _ + 1, .word subject :: .mark '.' :: .word name :: rest => some (.field subject name, rest)
  | _ + 1, .word name :: rest => some (.signal name, rest)
  | _, _ => none

end

/-- Reads a text as an expression as a whole. -/
@[irreducible]
def read (text : String) : Option Expression :=
  let ts := tokens .between text.toList
  match readOr (4 * ts.length + 4) ts with
  | some (e, []) => some e
  | _ => none

/-! ## 2. Values -/

/-- What an expression can see: the signals, the row or event at hand, and the rows of sources. -/
structure Scope where
  signal : String → Value
  subject : String → Value
  rows : String → List Value

/-- What counts as true: all mappings and lists do, and of scalars those that are not empty. -/
def holds : Value → Bool
  | .scalar .null => false
  | .scalar (.bool b) => b
  | .scalar (.int n) => n != 0
  | .scalar (.float x) => x != 0 && !x.isNaN
  | .scalar (.str s) => s != ""
  | _ => true

def eval (scope : Scope) : Expression → Value
  | literal b => .bool b
  | signal name => scope.signal name
  | field subject name => (scope.subject subject).getD name
  | record name e => .obj [(name, e.eval scope)]
  | data source => .list (scope.rows source)
  | length e =>
      match e.eval scope with
      | .list vs => .int vs.length
      | _ => .null
  | indata source name e =>
      .bool ((scope.rows source).any fun row => (e.eval scope).same (row.getD name))
  | not e => .bool !holds (e.eval scope)
  | and a b => if holds (a.eval scope) then b.eval scope else a.eval scope
  | or a b => if holds (a.eval scope) then a.eval scope else b.eval scope

/-- Whether an expression depends on one of these signals. -/
def mentions (names : List String) : Expression → Bool
  | literal _ | field _ _ | data _ => false
  | signal name => names.contains name
  | record _ e | length e | indata _ _ e | not e => e.mentions names
  | and a b | or a b => a.mentions names || b.mentions names

end Expression

end PlotScene
