import PlotScene.Text.Numeral

/-!
# Arguments of a command line

How the words of a command line are told apart: options with and without a value, in full,
shortened, joined to their value or to each other, and plain arguments.  A word that begins with a
dash is an option unless it is a negative number or holds a blank; after two dashes alone every word
is a plain argument.
-/

namespace PlotScene.CommandLine

/-! ## 1. Options -/

/-- An option that a command knows: the spellings of its name, and whether a value follows. -/
structure OptionSpec (κ : Type) where
  key : κ
  names : List String
  takesValue : Bool

/-- What stands in one word with the name of an option: nothing, a text behind an equals sign, or
the letters behind the name. -/
inductive Attached where
  | nothing
  | equals (text : String)
  | letters (cs : List Char)

/-- An option as it was given. -/
structure GivenOption (κ : Type) where
  spec : OptionSpec κ
  attached : Attached

/-- What a word of a command line is. -/
inductive Word (κ : Type) where
  | plain (text : String)
  /-- Two dashes alone. -/
  | separator
  | option (o : GivenOption κ)
  | unknownOption

/-- A word that could stand for several options. -/
structure Ambiguous where
  word : String

variable {κ : Type}

/-- The option with exactly this name. -/
def named? (specs : List (OptionSpec κ)) (name : String) : Option (OptionSpec κ) :=
  specs.find? fun s => s.names.contains name

/-- A decimal digit of any script. -/
def isDigit (c : Char) : Bool :=
  (Text.digitValue? c).isSome

/-- Whether a word is a negative number, such as `-5`, `-0.5` and `-.5`; a line break may stand
behind it. -/
def isNegativeNumber (word : List Char) : Bool :=
  let line := if word.getLast? = some '\n' then word.dropLast else word
  match line with
  | '-' :: rest =>
      match rest.dropWhile isDigit with
      | [] => !rest.isEmpty
      | '.' :: fraction => !fraction.isEmpty && fraction.all isDigit
      | _ => false
  | _ => false

/-- Splits a word at its first equals sign. -/
def splitEquals (word : List Char) : Option (String × String) :=
  match word.dropWhile (· ≠ '=') with
  | '=' :: value => some (String.ofList (word.takeWhile (· ≠ '=')), String.ofList value)
  | _ => none

/-- The options that a word with two dashes shortens. -/
def shortened (specs : List (OptionSpec κ)) (word : List Char) : List (GivenOption κ) :=
  let (opening, attached) := match splitEquals word with
    | some (name, value) => (name.toList, Attached.equals value)
    | none => (word, .nothing)
  specs.flatMap fun s =>
    (s.names.filter fun name => opening.isPrefixOf name.toList).map fun _ => ⟨s, attached⟩

/-- The options that a word with one dash joins to a value or shortens. -/
def joinedShort (specs : List (OptionSpec κ)) (word : List Char) : List (GivenOption κ) :=
  let short := String.ofList (word.take 2)
  specs.flatMap fun s => s.names.filterMap fun name =>
    if name = short then some ⟨s, .letters (word.drop 2)⟩
    else if word.isPrefixOf name.toList then some ⟨s, .nothing⟩
    else none

/-- The options that a word may stand for, without being the name of one. -/
def candidates (specs : List (OptionSpec κ)) (word : List Char) : List (GivenOption κ) :=
  match word with
  | '-' :: '-' :: _ => shortened specs word
  | _ => joinedShort specs word

/-- The option with this name before an equals sign, with the value after it. -/
def beforeEquals? (specs : List (OptionSpec κ)) (word : List Char) : Option (GivenOption κ) :=
  (splitEquals word).bind fun (name, value) =>
    (named? specs name).map fun s => ⟨s, .equals value⟩

/-- Tells what a word is that is not behind two dashes. -/
def classify (specs : List (OptionSpec κ)) (text : String) : Except Ambiguous (Word κ) :=
  let word := text.toList
  match word with
  | '-' :: _ :: _ =>
      match named? specs text with
      | some s => .ok (.option ⟨s, .nothing⟩)
      | none =>
          match beforeEquals? specs word with
          | some o => .ok (.option o)
          | none =>
              match candidates specs word with
              | [o] => .ok (.option o)
              | _ :: _ :: _ => .error ⟨text⟩
              | [] =>
                  if isNegativeNumber word || word.contains ' ' then .ok (.plain text)
                  else .ok .unknownOption
  | _ => .ok (.plain text)

/-- Tells what each word is. -/
def classifyAll (specs : List (OptionSpec κ)) : List String → Except Ambiguous (List (Word κ))
  | [] => .ok []
  | text :: rest =>
      if text = "--" then .ok (.separator :: rest.map .plain)
      else do
        let first ← classify specs text
        let others ← classifyAll specs rest
        return first :: others

/-! ## 2. Values of options -/

/-- An option with its value, if it takes one. -/
abbrev Setting (κ : Type) := κ × Option String

/-- What a word with an option sets. -/
structure Effect (κ : Type) where
  settings : List (Setting κ)
  /-- The option that still needs the next word as its value. -/
  needing : Option (OptionSpec κ) := none
  /-- Whether letters are left that nothing takes. -/
  leftover : Bool := false

def Effect.after {κ : Type} (s : Setting κ) (e : Effect κ) : Effect κ :=
  { e with settings := s :: e.settings }

/-- The effect of the letters behind an option without a value: each is an option of its own, up to
one that takes the rest as its value or one that is unknown.  `none` stands for letters that are
not allowed. -/
def letters? (specs : List (OptionSpec κ)) : List Char → Option (Effect κ)
  | [] => some ⟨[], none, false⟩
  | '-' :: _ => none
  | c :: rest =>
      match named? specs (String.ofList ['-', c]) with
      | none => some ⟨[], none, true⟩
      | some s =>
          match s.takesValue, rest with
          | true, [] => some ⟨[], some s, false⟩
          | true, '=' :: value => some ⟨[(s.key, some (String.ofList value))], none, false⟩
          | true, value => some ⟨[(s.key, some (String.ofList value))], none, false⟩
          | false, '=' :: _ => none
          | false, more => (letters? specs more).map (.after (s.key, none))

/-- The effect of an option; `none` stands for a value that is not allowed. -/
def effect? (specs : List (OptionSpec κ)) (o : GivenOption κ) : Option (Effect κ) :=
  match o.attached, o.spec.takesValue with
  | .nothing, true => some ⟨[], some o.spec, false⟩
  | .nothing, false => some ⟨[(o.spec.key, none)], none, false⟩
  | .equals value, true => some ⟨[(o.spec.key, some value)], none, false⟩
  | .equals _, false => none
  | .letters cs, true => some ⟨[(o.spec.key, some (String.ofList cs))], none, false⟩
  | .letters cs, false => (letters? specs cs).map (.after (o.spec.key, none))

end PlotScene.CommandLine
