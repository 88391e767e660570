import PlotScene.Double

/-!
# Dynamic values

Plot descriptions, statistic results, output options and the compiled document are trees of dynamic
values: scalars, lists and mappings that keep the order of their keys, and, from callers that
compute with them, rectangular arrays of doubles and columns of observations.
-/

namespace PlotScene

inductive Scalar where
  | null
  | bool (b : Bool)
  | int (n : Int)
  | float (x : Float)
  | str (s : String)

/-- The keys of a mapping are scalars, in the order in which they were first written. -/
inductive Value where
  | scalar (s : Scalar)
  | list (items : List Value)
  | map (entries : List (Scalar × Value))
  | array (shape : List Nat) (cells : List Float)
  | column (items : List Value)

abbrev Entries := List (Scalar × Value)

/-! ## 1. Scalars as numbers and as keys -/

/-- What a numeric scalar stands for, whatever its type. -/
inductive Quantity where
  | exact (r : Rat)
  | infinite (negative : Bool)
  | undefined

def Quantity.ofFloat (x : Float) : Quantity :=
  match Double.rational? x with
  | some r => .exact r
  | none => if x.isNaN then .undefined else .infinite (x < 0)

/-- An undefined quantity equals nothing, itself included. -/
def Quantity.same : Quantity → Quantity → Bool
  | .exact r, .exact s => r.num == s.num && r.den == s.den
  | .infinite a, .infinite b => a == b
  | _, _ => false

theorem Quantity.same_exact (r s : Rat) : same (.exact r) (.exact s) = true ↔ r = s := by
  constructor
  · intro h
    simp only [same, Bool.and_eq_true, beq_iff_eq] at h
    exact Rat.ext h.1 h.2
  · rintro rfl
    simp [same]

namespace Scalar

/-- The quantity of a number; truth values count as zero and one. -/
def quantity? : Scalar → Option Quantity
  | .bool b => some (.exact (if b then 1 else 0))
  | .int n => some (.exact n)
  | .float x => some (Quantity.ofFloat x)
  | .null | .str _ => none

/-- Numbers are the same when their quantities are, texts when their characters are. -/
def same (a b : Scalar) : Bool :=
  match a, b with
  | .null, .null => true
  | .str s, .str t => s == t
  | a, b =>
      match a.quantity?, b.quantity? with
      | some x, some y => x.same y
      | _, _ => false

@[simp]
theorem same_str (s t : String) : same (.str s) (.str t) = (s == t) := rfl

/-- Null, NaN: a scalar that records no observation. -/
def isMissing : Scalar → Bool
  | .null => true
  | .float x => x.isNaN
  | _ => false

end Scalar

/-! ## 2. Mappings -/

namespace Entries

/-- The value of the first entry with this key. -/
def lookup? : Entries → Scalar → Option Value
  | [], _ => none
  | (k, v) :: rest, key => if k.same key then some v else lookup? rest key

/-- Writes a value: a present key keeps its place, a new one goes to the end. -/
def put : Entries → Scalar → Value → Entries
  | [], key, value => [(key, value)]
  | (k, v) :: rest, key, value =>
      if k.same key then (k, value) :: rest else (k, v) :: put rest key value

/-- Writes the entries of a second mapping into a first one, one after the other. -/
def putAll (es more : Entries) : Entries :=
  more.foldl (fun acc e => put acc e.1 e.2) es

def erase (es : Entries) (key : Scalar) : Entries :=
  es.filter fun e => !e.1.same key

/-- The mapping of a list of pairs; of two pairs with one key the later value counts. -/
def ofPairs (pairs : List (Scalar × Value)) : Entries :=
  putAll [] pairs

end Entries

/-! ## 3. Values -/

namespace Value

@[match_pattern] abbrev null : Value := .scalar .null
@[match_pattern] abbrev bool (b : Bool) : Value := .scalar (.bool b)
@[match_pattern] abbrev int (n : Int) : Value := .scalar (.int n)
@[match_pattern] abbrev float (x : Float) : Value := .scalar (.float x)
@[match_pattern] abbrev str (s : String) : Value := .scalar (.str s)

instance : Inhabited Value := ⟨null⟩

/-- A mapping whose keys are texts. -/
def obj (fields : List (String × Value)) : Value :=
  .map (fields.map fun f => (.str f.1, f.2))

def strings (texts : List String) : Value :=
  .list (texts.map .str)

/-- The value under a text key, where the value is a mapping that has it. -/
def get? (v : Value) (key : String) : Option Value :=
  match v with
  | .map es => Entries.lookup? es (.str key)
  | _ => none

/-- The value under a text key, null where there is none. -/
def getD (v : Value) (key : String) : Value :=
  (v.get? key).getD null

def has (v : Value) (key : String) : Bool :=
  (v.get? key).isSome

/-- Writes one field of a mapping; anything else stays as it is. -/
def set (v : Value) (key : String) (x : Value) : Value :=
  match v with
  | .map es => .map (Entries.put es (.str key) x)
  | other => other

/-- Writes several fields of a mapping in turn. -/
def setAll (v : Value) (fields : List (String × Value)) : Value :=
  fields.foldl (fun acc f => acc.set f.1 f.2) v

/-- The mapping without a field. -/
def without (v : Value) (key : String) : Value :=
  match v with
  | .map es => .map (Entries.erase es (.str key))
  | other => other

/-- The mapping `v` with all entries of the mapping `w` written into it. -/
def merged (v w : Value) : Value :=
  match v, w with
  | .map es, .map more => .map (Entries.putAll es more)
  | v, _ => v

def entries : Value → Entries
  | .map es => es
  | _ => []

def items : Value → List Value
  | .list vs => vs
  | _ => []

def isNull : Value → Bool
  | null => true
  | _ => false

def isMap : Value → Bool
  | .map _ => true
  | _ => false

/-- Whether a value records no observation: null, NaN, or a container with such a value as its only
item. -/
def isMissing : Value → Bool
  | .scalar s => s.isMissing
  | .list [v] => isMissing v
  | .list _ => false
  | .map _ => false
  | .array _ [x] => x.isNaN
  | .array _ _ => false
  | .column [.scalar s] => s.isMissing
  | .column _ => false

/-- The word for the type of a value in messages. -/
def typeName : Value → String
  | null => "NoneType"
  | bool _ => "bool"
  | int _ => "int"
  | float _ => "float"
  | str _ => "str"
  | .list _ => "list"
  | .map _ => "dict"
  | .array _ _ => "ndarray"
  | .column _ => "Series"

mutual

/-- Whether two values are the same: numbers by quantity, lists item by item, mappings key by key
whatever the order of their keys. -/
def same : Value → Value → Bool
  | .scalar a, w => match w with
      | .scalar b => a.same b
      | _ => false
  | .list vs, w => match w with
      | .list ws => sameItems vs ws
      | _ => false
  | .map es, w => match w with
      | .map fs => es.length == fs.length && sameEntries es fs
      | _ => false
  | .array shape cells, w => match w with
      | .array shape' cells' => shape == shape' && (cells.zip cells').all fun p => p.1 == p.2
      | _ => false
  | .column vs, w => match w with
      | .column ws => sameItems vs ws
      | _ => false

def sameItems : List Value → List Value → Bool
  | [], ws => ws.isEmpty
  | v :: vs, ws => match ws with
      | [] => false
      | w :: ws => same v w && sameItems vs ws

/-- Whether every entry of the first mapping is one of the second. -/
def sameEntries : List (Scalar × Value) → Entries → Bool
  | [], _ => true
  | (k, v) :: es, fs =>
      (match Entries.lookup? fs k with
        | some w => same v w
        | none => false) && sameEntries es fs

end

end Value

end PlotScene
