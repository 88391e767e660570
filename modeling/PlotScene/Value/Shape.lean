import PlotScene.Fault

/-!
# Asking a value for its parts

A description may hold any value where a mapping or a list is expected.  These accessors answer with
the part or with the fault that says what the value lacks.
-/

namespace PlotScene.Value

/-- The text of a value; an integer with too many digits stops the operation. -/
def text? (v : Value) : Except Fault String :=
  if v.hasText then .ok v.text else .error .unusable

/-- The value under a text key of a mapping, null where the key is absent. -/
def field (v : Value) (key : String) : Except Fault Value :=
  match v with
  | .map es => .ok ((Entries.lookup? es (.str key)).getD null)
  | other => .error (.noFields other.typeName)

/-- The value under a text key of a mapping, if the key is there. -/
def entry? (v : Value) (key : String) : Except Fault (Option Value) :=
  match v with
  | .map es => .ok (Entries.lookup? es (.str key))
  | other => .error (.noFields other.typeName)

/-- The rows of an array along its first axis. -/
def rows : List Nat → List Float → List Value
  | [], _ => []
  | [_], cells => cells.map .float
  | n :: inner, cells =>
      let size := inner.foldl (· * ·) 1
      (List.range n).map fun i => .array inner ((cells.drop (i * size)).take size)

/-- The items that a loop over the value visits: the items of a list, the keys of a mapping, the
characters of a text, the rows of an array. -/
def iterate (v : Value) : Except Fault (List Value) :=
  match v with
  | .list vs | .column vs => .ok vs
  | .map es => .ok (es.map fun e => .scalar e.1)
  | str s => .ok (s.toList.map fun c => .str (String.ofList [c]))
  | .array [] _ => .error .wrongType
  | .array shape cells => .ok (rows shape cells)
  | other => .error (.notIterable other.typeName)

/-- The scalar that can stand in a set or as a key. -/
def key (v : Value) : Except Fault Scalar :=
  match v with
  | .scalar s => .ok s
  | other => .error (.unhashable other.typeName)

/-- The items of a list under a key; a mapping without the key has none. -/
def itemsUnder (v : Value) (key : String) : Except Fault (List Value) := do
  match ← v.entry? key with
  | some items => items.iterate
  | none => return []

/-- Whether a value counts as true: a number other than zero, a text or container that is not
empty.  An array or a column has no truth value unless it is an array of at most one cell. -/
def truthy (v : Value) : Except Fault Bool :=
  match v with
  | null => .ok false
  | bool b => .ok b
  | int n => .ok (n != 0)
  | float x => .ok (x != 0)
  | str s => .ok (s != "")
  | .list vs => .ok !vs.isEmpty
  | .map es => .ok !es.isEmpty
  | .array _ [] => .ok false
  | .array _ [x] => .ok (x != 0)
  | .array _ _ => .error .unusable
  | .column _ => .error .unusable

/-- The value when it counts as true, the empty mapping otherwise. -/
def orEmpty (v : Value) : Except Fault Value := do
  if ← v.truthy then pure v else pure (.map [])

/-- The value when it counts as true, null otherwise. -/
def orNull (v : Value) : Except Fault Value := do
  if ← v.truthy then pure v else pure null

/-- The number of items of a container. -/
def length (v : Value) : Except Fault Nat :=
  match v with
  | .list vs | .column vs => .ok vs.length
  | .map es => .ok es.length
  | str s => .ok s.length
  | .array (n :: _) _ => .ok n
  | _ => .error .wrongType

/-- The item at a position of a list, text, column or array, or under that number in a mapping. -/
def item (v : Value) (i : Nat) : Except Fault Value :=
  match v with
  | .map es =>
      match Entries.lookup? es (.int i) with
      | some x => .ok x
      | none => .error .missingKey
  | other => do
      match (← other.iterate)[i]? with
      | some x => pure x
      | none => throw .outOfBounds

end PlotScene.Value
