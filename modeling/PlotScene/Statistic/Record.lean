import PlotScene.Notice
import PlotScene.Numeric.Grid

/-!
# Reading the records of a statistic

A statistic gives one record, or one record for each group of observations.  A record that lacks a
field or holds something that is not numeric is malformed: its group is skipped with a notice and
the other groups are read on.
-/

namespace PlotScene

/-- Why a record of a statistic cannot be used. -/
inductive Malformed where
  | notAMapping (typeName : String)
  | missingFields (names : List String)
  | notNumeric (field : String)
  | emptyField (field : String)
  | lengths (first second : String) (m n : Nat)
  | binCounts (edges counts : Nat)
  | centerCounts
  | shortBox (category size : Nat)
  | violinCounts
  | categoryNotFinite (category : Float)
  | notIterable (typeName : String)
  /-- An array of no dimensions, which has no items. -/
  | noAxis
  | edgesMissing
  | countsShape (shape expected : List Nat)
  | number (f : NumberFault)

def Malformed.text : Malformed → String
  | .notAMapping typeName => "记录类型 " ++ typeName ++ " 不是映射"
  | .missingFields names => "缺少字段: " ++ String.intercalate ", " names
  | .notNumeric field => "字段 " ++ field ++ " 不是数值数组"
  | .emptyField field => "字段 " ++ field ++ " 为空"
  | .lengths first second m n =>
      first ++ " 与 " ++ second ++ " 长度不一致（" ++ toString m ++ " != " ++ toString n ++ "）"
  | .binCounts edges counts =>
      "边界数 " ++ toString edges ++ " 与计数 " ++ toString counts ++ " 不匹配（应为计数 + 1）"
  | .centerCounts => "centers 与 counts 长度不一致"
  | .shortBox category size =>
      "第 " ++ toString category ++ " 类五数概括只有 " ++ toString size ++ " 个值"
  | .violinCounts => "densities/densities_y 与 unique_x 数量不一致"
  | .categoryNotFinite category => "类别序号 " ++ Double.text category ++ " 不是有限值"
  | .notIterable typeName => "'" ++ typeName ++ "' object is not iterable"
  | .noAxis => "iteration over a 0-d array"
  | .edgesMissing => "edges 需要包含 x 与 y 两组边界"
  | .countsShape shape expected =>
      "计数矩阵形状 " ++ Text.shape shape ++ " 与边界不匹配（应为 " ++ Text.shape expected ++ "）"
  | .number f => f.message

/-- The notice that a group was skipped. -/
def Malformed.notice (kind : StatisticKind) (group : Nat) (m : Malformed) : Notice where
  code := .malformedStatisticRecord
  message := kind.name ++ " 第 " ++ toString group ++ " 组记录无效，已跳过: " ++ m.text
  layer := some (.statistic kind)
  group := some group

/-- What ends the reading of a record: the record is skipped, or the whole operation stops. -/
inductive Trouble where
  | malformed (m : Malformed)
  | fault (f : Fault)

abbrev Reading (α : Type) := Except Trouble α

/-- What has been read: records and notices, each in the order of the groups. -/
structure Normalized (α : Type) where
  records : List α
  notices : List Notice

namespace Normalized

def empty {α : Type} : Normalized α := ⟨[], []⟩

def append {α : Type} (a b : Normalized α) : Normalized α :=
  ⟨a.records ++ b.records, a.notices ++ b.notices⟩

def record {α : Type} (r : α) : Normalized α := ⟨[r], []⟩

def notice {α : Type} (n : Notice) : Normalized α := ⟨[], [n]⟩

/-- The parts one after the other. -/
def concat {α : Type} (parts : List (Normalized α)) : Normalized α :=
  parts.foldr append empty

end Normalized

/-! ## 1. Groups -/

/-- The records of a result: a mapping is the only one, the items of a list are one each. -/
def groupsOf : Value → List Value
  | .null => []
  | .list vs => vs
  | v => [v]

/-- Reads one record as the record of a group. -/
def readGroup {α : Type} (kind : StatisticKind) (read : Nat → Value → Reading (Normalized α))
    (group : Nat) (v : Value) : Except Fault (Normalized α) :=
  match read group v with
  | .ok n => .ok n
  | .error (.malformed m) => .ok (Normalized.notice (m.notice kind group))
  | .error (.fault f) => .error f

/-- Reads records as consecutive groups, the first of which has the number `group`. -/
def readGroupsFrom {α : Type} (kind : StatisticKind)
    (read : Nat → Value → Reading (Normalized α)) :
    Nat → List Value → Except Fault (Normalized α)
  | _, [] => .ok Normalized.empty
  | group, v :: vs => do
      let here ← readGroup kind read group v
      let rest ← readGroupsFrom kind read (group + 1) vs
      return here.append rest

def readGroups {α : Type} (kind : StatisticKind) (read : Nat → Value → Reading (Normalized α))
    (raw : Value) : Except Fault (Normalized α) :=
  readGroupsFrom kind read 1 (groupsOf raw)

/-! ## 2. Fields -/

/-- Asks a record for fields that must be there. -/
def requireFields (record : Value) (names : List String) : Reading Unit :=
  if record.isMap then
    match names.filter fun name => (record.getD name).isNull with
    | [] => .ok ()
    | missing => .error (.malformed (.missingFields missing))
  else .error (.malformed (.notAMapping record.typeName))

/-- Reads an array; an integer beyond the range of doubles stops the operation. -/
def readGrid (v : Value) : Reading Grid :=
  match Grid.ofValue v with
  | .ok g => .ok g
  | .error .outOfRange => .error (.fault (.number .outOfRange))
  | .error f => .error (.malformed (.number f))

/-- Reads an array that is there and numeric; `none` stands for one that is not numeric. -/
def readGrid? (v : Value) : Except Fault (Option Grid) :=
  match Grid.ofValue v with
  | .ok g => .ok (some g)
  | .error .outOfRange => .error (.number .outOfRange)
  | .error _ => .ok none

/-- The numbers of a field, in order, whatever the shape in which they are given. -/
def readVector (v : Value) (name : String) : Reading (List Float) :=
  match readGrid? v with
  | .error f => .error (.fault f)
  | .ok none => .error (.malformed (.notNumeric name))
  | .ok (some g) =>
      if g.cells.isEmpty then .error (.malformed (.emptyField name)) else .ok g.cells

/-- Two fields of equally many numbers. -/
def readPair (v w : Value) (first second : String) : Reading (List Float × List Float) := do
  let xs ← readVector v first
  let ys ← readVector w second
  if xs.length = ys.length then return (xs, ys)
  else throw (.malformed (.lengths first second xs.length ys.length))

/-- The coordinates of a curve. -/
def readCurve (record : Value) : Reading (List Float × List Float) := do
  requireFields record ["x", "y"]
  readPair (record.getD "x") (record.getD "y") "x" "y"

end PlotScene
