import Mathlib.Data.List.Basic
import PlotScene.Proofs.Outcome
import PlotScene.Statistic.Normalize

/-!
# The number of a group

A reader uses the number of the group for two things only: it writes it into the records, and it
names it at the beginning of the notices.  Reading a record as the record of another group therefore
gives the same records and notices with another number in them.
-/

namespace PlotScene

/-! ## 1. Records and notices of another group -/

/-- Records that carry the number of their group. -/
class Grouped (α : Type) where
  group : α → Nat
  regroup : Nat → α → α
  group_regroup : ∀ g a, group (regroup g a) = g

export Grouped (group_regroup)

instance : Grouped RegressionCurve := ⟨(·.group), fun g r => { r with group := g }, fun _ _ => rfl⟩
instance : Grouped BinGroup := ⟨(·.group), fun g r => { r with group := g }, fun _ _ => rfl⟩
instance : Grouped SummaryCurve := ⟨(·.group), fun g r => { r with group := g }, fun _ _ => rfl⟩
instance : Grouped Box := ⟨(·.group), fun g r => { r with group := g }, fun _ _ => rfl⟩
instance : Grouped DensityCurve := ⟨(·.group), fun g r => { r with group := g }, fun _ _ => rfl⟩
instance : Grouped ViolinPoint := ⟨(·.group), fun g r => { r with group := g }, fun _ _ => rfl⟩
instance : Grouped QuantilePoint := ⟨(·.group), fun g r => { r with group := g }, fun _ _ => rfl⟩
instance : Grouped Cell := ⟨(·.group), fun g r => { r with group := g }, fun _ _ => rfl⟩

instance : (kind : StatisticKind) → Grouped kind.Record
  | .glm => inferInstanceAs (Grouped RegressionCurve)
  | .smooth => inferInstanceAs (Grouped RegressionCurve)
  | .bin => inferInstanceAs (Grouped BinGroup)
  | .summary => inferInstanceAs (Grouped SummaryCurve)
  | .boxplot => inferInstanceAs (Grouped Box)
  | .density => inferInstanceAs (Grouped DensityCurve)
  | .violin => inferInstanceAs (Grouped ViolinPoint)
  | .qq => inferInstanceAs (Grouped QuantilePoint)
  | .bin2d => inferInstanceAs (Grouped Cell)

/-- The words with which the message of a notice about a group begins. -/
def groupOpening (kind : StatisticKind) (g : Nat) : String :=
  kind.name ++ " 第 " ++ toString g ++ " 组"

/-- A notice about the first group as one about group `g`: the number changes, and with it the
opening words of the message. -/
def Notice.regroup (kind : StatisticKind) (g : Nat) (n : Notice) : Notice :=
  { n with
    message := groupOpening kind g ++
      String.ofList (n.message.toList.drop (groupOpening kind 1).toList.length)
    group := some g }

/-- Whether a notice is about group `g`, by its number and by the opening of its message. -/
structure Notice.IsAbout (kind : StatisticKind) (g : Nat) (n : Notice) : Prop where
  group : n.group = some g
  opening : ∃ rest, n.message = groupOpening kind g ++ rest

theorem Notice.isAbout_regroup (kind : StatisticKind) (g : Nat) (n : Notice) :
    (n.regroup kind g).IsAbout kind g := ⟨rfl, _, rfl⟩

-- A notice whose message is the opening for its group and words without the group's number.
theorem regroup_of_opening {kind : StatisticKind} {g : Nat} {m n : Notice} {rest : String}
    (hm : m.message = groupOpening kind 1 ++ rest)
    (hn : n = { m with message := groupOpening kind g ++ rest, group := some g }) :
    m.regroup kind g = n := by
  have hrest :
      String.ofList (m.message.toList.drop (groupOpening kind 1).toList.length) = rest := by
    rw [hm, String.toList_append, List.drop_left, String.ofList_toList]
  rw [Notice.regroup, hrest, hn]

theorem Malformed.regroup_notice (kind : StatisticKind) (g : Nat) (m : Malformed) :
    (m.notice kind 1).regroup kind g = m.notice kind g := by
  have hopening : ∀ i, (m.notice kind i).message =
      groupOpening kind i ++ ("记录无效，已跳过: " ++ m.text) := by
    intro i
    have hwords : " 组记录无效，已跳过: " = " 组" ++ "记录无效，已跳过: " := by decide
    show kind.name ++ " 第 " ++ toString i ++ " 组记录无效，已跳过: " ++ m.text = _
    rw [hwords, groupOpening]
    simp only [String.append_assoc]
  apply regroup_of_opening (hopening 1)
  rw [← hopening g]
  rfl

theorem Band.regroup_unresolvedNotice (kind : StatisticKind) (g : Nat) (given : Value) :
    (unresolvedNotice kind 1 given).regroup kind g = unresolvedNotice kind g given := by
  have hopening : ∀ i, (unresolvedNotice kind i given).message =
      groupOpening kind i ++ ("的置信区间形状 " ++ (shapeText given ++ " 无法识别，已忽略")) := by
    intro i
    have hwords : " 组的置信区间形状 " = " 组" ++ "的置信区间形状 " := by decide
    show kind.name ++ " 第 " ++ toString i ++ " 组的置信区间形状 " ++ shapeText given ++
      " 无法识别，已忽略" = _
    rw [hwords, groupOpening]
    simp only [String.append_assoc]
  apply regroup_of_opening (hopening 1)
  rw [← hopening g]
  rfl

namespace Normalized

variable {α : Type} [Grouped α] (kind : StatisticKind) (g : Nat)

/-- What has been read from the first group, as read from group `g`. -/
def regroup (n : Normalized α) : Normalized α :=
  ⟨n.records.map (Grouped.regroup g), n.notices.map (·.regroup kind g)⟩

@[simp]
theorem regroup_empty : (empty : Normalized α).regroup kind g = empty := rfl

@[simp]
theorem regroup_record (r : α) : (record r).regroup kind g = record (Grouped.regroup g r) := rfl

@[simp]
theorem regroup_notice (n : Notice) :
    (notice n : Normalized α).regroup kind g = notice (n.regroup kind g) := rfl

theorem regroup_append (m n : Normalized α) :
    (m.append n).regroup kind g = (m.regroup kind g).append (n.regroup kind g) := by
  simp [regroup, append]

theorem regroup_concat (parts : List (Normalized α)) :
    (concat parts).regroup kind g = concat (parts.map (regroup kind g)) := by
  induction parts with
  | nil => rfl
  | cons n parts ih =>
    show (n.append (concat parts)).regroup kind g = _
    rw [regroup_append, ih]
    rfl

end Normalized

/-! ## 2. Readers -/

/-- How the record of a group is read. -/
def StatisticKind.read : (kind : StatisticKind) → (observationX : Value) → (group : Nat) →
    (record : Value) → Reading (Normalized kind.Record)
  | .glm, observationX => readRegression .glm observationX
  | .smooth, observationX => readRegression .smooth observationX
  | .bin, _ => readBins
  | .summary, observationX => readSummary observationX
  | .boxplot, _ => readBoxes
  | .density, _ => readDensity
  | .violin, _ => readViolin
  | .qq, _ => readQuantiles
  | .bin2d, _ => readCells

theorem normalize_eq_readGroups (kind : StatisticKind) (raw observationX : Value) :
    normalize kind raw observationX = readGroups kind (kind.read observationX) raw := by
  cases kind <;> rfl

/-- A reader that uses the number of the group only as the number of what it returns. -/
def Regroups {α : Type} [Grouped α] (kind : StatisticKind)
    (read : Nat → Value → Reading (Normalized α)) : Prop :=
  ∀ g record, read g record = (read 1 record).map (Normalized.regroup kind g)

-- A change to the answer of a chain is a change to the answer of its last step.
theorem bind_eq_map_bind {ε α β : Type} {x : Except ε α} {f f' : α → Except ε β} {h : β → β}
    (hf : ∀ a, f' a = (f a).map h) : (x >>= f') = (x >>= f).map h := by
  cases x with
  | error e => rfl
  | ok a => exact hf a

theorem Band.ofRecord_regroup (kind : StatisticKind) (g : Nat) (record : Value) (x : List Float)
    (observationX : Value) :
    ofRecord kind g record x observationX =
      (ofRecord kind 1 record x observationX).map fun p =>
        (p.1, p.2.map (Notice.regroup kind g)) := by
  apply bind_eq_map_bind
  intro given
  cases given with
  | none => rfl
  | some given =>
    apply bind_eq_map_bind
    intro bounds
    cases bounds with
    | none =>
      show Except.ok (none, [unresolvedNotice kind g given]) = .ok (none, [_])
      rw [regroup_unresolvedNotice]
    | some bounds =>
      apply bind_eq_map_bind
      intro band
      rfl

-- Both curves with bands go on with the band and the notices that came with it.
theorem bind_band_regroup {α : Type} [Grouped α] (kind : StatisticKind) (g : Nat)
    (record : Value) (x : List Float) (observationX : Value)
    (curve : Nat → Option Band → α) (hcurve : ∀ b, curve g b = Grouped.regroup g (curve 1 b)) :
    (Reading.ofExcept (Band.ofRecord kind g record x observationX) >>= fun p =>
        (.ok ⟨[curve g p.1], p.2⟩ : Reading (Normalized α))) =
      (Reading.ofExcept (Band.ofRecord kind 1 record x observationX) >>= fun p =>
        (.ok ⟨[curve 1 p.1], p.2⟩ : Reading (Normalized α))).map (Normalized.regroup kind g) := by
  rw [Band.ofRecord_regroup]
  cases Band.ofRecord kind 1 record x observationX with
  | error f => rfl
  | ok p =>
    show Except.ok _ = Except.ok _
    rw [hcurve]
    rfl

theorem regroups_readRegression (kind : StatisticKind) (observationX : Value) :
    Regroups kind (readRegression kind observationX) := by
  intro g record
  apply bind_eq_map_bind
  rintro ⟨x, y⟩
  exact bind_band_regroup kind g record x observationX
    (fun g b => (⟨g, x, y, b⟩ : RegressionCurve)) fun _ => rfl

theorem regroups_readSummary (observationX : Value) :
    Regroups .summary (readSummary observationX) := by
  intro g record
  apply bind_eq_map_bind
  rintro ⟨x, y⟩
  exact bind_band_regroup .summary g record x observationX
    (fun g b => (⟨g, x, y, b.getD ⟨y, y⟩⟩ : SummaryCurve)) fun _ => rfl

theorem regroups_readDensity : Regroups .density readDensity := by
  intro g record
  apply bind_eq_map_bind
  rintro ⟨x, y⟩
  rfl

theorem regroups_readQuantiles : Regroups .qq readQuantiles := by
  intro g record
  apply bind_eq_map_bind
  rintro ⟨x, y⟩
  show Except.ok _ = Except.ok _
  rw [Normalized.regroup, List.map_zipWith]
  rfl

theorem regroups_readBins : Regroups .bin readBins := by
  intro g record
  apply bind_eq_map_bind
  intro _
  apply bind_eq_map_bind
  intro edges
  apply bind_eq_map_bind
  intro counts
  split
  next => rfl
  next =>
    dsimp only
    split
    next => rfl
    next =>
      apply bind_eq_map_bind
      intro centers
      split <;> rfl

theorem readBox_regroup (g category : Nat) (row : Grid) :
    readBox g category row = (readBox 1 category row).map (Normalized.regroup .boxplot g) := by
  rw [readBox, readBox]
  split
  next =>
    show Except.ok _ = Except.ok _
    rw [Normalized.regroup_notice, Malformed.regroup_notice]
  next =>
    apply bind_eq_map_bind
    intro numbers
    split <;> rfl

theorem readBoxesFrom_regroup (g category : Nat) (rows : List Grid) :
    readBoxesFrom g category rows =
      (readBoxesFrom 1 category rows).map (Normalized.regroup .boxplot g) := by
  induction rows generalizing category with
  | nil => rfl
  | cons row rows ih =>
    rw [readBoxesFrom, readBoxesFrom, readBox_regroup g, ih]
    cases readBox 1 category row with
    | error e => rfl
    | ok here =>
      cases readBoxesFrom 1 (category + 1) rows with
      | error e => rfl
      | ok rest =>
        show Except.ok _ = Except.ok _
        rw [Normalized.regroup_append]

theorem regroups_readBoxes : Regroups .boxplot readBoxes := by
  intro g record
  apply bind_eq_map_bind
  intro _
  apply bind_eq_map_bind
  intro grid
  split
  next => rfl
  next => exact readBoxesFrom_regroup g 1 [grid]
  next => exact readBoxesFrom_regroup g 1 grid.rows

theorem readViolinCategory_regroup (g : Nat) (category : Float)
    (curve : List Float × List Float) :
    readViolinCategory g category curve =
      (readViolinCategory 1 category curve).regroup .violin g := by
  rw [readViolinCategory, readViolinCategory]
  split
  next => rw [Normalized.regroup_notice, Malformed.regroup_notice]
  next => 
    rw [Normalized.regroup]
    simp only [List.map_zipWith]
    rfl

theorem regroups_readViolin : Regroups .violin readViolin := by
  intro g record
  apply bind_eq_map_bind
  intro _
  apply bind_eq_map_bind
  intro categories
  apply bind_eq_map_bind
  intro densities
  apply bind_eq_map_bind
  intro positions
  split
  next => rfl
  next =>
    apply bind_eq_map_bind
    intro curves
    show Except.ok _ = Except.ok _
    rw [Normalized.regroup_concat, List.map_zipWith]
    rw [show readViolinCategory g = fun category curve =>
      (readViolinCategory 1 category curve).regroup .violin g from
        funext fun category => funext (readViolinCategory_regroup g category)]

theorem rowCells_regroup (g : Nat) (y yWidth : Float) (columns : List (Float × Float))
    (counts : List Float) :
    rowCells g y yWidth columns counts =
      (rowCells 1 y yWidth columns counts).map (Grouped.regroup g) := by
  rw [rowCells, rowCells, List.map_filterMap]
  apply List.filterMap_congr
  rintro ⟨⟨x, xWidth⟩, count⟩ _
  show (if count == 0 || count.isNaN then none else some _) =
    Option.map _ (if count == 0 || count.isNaN then none else some _)
  split <;> rfl

theorem regroups_readCells : Regroups .bin2d readCells := by
  intro g record
  apply bind_eq_map_bind
  intro _
  apply bind_eq_map_bind
  rintro ⟨xEdges, yEdges⟩
  apply bind_eq_map_bind
  intro counts
  show Except.ok _ = Except.ok _
  simp only [Normalized.regroup, List.map_flatten, List.map_zipWith, rowCells_regroup g]
  rfl

/-- Every reader uses the number of the group only as the number of what it returns. -/
theorem StatisticKind.regroups_read (kind : StatisticKind) (observationX : Value) :
    Regroups kind (kind.read observationX) := by
  cases kind with
  | glm => exact regroups_readRegression .glm observationX
  | smooth => exact regroups_readRegression .smooth observationX
  | bin => exact regroups_readBins
  | summary => exact regroups_readSummary observationX
  | boxplot => exact regroups_readBoxes
  | density => exact regroups_readDensity
  | violin => exact regroups_readViolin
  | qq => exact regroups_readQuantiles
  | bin2d => exact regroups_readCells

end PlotScene
