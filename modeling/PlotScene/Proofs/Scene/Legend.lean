import Mathlib.Data.List.Basic
import PlotScene.Proofs.Scene.Compose

/-!
# When there is a legend, and what it adds

A document gets a legend when one of its scales is the color scale and its rows show two colors.
The legend widens the padding on the right; one that reacts to clicks also adds its signals and the
source of the selection, and gives the marks their rules.
-/

namespace PlotScene.Legend

open Reference

/-! ## 1. Colors of rows -/

/-- Two rows have different colors, neither of them empty. -/
def TwoColors (rows : List Value) : Prop :=
  ∃ row ∈ rows, ∃ other ∈ rows, ∃ a b, row.get? "color" = some (.str a) ∧
    other.get? "color" = some (.str b) ∧ a ≠ "" ∧ b ≠ "" ∧ a ≠ b

/-- The colors of these rows are labels. -/
def LabelsOnly (rows : List Value) : Prop :=
  ∀ row ∈ rows, ∀ v, row.get? "color" = some v → ∃ label, v = .str label

/-- The label of a row, unless it is missing or empty. -/
def rowLabel? (row : Value) : Option String :=
  match row.get? "color" with
  | some (.str label) => if label = "" then none else some label
  | _ => none

theorem rowLabel?_eq_some {row : Value} {label : String} :
    rowLabel? row = some label ↔ row.get? "color" = some (.str label) ∧ label ≠ "" := by
  unfold rowLabel?
  split
  next l hl =>
    rw [hl, Option.some.injEq, Value.scalar.injEq, Scalar.str.injEq]
    split
    next hempty =>
      refine iff_of_false (by simp) ?_
      rintro ⟨rfl, hne⟩
      exact hne hempty
    next hne =>
      rw [Option.some.injEq]
      exact ⟨fun h => ⟨h, h ▸ hne⟩, fun h => h.1⟩
  next hnone => exact iff_of_false (by simp) fun h => hnone label h.1

theorem rowColor?_eq {rows : List Value} (h : LabelsOnly rows) :
    rows.filterMap rowColor? = (rows.filterMap rowLabel?).map Value.str := by
  rw [List.map_filterMap]
  refine List.filterMap_congr fun row hrow => ?_
  rw [rowColor?, rowLabel?]
  cases hcolor : row.get? "color" with
  | none => rfl
  | some v =>
    obtain ⟨label, rfl⟩ := h row hrow v hcolor
    have hsame : Value.same (.str label) (.str "") = (label == "") := rfl
    rw [Option.filter_some, hsame]
    by_cases hempty : label = ""
    · simp [hempty]
    · simp [hempty, Value.isMissing, Scalar.isMissing]

theorem keys_of_labels (labels : List String) :
    (labels.map Value.str).mapM Value.key = .ok (labels.map Scalar.str) := by
  induction labels with
  | nil => rfl
  | cons l ls ih => exact mapM_cons_eq_ok.mpr ⟨_, _, rfl, ih, rfl⟩

theorem twoColors_iff {rows : List Value} :
    1 < (firsts ((rows.filterMap rowLabel?).map Scalar.str)).length ↔ TwoColors rows := by
  have hstr (a b : String) : (Scalar.str a == Scalar.str b) = (a == b) := rfl
  rw [firsts_map hstr, List.length_map, one_lt_length_firsts]
  simp only [List.mem_filterMap, rowLabel?_eq_some, TwoColors]
  constructor
  · rintro ⟨a, ⟨row, hrow, ha, hea⟩, b, ⟨other, hother, hb, heb⟩, hab⟩
    exact ⟨row, hrow, other, hother, a, b, ha, hb, hea, heb, hab⟩
  · rintro ⟨row, hrow, other, hother, a, b, ha, hb, hea, heb, hab⟩
    exact ⟨a, ⟨row, hrow, ha, hea⟩, b, ⟨other, hother, hb, heb⟩, hab⟩

/-! ## 2. Whether a legend is needed -/

/-- A scale is an ordinal scale of the name that a legend explains. -/
def IsColor (c : Value) : Prop :=
  c.get? "name" = some (.str Highlight.colorScaleName) ∧ c.get? "type" = some (.str "ordinal")

theorem isColorScale_eq {c : Value} (hc : c.isMap = true) :
    ∃ b, isColorScale c = .ok b ∧ (b = true ↔ IsColor c) := by
  have hsame (key text : String) :
      (c.getD key).same (.str text) = true ↔ c.get? key = some (.str text) := by
    refine ⟨Value.get?_of_same, fun h => ?_⟩
    rw [Value.getD_of_get? h]
    exact (Scalar.same_str_iff _ _).mpr rfl
  rw [isColorScale, Value.field_of_isMap hc, ok_bind, Value.field_of_isMap hc, ok_bind]
  exact ⟨_, rfl, by rw [Bool.and_eq_true, hsame, hsame, IsColor]⟩

theorem hasColorScale_eq {cs : List Value} (hcs : ∀ c ∈ cs, c.isMap = true) :
    ∃ b, hasColorScale cs = .ok b ∧ (b = true ↔ ∃ c ∈ cs, IsColor c) := by
  induction cs with
  | nil => exact ⟨false, rfl, by simp⟩
  | cons c cs ih =>
    obtain ⟨hc, hcs⟩ := List.forall_mem_cons.mp hcs
    obtain ⟨here, hhere, hiff⟩ := isColorScale_eq hc
    obtain ⟨rest, hrest, hriff⟩ := ih hcs
    rw [hasColorScale, hhere, ok_bind]
    cases here with
    | true => exact ⟨true, rfl, iff_of_true rfl ⟨c, List.mem_cons_self, hiff.mp rfl⟩⟩
    | false =>
      refine ⟨rest, hrest, hriff.trans ?_⟩
      rw [List.exists_mem_cons_iff, or_iff_right fun h => Bool.false_ne_true (hiff.mpr h)]

theorem itemsUnder_list {v : Value} {key : String} {vs : List Value}
    (h : v.get? key = some (.list vs)) : v.itemsUnder key = .ok vs := by
  cases v with
  | map es =>
    rw [Value.itemsUnder, show Value.entry? (.map es) key = .ok (some (.list vs)) from
      congrArg Except.ok h]
    rfl
  | _ => cases h

/-- A legend is needed exactly where there are the color scale and two colors. -/
theorem isNeeded_eq {spec : Value} {rows cs : List Value}
    (hscales : spec.get? "scales" = some (.list cs)) (hcs : ∀ c ∈ cs, c.isMap = true)
    (hrows : LabelsOnly rows) :
    ∃ b, isNeeded spec rows = .ok b ∧ (b = true ↔ (∃ c ∈ cs, IsColor c) ∧ TwoColors rows) := by
  obtain ⟨b, hb, hiff⟩ := hasColorScale_eq hcs
  rw [isNeeded, itemsUnder_list hscales, ok_bind, hb, ok_bind]
  cases b with
  | false =>
    exact ⟨false, rfl, iff_of_false Bool.false_ne_true fun h => Bool.false_ne_true (hiff.mpr h.1)⟩
  | true =>
    rw [rowColor?_eq hrows, keys_of_labels]
    refine ⟨_, rfl, ?_⟩
    rw [decide_eq_true_eq, twoColors_iff, and_iff_right (hiff.mp rfl)]

/-! ## 3. What a legend adds -/

theorem itemsUnder_none {v : Value} {key : String} (hv : v.isMap = true)
    (h : v.get? key = none) : v.itemsUnder key = .ok [] := by
  cases v with
  | map es =>
    rw [Value.itemsUnder, show Value.entry? (.map es) key = .ok none from congrArg Except.ok h]
    rfl
  | _ => cases hv

section

variable {spec : Value} {rows : List Value} {s : Style}

theorem compose_of_not_needed (h : isNeeded spec rows = .ok false) (reacts : Bool) :
    compose spec rows reacts s = .ok spec := by
  rw [compose, h]
  rfl

/-- The padding of a style with room for a legend. -/
def roomy (s : Style) : Value :=
  (s.padding false).set "right" (.int s.legendPaddingRight)

theorem widened_eq (hpadding : spec.get? "padding" = some (s.padding false)) :
    widened spec s = .ok (roomy s) := by
  rw [widened, Value.field_of_isMap (Value.isMap_of_get? hpadding), Value.getD_of_get? hpadding]
  rfl

variable (h : isNeeded spec rows = .ok true)
  (hpadding : spec.get? "padding" = some (s.padding false))
include h hpadding

theorem compose_static : compose spec rows false s =
    .ok (spec.setAll [("legends", .list [static]), ("padding", roomy s)]) := by
  rw [compose, h, ok_bind, if_pos rfl, if_neg Bool.false_ne_true, widened_eq hpadding]
  rfl

-- Only giving the marks their rules can fail.
theorem compose_interactive {data marks : List Value} (hsignals : spec.get? "signals" = none)
    (hdata : spec.get? "data" = some (.list data))
    (hmarks : spec.get? "marks" = some (.list marks)) : compose spec rows true s =
      (Highlight.marks s.neutralColor marks).map fun marks' => spec.setAll [
        ("signals", .list signals), ("data", .list (data ++ [selectionSource])),
        ("legends", .list [interactive]), ("marks", .list marks'), ("padding", roomy s)] := by
  rw [compose, h, ok_bind, if_pos rfl, if_pos rfl, addInteractive,
    itemsUnder_none (Value.isMap_of_get? hpadding) hsignals, ok_bind, itemsUnder_list hdata,
    ok_bind, itemsUnder_list hmarks, ok_bind, widened_eq hpadding]
  cases Highlight.marks s.neutralColor marks <;> rfl

end

/-- A document with a legend, and all else as in the merged document: the legend is one entry, and
the padding is wider on the right.  One that reacts to clicks also has the signals of the legend,
the source of the selection behind its data, and the rules in its marks. -/
inductive Extended (s : Style) (merged : Value) : Bool → Value → Prop where
  | static : Extended s merged false
      (merged.setAll [("legends", .list [static]), ("padding", roomy s)])
  | interactive {data marks marks' : List Value} :
      merged.get? "data" = some (.list data) → merged.get? "marks" = some (.list marks) →
      Highlight.marks s.neutralColor marks = .ok marks' →
      Extended s merged true (merged.setAll [
        ("signals", .list signals), ("data", .list (data ++ [selectionSource])),
        ("legends", .list [interactive]), ("marks", .list marks'), ("padding", roomy s)])

example : signals.map (·.get? "name") =
    [some (.str "clear"), some (.str "shift"), some (.str "clicked")] := rfl

theorem Extended.has_legends {s : Style} {merged spec : Value} {reacts : Bool}
    (h : Extended s merged reacts spec) (hmerged : merged.isMap = true) :
    spec.has "legends" = true := by
  cases h <;>
    simp [Value.has, Value.setAll, Value.get?_set, Value.isMap_set, hmerged]

theorem extended_of_compose {spec spec' : Value} {rows data marks : List Value} {s : Style}
    {reacts : Bool} (h : isNeeded spec rows = .ok true)
    (hpadding : spec.get? "padding" = some (s.padding false))
    (hsignals : spec.get? "signals" = none) (hdata : spec.get? "data" = some (.list data))
    (hmarks : spec.get? "marks" = some (.list marks))
    (hspec : compose spec rows reacts s = .ok spec') : Extended s spec reacts spec' := by
  cases reacts with
  | false =>
    rw [compose_static h hpadding] at hspec
    rw [← Except.ok.inj hspec]
    exact .static
  | true =>
    rw [compose_interactive h hpadding hsignals hdata hmarks] at hspec
    obtain ⟨marks', hmarks', rfl⟩ := map_eq_ok.mp hspec
    exact .interactive hdata hmarks hmarks'

end PlotScene.Legend
