import PlotScene.Proofs.Outcome
import PlotScene.Proofs.Statistic.Regroup

/-!
# What reading a statistic tells

The notices that come with the records of a statistic say that a record, or a part of one, was
skipped, or that the shape of a confidence band was not understood, and nothing else.
-/

namespace PlotScene

/-- The codes of the notices that come with the reading of a statistic. -/
def NoticeCode.isOfReading : NoticeCode → Bool
  | .malformedStatisticRecord | .unresolvedCiShape => true
  | _ => false

/-- Whether all that is told comes with the reading of a statistic. -/
def Normalized.Told {α : Type} (n : Normalized α) : Prop :=
  ∀ m ∈ n.notices, m.code.isOfReading = true

namespace Normalized

variable {α : Type}

theorem told_of_notices {n : Normalized α} (h : n.notices = []) : n.Told := by
  intro m hm
  rw [h] at hm
  cases hm

theorem told_notice (kind : StatisticKind) (g : Nat) (m : Malformed) :
    (notice (m.notice kind g) : Normalized α).Told := by
  intro m' hm
  rw [List.mem_singleton.mp hm]
  rfl

theorem Told.append {m n : Normalized α} (hm : m.Told) (hn : n.Told) : (m.append n).Told :=
  fun k hk => (List.mem_append.mp hk).elim (hm k) (hn k)

theorem told_concat {parts : List (Normalized α)} (h : ∀ n ∈ parts, n.Told) :
    (concat parts).Told := by
  induction parts with
  | nil => exact told_of_notices rfl
  | cons n parts ih =>
    exact (h n List.mem_cons_self).append (ih fun m hm => h m (List.mem_cons_of_mem _ hm))

end Normalized

open Normalized

/-! ## 1. Readers -/

theorem told_of_ofRecord {kind : StatisticKind} {g : Nat} {record observationX : Value}
    {x : List Float} {band : Option Band} {notices : List Notice}
    (h : Band.ofRecord kind g record x observationX = .ok (band, notices)) :
    ∀ m ∈ notices, m.code.isOfReading = true := by
  obtain ⟨given, -, h⟩ := bind_eq_ok.mp h
  cases given with
  | none =>
    cases h
    exact fun m hm => by cases hm
  | some given =>
    obtain ⟨bounds, -, h⟩ := bind_eq_ok.mp h
    cases bounds with
    | none =>
      cases h
      intro m hm
      rw [List.mem_singleton.mp hm]
      rfl
    | some bounds =>
      obtain ⟨aligned, -, h⟩ := bind_eq_ok.mp h
      cases h
      exact fun m hm => by cases hm

theorem eq_ok_of_ofExcept {α : Type} {x : Except Fault α} {a : α}
    (h : Reading.ofExcept x = .ok a) : x = .ok a := by
  cases x with
  | error f => cases h
  | ok b =>
    cases h
    rfl

theorem told_readRegression {kind : StatisticKind} {observationX record : Value} {g : Nat}
    {n : Normalized RegressionCurve} (h : readRegression kind observationX g record = .ok n) :
    n.Told := by
  obtain ⟨curve, -, h⟩ := bind_eq_ok.mp h
  obtain ⟨⟨band, notices⟩, hband, h⟩ := bind_eq_ok.mp h
  cases h
  exact told_of_ofRecord (eq_ok_of_ofExcept hband)

theorem told_readSummary {observationX record : Value} {g : Nat} {n : Normalized SummaryCurve}
    (h : readSummary observationX g record = .ok n) : n.Told := by
  obtain ⟨curve, -, h⟩ := bind_eq_ok.mp h
  obtain ⟨⟨band, notices⟩, hband, h⟩ := bind_eq_ok.mp h
  cases h
  exact told_of_ofRecord (eq_ok_of_ofExcept hband)

theorem told_readBins {record : Value} {g : Nat} {n : Normalized BinGroup}
    (h : readBins g record = .ok n) : n.Told := by
  obtain ⟨-, -, h⟩ := bind_eq_ok.mp h
  obtain ⟨edges, -, h⟩ := bind_eq_ok.mp h
  obtain ⟨counts, -, h⟩ := bind_eq_ok.mp h
  split at h
  next => cases h
  next =>
    dsimp only at h
    split at h
    next =>
      cases h
      exact told_of_notices rfl
    next =>
      obtain ⟨centers, -, h⟩ := bind_eq_ok.mp h
      split at h
      next => cases h
      next =>
        cases h
        exact told_of_notices rfl

theorem told_readBoxesFrom {g category : Nat} {rows : List Grid} {n : Normalized Box}
    (h : readBoxesFrom g category rows = .ok n) : n.Told := by
  induction rows generalizing category n with
  | nil =>
    cases h
    exact told_of_notices rfl
  | cons row rows ih =>
    obtain ⟨here, hhere, h⟩ := bind_eq_ok.mp h
    obtain ⟨rest, hrest, h⟩ := bind_eq_ok.mp h
    cases h
    have htold : here.Told := by
      rw [readBox] at hhere
      split at hhere
      next =>
        cases hhere
        exact told_notice _ _ _
      next =>
        obtain ⟨numbers, -, hhere⟩ := bind_eq_ok.mp hhere
        split at hhere
        next =>
          cases hhere
          exact told_of_notices rfl
        next => cases hhere
    exact htold.append (ih hrest)

theorem told_readBoxes {record : Value} {g : Nat} {n : Normalized Box}
    (h : readBoxes g record = .ok n) : n.Told := by
  obtain ⟨-, -, h⟩ := bind_eq_ok.mp h
  obtain ⟨grid, -, h⟩ := bind_eq_ok.mp h
  split at h
  next => cases h
  next => exact told_readBoxesFrom h
  next => exact told_readBoxesFrom h

theorem told_readViolinCategory (g : Nat) (category : Float) (curve : List Float × List Float) :
    (readViolinCategory g category curve).Told := by
  rw [readViolinCategory]
  split
  · exact told_notice _ _ _
  · exact told_of_notices rfl

theorem told_readViolin {record : Value} {g : Nat} {n : Normalized ViolinPoint}
    (h : readViolin g record = .ok n) : n.Told := by
  obtain ⟨-, -, h⟩ := bind_eq_ok.mp h
  obtain ⟨categories, -, h⟩ := bind_eq_ok.mp h
  obtain ⟨densities, -, h⟩ := bind_eq_ok.mp h
  obtain ⟨positions, -, h⟩ := bind_eq_ok.mp h
  split at h
  next => cases h
  next =>
    obtain ⟨curves, -, h⟩ := bind_eq_ok.mp h
    cases h
    apply told_concat
    intro n hn
    rw [← List.map_uncurry_zip_eq_zipWith] at hn
    obtain ⟨⟨category, curve⟩, -, rfl⟩ := List.mem_map.mp hn
    exact told_readViolinCategory g category curve

theorem told_of_read {kind : StatisticKind} {observationX record : Value} {g : Nat}
    {n : Normalized kind.Record} (h : kind.read observationX g record = .ok n) : n.Told := by
  cases kind with
  | glm => exact told_readRegression h
  | smooth => exact told_readRegression h
  | bin => exact told_readBins h
  | summary => exact told_readSummary h
  | boxplot => exact told_readBoxes h
  | violin => exact told_readViolin h
  | density =>
    obtain ⟨curve, -, h⟩ := bind_eq_ok.mp h
    cases h
    exact told_of_notices rfl
  | qq =>
    obtain ⟨curve, -, h⟩ := bind_eq_ok.mp h
    cases h
    exact told_of_notices rfl
  | bin2d =>
    obtain ⟨-, -, h⟩ := bind_eq_ok.mp h
    obtain ⟨edges, -, h⟩ := bind_eq_ok.mp h
    obtain ⟨counts, -, h⟩ := bind_eq_ok.mp h
    cases h
    exact told_of_notices rfl

/-! ## 2. All records -/

theorem told_of_readGroup {kind : StatisticKind} {observationX v : Value} {g : Nat}
    {n : Normalized kind.Record} (h : readGroup kind (kind.read observationX) g v = .ok n) :
    n.Told := by
  rw [readGroup] at h
  split at h
  next hread =>
    cases h
    exact told_of_read hread
  next =>
    cases h
    exact told_notice _ _ _
  next => cases h

theorem told_of_readGroupsFrom {kind : StatisticKind} {observationX : Value} {g : Nat}
    {vs : List Value} {n : Normalized kind.Record}
    (h : readGroupsFrom kind (kind.read observationX) g vs = .ok n) : n.Told := by
  induction vs generalizing g n with
  | nil =>
    cases h
    exact told_of_notices rfl
  | cons v vs ih =>
    obtain ⟨here, hhere, h⟩ := bind_eq_ok.mp h
    obtain ⟨rest, hrest, h⟩ := bind_eq_ok.mp h
    cases h
    exact (told_of_readGroup hhere).append (ih hrest)

theorem told_of_normalize {kind : StatisticKind} {raw observationX : Value}
    {n : Normalized kind.Record} (h : normalize kind raw observationX = .ok n) : n.Told := by
  rw [normalize_eq_readGroups] at h
  exact told_of_readGroupsFrom h

/-! ## 3. Results without content -/

-- A reader asks for fields first, so it can do nothing with what is no mapping or has no entry.
theorem read_malformed {v : Value} (hv : v.isMap = false ∨ v = .map []) (kind : StatisticKind)
    (observationX : Value) (g : Nat) :
    ∃ m, kind.read observationX g v = .error (.malformed m) := by
  rcases hv with hv | rfl
  · cases v with
    | map es => cases hv
    | _ => cases kind <;> exact ⟨_, rfl⟩
  · cases kind <;> exact ⟨_, rfl⟩

theorem normalize_of_malformed (kind : StatisticKind) (observationX : Value) {v : Value}
    (hv : v.isMap = false ∨ v = .map []) (hgroups : groupsOf v = [v]) :
    ∃ n, normalize kind v observationX = .ok n ∧ n.records = [] := by
  obtain ⟨m, hm⟩ := read_malformed hv kind observationX 1
  rw [normalize_eq_readGroups, readGroups, hgroups]
  refine ⟨(Normalized.notice (m.notice kind 1)).append Normalized.empty, ?_, rfl⟩
  rw [readGroupsFrom, readGroup, hm]
  rfl

end PlotScene
