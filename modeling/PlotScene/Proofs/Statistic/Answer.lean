import PlotScene.Proofs.Statistic.Group
import PlotScene.Proofs.Statistic.Recovery

/-!
# When a result is read

Reading a result of numbers within the range of doubles stops at one thing only: an array of boxes
that has no axis, or whose rows are long and nested.  Whatever else is wrong with a record, the
record is skipped and the others are read on.
-/

namespace PlotScene

open Reading

variable {kind : StatisticKind} {observationX : Value}

theorem read_recovers_iff {record : Value} (hrange : record.InRange)
    (hrect : record.Rectangular) (hobs : observationX.InRange) (group : Nat) :
    (kind.read observationX group record).Recovers ↔ (kind = .boxplot → record.HasBoxes) := by
  have hother : kind ≠ .boxplot → (kind.read observationX group record).Recovers →
      ((kind.read observationX group record).Recovers ↔ (kind = .boxplot → record.HasBoxes)) :=
    fun hne h => ⟨fun _ hk => absurd hk hne, fun _ => h⟩
  cases kind with
  | boxplot =>
    have hboxes := readBoxes_recovers_iff hrange hrect group
    exact ⟨fun h _ => hboxes.mp h, fun h => hboxes.mpr (h rfl)⟩
  | glm => exact hother (by decide) (recovers_readRegression hrange hrect hobs .glm group)
  | smooth => exact hother (by decide) (recovers_readRegression hrange hrect hobs .smooth group)
  | bin => exact hother (by decide) (recovers_readBins hrange group)
  | summary => exact hother (by decide) (recovers_readSummary hrange hrect hobs group)
  | density => exact hother (by decide) (recovers_readDensity hrange group)
  | violin => exact hother (by decide) (recovers_readViolin hrange group)
  | qq => exact hother (by decide) (recovers_readQuantiles hrange group)
  | bin2d => exact hother (by decide) (recovers_readCells hrange group)

theorem readGroup_answers_iff {α : Type} {read : Nat → Value → Reading (Normalized α)}
    {group : Nat} {r : Value} :
    (∃ n, readGroup kind read group r = .ok n) ↔ (read group r).Recovers := by
  rw [readGroup]
  cases hread : read group r with
  | ok n => exact ⟨fun _ => recovers_ok n, fun _ => ⟨n, rfl⟩⟩
  | error t =>
    cases t with
    | malformed m => exact ⟨fun _ => recovers_malformed m, fun _ => ⟨_, rfl⟩⟩
    | fault f =>
      constructor
      · rintro ⟨n, hn⟩
        cases hn
      · exact fun h => absurd rfl (h f)

theorem normalize_groupsOf (raw : Value) :
    normalize kind raw observationX = normalize kind (.list (groupsOf raw)) observationX := by
  rw [normalize_eq_readGroups, normalize_eq_readGroups]
  rfl

theorem normalize_list_answers_iff {rs : List Value} :
    (∃ n, normalize kind (.list rs) observationX = .ok n) ↔
      ∀ r ∈ rs, ∃ n, normalize kind (.list [r]) observationX = .ok n := by
  constructor
  · rintro ⟨n, hn⟩ r hr
    obtain ⟨parts, hparts, -⟩ := normalize_list_eq_ok.mp hn
    obtain ⟨part, -, hpart⟩ := forall₂_mem_right hparts.flip hr
    exact ⟨part, hpart⟩
  · intro h
    obtain ⟨parts, hparts⟩ := forall₂_of_forall h
    exact ⟨_, normalize_list_eq_ok.mpr ⟨parts, hparts, rfl⟩⟩

theorem of_mem_groupsOf {P : Value → Prop} {raw : Value} (h : P raw)
    (hlist : ∀ vs, raw = .list vs → ∀ v ∈ vs, P v) : ∀ r ∈ groupsOf raw, P r := by
  intro r hr
  match raw with
  | .null => cases hr
  | .list vs => exact hlist vs rfl r hr
  | .bool _ | .int _ | .float _ | .str _ | .map _ | .array _ _ | .column _ =>
    rw [List.mem_singleton.mp hr]
    exact h

theorem readGroup_of_normalize {raw : Value} {n : Normalized kind.Record}
    (h : normalize kind raw observationX = .ok n) {i : Nat} {r : Value}
    (hr : (groupsOf raw)[i]? = some r) :
    readGroup kind (kind.read observationX) (i + 1) r = .ok (n.ofGroup (i + 1)) := by
  rw [normalize_groupsOf] at h
  rcases ofGroup_of_normalize_list h i with ⟨hnone, -⟩ | ⟨r', part, hr', hpart, hgroup⟩
  · rw [hr] at hnone
    cases hnone
  · rw [hr] at hr'
    cases hr'
    rw [normalize_singleton] at hpart
    rw [readGroup_regroup (kind.regroups_read observationX), hpart, hgroup]
    rfl

theorem exists_read_of_readGroupsFrom {α : Type} [Grouped α]
    {read : Nat → Value → Reading (Normalized α)} (hread : Regroups kind read) {first : Nat}
    {rs : List Value} {out : Normalized α} (h : readGroupsFrom kind read first rs = .ok out) {c : α}
    (hc : c ∈ out.records) : ∃ i r part, rs[i]? = some r ∧ Grouped.group c = first + i ∧
      read (first + i) r = .ok part ∧ c ∈ part.records := by
  induction rs generalizing first out with
  | nil =>
    cases h
    cases hc
  | cons v vs ih =>
    obtain ⟨here, hhere, h⟩ := bind_eq_ok.mp h
    obtain ⟨rest, hrest, h⟩ := bind_eq_ok.mp h
    cases h
    rcases List.mem_append.mp hc with hc | hc
    · refine ⟨0, v, here, rfl, ?_⟩
      rw [readGroup] at hhere
      split at hhere
      next part hpart =>
        cases hhere
        refine ⟨?_, hpart, hc⟩
        rw [hread first v] at hpart
        obtain ⟨part', -, rfl⟩ := map_eq_ok.mp hpart
        exact (Normalized.isAbout_regroup kind first part').records c hc
      next =>
        cases hhere
        cases hc
      next => cases hhere
    · obtain ⟨i, r, part, hr, hgroup, hpart, hmem⟩ := ih hrest hc
      have hplace : first + 1 + i = first + (i + 1) := by omega
      rw [hplace] at hgroup hpart
      exact ⟨i + 1, r, part, hr, hgroup, hpart, hmem⟩

-- A record that has been read comes from what its group gives.
theorem exists_read_of_mem {raw : Value} {n : Normalized kind.Record}
    (h : normalize kind raw observationX = .ok n) {c : kind.Record} (hc : c ∈ n.records) :
    ∃ i r part, (groupsOf raw)[i]? = some r ∧ Grouped.group c = i + 1 ∧
      kind.read observationX (i + 1) r = .ok part ∧ c ∈ part.records := by
  rw [normalize_eq_readGroups] at h
  obtain ⟨i, r, part, hr, hgroup, hpart, hmem⟩ :=
    exists_read_of_readGroupsFrom (kind.regroups_read observationX) h hc
  rw [Nat.add_comm] at hgroup hpart
  exact ⟨i, r, part, hr, hgroup, hpart, hmem⟩

/-- A result whose integers are within the range of doubles is read, but for boxes in an array of no
axis or of long nested rows.  Each group of what is read is what the reader makes of the record in
its place, or, where the record is malformed, the notice that it was skipped. -/
theorem normalize_answers (kind : StatisticKind) (raw observationX : Value)
    (hrange : raw.InRange) (hrect : raw.Rectangular) (hobs : observationX.InRange) :
    ((∃ n, normalize kind raw observationX = .ok n) ↔
      (kind = .boxplot → ∀ r ∈ groupsOf raw, r.HasBoxes)) ∧
    ∀ n, normalize kind raw observationX = .ok n → ∀ i r, (groupsOf raw)[i]? = some r →
      (∃ m, kind.read observationX (i + 1) r = .error (.malformed m) ∧
        n.ofGroup (i + 1) = Normalized.notice (m.notice kind (i + 1))) ∨
      kind.read observationX (i + 1) r = .ok (n.ofGroup (i + 1)) := by
  constructor
  · have hone : ∀ r ∈ groupsOf raw, (∃ n, normalize kind (.list [r]) observationX = .ok n) ↔
        (kind = .boxplot → r.HasBoxes) := by
      intro r hr
      rw [normalize_singleton, readGroup_answers_iff]
      have hrange' : r.InRange :=
        of_mem_groupsOf hrange (fun vs he => Value.inRange_list.mp (he ▸ hrange)) r hr
      have hrect' : r.Rectangular :=
        of_mem_groupsOf hrect (fun vs he => Value.rectangular_list.mp (he ▸ hrect)) r hr
      exact read_recovers_iff hrange' hrect' hobs 1
    rw [normalize_groupsOf, normalize_list_answers_iff]
    exact ⟨fun h hk r hr => (hone r hr).mp (h r hr) hk,
      fun h r hr => (hone r hr).mpr fun hk => h hk r hr⟩
  · intro n hn i r hr
    have hgroup := readGroup_of_normalize hn hr
    rw [readGroup] at hgroup
    split at hgroup
    next part hread =>
      cases hgroup
      exact Or.inr hread
    next m hread => exact Or.inl ⟨m, hread, (Except.ok.inj hgroup).symm⟩
    next => cases hgroup

/-- A record of one box, a record of a box that is too short, and no record at all. -/
def boxRecords : Value :=
  .list [.obj [("boxplot_data", .list [.int 1, .int 2, .int 3, .int 4, .int 5])],
    .obj [("boxplot_data", .list [.int 1])], .str "box"]

theorem normalize_answers_boxRecords :
    ∃ n, normalize .boxplot boxRecords .null = .ok n ∧
      n.ofGroup 3 = Normalized.notice ((Malformed.notAMapping "str").notice .boxplot 3) := by
  have hsmall : ∀ n ∈ [(1 : Int), 2, 3, 4, 5], (Scalar.int n).inRange = true := by decide +kernel
  have hrange : boxRecords.InRange := by
    simp only [List.forall_mem_cons] at hsmall
    simp [boxRecords, hsmall]
  have hrect : boxRecords.Rectangular := by simp [boxRecords]
  obtain ⟨hiff, hgroups⟩ := normalize_answers .boxplot boxRecords .null hrange hrect (.scalar rfl)
  have hflat : ∀ {r : Value} {n : Nat},
      (Grid.outline (r.getD "boxplot_data")).shape = [n] → r.HasBoxes := by
    intro r n hshape _ g hg
    rw [Grid.HasBoxes, Grid.shape_of_ofValue hg, hshape]
    exact ⟨List.cons_ne_nil _ _, Or.inl (by simp)⟩
  have hboxes : ∀ r ∈ groupsOf boxRecords, r.HasBoxes := by
    intro r hr
    simp only [boxRecords, groupsOf, List.mem_cons, List.not_mem_nil, or_false] at hr
    rcases hr with rfl | rfl | rfl
    · exact hflat (n := 5) rfl
    · exact hflat (n := 1) rfl
    · exact fun h => by cases h
  obtain ⟨n, hn⟩ := hiff.mpr fun _ => hboxes
  refine ⟨n, hn, ?_⟩
  rcases hgroups n hn 2 (.str "box") rfl with ⟨m, hm, hgroup⟩ | hread
  · cases hm
    exact hgroup
  · cases hread

/-- A number in the place of boxes, before a record that could be read. -/
def flatBoxes : Value :=
  .list [.obj [("boxplot_data", .int 5)],
    .obj [("boxplot_data", .list [.int 1, .int 2, .int 3, .int 4, .int 5])]]

theorem normalize_flatBoxes : ¬ ∃ n, normalize .boxplot flatBoxes .null = .ok n := by
  have hfails : (normalize .boxplot flatBoxes .null).toOption.isSome = false := by decide +kernel
  rintro ⟨n, hn⟩
  rw [hn] at hfails
  cases hfails

end PlotScene
