import PlotScene.Proofs.Pairwise
import PlotScene.Proofs.Statistic.Contribution
import PlotScene.Proofs.Statistic.Regroup

/-!
# The groups of a statistic

The records of a statistic are read one by one.  What a group gives is what its record gives on its
own, under the number of its place: no other record has a part in it.
-/

namespace PlotScene

variable {kind : StatisticKind} {observationX : Value}

/-! ## 1. One record -/

theorem readGroup_regroup {α : Type} [Grouped α] {kind : StatisticKind}
    {read : Nat → Value → Reading (Normalized α)} (hread : Regroups kind read) (g : Nat)
    (r : Value) :
    readGroup kind read g r = (readGroup kind read 1 r).map (Normalized.regroup kind g) := by
  rw [readGroup, readGroup, hread g r]
  cases read 1 r with
  | ok n => rfl
  | error t =>
    cases t with
    | fault f => rfl
    | malformed m =>
      show Except.ok _ = Except.ok _
      rw [Normalized.regroup_notice, Malformed.regroup_notice]

theorem normalize_singleton (r : Value) :
    normalize kind (.list [r]) observationX = readGroup kind (kind.read observationX) 1 r := by
  rw [normalize_eq_readGroups]
  show (readGroup kind (kind.read observationX) 1 r >>= fun here =>
    .ok (here.append Normalized.empty)) = _
  cases readGroup kind (kind.read observationX) 1 r with
  | error f => rfl
  | ok n =>
    show Except.ok (n.append Normalized.empty) = .ok n
    rw [Normalized.append, Normalized.empty, List.append_nil, List.append_nil]

/-- Whether all that has been read is about group `g`: the records by their number, the notices by
their number and the opening of their message. -/
structure Normalized.IsAbout {α : Type} [Grouped α] (kind : StatisticKind) (g : Nat)
    (n : Normalized α) : Prop where
  records : ∀ r ∈ n.records, Grouped.group r = g
  notices : ∀ m ∈ n.notices, m.IsAbout kind g

theorem Normalized.isAbout_regroup {α : Type} [Grouped α] (kind : StatisticKind) (g : Nat)
    (n : Normalized α) : (n.regroup kind g).IsAbout kind g := by
  refine ⟨fun r hr => ?_, fun m hm => ?_⟩
  · obtain ⟨r', -, rfl⟩ := List.mem_map.mp hr
    exact group_regroup g r'
  · obtain ⟨m', -, rfl⟩ := List.mem_map.mp hm
    exact Notice.isAbout_regroup kind g m'

theorem isAbout_of_normalize_singleton {r : Value} {n : Normalized kind.Record}
    (h : normalize kind (.list [r]) observationX = .ok n) : n.IsAbout kind 1 := by
  rw [normalize_singleton, readGroup_regroup (kind.regroups_read observationX)] at h
  obtain ⟨n', -, rfl⟩ := map_eq_ok.mp h
  exact Normalized.isAbout_regroup kind 1 n'

/-- A record that may be read without a trace: a matrix of counts without a count to draw, or boxes
without a row. -/
def LeavesNothing (kind : StatisticKind) (r : Value) : Prop :=
  kind = .bin2d ∧ r.CountsNothing ∨ kind = .boxplot ∧ r.HoldsNoRow

theorem read_contributes {r : Value} {n : Normalized kind.Record} (hr : r.Sized)
    (hleaves : ¬ LeavesNothing kind r) (h : kind.read observationX 1 r = .ok n) :
    n.Contributes := by
  cases kind with
  | glm => exact readRegression_contributes h
  | smooth => exact readRegression_contributes h
  | bin => exact readBins_contributes h
  | summary => exact readSummary_contributes h
  | boxplot => exact readBoxes_contributes (fun hc => hleaves (Or.inr ⟨rfl, hc⟩)) h
  | density => exact readDensity_contributes h
  | violin => exact readViolin_contributes h
  | qq => exact readQuantiles_contributes h
  | bin2d => exact readCells_contributes hr (fun hc => hleaves (Or.inl ⟨rfl, hc⟩)) h

theorem contributes_of_normalize_singleton {r : Value} {n : Normalized kind.Record}
    (hr : r.Sized) (hleaves : ¬ LeavesNothing kind r)
    (h : normalize kind (.list [r]) observationX = .ok n) : n.Contributes := by
  rw [normalize_singleton, readGroup] at h
  split at h
  next hread =>
    cases h
    exact read_contributes hr hleaves hread
  next =>
    cases h
    exact Normalized.contributes_notice _
  next => cases h

/-! ## 2. One group of what has been read -/

namespace Normalized

variable {α : Type} [Grouped α]

/-- What has been read from group `g`. -/
def ofGroup (g : Nat) (n : Normalized α) : Normalized α :=
  ⟨n.records.filter fun r => Grouped.group r == g, n.notices.filter fun m => m.group == some g⟩

theorem ofGroup_append (g : Nat) (m n : Normalized α) :
    (m.append n).ofGroup g = (m.ofGroup g).append (n.ofGroup g) := by
  simp [ofGroup, append]

theorem IsAbout.ofGroup_self {g : Nat} {n : Normalized α} (h : n.IsAbout kind g) :
    n.ofGroup g = n := by
  have hrecords : n.records.filter (fun r => Grouped.group r == g) = n.records :=
    List.filter_eq_self.mpr fun r hr => by simpa using h.records r hr
  have hnotices : n.notices.filter (fun m => m.group == some g) = n.notices :=
    List.filter_eq_self.mpr fun m hm => by simpa using (h.notices m hm).group
  rw [ofGroup, hrecords, hnotices]

theorem IsAbout.ofGroup_of_ne {g i : Nat} {n : Normalized α} (h : n.IsAbout kind g)
    (hne : g ≠ i) : n.ofGroup i = empty := by
  have hrecords : n.records.filter (fun r => Grouped.group r == i) = [] :=
    List.filter_eq_nil_iff.mpr fun r hr => by simpa [h.records r hr] using hne
  have hnotices : n.notices.filter (fun m => m.group == some i) = [] :=
    List.filter_eq_nil_iff.mpr fun m hm => by simpa [(h.notices m hm).group] using hne
  rw [ofGroup, hrecords, hnotices]
  rfl

/-- What groups have given on their own, put together under consecutive numbers from `first`. -/
def grouped (kind : StatisticKind) (first : Nat) (parts : List (Normalized α)) : Normalized α :=
  concat (parts.mapIdx fun i n => n.regroup kind (first + i))

theorem grouped_cons (first : Nat) (n : Normalized α) (parts : List (Normalized α)) :
    grouped kind first (n :: parts) =
      (n.regroup kind first).append (grouped kind (first + 1) parts) := by
  rw [grouped, List.mapIdx_cons]
  show (n.regroup kind (first + 0)).append (concat _) = _
  simp only [grouped, Nat.add_zero, Nat.add_assoc, Nat.add_comm 1]

theorem ofGroup_grouped_of_lt {i first : Nat} (h : i < first) (parts : List (Normalized α)) :
    (grouped kind first parts).ofGroup i = empty := by
  induction parts generalizing first with
  | nil => rfl
  | cons n parts ih =>
    have hne : first ≠ i := by omega
    rw [grouped_cons, ofGroup_append, (isAbout_regroup kind first n).ofGroup_of_ne hne,
      ih (Nat.lt_succ_of_lt h)]
    rfl

-- A group has what the part in its place has given, and nothing beyond the last place.
theorem ofGroup_grouped (kind : StatisticKind) (first i : Nat) (parts : List (Normalized α)) :
    (grouped kind first parts).ofGroup (first + i) =
      match parts[i]? with
      | some n => n.regroup kind (first + i)
      | none => empty := by
  induction parts generalizing first i with
  | nil => rfl
  | cons n parts ih =>
    rw [grouped_cons, ofGroup_append]
    cases i with
    | zero =>
      rw [Nat.add_zero, (isAbout_regroup kind first n).ofGroup_self,
        ofGroup_grouped_of_lt (Nat.lt_succ_self first)]
      simp [append, empty]
    | succ i =>
      have hne : first ≠ first + (i + 1) := by omega
      have hplace : first + (i + 1) = first + 1 + i := by omega
      rw [(isAbout_regroup kind first n).ofGroup_of_ne hne, hplace, ih (first + 1) i]
      simp [append, empty]

end Normalized

/-! ## 3. All records -/

/-- Reading consecutive groups answers exactly when each record is read on its own, and puts
together what the records give. -/
theorem readGroupsFrom_eq_ok {α : Type} [Grouped α] {kind : StatisticKind}
    {read : Nat → Value → Reading (Normalized α)} (hread : Regroups kind read) {first : Nat}
    {rs : List Value} {out : Normalized α} :
    readGroupsFrom kind read first rs = .ok out ↔
      ∃ parts, List.Forall₂ (fun r n => readGroup kind read 1 r = .ok n) rs parts ∧
        out = Normalized.grouped kind first parts := by
  induction rs generalizing first out with
  | nil =>
    constructor
    · intro h
      cases h
      exact ⟨[], .nil, rfl⟩
    · rintro ⟨parts, hparts, rfl⟩
      cases hparts
      rfl
  | cons r rs ih =>
    rw [readGroupsFrom, bind_eq_ok]
    constructor
    · rintro ⟨here, hhere, h⟩
      obtain ⟨rest, hrest, h⟩ := bind_eq_ok.mp h
      rw [readGroup_regroup hread] at hhere
      obtain ⟨n, hn, rfl⟩ := map_eq_ok.mp hhere
      obtain ⟨parts, hparts, rfl⟩ := ih.mp hrest
      exact ⟨n :: parts, .cons hn hparts, by rw [Normalized.grouped_cons, pure_eq_ok.mp h]⟩
    · rintro ⟨parts, hparts, rfl⟩
      cases hparts with
      | @cons _ n _ parts hn hparts =>
        refine ⟨n.regroup kind first, ?_, ?_⟩
        · rw [readGroup_regroup hread, hn]
          rfl
        · rw [ih.mpr ⟨parts, hparts, rfl⟩, Normalized.grouped_cons]
          rfl

theorem normalize_list_eq_ok {rs : List Value} {out : Normalized kind.Record} :
    normalize kind (.list rs) observationX = .ok out ↔
      ∃ parts, List.Forall₂ (fun r n => normalize kind (.list [r]) observationX = .ok n) rs parts ∧
        out = Normalized.grouped kind 1 parts := by
  rw [normalize_eq_readGroups]
  simp only [normalize_singleton]
  exact readGroupsFrom_eq_ok (kind.regroups_read observationX)

-- The group in a place is that of the record in this place; where there is none, it is empty.
theorem ofGroup_of_normalize_list {rs : List Value} {out : Normalized kind.Record}
    (h : normalize kind (.list rs) observationX = .ok out) (i : Nat) :
    (rs[i]? = none ∧ out.ofGroup (i + 1) = Normalized.empty) ∨
      ∃ r n, rs[i]? = some r ∧ normalize kind (.list [r]) observationX = .ok n ∧
        out.ofGroup (i + 1) = n.regroup kind (i + 1) := by
  obtain ⟨parts, hparts, rfl⟩ := normalize_list_eq_ok.mp h
  have hgroup := Normalized.ofGroup_grouped kind 1 i parts
  rw [Nat.add_comm 1 i] at hgroup
  rcases forall₂_getElem? hparts i with ⟨hr, hn⟩ | ⟨r, n, hr, hn, hone⟩
  · rw [hn] at hgroup
    exact Or.inl ⟨hr, hgroup⟩
  · rw [hn] at hgroup
    exact Or.inr ⟨r, n, hr, hone, hgroup⟩

theorem ofGroup_congr {rs rs' : List Value} {out out' : Normalized kind.Record}
    (h : normalize kind (.list rs) observationX = .ok out)
    (h' : normalize kind (.list rs') observationX = .ok out') {i : Nat} (hi : rs'[i]? = rs[i]?) :
    out'.ofGroup (i + 1) = out.ofGroup (i + 1) := by
  rcases ofGroup_of_normalize_list h i with ⟨hr, hg⟩ | ⟨r, n, hr, hn, hg⟩
  · rcases ofGroup_of_normalize_list h' i with ⟨-, hg'⟩ | ⟨r', n', hr', -, -⟩
    · rw [hg, hg']
    · rw [hi, hr] at hr'
      cases hr'
  · rcases ofGroup_of_normalize_list h' i with ⟨hr', -⟩ | ⟨r', n', hr', hn', hg'⟩
    · rw [hi, hr] at hr'
      cases hr'
    · rw [hi, hr] at hr'
      cases hr'
      rw [hn] at hn'
      cases hn'
      rw [hg, hg']

theorem Normalized.Contributes.regroup {α : Type} [Grouped α] {n : Normalized α}
    (h : n.Contributes) (kind : StatisticKind) (g : Nat) : (n.regroup kind g).Contributes := by
  rcases h with h | h
  · exact Or.inl fun he => h (List.map_eq_nil_iff.mp he)
  · exact Or.inr fun he => h (List.map_eq_nil_iff.mp he)

/-- Records that can each be read on their own are read together, and what they give is put one
after the other, renumbered from the first group to the group of its place.  What a group gives
depends on nothing but the record in its place, and it is something, but for a matrix of counts
without a count to draw and for boxes without a row.  A mapping is read as the list of itself. -/
theorem normalize_list (kind : StatisticKind) (observationX : Value) (rs : List Value)
    (h : ∀ r ∈ rs, ∃ n, normalize kind (.list [r]) observationX = .ok n) :
    ∃ parts out,
      List.Forall₂ (fun r n => normalize kind (.list [r]) observationX = .ok n) rs parts ∧
      (∀ n ∈ parts, n.IsAbout kind 1) ∧
      normalize kind (.list rs) observationX = .ok out ∧
      out = Normalized.grouped kind 1 parts ∧
      (∀ rs' out', normalize kind (.list rs') observationX = .ok out' → ∀ i, rs'[i]? = rs[i]? →
        out'.ofGroup (i + 1) = out.ofGroup (i + 1)) ∧
      (∀ i r, rs[i]? = some r → r.Sized → ¬ LeavesNothing kind r →
        (out.ofGroup (i + 1)).Contributes) ∧
      ∀ es : Entries, normalize kind (.map es) observationX =
        normalize kind (.list [.map es]) observationX := by
  obtain ⟨parts, hparts⟩ := forall₂_of_forall h
  have hout := normalize_list_eq_ok.mpr ⟨parts, hparts, rfl⟩
  refine ⟨parts, _, hparts, ?_, hout, rfl, ?_, ?_, ?_⟩
  · intro n hn
    obtain ⟨r, -, hr⟩ := forall₂_mem_right hparts hn
    exact isAbout_of_normalize_singleton hr
  · intro rs' out' hout' i hi
    exact ofGroup_congr hout hout' hi
  · intro i r hr hsized hleaves
    rcases ofGroup_of_normalize_list hout i with ⟨hnone, -⟩ | ⟨r', n, hr', hn, hg⟩
    · rw [hr] at hnone
      cases hnone
    · rw [hr] at hr'
      cases hr'
      rw [hg]
      exact (contributes_of_normalize_singleton hsized hleaves hn).regroup kind (i + 1)
  · intro es
    rw [normalize_eq_readGroups, normalize_eq_readGroups]
    rfl

/-- A curve, nothing, and a curve that lacks its second coordinates. -/
def mixedCurves : List Value :=
  [.obj [("x", .list [.int 1, .int 2]), ("y", .list [.int 3, .int 4])], .null,
    .obj [("x", .list [.int 1]), ("y", .list [])]]

theorem normalize_list_mixedCurves :
    ∃ out, normalize .density (.list mixedCurves) .null = .ok out ∧
      ∀ i < 3, (out.ofGroup (i + 1)).Contributes := by
  have halone : ∀ r ∈ mixedCurves, ∃ n, normalize .density (.list [r]) .null = .ok n := by
    have hall : mixedCurves.all (fun r =>
        (normalize .density (.list [r]) .null).toOption.isSome) = true := by decide +kernel
    intro r hr
    exact exists_of_isSome (List.all_eq_true.mp hall r hr)
  have hsized : ∀ r ∈ mixedCurves, r.Sized := by simp [mixedCurves]
  obtain ⟨parts, out, -, -, hout, -, -, hcontributes, -⟩ :=
    normalize_list .density .null mixedCurves halone
  refine ⟨out, hout, fun i hi => ?_⟩
  have hi' : i < mixedCurves.length := hi
  refine hcontributes i _ (List.getElem?_eq_getElem hi') (hsized _ (List.getElem_mem hi')) ?_
  rintro (⟨hkind, -⟩ | ⟨hkind, -⟩) <;> cases hkind

/-- Boxes in an array with five columns and no row. -/
def emptyBoxes : Value := .obj [("boxplot_data", .array [0, 5] [])]

/-- A single count that is no number. -/
def uncountedCell : Value :=
  .obj [("counts", .list [.list [.float Double.nan]]),
    ("edges", .obj [("x", .list [.int 0, .int 1]), ("y", .list [.int 0, .int 1])])]

/-- Neither record leaves a trace: there is no row to make a box of, and a count that is no number
is passed over. -/
theorem normalize_emptyBoxes_uncountedCell :
    normalize .boxplot (.list [emptyBoxes]) .null = .ok Normalized.empty ∧
      normalize .bin2d (.list [uncountedCell]) .null = .ok Normalized.empty :=
  ⟨by rfl, by rfl⟩

end PlotScene
