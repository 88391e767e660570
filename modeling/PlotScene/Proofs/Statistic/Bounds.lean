import PlotScene.Proofs.Numeric.Sequence
import PlotScene.Proofs.Statistic.Answer
import PlotScene.Proofs.Statistic.Told

/-!
# Bounds at every point of a curve

Whatever the shape in which a band is given, and however long it is, what is read has two bounds for
each point of its curve, and at no point is the lower one above the upper one.
-/

namespace PlotScene

open Sequence

/-! ## 1. Two bounds from one array -/

namespace Band

/-- Two bounds for each of `n` points: in order, or both NaN. -/
structure Covers (b : Band) (n : Nat) : Prop where
  lower : b.lower.length = n
  upper : b.upper.length = n
  inOrder : List.Forall₂ InOrder b.lower b.upper

theorem length_columns : ∀ cells : List Float,
    (columns cells).1.length = cells.length / 2 ∧ (columns cells).2.length = cells.length / 2
  | [] => by simp [columns]
  | [_] => by simp [columns]
  | a :: b :: rest => by
    obtain ⟨hl, hu⟩ := length_columns rest
    simp only [columns, List.length_cons, hl, hu]
    omega

theorem length_halves {cells : List Float} (h : cells.length % 2 = 0) :
    (halves cells).1.length = cells.length / 2 ∧ (halves cells).2.length = cells.length / 2 := by
  simp only [halves, List.length_take, List.length_drop]
  omega

/-- An array is split exactly when it has an even number of cells, and some; each bound has half of
them. -/
theorem split?_cases {g : Grid} (hlength : g.cells.length = g.shape.prod) :
    (split? g = none ∧ ¬ (g.cells ≠ [] ∧ g.cells.length % 2 = 0)) ∨
      ∃ lower upper, split? g = some (lower, upper) ∧ g.cells ≠ [] ∧ g.cells.length % 2 = 0 ∧
        lower.length = g.cells.length / 2 ∧ upper.length = g.cells.length / 2 := by
  obtain ⟨shape, cells⟩ := g
  dsimp only at hlength
  rw [split?]
  split
  · next hempty => exact .inl ⟨rfl, fun h => h.1 (List.isEmpty_iff.mp hempty)⟩
  next hne =>
    have hcells : cells ≠ [] := fun h => hne (List.isEmpty_iff.mpr h)
    split
    · next n hshape =>
      cases hshape
      have heven : cells.length % 2 = 0 := by simp_all
      exact .inr ⟨_, _, rfl, hcells, heven, length_columns cells⟩
    · next n _ hshape =>
      cases hshape
      have heven : cells.length % 2 = 0 := by simp_all
      exact .inr ⟨_, _, rfl, hcells, heven, length_halves heven⟩
    · split
      · next heven =>
        have hturned := (Grid.columnMajor_perm hlength).length_eq
        have hhalves := @length_halves (Grid.columnMajor shape cells) (by rwa [hturned])
        rw [hturned] at hhalves
        exact .inr ⟨_, _, rfl, hcells, heven, hhalves⟩
      · next hodd => exact .inl ⟨rfl, fun h => hodd h.2⟩

/-! ## 2. Bounds of the length of a curve -/

theorem covers_ordered {lower upper : List Float} {n : Nat} (hl : lower.length = n)
    (hu : upper.length = n) : (ordered lower upper).Covers n := by
  refine ⟨?_, ?_, ?_⟩
  · simp [ordered, hl, hu]
  · simp [ordered, hl, hu]
  · exact forall₂_zipWith inOrder_extremes lower upper

theorem covers_align {x lower upper : List Float} {bases : List Value} {b : Band}
    (hlength : lower.length = upper.length) (h : align x lower upper bases = .ok b) :
    b.Covers x.length := by
  rw [align] at h
  dsimp only at h
  split at h
  · cases h
    exact covers_ordered (by rw [List.length_take]; omega) (by rw [List.length_take]; omega)
  · split at h
    · cases h
    · split at h
      · cases h
        exact covers_ordered List.length_replicate List.length_replicate
      · obtain ⟨base, -, h⟩ := bind_eq_ok.mp h
        cases h
        exact covers_ordered (length_interpolate _ _) (length_interpolate _ _)

theorem covers_self {y : List Float} : (Band.mk y y).Covers y.length := by
  refine ⟨rfl, rfl, ?_⟩
  exact List.forall₂_same.mpr fun a _ => inOrder_self a

end Band

/-! ## 3. The band of a record -/

/-- A numeric value with an even number of cells, and some. -/
def Value.Halves (v : Value) : Prop :=
  ∃ g, Grid.ofValue v = .ok g ∧ g.cells ≠ [] ∧ g.cells.length % 2 = 0

/-- Two numeric values with equally many cells, and some. -/
def Value.Matches (lower upper : Value) : Prop :=
  ∃ l u, Grid.ofValue lower = .ok l ∧ Grid.ofValue upper = .ok u ∧
    l.cells ≠ [] ∧ l.cells.length = u.cells.length

/-- Whether a record gives a band: an array that can be halved in the field of its own, or, where
that is null, two arrays that match. -/
def Value.GivesBand (record : Value) : Prop :=
  if (record.getD "yci").isNull then
    ¬ (record.getD "ci_lower").isNull ∧ ¬ (record.getD "ci_upper").isNull ∧
      (record.getD "ci_lower").Matches (record.getD "ci_upper")
  else (record.getD "yci").Halves

namespace Band

-- The items of a pair that is an array are arrays of one shape.
theorem ofValue_pair {v w : Value} {g : Grid} (h : Grid.ofValue (.list [v, w]) = .ok g) :
    ∃ a b, Grid.ofValue v = .ok a ∧ Grid.ofValue w = .ok b ∧ a.shape = b.shape ∧
      g.cells = a.cells ++ b.cells := by
  rw [Grid.ofValue] at h
  split at h
  next hregular =>
    obtain ⟨hv, hw, hshape, -⟩ := Grid.Outline.of_regular_meet hregular
    obtain ⟨cells, hcells, rfl⟩ := map_eq_ok.mp h
    obtain ⟨first, hfirst, hcells⟩ := bind_eq_ok.mp hcells
    obtain ⟨rest, hrest, hcells⟩ := bind_eq_ok.mp hcells
    obtain ⟨second, hsecond, hrest⟩ := bind_eq_ok.mp hrest
    cases hcells
    cases hrest
    refine ⟨⟨_, first⟩, ⟨_, second⟩, ?_, ?_, hshape, ?_⟩
    · rw [Grid.ofValue, if_pos hv, hfirst]
      rfl
    · rw [Grid.ofValue, if_pos hw, hsecond]
      rfl
    · simp
  next => cases h

theorem matches_of_halves {lower upper : Value} (hl : lower.Sized) (hu : upper.Sized)
    (h : (Value.list [lower, upper]).Halves) : lower.Matches upper := by
  obtain ⟨g, hg, hne, -⟩ := h
  obtain ⟨a, b, ha, hb, hshape, hcells⟩ := ofValue_pair hg
  have hlength : a.cells.length = b.cells.length := by
    rw [Grid.length_of_ofValue hl ha, Grid.length_of_ofValue hu hb, hshape]
  refine ⟨a, b, ha, hb, fun hnil => hne ?_, hlength⟩
  rw [hnil, List.length_nil] at hlength
  rw [hcells, hnil, List.eq_nil_of_length_eq_zero hlength.symm]
  rfl

/-- The bounds of each point next to each other. -/
def paired (lower upper : List Float) : List Float :=
  (lower.zip upper).flatMap fun p => [p.1, p.2]

theorem length_paired {lower upper : List Float} (h : lower.length = upper.length) :
    (paired lower upper).length = lower.length * 2 := by
  simp [paired, List.length_flatMap, h]

theorem halves_paired_iff {lower upper : List Float} (h : lower.length = upper.length) :
    (Value.array [lower.length, 2] (paired lower upper)).Halves ↔ lower ≠ [] := by
  have hcells := length_paired h
  have hempty : lower = [] ↔ paired lower upper = [] := by
    rw [← List.length_eq_zero_iff, ← List.length_eq_zero_iff, hcells]
    omega
  constructor
  · rintro ⟨g, hg, hne, -⟩ hnil
    cases hg
    exact hne (hempty.mp hnil)
  · exact fun hne => ⟨_, rfl, fun hnil => hne (hempty.mpr hnil), by rw [hcells]; omega⟩

theorem joined?_eq_ok {lower upper : Value} {joined : Option Grid}
    (h : joined? lower upper = .ok joined) :
    (joined = none ∧ ¬ lower.Matches upper) ∨
      ∃ l u, Grid.ofValue lower = .ok l ∧ Grid.ofValue upper = .ok u ∧
        l.cells.length = u.cells.length ∧ joined = some
          ⟨[l.cells.length, 2], paired l.cells u.cells⟩ := by
  obtain ⟨l, hl, h⟩ := bind_eq_ok.mp h
  obtain ⟨u, hu, h⟩ := bind_eq_ok.mp h
  -- Values that match are numeric, and have as many cells as each other.
  have hmatches (hm : lower.Matches upper) :
      ∃ a b, l = some a ∧ u = some b ∧ a.cells.length = b.cells.length := by
    obtain ⟨a, b, ha, hb, -, hlength⟩ := hm
    rw [readGrid?_eq_ok_some.mpr ha] at hl
    rw [readGrid?_eq_ok_some.mpr hb] at hu
    exact ⟨a, b, (Except.ok.inj hl).symm, (Except.ok.inj hu).symm, hlength⟩
  match l, u, h with
  | none, _, h =>
    cases h
    exact .inl ⟨rfl, fun hm => by obtain ⟨a, b, ha, -⟩ := hmatches hm; cases ha⟩
  | some l, none, h =>
    cases h
    exact .inl ⟨rfl, fun hm => by obtain ⟨a, b, -, hb, -⟩ := hmatches hm; cases hb⟩
  | some l, some u, h =>
    dsimp only at h
    split at h
    next hlength =>
      cases h
      exact .inr ⟨l, u, readGrid?_eq_ok_some.mp hl, readGrid?_eq_ok_some.mp hu, hlength, rfl⟩
    next hlength =>
      cases h
      refine .inl ⟨rfl, fun hm => hlength ?_⟩
      obtain ⟨a, b, ha, hb, heq⟩ := hmatches hm
      cases ha
      cases hb
      exact heq

/-- What a record gives for a band: nothing, or a value that can be halved exactly when the record
gives a band. -/
theorem given?_eq_ok {record : Value} (hrecord : record.Sized) {given : Option Value}
    (h : given? record = .ok given) :
    (given = none ∧ ¬ record.GivesBand) ∨
      ∃ v, given = some v ∧ v.Sized ∧ (v.Halves ↔ record.GivesBand) := by
  have hl := hrecord.getD "ci_lower"
  have hu := hrecord.getD "ci_upper"
  rw [given?] at h
  dsimp only at h
  split at h
  next hwhole =>
    cases h
    have hnull : ¬ (record.getD "yci").isNull := by simpa using hwhole
    refine .inr ⟨_, rfl, hrecord.getD "yci", ?_⟩
    rw [Value.GivesBand, if_neg hnull]
  next hwhole =>
    have hnull : (record.getD "yci").isNull := by simpa using hwhole
    rw [Value.GivesBand, if_pos hnull]
    split at h
    next hmissing =>
      cases h
      refine .inl ⟨rfl, fun hgives => ?_⟩
      rw [Bool.or_eq_true] at hmissing
      rcases hmissing with hmissing | hmissing
      · exact hgives.1 hmissing
      · exact hgives.2.1 hmissing
    next hmissing =>
      obtain ⟨hlower, hupper⟩ := not_or.mp (fun h => hmissing (Bool.or_eq_true _ _ ▸ h))
      obtain ⟨joined, hjoined, h⟩ := bind_eq_ok.mp h
      rcases joined?_eq_ok hjoined with ⟨rfl, hdiffer⟩ | ⟨l, u, hgl, hgu, hlength, rfl⟩
      · cases h
        refine .inr ⟨_, rfl, .list (by simpa using ⟨hl, hu⟩), ?_⟩
        exact iff_of_false (fun hv => hdiffer (matches_of_halves hl hu hv))
          fun hgives => hdiffer hgives.2.2
      · cases h
        refine .inr ⟨_, rfl, .array ?_, (halves_paired_iff hlength).trans ⟨fun hne => ?_, ?_⟩⟩
        · rw [length_paired hlength]
          simp
        · exact ⟨hlower, hupper, l, u, hgl, hgu, hne, hlength⟩
        · rintro ⟨-, -, l', u', hl', -, hne, -⟩
          rw [hgl] at hl'
          cases hl'
          exact hne

/-- What a record that is read has for a band: two bounds for each point of the curve, exactly when
it gives a band. -/
theorem ofRecord_eq_ok {kind : StatisticKind} {group : Nat} {record observationX : Value}
    {x : List Float} (hrecord : record.Sized) {band : Option Band} {notices : List Notice}
    (h : ofRecord kind group record x observationX = .ok (band, notices)) :
    (band = none ∧ ¬ record.GivesBand) ∨
      ∃ b, band = some b ∧ record.GivesBand ∧ b.Covers x.length := by
  obtain ⟨given, hgiven, h⟩ := bind_eq_ok.mp h
  rcases given?_eq_ok hrecord hgiven with ⟨rfl, hnone⟩ | ⟨v, rfl, hsized, hhalves⟩
  · cases h
    exact .inl ⟨rfl, hnone⟩
  obtain ⟨bounds, hresolve, h⟩ := bind_eq_ok.mp h
  obtain ⟨g, hg, hresolve⟩ := bind_eq_ok.mp hresolve
  cases hresolve
  rw [← hhalves]
  cases g with
  | none =>
    cases h
    refine .inl ⟨rfl, ?_⟩
    rintro ⟨g, hv, -⟩
    rw [readGrid?_eq_ok_some.mpr hv] at hg
    cases hg
  | some g =>
    have hv := readGrid?_eq_ok_some.mp hg
    rcases split?_cases (Grid.length_of_ofValue hsized hv) with
      ⟨hsplit, hodd⟩ | ⟨lower, upper, hsplit, hne, heven, hl, hu⟩
    · rw [Option.bind_some, hsplit] at h
      cases h
      refine .inl ⟨rfl, ?_⟩
      rintro ⟨g', hv', hhalves'⟩
      rw [hv] at hv'
      cases hv'
      exact hodd hhalves'
    · rw [Option.bind_some, hsplit] at h
      obtain ⟨b, halign, h⟩ := bind_eq_ok.mp h
      cases h
      exact .inr ⟨b, rfl, ⟨g, hv, hne, heven⟩, covers_align (hl.trans hu.symm) halign⟩

end Band

/-! ## 4. Curves with their bands -/

/-- A regression curve of at least one point, with a band that covers it if it has one. -/
structure RegressionCurve.Aligned (c : RegressionCurve) : Prop where
  nonempty : c.x ≠ []
  lengths : c.x.length = c.y.length
  band : ∀ b, c.band = some b → b.Covers c.x.length

/-- A summary curve of at least one point, with a band that covers it. -/
structure SummaryCurve.Aligned (c : SummaryCurve) : Prop where
  nonempty : c.x ≠ []
  lengths : c.x.length = c.y.length
  band : c.band.Covers c.x.length

theorem aligned_of_readRegression {kind : StatisticKind} {observationX record : Value} {g : Nat}
    {n : Normalized RegressionCurve} (hrecord : record.Sized)
    (h : readRegression kind observationX g record = .ok n) :
    ∀ c ∈ n.records, c.Aligned ∧ (c.band.isSome = true ↔ record.GivesBand) := by
  obtain ⟨⟨x, y⟩, hcurve, h⟩ := bind_eq_ok.mp h
  obtain ⟨-, hne, hlength⟩ := readCurve_eq_ok.mp hcurve
  obtain ⟨⟨band, notices⟩, hband, h⟩ := bind_eq_ok.mp h
  cases h
  intro c hc
  rw [List.mem_singleton.mp hc]
  rcases Band.ofRecord_eq_ok hrecord (eq_ok_of_ofExcept hband) with
    ⟨rfl, hnone⟩ | ⟨b, rfl, hgives, hcovers⟩
  · refine ⟨⟨hne, hlength, fun b hb => ?_⟩, iff_of_false Bool.false_ne_true hnone⟩
    cases hb
  · refine ⟨⟨hne, hlength, fun b' hb => ?_⟩, iff_of_true rfl hgives⟩
    cases hb
    exact hcovers

theorem aligned_of_readSummary {observationX record : Value} {g : Nat}
    {n : Normalized SummaryCurve} (hrecord : record.Sized)
    (h : readSummary observationX g record = .ok n) :
    ∀ c ∈ n.records, c.Aligned ∧ (¬ record.GivesBand → c.band = ⟨c.y, c.y⟩) := by
  obtain ⟨⟨x, y⟩, hcurve, h⟩ := bind_eq_ok.mp h
  obtain ⟨-, hne, hlength⟩ := readCurve_eq_ok.mp hcurve
  obtain ⟨⟨band, notices⟩, hband, h⟩ := bind_eq_ok.mp h
  cases h
  intro c hc
  rw [List.mem_singleton.mp hc]
  rcases Band.ofRecord_eq_ok hrecord (eq_ok_of_ofExcept hband) with
    ⟨rfl, -⟩ | ⟨b, rfl, hgives, hcovers⟩
  · refine ⟨⟨hne, hlength, ?_⟩, fun _ => rfl⟩
    show (Band.mk y y).Covers x.length
    rw [hlength]
    exact Band.covers_self
  · exact ⟨⟨hne, hlength, hcovers⟩, fun hnone => absurd hgives hnone⟩

theorem sized_of_groupsOf {raw : Value} (hraw : raw.Sized) {i : Nat} {r : Value}
    (hr : (groupsOf raw)[i]? = some r) : r.Sized :=
  of_mem_groupsOf hraw (fun _ he => Value.sized_list.mp (he ▸ hraw)) r
    (List.mem_of_getElem? hr)

theorem aligned_of_readGroups {kind : StatisticKind} {raw observationX : Value}
    (hraw : raw.Sized) {n : Normalized RegressionCurve}
    (h : readGroups kind (readRegression kind observationX) raw = .ok n) :
    ∀ c ∈ n.records, c.Aligned ∧ ∃ i r, c.group = i + 1 ∧ (groupsOf raw)[i]? = some r ∧
      (c.band.isSome = true ↔ r.GivesBand) := by
  intro c hc
  obtain ⟨i, r, part, hr, hgroup, hpart, hmem⟩ :=
    exists_read_of_readGroupsFrom (regroups_readRegression kind observationX) h hc
  obtain ⟨haligned, hgives⟩ :=
    aligned_of_readRegression (sized_of_groupsOf hraw hr) hpart c hmem
  exact ⟨haligned, i, r, hgroup.trans (Nat.add_comm 1 i), hr, hgives⟩

/-- Bands are aligned with their curves and ordered.  A curve of a regression has a band exactly
when the record of its group gives one; a summary without one has its own points for a band. -/
theorem normalize_bands (raw observationX : Value) (hraw : raw.Sized) :
    (∀ n, normalize .glm raw observationX = .ok n → ∀ c ∈ n.records, c.Aligned ∧
      ∃ i r, c.group = i + 1 ∧ (groupsOf raw)[i]? = some r ∧
        (c.band.isSome = true ↔ r.GivesBand)) ∧
    (∀ n, normalize .smooth raw observationX = .ok n → ∀ c ∈ n.records, c.Aligned ∧
      ∃ i r, c.group = i + 1 ∧ (groupsOf raw)[i]? = some r ∧
        (c.band.isSome = true ↔ r.GivesBand)) ∧
    ∀ n, normalize .summary raw observationX = .ok n → ∀ c ∈ n.records, c.Aligned ∧
      ∃ i r, c.group = i + 1 ∧ (groupsOf raw)[i]? = some r ∧
        (¬ r.GivesBand → c.band = ⟨c.y, c.y⟩) := by
  refine ⟨fun n hn => aligned_of_readGroups hraw hn, fun n hn => aligned_of_readGroups hraw hn,
    fun n hn c hc => ?_⟩
  obtain ⟨i, r, part, hr, hgroup, hpart, hmem⟩ := exists_read_of_mem hn hc
  obtain ⟨haligned, hown⟩ := aligned_of_readSummary (sized_of_groupsOf hraw hr) hpart c hmem
  exact ⟨haligned, i, r, hgroup, hr, hown⟩

/-- A record whose bounds cross, and one without a band. -/
def crossedBounds : Value :=
  .list [.obj [("x", .list [.int 0, .int 1]), ("y", .list [.int 2, .int 3]),
      ("ci_lower", .list [.int 1, .int 5]), ("ci_upper", .list [.int 3, .int 2])],
    .obj [("x", .list [.int 0]), ("y", .list [.int 2])]]

theorem normalize_bands_crossedBounds :
    ∃ n, normalize .summary crossedBounds .null = .ok n ∧ ∀ c ∈ n.records, c.Aligned := by
  have hsized : crossedBounds.Sized := by simp [crossedBounds]
  have hreads : (normalize .summary crossedBounds .null).toOption.isSome = true := by
    decide +kernel
  obtain ⟨n, hn⟩ := exists_of_isSome hreads
  exact ⟨n, hn, fun c hc => ((normalize_bands crossedBounds .null hsized).2.2 n hn c hc).1⟩

end PlotScene
