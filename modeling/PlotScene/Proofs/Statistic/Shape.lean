import PlotScene.Proofs.Statistic.Bounds
import PlotScene.Proofs.Statistic.Samples

/-!
# The shape of records

The parts of a record that has been read are as long as each other, as far as they go point by
point or bin by bin.  Curves and bins have all numbers of the result that they are read from.
-/

namespace PlotScene

/-! ## 1. Shapes and numbers -/

/-- As many y as x, and as many bounds where there is a band. -/
structure RegressionCurve.Shaped (c : RegressionCurve) : Prop where
  y : c.y.length = c.x.length
  lower : ∀ b, c.band = some b → b.lower.length = c.x.length
  upper : ∀ b, c.band = some b → b.upper.length = c.x.length

/-- One edge more than there are counts, and as many centers. -/
structure BinGroup.Shaped (b : BinGroup) : Prop where
  edges : b.edges.length = b.counts.length + 1
  centers : b.centers.length = b.counts.length

structure SummaryCurve.Shaped (c : SummaryCurve) : Prop where
  y : c.y.length = c.x.length
  lower : c.band.lower.length = c.x.length
  upper : c.band.upper.length = c.x.length

def DensityCurve.Shaped (c : DensityCurve) : Prop := c.y.length = c.x.length

namespace StatisticKind

/-- The lengths that the parts of a record have; a box, a point and a cell have no parts. -/
def Shaped : (kind : StatisticKind) → kind.Record → Prop
  | .glm => RegressionCurve.Shaped
  | .smooth => RegressionCurve.Shaped
  | .bin => BinGroup.Shaped
  | .summary => SummaryCurve.Shaped
  | .density => DensityCurve.Shaped
  | .boxplot | .violin | .qq | .bin2d => fun _ => True

/-- The coordinates of a curve, and the edges and counts of bins, are the numbers that the result of
their group gives. -/
def Keeps : (kind : StatisticKind) → Value → kind.Record → Prop
  | .glm | .smooth => fun v (c : RegressionCurve) =>
      (v.getD "x").Holds c.x ∧ (v.getD "y").Holds c.y
  | .summary => fun v (c : SummaryCurve) => (v.getD "x").Holds c.x ∧ (v.getD "y").Holds c.y
  | .density => fun v (c : DensityCurve) => (v.getD "x").Holds c.x ∧ (v.getD "y").Holds c.y
  | .bin => fun v (b : BinGroup) =>
      (v.getD "edges").Holds b.edges ∧ (v.getD "counts").Holds b.counts
  | .boxplot | .violin | .qq | .bin2d => fun _ _ => True

end StatisticKind

theorem RegressionCurve.Aligned.shaped {c : RegressionCurve} (h : c.Aligned) : c.Shaped :=
  ⟨h.lengths.symm, fun b hb => (h.band b hb).lower, fun b hb => (h.band b hb).upper⟩

theorem SummaryCurve.Aligned.shaped {c : SummaryCurve} (h : c.Aligned) : c.Shaped :=
  ⟨h.lengths.symm, h.band.lower, h.band.upper⟩

/-! ## 2. Reading -/

variable {observationX record : Value} {g : Nat}

theorem Sequence.length_midpoints (xs : List Float) :
    (Sequence.midpoints xs).length = xs.length - 1 := by
  rw [Sequence.midpoints, List.length_zipWith, List.length_tail]
  omega

-- Centers that are given are counted, and centers that are not are counted by the edges.
theorem readBins_eq_ok {n : Normalized BinGroup} (h : readBins g record = .ok n) :
    ∃ b, n.records = [b] ∧ b.Shaped ∧ StatisticKind.bin.Keeps record b := by
  obtain ⟨-, -, h⟩ := bind_eq_ok.mp h
  obtain ⟨edges, hedges, h⟩ := bind_eq_ok.mp h
  obtain ⟨counts, hcounts, h⟩ := bind_eq_ok.mp h
  have hkeeps := And.intro (readVector_eq_ok.mp hedges).1 (readVector_eq_ok.mp hcounts).1
  split at h
  · cases h
  next hlength =>
    rw [not_not] at hlength
    dsimp only at h
    split at h
    · cases h
      refine ⟨_, rfl, ⟨hlength, ?_⟩, hkeeps⟩
      show (Sequence.midpoints edges).length = counts.length
      rw [Sequence.length_midpoints, hlength, Nat.add_sub_cancel]
    · obtain ⟨centers, -, h⟩ := bind_eq_ok.mp h
      split at h
      · cases h
      next hcenters =>
        rw [not_not] at hcenters
        cases h
        exact ⟨_, rfl, ⟨hlength, hcenters⟩, hkeeps⟩

theorem readDensity_eq_ok {n : Normalized DensityCurve} (h : readDensity g record = .ok n) :
    ∃ c, n.records = [c] ∧ c.Shaped ∧ StatisticKind.density.Keeps record c := by
  obtain ⟨⟨x, y⟩, hcurve, h⟩ := bind_eq_ok.mp h
  cases h
  obtain ⟨hgives, -, hlength⟩ := readCurve_eq_ok.mp hcurve
  exact ⟨_, rfl, hlength.symm, hgives.x_holds, hgives.y_holds⟩

theorem keeps_of_readRegression {kind : StatisticKind} {n : Normalized RegressionCurve}
    (h : readRegression kind observationX g record = .ok n) :
    ∀ c ∈ n.records, StatisticKind.glm.Keeps record c := by
  obtain ⟨⟨x, y⟩, hcurve, h⟩ := bind_eq_ok.mp h
  obtain ⟨band, -, h⟩ := bind_eq_ok.mp h
  cases h
  intro c hc
  obtain ⟨hgives, -, -⟩ := readCurve_eq_ok.mp hcurve
  rw [List.mem_singleton.mp hc]
  exact ⟨hgives.x_holds, hgives.y_holds⟩

theorem keeps_of_readSummary {n : Normalized SummaryCurve}
    (h : readSummary observationX g record = .ok n) :
    ∀ c ∈ n.records, StatisticKind.summary.Keeps record c := by
  obtain ⟨⟨x, y⟩, hcurve, h⟩ := bind_eq_ok.mp h
  obtain ⟨band, -, h⟩ := bind_eq_ok.mp h
  cases h
  intro c hc
  obtain ⟨hgives, -, -⟩ := readCurve_eq_ok.mp hcurve
  rw [List.mem_singleton.mp hc]
  exact ⟨hgives.x_holds, hgives.y_holds⟩

/-! ## 3. Results -/

variable {kind : StatisticKind}

/-- Every record has its shape, and the numbers of what it is read from. -/
theorem shaped_of_read {n : Normalized kind.Record} (hrecord : record.Sized)
    (h : kind.read observationX g record = .ok n) :
    ∀ c ∈ n.records, kind.Shaped c ∧ kind.Keeps record c := by
  cases kind with
  | glm =>
    exact fun c hc =>
      ⟨(aligned_of_readRegression hrecord h c hc).1.shaped, keeps_of_readRegression h c hc⟩
  | smooth =>
    exact fun c hc =>
      ⟨(aligned_of_readRegression hrecord h c hc).1.shaped, keeps_of_readRegression h c hc⟩
  | summary =>
    exact fun c hc =>
      ⟨(aligned_of_readSummary hrecord h c hc).1.shaped, keeps_of_readSummary h c hc⟩
  | bin =>
    obtain ⟨b, hn, hb⟩ := readBins_eq_ok h
    rw [hn]
    exact List.forall_mem_singleton.mpr hb
  | density =>
    obtain ⟨c, hn, hc⟩ := readDensity_eq_ok h
    rw [hn]
    exact List.forall_mem_singleton.mpr hc
  | boxplot | violin | qq | bin2d => exact fun _ _ => ⟨trivial, trivial⟩

/-- Every record of a result has its shape, and the numbers of the group whose number it has. -/
theorem shaped_of_normalize {raw : Value} {n : Normalized kind.Record} (hraw : raw.Sized)
    (h : normalize kind raw observationX = .ok n) :
    ∀ c ∈ n.records, kind.Shaped c ∧ ∃ i r, (groupsOf raw)[i]? = some r ∧
      Grouped.group c = i + 1 ∧ kind.Keeps r c := by
  intro c hc
  obtain ⟨i, r, part, hr, hgroup, hpart, hmem⟩ := exists_read_of_mem h hc
  obtain ⟨hshaped, hkeeps⟩ := shaped_of_read (sized_of_groupsOf hraw hr) hpart c hmem
  exact ⟨hshaped, i, r, hr, hgroup, hkeeps⟩

end PlotScene
