import PlotScene.Proofs.Layer.Drawing
import PlotScene.Proofs.Plot.Results

/-!
# Statistics are drawn without loss

The layers of statistics write the rows that their drawings ask for: as many for each record as it
has points, bins, bounds or boxes, and each with the values of its place.
-/

namespace PlotScene

open Reference

/-! ## 1. Rows of the records -/

section

variable {c : Coloring} {p : Plot}

theorem length_bounds {k : RegressionCurve} (hk : k.Shaped) :
    (Curve.bounds k).length = k.x.length := by
  rw [Curve.bounds]
  split
  next b hb => rw [List.length_zipWith, hk.lower b hb, hk.upper b hb, Nat.min_self]
  next => rw [List.length_map]

theorem boundAt_of_bounds {k : RegressionCurve} {i : Nat} {l u : Value}
    (h : (Curve.bounds k)[i]? = some (l, u)) :
    k.boundAt Band.lower i = some l.plain ∧ k.boundAt Band.upper i = some u.plain := by
  rw [Curve.bounds] at h
  split at h
  next b hb =>
    obtain ⟨l', u', hl, hu, hlu⟩ := List.getElem?_zipWith_eq_some.mp h
    cases hlu
    simp only [RegressionCurve.boundAt, hb]
    exact ⟨congrArg (Option.map shown) hl, congrArg (Option.map shown) hu⟩
  next hb =>
    rw [List.getElem?_map] at h
    obtain ⟨x, -, hlu⟩ := Option.map_eq_some_iff.mp h
    cases hlu
    simp only [RegressionCurve.boundAt, hb]
    exact ⟨rfl, rfl⟩

theorem lays_regression {source : String} {k : RegressionCurve} (hk : k.Shaped) :
    (Curve.regressionDrawing source).Lays c p k (Curve.regressionRows p c k) where
  length := by
    rw [Curve.regressionRows, List.length_map, List.length_zip, List.length_zip, hk.y,
      length_bounds hk, Nat.min_self, Nat.min_self]
    rfl
  row := by
    intro i v hv
    rw [Curve.regressionRows, List.getElem?_map] at hv
    obtain ⟨⟨⟨x, y⟩, l, u⟩, hi, rfl⟩ := Option.map_eq_some_iff.mp hv
    obtain ⟨hxy, hlu⟩ := List.getElem?_zip_eq_some.mp hi
    obtain ⟨hx, hy⟩ := List.getElem?_zip_eq_some.mp hxy
    obtain ⟨hl, hu⟩ := boundAt_of_bounds hlu
    refine ⟨_, ⟨by simp, ?_⟩, rfl⟩
    simp only [Curve.regressionDrawing, List.forall_mem_cons]
    exact ⟨⟨.float x, congrArg (Option.map shown) hx, rfl⟩,
      ⟨.float y, congrArg (Option.map shown) hy, rfl⟩, ⟨l, hl, rfl⟩, ⟨u, hu, rfl⟩,
      List.forall_mem_nil _⟩

theorem lays_bins {b : BinGroup} (hb : b.Shaped) : Bin.drawing.Lays c p b (Bin.rows p c b) where
  length := by
    rw [Bin.rows, List.length_map, List.length_zip, List.length_zip, List.length_zip,
      List.length_tail, hb.centers, hb.edges, Nat.add_sub_cancel, Nat.min_self,
      Nat.min_eq_right (Nat.le_succ _), Nat.min_self]
    rfl
  row := by
    intro i v hv
    rw [Bin.rows, List.getElem?_map] at hv
    obtain ⟨⟨⟨center, count⟩, left, right⟩, hi, rfl⟩ := Option.map_eq_some_iff.mp hv
    obtain ⟨hbin, hedges⟩ := List.getElem?_zip_eq_some.mp hi
    obtain ⟨hcenter, hcount⟩ := List.getElem?_zip_eq_some.mp hbin
    obtain ⟨hleft, hright⟩ := List.getElem?_zip_eq_some.mp hedges
    rw [List.getElem?_tail] at hright
    refine ⟨_, ⟨by simp, ?_⟩, rfl⟩
    simp only [Bin.drawing, List.forall_mem_cons, hcenter, hcount, hleft, hright]
    exact ⟨⟨.float center, rfl, rfl⟩, ⟨.float count, rfl, rfl⟩, ⟨.float left, rfl, rfl⟩,
      ⟨.float right, rfl, rfl⟩, ⟨.float (right - left), rfl, rfl⟩, List.forall_mem_nil _⟩

theorem length_means {k : SummaryCurve} (hk : k.Shaped) :
    (Category.means k).length = k.x.length := by
  rw [Category.means, List.length_zipWith, List.length_zip, List.length_zip, hk.y, hk.lower,
    hk.upper, Nat.min_self, Nat.min_self]

theorem getElem?_means {k : SummaryCurve} {i : Nat} {m : Category.Mean}
    (h : (Category.means k)[i]? = some m) :
    k.x[i]? = some m.x ∧ k.y[i]? = some m.y ∧ k.band.lower[i]? = some m.lower ∧
      k.band.upper[i]? = some m.upper := by
  obtain ⟨⟨x, y⟩, ⟨l, u⟩, hxy, hlu, rfl⟩ := List.getElem?_zipWith_eq_some.mp h
  obtain ⟨hx, hy⟩ := List.getElem?_zip_eq_some.mp hxy
  obtain ⟨hl, hu⟩ := List.getElem?_zip_eq_some.mp hlu
  exact ⟨hx, hy, hl, hu⟩

theorem lays_means {k : SummaryCurve} (hk : k.Shaped) :
    (Category.meanDrawing p).Lays c p k
      ((Category.means k).map (Category.meanRow p c k.group)) where
  length := (List.length_map _).trans (length_means hk)
  row := by
    intro i v hv
    rw [List.getElem?_map] at hv
    obtain ⟨m, hi, rfl⟩ := Option.map_eq_some_iff.mp hv
    obtain ⟨hx, hy, -, -⟩ := getElem?_means hi
    refine ⟨_, ⟨by simp, ?_⟩, rfl⟩
    simp only [Category.meanDrawing, List.forall_mem_cons, hx, hy]
    exact ⟨⟨Category.meanX p m.x, rfl, rfl⟩, ⟨.float m.y, rfl, rfl⟩, List.forall_mem_nil _⟩

-- Two rows for each entry: the even places have the first of them, the odd ones the second.
theorem getElem?_flatMap_pair {α β : Type} (f g : α → β) (l : List α) (i : Nat) :
    (l.flatMap fun a => [f a, g a])[i]? = l[i / 2]?.map (if i % 2 = 0 then f else g) := by
  induction l generalizing i with
  | nil => rfl
  | cons a l ih =>
    match i with
    | 0 => rfl
    | 1 => rfl
    | i + 2 =>
      have hdiv : (i + 2) / 2 = i / 2 + 1 := by omega
      have hmod : (i + 2) % 2 = i % 2 := by omega
      rw [hdiv, hmod, List.getElem?_cons_succ, ← ih]
      rfl

theorem length_flatMap_pair {α β : Type} (f g : α → β) (l : List α) :
    (l.flatMap fun a => [f a, g a]).length = 2 * l.length := by
  induction l with
  | nil => rfl
  | cons a l ih =>
    rw [List.flatMap_cons, List.length_append, ih, List.length_cons]
    simp only [List.length_cons, List.length_nil]
    omega

theorem lays_bounds {k : SummaryCurve} (hk : k.Shaped) :
    (Category.boundDrawing p).Lays c p k
      ((Category.means k).flatMap (Category.boundRows p c k.group)) where
  length := by
    refine (length_flatMap_pair _ _ _).trans ?_
    rw [length_means hk]
    rfl
  row := by
    intro i v hv
    replace hv := (getElem?_flatMap_pair _ _ _ _).symm.trans hv
    obtain ⟨m, hi, rfl⟩ := Option.map_eq_some_iff.mp hv
    obtain ⟨hx, -, hl, hu⟩ := getElem?_means hi
    by_cases heven : i % 2 = 0
    · rw [if_pos heven]
      refine ⟨_, ⟨by simp, ?_⟩, rfl⟩
      simp only [Category.boundDrawing, List.forall_mem_cons, if_pos heven, hx, hl]
      exact ⟨⟨Category.meanX p m.x, rfl, rfl⟩, ⟨.float m.lower, rfl, rfl⟩,
        ⟨.str "lower", rfl, rfl⟩, List.forall_mem_nil _⟩
    · rw [if_neg heven]
      refine ⟨_, ⟨by simp, ?_⟩, rfl⟩
      simp only [Category.boundDrawing, List.forall_mem_cons, if_neg heven, hx, hu]
      exact ⟨⟨Category.meanX p m.x, rfl, rfl⟩, ⟨.float m.upper, rfl, rfl⟩,
        ⟨.str "upper", rfl, rfl⟩, List.forall_mem_nil _⟩

theorem lays_density {k : DensityCurve} (hk : k.Shaped) :
    Curve.densityDrawing.Lays c p k (Curve.densityRows p c k) where
  length := by
    have hlength : k.y.length = k.x.length := hk
    rw [Curve.densityRows, List.length_zipWith, hlength, Nat.min_self]
    rfl
  row := by
    intro i v hv
    obtain ⟨x, y, hx, hy, rfl⟩ := List.getElem?_zipWith_eq_some.mp hv
    refine ⟨_, ⟨by simp, ?_⟩, rfl⟩
    simp only [Curve.densityDrawing, List.forall_mem_cons, hx, hy]
    exact ⟨⟨.float x, rfl, rfl⟩, ⟨.float y, rfl, rfl⟩, List.forall_mem_nil _⟩

theorem fills_violin (v : ViolinPoint) :
    (Category.violinDrawing p).Fills v 0 [("category", .str (Category.label p v.category)),
      ("y", .float v.y), ("density", .float v.density), ("left", .float v.left),
      ("right", .float v.right)] where
  own := by simp
  shows := by
    simp only [Category.violinDrawing, List.forall_mem_cons]
    exact ⟨⟨.str (Category.label p v.category), rfl, rfl⟩, ⟨.float v.y, rfl, rfl⟩,
      ⟨.float v.density, rfl, rfl⟩, ⟨.float v.left, rfl, rfl⟩, ⟨.float v.right, rfl, rfl⟩,
      List.forall_mem_nil _⟩

theorem fills_quantile (q : QuantilePoint) :
    Curve.quantileDrawing.Fills q 0 [("x", .float q.theoretical), ("y", .float q.sample)] where
  own := by simp
  shows := by
    simp only [Curve.quantileDrawing, List.forall_mem_cons]
    exact ⟨⟨.float q.theoretical, rfl, rfl⟩, ⟨.float q.sample, rfl, rfl⟩, List.forall_mem_nil _⟩

-- The rows of a box have the fields that they share, and some of their own.
theorem draws_box {d : Drawing Box} {b : Box} {i : Nat} {own : List (String × Value)}
    (hcolor : (Value.obj own).get? "color" = none)
    (h : ∀ f ∈ d.fields b i, ∃ v, f.2 = some v ∧
      (Value.obj (Category.boxFields p b ++ own)).get? f.1 = some v) :
    StatisticKind.boxplot.Draws p d (b, i) (.obj (Category.boxFields p b ++ own)) where
  fields := h
  group _ := rfl
  color hshares := absurd rfl hshares.1
  plain _ := hcolor

theorem draws_cell (k : Cell) : StatisticKind.bin2d.Draws p Cell.drawing (k, 0) k.row where
  fields := by
    simp only [Cell.drawing, List.forall_mem_cons]
    exact ⟨⟨_, rfl, rfl⟩, ⟨_, rfl, rfl⟩, ⟨_, rfl, rfl⟩, ⟨_, rfl, rfl⟩, ⟨_, rfl, rfl⟩,
      ⟨_, rfl, rfl⟩, ⟨_, rfl, rfl⟩, ⟨_, rfl, rfl⟩, ⟨_, rfl, rfl⟩, List.forall_mem_nil _⟩
  group hne := absurd rfl hne
  color hshares := absurd rfl hshares.2.1
  plain _ := rfl

end

/-! ## 2. Sources of the layers -/

section

variable {p : Plot} {o : Presentation} {s : Style}

theorem drawn_boxes (o : Presentation) (s : Style) : List.Forall₂ (StatisticKind.boxplot.Drawn p)
    [Category.boxDrawing p, Category.whiskerDrawing p, Category.medianDrawing p]
    (Category.boxFragment (p.statistics.records .boxplot) p o s).data := by
  refine .cons ?_ (.cons ?_ (.cons ?_ .nil))
  · refine drawn_of_single rfl (fun _ _ => rfl) fun b _ => draws_box rfl ?_
    simp only [Category.boxDrawing, List.forall_mem_cons]
    exact ⟨⟨_, rfl, rfl⟩, ⟨_, rfl, rfl⟩, ⟨_, rfl, rfl⟩, ⟨_, rfl, rfl⟩, List.forall_mem_nil _⟩
  · refine ⟨rfl, _, rfl, Drawing.forall₂_places (fun _ _ => rfl) fun b _ i v hv => ?_⟩
    match i with
    | 0 | 1 =>
      obtain rfl := Option.some.inj hv
      refine draws_box rfl ?_
      simp only [Category.whiskerDrawing, List.forall_mem_cons]
      exact ⟨⟨_, rfl, rfl⟩, ⟨_, rfl, rfl⟩, ⟨_, rfl, rfl⟩, ⟨_, rfl, rfl⟩, ⟨_, rfl, rfl⟩,
        List.forall_mem_nil _⟩
    | i + 2 => cases hv
  · refine drawn_of_single rfl (fun _ _ => rfl) fun b _ => draws_box rfl ?_
    simp only [Category.medianDrawing, List.forall_mem_cons]
    exact ⟨⟨_, rfl, rfl⟩, ⟨_, rfl, rfl⟩, ⟨_, rfl, rfl⟩, List.forall_mem_nil _⟩

-- The filtered source behind the bands has no rows of its own.
theorem forall₂_regression {n : Curve.Names} {curves : List RegressionCurve}
    {R : Drawing RegressionCurve → Value → Prop} {d : Drawing RegressionCurve}
    (h : R d (Fragment.source n.curve
      (curves.flatMap (Curve.regressionRows p (Curve.regressionColoring curves p s))))) :
    List.Forall₂ R [d]
      ((Curve.regressionFragment n curves p o s).data.filter (·.has "values")) := by
  have hdata : (Curve.regressionFragment n curves p o s).data.filter (·.has "values") =
      [Fragment.source n.curve
        (curves.flatMap (Curve.regressionRows p (Curve.regressionColoring curves p s)))] := by
    show List.filter _ (_ :: if curves.any (fun c => c.band.isSome) then _ else _) = _
    split <;> rfl
  rw [hdata]
  exact .cons h .nil

/-- The sources of a layer that have rows of their own are those that its statistic is drawn in. -/
theorem drawn_fragment {kind : StatisticKind} {f : Fragment}
    (hshaped : ∀ r ∈ p.statistics.records kind, kind.Shaped r)
    (hf : (LayerKind.statistic kind).fragment p o s = .ok f) :
    List.Forall₂ (kind.Drawn p) (kind.drawings p) (f.data.filter (·.has "values")) := by
  cases kind with
  | glm =>
    obtain rfl := Except.ok.inj hf
    refine forall₂_regression
      (drawn_of_lays ?_ rfl rfl fun r hr => lays_regression (hshaped r hr))
    exact isShared_choose_iff_sharesColor (by decide) (by decide) rfl
  | smooth =>
    obtain rfl := Except.ok.inj hf
    refine forall₂_regression
      (drawn_of_lays ?_ rfl rfl fun r hr => lays_regression (hshaped r hr))
    exact isShared_choose_iff_sharesColor (by decide) (by decide) rfl
  | bin =>
    obtain rfl := Except.ok.inj hf
    refine .cons (drawn_of_lays ?_ rfl rfl fun r hr => lays_bins (hshaped r hr)) .nil
    exact isShared_choose_iff_sharesColor (by decide) (by decide) rfl
  | summary =>
    obtain rfl := Except.ok.inj hf
    have hshared : (Coloring.choose p ((p.statistics.records .summary).map SummaryCurve.group)
        s.markColor).isShared = true ↔ StatisticKind.summary.SharesColor p :=
      isShared_choose_iff_sharesColor (by decide) (by decide) rfl
    refine .cons (drawn_of_lays hshared rfl rfl fun r hr => lays_means (hshaped r hr)) ?_
    exact .cons (drawn_of_lays hshared rfl rfl fun r hr => lays_bounds (hshaped r hr)) .nil
  | boxplot =>
    obtain rfl := Except.ok.inj hf
    exact drawn_boxes o s
  | density =>
    obtain rfl := Except.ok.inj hf
    refine .cons (drawn_of_lays ?_ rfl rfl fun r hr => lays_density (hshaped r hr)) .nil
    exact isShared_choose_iff_sharesColor (by decide) (by decide) rfl
  | violin =>
    obtain rfl := Except.ok.inj hf
    refine .cons (drawn_of_single rfl (fun _ _ => rfl) fun v hv => draws_row ?_ hv ?_) .nil
    · exact isShared_choose_iff_sharesColor (by decide) (by decide) rfl
    · exact fills_violin v
  | qq =>
    obtain rfl := Except.ok.inj hf
    refine .cons (drawn_of_single rfl (fun _ _ => rfl) fun q hq => draws_row ?_ hq ?_) .nil
    · exact isShared_choose_iff_sharesColor (by decide) (by decide) rfl
    · exact fills_quantile q
  | bin2d =>
    obtain ⟨heat, -, hf⟩ := bind_eq_ok.mp hf
    obtain rfl := Except.ok.inj hf
    exact .cons (drawn_of_single rfl (fun _ _ => rfl) fun k _ => draws_cell k) .nil

-- Only a heat map can fail, and only over its colors.
theorem exists_fragment (kind : StatisticKind) (p : Plot) (o : Presentation) (s : Style) :
    (∃ f, (LayerKind.statistic kind).fragment p o s = .ok f) ∨
      kind = .bin2d ∧ ∃ e, Cell.heatScale p s = .error e := by
  cases kind with
  | bin2d =>
    cases hheat : Cell.heatScale p s with
    | ok heat => exact Or.inl ⟨_, bind_eq_ok.mpr ⟨heat, hheat, rfl⟩⟩
    | error e => exact Or.inr ⟨rfl, e, rfl⟩
  | _ => exact Or.inl ⟨_, rfl⟩

-- Curves of a regression lie under observations, which need the color scale in any case.
theorem hasColor_iff_sharesColor {kind : StatisticKind} (hglm : kind ≠ .glm)
    (hsmooth : kind ≠ .smooth) {f : Fragment}
    (hf : (LayerKind.statistic kind).fragment p o s = .ok f) :
    HasColor f.scales ↔ kind.SharesColor p := by
  rw [LayerKind.hasColor_scales hf, StatisticKind.SharesColor]
  cases kind with
  | glm => exact absurd rfl hglm
  | smooth => exact absurd rfl hsmooth
  | boxplot => exact iff_of_false (fun h => h.2) fun h => h.1 rfl
  | bin2d => exact iff_of_false (fun h => h.2) fun h => h.2.1 rfl
  | _ => exact ⟨fun h => ⟨by decide, by decide, h⟩, fun h => h.2.2⟩

/-- What has been read of a statistic is drawn without loss.  Every record has its shape and the
number of the result that it is read from; the layer is built, but for a heat map without colors;
and its sources have, for the records in their order, the rows that they are drawn with, each with
the values, the group and the color label of its place. -/
theorem statistics_drawn (kind : StatisticKind) (raw observationX : Value)
    (n : Normalized kind.Record) (p : Plot) (hraw : raw.Sized)
    (hn : normalize kind raw observationX = .ok n) (hp : p.statistics.records kind = n.records)
    (o : Presentation) (s : Style) :
    (∀ r ∈ n.records, kind.Shaped r ∧ ∃ i v, (groupsOf raw)[i]? = some v ∧
      Grouped.group r = i + 1 ∧ kind.Keeps v r) ∧
    ((∃ f, (LayerKind.statistic kind).fragment p o s = .ok f) ∨
      kind = .bin2d ∧ ∃ e, Cell.heatScale p s = .error e) ∧
    ∀ f, (LayerKind.statistic kind).fragment p o s = .ok f →
      List.Forall₂ (kind.Drawn p) (kind.drawings p) (f.data.filter (·.has "values")) ∧
      (kind ≠ .glm → kind ≠ .smooth → (HasColor f.scales ↔ kind.SharesColor p)) := by
  have hshaped := shaped_of_normalize hraw hn
  refine ⟨hshaped, exists_fragment kind p o s, fun f hf => ⟨drawn_fragment ?_ hf, ?_⟩⟩
  · rw [hp]
    exact fun r hr => (hshaped r hr).1
  · exact fun hglm hsmooth => hasColor_iff_sharesColor hglm hsmooth hf

/-- Two density curves over observations of two colors. -/
def twoDensities : Value :=
  .list [.obj [("x", .list [.int 0, .int 1]), ("y", .list [.int 2, .int 3])],
    .obj [("x", .list [.int 4]), ("y", .list [.int 5])]]

def twoColors (curves : List DensityCurve) : Plot :=
  { Plot.ofAesthetics { x := [.int 0, .int 4], color := some [.str "a", .str "b"] } with
    statistics := Statistics.empty.put .density curves }

theorem statistics_drawn_twoDensities : ∃ n f, normalize .density twoDensities .null = .ok n ∧
    (LayerKind.statistic .density).fragment (twoColors n.records) {} (Style.ofSettings {} none) =
      .ok f ∧
    StatisticKind.density.SharesColor (twoColors n.records) ∧
    List.Forall₂ (StatisticKind.density.Drawn (twoColors n.records)) [Curve.densityDrawing]
      f.data := by
  have hsized : twoDensities.Sized := by simp [twoDensities]
  have hreads : (normalize .density twoDensities .null).toOption.isSome = true := by
    decide +kernel
  obtain ⟨n, hn⟩ := exists_of_isSome hreads
  have hrecords : (twoColors n.records).statistics.records .density = n.records :=
    Statistics.records_put_self _ _ _
  obtain ⟨hshaped, -, hdrawn⟩ := statistics_drawn .density twoDensities .null n
    (twoColors n.records) hsized hn hrecords {} (Style.ofSettings {} none)
  refine ⟨n, _, hn, rfl, ⟨by decide, by decide, rfl, fun r hr => ?_⟩, (hdrawn _ rfl).1⟩
  -- Both groups have a color, and there is no third one.
  rw [hrecords] at hr
  obtain ⟨-, i, v, hv, hgroup, -⟩ := hshaped r hr
  obtain ⟨hi, -⟩ := List.getElem?_eq_some_iff.mp hv
  have htwo : i < 2 := hi
  rw [hgroup]
  exact ⟨Nat.le_add_left 1 i, htwo⟩

/-! ## 3. Descriptions -/

theorem exists_normalize_recordsIn (observationX : Value) (kind : StatisticKind) {raw : Value}
    (hraw : raw.Sized) : ∃ raw' n, Value.Sized raw' ∧
      normalize kind raw' observationX = .ok n ∧ recordsIn observationX kind raw = n.records := by
  rw [recordsIn]
  split
  next n hn => exact ⟨raw, n, hraw, hn, rfl⟩
  next =>
    refine ⟨.null, .empty, Value.sized_scalar _, ?_, rfl⟩
    rw [normalize_eq_readGroups]
    rfl

theorem sized_of_mem_entries {v : Value} (h : v.Sized) {e : Scalar × Value}
    (he : e ∈ v.entries) : e.2.Sized := by
  cases h with
  | map hes => exact hes e he
  | _ => cases he

-- A plot has the records of one result for each kind of statistic.
theorem Plot.AsksFor.exists_normalize {description : Value} {p : Plot}
    (h : p.AsksFor description) (hsized : description.Sized) (kind : StatisticKind) :
    ∃ raw n, Value.Sized raw ∧
      normalize kind raw (observationsOf description) = .ok n ∧
      p.statistics.records kind = n.records := by
  rw [h.records kind, askedRecords?, lastYield?]
  cases hlast : ((resultsOf description).filterMap
      (yieldOf? (observationsOf description) kind)).getLast? with
  | none =>
    have hnone : recordsIn (observationsOf description) kind .null = [] :=
      recordsIn_of_hasContent rfl kind
    rw [Option.getD_none, ← hnone]
    exact exists_normalize_recordsIn _ kind (Value.sized_scalar .null)
  | some rs =>
    obtain ⟨e, he, hyield⟩ := List.mem_filterMap.mp (List.mem_of_getLast? hlast)
    rw [yieldOf?] at hyield
    split at hyield
    next =>
      cases hyield
      have hraw := sized_of_mem_entries (hsized.getD "results") he
      exact exists_normalize_recordsIn _ kind hraw
    next => cases hyield

/-- Every statistic of a plot that is read from a description is drawn in its sources. -/
theorem drawn_ofDescription {description : Value} {p : Plot}
    (h : Plot.ofDescription description = .ok p) (hsized : description.Sized)
    {kind : StatisticKind} {f : Fragment}
    (hf : (LayerKind.statistic kind).fragment p o s = .ok f) :
    List.Forall₂ (kind.Drawn p) (kind.drawings p) (f.data.filter (·.has "values")) := by
  obtain ⟨raw, n, hraw, hn, hp⟩ := (Plot.asksFor h).exists_normalize hsized kind
  refine drawn_fragment (fun r hr => ?_) hf
  rw [hp] at hr
  exact (shaped_of_normalize hraw hn r hr).1

end

end PlotScene
