import PlotScene.Layer.Curve
import PlotScene.Proofs.Layer.Coloring
import PlotScene.Proofs.Layer.Geometry

/-!
# Layers of curves read their own sources

For each statistic over a numeric x, the fields that the rows of its sources have to have, and that
its layer reads these fields, those of the table, and nothing else.
-/

namespace PlotScene

namespace Curve

variable {V : View} {p : Plot} {o : Presentation} {s : Style}

/-! ## 1. Regression and smoothing -/

def regressionColoring (curves : List RegressionCurve) (p : Plot) (s : Style) : Coloring :=
  Coloring.choose p (curves.map (·.group)) s.markColor

def isBanded (curves : List RegressionCurve) : Bool :=
  curves.any fun c => c.band.isSome

def regressionFields : List String := ["x", "regression_y", "ci_lower", "ci_upper"]

def regressionSupplies (n : Names) (curves : List RegressionCurve) (p : Plot) (s : Style) :
    List Supply :=
  let fields := (regressionColoring curves p s).fields regressionFields
  ⟨n.curve, fields⟩ :: if isBanded curves then [⟨n.banded, fields⟩] else []

theorem reads_observations {n : Names} (h : ReadsTable V p) (hx : V.scale "xscale")
    (hy : V.scale "yscale") (hc : p.grouped = true → V.scale "color") :
    MarkReads V (observations n p o s) := by
  unfold observations
  refine MarkReads.flat (d := "table") ?_ h.source ?_
  · rw [getD_withTooltip_of_ne _ _ _ (by decide)]
    rfl
  · refine Flat.withTooltip (Flat.ofObj rfl rfl ?_) _ _
    have hfill := encodes_colorEncoding (s := s) fun hg => ⟨hc hg, h.color hg⟩
    apply (encodes_enter rfl).mpr
    simpa using ⟨⟨hx, h.x⟩, ⟨hy, h.y⟩, hfill⟩

section

variable {n : Names} {curves : List RegressionCurve}

-- The color scale comes with shared colors, or by itself for the observations behind the curves.
theorem scale_color_of_regression (hS : V.HasScales (regressionFragment n curves p o s).scales)
    (hg : p.grouped = true) : V.scale "color" := by
  by_cases hshared : (regressionColoring curves p s).isShared = true
  · refine hS (colorScale s) ?_ "color" rfl
    refine List.mem_cons_of_mem _ (List.mem_cons_of_mem _ (List.mem_append_left _ ?_))
    show colorScale s ∈ (regressionColoring curves p s).scales s n.curve
    cases hcol : regressionColoring curves p s with
    | shared => exact List.mem_singleton.mpr rfl
    | _ =>
      rw [hcol] at hshared
      cases hshared
  · refine hS (colorScale s) ?_ "color" rfl
    refine List.mem_cons_of_mem _ (List.mem_cons_of_mem _ (List.mem_append_right _ ?_))
    rw [if_pos (by simpa [hg, regressionColoring] using hshared)]
    exact List.mem_singleton.mpr rfl

theorem domainReads_regression (h : ReadsTable V p)
    (hcurve : V.Has ⟨n.curve, (regressionColoring curves p s).fields regressionFields⟩)
    (hband : isBanded curves = true →
      V.Has ⟨n.banded, (regressionColoring curves p s).fields regressionFields⟩) :
    DomainReads V (unionDomain ([("table", "y"), (n.curve, "regression_y")] ++
      if isBanded curves then [(n.banded, "ci_lower"), (n.banded, "ci_upper")] else [])) := by
  have own {d f : String}
      (hd : V.Has ⟨d, (regressionColoring curves p s).fields regressionFields⟩)
      (hf : f ∈ regressionFields) : V.field d f := hd.2 f (Coloring.own_mem_fields hf)
  apply domainReads_unionDomain
  intro r hr
  rcases List.mem_append.mp hr with hr | hr
  · simp only [List.mem_cons, List.not_mem_nil, or_false] at hr
    rcases hr with rfl | rfl
    · exact ⟨h.source, h.y⟩
    · exact ⟨hcurve.1, own (f := "regression_y") hcurve (by decide)⟩
  · split at hr
    next hb =>
      simp only [List.mem_cons, List.not_mem_nil, or_false] at hr
      rcases hr with rfl | rfl
      · exact ⟨(hband hb).1, own (f := "ci_lower") (hband hb) (by decide)⟩
      · exact ⟨(hband hb).1, own (f := "ci_upper") (hband hb) (by decide)⟩
    next => cases hr

theorem reads_bandArea {c : Coloring} (hx : V.scale "xscale") (hy : V.scale "yscale")
    (hc : V.HasScales (c.scales s n.curve)) (hd : V.Has ⟨n.banded, c.fields regressionFields⟩) :
    MarkReads V (groupedMark c n.bands n.bandFacet n.bands n.banded
      (bandArea n (c.encoding n.curve))) := by
  have own {f : String} (hf : f ∈ regressionFields) : V.field n.banded f :=
    hd.2 f (Coloring.own_mem_fields hf)
  have hfill := Coloring.encodes_encoding hd.2 hc
  refine reads_groupedMark hd rfl (Flat.ofObj rfl rfl ((encodes_enter rfl).mpr ?_))
  simpa using ⟨⟨hx, own (by decide)⟩, ⟨hy, own (by decide)⟩, ⟨hy, own (by decide)⟩, hfill⟩

theorem reads_regressionLine {c : Coloring} (hx : V.scale "xscale") (hy : V.scale "yscale")
    (hc : V.HasScales (c.scales s n.curve)) (hd : V.Has ⟨n.curve, c.fields regressionFields⟩) :
    MarkReads V (groupedMark c n.lines n.lineFacet n.line n.curve
      (regressionLine n (c.encoding n.curve))) := by
  have own {f : String} (hf : f ∈ regressionFields) : V.field n.curve f :=
    hd.2 f (Coloring.own_mem_fields hf)
  have hstroke := Coloring.encodes_encoding hd.2 hc
  refine reads_groupedMark hd rfl (Flat.ofObj rfl rfl ((encodes_enter rfl).mpr ?_))
  simpa using ⟨⟨hx, own (by decide)⟩, ⟨hy, own (by decide)⟩, hstroke⟩

theorem reads_regressionFragment (h : ReadsTable V p)
    (hV : ∀ d ∈ regressionSupplies n curves p s, V.Has d)
    (hS : V.HasScales (regressionFragment n curves p o s).scales) :
    (regressionFragment n curves p o s).Reads V := by
  have hcurve : V.Has ⟨n.curve, (regressionColoring curves p s).fields regressionFields⟩ :=
    hV _ List.mem_cons_self
  have hband (hb : isBanded curves = true) :
      V.Has ⟨n.banded, (regressionColoring curves p s).fields regressionFields⟩ := by
    refine hV _ (List.mem_cons_of_mem _ ?_)
    rw [if_pos hb]
    exact List.mem_singleton.mpr rfl
  have hx : V.scale "xscale" := hS _ List.mem_cons_self _ (get?_xScaleAs_name _ bandPadding)
  have hy : V.scale "yscale" :=
    hS _ (List.mem_cons_of_mem _ List.mem_cons_self) _ (get?_yScale_name p (some _) true)
  have hc : V.HasScales ((regressionColoring curves p s).scales s n.curve) :=
    hS.mono fun c hc =>
      List.mem_cons_of_mem _ (List.mem_cons_of_mem _ (List.mem_append_left _ hc))
  refine ⟨fun c hm => ?_, axes_both o hx hy, fun m hm => ?_⟩
  · rcases List.mem_cons.mp hm with rfl | hm
    · exact scaleReads_xScaleAs h _ _
    rcases List.mem_cons.mp hm with rfl | hm
    · apply scaleReads_yScale h _ true
      intro d hd
      obtain rfl := Option.some.inj hd
      exact domainReads_regression h hcurve hband
    rcases List.mem_append.mp hm with hm | hm
    · exact Coloring.scaleReads_scales h grouped_of_shared hcurve c hm
    · split at hm
      next hg =>
        obtain rfl := List.mem_singleton.mp hm
        rw [Bool.and_eq_true] at hg
        exact scaleReads_ordinalScale h.source (h.color hg.1)
      next => cases hm
  · rcases List.mem_append.mp hm with hm | hm
    · split at hm
      next hb =>
        obtain rfl := List.mem_singleton.mp hm
        exact reads_bandArea hx hy hc (hband hb)
      next => cases hm
    rcases List.mem_cons.mp hm with rfl | hm
    · exact reads_regressionLine hx hy hc hcurve
    · obtain rfl := List.mem_singleton.mp hm
      exact reads_observations h hx hy (scale_color_of_regression hS)

end

/-! ## 2. Densities and quantiles -/

-- Both layers span their axes by the coordinates of their own rows.
theorem scaleReads_coordinates {coloring : Coloring} {source : String} {own : List String}
    {xMore yMore : List (String × Value)} (h : ReadsTable V p)
    (hg : coloring.isShared = true → p.grouped = true) (hd : V.Has ⟨source, coloring.fields own⟩)
    (hx : V.field source "x") (hy : V.field source "y") :
    ∀ c ∈ linearScale "xscale" (dataRef source "x") (.str "width") xMore ::
      linearScale "yscale" (dataRef source "y") (.str "height") yMore ::
        coloring.scales s source, ScaleReads V c := by
  intro c hm
  rcases List.mem_cons.mp hm with rfl | hm
  · exact scaleReads_linearScale (domainReads_dataRef hd.1 hx)
  rcases List.mem_cons.mp hm with rfl | hm
  · exact scaleReads_linearScale (domainReads_dataRef hd.1 hy)
  · exact Coloring.scaleReads_scales h hg hd c hm

def densityFields (curves : List DensityCurve) (p : Plot) (s : Style) : List String :=
  (Coloring.choose p (curves.map (·.group)) s.markColor).fields ["x", "y"]

theorem reads_densityFragment {curves : List DensityCurve} (h : ReadsTable V p)
    (hd : V.Has ⟨"density", densityFields curves p s⟩)
    (hS : V.HasScales (densityFragment curves p o s).scales) :
    (densityFragment curves p o s).Reads V := by
  have hx : V.scale "xscale" := hS _ List.mem_cons_self _ rfl
  have hy : V.scale "yscale" := hS _ (List.mem_cons_of_mem _ List.mem_cons_self) _ rfl
  have hc := hS.mono fun c hc => List.mem_cons_of_mem _ (List.mem_cons_of_mem _ hc)
  have hfx : V.field "density" "x" := hd.2 _ (Coloring.own_mem_fields (by decide))
  have hfy : V.field "density" "y" := hd.2 _ (Coloring.own_mem_fields (by decide))
  refine ⟨scaleReads_coordinates h grouped_of_shared hd hfx hfy, axes_both o hx hy,
    fun m hm => ?_⟩
  obtain rfl := List.mem_singleton.mp hm
  refine reads_groupedMark hd ?_ (Flat.withTooltip (Flat.ofObj rfl rfl ?_) _ _)
  · rw [getD_withTooltip_of_ne _ _ _ (by decide)]
    rfl
  · have hstroke := Coloring.encodes_encoding hd.2 hc
    apply (encodes_enter rfl).mpr
    simpa using ⟨⟨hx, hfx⟩, ⟨hy, hfy⟩, hstroke⟩

def quantileFields (points : List QuantilePoint) (p : Plot) (s : Style) : List String :=
  (Coloring.choose p (points.map (·.group)) s.markColor).fields ["x", "y"]

theorem reads_quantileFragment {points : List QuantilePoint} (h : ReadsTable V p)
    (hd : V.Has ⟨"qq", quantileFields points p s⟩)
    (hS : V.HasScales (quantileFragment points p o s).scales) :
    (quantileFragment points p o s).Reads V := by
  have hx : V.scale "xscale" := hS _ List.mem_cons_self _ rfl
  have hy : V.scale "yscale" := hS _ (List.mem_cons_of_mem _ List.mem_cons_self) _ rfl
  have hc := hS.mono fun c hc => List.mem_cons_of_mem _ (List.mem_cons_of_mem _ hc)
  have hfx : V.field "qq" "x" := hd.2 _ (Coloring.own_mem_fields (by decide))
  have hfy : V.field "qq" "y" := hd.2 _ (Coloring.own_mem_fields (by decide))
  refine ⟨scaleReads_coordinates h grouped_of_shared hd hfx hfy, axes_both o hx hy,
    fun m hm => ?_⟩
  obtain rfl := List.mem_singleton.mp hm
  refine MarkReads.flat (d := "qq") ?_ hd.1 (Flat.withTooltip (Flat.ofObj rfl rfl ?_) _ _)
  · rw [getD_withTooltip_of_ne _ _ _ (by decide)]
    rfl
  · have hfill := Coloring.encodes_encoding hd.2 hc
    apply (encodes_enter rfl).mpr
    simpa using ⟨⟨hx, hfx⟩, ⟨hy, hfy⟩, hfill⟩

end Curve

end PlotScene
