import PlotScene.Layer.Registry
import PlotScene.Proofs.Layer.Bands
import PlotScene.Proofs.Layer.Scales

/-!
# Layers with a banded x scale

Each kind of layer decides by itself whether its x scale has bands: some kinds always have them,
some never do, and the others where x is not numeric.  A layer uses the band of the x scale only if
its own x scale has bands.
-/

namespace PlotScene

open Reference

/-! ## 1. Kinds -/

/-- Whether the x scale of a layer has bands. -/
def GeometryKind.isBanded (p : Plot) : GeometryKind → Bool
  | .bar | .jitter | .swarm => true
  | _ => !p.xNumeric

def StatisticKind.isBanded (p : Plot) : StatisticKind → Bool
  | .boxplot | .violin => true
  | .bin | .density | .qq | .bin2d => false
  | .glm | .smooth | .summary => !p.xNumeric

def LayerKind.isBanded (p : Plot) : LayerKind → Bool
  | .geometry g => g.isBanded p
  | .statistic k => k.isBanded p

variable {p : Plot} {o : Presentation} {s : Style} {banded : Prop}

/-! ## 2. Geometries -/

namespace GeometryKind

section

variable {B : String → Prop}

theorem leaf_bands {parts : MarkParts} (g : GeometryKind) (hpos : Bands B parts.position)
    (hupdate : Bands B parts.update) (hover : parts.overrides = .null) :
    Leaf (Bands B) (assembleMark p o s g parts) :=
  leaf_assembleMark (channelProperty_bands B) g hpos hupdate hover bands_colorEncoding
    (bands_xyTooltip o p.grouped)

theorem bands_xPosition (hx : p.xNumeric = false → B "xscale") : Bands B (xPosition p) := by
  rw [xPosition]
  split
  next => exact bands_scaled _ _
  next hnum => exact bands_scaledBand (hx (by simpa using hnum)) (List.forall_mem_nil _)

theorem bands_xyChannels (hx : p.xNumeric = false → B "xscale") :
    ∀ c ∈ xyChannels p, c.1 ∉ channelKeys ∧ Bands B c.2 := by
  simp [xyChannels, channelKeys, bands_xPosition hx]

end

theorem bandsIn_standardFragment {g : GeometryKind} {channels : List (String × Value)}
    (h : ∀ c ∈ channels, c.1 ∉ channelKeys ∧ Bands (HasBand banded []) c.2) :
    ∀ m ∈ (standardFragment g channels p o s).marks, BandsIn banded [] m := by
  intro m hm
  rw [List.mem_singleton.mp hm]
  exact BandsIn.leaf (leaf_bands g (bands_group h) (bands_scalar _) rfl)

theorem bandsIn_lineFragment (hx : p.xNumeric = false → HasBand banded [] "xscale") :
    ∀ m ∈ (lineFragment p o s).marks, BandsIn banded [] m := by
  have hline : Leaf (Bands (HasBand banded []))
      ((assembleMark p o s .line { position := .obj (xyChannels p) }).set "sort" (sortBy "x")) := by
    apply Leaf.set ?_ _ (by decide)
    exact leaf_bands .line (bands_group (bands_xyChannels hx)) (bands_scalar _) rfl
  intro m hm
  simp only [lineFragment] at hm
  split at hm
  · rw [List.mem_singleton.mp hm]
    exact bandsIn_facetMark (hline.without (by decide))
  · rw [List.mem_singleton.mp hm]
    exact BandsIn.leaf hline

-- The bars of a cluster are as wide as the bands of the scale that the cluster has of its own.
theorem leaf_clusteredBars {own : List Value} (h : clusterScale ∈ own) :
    Leaf (Bands (HasBand banded own)) (clusteredBars p o s) := by
  apply leaf_bands .bar ?_ (bands_scalar _) rfl
  have hwidth : Bands (HasBand banded own) (.obj [("scale", .str "pos"), ("band", .int 1)]) :=
    bands_width (Or.inr ⟨rfl, h⟩)
  apply bands_group
  simp [channelKeys, hwidth]

theorem leaf_plainBars (h : banded) : Leaf (Bands (HasBand banded [])) (plainBars p o s) := by
  apply leaf_bands .bar ?_ (bands_scalar _) rfl
  have hwidth : Bands (HasBand banded []) (.obj [("scale", .str "xscale"), ("band", .int 1)]) :=
    bands_width (Or.inl ⟨rfl, h⟩)
  apply bands_group
  simp [channelKeys, hwidth]

theorem bandsIn_barFragment (h : banded) :
    ∀ m ∈ (barFragment p o s).marks, BandsIn banded [] m := by
  intro m hm
  simp only [barFragment] at hm
  split at hm
  · rw [List.mem_singleton.mp hm]
    -- The bars inside a cluster see the scale of the cluster before the x scale.
    generalize hcluster : Value.obj _ = cluster
    have hparts : parts cluster "scales" = [clusterScale] := by
      rw [← hcluster]
      exact parts_of_get? rfl
    refine BandsIn.group (k := [clusteredBars p o s]) ?_ ?_ ?_ ?_ ?_
    · rw [← hcluster]
      rfl
    · rw [hparts]
      simp
    · rw [← hcluster]
      apply bands_enter
      simp [channelKeys]
    · rw [← hcluster]
      rfl
    · rw [hparts]
      intro c hc
      rw [List.mem_singleton.mp hc]
      exact BandsIn.leaf (leaf_clusteredBars List.mem_cons_self)
  · rw [List.mem_singleton.mp hm]
    exact BandsIn.leaf (leaf_plainBars h)

theorem bandsIn_scatteredFragment {g : GeometryKind} {options : Value} (h : banded) :
    ∀ m ∈ (scatteredFragment g options p o s).marks, BandsIn banded [] m := by
  intro m hm
  rw [List.mem_singleton.mp hm]
  have hscatter : Bands (HasBand banded []) (signalRef scatterExpression) :=
    bands_signalRef fun _ => Or.inl ⟨rfl, h⟩
  refine BandsIn.leaf (leaf_bands g (bands_group ?_) (bands_group ?_) rfl)
  · simp [channelKeys]
  · simp [channelKeys, hscatter]

/-- The marks of a geometry use the band of the x scale only if its own x scale has bands. -/
theorem bandsIn_fragment (g : GeometryKind) (h : g.isBanded p = true → banded) :
    ∀ m ∈ (g.fragment p o s).marks, BandsIn banded [] m := by
  have hband (hg : g.isBanded p = !p.xNumeric) (hx : p.xNumeric = false) :
      HasBand banded [] "xscale" := Or.inl ⟨rfl, h (by rw [hg, hx]; rfl)⟩
  have hsize {expression : String} (he : expression ≠ scatterExpression) :
      Bands (HasBand banded []) (signalRef expression) :=
    bands_signalRef fun heq => absurd heq he
  have hwidth := hsize (by decide : "width" ≠ scatterExpression)
  have hheight := hsize (by decide : "height" ≠ scatterExpression)
  cases g with
  | bar => exact bandsIn_barFragment (h rfl)
  | jitter => exact bandsIn_scatteredFragment (h rfl)
  | swarm => exact bandsIn_scatteredFragment (h rfl)
  | line => exact bandsIn_lineFragment (hband rfl)
  | point => exact bandsIn_standardFragment (bands_xyChannels (hband rfl))
  | abline => exact bandsIn_standardFragment (bands_xyChannels (hband rfl))
  | vline =>
    apply bandsIn_standardFragment
    simp [channelKeys, bands_xPosition (hband rfl), hheight]
  | hline =>
    apply bandsIn_standardFragment
    simp [channelKeys, hwidth]
  | polygon =>
    apply bandsIn_standardFragment
    apply List.forall_mem_append.mpr ⟨bands_xyChannels (hband rfl), ?_⟩
    simp [channelKeys]
  | raster =>
    intro m hm
    rw [List.mem_singleton.mp hm]
    refine BandsIn.leaf (leaf_bands .raster (bands_group ?_) (bands_scalar _) rfl)
    simp [channelKeys, bands_xPosition (hband rfl), hheight]
  | interval =>
    intro m hm
    rw [List.mem_singleton.mp hm]
    refine BandsIn.leaf (leaf_bands .interval (bands_group ?_) (bands_scalar _) rfl)
    simp [channelKeys, bands_xPosition (hband rfl)]

end GeometryKind

/-! ## 3. Statistics -/

section

variable {B : String → Prop}

-- A mark of a statistic has channels only when it enters.
theorem leaf_entering {fields channels : List (String × Value)}
    (hs : (Value.obj fields).get? "scales" = none) (hm : (Value.obj fields).get? "marks" = none)
    (he : (Value.obj fields).getD "encode" = .obj [("enter", .obj channels)])
    (h : ∀ c ∈ channels, c.1 ∉ channelKeys ∧ Bands B c.2) : Leaf (Bands B) (.obj fields) := by
  apply Leaf.ofObj hs hm
  rw [he]
  exact bands_enter h

theorem Leaf.withQuoted {m : Value} (h : Leaf (Bands B) m) {expression : String}
    (hquoted : expression.toList.head? = some '\'') :
    Leaf (Bands B) (PlotScene.withTooltip m o expression) :=
  h.withTooltip (channelProperty_bands B) o (bands_tooltip hquoted)

end

-- Curves go through the x scale without its bands.
theorem Curve.bandsIn_regressionFragment (n : Curve.Names) (curves : List RegressionCurve) :
    ∀ m ∈ (Curve.regressionFragment n curves p o s).marks, BandsIn banded [] m := by
  intro m hm
  rcases List.mem_append.mp hm with hm | hm
  · split at hm
    · rw [List.mem_singleton.mp hm]
      apply bandsIn_groupedMark (leaf_entering rfl rfl rfl ?_)
      simp [channelKeys, Coloring.bands_encoding]
    · cases hm
  rcases List.mem_cons.mp hm with rfl | hm
  · apply bandsIn_groupedMark (leaf_entering rfl rfl rfl ?_)
    simp [channelKeys, Coloring.bands_encoding]
  · rw [List.mem_singleton.mp hm]
    have hfill : Bands (HasBand banded []) (if p.grouped then scaled "color" "color"
        else constant (.str s.markColor)) := bands_colorEncoding (p := p) (s := s)
    apply BandsIn.leaf
    apply Leaf.withTooltip (channelProperty_bands _) ?_ o (bands_xyTooltip o p.grouped)
    apply leaf_entering rfl rfl rfl
    simp [channelKeys, hfill]

theorem Curve.bandsIn_densityFragment (curves : List DensityCurve) :
    ∀ m ∈ (Curve.densityFragment curves p o s).marks, BandsIn banded [] m := by
  intro m hm
  rw [List.mem_singleton.mp hm]
  apply bandsIn_groupedMark (Leaf.withQuoted (leaf_entering rfl rfl rfl ?_) ?_)
  · simp [channelKeys, Coloring.bands_encoding]
  · unfold Curve.densityTooltip
    split <;> exact head?_toList_append rfl

theorem Curve.bandsIn_quantileFragment (points : List QuantilePoint) :
    ∀ m ∈ (Curve.quantileFragment points p o s).marks, BandsIn banded [] m := by
  intro m hm
  rw [List.mem_singleton.mp hm]
  apply BandsIn.leaf (Leaf.withQuoted (leaf_entering rfl rfl rfl ?_) ?_)
  · simp [channelKeys, Coloring.bands_encoding]
  · exact head?_toList_append rfl

theorem Bin.bandsIn_fragment (bins : List BinGroup) :
    ∀ m ∈ (Bin.fragment bins p o s).marks, BandsIn banded [] m := by
  intro m hm
  rw [List.mem_singleton.mp hm]
  have hbars (color : Value) (hcolor : Bands (HasBand banded []) color) :
      Leaf (Bands (HasBand banded [])) (withTooltip (Bin.bars color) o Bin.tooltip) := by
    apply Leaf.withQuoted (leaf_entering rfl rfl rfl ?_) rfl
    simp [channelKeys, hcolor]
  split
  · exact bandsIn_facetMark (hbars _ (Coloring.bands_encoding _ _))
  · exact BandsIn.leaf ((hbars _ (Coloring.bands_encoding _ _)).named _)

theorem Cell.bandsIn_fragment {cells : List Cell} {f : Fragment}
    (hf : Cell.fragment cells p o s = .ok f) : ∀ m ∈ f.marks, BandsIn banded [] m := by
  obtain ⟨heat, -, hf⟩ := bind_eq_ok.mp hf
  obtain rfl := Except.ok.inj hf
  intro m hm
  rw [List.mem_singleton.mp hm]
  apply BandsIn.leaf (Leaf.withQuoted (leaf_entering rfl rfl rfl ?_) rfl)
  simp [channelKeys]

theorem Category.bandsIn_meanFragment (curves : List SummaryCurve)
    (hx : p.xNumeric = false → banded) :
    ∀ m ∈ (Category.meanFragment curves p o s).marks, BandsIn banded [] m := by
  have hposition : Bands (HasBand banded []) (Category.meanPosition p) := by
    rw [Category.meanPosition]
    split
    next => exact bands_scaled _ _
    next hnum =>
      exact bands_scaledBand (Or.inl ⟨rfl, hx (by simpa using hnum)⟩) (List.forall_mem_nil _)
  intro m hm
  rcases List.mem_cons.mp hm with rfl | hm
  · apply bandsIn_groupedMark (leaf_entering rfl rfl rfl ?_)
    simp [channelKeys, Coloring.bands_encoding, hposition]
  · rw [List.mem_singleton.mp hm]
    apply bandsIn_groupedMark (Leaf.withQuoted (leaf_entering rfl rfl rfl ?_) rfl)
    simp [channelKeys, Coloring.bands_encoding, hposition]

theorem Category.bandsIn_boxFragment (boxes : List Box) (h : banded) :
    ∀ m ∈ (Category.boxFragment boxes p o s).marks, BandsIn banded [] m := by
  have hcentered : Bands (HasBand banded []) (Category.centered "x") :=
    bands_scaledBand (Or.inl ⟨rfl, h⟩) (List.forall_mem_nil _)
  have hoffset (n : Int) :
      Bands (HasBand banded []) (Category.centered "x" [("offset", .int n)]) := by
    apply bands_scaledBand (Or.inl ⟨rfl, h⟩)
    simp [channelKeys]
  simp only [Category.boxFragment, List.forall_mem_cons]
  refine ⟨?_, ?_, ?_, List.forall_mem_nil _⟩
  · apply BandsIn.leaf (leaf_entering rfl rfl rfl ?_)
    simp [channelKeys, Category.boxStroke, hcentered]
  · apply BandsIn.leaf (leaf_entering rfl rfl rfl ?_)
    simp [channelKeys, Category.boxStroke, hoffset]
  · apply BandsIn.leaf (Leaf.withQuoted (leaf_entering rfl rfl rfl ?_) rfl)
    simp [channelKeys, hoffset]

theorem Category.bandsIn_violinFragment (points : List ViolinPoint) (h : banded) :
    ∀ m ∈ (Category.violinFragment points p o s).marks, BandsIn banded [] m := by
  have hside (f : String) : Bands (HasBand banded [])
      (Category.centered "category" [("offset", scaled "violin_width" f)]) := by
    apply bands_scaledBand (Or.inl ⟨rfl, h⟩)
    simp [channelKeys]
  intro m hm
  rw [List.mem_singleton.mp hm]
  apply bandsIn_facetMark (Leaf.withQuoted (leaf_entering rfl rfl rfl ?_) rfl)
  simp [channelKeys, Coloring.bands_encoding, hside]

/-! ## 4. Layers -/

/-- The x scale stands first among some scales, and it has bands exactly where this is said. -/
def LeadsWithX (banded : Bool) (scales : List Value) : Prop :=
  ∃ c rest, scales = c :: rest ∧ c.get? "name" = some (.str "xscale") ∧
    (c.get? "type" = some (.str "band") ↔ banded = true)

theorem leadsWithX_bandScale (domain : Value) (range : String) (padding : Float)
    (rest : List Value) : LeadsWithX true (bandScale "xscale" domain range padding :: rest) :=
  ⟨_, rest, rfl, rfl, by simp [bandScale]⟩

theorem leadsWithX_linearScale (domain range : Value) (more : List (String × Value))
    (rest : List Value) : LeadsWithX false (linearScale "xscale" domain range more :: rest) :=
  ⟨_, rest, rfl, rfl, by simp [linearScale]⟩

theorem leadsWithX_xScaleAs (banded : Bool) (padding : Float) (rest : List Value) :
    LeadsWithX banded (xScaleAs banded padding :: rest) := by
  cases banded
  · exact leadsWithX_linearScale _ _ _ _
  · exact leadsWithX_bandScale _ _ _ _

namespace LayerKind

/-- The marks of a layer use the band of the x scale only if its own x scale has bands. -/
theorem bandsIn_fragment {kind : LayerKind} {f : Fragment} (hf : kind.fragment p o s = .ok f)
    (h : kind.isBanded p = true → banded) : ∀ m ∈ f.marks, BandsIn banded [] m := by
  cases kind with
  | geometry g =>
    obtain rfl := Except.ok.inj hf
    exact g.bandsIn_fragment h
  | statistic k =>
    cases k with
    | bin2d => exact Cell.bandsIn_fragment hf
    | glm =>
      obtain rfl := Except.ok.inj hf
      exact Curve.bandsIn_regressionFragment _ _
    | smooth =>
      obtain rfl := Except.ok.inj hf
      exact Curve.bandsIn_regressionFragment _ _
    | bin =>
      obtain rfl := Except.ok.inj hf
      exact Bin.bandsIn_fragment _
    | summary =>
      obtain rfl := Except.ok.inj hf
      apply Category.bandsIn_meanFragment
      intro hx
      exact h (by simp [isBanded, StatisticKind.isBanded, hx])
    | boxplot =>
      obtain rfl := Except.ok.inj hf
      exact Category.bandsIn_boxFragment _ (h rfl)
    | density =>
      obtain rfl := Except.ok.inj hf
      exact Curve.bandsIn_densityFragment _
    | violin =>
      obtain rfl := Except.ok.inj hf
      exact Category.bandsIn_violinFragment _ (h rfl)
    | qq =>
      obtain rfl := Except.ok.inj hf
      exact Curve.bandsIn_quantileFragment _

/-- The x scale comes first among the scales of a layer, with bands or without. -/
theorem leadsWithX_fragment {kind : LayerKind} {f : Fragment}
    (hf : kind.fragment p o s = .ok f) : LeadsWithX (kind.isBanded p) f.scales := by
  cases kind with
  | geometry g =>
    obtain rfl := Except.ok.inj hf
    cases g <;> exact leadsWithX_xScaleAs _ _ _
  | statistic k =>
    cases k with
    | bin2d =>
      obtain ⟨heat, -, hf⟩ := bind_eq_ok.mp hf
      obtain rfl := Except.ok.inj hf
      exact leadsWithX_linearScale _ _ _ _
    | glm | smooth | summary =>
      obtain rfl := Except.ok.inj hf
      exact leadsWithX_xScaleAs _ _ _
    | boxplot | violin =>
      obtain rfl := Except.ok.inj hf
      exact leadsWithX_bandScale _ _ _ _
    | bin | density | qq =>
      obtain rfl := Except.ok.inj hf
      exact leadsWithX_linearScale _ _ _ _

end LayerKind

end PlotScene
