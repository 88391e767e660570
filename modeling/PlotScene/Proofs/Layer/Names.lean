import Mathlib.Data.List.Nodup
import PlotScene.Proofs.Layer.Registry
import PlotScene.Proofs.Reference.Fields

/-!
# The names that layers use

Each kind of layer has names of its own for its marks and for the scales that it does not share.
The scales that it shares are those of the axes, and the color scale of the observations, which is
one and the same in all layers.
-/

namespace PlotScene

open Reference

variable {p : Plot} {o : Presentation} {s : Style}

/-! ## 1. Parts with names -/

/-- Parts that have some of these names, in their order. -/
def NamedAmong (names : List String) (vs : List Value) : Prop :=
  ∃ used : List String, used.Sublist names ∧ vs.map (·.get? "name") =
    used.map fun n => some (.str n)

namespace NamedAmong

variable {names ns ms : List String} {vs ws : List Value}

theorem nil : NamedAmong names [] :=
  ⟨[], List.nil_sublist names, rfl⟩

theorem cons {n : String} {v : Value} (hv : Names n v) (h : NamedAmong ns vs) :
    NamedAmong (n :: ns) (v :: vs) := by
  obtain ⟨used, hused, hvs⟩ := h
  exact ⟨n :: used, hused.cons_cons n, by rw [List.map_cons, List.map_cons, hvs, hv]⟩

theorem skip (n : String) (h : NamedAmong ns vs) : NamedAmong (n :: ns) vs := by
  obtain ⟨used, hused, hvs⟩ := h
  exact ⟨used, hused.cons n, hvs⟩

theorem append (h : NamedAmong ns vs) (h' : NamedAmong ms ws) :
    NamedAmong (ns ++ ms) (vs ++ ws) := by
  obtain ⟨us, hus, hvs⟩ := h
  obtain ⟨us', hus', hws⟩ := h'
  exact ⟨us ++ us', hus.append hus', by rw [List.map_append, List.map_append, hvs, hws]⟩

theorem nodup (h : NamedAmong names vs) (hn : names.Nodup) : (vs.map (·.get? "name")).Nodup := by
  obtain ⟨used, hused, hvs⟩ := h
  rw [hvs]
  exact (hused.nodup hn).map fun a b hab => by simpa using hab

theorem exists_name (h : NamedAmong names vs) {v : Value} (hv : v ∈ vs) :
    ∃ n ∈ names, Names n v := by
  obtain ⟨used, hused, hvs⟩ := h
  have hmem : v.get? "name" ∈ vs.map (·.get? "name") := List.mem_map_of_mem hv
  rw [hvs] at hmem
  obtain ⟨n, hn, heq⟩ := List.mem_map.mp hmem
  exact ⟨n, hused.subset hn, heq.symm⟩

theorem mem (h : NamedAmong names vs) {v : Value} (hv : v ∈ vs) {n : String} (hn : Names n v) :
    n ∈ names := by
  obtain ⟨m, hm, hmv⟩ := h.exists_name hv
  rwa [hn.unique hmv]

theorem eq_of_names (h : NamedAmong names vs) (hn : names.Nodup) {v w : Value} (hv : v ∈ vs)
    (hw : w ∈ vs) {n : String} (hnv : Names n v) (hnw : Names n w) : v = w :=
  List.inj_on_of_nodup_map (h.nodup hn) hv hw (hnv.trans hnw.symm)

end NamedAmong

/-! ## 2. Scales -/

/-- The view that everything can be read in. -/
def View.everything : View where
  source _ := True
  field _ _ := True
  scale _ := True

/-- The names of the scales that only one kind of layer can bring. -/
def LayerKind.scaleNames : LayerKind → List String
  | .geometry _ => []
  | .statistic .glm => [groupColorName Curve.regressionNames.curve]
  | .statistic .smooth => [groupColorName Curve.smoothingNames.curve]
  | .statistic .bin => [groupColorName "bins"]
  | .statistic .summary => [groupColorName "summary_lines"]
  | .statistic .boxplot => ["categoryColor"]
  | .statistic .density => [groupColorName "density"]
  | .statistic .violin => ["violin_width", groupColorName "violin"]
  | .statistic .qq => [groupColorName "qq"]
  | .statistic .bin2d => ["heatColor"]

/-- The names of the scales of the axes. -/
def axisScaleNames : List String := ["xscale", "yscale"]

/-- What a scale of a layer can be: that of an axis, the color scale of the observations, or one
that no other kind of layer brings. -/
inductive LayerScale (s : Style) (own : List String) (c : Value) : Prop where
  | axis {n : String} (hn : n ∈ axisScaleNames) (hc : Names n c)
  | shared (hc : c = colorScale s)
  | own {n : String} (hn : n ∈ own) (hc : Names n c)

namespace LayerScale

variable {own : List String} {c : Value}

theorem x (hc : Names "xscale" c) : LayerScale s own c := axis (by decide) hc

theorem y (hc : Names "yscale" c) : LayerScale s own c := axis (by decide) hc

theorem exists_name (h : LayerScale s own c) :
    ∃ n, Names n c ∧ (n ∈ axisScaleNames ∨ c = colorScale s ∨ n ∈ own) := by
  cases h with
  | axis hn hc => exact ⟨_, hc, Or.inl hn⟩
  | shared hc => exact ⟨"color", by rw [hc]; rfl, Or.inr (Or.inl hc)⟩
  | own hn hc => exact ⟨_, hc, Or.inr (Or.inr hn)⟩

end LayerScale

theorem layerScale_colorScales {own : List String} :
    ∀ c ∈ colorScales p s, LayerScale s own c := by
  intro c hc
  rw [colorScales] at hc
  split at hc
  · exact .shared (List.mem_singleton.mp hc)
  · cases hc

theorem layerScale_positionScales {own : List String} (banded : Bool) :
    ∀ c ∈ positionScales p s banded, LayerScale s own c :=
  List.forall_mem_cons.mpr ⟨.x (get?_xScaleAs_name _ _),
    List.forall_mem_cons.mpr ⟨.y (get?_yScale_name p _ _), layerScale_colorScales⟩⟩

-- A coloring brings the shared color scale, or one that is named after the source.
theorem layerScale_coloring {own : List String} {coloring : Coloring} {source : String}
    (hown : groupColorName source ∈ own) :
    ∀ c ∈ coloring.scales s source, LayerScale s own c := by
  intro c hc
  cases coloring with
  | shared => exact .shared (List.mem_singleton.mp hc)
  | byGroup =>
    obtain rfl := List.mem_singleton.mp hc
    exact .own hown rfl
  | single => cases hc

theorem GeometryKind.layerScale_fragment (g : GeometryKind) {own : List String} :
    ∀ c ∈ (g.fragment p o s).scales, LayerScale s own c := by
  cases g with
  | bar =>
    refine List.forall_mem_cons.mpr ⟨.x (get?_xScaleAs_name _ _),
      List.forall_mem_cons.mpr ⟨.y ?_, layerScale_colorScales⟩⟩
    rw [Names, Value.get?_set_of_ne _ _ (by decide)]
    exact get?_yScale_name p _ _
  | raster =>
    exact List.forall_mem_cons.mpr ⟨.x (get?_xScaleAs_name _ _), layerScale_colorScales⟩
  | interval =>
    exact List.forall_mem_cons.mpr ⟨.x (get?_xScaleAs_name _ _),
      List.forall_mem_cons.mpr ⟨.y (get?_yScale_name p _ _), layerScale_colorScales⟩⟩
  | _ => exact layerScale_positionScales _

theorem Curve.layerScale_regressionFragment (n : Curve.Names) (curves : List RegressionCurve) :
    ∀ c ∈ (Curve.regressionFragment n curves p o s).scales,
      LayerScale s [groupColorName n.curve] c := by
  refine List.forall_mem_cons.mpr ⟨.x (get?_xScaleAs_name _ _),
    List.forall_mem_cons.mpr ⟨.y (get?_yScale_name p _ _), List.forall_mem_append.mpr
      ⟨layerScale_coloring List.mem_cons_self, fun c hc => ?_⟩⟩⟩
  split at hc
  · exact .shared (List.mem_singleton.mp hc)
  · cases hc

/-- The scales of a layer are those of the axes, the shared color scale, and its own. -/
theorem LayerKind.layerScale_fragment {kind : LayerKind} {f : Fragment}
    (hf : kind.fragment p o s = .ok f) : ∀ c ∈ f.scales, LayerScale s kind.scaleNames c := by
  cases kind with
  | geometry g =>
    obtain rfl := Except.ok.inj hf
    exact g.layerScale_fragment
  | statistic k =>
    cases k with
    | bin2d =>
      obtain ⟨heat, hheat, hf⟩ := bind_eq_ok.mp hf
      obtain rfl := Except.ok.inj hf
      refine List.forall_mem_cons.mpr ⟨.x rfl, List.forall_mem_cons.mpr ⟨.y rfl,
        List.forall_mem_singleton.mpr (.own List.mem_cons_self ?_)⟩⟩
      exact (Cell.heatScale_reads (V := .everything) hheat trivial trivial).1
    | glm =>
      obtain rfl := Except.ok.inj hf
      exact Curve.layerScale_regressionFragment _ _
    | smooth =>
      obtain rfl := Except.ok.inj hf
      exact Curve.layerScale_regressionFragment _ _
    | summary =>
      obtain rfl := Except.ok.inj hf
      exact List.forall_mem_cons.mpr ⟨.x (get?_xScaleAs_name _ _),
        List.forall_mem_cons.mpr ⟨.y (get?_yScale_name p _ _),
          layerScale_coloring List.mem_cons_self⟩⟩
    | boxplot =>
      obtain rfl := Except.ok.inj hf
      exact List.forall_mem_cons.mpr ⟨.x rfl, List.forall_mem_cons.mpr
        ⟨.y (get?_yScale_name p _ _), List.forall_mem_singleton.mpr
          (.own List.mem_cons_self rfl)⟩⟩
    | violin =>
      obtain rfl := Except.ok.inj hf
      exact List.forall_mem_cons.mpr ⟨.x rfl, List.forall_mem_cons.mpr
        ⟨.y (get?_yScale_name p _ _), List.forall_mem_cons.mpr ⟨.own List.mem_cons_self rfl,
          layerScale_coloring (List.mem_cons_of_mem _ List.mem_cons_self)⟩⟩⟩
    | _ =>
      obtain rfl := Except.ok.inj hf
      exact List.forall_mem_cons.mpr ⟨.x rfl, List.forall_mem_cons.mpr ⟨.y rfl,
        layerScale_coloring List.mem_cons_self⟩⟩

theorem LayerKind.color_not_mem_scaleNames (kind : LayerKind) : "color" ∉ kind.scaleNames := by
  have h : ∀ k ∈ LayerKind.all, "color" ∉ k.scaleNames := by decide
  exact h kind (LayerKind.mem_all kind)

-- A scale with the name of the color scale is that scale.
theorem LayerScale.eq_colorScale {kind : LayerKind} {c : Value}
    (h : LayerScale s kind.scaleNames c) (hc : Names "color" c) : c = colorScale s := by
  cases h with
  | axis hn hnc =>
    obtain rfl := hnc.unique hc
    exact absurd hn (by decide)
  | shared hshared => exact hshared
  | own hn hnc =>
    obtain rfl := hnc.unique hc
    exact absurd hn kind.color_not_mem_scaleNames

theorem namedAmong_colorScales : NamedAmong ["color"] (colorScales p s) := by
  rw [colorScales]
  split
  · exact .cons rfl .nil
  · exact .nil

theorem namedAmong_coloring (coloring : Coloring) (source : String) :
    NamedAmong [groupColorName source, "color"] (coloring.scales s source) := by
  cases coloring with
  | shared => exact .skip _ (.cons rfl .nil)
  | byGroup => exact .cons rfl .nil
  | single => exact .nil

/-- The names of the scales that a kind of layer can bring. -/
def LayerKind.allScaleNames (kind : LayerKind) : List String :=
  axisScaleNames ++ (kind.scaleNames ++ ["color"])

theorem namedAmong_axes {x y : Value} {own : List String} {cs : List Value}
    (hx : Names "xscale" x) (hy : Names "yscale" y) (h : NamedAmong own cs) :
    NamedAmong (axisScaleNames ++ own) (x :: y :: cs) :=
  .cons hx (.cons hy h)

theorem GeometryKind.namedAmong_scales (g : GeometryKind) :
    NamedAmong (LayerKind.geometry g).allScaleNames (g.fragment p o s).scales := by
  have hstandard (banded : Bool) :
      NamedAmong (axisScaleNames ++ ["color"]) (positionScales p s banded) :=
    namedAmong_axes (get?_xScaleAs_name _ _) (get?_yScale_name p _ _) namedAmong_colorScales
  cases g with
  | bar =>
    refine namedAmong_axes (get?_xScaleAs_name _ _) ?_ namedAmong_colorScales
    rw [Names, Value.get?_set_of_ne _ _ (by decide)]
    exact get?_yScale_name p _ _
  | raster => exact .cons (get?_xScaleAs_name _ _) (.skip _ namedAmong_colorScales)
  | interval =>
    exact namedAmong_axes (get?_xScaleAs_name _ _) (get?_yScale_name p _ _) namedAmong_colorScales
  | _ => exact hstandard _

theorem Curve.namedAmong_scales (n : Curve.Names) (curves : List RegressionCurve) :
    NamedAmong (axisScaleNames ++ [groupColorName n.curve, "color"])
      (Curve.regressionFragment n curves p o s).scales := by
  refine namedAmong_axes (get?_xScaleAs_name _ _) (get?_yScale_name p _ _) ?_
  show NamedAmong _ ((Curve.regressionColoring curves p s).scales s n.curve ++
    if p.grouped && !(Curve.regressionColoring curves p s).isShared then [colorScale s] else [])
  have hpoints (b : Bool) : NamedAmong ["color"] (if b then [colorScale s] else []) := by
    cases b with
    | true => exact .cons rfl .nil
    | false => exact .nil
  cases Curve.regressionColoring curves p s with
  | shared =>
    rw [Coloring.isShared, Bool.not_true, Bool.and_false]
    exact .skip _ (.cons rfl .nil)
  | byGroup => exact .cons rfl (hpoints _)
  | single => exact .skip _ (hpoints _)

/-- The scales of a layer have names that its kind has for them, each at most once. -/
theorem LayerKind.namedAmong_scales {kind : LayerKind} {f : Fragment}
    (hf : kind.fragment p o s = .ok f) : NamedAmong kind.allScaleNames f.scales := by
  cases kind with
  | geometry g =>
    obtain rfl := Except.ok.inj hf
    exact g.namedAmong_scales
  | statistic k =>
    cases k with
    | bin2d =>
      obtain ⟨heat, hheat, hf⟩ := bind_eq_ok.mp hf
      obtain rfl := Except.ok.inj hf
      exact namedAmong_axes rfl rfl
        (.cons (Cell.heatScale_reads (V := .everything) hheat trivial trivial).1 .nil)
    | glm =>
      obtain rfl := Except.ok.inj hf
      exact Curve.namedAmong_scales _ _
    | smooth =>
      obtain rfl := Except.ok.inj hf
      exact Curve.namedAmong_scales _ _
    | summary =>
      obtain rfl := Except.ok.inj hf
      exact namedAmong_axes (get?_xScaleAs_name _ _) (get?_yScale_name p _ _)
        (namedAmong_coloring _ _)
    | boxplot =>
      obtain rfl := Except.ok.inj hf
      exact namedAmong_axes rfl (get?_yScale_name p _ _) (.cons rfl .nil)
    | violin =>
      obtain rfl := Except.ok.inj hf
      exact namedAmong_axes rfl (get?_yScale_name p _ _) (.cons rfl (namedAmong_coloring _ _))
    | _ =>
      obtain rfl := Except.ok.inj hf
      exact namedAmong_axes rfl rfl (namedAmong_coloring _ _)

/-! ## 3. Marks -/

def GeometryKind.markNames : GeometryKind → List String
  | .bar => ["bar_groups", "bars"]
  | g => [g.markStyle.name]

/-- The names of the marks of a regression layer, where only one of those of the line is used. -/
def Curve.Names.markNames (n : Curve.Names) : List String :=
  [n.bands, n.lines, n.line, n.points]

/-- The names that a kind of layer has for its marks. -/
def LayerKind.markNames : LayerKind → List String
  | .geometry g => g.markNames
  | .statistic .glm => Curve.regressionNames.markNames
  | .statistic .smooth => Curve.smoothingNames.markNames
  | .statistic .bin => ["histogram_bars"]
  | .statistic .summary => ["summary_bands", "summary_band", "summary_series", "summary_line"]
  | .statistic .boxplot => ["whiskers", "boxes", "medians"]
  | .statistic .density => ["density_curves", "density_curve"]
  | .statistic .violin => ["violin_plots"]
  | .statistic .qq => ["qq_points"]
  | .statistic .bin2d => ["heatmap_cells"]

theorem names_withTooltip {n : String} {m : Value} (h : Names n m) (expression : String) :
    Names n (withTooltip m o expression) := by
  rw [Names, withTooltip]
  split <;> rwa [Value.get?_set_of_ne _ _ (by decide)]

theorem names_named (n : String) (m : Value) : Names n (named n m) := rfl

theorem names_assembleMark (g : GeometryKind) {parts : MarkParts} (h : parts.name = "") :
    Names g.markStyle.name (assembleMark p o s g parts) := by
  unfold assembleMark
  dsimp only
  generalize (if parts.update.entries.isEmpty = true then _ else _) = encode
  rw [h]
  split
  · apply names_withTooltip
    rfl
  · rfl

-- One of the two names is used, according to whether the mark is drawn group by group.
theorem namedAmong_groupedMark (c : Coloring) (several facet one source : String) (m : Value) :
    NamedAmong [several, one] [groupedMark c several facet one source m] := by
  rw [groupedMark]
  split
  · exact ⟨[several], (List.nil_sublist [one]).cons_cons several, rfl⟩
  · exact ⟨[one], (List.Sublist.refl [one]).cons several, rfl⟩

theorem GeometryKind.namedAmong_fragment (g : GeometryKind) :
    NamedAmong g.markNames (g.fragment p o s).marks := by
  cases g with
  | line =>
    have hline : Names "lines" ((assembleMark p o s .line
        { position := .obj (xyChannels p) }).set "sort" (sortBy "x")) := by
      rw [Names, Value.get?_set_of_ne _ _ (by decide)]
      exact names_assembleMark .line rfl
    show NamedAmong ["lines"] (if p.grouped = true then _ else _)
    split
    · exact .cons rfl .nil
    · exact .cons hline .nil
  | bar =>
    show NamedAmong ["bar_groups", "bars"] (if p.grouped = true then _ else _)
    split
    · exact ⟨["bar_groups"], (List.nil_sublist ["bars"]).cons_cons _, rfl⟩
    · have hbars : Names "bars" (plainBars p o s) := names_assembleMark .bar rfl
      exact ⟨["bars"], (List.Sublist.refl ["bars"]).cons "bar_groups", by
        rw [List.map_singleton, hbars, List.map_singleton]⟩
  | _ => exact .cons (names_assembleMark _ rfl) .nil

theorem Curve.namedAmong_regressionFragment (n : Curve.Names) (curves : List RegressionCurve) :
    NamedAmong n.markNames (Curve.regressionFragment n curves p o s).marks := by
  have hpoints : NamedAmong [n.points] [Curve.observations n p o s] := by
    refine .cons (names_withTooltip ?_ _) .nil
    rfl
  have hlines := (namedAmong_groupedMark (Curve.regressionColoring curves p s) n.lines n.lineFacet
    n.line n.curve (Curve.regressionLine n
      ((Curve.regressionColoring curves p s).encoding n.curve))).append hpoints
  show NamedAmong _ ((if Curve.isBanded curves = true then _ else _) ++ _)
  split
  · -- The bands have one name, however they are drawn.
    have hbands : NamedAmong [n.bands] [groupedMark (Curve.regressionColoring curves p s) n.bands
        n.bandFacet n.bands n.banded (Curve.bandArea n
          ((Curve.regressionColoring curves p s).encoding n.curve))] := by
      rw [groupedMark]
      split
      · exact .cons rfl .nil
      · exact .cons (names_named _ _) .nil
    exact hbands.append hlines
  · obtain ⟨used, hused, hmarks⟩ := hlines
    exact ⟨used, hused.cons n.bands, hmarks⟩

/-- The marks of a layer have names that its kind has for them. -/
theorem LayerKind.namedAmong_fragment {kind : LayerKind} {f : Fragment}
    (hf : kind.fragment p o s = .ok f) : NamedAmong kind.markNames f.marks := by
  cases kind with
  | geometry g =>
    obtain rfl := Except.ok.inj hf
    exact g.namedAmong_fragment
  | statistic k =>
    cases k with
    | bin2d =>
      obtain ⟨heat, -, hf⟩ := bind_eq_ok.mp hf
      obtain rfl := Except.ok.inj hf
      refine .cons (names_withTooltip ?_ _) .nil
      rfl
    | glm =>
      obtain rfl := Except.ok.inj hf
      exact Curve.namedAmong_regressionFragment _ _
    | smooth =>
      obtain rfl := Except.ok.inj hf
      exact Curve.namedAmong_regressionFragment _ _
    | bin =>
      obtain rfl := Except.ok.inj hf
      refine .cons ?_ .nil
      split
      · rfl
      · exact names_named _ _
    | summary =>
      obtain rfl := Except.ok.inj hf
      exact (namedAmong_groupedMark _ _ _ _ _ _).append (namedAmong_groupedMark _ _ _ _ _ _)
    | boxplot =>
      obtain rfl := Except.ok.inj hf
      refine .cons rfl (.cons rfl (.cons (names_withTooltip ?_ _) .nil))
      rfl
    | density =>
      obtain rfl := Except.ok.inj hf
      exact namedAmong_groupedMark _ _ _ _ _ _
    | violin =>
      obtain rfl := Except.ok.inj hf
      exact .cons rfl .nil
    | qq =>
      obtain rfl := Except.ok.inj hf
      refine .cons (names_withTooltip ?_ _) .nil
      rfl

end PlotScene
