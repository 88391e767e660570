import PlotScene.Layer.Registry
import PlotScene.Proofs.Plot.Strict
import PlotScene.Proofs.Scene.Strict

/-!
# Fragments of layers are strict

The records of a statistic may hold any doubles.  A layer writes them into rows, where what is not
finite becomes null, and into the ends of domains, where it does not count.
-/

namespace PlotScene

open Value

structure Fragment.Strict (f : Fragment) : Prop where
  data : ∀ v ∈ f.data, v.Strict
  scales : ∀ v ∈ f.scales, v.Strict
  axes : ∀ v ∈ f.axes, v.Strict
  marks : ∀ v ∈ f.marks, v.Strict

variable (p : Plot) (o : Presentation) (s : Style)

/-! ## 1. Geometries -/

namespace GeometryKind

@[simp]
theorem strict_xPosition : (xPosition p).Strict := by
  rw [xPosition]
  split <;> simp

theorem strict_xyChannels : ∀ f ∈ xyChannels p, f.2.Strict := by
  simp [xyChannels]

theorem strict_standardFragment (g : GeometryKind) {channels : List (String × Value)}
    (h : ∀ f ∈ channels, f.2.Strict) : (standardFragment g channels p o s).Strict where
  data := List.forall_mem_nil _
  scales := strict_positionScales p s _
  axes := strict_bothAxes o
  marks := List.forall_mem_singleton.mpr
    (strict_assembleMark p o s g { position := strict_obj.mpr h })

theorem strict_lineFragment : (lineFragment p o s).Strict where
  data := List.forall_mem_nil _
  scales := strict_positionScales p s _
  axes := strict_bothAxes o
  marks := by
    have hmark : (assembleMark p o s .line { position := .obj (xyChannels p) }).Strict :=
      strict_assembleMark p o s .line { position := strict_obj.mpr (strict_xyChannels p) }
    have hline := hmark.set (strict_sortBy "x") "sort"
    unfold lineFragment
    dsimp only
    split
    · exact List.forall_mem_singleton.mpr
        (strict_facetMark _ _ _ (Strict.scalar rfl) (hline.without "name"))
    · exact List.forall_mem_singleton.mpr hline

theorem strict_clusteredBars : (clusteredBars p o s).Strict :=
  strict_assembleMark p o s .bar { position := by simp }

theorem strict_plainBars : (plainBars p o s).Strict :=
  strict_assembleMark p o s .bar { position := by simp }

theorem strict_barFragment : (barFragment p o s).Strict where
  data := List.forall_mem_nil _
  scales := by
    have hx : (xScaleAs true clusterPadding).Strict :=
      strict_xScaleAs true (by simp [clusterPadding])
    have hy : ((yScale p).set "round" (.bool true)).Strict :=
      (strict_yScale p (fun d hd => by cases hd) true).set (Strict.scalar rfl) "round"
    exact List.forall_mem_cons.mpr ⟨hx, List.forall_mem_cons.mpr ⟨hy, strict_colorScales p s⟩⟩
  axes := List.forall_mem_cons.mpr ⟨strict_bottomAxis o (by simp),
    List.forall_mem_singleton.mpr (strict_leftAxis o)⟩
  marks := by
    unfold barFragment
    dsimp only
    split
    · simp [clusterScale, strict_clusteredBars]
    · exact List.forall_mem_singleton.mpr (strict_plainBars p o s)

theorem strict_scatteredFragment (g : GeometryKind) {xAxisOptions : Value}
    (h : xAxisOptions.Strict) : (scatteredFragment g xAxisOptions p o s).Strict where
  data := List.forall_mem_nil _
  scales := strict_positionScales p s true
  axes := List.forall_mem_cons.mpr ⟨strict_bottomAxis o h,
    List.forall_mem_singleton.mpr (strict_leftAxis o)⟩
  marks := List.forall_mem_singleton.mpr (strict_assembleMark p o s g { position := by simp })

theorem strict_rasterFragment : (rasterFragment p o s).Strict where
  data := List.forall_mem_nil _
  scales := List.forall_mem_cons.mpr ⟨strict_xScale p, strict_colorScales p s⟩
  axes := List.forall_mem_singleton.mpr (strict_bottomAxis o (Strict.scalar rfl))
  marks := List.forall_mem_singleton.mpr
    (strict_assembleMark p o s .raster { position := by simp })

theorem strict_intervalFragment : (intervalFragment p o s).Strict where
  data := List.forall_mem_nil _
  scales := List.forall_mem_cons.mpr ⟨strict_xScale p, List.forall_mem_cons.mpr
    ⟨strict_yScale p (fun d hd => by cases hd; simp) true, strict_colorScales p s⟩⟩
  axes := strict_bothAxes o
  marks := List.forall_mem_singleton.mpr
    (strict_assembleMark p o s .interval { position := by simp })

theorem strict_fragment (g : GeometryKind) : (g.fragment p o s).Strict := by
  cases g with
  | point => exact strict_standardFragment p o s .point (strict_xyChannels p)
  | line => exact strict_lineFragment p o s
  | bar => exact strict_barFragment p o s
  | jitter => exact strict_scatteredFragment p o s .jitter (Strict.scalar rfl)
  | swarm => exact strict_scatteredFragment p o s .swarm (by simp)
  | raster => exact strict_rasterFragment p o s
  | interval => exact strict_intervalFragment p o s
  | abline => exact strict_standardFragment p o s .abline (strict_xyChannels p)
  | vline => exact strict_standardFragment p o s .vline (by simp)
  | hline => exact strict_standardFragment p o s .hline (by simp)
  | polygon =>
    refine strict_standardFragment p o s .polygon (List.forall_mem_append.mpr ⟨?_, by simp⟩)
    exact strict_xyChannels p

end GeometryKind

/-! ## 2. Curves -/

namespace Curve

-- The bounds at a point of a curve are scalars, doubles or null.
theorem scalar_of_mem_bounds {c : RegressionCurve} {b : Value × Value} (h : b ∈ bounds c) :
    (∃ l, b.1 = .scalar l) ∧ ∃ u, b.2 = .scalar u := by
  rw [bounds] at h
  split at h
  · rw [← List.map_uncurry_zip_eq_zipWith] at h
    obtain ⟨⟨l, u⟩, -, rfl⟩ := List.mem_map.mp h
    exact ⟨⟨.float l, rfl⟩, ⟨.float u, rfl⟩⟩
  · obtain ⟨x, -, rfl⟩ := List.mem_map.mp h
    exact ⟨⟨.null, rfl⟩, ⟨.null, rfl⟩⟩

theorem strict_regressionRows (coloring : Coloring) (c : RegressionCurve) :
    ∀ v ∈ regressionRows p coloring c, v.Strict := by
  intro v hv
  obtain ⟨⟨⟨x, y⟩, lower, upper⟩, hmem, rfl⟩ := List.mem_map.mp hv
  have hbounds := scalar_of_mem_bounds (List.of_mem_zip hmem).2
  exact strict_row coloring p c.group (by simpa using hbounds)

theorem strict_bandSource (n : Names) : (bandSource n).Strict := by
  simp [bandSource]

theorem strict_bandArea (n : Names) {color : Value} (h : color.Strict) :
    (bandArea n color).Strict := by
  simp [bandArea, h]

theorem strict_regressionLine (n : Names) {color : Value} (h : color.Strict) :
    (regressionLine n color).Strict := by
  simp [regressionLine, h]

theorem strict_observations (n : Names) : (observations n p o s).Strict := by
  refine strict_withTooltip ?_ o _
  have hfill : (if p.grouped then scaled "color" "color"
      else constant (.str s.markColor)).Strict := by
    split <;> simp
  simp [hfill]

theorem strict_regressionFragment (n : Names) (curves : List RegressionCurve) :
    (regressionFragment n curves p o s).Strict := by
  unfold regressionFragment
  refine ⟨?_, ?_, strict_bothAxes o, ?_⟩
  · refine List.forall_mem_cons.mpr ⟨strict_source _ fun v hv => ?_, ?_⟩
    · obtain ⟨c, -, hv⟩ := List.mem_flatMap.mp hv
      exact strict_regressionRows p _ c v hv
    · split <;> simp [strict_bandSource]
  · refine List.forall_mem_cons.mpr ⟨strict_xScale p, List.forall_mem_cons.mpr ⟨?_, ?_⟩⟩
    · exact strict_yScale p (fun d hd => Option.some.inj hd ▸ strict_unionDomain _) true
    · refine List.forall_mem_append.mpr ⟨strict_coloringScales _ s _, ?_⟩
      split <;> simp
  · refine List.forall_mem_append.mpr ⟨?_, ?_⟩
    · split
      · exact List.forall_mem_singleton.mpr
          (strict_groupedMark _ _ _ _ _ (strict_bandArea n (strict_encoding _ _)))
      · exact List.forall_mem_nil _
    · exact List.forall_mem_cons.mpr
        ⟨strict_groupedMark _ _ _ _ _ (strict_regressionLine n (strict_encoding _ _)),
          List.forall_mem_singleton.mpr (strict_observations p o s n)⟩

theorem strict_densityFragment (curves : List DensityCurve) :
    (densityFragment curves p o s).Strict := by
  unfold densityFragment
  refine ⟨?_, ?_, strict_bothAxes o, ?_⟩
  · refine List.forall_mem_singleton.mpr (strict_source _ fun v hv => ?_)
    obtain ⟨c, -, hv⟩ := List.mem_flatMap.mp hv
    rw [densityRows, ← List.map_uncurry_zip_eq_zipWith] at hv
    obtain ⟨⟨x, y⟩, -, rfl⟩ := List.mem_map.mp hv
    exact strict_row _ p c.group (by simp)
  · exact List.forall_mem_cons.mpr ⟨by simp, List.forall_mem_cons.mpr
      ⟨by simp, strict_coloringScales _ s _⟩⟩
  · refine List.forall_mem_singleton.mpr (strict_groupedMark _ _ _ _ _ ?_)
    exact strict_withTooltip (by simp) o _

theorem strict_quantileFragment (points : List QuantilePoint) :
    (quantileFragment points p o s).Strict := by
  unfold quantileFragment
  refine ⟨?_, ?_, strict_bothAxes o, ?_⟩
  · refine List.forall_mem_singleton.mpr (strict_source _ fun v hv => ?_)
    obtain ⟨q, -, rfl⟩ := List.mem_map.mp hv
    exact strict_row _ p q.group (by simp)
  · exact List.forall_mem_cons.mpr ⟨by simp, List.forall_mem_cons.mpr
      ⟨by simp, strict_coloringScales _ s _⟩⟩
  · exact List.forall_mem_singleton.mpr (strict_withTooltip (by simp) o _)

end Curve

/-! ## 3. Bins and cells -/

namespace Bin

theorem strict_scales (bins : List BinGroup) : ∀ v ∈ scales bins, v.Strict := by
  have hx : ∀ v ∈ extent (bins.flatMap fun b => b.edges) unitInterval, v.Strict :=
    strict_extent strict_unitInterval
  have hy : ∀ v ∈ extent (bins.flatMap fun b => b.counts) unitInterval, v.Strict :=
    strict_extent strict_unitInterval
  unfold scales
  simp only [List.forall_mem_cons, strict_linearScale, strict_list]
  refine ⟨⟨⟨hx, by simp⟩, by simp⟩, ⟨⟨⟨by simp, ?_, by simp⟩, by simp⟩, by simp⟩, by simp⟩
  -- An extent has two ends; the default for a missing one is never used, but strict as well.
  cases htop : (extent _ _)[1]? with
  | none => simp
  | some v => exact hy v (List.mem_of_getElem? htop)

theorem strict_rows (coloring : Coloring) (b : BinGroup) :
    ∀ v ∈ rows p coloring b, v.Strict := by
  intro v hv
  obtain ⟨⟨⟨center, count⟩, left, right⟩, -, rfl⟩ := List.mem_map.mp hv
  exact strict_row coloring p b.group (by simp)

theorem strict_fragment (bins : List BinGroup) : (fragment bins p o s).Strict := by
  have hmark (color : Value) (h : color.Strict) : (withTooltip (bars color) o tooltip).Strict :=
    strict_withTooltip (by simp [bars, h]) o tooltip
  unfold fragment
  refine ⟨?_, ?_, strict_bothAxes o, ?_⟩
  · refine List.forall_mem_singleton.mpr (strict_source _ fun v hv => ?_)
    obtain ⟨b, -, hv⟩ := List.mem_flatMap.mp hv
    exact strict_rows p _ b v hv
  · exact List.forall_mem_append.mpr ⟨strict_scales bins, strict_coloringScales _ s _⟩
  · refine List.forall_mem_singleton.mpr ?_
    split
    · exact strict_facetMark _ _ _ (Strict.scalar rfl) (hmark _ (strict_encoding _ _))
    · exact strict_named _ (hmark _ (strict_encoding _ _))

end Bin

namespace Cell

theorem strict_cellRow (c : Cell) : c.row.Strict := by
  apply strict_obj.mpr
  intro f hf
  obtain ⟨g, -, rfl⟩ := List.mem_map.mp hf
  exact strict_plain_scalar (.float g.2)

theorem strict_heatScale {p : Plot} {s : Style} {heat : Value}
    (hc : p.continuousColor.Finite) (h : heatScale p s = .ok heat) : heat.Strict := by
  unfold heatScale at h
  dsimp only at h
  obtain ⟨colors, -, h⟩ := bind_eq_ok.mp h
  split at h
  next low high hlimits =>
    split at hlimits
    next =>
      obtain ⟨hlow, hhigh⟩ := hc low high hlimits
      rw [← Except.ok.inj h]
      exact Strict.setAll (by simp) (by simp [hlow, hhigh])
    next => cases hlimits
  next =>
    rw [← Except.ok.inj h]
    simp

theorem strict_fragment {p : Plot} {o : Presentation} {s : Style} {cells : List Cell}
    {f : Fragment} (hc : p.continuousColor.Finite) (hf : fragment cells p o s = .ok f) :
    f.Strict := by
  obtain ⟨heat, hheat, hf⟩ := bind_eq_ok.mp hf
  obtain rfl := Except.ok.inj hf
  have hextent (xs : List Float) : (Value.list (extent xs unitInterval)).Strict :=
    strict_list.mpr (strict_extent strict_unitInterval)
  refine ⟨?_, ?_, strict_bothAxes o, ?_⟩
  · refine List.forall_mem_singleton.mpr (strict_source _ fun v hv => ?_)
    obtain ⟨c, -, rfl⟩ := List.mem_map.mp hv
    exact strict_cellRow c
  · simp only [List.forall_mem_cons, strict_linearScale]
    exact ⟨⟨⟨hextent _, by simp⟩, by simp⟩, ⟨⟨hextent _, by simp⟩, by simp⟩,
      strict_heatScale hc hheat, List.forall_mem_nil _⟩
  · exact List.forall_mem_singleton.mpr (strict_withTooltip (by simp) o _)

end Cell

/-! ## 4. Categories -/

namespace Category

@[simp]
theorem strict_centered (field : String) (offset : List (String × Value)) :
    (centered field offset).Strict ↔ ∀ f ∈ offset, f.2.Strict := by
  simp [centered]

theorem scalar_meanX (x : Float) : ∃ k, meanX p x = .scalar k := by
  rw [meanX]
  split
  · exact ⟨_, rfl⟩
  · split <;> exact ⟨_, rfl⟩

theorem strict_meanRow (coloring : Coloring) (group : Nat) (m : Mean) :
    (meanRow p coloring group m).Strict :=
  strict_row coloring p group (by simpa using scalar_meanX p m.x)

theorem strict_boundRows (coloring : Coloring) (group : Nat) (m : Mean) :
    ∀ v ∈ boundRows p coloring group m, v.Strict := by
  intro v hv
  obtain ⟨b, -, rfl⟩ := List.mem_map.mp hv
  exact strict_row coloring p group (by simpa using scalar_meanX p m.x)

theorem strict_meanPosition : (meanPosition p).Strict := by
  rw [meanPosition]
  split <;> simp

theorem strict_boundSource (coloring : Coloring) {rows : List Value} (h : ∀ v ∈ rows, v.Strict) :
    (boundSource coloring rows).Strict := by
  simpa [boundSource] using h

theorem strict_meanBand {color : Value} (h : color.Strict) : (meanBand p color).Strict := by
  simp [meanBand, strict_meanPosition, h]

theorem strict_meanLine {color : Value} (h : color.Strict) : (meanLine p color).Strict := by
  simp [meanLine, strict_meanPosition, h]

theorem strict_meanFragment (curves : List SummaryCurve) :
    (meanFragment curves p o s).Strict := by
  unfold meanFragment
  refine ⟨?_, ?_, strict_bothAxes o, ?_⟩
  · refine List.forall_mem_cons.mpr ⟨strict_source _ fun v hv => ?_,
      List.forall_mem_singleton.mpr (strict_boundSource _ fun v hv => ?_)⟩
    · obtain ⟨c, -, hv⟩ := List.mem_flatMap.mp hv
      obtain ⟨m, -, rfl⟩ := List.mem_map.mp hv
      exact strict_meanRow p _ c.group m
    · obtain ⟨c, -, hv⟩ := List.mem_flatMap.mp hv
      obtain ⟨m, -, hv⟩ := List.mem_flatMap.mp hv
      exact strict_boundRows p _ c.group m v hv
  · refine List.forall_mem_cons.mpr ⟨strict_xScale p, List.forall_mem_cons.mpr
      ⟨?_, strict_coloringScales _ s _⟩⟩
    exact strict_yScale p (fun d hd => Option.some.inj hd ▸ strict_unionDomain _) true
  · refine List.forall_mem_cons.mpr
      ⟨strict_groupedMark _ _ _ _ _ (strict_meanBand p (strict_encoding _ _)), ?_⟩
    refine List.forall_mem_singleton.mpr (strict_groupedMark _ _ _ _ _ ?_)
    exact strict_withTooltip (strict_meanLine p (strict_encoding _ _)) o _

theorem strict_boxFields (b : Box) : ∀ f ∈ boxFields p b, f.2.Strict := by
  simp [boxFields]

theorem strict_boxRow (b : Box) : (boxRow p b).Strict :=
  strict_obj.mpr (List.forall_mem_append.mpr ⟨strict_boxFields p b, by simp⟩)

theorem strict_whiskerRow (b : Box) (type : String) (start stop : Float) :
    (whiskerRow p b type start stop).Strict :=
  strict_obj.mpr (List.forall_mem_append.mpr ⟨strict_boxFields p b, by simp⟩)

theorem strict_medianRow (b : Box) : (medianRow p b).Strict :=
  strict_obj.mpr (List.forall_mem_append.mpr ⟨strict_boxFields p b, by simp⟩)

theorem strict_boxMarks : ∀ v ∈ [whiskerMark, boxMark, medianMark o], v.Strict := by
  have hstroke : boxStroke.Strict := by simp [boxStroke]
  have hmedian : (medianMark o).Strict := strict_withTooltip (by simp) o _
  simp [whiskerMark, boxMark, hstroke, hmedian]

theorem strict_boxFragment (boxes : List Box) : (boxFragment boxes p o s).Strict := by
  unfold boxFragment
  refine ⟨?_, ?_, strict_bothAxes o, strict_boxMarks o⟩
  · simp only [List.forall_mem_cons]
    refine ⟨strict_source _ fun v hv => ?_, strict_source _ fun v hv => ?_,
      strict_source _ fun v hv => ?_, List.forall_mem_nil _⟩
    · obtain ⟨b, -, rfl⟩ := List.mem_map.mp hv
      exact strict_boxRow p b
    · obtain ⟨b, -, hv⟩ := List.mem_flatMap.mp hv
      have hrows : ∀ v ∈ whiskerRows p b, v.Strict := by
        simp [whiskerRows, strict_whiskerRow]
      exact hrows v hv
    · obtain ⟨b, -, rfl⟩ := List.mem_map.mp hv
      exact strict_medianRow p b
  · have hy : (yScale p (some boxDomain) false).Strict :=
      strict_yScale p (fun d hd => Option.some.inj hd ▸ strict_unionDomain _) false
    simp only [List.forall_mem_cons, strict_bandScale]
    exact ⟨⟨strict_dataRef _ _ _, by simp [bandPadding]⟩, hy, strict_ordinalScale s _ _ _,
      List.forall_mem_nil _⟩

theorem strict_violinWidthScale : violinWidthScale.Strict := by
  have hneg : Float.isFinite (-0.4) = true := Double.isFinite_neg (by simp)
  simp [violinWidthScale, hneg]

theorem strict_violinArea {color : Value} (h : color.Strict) : (violinArea color).Strict := by
  simp [violinArea, h]

theorem strict_violinFragment (points : List ViolinPoint) :
    (violinFragment points p o s).Strict := by
  unfold violinFragment
  refine ⟨?_, ?_, strict_bothAxes o, ?_⟩
  · refine List.forall_mem_singleton.mpr (strict_source _ fun v hv => ?_)
    obtain ⟨q, -, rfl⟩ := List.mem_map.mp hv
    exact strict_row _ p q.group (by simp)
  · have hy : (yScale p (some (dataRef "violin" "y"))).Strict :=
      strict_yScale p (fun d hd => Option.some.inj hd ▸ strict_dataRef _ _ _) true
    exact List.forall_mem_cons.mpr ⟨by simp [bandPadding], List.forall_mem_cons.mpr
      ⟨hy, List.forall_mem_cons.mpr ⟨strict_violinWidthScale, strict_coloringScales _ s _⟩⟩⟩
  · refine List.forall_mem_singleton.mpr (strict_facetMark _ _ _ (strict_strings _) ?_)
    exact strict_withTooltip (strict_violinArea (strict_encoding _ _)) o _

end Category

/-! ## 5. All kinds -/

/-- Whatever doubles the records of a plot hold, the fragment of each layer is strict. -/
theorem LayerKind.strict_fragment {p : Plot} {o : Presentation} {s : Style} {kind : LayerKind}
    {f : Fragment} (hc : p.continuousColor.Finite) (hf : kind.fragment p o s = .ok f) :
    f.Strict := by
  cases kind with
  | geometry g =>
    obtain rfl := Except.ok.inj hf
    exact g.strict_fragment p o s
  | statistic k =>
    cases k with
    | bin2d => exact Cell.strict_fragment hc hf
    | glm =>
      obtain rfl := Except.ok.inj hf
      exact Curve.strict_regressionFragment p o s _ _
    | smooth =>
      obtain rfl := Except.ok.inj hf
      exact Curve.strict_regressionFragment p o s _ _
    | bin =>
      obtain rfl := Except.ok.inj hf
      exact Bin.strict_fragment p o s _
    | summary =>
      obtain rfl := Except.ok.inj hf
      exact Category.strict_meanFragment p o s _
    | boxplot =>
      obtain rfl := Except.ok.inj hf
      exact Category.strict_boxFragment p o s _
    | density =>
      obtain rfl := Except.ok.inj hf
      exact Curve.strict_densityFragment p o s _
    | violin =>
      obtain rfl := Except.ok.inj hf
      exact Category.strict_violinFragment p o s _
    | qq =>
      obtain rfl := Except.ok.inj hf
      exact Curve.strict_quantileFragment p o s _

end PlotScene
