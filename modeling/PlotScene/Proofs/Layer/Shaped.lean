import PlotScene.Proofs.Layer.Names
import PlotScene.Proofs.Scene.Shaped

/-!
# The parts of layers are shaped

The marks of every layer are shaped, its axes stand on a side, and where the domain of a scale holds
several fields it holds them as a list.
-/

namespace PlotScene

open Reference

variable {p : Plot} {o : Presentation} {s : Style}

/-- What merging fragments and reading the document ask of a fragment. -/
structure Fragment.Shaped (f : Fragment) : Prop where
  scales : ∀ c ∈ f.scales, Listed (c.getD "domain") "fields"
  axes : ∀ a ∈ f.axes, ∃ side, a.get? "orient" = some (.str side)
  marks : ∀ m ∈ f.marks, PlotScene.Shaped m

/-! ## 1. Scales -/

theorem listed_dataRef (source field : String) (sorted : Bool) :
    Listed (dataRef source field sorted) "fields" := by
  intro x hx
  cases sorted <;> cases hx

theorem listed_unionDomain (refs : List (String × String)) :
    Listed (unionDomain refs) "fields" := by
  intro x hx
  exact ⟨_, (Option.some.inj hx).symm⟩

theorem listed_list (vs : List Value) : Listed (.list vs) "fields" := by
  intro x hx
  cases hx

theorem listed_of_domain {c domain : Value} (hc : c.get? "domain" = some domain)
    (h : Listed domain "fields") : Listed (c.getD "domain") "fields" := by
  rw [Value.getD_of_get? hc]
  exact h

theorem listed_xScaleAs (banded : Bool) (padding : Float) :
    Listed ((xScaleAs banded padding).getD "domain") "fields" := by
  cases banded <;> exact listed_of_domain rfl (listed_dataRef _ _ _)

theorem listed_yScale (domain : Option Value) (zero : Bool)
    (h : ∀ d, domain = some d → Listed d "fields") :
    Listed ((yScale p domain zero).getD "domain") "fields" := by
  cases domain with
  | some d => exact listed_of_domain rfl (h d rfl)
  | none =>
    rw [yScale]
    cases p.yNumeric <;> exact listed_of_domain rfl (listed_dataRef _ _ _)

theorem listed_colorScales :
    ∀ c ∈ colorScales p s, Listed (c.getD "domain") "fields" := by
  rw [colorScales]
  split
  · exact List.forall_mem_singleton.mpr (listed_of_domain rfl (listed_dataRef _ _ _))
  · exact List.forall_mem_nil _

theorem listed_positionScales (banded : Bool) :
    ∀ c ∈ positionScales p s banded, Listed (c.getD "domain") "fields" :=
  List.forall_mem_cons.mpr ⟨listed_xScaleAs _ _, List.forall_mem_cons.mpr
    ⟨listed_yScale none true (fun d hd => by cases hd), listed_colorScales⟩⟩

theorem listed_coloring (coloring : Coloring) (source : String) :
    ∀ c ∈ coloring.scales s source, Listed (c.getD "domain") "fields" := by
  cases coloring with
  | shared | byGroup =>
    exact List.forall_mem_singleton.mpr (listed_of_domain rfl (listed_dataRef _ _ _))
  | single => exact List.forall_mem_nil _

/-- A scale that reads its data is well-formed when it lists its fields. -/
theorem ScaleReads.formed {V : View} {c : Value} (h : ScaleReads V c)
    (hl : Listed (c.getD "domain") "fields") : FormedScale c := by
  obtain ⟨n, hn⟩ := h.name
  refine ⟨Value.isMap_of_get? hn, ?_, hl, fun r hr => ?_⟩
  · rw [Value.getD_of_get? hn]
    exact isScalar_scalar _
  · obtain ⟨d, f, hd, -⟩ := h.domain r hr
    rw [Value.getD_of_get? hd]
    exact isScalar_scalar _

/-! ## 2. Axes -/

theorem orient_bothAxes : ∀ a ∈ bothAxes o, ∃ side, a.get? "orient" = some (.str side) :=
  List.forall_mem_cons.mpr ⟨⟨"bottom", rfl⟩, List.forall_mem_singleton.mpr ⟨"left", rfl⟩⟩

/-! ## 3. Marks -/

@[simp]
theorem updatable_enter (v : Value) : Updatable (.obj [("enter", v)]) :=
  updatable_obj (by simp)

theorem isMap_of_entries {v : Value} (h : v.entries.isEmpty = false) : v.isMap = true := by
  cases v <;> first | rfl | cases h

theorem shaped_assembleMark (g : GeometryKind) (parts : MarkParts) :
    Shaped (assembleMark p o s g parts) := by
  unfold assembleMark
  dsimp only
  generalize hencode : (if parts.update.entries.isEmpty = true then _ else _) = encode
  have hupdatable : Updatable (.obj encode) := by
    rw [← hencode]
    split
    next => exact updatable_enter _
    next hne => exact updatable_obj (by simp [isMap_of_entries (Bool.not_eq_true _ ▸ hne)])
  have hleaf (name type source : String) : Shaped (.obj [("name", .str name), ("type", .str type),
      ("from", .obj [("data", .str source)]), ("encode", .obj encode)]) :=
    Shaped.leaf (by simp [fitsKey_str, hupdatable]) (by simp)
  split
  · exact (hleaf _ _ _).withTooltip o _
  · exact hleaf _ _ _

/-! ## 4. Layers -/

theorem GeometryKind.listed_fragment (g : GeometryKind) :
    ∀ c ∈ (g.fragment p o s).scales, Listed (c.getD "domain") "fields" := by
  cases g with
  | bar =>
    refine List.forall_mem_cons.mpr ⟨listed_xScaleAs _ _,
      List.forall_mem_cons.mpr ⟨?_, listed_colorScales⟩⟩
    rw [Value.getD_set_of_ne _ _ (by decide)]
    exact listed_yScale none true fun d hd => by cases hd
  | raster => exact List.forall_mem_cons.mpr ⟨listed_xScaleAs _ _, listed_colorScales⟩
  | interval =>
    refine List.forall_mem_cons.mpr ⟨listed_xScaleAs _ _,
      List.forall_mem_cons.mpr ⟨listed_yScale _ true fun d hd => ?_, listed_colorScales⟩⟩
    rw [← Option.some.inj hd]
    exact listed_unionDomain _
  | _ => exact listed_positionScales _

theorem GeometryKind.orient_fragment (g : GeometryKind) :
    ∀ a ∈ (g.fragment p o s).axes, ∃ side, a.get? "orient" = some (.str side) := by
  have htwo {bottom left : Value} (hb : bottom.get? "orient" = some (.str "bottom"))
      (hl : left.get? "orient" = some (.str "left")) :
      ∀ a ∈ [bottom, left], ∃ side, a.get? "orient" = some (.str side) :=
    List.forall_mem_cons.mpr ⟨⟨_, hb⟩, List.forall_mem_singleton.mpr ⟨_, hl⟩⟩
  cases g with
  | raster => exact List.forall_mem_singleton.mpr ⟨"bottom", rfl⟩
  | _ => exact htwo rfl rfl

theorem GeometryKind.shaped_marks (g : GeometryKind) :
    ∀ m ∈ (g.fragment p o s).marks, Shaped m := by
  cases g with
  | line =>
    have hline : Shaped ((assembleMark p o s .line { position := .obj (xyChannels p) }).set "sort"
        (sortBy "x")) := (shaped_assembleMark _ _).set (.of_not_mem (by decide) _) (by decide)
    show ∀ m ∈ (if p.grouped = true then _ else _), Shaped m
    split
    · exact List.forall_mem_singleton.mpr (shaped_facetMark (hline.without _) _ _ _ _)
    · exact List.forall_mem_singleton.mpr hline
  | bar =>
    show ∀ m ∈ (if p.grouped = true then _ else _), Shaped m
    split
    · have hcluster : FormedScale clusterScale :=
        (scaleReads_of_domain (V := .everything) (n := "pos") rfl rfl
          (domainReads_dataRef trivial trivial)).formed (listed_of_domain rfl (listed_dataRef _ _ _))
      refine List.forall_mem_singleton.mpr (Shaped.ofObj ?_ ?_)
      · simp [fitsKey_str, hcluster]
      · simp [Value.items, clusteredBars, shaped_assembleMark]
    · exact List.forall_mem_singleton.mpr (shaped_assembleMark _ _)
  | _ => exact List.forall_mem_singleton.mpr (shaped_assembleMark _ _)

theorem Curve.shaped_regressionFragment (n : Curve.Names) (curves : List RegressionCurve) :
    (Curve.regressionFragment n curves p o s).Shaped := by
  have hpoints : Shaped (Curve.observations n p o s) :=
    (Shaped.leaf (by simp [fitsKey_str]) (by simp)).withTooltip o _
  have hline (color : Value) : Shaped (Curve.regressionLine n color) :=
    Shaped.leaf (by simp [fitsKey_str]) (by simp)
  have hband (color : Value) : Shaped (Curve.bandArea n color) :=
    Shaped.leaf (by simp [fitsKey_str]) (by simp)
  refine ⟨?_, orient_bothAxes, List.forall_mem_append.mpr ⟨?_, ?_⟩⟩
  · refine List.forall_mem_cons.mpr ⟨listed_xScaleAs _ _, List.forall_mem_cons.mpr
      ⟨listed_yScale _ true fun d hd => ?_, List.forall_mem_append.mpr
        ⟨listed_coloring _ _, fun c hc => ?_⟩⟩⟩
    · rw [← Option.some.inj hd]
      exact listed_unionDomain _
    · split at hc
      · rw [List.mem_singleton.mp hc]
        exact listed_of_domain rfl (listed_dataRef _ _ _)
      · cases hc
  · split
    · exact List.forall_mem_singleton.mpr (shaped_groupedMark (hband _) _ _ _ _ _)
    · exact List.forall_mem_nil _
  · exact List.forall_mem_cons.mpr ⟨shaped_groupedMark (hline _) _ _ _ _ _,
      List.forall_mem_singleton.mpr hpoints⟩

theorem Category.shaped_meanFragment (curves : List SummaryCurve) :
    (Category.meanFragment curves p o s).Shaped := by
  refine ⟨?_, orient_bothAxes, ?_⟩
  · refine List.forall_mem_cons.mpr ⟨listed_xScaleAs _ _, List.forall_mem_cons.mpr
      ⟨listed_yScale _ true fun d hd => ?_, listed_coloring _ _⟩⟩
    rw [← Option.some.inj hd]
    exact listed_unionDomain _
  · refine List.forall_mem_cons.mpr ⟨shaped_groupedMark ?_ _ _ _ _ _,
      List.forall_mem_singleton.mpr (shaped_groupedMark (Shaped.withTooltip ?_ o _) _ _ _ _ _)⟩
    · exact Shaped.leaf (by simp [fitsKey_str]) (by simp)
    · exact Shaped.leaf (by simp [fitsKey_str]) (by simp)

theorem Category.shaped_boxFragment (boxes : List Box) :
    (Category.boxFragment boxes p o s).Shaped := by
  refine ⟨?_, orient_bothAxes, ?_⟩
  · refine List.forall_mem_cons.mpr ⟨listed_of_domain rfl (listed_dataRef _ _ _),
      List.forall_mem_cons.mpr ⟨listed_yScale _ false fun d hd => ?_,
        List.forall_mem_singleton.mpr (listed_of_domain rfl (listed_dataRef _ _ _))⟩⟩
    rw [← Option.some.inj hd]
    exact listed_unionDomain _
  · refine List.forall_mem_cons.mpr ⟨?_, List.forall_mem_cons.mpr ⟨?_,
      List.forall_mem_singleton.mpr (Shaped.withTooltip ?_ o _)⟩⟩
    · exact Shaped.leaf (by simp [fitsKey_str]) (by simp)
    · exact Shaped.leaf (by simp [fitsKey_str]) (by simp)
    · exact Shaped.leaf (by simp [fitsKey_str]) (by simp)

theorem Category.shaped_violinFragment (points : List ViolinPoint) :
    (Category.violinFragment points p o s).Shaped := by
  refine ⟨?_, orient_bothAxes, List.forall_mem_singleton.mpr (shaped_facetMark ?_ _ _ _ _)⟩
  · refine List.forall_mem_cons.mpr ⟨listed_of_domain rfl (listed_dataRef _ _ _),
      List.forall_mem_cons.mpr ⟨listed_yScale _ true fun d hd => ?_,
        List.forall_mem_cons.mpr ⟨listed_of_domain rfl (listed_list _), listed_coloring _ _⟩⟩⟩
    rw [← Option.some.inj hd]
    exact listed_dataRef _ _ _
  · exact (Shaped.leaf (by simp [fitsKey_str]) (by simp)).withTooltip o _

theorem Cell.listed_heatScale {heat : Value} (h : Cell.heatScale p s = .ok heat) :
    Listed (heat.getD "domain") "fields" := by
  unfold Cell.heatScale at h
  dsimp only at h
  obtain ⟨colors, -, h⟩ := bind_eq_ok.mp h
  split at h
  · rw [← Except.ok.inj h]
    exact listed_of_domain rfl (listed_list _)
  · rw [← Except.ok.inj h]
    exact listed_of_domain rfl (listed_dataRef _ _ _)

/-- Every layer is shaped. -/
theorem LayerKind.shaped_fragment {kind : LayerKind} {f : Fragment}
    (hf : kind.fragment p o s = .ok f) : f.Shaped := by
  -- Behind the scales of two axes over data of their own, most statistics have those of a coloring.
  have haxes {x y : Value} {coloring : Coloring} {source : String}
      (hx : Listed (x.getD "domain") "fields") (hy : Listed (y.getD "domain") "fields") :
      ∀ c ∈ x :: y :: coloring.scales s source, Listed (c.getD "domain") "fields" :=
    List.forall_mem_cons.mpr ⟨hx, List.forall_mem_cons.mpr ⟨hy, listed_coloring _ _⟩⟩
  cases kind with
  | geometry g =>
    obtain rfl := Except.ok.inj hf
    exact ⟨g.listed_fragment, g.orient_fragment, g.shaped_marks⟩
  | statistic k =>
    cases k with
    | glm | smooth =>
      obtain rfl := Except.ok.inj hf
      exact Curve.shaped_regressionFragment _ _
    | summary =>
      obtain rfl := Except.ok.inj hf
      exact Category.shaped_meanFragment _
    | boxplot =>
      obtain rfl := Except.ok.inj hf
      exact Category.shaped_boxFragment _
    | violin =>
      obtain rfl := Except.ok.inj hf
      exact Category.shaped_violinFragment _
    | bin =>
      obtain rfl := Except.ok.inj hf
      have hbars (color : Value) : Shaped (withTooltip (Bin.bars color) o Bin.tooltip) :=
        (Shaped.leaf (by simp [fitsKey_str]) (by simp)).withTooltip o _
      refine ⟨haxes (listed_of_domain rfl (listed_list _)) (listed_of_domain rfl (listed_list _)),
        orient_bothAxes, List.forall_mem_singleton.mpr ?_⟩
      split
      · exact shaped_facetMark (hbars _) _ _ _ _
      · exact (hbars _).named _
    | density =>
      obtain rfl := Except.ok.inj hf
      refine ⟨haxes (listed_of_domain rfl (listed_dataRef _ _ _))
        (listed_of_domain rfl (listed_dataRef _ _ _)), orient_bothAxes,
        List.forall_mem_singleton.mpr (shaped_groupedMark (Shaped.withTooltip ?_ o _) _ _ _ _ _)⟩
      exact Shaped.leaf (by simp [fitsKey_str]) (by simp)
    | qq =>
      obtain rfl := Except.ok.inj hf
      refine ⟨haxes (listed_of_domain rfl (listed_dataRef _ _ _))
        (listed_of_domain rfl (listed_dataRef _ _ _)), orient_bothAxes,
        List.forall_mem_singleton.mpr (Shaped.withTooltip ?_ o _)⟩
      exact Shaped.leaf (by simp [fitsKey_str]) (by simp)
    | bin2d =>
      obtain ⟨heat, hheat, hf⟩ := bind_eq_ok.mp hf
      obtain rfl := Except.ok.inj hf
      refine ⟨List.forall_mem_cons.mpr ⟨listed_of_domain rfl (listed_list _),
        List.forall_mem_cons.mpr ⟨listed_of_domain rfl (listed_list _),
          List.forall_mem_singleton.mpr (Cell.listed_heatScale hheat)⟩⟩, orient_bothAxes,
        List.forall_mem_singleton.mpr (Shaped.withTooltip ?_ o _)⟩
      exact Shaped.leaf (by simp [fitsKey_str]) (by simp)

end PlotScene
