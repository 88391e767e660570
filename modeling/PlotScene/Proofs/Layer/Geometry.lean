import PlotScene.Proofs.Layer.Scales

/-!
# Layers of observations read the table

Every geometry reads the table of observations: the fields of the axes, the bounds of intervals, and
the color where colors group.
-/

namespace PlotScene

/-! ## 1. Marks of geometries -/

section

variable {F S : String → Prop}

theorem encodes_colorEncoding {p : Plot} {s : Style}
    (hc : p.grouped = true → S "color" ∧ F "color") : Encodes F S (colorEncoding p s) := by
  rw [colorEncoding]
  split
  next hg => simpa using hc hg
  next => simp

variable {p : Plot} {s : Style} {parts : MarkParts}

theorem flat_assembleMark (o : Presentation) (g : GeometryKind)
    (hpos : Encodes F S parts.position) (hupdate : Encodes F S parts.update)
    (hover : parts.overrides = .null) (hc : p.grouped = true → S "color" ∧ F "color") :
    Flat F S (assembleMark p o s g parts) :=
  flat_iff_leaf.mpr (leaf_assembleMark (channelProperty_encodes F S) g hpos hupdate hover
    (encodes_colorEncoding hc) (encodes_signalRef _))

theorem getD_assembleMark_from (p : Plot) (o : Presentation) (s : Style) (g : GeometryKind)
    (parts : MarkParts) :
    (assembleMark p o s g parts).getD "from" = .obj [("data", .str parts.source)] := by
  unfold assembleMark
  dsimp only
  generalize (if parts.update.entries.isEmpty = true then _ else _) = encode
  split
  · rw [getD_withTooltip_of_ne _ _ _ (by decide)]
    rfl
  · rfl

end

/-! ## 2. Fragments of geometries -/

namespace GeometryKind

variable {V : View} {p : Plot} {o : Presentation} {s : Style}

theorem encodes_xPosition {F S : String → Prop} (hx : S "xscale" ∧ F "x") :
    Encodes F S (xPosition p) := by
  rw [xPosition]
  split <;> simpa using hx

-- A mark over the table reads what its position and its changes read, and the color.
theorem markReads_assembleMark {g : GeometryKind} {parts : MarkParts} (h : ReadsTable V p)
    (hc : V.HasScales (colorScales p s)) (hsource : parts.source = "table")
    (hover : parts.overrides = .null)
    (hpos : Encodes (V.field "table") V.scale parts.position)
    (hupdate : Encodes (V.field "table") V.scale parts.update) :
    MarkReads V (assembleMark p o s g parts) := by
  refine MarkReads.flat (d := "table") ?_ h.source
    (flat_assembleMark o g hpos hupdate hover fun hg => ⟨hc.color hg, h.color hg⟩)
  rw [getD_assembleMark_from, hsource]

theorem scales_of_position {banded : Bool} (hS : V.HasScales (positionScales p s banded)) :
    V.scale "xscale" ∧ V.scale "yscale" ∧ V.HasScales (colorScales p s) := by
  refine ⟨hS _ List.mem_cons_self _ (get?_xScaleAs_name banded bandPadding), ?_, ?_⟩
  · exact hS _ (List.mem_cons_of_mem _ List.mem_cons_self) _ (get?_yScale_name p none true)
  · exact hS.mono fun c hc => List.mem_cons_of_mem _ (List.mem_cons_of_mem _ hc)

theorem reads_standardFragment {g : GeometryKind} {channels : List (String × Value)}
    (h : ReadsTable V p) (hS : V.HasScales (standardFragment g channels p o s).scales)
    (hpos : V.scale "xscale" → V.scale "yscale" →
      Encodes (V.field "table") V.scale (.obj channels)) :
    (standardFragment g channels p o s).Reads V := by
  obtain ⟨hx, hy, hc⟩ := scales_of_position hS
  refine ⟨scaleReads_positionScales h _, axes_both o hx hy, fun m hm => ?_⟩
  obtain rfl := List.mem_singleton.mp hm
  exact markReads_assembleMark h hc rfl rfl (hpos hx hy) (encodes_scalar _)

theorem encodes_xyChannels {F S : String → Prop} (hx : S "xscale" ∧ F "x")
    (hy : S "yscale" ∧ F "y") : ∀ c ∈ xyChannels p, Encodes F S c.2 := by
  simpa [xyChannels] using ⟨encodes_xPosition hx, hy⟩

theorem reads_lineFragment (h : ReadsTable V p) (hS : V.HasScales (lineFragment p o s).scales) :
    (lineFragment p o s).Reads V := by
  obtain ⟨hx, hy, hc⟩ := scales_of_position hS
  have hflat : Flat (V.field "table") V.scale
      ((assembleMark p o s .line { position := .obj (xyChannels p) }).set "sort" (sortBy "x")) := by
    refine Flat.set ?_ _ (by decide)
    refine flat_assembleMark o .line ?_ (encodes_scalar _) rfl fun hg => ⟨hc.color hg, h.color hg⟩
    exact (encodes_group rfl).mpr (encodes_xyChannels ⟨hx, h.x⟩ ⟨hy, h.y⟩)
  refine ⟨scaleReads_positionScales h _, axes_both o hx hy, fun m hm => ?_⟩
  simp only [lineFragment] at hm
  split at hm
  next hg =>
    obtain rfl := List.mem_singleton.mp hm
    refine markReads_facetMark h.source ?_ (hflat.without (by decide))
    intro x hx
    obtain rfl := List.mem_singleton.mp hx
    exact ⟨"color", rfl, h.color hg⟩
  next =>
    obtain rfl := List.mem_singleton.mp hm
    refine MarkReads.flat (d := "table") ?_ h.source hflat
    rw [Value.getD_set_of_ne _ _ (by decide), getD_assembleMark_from]

-- The bars of a cluster read the part of the table that has their x.
theorem reads_clusteredBars {W : View} (hs : W.source "facet") (hy : W.field "facet" "y")
    (hc : W.field "facet" "color") (hpos : W.scale "pos") (hyscale : W.scale "yscale")
    (hcolor : W.scale "color") : MarkReads W (clusteredBars p o s) := by
  apply MarkReads.flat (d := "facet") (getD_assembleMark_from _ _ _ _ _) hs
  refine flat_assembleMark o .bar ?_ (encodes_scalar _) rfl fun _ => ⟨hcolor, hc⟩
  have hwidth : Encodes (W.field "facet") W.scale
      (.obj [("scale", .str "pos"), ("band", .int 1)]) :=
    (encodes_unfielded (by decide) (by decide)).mpr hpos
  apply (encodes_group rfl).mpr
  simpa using ⟨⟨hpos, hc⟩, hwidth, ⟨hyscale, hy⟩, hyscale⟩

theorem reads_plainBars (h : ReadsTable V p) (hc : V.HasScales (colorScales p s))
    (hx : V.scale "xscale") (hy : V.scale "yscale") : MarkReads V (plainBars p o s) := by
  have hwidth : Encodes (V.field "table") V.scale
      (.obj [("scale", .str "xscale"), ("band", .int 1)]) :=
    (encodes_unfielded (by decide) (by decide)).mpr hx
  refine markReads_assembleMark h hc rfl rfl ((encodes_group rfl).mpr ?_) (encodes_scalar _)
  simpa using ⟨⟨hx, h.x⟩, hwidth, ⟨hy, h.y⟩, hy⟩

theorem reads_barFragment (h : ReadsTable V p) (hS : V.HasScales (barFragment p o s).scales) :
    (barFragment p o s).Reads V := by
  have hx : V.scale "xscale" := hS _ List.mem_cons_self _ (get?_xScaleAs_name true clusterPadding)
  have hy : V.scale "yscale" := by
    apply hS _ (List.mem_cons_of_mem _ List.mem_cons_self) _
    rw [Value.get?_set_of_ne _ _ (by decide)]
    exact get?_yScale_name p none true
  have hc : V.HasScales (colorScales p s) :=
    hS.mono fun c hc => List.mem_cons_of_mem _ (List.mem_cons_of_mem _ hc)
  refine ⟨fun c hm => ?_, fun a ha => ?_, fun m hm => ?_⟩
  · rcases List.mem_cons.mp hm with rfl | hm
    · exact scaleReads_xScaleAs h true _
    rcases List.mem_cons.mp hm with rfl | hm
    · show ScaleReads V ((yScale p).setAll [("round", .bool true)])
      exact scaleReads_setAll (scaleReads_yScale h none true fun d hd => by cases hd) (by decide)
    · exact scaleReads_colorScales h c hm
  · rcases List.mem_cons.mp ha with rfl | ha
    · exact ⟨"xscale", rfl, hx⟩
    · obtain rfl := List.mem_singleton.mp ha
      exact ⟨"yscale", rfl, hy⟩
  · simp only [barFragment] at hm
    split at hm
    next hg =>
      obtain rfl := List.mem_singleton.mp hm
      -- A cluster is a facet of the table with a scale of its own over the colors in it.
      refine MarkReads.facet (n := "facet") (d := "table")
        (k := [clusteredBars p o s]) rfl rfl rfl rfl h.source ?_ ?_ ?_ rfl ?_
      · intro x hx
        obtain rfl := List.mem_singleton.mp hx
        exact ⟨"x", rfl, h.x⟩
      · intro c hc
        obtain rfl := List.mem_singleton.mp hc
        exact scaleReads_of_domain (n := "pos") rfl rfl
          (domainReads_dataRef (Or.inl rfl) (by rw [View.inside_field]; exact h.color hg))
      · apply (encodes_enter rfl).mpr
        simpa using ⟨Or.inr hx, List.mem_singleton.mpr rfl⟩
      · intro c hm
        obtain rfl := List.mem_singleton.mp hm
        refine reads_clusteredBars (Or.inl rfl) ?_ ?_ (Or.inl ⟨_, List.mem_singleton.mpr rfl, rfl⟩)
          (Or.inr hy) (Or.inr (hc.color hg))
        · rw [View.inside_field]
          exact h.y
        · rw [View.inside_field]
          exact h.color hg
    next =>
      obtain rfl := List.mem_singleton.mp hm
      exact reads_plainBars h hc hx hy

theorem reads_scatteredFragment {g : GeometryKind} {options : Value} (h : ReadsTable V p)
    (hS : V.HasScales (scatteredFragment g options p o s).scales)
    (haxis : (bottomAxis o options).get? "scale" = some (.str "xscale")) :
    (scatteredFragment g options p o s).Reads V := by
  obtain ⟨hx, hy, hc⟩ := scales_of_position hS
  refine ⟨scaleReads_positionScales h _, fun a ha => ?_, fun m hm => ?_⟩
  · rcases List.mem_cons.mp ha with rfl | ha
    · exact ⟨"xscale", haxis, hx⟩
    · obtain rfl := List.mem_singleton.mp ha
      exact ⟨"yscale", rfl, hy⟩
  · obtain rfl := List.mem_singleton.mp hm
    refine markReads_assembleMark h hc rfl rfl ((encodes_group rfl).mpr ?_)
      ((encodes_group rfl).mpr ?_)
    · simpa using ⟨hy, h.y⟩
    · simp

theorem reads_rasterFragment (h : ReadsTable V p) (hS : V.HasScales (rasterFragment p o s).scales) :
    (rasterFragment p o s).Reads V := by
  have hx : V.scale "xscale" := hS _ List.mem_cons_self _ (get?_xScaleAs_name _ bandPadding)
  refine ⟨fun c hc => ?_, fun a ha => ?_, fun m hm => ?_⟩
  · rcases List.mem_cons.mp hc with rfl | hc
    · exact scaleReads_xScaleAs h _ _
    · exact scaleReads_colorScales h c hc
  · obtain rfl := List.mem_singleton.mp ha
    exact ⟨"xscale", rfl, hx⟩
  · obtain rfl := List.mem_singleton.mp hm
    refine markReads_assembleMark h (hS.mono fun c hc => List.mem_cons_of_mem _ hc) rfl rfl
      ((encodes_group rfl).mpr ?_) (encodes_scalar _)
    simpa using encodes_xPosition ⟨hx, h.x⟩

theorem reads_intervalFragment (h : ReadsTable V p)
    (hS : V.HasScales (intervalFragment p o s).scales) : (intervalFragment p o s).Reads V := by
  have hx : V.scale "xscale" := hS _ List.mem_cons_self _ (get?_xScaleAs_name _ bandPadding)
  have hy : V.scale "yscale" :=
    hS _ (List.mem_cons_of_mem _ List.mem_cons_self) _ (get?_yScale_name p (some _) true)
  have hc : V.HasScales (colorScales p s) :=
    hS.mono fun c hc => List.mem_cons_of_mem _ (List.mem_cons_of_mem _ hc)
  refine ⟨fun c hm => ?_, axes_both o hx hy, fun m hm => ?_⟩
  · rcases List.mem_cons.mp hm with rfl | hm
    · exact scaleReads_xScaleAs h _ _
    rcases List.mem_cons.mp hm with rfl | hm
    · apply scaleReads_yScale h _ true
      intro d hd
      obtain rfl := Option.some.inj hd
      apply domainReads_unionDomain
      simpa using ⟨⟨h.source, h.y⟩, ⟨h.source, h.low⟩, h.source, h.high⟩
    · exact scaleReads_colorScales h c hm
  · obtain rfl := List.mem_singleton.mp hm
    refine markReads_assembleMark h hc rfl rfl ((encodes_group rfl).mpr ?_) (encodes_scalar _)
    simpa using ⟨encodes_xPosition ⟨hx, h.x⟩, ⟨hy, h.low⟩, hy, h.high⟩

/-- Every geometry reads the table and nothing else. -/
theorem reads_fragment (g : GeometryKind) (h : ReadsTable V p)
    (hS : V.HasScales (g.fragment p o s).scales) : (g.fragment p o s).Reads V := by
  have hxy (hx : V.scale "xscale") (hy : V.scale "yscale") :
      Encodes (V.field "table") V.scale (.obj (xyChannels p)) :=
    (encodes_group rfl).mpr (encodes_xyChannels ⟨hx, h.x⟩ ⟨hy, h.y⟩)
  cases g with
  | point => exact reads_standardFragment h hS hxy
  | abline => exact reads_standardFragment h hS hxy
  | line => exact reads_lineFragment h hS
  | bar => exact reads_barFragment h hS
  | jitter => exact reads_scatteredFragment h hS rfl
  | swarm => exact reads_scatteredFragment h hS rfl
  | raster => exact reads_rasterFragment h hS
  | interval => exact reads_intervalFragment h hS
  | vline =>
    refine reads_standardFragment h hS fun hx _ => (encodes_group rfl).mpr ?_
    simpa using encodes_xPosition ⟨hx, h.x⟩
  | hline =>
    refine reads_standardFragment h hS fun _ hy => (encodes_group rfl).mpr ?_
    simpa using ⟨hy, h.y⟩
  | polygon =>
    refine reads_standardFragment h hS fun hx hy => (encodes_group rfl).mpr fun c hc => ?_
    rcases List.mem_append.mp hc with hc | hc
    · exact encodes_xyChannels ⟨hx, h.x⟩ ⟨hy, h.y⟩ c hc
    · obtain rfl := List.mem_singleton.mp hc
      exact encodes_zeroBaseline.mpr hy

end GeometryKind

end PlotScene
