import PlotScene.Proofs.Compile.Fields
import PlotScene.Proofs.Compile.Layers
import PlotScene.Proofs.Layer.Colored
import PlotScene.Proofs.Plot.Colors
import PlotScene.Proofs.Scene.Legend

/-!
# Which documents have a legend

Whether a plot is compiled to a document with a legend can be told from the plot: colors group, the
table shows two of them, and some layer goes through the color scale.  Apart from what the legend
adds, the document is the merged one.
-/

namespace PlotScene

open Reference

variable {p : Plot} {o : Presentation} {s : Style}

/-! ## 1. Merged documents before a legend -/

-- The frame of a document has the padding of the style, and no signals.
theorem frame_of_document {f : Fragment} {rows : List Value} {spec : Value}
    (h : Scene.document f rows o s = .ok spec) :
    spec.get? "padding" = some (s.padding false) ∧ spec.get? "signals" = none := by
  obtain ⟨scales, -, h⟩ := bind_eq_ok.mp h
  obtain ⟨data, -, h⟩ := bind_eq_ok.mp h
  obtain ⟨axes, -, h⟩ := bind_eq_ok.mp h
  rw [← Except.ok.inj h]
  split
  · constructor
    · rw [Value.get?_set_of_ne _ _ (by decide)]
      rfl
    · rw [Value.get?_set_of_ne _ _ (by decide)]
      rfl
  · exact ⟨rfl, rfl⟩

/-! ## 2. The color scale of a document -/

section

variable {kinds : List LayerKind} {fs : List Fragment}
  (h : List.Forall₂ (fun (kind : LayerKind) f => kind.fragment p o s = .ok f) kinds fs)
include h

theorem layerScale_joined : ∀ c ∈ firstsAfter nameOf [] (Fragment.joined fs).scales,
    ∃ kind : LayerKind, LayerScale s kind.scaleNames c := by
  intro c hc
  obtain ⟨f, hf, hcf⟩ := mem_joined_scales.mp (mem_of_mem_firstsAfter hc)
  obtain ⟨kind, -, hkind⟩ := forall₂_mem_right h hf
  exact ⟨kind, LayerKind.layerScale_fragment hkind c hcf⟩

-- A merged document has the color scale where some layer goes through it.
theorem exists_isColor_iff :
    (∃ c ∈ firstsAfter nameOf [] (Fragment.joined fs).scales, Legend.IsColor c) ↔
      p.grouped = true ∧ ∃ kind ∈ kinds, p.BringsColor kind := by
  constructor
  · rintro ⟨c, hc, hname, -⟩
    obtain ⟨f, hf, hcf⟩ := mem_joined_scales.mp (mem_of_mem_firstsAfter hc)
    obtain ⟨kind, hkind, hk⟩ := forall₂_mem_right h hf
    obtain ⟨hgrouped, hbrings⟩ := (LayerKind.hasColor_scales hk).mp ⟨c, hcf, hname⟩
    exact ⟨hgrouped, kind, hkind, hbrings⟩
  · rintro ⟨hgrouped, kind, hkind, hbrings⟩
    obtain ⟨f, hf, hk⟩ := forall₂_mem_left h hkind
    obtain ⟨c, hc, hname⟩ := (LayerKind.hasColor_scales hk).mpr ⟨hgrouped, hbrings⟩
    have hjoined : c ∈ (Fragment.joined fs).scales := mem_joined_scales.mpr ⟨f, hf, hc⟩
    -- The scale of that name which was kept is the color scale as well.
    obtain ⟨d, hd, hnd⟩ := names_of_declared
      ((declared_firsts hjoined hname []).resolve_left (by simp))
    obtain ⟨l, hl⟩ := layerScale_joined h d hd
    obtain rfl := hl.eq_colorScale hnd
    exact ⟨_, hd, hnd, rfl⟩

theorem isMap_of_mem_joined : ∀ c ∈ firstsAfter nameOf [] (Fragment.joined fs).scales,
    c.isMap = true := by
  intro c hc
  obtain ⟨l, hl⟩ := layerScale_joined h c hc
  obtain ⟨n, hn, -⟩ := hl.exists_name
  exact Value.isMap_of_get? hn

end

/-! ## 3. Documents with a legend -/

/-- A document that built-in layers are compiled to has a legend exactly where colors group, the
rows of its table show two of them, and one of the layers goes through the color scale.  Without a
legend it is the merged document, which has neither legends nor signals; with a legend it is the
merged document with what the legend adds. -/
theorem compile_legend (p : Plot) (o : Presentation) (s : Style) (c : Compiled)
    (h : compile p o s .standard = .ok c) :
    ∃ table layers told merged, Table.ofPlot p = .ok table ∧
      p.build o s .standard = .ok (layers, told) ∧
      Scene.merge (layers.map Layer.fragment) table.rows o s = .ok merged ∧
      merged.get? "legends" = none ∧ merged.get? "signals" = none ∧
      merged.get? "padding" = some (s.padding false) ∧
      (c.spec.has "legends" = true ↔ p.grouped = true ∧ Legend.TwoColors table.rows ∧
        ∃ kind ∈ p.layers.1, p.BringsColor kind) ∧
      (c.spec.has "legends" = false → c.spec = merged) ∧
      (c.spec.has "legends" = true → Legend.Extended s merged o.interactive c.spec) := by
  obtain ⟨table, htable, h⟩ := bind_eq_ok.mp h
  obtain ⟨⟨layers, told⟩, hbuild, h⟩ := bind_eq_ok.mp h
  obtain ⟨merged, hmerged, h⟩ := bind_eq_ok.mp h
  obtain ⟨spec, hspec, h⟩ := bind_eq_ok.mp h
  obtain ⟨ps, -, h⟩ := bind_eq_ok.mp h
  obtain rfl := Except.ok.inj h
  obtain ⟨hbuilt, -⟩ := buildKinds_of_build hbuild
  obtain ⟨-, hfragments⟩ := buildKinds_standard hbuilt
  have hm : Scene.Merged (Fragment.joined (layers.map Layer.fragment)) table.rows merged :=
    Scene.merged_document hmerged
  obtain ⟨hpadding, hsignals⟩ := frame_of_document hmerged
  obtain ⟨needed, hneeded, hiff⟩ := Legend.isNeeded_eq hm.scales (isMap_of_mem_joined hfragments)
    (Table.label_of_color htable)
  have hgate : needed = true ↔ p.grouped = true ∧ Legend.TwoColors table.rows ∧
      ∃ kind ∈ p.layers.1, p.BringsColor kind := by
    rw [hiff, exists_isColor_iff hfragments, and_right_comm, and_assoc]
  refine ⟨table, layers, told, merged, htable, hbuild, hmerged, hm.legends, hsignals, hpadding, ?_⟩
  cases needed with
  | false =>
    obtain rfl : merged = spec :=
      Except.ok.inj ((Legend.compose_of_not_needed hneeded o.interactive).symm.trans hspec)
    have hnone : merged.has "legends" = false := by
      rw [Value.has, hm.legends]
      rfl
    rw [hnone]
    exact ⟨hgate, fun _ => rfl, fun h => absurd h Bool.false_ne_true⟩
  | true =>
    have hextended := Legend.extended_of_compose hneeded hpadding hsignals hm.data hm.marks hspec
    have hlegends := hextended.has_legends (Value.isMap_of_get? hm.data)
    rw [hlegends]
    exact ⟨hgate, fun h => absurd h.symm Bool.false_ne_true, fun _ => hextended⟩

theorem compile_legend_groupedPlot :
    ∃ c, compile groupedPlot { interactive := true } (Style.ofSettings {} none) .standard = .ok c ∧
      c.spec.has "legends" = true := by
  have hcolors : (Table.ofPlot groupedPlot).toOption.any (fun t => decide
      (1 < (firsts ((t.rows.filterMap Legend.rowLabel?).map Scalar.str)).length)) = true := by
    decide +kernel
  obtain ⟨c, hc⟩ := exists_of_isSome compile_groupedPlot
  obtain ⟨table, layers, told, merged, htable, -, -, -, -, -, hgate, -⟩ :=
    compile_legend groupedPlot { interactive := true } (Style.ofSettings {} none) c hc
  obtain ⟨table', htable', htwo⟩ := exists_of_any hcolors
  obtain rfl := Except.ok.inj (htable.symm.trans htable')
  have htwo := Legend.twoColors_iff.mp (of_decide_eq_true htwo)
  exact ⟨c, hc, hgate.mpr ⟨by decide, htwo, .geometry .bar, by decide, trivial⟩⟩

end PlotScene
