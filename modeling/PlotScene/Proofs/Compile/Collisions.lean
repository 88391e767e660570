import PlotScene.Proofs.Compile.Fields
import PlotScene.Proofs.Compile.Layers
import PlotScene.Proofs.Layer.Names

/-!
# Layers do not collide

The names of sources, of scales and of marks are written in each builder on its own.  No two kinds
of layers share one, apart from the scales of the axes and the color scale of the observations,
which is the same in all.  So merging, where the first definition of a name counts, loses nothing
but scales of the axes.
-/

namespace PlotScene

open Reference

variable {p : Plot} {o : Presentation} {s : Style}

/-! ## 1. Names that belong to one kind of layer -/

/-- Names that each kind of layer has for itself. -/
structure OwnNames (names : LayerKind → List String) : Prop where
  nodup : ∀ k ∈ LayerKind.all, (names k).Nodup
  disjoint : ∀ k ∈ LayerKind.all, ∀ l ∈ LayerKind.all, ∀ n ∈ names k, n ∈ names l → k = l

namespace OwnNames

variable {names : LayerKind → List String}

theorem eq_of_mem (h : OwnNames names) {k l : LayerKind} {n : String} (hk : n ∈ names k)
    (hl : n ∈ names l) : k = l :=
  h.disjoint k (LayerKind.mem_all k) l (LayerKind.mem_all l) n hk hl

theorem nodup_flatMap (h : OwnNames names) {kinds : List LayerKind} (hkinds : kinds.Nodup) :
    (kinds.flatMap names).Nodup := by
  refine List.nodup_flatMap.mpr ⟨fun k _ => h.nodup k (LayerKind.mem_all k), ?_⟩
  refine hkinds.imp fun {k l} hkl => ?_
  exact List.disjoint_left.mpr fun n hnk hnl => hkl (h.eq_of_mem hnk hnl)

end OwnNames

theorem ownNames_sources : OwnNames LayerKind.sourceNames :=
  ⟨fun k _ => k.sourceNames_nodup, LayerKind.sourceNames_disjoint⟩

theorem ownNames_scales : OwnNames LayerKind.scaleNames := ⟨by decide, by decide⟩

theorem ownNames_marks : OwnNames LayerKind.markNames := ⟨by decide, by decide⟩

theorem LayerKind.nodup_allScaleNames (kind : LayerKind) : kind.allScaleNames.Nodup := by
  have h : ∀ k ∈ LayerKind.all, k.allScaleNames.Nodup := by decide
  exact h kind (LayerKind.mem_all kind)

theorem LayerKind.namedAmong_data {kind : LayerKind} {f : Fragment}
    (hf : kind.fragment p o s = .ok f) : NamedAmong kind.sourceNames f.data :=
  ⟨_, supplies_sublist kind p s, by rw [LayerKind.names_data hf, List.map_map]; rfl⟩

/-! ## 2. Two layers -/

-- A scale that is not of an axis is defined once, in whatever layers it stands.
theorem eq_of_scaleNames {k l : LayerKind} {f g : Fragment} (hf : k.fragment p o s = .ok f)
    (hg : l.fragment p o s = .ok g) {c d : Value} (hc : c ∈ f.scales) (hd : d ∈ g.scales)
    {n : String} (hnc : Names n c) (hnd : Names n d) (hn : n ∉ axisScaleNames) : c = d := by
  by_cases hkl : k = l
  · subst hkl
    obtain rfl := Except.ok.inj (hf.symm.trans hg)
    exact (LayerKind.namedAmong_scales hf).eq_of_names k.nodup_allScaleNames hc hd hnc hnd
  cases LayerKind.layerScale_fragment hf c hc with
  | axis hm hmc =>
    rw [hnc.unique hmc] at hn
    exact absurd hm hn
  | shared hshared =>
    obtain rfl : n = "color" := hnc.unique (by rw [hshared]; rfl)
    rw [hshared, (LayerKind.layerScale_fragment hg d hd).eq_colorScale hnd]
  | own hm hmc =>
    rw [← hnc.unique hmc] at hm
    cases LayerKind.layerScale_fragment hg d hd with
    | axis hm' hmd =>
      rw [hnd.unique hmd] at hn
      exact absurd hm' hn
    | shared hd =>
      obtain rfl : n = "color" := hnd.unique (by rw [hd]; rfl)
      exact absurd hm k.color_not_mem_scaleNames
    | own hm' hmd =>
      rw [← hnd.unique hmd] at hm'
      exact absurd (ownNames_scales.eq_of_mem hm hm') hkl

/-- Two fragments share no source, and no scale but those of the axes, or one and the same. -/
structure Fragment.Apart (f g : Fragment) : Prop where
  sources : ∀ v ∈ f.data, ∀ w ∈ g.data, ∀ n, Names n v → ¬ Names n w
  scales : ∀ c ∈ f.scales, ∀ d ∈ g.scales, ∀ n, Names n c → Names n d → n ≠ "xscale" →
    n ≠ "yscale" → c = d

theorem not_mem_axisScaleNames {n : String} (hx : n ≠ "xscale") (hy : n ≠ "yscale") :
    n ∉ axisScaleNames := by
  simp [axisScaleNames, hx, hy]

theorem LayerKind.apart {k l : LayerKind} {f g : Fragment} (hf : k.fragment p o s = .ok f)
    (hg : l.fragment p o s = .ok g) (hkl : k ≠ l) : f.Apart g where
  sources v hv w hw n hnv hnw := by
    have hk : n ∈ k.sourceNames := (LayerKind.namedAmong_data hf).mem hv hnv
    have hl : n ∈ l.sourceNames := (LayerKind.namedAmong_data hg).mem hw hnw
    exact hkl (ownNames_sources.eq_of_mem hk hl)
  scales c hc d hd n hnc hnd hx hy :=
    eq_of_scaleNames hf hg hc hd hnc hnd (not_mem_axisScaleNames hx hy)

/-! ## 3. All layers of a plot -/

theorem Plot.nodup_layers (p : Plot) : p.layers.1.Nodup := by
  rw [Plot.layers]
  cases h : p.requested with
  | nil => exact List.nodup_singleton _
  | cons kind kinds =>
    show (kind :: kinds).Nodup
    rw [← h]
    exact nodup_firsts _

section

variable {kinds : List LayerKind} {fs : List Fragment}
  (h : List.Forall₂ (fun (kind : LayerKind) f => kind.fragment p o s = .ok f) kinds fs)
include h

-- What is known of the names in each fragment is known of all of them together.
theorem namedAmong_flatMap (part : Fragment → List Value) {names : LayerKind → List String}
    (hpart : ∀ (kind : LayerKind) f, kind.fragment p o s = .ok f →
      NamedAmong (names kind) (part f)) :
    NamedAmong (kinds.flatMap names) (fs.flatMap part) := by
  induction h with
  | nil => exact .nil
  | cons hf _ ih => exact (hpart _ _ hf).append ih

theorem pairwise_apart (hkinds : kinds.Nodup) : fs.Pairwise Fragment.Apart := by
  induction h with
  | nil => exact .nil
  | @cons k f kinds fs hf hfs ih =>
    obtain ⟨hk, hkinds⟩ := List.nodup_cons.mp hkinds
    refine .cons (fun g hg => ?_) (ih hkinds)
    obtain ⟨l, hl, hlg⟩ := forall₂_mem_right hfs hg
    exact LayerKind.apart hf hlg fun hkl => hk (hkl ▸ hl)

/-! ## 4. What merging keeps -/

-- No source takes the place of another one, nor of the table.
theorem firstsAfter_data (hkinds : kinds.Nodup) :
    firstsAfter nameOf [.str Scene.tableName] (fs.flatMap Fragment.data) =
      fs.flatMap Fragment.data := by
  have hnamed := namedAmong_flatMap h Fragment.data fun _ _ hf =>
    LayerKind.namedAmong_data hf
  have hnodup := hnamed.nodup (ownNames_sources.nodup_flatMap hkinds)
  refine firstsAfter_eq_self (fun v hv => ?_) ?_
  · obtain ⟨n, hn, hnv⟩ := hnamed.exists_name hv
    obtain ⟨k, -, hnk⟩ := List.mem_flatMap.mp hn
    obtain ⟨htable, -⟩ := k.sourceNames_reserved (LayerKind.mem_all k) n hnk
    rw [nameOf_of_get? hnv, ← Bool.not_eq_true, List.contains_cons, Bool.or_eq_true, str_beq_str]
    rintro (heq | hmem)
    · exact htable heq
    · cases hmem
  · rw [List.Nodup, List.pairwise_map] at hnodup
    refine hnodup.imp_of_mem fun {v w} hv hw hne => ?_
    obtain ⟨n, -, hnv⟩ := hnamed.exists_name hv
    obtain ⟨m, -, hmw⟩ := hnamed.exists_name hw
    rw [nameOf_of_get? hnv, nameOf_of_get? hmw, ← Bool.not_eq_true, str_beq_str]
    rintro rfl
    exact hne (hnv.trans hmw.symm)

theorem nodup_markNames (hkinds : kinds.Nodup) :
    (fs.flatMap fun f => markNames f.marks).Nodup ∧
      ∀ x ∈ fs.flatMap fun f => markNames f.marks, ∃ n, x = some (.str n) := by
  have hnamed := namedAmong_flatMap h Fragment.marks fun _ _ hf =>
    LayerKind.namedAmong_fragment hf
  have hnames : (fs.flatMap fun f => markNames f.marks) =
      (fs.flatMap Fragment.marks).map (·.get? "name") := by
    rw [List.map_flatMap]
    rfl
  rw [hnames]
  refine ⟨hnamed.nodup (ownNames_marks.nodup_flatMap hkinds), fun x hx => ?_⟩
  obtain ⟨m, hm, rfl⟩ := List.mem_map.mp hx
  obtain ⟨n, -, hn⟩ := hnamed.exists_name hm
  exact ⟨n, hn⟩

end

-- A scale that is not of an axis is in the document as its layer defines it.
theorem scale_of_assembled {fs : List Fragment} {rows : List Value} {spec : Value}
    (h : Assembled (Fragment.joined fs) rows spec)
    (hkinds : ∀ f ∈ fs, ∃ kind : LayerKind, kind.fragment p o s = .ok f) {f : Fragment}
    (hf : f ∈ fs) {c : Value} (hc : c ∈ f.scales) {n : String} (hn : Names n c)
    (haxis : n ∉ axisScaleNames) :
    c ∈ parts spec "scales" ∧ ∀ d ∈ parts spec "scales", Names n d → d = c := by
  obtain ⟨k, hk⟩ := hkinds f hf
  have hunique : ∀ d ∈ parts spec "scales", Names n d → d = c := by
    intro d hd hnd
    obtain ⟨g, hg, hdg⟩ := exists_layer_of_scale h hd
    obtain ⟨l, hl⟩ := hkinds g hg
    exact eq_of_scaleNames hl hk hdg hc hnd hn haxis
  obtain ⟨d, hd, hnd⟩ := names_of_declared (declared_scale h hf hc hn)
  exact ⟨hunique d hd hnd ▸ hd, hunique⟩

/-- Any two of the built-in layers of a plot share no source, and no scale but those of the axes, or
one and the same; no source is the table or the selection.  Hence a compiled document has all
sources of its layers, in their order, and every scale of a layer that is not of an axis, under a
name of its own; and no two of its marks have the same name. -/
theorem compile_collisionFree (p : Plot) (o : Presentation) (s : Style) (layers : List Layer)
    (told : List Notice) (h : p.build o s .standard = .ok (layers, told)) :
    layers.map Layer.kind = p.layers.1 ∧ (layers.map Layer.kind).Nodup ∧
      (layers.map Layer.fragment).Pairwise Fragment.Apart ∧
      (∀ layer ∈ layers, ∀ v ∈ layer.fragment.data,
        ∃ n, Names n v ∧ n ≠ "table" ∧ n ≠ "selected") ∧
      ∀ c, compile p o s .standard = .ok c →
        c.layers = layers.map Layer.kind ∧
        (∃ rows extra, (extra = [] ∨ extra = [selectionSource]) ∧
          parts c.spec "data" = Fragment.source "table" rows ::
            ((layers.flatMap fun layer => layer.fragment.data) ++ extra)) ∧
        (∀ layer ∈ layers, ∀ c' ∈ layer.fragment.scales, ∀ n, Names n c' → n ≠ "xscale" →
          n ≠ "yscale" →
          c' ∈ parts c.spec "scales" ∧ ∀ d ∈ parts c.spec "scales", Names n d → d = c') ∧
        (markNames (inside c.spec)).Nodup ∧
        ∀ x ∈ markNames (inside c.spec), ∃ n, x = some (.str n) := by
  obtain ⟨hbuilt, -⟩ := buildKinds_of_build h
  obtain ⟨hplan, hfragments⟩ := buildKinds_standard hbuilt
  have hnodup := p.nodup_layers
  have hkinds : ∀ f ∈ layers.map Layer.fragment,
      ∃ kind : LayerKind, kind.fragment p o s = .ok f := by
    intro f hf
    obtain ⟨kind, -, hkind⟩ := forall₂_mem_right hfragments hf
    exact ⟨kind, hkind⟩
  refine ⟨hplan, hplan ▸ hnodup, pairwise_apart hfragments hnodup, fun layer hlayer v hv => ?_,
    fun c hc => ?_⟩
  · obtain ⟨kind, hkind⟩ := hkinds _ (List.mem_map_of_mem hlayer)
    obtain ⟨n, hn, hnv⟩ := (LayerKind.namedAmong_data hkind).exists_name hv
    exact ⟨n, hnv, kind.sourceNames_reserved (LayerKind.mem_all kind) n hn⟩
  obtain ⟨table, layers', told', ps, -, hbuild, hassembled, -, hlayers, -⟩ := stages_of_compile hc
  obtain ⟨rfl, rfl⟩ := Prod.mk.inj (Except.ok.inj (h.symm.trans hbuild))
  have hnames := markNames_inside hassembled
  refine ⟨hlayers, ?_, fun layer hlayer c' hc' n hn hx hy => ?_, ?_⟩
  · obtain ⟨extra, hextra, hdata⟩ := hassembled.data
    rw [joined_data, firstsAfter_data hfragments hnodup, List.flatMap_map] at hdata
    exact ⟨table.rows, extra, hextra, hdata⟩
  · exact scale_of_assembled hassembled hkinds (List.mem_map_of_mem hlayer) hc' hn
      (not_mem_axisScaleNames hx hy)
  · rw [hnames]
    exact nodup_markNames hfragments hnodup

theorem compile_collisionFree_groupedPlot :
    ∃ layers told c, groupedPlot.build { interactive := true } (Style.ofSettings {} none)
        .standard = .ok (layers, told) ∧
      compile groupedPlot { interactive := true } (Style.ofSettings {} none) .standard = .ok c ∧
      (layers.map Layer.fragment).Pairwise Fragment.Apart ∧ (markNames (inside c.spec)).Nodup := by
  have hsome : (groupedPlot.build { interactive := true } (Style.ofSettings {} none)
      .standard).toOption.isSome = true := by decide +kernel
  obtain ⟨⟨layers, told⟩, h⟩ := exists_of_isSome hsome
  obtain ⟨c, hc⟩ := exists_of_isSome compile_groupedPlot
  obtain ⟨-, -, hapart, -, hcompiled⟩ := compile_collisionFree groupedPlot _ _ layers told h
  obtain ⟨-, -, -, hmarks, -⟩ := hcompiled c hc
  exact ⟨layers, told, c, h, hc, hapart, hmarks⟩

end PlotScene
