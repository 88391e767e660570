import PlotScene.Proofs.Compile.Layers
import PlotScene.Proofs.Layer.Banded

/-!
# Bands that a compiled document uses

Layers name the x scale alike, and of the scales of one name the first is kept.  So the bands that
marks use are bands of the scale that the first layer decided on: a layer with bands that comes
after one without them finds none.
-/

namespace PlotScene

open Reference

/-! ## 1. Scales in scope -/

/-- The scale that a name stands for within these marks, the innermost first: the nearest one of
their own, or else the one of the document. -/
def scaleInScope? (spec : Value) (around : List Value) (name : String) : Option Value :=
  (around.flatMap (fun m => parts m "scales") ++ parts spec "scales").find? fun c =>
    (Scalar.str name).same (nameOf c)

-- A name stands for a scale exactly where it is visible.
theorem isSome_scaleInScope? {spec : Value} {around : List Value} {name : String} :
    (scaleInScope? spec around name).isSome = true ↔ VisibleScale spec around (.str name) := by
  rw [scaleInScope?, List.find?_isSome, VisibleScale, Declared]
  constructor
  · rintro ⟨c, hc, hname⟩
    rcases List.mem_append.mp hc with hc | hc
    · obtain ⟨m, hm, hc⟩ := List.mem_flatMap.mp hc
      exact Or.inr ⟨m, hm, c, hc, hname⟩
    · exact Or.inl ⟨c, hc, hname⟩
  · rintro (⟨c, hc, hname⟩ | ⟨m, hm, c, hc, hname⟩)
    · exact ⟨c, List.mem_append_right _ hc, hname⟩
    · exact ⟨c, List.mem_append_left _ (List.mem_flatMap.mpr ⟨m, hm, hc⟩), hname⟩

section

variable {spec : Value} {around : List Value}
  (hown : ∀ c ∈ around.flatMap (fun m => parts m "scales"), c = GeometryKind.clusterScale)
include hown

-- No mark has an x scale of its own, so the name stands for the first scale of the document.
theorem scaleInScope?_xscale {first : Value} {rest : List Value}
    (hspec : parts spec "scales" = first :: rest)
    (hname : first.get? "name" = some (.str "xscale")) :
    scaleInScope? spec around "xscale" = some first := by
  have hinner : (around.flatMap (fun m => parts m "scales")).find? (fun c =>
      (Scalar.str "xscale").same (nameOf c)) = none := by
    apply List.find?_eq_none.mpr
    intro c hc
    rw [hown c hc]
    decide
  have hfirst : (Scalar.str "xscale").same (nameOf first) = true := by
    rw [nameOf, Value.getD_of_get? hname]
    rfl
  rw [scaleInScope?, List.find?_append, hinner, hspec, List.find?_cons, hfirst]
  rfl

theorem scaleInScope?_pos
    (hmem : GeometryKind.clusterScale ∈ around.flatMap (fun m => parts m "scales")) :
    scaleInScope? spec around "pos" = some GeometryKind.clusterScale := by
  rw [scaleInScope?, List.find?_append]
  generalize around.flatMap (fun m => parts m "scales") = own at hown hmem
  cases own with
  | nil => cases hmem
  | cons c own =>
    rw [hown c List.mem_cons_self]
    rfl

end

/-! ## 2. Marks of a document -/

namespace Highlight

-- A rule about the color uses no band.
theorem bands_encode {B : String → Prop} {neutral : String} {encoding encoding' : Value}
    (h : Bands B encoding) (he : encode neutral encoding = .ok encoding') : Bands B encoding' := by
  have hchosen : Bands B (.obj [("test", .str markTest), ("scale", .str colorScaleName),
      ("field", .str "color")]) :=
    bands_obj (usesBands_of_none rfl rfl) (by simp)
  apply channel_encode (channelProperty_bands B) h ?_ he
  intro _
  apply bands_list
  simpa using ⟨hchosen, bands_constant (bands_scalar (.str neutral))⟩

theorem bandsIn_mark {banded : Prop} {own : List Value} {neutral : String} {m m' : Value}
    (hm : BandsIn banded own m) (h : mark neutral m = .ok m') : BandsIn banded own m' := by
  induction hm generalizing m' with
  | leaf hleaf =>
    refine BandsIn.leaf ⟨isMap_mark h, ?_, marks_mark_eq_none h hleaf.marks,
      encode_mark (bands_scalar _) bands_encode h hleaf.channels⟩
    rw [get?_mark_of_ne h (by decide)]
    exact hleaf.scales
  | group hmap hscales hbands hmarks _ ih =>
    have hparts := parts_mark_scales h hmap
    obtain ⟨vs, hvs, hinner⟩ := marks_mark_eq_some h hmarks
    refine BandsIn.group (isMap_mark h) ?_ ?_ hvs ?_
    · rw [hparts]
      exact hscales
    · rw [hparts]
      exact encode_mark (bands_scalar _) bands_encode h hbands
    · rw [hparts]
      intro v hv
      obtain ⟨w, hw, hmark⟩ := hinner v hv
      exact ih w hw hmark

end Highlight

theorem bandsIn_inside {banded : Prop} {fs : List Fragment} {rows : List Value} {spec : Value}
    (h : Assembled (Fragment.joined fs) rows spec)
    (hfs : ∀ f ∈ fs, ∀ m ∈ f.marks, BandsIn banded [] m) :
    ∀ m ∈ inside spec, BandsIn banded [] m := by
  have hjoined : ∀ m ∈ (Fragment.joined fs).marks, BandsIn banded [] m := by
    intro m hm
    obtain ⟨f, hf, hm⟩ := mem_joined_marks.mp hm
    exact hfs f hf m hm
  rcases h.marks with hmarks | ⟨neutral, hmarks⟩
  · rw [hmarks]
    exact hjoined
  · intro m' hm'
    obtain ⟨m, hm, hmark⟩ := Highlight.exists_of_mem_marks hmarks hm'
    exact Highlight.bandsIn_mark (hjoined m hm) hmark

-- On the way to a mark only scales of clusters are met, and the mark uses bands that it can use
-- among them.
theorem bandsIn_at {banded : Prop} {marks as : List Value} {m : Value}
    (h : ∀ m ∈ marks, BandsIn banded [] m) (hat : MarkAt marks as m) :
    BandsIn banded (as.flatMap fun a => parts a "scales") m ∧
      ∀ c ∈ as.flatMap (fun a => parts a "scales"), c = GeometryKind.clusterScale := by
  induction hat with
  | top hm => exact ⟨h _ hm, List.forall_mem_nil _⟩
  | @within as a m _ hm ih =>
    obtain ⟨hbands, hown⟩ := ih
    rw [List.flatMap_cons]
    cases hbands with
    | leaf hleaf =>
      rw [inside, Value.getD_of_get?_none hleaf.marks] at hm
      cases hm
    | group hmap hscales _ hmarks hinner =>
      rw [inside, Value.getD_of_get? hmarks] at hm
      exact ⟨hinner m hm, List.forall_mem_append.mpr ⟨hscales, hown⟩⟩

-- What a mark uses by itself, with its own scales before those around it.
theorem BandsIn.channels {banded : Prop} {own : List Value} {m : Value} (h : BandsIn banded own m) :
    (∀ c ∈ parts m "scales", c = GeometryKind.clusterScale) ∧
      Bands (HasBand banded (parts m "scales" ++ own)) (m.getD "encode") := by
  cases h with
  | leaf hleaf =>
    rw [parts_of_get?_none hleaf.scales]
    exact ⟨List.forall_mem_nil _, hleaf.channels⟩
  | group _ hscales hbands _ _ => exact ⟨hscales, hbands⟩

/-! ## 3. The first layer decides -/

theorem Bands.mono {B B' : String → Prop} {v : Value} (h : Bands B v) (hB : ∀ n, B n → B' n) :
    Bands B' v := by
  intro e he
  obtain ⟨hchannel, hscatter⟩ := h e he
  refine ⟨fun hband => ?_, fun hsignal => hB _ (hscatter hsignal)⟩
  obtain ⟨n, hn, hb⟩ := hchannel hband
  exact ⟨n, hn, hB n hb⟩

theorem Plot.layers_ne_nil (p : Plot) : p.layers.1 ≠ [] := by
  rw [Plot.layers]
  split
  next => exact List.cons_ne_nil _ _
  next hne => exact hne

-- The scales of a document begin with the x scale of its first layer.
theorem scales_of_assembled {fs : List Fragment} {f : Fragment} {rows : List Value} {spec : Value}
    {banded : Bool} (h : Assembled (Fragment.joined (f :: fs)) rows spec)
    (hf : LeadsWithX banded f.scales) : LeadsWithX banded (parts spec "scales") := by
  obtain ⟨c, cs, hscales, hname, htype⟩ := hf
  refine ⟨c, firstsAfter nameOf [nameOf c] (cs ++ fs.flatMap Fragment.scales), ?_, hname, htype⟩
  rw [h.scales, joined_scales, List.flatMap_cons, hscales, List.cons_append, firstsAfter_cons]
  rfl

-- In a document that begins with an x scale, a band that a mark uses is one of this scale or of the
-- scale of the cluster around the mark.
theorem bands_of_leadsWithX {spec : Value} {banded : Bool} {used : Prop}
    (hscales : LeadsWithX banded (parts spec "scales"))
    (hmarks : ∀ m ∈ inside spec, BandsIn used [] m) {as : List Value} {m : Value}
    (hat : MarkAt (inside spec) as m) :
    Bands (fun n => ∃ scale, scaleInScope? spec (m :: as) n = some scale ∧
      (scale.get? "type" = some (.str "band") ↔ (n = "xscale" → banded = true)) ∧
      (n = "xscale" → used)) (m.getD "encode") := by
  obtain ⟨xscale, rest, hspec, hname, htype⟩ := hscales
  obtain ⟨hbands, hown⟩ := bandsIn_at hmarks hat
  obtain ⟨hself, hchannels⟩ := hbands.channels
  have hall : ∀ c ∈ (m :: as).flatMap (fun a => parts a "scales"),
      c = GeometryKind.clusterScale := by
    rw [List.flatMap_cons]
    exact List.forall_mem_append.mpr ⟨hself, hown⟩
  apply hchannels.mono
  rintro n (⟨rfl, hused⟩ | ⟨rfl, hcluster⟩)
  · refine ⟨xscale, scaleInScope?_xscale hall hspec hname, ?_, fun _ => hused⟩
    simpa using htype
  · have hne : "pos" ≠ "xscale" := by decide
    refine ⟨GeometryKind.clusterScale, scaleInScope?_pos hall hcluster, ?_, fun h => absurd h hne⟩
    exact iff_of_true rfl fun h => absurd h hne

/-- In a compiled description every band that a mark uses, at any depth, is one of a scale in scope.
The scale has bands unless it is the x scale: that one has bands exactly where the first layer gives
it bands, and some layer does where a mark uses them. -/
theorem compileDescription_bands (settings : Settings) (description options : Value) (s : Style)
    (c : Compiled) (h : compileDescription settings description options s = .ok c) :
    ∃ p first rest, Plot.ofDescription description = .ok p ∧ c.layers = first :: rest ∧
      ∀ as m, MarkAt (inside c.spec) as m → Bands (fun n =>
        ∃ scale, scaleInScope? c.spec (m :: as) n = some scale ∧
          (scale.get? "type" = some (.str "band") ↔
            (n = "xscale" → first.isBanded p = true)) ∧
          (n = "xscale" → ∃ kind ∈ c.layers, kind.isBanded p = true)) (m.getD "encode") := by
  obtain ⟨named, -, h⟩ := bind_eq_ok.mp h
  obtain ⟨p, hp, h⟩ := bind_eq_ok.mp h
  obtain ⟨o, -, h⟩ := bind_eq_ok.mp h
  obtain ⟨table, layers, told, ps, -, hbuild, hassembled, -, hlayers, -⟩ := stages_of_compile h
  obtain ⟨hbuilt, -⟩ := buildKinds_of_build hbuild
  obtain ⟨hplan, hfragments⟩ := buildKinds_standard hbuilt
  have hmarks : ∀ m ∈ inside c.spec,
      BandsIn (∃ kind ∈ c.layers, kind.isBanded p = true) [] m := by
    apply bandsIn_inside hassembled
    intro f hf
    obtain ⟨kind, hkind, hfragment⟩ := forall₂_mem_right hfragments hf
    apply LayerKind.bandsIn_fragment hfragment
    intro hbanded
    exact ⟨kind, by rw [hlayers, hplan]; exact hkind, hbanded⟩
  cases layers with
  | nil => exact absurd hplan.symm p.layers_ne_nil
  | cons layer layers =>
    rw [← hplan, List.map_cons, List.map_cons] at hfragments
    cases hfragments with
    | cons hfirst _ =>
    have hscales := scales_of_assembled hassembled (LayerKind.leadsWithX_fragment hfirst)
    exact ⟨p, layer.kind, layers.map Layer.kind, hp, hlayers,
      fun as m hat => bands_of_leadsWithX hscales hmarks hat⟩

/-- Bars in clusters, and points over them. -/
def barsFirst : Value :=
  .obj [
    ("aes", .obj [("x", .list [.int 1, .int 2]), ("y", .list [.int 3, .int 4]),
      ("color", .list [.str "r", .str "s"])]),
    ("geoms", .list [.str "bar", .str "point"])]

theorem compileDescription_bands_barsFirst :
    ∃ c, compileDescription {} barsFirst (.obj []) (Style.ofSettings {} none) = .ok c ∧
      ∀ as m, MarkAt (inside c.spec) as m → Bands (fun n =>
        ∃ scale, scaleInScope? c.spec (m :: as) n = some scale ∧
          scale.get? "type" = some (.str "band")) (m.getD "encode") := by
  have hlayers : (compileDescription {} barsFirst (.obj [])
      (Style.ofSettings {} none)).toOption.any (fun c =>
        c.layers = [.geometry .bar, .geometry .point]) = true := by decide +kernel
  obtain ⟨c, hc, hplan⟩ := exists_of_any hlayers
  obtain ⟨p, first, rest, -, hfirst, hbands⟩ :=
    compileDescription_bands {} barsFirst (.obj []) _ c hc
  obtain ⟨rfl, -⟩ := List.cons.inj ((of_decide_eq_true hplan).symm.trans hfirst)
  refine ⟨c, hc, fun as m hat => (hbands as m hat).mono ?_⟩
  rintro n ⟨scale, hscale, htype, -⟩
  exact ⟨scale, hscale, htype.mpr fun _ => rfl⟩

/-- Points along a numeric x, and bars over them. -/
def pointsFirst : Value :=
  .obj [
    ("aes", .obj [("x", .list [.int 1, .int 2]), ("y", .list [.int 3, .int 4])]),
    ("geoms", .list [.str "point", .str "bar"])]

-- The bars are as wide as a band of the x scale, which the points made linear.
theorem not_bands_pointsFirst :
    ∃ c, compileDescription {} pointsFirst (.obj []) (Style.ofSettings {} none) = .ok c ∧
      ¬ ∀ as m, MarkAt (inside c.spec) as m → Bands (fun n =>
        ∃ scale, scaleInScope? c.spec (m :: as) n = some scale ∧
          scale.get? "type" = some (.str "band")) (m.getD "encode") := by
  have hlinear : (compileDescription {} pointsFirst (.obj [])
      (Style.ofSettings {} none)).toOption.any (fun c => (inside c.spec).any fun m =>
        let width := ((m.getD "encode").getD "enter").getD "width"
        width.has "band" && (width.getD "scale").same (.str "xscale") &&
          (scaleInScope? c.spec [m] "xscale").all fun scale =>
            (scale.getD "type").same (.str "linear")) = true := by decide +kernel
  obtain ⟨c, hc, hany⟩ := exists_of_any hlinear
  obtain ⟨m, hm, hwidth⟩ := List.any_eq_true.mp hany
  dsimp only at hwidth
  rw [Bool.and_eq_true, Bool.and_eq_true] at hwidth
  obtain ⟨⟨hband, hname⟩, htype⟩ := hwidth
  refine ⟨c, hc, fun hall => ?_⟩
  have henter := (channelProperty_bands _).getD (hall [] m (MarkAt.top hm)) "enter"
  have hbands := (channelProperty_bands _).getD henter "width"
  obtain ⟨n, hn, scale, hscale, hbanded⟩ := (hbands _ (Value.Within.here _)).channel hband
  obtain rfl : "xscale" = n := by simpa using (Value.get?_of_same hname).symm.trans hn
  rw [hscale, Option.all_some] at htype
  have hconflict := hbanded.symm.trans (Value.get?_of_same htype)
  simp at hconflict

end PlotScene
