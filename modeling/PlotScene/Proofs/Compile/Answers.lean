import PlotScene.Proofs.Compile.Legends
import PlotScene.Proofs.Layer.Heat
import PlotScene.Proofs.Layer.Shaped
import PlotScene.Proofs.Plot.Description
import PlotScene.Proofs.Scene.Recoded

/-!
# When compiling answers

The columns, the statistics, the limits of a color scale and the options never stop the compilation
of a plot that has been read.  A color map does where a heat map samples it and its rows have
different lengths, and this is the only fault.
-/

namespace PlotScene

open Reference

variable {p : Plot} {o : Presentation} {s : Style}

/-! ## 1. Layers -/

/-- The plot draws a heat map and gives it a color map with rows of different lengths. -/
def Plot.SamplesRagged (p : Plot) : Prop :=
  .statistic .bin2d ∈ p.layers.1 ∧ p.RaggedColormap

instance (p : Plot) : Decidable p.SamplesRagged :=
  inferInstanceAs (Decidable (_ ∧ _))

-- Whichever layers come before it, the first one that fails stops the others.
theorem buildKinds_fails {kinds : List LayerKind} {e : Fault}
    (h : ∀ kind ∈ kinds, (∃ f, kind.fragment p o s = .ok f) ∨ kind.fragment p o s = .error e)
    (hbad : ∃ kind ∈ kinds, kind.fragment p o s = .error e) :
    p.buildKinds o s .standard kinds = .error e := by
  induction kinds with
  | nil =>
    obtain ⟨kind, hkind, -⟩ := hbad
    cases hkind
  | cons kind kinds ih =>
    obtain ⟨hkind, hkinds⟩ := List.forall_mem_cons.mp h
    rw [Plot.buildKinds, Registry.get?_standard]
    dsimp only
    rcases hkind with ⟨f, hf⟩ | hf
    · have hrest : ∃ k ∈ kinds, k.fragment p o s = .error e := by
        obtain ⟨k, hk, hke⟩ := hbad
        rcases List.mem_cons.mp hk with rfl | hk
        · rw [hf] at hke
          cases hke
        · exact ⟨k, hk, hke⟩
      have hbuild : kind.builder.build p o s = .ok f := hf
      rw [hbuild, ih hkinds hrest]
      rfl
    · have hbuild : kind.builder.build p o s = .error e := hf
      rw [hbuild]
      rfl

theorem build_answers (h : ¬ p.SamplesRagged) :
    ∃ layers told, p.build o s .standard = .ok (layers, told) := by
  obtain ⟨⟨layers, told⟩, hout⟩ : ∃ out, p.build o s .standard = .ok out := by
    refine exists_build_iff.mpr fun kind hkind b hb => ?_
    obtain rfl := Option.some.inj ((Registry.get?_standard kind).symm.trans hb)
    refine LayerKind.exists_fragment_iff.mpr fun hbad => h ⟨?_, hbad.2⟩
    rw [← hbad.1]
    exact hkind
  exact ⟨layers, told, hout⟩

theorem build_ragged (h : p.SamplesRagged) : ∃ shape, ∀ (o : Presentation) (s : Style),
    p.build o s .standard = .error (.number (.ragged shape)) := by
  obtain ⟨hmem, hragged⟩ := h
  obtain ⟨shape, hshape⟩ := Cell.fragment_ragged hragged
  refine ⟨shape, fun o s => ?_⟩
  have hbuilt : p.buildKinds o s .standard p.layers.1 = .error (.number (.ragged shape)) := by
    apply buildKinds_fails
    · intro kind _
      by_cases hkind : kind = .statistic .bin2d
      · exact Or.inr (by rw [hkind]; exact hshape _ o s)
      · exact Or.inl (LayerKind.exists_fragment_iff.mpr fun hbad => hkind hbad.1)
    · exact ⟨_, hmem, hshape _ o s⟩
  rw [Plot.build]
  dsimp only
  rw [hbuilt]
  rfl

/-! ## 2. Merged documents -/

theorem Scene.firstParts_answers {field : String} {vs : List Value} (taken : List Scalar)
    (h : ∀ v ∈ vs, ∃ n, v.get? field = some (.str n)) :
    ∃ ks, Scene.firstParts field taken vs = .ok ks := by
  have hread : ∀ v ∈ vs, ∃ k, Scene.Keyed.read field v = .ok k := by
    intro v hv
    obtain ⟨n, hn⟩ := h v hv
    rw [Scene.Keyed.read, Value.field_of_isMap (Value.isMap_of_get? hn), ok_bind,
      Value.getD_of_get? hn]
    exact ⟨_, rfl⟩
  obtain ⟨read, hread⟩ := mapM_of_forall hread
  rw [Scene.firstParts, hread]
  exact ⟨_, rfl⟩

theorem shaped_joined {fs : List Fragment} (h : ∀ f ∈ fs, f.Shaped) :
    ∀ m ∈ (Fragment.joined fs).marks, Shaped m := by
  intro m hm
  obtain ⟨f, hf, hmf⟩ := mem_joined_marks.mp hm
  exact (h f hf).marks m hmf

section

variable {kinds : List LayerKind} {fs : List Fragment}
  (h : List.Forall₂ (fun (kind : LayerKind) f => kind.fragment p o s = .ok f) kinds fs)
include h

theorem shaped_of_forall₂ : ∀ f ∈ fs, f.Shaped := by
  intro f hf
  obtain ⟨kind, -, hkind⟩ := forall₂_mem_right h hf
  exact LayerKind.shaped_fragment hkind

theorem based_of_forall₂ : ∀ f ∈ fs, Based [] f.data := by
  intro f hf
  obtain ⟨kind, -, hkind⟩ := forall₂_mem_right h hf
  exact LayerKind.based_data hkind

theorem reads_of_forall₂ : ∀ f ∈ fs, f.Reads .everything := by
  intro f hf
  obtain ⟨kind, -, hkind⟩ := forall₂_mem_right h hf
  exact LayerKind.reads_fragment hkind ⟨trivial, trivial, trivial, trivial, trivial,
    fun _ => trivial⟩ (fun _ _ => ⟨trivial, fun _ _ => trivial⟩) fun _ _ _ _ => trivial

/-- Built-in layers are merged, since all their parts are known by texts. -/
theorem merge_answers (rows : List Value) (o' : Presentation) (s' : Style) :
    ∃ spec, Scene.merge fs rows o' s' = .ok spec := by
  have hdata : ∀ v ∈ (Fragment.joined fs).data, ∃ n, v.get? "name" = some (.str n) :=
    fun v hv => (based_joined (based_of_forall₂ h)).exists_name hv
  have hscales : ∀ c ∈ (Fragment.joined fs).scales, ∃ n, c.get? "name" = some (.str n) := by
    intro c hc
    obtain ⟨f, hf, hcf⟩ := mem_joined_scales.mp hc
    exact ((reads_of_forall₂ h f hf).scales c hcf).name
  have haxes : ∀ a ∈ (Fragment.joined fs).axes, ∃ n, a.get? "orient" = some (.str n) := by
    intro a ha
    obtain ⟨f, hf, haf⟩ := mem_joined_axes.mp ha
    exact (shaped_of_forall₂ h f hf).axes a haf
  obtain ⟨scales, hscales⟩ := Scene.firstParts_answers [] hscales
  obtain ⟨data, hdata⟩ := Scene.firstParts_answers [.str Scene.tableName] hdata
  obtain ⟨axes, haxes⟩ := Scene.firstParts_answers [] haxes
  show ∃ spec, Scene.document (Fragment.joined fs) rows o' s' = .ok spec
  rw [Scene.document, hscales, ok_bind, hdata, ok_bind, haxes, ok_bind]
  exact ⟨_, rfl⟩

/-! ## 3. Documents with a legend -/

theorem compose_answers {table : Table} {merged : Value} (htable : Table.ofPlot p = .ok table)
    (hmerged : Scene.merge fs table.rows o s = .ok merged) (reacts : Bool) :
    ∃ spec, Legend.compose merged table.rows reacts s = .ok spec := by
  have hm : Scene.Merged (Fragment.joined fs) table.rows merged := Scene.merged_document hmerged
  obtain ⟨hpadding, hsignals⟩ := frame_of_document hmerged
  obtain ⟨needed, hneeded, -⟩ := Legend.isNeeded_eq hm.scales (isMap_of_mem_joined h)
    (Table.label_of_color htable)
  cases needed with
  | false => exact ⟨_, Legend.compose_of_not_needed hneeded reacts⟩
  | true =>
    cases reacts with
    | false => exact ⟨_, Legend.compose_static hneeded hpadding⟩
    | true =>
      obtain ⟨marks, hmarks, -⟩ :=
        Highlight.marks_answer_of_shaped s.neutralColor (shaped_joined (shaped_of_forall₂ h))
      rw [Legend.compose_interactive hneeded hpadding hsignals hm.data hm.marks, hmarks]
      exact ⟨_, rfl⟩

end

/-! ## 4. Well-formed documents -/

/-- The keys under which a document has lists. -/
def listKeys : List String := ["data", "scales", "axes", "legends", "marks"]

theorem Reference.Listed.set {v x : Value} {k key : String} (h : Listed v key)
    (hx : k = key → ∃ vs, x = .list vs) : Listed (v.set k x) key := by
  intro y hy
  by_cases hk : k = key
  · subst hk
    have hv : v.isMap = true := by
      rw [← Value.isMap_set v x k]
      exact Value.isMap_of_get? hy
    rw [Value.get?_set_self v x k hv] at hy
    rw [← Option.some.inj hy]
    exact hx rfl
  · rw [Value.get?_set_of_ne v x hk] at hy
    exact h y hy

theorem listed_of_merged {f : Fragment} {rows : List Value} {spec : Value}
    (h : Scene.Merged f rows spec) : ∀ key ∈ listKeys, Listed spec key := by
  have hlist {key : String} {vs : List Value} (hv : spec.get? key = some (.list vs)) :
      Listed spec key := by
    intro x hx
    exact ⟨vs, Option.some.inj (hx.symm.trans hv)⟩
  obtain ⟨axes, haxes, -⟩ := h.axes
  simp only [listKeys, List.forall_mem_cons]
  refine ⟨hlist h.data, hlist h.scales, hlist haxes, fun x hx => ?_, hlist h.marks,
    List.forall_mem_nil _⟩
  rw [h.legends] at hx
  cases hx

theorem listed_of_composed {spec spec' : Value} (h : ∀ key ∈ listKeys, Listed spec key)
    (hc : Legend.Composed s spec spec') : ∀ key ∈ listKeys, Listed spec' key := by
  intro key hkey
  have hpadding : "padding" ≠ key := by
    rintro rfl
    exact absurd hkey (by decide)
  cases hc with
  | none => exact h key hkey
  | static padding =>
    exact ((h key hkey).set fun _ => ⟨_, rfl⟩).set fun hk => absurd hk hpadding
  | interactive padding _ _ _ _ =>
    refine Listed.set ?_ fun hk => absurd hk hpadding
    exact ((((h key hkey).set fun _ => ⟨_, rfl⟩).set fun _ => ⟨_, rfl⟩).set
      fun _ => ⟨_, rfl⟩).set fun _ => ⟨_, rfl⟩

theorem formedSource_of_based {known : List String} {vs : List Value} (h : Based known vs) :
    ∀ v ∈ vs, FormedSource v := by
  induction h with
  | nil => exact List.forall_mem_nil _
  | cons hn hb _ ih =>
    refine List.forall_mem_cons.mpr ⟨⟨Value.isMap_of_get? hn, ?_, ?_⟩, ih⟩
    · rw [Value.getD_of_get? hn]
      exact isScalar_scalar _
    · rcases hb with hb | ⟨u, -, hb⟩
      · rw [hb]
        exact isScalar_scalar .null
      · rw [hb]
        exact isScalar_scalar _

theorem formed_legends {l : Value} (h : l = Legend.static ∨ l = Legend.interactive) :
    l.isMap = true ∧ ∀ channel ∈ legendChannels, IsScalar (l.getD channel) := by
  simp only [legendChannels, List.forall_mem_cons]
  rcases h with rfl | rfl
  · exact ⟨rfl, ⟨_, rfl⟩, ⟨_, rfl⟩, ⟨_, rfl⟩, ⟨_, rfl⟩, List.forall_mem_nil _⟩
  · exact ⟨rfl, ⟨_, rfl⟩, ⟨_, rfl⟩, ⟨_, rfl⟩, ⟨_, rfl⟩, List.forall_mem_nil _⟩

/-- A document that is assembled from shaped layers is well-formed. -/
theorem formed_of_assembled {V : View} {fs : List Fragment} {rows : List Value} {spec : Value}
    (h : Assembled (Fragment.joined fs) rows spec) (hmap : spec.isMap = true)
    (hlisted : ∀ key ∈ listKeys, Listed spec key) (hreads : ∀ f ∈ fs, f.Reads V)
    (hshaped : ∀ f ∈ fs, f.Shaped) (hbased : ∀ f ∈ fs, Based [] f.data) : Formed spec where
  isMap := hmap
  listed := hlisted
  sources := formedSource_of_based (based_parts h hbased)
  scales c hc := by
    obtain ⟨f, hf, hcf⟩ := exists_layer_of_scale h hc
    exact ((hreads f hf).scales c hcf).formed ((hshaped f hf).scales c hcf)
  axes a ha := by
    obtain ⟨b, hb, hab⟩ := h.axes a ha
    obtain ⟨f, hf, hbf⟩ := mem_joined_axes.mp hb
    obtain ⟨n, hn, -⟩ := (hreads f hf).axes b hbf
    rw [hn] at hab
    rw [Value.getD_of_get? hab]
    exact ⟨Value.isMap_of_get? hab, isScalar_scalar _⟩
  legends l hl := formed_legends (h.legends l hl).1
  marks as m hm := by
    have hall : ∀ v ∈ inside spec, Shaped v := by
      rcases h.marks with heq | ⟨neutral, hmarks⟩
      · rw [heq]
        exact shaped_joined hshaped
      · obtain ⟨ms, hms, hall⟩ :=
          Highlight.marks_answer_of_shaped neutral (shaped_joined hshaped)
        rw [← Except.ok.inj (hms.symm.trans hmarks)]
        exact hall
    exact formedMark_at hall (marks_read h hreads) hm

/-! ## 5. Compilation -/

/-- Where the table and the layers answer, every later stage of the compilation does. -/
theorem compile_of_build {table : Table} {layers : List Layer} {told : List Notice}
    (htable : Table.ofPlot p = .ok table) (hbuild : p.build o s .standard = .ok (layers, told)) :
    ∃ merged spec ps, Scene.merge (layers.map Layer.fragment) table.rows o s = .ok merged ∧
      Legend.compose merged table.rows o.interactive s = .ok spec ∧ Formed spec ∧
      unresolved spec = .ok ps ∧ compile p o s .standard = .ok {
        spec := spec
        notices := p.notices ++ table.notice?.toList ++ p.overflowNotices s ++ told ++
          ps.map Problem.notice
        removedPoints := table.removed
        layers := layers.map Layer.kind } := by
  obtain ⟨-, hfragments⟩ := layers_of_build hbuild
  obtain ⟨merged, hmerged⟩ := merge_answers hfragments table.rows o s
  obtain ⟨spec, hspec⟩ := compose_answers hfragments htable hmerged o.interactive
  -- What was composed is well-formed, so its references can be read.
  have hm : Scene.Merged (Fragment.joined (layers.map Layer.fragment)) table.rows merged :=
    Scene.merged_document hmerged
  obtain ⟨hcomposed, hcolor⟩ := Legend.composed_compose hspec
  have hassembled := assembled_of_composed hm hcomposed hcolor
  have hmap : spec.isMap = true := by
    have hmerged : merged.isMap = true := Value.isMap_of_get? hm.data
    cases hcomposed <;> simp [Value.setAll, Value.isMap_set, hmerged]
  have hformed : Formed spec := formed_of_assembled hassembled hmap
    (listed_of_composed (listed_of_merged hm) hcomposed) (reads_of_forall₂ hfragments)
    (shaped_of_forall₂ hfragments) (based_of_forall₂ hfragments)
  obtain ⟨d, hd⟩ := hformed.read
  have hproblems : unresolved spec = .ok d.problems := by
    rw [unresolved, hd]
    rfl
  refine ⟨merged, spec, d.problems, hmerged, hspec, hformed, hproblems, ?_⟩
  rw [compile, htable, ok_bind, hbuild, ok_bind]
  dsimp only
  rw [hmerged, ok_bind, hspec, ok_bind, hproblems, ok_bind]
  rfl

/-- A plot whose heat map, if it has one, can sample its color map is compiled to a well-formed
document. -/
theorem compile_formed (hx : ∀ v ∈ p.aesthetics.x, v.InRange)
    (hy : ∀ v ∈ p.aesthetics.y, v.InRange) (h : ¬ p.SamplesRagged) (o : Presentation) (s : Style) :
    ∃ c, compile p o s .standard = .ok c ∧ Formed c.spec := by
  obtain ⟨table, htable⟩ := Table.ofPlot_answers hx hy
  obtain ⟨layers, told, hbuild⟩ := build_answers (o := o) (s := s) h
  obtain ⟨merged, spec, ps, -, -, hformed, -, hc⟩ := compile_of_build htable hbuild
  exact ⟨_, hc, hformed⟩

theorem compile_ragged (hx : ∀ v ∈ p.aesthetics.x, v.InRange)
    (hy : ∀ v ∈ p.aesthetics.y, v.InRange) (h : p.SamplesRagged) :
    ∃ shape, ∀ (o : Presentation) (s : Style),
      compile p o s .standard = .error (.number (.ragged shape)) := by
  obtain ⟨table, htable⟩ := Table.ofPlot_answers hx hy
  obtain ⟨shape, hshape⟩ := build_ragged h
  refine ⟨shape, fun o s => ?_⟩
  rw [compile, htable, ok_bind, hshape o s]
  rfl

/-- A description that has been read is compiled to a well-formed document with all options that
give a presentation, whatever its columns, statistics, color map and limits hold, as long as the
integers along the axes are within the range of doubles; except that a heat map which samples a
color map with rows of different lengths stops, and then because the rows are ragged. -/
theorem compileDescription_answers (settings : Settings) (description options : Value) (s : Style)
    (p : Plot) (o : Presentation) (hp : Plot.ofDescription description = .ok p)
    (ho : Presentation.ofOptions settings options (some p) = .ok o)
    (hx : ∀ v ∈ p.aesthetics.x, v.InRange) (hy : ∀ v ∈ p.aesthetics.y, v.InRange) :
    (¬ p.SamplesRagged →
      ∃ c, compileDescription settings description options s = .ok c ∧ Formed c.spec) ∧
    (p.SamplesRagged → ∃ shape, compileDescription settings description options s =
      .error (.number (.ragged shape))) := by
  obtain ⟨named, hread, ho⟩ := bind_eq_ok.mp ho
  have hcompile : compileDescription settings description options s = compile p o s .standard := by
    rw [compileDescription, hread, ok_bind, hp, ok_bind, ho, ok_bind]
  rw [hcompile]
  refine ⟨fun h => compile_formed hx hy h _ s, fun h => ?_⟩
  obtain ⟨shape, hshape⟩ := compile_ragged hx hy h
  exact ⟨shape, hshape _ s⟩

/-- A heat map of one cell with a color map of these rows. -/
def heatDescription (colormap : List Value) : Value :=
  .obj [("aes", .obj [("x", .list [.int 1]), ("y", .list [.int 2])]),
    ("results", .obj [("stat_bin2d", .obj [("counts", .list [.list [.int 5]]),
      ("edges", .obj [("x", .list [.int 0, .int 1]), ("y", .list [.int 0, .int 1])])])]),
    ("continuous_color_options", .obj [("active", .bool true), ("colormap", .list colormap)])]

/-- Two rows that are no colors. -/
def shortRows : List Value := [.list [.int 0, .int 0], .list [.int 1, .int 1]]

/-- A color and a row that is none. -/
def unequalRows : List Value := [.list [.int 0, .int 0, .int 0], .list [.int 1, .int 1]]

theorem columns_heatDescription {colormap : List Value}
    (hp : Plot.ofDescription (heatDescription colormap) = .ok p) :
    p.aesthetics.x = [.int 1] ∧ p.aesthetics.y = [.int 2] := by
  obtain ⟨raw, hraw, ha⟩ := (Plot.fromDescription hp).aesthetics
  obtain rfl := Except.ok.inj hraw
  exact ⟨ha.x, ha.y⟩

theorem inRange_heatDescription {colormap : List Value}
    (hp : Plot.ofDescription (heatDescription colormap) = .ok p) :
    (∀ v ∈ p.aesthetics.x, v.InRange) ∧ ∀ v ∈ p.aesthetics.y, v.InRange := by
  obtain ⟨hx, hy⟩ := columns_heatDescription hp
  rw [hx, hy, List.forall_mem_singleton, List.forall_mem_singleton]
  exact ⟨.scalar (by decide +kernel), .scalar (by decide +kernel)⟩

theorem compileDescription_answers_heatDescription :
    (∃ c, compileDescription {} (heatDescription shortRows) (.obj []) (Style.ofSettings {} none) =
      .ok c ∧ Formed c.spec) ∧
    ∃ shape, compileDescription {} (heatDescription unequalRows) (.obj [])
      (Style.ofSettings {} none) = .error (.number (.ragged shape)) := by
  have hshort : (Plot.ofDescription (heatDescription shortRows)).toOption.any (fun p =>
      (Presentation.ofOptions {} (.obj []) (some p)).toOption.isSome &&
        decide (¬ p.SamplesRagged)) = true := by decide +kernel
  have hunequal : (Plot.ofDescription (heatDescription unequalRows)).toOption.any (fun p =>
      (Presentation.ofOptions {} (.obj []) (some p)).toOption.isSome &&
        decide p.SamplesRagged) = true := by decide +kernel
  constructor
  · obtain ⟨p, hp, hfacts⟩ := exists_of_any hshort
    obtain ⟨hoptions, hsamples⟩ := Bool.and_eq_true_iff.mp hfacts
    obtain ⟨o, ho⟩ := exists_of_isSome hoptions
    obtain ⟨hx, hy⟩ := inRange_heatDescription hp
    exact (compileDescription_answers {} _ (.obj []) _ p o hp ho hx hy).1
      (of_decide_eq_true hsamples)
  · obtain ⟨p, hp, hfacts⟩ := exists_of_any hunequal
    obtain ⟨hoptions, hsamples⟩ := Bool.and_eq_true_iff.mp hfacts
    obtain ⟨o, ho⟩ := exists_of_isSome hoptions
    obtain ⟨hx, hy⟩ := inRange_heatDescription hp
    exact (compileDescription_answers {} _ (.obj []) _ p o hp ho hx hy).2
      (of_decide_eq_true hsamples)

/-- The description is read, its columns are in range and the options give a presentation, and yet
it is not compiled. -/
theorem compileDescription_unequalRows :
    (∃ p o, Plot.ofDescription (heatDescription unequalRows) = .ok p ∧
      Presentation.ofOptions {} (.obj []) (some p) = .ok o ∧
      p.aesthetics.x = [.int 1] ∧ p.aesthetics.y = [.int 2]) ∧
    ¬ ∃ c, compileDescription {} (heatDescription unequalRows) (.obj [])
      (Style.ofSettings {} none) = .ok c := by
  have hread : (Plot.ofDescription (heatDescription unequalRows)).toOption.any (fun p =>
      (Presentation.ofOptions {} (.obj []) (some p)).toOption.isSome) = true := by decide +kernel
  have hfails : (compileDescription {} (heatDescription unequalRows) (.obj [])
      (Style.ofSettings {} none)).toOption.isSome = false := by decide +kernel
  constructor
  · obtain ⟨p, hp, hoptions⟩ := exists_of_any hread
    obtain ⟨o, ho⟩ := exists_of_isSome hoptions
    exact ⟨p, o, hp, ho, columns_heatDescription hp⟩
  · rintro ⟨c, hc⟩
    rw [hc] at hfails
    cases hfails

end PlotScene
