import PlotScene.Proofs.Compile.Assembled
import PlotScene.Proofs.Layer.Registry
import PlotScene.Proofs.Reference.Formed

/-!
# Compiled documents are scoped

Whatever layers a plot has and in whatever order, every reference of the document that it compiles
to is in scope.
-/

namespace PlotScene

open Reference

/-! ## 1. Marks in scope -/

/-- Names of a view are visible inside these ancestors. -/
def NamesVisible (spec : Value) (as : List Value) (W : View) : Prop :=
  (∀ n, W.source n → VisibleSource spec as (.str n)) ∧
    ∀ n, W.scale n → VisibleScale spec as (.str n)

-- Inside a mark its facet and its own scales are visible as well.
theorem NamesVisible.inside {spec a g : Value} {as : List Value} {W : View} {name source : String}
    (h : NamesVisible spec as W) (hg : facetOf? a = some g)
    (hname : g.get? "name" = some (.str name)) :
    NamesVisible spec (a :: as) (W.inside name source (parts a "scales")) := by
  refine ⟨fun n hn => ?_, fun n hn => ?_⟩
  · rcases hn with rfl | hn
    · refine Or.inr ⟨a, List.mem_cons_self, ?_⟩
      rw [hg]
      exact declared_of_mem List.mem_cons_self hname
    · exact (h.1 n hn).cons
  · rcases hn with hn | hn
    · exact Or.inr ⟨a, List.mem_cons_self, hn⟩
    · exact (h.2 n hn).cons

theorem scalarOf_getD {v : Value} {key n : String} (h : v.get? key = some (.str n)) :
    scalarOf (v.getD key) = .str n := by
  rw [Value.getD_of_get? h]
  rfl

-- The scales that channels use are visible where the view has them.
theorem channels_visible {F : String → Prop} {spec encode : Value} {as : List Value} {W : View}
    (hW : NamesVisible spec as W) (henc : Encodes F W.scale encode) {e : Value} {n : String}
    (he : Value.Within e encode) (hn : e.get? "scale" = some (.str n)) :
    VisibleScale spec as (.str n) := by
  obtain ⟨k, hk, hs, -⟩ := (henc e he (by rw [Value.has, hn]; rfl)).scale
  obtain rfl : n = k := by simpa [hn] using hk
  exact hW.2 n hs

theorem markScoped_of_reads {spec m : Value} {as : List Value} {W : View}
    (hW : NamesVisible spec as W) (h : MarkReads W m) : MarkScoped spec as m := by
  cases h with
  | @flat _ _ source hfrom hs hflat =>
    refine ⟨fun d hd => ?_, fun g hg => ?_, fun c hc => ?_, fun e n he hn => ?_⟩
    · rw [hfrom] at hd
      obtain rfl := Option.some.inj (show some (Value.str source) = some d from hd)
      exact hW.1 source hs
    · rw [facetOf?, hfrom] at hg
      cases hg
    · rw [parts_of_get?_none hflat.scales] at hc
      cases hc
    · exact (channels_visible hW hflat.channels he hn).cons
  | @facet _ _ g name source cs hmap hfrom hname hdata hs hgroup hown henc hchildren hreads =>
    have hfacet := facetOf?_of_from hfrom hname
    have hin : NamesVisible spec (m :: as) (W.inside name source (parts m "scales")) :=
      hW.inside hfacet hname
    refine ⟨fun d hd => ?_, fun g' hg => ?_, fun c hc r hr => ?_, fun e n he hn => ?_⟩
    · rw [hfrom] at hd
      cases hd
    · obtain rfl := Option.some.inj (hfacet.symm.trans hg)
      rw [scalarOf_getD hdata]
      exact hW.1 source hs
    · obtain ⟨d, f, hd, -, hsource, -⟩ := (hown c hc).domain r hr
      rw [scalarOf_getD hd]
      exact hin.1 d hsource
    · exact channels_visible hin henc he hn

/-! ## 2. The view of a whole document -/

/-- Everything that a document names, with no regard to fields. -/
def nameView (spec : Value) : View where
  source n := Declared (parts spec "data") (.str n)
  field _ _ := True
  scale n := Declared (parts spec "scales") (.str n)

variable {fs : List Fragment} {rows : List Value} {spec : Value}

theorem declared_table (h : Assembled (Fragment.joined fs) rows spec) :
    Declared (parts spec "data") (.str "table") := by
  obtain ⟨extra, -, hdata⟩ := h.data
  rw [hdata]
  exact declared_of_mem List.mem_cons_self rfl

-- A source that some layer brings is declared in the document.
theorem declared_source (h : Assembled (Fragment.joined fs) rows spec) {f : Fragment}
    (hf : f ∈ fs) {d : Value} (hd : d ∈ f.data) {n : String}
    (hn : d.get? "name" = some (.str n)) : Declared (parts spec "data") (.str n) := by
  obtain ⟨extra, -, hdata⟩ := h.data
  have hmem : d ∈ (Fragment.joined fs).data := by
    rw [joined_data]
    exact List.mem_flatMap.mpr ⟨f, hf, hd⟩
  rcases declared_firsts hmem hn [.str Scene.tableName] with hs | ⟨v, hv, hsame⟩
  · rw [List.contains_cons, Bool.or_eq_true, str_beq_str] at hs
    rcases hs with rfl | hs
    · exact declared_table h
    · cases hs
  · rw [hdata]
    exact ⟨v, List.mem_cons_of_mem _ (List.mem_append_left _ hv), hsame⟩

theorem declared_scale (h : Assembled (Fragment.joined fs) rows spec) {f : Fragment}
    (hf : f ∈ fs) {c : Value} (hc : c ∈ f.scales) {n : String}
    (hn : c.get? "name" = some (.str n)) : Declared (parts spec "scales") (.str n) := by
  have hmem : c ∈ (Fragment.joined fs).scales := mem_joined_scales.mpr ⟨f, hf, hc⟩
  rw [h.scales]
  exact (declared_firsts hmem hn []).resolve_left (by simp)

-- The sources that a layer supplies are declared.
theorem declared_supply (h : Assembled (Fragment.joined fs) rows spec) {p : Plot}
    {o : Presentation} {s : Style} {kind : LayerKind} {f : Fragment} (hf : f ∈ fs)
    (hkind : kind.fragment p o s = .ok f) {d : Supply} (hd : d ∈ kind.supplies p s) :
    Declared (parts spec "data") (.str d.source) := by
  have hname : some (Value.str d.source) ∈ f.data.map (·.get? "name") := by
    rw [LayerKind.names_data hkind]
    exact List.mem_map.mpr ⟨d, hd, rfl⟩
  obtain ⟨v, hv, hn⟩ := List.mem_map.mp hname
  exact declared_source h hf hv hn

theorem exists_layer_of_scale (h : Assembled (Fragment.joined fs) rows spec) {c : Value}
    (hc : c ∈ parts spec "scales") : ∃ f ∈ fs, c ∈ f.scales := by
  rw [h.scales] at hc
  exact mem_joined_scales.mp (mem_of_mem_firstsAfter hc)

-- The rules of an interactive legend read nothing but the color scale, which the mark reads too.
theorem marks_read (h : Assembled (Fragment.joined fs) rows spec) {V : View}
    (hreads : ∀ f ∈ fs, f.Reads V) : ∀ m ∈ inside spec, MarkReads V m := by
  have hgiven : ∀ m ∈ (Fragment.joined fs).marks, MarkReads V m := by
    intro m hm
    obtain ⟨f, hf, hmf⟩ := mem_joined_marks.mp hm
    exact (hreads f hf).marks m hmf
  rcases h.marks with heq | ⟨neutral, hhigh⟩
  · rw [heq]
    exact hgiven
  · exact Highlight.markReads_marks hgiven hhigh

theorem based_joined {fs : List Fragment} (h : ∀ f ∈ fs, Based [] f.data) :
    Based [] (Fragment.joined fs).data := by
  rw [joined_data]
  induction fs with
  | nil => exact Based.nil
  | cons f fs ih =>
    obtain ⟨hf, hfs⟩ := List.forall_mem_cons.mp h
    rw [List.flatMap_cons]
    exact hf.append (ih hfs)

-- The table and the selection build on nothing, and a layer builds on its own earlier sources, the
-- first of which for each name is kept.
theorem based_parts (h : Assembled (Fragment.joined fs) rows spec)
    (hbased : ∀ f ∈ fs, Based [] f.data) : Based [] (parts spec "data") := by
  obtain ⟨extra, hextra, hdata⟩ := h.data
  have hselected : Based [Scene.tableName] extra := by
    rcases hextra with rfl | rfl
    · exact Based.nil
    · exact Based.cons (n := selectedName) rfl (Or.inl rfl) Based.nil
  have hfirsts : Based [Scene.tableName]
      (firstsAfter nameOf [.str Scene.tableName] (Fragment.joined fs).data) := by
    apply (based_joined hbased).firsts (List.forall_mem_nil _)
    intro u hu
    rw [List.contains_cons, Bool.or_eq_true, str_beq_str] at hu
    exact List.mem_singleton.mpr (hu.resolve_right (by simp))
  rw [hdata]
  exact Based.cons (n := Scene.tableName) rfl (Or.inl rfl) (hfirsts.append hselected)

/-- A fragment whose parts read within a view of the document leaves no name open. -/
theorem scoped_of_reads (h : Assembled (Fragment.joined fs) rows spec)
    (hreads : ∀ f ∈ fs, f.Reads (nameView spec)) (hbased : ∀ f ∈ fs, Based [] f.data) :
    Scoped spec := by
  refine ⟨?_, ?_, ?_, ?_, ?_⟩
  · intro before s after heq hs
    exact ((based_parts h hbased).declared heq hs).resolve_right (by simp)
  · intro c hc r hr
    obtain ⟨f, hf, hcf⟩ := exists_layer_of_scale h hc
    obtain ⟨d, field, hd, -, hsource, -⟩ := ((hreads f hf).scales c hcf).domain r hr
    rw [scalarOf_getD hd]
    exact hsource
  · intro a ha
    obtain ⟨b, hb, hab⟩ := h.axes a ha
    obtain ⟨f, hf, hbf⟩ := mem_joined_axes.mp hb
    obtain ⟨n, hn, hs⟩ := (hreads f hf).axes b hbf
    rw [scalarOf_getD (hab.trans hn)]
    exact hs
  · intro l hl channel hc hnull
    obtain ⟨hlegend, c, hcolor, hname⟩ := h.legends l hl
    have hdeclared := declared_of_mem hcolor hname
    -- Both legends show the color scale under one channel and leave the others out.
    simp only [legendChannels, List.mem_cons, List.not_mem_nil, or_false] at hc
    rcases hlegend with rfl | rfl <;> rcases hc with rfl | rfl | rfl | rfl <;>
      first | exact hdeclared | cases hnull
  · have hmarks := marks_read h hreads
    intro as m hat
    obtain ⟨W, hW, hm⟩ := markReads_at (P := NamesVisible spec) hmarks
      ⟨fun n hn => Or.inl hn, fun n hn => Or.inl hn⟩
      (fun as W a g name source hP hg hname _ => hP.inside hg hname) hat
    exact markScoped_of_reads hW hm

/-! ## 3. No reference is left open -/

theorem scoped_of_compile {p : Plot} {o : Presentation} {s : Style} {r : Registry} {c : Compiled}
    (hr : ∀ e ∈ r.builders, ∃ kind : LayerKind, e.2 = kind.builder)
    (h : compile p o s r = .ok c) : Scoped c.spec := by
  obtain ⟨table, fs, -, hkind, hassembled, -⟩ := assembled_of_compile hr h
  refine scoped_of_reads hassembled (fun f hf => ?_) fun f hf => ?_
  · obtain ⟨kind, hk⟩ := hkind f hf
    refine LayerKind.reads_fragment hk
      ⟨declared_table hassembled, trivial, trivial, trivial, trivial, fun _ => trivial⟩
      (fun d hd => ⟨declared_supply hassembled hf hk hd, fun _ _ => trivial⟩)
      fun c hc n hn => declared_scale hassembled hf hc hn
  · obtain ⟨kind, hk⟩ := hkind f hf
    exact LayerKind.based_data hk

/-- The check of references finds nothing in a compiled document. -/
theorem compile_resolves (p : Plot) (o : Presentation) (s : Style) (r : Registry) (c : Compiled)
    (hr : ∀ e ∈ r.builders, ∃ kind : LayerKind, e.2 = kind.builder)
    (h : compile p o s r = .ok c) : unresolved c.spec = .ok [] := by
  obtain ⟨-, -, -, -, -, ps, hps⟩ := assembled_of_compile hr h
  rw [hps, (unresolved_eq_ok hps).2.mpr (scoped_of_compile hr h)]

theorem builder_of_mem_standard :
    ∀ e ∈ Registry.standard.builders, ∃ kind : LayerKind, e.2 = kind.builder := by
  intro e he
  obtain ⟨kind, -, rfl⟩ := List.mem_map.mp he
  exact ⟨kind, rfl⟩

/-- Two groups of bars with a line each, and a curve with a band for the first group only. -/
def groupedPlot : Plot :=
  { Plot.ofAesthetics {
      x := [.str "a", .str "b"], y := [.int 1, .int 2], color := some [.str "r", .str "s"] } with
    declared := [.geometry .bar, .geometry .line]
    statistics := Statistics.empty.put .glm
      [⟨1, [0, 1], [1, 2], some ⟨[0, 1], [2, 3]⟩⟩, ⟨2, [0], [1], none⟩] }

theorem compile_groupedPlot :
    (compile groupedPlot { interactive := true } (Style.ofSettings {} none)
      .standard).toOption.isSome = true := by decide +kernel

theorem compile_resolves_groupedPlot :
    (∀ e ∈ Registry.standard.builders, ∃ kind : LayerKind, e.2 = kind.builder) ∧
      ∃ c, compile groupedPlot { interactive := true } (Style.ofSettings {} none) .standard =
        .ok c ∧ unresolved c.spec = .ok [] := by
  refine ⟨builder_of_mem_standard, ?_⟩
  have hsome := compile_groupedPlot
  cases hc : compile groupedPlot { interactive := true } (Style.ofSettings {} none) .standard with
  | error f =>
    rw [hc] at hsome
    cases hsome
  | ok c => exact ⟨c, rfl, compile_resolves _ _ _ _ c builder_of_mem_standard hc⟩

end PlotScene
