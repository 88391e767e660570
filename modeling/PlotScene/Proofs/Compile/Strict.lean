import PlotScene.Proofs.Compile.References
import PlotScene.Proofs.Json.Writer
import PlotScene.Proofs.Layer.Strict
import PlotScene.Proofs.Presentation

/-!
# Compiled documents are strict

Merging fragments, adding a legend and highlighting marks only put together strict values, so no
double that is infinite or NaN reaches a document, whatever the observations and the statistics are.
A strict document is written in every layout, as long as no integer in it has too many digits.
-/

namespace PlotScene

open Value

/-! ## 1. Items -/

theorem Value.Strict.of_iterate {v : Value} {vs : List Value} (h : v.Strict)
    (hv : v.iterate = .ok vs) : ∀ x ∈ vs, x.Strict := by
  cases h with
  | list hitems =>
    rw [← Except.ok.inj hv]
    exact hitems
  | map hk _ =>
    rw [← Except.ok.inj hv]
    intro x hx
    obtain ⟨e, he, rfl⟩ := List.mem_map.mp hx
    exact Strict.scalar (hk e he)
  | @scalar s hs =>
    cases s with
    | str text =>
      rw [← Except.ok.inj hv]
      intro x hx
      obtain ⟨c, -, rfl⟩ := List.mem_map.mp hx
      exact Strict.scalar rfl
    | _ => cases hv

theorem Value.Strict.of_itemsUnder {v : Value} {key : String} {vs : List Value} (h : v.Strict)
    (hv : v.itemsUnder key = .ok vs) : ∀ x ∈ vs, x.Strict := by
  obtain ⟨entry, hentry, hv⟩ := bind_eq_ok.mp hv
  cases entry with
  | none =>
    rw [← Except.ok.inj hv]
    exact List.forall_mem_nil _
  | some items =>
    have hget : v.get? key = some items := by
      cases v with
      | map es => exact Except.ok.inj hentry
      | _ => cases hentry
    exact (h.of_get? hget).of_iterate hv

/-! ## 2. Merged documents -/

namespace Scene

-- The first parts are among all parts.
theorem strict_firstParts {field : String} {taken : List Scalar} {vs : List Value}
    {ks : List Keyed} (h : firstParts field taken vs = .ok ks) (hvs : ∀ v ∈ vs, v.Strict) :
    ∀ k ∈ ks, k.part.Strict := by
  intro k hk
  have hpart : k.part ∈ ks.map Keyed.part := List.mem_map.mpr ⟨k, hk, rfl⟩
  rw [firstParts_map h] at hpart
  exact hvs _ (mem_of_mem_firstsAfter hpart)

theorem strict_titled (o : Presentation) {axis : Keyed} (h : axis.part.Strict) :
    (titled o axis).Strict := by
  rw [titled]
  split
  · exact h.set (Strict.scalar rfl) "title"
  · exact h.set (Strict.scalar rfl) "title"
  · exact h

theorem strict_padding (s : Style) (withLegend : Bool) : (s.padding withLegend).Strict := by
  simp [Style.padding]

theorem strict_frame (s : Style) {o : Presentation} (ho : o.Strict) :
    (s.frame (.scalar o.widthInPixels) (.scalar o.heightInPixels)).Strict := by
  simp [Style.frame, ho.width, ho.height, strict_padding]

theorem strict_document {f : Fragment} {rows : List Value} {o : Presentation} {s : Style}
    {spec : Value} (hf : f.Strict) (hrows : ∀ row ∈ rows, row.Strict) (ho : o.Strict)
    (h : document f rows o s = .ok spec) : spec.Strict := by
  obtain ⟨scales, hscales, h⟩ := bind_eq_ok.mp h
  obtain ⟨data, hdata, h⟩ := bind_eq_ok.mp h
  obtain ⟨axes, haxes, h⟩ := bind_eq_ok.mp h
  have hparts {ks : List Keyed} (hk : ∀ k ∈ ks, k.part.Strict) :
      ∀ v ∈ ks.map Keyed.part, v.Strict := List.forall_mem_map.mpr hk
  have hsides : ∀ v ∈ axes.map (titled o), v.Strict :=
    List.forall_mem_map.mpr fun k hk => strict_titled o (strict_firstParts haxes hf.axes k hk)
  have htable : (Fragment.source tableName rows).Strict := strict_source _ hrows
  have hfilled : ((s.frame (.scalar o.widthInPixels) (.scalar o.heightInPixels)).setAll
      [("data", .list (Fragment.source tableName rows :: data.map Keyed.part)),
        ("scales", .list (scales.map Keyed.part)), ("axes", .list (axes.map (titled o))),
        ("marks", .list f.marks)]).Strict := by
    apply (strict_frame s ho).setAll
    simp only [List.forall_mem_cons, strict_list]
    exact ⟨⟨htable, hparts (strict_firstParts hdata hf.data)⟩,
      hparts (strict_firstParts hscales hf.scales), hsides, hf.marks, List.forall_mem_nil _⟩
  rw [← Except.ok.inj h]
  split
  · exact hfilled.set (Strict.scalar rfl) "title"
  · exact hfilled

end Scene

/-! ## 3. Highlighted marks -/

namespace Highlight

theorem strict_opacityRule : opacityRule.Strict := by
  simp [opacityRule, rule, activeOpacity, inactiveOpacity]

theorem strict_colorRule (neutral : String) : (colorRule neutral).Strict := by
  simp [colorRule, rule]

theorem strict_foldl_withRules (neutral : String) (channels : List String) {update : Value}
    (h : update.Strict) : (channels.foldl (withRules neutral) update).Strict := by
  induction channels generalizing update with
  | nil => exact h
  | cons channel channels ih =>
    exact ih ((h.set strict_opacityRule "opacity").set (strict_colorRule neutral) channel)

theorem strict_encode {neutral : String} {encoding encoding' : Value} (h : encoding.Strict)
    (he : encode neutral encoding = .ok encoding') : encoding'.Strict := by
  rw [encode] at he
  split at he
  next => exact Except.ok.inj he ▸ h
  next =>
    dsimp only at he
    split at he
    next =>
      rw [← Except.ok.inj he]
      refine h.set (strict_foldl_withRules neutral _ ?_) "update"
      cases hu : encoding.get? "update" with
      | none => exact strict_map.mpr (List.forall_mem_nil _)
      | some u => exact h.of_get? hu
    next => cases he

theorem strict_marks {neutral : String} {vs vs' : List Value}
    (hmark : ∀ v ∈ vs, ∀ m', mark neutral v = .ok m' → m'.Strict)
    (h : marks neutral vs = .ok vs') : ∀ m' ∈ vs', m'.Strict := by
  intro m' hm'
  obtain ⟨m, hm, hok⟩ := exists_of_mem_marks h hm'
  exact hmark m hm m' hok

theorem strict_entries {neutral : String} {es es' : Entries}
    (hk : ∀ e ∈ es, e.1.isStrict = true) (hv : ∀ e ∈ es, e.2.Strict)
    (hchildren : ∀ e ∈ es, ∀ y, children neutral e.2 = .ok y → y.Strict)
    (h : entries neutral es = .ok es') : ∀ e ∈ es', e.1.isStrict = true ∧ e.2.Strict := by
  induction es generalizing es' with
  | nil =>
    obtain rfl := Except.ok.inj h
    exact List.forall_mem_nil _
  | cons e es ih =>
    obtain ⟨hk, hks⟩ := List.forall_mem_cons.mp hk
    obtain ⟨hv, hvs⟩ := List.forall_mem_cons.mp hv
    obtain ⟨hc, hcs⟩ := List.forall_mem_cons.mp hchildren
    obtain ⟨here, rest, rfl, hrest, hhere⟩ := entries_cons_eq_ok h
    refine List.forall_mem_cons.mpr ⟨⟨hk, ?_⟩, ih hks hvs hcs hrest⟩
    split at hhere
    · exact strict_encode hv hhere
    · split at hhere
      · exact hc here hhere
      · exact Except.ok.inj hhere ▸ hv

-- The marks of a mark stand under one of its keys, so marks and lists of marks go together: each
-- value of a strict one is taken once as a mark and once as the marks inside.
theorem strict_mark_children (neutral : String) {v : Value} (hv : v.Strict) :
    (∀ m', mark neutral v = .ok m' → m'.Strict) ∧
      ∀ y, children neutral v = .ok y → y.Strict := by
  induction hv with
  | @scalar s hs =>
    refine ⟨fun m' h => (by cases h), fun y h => ?_⟩
    obtain ⟨items, -, h⟩ := bind_eq_ok.mp h
    split at h
    next => exact Except.ok.inj h ▸ Strict.scalar hs
    next => cases h
  | @list vs hvs ih =>
    refine ⟨fun m' h => (by cases h), fun y h => ?_⟩
    obtain ⟨vs', hmarks, h⟩ := bind_eq_ok.mp h
    rw [← Except.ok.inj h]
    exact Strict.list (strict_marks (fun v hv => (ih v hv).1) hmarks)
  | @map es hk hv ih =>
    refine ⟨fun m' h => ?_, fun y h => ?_⟩
    · obtain ⟨es', hes, h⟩ := bind_eq_ok.mp h
      rw [← Except.ok.inj h]
      exact strict_map.mpr (strict_entries hk hv (fun e he => (ih e he).2) hes)
    · obtain ⟨items, -, h⟩ := bind_eq_ok.mp h
      split at h
      next => exact Except.ok.inj h ▸ Strict.map hk hv
      next => cases h

end Highlight

/-! ## 4. Legends -/

namespace Legend

theorem strict_static : static.Strict := by
  simp [static]

theorem strict_signals : ∀ v ∈ signals, v.Strict := by
  simp [signals, signal]

theorem strict_selectionSource : selectionSource.Strict := by
  have htrigger (t : Trigger) : t.toValue.Strict := by
    obtain ⟨test, action⟩ := t
    cases action <;> simp [Trigger.toValue, TriggerAction.field]
  simp [selectionSource, htrigger]

theorem strict_interactive : interactive.Strict := by
  simp [interactive, interactivePart, Highlight.rule, activeOpacity, inactiveOpacity]

theorem strict_widened {spec padding : Value} {s : Style} (hs : spec.Strict)
    (h : widened spec s = .ok padding) : padding.Strict := by
  obtain ⟨given, hgiven, h⟩ := bind_eq_ok.mp h
  obtain ⟨-, rfl⟩ := Value.isMap_of_field hgiven
  obtain ⟨b, -, h⟩ := bind_eq_ok.mp h
  have hchosen : (if b = true then spec.getD "padding" else s.padding false).Strict := by
    split
    · exact hs.getD "padding"
    · exact Scene.strict_padding s false
  dsimp only at h
  generalize (if b = true then spec.getD "padding" else s.padding false) = chosen at h hchosen
  split at h
  next =>
    rw [← Except.ok.inj h]
    exact hchosen.set (Strict.scalar rfl) "right"
  next => cases h

theorem strict_addInteractive {spec shown : Value} {s : Style} (hs : spec.Strict)
    (h : addInteractive spec s = .ok shown) : shown.Strict := by
  obtain ⟨present, hpresent, h⟩ := bind_eq_ok.mp h
  obtain ⟨data, hdata, h⟩ := bind_eq_ok.mp h
  obtain ⟨given, hgiven, h⟩ := bind_eq_ok.mp h
  obtain ⟨marks, hmarks, h⟩ := bind_eq_ok.mp h
  have hstrict := Highlight.strict_marks
    (fun v hv => (Highlight.strict_mark_children _ (hs.of_itemsUnder hgiven v hv)).1) hmarks
  rw [← Except.ok.inj h]
  apply hs.setAll
  simp only [List.forall_mem_cons, strict_list, List.forall_mem_append]
  exact ⟨⟨hs.of_itemsUnder hpresent, strict_signals⟩,
    ⟨hs.of_itemsUnder hdata, strict_selectionSource, List.forall_mem_nil _⟩,
    ⟨strict_interactive, List.forall_mem_nil _⟩, hstrict, List.forall_mem_nil _⟩

theorem strict_compose {spec spec' : Value} {rows : List Value} {reacts : Bool} {s : Style}
    (hs : spec.Strict) (h : compose spec rows reacts s = .ok spec') : spec'.Strict := by
  obtain ⟨needed, -, h⟩ := bind_eq_ok.mp h
  split at h
  next =>
    split at h
    next =>
      obtain ⟨shown, hshown, h⟩ := bind_eq_ok.mp h
      obtain ⟨padding, hpadding, h⟩ := bind_eq_ok.mp h
      rw [← Except.ok.inj h]
      exact (strict_addInteractive hs hshown).set (strict_widened hs hpadding) "padding"
    next =>
      obtain ⟨shown, hshown, h⟩ := bind_eq_ok.mp h
      obtain ⟨padding, hpadding, h⟩ := bind_eq_ok.mp h
      rw [← Except.ok.inj h, ← Except.ok.inj hshown]
      refine (hs.set ?_ "legends").set (strict_widened hs hpadding) "padding"
      exact strict_list.mpr (List.forall_mem_singleton.mpr strict_static)
  next => exact Except.ok.inj h ▸ hs

end Legend

/-! ## 5. Compiled documents -/

theorem Fragment.Strict.append {f g : Fragment} (hf : f.Strict) (hg : g.Strict) :
    (f.append g).Strict :=
  ⟨List.forall_mem_append.mpr ⟨hf.data, hg.data⟩,
    List.forall_mem_append.mpr ⟨hf.scales, hg.scales⟩,
    List.forall_mem_append.mpr ⟨hf.axes, hg.axes⟩,
    List.forall_mem_append.mpr ⟨hf.marks, hg.marks⟩⟩

theorem Fragment.strict_foldl_append {fs : List Fragment} (h : ∀ f ∈ fs, f.Strict)
    {acc : Fragment} (hacc : acc.Strict) : (fs.foldl Fragment.append acc).Strict := by
  induction fs generalizing acc with
  | nil => exact hacc
  | cons f fs ih =>
    obtain ⟨hf, hfs⟩ := List.forall_mem_cons.mp h
    exact ih hfs (hacc.append hf)

theorem Fragment.strict_empty : ({} : Fragment).Strict := by
  constructor <;> exact List.forall_mem_nil _

/-- The document of a plot is strict whatever doubles its observations and statistics hold. -/
theorem strict_compile {p : Plot} {o : Presentation} {s : Style} {r : Registry} {c : Compiled}
    (hp : p.Strict) (ho : o.Strict)
    (hr : ∀ e ∈ r.builders, ∃ kind : LayerKind, e.2 = kind.builder)
    (h : compile p o s r = .ok c) : c.spec.Strict := by
  obtain ⟨table, htable, h⟩ := bind_eq_ok.mp h
  obtain ⟨⟨layers, notices⟩, hlayers, h⟩ := bind_eq_ok.mp h
  obtain ⟨merged, hmerged, h⟩ := bind_eq_ok.mp h
  obtain ⟨spec, hspec, h⟩ := bind_eq_ok.mp h
  obtain ⟨problems, -, h⟩ := bind_eq_ok.mp h
  rw [← Except.ok.inj h]
  -- What is merged is strict part by part, and nothing that follows adds a number of its own.
  have hrows := Table.strict_ofPlot hp htable
  have hfragments : ∀ f ∈ layers.map Layer.fragment, f.Strict := by
    intro f hf
    obtain ⟨kind, hk⟩ := kind_of_mem_build hr hlayers f hf
    exact LayerKind.strict_fragment hp.limits hk
  have hall := Fragment.strict_foldl_append hfragments Fragment.strict_empty
  exact Legend.strict_compose (Scene.strict_document hall hrows ho hmerged) hspec

/-- No double in a compiled document is infinite or NaN, at any depth, and the document is written
in every layout unless an integer in it has too many digits.  The description may hold any values
but for the bounds of intervals, whose entries are scalars, and the sizes of the settings lie in the
range of doubles. -/
theorem compileDescription_strict (settings : Settings) (description options : Value) (s : Style)
    (c : Compiled) (hbounds : ScalarBounds description)
    (hwidth : (Double.ofInt? settings.defaultWidth).isSome = true)
    (hheight : (Double.ofInt? settings.defaultHeight).isSome = true)
    (h : compileDescription settings description options s = .ok c) :
    (∀ x ∈ c.spec.floats, x.isFinite = true) ∧
      (c.spec.hasText = true → ∀ l, ∃ text, Json.document? l c.spec = .ok text) := by
  obtain ⟨named, -, h⟩ := bind_eq_ok.mp h
  obtain ⟨p, hp, h⟩ := bind_eq_ok.mp h
  obtain ⟨o, ho, h⟩ := bind_eq_ok.mp h
  have hstrict : c.spec.Strict := strict_compile (Plot.strict_of_description hp hbounds)
    (Presentation.strict_ofNamedValues ho hwidth hheight) builder_of_mem_standard h
  exact ⟨hstrict.finite, Json.document?_of_strict hstrict⟩

/-- Intervals whose bounds are not all finite, bins without an end, and a point beyond all numbers.
-/
def boundlessDescription : Value :=
  .obj [
    ("aes", .obj [("x", .list [.int 1, .int 2]), ("y", .list [.int 3, .float Double.nan]),
      ("ymin", .list [.float Double.nan, .int 2]),
      ("ymax", .list [.float Double.infinity, .float (-Double.infinity)])]),
    ("geoms", .list [.str "interval"]),
    ("results", .obj [("stat_bin", .obj [
      ("edges", .list [.int 0, .int 1, .float Double.infinity]),
      ("counts", .list [.int 4, .float Double.nan])])])]

theorem scalarBounds_boundlessDescription : ScalarBounds boundlessDescription := by
  intro key hkey vs hvs
  simp only [List.mem_cons, List.not_mem_nil, or_false] at hkey
  rcases hkey with rfl | rfl
  · obtain rfl := Option.some.inj hvs
    simp [AllScalars]
  · obtain rfl := Option.some.inj hvs
    simp [AllScalars]

theorem compileDescription_boundlessDescription :
    (compileDescription {} boundlessDescription (.obj [("interactive", .bool true)])
      (Style.ofSettings {} none)).toOption.any (fun c => c.spec.hasText) = true := by decide +kernel

theorem compileDescription_strict_boundlessDescription :
    ∃ c, compileDescription {} boundlessDescription (.obj [("interactive", .bool true)])
      (Style.ofSettings {} none) = .ok c ∧ (∀ x ∈ c.spec.floats, x.isFinite = true) ∧
        ∀ l, ∃ text, Json.document? l c.spec = .ok text := by
  obtain ⟨c, hc, htext⟩ := exists_of_any compileDescription_boundlessDescription
  obtain ⟨hfinite, hwritten⟩ := compileDescription_strict {} boundlessDescription _ _ c
    scalarBounds_boundlessDescription (by decide +kernel) (by decide +kernel) hc
  exact ⟨c, hc, hfinite, hwritten htext⟩

end PlotScene
