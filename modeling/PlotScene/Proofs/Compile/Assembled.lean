import PlotScene.Compile
import PlotScene.Proofs.Layer.Registration
import PlotScene.Proofs.Scene.Compose

/-!
# What a compiled document is assembled from

A compiled plot is the table of its observations together with the fragments of its layers, each of
which some registered builder made.
-/

namespace PlotScene

open Reference

/-! ## 1. Documents -/

/-- The parts of a document that a fragment and a table make, with or without a legend. -/
structure Assembled (f : Fragment) (rows : List Value) (spec : Value) : Prop where
  data : ∃ extra, (extra = [] ∨ extra = [selectionSource]) ∧
    parts spec "data" = Fragment.source Scene.tableName rows ::
      (firstsAfter nameOf [.str Scene.tableName] f.data ++ extra)
  scales : parts spec "scales" = firstsAfter nameOf [] f.scales
  axes : ∀ a ∈ parts spec "axes", ∃ b ∈ f.axes, a.get? "scale" = b.get? "scale"
  legends : ∀ l ∈ parts spec "legends", (l = Legend.static ∨ l = Legend.interactive) ∧
    ∃ c ∈ parts spec "scales", c.get? "name" = some (.str Highlight.colorScaleName)
  marks : inside spec = f.marks ∨
    ∃ neutral, Highlight.marks neutral f.marks = .ok (inside spec)

-- What is under the keys of a document says what it is assembled from.
theorem assembled_of_get? {f : Fragment} {rows extra axes legends marks : List Value} {spec : Value}
    (hextra : extra = [] ∨ extra = [selectionSource])
    (hdata : spec.get? "data" = some (.list (Fragment.source Scene.tableName rows ::
      (firstsAfter nameOf [.str Scene.tableName] f.data ++ extra))))
    (hscales : spec.get? "scales" = some (.list (firstsAfter nameOf [] f.scales)))
    (haxes : spec.get? "axes" = some (.list axes))
    (hsides : ∀ a ∈ axes, ∃ b ∈ f.axes, a.get? "scale" = b.get? "scale")
    (hlegends : parts spec "legends" = legends)
    (hlegend : ∀ l ∈ legends, (l = Legend.static ∨ l = Legend.interactive) ∧
      ∃ c ∈ firstsAfter nameOf [] f.scales, c.get? "name" = some (.str Highlight.colorScaleName))
    (hmarks : spec.get? "marks" = some (.list marks))
    (hgiven : marks = f.marks ∨ ∃ neutral, Highlight.marks neutral f.marks = .ok marks) :
    Assembled f rows spec := by
  have hparts : parts spec "scales" = firstsAfter nameOf [] f.scales := parts_of_get? hscales
  have hinside : inside spec = marks := by
    rw [inside, Value.getD_of_get? hmarks]
    rfl
  refine ⟨⟨extra, hextra, parts_of_get? hdata⟩, hparts, ?_, ?_, ?_⟩
  · rw [parts_of_get? haxes]
    exact hsides
  · rw [hlegends, hparts]
    exact hlegend
  · rw [hinside]
    exact hgiven

theorem assembled_of_merged {f : Fragment} {rows : List Value} {spec : Value}
    (h : Scene.Merged f rows spec) : Assembled f rows spec := by
  obtain ⟨axes, haxes, hsides⟩ := h.axes
  refine assembled_of_get? (Or.inl rfl) ?_ h.scales haxes hsides (parts_of_get?_none h.legends)
    (List.forall_mem_nil _) h.marks (Or.inl rfl)
  rw [List.append_nil]
  exact h.data

-- The items of a list that stands under a key.
theorem itemsUnder_of_get? {v : Value} {key : String} {vs ws : List Value}
    (hv : v.get? key = some (.list vs)) (h : v.itemsUnder key = .ok ws) : ws = vs := by
  rw [← parts_of_itemsUnder h]
  exact parts_of_get? hv

section

variable {f : Fragment} {rows : List Value} {spec c : Value} (hm : Scene.Merged f rows spec)
  (hc : c ∈ firstsAfter nameOf [] f.scales)
  (hname : c.get? "name" = some (.str Highlight.colorScaleName))
include hm hc hname

theorem assembled_of_static (padding : Value) :
    Assembled f rows ((spec.set "legends" (.list [Legend.static])).set "padding" padding) := by
  have hmap : spec.isMap = true := Value.isMap_of_get? hm.data
  obtain ⟨axes, haxes, hsides⟩ := hm.axes
  have hkey (key : String) :
      ((spec.set "legends" (.list [Legend.static])).set "padding" padding).get? key =
        if key = "padding" then some padding
        else if key = "legends" then some (.list [Legend.static])
        else spec.get? key := by
    simp only [Value.get?_set, Value.isMap_set, hmap, eq_comm]
  have hlegends : ((spec.set "legends" (.list [Legend.static])).set "padding" padding).get?
      "legends" = some (.list [Legend.static]) := hkey "legends"
  refine assembled_of_get? (Or.inl rfl) ?_ ?_ ?_ hsides (parts_of_get? hlegends) ?_ ?_
    (Or.inl rfl)
  · rw [hkey, List.append_nil]
    exact hm.data
  · rw [hkey]
    exact hm.scales
  · rw [hkey]
    exact haxes
  · exact List.forall_mem_singleton.mpr ⟨Or.inl rfl, c, hc, hname⟩
  · rw [hkey]
    exact hm.marks

-- The signals that a document may have had do not matter, since nothing reads them.
theorem assembled_of_interactive {neutral : String} {signals data given marks : List Value}
    (padding : Value) (hdata : spec.itemsUnder "data" = .ok data)
    (hgiven : spec.itemsUnder "marks" = .ok given)
    (hmarks : Highlight.marks neutral given = .ok marks) :
    Assembled f rows ((spec.setAll [("signals", .list signals),
      ("data", .list (data ++ [selectionSource])), ("legends", .list [Legend.interactive]),
      ("marks", .list marks)]).set "padding" padding) := by
  have hmap : spec.isMap = true := Value.isMap_of_get? hm.data
  obtain ⟨axes, haxes, hsides⟩ := hm.axes
  have hd := itemsUnder_of_get? hm.data hdata
  obtain rfl := itemsUnder_of_get? hm.marks hgiven
  generalize hspec : Value.set _ "padding" padding = final
  have hkey (key : String) : final.get? key =
      if key = "padding" then some padding
      else if key = "marks" then some (.list marks)
      else if key = "legends" then some (.list [Legend.interactive])
      else if key = "data" then some (.list (data ++ [selectionSource]))
      else if key = "signals" then some (.list signals)
      else spec.get? key := by
    rw [← hspec]
    simp only [Value.setAll, List.foldl_cons, List.foldl_nil, Value.get?_set, Value.isMap_set,
      hmap, eq_comm]
  have hlegends : final.get? "legends" = some (.list [Legend.interactive]) := hkey "legends"
  refine assembled_of_get? (Or.inr rfl) ?_ ?_ ?_ hsides (parts_of_get? hlegends) ?_ (hkey "marks")
    (Or.inr ⟨neutral, hmarks⟩)
  · rw [hkey, hd]
    rfl
  · rw [hkey]
    exact hm.scales
  · rw [hkey]
    exact haxes
  · exact List.forall_mem_singleton.mpr ⟨Or.inr rfl, c, hc, hname⟩

end

theorem assembled_of_composed {f : Fragment} {rows : List Value} {s : Style} {spec spec' : Value}
    (hm : Scene.Merged f rows spec) (hc : Legend.Composed s spec spec')
    (hcolor : spec' = spec ∨
      ∃ cs, spec.itemsUnder "scales" = .ok cs ∧ Legend.hasColorScale cs = .ok true) :
    Assembled f rows spec' := by
  rcases hcolor with rfl | ⟨cs, hcs, hyes⟩
  · exact assembled_of_merged hm
  -- Where a legend was added, the color scale that it explains is one of the document.
  obtain ⟨c, hc', hname⟩ := Legend.hasColorScale_eq_true hyes
  rw [itemsUnder_of_get? hm.scales hcs] at hc'
  cases hc with
  | none => exact assembled_of_merged hm
  | static padding => exact assembled_of_static hm hc' hname padding
  | interactive padding hpresent hdata hgiven hmarks =>
    exact assembled_of_interactive hm hc' hname padding hdata hgiven hmarks

/-! ## 2. Layers -/

-- A part of fragments that are put one after the other.
theorem foldl_append (part : Fragment → List Value)
    (hpart : ∀ f g : Fragment, part (f.append g) = part f ++ part g) (fs : List Fragment)
    (acc : Fragment) : part (fs.foldl Fragment.append acc) = part acc ++ fs.flatMap part := by
  induction fs generalizing acc with
  | nil => simp
  | cons f fs ih => rw [List.foldl_cons, ih, hpart, List.flatMap_cons, List.append_assoc]

/-- The parts of all layers. -/
def Fragment.joined (fs : List Fragment) : Fragment :=
  fs.foldl Fragment.append {}

theorem joined_data (fs : List Fragment) :
    (Fragment.joined fs).data = fs.flatMap Fragment.data :=
  foldl_append Fragment.data (fun _ _ => rfl) fs {}

theorem joined_scales (fs : List Fragment) :
    (Fragment.joined fs).scales = fs.flatMap Fragment.scales :=
  foldl_append Fragment.scales (fun _ _ => rfl) fs {}

theorem joined_axes (fs : List Fragment) :
    (Fragment.joined fs).axes = fs.flatMap Fragment.axes :=
  foldl_append Fragment.axes (fun _ _ => rfl) fs {}

theorem joined_marks (fs : List Fragment) :
    (Fragment.joined fs).marks = fs.flatMap Fragment.marks :=
  foldl_append Fragment.marks (fun _ _ => rfl) fs {}

theorem mem_joined_scales {fs : List Fragment} {c : Value} :
    c ∈ (Fragment.joined fs).scales ↔ ∃ f ∈ fs, c ∈ f.scales := by
  rw [joined_scales, List.mem_flatMap]

theorem mem_joined_axes {fs : List Fragment} {a : Value} :
    a ∈ (Fragment.joined fs).axes ↔ ∃ f ∈ fs, a ∈ f.axes := by
  rw [joined_axes, List.mem_flatMap]

theorem mem_joined_marks {fs : List Fragment} {m : Value} :
    m ∈ (Fragment.joined fs).marks ↔ ∃ f ∈ fs, m ∈ f.marks := by
  rw [joined_marks, List.mem_flatMap]

-- Every layer is what a registered builder makes.
theorem builder_of_mem_buildKinds {p : Plot} {o : Presentation} {s : Style} {r : Registry}
    {kinds : List LayerKind} {layers : List Layer} (h : p.buildKinds o s r kinds = .ok layers)
    {layer : Layer} (hl : layer ∈ layers) :
    ∃ e ∈ r.builders, e.2.build p o s = .ok layer.fragment := by
  obtain ⟨kind, -, hmakes⟩ := forall₂_mem_right (buildKinds_eq_ok.mp h) hl
  obtain ⟨b, hb, hf⟩ := hmakes.builder
  obtain ⟨l₁, l₂, heq, -⟩ := List.lookup_eq_some_iff.mp hb
  exact ⟨(kind, b), by rw [heq]; simp, hf⟩

-- Where all builders are built-in ones, each layer is the fragment of some kind.
theorem kind_of_mem_build {p : Plot} {o : Presentation} {s : Style} {r : Registry}
    {layers : List Layer} {notices : List Notice}
    (hr : ∀ e ∈ r.builders, ∃ kind : LayerKind, e.2 = kind.builder)
    (h : p.build o s r = .ok (layers, notices)) :
    ∀ f ∈ layers.map Layer.fragment, ∃ kind : LayerKind, kind.fragment p o s = .ok f := by
  intro f hf
  obtain ⟨layer, hl, rfl⟩ := List.mem_map.mp hf
  obtain ⟨e, he, hb⟩ := builder_of_mem_buildKinds (buildKinds_of_build h).1 hl
  obtain ⟨kind, hkind⟩ := hr e he
  rw [hkind] at hb
  exact ⟨kind, hb⟩

/-- What a compiled plot says about the stages of its compilation: the table, the layers, the
document that they are assembled to, and the problems found in it. -/
theorem stages_of_compile {p : Plot} {o : Presentation} {s : Style} {r : Registry} {c : Compiled}
    (h : compile p o s r = .ok c) :
    ∃ table layers told ps, Table.ofPlot p = .ok table ∧ p.build o s r = .ok (layers, told) ∧
      Assembled (Fragment.joined (layers.map Layer.fragment)) table.rows c.spec ∧
      unresolved c.spec = .ok ps ∧ c.layers = layers.map Layer.kind ∧
      c.notices = p.notices ++ table.notice?.toList ++ p.overflowNotices s ++ told ++
        ps.map Problem.notice := by
  obtain ⟨table, htable, h⟩ := bind_eq_ok.mp h
  obtain ⟨⟨layers, told⟩, hlayers, h⟩ := bind_eq_ok.mp h
  obtain ⟨merged, hmerged, h⟩ := bind_eq_ok.mp h
  obtain ⟨spec, hspec, h⟩ := bind_eq_ok.mp h
  obtain ⟨ps, hps, h⟩ := bind_eq_ok.mp h
  obtain ⟨hcomposed, hcolor⟩ := Legend.composed_compose hspec
  rw [← Except.ok.inj h]
  exact ⟨table, layers, told, ps, htable, hlayers,
    assembled_of_composed (Scene.merged_document hmerged) hcomposed hcolor, hps, rfl, rfl⟩

/-- A plot that built-in builders compile is assembled from the table and from the fragments of
some kinds of layers, and its references have been read. -/
theorem assembled_of_compile {p : Plot} {o : Presentation} {s : Style} {r : Registry}
    {c : Compiled} (hr : ∀ e ∈ r.builders, ∃ kind : LayerKind, e.2 = kind.builder)
    (h : compile p o s r = .ok c) :
    ∃ table fs, Table.ofPlot p = .ok table ∧
      (∀ f ∈ fs, ∃ kind : LayerKind, kind.fragment p o s = .ok f) ∧
      Assembled (Fragment.joined fs) table.rows c.spec ∧
      ∃ ps, unresolved c.spec = .ok ps := by
  obtain ⟨table, layers, told, ps, htable, hlayers, hassembled, hps, -⟩ := stages_of_compile h
  exact ⟨table, layers.map Layer.fragment, htable, kind_of_mem_build hr hlayers, hassembled, ps,
    hps⟩

end PlotScene
