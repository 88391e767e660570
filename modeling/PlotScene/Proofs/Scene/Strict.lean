import PlotScene.Layer.Coloring
import PlotScene.Scene.Fragment
import PlotScene.Scene.Mark
import PlotScene.Proofs.Double.Scientific
import PlotScene.Proofs.Numeric.Sequence
import PlotScene.Proofs.Value.Strict

/-!
# The parts of a document are strict

Encodings, scales, axes and marks consist of texts, of constants and of what the caller hands over,
and so they are strict where that is.  The doubles among the constants are decimals.
-/

namespace PlotScene

open Value

/-! ## 1. Encodings -/

@[simp]
theorem strict_constant (v : Value) : (constant v).Strict ↔ v.Strict := by
  simp only [constant, strict_obj, List.forall_mem_singleton]

@[simp]
theorem strict_scaled (scale field : String) (more : List (String × Value)) :
    (scaled scale field more).Strict ↔ ∀ f ∈ more, f.2.Strict := by
  rw [scaled, strict_obj, List.forall_mem_append]
  simp

@[simp]
theorem strict_signalRef (expression : String) : (signalRef expression).Strict := by
  simp [signalRef]

@[simp]
theorem strict_zeroBaseline : zeroBaseline.Strict := by
  simp [zeroBaseline]

@[simp]
theorem strict_sortBy (field : String) : (sortBy field).Strict := by
  simp [sortBy]

theorem strict_mappingOr {v : Value} (h : v.Strict) : (mappingOr v).Strict := by
  rw [mappingOr]
  split
  · exact h
  · exact strict_map.mpr (List.forall_mem_nil _)

theorem strict_withTooltip {mark : Value} (h : mark.Strict) (o : Presentation)
    (expression : String) : (withTooltip mark o expression).Strict := by
  have hencode : (mappingOr (mark.getD "encode")).Strict := strict_mappingOr (h.getD "encode")
  rw [withTooltip]
  split
  · have hupdate := (strict_mappingOr (hencode.getD "update")).set
      (strict_signalRef expression) "tooltip"
    exact h.set (hencode.set hupdate "update") "encode"
  · exact h.set hencode "encode"

/-! ## 2. Scales -/

@[simp]
theorem strict_dataRef (source field : String) (sorted : Bool) :
    (dataRef source field sorted).Strict := by
  cases sorted <;> simp [dataRef]

@[simp]
theorem strict_unionDomain (refs : List (String × String)) : (unionDomain refs).Strict := by
  rw [unionDomain, strict_obj, List.forall_mem_singleton, strict_list]
  intro v hv
  obtain ⟨r, -, rfl⟩ := List.mem_map.mp hv
  exact strict_dataRef r.1 r.2 false

theorem extremes_of_extent? {xs : List Float} {low high : Float}
    (h : extent? xs = some (low, high)) : Sequence.least? (Sequence.finite xs) = some low ∧
      Sequence.greatest? (Sequence.finite xs) = some high := by
  obtain ⟨least, hleast, h⟩ := Option.bind_eq_some_iff.mp h
  obtain ⟨greatest, hgreatest, heq⟩ := Option.map_eq_some_iff.mp h
  obtain ⟨rfl, rfl⟩ := Prod.mk.inj heq
  exact ⟨hleast, hgreatest⟩

theorem isFinite_of_extent? {xs : List Float} {low high : Float}
    (h : extent? xs = some (low, high)) : low.isFinite = true ∧ high.isFinite = true := by
  obtain ⟨hleast, hgreatest⟩ := extremes_of_extent? h
  exact ⟨(Sequence.mem_finite.mp (Sequence.mem_of_least? hleast)).2,
    (Sequence.mem_finite.mp (Sequence.mem_of_greatest? hgreatest)).2⟩

-- The ends of a domain are finite.
theorem strict_extent {xs : List Float} {otherwise : List Value}
    (h : ∀ v ∈ otherwise, v.Strict) : ∀ v ∈ extent xs otherwise, v.Strict := by
  rw [extent]
  split
  next low high hextent =>
    obtain ⟨hlow, hhigh⟩ := isFinite_of_extent? hextent
    simp [hlow, hhigh]
  next => exact h

theorem strict_unitInterval : ∀ v ∈ unitInterval, v.Strict := by
  simp [unitInterval]

@[simp]
theorem strict_bandScale (name : String) (domain : Value) (range : String) (padding : Float) :
    (bandScale name domain range padding).Strict ↔ domain.Strict ∧ padding.isFinite = true := by
  simp [bandScale]

@[simp]
theorem strict_linearScale (name : String) (domain range : Value)
    (more : List (String × Value)) : (linearScale name domain range more).Strict ↔
      (domain.Strict ∧ range.Strict) ∧ ∀ f ∈ more, f.2.Strict := by
  rw [linearScale, strict_obj, List.forall_mem_append]
  simp

theorem strict_xScaleAs (banded : Bool) {padding : Float} (h : padding.isFinite = true) :
    (xScaleAs banded padding).Strict := by
  cases banded <;> simp [xScaleAs, h]

@[simp]
theorem strict_xScale (p : Plot) : (xScale p).Strict :=
  strict_xScaleAs _ (by simp [bandPadding])

theorem strict_yScale (p : Plot) {domain : Option Value} (h : ∀ d, domain = some d → d.Strict)
    (zero : Bool) : (yScale p domain zero).Strict := by
  have hflags : ∀ f ∈ ([("nice", .bool true), ("zero", .bool zero)] : List (String × Value)),
      f.2.Strict := by simp
  unfold yScale
  refine Strict.setAll ?_ hflags
  cases domain with
  | some d => simp [h d rfl]
  | none =>
    show (if _ then _ else _ : Value).Strict
    split <;> simp [bandPadding]

@[simp]
theorem strict_ordinalScale (s : Style) (name source field : String) :
    (ordinalScale s name source field).Strict := by
  simp [ordinalScale]

@[simp]
theorem strict_colorScale (s : Style) : (colorScale s).Strict :=
  strict_ordinalScale s _ _ _

theorem strict_colorScales (p : Plot) (s : Style) : ∀ v ∈ colorScales p s, v.Strict := by
  rw [colorScales]
  split <;> simp

theorem strict_positionScales (p : Plot) (s : Style) (banded : Bool) :
    ∀ v ∈ positionScales p s banded, v.Strict := by
  have hx : (xScaleAs banded bandPadding).Strict := strict_xScaleAs _ (by simp [bandPadding])
  have hy : (yScale p).Strict := strict_yScale p (fun d hd => by cases hd) true
  exact List.forall_mem_cons.mpr ⟨hx, List.forall_mem_cons.mpr ⟨hy, strict_colorScales p s⟩⟩

/-! ## 3. Axes -/

theorem strict_axis (orient scale title : String) {more : Value} (h : more.Strict) :
    (axis orient scale title more).Strict := by
  refine Strict.merged ?_ h
  simp

theorem strict_bottomAxis (o : Presentation) {more : Value} (h : more.Strict) :
    (bottomAxis o more).Strict :=
  strict_axis _ _ _ h

theorem strict_leftAxis (o : Presentation) : (leftAxis o).Strict :=
  strict_axis _ _ _ (Strict.scalar rfl)

theorem strict_bothAxes (o : Presentation) : ∀ v ∈ bothAxes o, v.Strict :=
  List.forall_mem_cons.mpr ⟨strict_bottomAxis o (Strict.scalar rfl),
    List.forall_mem_singleton.mpr (strict_leftAxis o)⟩

/-! ## 4. Marks of geometries -/

theorem strict_markConstants (g : GeometryKind) :
    ∀ c ∈ g.markStyle.constants, c.2.Strict := by
  cases g <;> simp [GeometryKind.markStyle]

theorem strict_colorChannels (c : MarkColor) (p : Plot) (s : Style) :
    ∀ f ∈ c.channels p s, f.2.Strict := by
  cases c with
  | channel name =>
    have hcolor : (colorEncoding p s).Strict := by
      rw [colorEncoding]
      split <;> simp
    exact List.forall_mem_singleton.mpr hcolor
  | reference => simp [MarkColor.channels]
  | fixed => simp [MarkColor.channels]

/-- What a layer decides about a mark is strict. -/
structure MarkParts.Strict (parts : MarkParts) : Prop where
  position : parts.position.Strict
  update : parts.update.Strict := by simp
  overrides : parts.overrides.Strict := by simp

theorem strict_enterChannels (p : Plot) (s : Style) (g : GeometryKind) {parts : MarkParts}
    (h : parts.Strict) : (enterChannels p s g.markStyle parts).Strict := by
  refine (h.position.setAll ?_).merged h.overrides
  refine List.forall_mem_append.mpr ⟨?_, strict_colorChannels _ p s⟩
  intro f hf
  obtain ⟨c, hc, rfl⟩ := List.mem_map.mp hf
  exact (strict_constant c.2).mpr (strict_markConstants g c hc)

theorem strict_assembleMark (p : Plot) (o : Presentation) (s : Style) (g : GeometryKind)
    {parts : MarkParts} (h : parts.Strict) : (assembleMark p o s g parts).Strict := by
  have henter := strict_enterChannels p s g h
  have hencode : (Value.obj (if parts.update.entries.isEmpty
      then [("enter", enterChannels p s g.markStyle parts)]
      else [("enter", enterChannels p s g.markStyle parts), ("update", parts.update)])).Strict := by
    split <;> simp [henter, h.update]
  rw [assembleMark]
  split
  · exact strict_withTooltip (by simpa using hencode) o _
  · simpa using hencode

/-! ## 5. Marks and rows of groups -/

@[simp]
theorem strict_encoding (c : Coloring) (source : String) : (c.encoding source).Strict := by
  cases c <;> simp [Coloring.encoding]

theorem strict_coloringScales (c : Coloring) (s : Style) (source : String) :
    ∀ v ∈ c.scales s source, v.Strict := by
  cases c <;> simp [Coloring.scales, groupColorScale]

/-- The fields of a row may be any scalars, since they are written as a document can hold them. -/
theorem strict_row (c : Coloring) (p : Plot) (group : Nat) {fields : List (String × Value)}
    (h : ∀ f ∈ fields, ∃ s, f.2 = .scalar s) : (c.row p group fields).Strict := by
  have hplain : ∀ f ∈ fields.map (fun f => (f.1, f.2.plain)), f.2.Strict := by
    intro f hf
    obtain ⟨g, hg, rfl⟩ := List.mem_map.mp hf
    obtain ⟨s, hs⟩ := h g hg
    show g.2.plain.Strict
    rw [hs]
    exact strict_plain_scalar s
  rw [Coloring.row, strict_obj, List.forall_mem_append, List.forall_mem_append]
  refine ⟨⟨hplain, by simp⟩, ?_⟩
  split
  · cases p.groupColor? group <;> simp
  · exact List.forall_mem_nil _

theorem strict_named (name : String) {mark : Value} (h : mark.Strict) :
    (named name mark).Strict := by
  have hentries : (Value.map mark.entries).Strict := by
    cases mark with
    | map es => exact h
    | _ => exact strict_map.mpr (List.forall_mem_nil _)
  rw [strict_map] at hentries
  exact strict_map.mpr (List.forall_mem_cons.mpr ⟨⟨rfl, Strict.scalar rfl⟩, hentries⟩)

theorem strict_facetMark (name facet source : String) {groupBy inner : Value}
    (hg : groupBy.Strict) (hi : inner.Strict) :
    (facetMark name facet source groupBy inner).Strict := by
  have hreading : (readingFrom inner facet).Strict := hi.set (by simp) "from"
  simp [facetMark, hg, hreading]

theorem strict_groupedMark (c : Coloring) (severalName facet oneName source : String)
    {mark : Value} (h : mark.Strict) :
    (groupedMark c severalName facet oneName source mark).Strict := by
  rw [groupedMark]
  split
  · exact strict_facetMark _ _ _ (Strict.scalar rfl) h
  · exact strict_named _ h

theorem strict_source (name : String) {rows : List Value} (h : ∀ v ∈ rows, v.Strict) :
    (Fragment.source name rows).Strict := by
  simpa [Fragment.source] using h

end PlotScene
