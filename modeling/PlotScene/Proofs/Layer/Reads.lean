import PlotScene.Layer.Coloring
import PlotScene.Proofs.Layer.Channels
import PlotScene.Proofs.Layer.Leaf
import PlotScene.Proofs.Reference.Scope
import PlotScene.Scene.Fragment

/-!
# What marks and scales read

A view says which data sources and scales can be named at some place of a document and which fields
can be read from each source.  A mark or a scale reads within a view when it names nothing else and
reads no other field; inside a mark that splits its data the view also has the parts, under the name
of the facet.
-/

namespace PlotScene

open Reference

structure View where
  source : String → Prop
  field : String → String → Prop
  scale : String → Prop

/-- The view inside a mark with a facet of a source and scales of its own. -/
def View.inside (V : View) (facet source : String) (own : List Value) : View where
  source n := n = facet ∨ V.source n
  field n f := if n = facet then V.field source f else V.field n f
  scale n := Declared own (.str n) ∨ V.scale n

theorem View.inside_field (V : View) (facet source : String) (own : List Value) :
    (V.inside facet source own).field facet = V.field source := by
  funext f
  exact if_pos rfl

/-! ## 1. Scales -/

/-- The data of a domain: every reference names a source and one of its fields. -/
def DomainReads (V : View) (domain : Value) : Prop :=
  ∀ r, DomainRef domain r → ∃ d f, r.get? "data" = some (.str d) ∧
    r.get? "field" = some (.str f) ∧ V.source d ∧ V.field d f

structure ScaleReads (V : View) (c : Value) : Prop where
  name : ∃ n, c.get? "name" = some (.str n)
  domain : DomainReads V (c.getD "domain")

theorem domainReads_list (V : View) (vs : List Value) : DomainReads V (.list vs) := by
  rintro r ⟨hr, hd⟩
  rcases hr with rfl | hr
  · cases hd
  · cases hr

theorem domainReads_dataRef {V : View} {source field : String} {sorted : Bool}
    (hs : V.source source) (hf : V.field source field) :
    DomainReads V (dataRef source field sorted) := by
  rintro r ⟨hr, -⟩
  have hfields : parts (dataRef source field sorted) "fields" = [] :=
    parts_of_get?_none (by cases sorted <;> rfl)
  rw [hfields] at hr
  rcases hr with rfl | hr
  · exact ⟨source, field, rfl, rfl, hs, hf⟩
  · cases hr

theorem domainReads_unionDomain {V : View} {refs : List (String × String)}
    (h : ∀ r ∈ refs, V.source r.1 ∧ V.field r.1 r.2) : DomainReads V (unionDomain refs) := by
  rintro r ⟨hr, hd⟩
  rcases hr with rfl | hr
  · cases hd
  · obtain ⟨p, hp, rfl⟩ := List.mem_map.mp (show r ∈ refs.map _ from hr)
    exact ⟨p.1, p.2, rfl, rfl, (h p hp).1, (h p hp).2⟩

theorem scaleReads_of_domain {V : View} {c domain : Value} {n : String}
    (hn : c.get? "name" = some (.str n)) (hd : c.get? "domain" = some domain)
    (h : DomainReads V domain) : ScaleReads V c := by
  refine ⟨⟨n, hn⟩, ?_⟩
  rw [Value.getD_of_get? hd]
  exact h

/-! ## 2. Marks -/

/-- A mark without marks or scales of its own, whose channels read the fields `F` through the scales
`S`. -/
structure Flat (F S : String → Prop) (m : Value) : Prop where
  isMap : m.isMap = true
  scales : m.get? "scales" = none
  marks : m.get? "marks" = none
  channels : Encodes F S (m.getD "encode")

/-- The fields by which a facet splits its source. -/
def groupFields (facet : Value) : List Value :=
  match facet.getD "groupby" with
  | .list vs => vs
  | v => [v]

/-- A mark reads within a view: it draws the rows of a source, or it splits a source by fields of
its rows and draws its own marks for each part.  Channels of the latter see the fields of the
grouping only. -/
inductive MarkReads : View → Value → Prop where
  | flat {V : View} {m : Value} {d : String} :
      m.getD "from" = .obj [("data", .str d)] → V.source d → Flat (V.field d) V.scale m →
      MarkReads V m
  | facet {V : View} {m g : Value} {n d : String} {k : List Value} :
      m.isMap = true → m.getD "from" = .obj [("facet", g)] →
      g.get? "name" = some (.str n) → g.get? "data" = some (.str d) →
      V.source d → (∀ x ∈ groupFields g, ∃ f, x = .str f ∧ V.field d f) →
      (∀ c ∈ parts m "scales", ScaleReads (V.inside n d (parts m "scales")) c) →
      Encodes (fun f => .str f ∈ groupFields g) (V.inside n d (parts m "scales")).scale
        (m.getD "encode") →
      m.get? "marks" = some (.list k) →
      (∀ c ∈ k, MarkReads (V.inside n d (parts m "scales")) c) → MarkReads V m

theorem channelProperty_encodes (F S : String → Prop) : ChannelProperty (Encodes F S) where
  scalar := encodes_scalar
  list h := encodes_list.mpr h
  obj h := by
    apply (encodes_group ?_).mpr fun f hf => (h f hf).2
    exact Value.has_obj_eq_false fun f hf hkey => (h f hf).1 (by simp [hkey, channelKeys])
  set hv hx hkey := by
    simp only [channelKeys, List.mem_cons, List.not_mem_nil, or_false, not_or] at hkey
    exact hv.set hx hkey.1 hkey.2.1
  of_get? h hx := h.of_get? hx

theorem flat_iff_leaf {F S : String → Prop} {m : Value} : Flat F S m ↔ Leaf (Encodes F S) m :=
  ⟨fun h => ⟨h.isMap, h.scales, h.marks, h.channels⟩,
    fun h => ⟨h.isMap, h.scales, h.marks, h.channels⟩⟩

namespace Flat

variable {F S F' S' : String → Prop} {m : Value}

theorem mono (h : Flat F S m) (hF : ∀ f, F f → F' f) (hS : ∀ n, S n → S' n) : Flat F' S' m :=
  ⟨h.isMap, h.scales, h.marks, h.channels.mono hF hS⟩

theorem set (h : Flat F S m) {key : String} (x : Value)
    (hk : key ∉ ["scales", "marks", "encode"]) : Flat F S (m.set key x) :=
  flat_iff_leaf.mpr ((flat_iff_leaf.mp h).set x hk)

theorem without (h : Flat F S m) {key : String} (hk : key ∉ ["scales", "marks", "encode"]) :
    Flat F S (m.without key) :=
  flat_iff_leaf.mpr ((flat_iff_leaf.mp h).without hk)

theorem withTooltip (h : Flat F S m) (p : Presentation) (expression : String) :
    Flat F S (withTooltip m p expression) :=
  flat_iff_leaf.mpr ((flat_iff_leaf.mp h).withTooltip (channelProperty_encodes F S) p
    (encodes_signalRef expression))

theorem named (h : Flat F S m) (name : String) : Flat F S (named name m) :=
  flat_iff_leaf.mpr ((flat_iff_leaf.mp h).named name)

theorem ofObj {fields : List (String × Value)} (hs : (Value.obj fields).get? "scales" = none)
    (hm : (Value.obj fields).get? "marks" = none)
    (hc : Encodes F S ((Value.obj fields).getD "encode")) : Flat F S (.obj fields) :=
  ⟨rfl, hs, hm, hc⟩

end Flat

theorem getD_withTooltip_of_ne (m : Value) (p : Presentation) (expression : String) {key : String}
    (hk : key ≠ "encode") : (withTooltip m p expression).getD key = m.getD key := by
  rw [withTooltip]
  split <;> exact Value.getD_set_of_ne m _ hk.symm

theorem getD_from_readingFrom {m : Value} (hm : m.isMap = true) (source : String) :
    (readingFrom m source).getD "from" = .obj [("data", .str source)] := by
  rw [readingFrom, Value.getD, Value.get?_set_self m _ "from" hm]
  rfl

/-! ## 3. Marks over groups -/

-- A mark that is drawn for each part of a source reads the fields of that source.
theorem markReads_facetMark {V : View} {name facet source : String} {groupBy inner : Value}
    (hs : V.source source) (hg : ∀ x ∈ groupFields (.obj [("groupby", groupBy)]),
      ∃ f, x = .str f ∧ V.field source f)
    (hi : Flat (V.field source) V.scale inner) :
    MarkReads V (facetMark name facet source groupBy inner) := by
  refine MarkReads.facet (n := facet) (d := source) (k := [readingFrom inner facet]) rfl rfl rfl rfl
    hs hg ?_ ?_ rfl ?_
  · intro c hc
    cases hc
  · exact encodes_scalar _
  · intro c hc
    obtain rfl := List.mem_singleton.mp hc
    apply MarkReads.flat (getD_from_readingFrom hi.isMap facet) (Or.inl rfl)
    rw [View.inside_field]
    exact (hi.mono (fun _ h => h) fun _ h => Or.inr h).set _ (by decide)

theorem markReads_groupedMark {V : View} {c : Coloring} {severalName facet oneName source : String}
    {mark : Value} (hs : V.source source) (hg : V.field source "group")
    (hfrom : mark.getD "from" = .obj [("data", .str source)])
    (hm : Flat (V.field source) V.scale mark) :
    MarkReads V (groupedMark c severalName facet oneName source mark) := by
  rw [groupedMark]
  split
  · refine markReads_facetMark hs ?_ hm
    intro x hx
    obtain rfl := List.mem_singleton.mp hx
    exact ⟨"group", rfl, hg⟩
  · refine MarkReads.flat ?_ hs (hm.named oneName)
    rw [getD_named hm.isMap oneName (by decide)]
    exact hfrom

/-! ## 4. Marks at every depth -/

theorem facetOf?_of_from {m g : Value} {name : String}
    (hfrom : m.getD "from" = .obj [("facet", g)]) (hg : g.get? "name" = some (.str name)) :
    facetOf? m = some g := by
  rw [facetOf?, hfrom, Value.get?_obj_cons, if_pos rfl, Option.filter_some,
    if_pos (Value.isMap_of_get? hg)]

-- What is kept on the way from a mark to the marks inside it holds at every depth: every mark
-- reads within some view that is related to its ancestors.
theorem markReads_at {V : View} {marks : List Value} {P : List Value → View → Prop}
    (hmarks : ∀ m ∈ marks, MarkReads V m) (htop : P [] V)
    (hstep : ∀ as W a g name source, P as W → facetOf? a = some g →
      g.get? "name" = some (.str name) → g.get? "data" = some (.str source) →
      P (a :: as) (W.inside name source (parts a "scales")))
    {as : List Value} {m : Value} (h : MarkAt marks as m) : ∃ W, P as W ∧ MarkReads W m := by
  induction h with
  | top hm => exact ⟨V, htop, hmarks _ hm⟩
  | @within as a m _ hm ih =>
    obtain ⟨W, hP, hW⟩ := ih
    cases hW with
    | flat hfrom hs hflat =>
      rw [inside, Value.getD_of_get?_none hflat.marks] at hm
      cases hm
    | facet hmap hfrom hname hdata hs hgroup hown henc hchildren hreads =>
      rw [inside, Value.getD_of_get? hchildren] at hm
      exact ⟨_, hstep as W a _ _ _ hP (facetOf?_of_from hfrom hname) hname hdata, hreads m hm⟩

/-! ## 5. Fragments -/

/-- Everything in a fragment reads within the view. -/
structure Fragment.Reads (V : View) (f : Fragment) : Prop where
  scales : ∀ c ∈ f.scales, ScaleReads V c
  axes : ∀ a ∈ f.axes, ∃ n, a.get? "scale" = some (.str n) ∧ V.scale n
  marks : ∀ m ∈ f.marks, MarkReads V m

end PlotScene
