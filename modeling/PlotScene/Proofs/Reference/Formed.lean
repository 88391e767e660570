import PlotScene.Proofs.Reference.Exact

/-!
# Well-formed documents

In a well-formed document data, scales, axes, legends and marks are lists of mappings at every
depth, and what names or refers to something is a scalar.  The check of references reads every such
document, and decides whether it is scoped.
-/

namespace PlotScene.Reference

/-! ## 1. Form -/

/-- Nothing stands under the key, or a list. -/
def Listed (v : Value) (key : String) : Prop :=
  ∀ x, v.get? key = some x → ∃ vs, x = .list vs

def IsScalar (v : Value) : Prop :=
  ∃ s, v = .scalar s

structure FormedSource (v : Value) : Prop where
  isMap : v.isMap = true
  name : IsScalar (v.getD "name")
  base : IsScalar (v.getD "source")

structure FormedScale (v : Value) : Prop where
  isMap : v.isMap = true
  name : IsScalar (v.getD "name")
  fields : Listed (v.getD "domain") "fields"
  data : ∀ r, DomainRef (v.getD "domain") r → IsScalar (r.getD "data")

structure FormedMark (v : Value) : Prop where
  isMap : v.isMap = true
  name : IsScalar (v.getD "name")
  source : v.getD "from" = .null ∨ (v.getD "from").isMap = true
  data : IsScalar ((v.getD "from").getD "data")
  facet : ∀ g, facetOf? v = some g → IsScalar (g.getD "name") ∧ IsScalar (g.getD "data")
  listed : Listed v "scales" ∧ Listed v "marks"
  scales : ∀ c ∈ parts v "scales", FormedScale c

structure Formed (spec : Value) : Prop where
  isMap : spec.isMap = true
  listed : ∀ key ∈ ["data", "scales", "axes", "legends", "marks"], Listed spec key
  sources : ∀ s ∈ parts spec "data", FormedSource s
  scales : ∀ c ∈ parts spec "scales", FormedScale c
  axes : ∀ a ∈ parts spec "axes", a.isMap = true ∧ IsScalar (a.getD "scale")
  legends : ∀ l ∈ parts spec "legends",
    l.isMap = true ∧ ∀ channel ∈ legendChannels, IsScalar (l.getD channel)
  marks : ∀ as m, MarkAt (inside spec) as m → FormedMark m

/-! ## 2. What is well-formed is read -/

theorem IsScalar.key {v : Value} (h : IsScalar v) : v.key = .ok (scalarOf v) := by
  obtain ⟨s, rfl⟩ := h
  rfl

theorem IsScalar.truthy {v : Value} (h : IsScalar v) : ∃ b, v.truthy = .ok b := by
  obtain ⟨s, rfl⟩ := h
  cases s <;> exact ⟨_, rfl⟩

theorem Listed.itemsUnder {v : Value} {key : String} (h : Listed v key) (hv : v.isMap = true) :
    v.itemsUnder key = .ok (parts v key) := by
  cases v with
  | map es =>
    cases hx : (Value.map es).get? key with
    | none =>
      rw [parts_of_get?_none hx, Value.itemsUnder,
        show Value.entry? (.map es) key = .ok none from congrArg Except.ok hx]
      rfl
    | some x =>
      obtain ⟨vs, rfl⟩ := h x hx
      rw [parts_of_get? hx, Value.itemsUnder,
        show Value.entry? (.map es) key = .ok (some (.list vs)) from congrArg Except.ok hx]
      rfl
  | _ => simp [Value.isMap] at hv

theorem dataOf?_of_isScalar {v : Value} (h : IsScalar (v.getD "data")) :
    dataOf? v = .ok ((v.get? "data").map scalarOf) := by
  rw [dataOf?]
  cases hd : v.get? "data" with
  | none => rfl
  | some d =>
    rw [Value.getD_of_get? hd] at h
    show d.key.map some = _
    rw [h.key]
    rfl

theorem domainSources_of_formed {domain : Value} (hl : Listed domain "fields")
    (hd : ∀ r, DomainRef domain r → IsScalar (r.getD "data")) :
    ∃ ns, domainSources domain = .ok ns := by
  have hdata (r : Value) (hr : r = domain ∨ r ∈ parts domain "fields") :
      ∃ o, dataOf? r = .ok o := by
    cases hx : r.get? "data" with
    | none => exact ⟨none, by rw [dataOf?, hx]⟩
    | some d =>
      have hs : IsScalar (r.getD "data") := hd r ⟨hr, by rw [Value.has, hx]; rfl⟩
      exact ⟨_, dataOf?_of_isScalar hs⟩
  rw [domainSources]
  split
  next hm =>
    obtain ⟨own, hown⟩ := hdata domain (Or.inl rfl)
    obtain ⟨fields, hfields⟩ := mapM_of_forall fun r hr => hdata r (Or.inr hr)
    rw [hown, ok_bind, hl.itemsUnder hm, ok_bind, hfields, ok_bind]
    exact ⟨_, rfl⟩
  next => exact ⟨[], rfl⟩

theorem FormedScale.read {v : Value} (h : FormedScale v) : ∃ c, Scale.read v = .ok c := by
  obtain ⟨ns, hns⟩ := domainSources_of_formed h.fields h.data
  rw [Scale.read, Value.field_of_isMap h.isMap "name", ok_bind, h.name.key, ok_bind,
    Value.field_of_isMap h.isMap "domain", ok_bind, hns, ok_bind]
  exact ⟨_, rfl⟩

theorem FormedSource.read {v : Value} (h : FormedSource v) : ∃ s, Source.read v = .ok s := by
  rw [Source.read, Value.field_of_isMap h.isMap "source", ok_bind, h.base.key,
    Value.field_of_isMap h.isMap "name"]
  simp only [ok_bind, h.name.key]
  split <;> exact ⟨_, rfl⟩

theorem axis_read {v : Value} (hv : v.isMap = true) (hs : IsScalar (v.getD "scale")) :
    ∃ a, Axis.read v = .ok a := by
  rw [Axis.read, Value.field_of_isMap hv "orient", ok_bind, Value.field_of_isMap hv "scale",
    ok_bind, hs.key, ok_bind]
  exact ⟨_, rfl⟩

theorem legend_read {v : Value} (hv : v.isMap = true)
    (hs : ∀ channel ∈ legendChannels, IsScalar (v.getD channel)) :
    ∃ l, readLegend v = .ok l := by
  obtain ⟨shown, hshown⟩ : ∃ shown, legendChannels.mapM v.field = .ok shown :=
    mapM_of_forall fun channel _ => ⟨_, Value.field_of_isMap hv channel⟩
  obtain ⟨l, hl⟩ : ∃ l, (shown.filter fun s => !s.isNull).mapM Value.key = .ok l := by
    apply mapM_of_forall
    intro x hx
    obtain ⟨channel, hc, hf⟩ := exists_of_mem_mapM hshown (List.mem_filter.mp hx).1
    obtain ⟨-, rfl⟩ := Value.isMap_of_field hf
    exact ⟨_, (hs channel hc).key⟩
  exact ⟨l, bind_eq_ok.mpr ⟨shown, hshown, hl⟩⟩

theorem readFacet_of_formed {v : Value}
    (h : ∀ g, (v.get? "facet").filter Value.isMap = some g →
      IsScalar (g.getD "name") ∧ IsScalar (g.getD "data")) : ∃ f, readFacet v = .ok f := by
  rw [readFacet]
  split
  next es hes =>
    obtain ⟨hn, hd⟩ := h (.map es) (by rw [hes]; rfl)
    exact ⟨_, bind_eq_ok.mpr ⟨_, hn.key, bind_eq_ok.mpr ⟨_, hd.key, rfl⟩⟩⟩
  next => exact ⟨none, rfl⟩

-- The source of a well-formed mark, with the empty mapping for none.
theorem FormedMark.orEmpty {v : Value} (h : FormedMark v) :
    ∃ w, (v.getD "from").orEmpty = .ok w ∧ w.isMap = true := by
  rcases h.source with hs | hs
  · exact ⟨.map [], by rw [hs]; rfl, rfl⟩
  · cases hv : v.getD "from" with
    | map es => cases es <;> exact ⟨_, rfl, rfl⟩
    | _ =>
      rw [hv] at hs
      cases hs

theorem FormedMark.read {v : Value} (h : FormedMark v) (children : List Mark) :
    ∃ m, readMark v children = .ok m := by
  obtain ⟨t, ht⟩ := h.name.truthy
  obtain ⟨source, hsource, hmap⟩ := h.orEmpty
  have hdata : IsScalar (source.getD "data") := by
    rw [Value.getD, get?_orEmpty hsource]
    exact h.data
  obtain ⟨facet, hfacet⟩ := readFacet_of_formed (v := source) <| by
    rw [get?_orEmpty hsource]
    exact h.facet
  obtain ⟨scales, hscales⟩ := mapM_of_forall fun c hc => (h.scales c hc).read
  rw [readMark, readMarkName, Value.field_of_isMap h.isMap "name", ok_bind, ht,
    Value.field_of_isMap h.isMap "from", Value.field_of_isMap h.isMap "encode",
    h.listed.1.itemsUnder h.isMap]
  simp only [ok_bind, hsource, hmap, dataOf?_of_isScalar hdata, hfacet, hscales]
  exact ⟨_, rfl⟩

/-! ## 3. Marks at every depth -/

mutual

theorem mark_read (v : Value) (h : FormedMark v)
    (hin : ∀ as m, MarkAt (inside v) as m → FormedMark m) : ∃ m, Mark.read v = .ok m := by
  match v with
  | .map es =>
    obtain ⟨children, hchildren⟩ := inside_read es h.listed.2 hin
    obtain ⟨m, hm⟩ := h.read children
    exact ⟨m, by rw [Mark.read, hchildren]; exact hm⟩
  | .scalar _ | .list _ | .array _ _ | .column _ => cases h.isMap
termination_by structural v

theorem inside_read (es : List (Scalar × Value)) (hl : Listed (.map es) "marks")
    (hin : ∀ as m, MarkAt (inside (.map es)) as m → FormedMark m) :
    ∃ ms, readInside es = .ok ms := by
  match es with
  | [] => exact ⟨[], rfl⟩
  | (k, v) :: es =>
    rw [Listed, Value.get?_map, Entries.lookup?_cons] at hl
    rw [inside, Value.getD, Value.get?_map, Entries.lookup?_cons] at hin
    rw [readInside]
    -- The first entry for marks is the one that counts; later ones are not looked at.
    split at hl
    next hk =>
      obtain ⟨vs, hvs⟩ := hl v rfl
      rw [if_pos hk] at hin ⊢
      exact marks_read v ⟨vs, hvs⟩ hin
    next hk =>
      rw [if_neg hk] at hin ⊢
      exact inside_read es hl hin
termination_by structural es

theorem marks_read (v : Value) (hv : ∃ vs, v = .list vs)
    (hin : ∀ as m, MarkAt v.items as m → FormedMark m) : ∃ ms, readMarks v = .ok ms := by
  match v with
  | .list vs => exact items_read vs hin
  | .scalar _ | .map _ | .array _ _ | .column _ =>
    obtain ⟨vs, hvs⟩ := hv
    cases hvs
termination_by structural v

theorem items_read (vs : List Value) (hin : ∀ as m, MarkAt vs as m → FormedMark m) :
    ∃ ms, readMarkItems vs = .ok ms := by
  match vs with
  | [] => exact ⟨[], rfl⟩
  | v :: vs =>
    obtain ⟨m, hm⟩ := mark_read v (hin [] v (MarkAt.top List.mem_cons_self))
      fun as m hm => hin _ m (hm.nest List.mem_cons_self)
    obtain ⟨ms, hms⟩ := items_read vs
      fun as m hm => hin as m (hm.mono fun w hw => List.mem_cons_of_mem _ hw)
    exact ⟨m :: ms, by rw [readMarkItems, hm, hms]; rfl⟩
termination_by structural vs

end

theorem Formed.read {spec : Value} (h : Formed spec) : ∃ d, Document.read spec = .ok d := by
  -- Each part is a list of items that can be read, so the reader goes through part by part.
  have hlist {key : String} (hk : key ∈ ["data", "scales", "axes", "legends", "marks"]) :
      spec.itemsUnder key = .ok (parts spec key) := (h.listed key hk).itemsUnder h.isMap
  obtain ⟨sources, hsources⟩ := mapM_of_forall fun s hs => (h.sources s hs).read
  obtain ⟨scales, hscales⟩ := mapM_of_forall fun c hc => (h.scales c hc).read
  obtain ⟨axes, haxes⟩ := mapM_of_forall fun a ha => axis_read (h.axes a ha).1 (h.axes a ha).2
  obtain ⟨legends, hlegends⟩ := mapM_of_forall fun l hl =>
    legend_read (h.legends l hl).1 (h.legends l hl).2
  have hentry : spec.entry? "marks" = .ok (spec.get? "marks") := by
    have hmap := h.isMap
    cases spec with
    | map es => rfl
    | _ => cases hmap
  rw [Document.read, hlist (by decide), ok_bind, hsources, ok_bind, hlist (by decide), ok_bind,
    hscales, ok_bind, hlist (by decide), ok_bind, haxes, ok_bind, hlist (by decide), ok_bind,
    hlegends, ok_bind, hentry, ok_bind]
  cases hm : spec.get? "marks" with
  | none => exact ⟨_, rfl⟩
  | some v =>
    have hin (as : List Value) (m : Value) (hat : MarkAt v.items as m) : FormedMark m := by
      apply h.marks as m
      rw [inside, Value.getD_of_get? hm]
      exact hat
    obtain ⟨ms, hms⟩ := marks_read v (h.listed "marks" (by decide) v hm) hin
    exact ⟨_, bind_eq_ok.mpr ⟨ms, hms, rfl⟩⟩

/-! ## 4. The check decides -/

/-- For a well-formed document the check of references answers, with nothing exactly when all
references are in scope, and otherwise with one problem for each reference that is not, in the order
of the walk. -/
theorem unresolved_exact (spec : Value) (h : Formed spec) :
    ∃ ps, unresolved spec = .ok ps ∧ (ps = [] ↔ Scoped spec) ∧
      ps = ((occurrences spec).filter fun o => !o.resolves).map Occurrence.problem := by
  obtain ⟨d, hd⟩ := h.read
  have hu : unresolved spec = .ok d.problems := by
    rw [unresolved, hd]
    rfl
  obtain ⟨heq, hiff⟩ := unresolved_eq_ok hu
  exact ⟨d.problems, hu, hiff, heq⟩

/-- The mark inside a facet; it uses a scale that the document below does not have. -/
def innerMark : Value :=
  .obj [("from", .obj [("data", .str "part")]),
    ("encode", .obj [("enter", .obj [("y", .obj [("scale", .str "yscale")])])])]

def groupMark : Value :=
  .obj [("name", .str "group"),
    ("from", .obj [("facet", .obj [("name", .str "part"), ("data", .str "table")])]),
    ("marks", .list [innerMark])]

def facetedDocument : Value :=
  .obj [("data", .list [.obj [("name", .str "table")]]), ("marks", .list [groupMark])]

theorem formedMark_innerMark : FormedMark innerMark where
  isMap := rfl
  name := ⟨_, rfl⟩
  source := Or.inr rfl
  data := ⟨_, rfl⟩
  facet g hg := by cases hg
  listed := by constructor <;> intro x hx <;> cases hx
  scales c hc := by cases hc

theorem formedMark_groupMark : FormedMark groupMark where
  isMap := rfl
  name := ⟨_, rfl⟩
  source := Or.inr rfl
  data := ⟨_, rfl⟩
  facet g hg := by
    cases hg
    exact ⟨⟨_, rfl⟩, ⟨_, rfl⟩⟩
  listed := by
    constructor <;> intro x hx <;> cases hx
    exact ⟨_, rfl⟩
  scales c hc := by cases hc

theorem formedMark_of_facetedDocument {as : List Value} {m : Value}
    (h : MarkAt (inside facetedDocument) as m) : FormedMark m := by
  have hm : m = groupMark ∨ m = innerMark := by
    induction h with
    | top hm => exact Or.inl (List.mem_singleton.mp hm)
    | within _ hm ih =>
      rcases ih with rfl | rfl
      · exact Or.inr (List.mem_singleton.mp hm)
      · cases hm
  rcases hm with rfl | rfl
  · exact formedMark_groupMark
  · exact formedMark_innerMark

theorem formed_facetedDocument : Formed facetedDocument where
  isMap := rfl
  listed key hk := by
    intro x hx
    simp only [List.mem_cons, List.not_mem_nil, or_false] at hk
    rcases hk with rfl | rfl | rfl | rfl | rfl <;> cases hx <;> exact ⟨_, rfl⟩
  sources s hs := by
    obtain rfl := List.mem_singleton.mp hs
    exact ⟨rfl, ⟨_, rfl⟩, ⟨_, rfl⟩⟩
  scales c hc := by cases hc
  axes a ha := by cases ha
  legends l hl := by cases hl
  marks _ _ hm := formedMark_of_facetedDocument hm

theorem unresolved_exact_faceted :
    Formed facetedDocument ∧ ∃ ps, unresolved facetedDocument = .ok ps ∧
      (ps = [] ↔ Scoped facetedDocument) ∧
      ps = ((occurrences facetedDocument).filter fun o => !o.resolves).map Occurrence.problem :=
  ⟨formed_facetedDocument, unresolved_exact facetedDocument formed_facetedDocument⟩

example : unresolved facetedDocument = .ok [.markScale "group.marks[0]" "yscale"] := rfl

end PlotScene.Reference
