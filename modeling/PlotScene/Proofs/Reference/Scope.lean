import PlotScene.Proofs.Reference.Walk

/-!
# The rule of scopes

What it means that every reference of a document is in scope, and the references themselves in the
order in which a reader of the document meets them.  A document is scoped exactly when each of its
references resolves.
-/

namespace PlotScene.Reference

/-! ## 1. What is visible where -/

/-- One of the parts has this name. -/
def Declared (vs : List Value) (n : Scalar) : Prop :=
  ∃ v ∈ vs, n.same (nameOf v) = true

/-- A data source of the document, or a facet of one of the ancestors. -/
def VisibleSource (spec : Value) (ancestors : List Value) (n : Scalar) : Prop :=
  Declared (parts spec "data") n ∨ ∃ a ∈ ancestors, Declared (facetOf? a).toList n

/-- A scale of the document or of one of the ancestors. -/
def VisibleScale (spec : Value) (ancestors : List Value) (n : Scalar) : Prop :=
  Declared (parts spec "scales") n ∨ ∃ a ∈ ancestors, Declared (parts a "scales") n

theorem VisibleSource.cons {spec a : Value} {as : List Value} {n : Scalar}
    (h : VisibleSource spec as n) : VisibleSource spec (a :: as) n :=
  h.imp id fun ⟨b, hb, hn⟩ => ⟨b, List.mem_cons_of_mem _ hb, hn⟩

theorem VisibleScale.cons {spec a : Value} {as : List Value} {n : Scalar}
    (h : VisibleScale spec as n) : VisibleScale spec (a :: as) n :=
  h.imp id fun ⟨b, hb, hn⟩ => ⟨b, List.mem_cons_of_mem _ hb, hn⟩

/-- The references of a mark are in scope.  Its own facet is visible to its scales and not to the
source that it reads; its own scales are visible to its channels. -/
structure MarkScoped (spec : Value) (ancestors : List Value) (m : Value) : Prop where
  source : ∀ d, (m.getD "from").get? "data" = some d → VisibleSource spec ancestors (scalarOf d)
  facet : ∀ g, facetOf? m = some g → VisibleSource spec ancestors (scalarOf (g.getD "data"))
  domains : ∀ c ∈ parts m "scales", ∀ r, DomainRef (c.getD "domain") r →
    VisibleSource spec (m :: ancestors) (scalarOf (r.getD "data"))
  channels : ∀ e n, Value.Within e (m.getD "encode") → e.get? "scale" = some (.str n) →
    VisibleScale spec (m :: ancestors) (.str n)

/-- All references of a document are in scope. -/
structure Scoped (spec : Value) : Prop where
  bases : ∀ before s after, parts spec "data" = before ++ s :: after →
    (s.getD "source").isNull = false → Declared before (scalarOf (s.getD "source"))
  domains : ∀ c ∈ parts spec "scales", ∀ r, DomainRef (c.getD "domain") r →
    Declared (parts spec "data") (scalarOf (r.getD "data"))
  axes : ∀ a ∈ parts spec "axes", Declared (parts spec "scales") (scalarOf (a.getD "scale"))
  legends : ∀ l ∈ parts spec "legends", ∀ channel ∈ legendChannels,
    (l.getD channel).isNull = false →
      Declared (parts spec "scales") (scalarOf (l.getD channel))
  marks : ∀ as m, MarkAt (inside spec) as m → MarkScoped spec as m

/-! ## 2. The references in their order -/

/-- A reference: the names in scope, the name that is referred to, and what is wrong if it is not
among them. -/
structure Occurrence where
  scope : List Scalar
  name : Scalar
  problem : Problem

def Occurrence.resolves (o : Occurrence) : Bool :=
  o.scope.contains o.name

def sourceOccurrences : List Scalar → List Value → List Occurrence
  | _, [] => []
  | before, s :: rest =>
      let base := s.getD "source"
      (if base.isNull then []
        else [⟨before, scalarOf base, .base (nameOf s) (scalarOf base)⟩]) ++
        sourceOccurrences (nameOf s :: before) rest

def scaleOccurrences (scope : List Scalar) (place : String) (scales : List Value) :
    List Occurrence :=
  scales.flatMap fun c =>
    (domainNames (c.getD "domain")).map fun n => ⟨scope, n, .domain place (nameOf c) n⟩

/-- The names of data inside these ancestors, the nearest facet first. -/
def sourceScope (spec : Value) (ancestors : List Value) : List Scalar :=
  ancestors.flatMap (fun a => names (facetOf? a).toList) ++ names (parts spec "data")

def scaleScope (spec : Value) (ancestors : List Value) : List Scalar :=
  ancestors.flatMap (fun a => names (parts a "scales")) ++ names (parts spec "scales")

/-- The references of a visited mark. -/
def markOccurrences (spec : Value) (x : Visit) : List Occurrence :=
  let sources := sourceScope spec x.ancestors
  (((x.mark.getD "from").get? "data").toList.map fun d =>
      ⟨sources, scalarOf d, .markSource x.label (scalarOf d)⟩) ++
    ((facetOf? x.mark).toList.map fun g =>
      ⟨sources, scalarOf (g.getD "data"), .facet x.label (scalarOf (g.getD "data"))⟩) ++
    scaleOccurrences (sourceScope spec (x.mark :: x.ancestors)) (x.label ++ " 内的")
      (parts x.mark "scales") ++
    ((usedScales (x.mark.getD "encode")).map fun u =>
      ⟨scaleScope spec (x.mark :: x.ancestors), .str u, .markScale x.label u⟩)

def legendOccurrences (scope : List Scalar) (l : Value) : List Occurrence :=
  ((legendChannels.map l.getD).filter fun s => !s.isNull).map fun s =>
    ⟨scope, scalarOf s, .legend (scalarOf s)⟩

/-- The references of a document: those of its data, scales, axes and legends, and those of its
marks along the walk. -/
def occurrences (spec : Value) : List Occurrence :=
  let scales := names (parts spec "scales")
  sourceOccurrences [] (parts spec "data") ++
    scaleOccurrences (names (parts spec "data")) "" (parts spec "scales") ++
    ((parts spec "axes").map fun a =>
      ⟨scales, scalarOf (a.getD "scale"), .axis (a.getD "orient").text (scalarOf (a.getD "scale"))⟩)
      ++
    (parts spec "legends").flatMap (legendOccurrences scales) ++
    (walkItems [] "" 0 (inside spec)).flatMap (markOccurrences spec)

/-! ## 3. Scoped documents -/

theorem contains_names {vs : List Value} {n : Scalar} :
    (names vs).contains n = true ↔ Declared vs n := by
  rw [List.contains_iff_exists_mem_beq, Declared]
  constructor
  · rintro ⟨k, hk, h⟩
    obtain ⟨v, hv, rfl⟩ := List.mem_map.mp hk
    exact ⟨v, hv, h⟩
  · rintro ⟨v, hv, h⟩
    exact ⟨nameOf v, List.mem_map.mpr ⟨v, hv, rfl⟩, h⟩

-- A scope made of the parts of ancestors and of the document has the names of all of them.
theorem contains_scope {as : List Value} {f : Value → List Value} {outer : List Value}
    {n : Scalar} :
    (as.flatMap (fun a => names (f a)) ++ names outer).contains n = true ↔
      Declared outer n ∨ ∃ a ∈ as, Declared (f a) n := by
  rw [List.contains_append, Bool.or_eq_true, contains_names, Or.comm]
  apply or_congr Iff.rfl
  induction as with
  | nil => simp
  | cons a as ih =>
    rw [List.flatMap_cons, List.contains_append, Bool.or_eq_true, contains_names, ih]
    constructor
    · rintro (h | ⟨b, hb, h⟩)
      · exact ⟨a, List.mem_cons_self, h⟩
      · exact ⟨b, List.mem_cons_of_mem _ hb, h⟩
    · rintro ⟨b, hb, h⟩
      rcases List.mem_cons.mp hb with rfl | hb
      · exact Or.inl h
      · exact Or.inr ⟨b, hb, h⟩

theorem contains_sourceScope {spec : Value} {as : List Value} {n : Scalar} :
    (sourceScope spec as).contains n = true ↔ VisibleSource spec as n :=
  contains_scope (f := fun a => (facetOf? a).toList)

theorem contains_scaleScope {spec : Value} {as : List Value} {n : Scalar} :
    (scaleScope spec as).contains n = true ↔ VisibleScale spec as n :=
  contains_scope (f := fun a => parts a "scales")

mutual

-- The scales that an encoding uses are the texts under a key `scale` inside it.
theorem mem_usedScales {n : String} (v : Value) :
    n ∈ usedScales v ↔ ∃ e, Value.Within e v ∧ e.get? "scale" = some (.str n) := by
  match v with
  | .scalar s =>
    simp only [usedScales, List.not_mem_nil, Value.within_scalar, false_iff]
    rintro ⟨e, rfl, h⟩
    simp [Value.get?] at h
  | .array _ _ | .column _ =>
    simp only [usedScales, List.not_mem_nil, false_iff]
    rintro ⟨e, h, hn⟩
    cases h
    simp [Value.get?] at hn
  | .list vs =>
    rw [usedScales, mem_usedInItems vs]
    constructor
    · rintro ⟨v, hv, e, he, h⟩
      exact ⟨e, Value.Within.item hv he, h⟩
    · rintro ⟨e, he, h⟩
      rcases Value.within_list.mp he with rfl | ⟨v, hv, he⟩
      · simp [Value.get?] at h
      · exact ⟨v, hv, e, he, h⟩
  | .map es =>
    -- Of the entries under `scale` only the first one counts, as in the reader.
    have hown : n ∈ scaleOf es ↔ (Value.map es).get? "scale" = some (.str n) := by
      rw [Value.get?_map, scaleOf]
      split
      next s hs => simp [hs, eq_comm]
      next hs => simpa using fun h => hs n h
    rw [usedScales, List.mem_append, hown, mem_usedInEntries es]
    constructor
    · rintro (h | ⟨f, hf, e, he, h⟩)
      · exact ⟨_, Value.Within.here _, h⟩
      · exact ⟨e, Value.Within.entry hf he, h⟩
    · rintro ⟨e, he, h⟩
      rcases Value.within_map.mp he with rfl | ⟨f, hf, he⟩
      · exact Or.inl h
      · exact Or.inr ⟨f, hf, e, he, h⟩
termination_by structural v

theorem mem_usedInEntries {n : String} (es : List (Scalar × Value)) :
    n ∈ usedInEntries es ↔
      ∃ f ∈ es, ∃ e, Value.Within e f.2 ∧ e.get? "scale" = some (.str n) := by
  match es with
  | [] => simp [usedInEntries]
  | (k, v) :: es =>
    rw [usedInEntries, List.mem_append, mem_usedScales v, mem_usedInEntries es]
    simp only [List.mem_cons, exists_eq_or_imp]
termination_by structural es

theorem mem_usedInItems {n : String} (vs : List Value) :
    n ∈ usedInItems vs ↔
      ∃ v ∈ vs, ∃ e, Value.Within e v ∧ e.get? "scale" = some (.str n) := by
  match vs with
  | [] => simp [usedInItems]
  | v :: vs =>
    rw [usedInItems, List.mem_append, mem_usedScales v, mem_usedInItems vs]
    simp only [List.mem_cons, exists_eq_or_imp]
termination_by structural vs

end

end PlotScene.Reference
