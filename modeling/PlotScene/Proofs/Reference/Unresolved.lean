import PlotScene.Proofs.Reference.Scope

/-!
# What the check of references finds

A document that can be read has exactly one problem for each of its references that is not in scope,
in the order of the walk.  So the check finds nothing exactly when the document is scoped, and it
reads every document whose parts have the expected shape.
-/

namespace PlotScene.Reference

/-! ## 1. All references in scope -/

@[simp]
theorem resolves_mk (scope : List Scalar) (n : Scalar) (p : Problem) :
    (Occurrence.mk scope n p).resolves = scope.contains n := rfl

/-- Every source builds on one of the names `before` or on an earlier source. -/
def BuildsOnEarlier (before : List Scalar) (vs : List Value) : Prop :=
  ∀ pre s post, vs = pre ++ s :: post → (s.getD "source").isNull = false →
    (before.contains (scalarOf (s.getD "source")) = true ∨
      Declared pre (scalarOf (s.getD "source")))

-- The first source can only build on a name from before, and it is earlier than all others.
theorem buildsOnEarlier_cons {before : List Scalar} {v : Value} {vs : List Value} :
    BuildsOnEarlier before (v :: vs) ↔
      ((v.getD "source").isNull = false →
        before.contains (scalarOf (v.getD "source")) = true) ∧
      BuildsOnEarlier (nameOf v :: before) vs := by
  constructor
  · intro h
    refine ⟨fun hs => ?_, fun pre s post heq hs => ?_⟩
    · rcases h [] v vs rfl hs with hn | ⟨d, hd, -⟩
      · exact hn
      · cases hd
    · rw [List.contains_cons, Bool.or_eq_true]
      rcases h (v :: pre) s post (by rw [heq]; rfl) hs with hn | ⟨d, hd, hn⟩
      · exact Or.inl (Or.inr hn)
      · rcases List.mem_cons.mp hd with rfl | hd
        · exact Or.inl (Or.inl hn)
        · exact Or.inr ⟨d, hd, hn⟩
  · rintro ⟨hv, hvs⟩ pre s post heq hs
    cases pre with
    | nil =>
      obtain ⟨rfl, rfl⟩ := List.cons.inj heq
      exact Or.inl (hv hs)
    | cons w pre =>
      obtain ⟨rfl, rfl⟩ := List.cons.inj heq
      rcases hvs pre s post rfl hs with h | ⟨d, hd, h⟩
      · rw [List.contains_cons, Bool.or_eq_true] at h
        rcases h with h | h
        · exact Or.inr ⟨v, List.mem_cons_self, h⟩
        · exact Or.inl h
      · exact Or.inr ⟨d, List.mem_cons_of_mem _ hd, h⟩

theorem sourceOccurrences_resolve {vs : List Value} {before : List Scalar} :
    (∀ o ∈ sourceOccurrences before vs, o.resolves = true) ↔ BuildsOnEarlier before vs := by
  induction vs generalizing before with
  | nil => simp [sourceOccurrences, BuildsOnEarlier]
  | cons v vs ih =>
    -- The first source comes before the rest, which may build on it.
    rw [sourceOccurrences, List.forall_mem_append, ih, buildsOnEarlier_cons]
    refine and_congr ?_ Iff.rfl
    cases hs : (v.getD "source").isNull <;> simp

theorem scaleOccurrences_resolve {scope : List Scalar} {place : String} {cs : List Value} :
    (∀ o ∈ scaleOccurrences scope place cs, o.resolves = true) ↔
      ∀ c ∈ cs, ∀ r, DomainRef (c.getD "domain") r →
        scope.contains (scalarOf (r.getD "data")) = true := by
  rw [scaleOccurrences]
  constructor
  · intro h c hc r hr
    have hn := mem_domainNames.mpr ⟨r, hr, rfl⟩
    exact h ⟨scope, _, _⟩ (List.mem_flatMap.mpr ⟨c, hc, List.mem_map.mpr ⟨_, hn, rfl⟩⟩)
  · intro h o ho
    obtain ⟨c, hc, ho⟩ := List.mem_flatMap.mp ho
    obtain ⟨n, hn, rfl⟩ := List.mem_map.mp ho
    obtain ⟨r, hr, rfl⟩ := mem_domainNames.mp hn
    exact h c hc r hr

theorem markOccurrences_resolve {spec : Value} {x : Visit} :
    (∀ o ∈ markOccurrences spec x, o.resolves = true) ↔ MarkScoped spec x.ancestors x.mark := by
  rw [markOccurrences]
  simp only [List.mem_append, or_imp, forall_and, scaleOccurrences_resolve, List.forall_mem_map,
    resolves_mk, contains_sourceScope, contains_scaleScope, Option.mem_toList, mem_usedScales]
  constructor
  · rintro ⟨⟨⟨hs, hf⟩, hd⟩, hc⟩
    exact ⟨hs, hf, hd, fun e n he h => hc n ⟨e, he, h⟩⟩
  · rintro ⟨hs, hf, hd, hc⟩
    exact ⟨⟨⟨hs, hf⟩, hd⟩, fun n ⟨e, he, h⟩ => hc e n he h⟩

theorem legendOccurrences_resolve {scope : List Scalar} {l : Value} :
    (∀ o ∈ legendOccurrences scope l, o.resolves = true) ↔
      ∀ channel ∈ legendChannels, (l.getD channel).isNull = false →
        scope.contains (scalarOf (l.getD channel)) = true := by
  rw [legendOccurrences]
  simp only [List.forall_mem_map, List.mem_filter, resolves_mk, and_imp,
    Bool.not_eq_true']

/-- All references of a document resolve exactly when it is scoped. -/
theorem occurrences_resolve {spec : Value} :
    (∀ o ∈ occurrences spec, o.resolves = true) ↔ Scoped spec := by
  rw [occurrences]
  simp only [List.mem_append, or_imp, forall_and, List.forall_mem_map, List.forall_mem_flatMap,
    sourceOccurrences_resolve, scaleOccurrences_resolve, legendOccurrences_resolve,
    markOccurrences_resolve, resolves_mk, contains_names]
  rw [forall_visits]
  constructor
  · rintro ⟨⟨⟨⟨hb, hd⟩, ha⟩, hl⟩, hm⟩
    exact ⟨fun pre s post h hs => (hb pre s post h hs).resolve_left (by simp), hd, ha, hl, hm⟩
  · rintro ⟨hb, hd, ha, hl, hm⟩
    exact ⟨⟨⟨⟨fun pre s post h hs => Or.inr (hb pre s post h hs), hd⟩, ha⟩, hl⟩, hm⟩

/-! ## 2. One problem for each reference out of scope -/

def problemsOf (os : List Occurrence) : List Problem :=
  (os.filter fun o => !o.resolves).map Occurrence.problem

theorem problemsOf_append (os ps : List Occurrence) :
    problemsOf (os ++ ps) = problemsOf os ++ problemsOf ps := by
  rw [problemsOf, List.filter_append, List.map_append, problemsOf, problemsOf]

theorem problemsOf_flatMap {α : Type} (xs : List α) (f : α → List Occurrence) :
    problemsOf (xs.flatMap f) = xs.flatMap fun x => problemsOf (f x) := by
  induction xs with
  | nil => rfl
  | cons x xs ih => rw [List.flatMap_cons, List.flatMap_cons, problemsOf_append, ih]

theorem problemsOf_singleton (o : Occurrence) :
    problemsOf [o] = missing o.scope o.name o.problem := by
  rw [problemsOf, missing, List.filter_cons, Occurrence.resolves]
  cases o.scope.contains o.name <;> rfl

theorem problemsOf_map {α : Type} (xs : List α) (f : α → Occurrence) :
    problemsOf (xs.map f) =
      xs.flatMap fun x => missing (f x).scope (f x).name (f x).problem := by
  induction xs with
  | nil => rfl
  | cons x xs ih =>
    rw [List.map_cons, List.flatMap_cons, ← ih, ← List.singleton_append, problemsOf_append,
      problemsOf_singleton]

theorem problemsOf_eq_nil {os : List Occurrence} :
    problemsOf os = [] ↔ ∀ o ∈ os, o.resolves = true := by
  simp [problemsOf]

/-! ## 3. What is read -/

def Source.of (v : Value) : Source where
  name := nameOf v
  base := if (v.getD "source").isNull then none else some (scalarOf (v.getD "source"))

def Scale.of (v : Value) : Scale where
  name := nameOf v
  sources := domainNames (v.getD "domain")

def Axis.of (v : Value) : Axis where
  orient := (v.getD "orient").text
  scale := scalarOf (v.getD "scale")

def legendOf (v : Value) : List Scalar :=
  ((legendChannels.map v.getD).filter fun s => !s.isNull).map scalarOf

def Facet.of (g : Value) : Facet where
  name := nameOf g
  source := scalarOf (g.getD "data")

/-- A mark with its own parts, given the marks inside it. -/
def Mark.of (v : Value) (children : List Mark) : Mark :=
  .mk (ownName? v) (((v.getD "from").get? "data").map scalarOf) ((facetOf? v).map Facet.of)
    ((parts v "scales").map Scale.of) (usedScales (v.getD "encode")) children

/-- A document with its own parts, given its marks. -/
def Document.of (spec : Value) (marks : List Mark) : Document where
  sources := (parts spec "data").map Source.of
  scales := (parts spec "scales").map Scale.of
  axes := (parts spec "axes").map Axis.of
  legends := (parts spec "legends").map legendOf
  marks := marks

theorem field_key {v x : Value} {key : String} {s : Scalar} (hx : v.field key = .ok x)
    (hs : x.key = .ok s) : s = scalarOf (v.getD key) := by
  obtain ⟨-, rfl⟩ := Value.isMap_of_field hx
  exact (scalarOf_key hs).symm

theorem dataOf?_eq {v : Value} {d : Option Scalar} (h : dataOf? v = .ok d) :
    d = (v.get? "data").map scalarOf := by
  rw [dataOf?] at h
  split at h
  next x hx =>
    obtain ⟨s, hs, rfl⟩ := map_eq_ok.mp h
    rw [hx, Option.map_some, scalarOf_key hs]
  next hx =>
    rw [hx]
    exact (Except.ok.inj h).symm

theorem domainSources_eq {domain : Value} {ns : List Scalar}
    (h : domainSources domain = .ok ns) : ns = domainNames domain := by
  rw [domainSources] at h
  split at h
  next =>
    obtain ⟨own, hown, h⟩ := bind_eq_ok.mp h
    obtain ⟨items, hitems, h⟩ := bind_eq_ok.mp h
    obtain ⟨fields, hfields, h⟩ := bind_eq_ok.mp h
    rw [domainNames, parts_of_itemsUnder hitems, List.filterMap_cons, ← pure_eq_ok.mp h,
      eq_map_of_mapM (fun _ _ => dataOf?_eq) hfields, List.filterMap_map, dataOf?_eq hown]
    cases domain.get? "data" <;> rfl
  next hm =>
    obtain rfl := pure_eq_ok.mp h
    cases domain <;> first | rfl | simp [Value.isMap] at hm

theorem Scale.read_eq {v : Value} {c : Scale} (h : Scale.read v = .ok c) : c = Scale.of v := by
  obtain ⟨x, hx, h⟩ := bind_eq_ok.mp h
  obtain ⟨n, hn, h⟩ := bind_eq_ok.mp h
  obtain ⟨domain, hdomain, h⟩ := bind_eq_ok.mp h
  obtain ⟨-, rfl⟩ := Value.isMap_of_field hdomain
  obtain ⟨ns, hns, h⟩ := bind_eq_ok.mp h
  rw [← Except.ok.inj h, field_key hx hn, domainSources_eq hns]
  rfl

theorem Source.read_eq {v : Value} {s : Source} (h : Source.read v = .ok s) :
    s = Source.of v := by
  obtain ⟨x, hx, h⟩ := bind_eq_ok.mp h
  obtain ⟨-, rfl⟩ := Value.isMap_of_field hx
  rw [Source.of]
  split at h
  next hnull =>
    obtain ⟨base, hbase, h⟩ := bind_eq_ok.mp h
    obtain ⟨y, hy, h⟩ := bind_eq_ok.mp h
    obtain ⟨n, hn, h⟩ := bind_eq_ok.mp h
    rw [← Except.ok.inj h, field_key hy hn, if_pos hnull, ← Except.ok.inj hbase]
    rfl
  next hnull =>
    obtain ⟨base, hbase, h⟩ := bind_eq_ok.mp h
    obtain ⟨u, hu, rfl⟩ := map_eq_ok.mp hbase
    obtain ⟨y, hy, h⟩ := bind_eq_ok.mp h
    obtain ⟨n, hn, h⟩ := bind_eq_ok.mp h
    rw [← Except.ok.inj h, field_key hy hn, if_neg hnull, scalarOf_key hu]
    rfl

theorem Axis.read_eq {v : Value} {a : Axis} (h : Axis.read v = .ok a) : a = Axis.of v := by
  obtain ⟨x, hx, h⟩ := bind_eq_ok.mp h
  obtain ⟨-, rfl⟩ := Value.isMap_of_field hx
  obtain ⟨y, hy, h⟩ := bind_eq_ok.mp h
  obtain ⟨c, hc, h⟩ := bind_eq_ok.mp h
  rw [← Except.ok.inj h, field_key hy hc]
  rfl

theorem readLegend_eq {v : Value} {l : List Scalar} (h : readLegend v = .ok l) :
    l = legendOf v := by
  obtain ⟨shown, hshown, h⟩ := bind_eq_ok.mp h
  rw [eq_map_of_mapM (fun _ _ hx => (Value.isMap_of_field hx).2) hshown] at h
  exact eq_map_of_mapM (fun _ _ hs => (scalarOf_key hs).symm) h

theorem readMarkName_eq {v : Value} {n : Option String} (h : readMarkName v = .ok n) :
    n = ownName? v := by
  obtain ⟨x, hx, h⟩ := bind_eq_ok.mp h
  obtain ⟨-, rfl⟩ := Value.isMap_of_field hx
  obtain ⟨t, ht, h⟩ := bind_eq_ok.mp h
  rw [← Except.ok.inj h, ownName?, ht]
  rfl

-- What does not count as true has no entries, so the empty mapping can stand in its place.
theorem get?_orEmpty {v w : Value} {key : String} (h : v.orEmpty = .ok w) :
    w.get? key = v.get? key := by
  obtain ⟨t, ht, h⟩ := bind_eq_ok.mp h
  split at h
  next => rw [pure_eq_ok.mp h]
  next hfalse =>
    rw [← Except.ok.inj h]
    cases v with
    | map es =>
      cases es with
      | nil => rfl
      | cons e es =>
        rw [← Except.ok.inj ht] at hfalse
        exact absurd rfl hfalse
    | _ => rfl

theorem readFacet_eq {v : Value} {f : Option Facet} (h : readFacet v = .ok f) :
    f = ((v.get? "facet").filter Value.isMap).map Facet.of := by
  rw [readFacet] at h
  split at h
  next es hes =>
    obtain ⟨n, hn, h⟩ := bind_eq_ok.mp h
    obtain ⟨s, hs, h⟩ := bind_eq_ok.mp h
    rw [← Except.ok.inj h, hes, ← scalarOf_key hn, ← scalarOf_key hs]
    rfl
  next hes =>
    rw [← Except.ok.inj h]
    cases hx : v.get? "facet" with
    | none => rfl
    | some x =>
      cases x with
      | map es => exact absurd hx (hes es)
      | _ => rfl

theorem readMark_eq {v : Value} {children : List Mark} {m : Mark}
    (h : readMark v children = .ok m) : m = Mark.of v children := by
  obtain ⟨name, hname, h⟩ := bind_eq_ok.mp h
  obtain ⟨x, hx, h⟩ := bind_eq_ok.mp h
  obtain ⟨-, rfl⟩ := Value.isMap_of_field hx
  obtain ⟨source, hsource, h⟩ := bind_eq_ok.mp h
  split at h
  next => cases h
  obtain ⟨data, hdata, h⟩ := bind_eq_ok.mp h
  obtain ⟨facet, hfacet, h⟩ := bind_eq_ok.mp h
  obtain ⟨items, hitems, h⟩ := bind_eq_ok.mp h
  obtain ⟨scales, hscales, h⟩ := bind_eq_ok.mp h
  obtain ⟨encode, hencode, h⟩ := bind_eq_ok.mp h
  obtain ⟨-, rfl⟩ := Value.isMap_of_field hencode
  rw [← Except.ok.inj h, Mark.of, readMarkName_eq hname, dataOf?_eq hdata, readFacet_eq hfacet,
    parts_of_itemsUnder hitems, eq_map_of_mapM (fun _ _ => Scale.read_eq) hscales,
    get?_orEmpty hsource, get?_orEmpty hsource, facetOf?]

end PlotScene.Reference
