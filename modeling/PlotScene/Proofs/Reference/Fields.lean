import PlotScene.Proofs.Layer.Reads

/-!
# Fields of data

Which fields the rows of a data source have.  The rows of a source are written out, or taken from
another source; filters and collections leave their fields alone, and a pivot makes one field for
each value of a field.  The name of a facet stands for part of the source that the facet splits.
-/

namespace PlotScene.Reference

/-! ## 1. Rows of sources -/

def transforms (source : Value) : List Value :=
  parts source "transform"

/-- A transformation that drops or reorders rows and leaves every row as it is. -/
def KeepsRows (t : Value) : Prop :=
  t.get? "type" = some (.str "filter") ∨ t.get? "type" = some (.str "collect")

def IsPivot (t : Value) : Prop :=
  t.get? "type" = some (.str "pivot")

theorem IsPivot.eq_of_type {t : Value} {k : String} (h : IsPivot t)
    (hk : t.get? "type" = some (.str k)) : k = "pivot" := by
  rw [IsPivot, hk] at h
  simpa using h

/-- A data source has this name. -/
def Names (n : String) (source : Value) : Prop :=
  source.get? "name" = some (.str n)

theorem Names.unique {source : Value} {n m : String} (hn : Names n source)
    (hm : Names m source) : n = m := by
  rw [Names, hn] at hm
  simpa using hm

/-- Every row of a source has the field, after its transformations.  After a pivot a row has the
fields of the grouping, and one for each value that the field of the pivot has in some row. -/
inductive HasField (data : List Value) : Value → String → Prop where
  | values {source : Value} {rows : List Value} {f : String} :
      source.get? "values" = some (.list rows) → (∀ t ∈ transforms source, KeepsRows t) →
      (∀ row ∈ rows, row.has f = true) → HasField data source f
  | upstream {source : Value} {base f : String} :
      source.get? "source" = some (.str base) → (∀ t ∈ transforms source, KeepsRows t) →
      (∃ b ∈ data, Names base b) → (∀ b ∈ data, Names base b → HasField data b f) →
      HasField data source f
  | grouped {source pivot : Value} {rest : List Value} {f : String} :
      transforms source = pivot :: rest → IsPivot pivot → (∀ t ∈ rest, KeepsRows t) →
      .str f ∈ parts pivot "groupby" → HasField data source f
  | pivoted {source pivot : Value} {rest rows : List Value} {k f : String} :
      transforms source = pivot :: rest → IsPivot pivot → (∀ t ∈ rest, KeepsRows t) →
      pivot.get? "field" = some (.str k) → source.get? "values" = some (.list rows) →
      (rows ≠ [] → ∃ row ∈ rows, row.get? k = some (.str f)) → HasField data source f

/-- A source with this name is there, and every row of it has the field. -/
def Provided (data : List Value) (n f : String) : Prop :=
  (∃ s ∈ data, Names n s) ∧ ∀ s ∈ data, Names n s → HasField data s f

/-- The fields that a pivot reads: its own field, its value, and those of its grouping. -/
def pivotFields (pivot : Value) : List Value :=
  pivot.getD "field" :: pivot.getD "value" :: parts pivot "groupby"

/-- Every pivot of a source reads fields that all rows of the source have. -/
def PivotsRead (source : Value) : Prop :=
  ∀ t ∈ transforms source, IsPivot t → ∃ rows, source.get? "values" = some (.list rows) ∧
    ∀ x ∈ pivotFields t, ∃ f, x = .str f ∧ ∀ row ∈ rows, row.has f = true

/-! ## 2. Names inside marks -/

/-- The rows that a name stands for inside these ancestors have the field: the nearest facet of that
name counts, and then the sources of the document. -/
def FieldAt (data : List Value) : List Value → String → String → Prop
  | [], n, f => Provided data n f
  | a :: as, n, f =>
      match facetOf? a with
      | some g =>
          if (nameOf g).same (.str n) then ∃ d, g.get? "data" = some (.str d) ∧ FieldAt data as d f
          else FieldAt data as n f
      | none => FieldAt data as n f

/-- The name of the rows that a mark reads, directly or through its facet. -/
def readName? (m : Value) : Option Value :=
  match (m.getD "from").get? "data" with
  | some d => some d
  | none => (facetOf? m).bind fun g => g.get? "data"

/-- A channel of a mark that goes through a scale and names a field: all rows that the mark reads
have that field, and a mark with a facet groups by it. -/
def ChannelPresent (data ancestors : List Value) (m field : Value) : Prop :=
  ∃ f n, field = .str f ∧ readName? m = some (.str n) ∧ FieldAt data ancestors n f ∧
    ∀ g, facetOf? m = some g → .str f ∈ groupFields g

/-- A reference of a domain: all rows of its data have its field. -/
def DomainPresent (data ancestors : List Value) (r : Value) : Prop :=
  ∃ n f, r.get? "data" = some (.str n) ∧ r.get? "field" = some (.str f) ∧
    FieldAt data ancestors n f

structure MarkPresent (data ancestors : List Value) (m : Value) : Prop where
  channels : ∀ e field, Value.Within e (m.getD "encode") → e.has "scale" = true →
    e.get? "field" = some field → ChannelPresent data ancestors m field
  groups : ∀ g, facetOf? m = some g → ∀ x ∈ groupFields g,
    ∃ f n, x = .str f ∧ g.get? "data" = some (.str n) ∧ FieldAt data ancestors n f
  domains : ∀ c ∈ parts m "scales", ∀ r, DomainRef (c.getD "domain") r →
    DomainPresent data (m :: ancestors) r

/-- Every field that a document names is a field of all rows that it is read from. -/
structure FieldsPresent (spec : Value) : Prop where
  marks : ∀ as m, MarkAt (inside spec) as m → MarkPresent (parts spec "data") as m
  domains : ∀ c ∈ parts spec "scales", ∀ r, DomainRef (c.getD "domain") r →
    DomainPresent (parts spec "data") [] r
  pivots : ∀ s ∈ parts spec "data", PivotsRead s

/-! ## 3. Marks that read within a view -/

/-- The fields of a view are fields of the rows inside these ancestors. -/
def FieldsReadable (data ancestors : List Value) (W : View) : Prop :=
  ∀ n f, W.field n f → FieldAt data ancestors n f

-- Inside a mark the name of its facet has the fields of the source that the facet splits.
theorem FieldsReadable.inside {data as own : List Value} {a g : Value} {W : View}
    {name source : String} (h : FieldsReadable data as W) (hg : facetOf? a = some g)
    (hname : g.get? "name" = some (.str name)) (hdata : g.get? "data" = some (.str source)) :
    FieldsReadable data (a :: as) (W.inside name source own) := by
  intro n f hf
  rw [FieldAt, hg]
  have hsame : (nameOf g).same (.str n) = true ↔ n = name := by
    rw [nameOf, Value.getD_of_get? hname, scalarOf, Scalar.same_str_iff]
    simp [eq_comm]
  show if (nameOf g).same (.str n) = true then _ else _
  by_cases heq : n = name
  · rw [if_pos (hsame.mpr heq)]
    exact ⟨source, hdata, h source f (by rw [heq, View.inside_field] at hf; exact hf)⟩
  · rw [if_neg fun hn => heq (hsame.mp hn)]
    apply h n f
    rw [show (W.inside name source own).field n f = W.field n f from if_neg heq] at hf
    exact hf

theorem domainPresent_of_reads {data as : List Value} {W : View} {domain r : Value}
    (hW : FieldsReadable data as W) (h : DomainReads W domain) (hr : DomainRef domain r) :
    DomainPresent data as r := by
  obtain ⟨d, f, hd, hf, -, hread⟩ := h r hr
  exact ⟨d, f, hd, hf, hW d f hread⟩

theorem markPresent_of_reads {data as : List Value} {W : View} {m : Value}
    (hW : FieldsReadable data as W) (h : MarkReads W m) : MarkPresent data as m := by
  cases h with
  | @flat _ _ source hfrom hs hflat =>
    -- A mark without a facet reads its source itself.
    have hfacet : facetOf? m = none := by
      rw [facetOf?, hfrom]
      rfl
    have hread : readName? m = some (.str source) := by
      rw [readName?, hfrom]
      rfl
    refine ⟨fun e field he hscale hfield => ?_, fun g hg => ?_, fun c hc => ?_⟩
    · obtain ⟨f, rfl, hf⟩ := (hflat.channels e he hscale).field field hfield
      refine ⟨f, source, rfl, hread, hW source f hf, fun g hg => ?_⟩
      rw [hfacet] at hg
      cases hg
    · rw [hfacet] at hg
      cases hg
    · rw [parts_of_get?_none hflat.scales] at hc
      cases hc
  | @facet _ _ g name source cs hmap hfrom hname hdata hs hgroup hown henc hchildren hreads =>
    -- The group mark of a facet is drawn once for each part, so it knows only the fields of the
    -- grouping, and these are fields of the split source.
    have hfacet : facetOf? m = some g := facetOf?_of_from hfrom hname
    have hread : readName? m = some (.str source) := by
      rw [readName?, hfacet, hfrom]
      exact hdata
    have hgroups : ∀ x ∈ groupFields g, ∃ f, x = .str f ∧ FieldAt data as source f := by
      intro x hx
      obtain ⟨f, hxf, hf⟩ := hgroup x hx
      exact ⟨f, hxf, hW source f hf⟩
    refine ⟨fun e field he hscale hfield => ?_, fun g' hg x hx => ?_, fun c hc r hr => ?_⟩
    · obtain ⟨f, rfl, hf⟩ := (henc e he hscale).field field hfield
      obtain ⟨f', heq, hat⟩ := hgroups _ hf
      obtain rfl : f = f' := by simpa using heq
      refine ⟨f, source, rfl, hread, hat, fun g' hg => ?_⟩
      obtain rfl := Option.some.inj (hfacet.symm.trans hg)
      exact hf
    · obtain rfl := Option.some.inj (hfacet.symm.trans hg)
      obtain ⟨f, hxf, hat⟩ := hgroups x hx
      exact ⟨f, source, hxf, hdata, hat⟩
    · exact domainPresent_of_reads (hW.inside hfacet hname hdata) (hown c hc).domain hr

end PlotScene.Reference
