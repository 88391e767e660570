import PlotScene.Plot.Description
import PlotScene.Proofs.Firsts
import PlotScene.Proofs.Plot.Description
import PlotScene.Proofs.Statistic.Told

/-!
# What the results of a description add to a plot

The results are read entry by entry.  An entry with content that names a geometry declares it; an
entry that names a statistic and yields records gives the statistic these records, in the place that
the statistic has since it was first given any.
-/

namespace PlotScene

/-! ## 1. What one entry gives -/

/-- The geometry that an entry with content names. -/
def geometryOf? (e : Scalar × Value) : Option GeometryKind :=
  match LayerKind.ofValue? (.scalar e.1), hasContent e.2 with
  | some (.geometry g), .ok true => some g
  | _, _ => none

/-- The statistic that an entry names. -/
def statisticOf? (e : Scalar × Value) : Option StatisticKind :=
  match LayerKind.ofValue? (.scalar e.1) with
  | some (.statistic kind) => some kind
  | _ => none

/-- The records that a result holds for a statistic. -/
def recordsIn (observationX : Value) (kind : StatisticKind) (raw : Value) : List kind.Record :=
  match normalize kind raw observationX with
  | .ok n => n.records
  | .error _ => []

/-- The statistic that an entry yields records for. -/
def yieldingOf? (observationX : Value) (e : Scalar × Value) : Option StatisticKind :=
  (statisticOf? e).filter fun kind => !(recordsIn observationX kind e.2).isEmpty

/-- The records that an entry yields for a statistic, if it yields any. -/
def yieldOf? (observationX : Value) (kind : StatisticKind) (e : Scalar × Value) :
    Option (List kind.Record) :=
  if statisticOf? e = some kind && !(recordsIn observationX kind e.2).isEmpty then
    some (recordsIn observationX kind e.2)
  else none

/-- The records that the last entry yielding any has for a statistic. -/
def lastYield? (observationX : Value) (kind : StatisticKind) (es : Entries) :
    Option (List kind.Record) :=
  (es.filterMap (yieldOf? observationX kind)).getLast?

variable {observationX : Value}

theorem recordsIn_of_normalize {kind : StatisticKind} {raw : Value} {n : Normalized kind.Record}
    (h : normalize kind raw observationX = .ok n) :
    recordsIn observationX kind raw = n.records := by
  rw [recordsIn, h]

-- Nothing without content holds a record, whatever it is.
theorem recordsIn_of_hasContent {raw : Value} (h : hasContent raw = .ok false)
    (kind : StatisticKind) : recordsIn observationX kind raw = [] := by
  have hnone : groupsOf raw = [] → recordsIn observationX kind raw = [] := by
    intro hgroups
    have hread : normalize kind raw observationX = .ok Normalized.empty := by
      rw [normalize_eq_readGroups, readGroups, hgroups]
      rfl
    rw [recordsIn_of_normalize hread]
    rfl
  have hone : raw.isMap = false ∨ raw = .map [] → groupsOf raw = [raw] →
      recordsIn observationX kind raw = [] := by
    intro hv hgroups
    obtain ⟨n, hn, hrecords⟩ := normalize_of_malformed kind observationX hv hgroups
    rw [recordsIn_of_normalize hn, hrecords]
  cases raw with
  | scalar s =>
    cases s with
    | null => exact hnone rfl
    | _ => exact hone (Or.inl rfl) rfl
  | list vs =>
    cases vs with
    | nil => exact hnone rfl
    | cons v vs => cases h
  | map es =>
    cases es with
    | nil => exact hone (Or.inr rfl) rfl
    | cons e es => cases h
  | _ => exact hone (Or.inl rfl) rfl

theorem yieldOf?_of_ne {kind : StatisticKind} {e : Scalar × Value}
    (h : statisticOf? e ≠ some kind) : yieldOf? observationX kind e = none := by
  simp [yieldOf?, h]

/-! ## 2. Reading entries -/

namespace Results

/-- What reading entries makes of the results before. -/
structure Extends (observationX : Value) (es : Entries) (r r' : Results) : Prop where
  declared : ∀ gs, r.declared = firsts gs → r'.declared = firsts (gs ++ es.filterMap geometryOf?)
  order : ∀ kinds, r.statistics.order = firsts kinds →
    r'.statistics.order = firsts (kinds ++ es.filterMap (yieldingOf? observationX))
  records : ∀ kind, r'.statistics.records kind =
    (lastYield? observationX kind es).getD (r.statistics.records kind)
  notices : ∀ m ∈ r'.notices, m ∈ r.notices ∨ m.code.isOfReading = true

theorem Extends.refl (r : Results) : Extends observationX [] r r where
  declared gs h := by simpa using h
  order kinds h := by simpa using h
  records _ := rfl
  notices m hm := Or.inl hm

theorem Extends.trans {es es' : Entries} {r r' r'' : Results} (h : Extends observationX es r r')
    (h' : Extends observationX es' r' r'') : Extends observationX (es ++ es') r r'' where
  declared gs hgs := by
    rw [List.filterMap_append, ← List.append_assoc]
    exact h'.declared _ (h.declared gs hgs)
  order kinds hkinds := by
    rw [List.filterMap_append, ← List.append_assoc]
    exact h'.order _ (h.order kinds hkinds)
  records kind := by
    rw [h'.records, h.records, lastYield?, lastYield?, lastYield?, List.filterMap_append,
      List.getLast?_append]
    cases (es'.filterMap (yieldOf? observationX kind)).getLast? <;> rfl
  notices m hm := by
    rcases h'.notices m hm with hm | hm
    · exact h.notices m hm
    · exact Or.inr hm

-- An entry that gives nothing leaves the results as they were.
theorem extends_of_nothing {e : Scalar × Value} (hg : geometryOf? e = none)
    (hs : ∀ kind, statisticOf? e = some kind → recordsIn observationX kind e.2 = [])
    (r : Results) : Extends observationX [e] r r := by
  have hyielding : yieldingOf? observationX e = none := by
    rw [yieldingOf?, Option.filter_eq_none_iff]
    intro kind hkind
    simp [hs kind hkind]
  have hyield : ∀ kind, yieldOf? observationX kind e = none := by
    intro kind
    by_cases hkind : statisticOf? e = some kind
    · simp [yieldOf?, hs kind hkind]
    · exact yieldOf?_of_ne hkind
  refine ⟨fun gs h => ?_, fun kinds h => ?_, fun kind => ?_, fun m hm => Or.inl hm⟩
  · simpa [hg] using h
  · simpa [hyielding] using h
  · simp [lastYield?, hyield]

theorem extends_declare {e : Scalar × Value} {g : GeometryKind} (hg : geometryOf? e = some g)
    (hs : statisticOf? e = none) (r : Results) : Extends observationX [e] r (r.declare g) := by
  have hyield : ∀ kind, yieldOf? observationX kind e = none :=
    fun kind => yieldOf?_of_ne (by rw [hs]; exact fun h => by cases h)
  refine ⟨fun gs h => ?_, fun kinds h => ?_, fun kind => ?_, fun m hm => ?_⟩
  · have hone : [e].filterMap geometryOf? = [g] := by simp [hg]
    rw [hone, firsts_append_singleton, ← h, declare]
    split <;> rfl
  · have hsame : (r.declare g).statistics = r.statistics := by
      rw [declare]
      split <;> rfl
    simpa [yieldingOf?, hs, hsame] using h
  · have hsame : (r.declare g).statistics = r.statistics := by
      rw [declare]
      split <;> rfl
    simp [lastYield?, hyield, hsame]
  · rw [declare] at hm
    split at hm <;> exact Or.inl hm

theorem extends_add {e : Scalar × Value} {kind : StatisticKind} {n : Normalized kind.Record}
    (hg : geometryOf? e = none) (hs : statisticOf? e = some kind)
    (hn : normalize kind e.2 observationX = .ok n) (r : Results) :
    Extends observationX [e] r (r.add kind n) := by
  have hrecords := recordsIn_of_normalize hn
  have hnotices : ∀ m ∈ (r.add kind n).notices, m ∈ r.notices ∨ m.code.isOfReading = true := by
    intro m hm
    have hboth : m ∈ r.notices ++ n.notices := by
      rw [add] at hm
      split at hm <;> exact hm
    exact (List.mem_append.mp hboth).imp_right (told_of_normalize hn m)
  cases hempty : n.records.isEmpty with
  | true =>
    have hnone : recordsIn observationX kind e.2 = [] := by
      rw [hrecords]
      exact List.isEmpty_iff.mp hempty
    have hsame : r.add kind n = { r with notices := r.notices ++ n.notices } := by
      rw [add, if_pos hempty]
    have hnothing : Extends observationX [e] r r := by
      apply extends_of_nothing hg
      intro k hk
      rw [hs] at hk
      cases hk
      exact hnone
    rw [hsame] at hnotices ⊢
    exact ⟨hnothing.declared, hnothing.order, hnothing.records, hnotices⟩
  | false =>
    have hput : r.add kind n =
        { r with
          notices := r.notices ++ n.notices, statistics := r.statistics.put kind n.records } := by
      rw [add, if_neg (by rw [hempty]; exact Bool.false_ne_true)]
    refine ⟨fun gs h => ?_, fun kinds h => ?_, fun k => ?_, hnotices⟩
    · rw [hput]
      simpa [hg] using h
    · have hyielding : yieldingOf? observationX e = some kind := by
        simp [yieldingOf?, hs, hrecords, hempty]
      have hone : [e].filterMap (yieldingOf? observationX) = [kind] := by simp [hyielding]
      rw [hput, hone, firsts_append_singleton, ← h]
      rfl
    · rw [hput]
      by_cases hk : kind = k
      · subst hk
        have hyield : yieldOf? observationX kind e = some n.records := by
          simp [yieldOf?, hs, hrecords, hempty]
        simp [lastYield?, hyield, Statistics.records_put_self]
      · have hyield : yieldOf? observationX k e = none := by
          apply yieldOf?_of_ne
          rw [hs]
          exact fun h => hk (Option.some.inj h)
        simp [lastYield?, hyield, Statistics.records_put_of_ne _ _ hk]

theorem extends_readEntry {name : Scalar} {raw : Value} {r r' : Results}
    (h : readEntry observationX r name raw = .ok r') :
    Extends observationX [(name, raw)] r r' := by
  rw [readEntry] at h
  split at h
  next hkind =>
    cases h
    apply extends_of_nothing
    · simp [geometryOf?, hkind]
    · intro kind hk
      simp [statisticOf?, hkind] at hk
  next kind hkind =>
    obtain ⟨b, hcontent, h⟩ := bind_eq_ok.mp h
    split at h
    next hb =>
      subst hb
      cases kind with
      | geometry g =>
        cases h
        exact extends_declare (by simp [geometryOf?, hkind, hcontent])
          (by simp [statisticOf?, hkind]) r
      | statistic s =>
        obtain ⟨n, hn, h⟩ := bind_eq_ok.mp h
        cases h
        exact extends_add (by simp [geometryOf?, hkind]) (by simp [statisticOf?, hkind]) hn r
    next hb =>
      cases h
      have hfalse : hasContent raw = .ok false := by
        rw [hcontent, Bool.not_eq_true _ |>.mp hb]
      apply extends_of_nothing
      · rw [geometryOf?, hfalse]
        cases LayerKind.ofValue? (.scalar name) with
        | none => rfl
        | some k => cases k <;> rfl
      · exact fun k _ => recordsIn_of_hasContent hfalse k

theorem extends_read {es : Entries} {r r' : Results} (h : read observationX es r = .ok r') :
    Extends observationX es r r' := by
  induction es generalizing r with
  | nil =>
    cases h
    exact Extends.refl _
  | cons e es ih =>
    obtain ⟨next, hnext, h⟩ := bind_eq_ok.mp h
    exact (extends_readEntry hnext).trans (ih h)

end Results

/-! ## 3. Whole descriptions -/

/-- The geometries that a list of layers names. -/
def namedGeometries (layers : Value) : List GeometryKind :=
  match layers.truthy, layers.iterate with
  | .ok true, .ok vs => vs.filterMap GeometryKind.ofValue?
  | _, _ => []

/-- The observations along x of a description, where they are numeric. -/
def observationsOf (description : Value) : Value :=
  let x := (columnOf? ((description.getD "aes").getD "x")).getD []
  if !x.isEmpty && Value.allNumeric x then .list x else .null

def resultsOf (description : Value) : Entries :=
  (description.getD "results").entries

/-- The geometries that a description asks for: those among its layers, then those that have a
result, each once. -/
def askedGeometries (description : Value) : List GeometryKind :=
  firsts (namedGeometries (description.getD "geoms") ++
    (resultsOf description).filterMap geometryOf?)

/-- The statistics that a description has records for, in the order of the first result of each that
yields any. -/
def askedStatistics (description : Value) : List StatisticKind :=
  firsts ((resultsOf description).filterMap (yieldingOf? (observationsOf description)))

/-- The records that a description has for a statistic: those of its last result that yields
any. -/
def askedRecords? (description : Value) (kind : StatisticKind) : Option (List kind.Record) :=
  lastYield? (observationsOf description) kind (resultsOf description)

theorem readGeometries_eq {layers : Value} {gs : List GeometryKind}
    (h : readGeometries layers = .ok gs) : gs = firsts (namedGeometries layers) := by
  obtain ⟨b, hb, h⟩ := bind_eq_ok.mp h
  cases b with
  | false =>
    rw [namedGeometries, hb]
    exact (Except.ok.inj h).symm
  | true =>
    obtain ⟨vs, hvs, h⟩ := bind_eq_ok.mp h
    rw [namedGeometries, hb, hvs]
    exact (Except.ok.inj h).symm

theorem entriesOf_orEmpty {v w : Value} {es : Entries} (hw : v.orEmpty = .ok w)
    (h : entriesOf w = .ok es) : es = v.entries := by
  obtain ⟨b, hb, hw⟩ := bind_eq_ok.mp hw
  cases b with
  | true =>
    cases hw
    cases v with
    | map es' =>
      cases h
      rfl
    | _ => cases h
  | false =>
    cases hw
    cases h
    cases v with
    | map es =>
      cases es with
      | nil => rfl
      | cons e es => cases hb
    | _ => rfl

/-- What a plot that is read from a description takes over from its layers and results. -/
structure Plot.AsksFor (description : Value) (p : Plot) : Prop where
  declared : p.declared = (askedGeometries description).map .geometry
  order : p.statistics.order = askedStatistics description
  records : ∀ kind, p.statistics.records kind = (askedRecords? description kind).getD []
  notices : ∀ m ∈ p.notices, m.code.isOfReading = true

theorem Plot.asksFor {description : Value} {p : Plot}
    (h : Plot.ofDescription description = .ok p) : p.AsksFor description := by
  obtain ⟨⟨raw, hraw, haes⟩, -, -⟩ := Plot.fromDescription h
  have hx : p.aesthetics.x = (columnOf? ((description.getD "aes").getD "x")).getD [] := by
    rw [haes.x, Value.getD, Reference.get?_orEmpty hraw]
    rfl
  rw [Plot.ofDescription] at h
  obtain ⟨aes, haes, h⟩ := bind_eq_ok.mp h
  obtain ⟨hmap, -⟩ := Value.isMap_of_field haes
  have hfield (key : String) : description.field key = .ok (description.getD key) :=
    Value.field_of_isMap hmap key
  obtain ⟨raw, hraw, h⟩ := bind_eq_ok.mp h
  obtain ⟨aesthetics, haesthetics, h⟩ := bind_eq_ok.mp h
  simp only [hfield, ok_bind] at h
  obtain ⟨grouping, -, h⟩ := bind_eq_ok.mp h
  obtain ⟨color, hcolor, h⟩ := bind_eq_ok.mp h
  obtain ⟨gs, hgs, h⟩ := bind_eq_ok.mp h
  obtain ⟨results, hresults, h⟩ := bind_eq_ok.mp h
  obtain ⟨es, hes, h⟩ := bind_eq_ok.mp h
  obtain ⟨r, hr, h⟩ := bind_eq_ok.mp h
  -- The figure and the labels that follow do not touch layers or statistics.
  simp only [bind_eq_ok] at h
  obtain ⟨_, -, _, -, _, -, _, -, _, -, _, -, _, -, _, -, _, -, _, -, h⟩ := h
  obtain rfl := Except.ok.inj h
  obtain rfl := readGeometries_eq hgs
  obtain rfl := entriesOf_orEmpty hresults hes
  have hobs : (if !aesthetics.x.isEmpty && Value.allNumeric aesthetics.x
      then Value.list aesthetics.x else .null) = observationsOf description := by
    rw [observationsOf, ← hx]
  rw [hobs] at hr
  have hextends := Results.extends_read hr
  refine ⟨?_, ?_, hextends.records, ?_⟩
  · rw [hextends.declared _ rfl]
    rfl
  · rw [hextends.order [] rfl]
    rfl
  · intro m hm
    rcases hextends.notices m hm with hm | hm
    · cases hm
    · exact hm

-- A statistic is asked for where some result yields records, so a last one does.
theorem exists_askedRecords {description : Value} {kind : StatisticKind}
    (h : kind ∈ askedStatistics description) :
    ∃ rs, askedRecords? description kind = some rs ∧ rs ≠ [] := by
  rw [askedStatistics, mem_firsts] at h
  obtain ⟨e, he, hyielding⟩ := List.mem_filterMap.mp h
  obtain ⟨hkind, hsome⟩ := Option.filter_eq_some_iff.mp hyielding
  have hyield : yieldOf? (observationsOf description) kind e =
      some (recordsIn (observationsOf description) kind e.2) := by
    rw [yieldOf?, hkind, hsome]
    simp
  have hne : (resultsOf description).filterMap (yieldOf? (observationsOf description) kind) ≠ [] :=
    List.ne_nil_of_mem (List.mem_filterMap.mpr ⟨e, he, hyield⟩)
  refine ⟨_, List.getLast?_eq_some_getLast hne, ?_⟩
  obtain ⟨last, -, hlast⟩ := List.mem_filterMap.mp (List.getLast_mem hne)
  rw [yieldOf?] at hlast
  split at hlast
  next hfull =>
    rw [← Option.some.inj hlast]
    intro hnil
    simp [hnil] at hfull
  next => cases hlast

end PlotScene
