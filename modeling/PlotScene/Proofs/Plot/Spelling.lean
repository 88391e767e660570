import PlotScene.Compile
import PlotScene.Proofs.Outcome
import PlotScene.Proofs.Pairwise
import PlotScene.Proofs.Value.Lookup

/-!
# Names are only spellings

A text names a kind when, without the blanks around it and in lower case, it is the name of the kind
with at most one opening before it and at most one ending behind it.  A description may spell the
kinds of its layers and results in any of these ways: what is compiled depends on the kinds alone.
-/

namespace PlotScene

/-! ## 1. The spellings of a kind -/

namespace LayerKind

/-- What may stand before a name. -/
def openings : List String := ["", "geom_", "stat_"]

/-- What may stand behind a name. -/
def endings : List String := ["", "_handle"]

theorem exists_ending (s : List Char) :
    ∃ ending ∈ endings, s = dropEnding "_handle".toList s ++ ending.toList := by
  rw [dropEnding]
  split
  next h =>
    obtain ⟨front, rfl⟩ := List.isSuffixOf_iff_suffix.mp h
    refine ⟨"_handle", by decide, ?_⟩
    rw [List.length_append, Nat.add_sub_cancel, List.take_left]
  next => exact ⟨"", by decide, (List.append_nil s).symm⟩

theorem exists_opening (s : List Char) :
    ∃ opening ∈ openings, s = opening.toList ++
      dropOpening ["geom_".toList, "stat_".toList] s := by
  rw [dropOpening]
  split
  next opening h =>
    have hfront := List.find?_some (p := fun o : List Char => o.isPrefixOf s) h
    obtain ⟨rest, rfl⟩ := List.isPrefixOf_iff_prefix.mp hfront
    rw [List.drop_left]
    have hmem := List.mem_of_find?_eq_some h
    simp only [List.mem_cons, List.not_mem_nil, or_false] at hmem
    rcases hmem with rfl | rfl
    · exact ⟨"geom_", by decide, rfl⟩
    · exact ⟨"stat_", by decide, rfl⟩
  next => exact ⟨"", by decide, rfl⟩

-- No name begins like an opening or ends like an ending, so each spelling is taken apart again.
theorem ofName?_spelling (k : LayerKind) {opening ending : String} (hopening : opening ∈ openings)
    (hending : ending ∈ endings) : ofName? (String.ofList
      (dropOpening ["geom_".toList, "stat_".toList]
        (dropEnding "_handle".toList (opening ++ k.name ++ ending).toList))) = some k := by
  have hall : ∀ k ∈ all, ∀ opening ∈ openings, ∀ ending ∈ endings, ofName? (String.ofList
      (dropOpening ["geom_".toList, "stat_".toList]
        (dropEnding "_handle".toList (opening ++ k.name ++ ending).toList))) = some k := by
    decide +kernel
  exact hall k k.mem_all opening hopening ending hending

theorem parse_eq_some_iff (spelling : String) (k : LayerKind) : parse spelling = some k ↔
    ∃ opening ∈ openings, ∃ ending ∈ endings,
      Text.lower (Text.strip spelling) = opening ++ k.name ++ ending := by
  constructor
  · intro h
    have hname := List.find?_some h
    rw [beq_iff_eq] at hname
    obtain ⟨ending, hending, hbare⟩ :=
      exists_ending (Text.lower (Text.strip spelling)).toList
    obtain ⟨opening, hopening, hrest⟩ := exists_opening
      (dropEnding "_handle".toList (Text.lower (Text.strip spelling)).toList)
    refine ⟨opening, hopening, ending, hending, String.toList_inj.mp ?_⟩
    rw [String.toList_append, String.toList_append, hname, String.toList_ofList, ← hrest, ← hbare]
  · rintro ⟨opening, hopening, ending, hending, h⟩
    rw [parse, h]
    exact ofName?_spelling k hopening hending

-- Only one opening is taken off.
example : parse "geom_bar_handle" = some (.geometry .bar) ∧ parse "geom_stat_bar" = none := by
  decide

end LayerKind

/-! ## 2. Descriptions that are spelled alike -/

/-- The same value, or two texts that name the same kind. -/
inductive SameKind : Value → Value → Prop where
  | same (v : Value) : SameKind v v
  | texts {s t : String} : LayerKind.parse s = LayerKind.parse t → SameKind (.str s) (.str t)

/-- The same entries but for the spelling of their keys. -/
def KeysRespelled (es es' : Entries) : Prop :=
  List.Forall₂ (fun e e' => SameKind (.scalar e.1) (.scalar e'.1) ∧ e.2 = e'.2) es es'

/-- The same value under a key, or layers or results that are spelled in another way.  The layers
may be the keys of a mapping as well. -/
inductive EntryRespelled (key : Scalar) : Value → Value → Prop where
  | same (v : Value) : EntryRespelled key v v
  | layers {vs ws : List Value} : key = .str "geoms" → List.Forall₂ SameKind vs ws →
      EntryRespelled key (.list vs) (.list ws)
  | column {vs ws : List Value} : key = .str "geoms" → List.Forall₂ SameKind vs ws →
      EntryRespelled key (.column vs) (.column ws)
  | keys {es es' : Entries} : key = .str "geoms" ∨ key = .str "results" → KeysRespelled es es' →
      EntryRespelled key (.map es) (.map es')

/-- Descriptions that differ, entry by entry, in nothing but the spelling of kinds. -/
inductive Respelled : Value → Value → Prop where
  | map {es es' : Entries} :
      List.Forall₂ (fun e e' => e.1 = e'.1 ∧ EntryRespelled e.1 e.2 e'.2) es es' →
      Respelled (.map es) (.map es')

theorem SameKind.ofValue?_eq {v w : Value} (h : SameKind v w) :
    LayerKind.ofValue? v = LayerKind.ofValue? w := by
  cases h with
  | same => rfl
  | texts h => exact h

theorem exists_lookup? {es es' : Entries}
    (h : List.Forall₂ (fun e e' => e.1 = e'.1 ∧ EntryRespelled e.1 e.2 e'.2) es es')
    (key : String) : es.lookup? (.str key) = none ∧ es'.lookup? (.str key) = none ∨
      ∃ v w, es.lookup? (.str key) = some v ∧ es'.lookup? (.str key) = some w ∧
        EntryRespelled (.str key) v w := by
  induction h with
  | nil => exact Or.inl ⟨rfl, rfl⟩
  | @cons e e' _ _ he _ ih =>
    obtain ⟨k, v⟩ := e
    obtain ⟨k', w⟩ := e'
    obtain ⟨rfl, hvalue⟩ : k = k' ∧ EntryRespelled k v w := he
    rw [Entries.lookup?_cons, Entries.lookup?_cons]
    split
    next hk =>
      rw [Scalar.same_str_iff] at hk
      exact Or.inr ⟨v, w, rfl, rfl, hk ▸ hvalue⟩
    next => exact ih

theorem Respelled.exists_field {d d' : Value} (h : Respelled d d') (key : String) :
    ∃ v w, d.field key = .ok v ∧ d'.field key = .ok w ∧ EntryRespelled (.str key) v w := by
  obtain ⟨h⟩ := h
  rw [Value.field, Value.field]
  rcases exists_lookup? h key with ⟨hv, hw⟩ | ⟨v, w, hv, hw, hvalue⟩
  · rw [hv, hw]
    exact ⟨.null, .null, rfl, rfl, .same _⟩
  · rw [hv, hw]
    exact ⟨v, w, rfl, rfl, hvalue⟩

theorem Respelled.field_eq {d d' : Value} (h : Respelled d d') {key : String}
    (hlayers : key ≠ "geoms") (hresults : key ≠ "results") :
    d.field key = d'.field key := by
  obtain ⟨v, w, hv, hw, hvalue⟩ := h.exists_field key
  rw [hv, hw]
  cases hvalue with
  | same => rfl
  | layers hkey _ | column hkey _ => exact absurd (Scalar.str.inj hkey) hlayers
  | keys hkey _ => exact (hkey.elim (hlayers ∘ Scalar.str.inj) (hresults ∘ Scalar.str.inj)).elim

/-! ## 3. What is read of them -/

theorem readGeometries_list (vs : List Value) :
    readGeometries (.list vs) = .ok (firsts (vs.filterMap GeometryKind.ofValue?)) := by
  cases vs <;> rfl

theorem readGeometries_map (es : Entries) : readGeometries (.map es) =
    .ok (firsts ((es.map fun e => Value.scalar e.1).filterMap GeometryKind.ofValue?)) := by
  cases es <;> rfl

theorem filterMap_ofValue?_eq {vs ws : List Value} (h : List.Forall₂ SameKind vs ws) :
    vs.filterMap GeometryKind.ofValue? = ws.filterMap GeometryKind.ofValue? := by
  induction h with
  | nil => rfl
  | cons hvw _ ih =>
    rw [List.filterMap_cons, List.filterMap_cons, ih, GeometryKind.ofValue?,
      GeometryKind.ofValue?, hvw.ofValue?_eq]

theorem EntryRespelled.readGeometries_eq {v w : Value} (h : EntryRespelled (.str "geoms") v w) :
    readGeometries v = readGeometries w := by
  cases h with
  | same => rfl
  | layers _ h => rw [readGeometries_list, readGeometries_list, filterMap_ofValue?_eq h]
  | column _ h => rfl
  | keys _ h =>
    rw [readGeometries_map, readGeometries_map, filterMap_ofValue?_eq]
    exact List.forall₂_map_left_iff.mpr (List.forall₂_map_right_iff.mpr (h.imp fun _ _ he => he.1))

theorem orEmpty_map (es : Entries) : (Value.map es).orEmpty = .ok (.map es) := by
  cases es <;> rfl

-- The results are read entry by entry, and each entry by the kind that its name stands for.
theorem results_read_eq {es es' : Entries} (h : KeysRespelled es es') (observationX : Value)
    (r : Results) : Results.read observationX es r = Results.read observationX es' r := by
  induction h generalizing r with
  | nil => rfl
  | @cons e e' _ _ he _ ih =>
    obtain ⟨k, v⟩ := e
    obtain ⟨k', v'⟩ := e'
    obtain ⟨hkind, rfl⟩ := he
    have hentry : Results.readEntry observationX r k v = Results.readEntry observationX r k' v := by
      rw [Results.readEntry, Results.readEntry, hkind.ofValue?_eq]
    rw [Results.read, Results.read, hentry]
    congr
    funext r
    exact ih r

theorem Respelled.ofDescription_eq {d d' : Value} (h : Respelled d d') :
    Plot.ofDescription d = Plot.ofDescription d' := by
  obtain ⟨v, w, hv, hw, hlayers⟩ := h.exists_field "geoms"
  obtain ⟨rs, rs', hrs, hrs', hresults⟩ := h.exists_field "results"
  have haes : d.field "aes" = d'.field "aes" := h.field_eq (by decide) (by decide)
  have hcolor : d.field "continuous_color_options" = d'.field "continuous_color_options" :=
    h.field_eq (by decide) (by decide)
  have hfigure : d.field "figure" = d'.field "figure" := h.field_eq (by decide) (by decide)
  have hlabels : d.field "labels" = d'.field "labels" := h.field_eq (by decide) (by decide)
  simp only [Plot.ofDescription, haes, hcolor, hfigure, hlabels, hv, hw, hrs, hrs', ok_bind,
    hlayers.readGeometries_eq]
  cases hresults with
  | same => rfl
  | layers hkey _ | column hkey _ => exact absurd (Scalar.str.inj hkey) (by decide)
  | keys _ h => simp only [orEmpty_map, ok_bind, entriesOf, results_read_eq h]

/-- Names are only spellings: which texts name a kind, and that nothing else of them matters. -/
theorem compileDescription_respelled :
    (∀ spelling k, LayerKind.parse spelling = some k ↔
      ∃ opening ∈ LayerKind.openings, ∃ ending ∈ LayerKind.endings,
        Text.lower (Text.strip spelling) = opening ++ k.name ++ ending) ∧
    ∀ settings d d' options style, Respelled d d' →
      compileDescription settings d options style =
        compileDescription settings d' options style := by
  refine ⟨LayerKind.parse_eq_some_iff, fun settings d d' options style h => ?_⟩
  rw [compileDescription, compileDescription, h.ofDescription_eq]

/-- A description with points and the result of a regression, both spelled in this way. -/
def spelledDescription (point regression : String) : Value :=
  .obj [("aes", .obj [("x", .list [.int 1]), ("y", .list [.int 2])]),
    ("geoms", .list [.str point, .str "frame"]),
    ("results", .obj [(regression, .obj [("x", .list [.int 0]), ("y", .list [.int 3])])])]

theorem compileDescription_respelled_point :
    compileDescription {} (spelledDescription "point" "stat_glm") .null (Style.ofSettings {} none) =
      compileDescription {} (spelledDescription " Geom_POINT_handle\n" "GLM_Handle") .null
        (Style.ofSettings {} none) := by
  apply compileDescription_respelled.2
  have hpoint : SameKind (.str "point") (.str " Geom_POINT_handle\n") := .texts (by decide)
  have hregression : SameKind (.str "stat_glm") (.str "GLM_Handle") := .texts (by decide)
  exact .map (.cons ⟨rfl, .same _⟩ (.cons ⟨rfl, .layers rfl (.cons hpoint (.cons (.same _) .nil))⟩
    (.cons ⟨rfl, .keys (.inr rfl) (.cons ⟨hregression, rfl⟩ .nil)⟩ .nil)))

end PlotScene
