import PlotScene.Proofs.Presentation.Chosen
import PlotScene.Proofs.Value.Pairs

/-!
# Options are a record in which the last value counts

Only the last value under each of nine names says anything about a presentation.  So it does not
matter in which of the two forms the options come, what else is among them, and in which order the
values of different names stand.  Options are refused for a missing value or for a name that is no
text, and beyond that only a value without a text stops them.
-/

namespace PlotScene

/-! ## 1. The last value under a name -/

namespace NamedValues

/-- The pairs with a name. -/
def under (options : NamedValues) (name : String) : NamedValues :=
  options.filter fun o => o.1 == name

theorem last?_under (options : NamedValues) (name : String) :
    (options.under name).last? name = options.last? name := by
  rw [last?, last?, under, ← List.filter_reverse, List.find?_filter]
  congr
  funext o
  by_cases h : o.1 = name <;> simp [h]

theorem last?_congr {a b : NamedValues} {name : String} (h : a.under name = b.under name) :
    a.last? name = b.last? name := by
  rw [← last?_under, h, last?_under]

theorem last?_concat (options : NamedValues) (o : String × Value) (name : String) :
    last? (options ++ [o]) name = if o.1 = name then some o.2 else options.last? name := by
  rw [last?, last?, List.reverse_append, List.reverse_singleton, List.singleton_append,
    List.find?_cons]
  by_cases h : o.1 = name
  · simp [h]
  · simp [h, beq_false_of_ne h]

end NamedValues

/-- The names of the options. -/
def Presentation.optionNames : List String :=
  ["file_name", "export_path", "x", "y", "title", "width", "height", "interactive", "tooltip"]

namespace Presentation

theorem ofNamedValues_congr {a b : NamedValues}
    (h : ∀ name ∈ optionNames, a.last? name = b.last? name) (s : Settings) (plot : Option Plot) :
    ofNamedValues s a plot = ofNamedValues s b plot := by
  simp only [optionNames, List.forall_mem_cons] at h
  obtain ⟨hfile, hpath, hx, hy, htitle, hwidth, hheight, hinteractive, htooltip, -⟩ := h
  rw [ofNamedValues, ofNamedValues, hfile, hpath, hx, hy, htitle, hwidth, hheight, hinteractive,
    htooltip]

end Presentation

/-! ## 2. The two forms -/

namespace NamedValues

/-- The names and values of pairs in turn. -/
def inTurn (pairs : List (Value × Value)) : List Value := pairs.flatMap fun p => [p.1, p.2]

/-- Pairs whose names are texts. -/
def paired (options : NamedValues) : List (Value × Value) := options.map fun o => (.str o.1, o.2)

/-- The list in which names and values alternate. -/
def alternating (options : NamedValues) : Value := .list (inTurn options.paired)

/-- The mapping in which a later value takes the place of an earlier one under the same name. -/
def mapping (options : NamedValues) : Value :=
  .map (Entries.ofPairs (Entries.texts options))

theorem requireTexts_paired (options : NamedValues) (position : Nat) :
    requireTexts position options.paired = .ok options := by
  induction options generalizing position with
  | nil => rfl
  | cons o options ih =>
    rw [paired, List.map_cons, requireTexts, ← paired, ih]
    rfl

theorem pairUp_inTurn (pairs : List (Value × Value)) : pairUp (inTurn pairs) = .ok pairs := by
  induction pairs with
  | nil => rfl
  | cons p pairs ih =>
    rw [inTurn, List.flatMap_cons, List.cons_append, List.cons_append, List.nil_append, pairUp,
      ← inTurn, ih]
    rfl

theorem read_list (items : List Value) : read (.list items) = pairUp items >>= requireTexts 1 := rfl

theorem read_alternating (options : NamedValues) : read options.alternating = .ok options := by
  rw [alternating, read_list, pairUp_inTurn, ok_bind, requireTexts_paired]

theorem read_map_texts (fields : NamedValues) :
    read (.map (Entries.texts fields)) = .ok fields := by
  rw [read, Entries.texts, List.map_map]
  exact requireTexts_paired fields 1

theorem lookup?_ofPairs (options : NamedValues) (name : String) :
    (Entries.ofPairs (Entries.texts options)).lookup? (.str name) = options.last? name := by
  induction options using List.reverseRecOn with
  | nil => rfl
  | append_singleton options o ih =>
    rw [last?_concat, Entries.texts, List.map_append, List.map_singleton, Entries.ofPairs_concat,
      Entries.lookup?_put, ← Entries.texts, ih]

-- Where each name stands once, what is found first is what is found last.
theorem lookup?_texts {fields : NamedValues} (h : (fields.map Prod.fst).Nodup) (name : String) :
    (Entries.texts fields).lookup? (.str name) = fields.last? name := by
  rw [← Entries.ofPairs_of_nodup h, lookup?_ofPairs]

theorem read_mapping (options : NamedValues) : ∃ fields, read options.mapping = .ok fields ∧
    ∀ name, last? fields name = options.last? name := by
  obtain ⟨fields, heq, hnodup⟩ := Entries.exists_ofPairs_texts options
  refine ⟨fields, by rw [mapping, heq, read_map_texts], fun name => ?_⟩
  rw [← lookup?_texts hnodup, ← heq, lookup?_ofPairs]

/-! ## 3. Refusals -/

/-- A value that is a text, as a name must be. -/
def IsText (v : Value) : Prop := ∃ t, v = .str t

theorem length_inTurn (pairs : List (Value × Value)) :
    (inTurn pairs).length = 2 * pairs.length := by
  induction pairs with
  | nil => rfl
  | cons p pairs ih =>
    rw [inTurn, List.flatMap_cons, List.length_append, ← inTurn, ih, List.length_cons]
    simp only [List.length_cons, List.length_nil]
    omega

/-- Items pair up, or one is left at the end. -/
theorem exists_inTurn (items : List Value) :
    ∃ pairs, items = inTurn pairs ∨ ∃ v, items = inTurn pairs ++ [v] := by
  fun_induction pairUp items with
  | case1 => exact ⟨[], Or.inl rfl⟩
  | case2 name | case3 name => exact ⟨[], Or.inr ⟨name, rfl⟩⟩
  | case4 name value rest ih =>
    obtain ⟨pairs, rfl | ⟨v, rfl⟩⟩ := ih
    · exact ⟨(name, value) :: pairs, Or.inl rfl⟩
    · exact ⟨(name, value) :: pairs, Or.inr ⟨v, rfl⟩⟩

-- The message shows the item that is left, so it must have a text.
theorem pairUp_concat (pairs : List (Value × Value)) (v : Value) :
    pairUp (inTurn pairs ++ [v]) =
      if v.hasText then .error (.configuration (.optionWithoutValue v)) else .error .unusable := by
  induction pairs with
  | nil => rfl
  | cons p pairs ih =>
    rw [inTurn, List.flatMap_cons, List.append_assoc, List.cons_append, List.cons_append,
      List.nil_append, pairUp, ← inTurn, ih]
    split <;> rfl

theorem requireTexts_outcome (position : Nat) (pairs : List (Value × Value)) :
    match requireTexts position pairs with
    | .ok _ => ∀ p ∈ pairs, IsText p.1
    | .error e => (∃ p ∈ pairs, ¬ IsText p.1) ∧ ∃ fault, e = .configuration fault := by
  fun_induction requireTexts position pairs with
  | case1 => exact List.forall_mem_nil _
  | case2 position value rest t ih =>
    cases h : requireTexts (position + 1) rest with
    | error e =>
      rw [h] at ih
      obtain ⟨⟨p, hp, hname⟩, hfault⟩ := ih
      exact ⟨⟨p, List.mem_cons_of_mem _ hp, hname⟩, hfault⟩
    | ok named =>
      rw [h] at ih
      exact List.forall_mem_cons.mpr ⟨⟨t, rfl⟩, ih⟩
  | case3 position name value rest hname =>
    exact ⟨⟨_, List.mem_cons_self, fun ⟨t, ht⟩ => hname t ht⟩, _, rfl⟩

end NamedValues

namespace Presentation

variable (s : Settings) (plot : Option Plot)

/-- Options that are a broken contract of the caller. -/
def Refused (options : Value) : Prop :=
  ∃ fault, ofOptions s options plot = .error (.configuration fault)

/-- Options with a value that has no text where one is needed: the item at the end that lacks a
value, or a value that the presentation shows. -/
inductive Unwritable : Value → Prop where
  | item {pairs : List (Value × Value)} {v : Value} : v.hasText = false →
      Unwritable (.list (NamedValues.inTurn pairs ++ [v]))
  | shown {options : Value} {named : NamedValues} {v : Value} :
      NamedValues.read options = .ok named → v ∈ shown s named plot → v.hasText = false →
      Unwritable options

/-- The outcomes of options that are refused for one reason only. -/
structure Decided (options : Value) (reason : Prop) : Prop where
  refused : Refused s plot options ↔ reason
  unusable : ofOptions s options plot = .error .unusable ↔ Unwritable s plot options
  outcome : Refused s plot options ∨ ofOptions s options plot = .error .unusable ∨
    ∃ o, ofOptions s options plot = .ok o

theorem ofOptions_of_read {options : Value} {named : NamedValues}
    (h : NamedValues.read options = .ok named) :
    ofOptions s options plot = ofNamedValues s named plot := by
  rw [ofOptions, h, ok_bind]

theorem unusable_of_unwritable {options : Value} (h : Unwritable s plot options) :
    ofOptions s options plot = .error .unusable := by
  cases h with
  | @item pairs v hno =>
    rw [ofOptions, NamedValues.read_list, NamedValues.pairUp_concat, if_neg (by simp [hno])]
    rfl
  | shown hread hv hno =>
    rw [ofOptions_of_read s plot hread]
    exact (needs_ofNamedValues s _ plot).eq_error_iff.mpr ⟨_, hv, hno⟩

theorem Refused.ne_unusable {options : Value} (h : Refused s plot options) :
    ofOptions s options plot ≠ .error .unusable := by
  obtain ⟨fault, hfault⟩ := h
  rw [hfault]
  exact fun heq => by cases heq

theorem Refused.ne_ok {options : Value} (h : Refused s plot options) (o : Presentation) :
    ofOptions s options plot ≠ .ok o := by
  obtain ⟨fault, hfault⟩ := h
  rw [hfault]
  exact fun heq => by cases heq

theorem decided_of_unwritable {options : Value} {reason : Prop} (h : Unwritable s plot options)
    (hreason : ¬ reason) : Decided s plot options reason := by
  have hof := unusable_of_unwritable s plot h
  exact ⟨iff_of_false (fun hrefused => hrefused.ne_unusable s plot hof) hreason,
    iff_of_true hof h, Or.inr (Or.inl hof)⟩

theorem decided_of_read {options : Value} {named : NamedValues} {reason : Prop}
    (h : NamedValues.read options = .ok named) (hreason : ¬ reason) :
    Decided s plot options reason := by
  have hneeds := needs_ofNamedValues s named plot
  rw [← ofOptions_of_read s plot h] at hneeds
  rcases hneeds.outcome with hstop | ⟨o, ho⟩
  · obtain ⟨v, hv, hno⟩ := hneeds.eq_error_iff.mp hstop
    exact decided_of_unwritable s plot (.shown h hv hno) hreason
  · have hgoes : ofOptions s options plot ≠ .error .unusable := by
      rw [ho]
      exact fun heq => by cases heq
    exact ⟨iff_of_false (fun hrefused => hrefused.ne_ok s plot o ho) hreason,
      iff_of_false hgoes fun hun => hgoes (unusable_of_unwritable s plot hun),
      Or.inr (Or.inr ⟨o, ho⟩)⟩

theorem decided_of_refused {options : Value} {fault : ConfigurationFault} {reason : Prop}
    (h : NamedValues.read options = .error (.configuration fault)) (hreason : reason) :
    Decided s plot options reason := by
  have hrefused : Refused s plot options := by
    refine ⟨fault, ?_⟩
    rw [ofOptions, h]
    rfl
  have hstops := hrefused.ne_unusable s plot
  exact ⟨iff_of_true hrefused hreason,
    iff_of_false hstops fun hun => hstops (unusable_of_unwritable s plot hun), Or.inl hrefused⟩

/-- Why a list is refused: the message about a value that is missing can be written, or a name is no
text. -/
def ListRefusal (items : List Value) : Prop :=
  (items.length % 2 = 1 ∧ ∀ v ∈ items.getLast?, v.hasText = true) ∨
    ∃ pairs, items = NamedValues.inTurn pairs ∧ ∃ p ∈ pairs, ¬ NamedValues.IsText p.1

theorem listRefusal_inTurn {pairs : List (Value × Value)} :
    ListRefusal (NamedValues.inTurn pairs) ↔ ∃ p ∈ pairs, ¬ NamedValues.IsText p.1 := by
  constructor
  · rintro (⟨hodd, -⟩ | ⟨pairs', hpairs', hname⟩)
    · rw [NamedValues.length_inTurn] at hodd
      omega
    · have hsame := NamedValues.pairUp_inTurn pairs
      rw [hpairs', NamedValues.pairUp_inTurn] at hsame
      rwa [← Except.ok.inj hsame]
  · exact fun hname => Or.inr ⟨pairs, rfl, hname⟩

theorem listRefusal_concat {pairs : List (Value × Value)} {v : Value} :
    ListRefusal (NamedValues.inTurn pairs ++ [v]) ↔ v.hasText = true := by
  have hodd : (NamedValues.inTurn pairs ++ [v]).length % 2 = 1 := by
    rw [List.length_append, NamedValues.length_inTurn, List.length_singleton]
    omega
  constructor
  · rintro (⟨-, hlast⟩ | ⟨pairs', hpairs', -⟩)
    · exact hlast v (by simp)
    · rw [hpairs', NamedValues.length_inTurn] at hodd
      omega
  · exact fun hv => Or.inl ⟨hodd, by simpa using hv⟩

theorem decided_list (items : List Value) : Decided s plot (.list items) (ListRefusal items) := by
  obtain ⟨pairs, rfl | ⟨v, rfl⟩⟩ := NamedValues.exists_inTurn items
  · have hread : NamedValues.read (.list (NamedValues.inTurn pairs)) =
        NamedValues.requireTexts 1 pairs := by
      rw [NamedValues.read_list, NamedValues.pairUp_inTurn, ok_bind]
    have hrequire := NamedValues.requireTexts_outcome 1 pairs
    cases hnames : NamedValues.requireTexts 1 pairs with
    | error e =>
      rw [hnames] at hrequire
      obtain ⟨hname, fault, rfl⟩ := hrequire
      exact decided_of_refused s plot (hread.trans hnames) (listRefusal_inTurn.mpr hname)
    | ok named =>
      rw [hnames] at hrequire
      refine decided_of_read s plot (hread.trans hnames) fun hrefusal => ?_
      obtain ⟨p, hp, hname⟩ := listRefusal_inTurn.mp hrefusal
      exact hname (hrequire p hp)
  · by_cases hv : v.hasText = true
    · have hread : NamedValues.read (.list (NamedValues.inTurn pairs ++ [v])) =
          .error (.configuration (.optionWithoutValue v)) := by
        rw [NamedValues.read_list, NamedValues.pairUp_concat, if_pos hv]
        rfl
      exact decided_of_refused s plot hread (listRefusal_concat.mpr hv)
    · exact decided_of_unwritable s plot (.item (Bool.eq_false_iff.mpr hv))
        fun hrefusal => hv (listRefusal_concat.mp hrefusal)

theorem decided_map (es : Entries) :
    Decided s plot (.map es) (∃ e ∈ es, ¬ NamedValues.IsText (.scalar e.1)) := by
  have hrequire := NamedValues.requireTexts_outcome 1 (es.map fun e => (.scalar e.1, e.2))
  cases hnames : NamedValues.requireTexts 1 (es.map fun e => (Value.scalar e.1, e.2)) with
  | error e =>
    rw [hnames] at hrequire
    obtain ⟨⟨p, hp, hname⟩, fault, rfl⟩ := hrequire
    obtain ⟨e, he, rfl⟩ := List.mem_map.mp hp
    exact decided_of_refused s plot hnames ⟨e, he, hname⟩
  | ok named =>
    rw [hnames] at hrequire
    refine decided_of_read s plot hnames ?_
    rintro ⟨e, he, hname⟩
    exact hname (hrequire _ (List.mem_map_of_mem he))

/-- What the options of a presentation come to. -/
structure LastCounts : Prop where
  /-- The two forms say the same. -/
  forms : ∀ options : NamedValues,
    ofOptions s options.alternating plot = ofOptions s options.mapping plot
  /-- A value under an unknown name does not matter, wherever it stands. -/
  unknown : ∀ (before : NamedValues) (name : String) (v : Value) (after : NamedValues),
    name ∉ optionNames → ofOptions s (NamedValues.alternating (before ++ (name, v) :: after)) plot =
      ofOptions s (NamedValues.alternating (before ++ after)) plot
  /-- Values of different names may stand in any order. -/
  reordered : ∀ a b : NamedValues, (∀ name, a.under name = b.under name) →
    ofOptions s a.alternating plot = ofOptions s b.alternating plot
  /-- A list is refused exactly when a value is missing, after an item that has a text, or a name is
  no text. -/
  list : ∀ items, Decided s plot (.list items) (ListRefusal items)
  /-- A mapping is refused exactly when a key is no text. -/
  map : ∀ es : Entries, Decided s plot (.map es) (∃ e ∈ es, ¬ NamedValues.IsText (.scalar e.1))

theorem forms (options : NamedValues) :
    ofOptions s options.alternating plot = ofOptions s options.mapping plot := by
  obtain ⟨fields, hread, hlast⟩ := NamedValues.read_mapping options
  rw [ofOptions_of_read s plot (NamedValues.read_alternating options),
    ofOptions_of_read s plot hread, ofNamedValues_congr fun name _ => (hlast name).symm]

theorem alternating_congr {a b : NamedValues}
    (h : ∀ name ∈ optionNames, a.under name = b.under name) :
    ofOptions s a.alternating plot = ofOptions s b.alternating plot := by
  rw [ofOptions_of_read s plot (NamedValues.read_alternating a),
    ofOptions_of_read s plot (NamedValues.read_alternating b),
    ofNamedValues_congr fun name hname => NamedValues.last?_congr (h name hname)]

theorem unknown {name : String} (h : name ∉ optionNames) (before : NamedValues) (v : Value)
    (after : NamedValues) :
    ofOptions s (NamedValues.alternating (before ++ (name, v) :: after)) plot =
      ofOptions s (NamedValues.alternating (before ++ after)) plot := by
  apply alternating_congr
  intro known hknown
  have hne : (name == known) = false := beq_false_of_ne (by rintro rfl; exact h hknown)
  rw [NamedValues.under, NamedValues.under, List.filter_append, List.filter_append,
    List.filter_cons_of_neg (by simp [hne])]

/-- Options are a record in which the last value under a name counts, in whichever form they come,
and they are refused only for a missing value or a name that is no text.  Beyond that they give a
presentation, unless a value that is to be shown has no text. -/
theorem lastCounts_ofOptions : LastCounts s plot where
  forms := forms s plot
  unknown before _ v after h := unknown s plot h before v after
  reordered _ _ h := alternating_congr s plot fun name _ => h name
  list := decided_list s plot
  map := decided_map s plot

/-- A list of one integer lacks a value, but the integer has no text that the refusal could show. -/
theorem not_refused_longInteger :
    [Value.int longInteger].length % 2 = 1 ∧ ¬ Refused {} none (.list [.int longInteger]) := by
  have hno : (Value.int longInteger).hasText = false := by
    rw [Value.hasText_scalar, Scalar.hasText_longInteger]
  have hitem : Unwritable {} none (.list (NamedValues.inTurn [] ++ [.int longInteger])) :=
    .item hno
  exact ⟨rfl, fun hrefused =>
    hrefused.ne_unusable {} none (unusable_of_unwritable {} none hitem)⟩

/-- The name of an option in another case is unknown, and two names change places. -/
theorem lastCounts_ofOptions_width :
    ofOptions {} (NamedValues.alternating [("x", .str "a"), ("Width", .int 10), ("width", .int 7)])
        none =
      ofOptions {} (NamedValues.alternating [("width", .int 7), ("x", .str "a")]) none := by
  have hunknown := (lastCounts_ofOptions {} none).unknown [("x", .str "a")] "Width" (.int 10)
    [("width", .int 7)] (by decide)
  have hreordered := (lastCounts_ofOptions {} none).reordered [("x", .str "a"), ("width", .int 7)]
    [("width", .int 7), ("x", .str "a")] fun name => by
      by_cases hx : "x" = name
      · subst hx
        rfl
      · by_cases hwidth : "width" = name
        · subst hwidth
          rfl
        · simp [NamedValues.under, hx, hwidth]
  exact hunknown.trans hreordered

end Presentation

end PlotScene
