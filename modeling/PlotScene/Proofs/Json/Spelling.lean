import PlotScene.Proofs.Json.Letters

/-!
# What a document spells

The grammar of documents: which texts spell which value.  A text is read as a document exactly when
it spells a value with nothing but space around it, and the value that is read is the one that it
spells, so no text spells two.
-/

namespace PlotScene.Json

/-! ## 1. The grammar -/

/-- A run of space. -/
def IsSpace (s : List Char) : Prop := ∀ c ∈ s, isSpace c = true

/-- A value as it stands in a list or behind a name, with the space around it. -/
structure Item where
  before : List Char
  written : List Char
  after : List Char
  value : Value
  before_space : IsSpace before
  after_space : IsSpace after

def Item.chars (i : Item) : List Char := i.before ++ (i.written ++ i.after)

/-- A member of a mapping: a name in quotes with space around it, a colon and a value. -/
structure Member where
  before : List Char
  quoted : List Char
  after : List Char
  name : String
  item : Item
  before_space : IsSpace before
  after_space : IsSpace after
  spelled : Quoted quoted name

def Member.chars (m : Member) : List Char :=
  m.before ++ (m.quoted ++ (m.after ++ ':' :: m.item.chars))

def Member.entry (m : Member) : Scalar × Value := (.str m.name, m.item.value)

/-- Parts with commas between them. -/
def listing : List (List Char) → List Char := List.intercalate [',']

/-- Which value a text spells.  Of two members with one name the later value counts. -/
inductive Spells : List Char → Value → Prop where
  | word {w : List Char} {v : Value} : (w, v) ∈ words → Spells w v
  | number {cs : List Char} {v : Value} : Numeral cs v → Spells cs v
  | text {cs : List Char} {t : String} : Quoted cs t → Spells cs (.str t)
  | emptyList {space : List Char} : IsSpace space → Spells ('[' :: (space ++ [']'])) (.list [])
  | list {items : List Item} : items ≠ [] → (∀ i ∈ items, Spells i.written i.value) →
      Spells ('[' :: (listing (items.map Item.chars) ++ [']'])) (.list (items.map Item.value))
  | emptyMap {space : List Char} : IsSpace space →
      Spells ('\x7b' :: (space ++ ['\x7d'])) (.map [])
  | map {members : List Member} : members ≠ [] →
      (∀ m ∈ members, Spells m.item.written m.item.value) →
      Spells ('\x7b' :: (listing (members.map Member.chars) ++ ['\x7d']))
        (.map (Entries.ofPairs (members.map Member.entry)))

/-- Which value a whole document encodes. -/
def Encodes (s : List Char) (v : Value) : Prop :=
  ∃ before cs after, s = before ++ (cs ++ after) ∧ IsSpace before ∧ Spells cs v ∧ IsSpace after

theorem listing_singleton (part : List Char) : listing [part] = part := by
  simp [listing, List.intercalate]

theorem listing_cons (part next : List Char) (more : List (List Char)) :
    listing (part :: next :: more) = part ++ ',' :: listing (next :: more) := by
  simp [listing, List.intercalate]

/-! ## 2. Space -/

theorem isSpace_nil : IsSpace [] := List.forall_mem_nil _

theorem isSpace_skipped (s : List Char) : ∃ space, IsSpace space ∧ s = space ++ skipSpace s :=
  ⟨s.takeWhile isSpace, List.all_eq_true.mp List.all_takeWhile,
    List.takeWhile_append_dropWhile.symm⟩

theorem skipSpace_append {space : List Char} (h : IsSpace space) {c : Char}
    (hc : isSpace c = false) (s : List Char) : skipSpace (space ++ c :: s) = c :: s := by
  rw [skipSpace, List.dropWhile_append_of_pos h]
  exact List.dropWhile_cons_of_neg (by simp [hc])

theorem skipSpace_suffix (s : List Char) : skipSpace s <:+ s :=
  List.dropWhile_suffix isSpace

theorem stops_nil : Stops [] := fun _ h => by cases h

theorem stops_cons {c : Char} (h : c ∈ [' ', '\t', '\n', '\r', ',', ']', '\x7d'])
    (rest : List Char) : Stops (c :: rest) := by
  intro d hd
  cases hd
  simp only [List.mem_cons, List.not_mem_nil, or_false] at h
  rcases h with rfl | rfl | rfl | rfl | rfl | rfl | rfl
  all_goals decide

theorem Stops.space {space rest : List Char} (h : IsSpace space) (hrest : Stops rest) :
    Stops (space ++ rest) := by
  cases space with
  | nil => exact hrest
  | cons c space =>
    apply stops_cons
    have hc := h c List.mem_cons_self
    simp only [isSpace, Bool.or_eq_true, decide_eq_true_eq] at hc
    rcases hc with ((rfl | rfl) | rfl) | rfl <;> decide

/-! ## 3. How values begin -/

/-- A character that a value can begin with. -/
def Opens (c : Char) : Prop := isSpace c = false ∧ c ≠ ']' ∧ c ≠ '\uFEFF'

instance (c : Char) : Decidable (Opens c) := inferInstanceAs (Decidable (_ ∧ _ ∧ _))

-- What holds of the six words holds of every word.
theorem forall_words {P : List Char → Value → Prop} (null : P "null".toList .null)
    (true : P "true".toList (.bool true)) (false : P "false".toList (.bool false))
    (nan : P "NaN".toList (.float Double.nan))
    (infinity : P "Infinity".toList (.float Double.infinity))
    (negative : P "-Infinity".toList (.float (-Double.infinity))) {w : List Char} {v : Value}
    (h : (w, v) ∈ words) : P w v := by
  simp only [words, List.mem_cons, List.not_mem_nil, or_false, Prod.mk.injEq] at h
  rcases h with ⟨rfl, rfl⟩ | ⟨rfl, rfl⟩ | ⟨rfl, rfl⟩ | ⟨rfl, rfl⟩ | ⟨rfl, rfl⟩ | ⟨rfl, rfl⟩ <;>
    assumption

theorem opens_of_isDigit {c : Char} (h : c.isDigit = true) : Opens c := by
  refine ⟨?_, ?_, ?_⟩
  · rw [← Bool.not_eq_true]
    intro hc
    simp only [isSpace, Bool.or_eq_true, decide_eq_true_eq] at hc
    rcases hc with ((rfl | rfl) | rfl) | rfl <;> cases h
  · rintro rfl
    cases h
  · rintro rfl
    cases h

theorem Numeral.opens {cs : List Char} {v : Value} (h : Numeral cs v) :
    ∃ negative c rest, cs = sign negative ++ c :: rest ∧ c.isDigit = true := by
  have hwhole {whole : List Char} (h : Whole whole) (more : List Char) :
      ∃ c rest, whole ++ more = c :: rest ∧ c.isDigit = true := by
    cases whole with
    | nil => exact absurd rfl h.ne_nil
    | cons c ds => exact ⟨c, ds ++ more, rfl, h.all c List.mem_cons_self⟩
  cases h with
  | int negative h _ =>
    obtain ⟨c, rest, heq, hc⟩ := hwhole h []
    rw [List.append_nil] at heq
    exact ⟨negative, c, rest, by rw [heq], hc⟩
  | float negative h _ _ _ =>
    obtain ⟨c, rest, heq, hc⟩ := hwhole h _
    exact ⟨negative, c, rest, by rw [heq], hc⟩

theorem Spells.opens {cs : List Char} {v : Value} (h : Spells cs v) :
    ∃ c rest, cs = c :: rest ∧ Opens c := by
  cases h with
  | word hw =>
    refine forall_words (P := fun w _ => ∃ c rest, w = c :: rest ∧ Opens c)
      ?_ ?_ ?_ ?_ ?_ ?_ hw
    all_goals exact ⟨_, _, rfl, by decide⟩
  | number hnumeral =>
    obtain ⟨negative, c, rest, rfl, hc⟩ := hnumeral.opens
    cases negative with
    | true => exact ⟨'-', c :: rest, rfl, by decide⟩
    | false => exact ⟨c, rest, rfl, opens_of_isDigit hc⟩
  | text hquoted =>
    obtain ⟨rest, rfl⟩ := hquoted.opens
    exact ⟨'"', rest, rfl, by decide⟩
  | emptyList _ | list _ _ | emptyMap _ | map _ _ => exact ⟨_, _, rfl, by decide⟩

/-! ## 4. Words -/

-- The words begin with different characters, so at most one of them stands in front of a text.
theorem word?_append {w : List Char} {v : Value} (h : (w, v) ∈ words) (rest : List Char) :
    word? (w ++ rest) = some (v, rest) := by
  exact forall_words (P := fun w v => word? (w ++ rest) = some (v, rest)) rfl rfl rfl rfl rfl rfl h

theorem spelled_of_word? {s rest : List Char} {v : Value} (h : word? s = some (v, rest)) :
    ∃ w, (w, v) ∈ words ∧ s = w ++ rest := by
  obtain ⟨w, hfound, heq⟩ := Option.map_eq_some_iff.mp h
  obtain ⟨rfl, rfl⟩ := Prod.mk.inj heq
  have hfront := List.find?_some hfound
  obtain ⟨more, rfl⟩ := List.isPrefixOf_iff_prefix.mp hfront
  exact ⟨w.1, List.mem_of_find?_eq_some hfound, by rw [List.drop_left]⟩

theorem word?_numeral {cs : List Char} {v : Value} (h : Numeral cs v) (rest : List Char) :
    word? (cs ++ rest) = none := by
  obtain ⟨negative, c, more, rfl, hc⟩ := h.opens
  -- Where a word has its first letter the number has a digit.
  have hne {d : Char} (hd : d.isDigit = false) : ¬ d = c := by
    rintro rfl
    rw [hc] at hd
    cases hd
  rw [word?, Option.map_eq_none_iff, List.find?_eq_none]
  rintro ⟨w, v⟩ hw
  refine forall_words (P := fun w _ => ¬ w.isPrefixOf (sign negative ++ c :: more ++ rest) = true)
    ?_ ?_ ?_ ?_ ?_ ?_ hw
  all_goals cases negative <;> simp [sign, hne]

end PlotScene.Json
