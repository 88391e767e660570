import Mathlib.Data.List.TakeWhile
import PlotScene.Proofs.Json.Spelling

/-!
# Documents are read as they are spelled

Reading and the grammar agree: a text is read as a document exactly when it encodes a value, and the
answer is that value.  Any other text is malformed, has an integer that is too long, or has half a
pair of units.
-/

namespace PlotScene.Json

/-! ## 1. What is spelled is read -/

-- A text that begins with none of the brackets and no quote is a word or a number.
theorem value_plain {c : Char} (h : c ∉ ['"', '\x7b', '[']) (fuel : Nat) (s : List Char) :
    value (fuel + 1) (c :: s) = match word? (c :: s) with
      | some found => .ok found
      | none => number (c :: s) := by
  simp only [List.mem_cons, List.not_mem_nil, or_false, not_or] at h
  unfold value
  split
  next heq => exact absurd (List.cons.inj heq).1 h.1
  next heq => exact absurd (List.cons.inj heq).1 h.2.1
  next heq => exact absurd (List.cons.inj heq).1 h.2.2
  next => rfl

theorem value_word {w : List Char} {v : Value} (h : (w, v) ∈ words) (fuel : Nat)
    (rest : List Char) : value (fuel + 1) (w ++ rest) = .ok (v, rest) := by
  have hfirst : ∃ c cs, w = c :: cs ∧ c ∉ ['"', '\x7b', '['] := by
    refine forall_words (P := fun w _ => ∃ c cs, w = c :: cs ∧ c ∉ ['"', '\x7b', '['])
      ?_ ?_ ?_ ?_ ?_ ?_ h
    all_goals exact ⟨_, _, rfl, by decide⟩
  have hword := word?_append h rest
  obtain ⟨c, cs, rfl, hc⟩ := hfirst
  rw [List.cons_append] at hword ⊢
  rw [value_plain hc, hword]

theorem value_numeral {cs rest : List Char} {v : Value} (h : Numeral cs v) (hrest : Stops rest)
    (fuel : Nat) : value (fuel + 1) (cs ++ rest) = .ok (v, rest) := by
  have hword := word?_numeral h rest
  have hnumber := number_append h hrest
  have hfirst : ∃ c more, cs = c :: more ∧ c ∉ ['"', '\x7b', '['] := by
    obtain ⟨negative, c, more, rfl, hc⟩ := h.opens
    cases negative with
    | true => exact ⟨'-', c :: more, rfl, by decide⟩
    | false =>
      refine ⟨c, more, rfl, fun hmem => ?_⟩
      simp only [List.mem_cons, List.not_mem_nil, or_false] at hmem
      rcases hmem with rfl | rfl | rfl <;> cases hc
  obtain ⟨c, more, rfl, hc⟩ := hfirst
  rw [List.cons_append] at hword hnumber ⊢
  rw [value_plain hc, hword]
  exact hnumber

/-- A value is read at the front of every text in which it stands, with enough fuel. -/
def Read (cs : List Char) (v : Value) : Prop :=
  ∀ fuel rest, 2 * cs.length ≤ fuel → Stops rest → value fuel (cs ++ rest) = .ok (v, rest)

theorem skipSpace_item {i : Item} (h : Spells i.written i.value) (rest : List Char) :
    skipSpace (i.chars ++ rest) = i.written ++ (i.after ++ rest) := by
  obtain ⟨c, more, hc, hopens⟩ := h.opens
  rw [Item.chars, List.append_assoc, List.append_assoc, hc]
  exact skipSpace_append i.before_space hopens.1 _

-- The step of a list: an item is read, and what follows it decides.
theorem elements_item {i : Item} (hspells : Spells i.written i.value)
    (hread : Read i.written i.value) {fuel : Nat} (hfuel : 2 * i.chars.length ≤ fuel) {c : Char}
    (hc : c = ',' ∨ c = ']') (seen : List Value) (rest : List Char) :
    elements (fuel + 1) seen (skipSpace (i.chars ++ c :: rest)) =
      if c = ',' then elements fuel (i.value :: seen) (skipSpace rest)
      else .ok (.list (i.value :: seen).reverse, rest) := by
  have hstops : Stops (c :: rest) := stops_cons (by rcases hc with rfl | rfl <;> decide) rest
  have hnext : skipSpace (i.after ++ c :: rest) = c :: rest :=
    skipSpace_append i.after_space (by rcases hc with rfl | rfl <;> rfl) rest
  have hle : 2 * i.written.length ≤ fuel := by
    rw [Item.chars, List.length_append, List.length_append] at hfuel
    omega
  rw [skipSpace_item hspells, elements, hread fuel _ hle (hstops.space i.after_space)]
  simp only [hnext]
  rcases hc with rfl | rfl <;> rfl

theorem elements_items {items : List Item} (hne : items ≠ [])
    (hspells : ∀ i ∈ items, Spells i.written i.value) (hread : ∀ i ∈ items, Read i.written i.value)
    (fuel : Nat) (hfuel : 2 * (listing (items.map Item.chars)).length + 1 ≤ fuel)
    (seen : List Value) (rest : List Char) :
    elements fuel seen (skipSpace (listing (items.map Item.chars) ++ ']' :: rest)) =
      .ok (.list (seen.reverse ++ items.map Item.value), rest) := by
  induction items generalizing fuel seen with
  | nil => exact absurd rfl hne
  | cons i items ih =>
    obtain ⟨fuel, rfl⟩ := Nat.exists_eq_succ_of_ne_zero (Nat.ne_zero_of_lt hfuel)
    obtain ⟨hs, hspells⟩ := List.forall_mem_cons.mp hspells
    obtain ⟨hr, hread⟩ := List.forall_mem_cons.mp hread
    cases items with
    | nil =>
      rw [List.map_singleton, listing_singleton] at hfuel ⊢
      rw [elements_item hs hr (by omega) (Or.inr rfl), if_neg (by decide), List.reverse_cons]
      rfl
    | cons next more =>
      rw [List.map_cons, List.map_cons, listing_cons, ← List.map_cons, List.length_append,
        List.length_cons] at hfuel
      rw [List.map_cons, List.map_cons, listing_cons, ← List.map_cons, List.append_assoc,
        List.cons_append, elements_item hs hr (by omega) (Or.inl rfl), if_pos rfl,
        ih (List.cons_ne_nil _ _) hspells hread fuel (by omega), List.reverse_cons,
        List.append_assoc]
      rfl

theorem skipSpace_member (m : Member) (rest : List Char) :
    skipSpace (m.chars ++ rest) = m.quoted ++ (m.after ++ ':' :: (m.item.chars ++ rest)) := by
  obtain ⟨cs, hcs⟩ := m.spelled.opens
  rw [Member.chars, List.append_assoc, List.append_assoc, List.append_assoc, List.cons_append, hcs]
  exact skipSpace_append m.before_space rfl _

-- The step of a mapping: a name and its value are read, and what follows them decides.
theorem members_member {m : Member} (hspells : Spells m.item.written m.item.value)
    (hread : Read m.item.written m.item.value) {fuel : Nat}
    (hfuel : 2 * m.item.chars.length ≤ fuel) {c : Char} (hc : c = ',' ∨ c = '\x7d')
    (seen : Entries) (rest : List Char) :
    members (fuel + 1) seen (skipSpace (m.chars ++ c :: rest)) =
      if c = ',' then members fuel (seen.put (.str m.name) m.item.value) (skipSpace rest)
      else .ok (.map (seen.put (.str m.name) m.item.value), rest) := by
  have hstops : Stops (c :: rest) := stops_cons (by rcases hc with rfl | rfl <;> decide) rest
  have hnext : skipSpace (m.item.after ++ c :: rest) = c :: rest :=
    skipSpace_append m.item.after_space (by rcases hc with rfl | rfl <;> rfl) rest
  have hcolon (more : List Char) : skipSpace (m.after ++ ':' :: more) = ':' :: more :=
    skipSpace_append m.after_space rfl more
  have hle : 2 * m.item.written.length ≤ fuel := by
    rw [Item.chars, List.length_append, List.length_append] at hfuel
    omega
  rw [skipSpace_member]
  obtain ⟨before, quoted, after, name, item, hbefore, hafter, hquoted⟩ := m
  dsimp only at *
  cases hquoted with
  | @letters cs body hletters =>
    rw [List.cons_append, members, text_append (.letters hletters)]
    simp only [hcolon, skipSpace_item hspells,
      hread fuel _ hle (hstops.space item.after_space), hnext]
    rcases hc with rfl | rfl <;> rfl

theorem members_members {ms : List Member} (hne : ms ≠ [])
    (hspells : ∀ m ∈ ms, Spells m.item.written m.item.value)
    (hread : ∀ m ∈ ms, Read m.item.written m.item.value) (fuel : Nat)
    (hfuel : 2 * (listing (ms.map Member.chars)).length + 1 ≤ fuel) (seen : Entries)
    (rest : List Char) :
    members fuel seen (skipSpace (listing (ms.map Member.chars) ++ '\x7d' :: rest)) =
      .ok (.map (seen.putAll (ms.map Member.entry)), rest) := by
  induction ms generalizing fuel seen with
  | nil => exact absurd rfl hne
  | cons m ms ih =>
    obtain ⟨fuel, rfl⟩ := Nat.exists_eq_succ_of_ne_zero (Nat.ne_zero_of_lt hfuel)
    obtain ⟨hs, hspells⟩ := List.forall_mem_cons.mp hspells
    obtain ⟨hr, hread⟩ := List.forall_mem_cons.mp hread
    have hitem : m.item.chars.length ≤ m.chars.length := by
      simp only [Member.chars, List.length_append, List.length_cons]
      omega
    cases ms with
    | nil =>
      rw [List.map_singleton, listing_singleton] at hfuel ⊢
      rw [members_member hs hr (by omega) (Or.inr rfl), if_neg (by decide)]
      rfl
    | cons next more =>
      rw [List.map_cons, List.map_cons, listing_cons, ← List.map_cons, List.length_append,
        List.length_cons] at hfuel
      rw [List.map_cons, List.map_cons, listing_cons, ← List.map_cons, List.append_assoc,
        List.cons_append, members_member hs hr (by omega) (Or.inl rfl), if_pos rfl,
        ih (List.cons_ne_nil _ _) hspells hread fuel (by omega)]
      rfl

theorem value_list {s : List Char} {c : Char} {more : List Char} (h : skipSpace s = c :: more)
    (hc : c ≠ ']') (fuel : Nat) : value (fuel + 1) ('[' :: s) = elements fuel [] (skipSpace s) := by
  rw [value, h]
  split
  next heq => exact absurd (List.cons.inj heq).1 hc
  next => rfl

theorem value_map {s : List Char} {c : Char} {more : List Char} (h : skipSpace s = c :: more)
    (hc : c ≠ '\x7d') (fuel : Nat) :
    value (fuel + 1) ('\x7b' :: s) = members fuel [] (skipSpace s) := by
  rw [value, h]
  split
  next heq => exact absurd (List.cons.inj heq).1 hc
  next => rfl

-- The first of several parts is what a listing begins with.
theorem exists_listing (part : List Char) (more : List (List Char)) :
    ∃ rest, listing (part :: more) = part ++ rest := by
  cases more with
  | nil => exact ⟨[], by rw [listing_singleton, List.append_nil]⟩
  | cons next more => exact ⟨_, listing_cons part next more⟩

-- A value has a character, so there is fuel for it.
theorem read_of_succ {cs : List Char} {v : Value} (hspells : Spells cs v)
    (h : ∀ fuel rest, 2 * cs.length ≤ fuel + 1 → Stops rest →
      value (fuel + 1) (cs ++ rest) = .ok (v, rest)) : Read cs v := by
  intro fuel rest hfuel hrest
  obtain ⟨c, more, hcs, -⟩ := hspells.opens
  obtain ⟨fuel, rfl⟩ : ∃ n, fuel = n + 1 := by
    rw [hcs, List.length_cons] at hfuel
    exact ⟨fuel - 1, by omega⟩
  exact h fuel rest hfuel hrest

theorem Spells.read {cs : List Char} {v : Value} (h : Spells cs v) : Read cs v := by
  induction h with
  | word hw => exact read_of_succ (.word hw) fun fuel rest _ _ => value_word hw fuel rest
  | number h => exact read_of_succ (.number h) fun fuel _ _ hrest => value_numeral h hrest fuel
  | text h =>
    refine read_of_succ (.text h) fun fuel rest _ _ => ?_
    obtain ⟨cs, rfl⟩ := h.opens
    rw [List.cons_append, value, text_append h]
    rfl
  | emptyList h =>
    refine read_of_succ (.emptyList h) fun fuel rest _ _ => ?_
    have hnext : skipSpace (_ ++ ']' :: rest) = ']' :: rest := skipSpace_append h rfl rest
    rw [List.cons_append, List.append_assoc, List.singleton_append, value, hnext]
    rfl
  | @list items hne hspells ih =>
    refine read_of_succ (.list hne hspells) fun fuel rest hfuel _ => ?_
    rw [List.length_cons, List.length_append, List.length_singleton] at hfuel
    have hlist := elements_items hne hspells ih fuel (by omega) [] rest
    rw [List.cons_append, List.append_assoc, List.singleton_append]
    cases items with
    | nil => exact absurd rfl hne
    | cons i more =>
      have hi := hspells i List.mem_cons_self
      obtain ⟨c, cs, hc, hopens⟩ := hi.opens
      obtain ⟨others, hothers⟩ := exists_listing i.chars (more.map Item.chars)
      rw [List.map_cons, hothers] at hlist ⊢
      rw [value_list (c := c) (by rw [List.append_assoc, skipSpace_item hi, hc]; rfl) hopens.2.1]
      exact hlist
  | emptyMap h =>
    refine read_of_succ (.emptyMap h) fun fuel rest _ _ => ?_
    have hnext : skipSpace (_ ++ '\x7d' :: rest) = '\x7d' :: rest := skipSpace_append h rfl rest
    rw [List.cons_append, List.append_assoc, List.singleton_append, value, hnext]
    rfl
  | @map ms hne hspells ih =>
    refine read_of_succ (.map hne hspells) fun fuel rest hfuel _ => ?_
    rw [List.length_cons, List.length_append, List.length_singleton] at hfuel
    have hmap := members_members hne hspells ih fuel (by omega) [] rest
    rw [List.cons_append, List.append_assoc, List.singleton_append]
    cases ms with
    | nil => exact absurd rfl hne
    | cons m more =>
      obtain ⟨cs, hcs⟩ := m.spelled.opens
      obtain ⟨others, hothers⟩ := exists_listing m.chars (more.map Member.chars)
      rw [List.map_cons, hothers] at hmap ⊢
      rw [value_map (c := '"') (by rw [List.append_assoc, skipSpace_member, hcs]; rfl) (by decide)]
      exact hmap

/-! ## 2. What is read is spelled -/

/-- The rest of a list, from an item on up to its bracket, behind the items that were seen.  The
space in front of the item has already been passed over. -/
def ItemsEnd (seen : List Value) (s : List Char) (v : Value) (rest : List Char) : Prop :=
  ∀ space, IsSpace space → ∃ items : List Item, items ≠ [] ∧
    (∀ i ∈ items, Spells i.written i.value) ∧
    space ++ s = listing (items.map Item.chars) ++ ']' :: rest ∧
    v = .list (seen.reverse ++ items.map Item.value)

/-- The rest of a mapping, from a name on up to its bracket. -/
def MembersEnd (seen : Entries) (s : List Char) (v : Value) (rest : List Char) : Prop :=
  ∀ space, IsSpace space → ∃ ms : List Member, ms ≠ [] ∧
    (∀ m ∈ ms, Spells m.item.written m.item.value) ∧
    space ++ s = listing (ms.map Member.chars) ++ '\x7d' :: rest ∧
    v = .map (seen.putAll (ms.map Member.entry))

-- The rest goes on behind the space after the bracket.
theorem ItemsEnd.list {s rest : List Char} {v : Value} (h : ItemsEnd [] (skipSpace s) v rest) :
    Fronts Spells ('[' :: s) v rest := by
  obtain ⟨space, hspace, hs⟩ := isSpace_skipped s
  obtain ⟨items, hne, hspells, hitems, rfl⟩ := h space hspace
  rw [← hs] at hitems
  exact ⟨_, by rw [hitems]; simp, .list hne hspells⟩

theorem MembersEnd.map {s rest : List Char} {v : Value} (h : MembersEnd [] (skipSpace s) v rest) :
    Fronts Spells ('\x7b' :: s) v rest := by
  obtain ⟨space, hspace, hs⟩ := isSpace_skipped s
  obtain ⟨ms, hne, hspells, hms, rfl⟩ := h space hspace
  rw [← hs] at hms
  exact ⟨_, by rw [hms]; simp, .map hne hspells⟩

/-- The item with space put in front of it. -/
def Item.behind (i : Item) {space : List Char} (h : IsSpace space) : Item :=
  { i with
    before := space ++ i.before
    before_space := List.forall_mem_append.mpr ⟨h, i.before_space⟩ }

def Member.behind (m : Member) {space : List Char} (h : IsSpace space) : Member :=
  { m with
    before := space ++ m.before
    before_space := List.forall_mem_append.mpr ⟨h, m.before_space⟩ }

theorem Item.chars_behind (i : Item) {space : List Char} (h : IsSpace space) :
    (i.behind h).chars = space ++ i.chars := List.append_assoc _ _ _

theorem Member.chars_behind (m : Member) {space : List Char} (h : IsSpace space) :
    (m.behind h).chars = space ++ m.chars := List.append_assoc _ _ _

theorem ItemsEnd.last {i : Item} (h : Spells i.written i.value) (seen : List Value)
    (after : List Char) :
    ItemsEnd seen (i.chars ++ ']' :: after) (.list (i.value :: seen).reverse) after := by
  intro space hspace
  refine ⟨[i.behind hspace], List.cons_ne_nil _ _, List.forall_mem_singleton.mpr h, ?_, ?_⟩
  · rw [List.map_singleton, listing_singleton, i.chars_behind, List.append_assoc]
  · rw [List.reverse_cons]
    rfl

theorem ItemsEnd.next {i : Item} (hi : Spells i.written i.value) {seen : List Value}
    {after rest : List Char} {v : Value}
    (h : ItemsEnd (i.value :: seen) (skipSpace after) v rest) :
    ItemsEnd seen (i.chars ++ ',' :: after) v rest := by
  intro space hspace
  obtain ⟨space', hspace', hafter⟩ := isSpace_skipped after
  obtain ⟨items, hne, hall, hitems, rfl⟩ := h space' hspace'
  rw [← hafter] at hitems
  refine ⟨i.behind hspace :: items, List.cons_ne_nil _ _,
    List.forall_mem_cons.mpr ⟨hi, hall⟩, ?_, by simp [Item.behind]⟩
  cases items with
  | nil => exact absurd rfl hne
  | cons next more =>
    rw [List.map_cons, List.map_cons, listing_cons, ← List.map_cons, hitems, i.chars_behind]
    simp

theorem MembersEnd.last {m : Member} (h : Spells m.item.written m.item.value) (seen : Entries)
    (after : List Char) : MembersEnd seen (m.chars ++ '\x7d' :: after)
      (.map (seen.put (.str m.name) m.item.value)) after := by
  intro space hspace
  refine ⟨[m.behind hspace], List.cons_ne_nil _ _, List.forall_mem_singleton.mpr h, ?_, rfl⟩
  rw [List.map_singleton, listing_singleton, m.chars_behind, List.append_assoc]

theorem MembersEnd.next {m : Member} (hm : Spells m.item.written m.item.value) {seen : Entries}
    {after rest : List Char} {v : Value}
    (h : MembersEnd (seen.put (.str m.name) m.item.value) (skipSpace after) v rest) :
    MembersEnd seen (m.chars ++ ',' :: after) v rest := by
  intro space hspace
  obtain ⟨space', hspace', hafter⟩ := isSpace_skipped after
  obtain ⟨ms, hne, hall, hms, rfl⟩ := h space' hspace'
  rw [← hafter] at hms
  refine ⟨m.behind hspace :: ms, List.cons_ne_nil _ _, List.forall_mem_cons.mpr ⟨hm, hall⟩, ?_, rfl⟩
  cases ms with
  | nil => exact absurd rfl hne
  | cons next more =>
    rw [List.map_cons, List.map_cons, listing_cons, ← List.map_cons, hms, m.chars_behind]
    simp

theorem plain_outcome (s : List Char) :
    Outcome (Fronts Spells s) s (match word? s with
      | some found => .ok found
      | none => number s) := by
  split
  next found hfound =>
    obtain ⟨w, hw, hs⟩ := spelled_of_word? hfound
    exact ⟨w, hs, .word hw⟩
  next =>
    refine (number_outcome s).imp List.suffix_rfl ?_
    rintro v rest ⟨cs, hs, hnumeral⟩
    exact ⟨cs, hs, .number hnumeral⟩

theorem quoted_outcome (s : List Char) : Outcome (Fronts Spells ('"' :: s)) ('"' :: s)
    ((text s).map fun (t, after) => (.str t, after)) := by
  have h := text_outcome s
  cases hread : text s with
  | error e =>
    rw [hread] at h
    exact h.error List.suffix_rfl
  | ok read =>
    rw [hread] at h
    obtain ⟨cs, hs, hquoted⟩ := h
    exact ⟨'"' :: cs, by rw [hs]; rfl, .text hquoted⟩

-- A value that was read is an item up to the character that stands behind the next space.
theorem exists_item {cs : List Char} {v : Value} (h : Spells cs v) (rest : List Char) :
    ∃ i : Item, i.value = v ∧ Spells i.written i.value ∧ ∀ c after,
      skipSpace rest = c :: after → cs ++ rest = i.chars ++ c :: after := by
  obtain ⟨gap, hgap, hrest⟩ := isSpace_skipped rest
  refine ⟨⟨[], cs, gap, v, isSpace_nil, hgap⟩, rfl, h, fun c after hend => ?_⟩
  rw [hrest, hend, ← List.append_assoc]
  rfl

theorem exists_member {qs cs afterName afterColon rest : List Char} {name : String} {v : Value}
    (hquoted : Quoted ('"' :: qs) name) (hcolon : skipSpace afterName = ':' :: afterColon)
    (hvalue : skipSpace afterColon = cs ++ rest) (h : Spells cs v) :
    ∃ m : Member, m.name = name ∧ m.item.value = v ∧ Spells m.item.written m.item.value ∧
      ∀ c after, skipSpace rest = c :: after →
        '"' :: (qs ++ afterName) = m.chars ++ c :: after := by
  obtain ⟨gap, hgap, hname⟩ := isSpace_skipped afterName
  obtain ⟨space, hspace, hafterColon⟩ := isSpace_skipped afterColon
  obtain ⟨last, hlast, hrest⟩ := isSpace_skipped rest
  refine ⟨⟨[], '"' :: qs, gap, name, ⟨space, cs, last, v, hspace, hlast⟩, isSpace_nil, hgap,
    hquoted⟩, rfl, rfl, h, fun c after hend => ?_⟩
  rw [hname, hcolon, hafterColon, hvalue, hrest, hend]
  simp [Member.chars, Item.chars]

theorem suffix_skipSpace (c : Char) (s : List Char) : skipSpace s <:+ c :: s :=
  (skipSpace_suffix s).trans (List.suffix_cons c s)

/-! ## 3. Each reader accounts for what it reads -/

section

variable {fuel : Nat} (hvalue : ∀ s, Outcome (Fronts Spells s) s (value fuel s))
  (helements : ∀ seen s, Outcome (ItemsEnd seen s) s (elements fuel seen s))
  (hmembers : ∀ seen s, Outcome (MembersEnd seen s) s (members fuel seen s))

include helements hmembers in
theorem value_outcome (s : List Char) : Outcome (Fronts Spells s) s (value (fuel + 1) s) := by
  unfold value
  split
  next => exact quoted_outcome _
  next rest =>
    split
    next after hafter =>
      obtain ⟨space, hspace, hrest⟩ := isSpace_skipped rest
      rw [hafter] at hrest
      exact ⟨_, by rw [hrest]; simp, .emptyMap hspace⟩
    next => exact (hmembers [] _).imp (suffix_skipSpace _ rest) fun _ _ => MembersEnd.map
  next rest =>
    split
    next after hafter =>
      obtain ⟨space, hspace, hrest⟩ := isSpace_skipped rest
      rw [hafter] at hrest
      exact ⟨_, by rw [hrest]; simp, .emptyList hspace⟩
    next => exact (helements [] _).imp (suffix_skipSpace _ rest) fun _ _ => ItemsEnd.list
  next => exact plain_outcome s

include hvalue helements in
theorem elements_outcome (seen : List Value) (s : List Char) :
    Outcome (ItemsEnd seen s) s (elements (fuel + 1) seen s) := by
  unfold elements
  have hv := hvalue s
  split
  next e he =>
    rw [he] at hv
    exact hv.error List.suffix_rfl
  next v rest hread =>
    rw [hread] at hv
    obtain ⟨cs, rfl, hspells⟩ := hv
    obtain ⟨i, rfl, hitem, hchars⟩ := exists_item hspells rest
    split
    next after hend =>
      rw [hchars _ _ hend]
      exact ItemsEnd.last hitem seen after
    next after hend =>
      rw [hchars _ _ hend]
      have hafter : skipSpace after <:+ i.chars ++ ',' :: after :=
        (suffix_skipSpace ',' after).trans (List.suffix_append _ _)
      exact (helements _ _).imp hafter fun _ _ => ItemsEnd.next hitem
    next => trivial

include hvalue hmembers in
theorem members_outcome (seen : Entries) (s : List Char) :
    Outcome (MembersEnd seen s) s (members (fuel + 1) seen s) := by
  unfold members
  split
  next afterQuote =>
    have htext := text_outcome afterQuote
    split
    next e he =>
      rw [he] at htext
      exact htext.error List.suffix_rfl
    next name afterName hread =>
      rw [hread] at htext
      obtain ⟨qs, rfl, hquoted⟩ := htext
      split
      next afterColon hcolon =>
        have hv := hvalue (skipSpace afterColon)
        split
        next e he =>
          rw [he] at hv
          have hname : ':' :: afterColon <:+ afterName := hcolon ▸ skipSpace_suffix afterName
          refine hv.error ((suffix_skipSpace ':' afterColon).trans ?_)
          exact hname.trans (List.suffix_append ('"' :: qs) afterName)
        next v rest hread =>
          rw [hread] at hv
          obtain ⟨cs, hcs, hspells⟩ := hv
          obtain ⟨m, rfl, rfl, hmember, hchars⟩ := exists_member hquoted hcolon hcs hspells
          dsimp only
          split
          next after hend =>
            rw [hchars _ _ hend]
            exact MembersEnd.last hmember seen after
          next after hend =>
            rw [hchars _ _ hend]
            have hafter : skipSpace after <:+ m.chars ++ ',' :: after :=
              (suffix_skipSpace ',' after).trans (List.suffix_append _ _)
            exact (hmembers _ _).imp hafter fun _ _ => MembersEnd.next hmember
          next => trivial
      next => trivial
  next => trivial

end

-- The induction is on the fuel, which each reader hands down less one.
theorem outcome_of_fuel (fuel : Nat) : (∀ s, Outcome (Fronts Spells s) s (value fuel s)) ∧
    (∀ seen s, Outcome (ItemsEnd seen s) s (elements fuel seen s)) ∧
    ∀ seen s, Outcome (MembersEnd seen s) s (members fuel seen s) := by
  induction fuel with
  | zero => exact ⟨fun _ => trivial, fun _ _ => trivial, fun _ _ => trivial⟩
  | succ fuel ih =>
    obtain ⟨hvalue, helements, hmembers⟩ := ih
    exact ⟨value_outcome helements hmembers, elements_outcome hvalue helements,
      members_outcome hvalue hmembers⟩

/-! ## 4. Whole documents -/

-- A byte order mark opens no value and is no space, so the check for it leaves nothing out.
theorem Encodes.no_mark {s : List Char} {v : Value} (h : Encodes s v) :
    s.head? ≠ some '\uFEFF' := by
  obtain ⟨before, cs, after, rfl, hbefore, hspells, -⟩ := h
  cases before with
  | nil =>
    obtain ⟨c, rest, rfl, hopens⟩ := hspells.opens
    exact fun hmark => hopens.2.2 (Option.some.inj hmark)
  | cons c before =>
    intro hmark
    have hc := hbefore c List.mem_cons_self
    rw [Option.some.inj hmark] at hc
    cases hc

theorem document_of_no_mark {s : List Char} (h : s.head? ≠ some '\uFEFF') :
    document s = match value (2 * s.length + 2) (skipSpace s) with
      | .error e => .error e
      | .ok (v, rest) =>
        match skipSpace rest with
        | [] => .ok v
        | other => refuse .extraData other := by
  unfold document
  split
  next => exact absurd rfl h
  next => rfl

theorem document_of_encodes {s : List Char} {v : Value} (h : Encodes s v) :
    document s = .ok v := by
  rw [document_of_no_mark h.no_mark]
  obtain ⟨before, cs, after, rfl, hbefore, hspells, hafter⟩ := h
  obtain ⟨c, more, hcs, hopens⟩ := hspells.opens
  have hfront : skipSpace (before ++ (cs ++ after)) = cs ++ after :=
    hcs ▸ skipSpace_append hbefore hopens.1 _
  have hrest : skipSpace after = [] := List.dropWhile_eq_nil_iff.mpr hafter
  have hstops : Stops after := by simpa using stops_nil.space hafter
  have hlength : 2 * cs.length ≤ 2 * (before ++ (cs ++ after)).length + 2 := by
    simp only [List.length_append]
    omega
  rw [hfront, hspells.read _ _ hlength hstops]
  simp only [hrest]

/-- What reading a document can come to. -/
theorem document_outcome (s : List Char) :
    match document s with
    | .ok v => Encodes s v
    | .error .longInteger => Overlong s
    | .error .halfPair => HalfPaired s
    | .error (.malformed _ _) => True := by
  by_cases hmark : s.head? = some '\uFEFF'
  · cases s with
    | nil => cases hmark
    | cons c s =>
      cases hmark
      trivial
  obtain ⟨before, hbefore, hs⟩ := isSpace_skipped s
  have hvalue := (outcome_of_fuel (2 * s.length + 2)).1 (skipSpace s)
  rw [document_of_no_mark hmark]
  cases hread : value (2 * s.length + 2) (skipSpace s) with
  | error e =>
    rw [hread] at hvalue
    cases e with
    | malformed cause left => trivial
    | longInteger => exact Overlong.mono hvalue (skipSpace_suffix s)
    | halfPair => exact HalfPaired.mono hvalue (skipSpace_suffix s)
  | ok read =>
    rw [hread] at hvalue
    obtain ⟨cs, hcs, hspells⟩ := hvalue
    dsimp only
    cases hrest : skipSpace read.2 with
    | cons c more => trivial
    | nil =>
      exact ⟨before, cs, read.2, hcs ▸ hs, hbefore, hspells, List.dropWhile_eq_nil_iff.mp hrest⟩

/-- A text is read as the value that it encodes, and no other text is read at all. -/
theorem document_eq_ok_iff (s : List Char) (v : Value) : document s = .ok v ↔ Encodes s v := by
  refine ⟨fun h => ?_, document_of_encodes⟩
  have houtcome := document_outcome s
  rwa [h] at houtcome

end PlotScene.Json
