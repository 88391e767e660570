import PlotScene.Json.Writer
import PlotScene.Proofs.Decimal.Notation
import PlotScene.Proofs.Json.Document
import PlotScene.Proofs.Outcome
import PlotScene.Proofs.Pairwise
import PlotScene.Proofs.Value.Pairs
import PlotScene.Proofs.Value.Strict

/-!
# Written documents spell their values

What is written for a value spells that value, in every layout: its texts are escaped as texts are
read, its numbers are laid out as numerals, and only commas and space stand between the parts of a
container.  A value that holds NaN or an infinity is refused, and no other value is.
-/

namespace PlotScene.Json

/-! ## 1. Numbers -/

theorem whole_toDigits (n : Nat) : Whole (Nat.toDigits 10 n) where
  all := Decimal.isDigit_of_mem_toDigits
  ne_nil := Nat.toDigits_ne_nil
  leading := by
    by_cases hn : n = 0
    · exact Or.inl (by rw [hn]; rfl)
    · exact Or.inr (Decimal.head?_toDigits (Nat.pos_of_ne_zero hn))

theorem toList_toString (n : Int) :
    (toString n).toList = sign (decide (n < 0)) ++ Nat.toDigits 10 n.natAbs := by
  rw [Decimal.toString_eq, String.toList_ofList]
  split
  next hn => rw [decide_eq_true hn]; rfl
  next hn => rw [decide_eq_false hn]; rfl

theorem numeral_toString {n : Int} (h : (Nat.toDigits 10 n.natAbs).length ≤ maxIntegerDigits) :
    Numeral (toString n).toList (.int n) := by
  have hnumeral := Numeral.int (decide (n < 0)) (whole_toDigits n.natAbs) h
  have hinteger : integerOf (decide (n < 0)) (Nat.toDigits 10 n.natAbs) = n := by
    rw [integerOf, Decimal.natOfDigits_toDigits]
    by_cases hn : n < 0
    · rw [if_pos (decide_eq_true hn)]
      omega
    · rw [if_neg (by simpa using hn)]
      omega
  rw [hinteger] at hnumeral
  rwa [toList_toString]

theorem exponent_tail (o : Option Int) : Exponent (Decimal.tail o) o := by
  cases o with
  | none => exact .absent
  | some e =>
    have hdigits : Digits (Decimal.exponentDigits e.natAbs) :=
      ⟨Decimal.isDigit_exponentDigits _, Decimal.exponentDigits_ne_nil _⟩
    rw [Decimal.tail, Decimal.exponentText_eq]
    by_cases he : e < 0
    · have hminus : Exponent ('e' :: '-' :: _) _ := .minus (Or.inl rfl) hdigits
      rw [Decimal.natOfDigits_exponentDigits, Int.ofNat_natAbs_of_nonpos (Int.le_of_lt he),
        Int.neg_neg] at hminus
      rwa [if_pos he]
    · have hplus : Exponent ('e' :: '+' :: _) _ := .plus (Or.inl rfl) hdigits
      rw [Decimal.natOfDigits_exponentDigits, Int.natAbs_of_nonneg (Int.not_lt.mp he)] at hplus
      rwa [if_neg he]

theorem numeral_of_laid {v : ℚ} {cs : List Char} (h : Decimal.Laid v cs)
    (negative : Bool) : ∃ y, Decimal.unsigned? cs = some y ∧
      Numeral (sign negative ++ cs) (.float (if negative then -y else y)) := by
  cases h with
  | @whole a e ha hne hlead =>
    refine ⟨_, Decimal.unsigned?_whole ha hne (some e), ?_⟩
    have hnumeral : Numeral _ (.float (doubleOf negative a none (some e))) :=
      .float negative ⟨⟨ha, hne⟩, hlead⟩ (fun _ hds => by cases hds) (exponent_tail (some e)) rfl
    rw [doubleOf, Option.getD_none, List.append_nil, List.length_nil, Int.natCast_zero,
      Int.sub_zero] at hnumeral
    exact hnumeral
  | @point a b o ha hne hlead hb hbne =>
    refine ⟨_, Decimal.unsigned?_point ha hne hb o, ?_⟩
    have hnumeral : Numeral _ (.float (doubleOf negative a (some b) o)) :=
      .float negative ⟨⟨ha, hne⟩, hlead⟩ (fun _ hds => Option.some.inj hds ▸ ⟨hb, hbne⟩)
        (exponent_tail o) rfl
    exact hnumeral

theorem numeral_text {x : Float} (hx : x.isFinite = true) (hread : Decimal.ReadsBack x) :
    Numeral (Double.text x).toList (.float x) := by
  obtain ⟨negative, v, cs, hlaid, htext⟩ := Decimal.exists_laid hx
  obtain ⟨y, hy, hnumeral⟩ := numeral_of_laid hlaid negative
  rw [Decimal.ReadsBack, htext, hlaid.read?, hy, Option.map_some, Option.some.injEq] at hread
  rw [hread] at hnumeral
  rw [htext, String.toList_ofList]
  cases negative with
  | true => exact hnumeral
  | false => exact hnumeral

/-! ## 2. Texts -/

theorem hex_control {n : Nat} (h : n < 0x20) : Hex (Text.hex 4 n) n := by
  have hread : ∀ n < 0x20, hex4? (Text.hex 4 n) = some (n, []) := by decide
  obtain ⟨ds, heq, hds⟩ := hex_of_hex4? (hread n h)
  rwa [heq, List.append_nil]

-- Every character is written so that it is read as itself.
theorem letters_escapeChar (c : Char) {cs s : List Char} (h : Letters cs s) :
    Letters (escapeChar c ++ cs) (c :: s) := by
  unfold escapeChar
  split
  any_goals exact .escape rfl h
  next hquote hslash _ _ _ _ _ =>
    split
    next hcontrol =>
      have hunit : ¬ IsHigh c.toNat ∧ ¬ IsLow c.toNat := by
        unfold IsHigh IsLow
        omega
      have hstands : UnitStands c.toNat cs c cs := by
        have hwhole : UnitStands c.toNat cs _ cs := .whole hunit.1 hunit.2
        rwa [Char.ofNat_toNat] at hwhole
      exact .unit (hex_control hcontrol) hstands h
    next hcontrol => exact .plain hquote hslash (Nat.not_lt.mp hcontrol) h

theorem quoted_textChars (t : String) : Quoted (textChars t) t := by
  have hletters : Letters (t.toList.flatMap escapeChar) t.toList := by
    induction t.toList with
    | nil => exact .nil
    | cons c cs ih => exact letters_escapeChar c ih
  have hquoted := Quoted.letters hletters
  rwa [String.ofList_toList] at hquoted

/-! ## 3. Containers -/

theorem isSpace_break (l : Layout) (depth : Nat) : IsSpace (l.break depth) := by
  rw [Layout.break]
  cases l.indent with
  | none => exact isSpace_nil
  | some width =>
    refine List.forall_mem_cons.mpr ⟨rfl, fun c hc => ?_⟩
    rw [List.eq_of_mem_replicate hc]
    rfl

theorem exists_separator (l : Layout) : ∃ gap, IsSpace gap ∧ l.separator = ',' :: gap := by
  rw [Layout.separator]
  cases l.indent with
  | none => exact ⟨[' '], by simp [IsSpace, isSpace], rfl⟩
  | some width => exact ⟨[], isSpace_nil, rfl⟩

section

variable {ι β : Type} {chars : ι → List Char} {value : ι → β} {Good : ι → Prop}

/-- What is written for a part is one of the parts of a container, with whatever space around it. -/
def Fits (chars : ι → List Char) (value : ι → β) (Good : ι → Prop) (b : β) (w : List Char) : Prop :=
  ∀ before after, IsSpace before → IsSpace after →
    ∃ i, Good i ∧ chars i = before ++ (w ++ after) ∧ value i = b

-- The breaks and separators are the space around the parts.
theorem exists_separated (l : Layout) (depth : Nat) {w : List Char} {ws : List (List Char)} {b : β}
    {bs : List β} (h : List.Forall₂ (Fits chars value Good) (b :: bs) (w :: ws))
    {before : List Char} (hbefore : IsSpace before) :
    ∃ is : List ι, is ≠ [] ∧ (∀ i ∈ is, Good i) ∧ is.map value = b :: bs ∧
      listing (is.map chars) = before ++ (w ++
        (ws.flatMap (fun w => l.separator ++ l.break (depth + 1) ++ w) ++ l.break depth)) := by
  induction ws generalizing w b bs before with
  | nil =>
    obtain ⟨hw, hws⟩ := List.forall₂_cons.mp h
    cases hws
    obtain ⟨i, hi, hchars, rfl⟩ := hw before (l.break depth) hbefore (isSpace_break l depth)
    refine ⟨[i], List.cons_ne_nil _ _, List.forall_mem_singleton.mpr hi, rfl, ?_⟩
    rw [List.map_singleton, listing_singleton, hchars]
    rfl
  | cons next ws ih =>
    obtain ⟨hw, hws⟩ := List.forall₂_cons.mp h
    cases bs with
    | nil => cases hws
    | cons b' bs =>
      obtain ⟨gap, hgap, hseparator⟩ := exists_separator l
      obtain ⟨i, hi, hchars, rfl⟩ := hw before [] hbefore isSpace_nil
      obtain ⟨is, hne, his, hvalue, hlisting⟩ :=
        ih hws (List.forall_mem_append.mpr ⟨hgap, isSpace_break l (depth + 1)⟩)
      refine ⟨i :: is, List.cons_ne_nil _ _, List.forall_mem_cons.mpr ⟨hi, his⟩,
        by rw [List.map_cons, hvalue], ?_⟩
      cases is with
      | nil => exact absurd rfl hne
      | cons j is =>
        rw [List.map_cons, List.map_cons, listing_cons, ← List.map_cons, hlisting, hchars,
          List.flatMap_cons, hseparator]
        simp only [List.append_assoc, List.cons_append, List.nil_append]

theorem exists_enclosed (l : Layout) (depth : Nat) (opening closing : Char)
    {ws : List (List Char)} {bs : List β} (h : List.Forall₂ (Fits chars value Good) bs ws)
    (hne : ws ≠ []) : ∃ is : List ι, is ≠ [] ∧ (∀ i ∈ is, Good i) ∧ is.map value = bs ∧
      l.enclose depth opening closing ws = opening :: (listing (is.map chars) ++ [closing]) := by
  cases h with
  | nil => exact absurd rfl hne
  | cons hw hws =>
    obtain ⟨is, his, hgood, hvalue, hlisting⟩ :=
      exists_separated l depth (.cons hw hws) (isSpace_break l (depth + 1))
    refine ⟨is, his, hgood, hvalue, ?_⟩
    rw [hlisting, Layout.enclose]
    simp only [List.append_assoc]

end

theorem fits_item {w : List Char} {v : Value} (h : Spells w v) :
    Fits Item.chars Item.value (fun i => Spells i.written i.value) v w :=
  fun before after hbefore hafter => ⟨⟨before, w, after, v, hbefore, hafter⟩, h, rfl, rfl⟩

theorem fits_member {quoted w : List Char} {name : String} {v : Value} (hname : Quoted quoted name)
    (h : Spells w v) : Fits Member.chars Member.entry (fun m => Spells m.item.written m.item.value)
      (.str name, v) (quoted ++ ':' :: ' ' :: w) := by
  intro before after hbefore hafter
  refine ⟨⟨before, quoted, [], name, ⟨[' '], w, after, v, by simp [IsSpace, isSpace], hafter⟩,
    hbefore, isSpace_nil, hname⟩, h, ?_, rfl⟩
  simp [Member.chars, Item.chars]

theorem spells_list (l : Layout) (depth : Nat) {ws : List (List Char)} {vs : List Value}
    (h : List.Forall₂ (fun v w => Spells w v) vs ws) :
    Spells (l.enclose depth '[' ']' ws) (.list vs) := by
  cases ws with
  | nil =>
    cases h
    exact .emptyList isSpace_nil
  | cons w ws =>
    obtain ⟨is, hne, his, hvalue, hchars⟩ := exists_enclosed l depth '[' ']'
      (h.imp fun _ _ => fits_item) (List.cons_ne_nil _ _)
    rw [hchars, ← hvalue]
    exact .list hne his

theorem spells_map (l : Layout) (depth : Nat) {ws : List (List Char)}
    {fields : List (String × Value)} (hfields : (fields.map Prod.fst).Nodup)
    (h : List.Forall₂ (fun (f : String × Value) w => ∃ first, Spells first f.2 ∧
      w = textChars f.1 ++ ':' :: ' ' :: first) fields ws) :
    Spells (l.enclose depth '\x7b' '\x7d' ws) (.obj fields) := by
  cases ws with
  | nil =>
    cases h
    exact .emptyMap isSpace_nil
  | cons w ws =>
    have hfits : List.Forall₂ (Fits Member.chars Member.entry fun m =>
        Spells m.item.written m.item.value)
        (fields.map fun f => (.str f.1, f.2)) (w :: ws) := by
      refine List.forall₂_map_left_iff.mpr (h.imp ?_)
      rintro f _ ⟨first, hfirst, rfl⟩
      exact fits_member (quoted_textChars f.1) hfirst
    obtain ⟨ms, hne, hms, hvalue, hchars⟩ :=
      exists_enclosed l depth '\x7b' '\x7d' hfits (List.cons_ne_nil _ _)
    have hmap := Spells.map hne hms
    rw [hvalue] at hmap
    rw [hchars, Value.obj, ← Entries.texts, ← Entries.ofPairs_of_nodup hfields]
    exact hmap

/-! ## 4. Values -/

/-- A value that a document can hold: its scalars have a text, and the keys of a mapping are
distinct texts. -/
inductive Document : Value → Prop where
  | scalar {s : Scalar} : s.hasText = true → Document (.scalar s)
  | list {vs : List Value} : (∀ v ∈ vs, Document v) → Document (.list vs)
  | map {fields : List (String × Value)} : (fields.map Prod.fst).Nodup →
      (∀ f ∈ fields, Document f.2) → Document (.obj fields)

theorem itemFloats_eq_flatMap (vs : List Value) :
    Value.itemFloats vs = vs.flatMap Value.floats := by
  induction vs with
  | nil => rfl
  | cons v vs ih => rw [Value.itemFloats, ih, List.flatMap_cons]

theorem floats_obj (fields : List (String × Value)) :
    (Value.obj fields).floats = fields.flatMap fun f => f.2.floats := by
  rw [Value.obj, Value.floats]
  induction fields with
  | nil => rfl
  | cons f fields ih =>
    rw [List.map_cons, Value.entryFloats, ih, List.flatMap_cons]
    rfl

theorem forall₂_of_writeItems {l : Layout} {depth : Nat} {vs : List Value}
    {ws : List (List Char)} (h : writeItems l depth vs = .ok ws) :
    List.Forall₂ (fun v w => write l depth v = .ok w) vs ws := by
  induction vs generalizing ws with
  | nil =>
    cases h
    exact .nil
  | cons v vs ih =>
    obtain ⟨w, hw, h⟩ := bind_eq_ok.mp h
    obtain ⟨rest, hrest, h⟩ := bind_eq_ok.mp h
    cases h
    exact .cons hw (ih hrest)

theorem forall₂_of_writeEntries {l : Layout} {depth : Nat} {fields : List (String × Value)}
    {ws : List (List Char)}
    (h : writeEntries l depth (fields.map fun f => (.str f.1, f.2)) = .ok ws) :
    List.Forall₂ (fun (f : String × Value) w => ∃ first, write l depth f.2 = .ok first ∧
      w = textChars f.1 ++ ':' :: ' ' :: first) fields ws := by
  induction fields generalizing ws with
  | nil =>
    cases h
    exact .nil
  | cons f fields ih =>
    obtain ⟨key, hkey, h⟩ := bind_eq_ok.mp h
    obtain ⟨first, hfirst, h⟩ := bind_eq_ok.mp h
    obtain ⟨rest, hrest, h⟩ := bind_eq_ok.mp h
    cases hkey
    cases h
    exact .cons ⟨first, hfirst, rfl⟩ (ih hrest)

theorem spells_of_scalarChars {s : Scalar} (h : s.hasText = true)
    (hread : ∀ x ∈ s.floats, Decimal.ReadsBack x) {cs : List Char}
    (hwrite : scalarChars s = .ok cs) : Spells cs (.scalar s) := by
  cases s with
  | null =>
    cases hwrite
    exact .word (by simp [words])
  | bool b =>
    cases hwrite
    cases b <;> exact .word (by simp [words])
  | int n =>
    rw [scalarChars, if_pos h] at hwrite
    cases hwrite
    exact .number (numeral_toString (of_decide_eq_true h))
  | float x =>
    rw [scalarChars] at hwrite
    split at hwrite
    next hx =>
      cases hwrite
      exact .number (numeral_text hx (hread x List.mem_cons_self))
    next => cases hwrite
  | str t =>
    cases hwrite
    exact .text (quoted_textChars t)

/-- Whatever is written for a value spells it, if the texts of its doubles read back. -/
theorem spells_of_write {v : Value} (h : Document v)
    (hread : ∀ x ∈ v.floats, Decimal.ReadsBack x) {l : Layout} {depth : Nat} {cs : List Char}
    (hwrite : write l depth v = .ok cs) : Spells cs v := by
  induction h generalizing depth cs with
  | scalar hs =>
    rw [write] at hwrite
    exact spells_of_scalarChars hs hread hwrite
  | @list vs _ ih =>
    rw [Value.floats, itemFloats_eq_flatMap] at hread
    obtain ⟨ws, hws, hwrite⟩ := bind_eq_ok.mp hwrite
    cases hwrite
    apply spells_list
    refine forall₂_imp_of_mem (forall₂_of_writeItems hws) fun v hv w _ hw => ?_
    exact ih v hv (fun x hx => hread x (List.mem_flatMap.mpr ⟨v, hv, hx⟩)) hw
  | @map fields hfields _ ih =>
    rw [floats_obj] at hread
    obtain ⟨ws, hws, hwrite⟩ := bind_eq_ok.mp hwrite
    cases hwrite
    apply spells_map l depth hfields
    refine forall₂_imp_of_mem (forall₂_of_writeEntries hws) fun f hf w _ hw => ?_
    obtain ⟨first, hfirst, rfl⟩ := hw
    exact ⟨first, ih f hf (fun x hx => hread x (List.mem_flatMap.mpr ⟨f, hf, hx⟩)) hfirst, rfl⟩

/-! ## 5. Refusals -/

/-- A result that answers when all of these doubles are finite, and is the refusal of a value when
one of them is not. -/
def Checked {α : Type} (xs : List Float) : Except Fault α → Prop
  | .ok _ => ∀ x ∈ xs, x.isFinite = true
  | .error e => e = .unusable ∧ ∃ x ∈ xs, x.isFinite = false

theorem Checked.ok {α : Type} (a : α) : Checked [] (.ok a : Except Fault α) :=
  List.forall_mem_nil _

theorem Checked.bind {α β : Type} {xs ys : List Float} {r : Except Fault α}
    {k : α → Except Fault β} (hr : Checked xs r) (hk : ∀ a, Checked ys (k a)) :
    Checked (xs ++ ys) (r >>= k) := by
  cases r with
  | error e =>
    obtain ⟨he, x, hx, hinfinite⟩ := hr
    exact ⟨he, x, List.mem_append_left ys hx, hinfinite⟩
  | ok a =>
    have hka := hk a
    rw [ok_bind]
    cases hb : k a with
    | error e =>
      rw [hb] at hka
      obtain ⟨he, y, hy, hinfinite⟩ := hka
      exact ⟨he, y, List.mem_append_right xs hy, hinfinite⟩
    | ok b =>
      rw [hb] at hka
      exact List.forall_mem_append.mpr ⟨hr, hka⟩

theorem Checked.map {α β : Type} {xs : List Float} {r : Except Fault α} (hr : Checked xs r)
    (c : α → β) : Checked xs (r >>= fun a => pure (c a)) := by
  have hbind := hr.bind fun a => Checked.ok (c a)
  rwa [List.append_nil] at hbind

theorem Checked.eq_unusable_iff {α : Type} {xs : List Float} {r : Except Fault α}
    (h : Checked xs r) : r = .error .unusable ↔ ∃ x ∈ xs, x.isFinite = false := by
  cases r with
  | error e =>
    obtain ⟨rfl, hinfinite⟩ := h
    exact ⟨fun _ => hinfinite, fun _ => rfl⟩
  | ok a =>
    constructor
    · intro heq
      cases heq
    · rintro ⟨x, hx, hinfinite⟩
      rw [h x hx] at hinfinite
      cases hinfinite

theorem Checked.exists_ok {α : Type} {xs : List Float} {r : Except Fault α} (h : Checked xs r)
    (hxs : ∀ x ∈ xs, x.isFinite = true) : ∃ a, r = .ok a := by
  cases r with
  | error e =>
    obtain ⟨-, x, hx, hinfinite⟩ := h
    rw [hxs x hx] at hinfinite
    cases hinfinite
  | ok a => exact ⟨a, rfl⟩

theorem checked_scalarChars {s : Scalar} (h : s.hasText = true) :
    Checked s.floats (scalarChars s) := by
  cases s with
  | int n =>
    rw [scalarChars, if_pos h]
    exact List.forall_mem_nil _
  | float x =>
    rw [scalarChars]
    split
    next hx => exact List.forall_mem_singleton.mpr hx
    next hx => exact ⟨rfl, x, List.mem_singleton_self x, Bool.eq_false_iff.mpr hx⟩
  | _ => exact List.forall_mem_nil _

theorem checked_writeItems {l : Layout} {depth : Nat} {vs : List Value}
    (h : ∀ v ∈ vs, Checked v.floats (write l depth v)) :
    Checked (vs.flatMap Value.floats) (writeItems l depth vs) := by
  induction vs with
  | nil => exact .ok _
  | cons v vs ih =>
    obtain ⟨hv, hvs⟩ := List.forall_mem_cons.mp h
    exact hv.bind fun first => (ih hvs).map fun rest => first :: rest

theorem checked_writeEntries {l : Layout} {depth : Nat} {fields : List (String × Value)}
    (h : ∀ f ∈ fields, Checked f.2.floats (write l depth f.2)) :
    Checked (fields.flatMap fun f => f.2.floats)
      (writeEntries l depth (fields.map fun f => (.str f.1, f.2))) := by
  induction fields with
  | nil => exact .ok _
  | cons f fields ih =>
    obtain ⟨hf, hfields⟩ := List.forall_mem_cons.mp h
    exact hf.bind fun first => (ih hfields).map fun rest =>
      (textChars f.1 ++ ':' :: ' ' :: first) :: rest

/-- A value of a document is written unless it holds NaN or an infinity, at whatever depth. -/
theorem checked_write {v : Value} (h : Document v) (l : Layout) (depth : Nat) :
    Checked v.floats (write l depth v) := by
  induction h generalizing depth with
  | scalar hs =>
    rw [write]
    exact checked_scalarChars hs
  | list _ ih =>
    rw [Value.floats, itemFloats_eq_flatMap]
    exact (checked_writeItems fun v hv => ih v hv (depth + 1)).map _
  | map _ _ ih =>
    rw [floats_obj]
    exact (checked_writeEntries fun f hf => ih f hf (depth + 1)).map _

/-! ## 6. Line breaks -/

theorem return_not_mem_escapeChar (c : Char) : '\r' ∉ escapeChar c := by
  have hhex : ∀ n < 0x20, '\r' ∉ Text.hex 4 n := by decide
  unfold escapeChar
  split
  any_goals decide
  next _ _ _ hreturn _ _ _ =>
    split
    next hcontrol => simpa using hhex _ hcontrol
    next => exact fun h => hreturn (List.mem_singleton.mp h).symm

theorem return_not_mem_textChars (t : String) : '\r' ∉ textChars t := by
  have hbody : '\r' ∉ t.toList.flatMap escapeChar := fun h => by
    obtain ⟨c, -, hc⟩ := List.mem_flatMap.mp h
    exact return_not_mem_escapeChar c hc
  simpa [textChars] using hbody

theorem return_not_mem_digits {ds : List Char} (h : ∀ c ∈ ds, c.isDigit = true) : '\r' ∉ ds :=
  fun hmem => absurd (h _ hmem) (by decide)

theorem return_not_mem_scalarChars {s : Scalar} {cs : List Char} (h : scalarChars s = .ok cs) :
    '\r' ∉ cs := by
  cases s with
  | null =>
    cases h
    decide
  | bool b =>
    cases h
    cases b <;> decide
  | int n =>
    rw [scalarChars] at h
    split at h
    next =>
      cases h
      rw [toList_toString, List.mem_append, not_or]
      exact ⟨by rw [sign]; split <;> decide,
        return_not_mem_digits Decimal.isDigit_of_mem_toDigits⟩
    next => cases h
  | float x =>
    rw [scalarChars] at h
    split at h
    next hx =>
      obtain ⟨negative, bound, ds, hlaid, htext⟩ := Decimal.exists_laid hx
      obtain rfl := Except.ok.inj h
      have hds : '\r' ∉ ds := fun hmem => absurd (hlaid.all_written _ hmem) (by decide)
      rw [htext, String.toList_ofList]
      cases negative with
      | true => simpa using hds
      | false => exact hds
    next => cases h
  | str t =>
    cases h
    exact return_not_mem_textChars t

theorem return_not_mem_break (l : Layout) (depth : Nat) : '\r' ∉ l.break depth := by
  rw [Layout.break]
  cases l.indent with
  | none => exact List.not_mem_nil
  | some width => simp

theorem return_not_mem_enclose (l : Layout) (depth : Nat) {opening closing : Char}
    (hopening : '\r' ≠ opening) (hclosing : '\r' ≠ closing) {ws : List (List Char)}
    (h : ∀ w ∈ ws, '\r' ∉ w) : '\r' ∉ l.enclose depth opening closing ws := by
  have hseparator : '\r' ∉ l.separator := by
    rw [Layout.separator]
    split <;> decide
  cases ws with
  | nil => simp [Layout.enclose, hopening, hclosing]
  | cons w ws =>
    obtain ⟨hw, hws⟩ := List.forall_mem_cons.mp h
    simpa [Layout.enclose, hopening, hclosing, return_not_mem_break, hw, hseparator] using hws

/-- No carriage return is written. -/
theorem return_not_mem_write {v : Value} (h : Document v) {l : Layout} {depth : Nat}
    {cs : List Char} (hwrite : write l depth v = .ok cs) : '\r' ∉ cs := by
  induction h generalizing depth cs with
  | scalar _ =>
    rw [write] at hwrite
    exact return_not_mem_scalarChars hwrite
  | list _ ih =>
    obtain ⟨ws, hws, hwrite⟩ := bind_eq_ok.mp hwrite
    cases hwrite
    refine return_not_mem_enclose l depth (by decide) (by decide) fun w hw => ?_
    obtain ⟨v, hv, hwritten⟩ := forall₂_mem_right (forall₂_of_writeItems hws) hw
    exact ih v hv hwritten
  | map _ _ ih =>
    obtain ⟨ws, hws, hwrite⟩ := bind_eq_ok.mp hwrite
    cases hwrite
    refine return_not_mem_enclose l depth (by decide) (by decide) fun w hw => ?_
    obtain ⟨f, hf, first, hfirst, rfl⟩ := forall₂_mem_right (forall₂_of_writeEntries hws) hw
    simp [return_not_mem_textChars, ih f hf hfirst]

/-! ## 7. Documents -/

/-- A value that has a text is what the text with a line feed behind it is read as. -/
theorem document_of_document? {v : Value} (h : Document v)
    (hread : ∀ x ∈ v.floats, Decimal.ReadsBack x) {l : Layout} {text : String}
    (htext : document? l v = .ok text) : '\r' ∉ (text ++ "\n").toList ∧
      document (text ++ "\n").toList = .ok v := by
  obtain ⟨cs, hwrite, htext⟩ := bind_eq_ok.mp htext
  obtain rfl := Except.ok.inj htext
  have hchars : (String.ofList cs ++ "\n").toList = cs ++ ['\n'] := by
    rw [String.toList_append, String.toList_ofList]
    rfl
  rw [hchars]
  refine ⟨by simpa using return_not_mem_write h hwrite, ?_⟩
  exact document_of_encodes ⟨[], cs, ['\n'], rfl, isSpace_nil, spells_of_write h hread hwrite,
    List.forall_mem_singleton.mpr rfl⟩

theorem checked_document? {v : Value} (h : Document v) (l : Layout) :
    Checked v.floats (document? l v) :=
  (checked_write h l 0).map String.ofList

end PlotScene.Json
