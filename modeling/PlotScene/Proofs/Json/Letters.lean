import PlotScene.Proofs.Json.Numeral

/-!
# Texts in documents

A text is read exactly where its characters stand between two quotes.  It is refused as half a pair
only where a unit without its other half stands behind the opening quote.
-/

namespace PlotScene.Json

/-! ## 1. Units -/

theorem hex4?_append {ds : List Char} {unit : Nat} (h : Hex ds unit) (rest : List Char) :
    hex4? (ds ++ rest) = some (unit, rest) := by
  cases h with
  | digits ha hb hc hd =>
    simp only [List.cons_append, List.nil_append, hex4?, ha, hb, hc, hd]
    rfl

theorem hex_of_hex4? {s rest : List Char} {unit : Nat} (h : hex4? s = some (unit, rest)) :
    ∃ ds, s = ds ++ rest ∧ Hex ds unit := by
  unfold hex4? at h
  split at h
  next a b c d more =>
    obtain ⟨w, ha, h⟩ := Option.bind_eq_some_iff.mp h
    obtain ⟨x, hb, h⟩ := Option.bind_eq_some_iff.mp h
    obtain ⟨y, hc, h⟩ := Option.bind_eq_some_iff.mp h
    obtain ⟨z, hd, h⟩ := Option.bind_eq_some_iff.mp h
    cases h
    exact ⟨[a, b, c, d], rfl, .digits ha hb hc hd⟩
  next => cases h

-- Something stands behind the digits of a unit that is read.
theorem unit_append {ds rest : List Char} {code : Nat} (h : Hex ds code) (hrest : rest ≠ []) :
    unit (ds ++ rest) = .ok (code, rest) := by
  have hlength : ¬ (ds ++ rest).length < 5 := by
    have hpos := List.length_pos_iff.mpr hrest
    rw [List.length_append, h.length]
    omega
  rw [unit, if_neg hlength, hex4?_append h]

theorem hex_of_unit {s rest : List Char} {code : Nat} (h : unit s = .ok (code, rest)) :
    ∃ ds, s = ds ++ rest ∧ Hex ds code := by
  rw [unit] at h
  split at h
  next => cases h
  next =>
    split at h
    next found hfound =>
      obtain rfl := Except.ok.inj h
      exact hex_of_hex4? hfound
    next => cases h

theorem malformed_of_unit {s : List Char} {e : Refusal} (h : unit s = .error e) :
    ∃ cause left, e = .malformed cause left := by
  rw [unit] at h
  split at h
  next => exact ⟨_, _, (Except.error.inj h).symm⟩
  next =>
    split at h
    next => cases h
    next => exact ⟨_, _, (Except.error.inj h).symm⟩

/-- What taking a unit for a character can come to. -/
def UnitOutcome (code : Nat) (rest : List Char) : Except Refusal (Char × List Char) → Prop
  | .ok (c, after) => UnitStands code rest c after
  | .error .halfPair => IsHalf code rest
  | .error .longInteger => False
  | .error (.malformed _ _) => True

theorem unitChar_outcome (code : Nat) (rest : List Char) :
    UnitOutcome code rest (unitChar code rest) := by
  unfold unitChar
  split
  next hhigh =>
    -- Only the code of a second half right behind makes a pair.
    split
    next more =>
      split
      next e he =>
        obtain ⟨cause, left, rfl⟩ := malformed_of_unit he
        trivial
      next low after hlow =>
        obtain ⟨ds, rfl, hds⟩ := hex_of_unit hlow
        split
        next hrange => exact .pair hhigh hds hrange rfl
        next hrange =>
          refine Or.inr ⟨hhigh, ?_⟩
          rintro ⟨es, low', after', heq, hes, hlow'⟩
          simp only [List.cons.injEq, true_and] at heq
          have hsame := hex4?_append hds after
          rw [heq, hex4?_append hes, Option.some.injEq, Prod.mk.injEq] at hsame
          exact hrange (hsame.1 ▸ hlow')
    next hne =>
      refine Or.inr ⟨hhigh, ?_⟩
      rintro ⟨es, low, after, heq, -, -⟩
      exact hne _ heq
  next hhigh =>
    split
    next hlow => exact Or.inl hlow
    next hlow => exact .whole hhigh hlow

/-- A unit stands for one character only. -/
theorem UnitStands.unitChar_eq {code : Nat} {rest after : List Char} {c : Char}
    (h : UnitStands code rest c after) (hafter : after ≠ []) :
    unitChar code rest = .ok (c, after) := by
  cases h with
  | whole hhigh hlow =>
    unfold unitChar
    rw [if_neg hhigh, if_neg hlow]
  | pair hhigh hds hlow heq =>
    rw [heq, unitChar, if_pos hhigh]
    simp only [unit_append hds hafter]
    rw [if_pos hlow, paired]

/-- The characters that are written for the one that a unit stands for. -/
theorem UnitStands.written {code : Nat} {s after : List Char} {c : Char}
    (h : UnitStands code s c after) : ∃ w, s = w ++ after ∧ UnitStands code w c [] := by
  cases h with
  | whole hhigh hlow => exact ⟨[], rfl, .whole hhigh hlow⟩
  | @pair ds _ _ hhigh hds hlow heq =>
    exact ⟨'\\' :: 'u' :: (ds ++ []), by rw [heq]; simp, .pair hhigh hds hlow rfl⟩

/-! ## 2. Texts -/

/-- A text in quotes. -/
inductive Quoted : List Char → String → Prop where
  | letters {cs body : List Char} : Letters cs body →
      Quoted ('"' :: (cs ++ ['"'])) (String.ofList body)

theorem Quoted.opens {cs : List Char} {t : String} (h : Quoted cs t) :
    ∃ rest, cs = '"' :: rest := by
  cases h
  exact ⟨_, rfl⟩

/-! ## 3. Reading -/

theorem textBody_plain {c : Char} (hquote : c ≠ '"') (hslash : c ≠ '\\')
    (hcontrol : 0x20 ≤ c.toNat) (start fuel : Nat) (s seen : List Char) :
    textBody start (fuel + 1) (c :: s) seen = textBody start fuel s (c :: seen) := by
  rw [textBody]
  exact if_neg (Nat.not_lt.mpr hcontrol)
  · exact hquote
  · exact hslash

theorem textBody_escape {letter c : Char} (h : escaped? letter = some c) (start fuel : Nat)
    (s seen : List Char) :
    textBody start (fuel + 1) ('\\' :: letter :: s) seen = textBody start fuel s (c :: seen) := by
  rw [textBody, h]
  rintro rfl
  cases h

theorem textBody_unit {ds s after : List Char} {code : Nat} {c : Char} (hds : Hex ds code)
    (hafter : after ≠ []) (hstands : UnitStands code s c after) (start fuel : Nat)
    (seen : List Char) :
    textBody start (fuel + 1) ('\\' :: 'u' :: (ds ++ s)) seen =
      textBody start fuel after (c :: seen) := by
  have hs : s ≠ [] := by
    obtain ⟨w, rfl, -⟩ := hstands.written
    simp [hafter]
  rw [textBody, unit_append hds hs]
  simp only [hstands.unitChar_eq hafter]

-- One step is spent on each character that is stood for, so on one that is written at most.
theorem textBody_letters {cs body : List Char} (h : Letters cs body) (start fuel : Nat)
    (hfuel : cs.length < fuel) (rest seen : List Char) :
    textBody start fuel (cs ++ '"' :: rest) seen =
      .ok (String.ofList (seen.reverse ++ body), rest) := by
  induction h generalizing fuel seen with
  | nil =>
    obtain ⟨fuel, rfl⟩ := Nat.exists_eq_succ_of_ne_zero (Nat.ne_of_gt hfuel)
    rw [List.append_nil]
    rfl
  | plain hquote hslash hcontrol _ ih =>
    obtain ⟨fuel, rfl⟩ := Nat.exists_eq_succ_of_ne_zero (Nat.ne_zero_of_lt hfuel)
    rw [List.length_cons] at hfuel
    rw [List.cons_append, textBody_plain hquote hslash hcontrol, ih fuel (by omega),
      List.reverse_cons, List.append_assoc, List.singleton_append]
  | escape hescape _ ih =>
    obtain ⟨fuel, rfl⟩ := Nat.exists_eq_succ_of_ne_zero (Nat.ne_zero_of_lt hfuel)
    rw [List.length_cons, List.length_cons] at hfuel
    rw [List.cons_append, List.cons_append, textBody_escape hescape, ih fuel (by omega),
      List.reverse_cons, List.append_assoc, List.singleton_append]
  | unit hds hstands _ ih =>
    obtain ⟨fuel, rfl⟩ := Nat.exists_eq_succ_of_ne_zero (Nat.ne_zero_of_lt hfuel)
    obtain ⟨w, rfl, -⟩ := hstands.written
    rw [List.length_cons, List.length_cons, List.length_append, List.length_append] at hfuel
    rw [List.cons_append, List.cons_append, List.append_assoc,
      textBody_unit hds (by simp) (hstands.append _), ih fuel (by omega), List.reverse_cons,
      List.append_assoc, List.singleton_append]

theorem text_append {cs rest : List Char} {t : String} (h : Quoted ('"' :: cs) t) :
    text (cs ++ rest) = .ok (t, rest) := by
  cases h with
  | @letters cs body hletters =>
    rw [text, List.append_assoc, List.singleton_append,
      textBody_letters hletters _ _ (by simp only [List.length_append]; omega)]
    rfl

/-- A text ends in what is left of it: its characters up to a quote, behind those that were seen. -/
def Ended (s seen : List Char) (t : String) (rest : List Char) : Prop :=
  ∃ cs body, s = cs ++ '"' :: rest ∧ Letters cs body ∧ t = String.ofList (seen.reverse ++ body)

-- A character that is written in front of what ends well.
theorem Ended.cons {w after seen rest : List Char} {c : Char} {t : String} (hw : Letters w [c])
    (h : Ended after (c :: seen) t rest) : Ended (w ++ after) seen t rest := by
  obtain ⟨cs, body, rfl, hletters, rfl⟩ := h
  exact ⟨w ++ cs, c :: body, (List.append_assoc _ _ _).symm, hw.append hletters, by simp⟩

theorem outcome_cons {before w after seen : List Char} {c : Char} {r : Step String}
    (hw : Letters w [c])
    (h : Outcome (Ended after (c :: seen)) ('"' :: ((before ++ w) ++ after)) r) :
    Outcome (Ended (w ++ after) seen) ('"' :: (before ++ (w ++ after))) r := by
  rw [List.append_assoc] at h
  exact h.imp List.suffix_rfl fun t rest => Ended.cons hw

-- Letters stand between the opening quote and what is left, so half a pair stands behind letters.
theorem textBody_outcome {before body : List Char} (h : Letters before body) (start fuel : Nat)
    (s seen : List Char) :
    Outcome (Ended s seen) ('"' :: (before ++ s)) (textBody start fuel s seen) := by
  induction fuel generalizing before body s seen with
  | zero => trivial
  | succ fuel ih =>
    unfold textBody
    split
    next => trivial
    next rest => exact ⟨[], [], rfl, .nil, by rw [List.append_nil]⟩
    next rest =>
      split
      next => trivial
      next digits =>
        split
        next e he =>
          obtain ⟨cause, left, rfl⟩ := malformed_of_unit he
          trivial
        next code after hunit =>
          obtain ⟨ds, rfl, hds⟩ := hex_of_unit hunit
          have hunitChar := unitChar_outcome code after
          split
          next e he =>
            rw [he] at hunitChar
            match e with
            | .halfPair => exact ⟨[], before, body, ds, after, code, rfl, h, hds, hunitChar⟩
            | .longInteger => exact hunitChar.elim
            | .malformed _ _ => trivial
          next c left hc =>
            rw [hc] at hunitChar
            obtain ⟨w, rfl, hstands⟩ := UnitStands.written hunitChar
            have hw : Letters ('\\' :: 'u' :: (ds ++ w)) [c] := .unit hds hstands .nil
            have hstep := outcome_cons hw (ih (h.append hw) left (c :: seen))
            rwa [List.cons_append, List.cons_append, List.append_assoc] at hstep
      next letter after _ =>
        split
        next c hescape =>
          have hw : Letters ['\\', letter] [c] := .escape hescape .nil
          exact outcome_cons hw (ih (h.append hw) after (c :: seen))
        next => trivial
    next c rest hquote hslash =>
      split
      next => trivial
      next hcontrol =>
        have hw : Letters [c] [c] := .plain hquote hslash (Nat.not_lt.mp hcontrol) .nil
        exact outcome_cons hw (ih (h.append hw) rest (c :: seen))

theorem text_outcome (s : List Char) :
    Outcome (fun t rest => ∃ cs, s = cs ++ rest ∧ Quoted ('"' :: cs) t) ('"' :: s) (text s) := by
  refine (textBody_outcome .nil (s.length + 1) (s.length + 1) s []).imp List.suffix_rfl ?_
  rintro t rest ⟨cs, body, hs, hletters, rfl⟩
  exact ⟨cs ++ ['"'], by rw [hs]; simp, .letters hletters⟩

end PlotScene.Json
