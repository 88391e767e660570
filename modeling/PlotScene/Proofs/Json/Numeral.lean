import PlotScene.Proofs.Json.Refusal

/-!
# Numbers in documents

The form of a number: perhaps a minus, a whole part without leading zeros, perhaps a fraction,
perhaps an exponent.  Without the last two it is an integer of limited length, else the double
nearest to the decimal.  A number is read exactly where one stands that does not go on.
-/

namespace PlotScene.Json

/-! ## 1. Parts of a number -/

/-- A row of digits, at least one. -/
structure Digits (ds : List Char) : Prop where
  all : ∀ c ∈ ds, c.isDigit = true
  ne_nil : ds ≠ []

/-- The digits of a whole part; a zero in front stands alone. -/
structure Whole (ds : List Char) : Prop extends Digits ds where
  leading : ds = ['0'] ∨ ds.head? ≠ some '0'

def sign (negative : Bool) : List Char := if negative then ['-'] else []

/-- A fraction as it is written, where there is one. -/
def point : Option (List Char) → List Char
  | none => []
  | some ds => '.' :: ds

/-- An exponent as it is written and what it stands for, where there is one. -/
inductive Exponent : List Char → Option Int → Prop where
  | absent : Exponent [] none
  | bare {mark : Char} {ds : List Char} : mark = 'e' ∨ mark = 'E' → Digits ds →
      Exponent (mark :: ds) (some (Decimal.natOfDigits ds))
  | plus {mark : Char} {ds : List Char} : mark = 'e' ∨ mark = 'E' → Digits ds →
      Exponent (mark :: '+' :: ds) (some (Decimal.natOfDigits ds))
  | minus {mark : Char} {ds : List Char} : mark = 'e' ∨ mark = 'E' → Digits ds →
      Exponent (mark :: '-' :: ds) (some (-(Decimal.natOfDigits ds : Int)))

/-- The integer with these digits. -/
def integerOf (negative : Bool) (whole : List Char) : Int :=
  if negative then -(Decimal.natOfDigits whole : Int) else Decimal.natOfDigits whole

/-- The double nearest to the decimal with these parts. -/
def doubleOf (negative : Bool) (whole : List Char) (fraction : Option (List Char))
    (exponent : Option Int) : Float :=
  let digits := fraction.getD []
  let x := Decimal.toDouble (Decimal.natOfDigits (whole ++ digits))
    (exponent.getD 0 - digits.length)
  if negative then -x else x

/-- What a number in a document stands for. -/
inductive Numeral : List Char → Value → Prop where
  | int (negative : Bool) {whole : List Char} : Whole whole → whole.length ≤ maxIntegerDigits →
      Numeral (sign negative ++ whole) (.int (integerOf negative whole))
  | float (negative : Bool) {whole tail : List Char} {fraction : Option (List Char)}
      {exponent : Option Int} : Whole whole → (∀ ds ∈ fraction, Digits ds) →
      Exponent tail exponent → (fraction.isNone && exponent.isNone) = false →
      Numeral (sign negative ++ (whole ++ (point fraction ++ tail)))
        (.float (doubleOf negative whole fraction exponent))

/-- A text that does not go on with a number that ends before it. -/
def Stops (rest : List Char) : Prop :=
  ∀ c ∈ rest.head?, c.isDigit = false ∧ c ≠ '.' ∧ c ≠ 'e' ∧ c ≠ 'E'

/-! ## 2. Rows of digits -/

theorem takeWhile_digits {ds rest : List Char} (hds : ∀ c ∈ ds, c.isDigit = true)
    (hrest : ∀ c ∈ rest.head?, c.isDigit = false) :
    (ds ++ rest).takeWhile Char.isDigit = ds := by
  rw [List.takeWhile_append_of_pos hds]
  cases rest with
  | nil => exact List.append_nil ds
  | cons c rest =>
    rw [List.takeWhile_cons_of_neg (by simp [hrest c rfl]), List.append_nil]

theorem dropWhile_digits {ds rest : List Char} (hds : ∀ c ∈ ds, c.isDigit = true)
    (hrest : ∀ c ∈ rest.head?, c.isDigit = false) :
    (ds ++ rest).dropWhile Char.isDigit = rest := by
  rw [List.dropWhile_append_of_pos hds]
  cases rest with
  | nil => rfl
  | cons c rest => exact List.dropWhile_cons_of_neg (by simp [hrest c rfl])

theorem isDigit_of_mem_takeWhile {s : List Char} :
    ∀ c ∈ s.takeWhile Char.isDigit, c.isDigit = true :=
  List.all_eq_true.mp List.all_takeWhile

theorem Digits.takeWhile {s : List Char} (h : (s.takeWhile Char.isDigit).isEmpty = false) :
    Digits (s.takeWhile Char.isDigit) :=
  ⟨isDigit_of_mem_takeWhile, List.isEmpty_eq_false_iff.mp h⟩

theorem Digits.isEmpty {ds : List Char} (h : Digits ds) : ds.isEmpty = false :=
  List.isEmpty_eq_false_iff.mpr h.ne_nil

-- The first character of a text that begins with digits is one of them.
theorem Digits.mem_of_append {ds rest more : List Char} {c : Char} (h : Digits ds)
    (heq : ds ++ rest = c :: more) : c ∈ ds := by
  cases ds with
  | nil => exact absurd rfl h.ne_nil
  | cons d ds =>
    rw [(List.cons.inj heq).1]
    exact List.mem_cons_self

/-! ## 3. Parts are read where they stand -/

theorem wholePart_append {whole rest : List Char} (h : Whole whole)
    (hrest : ∀ c ∈ rest.head?, c.isDigit = false) :
    wholePart (whole ++ rest) = some (whole, rest) := by
  rcases h.leading with rfl | hlead
  · rfl
  · cases whole with
    | nil => exact absurd rfl h.ne_nil
    | cons c ds =>
      obtain ⟨hc, hds⟩ := List.forall_mem_cons.mp h.all
      rw [List.cons_append, wholePart.eq_2]
      · rw [if_pos hc, takeWhile_digits hds hrest, dropWhile_digits hds hrest]
      · rintro rfl
        exact hlead rfl

theorem fractionPart_append {fraction : Option (List Char)} {rest : List Char}
    (h : ∀ ds ∈ fraction, Digits ds) (hrest : ∀ c ∈ rest.head?, c.isDigit = false ∧ c ≠ '.') :
    fractionPart (point fraction ++ rest) = (fraction, rest) := by
  have hdigit : ∀ c ∈ rest.head?, c.isDigit = false := fun c hc => (hrest c hc).1
  cases fraction with
  | none =>
    rw [point, List.nil_append, fractionPart.eq_2]
    rintro r rfl
    exact (hrest '.' rfl).2 rfl
  | some ds =>
    have hds := h ds rfl
    rw [point, List.cons_append, fractionPart]
    simp only [takeWhile_digits hds.all hdigit, dropWhile_digits hds.all hdigit, hds.isEmpty]
    rfl

-- Where a mark stands, the digits behind it and behind its sign are taken as far as they go.
theorem exponentPart_append {tail rest : List Char} {e : Option Int} (h : Exponent tail e)
    (hrest : Stops rest) : exponentPart (tail ++ rest) = (e, rest) := by
  have hdigit : ∀ c ∈ rest.head?, c.isDigit = false := fun c hc => (hrest c hc).1
  cases h with
  | absent =>
    cases rest with
    | nil => rfl
    | cons c rest =>
      obtain ⟨-, -, he, hE⟩ := hrest c rfl
      unfold exponentPart
      exact if_neg fun hmark => hmark.elim he hE
  | @bare mark ds hmark hds =>
    unfold exponentPart
    rw [List.cons_append]
    dsimp only
    rw [if_pos hmark]
    -- The first digit is no sign.
    split
    next body heq => exact absurd (hds.all '-' (hds.mem_of_append heq)) (by decide)
    next body heq => exact absurd (hds.all '+' (hds.mem_of_append heq)) (by decide)
    next =>
      simp only [takeWhile_digits hds.all hdigit, dropWhile_digits hds.all hdigit, hds.isEmpty]
      rfl
  | plus hmark hds =>
    rw [List.cons_append, List.cons_append, exponentPart, if_pos hmark]
    simp only [takeWhile_digits hds.all hdigit, dropWhile_digits hds.all hdigit, hds.isEmpty]
    rfl
  | minus hmark hds =>
    rw [List.cons_append, List.cons_append, exponentPart, if_pos hmark]
    simp only [takeWhile_digits hds.all hdigit, dropWhile_digits hds.all hdigit, hds.isEmpty]
    rfl

/-! ## 4. What was read stands there -/

theorem whole_of_wholePart {s whole rest : List Char} (h : wholePart s = some (whole, rest)) :
    s = whole ++ rest ∧ Whole whole := by
  unfold wholePart at h
  split at h
  next zeros =>
    cases h
    exact ⟨rfl, ⟨List.forall_mem_singleton.mpr rfl, List.cons_ne_nil _ _⟩, Or.inl rfl⟩
  next c cs hzero =>
    split at h
    next hc =>
      cases h
      refine ⟨by rw [List.cons_append, List.takeWhile_append_dropWhile], ⟨?_, ?_⟩, Or.inr ?_⟩
      · exact List.forall_mem_cons.mpr ⟨hc, isDigit_of_mem_takeWhile⟩
      · exact List.cons_ne_nil _ _
      · exact fun hhead => hzero (Option.some.inj hhead)
    next => cases h
  next => cases h

theorem digits_of_fractionPart {s rest : List Char} {fraction : Option (List Char)}
    (h : fractionPart s = (fraction, rest)) :
    s = point fraction ++ rest ∧ ∀ ds ∈ fraction, Digits ds := by
  unfold fractionPart at h
  split at h
  next cs =>
    dsimp only at h
    split at h
    next =>
      cases h
      exact ⟨rfl, fun _ hds => by cases hds⟩
    next hempty =>
      cases h
      refine ⟨by rw [point, List.cons_append, List.takeWhile_append_dropWhile], fun ds hds => ?_⟩
      cases hds
      exact .takeWhile (Bool.eq_false_iff.mpr hempty)
  next =>
    cases h
    exact ⟨rfl, fun _ hds => by cases hds⟩

theorem exponent_of_exponentPart {s rest : List Char} {e : Option Int}
    (h : exponentPart s = (e, rest)) : ∃ tail, s = tail ++ rest ∧ Exponent tail e := by
  unfold exponentPart at h
  split at h
  next mark cs =>
    split at h
    next hmark =>
      -- Behind the mark and perhaps a sign there are digits, or nothing of this is an exponent.
      have hsplit (body : List Char) :
          body.takeWhile Char.isDigit ++ body.dropWhile Char.isDigit = body :=
        List.takeWhile_append_dropWhile
      split at h
      next negative body heq =>
        dsimp only at h
        split at h
        next =>
          cases h
          exact ⟨[], rfl, .absent⟩
        next hempty =>
          have hdigits := Digits.takeWhile (Bool.eq_false_iff.mpr hempty)
          cases h
          split at heq
          next body' =>
            cases heq
            exact ⟨_, by rw [List.cons_append, List.cons_append, hsplit], .minus hmark hdigits⟩
          next body' =>
            cases heq
            exact ⟨_, by rw [List.cons_append, List.cons_append, hsplit], .plus hmark hdigits⟩
          next =>
            cases heq
            exact ⟨_, by rw [List.cons_append, hsplit], .bare hmark hdigits⟩
    next =>
      cases h
      exact ⟨[], rfl, .absent⟩
  next =>
    cases h
    exact ⟨[], rfl, .absent⟩

/-! ## 5. Whole numbers -/

-- An exponent is not taken for more digits, nor for a fraction.
theorem head?_exponent {tail rest : List Char} {e : Option Int} (h : Exponent tail e)
    (hrest : Stops rest) : ∀ c ∈ (tail ++ rest).head?, c.isDigit = false ∧ c ≠ '.' := by
  have hmark {mark : Char} (hmark : mark = 'e' ∨ mark = 'E') :
      mark.isDigit = false ∧ mark ≠ '.' := by
    rcases hmark with rfl | rfl <;> decide
  cases h with
  | absent => exact fun c hc => ⟨(hrest c hc).1, (hrest c hc).2.1⟩
  | bare h _ | plus h _ | minus h _ =>
    intro c hc
    cases hc
    exact hmark h

theorem isDigit_head?_point {fraction : Option (List Char)} {rest : List Char}
    (h : ∀ c ∈ rest.head?, c.isDigit = false ∧ c ≠ '.') :
    ∀ c ∈ (point fraction ++ rest).head?, c.isDigit = false := by
  cases fraction with
  | none => exact fun c hc => (h c hc).1
  | some ds =>
    intro c hc
    cases hc
    rfl

-- The number that its parts make, once they have been read.
theorem number_of_parts (negative : Bool) {body whole afterWhole afterFraction rest : List Char}
    {fraction : Option (List Char)} {exponent : Option Int}
    (hwhole : wholePart body = some (whole, afterWhole))
    (hfraction : fractionPart afterWhole = (fraction, afterFraction))
    (hexponent : exponentPart afterFraction = (exponent, rest)) :
    number (sign negative ++ body) =
      if fraction.isNone && exponent.isNone then
        if maxIntegerDigits < whole.length then .error .longInteger
        else .ok (.int (integerOf negative whole), rest)
      else .ok (.float (doubleOf negative whole fraction exponent), rest) := by
  obtain ⟨rfl, hdigits⟩ := whole_of_wholePart hwhole
  cases negative with
  | true =>
    show number ('-' :: (whole ++ afterWhole)) = _
    simp only [number, hwhole, hfraction, hexponent]
    rfl
  | false =>
    show number (whole ++ afterWhole) = _
    unfold number
    split
    next before body heq =>
      split at heq
      next more hminus =>
        exact absurd (hdigits.all '-' (hdigits.mem_of_append hminus)) (by decide)
      next =>
        cases heq
        simp only [hwhole, hfraction, hexponent]
        rfl

theorem number_append {cs rest : List Char} {v : Value} (h : Numeral cs v) (hrest : Stops rest) :
    number (cs ++ rest) = .ok (v, rest) := by
  cases h with
  | @int negative whole hwhole hle =>
    have hnone : ∀ ds ∈ (none : Option (List Char)), Digits ds := fun _ hds => by cases hds
    have hparts := number_of_parts negative
      (wholePart_append hwhole fun c hc => (hrest c hc).1)
      (fractionPart_append hnone fun c hc => ⟨(hrest c hc).1, (hrest c hc).2.1⟩)
      (exponentPart_append .absent hrest)
    rw [List.append_assoc, hparts]
    exact if_neg (Nat.not_lt.mpr hle)
  | @float negative whole tail fraction exponent hwhole hfraction hexponent hsome =>
    have hpoint := head?_exponent hexponent hrest
    have hparts := number_of_parts negative
      (wholePart_append hwhole (isDigit_head?_point hpoint))
      (fractionPart_append hfraction hpoint) (exponentPart_append hexponent hrest)
    rw [List.append_assoc, List.append_assoc, List.append_assoc, hparts, hsome]
    rfl

-- Every text has a sign in front, if only none.
theorem exists_sign (s : List Char) : ∃ negative body, s = sign negative ++ body ∧
    (wholePart body = none → ∃ left, number s = .error (.malformed .valueExpected left)) := by
  unfold number
  split
  next negative body heq =>
    split at heq
    · cases heq
      exact ⟨true, _, rfl, fun h => by rw [h]; exact ⟨_, rfl⟩⟩
    · cases heq
      exact ⟨false, _, rfl, fun h => by rw [h]; exact ⟨_, rfl⟩⟩

theorem number_outcome (s : List Char) : Outcome (Fronts Numeral s) s (number s) := by
  obtain ⟨negative, body, rfl, hnone⟩ := exists_sign s
  cases hwhole : wholePart body with
  | none =>
    obtain ⟨left, hleft⟩ := hnone hwhole
    rw [hleft]
    trivial
  | some parts =>
    obtain ⟨whole, afterWhole⟩ := parts
    obtain ⟨rfl, hdigits⟩ := whole_of_wholePart hwhole
    rcases hfraction : fractionPart afterWhole with ⟨fraction, afterFraction⟩
    obtain ⟨rfl, hpoint⟩ := digits_of_fractionPart hfraction
    rcases hexponent : exponentPart afterFraction with ⟨exponent, rest⟩
    obtain ⟨tail, rfl, htail⟩ := exponent_of_exponentPart hexponent
    rw [number_of_parts negative hwhole hfraction hexponent]
    split
    next hint =>
      rw [Bool.and_eq_true, Option.isNone_iff_eq_none, Option.isNone_iff_eq_none] at hint
      obtain ⟨rfl, rfl⟩ := hint
      cases htail
      split
      next hlong =>
        exact ⟨whole, List.infix_append' (sign negative) whole rest, hdigits.all, hlong⟩
      next hle =>
        refine ⟨_, ?_, .int negative hdigits (Nat.not_lt.mp hle)⟩
        rw [List.append_assoc]
        rfl
    next hfloat =>
      refine ⟨_, ?_, .float negative hdigits hpoint htail (Bool.eq_false_iff.mpr hfloat)⟩
      rw [List.append_assoc, List.append_assoc, List.append_assoc]

end PlotScene.Json
