import PlotScene.Datum
import PlotScene.Proofs.Decimal.Nearest
import PlotScene.Proofs.Decimal.Shortest
import PlotScene.Proofs.Double.Integer

/-!
# Written numbers read back

A number is written as digits, perhaps a point and more digits, and perhaps an exponent, and
whatever the layout its exact value can be told from them.  The one that is written for a finite
double lies in the interval of that double, so its text reads back to it, and so does its label
unless it is zero.
-/

namespace PlotScene.Decimal

open Double Float.Model Float.Model.UnpackedFloat

/-! ## 1. Exponents -/

/-- What stands after the digits of a number: nothing, or an exponent. -/
def tail : Option Int → List Char
  | none => []
  | some e => 'e' :: exponentText e

theorem isDigit_of_mem_toDigits {n : Nat} : ∀ c ∈ Nat.toDigits 10 n, c.isDigit = true :=
  fun _ hc => Nat.isDigit_of_mem_toDigits (by decide) (by decide) hc

/-- The digits of an exponent, at least two. -/
def exponentDigits (n : Nat) : List Char :=
  if (digitChars n).length < 2 then '0' :: digitChars n else digitChars n

theorem exponentText_eq (e : Int) :
    exponentText e = (if e < 0 then '-' else '+') :: exponentDigits e.natAbs := rfl

theorem isDigit_exponentDigits (n : Nat) : ∀ c ∈ exponentDigits n, c.isDigit = true := by
  rw [exponentDigits]
  split
  · exact List.forall_mem_cons.mpr ⟨by decide, isDigit_of_mem_toDigits⟩
  · exact isDigit_of_mem_toDigits

theorem exponentDigits_ne_nil (n : Nat) : exponentDigits n ≠ [] := by
  rw [exponentDigits]
  split
  · exact List.cons_ne_nil _ _
  · exact Nat.toDigits_ne_nil

theorem natOfDigits_exponentDigits (n : Nat) : natOfDigits (exponentDigits n) = n := by
  rw [exponentDigits]
  split
  · exact natOfDigits_toDigits n
  · exact natOfDigits_toDigits n

theorem exponent?_tail (o : Option Int) : exponent? (tail o) = some (o.getD 0) := by
  cases o with
  | none => rfl
  | some e =>
    have hdigits :
        exponentDigits e.natAbs ≠ [] ∧ (exponentDigits e.natAbs).all Char.isDigit = true :=
      ⟨exponentDigits_ne_nil _, List.all_eq_true.mpr (isDigit_exponentDigits _)⟩
    by_cases he : e < 0
    · rw [tail, exponentText_eq, if_pos he]
      simp only [exponent?, true_or, if_true, if_pos hdigits, natOfDigits_exponentDigits]
      show some (-(e.natAbs : Int)) = some e
      rw [Int.ofNat_natAbs_of_nonpos (Int.le_of_lt he), Int.neg_neg]
    · rw [tail, exponentText_eq, if_neg he]
      simp only [exponent?, true_or, if_true, if_pos hdigits, natOfDigits_exponentDigits]
      show some (e.natAbs : Int) = some e
      rw [Int.natAbs_of_nonneg (Int.not_lt.mp he)]

theorem takeWhile_tail (o : Option Int) : (tail o).takeWhile Char.isDigit = [] := by
  cases o <;> rfl

theorem dropWhile_tail (o : Option Int) : (tail o).dropWhile Char.isDigit = tail o := by
  cases o <;> rfl

theorem tail_written (o : Option Int) : ∀ c ∈ tail o, c ∈ written := by
  cases o with
  | none => exact List.forall_mem_nil _
  | some e =>
    rw [tail, exponentText_eq]
    refine List.forall_mem_cons.mpr ⟨by decide, List.forall_mem_cons.mpr ⟨?_, fun c hc => ?_⟩⟩
    · split <;> decide
    · exact mem_written_of_isDigit (isDigit_exponentDigits _ c hc)

/-! ## 2. Numbers without a sign -/

section

variable {a b : List Char} (ha : ∀ c ∈ a, c.isDigit = true) (hne : a ≠ [])

include ha hne in
theorem unsigned?_whole (o : Option Int) :
    unsigned? (a ++ tail o) = some (toDouble (natOfDigits a) (o.getD 0)) := by
  have htake : (a ++ tail o).takeWhile Char.isDigit = a := by
    rw [List.takeWhile_append_of_pos ha, takeWhile_tail, List.append_nil]
  have hdrop : (a ++ tail o).dropWhile Char.isDigit = tail o := by
    rw [List.dropWhile_append_of_pos ha, dropWhile_tail]
  rw [unsigned?, htake, hdrop]
  have hfraction : ∀ f : List Char × List Char, f = ([], tail o) →
      (if a = [] ∧ f.1 = [] then none
      else (exponent? f.2).map fun e => toDouble (natOfDigits (a ++ f.1)) (e - f.1.length)) =
        some (toDouble (natOfDigits a) (o.getD 0)) := by
    rintro f rfl
    rw [if_neg fun h => hne h.1, exponent?_tail, List.append_nil, Option.map_some]
    simp
  apply hfraction _
  cases o <;> rfl

include ha hne in
theorem unsigned?_point (hb : ∀ c ∈ b, c.isDigit = true) (o : Option Int) :
    unsigned? (a ++ '.' :: (b ++ tail o)) =
      some (toDouble (natOfDigits (a ++ b)) (o.getD 0 - b.length)) := by
  have hpoint : Char.isDigit '.' = false := rfl
  have htake : (a ++ '.' :: (b ++ tail o)).takeWhile Char.isDigit = a := by
    rw [List.takeWhile_append_of_pos ha, List.takeWhile_cons_of_neg (by simp), List.append_nil]
  have hdrop : (a ++ '.' :: (b ++ tail o)).dropWhile Char.isDigit = '.' :: (b ++ tail o) := by
    rw [List.dropWhile_append_of_pos ha, List.dropWhile_cons_of_neg (by simp)]
  have htake' : (b ++ tail o).takeWhile Char.isDigit = b := by
    rw [List.takeWhile_append_of_pos hb, takeWhile_tail, List.append_nil]
  have hdrop' : (b ++ tail o).dropWhile Char.isDigit = tail o := by
    rw [List.dropWhile_append_of_pos hb, dropWhile_tail]
  rw [unsigned?, htake, hdrop]
  simp only [htake', hdrop']
  rw [if_neg fun h => hne h.1, exponent?_tail, Option.map_some]

end

/-- A number without a sign and without zeros in front of its whole part, and its exact value. -/
inductive Laid : ℚ → List Char → Prop where
  | whole {a : List Char} {e : Int} : (∀ c ∈ a, c.isDigit = true) → a ≠ [] →
      (a = ['0'] ∨ a.head? ≠ some '0') → Laid (natOfDigits a * 10 ^ e) (a ++ tail (some e))
  | point {a b : List Char} {o : Option Int} : (∀ c ∈ a, c.isDigit = true) → a ≠ [] →
      (a = ['0'] ∨ a.head? ≠ some '0') → (∀ c ∈ b, c.isDigit = true) → b ≠ [] →
      Laid (natOfDigits (a ++ b) * 10 ^ (o.getD 0 - b.length)) (a ++ '.' :: (b ++ tail o))

theorem Laid.all_written {v : ℚ} {cs : List Char} (h : Laid v cs) : ∀ c ∈ cs, c ∈ written := by
  have hdigits {ds : List Char} (hd : ∀ c ∈ ds, c.isDigit = true) : ∀ c ∈ ds, c ∈ written :=
    fun c hc => mem_written_of_isDigit (hd c hc)
  cases h with
  | whole ha _ _ => exact List.forall_mem_append.mpr ⟨hdigits ha, tail_written _⟩
  | point ha _ _ hb _ =>
    exact List.forall_mem_append.mpr ⟨hdigits ha, List.forall_mem_cons.mpr
      ⟨by decide, List.forall_mem_append.mpr ⟨hdigits hb, tail_written _⟩⟩⟩

theorem Laid.exists_digit {v : ℚ} {cs : List Char} (h : Laid v cs) :
    ∃ c ds, cs = c :: ds ∧ c.isDigit = true := by
  have hfirst {a : List Char} (rest : List Char) (ha : ∀ c ∈ a, c.isDigit = true) (hne : a ≠ []) :
      ∃ c ds, a ++ rest = c :: ds ∧ c.isDigit = true := by
    cases a with
    | nil => exact absurd rfl hne
    | cons c ds => exact ⟨c, ds ++ rest, rfl, ha c List.mem_cons_self⟩
  cases h with
  | whole ha hne _ => exact hfirst _ ha hne
  | point ha hne _ _ _ => exact hfirst _ ha hne

/-- A number is read as the decimal of its value. -/
theorem Laid.exists_toDouble {v : ℚ} {cs : List Char} (h : Laid v cs) :
    ∃ (n : Nat) (e : Int), unsigned? cs = some (toDouble n e) ∧ (n : ℚ) * 10 ^ e = v := by
  cases h with
  | whole ha hne _ => exact ⟨_, _, unsigned?_whole ha hne _, rfl⟩
  | point ha hne _ hb _ => exact ⟨_, _, unsigned?_point ha hne hb _, rfl⟩

/-! ## 3. Layouts -/

theorem isDigit_zeros (n : Nat) : ∀ c ∈ List.replicate n '0', c.isDigit = true := by
  intro c hc
  rw [List.eq_of_mem_replicate hc]
  rfl

-- With a zero in front the other digits would have to make up the whole number.
theorem head?_toDigits {n : Nat} (hn : 0 < n) : (Nat.toDigits 10 n).head? ≠ some '0' := by
  intro hzero
  have hvalue := natOfDigits_toDigits n
  have hpow := ten_pow_le (k := (Nat.toDigits 10 n).length - 1) hn
    (by have := Nat.length_toDigits_pos (b := 10) (n := n); omega)
  have hdigits : ∀ c ∈ Nat.toDigits 10 n, c.isDigit = true := isDigit_of_mem_toDigits
  generalize Nat.toDigits 10 n = ds at *
  cases ds with
  | nil => cases hzero
  | cons c ds =>
    cases hzero
    have hlt := natOfDigits_lt (List.forall_mem_cons.mp hdigits).2
    have hrest : natOfDigits ('0' :: ds) = natOfDigits ds := rfl
    rw [List.length_cons, Nat.add_sub_cancel] at hpow
    omega

theorem natOfDigits_append (ds es : List Char) :
    natOfDigits (ds ++ es) = 10 ^ es.length * natOfDigits ds + natOfDigits es := by
  rw [natOfDigits_eq, Nat.ofDigitChars_append, Nat.ofDigitChars_eq_ofDigitChars_zero]
  rfl

theorem natOfDigits_zeros (k : Nat) : natOfDigits (List.replicate k '0') = 0 := by
  rw [natOfDigits_eq, Nat.ofDigitChars_replicate_zero]
  rfl

section

-- The digits of a decimal and the exponent of the first one: a zero in front is the whole decimal.
variable {ds : List Char} {lead : Int} (hdigits : ∀ c ∈ ds, c.isDigit = true) (hne : ds ≠ [])
  (hfirst : ds = ['0'] ∧ lead = 0 ∨ ds.head? ≠ some '0')

include hdigits hne in
theorem laid_below (hlead : lead < 0) : Laid (natOfDigits ds * 10 ^ (lead + 1 - ds.length))
    ('0' :: '.' :: (List.replicate (-lead - 1).toNat '0' ++ ds)) := by
  have hb : ∀ c ∈ List.replicate (-lead - 1).toNat '0' ++ ds, c.isDigit = true :=
    List.forall_mem_append.mpr ⟨isDigit_zeros _, hdigits⟩
  have hpoint := Laid.point (o := none) (isDigit_zeros 1) (List.cons_ne_nil _ _) (Or.inl rfl) hb
    (by simp [hne])
  have hvalue : natOfDigits (List.replicate 1 '0' ++ (List.replicate (-lead - 1).toNat '0' ++ ds)) =
      natOfDigits ds := by
    rw [natOfDigits_append, natOfDigits_append, natOfDigits_zeros, natOfDigits_zeros]
    simp
  have hexponent : (none : Option Int).getD 0 -
      (List.replicate (-lead - 1).toNat '0' ++ ds).length = lead + 1 - ds.length := by
    rw [List.length_append, List.length_replicate, Option.getD_none]
    omega
  rwa [hvalue, hexponent, tail, List.append_nil] at hpoint

include hdigits hne hfirst in
theorem laid_padded (h : ds.length ≤ (lead + 1).toNat) :
    Laid (natOfDigits ds * 10 ^ (lead + 1 - ds.length))
      (ds ++ List.replicate ((lead + 1).toNat - ds.length) '0' ++ ['.', '0']) := by
  have ha : ∀ c ∈ ds ++ List.replicate ((lead + 1).toNat - ds.length) '0', c.isDigit = true :=
    List.forall_mem_append.mpr ⟨hdigits, isDigit_zeros _⟩
  have hlength : 0 < ds.length := List.length_pos_iff.mpr hne
  have hfront : ds ++ List.replicate ((lead + 1).toNat - ds.length) '0' = ['0'] ∨
      (ds ++ List.replicate ((lead + 1).toNat - ds.length) '0').head? ≠ some '0' := by
    rcases hfirst with ⟨rfl, rfl⟩ | hfirst
    · exact Or.inl rfl
    · exact Or.inr (by rwa [List.head?_append_of_ne_nil _ hne])
  have hpoint := Laid.point (o := none) ha (by simp [hne]) hfront (isDigit_zeros 1)
    (List.cons_ne_nil _ _)
  have hexponent : lead + 1 - ds.length = ((lead + 1).toNat - ds.length : Nat) := by omega
  have hvalue : (natOfDigits (ds ++ List.replicate ((lead + 1).toNat - ds.length) '0' ++
      List.replicate 1 '0') : ℚ) *
        10 ^ ((none : Option Int).getD 0 - (List.replicate 1 '0').length) =
      natOfDigits ds * 10 ^ (lead + 1 - ds.length) := by
    rw [natOfDigits_append, natOfDigits_append, natOfDigits_zeros, natOfDigits_zeros, hexponent,
      List.length_replicate, List.length_replicate, Option.getD_none]
    push_cast
    norm_num
    ring
  rwa [hvalue] at hpoint

include hdigits hfirst in
theorem laid_split (hlead : 0 ≤ lead) (h : (lead + 1).toNat < ds.length) :
    Laid (natOfDigits ds * 10 ^ (lead + 1 - ds.length))
      (ds.take (lead + 1).toNat ++ '.' :: ds.drop (lead + 1).toNat) := by
  have hwhole : (lead + 1).toNat ≠ 0 := by omega
  have hne : ds ≠ [] := List.length_pos_iff.mp (by omega)
  have ha : ∀ c ∈ ds.take (lead + 1).toNat, c.isDigit = true :=
    fun c hc => hdigits c (List.mem_of_mem_take hc)
  have hb : ∀ c ∈ ds.drop (lead + 1).toNat, c.isDigit = true :=
    fun c hc => hdigits c (List.mem_of_mem_drop hc)
  have hfront : (ds.take (lead + 1).toNat).head? ≠ some '0' := by
    rcases hfirst with ⟨rfl, rfl⟩ | hfirst
    · exact absurd h (by decide)
    · rwa [List.head?_take, if_neg hwhole]
  have hpoint := Laid.point (o := none) ha (by simp [hne, hwhole]) (Or.inr hfront) hb
    (by simpa using h)
  have hexponent : (none : Option Int).getD 0 - (ds.drop (lead + 1).toNat).length =
      lead + 1 - ds.length := by
    rw [List.length_drop, Option.getD_none]
    omega
  rwa [List.take_append_drop, hexponent, tail, List.append_nil] at hpoint

end

theorem laid_scientific {c : Char} {rest : List Char} (h : ∀ d ∈ c :: rest, d.isDigit = true)
    (lead : Int) :
    Laid (natOfDigits [c] * 10 ^ (lead + 1 - [c].length)) (c :: 'e' :: exponentText lead) ∧
      (rest ≠ [] → Laid (natOfDigits (c :: rest) * 10 ^ (lead + 1 - (c :: rest).length))
        (c :: '.' :: rest ++ 'e' :: exponentText lead)) := by
  have hsingle : [c] = ['0'] ∨ [c].head? ≠ some '0' := by
    by_cases hc : c = '0'
    · exact Or.inl (by rw [hc])
    · exact Or.inr fun heq => hc (Option.some.inj heq)
  obtain ⟨hc, hrest⟩ := List.forall_mem_cons.mp h
  have hfirst : ∀ d ∈ [c], d.isDigit = true := List.forall_mem_singleton.mpr hc
  constructor
  · rw [show lead + 1 - ([c].length : Nat) = lead from add_sub_cancel_right lead 1]
    exact .whole hfirst (List.cons_ne_nil _ _) hsingle
  · intro hne
    have hpoint := Laid.point (o := some lead) hfirst (List.cons_ne_nil _ _) hsingle hrest hne
    rwa [Option.getD_some, show lead - rest.length = lead + 1 - (c :: rest).length by
      rw [List.length_cons]; omega] at hpoint

/-- Whatever the layout, a decimal keeps its value. -/
theorem laid_layout {d : Decimal} (h : d.digits = 0 → d.exponent = 0) :
    Laid d.toRat (layout d) := by
  have hdigits : ∀ c ∈ digitChars d.digits, c.isDigit = true := isDigit_of_mem_toDigits
  have hne : digitChars d.digits ≠ [] := Nat.toDigits_ne_nil
  have hlead : d.exponent + (digitChars d.digits).length - 1 + 1 - (digitChars d.digits).length =
      d.exponent := by omega
  have hfirst : digitChars d.digits = ['0'] ∧
      d.exponent + (digitChars d.digits).length - 1 = 0 ∨
      (digitChars d.digits).head? ≠ some '0' := by
    by_cases hz : d.digits = 0
    · refine Or.inl ⟨by rw [hz]; rfl, ?_⟩
      rw [h hz, hz]
      rfl
    · exact Or.inr (head?_toDigits (Nat.pos_of_ne_zero hz))
  rw [toRat, ← natOfDigits_toDigits d.digits, ← hlead]
  simp only [layout]
  change Laid (natOfDigits (digitChars d.digits) * _) _
  generalize d.exponent + ((digitChars d.digits).length : Int) - 1 = lead at hfirst ⊢
  generalize digitChars d.digits = ds at *
  split
  next =>
    split
    next hbelow => exact laid_below hdigits hne hbelow
    next hlead =>
      split
      next hle => exact laid_padded hdigits hne hfirst hle
      next hlt => exact laid_split hdigits hfirst (Int.not_lt.mp hlead) (Nat.lt_of_not_le hlt)
  next =>
    cases ds with
    | nil => exact absurd rfl hne
    | cons c rest =>
      cases rest with
      | nil => exact (laid_scientific hdigits lead).1
      | cons d rest => exact (laid_scientific hdigits lead).2 (List.cons_ne_nil _ _)

/-- The shortest decimal of a double is laid out with its value. -/
theorem laid_shortest (m : Nat) (q : Int) : Laid (shortest m q).toRat (layout (shortest m q)) := by
  apply laid_layout
  by_cases hm : m = 0
  · rw [hm]
    exact fun _ => rfl
  · exact fun hz => absurd hz (Nat.ne_of_gt (shortest_pos (Nat.pos_of_ne_zero hm) q))

/-! ## 4. Texts and labels -/

/-- The text of a double reads back to the same double. -/
def ReadsBack (x : Float) : Prop :=
  read? (Double.text x) = some x

instance (x : Float) : Decidable (ReadsBack x) := inferInstanceAs (Decidable (_ = _))

/-- A text reads back finite, if it can be read at all. -/
def ReadsFinite (s : String) : Prop :=
  ∀ x, read? s = some x → x.isFinite = true

theorem Laid.read? {v : ℚ} {cs : List Char} (h : Laid v cs) (negative : Bool) :
    read? (String.ofList (if negative then '-' :: cs else cs)) =
      (unsigned? cs).map fun y => if negative then -y else y := by
  obtain ⟨c, ds, rfl, hc⟩ := h.exists_digit
  exact read?_signed hc (List.forall_mem_cons.mp h.all_written).2 negative

theorem exists_laid {x : Float} (hx : x.isFinite = true) :
    ∃ (negative : Bool) (v : ℚ) (cs : List Char), Laid v cs ∧
      Double.text x = String.ofList (if negative then '-' :: cs else cs) := by
  obtain ⟨p, hp, -⟩ := exists_parts hx
  exact ⟨p.negative, _, _, laid_shortest p.mantissa p.exponent, by rw [Double.text, hp]⟩

theorem text_of_finite {x : Float} {s : Sign} {m : Nat} {q : Int} {hm : 0 < m}
    (hx : x.toModel.unpack = .finite s m q hm) : Double.text x = String.ofList
      (if isMinus s then '-' :: layout (shortest m q) else layout (shortest m q)) := by
  rw [Double.text, parts?_eq, fieldParts?_of_finite hx]

/-- The text of a finite double reads back to that double. -/
theorem readsBack_of_isFinite {x : Float} (hx : x.isFinite = true) : ReadsBack x := by
  rcases unpack_cases hx with ⟨s, hu⟩ | ⟨s, m, q, hm, hu⟩
  · rw [← ofModel_pack hx, hu]
    cases s <;> decide
  · have hregular := regular_of_unpack hu
    obtain ⟨n, e, hread, hvalue⟩ := (laid_shortest m q).exists_toDouble
    have hround := roundsTo_shortest hm q
    rw [← hvalue] at hround
    rw [ReadsBack, text_of_finite hu, (laid_shortest m q).read?, hread, Option.map_some,
      toDouble_of_roundsTo hregular hround, ← eq_ofParts hu hregular]

theorem toString_eq (n : Int) : toString n = String.ofList
    (if n < 0 then '-' :: Nat.toDigits 10 n.natAbs else Nat.toDigits 10 n.natAbs) := by
  cases n with
  | ofNat m => rfl
  | negSucc m =>
    rw [if_pos (Int.negSucc_lt_zero m)]
    exact (@String.ofList_append ['-'] _).symm

/-- The text of an integer is read as the decimal of that integer. -/
theorem read?_toString (n : Int) : Decimal.read? (toString n) =
    some (if n < 0 then -toDouble n.natAbs 0 else toDouble n.natAbs 0) := by
  have hunsigned := unsigned?_whole isDigit_of_mem_toDigits
    (Nat.toDigits_ne_nil (n := n.natAbs) (b := 10)) none
  rw [tail, List.append_nil, natOfDigits_toDigits, Option.getD_none] at hunsigned
  have hdigits : ∀ c ∈ Nat.toDigits 10 n.natAbs, c.isDigit = true := isDigit_of_mem_toDigits
  cases hds : Nat.toDigits 10 n.natAbs with
  | nil => exact absurd hds Nat.toDigits_ne_nil
  | cons c cs =>
    rw [hds] at hunsigned hdigits
    obtain ⟨hc, hcs⟩ := List.forall_mem_cons.mp hdigits
    have hread := read?_signed hc (fun d hd => mem_written_of_isDigit (hcs d hd)) (decide (n < 0))
    rw [hunsigned, Option.map_some] at hread
    simp only [decide_eq_true_eq] at hread
    rw [toString_eq, hds, hread]

/-- The label of a finite double other than zero reads back to that double. -/
theorem read?_label {x : Float} {s : Sign} {m : Nat} {q : Int} {hm : 0 < m}
    (hx : x.toModel.unpack = .finite s m q hm) :
    Decimal.read? (Scalar.float x).label = some x := by
  have hfinite : x.isFinite = true := congrArg UnpackedFloat.isFinite hx
  have hregular := regular_of_unpack hx
  rw [Scalar.label]
  split
  next n hn =>
    have hvalue := (rational?_of_finite hx).symm.trans (integer?_eq_some.mp hn)
    rw [Option.some.injEq] at hvalue
    have hpos : (0 : ℚ) < m * 2 ^ q := mul_pos (by exact_mod_cast hm) (by positivity)
    have hsign : n < 0 ↔ isMinus s = true := by
      rw [← Int.cast_lt_zero (R := ℚ), ← hvalue]
      cases s with
      | negative => exact iff_of_true (neg_lt_zero.mpr hpos) rfl
      | positive => exact iff_of_false (not_lt.mpr hpos.le) Bool.false_ne_true
    have habs : (n.natAbs : ℚ) * 10 ^ (0 : Int) = m * 2 ^ q := by
      rw [zpow_zero, mul_one, Nat.cast_natAbs, Int.cast_abs, ← hvalue]
      cases s with
      | negative => exact (abs_neg _).trans (abs_of_pos hpos)
      | positive => exact abs_of_pos hpos
    have hround := roundsTo_self hm q
    rw [← habs] at hround
    rw [read?_toString, toDouble_of_roundsTo hregular hround, eq_ofParts hx hregular]
    simp only [hsign]
  next => exact readsBack_of_isFinite hfinite

theorem signed_written {cs : List Char} (h : ∀ c ∈ cs, c ∈ written) (negative : Prop)
    [Decidable negative] :
    ∀ c ∈ (String.ofList (if negative then '-' :: cs else cs)).toList, c ∈ written := by
  rw [String.toList_ofList]
  split
  · exact List.forall_mem_cons.mpr ⟨by decide, h⟩
  · exact h

theorem toString_written (n : Int) : ∀ c ∈ (toString n).toList, c ∈ written := by
  rw [toString_eq]
  exact signed_written (fun c hc => mem_written_of_isDigit (isDigit_of_mem_toDigits c hc)) _

theorem text_written {x : Float} (hx : x.isFinite = true) :
    ∀ c ∈ (Double.text x).toList, c ∈ written := by
  obtain ⟨negative, v, cs, hlaid, htext⟩ := exists_laid hx
  rw [htext]
  exact signed_written hlaid.all_written _

/-- The label of a finite double has only the characters of written numbers. -/
theorem label_written {x : Float} (hx : x.isFinite = true) :
    ∀ c ∈ (Scalar.float x).label.toList, c ∈ written := by
  rw [Scalar.label]
  split
  · exact toString_written _
  · exact text_written hx

-- The text of an integer that is finite as a double reads back finite.
theorem readsFinite_toString {n : Int} (h : (Float.ofNat n.natAbs).isFinite = true) :
    ReadsFinite (toString n) := by
  intro x hx
  rw [read?_toString] at hx
  rw [← Option.some.inj hx]
  have hfinite := isFinite_toDouble_of_ofNat h
  split
  · exact isFinite_neg hfinite
  · exact hfinite

theorem label_of_zero {x : Float} {s : Sign} (hx : x.toModel.unpack = .zero s) :
    (Scalar.float x).label = "0" := by
  have hzero : integer? x = some 0 := integer?_eq_some.mpr (rational?_of_zero hx)
  rw [Scalar.label, hzero]
  rfl

/-- The label of a finite double reads back finite. -/
theorem readsFinite_label {x : Float} (hx : x.isFinite = true) :
    ReadsFinite (Scalar.float x).label := by
  intro y hy
  rcases unpack_cases hx with ⟨s, hu⟩ | ⟨s, m, q, hm, hu⟩
  · rw [label_of_zero hu] at hy
    have hfinite : (read? "0").all Float.isFinite = true := by decide
    rw [hy] at hfinite
    exact hfinite
  · rw [read?_label hu] at hy
    exact Option.some.inj hy ▸ hx

end PlotScene.Decimal
