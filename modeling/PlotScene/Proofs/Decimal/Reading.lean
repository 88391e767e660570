import PlotScene.Decimal.Reading
import PlotScene.Proofs.Double.Scientific

/-!
# Reading written numbers

The numbers that are written have only ASCII digits, a point, an exponent and signs.  Reading such a
text goes straight to its digits.
-/

namespace PlotScene.Decimal

/-! ## 1. Digits -/

theorem natOfDigits_eq (ds : List Char) : natOfDigits ds = Nat.ofDigitChars 10 ds 0 := rfl

theorem natOfDigits_toDigits (n : Nat) : natOfDigits (Nat.toDigits 10 n) = n :=
  Nat.ofDigitChars_ten_toDigits

theorem digit_lt {c : Char} (h : c.isDigit = true) : c.toNat - 0x30 < 10 := by
  simp only [Char.isDigit, Bool.and_eq_true, decide_eq_true_eq] at h
  have hle : c.toNat ≤ 57 := h.2
  omega

-- A row of digits stands for a number below the power of ten of its length.
theorem natOfDigits_lt {ds : List Char} (h : ∀ c ∈ ds, c.isDigit = true) :
    natOfDigits ds < 10 ^ ds.length := by
  induction ds with
  | nil => decide
  | cons c ds ih =>
    have hrest := ih fun d hd => h d (List.mem_cons_of_mem c hd)
    have hfirst := digit_lt (h c List.mem_cons_self)
    rw [natOfDigits_eq, Nat.ofDigitChars_cons, Nat.ofDigitChars_eq_ofDigitChars_zero,
      ← natOfDigits_eq, List.length_cons, Nat.pow_succ]
    have hzero : '0'.toNat = 0x30 := rfl
    have hle : 10 ^ ds.length * (10 * 0 + (c.toNat - '0'.toNat)) ≤ 10 ^ ds.length * 9 :=
      Nat.mul_le_mul_left _ (by omega)
    omega

/-! ## 2. Characters -/

/-- The characters of written numbers. -/
def written : List Char := "0123456789.e+-".toList

theorem mem_written_of_isDigit {c : Char} (h : c.isDigit = true) : c ∈ written := by
  simp only [Char.isDigit, Bool.and_eq_true, decide_eq_true_eq] at h
  have hlow : 48 ≤ c.toNat := h.1
  have hhigh : c.toNat ≤ 57 := h.2
  have hdigit : ∀ n : Fin 10, Char.ofNat (48 + n) ∈ written := by decide
  have hmem := hdigit ⟨c.toNat - 48, by omega⟩
  rwa [show 48 + (c.toNat - 48) = c.toNat by omega, Char.ofNat_toNat] at hmem

-- What holds of each of these characters is decided along the list, not over all characters.
theorem forall_written {q : Char → Prop} [DecidablePred q]
    (h : written.all (fun c => decide (q c)) = true) : ∀ c ∈ written, q c := by
  simpa using h

theorem written_ascii :
    ∀ c ∈ written, ((Text.digitValue? c).map Text.asciiDigit).getD c = c :=
  forall_written (by decide)

theorem written_not_margin : ∀ c ∈ written, isMargin c = false :=
  forall_written (by decide)

theorem written_ne_underscore : ∀ c ∈ written, c ≠ '_' :=
  forall_written (by decide)

theorem written_toLower : ∀ c ∈ written, c.toLower ≠ 'n' :=
  forall_written (by decide)

theorem underscoresInside_of_not_mem {cs : List Char} (h : '_' ∉ cs) :
    underscoresInside cs = true := by
  fun_induction underscoresInside cs with
  | case1 => rfl
  | case5 c cs _ _ _ ih => exact ih fun hmem => h (List.mem_cons_of_mem c hmem)
  | _ => simp at h

section

variable {cs : List Char} (h : ∀ c ∈ cs, c ∈ written)
include h

theorem asciiDigits_written : asciiDigits cs = cs :=
  (List.map_congr_left fun c hc => written_ascii c (h c hc)).trans (List.map_id cs)

theorem trimWhile_written : Text.trimWhile isMargin cs = cs := by
  have hdrop {ds : List Char} (hd : ∀ c ∈ ds, c ∈ written) : ds.dropWhile isMargin = ds := by
    cases ds with
    | nil => rfl
    | cons d ds =>
      exact List.dropWhile_cons_of_neg (by rw [written_not_margin d (hd d List.mem_cons_self)]; simp)
  rw [Text.trimWhile, hdrop h, hdrop fun c hc => h c (List.mem_reverse.mp hc), List.reverse_reverse]

theorem filter_written : cs.filter (· ≠ '_') = cs :=
  List.filter_eq_self.mpr fun c hc => by simpa using written_ne_underscore c (h c hc)

theorem word?_written : word? cs = none := by
  have hn : 'n' ∉ (String.ofList (cs.map Char.toLower)).toList := by
    rw [String.toList_ofList]
    intro hmem
    obtain ⟨c, hc, heq⟩ := List.mem_map.mp hmem
    exact written_toLower c (h c hc) heq
  rw [word?]
  split
  next heq => exact absurd (by rw [heq]; decide) hn
  next heq => exact absurd (by rw [heq]; decide) hn
  next heq => exact absurd (by rw [heq]; decide) hn
  next => rfl

end

-- A number without a sign.
theorem read?_digit {c : Char} {cs : List Char} (hc : c.isDigit = true)
    (h : ∀ d ∈ cs, d ∈ written) : read? (String.ofList (c :: cs)) = unsigned? (c :: cs) := by
  have hall : ∀ d ∈ c :: cs, d ∈ written :=
    List.forall_mem_cons.mpr ⟨mem_written_of_isDigit hc, h⟩
  have hunder : underscoresInside (c :: cs) = true :=
    underscoresInside_of_not_mem fun hmem => written_ne_underscore _ (hall _ hmem) rfl
  rw [read?, String.toList_ofList, asciiDigits_written hall, trimWhile_written hall, if_pos hunder,
    filter_written hall]
  dsimp only
  split
  next heq => exact absurd hc (by rw [(List.cons.inj heq).1]; decide)
  next heq => exact absurd hc (by rw [(List.cons.inj heq).1]; decide)
  next =>
    rw [word?_written hall]
    show (unsigned? (c :: cs)).map (fun x => x) = _
    exact Option.map_id'

theorem read?_minus {cs : List Char} (h : ∀ d ∈ cs, d ∈ written) :
    read? (String.ofList ('-' :: cs)) = (unsigned? cs).map fun x => -x := by
  have hall : ∀ d ∈ '-' :: cs, d ∈ written := List.forall_mem_cons.mpr ⟨by decide, h⟩
  have hunder : underscoresInside ('-' :: cs) = true :=
    underscoresInside_of_not_mem fun hmem => written_ne_underscore _ (hall _ hmem) rfl
  rw [read?, String.toList_ofList, asciiDigits_written hall, trimWhile_written hall, if_pos hunder,
    filter_written hall]
  show (word? cs <|> unsigned? cs).map (fun x => -x) = _
  rw [word?_written h]
  rfl

/-- A number is read behind a minus as its negative. -/
theorem read?_signed {c : Char} {cs : List Char} (hc : c.isDigit = true)
    (h : ∀ d ∈ cs, d ∈ written) (negative : Bool) :
    read? (String.ofList (if negative then '-' :: c :: cs else c :: cs)) =
      (unsigned? (c :: cs)).map fun x => if negative then -x else x := by
  cases negative with
  | true => exact read?_minus (List.forall_mem_cons.mpr ⟨mem_written_of_isDigit hc, h⟩)
  | false => exact (read?_digit hc h).trans Option.map_id'.symm

/-! ## 3. Values -/

-- A number has a digit for each power of ten up to it.
theorem ten_pow_le {n k : Nat} (hn : 0 < n) (hk : k < (Nat.toDigits 10 n).length) : 10 ^ k ≤ n := by
  by_cases hz : k = 0
  · rw [hz]
    exact hn
  · by_contra hlt
    have hle := (Nat.length_toDigits_le_iff (by decide : 1 < 10) (Nat.pos_of_ne_zero hz)).mpr
      (Nat.lt_of_not_le hlt)
    omega

theorem length_toDigits_le {n k : Nat} (hk : 0 < k) (h : n.log2 < 3 * k) :
    (Nat.toDigits 10 n).length ≤ k := by
  rw [Nat.length_toDigits_le_iff (by decide) hk]
  calc n < 2 ^ (n.log2 + 1) := Nat.lt_log2_self
    _ ≤ 2 ^ (3 * k) := Nat.pow_le_pow_right (by decide) h
    _ = (2 ^ 3) ^ k := Nat.pow_mul _ _ _
    _ ≤ 10 ^ k := Nat.pow_le_pow_left (by decide) k

-- An integer is read as the double of that integer, where it is finite.
theorem isFinite_toDouble_of_ofNat {n : Nat} (h : (Float.ofNat n).isFinite = true) :
    (toDouble n 0).isFinite = true := by
  rw [toDouble]
  split
  next => decide
  next hsmall =>
    have hlog := Double.log2_lt_of_isFinite h
    have hlen : (Nat.toDigits 10 n).length ≤ 400 := length_toDigits_le (by decide) (by omega)
    rw [if_neg (by omega)]
    exact h

end PlotScene.Decimal
