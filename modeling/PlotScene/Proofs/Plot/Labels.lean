import PlotScene.Proofs.Decimal.Notation
import PlotScene.Proofs.Firsts
import PlotScene.Proofs.Plot.Description

/-!
# Labels identify numbers

The label of a number goes by its quantity: a whole number is written as an integer, a fraction as
the text of its double, which has a point or an exponent, and the infinities as words.  So two
numbers have one label exactly when they are numerically equal, and the labels of a numeric column
of colors stand for its different numbers.  Only an integer with too many digits has no label.
-/

namespace PlotScene

open Double Decimal

/-! ## 1. Labels of quantities -/

/-- A quantity has a label. -/
inductive Quantity.Labelled : Quantity → String → Prop where
  | whole (n : Int) : Labelled (.exact n) (toString n)
  | fraction {x : Float} {r : Rat} : x.isFinite = true → rational? x = some r →
      integer? x = none → Labelled (.exact r) (Double.text x)
  | infinite (negative : Bool) : Labelled (.infinite negative) (if negative then "-inf" else "inf")

theorem Quantity.labelled_ofFloat {x : Float} (hx : x.isNaN = false) :
    (Quantity.ofFloat x).Labelled (Scalar.float x).label := by
  rw [Quantity.ofFloat, Scalar.label]
  cases hr : rational? x with
  | some r =>
    have hfinite : x.isFinite = true := isSome_rational?.mp (by rw [hr]; rfl)
    cases hn : integer? x with
    | some n =>
      rw [integer?_eq_some, hr, Option.some.injEq] at hn
      exact hn ▸ .whole n
    | none => exact .fraction hfinite hr hn
  | none =>
    have hinteger : integer? x = none := by rw [integer?, hr, Option.bind_none]
    have hparts : parts? x = none := Option.map_eq_none_iff.mp hr
    rw [hinteger]
    simp only [Double.text, hparts, hx, Bool.false_eq_true, if_false]
    have hinfinite := Labelled.infinite (decide (x < 0))
    simp only [decide_eq_true_eq] at hinfinite
    exact hinfinite

/-- A number that is not missing has the label of its quantity. -/
theorem Scalar.exists_labelled {a : Scalar} (hnumber : a.isNumber = true)
    (hmissing : a.isMissing = false) : ∃ q, a.quantity? = some q ∧ q.Labelled a.label := by
  cases a with
  | int n => exact ⟨_, rfl, .whole n⟩
  | float x => exact ⟨_, rfl, Quantity.labelled_ofFloat hmissing⟩
  | _ => cases hnumber

/-! ## 2. Labels apart -/

/-- The characters that the text of a fraction has and that of an integer has not. -/
def isMark (c : Char) : Bool := c == '.' || c == 'e'

theorem Laid.exists_mark {v : ℚ} {cs : List Char} (h : Laid v cs) : ∃ c ∈ cs, isMark c = true := by
  cases h with
  | whole _ _ _ => exact ⟨'e', by simp [tail], rfl⟩
  | point _ _ _ _ _ => exact ⟨'.', by simp, rfl⟩

theorem exists_mark_text {x : Float} (hx : x.isFinite = true) :
    ∃ c ∈ (Double.text x).toList, isMark c = true := by
  obtain ⟨negative, v, cs, hlaid, htext⟩ := exists_laid hx
  obtain ⟨c, hc, hmark⟩ := Laid.exists_mark hlaid
  refine ⟨c, ?_, hmark⟩
  rw [htext, String.toList_ofList]
  cases negative with
  | true => exact List.mem_cons_of_mem _ hc
  | false => exact hc

theorem not_mark_toString (n : Int) : ∀ c ∈ (toString n).toList, isMark c = false := by
  have hdigits : ∀ c ∈ Nat.toDigits 10 n.natAbs, isMark c = false := by
    intro c hc
    have hdigit := isDigit_of_mem_toDigits c hc
    refine Bool.eq_false_iff.mpr fun hmark => ?_
    rw [isMark, Bool.or_eq_true, beq_iff_eq, beq_iff_eq] at hmark
    rcases hmark with rfl | rfl <;> cases hdigit
  rw [toString_eq, String.toList_ofList]
  split
  · exact List.forall_mem_cons.mpr ⟨rfl, hdigits⟩
  · exact hdigits

theorem toString_ne_text {x : Float} (hx : x.isFinite = true) (n : Int) :
    toString n ≠ Double.text x := by
  intro heq
  obtain ⟨c, hc, hmark⟩ := exists_mark_text hx
  rw [← heq] at hc
  rw [not_mark_toString n c hc] at hmark
  cases hmark

/-- The text of a finite double belongs to no other. -/
theorem text_inj {x y : Float} (hx : x.isFinite = true) (hy : y.isFinite = true)
    (h : Double.text x = Double.text y) : x = y := by
  have hread := readsBack_of_isFinite hx
  rw [ReadsBack, h] at hread
  exact Option.some.inj (hread.symm.trans (readsBack_of_isFinite hy))

theorem toString_inj {n m : Int} (h : toString n = toString m) : n = m := by
  rwa [Int.toString_eq_repr, Int.toString_eq_repr, Int.repr_inj] at h

theorem ne_intCast_of_integer? {x : Float} {r : Rat} (hr : rational? x = some r)
    (hn : integer? x = none) (n : Int) : r ≠ n := by
  rintro rfl
  rw [integer?_eq_some.mpr hr] at hn
  cases hn

namespace Quantity

-- The words for the infinities have a letter that no written number has.
theorem Labelled.ne_infinite {r : Rat} {s : String} (h : (exact r).Labelled s) (negative : Bool) :
    s ≠ if negative then "-inf" else "inf" := by
  have hwritten : ∀ c ∈ s.toList, c ∈ written := by
    cases h with
    | whole n => exact toString_written n
    | fraction hx _ _ => exact text_written hx
  rintro rfl
  have hletter := hwritten 'n' (by cases negative <;> decide)
  exact absurd hletter (by decide)

/-- Quantities have one label exactly when they are the same. -/
theorem Labelled.eq_iff {p q : Quantity} {s t : String} (hp : p.Labelled s)
    (hq : q.Labelled t) : s = t ↔ p.same q = true := by
  match p, q, hp, hq with
  | .exact r, .infinite negative, hp, .infinite _ =>
    exact iff_of_false (hp.ne_infinite negative) Bool.false_ne_true
  | .infinite negative, .exact r, .infinite _, hq =>
    exact iff_of_false (hq.ne_infinite negative).symm Bool.false_ne_true
  | .infinite negative, .infinite negative', .infinite _, .infinite _ =>
    cases negative <;> cases negative' <;> decide
  | .exact _, .exact _, .whole n, .whole m =>
    rw [same_exact, Rat.intCast_inj]
    exact ⟨toString_inj, fun h => by rw [h]⟩
  | .exact _, .exact r, .whole n, .fraction hy hr hm =>
    refine iff_of_false (toString_ne_text hy n) fun hsame => ?_
    exact ne_intCast_of_integer? hr hm n ((same_exact _ _).mp hsame).symm
  | .exact r, .exact _, .fraction hx hr hn, .whole m =>
    refine iff_of_false (toString_ne_text hx m).symm fun hsame => ?_
    exact ne_intCast_of_integer? hr hn m ((same_exact _ _).mp hsame)
  | .exact r, .exact r', .fraction hx hr hn, .fraction hy hr' hm =>
    rw [same_exact]
    constructor
    · intro h
      obtain rfl := text_inj hx hy h
      exact Option.some.inj (hr.symm.trans hr')
    · rintro rfl
      have hne : rational? _ ≠ some 0 := fun hzero =>
        ne_intCast_of_integer? hr hn 0 (Option.some.inj (hr.symm.trans hzero))
      rw [eq_of_rational? hx hy hne (hr.trans hr'.symm)]

end Quantity

theorem Scalar.same_of_quantity? {a b : Scalar} {p q : Quantity} (hp : a.quantity? = some p)
    (hq : b.quantity? = some q) : a.same b = p.same q := by
  cases a <;> cases b <;> simp_all [same, quantity?]

/-- Numbers have one label exactly when they are numerically equal. -/
theorem Scalar.label_eq_iff {a b : Scalar} (ha : a.isNumber = true) (hb : b.isNumber = true)
    (ha' : a.isMissing = false) (hb' : b.isMissing = false) :
    a.label = b.label ↔ a.same b = true := by
  obtain ⟨p, hp, hplabel⟩ := exists_labelled ha ha'
  obtain ⟨q, hq, hqlabel⟩ := exists_labelled hb hb'
  rw [hplabel.eq_iff hqlabel, same_of_quantity? hp hq]

/-! ## 3. Numeric columns -/

namespace Value

/-- The numbers of a column, without the missing ones. -/
def numbers (vs : List Value) : List Scalar :=
  vs.filterMap fun
    | .scalar s => if s.isNumber && !s.isMissing then some s else none
    | _ => none

/-- The numbers of a column that are numerically equal to none before them. -/
def distinctNumbers (vs : List Value) : List Scalar :=
  keeping (fun earlier a => !earlier.any a.same) (numbers vs)

theorem mem_numbers {vs : List Value} {a : Scalar} :
    a ∈ numbers vs ↔ .scalar a ∈ vs ∧ a.isNumber = true ∧ a.isMissing = false := by
  rw [numbers, List.mem_filterMap]
  constructor
  · rintro ⟨v, hv, h⟩
    cases v with
    | scalar s =>
      simp only [Option.ite_none_right_eq_some, Bool.and_eq_true, Bool.not_eq_true',
        Option.some.injEq] at h
      obtain ⟨h, rfl⟩ := h
      exact ⟨hv, h⟩
    | _ => cases h
  · rintro ⟨hmem, hnumber, hmissing⟩
    exact ⟨_, hmem, by simp [hnumber, hmissing]⟩

/-- The labels of a numeric column are those of its numbers. -/
theorem labels_of_allNumeric {vs : List Value} (h : allNumeric vs = true) :
    (vs.filter fun v => !v.isMissing).map label = (numbers vs).map Scalar.label := by
  induction vs with
  | nil => rfl
  | cons v vs ih =>
    rw [allNumeric, List.all_cons, Bool.and_eq_true] at h
    obtain ⟨hv, hvs⟩ := h
    have hrest := ih hvs
    cases v with
    | scalar s =>
      cases hs : s.isMissing with
      | true =>
        have hnone : numbers (.scalar s :: vs) = numbers vs :=
          List.filterMap_cons_none (by simp [hs])
        rw [List.filter_cons_of_neg (by simp [isMissing, hs]), hrest, hnone]
      | false =>
        have hnumber : s.isNumber = true := by simpa [fitsNumeric, hs] using hv
        have hsome : numbers (.scalar s :: vs) = s :: numbers vs :=
          List.filterMap_cons_some (by simp [hs, hnumber])
        rw [List.filter_cons_of_pos (by simp [isMissing, hs]), List.map_cons, hrest, hsome]
        rfl
    | _ => cases hv

theorem label_eq_iff {vs : List Value} {a b : Scalar} (ha : a ∈ numbers vs) (hb : b ∈ numbers vs) :
    a.label = b.label ↔ a.same b = true :=
  Scalar.label_eq_iff (mem_numbers.mp ha).2.1 (mem_numbers.mp hb).2.1 (mem_numbers.mp ha).2.2
    (mem_numbers.mp hb).2.2

/-- A numeric column has one label for each of its different numbers, in the order in which they are
first seen. -/
theorem distinctLabels_eq {vs : List Value} (h : allNumeric vs = true) :
    distinctLabels vs = (distinctNumbers vs).map Scalar.label := by
  have hkept : foremost Scalar.label (numbers vs) = distinctNumbers vs := by
    rw [foremost, distinctNumbers, keeping]
    refine congrArg _ (List.filter_congr fun e he => congrArg _ ?_)
    have hmem : e.1 ∈ numbers vs := List.fst_mem_of_mem_zipIdx he
    rw [Bool.eq_iff_iff, List.contains_iff_mem, List.mem_map, List.any_eq_true]
    constructor
    · rintro ⟨b, hb, hlabel⟩
      exact ⟨b, hb, (label_eq_iff hmem (List.mem_of_mem_take hb)).mp hlabel.symm⟩
    · rintro ⟨b, hb, hsame⟩
      exact ⟨b, hb, ((label_eq_iff hmem (List.mem_of_mem_take hb)).mpr hsame).symm⟩
  have hfirst : firstsAfter Scalar.label [] (numbers vs) = foremost Scalar.label (numbers vs) := by
    rw [firstsAfter_eq_foremost]
    exact congrArg _ (List.filter_eq_self.mpr fun _ _ => rfl)
  rw [distinctLabels, labels_of_allNumeric h, firsts, firstsBy, firstsAfter_map, ← hkept, ← hfirst]
  rfl

/-- Colors of a numeric column group exactly when two of its numbers differ. -/
theorem active_iff {vs : List Value} (h : allNumeric vs = true) :
    (Grouping.ofColors (some vs)).active = true ↔
      ∃ a ∈ numbers vs, ∃ b ∈ numbers vs, a.same b = false := by
  rw [Grouping.active_iff]
  show 1 < (firsts _).length ↔ _
  rw [Option.getD_some, labels_of_allNumeric h, one_lt_length_firsts]
  simp only [List.mem_map, exists_exists_and_eq_and]
  refine exists_congr fun a => and_congr_right fun ha => exists_congr fun b =>
    and_congr_right fun hb => ?_
  rw [Ne, label_eq_iff ha hb, Bool.not_eq_true]

end Value

/-! ## 4. Groups -/

/-- Groups with one color label are the same, as every label stands once. -/
theorem Plot.colorAt?_inj {p : Plot} (hp : p.grouped = true) (hlabels : p.grouping.labels.Nodup)
    {n m : Int} {label : String} (hn : p.colorAt? n = some label)
    (hm : p.colorAt? m = some label) : n = m := by
  obtain ⟨hn1, hn2⟩ := (isSome_colorAt?_iff hp).mp (by rw [hn]; rfl)
  obtain ⟨hm1, hm2⟩ := (isSome_colorAt?_iff hp).mp (by rw [hm]; rfl)
  rw [colorAt?_eq hp hn1] at hn
  rw [colorAt?_eq hp hm1] at hm
  have hindex := (List.getElem?_inj (by omega) hlabels).mp (hn.trans hm.symm)
  omega

theorem Value.label?_eq_ok {v : Value} (h : v.hasText = true) : v.label? = .ok v.label :=
  if_pos h

/-- What the grouping of a column of colors owes to its numbers. -/
structure Value.LabelsIdentify (vs : List Value) (g : Grouping) : Prop where
  /-- Each different number has one label, in the order in which the numbers are first seen. -/
  ordered : g.labels = (distinctNumbers vs).map Scalar.label
  nodup : g.labels.Nodup
  /-- The colors group exactly when two numbers differ. -/
  active : g.active = true ↔ ∃ a ∈ numbers vs, ∃ b ∈ numbers vs, a.same b = false
  /-- The groups that have a color are those from one up to the number of labels, and no two have
  one color. -/
  colors : ∀ p : Plot, p.grouping = g → p.grouped = true →
    (∀ n, (p.colorAt? n).isSome = true ↔ 1 ≤ n ∧ n ≤ g.labels.length) ∧
    ∀ n m label, p.colorAt? n = some label → p.colorAt? m = some label → n = m

theorem Value.labelsIdentify_ofColors {vs : List Value} (h : allNumeric vs = true) :
    LabelsIdentify vs (Grouping.ofColors (some vs)) := by
  have hnodup : (Grouping.ofColors (some vs)).labels.Nodup := nodup_firsts _
  refine ⟨distinctLabels_eq h, hnodup, active_iff h, fun p hcolors hp => ?_⟩
  rw [← hcolors] at hnodup ⊢
  exact ⟨fun n => Plot.isSome_colorAt?_iff hp, fun n m label => Plot.colorAt?_inj hp hnodup⟩

/-- Labels identify exactly the equal numbers, whether they are integers that do not have too many
digits, doubles that hold an integer or fractions.  So the labels of a numeric column of colors are
those of its different numbers, and the groups are told apart by them. -/
theorem labels_identify :
    (∀ a b : Scalar, a.isNumber = true → b.isNumber = true → a.isMissing = false →
      b.isMissing = false → a.hasText = true → b.hasText = true →
      ∃ s t, (Value.scalar a).label? = .ok s ∧ (Value.scalar b).label? = .ok t ∧
        (s = t ↔ a.same b = true)) ∧
    ∀ vs, Value.allNumeric vs = true → Value.haveLabels vs = true →
      Value.distinctLabels? vs = .ok ((Value.distinctNumbers vs).map Scalar.label) ∧
      ∃ g, Grouping.read (some vs) = .ok g ∧ Value.LabelsIdentify vs g := by
  refine ⟨fun a b ha hb ha' hb' htext htext' => ?_, fun vs h hlabels => ⟨?_, ?_⟩⟩
  · exact ⟨_, _, Value.label?_eq_ok (by rwa [Value.hasText_scalar]),
      Value.label?_eq_ok (by rwa [Value.hasText_scalar]), Scalar.label_eq_iff ha hb ha' hb'⟩
  · rw [Value.distinctLabels?, Value.requireLabels_eq_ok.mpr hlabels, ok_bind,
      Value.distinctLabels_eq h]
    rfl
  · exact ⟨_, Grouping.read_eq_ok.mpr ⟨hlabels, rfl⟩, Value.labelsIdentify_ofColors h⟩

/-- Numbers of every kind: equal ones of two types, neighbours that only an integer keeps apart, a
fraction, both zeros, and two missing ones. -/
def mixedNumbers : List Value :=
  [.int 1, .float 1.0, .int 9007199254740993, .float 9007199254740992, .null, .float 0.5,
    .float Double.nan, .float 1e22, .int 10000000000000000000000, .float (-0.0), .int 0]

theorem labels_identify_mixedNumbers :
    (∃ s t, (Value.int 9007199254740993).label? = .ok s ∧
      (Value.float 9007199254740992).label? = .ok t ∧ s ≠ t) ∧
    (∃ s, (Value.int 10000000000000000000000).label? = .ok s ∧
      (Value.float 1e22).label? = .ok s) ∧
    Value.distinctLabels? mixedNumbers = .ok ["1", "9007199254740993", "9007199254740992", "0.5",
      "10000000000000000000000", "0"] ∧
    ∃ g, Grouping.read (some mixedNumbers) = .ok g ∧ ∀ p : Plot, p.grouping = g →
      ∀ n, (p.colorAt? n).isSome = true ↔ 1 ≤ n ∧ n ≤ 6 := by
  obtain ⟨hlabel, hcolumn⟩ := labels_identify
  obtain ⟨hlabels, g, hread, hcolors⟩ := hcolumn mixedNumbers (by decide) (by decide +kernel)
  obtain ⟨s, t, hs, ht, hapart⟩ := hlabel (.int 9007199254740993) (.float 9007199254740992) rfl rfl
    rfl (by decide) (by decide) rfl
  obtain ⟨u, v, hu, hv, halike⟩ := hlabel (.int 10000000000000000000000) (.float 1e22) rfl rfl rfl
    (by decide) (by decide) rfl
  have hordered : (Value.distinctNumbers mixedNumbers).map Scalar.label = ["1",
      "9007199254740993", "9007199254740992", "0.5", "10000000000000000000000", "0"] := by
    decide +kernel
  have hone : Scalar.int 1 ∈ Value.numbers mixedNumbers :=
    Value.mem_numbers.mpr ⟨by simp [mixedNumbers], rfl, rfl⟩
  have hzero : Scalar.int 0 ∈ Value.numbers mixedNumbers :=
    Value.mem_numbers.mpr ⟨by simp [mixedNumbers], rfl, rfl⟩
  have hactive := hcolors.active.mpr ⟨_, hone, _, hzero, by decide⟩
  refine ⟨⟨s, t, hs, ht, fun heq => absurd (hapart.mp heq) (by decide)⟩, ⟨u, hu, ?_⟩,
    hordered ▸ hlabels, g, hread, fun p hp => ?_⟩
  · rw [halike.mpr (by decide)]
    exact hv
  · have hsome := (hcolors.colors p hp (by rw [Plot.grouped, hp]; exact hactive)).1
    rwa [hcolors.ordered, hordered] at hsome

/-- An integer with too many digits is equal to itself and has no label. -/
theorem not_label_longInteger :
    (Scalar.int longInteger).isNumber = true ∧
      (Scalar.int longInteger).same (.int longInteger) = true ∧
      ¬ ∃ label, (Value.int longInteger).label? = .ok label := by
  refine ⟨rfl, ?_, ?_⟩
  · rw [Scalar.same_of_quantity? rfl rfl]
    exact (Quantity.same_exact _ _).mpr rfl
  · rintro ⟨label, hlabel⟩
    rw [Value.label?, if_neg] at hlabel
    · cases hlabel
    · rw [Value.hasText_scalar, Scalar.hasText_longInteger]
      exact Bool.false_ne_true

end PlotScene
