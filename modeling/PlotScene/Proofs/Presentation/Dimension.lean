import PlotScene.Proofs.Presentation
import PlotScene.Proofs.Presentation.Options
import PlotScene.Proofs.Text.Parts

/-!
# Dimensions settle

A value is normalized to the label of a positive finite number.  Such a label is read back to the
number, so it is normalized to itself: it makes no difference whether a dimension is normalized once
or again and again.
-/

namespace PlotScene

open Double Decimal

/-! ## 1. Normal texts -/

/-- A text that some value is normalized to. -/
def IsDimension (t : String) : Prop := ∃ v, dimension? v = some t

theorem written_not_blank : ∀ c ∈ written, Text.isBlank c = false :=
  forall_written (by decide)

-- A text of written characters has no blank at either end.
theorem strip_written {s : String} (h : ∀ c ∈ s.toList, c ∈ written) : Text.strip s = s := by
  have htight : Text.Tight s.toList :=
    ⟨fun c hc => written_not_blank c (h c (List.mem_of_mem_head? hc)),
      fun c hc => written_not_blank c (h c (List.mem_of_getLast? hc))⟩
  rw [Text.strip, Text.trim_of_tight htight, String.ofList_toList]

theorem read?_label_of_pos {x : Float} (hx : x.isFinite = true) (hpos : 0 < x) :
    read? (Scalar.float x).label = some x := by
  rcases unpack_cases hx with ⟨s, hu⟩ | ⟨s, m, q, hm, hu⟩
  · have hlt := (lt_iff.mp hpos).2.2
    rw [rank, rank, hu] at hlt
    exact absurd hlt (lt_irrefl _)
  · exact read?_label hu

theorem dimension?_str (s : String) : dimension? (.str s) =
    (read? (Text.strip s)).bind fun x =>
      if x.isFinite && 0 < x then some (Scalar.float x).label else none := rfl

theorem dimension?_label {x : Float} (hx : x.isFinite = true) (hpos : 0 < x) :
    dimension? (.str (Scalar.float x).label) = some (Scalar.float x).label := by
  have hcond : (x.isFinite && 0 < x) = true := by
    rw [hx, decide_eq_true hpos]
    rfl
  rw [dimension?_str, strip_written (label_written hx), read?_label_of_pos hx hpos,
    Option.bind_some, if_pos hcond]

/-- The texts that values are normalized to are the labels of positive finite numbers. -/
theorem isDimension_iff {t : String} : IsDimension t ↔
    ∃ x : Float, x.isFinite = true ∧ 0 < x ∧ (Scalar.float x).label = t := by
  constructor
  · rintro ⟨v, h⟩
    exact exists_of_dimension? h
  · rintro ⟨x, hx, hpos, rfl⟩
    exact ⟨_, dimension?_label hx hpos⟩

/-- The text of a positive integer of 53 bits is normal. -/
theorem isDimension_toString {n : Nat} (hn : 0 < n) (hlt : n < 2 ^ 53) :
    IsDimension (toString (n : Int)) := by
  obtain ⟨k, d, hk, hu, -, hvalue⟩ := holds_toFloat hn hlt
  have hinteger : integer? n.toUInt64.toFloat = some (n : Int) :=
    integer?_eq_some.mpr ((rational?_of_finite hu).trans (congrArg some hvalue))
  have hpos : (0 : Float) < n.toUInt64.toFloat := by
    refine lt_iff.mpr ⟨rfl, ?_, ?_⟩
    · exact congrArg Float.Model.UnpackedFloat.isNaN hu
    · show rankOf (.zero .positive) < rankOf _
      rw [hu]
      simp [rankOf, Prod.Lex.toLex_lt_toLex]
  refine isDimension_iff.mpr ⟨_, congrArg Float.Model.UnpackedFloat.isFinite hu, hpos, ?_⟩
  rw [Scalar.label, hinteger]

/-! ## 2. Settled texts -/

/-- What a text owes that is used as a dimension. -/
structure Settled (r : String) : Prop where
  /-- The text is read as a positive finite number, and its pixels are an integer exactly when that
  number is integral. -/
  read : ∃ x : Float, read? r = some x ∧ x.isFinite = true ∧ 0 < x ∧
    (∀ n : Int, pixels r = .int n ↔ rational? x = some (n : ℚ)) ∧
    ((∀ n : Int, rational? x ≠ some (n : ℚ)) → pixels r = .float x)
  /-- The text stays as it is when it is normalized again, whatever the fallback. -/
  kept : ∀ fallback, dimensionOr (.str r) fallback = r

theorem pixels_of_read? {r : String} {x : Float} (h : read? r = some x) :
    (∀ n : Int, pixels r = .int n ↔ rational? x = some (n : ℚ)) ∧
      ((∀ n : Int, rational? x ≠ some (n : ℚ)) → pixels r = .float x) := by
  rw [pixels, h]
  dsimp only
  cases hx : integer? x with
  | none =>
    have hnone (n : Int) : rational? x ≠ some (n : ℚ) := fun hn => by
      rw [integer?_eq_some.mpr hn] at hx
      cases hx
    exact ⟨fun n => iff_of_false (fun heq => by cases heq) (hnone n), fun _ => rfl⟩
  | some k =>
    refine ⟨fun n => ?_, fun hnone => absurd (integer?_eq_some.mp hx) (hnone k)⟩
    rw [← integer?_eq_some, hx, Option.some.injEq, Scalar.int.injEq]

theorem IsDimension.settled {r : String} (h : IsDimension r) : Settled r := by
  obtain ⟨x, hx, hpos, rfl⟩ := isDimension_iff.mp h
  have hread := read?_label_of_pos hx hpos
  refine ⟨⟨x, hread, hx, hpos, pixels_of_read? hread⟩, fun fallback => ?_⟩
  rw [dimensionOr, dimension?_label hx hpos, Option.getD_some]

/-- A value is normalized to a normal text, where the fallback is one. -/
theorem isDimension_dimensionOr (v : Value) {d : String} (h : IsDimension d) :
    IsDimension (dimensionOr v d) := by
  rw [dimensionOr]
  cases hv : dimension? v with
  | none => exact h
  | some t => exact ⟨v, hv⟩

/-! ## 3. Presentations -/

namespace Presentation

/-- What a side of a presentation owes to a figure whose size it takes. -/
theorem chooseDimension_figure (figure : Value) {base : String}
    (h : IsDimension base ∨ (dimension? figure).isSome = true) :
    chooseDimension none (some figure) base = dimensionOr figure base := by
  have hbase : IsDimension (dimensionOr figure base) := by
    rcases h with h | h
    · exact isDimension_dimensionOr figure h
    · obtain ⟨t, ht⟩ := Option.isSome_iff_exists.mp h
      exact ⟨figure, by rw [dimensionOr, ht, Option.getD_some]⟩
  exact hbase.settled.kept _

/-- A dimension is normalized once and for all: with a normal fallback the text is read as a
positive finite number and stays as it is when it is normalized again.  So the size of a figure,
which is normalized as a fallback and then as a value, is the one that normalizing it once gives.
There is a presentation exactly where the values that it shows have a text. -/
theorem dimensions_settled :
    (∀ (v : Value) (d : String), IsDimension d → Settled (dimensionOr v d)) ∧
      ∀ (s : Settings) (options : Value) (named : NamedValues) (plot : Plot),
        NamedValues.read options = .ok named →
        ((∃ o, ofOptions s options (some plot) = .ok o) ↔
          ∀ v ∈ shown s named (some plot), v.hasText = true) ∧
        ∀ o, ofOptions s options (some plot) = .ok o →
          (∀ figure, named.last? "width" = none → plot.figureWidth = some figure →
            IsDimension (toString s.defaultWidth) ∨ (dimension? figure).isSome = true →
            o.width = dimensionOr figure (toString s.defaultWidth)) ∧
          (∀ figure, named.last? "height" = none → plot.figureHeight = some figure →
            IsDimension (toString s.defaultHeight) ∨ (dimension? figure).isSome = true →
            o.height = dimensionOr figure (toString s.defaultHeight)) := by
  refine ⟨fun v d hd => (isDimension_dimensionOr v hd).settled, ?_⟩
  intro s options named plot hread
  rw [ofOptions_of_read s (some plot) hread]
  refine ⟨(needs_ofNamedValues s named (some plot)).exists_ok_iff, fun o ho => ?_⟩
  have hchosen := chosen_of_ofNamedValues ho
  refine ⟨fun figure hnone hfigure h => ?_, fun figure hnone hfigure h => ?_⟩
  · rw [hchosen.width, ← chooseDimension_figure figure h, ← hnone, ← hfigure, Option.bind_some]
  · rw [hchosen.height, ← chooseDimension_figure figure h, ← hnone, ← hfigure, Option.bind_some]

/-- A figure with a padded width that has an exponent and with a height that is no number. -/
def resizedPlot : Plot where
  aesthetics := {}
  figureWidth := some (.str " 64.0e1 ")
  figureHeight := some (.bool true)

/-- The width is normalized to a whole number of pixels, the height to the one of the settings. -/
theorem dimensions_settled_resizedPlot :
    Settled (dimensionOr (.str " 64.0e1 ") "500") ∧
      ∃ o, ofOptions {} (.list [.str "x", .str "dose"]) (some resizedPlot) = .ok o ∧
        o.width = "640" ∧ o.height = "500" := by
  have hbase : IsDimension "500" := isDimension_toString (n := 500) (by decide) (by decide)
  obtain ⟨hsettled, hfigure⟩ := dimensions_settled
  obtain ⟨hanswers, hsides⟩ := hfigure {} (.list [.str "x", .str "dose"]) [("x", .str "dose")]
    resizedPlot rfl
  obtain ⟨o, ho⟩ := hanswers.mpr (by decide)
  obtain ⟨hwidth, hheight⟩ := hsides o ho
  refine ⟨hsettled _ _ hbase, o, ho, ?_, ?_⟩
  · rw [hwidth _ rfl rfl (Or.inl hbase)]
    decide
  · rw [hheight _ rfl rfl (Or.inl hbase)]
    decide

end Presentation

end PlotScene
