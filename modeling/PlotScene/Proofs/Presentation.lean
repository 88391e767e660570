import PlotScene.Proofs.Decimal.Notation
import PlotScene.Proofs.Presentation.Chosen
import PlotScene.Proofs.Value.Strict

/-!
# Dimensions

The width and the height of a plot are texts.  A text that was read from an option or from the
figure is the label of a finite number, and the one of the settings is an integer, so the number of
pixels that it spells is finite.
-/

namespace PlotScene

open Decimal

/-- Whatever the value spells, it is replaced by the label of a number. -/
theorem exists_of_dimension? {v : Value} {t : String} (h : dimension? v = some t) :
    ∃ x : Float, x.isFinite = true ∧ 0 < x ∧ (Scalar.float x).label = t := by
  have hlabel {s : String} (hs : (read? s).bind (fun x =>
      if x.isFinite && 0 < x then some (Scalar.float x).label else none) = some t) :
      ∃ x : Float, x.isFinite = true ∧ 0 < x ∧ (Scalar.float x).label = t := by
    obtain ⟨x, -, hx⟩ := Option.bind_eq_some_iff.mp hs
    split at hx
    next hcond =>
      rw [Bool.and_eq_true, decide_eq_true_eq] at hcond
      exact ⟨x, hcond.1, hcond.2, Option.some.inj hx⟩
    next => cases hx
  unfold dimension? at h
  split at h
  · cases h
  · exact hlabel h

theorem readsFinite_of_dimension? {v : Value} {t : String} (h : dimension? v = some t) :
    ReadsFinite t := by
  obtain ⟨x, hx, -, rfl⟩ := exists_of_dimension? h
  exact readsFinite_label hx

theorem readsFinite_dimensionOr {v : Value} {fallback : String} (h : ReadsFinite fallback) :
    ReadsFinite (dimensionOr v fallback) := by
  rw [dimensionOr]
  cases hd : dimension? v with
  | none => exact h
  | some t => exact readsFinite_of_dimension? hd

/-- Whatever the option and the figure hold, a chosen dimension reads back finite. -/
theorem readsFinite_chooseDimension {option figure : Option Value} {base : String}
    (h : ReadsFinite base) : ReadsFinite (Presentation.chooseDimension option figure base) := by
  apply readsFinite_dimensionOr
  cases figure with
  | none => exact h
  | some f => exact readsFinite_dimensionOr h

theorem isStrict_pixels {t : String} (h : ReadsFinite t) : (pixels t).isStrict = true := by
  rw [pixels]
  split
  next => rfl
  next x hx =>
    split
    next => rfl
    next => exact h x hx

/-- A presentation with a finite number of pixels along both sides, if it has a number at all. -/
structure Presentation.Strict (o : Presentation) : Prop where
  width : o.widthInPixels.isStrict = true
  height : o.heightInPixels.isStrict = true

theorem Presentation.strict_ofNamedValues {settings : Settings} {named : NamedValues}
    {plot : Option Plot} {o : Presentation} (h : ofNamedValues settings named plot = .ok o)
    (hw : (Double.ofInt? settings.defaultWidth).isSome = true)
    (hh : (Double.ofInt? settings.defaultHeight).isSome = true) : o.Strict := by
  have hchosen := chosen_of_ofNamedValues h
  have hbase {setting : Int} (hs : (Double.ofInt? setting).isSome = true) :
      ReadsFinite (toString setting) := readsFinite_toString (Double.isFinite_ofNat_of_ofInt? hs)
  constructor
  · rw [widthInPixels, hchosen.width]
    exact isStrict_pixels (readsFinite_chooseDimension (hbase hw))
  · rw [heightInPixels, hchosen.height]
    exact isStrict_pixels (readsFinite_chooseDimension (hbase hh))

end PlotScene
