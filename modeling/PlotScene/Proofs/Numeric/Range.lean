import PlotScene.Proofs.Numeric.Grid
import PlotScene.Proofs.Outcome

/-!
# Numbers within the range of doubles

An integer beyond the range of doubles is the only scalar that cannot be made a double and is not
malformed for it.  A value without such integers is read as a grid or is malformed.
-/

namespace PlotScene

/-! ## 1. Values -/

def Scalar.inRange : Scalar → Bool
  | .int n => (Double.ofInt? n).isSome
  | _ => true

@[simp]
theorem Scalar.inRange_str (s : String) : (Scalar.str s).inRange = true := rfl

/-- A value in which every integer, be it a key, is within the range of doubles. -/
inductive Value.InRange : Value → Prop where
  | scalar {s : Scalar} : s.inRange = true → InRange (.scalar s)
  | list {vs : List Value} : (∀ v ∈ vs, InRange v) → InRange (.list vs)
  | column {vs : List Value} : (∀ v ∈ vs, InRange v) → InRange (.column vs)
  | map {es : Entries} : (∀ e ∈ es, e.1.inRange = true) → (∀ e ∈ es, InRange e.2) →
      InRange (.map es)
  | array (shape : List Nat) (cells : List Float) : InRange (.array shape cells)

namespace Value

@[simp]
theorem inRange_scalar {s : Scalar} : (Value.scalar s).InRange ↔ s.inRange = true := by
  constructor
  · intro h
    cases h
    assumption
  · exact InRange.scalar

@[simp]
theorem inRange_list {vs : List Value} : (Value.list vs).InRange ↔ ∀ v ∈ vs, v.InRange := by
  constructor
  · intro h
    cases h
    assumption
  · exact InRange.list

@[simp]
theorem inRange_obj {fields : List (String × Value)} :
    (obj fields).InRange ↔ ∀ f ∈ fields, f.2.InRange := by
  constructor
  · intro h f hf
    cases h with
    | map _ hes => exact hes _ (List.mem_map.mpr ⟨f, hf, rfl⟩)
  · intro h
    have hfield : ∀ e ∈ fields.map fun f => ((.str f.1, f.2) : Scalar × Value),
        e.1.inRange = true ∧ e.2.InRange := by
      intro e he
      obtain ⟨f, hf, rfl⟩ := List.mem_map.mp he
      exact ⟨rfl, h f hf⟩
    exact .map (fun e he => (hfield e he).1) fun e he => (hfield e he).2

theorem InRange.getD {v : Value} (h : v.InRange) (key : String) : (v.getD key).InRange := by
  cases hx : v.get? key with
  | none =>
    rw [getD_of_get?_none hx]
    exact .scalar rfl
  | some x =>
    rw [getD_of_get? hx]
    cases h with
    | map _ hes => exact hes _ (Entries.mem_of_lookup? hx)
    | _ => simp [get?] at hx

theorem inRange_of_mem_rows {shape : List Nat} {cells : List Float} {v : Value}
    (hv : v ∈ rows shape cells) : v.InRange := by
  match shape with
  | [] => cases hv
  | [_] =>
    obtain ⟨x, -, rfl⟩ := List.mem_map.mp hv
    exact .scalar rfl
  | _ :: _ :: _ =>
    obtain ⟨i, -, rfl⟩ := List.mem_map.mp hv
    exact .array _ _

theorem InRange.iterate {v : Value} (h : v.InRange) {vs : List Value} (hvs : v.iterate = .ok vs) :
    ∀ x ∈ vs, x.InRange := by
  intro x hx
  cases h with
  | list hall =>
    cases hvs
    exact hall x hx
  | column hall =>
    cases hvs
    exact hall x hx
  | map hkeys _ =>
    cases hvs
    obtain ⟨e, he, rfl⟩ := List.mem_map.mp hx
    exact .scalar (hkeys e he)
  | @scalar s _ =>
    cases s with
    | str s =>
      cases hvs
      obtain ⟨c, -, rfl⟩ := List.mem_map.mp hx
      exact .scalar rfl
    | _ => cases hvs
  | array shape cells =>
    cases shape with
    | nil => cases hvs
    | cons n inner =>
      cases hvs
      exact inRange_of_mem_rows hx

end Value

/-! ## 2. Grids -/

theorem Grid.cellsOfItems_ne_outOfRange {vs : List Value}
    (h : ∀ v ∈ vs, cellsOf v ≠ .error .outOfRange) : cellsOfItems vs ≠ .error .outOfRange := by
  induction vs with
  | nil => exact fun hc => by cases hc
  | cons v vs ih =>
    intro hc
    rw [cellsOfItems, bind_eq_error] at hc
    rcases hc with hc | ⟨first, -, hc⟩
    · exact h v List.mem_cons_self hc
    · rcases bind_eq_error.mp hc with hc | ⟨rest, -, hc⟩
      · exact ih (fun w hw => h w (List.mem_cons_of_mem _ hw)) hc
      · cases hc

theorem Grid.cellsOf_ne_outOfRange {v : Value} (h : v.InRange) :
    cellsOf v ≠ .error .outOfRange := by
  induction h with
  | list _ ih => exact cellsOfItems_ne_outOfRange ih
  | column _ ih => exact cellsOfItems_ne_outOfRange ih
  | map _ _ _ => exact fun hc => by cases hc
  | array shape cells => exact fun hc => by cases hc
  | @scalar s hs =>
    intro hc
    cases s with
    | int n =>
      obtain ⟨x, hx⟩ := Option.isSome_iff_exists.mp hs
      simp [cellsOf, Scalar.toDouble, hx, Except.map] at hc
    | str t =>
      simp only [cellsOf, Scalar.toDouble] at hc
      cases hx : Decimal.read? t <;> simp [hx, Except.map] at hc
    | _ => cases hc

theorem Grid.ofValue_ne_outOfRange {v : Value} (h : v.InRange) :
    ofValue v ≠ .error .outOfRange := by
  intro hv
  rw [ofValue] at hv
  split at hv
  · cases hc : cellsOf v with
    | ok cells => simp [hc, Except.map] at hv
    | error f =>
      rw [hc] at hv
      cases hv
      exact cellsOf_ne_outOfRange h hc
  · cases hv

end PlotScene
