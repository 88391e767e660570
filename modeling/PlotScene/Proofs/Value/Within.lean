import PlotScene.Proofs.Value.Lookup

/-!
# Values inside values

Which values stand at some depth inside a value.  The way down goes through the items of lists and
the entries of mappings; arrays and columns have no values inside them.
-/

namespace PlotScene.Value

/-- The first value stands somewhere inside the second one, or is the second one itself. -/
inductive Within : Value → Value → Prop where
  | here (v : Value) : Within v v
  | item {w v : Value} {vs : List Value} : v ∈ vs → Within w v → Within w (.list vs)
  | entry {w v : Value} {k : Scalar} {es : Entries} :
      (k, v) ∈ es → Within w v → Within w (.map es)

theorem within_scalar {w : Value} {s : Scalar} : Within w (.scalar s) ↔ w = .scalar s := by
  constructor
  · intro h
    cases h
    rfl
  · rintro rfl
    exact Within.here _

theorem within_list {w : Value} {vs : List Value} :
    Within w (.list vs) ↔ w = .list vs ∨ ∃ v ∈ vs, Within w v := by
  constructor
  · intro h
    cases h with
    | here => exact Or.inl rfl
    | item hv h => exact Or.inr ⟨_, hv, h⟩
  · rintro (rfl | ⟨v, hv, h⟩)
    · exact Within.here _
    · exact Within.item hv h

theorem within_map {w : Value} {es : Entries} :
    Within w (.map es) ↔ w = .map es ∨ ∃ e ∈ es, Within w e.2 := by
  constructor
  · intro h
    cases h with
    | here => exact Or.inl rfl
    | entry hv h => exact Or.inr ⟨_, hv, h⟩
  · rintro (rfl | ⟨e, he, h⟩)
    · exact Within.here _
    · exact Within.entry he h

theorem within_obj {w : Value} {fields : List (String × Value)} :
    Within w (obj fields) ↔ w = obj fields ∨ ∃ f ∈ fields, Within w f.2 := by
  rw [obj, within_map]
  constructor
  · rintro (h | ⟨e, he, h⟩)
    · exact Or.inl h
    · obtain ⟨f, hf, rfl⟩ := List.mem_map.mp he
      exact Or.inr ⟨f, hf, h⟩
  · rintro (h | ⟨f, hf, h⟩)
    · exact Or.inl h
    · exact Or.inr ⟨_, List.mem_map.mpr ⟨f, hf, rfl⟩, h⟩

theorem Within.of_get? {w v x : Value} {key : String} (hx : v.get? key = some x)
    (h : Within w x) : Within w v := by
  cases v with
  | map es => exact Within.entry (Entries.mem_of_lookup? hx) h
  | _ => simp [get?] at hx

-- What stands inside a mapping after a write: the mapping itself, what stands inside the value
-- that was written, and what was inside before.
theorem Within.of_set {w v x : Value} {key : String} (h : Within w (v.set key x)) :
    w = v.set key x ∨ Within w x ∨ Within w v := by
  cases v with
  | map es =>
    rw [set, within_map] at h
    rcases h with h | ⟨e, he, h⟩
    · exact Or.inl h
    · rcases Entries.mem_put he with ⟨hx, -⟩ | hold
      · exact Or.inr (Or.inl (by rw [← hx]; exact h))
      · exact Or.inr (Or.inr (Within.entry hold h))
  | _ => exact Or.inr (Or.inr h)

end PlotScene.Value
