import PlotScene.Value.Shape

/-!
# Looking up what was written

A mapping answers with the value that was last written under a key, and writing under one key leaves
the others alone.  Keys are texts here: a text equals no number.
-/

namespace PlotScene

theorem Scalar.same_str_iff (k : Scalar) (s : String) : k.same (.str s) = true ↔ k = .str s := by
  cases k <;> simp [same, quantity?]

theorem Scalar.same_str_false {k : Scalar} {s : String} (h : k ≠ .str s) :
    k.same (.str s) = false := by
  rw [← Bool.not_eq_true, same_str_iff]
  exact h

/-! ## 1. Entries -/

namespace Entries

theorem lookup?_cons (k : Scalar) (v : Value) (es : Entries) (key : Scalar) :
    lookup? ((k, v) :: es) key = if k.same key then some v else lookup? es key := rfl

theorem lookup?_put (es : Entries) (a b : String) (v : Value) :
    lookup? (put es (.str a) v) (.str b) = if a = b then some v else lookup? es (.str b) := by
  induction es with
  | nil => simp [put, lookup?]
  | cons e es ih =>
    obtain ⟨k, w⟩ := e
    rw [put]
    by_cases hk : k = .str a
    · subst hk
      rw [if_pos (by simp), lookup?_cons, lookup?_cons]
      by_cases hab : a = b <;> simp [hab]
    · rw [if_neg (by rw [Scalar.same_str_iff]; exact hk), lookup?_cons, lookup?_cons, ih]
      by_cases hb : k = .str b
      · subst hb
        have hba : a ≠ b := fun h => hk (by rw [h])
        simp [hba]
      · simp [Scalar.same_str_false hb]

theorem mem_of_lookup? {es : Entries} {key : String} {v : Value}
    (h : lookup? es (.str key) = some v) : (.str key, v) ∈ es := by
  induction es with
  | nil => simp [lookup?] at h
  | cons e es ih =>
    obtain ⟨k, w⟩ := e
    rw [lookup?_cons] at h
    split at h
    next hk =>
      rw [Scalar.same_str_iff] at hk
      obtain rfl := Option.some.inj h
      rw [hk]
      exact List.mem_cons_self
    next => exact List.mem_cons_of_mem _ (ih h)

-- What a write can leave in a mapping: the entry that was written, perhaps under the key that was
-- there, and entries that were there.
theorem mem_put {es : Entries} {key : Scalar} {v : Value} {e : Scalar × Value}
    (h : e ∈ put es key v) : e.2 = v ∧ (e.1 = key ∨ ∃ w, (e.1, w) ∈ es) ∨ e ∈ es := by
  induction es with
  | nil =>
    rw [put, List.mem_singleton] at h
    exact Or.inl (by rw [h]; exact ⟨rfl, Or.inl rfl⟩)
  | cons f es ih =>
    obtain ⟨k, w⟩ := f
    rw [put] at h
    split at h
    · rcases List.mem_cons.mp h with h | h
      · exact Or.inl (by rw [h]; exact ⟨rfl, Or.inr ⟨w, List.mem_cons_self⟩⟩)
      · exact Or.inr (List.mem_cons_of_mem _ h)
    · rcases List.mem_cons.mp h with h | h
      · exact Or.inr (by rw [h]; exact List.mem_cons_self)
      · rcases ih h with ⟨hv, hk⟩ | h
        · exact Or.inl ⟨hv, hk.imp id fun ⟨w, hw⟩ => ⟨w, List.mem_cons_of_mem _ hw⟩⟩
        · exact Or.inr (List.mem_cons_of_mem _ h)

-- A text is written under itself.
theorem mem_put_str {es : Entries} {key : String} {v : Value} {e : Scalar × Value}
    (h : e ∈ put es (.str key) v) : e = (.str key, v) ∨ e ∈ es := by
  induction es with
  | nil => exact Or.inl (List.mem_singleton.mp h)
  | cons f es ih =>
    obtain ⟨k, w⟩ := f
    rw [put] at h
    split at h
    next hk =>
      rw [Scalar.same_str_iff] at hk
      subst hk
      rcases List.mem_cons.mp h with h | h
      · exact Or.inl h
      · exact Or.inr (List.mem_cons_of_mem _ h)
    next =>
      rcases List.mem_cons.mp h with h | h
      · exact Or.inr (List.mem_cons.mpr (Or.inl h))
      · exact (ih h).imp_right (List.mem_cons_of_mem _)

end Entries

/-! ## 2. Values -/

namespace Value

@[simp]
theorem get?_obj_nil (key : String) : (obj []).get? key = none := rfl

@[simp]
theorem get?_obj_cons (k : String) (v : Value) (fields : List (String × Value)) (key : String) :
    (obj ((k, v) :: fields)).get? key = if k = key then some v else (obj fields).get? key := by
  simp [obj, get?, Entries.lookup?]

theorem get?_obj_eq_none {fields : List (String × Value)} {key : String}
    (h : ∀ f ∈ fields, f.1 ≠ key) : (obj fields).get? key = none := by
  induction fields with
  | nil => rfl
  | cons f fields ih =>
    obtain ⟨k, v⟩ := f
    have hk : k ≠ key := h (k, v) List.mem_cons_self
    rw [get?_obj_cons, if_neg hk]
    exact ih fun g hg => h g (List.mem_cons_of_mem _ hg)

theorem has_obj_eq_false {fields : List (String × Value)} {key : String}
    (h : ∀ f ∈ fields, f.1 ≠ key) : (obj fields).has key = false := by
  rw [has, get?_obj_eq_none h]
  rfl

@[simp]
theorem isMap_obj (fields : List (String × Value)) : (obj fields).isMap = true := rfl

@[simp]
theorem get?_map (es : Entries) (key : String) :
    (map es).get? key = Entries.lookup? es (.str key) := rfl

theorem isMap_of_get? {v x : Value} {key : String} (h : v.get? key = some x) : v.isMap = true := by
  cases v <;> simp_all [get?, isMap]

theorem get?_set (v x : Value) (a b : String) (hv : v.isMap = true) :
    (v.set a x).get? b = if a = b then some x else v.get? b := by
  cases v with
  | map es => exact Entries.lookup?_put es a b x
  | _ => simp [isMap] at hv

theorem get?_set_of_ne (v x : Value) {a b : String} (h : a ≠ b) :
    (v.set a x).get? b = v.get? b := by
  cases v with
  | map es => exact (Entries.lookup?_put es a b x).trans (if_neg h)
  | _ => rfl

theorem get?_set_self (v x : Value) (a : String) (hv : v.isMap = true) :
    (v.set a x).get? a = some x := by
  rw [get?_set v x a a hv, if_pos rfl]

theorem getD_set_of_ne (v x : Value) {a b : String} (h : a ≠ b) :
    (v.set a x).getD b = v.getD b := by
  rw [getD, getD, get?_set_of_ne v x h]

@[simp]
theorem isMap_set (v x : Value) (a : String) : (v.set a x).isMap = v.isMap := by
  cases v <;> rfl

theorem getD_of_get? {v x : Value} {key : String} (h : v.get? key = some x) :
    v.getD key = x := by
  rw [getD, h]
  rfl

theorem getD_of_get?_none {v : Value} {key : String} (h : v.get? key = none) :
    v.getD key = null := by
  rw [getD, h]
  rfl

-- A text under a key is known by comparing it.
theorem get?_of_same {v : Value} {key text : String} (h : (v.getD key).same (.str text) = true) :
    v.get? key = some (.str text) := by
  cases hx : v.get? key with
  | none =>
    rw [getD_of_get?_none hx] at h
    cases h
  | some x =>
    rw [getD_of_get? hx] at h
    cases x with
    | scalar k =>
      have hk : k.same (.str text) = true := h
      rw [Scalar.same_str_iff] at hk
      rw [hk]
    | _ => cases h

theorem get?_without_of_ne (v : Value) {a b : String} (h : a ≠ b) :
    (v.without a).get? b = v.get? b := by
  cases v with
  | map es =>
    simp only [without, get?_map, Entries.erase]
    induction es with
    | nil => rfl
    | cons e es ih =>
      obtain ⟨k, w⟩ := e
      rw [List.filter_cons]
      by_cases hk : k = .str a
      · subst hk
        rw [if_neg (by simp), ih, Entries.lookup?_cons, if_neg (by simpa using h)]
      · rw [if_pos (by simp [Scalar.same_str_false hk]), Entries.lookup?_cons, ih,
          Entries.lookup?_cons]
  | _ => rfl

/-! ## 3. Accessors that may fail -/

theorem field_of_isMap {v : Value} (h : v.isMap = true) (key : String) :
    v.field key = .ok (v.getD key) := by
  cases v with
  | map es => rfl
  | _ => simp [isMap] at h

theorem isMap_of_field {v x : Value} {key : String} (h : v.field key = .ok x) :
    v.isMap = true ∧ x = v.getD key := by
  cases v with
  | map es => exact ⟨rfl, (Except.ok.inj h).symm⟩
  | _ => simp [field] at h

theorem isMap_of_entry? {v : Value} {o : Option Value} {key : String} (h : v.entry? key = .ok o) :
    v.isMap = true ∧ o = v.get? key := by
  cases v with
  | map es => exact ⟨rfl, (Except.ok.inj h).symm⟩
  | _ => simp [ entry?] at h

theorem key_eq_ok {v : Value} {s : Scalar} (h : v.key = .ok s) : v = .scalar s := by
  cases v with
  | scalar t => rw [key, Except.ok.injEq] at h; rw [h]
  | _ => simp [key] at h

end Value

end PlotScene
