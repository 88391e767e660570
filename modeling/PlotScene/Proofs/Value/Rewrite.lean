import PlotScene.Proofs.Value.Lookup

/-!
# Rewriting the values of a mapping

A mapping can be rewritten value by value, in the way that each key asks for.  Keys and their order
stay as they are, so it makes no difference whether a field is written before or afterwards.
-/

namespace PlotScene

-- Scalars that are the same equal the same texts.
theorem Scalar.same_str_congr {a b : Scalar} (h : a.same b = true) (s : String) :
    a.same (.str s) = b.same (.str s) := by
  rw [Bool.eq_iff_iff, same_str_iff, same_str_iff]
  constructor
  · rintro rfl
    cases b <;> simp_all [same, quantity?]
  · rintro rfl
    exact (same_str_iff a s).mp h

namespace Entries

/-! ## 1. Entries -/

theorem put_of_lookup? {es : Entries} {key : String} {v : Value}
    (h : lookup? es (.str key) = some v) : put es (.str key) v = es := by
  induction es with
  | nil => cases h
  | cons e es ih =>
    obtain ⟨k, w⟩ := e
    rw [lookup?_cons] at h
    rw [put]
    split at h
    next hk => rw [if_pos hk, Option.some.inj h]
    next hk => rw [if_neg hk, ih h]

theorem put_put (es : Entries) (key : String) (v w : Value) :
    put (put es (.str key) v) (.str key) w = put es (.str key) w := by
  induction es with
  | nil => simp [put]
  | cons e es ih =>
    obtain ⟨k, x⟩ := e
    rw [put, put]
    split
    next hk => rw [put, if_pos hk]
    next hk => rw [put, if_neg hk, ih]

-- Two writes can be exchanged when one of them keeps the place that its key has.
theorem put_comm {es : Entries} {a b : String} (hab : a ≠ b)
    (ha : (lookup? es (.str a)).isSome = true) (v w : Value) :
    put (put es (.str b) w) (.str a) v = put (put es (.str a) v) (.str b) w := by
  induction es with
  | nil => cases ha
  | cons e es ih =>
    obtain ⟨k, x⟩ := e
    rw [lookup?_cons] at ha
    by_cases hka : k = .str a
    · subst hka
      have hkb : ¬ (Scalar.str a).same (.str b) = true := by simpa using hab
      rw [put, if_neg hkb, put, if_pos (by simp), put, if_pos (by simp), put, if_neg hkb]
    · have hka : ¬ k.same (.str a) = true := by rwa [Scalar.same_str_iff]
      rw [if_neg hka] at ha
      by_cases hkb : k.same (.str b) = true
      · rw [put, if_pos hkb, put, if_neg hka, put, if_neg hka, put, if_pos hkb]
      · rw [put, if_neg hkb, put, if_neg hka, put, if_neg hka, put, if_neg hkb, ih ha]

theorem erase_cons (k : Scalar) (v : Value) (es : Entries) (key : Scalar) :
    erase ((k, v) :: es) key = if k.same key then erase es key else (k, v) :: erase es key := by
  rw [erase, List.filter_cons]
  cases k.same key <;> rfl

theorem erase_put_self (es : Entries) (key : String) (v : Value) :
    erase (put es (.str key) v) (.str key) = erase es (.str key) := by
  induction es with
  | nil => simp [put, erase]
  | cons e es ih =>
    obtain ⟨k, x⟩ := e
    rw [put]
    split
    next hk => rw [erase_cons, if_pos hk, erase_cons, if_pos hk]
    next hk => rw [erase_cons, if_neg hk, erase_cons, if_neg hk, ih]

theorem erase_put_of_ne (es : Entries) {a b : String} (hab : a ≠ b) (v : Value) :
    erase (put es (.str a) v) (.str b) = put (erase es (.str b)) (.str a) v := by
  induction es with
  | nil => simp [put, erase, hab]
  | cons e es ih =>
    obtain ⟨k, x⟩ := e
    by_cases hka : k = .str a
    · subst hka
      have hb : ¬ (Scalar.str a).same (.str b) = true := by simpa using hab
      rw [put, if_pos (by simp), erase_cons, if_neg hb, erase_cons, if_neg hb, put,
        if_pos (by simp)]
    · have hka : ¬ k.same (.str a) = true := by rwa [Scalar.same_str_iff]
      rw [put, if_neg hka, erase_cons, erase_cons]
      split
      next => exact ih
      next => rw [put, if_neg hka, ih]

theorem same_eq_false_of_lookup?_none {es : Entries} {key : Scalar} (h : lookup? es key = none) :
    ∀ e ∈ es, e.1.same key = false := by
  induction es with
  | nil => exact List.forall_mem_nil _
  | cons e es ih =>
    obtain ⟨k, x⟩ := e
    rw [lookup?_cons] at h
    split at h
    next => cases h
    next hk => exact List.forall_mem_cons.mpr ⟨Bool.not_eq_true _ ▸ hk, ih h⟩

theorem erase_of_lookup?_none {es : Entries} {key : Scalar} (h : lookup? es key = none) :
    erase es key = es :=
  List.filter_eq_self.mpr fun e he => by rw [same_eq_false_of_lookup?_none h e he]; rfl

end Entries

namespace Value

/-! ## 2. Writes after writes -/

theorem set_of_get? {v x : Value} {key : String} (h : v.get? key = some x) : v.set key x = v := by
  cases v with
  | map es => exact congrArg Value.map (Entries.put_of_lookup? h)
  | _ => rfl

theorem set_set (v x y : Value) (key : String) : (v.set key x).set key y = v.set key y := by
  cases v with
  | map es => exact congrArg Value.map (Entries.put_put es key x y)
  | _ => rfl

theorem without_set_self (v x : Value) (key : String) :
    (v.set key x).without key = v.without key := by
  cases v with
  | map es => exact congrArg Value.map (Entries.erase_put_self es key x)
  | _ => rfl

theorem without_set_of_ne (v x : Value) {a b : String} (h : a ≠ b) :
    (v.set a x).without b = (v.without b).set a x := by
  cases v with
  | map es => exact congrArg Value.map (Entries.erase_put_of_ne es h x)
  | _ => rfl

theorem without_of_get?_none {v : Value} {key : String} (h : v.get? key = none) :
    v.without key = v := by
  cases v with
  | map es => exact congrArg Value.map (Entries.erase_of_lookup?_none h)
  | _ => rfl

theorem setAll_cons (v : Value) (f : String × Value) (fields : List (String × Value)) :
    v.setAll (f :: fields) = (v.set f.1 f.2).setAll fields := rfl

theorem setAll_append (v : Value) (fields more : List (String × Value)) :
    v.setAll (fields ++ more) = (v.setAll fields).setAll more := by
  rw [setAll, List.foldl_append]
  rfl

section

variable {fields : List (String × Value)} {key : String} (h : ∀ f ∈ fields, f.1 ≠ key)
include h

theorem get?_setAll_of_ne (v : Value) : (v.setAll fields).get? key = v.get? key := by
  induction fields generalizing v with
  | nil => rfl
  | cons f fields ih =>
    obtain ⟨hf, hfields⟩ := List.forall_mem_cons.mp h
    rw [setAll_cons, ih hfields, get?_set_of_ne _ _ hf]

-- A field that is there already can be written before or after others.
theorem set_setAll {v : Value} (hv : v.has key = true) (x : Value) :
    (v.setAll fields).set key x = (v.set key x).setAll fields := by
  induction fields generalizing v with
  | nil => rfl
  | cons f fields ih =>
    obtain ⟨hf, hfields⟩ := List.forall_mem_cons.mp h
    have hcomm : (v.set f.1 f.2).set key x = (v.set key x).set f.1 f.2 := by
      cases v with
      | map es => exact congrArg Value.map (Entries.put_comm hf.symm hv x f.2)
      | _ => rfl
    rw [setAll_cons, setAll_cons, ih hfields, hcomm]
    rwa [has, get?_set_of_ne _ _ hf]

theorem without_setAll (v : Value) :
    (v.setAll fields).without key = (v.without key).setAll fields := by
  induction fields generalizing v with
  | nil => rfl
  | cons f fields ih =>
    obtain ⟨hf, hfields⟩ := List.forall_mem_cons.mp h
    rw [setAll_cons, setAll_cons, ih hfields, without_set_of_ne v f.2 hf]

end

/-! ## 3. Rewriting -/

/-- A mapping with every value rewritten in the way that its key asks for. -/
def mapped (F : Scalar → Value → Value) : Value → Value
  | .map es => .map (es.map fun e => (e.1, F e.1 e.2))
  | v => v

variable {F : Scalar → Value → Value}

theorem mapped_congr {G : Scalar → Value → Value} {es : Entries}
    (h : ∀ e ∈ es, F e.1 e.2 = G e.1 e.2) : (Value.map es).mapped F = (Value.map es).mapped G := by
  have hes : es.map (fun e => (e.1, F e.1 e.2)) = es.map fun e => (e.1, G e.1 e.2) :=
    List.map_congr_left fun e he => by rw [h e he]
  exact congrArg Value.map hes

theorem mapped_eq_self {es : Entries} (h : ∀ e ∈ es, F e.1 e.2 = e.2) :
    (Value.map es).mapped F = .map es := by
  have hes : es.map (fun e => (e.1, F e.1 e.2)) = es.map id :=
    List.map_congr_left fun e he => by rw [h e he]; rfl
  exact congrArg Value.map (hes.trans (List.map_id es))

theorem mapped_mapped (G : Scalar → Value → Value) (v : Value) :
    (v.mapped G).mapped F = v.mapped fun k x => F k (G k x) := by
  cases v with
  | map es => exact congrArg Value.map List.map_map
  | _ => rfl

theorem mapped_put {es : Entries} {key : Scalar} {x : Value}
    (h : ∀ k, k.same key = true → F k x = F key x) :
    (Entries.put es key x).map (fun e => (e.1, F e.1 e.2)) =
      Entries.put (es.map fun e => (e.1, F e.1 e.2)) key (F key x) := by
  induction es with
  | nil => rfl
  | cons e es ih =>
    obtain ⟨k, w⟩ := e
    rw [Entries.put, List.map_cons, Entries.put]
    split
    next hk => rw [List.map_cons, h k hk]
    next => rw [List.map_cons, ih]

theorem mapped_set (v x : Value) (key : String) :
    (v.set key x).mapped F = (v.mapped F).set key (F (.str key) x) := by
  cases v with
  | map es =>
    refine congrArg Value.map (mapped_put fun k hk => ?_)
    rw [Scalar.same_str_iff] at hk
    rw [hk]
  | _ => rfl

theorem mapped_merged (h : ∀ a b x, a.same b = true → F a x = F b x) (v w : Value) :
    (v.merged w).mapped F = (v.mapped F).merged (w.mapped F) := by
  cases v with
  | map es =>
    cases w with
    | map more =>
      refine congrArg Value.map ?_
      unfold Entries.putAll
      induction more generalizing es with
      | nil => rfl
      | cons e more ih =>
        rw [List.foldl_cons, ih, List.map_cons, List.foldl_cons,
          mapped_put fun k hk => h k e.1 e.2 hk]
    | _ => rfl
  | _ => rfl

theorem mapped_setAll (v : Value) (fields : List (String × Value)) :
    (v.setAll fields).mapped F =
      (v.mapped F).setAll (fields.map fun f => (f.1, F (.str f.1) f.2)) := by
  induction fields generalizing v with
  | nil => rfl
  | cons f fields ih => rw [setAll_cons, ih, mapped_set, List.map_cons, setAll_cons]

theorem mapped_without (v : Value) (key : String) :
    (v.without key).mapped F = (v.mapped F).without key := by
  cases v with
  | map es =>
    rw [without, mapped, mapped, without, Entries.erase, Entries.erase, List.filter_map]
    rfl
  | _ => rfl

theorem mapped_obj (fields : List (String × Value)) :
    (obj fields).mapped F = obj (fields.map fun f => (f.1, F (.str f.1) f.2)) := by
  rw [obj, mapped, obj, List.map_map, List.map_map]
  rfl

theorem get?_mapped (v : Value) (key : String) :
    (v.mapped F).get? key = (v.get? key).map (F (.str key)) := by
  cases v with
  | map es =>
    rw [mapped, get?_map, get?_map]
    induction es with
    | nil => rfl
    | cons e es ih =>
      obtain ⟨k, w⟩ := e
      rw [List.map_cons, Entries.lookup?_cons, Entries.lookup?_cons]
      split
      next hk =>
        rw [Scalar.same_str_iff] at hk
        rw [hk]
        rfl
      next => exact ih
  | _ => rfl

/-- A mapping with the value under one key rewritten. -/
def adjust (key : String) (f : Value → Value) : Value → Value :=
  mapped fun k x => if k.same (.str key) then f x else x

variable {f : Value → Value} {key : String}

theorem adjust_set_self (v x : Value) :
    (v.set key x).adjust key f = (v.adjust key f).set key (f x) := by
  rw [adjust, mapped_set, if_pos (by simp)]

theorem adjust_set_of_ne (v x : Value) {k : String} (h : k ≠ key) :
    (v.set k x).adjust key f = (v.adjust key f).set k x := by
  rw [adjust, mapped_set, if_neg (by simpa using h)]

theorem get?_adjust_self (v : Value) : (v.adjust key f).get? key = (v.get? key).map f := by
  rw [adjust, get?_mapped]
  simp

theorem get?_adjust_of_ne (v : Value) {k : String} (h : k ≠ key) :
    (v.adjust key f).get? k = v.get? k := by
  rw [adjust, get?_mapped]
  simp [h]

theorem adjust_merged (v w : Value) :
    (v.merged w).adjust key f = (v.adjust key f).merged (w.adjust key f) :=
  mapped_merged (fun a b x hab => by rw [Scalar.same_str_congr hab]) v w

theorem adjust_of_get?_none {v : Value} (h : v.get? key = none) : v.adjust key f = v := by
  cases v with
  | map es =>
    refine mapped_eq_self fun e he => ?_
    rw [Entries.same_eq_false_of_lookup?_none h e he]
    rfl
  | _ => rfl

end Value

end PlotScene
