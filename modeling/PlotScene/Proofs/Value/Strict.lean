import PlotScene.Datum
import PlotScene.Proofs.Value.Lookup

/-!
# Strict values

A value is strict when it is built from scalars, lists and mappings alone and no double in it, be it
a key, is infinite or NaN.
-/

namespace PlotScene

def Scalar.isStrict : Scalar → Bool
  | .float x => x.isFinite
  | _ => true

-- What is plain is strict.
@[simp]
theorem Scalar.isStrict_plain (s : Scalar) : s.plain.isStrict = true := by
  cases s with
  | float x =>
    rw [plain]
    split
    next h => exact h
    next => rfl
  | _ => rfl

namespace Value

inductive Strict : Value → Prop where
  | scalar {s : Scalar} : s.isStrict = true → Strict (.scalar s)
  | list {vs : List Value} : (∀ v ∈ vs, Strict v) → Strict (.list vs)
  | map {es : Entries} : (∀ e ∈ es, e.1.isStrict = true) → (∀ e ∈ es, Strict e.2) →
      Strict (.map es)

/-! ## 1. Values by their form -/

@[simp]
theorem strict_scalar {s : Scalar} : Strict (.scalar s) ↔ s.isStrict = true := by
  constructor
  · intro h
    cases h
    assumption
  · exact Strict.scalar

@[simp]
theorem strict_list {vs : List Value} : Strict (.list vs) ↔ ∀ v ∈ vs, Strict v := by
  constructor
  · intro h
    cases h
    assumption
  · exact Strict.list

theorem strict_map {es : Entries} :
    Strict (.map es) ↔ ∀ e ∈ es, e.1.isStrict = true ∧ Strict e.2 := by
  constructor
  · intro h
    cases h with
    | map hk hv => exact fun e he => ⟨hk e he, hv e he⟩
  · exact fun h => Strict.map (fun e he => (h e he).1) fun e he => (h e he).2

@[simp]
theorem strict_obj {fields : List (String × Value)} :
    Strict (obj fields) ↔ ∀ f ∈ fields, Strict f.2 := by
  rw [obj, strict_map]
  constructor
  · exact fun h f hf => (h _ (List.mem_map.mpr ⟨f, hf, rfl⟩)).2
  · intro h e he
    obtain ⟨f, hf, rfl⟩ := List.mem_map.mp he
    exact ⟨rfl, h f hf⟩

@[simp]
theorem isStrict_str (s : String) : (Scalar.str s).isStrict = true := rfl

@[simp]
theorem isStrict_int (n : Int) : (Scalar.int n).isStrict = true := rfl

@[simp]
theorem isStrict_bool (b : Bool) : (Scalar.bool b).isStrict = true := rfl

@[simp]
theorem isStrict_null : Scalar.null.isStrict = true := rfl

@[simp]
theorem isStrict_float (x : Float) : (Scalar.float x).isStrict = x.isFinite := rfl

@[simp]
theorem strict_strings (texts : List String) : Strict (strings texts) := by
  apply Strict.list
  intro v hv
  obtain ⟨s, -, rfl⟩ := List.mem_map.mp hv
  exact Strict.scalar rfl

@[simp]
theorem strict_plain_scalar (s : Scalar) : Strict (plain (.scalar s)) :=
  Strict.scalar s.isStrict_plain

/-! ## 2. Mappings -/

theorem Strict.of_get? {v x : Value} {key : String} (h : Strict v) (hx : v.get? key = some x) :
    Strict x := by
  cases v with
  | map es => exact (strict_map.mp h _ (Entries.mem_of_lookup? hx)).2
  | _ => simp [get?] at hx

theorem Strict.getD {v : Value} (h : Strict v) (key : String) : Strict (v.getD key) := by
  cases hx : v.get? key with
  | some x =>
    rw [getD_of_get? hx]
    exact h.of_get? hx
  | none =>
    rw [getD_of_get?_none hx]
    exact Strict.scalar rfl

theorem Strict.put {es : Entries} (h : Strict (.map es)) {key : Scalar} {x : Value}
    (hk : key.isStrict = true) (hx : Strict x) : Strict (.map (es.put key x)) := by
  apply strict_map.mpr
  intro e he
  rcases Entries.mem_put he with ⟨hv, hkey⟩ | hold
  · rw [hv]
    rcases hkey with hkey | ⟨w, hw⟩
    · rw [hkey]
      exact ⟨hk, hx⟩
    · exact ⟨(strict_map.mp h _ hw).1, hx⟩
  · exact strict_map.mp h e hold

theorem Strict.set {v x : Value} (h : Strict v) (hx : Strict x) (key : String) :
    Strict (v.set key x) := by
  cases v with
  | map es => exact h.put rfl hx
  | _ => exact h

theorem Strict.setAll {v : Value} (h : Strict v) {fields : List (String × Value)}
    (hf : ∀ f ∈ fields, Strict f.2) : Strict (v.setAll fields) := by
  induction fields generalizing v with
  | nil => exact h
  | cons f fields ih =>
    exact ih (h.set (hf f List.mem_cons_self) f.1) fun g hg => hf g (List.mem_cons_of_mem _ hg)

theorem Strict.without {v : Value} (h : Strict v) (key : String) : Strict (v.without key) := by
  cases v with
  | map es => exact strict_map.mpr fun e he => strict_map.mp h e (List.mem_filter.mp he).1
  | _ => exact h

theorem Strict.putAll {es more : Entries} (h : Strict (.map es)) (hm : Strict (.map more)) :
    Strict (.map (es.putAll more)) := by
  induction more generalizing es with
  | nil => exact h
  | cons e more ih =>
    rw [strict_map] at hm
    obtain ⟨⟨hk, hv⟩, hmore⟩ := List.forall_mem_cons.mp hm
    exact ih (h.put hk hv) (strict_map.mpr hmore)

theorem Strict.merged {v w : Value} (h : Strict v) (hw : Strict w) : Strict (v.merged w) := by
  cases v with
  | map es =>
    cases w with
    | map more => exact h.putAll hw
    | _ => exact h
  | _ => exact h

end Value

/-! ## 3. Doubles at every depth -/

/-- The double that a scalar is, if it is one. -/
def Scalar.floats : Scalar → List Float
  | .float x => [x]
  | _ => []

namespace Value

mutual

/-- All doubles of a value, at every depth: those of keys, arrays and columns too. -/
def floats : Value → List Float
  | .scalar s => s.floats
  | .list vs => itemFloats vs
  | .map es => entryFloats es
  | .array _ cells => cells
  | .column vs => itemFloats vs

def itemFloats : List Value → List Float
  | [] => []
  | v :: vs => floats v ++ itemFloats vs

def entryFloats : List (Scalar × Value) → List Float
  | [] => []
  | (k, v) :: es => k.floats ++ floats v ++ entryFloats es

end

theorem finite_of_isStrict {s : Scalar} (h : s.isStrict = true) :
    ∀ x ∈ s.floats, x.isFinite = true := by
  cases s with
  | float x => exact List.forall_mem_singleton.mpr h
  | _ => exact List.forall_mem_nil _

theorem finite_itemFloats {vs : List Value} (h : ∀ v ∈ vs, ∀ x ∈ v.floats, x.isFinite = true) :
    ∀ x ∈ itemFloats vs, x.isFinite = true := by
  induction vs with
  | nil => exact List.forall_mem_nil _
  | cons v vs ih =>
    obtain ⟨hv, hrest⟩ := List.forall_mem_cons.mp h
    rw [itemFloats]
    exact List.forall_mem_append.mpr ⟨hv, ih hrest⟩

theorem finite_entryFloats {es : Entries} (hk : ∀ e ∈ es, e.1.isStrict = true)
    (hv : ∀ e ∈ es, ∀ x ∈ e.2.floats, x.isFinite = true) :
    ∀ x ∈ entryFloats es, x.isFinite = true := by
  induction es with
  | nil => exact List.forall_mem_nil _
  | cons e es ih =>
    obtain ⟨hk, hks⟩ := List.forall_mem_cons.mp hk
    obtain ⟨hv, hvs⟩ := List.forall_mem_cons.mp hv
    rw [entryFloats]
    exact List.forall_mem_append.mpr
      ⟨List.forall_mem_append.mpr ⟨finite_of_isStrict hk, hv⟩, ih hks hvs⟩

/-- No double of a strict value is infinite or NaN. -/
theorem Strict.finite {v : Value} (h : Strict v) : ∀ x ∈ v.floats, x.isFinite = true := by
  induction h with
  | scalar hs => exact finite_of_isStrict hs
  | list _ ih => exact finite_itemFloats ih
  | map hk _ ih => exact finite_entryFloats hk ih

end Value

end PlotScene
