import PlotScene.Proofs.Value.Within
import PlotScene.Scene.Encoding

/-!
# What channels read

An encoding goes through scales and reads fields of data.  `Encodes F S v` says that every mapping
inside the encoding `v` that names a scale names one that is there, and reads a field that is there.
The predicate is compositional: it holds of an encoding when it holds of its parts.
-/

namespace PlotScene

/-- A mapping that goes through a scale: the scale is one of `S`, a field is one of `F`.  The color
scale of the observations is used only where the color can be read, so that rules about the color
can be added to it. -/
structure Channel (F S : String → Prop) (e : Value) : Prop where
  scale : ∃ n, e.get? "scale" = some (.str n) ∧ S n ∧ (n = "color" → F "color")
  field : ∀ x, e.get? "field" = some x → ∃ f, x = .str f ∧ F f

def Encodes (F S : String → Prop) (v : Value) : Prop :=
  ∀ e, Value.Within e v → e.has "scale" = true → Channel F S e

variable {F S F' S' : String → Prop}

theorem Channel.mono {e : Value} (h : Channel F S e) (hF : ∀ f, F f → F' f)
    (hS : ∀ n, S n → S' n) : Channel F' S' e := by
  obtain ⟨⟨n, hn, hs, hc⟩, hf⟩ := h
  refine ⟨⟨n, hn, hS n hs, fun h => hF _ (hc h)⟩, fun x hx => ?_⟩
  obtain ⟨f, rfl, hf⟩ := hf x hx
  exact ⟨f, rfl, hF f hf⟩

theorem Encodes.mono {v : Value} (h : Encodes F S v) (hF : ∀ f, F f → F' f)
    (hS : ∀ n, S n → S' n) : Encodes F' S' v :=
  fun e he hs => (h e he hs).mono hF hS

/-! ## 1. Parts of encodings -/

@[simp]
theorem encodes_scalar (s : Scalar) : Encodes F S (.scalar s) := by
  intro e he hs
  rw [Value.within_scalar] at he
  rw [he] at hs
  cases hs

@[simp]
theorem encodes_list {vs : List Value} : Encodes F S (.list vs) ↔ ∀ v ∈ vs, Encodes F S v := by
  constructor
  · intro h v hv e he
    exact h e (Value.Within.item hv he)
  · intro h e he hs
    rcases Value.within_list.mp he with rfl | ⟨v, hv, he⟩
    · cases hs
    · exact h v hv e he hs

theorem encodes_obj {fields : List (String × Value)} :
    Encodes F S (.obj fields) ↔
      ((Value.obj fields).has "scale" = true → Channel F S (.obj fields)) ∧
        ∀ f ∈ fields, Encodes F S f.2 := by
  constructor
  · intro h
    exact ⟨h _ (Value.Within.here _), fun f hf e he =>
      h e (Value.within_obj.mpr (Or.inr ⟨f, hf, he⟩))⟩
  · rintro ⟨hown, hparts⟩ e he hs
    rcases Value.within_obj.mp he with rfl | ⟨f, hf, he⟩
    · exact hown hs
    · exact hparts f hf e he hs

-- A mapping that names no scale encodes what its entries do.
theorem encodes_group {fields : List (String × Value)}
    (h : (Value.obj fields).has "scale" = false) :
    Encodes F S (.obj fields) ↔ ∀ f ∈ fields, Encodes F S f.2 := by
  rw [encodes_obj, h]
  simp

theorem encodes_enter {channels : List (String × Value)}
    (h : (Value.obj channels).has "scale" = false) :
    Encodes F S (.obj [("enter", .obj channels)]) ↔ ∀ c ∈ channels, Encodes F S c.2 := by
  rw [encodes_group rfl, ← encodes_group h]
  simp

@[simp]
theorem encodes_constant {v : Value} : Encodes F S (constant v) ↔ Encodes F S v := by
  rw [constant, encodes_group rfl]
  simp

@[simp]
theorem encodes_signalRef (s : String) : Encodes F S (signalRef s) := by
  rw [signalRef, encodes_group rfl]
  simp

@[simp]
theorem encodes_scaled {n f : String} {more : List (String × Value)} :
    Encodes F S (scaled n f more) ↔
      S n ∧ (n = "color" → F "color") ∧ F f ∧ ∀ m ∈ more, Encodes F S m.2 := by
  rw [scaled, encodes_obj]
  constructor
  · rintro ⟨hown, hparts⟩
    obtain ⟨⟨k, hk, hs, hc⟩, hf⟩ := hown rfl
    obtain rfl : n = k := by simpa using hk
    obtain ⟨g, hg, hF⟩ := hf (.str f) rfl
    obtain rfl : f = g := by simpa using hg
    exact ⟨hs, hc, hF, fun m hm => hparts m (List.mem_append_right _ hm)⟩
  · rintro ⟨hs, hc, hf, hmore⟩
    refine ⟨fun _ => ⟨⟨n, rfl, hs, hc⟩, fun x hx => ?_⟩, fun m hm => ?_⟩
    · obtain rfl := Option.some.inj (show some (Value.str f) = some x from hx)
      exact ⟨f, rfl, hf⟩
    · rcases List.mem_append.mp hm with hm | hm
      · simp only [List.mem_cons, List.not_mem_nil, or_false] at hm
        rcases hm with rfl | rfl <;> exact encodes_scalar _
      · exact hmore m hm

-- A mapping that names a scale other than the color scale and no field.
theorem encodes_unfielded {n key : String} {s : Scalar} (hn : n ≠ "color") (hk : key ≠ "field") :
    Encodes F S (.obj [("scale", .str n), (key, .scalar s)]) ↔ S n := by
  rw [encodes_obj]
  constructor
  · rintro ⟨hown, -⟩
    obtain ⟨⟨k, hk, hs, -⟩, -⟩ := hown rfl
    obtain rfl : n = k := by simpa using hk
    exact hs
  · intro hs
    refine ⟨fun _ => ⟨⟨n, rfl, hs, fun h => absurd h hn⟩, fun x hx => ?_⟩, ?_⟩
    · simp [hk] at hx
    · simp

@[simp]
theorem encodes_zeroBaseline : Encodes F S zeroBaseline ↔ S "yscale" :=
  encodes_unfielded (by decide) (by decide)

/-! ## 2. Writing into encodings -/

theorem Encodes.set {v x : Value} {key : String} (h : Encodes F S v) (hx : Encodes F S x)
    (hscale : key ≠ "scale") (hfield : key ≠ "field") : Encodes F S (v.set key x) := by
  intro e he hs
  rcases Value.Within.of_set he with rfl | he | he
  · rw [Value.has, Value.get?_set_of_ne v x hscale] at hs
    obtain ⟨hown, hf⟩ := h v (Value.Within.here v) hs
    refine ⟨?_, ?_⟩
    · rw [Value.get?_set_of_ne v x hscale]
      exact hown
    · rw [Value.get?_set_of_ne v x hfield]
      exact hf
  · exact hx e he hs
  · exact h e he hs

theorem Encodes.of_get? {v x : Value} {key : String} (h : Encodes F S v)
    (hx : v.get? key = some x) : Encodes F S x :=
  fun e he hs => h e (Value.Within.of_get? hx he) hs

theorem Encodes.getD {v : Value} (h : Encodes F S v) (key : String) : Encodes F S (v.getD key) := by
  cases hx : v.get? key with
  | some x =>
    rw [Value.getD_of_get? hx]
    exact h.of_get? hx
  | none =>
    rw [Value.getD_of_get?_none hx]
    exact encodes_scalar _

end PlotScene
