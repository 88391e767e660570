import PlotScene.Proofs.Reference.Formed
import PlotScene.Proofs.Scene.Highlight

/-!
# Marks that can be highlighted and read

In a shaped mark the names, encodings, scales and marks have the form that the rules of a legend and
the check of references expect, in every entry and at every depth.  Together with what it reads,
such a mark is well-formed.
-/

namespace PlotScene

open Reference

/-! ## 1. The shape of a mark -/

/-- An encoding with updates has them as a mapping. -/
def Updatable (encoding : Value) : Prop :=
  ∀ u, encoding.get? "update" = some u → u.isMap = true

/-- What may stand under a key of a mark, as far as only the value itself is concerned. -/
structure FitsKey (key : Scalar) (v : Value) : Prop where
  name : key = .str "name" → IsScalar v
  encode : key = .str "encode" → Updatable v
  scales : key = .str "scales" → ∃ cs, v = .list cs ∧ ∀ c ∈ cs, FormedScale c
  marks : key = .str "marks" → ∃ ms, v = .list ms

/-- All entries of a mark fit their keys, and so do those of the marks inside it. -/
inductive Shaped : Value → Prop where
  | mk {es : Entries} : (∀ e ∈ es, FitsKey e.1 e.2) →
      (∀ e ∈ es, e.1 = .str "marks" → ∀ m ∈ e.2.items, Shaped m) → Shaped (.map es)

theorem fitsKey_str {key : String} {v : Value} : FitsKey (.str key) v ↔
    (key = "name" → IsScalar v) ∧ (key = "encode" → Updatable v) ∧
      (key = "scales" → ∃ cs, v = .list cs ∧ ∀ c ∈ cs, FormedScale c) ∧
      (key = "marks" → ∃ ms, v = .list ms) := by
  constructor
  · intro h
    exact ⟨fun hk => h.name (congrArg _ hk), fun hk => h.encode (congrArg _ hk),
      fun hk => h.scales (congrArg _ hk), fun hk => h.marks (congrArg _ hk)⟩
  · rintro ⟨hname, hencode, hscales, hmarks⟩
    exact ⟨fun hk => hname (Scalar.str.inj hk), fun hk => hencode (Scalar.str.inj hk),
      fun hk => hscales (Scalar.str.inj hk), fun hk => hmarks (Scalar.str.inj hk)⟩

@[simp]
theorem isScalar_scalar (s : Scalar) : IsScalar (.scalar s) := ⟨s, rfl⟩

/-- The keys of a mark at which its entries are looked at. -/
def shapedKeys : List String := ["name", "encode", "scales", "marks"]

theorem FitsKey.of_not_mem {key : String} (hk : key ∉ shapedKeys) (v : Value) :
    FitsKey (.str key) v := by
  simp only [shapedKeys, List.mem_cons, List.not_mem_nil, or_false, not_or] at hk
  simp [fitsKey_str, hk]

theorem fitsKey_encode {v : Value} (h : Updatable v) : FitsKey (.str "encode") v := by
  simpa [fitsKey_str] using h

theorem fitsKey_name (s : String) : FitsKey (.str "name") (.str s) := by
  simp [fitsKey_str]

theorem fitsKey_marks (ms : List Value) : FitsKey (.str "marks") (.list ms) := by
  simp [fitsKey_str]

namespace Shaped

variable {m : Value}

theorem isMap (h : Shaped m) : m.isMap = true := by
  cases h
  rfl

theorem fits_of_get? (h : Shaped m) {key : String} {x : Value} (hx : m.get? key = some x) :
    FitsKey (.str key) x := by
  cases h with
  | mk hfits _ => exact hfits _ (Entries.mem_of_lookup? hx)

theorem inside (h : Shaped m) : ∀ c ∈ inside m, Shaped c := by
  intro c hc
  cases h with
  | @mk es _ hmarks =>
    rw [Reference.inside] at hc
    cases hx : (Value.map es).get? "marks" with
    | none =>
      rw [Value.getD_of_get?_none hx] at hc
      cases hc
    | some x =>
      rw [Value.getD_of_get? hx] at hc
      exact hmarks _ (Entries.mem_of_lookup? hx) rfl c hc

/-! ## 2. Making marks -/

theorem ofObj {fields : List (String × Value)} (h : ∀ f ∈ fields, FitsKey (.str f.1) f.2)
    (hmarks : ∀ f ∈ fields, f.1 = "marks" → ∀ m ∈ f.2.items, Shaped m) :
    Shaped (.obj fields) := by
  constructor
  · exact List.forall_mem_map.mpr h
  · refine List.forall_mem_map.mpr fun f hf hkey => ?_
    exact hmarks f hf (Scalar.str.inj hkey)

-- A mark without marks inside it.
theorem leaf {fields : List (String × Value)} (h : ∀ f ∈ fields, FitsKey (.str f.1) f.2)
    (hmarks : ∀ f ∈ fields, f.1 ≠ "marks") : Shaped (.obj fields) :=
  ofObj h fun f hf hkey => absurd hkey (hmarks f hf)

-- A write under a key where no marks stand.
theorem set (h : Shaped m) {key : String} {x : Value} (hx : FitsKey (.str key) x)
    (hk : key ≠ "marks") : Shaped (m.set key x) := by
  cases h with
  | mk hfits hmarks =>
    constructor
    · intro e he
      rcases Entries.mem_put_str he with rfl | he
      · exact hx
      · exact hfits e he
    · intro e he hkey
      rcases Entries.mem_put_str he with rfl | he
      · exact absurd (Scalar.str.inj hkey) hk
      · exact hmarks e he hkey

theorem without (h : Shaped m) (key : String) : Shaped (m.without key) := by
  cases h with
  | mk hfits hmarks =>
    constructor
    · exact fun e he => hfits e (List.mem_filter.mp he).1
    · exact fun e he => hmarks e (List.mem_filter.mp he).1

theorem named (h : Shaped m) (name : String) : Shaped (named name m) := by
  cases h with
  | mk hfits hmarks =>
    exact ⟨List.forall_mem_cons.mpr ⟨fitsKey_name name, hfits⟩,
      List.forall_mem_cons.mpr ⟨by simp, hmarks⟩⟩

theorem readingFrom (h : Shaped m) (source : String) : Shaped (readingFrom m source) :=
  h.set (FitsKey.of_not_mem (by decide) _) (by decide)

end Shaped

theorem updatable_obj {fields : List (String × Value)}
    (h : ∀ f ∈ fields, f.1 = "update" → f.2.isMap = true) : Updatable (.obj fields) := by
  intro u hu
  obtain ⟨f, hf, he⟩ := List.mem_map.mp (Entries.mem_of_lookup? hu)
  obtain ⟨hkey, rfl⟩ := Prod.mk.inj he
  exact h f hf (Scalar.str.inj hkey)

theorem Updatable.set {e x : Value} (hx : x.isMap = true) : Updatable (e.set "update" x) := by
  intro u hu
  have he : e.isMap = true := by
    rw [← Value.isMap_set e x "update"]
    exact Value.isMap_of_get? hu
  rw [Value.get?_set_self e x "update" he] at hu
  rw [← Option.some.inj hu]
  exact hx

theorem Updatable.mappingOr {e : Value} (h : Updatable e) : Updatable (mappingOr e) := by
  rw [PlotScene.mappingOr]
  split
  · exact h
  · intro u hu
    cases hu

theorem isMap_mappingOr (v : Value) : (mappingOr v).isMap = true := by
  rw [mappingOr]
  split
  next h => exact h
  next => rfl

theorem Shaped.updatable {m : Value} (h : Shaped m) : Updatable (m.getD "encode") := by
  cases hx : m.get? "encode" with
  | none =>
    rw [Value.getD_of_get?_none hx]
    intro u hu
    cases hu
  | some x =>
    rw [Value.getD_of_get? hx]
    exact (h.fits_of_get? hx).encode rfl

theorem Shaped.withTooltip {m : Value} (h : Shaped m) (p : Presentation) (expression : String) :
    Shaped (withTooltip m p expression) := by
  rw [PlotScene.withTooltip]
  split
  · refine h.set (fitsKey_encode (Updatable.set ?_)) (by decide)
    rw [Value.isMap_set]
    exact isMap_mappingOr _
  · exact h.set (fitsKey_encode h.updatable.mappingOr) (by decide)

theorem shaped_facetMark {m : Value} (h : Shaped m) (name facet source : String)
    (groupBy : Value) : Shaped (facetMark name facet source groupBy m) := by
  refine Shaped.ofObj ?_ ?_
  · simp only [List.forall_mem_cons]
    exact ⟨fitsKey_name name, .of_not_mem (by decide) _, .of_not_mem (by decide) _,
      fitsKey_marks _, List.forall_mem_nil _⟩
  · intro f hf hkey c hc
    obtain rfl : f = ("marks", .list [readingFrom m facet]) := by
      simp only [List.mem_cons, List.not_mem_nil, or_false] at hf
      rcases hf with rfl | rfl | rfl | rfl <;> simp at hkey ⊢
    obtain rfl := List.mem_singleton.mp hc
    exact h.readingFrom facet

theorem shaped_groupedMark {m : Value} (h : Shaped m) (c : Coloring)
    (severalName facet oneName source : String) :
    Shaped (groupedMark c severalName facet oneName source m) := by
  rw [groupedMark]
  split
  · exact shaped_facetMark h _ _ _ _
  · exact h.named oneName

/-! ## 3. Rules -/

namespace Highlight

variable {neutral : String}

theorem isMap_foldl_withRules {channels : List String} {update : Value}
    (h : update.isMap = true) : (channels.foldl (withRules neutral) update).isMap = true := by
  induction channels generalizing update with
  | nil => exact h
  | cons channel channels ih =>
    apply ih
    rw [withRules, Value.isMap_set, Value.isMap_set]
    exact h

theorem entries_cons {k : Scalar} {v here : Value} {es rest : Entries}
    (hhere : (if k.same (.str "encode") then encode neutral v
        else if k.same (.str "marks") then children neutral v
        else pure v) = .ok here) (hrest : entries neutral es = .ok rest) :
    entries neutral ((k, v) :: es) = .ok ((k, here) :: rest) := by
  rw [entries]
  split at hhere
  next hk =>
    rw [if_pos hk, hhere, hrest]
    rfl
  next hk =>
    rw [if_neg hk]
    split at hhere
    next hk' =>
      rw [if_pos hk', hhere, hrest]
      rfl
    next hk' =>
      rw [if_neg hk', hhere, hrest]
      rfl

end Highlight

/-! ## 4. Well-formed marks -/

theorem Shaped.formedMark {V : View} {m : Value} (h : Shaped m) (hr : MarkReads V m) :
    FormedMark m := by
  have hname : IsScalar (m.getD "name") := by
    cases hx : m.get? "name" with
    | none =>
      rw [Value.getD_of_get?_none hx]
      exact isScalar_scalar .null
    | some x =>
      rw [Value.getD_of_get? hx]
      exact (h.fits_of_get? hx).name rfl
  have hlisted : Listed m "scales" ∧ Listed m "marks" := by
    constructor
    · intro x hx
      obtain ⟨cs, hcs, -⟩ := (h.fits_of_get? hx).scales rfl
      exact ⟨cs, hcs⟩
    · intro x hx
      exact (h.fits_of_get? hx).marks rfl
  have hscales : ∀ c ∈ parts m "scales", FormedScale c := by
    intro c hc
    cases hx : m.get? "scales" with
    | none =>
      rw [parts_of_get?_none hx] at hc
      cases hc
    | some x =>
      obtain ⟨cs, rfl, hcs⟩ := (h.fits_of_get? hx).scales rfl
      rw [parts_of_get? hx] at hc
      exact hcs c hc
  -- The source that a mark reads, or the one that it splits, is known from what it reads.
  cases hr with
  | flat hfrom _ _ =>
    refine ⟨h.isMap, hname, Or.inr ?_, ?_, fun g hg => ?_, hlisted, hscales⟩
    · rw [hfrom]
      rfl
    · rw [hfrom]
      exact isScalar_scalar _
    · rw [facetOf?, hfrom] at hg
      cases hg
  | @facet _ _ g name source _ _ hfrom hgname hgdata =>
    refine ⟨h.isMap, hname, Or.inr ?_, ?_, fun g' hg => ?_, hlisted, hscales⟩
    · rw [hfrom]
      rfl
    · rw [hfrom]
      exact isScalar_scalar .null
    · obtain rfl := Option.some.inj ((facetOf?_of_from hfrom hgname).symm.trans hg)
      rw [Value.getD_of_get? hgname, Value.getD_of_get? hgdata]
      exact ⟨isScalar_scalar _, isScalar_scalar _⟩

theorem shaped_at {ms as : List Value} {m : Value} (h : ∀ v ∈ ms, Shaped v)
    (hm : MarkAt ms as m) : Shaped m := by
  induction hm with
  | top hm => exact h _ hm
  | within _ hm ih => exact ih.inside _ hm

/-- Shaped marks that read within a view are well-formed at every depth. -/
theorem formedMark_at {V : View} {ms as : List Value} {m : Value} (h : ∀ v ∈ ms, Shaped v)
    (hr : ∀ v ∈ ms, MarkReads V v) (hm : MarkAt ms as m) : FormedMark m := by
  obtain ⟨W, -, hreads⟩ := markReads_at (P := fun _ _ => True) hr trivial
    (fun _ _ _ _ _ _ _ _ _ _ => trivial) hm
  exact (shaped_at h hm).formedMark hreads

end PlotScene
