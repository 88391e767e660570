import PlotScene.Proofs.Scene.Shaped
import PlotScene.Proofs.Value.Rewrite

/-!
# Marks with other encodings

The encodings of a mark can be rewritten, together with those of the marks inside it.  Giving marks
the rules of a legend is such a rewriting, and everything else that is done to marks leaves their
encodings alone.
-/

namespace PlotScene

variable {g : Value → Value}

/-! ## 1. Rewriting encodings at every depth -/

mutual

/-- A mark with its encodings rewritten, and those of the marks inside it, at every depth. -/
def recoded (g : Value → Value) : Value → Value
  | .map es => .map (recodedEntries g es)
  | v => v

def recodedEntries (g : Value → Value) : List (Scalar × Value) → List (Scalar × Value)
  | [] => []
  | (k, v) :: es =>
      let here :=
        if k.same (.str "encode") then g v
        else if k.same (.str "marks") then recodedInside g v
        else v
      (k, here) :: recodedEntries g es

def recodedInside (g : Value → Value) : Value → Value
  | .list vs => .list (recodedMarks g vs)
  | v => v

def recodedMarks (g : Value → Value) : List Value → List Value
  | [] => []
  | v :: vs => recoded g v :: recodedMarks g vs

end

/-- What becomes of the value under a key of a mark. -/
def recodedAt (g : Value → Value) (k : Scalar) (v : Value) : Value :=
  if k.same (.str "encode") then g v
  else if k.same (.str "marks") then recodedInside g v
  else v

theorem recoded_eq (g : Value → Value) (m : Value) : recoded g m = m.mapped (recodedAt g) := by
  cases m with
  | map es =>
    rw [recoded, Value.mapped]
    congr 1
    induction es with
    | nil => rfl
    | cons e es ih =>
      obtain ⟨k, v⟩ := e
      rw [recodedEntries, List.map_cons, ← ih]
      rfl
  | _ => rfl

theorem recodedInside_list (g : Value → Value) (vs : List Value) :
    recodedInside g (.list vs) = .list (vs.map (recoded g)) := by
  rw [recodedInside]
  congr 1
  induction vs with
  | nil => rfl
  | cons v vs ih => rw [recodedMarks, List.map_cons, ih]

@[simp]
theorem recodedAt_encode (v : Value) : recodedAt g (.str "encode") v = g v := rfl

@[simp]
theorem recodedAt_marks (vs : List Value) :
    recodedAt g (.str "marks") (.list vs) = .list (vs.map (recoded g)) :=
  recodedInside_list g vs

theorem recodedAt_of_ne {key : String} (h : key ∉ ["encode", "marks"]) (v : Value) :
    recodedAt g (.str key) v = v := by
  simp only [List.mem_cons, List.not_mem_nil, or_false, not_or] at h
  rw [recodedAt, if_neg (by simpa using h.1), if_neg (by simpa using h.2)]

/-! ## 2. Marks whose encodings have mappings as their updates -/

/-- Encodings can get updates, and the marks inside are a list, in every entry and at every depth.
-/
inductive TakesRules : Value → Prop where
  | mk {es : Entries} : (∀ e ∈ es, e.1 = .str "encode" → Updatable e.2) →
      (∀ e ∈ es, e.1 = .str "marks" → ∃ ms, e.2 = .list ms) →
      (∀ e ∈ es, e.1 = .str "marks" → ∀ m ∈ e.2.items, TakesRules m) → TakesRules (.map es)

theorem Shaped.takesRules {m : Value} (h : Shaped m) : TakesRules m := by
  induction h with
  | mk hfits _ ih => exact .mk (fun e he => (hfits e he).encode) (fun e he => (hfits e he).marks) ih

-- Two ways to rewrite an entry agree when they agree on encodings and on the marks inside.
theorem recodedAt_congr {F : Value → Value} {k : Scalar} {v : Value}
    (hencode : k = .str "encode" → F v = g v) (hlist : k = .str "marks" → ∃ vs, v = .list vs)
    (hinside : k = .str "marks" → ∀ m ∈ v.items, recoded F m = recoded g m) :
    recodedAt F k v = recodedAt g k v := by
  rw [recodedAt, recodedAt]
  split
  next hk =>
    rw [Scalar.same_str_iff] at hk
    exact hencode hk
  next =>
    split
    next hk =>
      rw [Scalar.same_str_iff] at hk
      obtain ⟨vs, rfl⟩ := hlist hk
      have hvs : ∀ m ∈ vs, recoded F m = recoded g m := hinside hk
      rw [recodedInside_list, recodedInside_list, List.map_congr_left hvs]
    next => rfl

namespace TakesRules

variable {m : Value} (h : TakesRules m)
include h

theorem recoded_congr {F : Value → Value} (hg : ∀ e, Updatable e → F e = g e) :
    recoded F m = recoded g m := by
  induction h with
  | mk hencode hlist _ ih =>
    rw [recoded_eq, recoded_eq]
    exact Value.mapped_congr fun e he =>
      recodedAt_congr (fun hk => hg e.2 (hencode e he hk)) (hlist e he) (ih e he)

theorem recoded_id : recoded id m = m := by
  induction h with
  | @mk es _ hlist _ ih =>
    rw [recoded_eq]
    refine Value.mapped_eq_self fun e he => ?_
    rw [recodedAt]
    split
    next => rfl
    next =>
      split
      next hk =>
        rw [Scalar.same_str_iff] at hk
        obtain ⟨vs, hvs⟩ := hlist e he hk
        have hinside : vs.map (recoded id) = vs.map id :=
          List.map_congr_left (by simpa [hvs, Value.items] using ih e he hk)
        rw [hvs, recodedInside_list, hinside, List.map_id]
      next => rfl

theorem recoded_recoded (F g : Value → Value) :
    recoded F (recoded g m) = recoded (fun e => F (g e)) m := by
  induction h with
  | @mk es _ hlist _ ih =>
    rw [recoded_eq, recoded_eq, recoded_eq, Value.mapped_mapped]
    refine Value.mapped_congr fun e he => ?_
    simp only [recodedAt]
    split
    next => rfl
    next =>
      split
      next hk =>
        rw [Scalar.same_str_iff] at hk
        obtain ⟨vs, hvs⟩ := hlist e he hk
        have hinside : vs.map (recoded F ∘ recoded g) = vs.map (recoded fun e => F (g e)) :=
          List.map_congr_left (by simpa [hvs, Value.items] using ih e he hk)
        rw [hvs, recodedInside_list, recodedInside_list, recodedInside_list, List.map_map, hinside]
      next => rfl

end TakesRules

-- A rewriting that keeps updates mappings keeps marks that can get rules.
theorem takesRules_recoded (hg : ∀ e, Updatable e → Updatable (g e)) {m : Value}
    (h : TakesRules m) : TakesRules (recoded g m) := by
  induction h with
  | @mk es hencode hlist _ ih =>
    rw [recoded_eq]
    refine .mk (List.forall_mem_map.mpr fun e he hk => ?_) (List.forall_mem_map.mpr fun e he hk => ?_)
      (List.forall_mem_map.mpr fun e he hk => ?_)
    · rw [show e.1 = .str "encode" from hk, recodedAt_encode]
      exact hg _ (hencode e he hk)
    · obtain ⟨ms, hms⟩ := hlist e he hk
      rw [show e.1 = .str "marks" from hk, hms, recodedAt_marks]
      exact ⟨_, rfl⟩
    · obtain ⟨ms, hms⟩ := hlist e he hk
      have hinside := ih e he hk
      rw [hms] at hinside
      rw [show e.1 = .str "marks" from hk, hms, recodedAt_marks]
      exact List.forall_mem_map.mpr hinside

theorem shaped_recoded (hg : ∀ e, Updatable e → Updatable (g e)) {m : Value} (h : Shaped m) :
    Shaped (recoded g m) := by
  induction h with
  | @mk es hfits _ ih =>
    rw [recoded_eq]
    refine .mk (List.forall_mem_map.mpr fun e he => ?_) (List.forall_mem_map.mpr fun e he hk => ?_)
    · have hfit := hfits e he
      refine ⟨fun hk => ?_, fun hk => ?_, fun hk => ?_, fun hk => ?_⟩
      · rw [show e.1 = .str "name" from hk, recodedAt_of_ne (by decide)]
        exact hfit.name hk
      · rw [show e.1 = .str "encode" from hk, recodedAt_encode]
        exact hg _ (hfit.encode hk)
      · rw [show e.1 = .str "scales" from hk, recodedAt_of_ne (by decide)]
        exact hfit.scales hk
      · obtain ⟨ms, hms⟩ := hfit.marks hk
        rw [show e.1 = .str "marks" from hk, hms, recodedAt_marks]
        exact ⟨_, rfl⟩
    · obtain ⟨ms, hms⟩ := (hfits e he).marks hk
      have hinside := ih e he hk
      rw [hms] at hinside
      rw [show e.1 = .str "marks" from hk, hms, recodedAt_marks]
      exact List.forall_mem_map.mpr hinside

/-! ## 3. What is done to marks -/

theorem recoded_obj (fields : List (String × Value)) :
    recoded g (.obj fields) = .obj (fields.map fun f => (f.1, recodedAt g (.str f.1) f.2)) := by
  rw [recoded_eq, Value.mapped_obj]

theorem recoded_set_encode (m x : Value) :
    recoded g (m.set "encode" x) = (recoded g m).set "encode" (g x) := by
  rw [recoded_eq, Value.mapped_set, ← recoded_eq, recodedAt_encode]

theorem recoded_set {key : String} (h : key ∉ ["encode", "marks"]) (m x : Value) :
    recoded g (m.set key x) = (recoded g m).set key x := by
  rw [recoded_eq, Value.mapped_set, ← recoded_eq, recodedAt_of_ne h]

theorem recoded_without (m : Value) (key : String) :
    recoded g (m.without key) = (recoded g m).without key := by
  rw [recoded_eq, Value.mapped_without, ← recoded_eq]

theorem recoded_named (name : String) (m : Value) :
    recoded g (named name m) = named name (recoded g m) := by
  rw [recoded_eq, recoded_eq]
  cases m <;> rfl

theorem recoded_readingFrom (m : Value) (source : String) :
    recoded g (readingFrom m source) = readingFrom (recoded g m) source :=
  recoded_set (by decide) m _

theorem recoded_facetMark (name facet source : String) (groupBy m : Value) :
    recoded g (facetMark name facet source groupBy m) =
      facetMark name facet source groupBy (recoded g m) := by
  rw [facetMark, facetMark, recoded_obj, ← recoded_readingFrom]
  simp [recodedAt_of_ne]

theorem recoded_groupedMark (c : Coloring) (severalName facet oneName source : String) (m : Value) :
    recoded g (groupedMark c severalName facet oneName source m) =
      groupedMark c severalName facet oneName source (recoded g m) := by
  rw [groupedMark, groupedMark]
  split
  · exact recoded_facetMark severalName facet source _ m
  · exact recoded_named oneName m

/-! ## 4. The rules of a legend -/

namespace Highlight

variable {neutral : String}

/-- The updates of an encoding, or none. -/
def updates (encoding : Value) : Value :=
  (encoding.get? "update").getD (.map [])

/-- An encoding with the rules for its colored channels, where its updates are a mapping. -/
def ruled (neutral : String) (encoding : Value) : Value :=
  let channels := coloredChannels (encoding.getD "enter")
  if channels = [] then encoding
  else encoding.set "update" (channels.foldl (withRules neutral) (updates encoding))

theorem isMap_updates {encoding : Value} (h : Updatable encoding) :
    (updates encoding).isMap = true := by
  rw [updates]
  cases hu : encoding.get? "update" with
  | none => rfl
  | some u => exact h u hu

theorem updatable_ruled {e : Value} (h : Updatable e) : Updatable (ruled neutral e) := by
  rw [ruled]
  split
  · exact h
  · exact Updatable.set (isMap_foldl_withRules (isMap_updates h))

theorem encode_eq_ruled {encoding : Value} (h : Updatable encoding) :
    encode neutral encoding = .ok (ruled neutral encoding) := by
  have hupdate : ((encoding.get? "update").getD (.map [])).isMap = true := isMap_updates h
  rw [encode, ruled]
  dsimp only
  split
  next hnil => rw [if_pos hnil]
  next hne => rw [if_pos hupdate, if_neg fun hnil => hne hnil]; rfl

theorem marks_eq_map {f : Value → Value} {vs : List Value}
    (h : ∀ v ∈ vs, mark neutral v = .ok (f v)) : marks neutral vs = .ok (vs.map f) := by
  induction vs with
  | nil => rfl
  | cons v vs ih =>
    obtain ⟨hv, hvs⟩ := List.forall_mem_cons.mp h
    rw [marks, hv, ok_bind, ih hvs, ok_bind]
    rfl

theorem entries_eq_map {es : Entries}
    (hencode : ∀ e ∈ es, e.1 = .str "encode" → Updatable e.2)
    (hlist : ∀ e ∈ es, e.1 = .str "marks" → ∃ ms, e.2 = .list ms)
    (hin : ∀ e ∈ es, e.1 = .str "marks" →
      ∀ m ∈ e.2.items, mark neutral m = .ok (recoded (ruled neutral) m)) :
    entries neutral es = .ok (es.map fun e => (e.1, recodedAt (ruled neutral) e.1 e.2)) := by
  induction es with
  | nil => rfl
  | cons e es ih =>
    obtain ⟨k, v⟩ := e
    obtain ⟨hupdates, hencode⟩ := List.forall_mem_cons.mp hencode
    obtain ⟨hitems, hlist⟩ := List.forall_mem_cons.mp hlist
    obtain ⟨hmarks, hin⟩ := List.forall_mem_cons.mp hin
    refine entries_cons ?_ (ih hencode hlist hin)
    rw [recodedAt]
    split
    next hk =>
      rw [Scalar.same_str_iff] at hk
      exact encode_eq_ruled (hupdates hk)
    next =>
      split
      next hk =>
        rw [Scalar.same_str_iff] at hk
        obtain ⟨vs, rfl⟩ := hitems hk
        have hvs : ∀ m ∈ vs, mark neutral m = .ok (recoded (ruled neutral) m) := hmarks hk
        rw [recodedInside_list, children, marks_eq_map hvs]
        rfl
      next => rfl

/-- A mark gets its rules by rewriting its encodings. -/
theorem mark_eq_recoded {m : Value} (h : TakesRules m) :
    mark neutral m = .ok (recoded (ruled neutral) m) := by
  induction h with
  | mk hencode hlist _ ih =>
    rw [mark, entries_eq_map hencode hlist ih, recoded_eq]
    rfl

theorem shaped_ruled {m : Value} (h : Shaped m) (neutral : String) :
    Shaped (recoded (ruled neutral) m) :=
  shaped_recoded (fun _ => updatable_ruled) h

/-- Shaped marks get their rules, and are shaped afterwards. -/
theorem marks_answer_of_shaped (neutral : String) {vs : List Value} (h : ∀ v ∈ vs, Shaped v) :
    ∃ ms, marks neutral vs = .ok ms ∧ ∀ m ∈ ms, Shaped m :=
  ⟨_, marks_eq_map fun v hv => mark_eq_recoded (h v hv).takesRules,
    List.forall_mem_map.mpr fun v hv => shaped_ruled (h v hv) neutral⟩

/-- A rewriting of encodings that can be done before or after the rules. -/
def Neutral (g : Value → Value) : Prop :=
  ∀ neutral e, Updatable e → g (ruled neutral e) = ruled neutral (g e)

/-- Marks that agree up to such a rewriting agree up to it with their rules as well. -/
theorem recoded_ruled {m m' : Value} (hg : Neutral g) (hm : TakesRules m) (hm' : TakesRules m')
    (h : recoded g m = recoded g m') :
    recoded g (recoded (ruled neutral) m) = recoded g (recoded (ruled neutral) m') := by
  have hswap {m : Value} (hm : TakesRules m) :
      recoded g (recoded (ruled neutral) m) = recoded (ruled neutral) (recoded g m) := by
    rw [hm.recoded_recoded, hm.recoded_recoded]
    exact hm.recoded_congr fun e he => hg neutral e he
  rw [hswap hm, hswap hm', h]

end Highlight

end PlotScene
