import PlotScene.Proofs.Double.Difference
import PlotScene.Numeric.Sequence

/-!
# Extremes and sorted samples

The lesser and the greater of two doubles in the order of doubles, and why samples at different
positions may come in any order.
-/

namespace PlotScene.Sequence

open Double

/-! ## 1. The lesser and the greater -/

theorem isNaN_cases (a b : Float) :
    (a.isNaN = true ∨ b.isNaN = true) ∨ (a.isNaN = false ∧ b.isNaN = false) := by
  cases a.isNaN <;> cases b.isNaN <;> simp

theorem isNaN_lesser {a b : Float} (h : a.isNaN = true ∨ b.isNaN = true) :
    (lesser a b).isNaN = true := by
  simp only [lesser, not_le_of_isNaN h, decide_false, Bool.false_or]
  split
  · assumption
  · next hne => exact h.resolve_left hne

theorem isNaN_greater {a b : Float} (h : a.isNaN = true ∨ b.isNaN = true) :
    (greater a b).isNaN = true := by
  simp only [greater, not_le_of_isNaN h.symm, decide_false, Bool.false_or]
  split
  · assumption
  · next hne => exact h.resolve_left hne

theorem lesser_eq {a b : Float} (ha : a.isNaN = false) :
    lesser a b = if a ≤ b then a else b := by
  simp only [lesser, ha, Bool.or_false, decide_eq_true_eq]

theorem greater_eq {a b : Float} (ha : a.isNaN = false) :
    greater a b = if b ≤ a then a else b := by
  simp only [greater, ha, Bool.or_false, decide_eq_true_eq]

theorem rank_lesser {a b : Float} (ha : a.isNaN = false) (hb : b.isNaN = false) :
    rank (lesser a b) = min (rank a) (rank b) := by
  simp only [lesser_eq ha, le_iff, ha, hb, true_and]
  split
  · next h => exact (min_eq_left h).symm
  · next h => exact (min_eq_right (le_of_not_ge h)).symm

theorem rank_greater {a b : Float} (ha : a.isNaN = false) (hb : b.isNaN = false) :
    rank (greater a b) = max (rank a) (rank b) := by
  simp only [greater_eq ha, le_iff, ha, hb, true_and]
  split
  · next h => exact (max_eq_left h).symm
  · next h => exact (max_eq_right (le_of_not_ge h)).symm

theorem alike_lesser_comm (a b : Float) : Alike (lesser a b) (lesser b a) := by
  rcases isNaN_cases a b with h | ⟨ha, hb⟩
  · exact .inr ⟨isNaN_lesser h, isNaN_lesser h.symm⟩
  · rw [alike_iff, rank_lesser ha hb, rank_lesser hb ha, min_comm]

theorem alike_greater_comm (a b : Float) : Alike (greater a b) (greater b a) := by
  rcases isNaN_cases a b with h | ⟨ha, hb⟩
  · exact .inr ⟨isNaN_greater h, isNaN_greater h.symm⟩
  · rw [alike_iff, rank_greater ha hb, rank_greater hb ha, max_comm]

/-- The bounds of a band at one point: in order, or both NaN. -/
def InOrder (lower upper : Float) : Prop :=
  lower ≤ upper ∨ lower.isNaN = true ∧ upper.isNaN = true

theorem inOrder_extremes (a b : Float) : InOrder (lesser a b) (greater a b) := by
  rcases isNaN_cases a b with h | ⟨ha, hb⟩
  · exact .inr ⟨isNaN_lesser h, isNaN_greater h⟩
  · left
    rw [lesser_eq ha, greater_eq ha]
    split
    · next hle =>
      split
      · exact le_self ha
      · exact hle
    · next hle =>
      have hge : b ≤ a := le_iff.mpr ⟨hb, ha, le_of_not_ge fun h => hle (le_iff.mpr ⟨ha, hb, h⟩)⟩
      rw [if_pos hge]
      exact hge

theorem inOrder_self (a : Float) : InOrder a a := by
  cases ha : a.isNaN
  · exact .inl (le_self ha)
  · exact .inr ⟨ha, ha⟩

/-! ## 2. Extremes of a list -/

-- A fold that keeps one of two items ends at one of the items.
theorem foldl_mem_cons {α : Type} {keep : α → α → α} (hkeep : ∀ a b, keep a b = a ∨ keep a b = b)
    (x : α) (rest : List α) : rest.foldl keep x ∈ x :: rest := by
  induction rest generalizing x with
  | nil => exact List.mem_singleton.mpr rfl
  | cons y rest ih =>
    rw [List.foldl_cons]
    rcases List.mem_cons.mp (ih (keep x y)) with heq | hmem
    · rw [heq]
      rcases hkeep x y with hk | hk
      · rw [hk]
        exact List.mem_cons_self
      · rw [hk]
        exact List.mem_cons_of_mem _ List.mem_cons_self
    · exact List.mem_cons_of_mem _ (List.mem_cons_of_mem _ hmem)

theorem mem_of_least? {xs : List Float} {low : Float} (h : least? xs = some low) : low ∈ xs := by
  cases xs with
  | nil => cases h
  | cons x xs =>
    obtain rfl := Option.some.inj h
    refine foldl_mem_cons (fun a b => ?_) x xs
    rw [lesser]
    split <;> simp

theorem mem_of_greatest? {xs : List Float} {high : Float} (h : greatest? xs = some high) :
    high ∈ xs := by
  cases xs with
  | nil => cases h
  | cons x xs =>
    obtain rfl := Option.some.inj h
    refine foldl_mem_cons (fun a b => ?_) x xs
    rw [greater]
    split <;> simp

theorem mem_finite {xs : List Float} {x : Float} :
    x ∈ finite xs ↔ x ∈ xs ∧ x.isFinite = true :=
  List.mem_filter

theorem lesser_le {a b : Float} (h : (lesser a b).isNaN = false) :
    lesser a b ≤ a ∧ lesser a b ≤ b := by
  rcases isNaN_cases a b with hnan | ⟨ha, hb⟩
  · exact absurd (h.symm.trans (isNaN_lesser hnan)) Bool.false_ne_true
  · have hrank := rank_lesser ha hb
    exact ⟨le_iff.mpr ⟨h, ha, hrank.trans_le (min_le_left _ _)⟩,
      le_iff.mpr ⟨h, hb, hrank.trans_le (min_le_right _ _)⟩⟩

theorem le_greater {a b : Float} (h : (greater a b).isNaN = false) :
    a ≤ greater a b ∧ b ≤ greater a b := by
  rcases isNaN_cases a b with hnan | ⟨ha, hb⟩
  · exact absurd (h.symm.trans (isNaN_greater hnan)) Bool.false_ne_true
  · have hrank := rank_greater ha hb
    exact ⟨le_iff.mpr ⟨ha, h, (le_max_left _ _).trans_eq hrank.symm⟩,
      le_iff.mpr ⟨hb, h, (le_max_right _ _).trans_eq hrank.symm⟩⟩

-- What the fold keeps, unless it is NaN, is related to every item that it has seen.
theorem rel_foldl {keep : Float → Float → Float} {R : Float → Float → Prop}
    (hnumber : ∀ {a b}, R a b → b.isNaN = false) (hself : ∀ {a}, a.isNaN = false → R a a)
    (htrans : ∀ {a b c}, R a b → R b c → R a c)
    (hkeep : ∀ {a b}, (keep a b).isNaN = false → R (keep a b) a ∧ R (keep a b) b)
    (xs : List Float) (x : Float) (h : (xs.foldl keep x).isNaN = false) :
    ∀ y ∈ x :: xs, R (xs.foldl keep x) y := by
  induction xs generalizing x with
  | nil =>
    intro y hy
    rw [List.mem_singleton.mp hy]
    exact hself h
  | cons z zs ih =>
    have hrest := ih (keep x z) h
    have hfirst := hrest _ List.mem_cons_self
    obtain ⟨hx, hz⟩ := hkeep (hnumber hfirst)
    intro y hy
    rcases List.mem_cons.mp hy with rfl | hy
    · exact htrans hfirst hx
    rcases List.mem_cons.mp hy with rfl | hy
    · exact htrans hfirst hz
    · exact hrest y (List.mem_cons_of_mem _ hy)

theorem least_le {xs : List Float} {low : Float} (h : least? xs = some low)
    (hlow : low.isNaN = false) : ∀ a ∈ xs, low ≤ a := by
  cases xs with
  | nil => cases h
  | cons x xs =>
    cases h
    exact rel_foldl (R := fun a b => a ≤ b) (fun h => (le_iff.mp h).2.1) le_self le_of_le_of_le
      lesser_le xs x hlow

theorem le_greatest {xs : List Float} {high : Float} (h : greatest? xs = some high)
    (hhigh : high.isNaN = false) : ∀ a ∈ xs, a ≤ high := by
  cases xs with
  | nil => cases h
  | cons x xs =>
    cases h
    exact rel_foldl (R := fun a b => b ≤ a) (fun h => (le_iff.mp h).1) le_self
      (fun h h' => le_of_le_of_le h' h) le_greater xs x hhigh

/-- The items of a list whose range is zero are equal. -/
theorem beq_of_constant {xs : List Float} (h : constant xs = true) :
    ∀ a ∈ xs, ∀ b ∈ xs, (a == b) = true := by
  unfold constant at h
  split at h
  · next low high hleast hgreatest =>
    obtain ⟨hhigh, hlow, hrank⟩ := beq_iff.mp (beq_of_sub_beq_zero h)
    have hall : ∀ a ∈ xs, a.isNaN = false ∧ rank a = rank low := fun a ha => by
      obtain ⟨_, hnumber, hle⟩ := le_iff.mp (least_le hleast hlow a ha)
      obtain ⟨_, _, hge⟩ := le_iff.mp (le_greatest hgreatest hhigh a ha)
      exact ⟨hnumber, le_antisymm (hge.trans_eq hrank) hle⟩
    intro a ha b hb
    obtain ⟨hanumber, harank⟩ := hall a ha
    obtain ⟨hbnumber, hbrank⟩ := hall b hb
    exact beq_iff.mpr ⟨hanumber, hbnumber, harank.trans hbrank.symm⟩
  · cases h

/-! ## 3. Sorted samples -/

theorem pairwise_ordered (samples : List (Float × Float)) :
    (ordered samples).Pairwise fun s t => rank s.1 ≤ rank t.1 := by
  have hle (s t : Float × Float) :
      (!before t.1 s.1) = true ↔ rank s.1 ≤ rank t.1 := by
    rw [Bool.not_eq_true', Bool.eq_false_iff, Ne, before_iff, not_lt]
  have hsorted : (ordered samples).Pairwise fun s t => (!before t.1 s.1) = true := by
    refine List.pairwise_mergeSort (fun r s t hrs hst => ?_) (fun s t => ?_) samples
    · exact (hle r t).mpr (((hle r s).mp hrs).trans ((hle s t).mp hst))
    · rw [Bool.or_eq_true, hle, hle]
      exact le_total _ _
  exact hsorted.imp fun {s t} hst => (hle s t).mp hst

theorem ordered_perm (samples : List (Float × Float)) : (ordered samples).Perm samples :=
  List.mergeSort_perm samples _

/-- Samples at different positions may come in any order. -/
theorem ordered_eq_of_perm {samples others : List (Float × Float)} (h : samples.Perm others)
    (hdifferent : (samples.map fun s => rank s.1).Nodup) : ordered samples = ordered others := by
  refine List.Perm.eq_of_pairwise (fun s t hs ht hst hts => ?_) (pairwise_ordered samples)
    (pairwise_ordered others) ((ordered_perm samples).trans (h.trans (ordered_perm others).symm))
  have hs' := (ordered_perm samples).mem_iff.mp hs
  have ht' := h.mem_iff.mpr ((ordered_perm others).mem_iff.mp ht)
  exact List.inj_on_of_nodup_map hdifferent hs' ht' (le_antisymm hst hts)

theorem interpolate_eq_of_perm {samples others : List (Float × Float)} (h : samples.Perm others)
    (hdifferent : (samples.map fun s => rank s.1).Nodup) (xs : List Float) :
    interpolate samples xs = interpolate others xs := by
  rw [interpolate, interpolate, ordered_eq_of_perm h hdifferent]

theorem ordered_pair (s t : Float × Float) :
    ordered [s, t] = if before t.1 s.1 then [t, s] else [s, t] := by
  have hmerge : ordered [s, t] = if !before t.1 s.1 then [s, t] else [t, s] := by
    simp [ordered, List.mergeSort, List.merge]
  rw [hmerge]
  cases before t.1 s.1 <;> rfl

@[simp]
theorem length_interpolate (samples : List (Float × Float)) (xs : List Float) :
    (interpolate samples xs).length = xs.length :=
  List.length_map _

end PlotScene.Sequence
