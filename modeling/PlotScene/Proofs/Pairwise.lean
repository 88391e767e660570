import Mathlib.Data.List.Forall2

/-!
# Lists that agree item by item

What is known of the items of two lists that a relation holds between, place by place.
-/

namespace PlotScene

variable {α β : Type} {R : α → β → Prop} {xs : List α} {ys : List β}

theorem forall₂_getElem? (h : List.Forall₂ R xs ys) (i : Nat) :
    (xs[i]? = none ∧ ys[i]? = none) ∨ ∃ x y, xs[i]? = some x ∧ ys[i]? = some y ∧ R x y := by
  induction h generalizing i with
  | nil => exact Or.inl ⟨rfl, rfl⟩
  | @cons x y _ _ hxy _ ih =>
    cases i with
    | zero => exact Or.inr ⟨x, y, rfl, rfl, hxy⟩
    | succ i => exact ih i

theorem forall₂_of_forall (h : ∀ x ∈ xs, ∃ y, R x y) : ∃ ys, List.Forall₂ R xs ys := by
  induction xs with
  | nil => exact ⟨[], .nil⟩
  | cons x xs ih =>
    obtain ⟨y, hy⟩ := h x List.mem_cons_self
    obtain ⟨ys, hys⟩ := ih fun z hz => h z (List.mem_cons_of_mem _ hz)
    exact ⟨y :: ys, .cons hy hys⟩

theorem forall₂_mem_left (h : List.Forall₂ R xs ys) {x : α} (hx : x ∈ xs) : ∃ y ∈ ys, R x y := by
  induction h with
  | nil => cases hx
  | @cons x' y' _ _ hxy _ ih =>
    rcases List.mem_cons.mp hx with rfl | hx
    · exact ⟨y', List.mem_cons_self, hxy⟩
    · obtain ⟨y, hy, hr⟩ := ih hx
      exact ⟨y, List.mem_cons_of_mem _ hy, hr⟩

theorem forall₂_mem_right (h : List.Forall₂ R xs ys) {y : β} (hy : y ∈ ys) : ∃ x ∈ xs, R x y := by
  induction h with
  | nil => cases hy
  | @cons x' y' _ _ hxy _ ih =>
    rcases List.mem_cons.mp hy with rfl | hy
    · exact ⟨x', List.mem_cons_self, hxy⟩
    · obtain ⟨x, hx, hr⟩ := ih hy
      exact ⟨x, List.mem_cons_of_mem _ hx, hr⟩

-- What follows for related items may depend on where they stand.
theorem forall₂_imp_of_mem {S : α → β → Prop} (h : List.Forall₂ R xs ys)
    (hRS : ∀ x ∈ xs, ∀ y ∈ ys, R x y → S x y) : List.Forall₂ S xs ys := by
  induction h with
  | nil => exact .nil
  | cons hxy _ ih =>
    refine .cons (hRS _ List.mem_cons_self _ List.mem_cons_self hxy) ?_
    exact ih fun x hx y hy => hRS x (List.mem_cons_of_mem _ hx) y (List.mem_cons_of_mem _ hy)

-- Some of the items of one list are related to the matching ones of the other.
theorem exists_forall₂_filter (h : List.Forall₂ R xs ys) (p : β → Bool) :
    ∃ zs, zs.Sublist xs ∧ List.Forall₂ R zs (ys.filter p) := by
  induction h with
  | nil => exact ⟨[], .slnil, .nil⟩
  | @cons x y _ _ hxy _ ih =>
    obtain ⟨zs, hsub, hzs⟩ := ih
    rw [List.filter_cons]
    split
    · exact ⟨x :: zs, hsub.cons_cons x, .cons hxy hzs⟩
    · exact ⟨zs, hsub.cons x, hzs⟩

-- Two maps give the same list where they agree on items that are related.
theorem map_eq_of_forall₂ {γ : Type} {f : α → γ} {g : β → γ} (h : List.Forall₂ R xs ys)
    (hfg : ∀ x ∈ xs, ∀ y ∈ ys, R x y → f x = g y) : xs.map f = ys.map g := by
  induction h with
  | nil => rfl
  | cons hxy _ ih =>
    rw [List.map_cons, List.map_cons, hfg _ List.mem_cons_self _ List.mem_cons_self hxy,
      ih fun x hx y hy => hfg x (List.mem_cons_of_mem _ hx) y (List.mem_cons_of_mem _ hy)]

-- What two functions make of the same pairs is related where it is for every pair.
theorem forall₂_zipWith {γ δ : Type} {S : γ → δ → Prop} {f : α → β → γ} {g : α → β → δ}
    (h : ∀ x y, S (f x y) (g x y)) (xs : List α) (ys : List β) :
    List.Forall₂ S (xs.zipWith f ys) (xs.zipWith g ys) := by
  induction xs generalizing ys with
  | nil => exact .nil
  | cons x xs ih =>
    cases ys with
    | nil => exact .nil
    | cons y ys => exact .cons (h x y) (ih ys)

end PlotScene
