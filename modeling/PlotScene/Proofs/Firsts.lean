import Mathlib.Data.List.Forall2
import Mathlib.Data.List.Induction
import PlotScene.Firsts

/-!
# First occurrences, kept

Every item that is kept was there, and for every item that was there one with its key is kept or was
seen before.  Where keys that are the same are equal, what is kept can be told without the keys that
were seen on the way: it is the items before which no item has their key.
-/

namespace PlotScene

variable {α β κ : Type} [BEq κ] {key : α → κ}

theorem firstsAfter_cons (seen : List κ) (x : α) (xs : List α) :
    firstsAfter key seen (x :: xs) =
      if seen.contains (key x) then firstsAfter key seen xs
      else x :: firstsAfter key (key x :: seen) xs := rfl

theorem mem_of_mem_firstsAfter {seen : List κ} {x : α} {xs : List α}
    (h : x ∈ firstsAfter key seen xs) : x ∈ xs := by
  induction xs generalizing seen with
  | nil => cases h
  | cons y ys ih =>
    rw [firstsAfter_cons] at h
    split at h
    · exact List.mem_cons_of_mem _ (ih h)
    · rcases List.mem_cons.mp h with rfl | h
      · exact List.mem_cons_self
      · exact List.mem_cons_of_mem _ (ih h)

-- A key need not equal itself, as NaN does not, so this is asked of the item.
theorem exists_mem_firstsAfter {x : α} {xs : List α} (seen : List κ) (h : x ∈ xs)
    (hrefl : (key x == key x) = true) :
    seen.contains (key x) = true ∨ ∃ y ∈ firstsAfter key seen xs, (key x == key y) = true := by
  induction xs generalizing seen with
  | nil => cases h
  | cons y ys ih =>
    rw [firstsAfter_cons]
    split
    next hseen =>
      rcases List.mem_cons.mp h with rfl | h
      · exact Or.inl hseen
      · exact ih seen h
    next =>
      rcases List.mem_cons.mp h with rfl | h
      · exact Or.inr ⟨x, List.mem_cons_self, hrefl⟩
      · rcases ih (key y :: seen) h with hs | ⟨z, hz, he⟩
        · rw [List.contains_cons, Bool.or_eq_true] at hs
          rcases hs with hs | hs
          · exact Or.inr ⟨y, List.mem_cons_self, hs⟩
          · exact Or.inl hs
        · exact Or.inr ⟨z, List.mem_cons_of_mem _ hz, he⟩

theorem firstsAfter_map (f : β → α) (seen : List κ) (xs : List β) :
    firstsAfter key seen (xs.map f) = (firstsAfter (fun x => key (f x)) seen xs).map f := by
  induction xs generalizing seen with
  | nil => rfl
  | cons x xs ih =>
    rw [List.map_cons, firstsAfter_cons, firstsAfter_cons]
    split
    · exact ih seen
    · rw [ih, List.map_cons]

-- Keys may be read in another way, as long as the same ones stay the same.
theorem firstsAfter_relabel {ι : Type} [BEq ι] {key' : α → ι} {f : κ → ι}
    (hf : ∀ a b, (f a == f b) = (a == b)) {xs : List α} (hkey : ∀ x ∈ xs, key' x = f (key x))
    (seen : List κ) : firstsAfter key' (seen.map f) xs = firstsAfter key seen xs := by
  have hseen (seen : List κ) (k : κ) : (seen.map f).contains (f k) = seen.contains k := by
    induction seen with
    | nil => rfl
    | cons l seen ih => rw [List.map_cons, List.contains_cons, List.contains_cons, ih, hf]
  induction xs generalizing seen with
  | nil => rfl
  | cons x xs ih =>
    obtain ⟨hx, hxs⟩ := List.forall_mem_cons.mp hkey
    rw [firstsAfter_cons, firstsAfter_cons, hx, hseen]
    split
    · exact ih hxs seen
    · rw [← ih hxs (key x :: seen), List.map_cons]

-- Whether items are the same does not change under a map, and so neither does which are first.
theorem firsts_map {α β : Type} [BEq α] [BEq β] {f : α → β}
    (hf : ∀ a b, (f a == f b) = (a == b)) (xs : List α) :
    firsts (xs.map f) = (firsts xs).map f := by
  have hkeys : firstsAfter f [] xs = firstsAfter id [] xs :=
    firstsAfter_relabel hf (fun _ _ => rfl) []
  rw [firsts, firstsBy, firstsAfter_map]
  exact congrArg (List.map f) hkeys

-- Which items are first depends on their keys alone.
theorem firstsAfter_forall₂ {R : α → β → Prop} {key' : β → κ} {xs : List α} {ys : List β}
    (hkey : ∀ x y, R x y → key x = key' y) (h : List.Forall₂ R xs ys) (seen : List κ) :
    List.Forall₂ R (firstsAfter key seen xs) (firstsAfter key' seen ys) := by
  induction h generalizing seen with
  | nil => exact .nil
  | cons hxy _ ih =>
    rw [firstsAfter_cons, firstsAfter_cons, hkey _ _ hxy]
    split
    · exact ih seen
    · exact .cons hxy (ih _)

-- Where all keys are new, nothing is left out.
theorem firstsAfter_eq_self {seen : List κ} {xs : List α}
    (hseen : ∀ x ∈ xs, seen.contains (key x) = false)
    (hxs : xs.Pairwise fun x y => (key y == key x) = false) : firstsAfter key seen xs = xs := by
  induction xs generalizing seen with
  | nil => rfl
  | cons x xs ih =>
    obtain ⟨hx, hxs⟩ := List.pairwise_cons.mp hxs
    have hrest : ∀ y ∈ xs, (key x :: seen).contains (key y) = false := by
      intro y hy
      rw [List.contains_cons, hx y hy, hseen y (List.mem_cons_of_mem _ hy)]
      rfl
    rw [firstsAfter_cons, hseen x List.mem_cons_self, if_neg Bool.false_ne_true, ih hrest hxs]

/-! ## Keys that are equal when they are the same -/

section

variable [LawfulBEq κ]

-- Only which keys were seen counts, and not in which order or how often.
theorem firstsAfter_congr {seen seen' : List κ} (h : ∀ k, k ∈ seen ↔ k ∈ seen') (xs : List α) :
    firstsAfter key seen xs = firstsAfter key seen' xs := by
  induction xs generalizing seen seen' with
  | nil => rfl
  | cons x xs ih =>
    have hx : seen.contains (key x) = seen'.contains (key x) := by
      rw [Bool.eq_iff_iff, List.contains_iff_mem, List.contains_iff_mem, h]
    have hcons : ∀ k, k ∈ key x :: seen ↔ k ∈ key x :: seen' := by
      intro k
      rw [List.mem_cons, List.mem_cons, h]
    rw [firstsAfter_cons, firstsAfter_cons, hx, ih h, ih hcons]

-- Of a second list only the keys that the first one does not have count.
theorem firstsAfter_append (seen : List κ) (xs ys : List α) :
    firstsAfter key seen (xs ++ ys) =
      firstsAfter key seen xs ++ firstsAfter key (xs.map key ++ seen) ys := by
  induction xs generalizing seen with
  | nil => rfl
  | cons x xs ih =>
    rw [List.cons_append, firstsAfter_cons, firstsAfter_cons, List.map_cons, List.cons_append]
    split
    next hx =>
      have hmem : key x ∈ seen := List.contains_iff_mem.mp hx
      have hsame : ∀ k, k ∈ xs.map key ++ seen ↔ k ∈ key x :: (xs.map key ++ seen) := by grind
      rw [ih, firstsAfter_congr hsame ys]
    next =>
      have hsame : ∀ k, k ∈ xs.map key ++ key x :: seen ↔ k ∈ key x :: (xs.map key ++ seen) := by
        grind
      rw [ih, firstsAfter_congr hsame ys, List.cons_append]

-- Items whose keys were all seen add nothing.
theorem firstsAfter_eq_nil {seen : List κ} {xs : List α} (h : ∀ x ∈ xs, key x ∈ seen) :
    firstsAfter key seen xs = [] := by
  induction xs with
  | nil => rfl
  | cons x xs ih =>
    obtain ⟨hx, hxs⟩ := List.forall_mem_cons.mp h
    rw [firstsAfter_cons, if_pos (List.contains_iff_mem.mpr hx), ih hxs]

-- Items that come again after they were there change nothing for those that follow.
theorem firstsAfter_again (seen : List κ) {xs zs : List α} (h : ∀ z ∈ zs, z ∈ xs) (ys : List α) :
    firstsAfter key seen (xs ++ zs ++ ys) = firstsAfter key seen (xs ++ ys) := by
  have hnone : firstsAfter key (xs.map key ++ seen) zs = [] :=
    firstsAfter_eq_nil fun z hz => List.mem_append_left _ (List.mem_map_of_mem (h z hz))
  have hsame : ∀ k, k ∈ (xs ++ zs).map key ++ seen ↔ k ∈ xs.map key ++ seen := by grind
  rw [firstsAfter_append, firstsAfter_append seen xs zs, hnone, List.append_nil,
    firstsAfter_congr hsame ys, ← firstsAfter_append]

end

/-- The items that a condition on the items before them keeps, in their order. -/
def keeping (keep : List α → α → Bool) (xs : List α) : List α :=
  (xs.zipIdx.filter fun e => keep (xs.take e.2) e.1).map Prod.fst

theorem mem_of_mem_keeping {keep : List α → α → Bool} {xs : List α} {x : α}
    (h : x ∈ keeping keep xs) : x ∈ xs := by
  obtain ⟨e, he, rfl⟩ := List.mem_map.mp h
  exact List.fst_mem_of_mem_zipIdx (List.mem_of_mem_filter he)

theorem keeping_concat (keep : List α → α → Bool) (xs : List α) (x : α) :
    keeping keep (xs ++ [x]) = keeping keep xs ++ if keep xs x then [x] else [] := by
  have hearlier : ∀ e ∈ xs.zipIdx, (xs ++ [x]).take e.2 = xs.take e.2 := by
    intro e he
    have hlt : e.2 < xs.length := by simpa using List.snd_lt_of_mem_zipIdx he
    exact List.take_append_of_le_length (Nat.le_of_lt hlt)
  have hlast : (xs ++ [x]).take xs.length = xs := List.take_left' rfl
  rw [keeping, List.zipIdx_append, List.filter_append, List.map_append]
  congr 1
  · rw [keeping]
    refine congrArg _ (List.filter_congr fun e he => ?_)
    rw [hearlier e he]
  · simp only [List.zipIdx_singleton, Nat.zero_add, List.filter_cons, hlast, List.filter_nil]
    cases keep xs x <;> rfl

/-- The items before which no item has their key, in their order. -/
def foremost (key : α → κ) (xs : List α) : List α :=
  (xs.zipIdx.filter fun e => !((xs.take e.2).map key).contains (key e.1)).map Prod.fst

theorem foremost_concat (xs : List α) (x : α) :
    foremost key (xs ++ [x]) =
      foremost key xs ++ if (xs.map key).contains (key x) then [] else [x] := by
  have h := keeping_concat (fun earlier x => !(earlier.map key).contains (key x)) xs x
  refine h.trans (congrArg _ ?_)
  cases (xs.map key).contains (key x) <;> rfl

/-- The first occurrences after keys that were seen are the foremost items of all other keys. -/
theorem firstsAfter_eq_foremost [LawfulBEq κ] (seen : List κ) (xs : List α) :
    firstsAfter key seen xs = foremost key (xs.filter fun x => !seen.contains (key x)) := by
  induction xs using List.reverseRecOn with
  | nil => rfl
  | append_singleton xs x ih =>
    rw [firstsAfter_append, ih, List.filter_append, List.filter_cons, List.filter_nil]
    by_cases hx : key x ∈ seen
    · have hnone : firstsAfter key (xs.map key ++ seen) [x] = [] :=
        firstsAfter_eq_nil (by simp [hx])
      simp [hnone, hx]
    · -- Items with a key that was seen cannot stand in the way of one that has another key.
      have hkept : ((xs.filter fun x => !seen.contains (key x)).map key).contains (key x) =
          (xs.map key ++ seen).contains (key x) := by
        rw [Bool.eq_iff_iff, List.contains_iff_mem, List.contains_iff_mem]
        simp only [List.mem_map, List.mem_filter, List.mem_append, Bool.not_eq_true']
        grind
      have hnew : (!seen.contains (key x)) = true := by simpa using hx
      rw [firstsAfter_cons, if_pos hnew, foremost_concat, hkept]
      rfl

example : foremost id ["b", "a", "b", "c", "a"] = ["b", "a", "c"] := by decide

/-! ## Lists of first occurrences -/

section

variable {α : Type} [BEq α] [LawfulBEq α]

theorem mem_firstsAfter_id {seen xs : List α} {x : α} :
    x ∈ firstsAfter id seen xs ↔ x ∈ xs ∧ x ∉ seen := by
  induction xs generalizing seen with
  | nil => simp [firstsAfter]
  | cons y ys ih =>
    rw [firstsAfter_cons]
    by_cases hy : y ∈ seen
    · have hseen : seen.contains (id y) = true := List.contains_iff_mem.mpr hy
      rw [if_pos hseen, ih, List.mem_cons]
      constructor
      · exact fun h => ⟨Or.inr h.1, h.2⟩
      · rintro ⟨rfl | h, hx⟩
        · exact absurd hy hx
        · exact ⟨h, hx⟩
    · have hseen : ¬ seen.contains (id y) = true := fun h => hy (List.contains_iff_mem.mp h)
      rw [if_neg hseen, List.mem_cons, ih, List.mem_cons, id, List.mem_cons]
      by_cases hxy : x = y
      · subst hxy
        simp [hy]
      · simp [hxy]

theorem nodup_firstsAfter_id (seen xs : List α) : (firstsAfter id seen xs).Nodup := by
  induction xs generalizing seen with
  | nil => exact List.nodup_nil
  | cons y ys ih =>
    rw [firstsAfter_cons]
    split
    · exact ih seen
    · refine List.nodup_cons.mpr ⟨fun h => ?_, ih _⟩
      exact (mem_firstsAfter_id.mp h).2 List.mem_cons_self

@[simp]
theorem mem_firsts {xs : List α} {x : α} : x ∈ firsts xs ↔ x ∈ xs := by
  rw [firsts, firstsBy, mem_firstsAfter_id]
  simp

theorem nodup_firsts (xs : List α) : (firsts xs).Nodup :=
  nodup_firstsAfter_id [] xs

theorem firsts_of_nodup {xs : List α} (h : xs.Nodup) : firsts xs = xs :=
  firstsAfter_eq_self (fun _ _ => rfl) (h.imp fun hxy => beq_false_of_ne hxy.symm)

-- One more item is one more first occurrence, unless it was there.
theorem firsts_append_singleton (xs : List α) (x : α) :
    firsts (xs ++ [x]) = if (firsts xs).contains x then firsts xs else firsts xs ++ [x] := by
  have hseen : (xs.map id ++ []).contains (id x) = (firsts xs).contains x := by
    rw [Bool.eq_iff_iff, List.contains_iff_mem, List.contains_iff_mem, mem_firsts, List.append_nil,
      List.map_id, id]
  have happend : firsts (xs ++ [x]) = firsts xs ++ firstsAfter id (xs.map id ++ []) [x] :=
    firstsAfter_append [] xs [x]
  rw [happend, firstsAfter_cons, hseen]
  split
  · exact List.append_nil _
  · rfl

-- There is more than one first occurrence where two items differ.
theorem one_lt_length_firsts {xs : List α} :
    1 < (firsts xs).length ↔ ∃ a ∈ xs, ∃ b ∈ xs, a ≠ b := by
  have hmem : ∀ x, x ∈ firsts xs ↔ x ∈ xs := fun x => mem_firsts
  have hnodup := nodup_firsts xs
  constructor
  · intro h
    match hfirsts : firsts xs with
    | [] | [_] => simp [hfirsts] at h
    | a :: b :: rest =>
      rw [hfirsts] at hmem hnodup
      refine ⟨a, (hmem a).mp List.mem_cons_self, b, (hmem b).mp (by simp), fun hab => ?_⟩
      exact (List.nodup_cons.mp hnodup).1 (by simp [hab])
  · rintro ⟨a, ha, b, hb, hab⟩
    have hfa := (hmem a).mpr ha
    have hfb := (hmem b).mpr hb
    match hfirsts : firsts xs with
    | [] =>
      rw [hfirsts] at hfa
      cases hfa
    | [c] =>
      rw [hfirsts, List.mem_singleton] at hfa hfb
      exact absurd (hfa.trans hfb.symm) hab
    | _ :: _ :: _ => simp

end

end PlotScene
