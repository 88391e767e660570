import PlotScene.Proofs.Numeric.Sequence
import PlotScene.Proofs.Pairwise
import PlotScene.Proofs.Statistic.Recovery

/-!
# The samples of a band

A band that is shorter than its curve is a list of samples at given positions.  Positions that are
finite and different are accepted in every order, and sorting puts the samples in one order.
-/

namespace PlotScene

namespace Band

open Sequence Double

/-! ## 1. Positions -/

theorem allDifferent_iff {xs : List Float} :
    allDifferent xs = true ↔ xs.Pairwise fun a b => (a == b) = false := by
  induction xs with
  | nil => simp [allDifferent]
  | cons x xs ih =>
    rw [allDifferent, Bool.and_eq_true, ih, List.pairwise_cons, List.contains_eq_any_beq]
    simp

theorem length_of_isBase {count : Nat} {xs : List Float} (h : isBase count xs = true) :
    xs.length = count := by
  simp only [isBase, Bool.and_eq_true, beq_iff_eq] at h
  exact h.1.1

-- Null holds one number, so it is not passed over where two or more are asked for.
theorem base?_of_holds {count : Nat} {v : Value} {vs : List Value} {xs : List Float}
    (hcount : 2 ≤ count) (hv : v.Holds xs) (hbase : isBase count xs = true) :
    base? count (v :: vs) = .ok (some xs) := by
  obtain ⟨shape, hgrid⟩ := hv
  have hnull : ¬ v.isNull = true := by
    intro h
    unfold Value.isNull at h
    split at h
    · cases hgrid
      have hone : [Double.nan].length = count := length_of_isBase hbase
      rw [List.length_singleton] at hone
      omega
    · cases h
  rw [base?, if_neg hnull, readGrid?_eq_ok_some.mpr hgrid, ok_bind]
  exact if_pos hbase

-- A band shorter than a curve that is not constant is interpolated over a base or over an even
-- spacing.
theorem align_of_base? (x lower upper : List Float) {vs : List Value}
    {base : Option (List Float)} (hcount : 2 ≤ lower.length)
    (hshort : lower.length < x.length) (hvaried : ∃ a ∈ x, ∃ b ∈ x, (a == b) = false)
    (hbase : base? lower.length vs = .ok base) :
    let positions := base.getD (evenBase x lower.length)
    align x lower upper vs =
      .ok (ordered (interpolate (positions.zip lower) x)
        (interpolate (positions.zip upper) x)) := by
  have hconstant : ¬ Sequence.constant x = true := by
    intro h
    obtain ⟨a, ha, b, hb, hab⟩ := hvaried
    exact Bool.false_ne_true (hab.symm.trans (beq_of_constant h a ha b hb))
  rw [align]
  dsimp only
  rw [if_neg (by omega), if_neg (by omega), if_neg (not_or.mpr ⟨by omega, hconstant⟩),
    hbase, ok_bind]
  rfl

/-! ## 2. Samples in any order -/

theorem zip_ofFn {m : Nat} (positions bound : Fin m → Float) :
    (List.ofFn positions).zip (List.ofFn bound) = List.ofFn fun i => (positions i, bound i) := by
  apply List.ext_getElem <;> simp

theorem alike_exchanged (lower upper : List Float) :
    List.Forall₂ Alike (ordered upper lower).lower (ordered lower upper).lower ∧
      List.Forall₂ Alike (ordered upper lower).upper (ordered lower upper).upper := by
  constructor
  · rw [ordered, List.zipWith_comm]
    exact forall₂_zipWith (fun a b => alike_lesser_comm b a) lower upper
  · rw [ordered, List.zipWith_comm (f := greater)]
    exact forall₂_zipWith (fun a b => alike_greater_comm b a) lower upper

section

variable {m : Nat} {positions : Fin m → Float} (hfinite : ∀ i, (positions i).isFinite = true)
  (hdifferent : ∀ i j, i ≠ j → (positions i == positions j) = false)

include hfinite hdifferent

theorem isBase_ofFn : isBase m (List.ofFn positions) = true := by
  have hpairwise : allDifferent (List.ofFn positions) = true := by
    rw [allDifferent_iff, List.pairwise_ofFn]
    exact fun i j hij => hdifferent i j (ne_of_lt hij)
  simp [isBase, hpairwise, hfinite]

-- Finite numbers that differ have different ranks.
theorem nodup_ranks (bound : Fin m → Float) :
    (((List.ofFn positions).zip (List.ofFn bound)).map fun s => rank s.1).Nodup := by
  rw [zip_ofFn, List.map_ofFn, List.nodup_ofFn]
  intro i j hij
  by_contra hne
  have hequal : (positions i == positions j) = true :=
    beq_iff.mpr ⟨isNaN_of_isFinite (hfinite i), isNaN_of_isFinite (hfinite j), hij⟩
  exact Bool.false_ne_true ((hdifferent i j hne).symm.trans hequal)

theorem interpolate_reordered (bound : Fin m → Float) (s : Equiv.Perm (Fin m)) (x : List Float) :
    interpolate ((List.ofFn (positions ∘ s)).zip (List.ofFn (bound ∘ s))) x =
      interpolate ((List.ofFn positions).zip (List.ofFn bound)) x := by
  refine (interpolate_eq_of_perm ?_ (nodup_ranks hfinite hdifferent bound) x).symm
  rw [zip_ofFn, zip_ofFn]
  exact (s.ofFn_comp_perm fun i => (positions i, bound i)).symm

/-- The samples of a band may come in any order, at positions that are finite and different; with
its bounds exchanged it is the same band up to the sign of zero. -/
theorem align_reordered {lower upper : Fin m → Float} {x : List Float} {v v' : Value}
    {vs : List Value} (hcount : 2 ≤ m) (hshort : m < x.length)
    (hvaried : ∃ a ∈ x, ∃ b ∈ x, (a == b) = false) (s : Equiv.Perm (Fin m))
    (hv : v.Holds (List.ofFn positions)) (hv' : v'.Holds (List.ofFn (positions ∘ s))) :
    ∃ band exchanged,
      align x (List.ofFn lower) (List.ofFn upper) (v :: vs) = .ok band ∧
      align x (List.ofFn (lower ∘ s)) (List.ofFn (upper ∘ s)) (v' :: vs) = .ok band ∧
      align x (List.ofFn upper) (List.ofFn lower) (v :: vs) = .ok exchanged ∧
      List.Forall₂ Alike exchanged.lower band.lower ∧
      List.Forall₂ Alike exchanged.upper band.upper := by
  have hbase := isBase_ofFn hfinite hdifferent
  have hbase' : isBase m (List.ofFn (positions ∘ s)) = true :=
    isBase_ofFn (fun i => hfinite (s i)) fun i j hij => hdifferent _ _ (s.injective.ne hij)
  have hgiven : base? m (v :: vs) = .ok (some (List.ofFn positions)) :=
    base?_of_holds hcount hv hbase
  have hgiven' : base? m (v' :: vs) = .ok (some (List.ofFn (positions ∘ s))) :=
    base?_of_holds hcount hv' hbase'
  have haligned (f g : Fin m → Float) := align_of_base? x (List.ofFn f) (List.ofFn g)
    (by simpa using hcount) (by simpa using hshort) hvaried (by simpa using hgiven)
  have haligned' := align_of_base? x (List.ofFn (lower ∘ s)) (List.ofFn (upper ∘ s))
    (by simpa using hcount) (by simpa using hshort) hvaried (by simpa using hgiven')
  refine ⟨_, _, haligned lower upper, ?_, haligned upper lower, alike_exchanged _ _⟩
  rw [haligned', Option.getD_some, interpolate_reordered hfinite hdifferent,
    interpolate_reordered hfinite hdifferent]
  rfl

end

theorem align_reordered_pair : ∃ band exchanged,
    align [0, 1, 3] [5, 7] [6, 8] [.list [.scalar (.float 2), .scalar (.float 0)], .null] =
      .ok band ∧
    align [0, 1, 3] [7, 5] [8, 6] [.list [.scalar (.float 0), .scalar (.float 2)], .null] =
      .ok band ∧
    align [0, 1, 3] [6, 8] [5, 7] [.list [.scalar (.float 2), .scalar (.float 0)], .null] =
      .ok exchanged ∧
    List.Forall₂ Alike exchanged.lower band.lower ∧
    List.Forall₂ Alike exchanged.upper band.upper :=
  @align_reordered 2 ![2, 0] (by decide) (by decide) ![5, 7] ![6, 8] _ _ _ _ (by decide)
    (by decide) ⟨0, by simp, 1, by simp, by decide⟩ (Equiv.swap 0 1) ⟨[2], rfl⟩ ⟨[2], rfl⟩

/-- Integers that differ may be one double, which is no position for two samples; over an even
spacing the order of the samples tells. -/
theorem align_neighbours :
    (9007199254740992 : Int) ≠ 9007199254740993 ∧
      (Double.ofInt? 9007199254740992).isSome = true ∧
      (Double.ofInt? 9007199254740993).isSome = true ∧
      align [0, 1, 2] [0, 2] [1, 3]
          [.list [.scalar (.int 9007199254740992), .scalar (.int 9007199254740993)], .null] ≠
        align [0, 1, 2] [2, 0] [3, 1]
          [.list [.scalar (.int 9007199254740993), .scalar (.int 9007199254740992)], .null] := by
  refine ⟨by decide, by decide, by decide, fun h => ?_⟩
  have hvaried : ∃ a ∈ [0, 1, 2], ∃ b ∈ [0, 1, 2], ((a : Float) == b) = false :=
    ⟨0, by simp, 1, by simp, by decide⟩
  have hspacing : evenBase [0, 1, 2] 2 = [0, 2] := by decide +kernel
  have hnone : base? 2
      [.list [.scalar (.int 9007199254740992), .scalar (.int 9007199254740993)], .null] =
        .ok none := rfl
  have hnone' : base? 2
      [.list [.scalar (.int 9007199254740993), .scalar (.int 9007199254740992)], .null] =
        .ok none := rfl
  have hfirst := align_of_base? [0, 1, 2] [0, 2] [1, 3] (by decide) (by decide) hvaried hnone
  have hsecond := align_of_base? [0, 1, 2] [2, 0] [3, 1] (by decide) (by decide) hvaried hnone'
  rw [hfirst, hsecond] at h
  have hlower := congrArg Band.lower (Except.ok.inj h)
  simp only [Option.getD_none, List.length_cons, List.length_nil, Nat.reduceAdd, hspacing,
    List.zip_cons_cons, List.zip_nil_right, interpolate, ordered_pair] at hlower
  revert hlower
  decide +kernel

end Band

end PlotScene
