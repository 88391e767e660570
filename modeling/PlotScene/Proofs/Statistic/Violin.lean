import Mathlib.Algebra.Order.Field.Basic
import PlotScene.Proofs.Double.Within
import PlotScene.Proofs.Pairwise
import PlotScene.Proofs.Statistic.Answer
import PlotScene.Proofs.Statistic.Layout

/-!
# The outlines of violins

Every category of a violin has an outline of its own: its densities at their positions, with half
widths that are proportional to its densities.  No category has a part in the outline of another.
-/

namespace PlotScene

/-! ## 1. Half widths in exact arithmetic -/

-- The greatest number so far is the greatest of the start and of the numbers gone over.
theorem isGreatest_foldl (start : ℚ) (ds : List ℚ) : IsGreatest {d | d = start ∨ d ∈ ds}
    (ds.foldl (fun best d => if best < d then d else best) start) := by
  induction ds generalizing start with
  | nil => simp [IsGreatest, upperBounds]
  | cons d ds ih =>
    rw [List.foldl_cons]
    have hnext : (if start < d then d else start) = max start d := by grind
    rw [hnext]
    obtain ⟨hmem, hgreatest⟩ := ih (max start d)
    generalize ds.foldl (fun best d => if best < d then d else best) (max start d) = top at *
    have hmax : max start d ≤ top := hgreatest (Or.inl rfl)
    constructor
    · rcases hmem with rfl | hmem
      · rcases max_choice start d with h | h <;> simp [h]
      · exact Or.inr (List.mem_cons_of_mem _ hmem)
    · rintro e (rfl | he)
      · exact (le_max_left _ _).trans hmax
      · rcases List.mem_cons.mp he with rfl | he
        · exact (le_max_right _ _).trans hmax
        · exact hgreatest (Or.inr he)

theorem isGreatest_peak (ds : List ℚ) : IsGreatest {d | d = 0 ∨ d ∈ ds} (peak ds) :=
  isGreatest_foldl 0 ds

/-- Widths in proportion to densities: `widest` where a density is positive and no other is greater,
and zero where no density is positive. -/
structure Proportional (widest : ℚ) (densities widths : List ℚ) : Prop where
  length : widths.length = densities.length
  bounded : ∀ w ∈ widths, 0 ≤ w ∧ w ≤ widest
  greatest : ∀ p ∈ densities.zip widths, 0 < p.1 → (∀ d ∈ densities, d ≤ p.1) → p.2 = widest
  flat : (∀ d ∈ densities, d ≤ 0) → ∀ w ∈ widths, w = 0
  proportional : ∀ p ∈ densities.zip widths, ∀ r ∈ densities.zip widths, p.2 * r.1 = r.2 * p.1

theorem proportional_map {widest scale : ℚ} {ds : List ℚ} (hds : ∀ d ∈ ds, 0 ≤ d)
    (hscale : 0 ≤ scale) (hbound : ∀ d ∈ ds, d * scale ≤ widest)
    (htop : ∀ d ∈ ds, 0 < d → (∀ e ∈ ds, e ≤ d) → d * scale = widest)
    (hflat : (∀ d ∈ ds, d ≤ 0) → scale = 0) : Proportional widest ds (ds.map (· * scale)) := by
  have hzip : ds.zip (ds.map (· * scale)) = ds.map fun d => (d, d * scale) := by
    rw [List.zip_map_right, List.zip_eq_zipWith, List.zipWith_self, List.map_map]
    rfl
  refine ⟨List.length_map _, ?_, ?_, fun hall => ?_, ?_⟩
  · exact List.forall_mem_map.mpr fun d hd => ⟨mul_nonneg (hds d hd) hscale, hbound d hd⟩
  · rw [hzip]
    exact List.forall_mem_map.mpr htop
  · rw [hflat hall]
    exact List.forall_mem_map.mpr fun d _ => mul_zero d
  · rw [hzip]
    refine List.forall_mem_map.mpr fun d _ => List.forall_mem_map.mpr fun e _ => ?_
    show d * scale * e = e * scale * d
    ring

theorem proportional_halfWidths {widest : ℚ} (hwidest : 0 ≤ widest) {ds : List ℚ}
    (hds : ∀ d ∈ ds, 0 ≤ d) : Proportional widest ds (halfWidths widest ds ds) := by
  obtain ⟨hpeak, hgreatest⟩ := isGreatest_peak ds
  have hle : ∀ d ∈ ds, d ≤ peak ds := fun d hd => hgreatest (Or.inr hd)
  rw [halfWidths]
  by_cases hpos : 0 < peak ds
  · have hscale : 0 ≤ widest / peak ds := div_nonneg hwidest hpos.le
    have hmul : peak ds * (widest / peak ds) = widest := mul_div_cancel₀ widest hpos.ne'
    have hmem : peak ds ∈ ds := hpeak.resolve_left hpos.ne'
    rw [if_pos hpos]
    refine proportional_map hds hscale (fun d hd => ?_) (fun d hd _ hall => ?_) fun hall => ?_
    · calc d * (widest / peak ds) ≤ peak ds * (widest / peak ds) :=
            mul_le_mul_of_nonneg_right (hle d hd) hscale
        _ = widest := hmul
    · rw [le_antisymm (hle d hd) (hall _ hmem), hmul]
    · exact absurd hpos (not_lt.mpr (hall _ hmem))
  · rw [if_neg hpos]
    refine proportional_map hds le_rfl (fun d _ => ?_) (fun d hd hd' _ => ?_) fun _ => rfl
    · rwa [mul_zero]
    · exact absurd (hd'.trans_le (hle d hd)) hpos

/-! ## 2. Outlines -/

namespace ViolinOutline

variable {g : Nat} {o : ViolinOutline}

/-- The points of an outline are its densities at their positions, in order, with the half widths
that the densities of this outline have. -/
structure DrawnAs (g : Nat) (o : ViolinOutline) (points : List ViolinPoint) : Prop where
  pairs : points.map (fun p => (p.density, p.y)) = o.densities.zip o.positions
  widths : points.map (·.halfWidth) =
    halfWidths widestHalf (Sequence.finite o.densities) o.densities
  labels : ∀ p ∈ points, p.group = g ∧ Double.round? o.category = some p.category

/-- The points with these densities, widths and positions. -/
def pointsOf (g : Nat) (number : Int) (ds ws ys : List Float) : List ViolinPoint :=
  List.zipWith (fun (d, w) y => ⟨g, number, y, d, w⟩) (ds.zip ws) ys

theorem pointsOf_cons (g : Nat) (number : Int) (d w y : Float) (ds ws ys : List Float) :
    pointsOf g number (d :: ds) (w :: ws) (y :: ys) =
      ⟨g, number, y, d, w⟩ :: pointsOf g number ds ws ys := rfl

-- Lists of one length are taken apart again.
theorem map_pointsOf (g : Nat) (number : Int) {ds ws ys : List Float} (hws : ws.length = ds.length)
    (hys : ds.length = ys.length) :
    (pointsOf g number ds ws ys).map (fun p => (p.density, p.y)) = ds.zip ys ∧
    (pointsOf g number ds ws ys).map (·.halfWidth) = ws ∧
    ∀ p ∈ pointsOf g number ds ws ys, p.group = g ∧ p.category = number := by
  induction ds generalizing ws ys with
  | nil =>
    obtain rfl := List.length_eq_zero_iff.mp hws
    obtain rfl := List.length_eq_zero_iff.mp hys.symm
    exact ⟨rfl, rfl, List.forall_mem_nil _⟩
  | cons d ds ih =>
    obtain ⟨w, ws, rfl⟩ := List.exists_cons_of_length_eq_add_one hws
    obtain ⟨y, ys, rfl⟩ := List.exists_cons_of_length_eq_add_one hys.symm
    obtain ⟨hpairs, hwidths, hlabels⟩ := ih (Nat.succ.inj hws) (Nat.succ.inj hys)
    rw [pointsOf_cons, List.map_cons, hpairs, List.map_cons, hwidths, List.forall_mem_cons]
    exact ⟨rfl, rfl, ⟨rfl, rfl⟩, hlabels⟩

/-- Read in exact arithmetic, the half widths of an outline are in proportion to its densities, up
to two fifths.  All densities are finite, so none is left out when the greatest is looked for. -/
def InProportion (o : ViolinOutline) : Prop :=
  Sequence.finite o.densities = o.densities ∧
  ∃ qs : List ℚ, qs.Forall₂ (fun q d => Double.rational? d = some q) o.densities ∧
    Proportional (2 / 5) qs (halfWidths (2 / 5) qs qs)

theorem inProportion (h : ∀ d ∈ o.densities, d.isFinite = true ∧ 0 ≤ d) : o.InProportion := by
  obtain ⟨qs, hqs⟩ : ∃ qs : List ℚ, o.densities.Forall₂
      (fun d q => Double.rational? d = some q ∧ 0 ≤ q) qs :=
    forall₂_of_forall fun d hd => Double.exists_nonneg (h d hd).1 (h d hd).2
  have hnonneg : ∀ q ∈ qs, 0 ≤ q := by
    intro q hq
    obtain ⟨d, -, -, hle⟩ := forall₂_mem_right hqs hq
    exact hle
  exact ⟨List.filter_eq_self.mpr fun d hd => (h d hd).1, qs, (hqs.imp fun _ _ h => h.1).flip,
    proportional_halfWidths (by norm_num) hnonneg⟩

theorem part_of_not_finite (h : o.category.isFinite = false) :
    o.part g = Normalized.notice ((Malformed.categoryNotFinite o.category).notice .violin g) := by
  have hround : Double.round? o.category = none := by
    rw [Double.round?, Option.map_eq_none_iff, ← Option.not_isSome_iff_eq_none,
      Double.isSome_rational?, h]
    exact Bool.false_ne_true
  rw [part, readViolinCategory, hround]

theorem part_of_finite (hfilled : o.Filled) (h : o.category.isFinite = true) :
    (o.part g).notices = [] ∧ o.DrawnAs g (o.part g).records := by
  obtain ⟨r, hr⟩ := Option.isSome_iff_exists.mp (Double.isSome_rational?.mpr h)
  have hround : Double.round? o.category = some (Double.nearestInt r) := by
    rw [Double.round?, hr]
    rfl
  obtain ⟨hpairs, hwidths, hlabels⟩ := map_pointsOf g (Double.nearestInt r)
    (length_halfWidths widestHalf (Sequence.finite o.densities) o.densities) hfilled.length
  rw [part, readViolinCategory, hround]
  refine ⟨rfl, hpairs, hwidths, fun p hp => ?_⟩
  obtain ⟨hgroup, hcategory⟩ := hlabels p hp
  exact ⟨hgroup, by rw [hround, hcategory]⟩

end ViolinOutline

/-! ## 3. Results -/

/-- What an accepted record gives, alone or as one of several groups, is its outlines one after the
other.  A category that is not finite gives one notice and no point.  A finite category gives its
own points and no notice, and where its densities are finite and not negative its half widths are in
proportion to them. -/
theorem normalize_violin {record : Value} {n : Normalized ViolinPoint} {group : Nat}
    (hread : readViolin group record = .ok n) :
    ∃ outlines, record.GivesOutlines outlines ∧
      (∀ observationX, normalize .violin record observationX =
        .ok (Normalized.concat (outlines.map (·.part 1)))) ∧
      (∀ raw observationX (out : Normalized ViolinPoint) i,
        normalize .violin raw observationX = .ok out → (groupsOf raw)[i]? = some record →
        out.ofGroup (i + 1) = Normalized.concat (outlines.map (·.part (i + 1)))) ∧
      ∀ o ∈ outlines, ∀ g,
        (o.category.isFinite = false → o.part g = Normalized.notice
          ((Malformed.categoryNotFinite o.category).notice .violin g)) ∧
        (o.category.isFinite = true → (o.part g).notices = [] ∧
          o.DrawnAs g (o.part g).records ∧
          ((∀ d ∈ o.densities, d.isFinite = true ∧ 0 ≤ d) → o.InProportion)) := by
  obtain ⟨outlines, houtlines, -⟩ := readViolin_eq_ok.mp hread
  have hgroup (g : Nat) : readGroup .violin readViolin g record =
      .ok (Normalized.concat (outlines.map (·.part g))) := by
    rw [readGroup, readViolin_eq_ok.mpr ⟨outlines, houtlines, rfl⟩]
  refine ⟨outlines, houtlines, fun observationX => ?_, fun raw observationX out i hout hrecord => ?_,
    fun o ho g => ⟨?_, fun hfinite => ?_⟩⟩
  · exact (normalize_of_isMap houtlines.isMap).trans (hgroup 1)
  · exact Except.ok.inj ((readGroup_of_normalize hout hrecord).symm.trans (hgroup (i + 1)))
  · exact ViolinOutline.part_of_not_finite
  · obtain ⟨hnotices, hdrawn⟩ := ViolinOutline.part_of_finite (houtlines.filled o ho) hfinite
    exact ⟨hnotices, hdrawn, ViolinOutline.inProportion⟩

/-- A record with three categories, of which one has no number and one no positive density. -/
def threeViolins : Value := .obj [
  ("unique_x", .list [.float 1, .float Double.nan, .float 2]),
  ("densities", .list [.list [.float 1, .float 4], .list [.float 3], .list [.float 0]]),
  ("densities_y", .list [.list [.float 5, .float 6], .list [.float 7], .list [.float 8]])]

-- The record before it is skipped, so the outlines are those of the second group.
theorem normalize_violin_threeViolins : ∃ (out : Normalized ViolinPoint)
    (outlines : List ViolinOutline),
    normalize .violin (.list [.null, threeViolins]) .null = .ok out ∧
    threeViolins.GivesOutlines outlines ∧
    out.ofGroup 2 = Normalized.concat (outlines.map (·.part 2)) ∧
    ∀ o ∈ outlines,
      (o.category.isFinite = false → o.part 2 = Normalized.notice
        ((Malformed.categoryNotFinite o.category).notice .violin 2)) ∧
      (o.category.isFinite = true → (∀ d ∈ o.densities, d.isFinite = true ∧ 0 ≤ d) →
        o.InProportion) := by
  obtain ⟨out, hout⟩ : ∃ out, normalize .violin (.list [.null, threeViolins]) .null = .ok out :=
    ⟨_, rfl⟩
  obtain ⟨n, hread⟩ : ∃ n, readViolin 2 threeViolins = .ok n := ⟨_, rfl⟩
  obtain ⟨outlines, houtlines, -, hgroup, hparts⟩ := normalize_violin hread
  refine ⟨out, outlines, hout, houtlines, hgroup _ _ out 1 hout rfl, fun o ho => ⟨?_, ?_⟩⟩
  · exact (hparts o ho 2).1
  · exact fun hfinite => ((hparts o ho 2).2 hfinite).2.2

end PlotScene
