import PlotScene.Proofs.Layer.Names

/-!
# Layers that bring the color scale

Where colors group, observations go through the color scale, and so does a statistic whose groups
all have a color label.  Boxes and heat maps have colors of their own.
-/

namespace PlotScene

open Reference

variable {p : Plot} {o : Presentation} {s : Style}

/-! ## 1. The color scale among scales -/

/-- One of the scales is the color scale. -/
def HasColor (cs : List Value) : Prop :=
  ∃ c ∈ cs, Names "color" c

theorem not_hasColor_nil : ¬ HasColor [] := by
  rintro ⟨c, hc, -⟩
  cases hc

theorem hasColor_cons {c : Value} {cs : List Value} {n : String} (hc : Names n c)
    (hn : n ≠ "color") : HasColor (c :: cs) ↔ HasColor cs := by
  constructor
  · rintro ⟨d, hd, hcolor⟩
    rcases List.mem_cons.mp hd with rfl | hd
    · exact absurd (hc.unique hcolor) hn
    · exact ⟨d, hd, hcolor⟩
  · rintro ⟨d, hd, hcolor⟩
    exact ⟨d, List.mem_cons_of_mem _ hd, hcolor⟩

theorem hasColor_append {cs ds : List Value} :
    HasColor (cs ++ ds) ↔ HasColor cs ∨ HasColor ds := by
  simp only [HasColor, List.mem_append, or_and_right, exists_or]

theorem hasColor_colorScale (s : Style) : HasColor [colorScale s] :=
  ⟨_, List.mem_singleton.mpr rfl, rfl⟩

-- Behind the scales of the axes only the others count.
theorem hasColor_axes {x y : Value} {cs : List Value} (hx : Names "xscale" x)
    (hy : Names "yscale" y) : HasColor (x :: y :: cs) ↔ HasColor cs := by
  rw [hasColor_cons hx (by decide), hasColor_cons hy (by decide)]

theorem hasColor_colorScales : HasColor (colorScales p s) ↔ p.grouped = true := by
  rw [colorScales]
  split
  next hg => exact iff_of_true (hasColor_colorScale s) hg
  next hg => exact iff_of_false not_hasColor_nil hg

theorem hasColor_coloring (coloring : Coloring) (source : String) :
    HasColor (coloring.scales s source) ↔ coloring.isShared = true := by
  cases coloring with
  | shared => exact iff_of_true (hasColor_colorScale s) rfl
  | byGroup =>
    have hname : Names (groupColorName source) (groupColorScale s source) := rfl
    rw [Coloring.scales, hasColor_cons hname (groupColorName_ne source)]
    exact iff_of_false not_hasColor_nil Bool.false_ne_true
  | single => exact iff_of_false not_hasColor_nil Bool.false_ne_true

/-! ## 2. Colorings -/

/-- A group has a color label. -/
def Plot.Labelled (p : Plot) (group : Nat) : Prop :=
  1 ≤ group ∧ group ≤ p.grouping.labels.length

theorem isSome_groupColor?_iff {group : Nat} (hg : p.grouped = true) :
    (p.groupColor? group).isSome = true ↔ p.Labelled group := by
  rw [Plot.groupColor?, Plot.isSome_colorAt?_iff hg, Plot.Labelled]
  omega

theorem isShared_choose {groups : List Nat} {color : String} :
    (Coloring.choose p groups color).isShared = true ↔
      p.grouped = true ∧ ∀ g ∈ groups, p.Labelled g := by
  rw [Coloring.choose]
  split
  next hall =>
    rw [Bool.and_eq_true, List.all_eq_true] at hall
    refine iff_of_true rfl ⟨hall.1, fun g hg => ?_⟩
    exact (isSome_groupColor?_iff hall.1).mp (hall.2 g hg)
  next hall =>
    refine iff_of_false ?_ fun hlabels => hall ?_
    · split <;> exact Bool.false_ne_true
    · obtain ⟨hgrouped, hlabelled⟩ := hlabels
      rw [Bool.and_eq_true, List.all_eq_true]
      exact ⟨hgrouped, fun g hg => (isSome_groupColor?_iff hgrouped).mpr (hlabelled g hg)⟩

/-! ## 3. Layers -/

/-- A layer goes through the color scale where colors group: observations always do, those behind a
regression included, and a statistic where all of its groups have a color label. -/
def Plot.BringsColor (p : Plot) : LayerKind → Prop
  | .geometry _ | .statistic .glm | .statistic .smooth => True
  | .statistic .boxplot | .statistic .bin2d => False
  | .statistic .bin => ∀ r ∈ p.statistics.records .bin, p.Labelled r.group
  | .statistic .summary => ∀ r ∈ p.statistics.records .summary, p.Labelled r.group
  | .statistic .density => ∀ r ∈ p.statistics.records .density, p.Labelled r.group
  | .statistic .violin => ∀ r ∈ p.statistics.records .violin, p.Labelled r.group
  | .statistic .qq => ∀ r ∈ p.statistics.records .qq, p.Labelled r.group

theorem GeometryKind.hasColor_scales (g : GeometryKind) :
    HasColor (g.fragment p o s).scales ↔ p.grouped = true := by
  have hstandard (banded : Bool) : HasColor (positionScales p s banded) ↔ p.grouped = true :=
    (hasColor_axes (get?_xScaleAs_name _ _) (get?_yScale_name p _ _)).trans hasColor_colorScales
  cases g with
  | bar =>
    refine (hasColor_axes (get?_xScaleAs_name _ _) ?_).trans hasColor_colorScales
    rw [Names, Value.get?_set_of_ne _ _ (by decide)]
    exact get?_yScale_name p _ _
  | raster =>
    exact (hasColor_cons (get?_xScaleAs_name _ _) (by decide)).trans hasColor_colorScales
  | interval =>
    exact (hasColor_axes (get?_xScaleAs_name _ _) (get?_yScale_name p _ _)).trans
      hasColor_colorScales
  | _ => exact hstandard _

-- The observations behind the curves need the color scale, whether the curves share it or not.
theorem Curve.hasColor_regressionFragment (n : Curve.Names) (curves : List RegressionCurve) :
    HasColor (Curve.regressionFragment n curves p o s).scales ↔ p.grouped = true := by
  refine (hasColor_axes (get?_xScaleAs_name _ _) (get?_yScale_name p _ _)).trans ?_
  show HasColor ((Coloring.choose p (curves.map (·.group)) s.markColor).scales s n.curve ++
    if p.grouped && !(Coloring.choose p (curves.map (·.group)) s.markColor).isShared
    then [colorScale s] else []) ↔ _
  rw [hasColor_append, hasColor_coloring]
  constructor
  · rintro (hshared | hrest)
    · exact (isShared_choose.mp hshared).1
    · split at hrest
      next hg => exact (Bool.and_eq_true_iff.mp hg).1
      next => exact absurd hrest not_hasColor_nil
  · intro hg
    cases hshared : (Coloring.choose p (curves.map (·.group)) s.markColor).isShared with
    | true => exact Or.inl rfl
    | false =>
      rw [hg, Bool.not_false, Bool.true_and, if_pos rfl]
      exact Or.inr (hasColor_colorScale s)

theorem hasColor_choose {ρ : Type} (group : ρ → Nat) (records : List ρ) (color source : String) :
    HasColor ((Coloring.choose p (records.map group) color).scales s source) ↔
      p.grouped = true ∧ ∀ r ∈ records, p.Labelled (group r) := by
  rw [hasColor_coloring, isShared_choose, List.forall_mem_map]

/-- A layer has the color scale exactly where colors group and the layer goes through it. -/
theorem LayerKind.hasColor_scales {kind : LayerKind} {f : Fragment}
    (hf : kind.fragment p o s = .ok f) :
    HasColor f.scales ↔ p.grouped = true ∧ p.BringsColor kind := by
  cases kind with
  | geometry g =>
    obtain rfl := Except.ok.inj hf
    exact g.hasColor_scales.trans (and_iff_left trivial).symm
  | statistic k =>
    cases k with
    | glm =>
      obtain rfl := Except.ok.inj hf
      exact (Curve.hasColor_regressionFragment _ _).trans (and_iff_left trivial).symm
    | smooth =>
      obtain rfl := Except.ok.inj hf
      exact (Curve.hasColor_regressionFragment _ _).trans (and_iff_left trivial).symm
    | boxplot =>
      obtain rfl := Except.ok.inj hf
      have hcategory : Names "categoryColor"
          (ordinalScale s "categoryColor" "boxplot_boxes" "category") := rfl
      refine Iff.trans (hasColor_axes rfl (get?_yScale_name p _ _)) ?_
      refine Iff.trans (hasColor_cons hcategory (by decide)) ?_
      exact iff_of_false not_hasColor_nil fun h => h.2
    | bin2d =>
      obtain ⟨heat, hheat, hf⟩ := bind_eq_ok.mp hf
      obtain rfl := Except.ok.inj hf
      have hname : Names "heatColor" heat :=
        (Cell.heatScale_reads (V := .everything) hheat trivial trivial).1
      refine Iff.trans (hasColor_axes rfl rfl) ?_
      refine Iff.trans (hasColor_cons hname (by decide)) ?_
      exact iff_of_false not_hasColor_nil fun h => h.2
    | summary =>
      obtain rfl := Except.ok.inj hf
      exact Iff.trans (hasColor_axes (get?_xScaleAs_name _ _) (get?_yScale_name p _ _))
        (hasColor_choose _ _ _ _)
    | violin =>
      obtain rfl := Except.ok.inj hf
      have hwidth : Names "violin_width" Category.violinWidthScale := rfl
      refine Iff.trans (hasColor_axes rfl (get?_yScale_name p _ _)) ?_
      exact Iff.trans (hasColor_cons hwidth (by decide)) (hasColor_choose _ _ _ _)
    | _ =>
      obtain rfl := Except.ok.inj hf
      exact Iff.trans (hasColor_axes rfl rfl) (hasColor_choose _ _ _ _)

end PlotScene
