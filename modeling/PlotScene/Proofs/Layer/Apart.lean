import PlotScene.Proofs.Firsts
import PlotScene.Proofs.Layer.Drawn

/-!
# Categories on a common band

Boxes and violins are placed by the labels of their categories.  The labels along x are all
different, and so are the names that are made up for the numbers without one; two categories share
a band only where an observation is labelled with the name that is made up for the other.
-/

namespace PlotScene

/-! ## 1. Labels -/

namespace Plot

/-- The label along x that a category has, if any. -/
def labelAt? (p : Plot) (number : Int) : Option String :=
  if 1 ≤ number then p.xLabels[number.toNat - 1]? else none

/-- Whether the label of category `i` along x is the name that is made up for category `j`, which
has no label there. -/
def Takes (p : Plot) (i j : Int) : Prop :=
  p.labelAt? i = some ("Category" ++ toString j) ∧ p.labelAt? j = none

variable {p : Plot} {i j : Int}

theorem labelAt?_injective {l : String} (hi : p.labelAt? i = some l) (hj : p.labelAt? j = some l) :
    i = j := by
  rw [labelAt?] at hi hj
  split at hi
  next hipos =>
    split at hj
    next hjpos =>
      have hlt := (List.getElem?_eq_some_iff.mp hi).1
      have hplace : i.toNat - 1 = j.toNat - 1 :=
        (List.getElem?_inj hlt (nodup_firsts _)).mp (hi.trans hj.symm)
      omega
    next => cases hj
  next => cases hi

end Plot

section

variable {p : Plot} {i j : Int}

theorem madeUp_injective (h : "Category" ++ toString i = "Category" ++ toString j) : i = j :=
  Int.repr_injective ((String.append_right_inj "Category").mp h)

theorem label_eq_labelAt? (p : Plot) (i : Int) :
    Category.label p i = (p.labelAt? i).getD ("Category" ++ toString i) := by
  rw [Category.label, categoryLabel, Plot.labelAt?]
  split <;> rfl

theorem label_eq_iff :
    Category.label p i = Category.label p j ↔ i = j ∨ p.Takes i j ∨ p.Takes j i := by
  constructor
  · intro h
    rw [label_eq_labelAt?, label_eq_labelAt?] at h
    cases hi : p.labelAt? i with
    | none =>
      cases hj : p.labelAt? j with
      | none =>
        rw [hi, hj] at h
        exact Or.inl (madeUp_injective h)
      | some l =>
        rw [hi, hj, Option.getD_none, Option.getD_some] at h
        exact Or.inr (Or.inr ⟨by rw [hj, h], hi⟩)
    | some k =>
      cases hj : p.labelAt? j with
      | none =>
        rw [hi, hj, Option.getD_none, Option.getD_some] at h
        exact Or.inr (Or.inl ⟨by rw [hi, h], hj⟩)
      | some l =>
        rw [hi, hj, Option.getD_some, Option.getD_some] at h
        subst h
        exact Or.inl (Plot.labelAt?_injective hi hj)
  · rintro (rfl | ⟨hi, hj⟩ | ⟨hj, hi⟩)
    · rfl
    all_goals rw [label_eq_labelAt?, label_eq_labelAt?, hi, hj]; rfl

end

/-! ## 2. Rows -/

/-- The rows of a source show in this field the labels of the categories of their records, and two
of them are on one band exactly for one category or where a category has the name of the other. -/
def Plot.KeepsApart {ρ : Type} (p : Plot) (records : List ρ) (category : ρ → Int) (field : String)
    (d : Drawing ρ) (source : Value) : Prop :=
  ∃ rows, source.get? "values" = some (.list rows) ∧ rows.length = (d.places records).length ∧
    (∀ a ∈ (d.places records).zip rows,
      a.2.get? field = some (.str (Category.label p (category a.1.1)))) ∧
    ∀ a ∈ (d.places records).zip rows, ∀ b ∈ (d.places records).zip rows,
      (a.2.get? field = b.2.get? field ↔
        category a.1.1 = category b.1.1 ∨ p.Takes (category a.1.1) (category b.1.1) ∨
          p.Takes (category b.1.1) (category a.1.1))

section

variable {kind : StatisticKind} {p : Plot} {d : Drawing kind.Record} {source : Value}
  {category : kind.Record → Int} {field : String}

-- A row has the label in the field that its drawing has it in.
theorem keepsApart_of_drawn
    (hfield : ∀ r i, (field, some (.str (Category.label p (category r)))) ∈ d.fields r i)
    (h : kind.Drawn p d source) :
    p.KeepsApart (p.statistics.records kind) category field d source := by
  obtain ⟨-, rows, hvalues, hrows⟩ := h
  have hband : ∀ a ∈ (d.places (p.statistics.records kind)).zip rows,
      a.2.get? field = some (.str (Category.label p (category a.1.1))) := by
    intro a ha
    obtain ⟨v, hv, hget⟩ := (List.forall₂_zip hrows ha).fields _ (hfield a.1.1 a.1.2)
    exact hget.trans hv.symm
  refine ⟨rows, hvalues, hrows.length_eq.symm, hband, fun a ha b hb => ?_⟩
  rw [hband a ha, hband b hb, Option.some.injEq, Value.scalar.injEq, Scalar.str.injEq,
    label_eq_iff]

end

/-- The rows of boxes and of violins are on different bands for different categories, except where
the label along x of one of the two is the name that is made up for the other. -/
theorem categories_keptApart (p : Plot) (o : Presentation) (s : Style) :
    ∃ boxes violins, (LayerKind.statistic .boxplot).fragment p o s = .ok boxes ∧
      (LayerKind.statistic .violin).fragment p o s = .ok violins ∧
      List.Forall₂ (p.KeepsApart (p.statistics.records .boxplot) (fun b => b.category) "x")
        (StatisticKind.boxplot.drawings p) boxes.data ∧
      List.Forall₂ (p.KeepsApart (p.statistics.records .violin) (fun v => v.category) "category")
        (StatisticKind.violin.drawings p) violins.data := by
  refine ⟨_, _, rfl, rfl, ?_, ?_⟩
  · obtain ⟨hboxes, hrest⟩ := List.forall₂_cons.mp (drawn_boxes (p := p) o s)
    obtain ⟨hwhiskers, hrest⟩ := List.forall₂_cons.mp hrest
    obtain ⟨hmedians, -⟩ := List.forall₂_cons.mp hrest
    refine .cons (keepsApart_of_drawn (fun b _ => ?_) hboxes)
      (.cons (keepsApart_of_drawn (fun b _ => ?_) hwhiskers)
        (.cons (keepsApart_of_drawn (fun b _ => ?_) hmedians) .nil))
    all_goals exact List.mem_cons_self
  · have hshaped : ∀ v ∈ p.statistics.records .violin, StatisticKind.violin.Shaped v :=
      fun _ _ => trivial
    have hfragment : (LayerKind.statistic .violin).fragment p o s =
        .ok (Category.violinFragment (p.statistics.records .violin) p o s) := rfl
    have hdrawn := drawn_fragment hshaped hfragment
    obtain ⟨hviolins, -⟩ := List.forall₂_cons.mp hdrawn
    exact .cons (keepsApart_of_drawn (fun _ _ => List.mem_cons_self) hviolins) .nil

/-- Boxes of two categories, over an observation that is labelled with the name of the second. -/
def twoBoxes : Value :=
  .obj [("aes", .obj [("x", .strings ["Category2"])]),
    ("results", .obj [("stat_boxplot", .obj [("boxplot_data",
      .list (List.replicate 2 (.list [.int 1, .int 2, .int 3, .int 4, .int 5])))])])]

theorem twoBoxes_onOneBand : ∃ p, Plot.ofDescription twoBoxes = .ok p ∧
    ∃ a ∈ p.statistics.records .boxplot, ∃ b ∈ p.statistics.records .boxplot,
      a.category ≠ b.category ∧
      (Category.boxRow p a).get? "x" = (Category.boxRow p b).get? "x" := by
  have hsome : (Plot.ofDescription twoBoxes).toOption.any (fun p =>
      (p.statistics.records .boxplot).any fun a => (p.statistics.records .boxplot).any fun b =>
        decide (a.category ≠ b.category ∧
          Category.label p a.category = Category.label p b.category)) = true := by
    decide +kernel
  obtain ⟨p, hp, htwo⟩ := exists_of_any hsome
  obtain ⟨a, ha, htwo⟩ := List.any_eq_true.mp htwo
  obtain ⟨b, hb, htwo⟩ := List.any_eq_true.mp htwo
  obtain ⟨hne, hlabel⟩ := of_decide_eq_true htwo
  exact ⟨p, hp, a, ha, b, hb, hne, congrArg (fun l => some (Value.str l)) hlabel⟩

end PlotScene
