import Mathlib.Data.List.Forall2
import PlotScene.Proofs.Scene.Masked
import PlotScene.Layer.Registry
import PlotScene.Scene.Merge

/-!
# Layers under two presentations

Under two presentations that differ in their titles or in whether marks have tooltips, every layer
makes the same data, scales and notices, and its axes and marks differ only in what a mask hides.
-/

namespace PlotScene

open Highlight

variable {a g : Value → Value} {o o' : Presentation} {p : Plot} {s : Style}

/-! ## 1. Presentations -/

/-- Two presentations under which axes are the same through `a`. -/
structure Presentation.AxesAlike (a : Value → Value) (o o' : Presentation) : Prop where
  bottom : ∀ more, a (bottomAxis o more) = a (bottomAxis o' more)
  left : ∀ more, a (leftAxis o more) = a (leftAxis o' more)
  titled : ∀ side v w, a v = a w → a (Scene.titled o ⟨side, v⟩) = a (Scene.titled o' ⟨side, w⟩)
  orient : ∀ axis, (a axis).getD "orient" = axis.getD "orient"

/-- Two presentations under which axes are the same through `a`, and the encodings of marks through
`g`, with or without the rules of a legend. -/
structure Presentation.Alike (a g : Value → Value) (o o' : Presentation) : Prop
    extends AxesAlike a o o' where
  tooltip : ∀ m e, recoded g (withTooltip m o e) = recoded g (withTooltip m o' e)
  xyTooltip : ∀ m grouped, recoded g (withTooltip m o (xyTooltip o grouped)) =
    recoded g (withTooltip m o' (xyTooltip o' grouped))
  neutral : Neutral g

theorem axesAlike_of_labels (hx : o.xLabel = o'.xLabel) (hy : o.yLabel = o'.yLabel) :
    o.AxesAlike id o' where
  bottom more := by rw [bottomAxis, bottomAxis, hx]
  left more := by rw [leftAxis, leftAxis, hy]
  titled side v w h := by
    rw [show v = w from h, Scene.titled, Scene.titled, hx, hy]
  orient _ := rfl

theorem alike_of_labels (hx : o.xLabel = o'.xLabel) (hy : o.yLabel = o'.yLabel)
    (ht : o.tooltip = o'.tooltip) : o.Alike id id o' where
  toAxesAlike := axesAlike_of_labels hx hy
  tooltip m e := by rw [withTooltip, withTooltip, ht]
  xyTooltip m grouped := by
    rw [PlotScene.xyTooltip, PlotScene.xyTooltip, hx, hy, withTooltip, withTooltip, ht]
  neutral := neutral_id

theorem alike_of_tooltip (hx : o.xLabel = o'.xLabel) (hy : o.yLabel = o'.yLabel) :
    o.Alike id settled o' where
  toAxesAlike := axesAlike_of_labels hx hy
  tooltip m e := recoded_settled_withTooltip m o o' e e
  xyTooltip m _ := recoded_settled_withTooltip m o o' _ _
  neutral := neutral_settled

theorem withBlankTitle_axis (orient scale x y : String) (more : Value) :
    withBlankTitle (axis orient scale x more) = withBlankTitle (axis orient scale y more) := by
  rw [withBlankTitle, axis, Value.adjust_merged, withBlankTitle, axis, Value.adjust_merged]
  rfl

theorem withBlankTitle_set {v w : Value} (h : withBlankTitle v = withBlankTitle w)
    (x y : String) :
    withBlankTitle (v.set "title" (.str x)) = withBlankTitle (w.set "title" (.str y)) := by
  rw [withBlankTitle, withBlankTitle] at h
  rw [withBlankTitle, Value.adjust_set_self, h, withBlankTitle, Value.adjust_set_self]
  rfl

theorem alike_of_titles (ht : o.tooltip = o'.tooltip) :
    o.Alike withBlankTitle withBlankTooltip o' where
  bottom more := withBlankTitle_axis _ _ _ _ more
  left more := withBlankTitle_axis _ _ _ _ more
  titled side v w h := by
    rw [Scene.titled, Scene.titled]
    dsimp only
    split
    · exact withBlankTitle_set h _ _
    · exact withBlankTitle_set h _ _
    · exact h
  orient axis := by
    rw [Value.getD, withBlankTitle, Value.get?_adjust_of_ne axis (by decide), Value.getD]
  tooltip m e := recoded_blank_withTooltip m ht e e
  xyTooltip m _ := recoded_blank_withTooltip m ht _ _
  neutral := neutral_withBlankTooltip

/-! ## 2. Axes and marks -/

/-- Fragments that differ at most in what the masks of axes and of encodings hide. -/
structure Fragment.Alike (a g : Value → Value) (f f' : Fragment) : Prop where
  data : f.data = f'.data
  scales : f.scales = f'.scales
  notices : f.notices = f'.notices
  axes : List.Forall₂ (fun v w => a v = a w) f.axes f'.axes
  marks : List.Forall₂ (fun m m' => recoded g m = recoded g m') f.marks f'.marks

namespace Presentation.Alike

variable (h : o.Alike a g o')
include h

theorem bothAxes : List.Forall₂ (fun v w => a v = a w) (bothAxes o) (bothAxes o') :=
  .cons (h.bottom _) (.cons (h.left _) .nil)

theorem assembleMark (k : GeometryKind) (parts : MarkParts) :
    recoded g (assembleMark p o s k parts) = recoded g (assembleMark p o' s k parts) := by
  unfold PlotScene.assembleMark
  dsimp only
  split
  · exact h.xyTooltip _ _
  · rfl

theorem lineFragment :
    Fragment.Alike a g (GeometryKind.lineFragment p o s) (GeometryKind.lineFragment p o' s) := by
  have hline (parts : MarkParts) (order : Value) :
      recoded g ((PlotScene.assembleMark p o s .line parts).set "sort" order) =
        recoded g ((PlotScene.assembleMark p o' s .line parts).set "sort" order) := by
    rw [recoded_set (by decide), recoded_set (by decide), h.assembleMark]
  refine ⟨rfl, rfl, rfl, h.bothAxes, ?_⟩
  unfold GeometryKind.lineFragment
  dsimp only
  split
  · refine .cons ?_ .nil
    rw [recoded_facetMark, recoded_facetMark, recoded_without, recoded_without, hline]
  · exact .cons (hline _ _) .nil

theorem barFragment :
    Fragment.Alike a g (GeometryKind.barFragment p o s) (GeometryKind.barFragment p o' s) := by
  refine ⟨rfl, rfl, rfl, .cons (h.bottom _) (.cons (h.left _) .nil), ?_⟩
  unfold GeometryKind.barFragment
  dsimp only
  split
  · refine .cons ?_ .nil
    have hbars : recoded g (GeometryKind.clusteredBars p o s) =
        recoded g (GeometryKind.clusteredBars p o' s) := h.assembleMark _ _
    simp only [recoded_obj, List.map_cons, recodedAt_marks, hbars]
  · exact .cons (h.assembleMark _ _) .nil

theorem geometry (k : GeometryKind) :
    Fragment.Alike a g (k.fragment p o s) (k.fragment p o' s) := by
  cases k with
  | line => exact h.lineFragment
  | bar => exact h.barFragment
  | raster =>
    exact ⟨rfl, rfl, rfl, .cons (h.bottom _) .nil, .cons (h.assembleMark _ _) .nil⟩
  | jitter | swarm =>
    exact ⟨rfl, rfl, rfl, .cons (h.bottom _) (.cons (h.left _) .nil),
      .cons (h.assembleMark _ _) .nil⟩
  | _ => exact ⟨rfl, rfl, rfl, h.bothAxes, .cons (h.assembleMark _ _) .nil⟩

theorem groupedMark (c : Coloring) (severalName facet oneName source : String) (m : Value)
    (e : String) :
    recoded g (groupedMark c severalName facet oneName source (withTooltip m o e)) =
      recoded g (groupedMark c severalName facet oneName source (withTooltip m o' e)) := by
  rw [recoded_groupedMark, recoded_groupedMark, h.tooltip]

/-! ## 3. Layers -/

theorem regressionFragment (n : Curve.Names) (curves : List RegressionCurve) :
    Fragment.Alike a g (Curve.regressionFragment n curves p o s)
      (Curve.regressionFragment n curves p o' s) := by
  refine ⟨rfl, rfl, rfl, h.bothAxes, List.rel_append ?_ (.cons rfl (.cons ?_ .nil))⟩
  · exact List.forall₂_refl _
  · exact h.xyTooltip _ _

theorem binFragment (bins : List BinGroup) :
    Fragment.Alike a g (Bin.fragment bins p o s) (Bin.fragment bins p o' s) := by
  refine ⟨rfl, rfl, rfl, h.bothAxes, .cons ?_ .nil⟩
  split
  · rw [recoded_facetMark, recoded_facetMark, h.tooltip]
  · rw [recoded_named, recoded_named, h.tooltip]

/-- Every layer is the same under two presentations, apart from what the masks hide. -/
theorem fragment (kind : LayerKind) :
    Agree (Fragment.Alike a g) (kind.fragment p o s) (kind.fragment p o' s) := by
  cases kind with
  | geometry k => exact .ok (h.geometry k)
  | statistic k =>
    cases k with
    | glm | smooth => exact .ok (h.regressionFragment _ _)
    | bin => exact .ok (h.binFragment _)
    | summary =>
      exact .ok ⟨rfl, rfl, rfl, h.bothAxes, .cons rfl (.cons (h.groupedMark _ _ _ _ _ _ _) .nil)⟩
    | boxplot =>
      exact .ok ⟨rfl, rfl, rfl, h.bothAxes, .cons rfl (.cons rfl (.cons (h.tooltip _ _) .nil))⟩
    | density =>
      exact .ok ⟨rfl, rfl, rfl, h.bothAxes, .cons (h.groupedMark _ _ _ _ _ _ _) .nil⟩
    | violin =>
      refine .ok ⟨rfl, rfl, rfl, h.bothAxes, .cons ?_ .nil⟩
      rw [recoded_facetMark, recoded_facetMark, h.tooltip]
    | qq => exact .ok ⟨rfl, rfl, rfl, h.bothAxes, .cons (h.tooltip _ _) .nil⟩
    | bin2d =>
      refine (Agree.refl (Cell.heatScale p s)).bind fun heat _ hheat => ?_
      subst hheat
      exact .ok ⟨rfl, rfl, rfl, h.bothAxes, .cons (h.tooltip _ _) .nil⟩

end Presentation.Alike

end PlotScene
