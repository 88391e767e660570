import PlotScene.Layer.Geometry
import PlotScene.Proofs.Layer.Reads

/-!
# What the scales and axes of layers read

The scales of the layers by their names and by the data of their domains, and the scale that an axis
shows.
-/

namespace PlotScene

open Reference

/-! ## 1. Names -/

theorem get?_xScaleAs_name (banded : Bool) (padding : Float) :
    (xScaleAs banded padding).get? "name" = some (.str "xscale") := by
  cases banded <;> rfl

theorem get?_yScale_name (p : Plot) (domain : Option Value) (zero : Bool) :
    (yScale p domain zero).get? "name" = some (.str "yscale") := by
  cases domain with
  | some d => rfl
  | none =>
    rw [yScale]
    cases p.yNumeric <;> rfl

/-- The scales of a layer can be named in its view. -/
def View.HasScales (V : View) (scales : List Value) : Prop :=
  ∀ c ∈ scales, ∀ n, c.get? "name" = some (.str n) → V.scale n

theorem View.HasScales.mono {V : View} {cs ds : List Value} (h : V.HasScales ds)
    (hsub : ∀ c ∈ cs, c ∈ ds) : V.HasScales cs :=
  fun c hc => h c (hsub c hc)

/-! ## 2. Domains -/

variable {V : View} {s : Style}

theorem scaleReads_linearScale {name : String} {domain range : Value}
    {more : List (String × Value)} (h : DomainReads V domain) :
    ScaleReads V (linearScale name domain range more) :=
  scaleReads_of_domain (n := name) rfl rfl h

theorem scaleReads_bandScale {name range : String} {domain : Value} {padding : Float}
    (h : DomainReads V domain) : ScaleReads V (bandScale name domain range padding) :=
  scaleReads_of_domain (n := name) rfl rfl h

theorem scaleReads_ordinalScale {name source field : String} (hs : V.source source)
    (hf : V.field source field) : ScaleReads V (ordinalScale s name source field) :=
  scaleReads_of_domain (n := name) rfl rfl (domainReads_dataRef hs hf)

/-- The fields of the table that a plot has: its axes, the bounds of its intervals, and the color
where it groups. -/
structure ReadsTable (V : View) (p : Plot) : Prop where
  source : V.source "table"
  x : V.field "table" "x"
  y : V.field "table" "y"
  low : V.field "table" (GeometryKind.intervalFields p.aesthetics).1
  high : V.field "table" (GeometryKind.intervalFields p.aesthetics).2
  color : p.grouped = true → V.field "table" "color"

variable {p : Plot}

theorem scaleReads_xScaleAs (h : ReadsTable V p) (banded : Bool) (padding : Float) :
    ScaleReads V (xScaleAs banded padding) := by
  cases banded
  · exact scaleReads_linearScale (domainReads_dataRef h.source h.x)
  · exact scaleReads_bandScale (domainReads_dataRef h.source h.x)

theorem scaleReads_setAll {c : Value} {fields : List (String × Value)} (h : ScaleReads V c)
    (hk : ∀ f ∈ fields, f.1 ∉ ["name", "domain"]) : ScaleReads V (c.setAll fields) := by
  induction fields generalizing c with
  | nil => exact h
  | cons f fields ih =>
    refine ih ?_ fun g hg => hk g (List.mem_cons_of_mem _ hg)
    obtain ⟨hname, hdomain⟩ : f.1 ≠ "name" ∧ f.1 ≠ "domain" := by
      simpa using hk f List.mem_cons_self
    refine ⟨?_, ?_⟩
    · rw [Value.get?_set_of_ne c f.2 hname]
      exact h.name
    · rw [Value.getD_set_of_ne c f.2 hdomain]
      exact h.domain

-- Over a domain of its own a y scale reads that domain, and without one the table.
theorem scaleReads_yScale (h : ReadsTable V p) (domain : Option Value) (zero : Bool)
    (hd : ∀ d, domain = some d → DomainReads V d) : ScaleReads V (yScale p domain zero) := by
  unfold yScale
  refine scaleReads_setAll ?_ (by simp)
  split
  next d => exact scaleReads_linearScale (hd d rfl)
  next =>
    split
    · exact scaleReads_linearScale (domainReads_dataRef h.source h.y)
    · exact scaleReads_bandScale (domainReads_dataRef h.source h.y)

theorem scaleReads_colorScales (h : ReadsTable V p) :
    ∀ c ∈ colorScales p s, ScaleReads V c := by
  intro c hc
  rw [colorScales] at hc
  split at hc
  next hg =>
    obtain rfl := List.mem_singleton.mp hc
    exact scaleReads_ordinalScale h.source (h.color hg)
  next => cases hc

theorem scaleReads_positionScales (h : ReadsTable V p) (banded : Bool) :
    ∀ c ∈ positionScales p s banded, ScaleReads V c := by
  intro c hc
  rcases List.mem_cons.mp hc with rfl | hc
  · exact scaleReads_xScaleAs h banded _
  rcases List.mem_cons.mp hc with rfl | hc
  · exact scaleReads_yScale h none true fun d hd => by cases hd
  · exact scaleReads_colorScales h c hc

theorem View.HasScales.color (h : V.HasScales (colorScales p s)) (hg : p.grouped = true) :
    V.scale "color" := by
  refine h (colorScale s) ?_ "color" rfl
  rw [colorScales, if_pos hg]
  exact List.mem_singleton.mpr rfl

/-! ## 3. Axes -/

theorem axes_both (o : Presentation) (hx : V.scale "xscale") (hy : V.scale "yscale") :
    ∀ a ∈ bothAxes o, ∃ n, a.get? "scale" = some (.str n) ∧ V.scale n := by
  intro a ha
  rcases List.mem_cons.mp ha with rfl | ha
  · exact ⟨"xscale", rfl, hx⟩
  · obtain rfl := List.mem_singleton.mp ha
    exact ⟨"yscale", rfl, hy⟩

end PlotScene
