import PlotScene.Layer.Geometry
import PlotScene.Proofs.Layer.Leaf
import PlotScene.Proofs.Reference.Walk
import PlotScene.Proofs.Value.Within

/-!
# The bands that marks use

A channel can use the band of a scale, and the expression that scatters points uses the band of the
x scale.  Here is what it means for the marks at every depth that all bands that they use are those
of the x scale and of the scale within a cluster of bars.
-/

namespace PlotScene

open Reference

/-! ## 1. Encodings -/

/-- The bands that a mapping uses are those of scales in `B`: a mapping with a band names its scale,
and the expression that scatters points names the x scale. -/
structure UsesBands (B : String → Prop) (e : Value) : Prop where
  channel : e.has "band" = true → ∃ n, e.get? "scale" = some (.str n) ∧ B n
  scatter : e.get? "signal" = some (.str GeometryKind.scatterExpression) → B "xscale"

/-- The bands that an encoding uses at any depth are those of scales in `B`. -/
def Bands (B : String → Prop) (v : Value) : Prop :=
  ∀ e, Value.Within e v → UsesBands B e

section

variable {B : String → Prop}

theorem usesBands_of_none {e : Value} (hband : e.has "band" = false)
    (hsignal : e.get? "signal" = none) : UsesBands B e := by
  constructor
  · intro h
    rw [hband] at h
    cases h
  · intro h
    rw [hsignal] at h
    cases h

@[simp]
theorem bands_scalar (s : Scalar) : Bands B (.scalar s) := by
  intro e he
  rw [Value.within_scalar.mp he]
  exact usesBands_of_none rfl rfl

theorem bands_list {vs : List Value} (h : ∀ v ∈ vs, Bands B v) : Bands B (.list vs) := by
  intro e he
  rcases Value.within_list.mp he with rfl | ⟨v, hv, he⟩
  · exact usesBands_of_none rfl rfl
  · exact h v hv e he

theorem bands_obj {fields : List (String × Value)} (hown : UsesBands B (.obj fields))
    (h : ∀ f ∈ fields, Bands B f.2) : Bands B (.obj fields) := by
  intro e he
  rcases Value.within_obj.mp he with rfl | ⟨f, hf, he⟩
  · exact hown
  · exact h f hf e he

theorem bands_group {fields : List (String × Value)}
    (h : ∀ f ∈ fields, f.1 ∉ channelKeys ∧ Bands B f.2) : Bands B (.obj fields) := by
  apply bands_obj ?_ fun f hf => (h f hf).2
  have hkey (key : String) (hk : key ∈ channelKeys) : ∀ f ∈ fields, f.1 ≠ key :=
    fun f hf heq => (h f hf).1 (by rw [heq]; exact hk)
  apply usesBands_of_none
  · exact Value.has_obj_eq_false (hkey "band" (by decide))
  · exact Value.get?_obj_eq_none (hkey "signal" (by decide))

theorem channelProperty_bands (B : String → Prop) : ChannelProperty (Bands B) where
  scalar := bands_scalar
  list := bands_list
  obj := bands_group
  set {v x key} hv hx hkey := by
    simp only [channelKeys, List.mem_cons, List.not_mem_nil, or_false, not_or] at hkey
    obtain ⟨hscale, -, hband, hsignal⟩ := hkey
    intro e he
    rcases Value.Within.of_set he with rfl | he | he
    · have hown := hv v (Value.Within.here v)
      constructor
      · rw [Value.has, Value.get?_set_of_ne v x hband, Value.get?_set_of_ne v x hscale]
        exact hown.channel
      · rw [Value.get?_set_of_ne v x hsignal]
        exact hown.scatter
    · exact hx e he
    · exact hv e he
  of_get? h hx := fun e he => h e (Value.Within.of_get? hx he)

@[simp]
theorem bands_constant {v : Value} (h : Bands B v) : Bands B (constant v) :=
  (channelProperty_bands B).constant h

theorem bands_enter {channels : List (String × Value)}
    (h : ∀ c ∈ channels, c.1 ∉ channelKeys ∧ Bands B c.2) :
    Bands B (.obj [("enter", .obj channels)]) :=
  bands_group (List.forall_mem_singleton.mpr ⟨(by decide : "enter" ∉ channelKeys), bands_group h⟩)

theorem bands_signalRef {expression : String}
    (h : expression = GeometryKind.scatterExpression → B "xscale") :
    Bands B (signalRef expression) := by
  apply bands_obj ⟨fun hband => ?_, fun hsignal => h ?_⟩
  · simp
  · cases hband
  · simpa using hsignal

-- A channel without a band uses none, whichever scale it goes through.
@[simp]
theorem bands_scaled (n f : String) : Bands B (scaled n f) :=
  bands_obj (usesBands_of_none rfl rfl) (by simp)

@[simp]
theorem bands_zeroBaseline : Bands B zeroBaseline :=
  bands_obj (usesBands_of_none rfl rfl) (by simp)

theorem bands_scaledBand {n f : String} {x : Scalar} {more : List (String × Value)} (hn : B n)
    (hmore : ∀ m ∈ more, m.1 ∉ channelKeys ∧ Bands B m.2) :
    Bands B (scaled n f (("band", .scalar x) :: more)) := by
  apply bands_obj
  · refine ⟨fun _ => ⟨n, rfl, hn⟩, fun hsignal => ?_⟩
    have hnone : (Value.obj more).get? "signal" = none :=
      Value.get?_obj_eq_none fun m hm heq => (hmore m hm).1 (by rw [heq]; decide)
    simp [hnone] at hsignal
  · intro m hm
    simp only [List.cons_append, List.nil_append, List.mem_cons] at hm
    rcases hm with rfl | rfl | rfl | hm
    · exact bands_scalar _
    · exact bands_scalar _
    · exact bands_scalar _
    · exact (hmore m hm).2

theorem bands_width {n : String} {x : Scalar} (hn : B n) :
    Bands B (.obj [("scale", .str n), ("band", .scalar x)]) :=
  bands_obj ⟨fun _ => ⟨n, rfl, hn⟩, fun hsignal => by simp at hsignal⟩ (by simp)

theorem bands_colorEncoding {p : Plot} {s : Style} : Bands B (colorEncoding p s) := by
  rw [colorEncoding]
  split
  · exact bands_scaled _ _
  · exact bands_constant (bands_scalar _)

theorem Coloring.bands_encoding (c : Coloring) (source : String) :
    Bands B (c.encoding source) := by
  cases c with
  | shared => exact bands_scaled _ _
  | byGroup => exact bands_scaled _ _
  | single color faceted => exact bands_constant (bands_scalar _)

theorem head?_toList_append {a b : String} {c : Char} (h : a.toList.head? = some c) :
    (a ++ b).toList.head? = some c := by
  rw [String.toList_append, List.head?_append, h]
  rfl

-- A tooltip begins with a quoted text, so it is not the expression that scatters points.
theorem bands_tooltip {expression : String} (h : expression.toList.head? = some '\'') :
    Bands B (signalRef expression) := by
  apply bands_signalRef
  rintro rfl
  exact absurd h (by decide)

theorem bands_xyTooltip (o : Presentation) (grouped : Bool) :
    Bands B (signalRef (xyTooltip o grouped)) := by
  apply bands_tooltip
  simp [xyTooltip, quotedTitle]

end

/-! ## 2. Marks -/

/-- The scales whose bands can be used where the scales `own` of marks around are at hand: the x
scale if `banded` holds, and the scale within a cluster. -/
def HasBand (banded : Prop) (own : List Value) (n : String) : Prop :=
  (n = "xscale" ∧ banded) ∨ (n = "pos" ∧ GeometryKind.clusterScale ∈ own)

/-- At every depth a mark uses bands that it can use there.  The only scale that marks have of their
own is that of a cluster. -/
inductive BandsIn (banded : Prop) : List Value → Value → Prop where
  | leaf {own : List Value} {m : Value} : Leaf (Bands (HasBand banded own)) m → BandsIn banded own m
  | group {own k : List Value} {m : Value} :
      m.isMap = true → (∀ c ∈ parts m "scales", c = GeometryKind.clusterScale) →
      Bands (HasBand banded (parts m "scales" ++ own)) (m.getD "encode") →
      m.get? "marks" = some (.list k) →
      (∀ c ∈ k, BandsIn banded (parts m "scales" ++ own) c) → BandsIn banded own m

section

variable {banded : Prop} {own : List Value} {mark : Value}

theorem bandsIn_facetMark {name facet source : String} {groupBy : Value}
    (h : Leaf (Bands (HasBand banded own)) mark) :
    BandsIn banded own (facetMark name facet source groupBy mark) := by
  have hparts : parts (facetMark name facet source groupBy mark) "scales" = [] :=
    parts_of_get?_none rfl
  refine BandsIn.group (k := [readingFrom mark facet]) rfl ?_ (bands_scalar _) rfl ?_
  · rw [hparts]
    exact List.forall_mem_nil _
  · rw [hparts]
    intro c hc
    rw [List.mem_singleton.mp hc]
    exact BandsIn.leaf (h.set _ (by decide))

theorem bandsIn_groupedMark {c : Coloring} {severalName facet oneName source : String}
    (h : Leaf (Bands (HasBand banded own)) mark) :
    BandsIn banded own (groupedMark c severalName facet oneName source mark) := by
  rw [groupedMark]
  split
  · exact bandsIn_facetMark h
  · exact BandsIn.leaf (h.named oneName)

end

end PlotScene
