import PlotScene.Layer.Coloring
import PlotScene.Proofs.Value.Lookup
import PlotScene.Scene.Mark

/-!
# Marks that draw rows

A mark without marks or scales of its own is known by its encodings.  A property of encodings that
asks something only of the mappings that read a scale, a field or an expression is kept by what
layers do with such a mark: writing other fields, naming it, and giving it a tooltip.
-/

namespace PlotScene

/-- The keys by which a mapping inside an encoding says what it reads and through which scale. -/
def channelKeys : List String := ["scale", "field", "band", "signal"]

/-- A property of encodings that asks something only of mappings with channel keys, at any depth. -/
structure ChannelProperty (P : Value → Prop) : Prop where
  scalar : ∀ s, P (.scalar s)
  list : ∀ {vs : List Value}, (∀ v ∈ vs, P v) → P (.list vs)
  obj : ∀ {fields : List (String × Value)}, (∀ f ∈ fields, f.1 ∉ channelKeys ∧ P f.2) →
    P (.obj fields)
  set : ∀ {v x : Value} {key : String}, P v → P x → key ∉ channelKeys → P (v.set key x)
  of_get? : ∀ {v x : Value} {key : String}, P v → v.get? key = some x → P x

/-- A mark without marks or scales of its own, with a property of its encodings. -/
structure Leaf (P : Value → Prop) (m : Value) : Prop where
  isMap : m.isMap = true
  scales : m.get? "scales" = none
  marks : m.get? "marks" = none
  channels : P (m.getD "encode")

variable {P : Value → Prop}

/-! ## 1. Encodings -/

namespace ChannelProperty

variable (hP : ChannelProperty P)
include hP

theorem constant {v : Value} (h : P v) : P (constant v) :=
  hP.obj (List.forall_mem_singleton.mpr ⟨(by decide : "value" ∉ channelKeys), h⟩)

theorem empty : P (.map []) :=
  hP.obj (List.forall_mem_nil _)

theorem getD {v : Value} (h : P v) (key : String) : P (v.getD key) := by
  cases hx : v.get? key with
  | some x =>
    rw [Value.getD_of_get? hx]
    exact hP.of_get? h hx
  | none =>
    rw [Value.getD_of_get?_none hx]
    exact hP.scalar .null

theorem mappingOr {v : Value} (h : P v) : P (mappingOr v) := by
  rw [PlotScene.mappingOr]
  split
  · exact h
  · exact hP.empty

theorem setAll {v : Value} {fields : List (String × Value)} (h : P v)
    (hfields : ∀ f ∈ fields, f.1 ∉ channelKeys ∧ P f.2) : P (v.setAll fields) := by
  induction fields generalizing v with
  | nil => exact h
  | cons f fields ih =>
    obtain ⟨hkey, hx⟩ := hfields f List.mem_cons_self
    exact ih (hP.set h hx hkey) fun g hg => hfields g (List.mem_cons_of_mem _ hg)

end ChannelProperty

/-! ## 2. Marks -/

namespace Leaf

variable {m : Value}

theorem ofObj {fields : List (String × Value)} (hs : (Value.obj fields).get? "scales" = none)
    (hm : (Value.obj fields).get? "marks" = none) (hc : P ((Value.obj fields).getD "encode")) :
    Leaf P (.obj fields) :=
  ⟨rfl, hs, hm, hc⟩

theorem set (h : Leaf P m) {key : String} (x : Value)
    (hk : key ∉ ["scales", "marks", "encode"]) : Leaf P (m.set key x) := by
  simp only [List.mem_cons, List.not_mem_nil, or_false, not_or] at hk
  obtain ⟨hscales, hmarks, hencode⟩ := hk
  refine ⟨?_, ?_, ?_, ?_⟩
  · rw [Value.isMap_set]
    exact h.isMap
  · rw [Value.get?_set_of_ne m x hscales]
    exact h.scales
  · rw [Value.get?_set_of_ne m x hmarks]
    exact h.marks
  · rw [Value.getD_set_of_ne m x hencode]
    exact h.channels

theorem setEncode (h : Leaf P m) {x : Value} (hx : P x) : Leaf P (m.set "encode" x) := by
  refine ⟨?_, ?_, ?_, ?_⟩
  · rw [Value.isMap_set]
    exact h.isMap
  · rw [Value.get?_set_of_ne m x (by decide)]
    exact h.scales
  · rw [Value.get?_set_of_ne m x (by decide)]
    exact h.marks
  · rw [Value.getD, Value.get?_set_self m x "encode" h.isMap]
    exact hx

theorem without (h : Leaf P m) {key : String} (hk : key ∉ ["scales", "marks", "encode"]) :
    Leaf P (m.without key) := by
  simp only [List.mem_cons, List.not_mem_nil, or_false, not_or] at hk
  obtain ⟨hscales, hmarks, hencode⟩ := hk
  refine ⟨?_, ?_, ?_, ?_⟩
  · have hmap := h.isMap
    cases m <;> first | rfl | cases hmap
  · rw [Value.get?_without_of_ne m hscales]
    exact h.scales
  · rw [Value.get?_without_of_ne m hmarks]
    exact h.marks
  · rw [Value.getD, Value.get?_without_of_ne m hencode]
    exact h.channels

theorem withTooltip (hP : ChannelProperty P) (h : Leaf P m) (p : Presentation)
    {expression : String} (htooltip : P (signalRef expression)) :
    Leaf P (withTooltip m p expression) := by
  rw [PlotScene.withTooltip]
  have hencode := hP.mappingOr h.channels
  split
  · have hupdate := hP.mappingOr (hP.getD hencode "update")
    exact h.setEncode (hP.set hencode
      (hP.set hupdate htooltip (by decide)) (by decide))
  · exact h.setEncode hencode

end Leaf

theorem get?_named {m : Value} (hm : m.isMap = true) (name : String) {key : String}
    (hk : key ≠ "name") : (named name m).get? key = m.get? key := by
  cases m with
  | map es =>
    rw [named, Value.get?_map, Entries.lookup?_cons, if_neg (by simpa using hk.symm)]
    rfl
  | _ => cases hm

theorem getD_named {m : Value} (hm : m.isMap = true) (name : String) {key : String}
    (hk : key ≠ "name") : (named name m).getD key = m.getD key := by
  rw [Value.getD, get?_named hm name hk, Value.getD]

-- A name in front changes nothing that a mark draws.
theorem Leaf.named {m : Value} (h : Leaf P m) (name : String) : Leaf P (named name m) := by
  refine ⟨rfl, ?_, ?_, ?_⟩
  · rw [get?_named h.isMap name (by decide)]
    exact h.scales
  · rw [get?_named h.isMap name (by decide)]
    exact h.marks
  · rw [getD_named h.isMap name (by decide)]
    exact h.channels

/-! ## 3. Marks of geometries -/

section

variable (hP : ChannelProperty P) {p : Plot} {s : Style} {parts : MarkParts}
include hP

-- The constant channels of a geometry go through no scale.
theorem channels_constants (g : GeometryKind) :
    ∀ c ∈ g.markStyle.constants, c.1 ∉ channelKeys ∧ P c.2 := by
  have hdash : ∀ n : Int, P (.list [.int n, .int n]) := fun n => hP.list (by simp [hP.scalar])
  cases g <;> simp [GeometryKind.markStyle, channelKeys, hP.scalar, hdash]

theorem channels_color (g : GeometryKind) (hcolor : P (colorEncoding p s)) :
    ∀ c ∈ g.markStyle.color.channels p s, c.1 ∉ channelKeys ∧ P c.2 := by
  cases g <;> simp [GeometryKind.markStyle, MarkColor.channels, channelKeys, hcolor,
    hP.constant (hP.scalar _)]

theorem channels_enterChannels (g : GeometryKind) (hpos : P parts.position)
    (hover : parts.overrides = .null) (hcolor : P (colorEncoding p s)) :
    P (enterChannels p s g.markStyle parts) := by
  rw [enterChannels, hover]
  have hmerged (v : Value) : v.merged .null = v := by cases v <;> rfl
  rw [hmerged]
  apply hP.setAll hpos
  intro f hf
  rcases List.mem_append.mp hf with hf | hf
  · obtain ⟨c, hconst, rfl⟩ := List.mem_map.mp hf
    obtain ⟨hkey, hc⟩ := channels_constants hP g c hconst
    exact ⟨hkey, hP.constant hc⟩
  · exact channels_color hP g hcolor f hf

theorem leaf_assembleMark {o : Presentation} (g : GeometryKind) (hpos : P parts.position)
    (hupdate : P parts.update) (hover : parts.overrides = .null)
    (hcolor : P (colorEncoding p s)) (htooltip : P (signalRef (xyTooltip o p.grouped))) :
    Leaf P (assembleMark p o s g parts) := by
  have henter := channels_enterChannels hP g hpos hover hcolor
  unfold assembleMark
  dsimp only
  generalize hencode : (if parts.update.entries.isEmpty = true then _ else _) = encode
  have hchannels : P (.obj encode) := by
    rw [← hencode]
    split
    · exact hP.obj (by simpa [channelKeys] using henter)
    · exact hP.obj (by simpa [channelKeys] using ⟨henter, hupdate⟩)
  split
  · exact (Leaf.ofObj rfl rfl hchannels).withTooltip hP o htooltip
  · exact Leaf.ofObj rfl rfl hchannels

end

end PlotScene
