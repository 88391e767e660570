import PlotScene.Proofs.Layer.Scales

/-!
# What colored groups read

A statistic brings sources of its own, whose rows have a group and, where the color is shared, a
color label.  The encoding of its groups reads these.
-/

namespace PlotScene

open Reference

/-! ## 1. Sources of a layer -/

/-- A source and fields that all of its rows have. -/
structure Supply where
  source : String
  fields : List String

def View.Has (V : View) (d : Supply) : Prop :=
  V.source d.source ∧ ∀ f ∈ d.fields, V.field d.source f

/-- The fields of a row of a group: its own, its group, and its color label where that is shared. -/
def Coloring.fields (c : Coloring) (own : List String) : List String :=
  own ++ "group" :: if c.isShared then ["color"] else []

theorem groupColorName_ne (source : String) : groupColorName source ≠ "color" := by
  intro h
  have hlen := congrArg String.length h
  rw [groupColorName, String.length_append] at hlen
  have h10 : "GroupColor".length = 10 := rfl
  have h5 : "color".length = 5 := rfl
  omega

theorem grouped_of_shared {p : Plot} {groups : List Nat} {color : String}
    (h : (Coloring.choose p groups color).isShared = true) : p.grouped = true := by
  rw [Coloring.choose] at h
  split at h
  next hg =>
    rw [Bool.and_eq_true] at hg
    exact hg.1
  next => split at h <;> cases h

/-! ## 2. Encodings and scales of groups -/

namespace Coloring

variable {V : View} {p : Plot} {s : Style} {c : Coloring} {source : String} {own : List String}

theorem own_mem_fields {f : String} (h : f ∈ own) : f ∈ c.fields own :=
  List.mem_append_left _ h

theorem group_mem_fields : "group" ∈ c.fields own :=
  List.mem_append_right _ List.mem_cons_self

theorem color_mem_fields (h : c.isShared = true) : "color" ∈ c.fields own := by
  rw [fields, if_pos h]
  exact List.mem_append_right _ (List.mem_cons_of_mem _ List.mem_cons_self)

-- The encoding of a coloring reads the group or the color of a row.
theorem encodes_encoding {F : String → Prop} (hF : ∀ f ∈ c.fields own, F f)
    (hS : V.HasScales (c.scales s source)) : Encodes F V.scale (c.encoding source) := by
  cases c with
  | shared =>
    refine encodes_scaled.mpr ⟨?_, fun _ => ?_, ?_, by simp⟩
    · exact hS _ (List.mem_singleton.mpr rfl) "color" rfl
    · exact hF _ (color_mem_fields rfl)
    · exact hF _ (color_mem_fields rfl)
  | byGroup =>
    refine encodes_scaled.mpr ⟨?_, fun h => absurd h (groupColorName_ne source), ?_, by simp⟩
    · exact hS _ (List.mem_singleton.mpr rfl) (groupColorName source) rfl
    · exact hF _ group_mem_fields
  | single color faceted => simp [encoding]

theorem scaleReads_scales (h : ReadsTable V p) (hc : c.isShared = true → p.grouped = true)
    (hd : V.Has ⟨source, c.fields own⟩) : ∀ x ∈ c.scales s source, ScaleReads V x := by
  intro x hx
  cases c with
  | shared =>
    obtain rfl := List.mem_singleton.mp hx
    exact scaleReads_ordinalScale h.source (h.color (hc rfl))
  | byGroup =>
    obtain rfl := List.mem_singleton.mp hx
    exact scaleReads_ordinalScale hd.1 (hd.2 _ group_mem_fields)
  | single => cases hx

end Coloring

-- A mark over a source of groups, drawn group by group or at once.
theorem reads_groupedMark {V : View} {c : Coloring} {d : String} {own : List String}
    {severalName facet oneName : String} {mark : Value} (hd : V.Has ⟨d, c.fields own⟩)
    (hfrom : mark.getD "from" = .obj [("data", .str d)])
    (hm : Flat (V.field d) V.scale mark) :
    MarkReads V (groupedMark c severalName facet oneName d mark) :=
  markReads_groupedMark hd.1 (hd.2 _ Coloring.group_mem_fields) hfrom hm

end PlotScene
