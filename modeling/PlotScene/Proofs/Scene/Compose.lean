import PlotScene.Proofs.Scene.Based
import PlotScene.Proofs.Scene.Highlight
import PlotScene.Scene.Legend
import PlotScene.Scene.Merge

/-!
# The parts of a composed document

What stands in a document once fragments have been merged and a legend has been added: the table and
the first source for each name, the first scale for each name, the first axis for each side, the
marks with or without rules, and a legend only where there is a color scale to explain.
-/

namespace PlotScene

open Reference

/-! ## 1. Merged documents -/

namespace Scene

/-- The scalar under which a part is known. -/
def keyOf (field : String) (v : Value) : Scalar :=
  scalarOf (v.getD field)

theorem firstParts_eq {field : String} {taken : List Scalar} {vs : List Value} {ks : List Keyed}
    (h : firstParts field taken vs = .ok ks) :
    ks = (firstsAfter (keyOf field) taken vs).map fun v => ⟨keyOf field v, v⟩ := by
  obtain ⟨read, hread, rfl⟩ := map_eq_ok.mp h
  -- A part that can be read is a mapping with a scalar under the key.
  have hkeyed (v : Value) (k : Keyed) (hk : Keyed.read field v = .ok k) :
      k = ⟨keyOf field v, v⟩ := by
    obtain ⟨x, hx, hk⟩ := bind_eq_ok.mp hk
    obtain ⟨-, rfl⟩ := Value.isMap_of_field hx
    obtain ⟨s, hs, hk⟩ := bind_eq_ok.mp hk
    rw [← Except.ok.inj hk, keyOf, scalarOf_key hs]
  rw [eq_map_of_mapM hkeyed hread, firstsAfter_map]

theorem firstParts_map {field : String} {taken : List Scalar} {vs : List Value}
    {ks : List Keyed} (h : firstParts field taken vs = .ok ks) :
    ks.map Keyed.part = firstsAfter (keyOf field) taken vs := by
  rw [firstParts_eq h, List.map_map]
  exact List.map_id _

-- A title is not a scale.
theorem get?_titled (o : Presentation) (axis : Keyed) :
    (titled o axis).get? "scale" = axis.part.get? "scale" := by
  rw [titled]
  split
  · exact Value.get?_set_of_ne _ _ (by decide)
  · exact Value.get?_set_of_ne _ _ (by decide)
  · rfl

/-- The parts of a document that the fragment `f` and a table with these rows make. -/
structure Merged (f : Fragment) (rows : List Value) (spec : Value) : Prop where
  data : spec.get? "data" = some (.list (Fragment.source tableName rows ::
    firstsAfter nameOf [.str tableName] f.data))
  scales : spec.get? "scales" = some (.list (firstsAfter nameOf [] f.scales))
  axes : ∃ axes, spec.get? "axes" = some (.list axes) ∧
    ∀ a ∈ axes, ∃ b ∈ f.axes, a.get? "scale" = b.get? "scale"
  marks : spec.get? "marks" = some (.list f.marks)
  legends : spec.get? "legends" = none

theorem merged_document {f : Fragment} {rows : List Value} {o : Presentation} {s : Style}
    {spec : Value} (h : document f rows o s = .ok spec) : Merged f rows spec := by
  obtain ⟨scales, hscales, h⟩ := bind_eq_ok.mp h
  obtain ⟨data, hdata, h⟩ := bind_eq_ok.mp h
  obtain ⟨axes, haxes, h⟩ := bind_eq_ok.mp h
  have haxis : ∀ a ∈ axes.map (titled o), ∃ b ∈ f.axes, a.get? "scale" = b.get? "scale" := by
    intro a ha
    obtain ⟨k, hk, rfl⟩ := List.mem_map.mp ha
    rw [firstParts_eq haxes] at hk
    obtain ⟨b, hb, rfl⟩ := List.mem_map.mp hk
    exact ⟨b, mem_of_mem_firstsAfter hb, get?_titled o _⟩
  have hs : scales.map Keyed.part = firstsAfter nameOf [] f.scales := firstParts_map hscales
  have hd : data.map Keyed.part = firstsAfter nameOf [.str tableName] f.data :=
    firstParts_map hdata
  have hmerged : Merged f rows ((s.frame (.scalar o.widthInPixels) (.scalar o.heightInPixels)).setAll
      [("data", .list (Fragment.source tableName rows :: data.map Keyed.part)),
        ("scales", .list (scales.map Keyed.part)), ("axes", .list (axes.map (titled o))),
        ("marks", .list f.marks)]) :=
    ⟨by rw [← hd]; rfl, by rw [← hs]; rfl, ⟨_, rfl, haxis⟩, rfl, rfl⟩
  rw [← Except.ok.inj h]
  split
  · refine ⟨?_, ?_, ?_, ?_, ?_⟩ <;> rw [Value.get?_set_of_ne _ _ (by decide)]
    · exact hmerged.data
    · exact hmerged.scales
    · exact hmerged.axes
    · exact hmerged.marks
    · exact hmerged.legends
  · exact hmerged

end Scene

/-! ## 2. Legends -/

namespace Legend

theorem hasColorScale_eq_true {cs : List Value} (h : hasColorScale cs = .ok true) :
    ∃ c ∈ cs, c.get? "name" = some (.str Highlight.colorScaleName) := by
  induction cs with
  | nil => cases h
  | cons c cs ih =>
    rw [hasColorScale] at h
    obtain ⟨b, hb, h⟩ := bind_eq_ok.mp h
    split at h
    next hyes =>
      refine ⟨c, List.mem_cons_self, ?_⟩
      obtain ⟨name, hname, hb⟩ := bind_eq_ok.mp hb
      obtain ⟨type, -, hb⟩ := bind_eq_ok.mp hb
      rw [← Except.ok.inj hb, Bool.and_eq_true] at hyes
      obtain ⟨-, rfl⟩ := Value.isMap_of_field hname
      exact Value.get?_of_same hyes.1
    next =>
      obtain ⟨d, hd, hn⟩ := ih h
      exact ⟨d, List.mem_cons_of_mem _ hd, hn⟩

/-- What a legend changes in a document: nothing where none is needed, and otherwise the legends,
and with an interactive one the signals, the data and the marks. -/
inductive Composed (s : Style) (spec : Value) : Value → Prop where
  | none : Composed s spec spec
  | static (padding : Value) : Composed s spec
      ((spec.set "legends" (.list [Legend.static])).set "padding" padding)
  | interactive {present data given marks : List Value} (padding : Value) :
      spec.itemsUnder "signals" = .ok present → spec.itemsUnder "data" = .ok data →
      spec.itemsUnder "marks" = .ok given → Highlight.marks s.neutralColor given = .ok marks →
      Composed s spec ((spec.setAll [("signals", .list (present ++ signals)),
        ("data", .list (data ++ [selectionSource])), ("legends", .list [Legend.interactive]),
        ("marks", .list marks)]).set "padding" padding)

theorem composed_compose {spec spec' : Value} {rows : List Value} {reacts : Bool} {s : Style}
    (h : compose spec rows reacts s = .ok spec') :
    Composed s spec spec' ∧
      (spec' = spec ∨ ∃ cs, spec.itemsUnder "scales" = .ok cs ∧ hasColorScale cs = .ok true) := by
  obtain ⟨needed, hneeded, h⟩ := bind_eq_ok.mp h
  split at h
  next hyes =>
    have hcolor : ∃ cs, spec.itemsUnder "scales" = .ok cs ∧ hasColorScale cs = .ok true := by
      obtain ⟨cs, hcs, hneeded⟩ := bind_eq_ok.mp hneeded
      obtain ⟨b, hb, hneeded⟩ := bind_eq_ok.mp hneeded
      cases b with
      | true => exact ⟨cs, hcs, hb⟩
      | false =>
        obtain rfl := Except.ok.inj hneeded
        cases hyes
    split at h
    next =>
      obtain ⟨shown, hshown, h⟩ := bind_eq_ok.mp h
      obtain ⟨padding, -, h⟩ := bind_eq_ok.mp h
      obtain ⟨present, hpresent, hshown⟩ := bind_eq_ok.mp hshown
      obtain ⟨data, hdata, hshown⟩ := bind_eq_ok.mp hshown
      obtain ⟨given, hgiven, hshown⟩ := bind_eq_ok.mp hshown
      obtain ⟨marks, hmarks, hshown⟩ := bind_eq_ok.mp hshown
      rw [← Except.ok.inj h, ← Except.ok.inj hshown]
      exact ⟨Composed.interactive padding hpresent hdata hgiven hmarks, Or.inr hcolor⟩
    next =>
      obtain ⟨shown, hshown, h⟩ := bind_eq_ok.mp h
      obtain ⟨padding, -, h⟩ := bind_eq_ok.mp h
      rw [← Except.ok.inj h, ← Except.ok.inj hshown]
      exact ⟨Composed.static padding, Or.inr hcolor⟩
  next =>
    rw [← Except.ok.inj h]
    exact ⟨Composed.none, Or.inl rfl⟩

end Legend

end PlotScene
