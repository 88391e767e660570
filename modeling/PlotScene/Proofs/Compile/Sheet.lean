import PlotScene.Proofs.Compile.Answers
import PlotScene.Proofs.Layer.Alike

/-!
# Documents field by field

A compiled document is the frame of the style with some fields written into it: the parts of the
layers, the title, and what a legend adds.  The frame and the title are all that a document has from
the size and the title of its presentation.
-/

namespace PlotScene

open Reference

variable {p : Plot} {o o' : Presentation} {s : Style}

/-! ## 1. Fields -/

namespace Scene

/-- The axis with its title, which depends on the side on which it stands. -/
def titledAxis (o : Presentation) (axis : Value) : Value :=
  titled o ⟨keyOf "orient" axis, axis⟩

/-- What the table and a fragment fill into a document. -/
def partFields (f : Fragment) (rows : List Value) (o : Presentation) : List (String × Value) :=
  [("data", .list (Fragment.source tableName rows :: firstsAfter nameOf [.str tableName] f.data)),
   ("scales", .list (firstsAfter nameOf [] f.scales)),
   ("axes", .list ((firstsAfter (keyOf "orient") [] f.axes).map (titledAxis o))),
   ("marks", .list f.marks)]

def titleFields (o : Presentation) : List (String × Value) :=
  if o.hasTitle then [("title", .str o.title)] else []

theorem document_eq {f : Fragment} {rows : List Value} {spec : Value}
    (h : document f rows o s = .ok spec) :
    spec = (s.frame (.scalar o.widthInPixels) (.scalar o.heightInPixels)).setAll
      (partFields f rows o ++ titleFields o) := by
  obtain ⟨scales, hscales, h⟩ := bind_eq_ok.mp h
  obtain ⟨data, hdata, h⟩ := bind_eq_ok.mp h
  obtain ⟨axes, haxes, h⟩ := bind_eq_ok.mp h
  have hs : scales.map Keyed.part = firstsAfter nameOf [] f.scales := firstParts_map hscales
  have hd : data.map Keyed.part = firstsAfter nameOf [.str tableName] f.data :=
    firstParts_map hdata
  have ha : axes.map (titled o) = (firstsAfter (keyOf "orient") [] f.axes).map (titledAxis o) := by
    rw [firstParts_eq haxes, List.map_map]
    rfl
  rw [← Except.ok.inj h, hs, hd, ha, titleFields, Value.setAll_append]
  split <;> rfl

end Scene

namespace Legend

/-- What a legend adds to a document with these data sources and marks. -/
def addedFields (needed reacts : Bool) (data marks : List Value) (s : Style) :
    List (String × Value) :=
  match needed, reacts with
  | false, _ => []
  | true, false => [("legends", .list [static]), ("padding", roomy s)]
  | true, true => [("signals", .list signals), ("data", .list (data ++ [selectionSource])),
      ("legends", .list [interactive]),
      ("marks", .list (marks.map (recoded (Highlight.ruled s.neutralColor)))),
      ("padding", roomy s)]

theorem compose_eq {spec : Value} {rows data marks : List Value} {needed : Bool}
    (h : isNeeded spec rows = .ok needed) (hpadding : spec.get? "padding" = some (s.padding false))
    (hsignals : spec.get? "signals" = none) (hdata : spec.get? "data" = some (.list data))
    (hmarks : spec.get? "marks" = some (.list marks)) (hshaped : ∀ m ∈ marks, Shaped m)
    (reacts : Bool) :
    compose spec rows reacts s = .ok (spec.setAll (addedFields needed reacts data marks s)) := by
  cases needed with
  | false => exact compose_of_not_needed h reacts
  | true =>
    cases reacts with
    | false => exact compose_static h hpadding
    | true =>
      have hrules : Highlight.marks s.neutralColor marks =
          .ok (marks.map (recoded (Highlight.ruled s.neutralColor))) :=
        Highlight.marks_eq_map fun m hm => Highlight.mark_eq_recoded (hshaped m hm).takesRules
      rw [compose_interactive h hpadding hsignals hdata hmarks, hrules]
      rfl

end Legend

/-! ## 2. Documents -/

/-- The fields that are written into the frame of a document, with or without a legend. -/
def sheetFields (f : Fragment) (rows : List Value) (needed : Bool) (o : Presentation) (s : Style) :
    List (String × Value) :=
  Scene.partFields f rows o ++ Scene.titleFields o ++
    Legend.addedFields needed o.interactive
      (Fragment.source Scene.tableName rows :: firstsAfter nameOf [.str Scene.tableName] f.data)
      f.marks s

/-- The document of a fragment, with or without a legend. -/
def sheet (f : Fragment) (rows : List Value) (needed : Bool) (o : Presentation) (s : Style) :
    Value :=
  (s.frame (.scalar o.widthInPixels) (.scalar o.heightInPixels)).setAll
    (sheetFields f rows needed o s)

/-- Colors group, some layer goes through the color scale, and the rows show two colors.  Nothing of
this depends on a presentation. -/
def Plot.NeedsLegend (p : Plot) (rows : List Value) : Prop :=
  (p.grouped = true ∧ ∃ kind ∈ p.layers.1, p.BringsColor kind) ∧ Legend.TwoColors rows

theorem exists_needed (p : Plot) (rows : List Value) :
    ∃ needed : Bool, needed = true ↔ p.NeedsLegend rows := by
  by_cases h : p.NeedsLegend rows
  · exact ⟨true, iff_of_true rfl h⟩
  · exact ⟨false, iff_of_false Bool.false_ne_true h⟩

/-- A plot whose table and layers answer is compiled to their document. -/
theorem compile_sheet {table : Table} {layers : List Layer} {told : List Notice} {needed : Bool}
    (htable : Table.ofPlot p = .ok table) (hbuild : p.build o s .standard = .ok (layers, told))
    (hneeded : needed = true ↔ p.NeedsLegend table.rows) :
    compile p o s .standard = .ok {
      spec := sheet (Fragment.joined (layers.map Layer.fragment)) table.rows needed o s
      notices := p.notices ++ table.notice?.toList ++ p.overflowNotices s ++ told
      removedPoints := table.removed
      layers := layers.map Layer.kind } := by
  obtain ⟨merged, spec, ps, hmerged, hspec, -, hps, hc⟩ := compile_of_build htable hbuild
  obtain ⟨-, hfragments⟩ := layers_of_build hbuild
  -- No reference is left open, so nothing is told about references.
  obtain rfl : ps = [] :=
    (unresolved_eq_ok hps).2.mpr (scoped_of_compile builder_of_mem_standard hc)
  have hm : Scene.Merged (Fragment.joined (layers.map Layer.fragment)) table.rows merged :=
    Scene.merged_document hmerged
  obtain ⟨hpadding, hsignals⟩ := frame_of_document hmerged
  obtain ⟨b, hb, hiff⟩ := Legend.isNeeded_eq hm.scales (isMap_of_mem_joined hfragments)
    (Table.label_of_color htable)
  obtain rfl : b = needed := by
    rw [Bool.eq_iff_iff, hiff, exists_isColor_iff hfragments, hneeded, Plot.NeedsLegend]
  have hcomposed := Legend.compose_eq hb hpadding hsignals hm.data hm.marks
    (shaped_joined (shaped_of_forall₂ hfragments)) o.interactive
  obtain rfl := Except.ok.inj (hspec.symm.trans hcomposed)
  have hmerged : merged = (s.frame (.scalar o.widthInPixels) (.scalar o.heightInPixels)).setAll
      (Scene.partFields (Fragment.joined (layers.map Layer.fragment)) table.rows o ++
        Scene.titleFields o) := Scene.document_eq hmerged
  rw [hc, List.map_nil, List.append_nil, sheet, sheetFields, Value.setAll_append, ← hmerged]

/-! ## 3. The size and the title -/

theorem partFields_ne {f : Fragment} {rows : List Value} {key : String}
    (h : key ∉ ["data", "scales", "axes", "marks"]) :
    ∀ e ∈ Scene.partFields f rows o, e.1 ≠ key := by
  simpa [Scene.partFields, eq_comm] using h

theorem addedFields_ne {needed reacts : Bool} {data marks : List Value} {key : String}
    (h : key ∉ ["signals", "data", "legends", "marks", "padding"]) :
    ∀ e ∈ Legend.addedFields needed reacts data marks s, e.1 ≠ key := by
  simp only [List.mem_cons, List.not_mem_nil, or_false, not_or] at h
  cases needed <;> cases reacts <;> simp [Legend.addedFields, eq_comm, h]

theorem titleFields_ne {key : String} (h : key ≠ "title") :
    ∀ e ∈ Scene.titleFields o, e.1 ≠ key := by
  rintro e he rfl
  rw [Scene.titleFields] at he
  split at he
  · exact h (congrArg Prod.fst (List.mem_singleton.mp he))
  · cases he

section

variable (f : Fragment) (rows : List Value) (needed : Bool) (o : Presentation) (s : Style)

-- The size stands in the frame and is not written again.
theorem sheetFields_ne {key : String}
    (h : key ∉ ["data", "scales", "axes", "marks", "title", "signals", "legends", "padding"]) :
    ∀ e ∈ sheetFields f rows needed o s, e.1 ≠ key := by
  simp only [List.mem_cons, List.not_mem_nil, or_false, not_or] at h
  simp only [sheetFields, List.forall_mem_append]
  exact ⟨⟨partFields_ne (by simp [h]), titleFields_ne (by simp [h])⟩, addedFields_ne (by simp [h])⟩

theorem sheet_width (width : String) :
    sheet f rows needed { o with width := width } s =
      (sheet f rows needed o s).set "width" (.scalar (pixels width)) := by
  rw [sheet, sheet, Value.set_setAll (sheetFields_ne f rows needed o s (by decide)) rfl]
  rfl

theorem sheet_height (height : String) :
    sheet f rows needed { o with height := height } s =
      (sheet f rows needed o s).set "height" (.scalar (pixels height)) := by
  rw [sheet, sheet, Value.set_setAll (sheetFields_ne f rows needed o s (by decide)) rfl]
  rfl

theorem sheet_without_title (title : String) :
    (sheet f rows needed { o with title := title } s).without "title" =
      (sheet f rows needed o s).without "title" := by
  have htitle (v : Value) (o : Presentation) :
      (v.setAll (Scene.titleFields o)).without "title" = v.without "title" := by
    rw [Scene.titleFields]
    split
    · exact Value.without_set_self _ _ _
    · rfl
  rw [sheet, sheet, sheetFields, sheetFields, Value.setAll_append, Value.setAll_append,
    Value.setAll_append, Value.setAll_append, Value.without_setAll (addedFields_ne (by decide)), htitle,
    Value.without_setAll (addedFields_ne (by decide)), htitle]
  rfl

theorem isMap_setAll (v : Value) (fields : List (String × Value)) :
    (v.setAll fields).isMap = v.isMap := by
  induction fields generalizing v with
  | nil => rfl
  | cons f fields ih => rw [Value.setAll_cons, ih, Value.isMap_set]

theorem get?_sheet_title :
    (sheet f rows needed o s).get? "title" =
      if o.title = untitled then none else some (.str o.title) := by
  have hparts : ((s.frame (.scalar o.widthInPixels) (.scalar o.heightInPixels)).setAll
      (Scene.partFields f rows o)).get? "title" = none :=
    Value.get?_setAll_of_ne (partFields_ne (by decide)) _
  rw [sheet, sheetFields, Value.setAll_append, Value.get?_setAll_of_ne (addedFields_ne (by decide)),
    Value.setAll_append, Scene.titleFields, Presentation.hasTitle]
  by_cases h : o.title = untitled
  · rw [if_neg (by simpa using h), if_pos h]
    exact hparts
  · rw [if_pos (by simpa using h), if_neg h, Value.setAll_cons, Value.setAll, List.foldl_nil,
      Value.get?_set_self]
    rw [isMap_setAll]
    rfl

end

end PlotScene
