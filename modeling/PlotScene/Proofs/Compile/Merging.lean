import PlotScene.Proofs.Compile.Sheet

/-!
# What merging keeps

Fragments whose parts have names are merged by putting them one after the other and keeping the
first of each name.  So how the parts were spread over fragments does not matter, and neither does a
fragment that comes once more, apart from its marks.
-/

namespace PlotScene

open Reference

/-- The text under a key, empty where none stands there. -/
def Value.textUnder (key : String) (v : Value) : String :=
  match v.get? key with
  | some (.str text) => text
  | _ => ""

theorem Value.textUnder_of_get? {v : Value} {key text : String}
    (h : v.get? key = some (.str text)) : v.textUnder key = text := by
  rw [textUnder, h]

/-- The title that the axes of a side get. -/
def Presentation.sideTitle? (o : Presentation) (side : String) : Option String :=
  if side = "bottom" then some o.xLabel else if side = "left" then some o.yLabel else none

namespace Fragment

/-- Data sources and scales have a name, and axes a side on which they stand. -/
structure Named (f : Fragment) : Prop where
  data : ∀ d ∈ f.data, ∃ name, d.get? "name" = some (.str name)
  scales : ∀ c ∈ f.scales, ∃ name, c.get? "name" = some (.str name)
  axes : ∀ a ∈ f.axes, ∃ side, a.get? "orient" = some (.str side)

/-- The same parts in the same order, however they are spread over the fragments. -/
structure SameParts (fs gs : List Fragment) : Prop where
  data : fs.flatMap data = gs.flatMap data
  scales : fs.flatMap scales = gs.flatMap scales
  axes : fs.flatMap axes = gs.flatMap axes
  marks : fs.flatMap marks = gs.flatMap marks

theorem sameParts_joined (fs : List Fragment) : SameParts [joined fs] fs := by
  refine ⟨?_, ?_, ?_, ?_⟩ <;> rw [List.flatMap_singleton]
  · exact joined_data fs
  · exact joined_scales fs
  · exact joined_axes fs
  · exact joined_marks fs

theorem named_joined {fs : List Fragment} (h : ∀ f ∈ fs, f.Named) : (joined fs).Named := by
  refine ⟨fun d hd => ?_, fun c hc => ?_, fun a ha => ?_⟩
  · rw [joined_data] at hd
    obtain ⟨f, hf, hd⟩ := List.mem_flatMap.mp hd
    exact (h f hf).data d hd
  · obtain ⟨f, hf, hc⟩ := mem_joined_scales.mp hc
    exact (h f hf).scales c hc
  · obtain ⟨f, hf, ha⟩ := mem_joined_axes.mp ha
    exact (h f hf).axes a ha

end Fragment

namespace Scene

variable {o : Presentation} {s : Style} {rows : List Value}

/-- An axis with the title of its side in place of its own.  On a side without a title it is left as
it is. -/
structure Retitled (o : Presentation) (axis axis' : Value) : Prop where
  rest : axis'.without "title" = axis.without "title"
  title : ∀ title, o.sideTitle? (axis.textUnder "orient") = some title →
    axis'.get? "title" = some (.str title)
  untitled : o.sideTitle? (axis.textUnder "orient") = none → axis' = axis

/-! ## 1. The first of each name -/

section

variable {field : String} {vs : List Value}

-- Texts are keys that are equal when they are the same.
theorem firstsAfter_keyOf (h : ∀ v ∈ vs, ∃ text, v.get? field = some (.str text))
    (taken : List String) : firstsAfter (keyOf field) (taken.map Scalar.str) vs =
      firstsAfter (Value.textUnder field) taken vs := by
  have hsame (a b : String) : (Scalar.str a == Scalar.str b) = (a == b) := rfl
  refine firstsAfter_relabel hsame (fun v hv => ?_) taken
  obtain ⟨text, htext⟩ := h v hv
  rw [keyOf, Value.getD_of_get? htext, Value.textUnder_of_get? htext]
  rfl

theorem firstsAfter_keyOf_nil (h : ∀ v ∈ vs, ∃ text, v.get? field = some (.str text)) :
    firstsAfter (keyOf field) [] vs = foremost (Value.textUnder field) vs := by
  have hall : (vs.filter fun v => !([] : List String).contains (v.textUnder field)) = vs :=
    List.filter_eq_self.mpr fun _ _ => rfl
  have htexts : firstsAfter (keyOf field) [] vs = firstsAfter (Value.textUnder field) [] vs :=
    firstsAfter_keyOf h []
  rw [htexts, firstsAfter_eq_foremost, hall]

theorem firstsAfter_keyOf_again {before again after : List Value}
    (h : ∀ v ∈ before ++ after, ∃ text, v.get? field = some (.str text))
    (hagain : ∀ v ∈ again, v ∈ before) (taken : List String) :
    firstsAfter (keyOf field) (taken.map Scalar.str) (before ++ again ++ after) =
      firstsAfter (keyOf field) (taken.map Scalar.str) (before ++ after) := by
  have hall : ∀ v ∈ before ++ again ++ after, ∃ text, v.get? field = some (.str text) := by
    intro v hv
    simp only [List.mem_append] at hv h
    rcases hv with (hv | hv) | hv
    · exact h v (Or.inl hv)
    · exact h v (Or.inl (hagain v hv))
    · exact h v (Or.inr hv)
  rw [firstsAfter_keyOf hall, firstsAfter_keyOf h, firstsAfter_again _ hagain]

end

theorem retitled_titledAxis {axis : Value} {side : String}
    (h : axis.get? "orient" = some (.str side)) : Retitled o axis (titledAxis o axis) := by
  have hmap : axis.isMap = true := Value.isMap_of_get? h
  have hkey : keyOf "orient" axis = .str side := by
    rw [keyOf, Value.getD_of_get? h]
    rfl
  rw [titledAxis, hkey]
  refine ⟨?_, fun title htitle => ?_, fun hnone => ?_⟩
  · rw [titled]
    split
    · exact Value.without_set_self _ _ _
    · exact Value.without_set_self _ _ _
    · rfl
  · rw [Value.textUnder_of_get? h, Presentation.sideTitle?] at htitle
    split at htitle
    next hside =>
      rw [hside, ← Option.some.inj htitle]
      exact Value.get?_set_self _ _ _ hmap
    next =>
      split at htitle
      next hside =>
        rw [hside, ← Option.some.inj htitle]
        exact Value.get?_set_self _ _ _ hmap
      next => cases htitle
  · rw [Value.textUnder_of_get? h, Presentation.sideTitle?] at hnone
    rw [titled]
    split
    next heq =>
      obtain rfl := Scalar.str.inj heq
      cases hnone
    next heq =>
      obtain rfl := Scalar.str.inj heq
      cases hnone
    next => rfl

/-! ## 2. Documents -/

/-- Merging answers, and the document is the frame with the first parts of each name in it. -/
theorem merge_eq {fs : List Fragment} (h : ∀ f ∈ fs, f.Named) :
    merge fs rows o s = .ok ((s.frame (.scalar o.widthInPixels) (.scalar o.heightInPixels)).setAll
      (partFields (Fragment.joined fs) rows o ++ titleFields o)) := by
  have hnamed := Fragment.named_joined h
  have hanswers : ∃ spec, document (Fragment.joined fs) rows o s = .ok spec := by
    obtain ⟨scales, hscales⟩ := firstParts_answers [] hnamed.scales
    obtain ⟨data, hdata⟩ := firstParts_answers [.str tableName] hnamed.data
    obtain ⟨axes, haxes⟩ := firstParts_answers [] hnamed.axes
    rw [document, hscales, ok_bind, hdata, ok_bind, haxes, ok_bind]
    exact ⟨_, rfl⟩
  obtain ⟨spec, hspec⟩ := hanswers
  rw [← document_eq hspec]
  exact hspec

/-- The parts of a document that named fragments make, told without the keys that were taken on the
way. -/
structure Keeps (fs : List Fragment) (rows : List Value) (o : Presentation) (spec : Value) :
    Prop where
  data : spec.get? "data" = some (.list (.obj [("name", .str "table"), ("values", .list rows)] ::
    foremost (Value.textUnder "name")
      ((fs.flatMap Fragment.data).filter fun d => d.textUnder "name" != "table")))
  scales : spec.get? "scales" =
    some (.list (foremost (Value.textUnder "name") (fs.flatMap Fragment.scales)))
  axes : ∃ axes, spec.get? "axes" = some (.list axes) ∧
    List.Forall₂ (Retitled o)
      (foremost (Value.textUnder "orient") (fs.flatMap Fragment.axes)) axes
  marks : spec.get? "marks" = some (.list (fs.flatMap Fragment.marks))

section

variable {fs : List Fragment} (h : ∀ f ∈ fs, f.Named)
include h

theorem firsts_data : firstsAfter nameOf [.str tableName] (Fragment.joined fs).data =
    foremost (Value.textUnder "name")
      ((fs.flatMap Fragment.data).filter fun d => d.textUnder "name" != "table") := by
  have hother : (fun d : Value => !(["table"] : List String).contains (d.textUnder "name")) =
      fun d => d.textUnder "name" != "table" := by
    funext d
    rw [List.contains_cons, List.contains_nil, Bool.or_false, bne]
  rw [← joined_data, ← hother, ← firstsAfter_eq_foremost]
  exact firstsAfter_keyOf (Fragment.named_joined h).data ["table"]

theorem firsts_scales : firstsAfter nameOf [] (Fragment.joined fs).scales =
    foremost (Value.textUnder "name") (fs.flatMap Fragment.scales) := by
  rw [← joined_scales]
  exact firstsAfter_keyOf_nil (Fragment.named_joined h).scales

theorem firsts_axes : firstsAfter (keyOf "orient") [] (Fragment.joined fs).axes =
    foremost (Value.textUnder "orient") (fs.flatMap Fragment.axes) := by
  rw [← joined_axes]
  exact firstsAfter_keyOf_nil (Fragment.named_joined h).axes

theorem keeps_merge {spec : Value} (hspec : merge fs rows o s = .ok spec) :
    Keeps fs rows o spec := by
  have hm : Merged (Fragment.joined fs) rows spec := merged_document hspec
  have hdata := hm.data
  have hscales := hm.scales
  have hmarks := hm.marks
  rw [firsts_data h] at hdata
  rw [firsts_scales h] at hscales
  rw [joined_marks] at hmarks
  have haxes : spec.get? "axes" = some (.list ((foremost (Value.textUnder "orient")
      (fs.flatMap Fragment.axes)).map (titledAxis o))) := by
    rw [document_eq hspec, Value.setAll_append, Value.get?_setAll_of_ne (titleFields_ne (by decide)),
      ← firsts_axes h]
    rfl
  refine ⟨hdata, hscales, ⟨_, haxes, ?_⟩, hmarks⟩
  rw [List.forall₂_map_right_iff, List.forall₂_same, ← firsts_axes h]
  intro axis haxis
  obtain ⟨side, hside⟩ := (Fragment.named_joined h).axes axis (mem_of_mem_firstsAfter haxis)
  exact retitled_titledAxis hside

end

/-! ## 3. Merging again -/

-- Only the parts of the fragments count, one list after the other.
theorem merge_congr {fs gs : List Fragment} (h : Fragment.SameParts fs gs) :
    merge fs rows o s = merge gs rows o s := by
  have hdata : (Fragment.joined fs).data = (Fragment.joined gs).data := by
    rw [joined_data, joined_data, h.data]
  have hscales : (Fragment.joined fs).scales = (Fragment.joined gs).scales := by
    rw [joined_scales, joined_scales, h.scales]
  have haxes : (Fragment.joined fs).axes = (Fragment.joined gs).axes := by
    rw [joined_axes, joined_axes, h.axes]
  have hmarks : (Fragment.joined fs).marks = (Fragment.joined gs).marks := by
    rw [joined_marks, joined_marks, h.marks]
  show document (Fragment.joined fs) rows o s = document (Fragment.joined gs) rows o s
  rw [document, document, hdata, hscales, haxes, hmarks]

-- The marks are written after the other parts, and the title is no part.
theorem setAll_marks (f : Fragment) (marks : List Value) :
    (s.frame (.scalar o.widthInPixels) (.scalar o.heightInPixels)).setAll
        (partFields { f with marks := marks } rows o ++ titleFields o) =
      ((s.frame (.scalar o.widthInPixels) (.scalar o.heightInPixels)).setAll
        (partFields f rows o ++ titleFields o)).set "marks" (.list marks) := by
  have hmarks : ((s.frame (.scalar o.widthInPixels) (.scalar o.heightInPixels)).setAll
      (partFields f rows o)).has "marks" = true := rfl
  rw [Value.setAll_append, Value.setAll_append, Value.set_setAll (titleFields_ne (by decide)) hmarks]
  rfl

section

variable {before again after : List Fragment} (h : ∀ f ∈ before ++ after, f.Named)
  (hagain : ∀ f ∈ again, f ∈ before)
include h hagain

theorem named_again : ∀ f ∈ before ++ again ++ after, f.Named := by
  intro f hf
  simp only [List.mem_append] at hf h
  rcases hf with (hf | hf) | hf
  · exact h f (Or.inl hf)
  · exact h f (Or.inl (hagain f hf))
  · exact h f (Or.inr hf)

-- A part of a fragment that comes again was there before.
theorem firstsAfter_parts_again {field : String} {part : Fragment → List Value}
    (hpart : ∀ f : Fragment, f.Named → ∀ v ∈ part f, ∃ text, v.get? field = some (.str text))
    (taken : List String) :
    firstsAfter (keyOf field) (taken.map Scalar.str) ((before ++ again ++ after).flatMap part) =
      firstsAfter (keyOf field) (taken.map Scalar.str) ((before ++ after).flatMap part) := by
  have hparts : ∀ v ∈ again.flatMap part, v ∈ before.flatMap part := by
    intro v hv
    obtain ⟨f, hf, hv⟩ := List.mem_flatMap.mp hv
    exact List.mem_flatMap.mpr ⟨f, hagain f hf, hv⟩
  have htexts : ∀ v ∈ before.flatMap part ++ after.flatMap part,
      ∃ text, v.get? field = some (.str text) := by
    intro v hv
    rw [← List.flatMap_append] at hv
    obtain ⟨f, hf, hv⟩ := List.mem_flatMap.mp hv
    exact hpart f (h f hf) v hv
  simp only [List.flatMap_append]
  exact firstsAfter_keyOf_again htexts hparts taken

/-- Fragments that come again after they were merged change the marks and nothing else. -/
theorem merge_again {spec : Value} (hspec : merge (before ++ after) rows o s = .ok spec) :
    merge (before ++ again ++ after) rows o s =
      .ok (spec.set "marks" (.list ((before ++ again ++ after).flatMap Fragment.marks))) := by
  have hdata : firstsAfter nameOf [.str tableName] (Fragment.joined (before ++ again ++ after)).data =
      firstsAfter nameOf [.str tableName] (Fragment.joined (before ++ after)).data := by
    rw [joined_data, joined_data]
    exact firstsAfter_parts_again h hagain (fun f hf => hf.data) ["table"]
  have hscales : firstsAfter nameOf [] (Fragment.joined (before ++ again ++ after)).scales =
      firstsAfter nameOf [] (Fragment.joined (before ++ after)).scales := by
    rw [joined_scales, joined_scales]
    exact firstsAfter_parts_again h hagain (fun f hf => hf.scales) []
  have haxes : firstsAfter (keyOf "orient") [] (Fragment.joined (before ++ again ++ after)).axes =
      firstsAfter (keyOf "orient") [] (Fragment.joined (before ++ after)).axes := by
    rw [joined_axes, joined_axes]
    exact firstsAfter_parts_again h hagain (fun f hf => hf.axes) []
  have hfields : partFields (Fragment.joined (before ++ again ++ after)) rows o = partFields
      { Fragment.joined (before ++ after) with
        marks := (before ++ again ++ after).flatMap Fragment.marks } rows o := by
    rw [partFields, partFields, joined_marks, hdata, hscales, haxes]
  rw [merge_eq h] at hspec
  rw [merge_eq (named_again h hagain), ← Except.ok.inj hspec, hfields, setAll_marks]

end

/-- Merging fragments whose parts have names answers.  The table comes first and is the only source
of its name; of each other name there is the first source, and likewise the first scale of each name
and the first axis of each side with the title of that side; all marks are there.  Other fragments
with the same parts, among them the single one that holds all, give the same document, and fragments
that come again after they were merged change its marks and nothing else. -/
theorem merge_foremost {fs : List Fragment} (h : ∀ f ∈ fs, f.Named) (rows : List Value)
    (o : Presentation) (s : Style) : ∃ spec, merge fs rows o s = .ok spec ∧ Keeps fs rows o spec ∧
      (∀ gs, Fragment.SameParts gs fs → merge gs rows o s = .ok spec) ∧
      merge [Fragment.joined fs] rows o s = .ok spec ∧
      ∀ before after, fs = before ++ after → ∀ again, (∀ f ∈ again, f ∈ before) →
        merge (before ++ again ++ after) rows o s = .ok
          (spec.set "marks" (.list ((before ++ again ++ after).flatMap Fragment.marks))) := by
  have hspec : merge fs rows o s = .ok _ := merge_eq h
  refine ⟨_, hspec, keeps_merge h hspec, fun gs hgs => ?_, ?_, ?_⟩
  · rw [merge_congr hgs, hspec]
  · rw [merge_congr (Fragment.sameParts_joined fs), hspec]
  · rintro before after rfl again hagain
    exact merge_again h hagain hspec

/-- Two layers with sources and scales of the same names, where the first brings a table. -/
def twiceNamed : List Fragment :=
  [{ data := [Fragment.source "table" [], Fragment.source "stats" []]
     scales := [.obj [("name", .str "xscale"), ("type", .str "band")]]
     axes := [.obj [("orient", .str "bottom"), ("title", .str "first")]]
     marks := [.obj [("name", .str "bars")]] },
   { data := [Fragment.source "stats" [.int 1], Fragment.source "means" []]
     scales := [.obj [("name", .str "xscale"), ("type", .str "linear")]]
     axes := [.obj [("orient", .str "bottom")], .obj [("orient", .str "right")]]
     marks := [.obj [("name", .str "lines")]] }]

theorem merge_foremost_twiceNamed : (∀ f ∈ twiceNamed, f.Named) ∧
    ∃ spec, merge twiceNamed [.int 7] {} (Style.ofSettings {} none) = .ok spec ∧
      spec.get? "data" = some (.list [Fragment.source "table" [.int 7], Fragment.source "stats" [],
        Fragment.source "means" []]) ∧
      spec.get? "scales" = some (.list [.obj [("name", .str "xscale"), ("type", .str "band")]]) ∧
      merge (twiceNamed ++ twiceNamed) [.int 7] {} (Style.ofSettings {} none) = .ok
        (spec.set "marks" (.list ((twiceNamed ++ twiceNamed).flatMap Fragment.marks))) := by
  have hnamed : ∀ f ∈ twiceNamed, f.Named := by
    refine List.forall_mem_cons.mpr ⟨⟨?_, ?_, ?_⟩, List.forall_mem_singleton.mpr ⟨?_, ?_, ?_⟩⟩ <;>
      simp [Fragment.source]
  obtain ⟨spec, hspec, hkeeps, -, -, hagain⟩ :=
    merge_foremost hnamed [.int 7] {} (Style.ofSettings {} none)
  refine ⟨hnamed, spec, hspec, hkeeps.data, hkeeps.scales, ?_⟩
  have htwice := hagain twiceNamed [] (List.append_nil _).symm twiceNamed fun f hf => hf
  rwa [List.append_nil] at htwice

end Scene

end PlotScene
