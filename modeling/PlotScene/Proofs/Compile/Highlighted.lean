import PlotScene.Proofs.Compile.Legends
import PlotScene.Proofs.Scene.Ruled

/-!
# Rules in compiled documents

With a legend that reacts to clicks, the marks of a document are those of its layers with rules at
every depth, so that no mark that shows the color scale is left without them.
-/

namespace PlotScene

open Highlight Reference

variable {p : Plot} {o : Presentation} {s : Style} {r : Registry} {c : Compiled}

/-- The marks of a document with an interactive legend are marks with rules. -/
theorem marks_of_compile (h : compile p o s r = .ok c) (hreacts : o.interactive = true)
    (hlegend : c.spec.has "legends" = true) :
    ∃ given, Highlight.marks s.neutralColor given = .ok (inside c.spec) := by
  obtain ⟨table, htable, h⟩ := bind_eq_ok.mp h
  obtain ⟨⟨layers, told⟩, hbuild, h⟩ := bind_eq_ok.mp h
  obtain ⟨merged, hmerged, h⟩ := bind_eq_ok.mp h
  obtain ⟨spec, hspec, h⟩ := bind_eq_ok.mp h
  obtain ⟨ps, -, h⟩ := bind_eq_ok.mp h
  obtain rfl := Except.ok.inj h
  have hm : Scene.Merged (Fragment.joined (layers.map Layer.fragment)) table.rows merged :=
    Scene.merged_document hmerged
  obtain ⟨hpadding, hsignals⟩ := frame_of_document hmerged
  obtain ⟨needed, hneeded, -⟩ := bind_eq_ok.mp hspec
  rw [hreacts] at hspec
  cases needed with
  | false =>
    obtain rfl : merged = spec :=
      Except.ok.inj ((Legend.compose_of_not_needed hneeded true).symm.trans hspec)
    rw [Value.has, hm.legends] at hlegend
    cases hlegend
  | true =>
    have hextended :=
      Legend.extended_of_compose hneeded hpadding hsignals hm.data hm.marks hspec
    cases hextended with
    | @interactive data given marks' _ _ hrules =>
      refine ⟨given, ?_⟩
      rw [hrules]
      simp [inside, Value.getD, Value.setAll, Value.get?_set, Value.isMap_of_get? hm.data,
        Value.items]

/-- So a mark at any depth that shows the color scale has its rules. -/
theorem rules_of_compile (h : compile p o s r = .ok c) (hreacts : o.interactive = true)
    (hlegend : c.spec.has "legends" = true) {as : List Value} {m : Value}
    (hm : MarkAt (inside c.spec) as m) {channel : String}
    (hc : BindsColor (m.getD "encode") channel) :
    ((m.getD "encode").getD "update").get? "opacity" = some opacityRule ∧
      ((m.getD "encode").getD "update").get? channel = some (colorRule s.neutralColor) := by
  obtain ⟨given, hgiven⟩ := marks_of_compile h hreacts hlegend
  obtain ⟨v, hv⟩ := exists_mark_of_markAt hgiven hm
  have hmem := bindsColor_iff.mp hc
  exact ⟨get?_opacity hv (List.ne_nil_of_mem hmem), get?_channel hv hmem⟩

/-- Marks whose updates, where there are any, are mappings get their rules, at every depth: entry by
entry only encodings become others, and these only in the rules for what goes through the color
scale.  Marks that have their rules stay as they are when they get them again.  In a document with a
legend that reacts to clicks every mark that shows the color scale has them. -/
theorem compile_highlighted :
    (∀ neutral ms, (∀ m ∈ ms, TakesRules m) → ∃ ms', Highlight.marks neutral ms = .ok ms' ∧
      List.Forall₂ (RuledMark neutral) ms ms' ∧ Highlight.marks neutral ms' = .ok ms') ∧
    ∀ p o s r c, compile p o s r = .ok c → o.interactive = true → c.spec.has "legends" = true →
      ∀ as m, MarkAt (inside c.spec) as m → ∀ channel, BindsColor (m.getD "encode") channel →
        ((m.getD "encode").getD "update").get? "opacity" = some opacityRule ∧
        ((m.getD "encode").getD "update").get? channel = some (colorRule s.neutralColor) :=
  ⟨fun _ _ h => marks_exact h, fun _ _ _ _ _ h hreacts hlegend _ _ hm _ hc =>
    rules_of_compile h hreacts hlegend hm hc⟩

/-- A line that is drawn through the color scale and has a tooltip. -/
def strokedLine : Value :=
  .obj [("type", .str "line"), ("encode", .obj [
    ("enter", .obj [("stroke", .obj [("scale", .str "color"), ("field", .str "color")])]),
    ("update", .obj [("tooltip", .str "color")])])]

theorem compile_highlighted_strokedLine :
    (∃ ms', Highlight.marks "#ccc" [facetMark "series" "parts" "table" (.str "color") strokedLine] =
      .ok ms' ∧ Highlight.marks "#ccc" ms' = .ok ms') ∧
    ∃ c as m, compile groupedPlot { interactive := true } (Style.ofSettings {} none) .standard =
        .ok c ∧ c.spec.has "legends" = true ∧ MarkAt (inside c.spec) as m ∧ as ≠ [] ∧
      ((m.getD "encode").getD "update").get? "stroke" =
        some (colorRule (Style.ofSettings {} none).neutralColor) := by
  have hline : Shaped strokedLine := by
    refine Shaped.leaf ?_ (by simp)
    simp only [List.forall_mem_cons]
    exact ⟨.of_not_mem (by decide) _, fitsKey_encode (updatable_obj (by simp)),
      List.forall_mem_nil _⟩
  have hmarks : ∀ m ∈ [facetMark "series" "parts" "table" (.str "color") strokedLine],
      TakesRules m :=
    List.forall_mem_singleton.mpr (shaped_facetMark hline _ _ _ _).takesRules
  have hfacts : (compile groupedPlot { interactive := true } (Style.ofSettings {} none)
      .standard).toOption.any (fun c => c.spec.has "legends" &&
        (inside c.spec).any fun group => (inside group).any fun m =>
          (coloredChannels ((m.getD "encode").getD "enter")).contains "stroke") = true := by
    decide +kernel
  obtain ⟨c, hc, hfacts⟩ := exists_of_any hfacts
  rw [Bool.and_eq_true, List.any_eq_true] at hfacts
  obtain ⟨hlegend, group, hgroup, hline⟩ := hfacts
  obtain ⟨m, hm, hstroke⟩ := List.any_eq_true.mp hline
  have hat : MarkAt (inside c.spec) [group] m := .within (.top hgroup) hm
  have hbinds := bindsColor_iff.mpr (List.contains_iff_mem.mp hstroke)
  obtain ⟨ms', hms', -, hagain⟩ := compile_highlighted.1 "#ccc" _ hmarks
  exact ⟨⟨ms', hms', hagain⟩, c, [group], m, hc, hlegend, hat, List.cons_ne_nil _ _,
    (compile_highlighted.2 _ _ _ _ c hc rfl hlegend _ m hat _ hbinds).2⟩

end PlotScene
