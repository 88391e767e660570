import PlotScene.Layer.Category
import PlotScene.Proofs.Layer.Coloring

/-!
# Layers of categories read their own sources

For means, boxes and violins, the fields that the rows of their sources have to have, and that the
layers read these fields, those of the table, and nothing else.
-/

namespace PlotScene

namespace Category

variable {V : View} {p : Plot} {o : Presentation} {s : Style}

theorem encodes_centered {F S : String → Prop} {field : String} {offset : List (String × Value)}
    (hx : S "xscale" ∧ F field) (ho : ∀ m ∈ offset, Encodes F S m.2) :
    Encodes F S (centered field offset) := by
  refine encodes_scaled.mpr ⟨hx.1, fun h => absurd h (by decide), hx.2, fun m hm => ?_⟩
  rcases List.mem_cons.mp hm with rfl | hm
  · exact encodes_scalar _
  · exact ho m hm

/-! ## 1. Means -/

def meanColoring (curves : List SummaryCurve) (p : Plot) (s : Style) : Coloring :=
  Coloring.choose p (curves.map (·.group)) s.markColor

def meanSupplies (curves : List SummaryCurve) (p : Plot) (s : Style) : List Supply :=
  [⟨"summary_lines", (meanColoring curves p s).fields ["x", "y"]⟩,
   ⟨"summary_ci", (meanColoring curves p s).fields ["x", "lower", "upper"]⟩]

theorem encodes_meanPosition {F S : String → Prop} (hx : S "xscale" ∧ F "x") :
    Encodes F S (meanPosition p) := by
  rw [meanPosition]
  split
  · simpa using hx
  · exact encodes_centered hx (List.forall_mem_nil _)

theorem reads_meanFragment {curves : List SummaryCurve} (h : ReadsTable V p)
    (hV : ∀ d ∈ meanSupplies curves p s, V.Has d)
    (hS : V.HasScales (meanFragment curves p o s).scales) :
    (meanFragment curves p o s).Reads V := by
  have hline := hV _ List.mem_cons_self
  have hband := hV _ (List.mem_cons_of_mem _ List.mem_cons_self)
  have hlx : V.field "summary_lines" "x" := hline.2 _ (Coloring.own_mem_fields (by decide))
  have hly : V.field "summary_lines" "y" := hline.2 _ (Coloring.own_mem_fields (by decide))
  have hbx : V.field "summary_ci" "x" := hband.2 _ (Coloring.own_mem_fields (by decide))
  have hlow : V.field "summary_ci" "lower" := hband.2 _ (Coloring.own_mem_fields (by decide))
  have hup : V.field "summary_ci" "upper" := hband.2 _ (Coloring.own_mem_fields (by decide))
  have hx : V.scale "xscale" := hS _ List.mem_cons_self _ (get?_xScaleAs_name _ bandPadding)
  have hy : V.scale "yscale" :=
    hS _ (List.mem_cons_of_mem _ List.mem_cons_self) _ (get?_yScale_name p (some _) true)
  have hc : V.HasScales ((meanColoring curves p s).scales s "summary_lines") :=
    hS.mono fun c hc => List.mem_cons_of_mem _ (List.mem_cons_of_mem _ hc)
  refine ⟨fun c hm => ?_, axes_both o hx hy, fun m hm => ?_⟩
  · rcases List.mem_cons.mp hm with rfl | hm
    · exact scaleReads_xScaleAs h _ _
    rcases List.mem_cons.mp hm with rfl | hm
    · apply scaleReads_yScale h _ true
      intro d hd
      obtain rfl := Option.some.inj hd
      apply domainReads_unionDomain
      simpa using ⟨⟨h.source, h.y⟩, ⟨hline.1, hly⟩, ⟨hband.1, hlow⟩, hband.1, hup⟩
    · exact Coloring.scaleReads_scales h grouped_of_shared hline c hm
  · rcases List.mem_cons.mp hm with rfl | hm
    · refine reads_groupedMark hband rfl (Flat.ofObj rfl rfl ?_)
      have hfill := Coloring.encodes_encoding hband.2 hc
      apply (encodes_enter rfl).mpr
      simpa using ⟨encodes_meanPosition ⟨hx, hbx⟩, ⟨hy, hlow⟩, ⟨hy, hup⟩, hfill⟩
    · obtain rfl := List.mem_singleton.mp hm
      refine reads_groupedMark hline ?_ (Flat.withTooltip (Flat.ofObj rfl rfl ?_) _ _)
      · rw [getD_withTooltip_of_ne _ _ _ (by decide)]
        rfl
      · have hstroke := Coloring.encodes_encoding hline.2 hc
        apply (encodes_enter rfl).mpr
        simpa using ⟨encodes_meanPosition ⟨hx, hlx⟩, ⟨hy, hly⟩, hstroke⟩

/-! ## 2. Boxes -/

def boxSupplies : List Supply :=
  [⟨"boxplot_boxes", ["x", "category", "q1", "q3"]⟩,
   ⟨"boxplot_whiskers", ["x", "y_start", "y_end"]⟩, ⟨"boxplot_medians", ["x", "median"]⟩]

theorem reads_boxFragment {boxes : List Box} (h : ReadsTable V p)
    (hV : ∀ d ∈ boxSupplies, V.Has d) (hS : V.HasScales (boxFragment boxes p o s).scales) :
    (boxFragment boxes p o s).Reads V := by
  have hbox := hV _ List.mem_cons_self
  have hwhisker := hV _ (List.mem_cons_of_mem _ List.mem_cons_self)
  have hmedian := hV _ (List.mem_cons_of_mem _ (List.mem_cons_of_mem _ List.mem_cons_self))
  simp only [View.Has, List.forall_mem_cons] at hbox hwhisker hmedian
  obtain ⟨hb, hbx, hbc, hq1, hq3, -⟩ := hbox
  obtain ⟨hw, hwx, hstart, hend, -⟩ := hwhisker
  obtain ⟨hm, hmx, hmed, -⟩ := hmedian
  have hx : V.scale "xscale" := hS _ List.mem_cons_self _ rfl
  have hy : V.scale "yscale" :=
    hS _ (List.mem_cons_of_mem _ List.mem_cons_self) _ (get?_yScale_name p (some _) false)
  have hc : V.scale "categoryColor" :=
    hS _ (List.mem_cons_of_mem _ (List.mem_cons_of_mem _ List.mem_cons_self)) _ rfl
  refine ⟨?_, axes_both o hx hy, ?_⟩
  · simp only [boxFragment, List.forall_mem_cons]
    refine ⟨scaleReads_bandScale (domainReads_dataRef hb hbx), ?_,
      scaleReads_ordinalScale hb hbc, List.forall_mem_nil _⟩
    apply scaleReads_yScale h _ false
    intro d hd
    obtain rfl := Option.some.inj hd
    apply domainReads_unionDomain
    simpa using ⟨⟨h.source, h.y⟩, ⟨hb, hq1⟩, ⟨hb, hq3⟩, ⟨hw, hstart⟩, ⟨hw, hend⟩, hm, hmed⟩
  · have hoffset {F : String → Prop} {n : Int} {field : String} (hf : F field) :
        Encodes F V.scale (centered field [("offset", .int n)]) :=
      encodes_centered ⟨hx, hf⟩ (by simp)
    simp only [boxFragment, List.forall_mem_cons]
    refine ⟨?_, ?_, ?_, List.forall_mem_nil _⟩
    · refine MarkReads.flat (d := "boxplot_whiskers") rfl hw (Flat.ofObj rfl rfl ?_)
      apply (encodes_enter rfl).mpr
      have hpos : Encodes (V.field "boxplot_whiskers") V.scale (centered "x") :=
        encodes_centered ⟨hx, hwx⟩ (List.forall_mem_nil _)
      simpa [boxStroke] using ⟨hpos, ⟨hy, hstart⟩, hy, hend⟩
    · refine MarkReads.flat (d := "boxplot_boxes") rfl hb (Flat.ofObj rfl rfl ?_)
      apply (encodes_enter rfl).mpr
      simpa [boxStroke] using ⟨hoffset hbx, ⟨hy, hq3⟩, ⟨hy, hq1⟩, hc, hbc⟩
    · refine MarkReads.flat (d := "boxplot_medians") ?_ hm
        (Flat.withTooltip (Flat.ofObj rfl rfl ?_) _ _)
      · exact getD_withTooltip_of_ne _ _ _ (by decide : "from" ≠ "encode")
      · apply (encodes_enter rfl).mpr
        simpa using ⟨hoffset hmx, hoffset hmx, hy, hmed⟩

/-! ## 3. Violins -/

def violinFields (points : List ViolinPoint) (p : Plot) (s : Style) : List String :=
  (Coloring.choose p (points.map (·.group)) s.markColor).fields ["category", "y", "left", "right"]

theorem reads_violinFragment {points : List ViolinPoint} (h : ReadsTable V p)
    (hd : V.Has ⟨"violin", violinFields points p s⟩)
    (hS : V.HasScales (violinFragment points p o s).scales) :
    (violinFragment points p o s).Reads V := by
  have own {f : String} (hf : f ∈ ["category", "y", "left", "right"]) : V.field "violin" f :=
    hd.2 _ (Coloring.own_mem_fields hf)
  have hcat := own (f := "category") (by decide)
  have hfy := own (f := "y") (by decide)
  have hx : V.scale "xscale" := hS _ List.mem_cons_self _ rfl
  have hy : V.scale "yscale" :=
    hS _ (List.mem_cons_of_mem _ List.mem_cons_self) _ (get?_yScale_name p (some _) true)
  have hwidth : V.scale "violin_width" :=
    hS _ (List.mem_cons_of_mem _ (List.mem_cons_of_mem _ List.mem_cons_self)) _ rfl
  have hc := hS.mono fun c hc =>
    List.mem_cons_of_mem _ (List.mem_cons_of_mem _ (List.mem_cons_of_mem _ hc))
  refine ⟨fun c hm => ?_, axes_both o hx hy, fun m hm => ?_⟩
  · rcases List.mem_cons.mp hm with rfl | hm
    · exact scaleReads_bandScale (domainReads_dataRef hd.1 hcat)
    rcases List.mem_cons.mp hm with rfl | hm
    · apply scaleReads_yScale h _ true
      intro d hdom
      obtain rfl := Option.some.inj hdom
      exact domainReads_dataRef hd.1 hfy
    rcases List.mem_cons.mp hm with rfl | hm
    · exact scaleReads_linearScale (domainReads_list V _)
    · exact Coloring.scaleReads_scales h grouped_of_shared hd c hm
  · obtain rfl := List.mem_singleton.mp hm
    refine markReads_facetMark hd.1 (fun x hx => ?_)
      (Flat.withTooltip (Flat.ofObj rfl rfl ?_) _ _)
    · rcases List.mem_cons.mp hx with rfl | hx
      · exact ⟨"category", rfl, hcat⟩
      · obtain rfl := List.mem_singleton.mp hx
        exact ⟨"group", rfl, hd.2 _ Coloring.group_mem_fields⟩
    · have hcolor := Coloring.encodes_encoding hd.2 hc
      have hside {f : String} (hf : f ∈ ["category", "y", "left", "right"]) :
          Encodes (V.field "violin") V.scale
            (centered "category" [("offset", scaled "violin_width" f)]) :=
        encodes_centered ⟨hx, hcat⟩ (by simpa using ⟨hwidth, own hf⟩)
      apply (encodes_enter rfl).mpr
      simpa using ⟨hside (by decide), hside (by decide), ⟨hy, hfy⟩, hcolor⟩

end Category

end PlotScene
