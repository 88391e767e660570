import PlotScene.Layer.Bin
import PlotScene.Proofs.Layer.Coloring

/-!
# Layers of binned counts read their own sources

The fields that the rows of bins and cells have to have, and that histograms and heat maps read
these fields and nothing else.
-/

namespace PlotScene

variable {V : View} {p : Plot} {o : Presentation} {s : Style}

namespace Bin

/-! ## 1. Histograms -/

def binColoring (bins : List BinGroup) (p : Plot) (s : Style) : Coloring :=
  Coloring.choose p (bins.map (·.group)) (s.categoricalColors.head?.getD s.markColor)

def binFields (bins : List BinGroup) (p : Plot) (s : Style) : List String :=
  (binColoring bins p s).fields ["x_left", "x_right", "count"]

theorem reads_fragment {bins : List BinGroup} (h : ReadsTable V p)
    (hd : V.Has ⟨"bins", binFields bins p s⟩) (hS : V.HasScales (fragment bins p o s).scales) :
    (fragment bins p o s).Reads V := by
  have own {f : String} (hf : f ∈ ["x_left", "x_right", "count"]) : V.field "bins" f :=
    hd.2 _ (Coloring.own_mem_fields hf)
  have hx : V.scale "xscale" := hS _ (List.mem_append_left _ List.mem_cons_self) _ rfl
  have hy : V.scale "yscale" :=
    hS _ (List.mem_append_left _ (List.mem_cons_of_mem _ List.mem_cons_self)) _ rfl
  have hc := hS.mono fun c hc => List.mem_append_right _ hc
  have hflat : Flat (V.field "bins") V.scale
      (withTooltip (bars ((binColoring bins p s).encoding "bins")) o tooltip) := by
    refine Flat.withTooltip (Flat.ofObj rfl rfl ((encodes_enter rfl).mpr ?_)) _ _
    have hfill := Coloring.encodes_encoding hd.2 hc
    simpa using ⟨⟨hx, own (by decide)⟩, ⟨hx, own (by decide)⟩, ⟨hy, own (by decide)⟩, hy, hfill⟩
  refine ⟨fun c hm => ?_, axes_both o hx hy, fun m hm => ?_⟩
  · rcases List.mem_append.mp hm with hm | hm
    · rcases List.mem_cons.mp hm with rfl | hm
      · exact scaleReads_linearScale (domainReads_list V _)
      · obtain rfl := List.mem_singleton.mp hm
        exact scaleReads_linearScale (domainReads_list V _)
    · exact Coloring.scaleReads_scales h grouped_of_shared hd c hm
  · obtain rfl := List.mem_singleton.mp hm
    split
    · refine markReads_facetMark hd.1 (fun x hx => ?_) hflat
      obtain rfl := List.mem_singleton.mp hx
      exact ⟨"group", rfl, hd.2 _ Coloring.group_mem_fields⟩
    · refine MarkReads.flat (d := "bins") ?_ hd.1 (hflat.named _)
      apply (getD_named hflat.isMap _ (by decide : "from" ≠ "name")).trans
      exact getD_withTooltip_of_ne _ _ _ (by decide : "from" ≠ "encode")

end Bin

namespace Cell

/-! ## 2. Heat maps -/

def cellFields : List String := ["x0", "x1", "y0", "y1", "count"]

-- The color scale of the counts reads the counts, unless the description fixes its limits.
theorem heatScale_reads {heat : Value} (h : heatScale p s = .ok heat)
    (hs : V.source "heatmap_data") (hf : V.field "heatmap_data" "count") :
    heat.get? "name" = some (.str "heatColor") ∧ ScaleReads V heat := by
  unfold heatScale at h
  dsimp only at h
  obtain ⟨colors, -, h⟩ := bind_eq_ok.mp h
  split at h
  next low high =>
    rw [← Except.ok.inj h]
    exact ⟨rfl, scaleReads_of_domain (n := "heatColor") rfl rfl (domainReads_list V _)⟩
  next =>
    rw [← Except.ok.inj h]
    exact ⟨rfl, scaleReads_linearScale (domainReads_dataRef hs hf)⟩

theorem reads_fragment {cells : List Cell} {f : Fragment}
    (hf : fragment cells p o s = .ok f) (hd : V.Has ⟨"heatmap_data", cellFields⟩)
    (hS : V.HasScales f.scales) : f.Reads V := by
  obtain ⟨heat, hheat, hf⟩ := bind_eq_ok.mp hf
  obtain rfl := Except.ok.inj hf
  simp only [View.Has, cellFields, List.forall_mem_cons] at hd
  obtain ⟨hs, hx0, hx1, hy0, hy1, hcount, -⟩ := hd
  obtain ⟨hname, hreads⟩ := heatScale_reads hheat hs hcount
  have hx : V.scale "xscale" := hS _ List.mem_cons_self _ rfl
  have hy : V.scale "yscale" := hS _ (List.mem_cons_of_mem _ List.mem_cons_self) _ rfl
  have hheatColor : V.scale "heatColor" :=
    hS _ (List.mem_cons_of_mem _ (List.mem_cons_of_mem _ List.mem_cons_self)) _ hname
  refine ⟨?_, axes_both o hx hy, fun m hm => ?_⟩
  · simp only [List.forall_mem_cons]
    exact ⟨scaleReads_linearScale (domainReads_list V _),
      scaleReads_linearScale (domainReads_list V _), hreads, List.forall_mem_nil _⟩
  · obtain rfl := List.mem_singleton.mp hm
    refine MarkReads.flat (d := "heatmap_data") ?_ hs
      (Flat.withTooltip (Flat.ofObj rfl rfl ((encodes_enter rfl).mpr ?_)) _ _)
    · exact getD_withTooltip_of_ne _ _ _ (by decide : "from" ≠ "encode")
    · simpa using ⟨⟨hx, hx0⟩, ⟨hx, hx1⟩, ⟨hy, hy1⟩, ⟨hy, hy0⟩, hheatColor, hcount⟩

end Cell

end PlotScene
