import PlotScene.Layer.Registry
import PlotScene.Proofs.Layer.Bin
import PlotScene.Proofs.Layer.Category
import PlotScene.Proofs.Layer.Curve
import PlotScene.Proofs.Scene.Based

/-!
# What every built-in layer reads

The sources that each kind of layer brings, in their order, with the fields that they supply; and
that the layer reads nothing but these and the table.
-/

namespace PlotScene

variable {V : View} {p : Plot} {o : Presentation} {s : Style}

def StatisticKind.supplies (kind : StatisticKind) (p : Plot) (s : Style) : List Supply :=
  match kind with
  | .glm => Curve.regressionSupplies Curve.regressionNames (p.statistics.records .glm) p s
  | .smooth => Curve.regressionSupplies Curve.smoothingNames (p.statistics.records .smooth) p s
  | .bin => [⟨"bins", Bin.binFields (p.statistics.records .bin) p s⟩]
  | .summary => Category.meanSupplies (p.statistics.records .summary) p s
  | .boxplot => Category.boxSupplies
  | .density => [⟨"density", Curve.densityFields (p.statistics.records .density) p s⟩]
  | .violin => [⟨"violin", Category.violinFields (p.statistics.records .violin) p s⟩]
  | .qq => [⟨"qq", Curve.quantileFields (p.statistics.records .qq) p s⟩]
  | .bin2d => [⟨"heatmap_data", Cell.cellFields⟩]

namespace LayerKind

/-- The sources of a layer, with the fields of their rows. -/
def supplies (kind : LayerKind) (p : Plot) (s : Style) : List Supply :=
  match kind with
  | .geometry _ => []
  | .statistic k => k.supplies p s

theorem reads_fragment {kind : LayerKind} {f : Fragment} (hf : kind.fragment p o s = .ok f)
    (h : ReadsTable V p) (hV : ∀ d ∈ kind.supplies p s, V.Has d) (hS : V.HasScales f.scales) :
    f.Reads V := by
  cases kind with
  | geometry g =>
    obtain rfl := Except.ok.inj hf
    exact g.reads_fragment h hS
  | statistic k =>
    have hone {d : Supply} (hd : k.supplies p s = [d]) : V.Has d :=
      hV d (by rw [supplies, hd]; exact List.mem_singleton.mpr rfl)
    cases k with
    | glm =>
      obtain rfl := Except.ok.inj hf
      exact Curve.reads_regressionFragment h hV hS
    | smooth =>
      obtain rfl := Except.ok.inj hf
      exact Curve.reads_regressionFragment h hV hS
    | bin =>
      obtain rfl := Except.ok.inj hf
      exact Bin.reads_fragment h (hone rfl) hS
    | summary =>
      obtain rfl := Except.ok.inj hf
      exact Category.reads_meanFragment h hV hS
    | boxplot =>
      obtain rfl := Except.ok.inj hf
      exact Category.reads_boxFragment h hV hS
    | density =>
      obtain rfl := Except.ok.inj hf
      exact Curve.reads_densityFragment h (hone rfl) hS
    | violin =>
      obtain rfl := Except.ok.inj hf
      exact Category.reads_violinFragment h (hone rfl) hS
    | qq =>
      obtain rfl := Except.ok.inj hf
      exact Curve.reads_quantileFragment h (hone rfl) hS
    | bin2d => exact Cell.reads_fragment hf (hone rfl) hS

/-! ## Names of sources -/

theorem data_regressionFragment (n : Curve.Names) (curves : List RegressionCurve) :
    (Curve.regressionFragment n curves p o s).data.map (·.get? "name") =
      (Curve.regressionSupplies n curves p s).map fun d => some (.str d.source) := by
  show List.map _ (_ :: if Curve.isBanded curves = true then _ else _) =
    List.map _ (_ :: if Curve.isBanded curves = true then _ else _)
  split <;> rfl

-- The sources of a layer are those that it supplies, in the same order.
theorem names_data {kind : LayerKind} {f : Fragment} (hf : kind.fragment p o s = .ok f) :
    f.data.map (·.get? "name") = (kind.supplies p s).map fun d => some (.str d.source) := by
  cases kind with
  | geometry g =>
    obtain rfl := Except.ok.inj hf
    cases g <;> rfl
  | statistic k =>
    cases k with
    | bin2d =>
      obtain ⟨heat, -, hf⟩ := bind_eq_ok.mp hf
      obtain rfl := Except.ok.inj hf
      rfl
    | glm =>
      obtain rfl := Except.ok.inj hf
      exact data_regressionFragment _ _
    | smooth =>
      obtain rfl := Except.ok.inj hf
      exact data_regressionFragment _ _
    | _ =>
      obtain rfl := Except.ok.inj hf
      rfl

theorem based_regressionFragment (n : Curve.Names) (curves : List RegressionCurve) :
    Based [] (Curve.regressionFragment n curves p o s).data := by
  show Based [] (_ :: if Curve.isBanded curves = true then _ else _)
  apply Based.cons (n := n.curve) rfl (Or.inl rfl)
  split
  · exact Based.cons (n := n.banded) rfl (Or.inr ⟨n.curve, List.mem_singleton.mpr rfl, rfl⟩)
      Based.nil
  · exact Based.nil

/-- The sources of a layer build on earlier sources of that layer. -/
theorem based_data {kind : LayerKind} {f : Fragment} (hf : kind.fragment p o s = .ok f) :
    Based [] f.data := by
  have hsource {known : List String} {name : String} {rows vs : List Value}
      (h : Based (name :: known) vs) : Based known (Fragment.source name rows :: vs) :=
    Based.cons rfl (Or.inl rfl) h
  cases kind with
  | geometry g =>
    obtain rfl := Except.ok.inj hf
    cases g <;> exact Based.nil
  | statistic k =>
    cases k with
    | bin2d =>
      obtain ⟨heat, -, hf⟩ := bind_eq_ok.mp hf
      obtain rfl := Except.ok.inj hf
      exact hsource Based.nil
    | glm =>
      obtain rfl := Except.ok.inj hf
      exact based_regressionFragment _ _
    | smooth =>
      obtain rfl := Except.ok.inj hf
      exact based_regressionFragment _ _
    | summary =>
      obtain rfl := Except.ok.inj hf
      exact hsource (Based.cons (n := "summary_ci") rfl (Or.inl rfl) Based.nil)
    | boxplot =>
      obtain rfl := Except.ok.inj hf
      exact hsource (hsource (hsource Based.nil))
    | _ =>
      obtain rfl := Except.ok.inj hf
      exact hsource Based.nil

end LayerKind

end PlotScene
