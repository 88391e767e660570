import PlotScene.Layer.Bin
import PlotScene.Layer.Category
import PlotScene.Layer.Curve
import PlotScene.Layer.Geometry

/-!
# Builders and their registry

A builder makes the fragment of a layer.  A registry says which builder serves which kind of layer;
a kind is registered once, unless an override is asked for.
-/

namespace PlotScene

/-- A builder with the place where it is at home, which tells it apart from other builders. -/
structure Builder where
  location : String
  build : Plot → Presentation → Style → Except Fault Fragment

namespace LayerKind

/-- What the built-in builder of a kind makes from the records that the plot has for it. -/
def fragment (kind : LayerKind) (p : Plot) (o : Presentation) (s : Style) :
    Except Fault Fragment :=
  match kind with
  | .geometry g => .ok (g.fragment p o s)
  | .statistic .glm =>
      .ok (Curve.regressionFragment Curve.regressionNames (p.statistics.records .glm) p o s)
  | .statistic .smooth =>
      .ok (Curve.regressionFragment Curve.smoothingNames (p.statistics.records .smooth) p o s)
  | .statistic .bin => .ok (Bin.fragment (p.statistics.records .bin) p o s)
  | .statistic .summary => .ok (Category.meanFragment (p.statistics.records .summary) p o s)
  | .statistic .boxplot => .ok (Category.boxFragment (p.statistics.records .boxplot) p o s)
  | .statistic .density => .ok (Curve.densityFragment (p.statistics.records .density) p o s)
  | .statistic .violin => .ok (Category.violinFragment (p.statistics.records .violin) p o s)
  | .statistic .qq => .ok (Curve.quantileFragment (p.statistics.records .qq) p o s)
  | .statistic .bin2d => Cell.fragment (p.statistics.records .bin2d) p o s

/-- The family of layers that a kind belongs to, as locations spell it. -/
def family : LayerKind → String
  | .geometry _ => "geoms"
  | .statistic .glm | .statistic .smooth => "regression"
  | .statistic .bin => "histogram"
  | .statistic .summary => "summary"
  | .statistic .boxplot | .statistic .density | .statistic .violin | .statistic .qq =>
      "distribution"
  | .statistic .bin2d => "heatmap"

/-- The built-in builder of a kind. -/
def builder (kind : LayerKind) : Builder where
  location := "vegagram.layers." ++ kind.family ++ ".build_" ++ kind.name ++ "_layer"
  build := kind.fragment

end LayerKind

/-- The builders by kind, in the order in which the kinds were first registered. -/
structure Registry where
  builders : List (LayerKind × Builder) := []

namespace Registry

def get? (r : Registry) (kind : LayerKind) : Option Builder :=
  r.builders.lookup kind

def contains (r : Registry) (kind : LayerKind) : Bool :=
  (r.get? kind).isSome

def kinds (r : Registry) : List LayerKind :=
  r.builders.map Prod.fst

/-- Puts a builder in the place of the one that a kind has, or at the end. -/
def assign : List (LayerKind × Builder) → LayerKind → Builder → List (LayerKind × Builder)
  | [], kind, builder => [(kind, builder)]
  | (k, b) :: rest, kind, builder =>
      if k = kind then (k, builder) :: rest else (k, b) :: assign rest kind builder

/-- Registers a builder.  A kind that has one keeps it, unless the override is allowed. -/
def register (r : Registry) (kind : LayerKind) (builder : Builder) (override : Bool) :
    Except Fault Registry :=
  match r.get? kind with
  | some present =>
      if override then .ok ⟨assign r.builders kind builder⟩
      else .error (.kindTaken kind present.location builder.location)
  | none => .ok ⟨assign r.builders kind builder⟩

/-- The registry of all built-in builders. -/
def standard : Registry where
  builders := LayerKind.all.map fun k => (k, k.builder)

end Registry

end PlotScene
