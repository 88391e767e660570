import PlotScene.LayerKind

/-!
# Results of statistics

The records that a statistic's result consists of once it has been read.  Every record carries the
number of its group, which counts from one.
-/

namespace PlotScene

/-- The lower and upper bounds of a confidence band, point by point. -/
structure Band where
  lower : List Float
  upper : List Float

/-- A regression or smoothing curve, with its confidence band if one was usable. -/
structure RegressionCurve where
  group : Nat
  x : List Float
  y : List Float
  band : Option Band

/-- The bins of a histogram: the edges around them, their centers and their counts. -/
structure BinGroup where
  group : Nat
  edges : List Float
  centers : List Float
  counts : List Float

/-- A curve of means; without a usable confidence band both bounds are the curve itself. -/
structure SummaryCurve where
  group : Nat
  x : List Float
  y : List Float
  band : Band

/-- The five numbers of one category. -/
structure Box where
  group : Nat
  category : Nat
  whiskerLow : Float
  lowerQuartile : Float
  median : Float
  upperQuartile : Float
  whiskerHigh : Float

structure DensityCurve where
  group : Nat
  x : List Float
  y : List Float

/-- A point on the outline of a violin; the half width is relative to the densest point of its
category. -/
structure ViolinPoint where
  group : Nat
  category : Int
  y : Float
  density : Float
  halfWidth : Float

def ViolinPoint.left (p : ViolinPoint) : Float := -p.halfWidth

def ViolinPoint.right (p : ViolinPoint) : Float := p.halfWidth

/-- A pair of quantiles. -/
structure QuantilePoint where
  group : Nat
  theoretical : Float
  sample : Float

/-- A cell of a histogram in two dimensions, given by its center and its extent. -/
structure Cell where
  group : Nat
  x : Float
  y : Float
  count : Float
  xWidth : Float
  yWidth : Float

/-- The records of each kind of statistic. -/
def StatisticKind.Record : StatisticKind → Type
  | .glm => RegressionCurve
  | .smooth => RegressionCurve
  | .bin => BinGroup
  | .summary => SummaryCurve
  | .boxplot => Box
  | .density => DensityCurve
  | .violin => ViolinPoint
  | .qq => QuantilePoint
  | .bin2d => Cell

/-- The statistics of a plot: the kinds in the order in which they were first given, and the records
of each. -/
structure Statistics where
  order : List StatisticKind
  records : (kind : StatisticKind) → List kind.Record

namespace Statistics

def empty : Statistics where
  order := []
  records _ := []

/-- Gives a kind its records; a kind that is present keeps its place. -/
def put (s : Statistics) (kind : StatisticKind) (records : List kind.Record) : Statistics where
  order := if s.order.contains kind then s.order else s.order ++ [kind]
  records other := if h : kind = other then h ▸ records else s.records other

theorem records_put_self (s : Statistics) (kind : StatisticKind) (rs : List kind.Record) :
    (s.put kind rs).records kind = rs := by
  simp [put]

theorem records_put_of_ne (s : Statistics) {kind other : StatisticKind} (rs : List kind.Record)
    (h : kind ≠ other) : (s.put kind rs).records other = s.records other := by
  simp [put, h]

end Statistics

end PlotScene
