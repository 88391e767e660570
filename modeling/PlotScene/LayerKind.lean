import PlotScene.Text.Blank

/-!
# Kinds of layers

A layer either draws the observations themselves or the result of a statistic.  Descriptions spell a
kind as its name, with `geom_` or `stat_` before it or `_handle` after it.
-/

namespace PlotScene

inductive GeometryKind where
  | point | line | bar | jitter | swarm | raster | interval | abline | vline | hline | polygon
deriving DecidableEq, Repr

inductive StatisticKind where
  | glm | smooth | bin | summary | boxplot | density | violin | qq | bin2d
deriving DecidableEq, Repr

inductive LayerKind where
  | geometry (g : GeometryKind)
  | statistic (s : StatisticKind)
deriving DecidableEq, Repr

def GeometryKind.name : GeometryKind → String
  | .point => "point"
  | .line => "line"
  | .bar => "bar"
  | .jitter => "jitter"
  | .swarm => "swarm"
  | .raster => "raster"
  | .interval => "interval"
  | .abline => "abline"
  | .vline => "vline"
  | .hline => "hline"
  | .polygon => "polygon"

def StatisticKind.name : StatisticKind → String
  | .glm => "glm"
  | .smooth => "smooth"
  | .bin => "bin"
  | .summary => "summary"
  | .boxplot => "boxplot"
  | .density => "density"
  | .violin => "violin"
  | .qq => "qq"
  | .bin2d => "bin2d"

namespace GeometryKind

def all : List GeometryKind :=
  [.point, .line, .bar, .jitter, .swarm, .raster, .interval, .abline, .vline, .hline, .polygon]

theorem mem_all (g : GeometryKind) : g ∈ all := by cases g <;> decide

end GeometryKind

namespace StatisticKind

def all : List StatisticKind :=
  [.glm, .smooth, .bin, .summary, .boxplot, .density, .violin, .qq, .bin2d]

theorem mem_all (s : StatisticKind) : s ∈ all := by cases s <;> decide

end StatisticKind

namespace LayerKind

def all : List LayerKind :=
  GeometryKind.all.map .geometry ++ StatisticKind.all.map .statistic

theorem mem_all (k : LayerKind) : k ∈ all := by
  cases k with
  | geometry g => simp [all, GeometryKind.mem_all]
  | statistic s => simp [all, StatisticKind.mem_all]

def name : LayerKind → String
  | .geometry g => g.name
  | .statistic s => s.name

def isStatistic : LayerKind → Bool
  | .geometry _ => false
  | .statistic _ => true

/-- The kind with exactly this name. -/
def ofName? (name : String) : Option LayerKind :=
  all.find? fun k => k.name == name

/-- Removes a text from the end of a longer one. -/
def dropEnding (ending s : List Char) : List Char :=
  if ending.isSuffixOf s then s.take (s.length - ending.length) else s

/-- Removes the first of the given texts that the longer one begins with. -/
def dropOpening (openings : List (List Char)) (s : List Char) : List Char :=
  match openings.find? (·.isPrefixOf s) with
  | some opening => s.drop opening.length
  | none => s

/-- Reads a kind in any of its spellings. -/
def parse (spelling : String) : Option LayerKind :=
  let bare := dropEnding "_handle".toList (Text.lower (Text.strip spelling)).toList
  ofName? (String.ofList (dropOpening ["geom_".toList, "stat_".toList] bare))

end LayerKind

end PlotScene
