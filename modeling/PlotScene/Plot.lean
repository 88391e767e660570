import PlotScene.Datum
import PlotScene.Notice
import PlotScene.Statistic

/-!
# Plots

A plot is what a description says once it has been read: the columns of observations, how they are
grouped by color, the layers that were asked for, and the results of statistics.
-/

namespace PlotScene

/-! ## 1. Parts of a plot -/

/-- The columns of observations.  The optional columns are as long as the column of `x`. -/
structure Aesthetics where
  x : List Value := []
  y : List Value := []
  color : Option (List Value) := none
  size : Option (List Value) := none
  shape : Option (List Value) := none
  ymin : Option (List Value) := none
  ymax : Option (List Value) := none

/-- The grouping of observations by color.  The labels are those of the colors, each once; only more
than one label makes a grouping active. -/
structure Grouping where
  active : Bool := false
  colors : Option (List Value) := none
  labels : List String := []

/-- The grouping of a column of colors. -/
def Grouping.ofColors (colors : Option (List Value)) : Grouping :=
  let labels := Value.distinctLabels (colors.getD [])
  ⟨1 < labels.length, colors, labels⟩

/-- Reads the grouping of a column of colors, all of which must have a label. -/
def Grouping.read (colors : Option (List Value)) : Except Fault Grouping := do
  let labels ← Value.distinctLabels? (colors.getD [])
  return ⟨1 < labels.length, colors, labels⟩

theorem Grouping.active_iff (colors : Option (List Value)) :
    (Grouping.ofColors colors).active = true ↔ 1 < (Grouping.ofColors colors).labels.length := by
  simp [Grouping.ofColors]

/-- A continuous color scale that the description asks for: the rows of its color map and the
numbers at which it begins and ends. -/
structure ContinuousColor where
  active : Bool := false
  colormap : Option (List (List Float)) := none
  limits : Option (Float × Float) := none

structure Plot where
  aesthetics : Aesthetics
  grouping : Grouping := {}
  continuousColor : ContinuousColor := {}
  statistics : Statistics := .empty
  /-- The layers that were asked for by name, in that order. -/
  declared : List LayerKind := []
  figureWidth : Option Value := none
  figureHeight : Option Value := none
  xLabel : Option Value := none
  yLabel : Option Value := none
  notices : List Notice := []

/-! ## 2. Questions about a plot -/

namespace Plot

/-- A plot of columns alone. -/
def ofAesthetics (a : Aesthetics) : Plot where
  aesthetics := a
  grouping := Grouping.ofColors a.color

def xNumeric (p : Plot) : Bool :=
  Value.allNumeric p.aesthetics.x

def yNumeric (p : Plot) : Bool :=
  Value.allNumeric p.aesthetics.y

/-- The labels of the categories along x.  The table is filled before any layer is built, and it
stops at an entry without a label. -/
def xLabels (p : Plot) : List String :=
  Value.distinctLabels p.aesthetics.x

/-- Whether the observations are grouped by color. -/
def grouped (p : Plot) : Bool :=
  p.grouping.active

/-- The color label under a number that counts from one, where colors group. -/
def colorAt? (p : Plot) (number : Int) : Option String :=
  if p.grouping.active && 1 ≤ number then p.grouping.labels[number.toNat - 1]? else none

theorem colorAt?_eq {p : Plot} (hp : p.grouped = true) {n : Int} (hn : 1 ≤ n) :
    p.colorAt? n = p.grouping.labels[n.toNat - 1]? := by
  have hactive : p.grouping.active = true := hp
  rw [colorAt?, hactive, Bool.true_and, if_pos (decide_eq_true hn)]

/-- The numbers with a color label are those from one up to the number of labels. -/
theorem isSome_colorAt?_iff {p : Plot} (hp : p.grouped = true) {n : Int} :
    (p.colorAt? n).isSome = true ↔ 1 ≤ n ∧ n ≤ p.grouping.labels.length := by
  by_cases hn : 1 ≤ n
  · rw [colorAt?_eq hp hn, isSome_getElem?]
    omega
  · rw [colorAt?, if_neg (by simp [hn])]
    exact iff_of_false Bool.false_ne_true fun h => hn h.1

/-- The color label of a group. -/
def groupColor? (p : Plot) (group : Nat) : Option String := p.colorAt? group

end Plot

end PlotScene
