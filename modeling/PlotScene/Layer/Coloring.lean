import PlotScene.Scene.Encoding
import PlotScene.Scene.Scale

/-!
# Coloring the groups of a statistic

The groups of a statistic share the color scale of the observations when each of them has a color
label.  Otherwise several groups have a scale of their own, and a single group has one color.
-/

namespace PlotScene

inductive Coloring where
  /-- Through the color scale of the observations. -/
  | shared
  /-- Through a scale over the groups of the source itself. -/
  | byGroup
  /-- One color; the marks are still drawn group by group where `faceted`. -/
  | single (color : String) (faceted : Bool)
deriving DecidableEq, Repr

namespace Coloring

/-- The coloring of a statistic with records of these groups. -/
def choose (p : Plot) (groups : List Nat) (color : String) : Coloring :=
  if p.grouped && groups.all fun g => (p.groupColor? g).isSome then .shared
  else if 1 < (firsts groups).length then .byGroup
  else .single color p.grouped

/-- How the marks over a source get their color. -/
def encoding (c : Coloring) (source : String) : Value :=
  match c with
  | .shared => scaled "color" "color"
  | .byGroup => scaled (groupColorName source) "group"
  | .single color _ => constant (.str color)

/-- The scales that the encoding needs. -/
def scales (c : Coloring) (s : Style) (source : String) : List Value :=
  match c with
  | .shared => [colorScale s]
  | .byGroup => [groupColorScale s source]
  | .single _ _ => []

/-- Whether the marks are drawn group by group. -/
def faceted : Coloring → Bool
  | .shared | .byGroup => true
  | .single _ faceted => faceted

def isShared : Coloring → Bool
  | .shared => true
  | _ => false

/-- A row of a statistic: its fields, its group, and its color label where the color is shared. -/
def row (c : Coloring) (p : Plot) (group : Nat) (fields : List (String × Value)) : Value :=
  .obj (fields.map (fun f => (f.1, f.2.plain)) ++ [("group", .int group)] ++
    (if c.isShared then
      [("color", ((p.groupColor? group).map Value.str).getD .null)]
    else []))

end Coloring

/-! ## Marks over groups -/

/-- The mark with a name in front. -/
def named (name : String) (mark : Value) : Value :=
  .map ((.str "name", .str name) :: mark.entries)

/-- The mark reading another source. -/
def readingFrom (mark : Value) (source : String) : Value :=
  mark.set "from" (.obj [("data", .str source)])

/-- A mark that splits a source by fields and draws an inner mark for each part. -/
def facetMark (name facet source : String) (groupBy : Value) (inner : Value) : Value :=
  .obj [("name", .str name), ("type", .str "group"),
    ("from", .obj [("facet",
      .obj [("name", .str facet), ("data", .str source), ("groupby", groupBy)])]),
    ("marks", .list [readingFrom inner facet])]

/-- A mark over a source, drawn group by group under one name or at once under another. -/
def groupedMark (c : Coloring) (severalName facet oneName source : String) (mark : Value) : Value :=
  if c.faceted then facetMark severalName facet source (.str "group") mark
  else named oneName mark

end PlotScene
