import PlotScene.Colormap
import PlotScene.Notice
import PlotScene.Palette
import PlotScene.Settings

/-!
# Style

The colors and measures that all layers share, and the frame of a document.
-/

namespace PlotScene

structure Style where
  schemaUrl : String
  categoricalColors : List String
  continuousColors : List String
  markColor : String
  neutralColor : String
  referenceColor : String
  paddingLeft : Int
  paddingRight : Int
  paddingTop : Int
  paddingBottom : Int
  legendPaddingRight : Int
  /-- How many colors are taken from a color map, at least two. -/
  colormapSamples : Nat

namespace Style

/-- The style of the settings, where a palette can be put in the place of theirs. -/
def ofSettings (s : Settings) (palette : Option String) : Style where
  schemaUrl := s.schemaUrl
  categoricalColors :=
    Palette.readOr (palette.getD s.categoricalPalette) (Palette.read s.categoricalPalette)
  continuousColors := Palette.read s.continuousPalette
  markColor := s.markColor
  neutralColor := s.neutralColor
  referenceColor := s.referenceLineColor
  paddingLeft := s.paddingLeft
  paddingRight := s.paddingRight
  paddingTop := s.paddingTop
  paddingBottom := s.paddingBottom
  legendPaddingRight := s.legendPaddingRight
  colormapSamples := (max 2 s.colormapSamples).toNat

/-- The space around the canvas; a legend needs more of it on the right. -/
def padding (s : Style) (withLegend : Bool) : Value :=
  .obj [("left", .int s.paddingLeft),
    ("right", .int (if withLegend then s.legendPaddingRight else s.paddingRight)),
    ("top", .int s.paddingTop), ("bottom", .int s.paddingBottom)]

/-- The frame of a document: its fields before any data. -/
def frame (s : Style) (width height : Value) : Value :=
  .obj [("$schema", .str s.schemaUrl), ("width", width), ("height", height),
    ("padding", s.padding false), ("autosize", .str "none")]

/-- The colors of a continuous scale: samples of the color map, where it is usable, or else the
continuous palette. -/
def heatColors (s : Style) (colormap : Option Value) : Except Fault (List String) := do
  match colormap with
  | none => return s.continuousColors
  | some m =>
      match ← Colormap.sample m s.colormapSamples with
      | [] => return s.continuousColors
      | colors => return colors

/-- The notice that there are more color labels than colors. -/
def overflowNotice? (s : Style) (labels : List String) : Option Notice :=
  let capacity := s.categoricalColors.length
  if labels.length ≤ capacity then none
  else some {
    code := .paletteOverflow
    message := "颜色类别数 " ++ toString labels.length ++ " 超过调色板容量 " ++ toString capacity ++
      "，超出部分的配色由渲染端决定" }

/-- The style by field names. -/
def fields (s : Style) : List (String × Value) :=
  [("schema_url", .str s.schemaUrl), ("categorical_colors", .strings s.categoricalColors),
   ("continuous_colors", .strings s.continuousColors), ("mark_color", .str s.markColor),
   ("neutral_color", .str s.neutralColor), ("reference_color", .str s.referenceColor),
   ("padding_left", .int s.paddingLeft), ("padding_right", .int s.paddingRight),
   ("padding_top", .int s.paddingTop), ("padding_bottom", .int s.paddingBottom),
   ("legend_padding_right", .int s.legendPaddingRight),
   ("colormap_samples", .int s.colormapSamples)]

end Style

end PlotScene
