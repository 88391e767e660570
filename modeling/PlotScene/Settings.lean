/-!
# Settings

What a run can be configured with: the canvas, the colors and the exported files.  Operations take
the settings that they need as an argument.
-/

namespace PlotScene

structure Settings where
  appName : String := "vegagram"
  debug : Bool := false
  logLevel : String := "INFO"
  schemaUrl : String := "https://vega.github.io/schema/vega/v6.json"
  defaultWidth : Int := 500
  defaultHeight : Int := 500
  paddingLeft : Int := 60
  paddingRight : Int := 20
  paddingTop : Int := 20
  paddingBottom : Int := 60
  /-- The padding on the right where a legend stands. -/
  legendPaddingRight : Int := 120
  markColor : String := "#ff4565"
  neutralColor : String := "#ccc"
  referenceLineColor : String := "#808080"
  categoricalPalette : String :=
    "#fc4464,#08bc4d,#04b0fc,#ff9500,#9b59b6,#e74c3c,#2ecc71,#3498db"
  continuousPalette : String :=
    "#440154,#482777,#3f4a8a,#31678e,#26838f,#1f9d8a,#6cce5a,#b6de2b,#fee825"
  colormapSamples : Int := 9
  viewerUrl : String := "https://cdn.jsdelivr.net/npm/vega@5"
  embedUrl : String := "https://cdn.jsdelivr.net/npm/vega-embed@6"
  htmlRenderer : String := "canvas"
  jsonIndent : Int := 2

end PlotScene
