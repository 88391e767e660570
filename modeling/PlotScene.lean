import PlotScene.Main
import PlotScene.Proofs.Compile.Answers
import PlotScene.Proofs.Compile.Bands
import PlotScene.Proofs.Compile.Collisions
import PlotScene.Proofs.Compile.Fields
import PlotScene.Proofs.Compile.Highlighted
import PlotScene.Proofs.Compile.Isolated
import PlotScene.Proofs.Compile.Layers
import PlotScene.Proofs.Compile.Legends
import PlotScene.Proofs.Compile.Merging
import PlotScene.Proofs.Compile.Overflow
import PlotScene.Proofs.Compile.Strict
import PlotScene.Proofs.Files.Command
import PlotScene.Proofs.Files.Reload
import PlotScene.Proofs.Layer.Apart
import PlotScene.Proofs.Layer.Colored
import PlotScene.Proofs.Layer.Domain
import PlotScene.Proofs.Layer.Drawn
import PlotScene.Proofs.Layer.Heat
import PlotScene.Proofs.Plot.Colors
import PlotScene.Proofs.Plot.Labels
import PlotScene.Proofs.Plot.Observations
import PlotScene.Proofs.Plot.Spelling
import PlotScene.Proofs.Presentation.Dimension
import PlotScene.Proofs.Presentation.Options
import PlotScene.Proofs.Reference.Formed
import PlotScene.Proofs.Scene.Legend
import PlotScene.Proofs.Scene.Shaped
import PlotScene.Proofs.Scene.Tooltip
import PlotScene.Proofs.Selection.History
import PlotScene.Proofs.Selection.Reaction
import PlotScene.Proofs.Statistic.Answer
import PlotScene.Proofs.Statistic.Cells
import PlotScene.Proofs.Statistic.Layout
import PlotScene.Proofs.Palette
import PlotScene.Proofs.Double.Exact
import PlotScene.Proofs.Double.Within
import PlotScene.Proofs.Colormap
import PlotScene.Proofs.Statistic.Violin
import PlotScene.Proofs.Presentation.Dimension
