import PlotScene.Files
import PlotScene.Json.Writer
import PlotScene.Presentation
import PlotScene.Settings

/-!
# Exporting documents

A document is written as JSON text, next to a page that shows it.
-/

namespace PlotScene

/-! ## 1. Texts -/

/-- The layout of exported documents; an indent of zero puts everything on one line. -/
def Settings.layout (s : Settings) : Json.Layout :=
  ⟨if s.jsonIndent = 0 then none else some s.jsonIndent.toNat⟩

/-- The text of a document. -/
def documentText (s : Settings) (spec : Value) : Except Fault String :=
  Json.document? s.layout spec

/-- The lines of a page that loads the document beside it and shows it. -/
def pageLines (s : Settings) (fileName : String) : List String :=
  ["<!DOCTYPE html>",
   "<html lang=\"en\">",
   "<head>",
   "    <meta charset=\"UTF-8\">",
   "    <meta name=\"viewport\" content=\"width=device-width, initial-scale=1.0\">",
   "    <title>Vega Chart</title>",
   "    <script src=\"" ++ s.viewerUrl ++ "\"></script>",
   "    <script src=\"" ++ s.embedUrl ++ "\"></script>",
   "</head>",
   "<body>",
   "    <div id=\"" ++ fileName ++ "_chart\"></div>",
   "    <script>",
   "        fetch(\"" ++ fileName ++ ".json\")",
   "            .then(response => response.json())",
   "            .then(spec => \x7b",
   "                vegaEmbed(\"#" ++ fileName ++ "_chart\", spec, \x7b",
   "                    actions: true,",
   "                    theme: \"default\",",
   "                    renderer: \"" ++ s.htmlRenderer ++ "\"",
   "                \x7d);",
   "            \x7d)",
   "            .catch(error => console.error(\"Error loading chart:\", error));",
   "    </script>",
   "</body>",
   "</html>"]

/-- The page that shows the document with this file name. -/
def page (s : Settings) (fileName : String) : String :=
  String.join ((pageLines s fileName).map (· ++ "\n"))

/-! ## 2. Files -/

/-- The files of an exported document. -/
structure ExportPaths where
  json : Path
  html : Path

/-- Where a presentation wants its document. -/
def Presentation.paths (o : Presentation) : ExportPaths :=
  let directory := Path.ofText o.exportPath
  ⟨directory.join (o.fileName ++ ".json"), directory.join (o.fileName ++ ".html")⟩

/-- Writes a document and its page.  The directory is created first; a document without a text is
refused before either file is touched. -/
def Filing.export (s : Settings) (spec : Value) (o : Presentation) : Filing ExportPaths := do
  makeDirectories (Path.ofText o.exportPath)
  let text ← ofExcept (documentText s spec)
  write o.paths.json (text ++ "\n")
  write o.paths.html (page s o.fileName)
  return o.paths

end PlotScene
