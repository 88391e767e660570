import PlotScene.CommandLine.Argument
import PlotScene.Compile
import PlotScene.Files.Description
import PlotScene.Files.Export

/-!
# The command line

There is one command: `export` reads a description, compiles it and writes the document and its
page. A broken contract of the caller is told on the error channel and ends the command with status
one; a command line that cannot be understood ends it with status two.
-/

namespace PlotScene.CommandLine

/-! ## 1. What can be asked for -/

inductive Key where
  | help | verbose | fileName | exportPath | width | height | title | x | y | interactive
  | noTooltip
deriving DecidableEq, Repr

/-- The options before the command. -/
def generalOptions : List (OptionSpec Key) :=
  [⟨.help, ["-h", "--help"], false⟩, ⟨.verbose, ["-v", "--verbose"], false⟩]

/-- The options of the command `export`. -/
def exportOptions : List (OptionSpec Key) :=
  [⟨.help, ["-h", "--help"], false⟩, ⟨.fileName, ["--file-name"], true⟩,
   ⟨.exportPath, ["--export-path"], true⟩, ⟨.width, ["--width"], true⟩,
   ⟨.height, ["--height"], true⟩, ⟨.title, ["--title"], true⟩, ⟨.x, ["-x"], true⟩,
   ⟨.y, ["-y"], true⟩, ⟨.interactive, ["--interactive"], false⟩,
   ⟨.noTooltip, ["--no-tooltip"], false⟩]

/-- A request to export the description in a file. -/
structure Request where
  description : String
  settings : List (Setting Key) := []

namespace Request

/-- The last value that an option was given. -/
def value? (r : Request) (key : Key) : Option String :=
  (r.settings.reverse.find? fun s => s.1 == key).bind Prod.snd

def has (r : Request) (key : Key) : Bool :=
  r.settings.any fun s => s.1 == key

/-- The output options that carry a text. -/
def textOptions : List (String × Key) :=
  [("file_name", .fileName), ("export_path", .exportPath), ("width", .width), ("height", .height),
   ("title", .title), ("x", .x), ("y", .y)]

/-- The output options of a request. -/
def options (r : Request) : NamedValues :=
  textOptions.filterMap (fun (name, key) => (r.value? key).map fun text => (name, .str text)) ++
    [("interactive", .str (flagText (r.has .interactive))),
     ("tooltip", .str (flagText (!r.has .noTooltip)))]

end Request

/-! ## 2. Reading the command line -/

/-- How a command line ends that asks for help, and one that cannot be understood. -/
def helpStatus : Nat := 0

def usageStatus : Nat := 2

/-- What has been gathered from the words of a command. -/
structure Gathered where
  description : Option String := none
  /-- Whether the last word was the description. -/
  described : Bool := false
  settings : List (Setting Key) := []
  /-- Whether there were words that nothing takes. -/
  leftover : Bool := false

/-- Adds settings; a call for help ends the reading. -/
def Gathered.add (g : Gathered) (settings : List (Setting Key)) : Except Nat Gathered :=
  if settings.any fun s => s.1 == .help then .error helpStatus
  else .ok { g with settings := g.settings ++ settings, described := false }

/-- Gathers the words of a command; `pending` are the settings before a value that is still needed,
and the option that needs it.  A separator is part of the description that it stands beside. -/
def gather (specs : List (OptionSpec Key)) :
    Option (List (Setting Key) × OptionSpec Key) → Gathered → List (Word Key) →
      Except Nat Gathered
  | none, g, [] => .ok g
  | some _, _, [] => .error usageStatus
  | some (before, s), g, .plain text :: rest => do
      gather specs none (← g.add (before ++ [(s.key, some text)])) rest
  | some _, _, _ :: _ => .error usageStatus
  | none, g, .plain text :: rest =>
      if g.description.isNone then
        gather specs none { g with description := some text, described := true } rest
      else gather specs none { g with described := false, leftover := true } rest
  | none, g, .separator :: rest =>
      let absorbed := g.description.isNone || g.described
      gather specs none { g with described := false, leftover := g.leftover || !absorbed } rest
  | none, g, .unknownOption :: rest =>
      gather specs none { g with described := false, leftover := true } rest
  | none, g, .option o :: rest =>
      match effect? specs o with
      | none => .error usageStatus
      | some ⟨before, some s, _⟩ => gather specs (some (before, s)) g rest
      | some ⟨settings, none, leftover⟩ => do
          let g ← g.add settings
          gather specs none { g with leftover := g.leftover || leftover } rest

/-- Gathers words that have first to be told apart. -/
def gatherTexts (specs : List (OptionSpec Key)) (texts : List String) : Except Nat Gathered :=
  match classifyAll specs texts with
  | .error _ => .error usageStatus
  | .ok words => gather specs none {} words

/-- Whether a word stands before the command. -/
def isLeading : Word Key → Bool
  | .option _ | .unknownOption => true
  | .plain _ | .separator => false

/-- Reads a command line; a command line without a request ends with a status. -/
def read (argv : List String) : Except Nat Request := do
  let words ← match classifyAll generalOptions argv with
    | .error _ => throw usageStatus
    | .ok words => pure words
  let general ← gather generalOptions none {} (words.takeWhile isLeading)
  match argv.drop (words.takeWhile isLeading).length with
  | "export" :: texts =>
      let g ← gatherTexts exportOptions texts
      match g.description with
      | some description =>
          if g.leftover || general.leftover then throw usageStatus
          else return ⟨description, g.settings⟩
      | none => throw usageStatus
  | _ => throw usageStatus

/-! ## 3. Running a request -/

/-- What a run leaves on its channels. -/
structure Outcome where
  status : Nat
  output : String := ""
  errors : String := ""
deriving DecidableEq, Repr

def noticeLine (n : Notice) : String :=
  "[" ++ n.code.text ++ "] " ++ n.message ++ "\n"

/-- Reads the plot of a request and the presentation that it asks for. -/
def prepare (s : Settings) (r : Request) : Filing (Plot × Presentation) := do
  let description ← Filing.loadDescription r.description
  let plot ← Filing.ofExcept (Plot.ofDescription description)
  let o ← Filing.ofExcept (Presentation.ofNamedValues s r.options (some plot))
  return (plot, o)

/-- Compiles a plot and writes its document. -/
def exportPlot (s : Settings) (plot : Plot) (o : Presentation) : Filing Outcome := do
  let compiled ← Filing.ofExcept (compile plot o (Style.ofSettings s none) .standard)
  let paths ← Filing.export s compiled.spec o
  return {
    status := 0
    output := "✓ Vega 文档: " ++ paths.json.text ++ "\n✓ HTML 预览: " ++ paths.html.text ++ "\n"
    errors := String.join (compiled.notices.map noticeLine) }

/-- Prepares a request; a configuration fault is an answer of its own. -/
def tryPrepare (s : Settings) (r : Request) :
    Filing (Except ConfigurationFault (Plot × Presentation)) :=
  tryCatch (Except.ok <$> prepare s r) fun
    | .configuration f => pure (.error f)
    | other => throw other

/-- Runs a request.  A configuration fault before the compilation is told to the caller. -/
def run (s : Settings) (r : Request) : Filing Outcome := do
  match ← tryPrepare s r with
  | .ok (plot, o) => exportPlot s plot o
  | .error f => return { status := 1, errors := "错误：" ++ f.message ++ "\n" }

end PlotScene.CommandLine
