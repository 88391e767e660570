import PlotScene.CommandLine
import PlotScene.Settings.Environment

/-!
# The program

Runs a command line on the files of the machine: the description is read, the request is run on it,
and the files that it leaves are written.
-/

namespace PlotScene.Program

open CommandLine

/-- The description of a request as the only file there is; a path that cannot be read is not
there. -/
def loadFiles (r : Request) : IO Files := do
  try
    return Files.ofContents [(r.description, ← IO.FS.readBinFile r.description)]
  catch
    | .inappropriateType .. => return Files.insert {} r.description .directory
    | _ => return {}

/-- Whether a file is already there with this content. -/
def isUnchanged (given : Files) (l : Location) (content : ByteArray) : Bool :=
  match given.node? l with
  | some (.file before) => before == content
  | _ => false

/-- Writes the files that a run has left. -/
def storeFiles (given after : Files) : IO Unit := do
  for (l, node) in after.nodes do
    let path := String.intercalate "/" l
    match node with
    | .directory => IO.FS.createDirAll path
    | .file content => if !isUnchanged given l content then IO.FS.writeBinFile path content

/-- The environment variables that hold settings. -/
def settingVariables : IO (List (String × String)) := do
  let names := (Settings.fields {}).map fun f => "VEGAGRAM_" ++ f.1.map Char.toUpper
  let found ← names.mapM fun name => do return (← IO.getEnv name).map fun text => (name, text)
  return found.filterMap id

/-- Runs a request and tells its status. -/
def serve (s : Settings) (r : Request) : IO UInt32 := do
  let given ← loadFiles r
  let (answer, after) := Filing.run (CommandLine.run s r) given
  storeFiles given after
  match answer with
  | .ok outcome =>
      IO.print outcome.output
      IO.eprint outcome.errors
      return outcome.status.toUInt32
  | .error f =>
      IO.eprintln (f.message?.getD "failed")
      return 1

end PlotScene.Program

def main (argv : List String) : IO UInt32 := do
  match PlotScene.CommandLine.read argv with
  | .error status => return status.toUInt32
  | .ok request =>
      match PlotScene.Settings.ofEnvironment (← PlotScene.Program.settingVariables) with
      | .ok settings => PlotScene.Program.serve settings request
      | .error _ =>
          IO.eprintln "invalid settings in the environment"
          return 1
