import PlotScene.Fault
import PlotScene.Text.Parts

/-!
# Files

Files in a tree of directories: paths as they are written and the places that they lead to, and the
operations that read, write and create directories.  An operation that fails leaves what it had
already done.
-/

namespace PlotScene

/-! ## 1. Paths -/

/-- A path as a list of names; single dots and empty names do not count. -/
structure Path where
  absolute : Bool
  names : List String
deriving DecidableEq, Repr

namespace Path

/-- The names between the slashes of a text. -/
def namesOf (text : String) : List String :=
  ((Text.parts '/' text.toList).map String.ofList).filter fun name => name != "" && name != "."

def ofText (text : String) : Path :=
  ⟨text.toList.head? == some '/', namesOf text⟩

/-- The text of a path; the working directory itself is a dot. -/
def text (p : Path) : String :=
  let relative := String.intercalate "/" p.names
  if p.absolute then "/" ++ relative else if p.names.isEmpty then "." else relative

/-- Whether a null character stands in a path, which no file can have in its name. -/
def hasNull (p : Path) : Bool :=
  p.names.any fun name => name.toList.contains '\x00'

/-- The path of a text below another path; an absolute text stands alone. -/
def join (p : Path) (text : String) : Path :=
  let q := ofText text
  if q.absolute then q else ⟨p.absolute, p.names ++ q.names⟩

end Path

/-! ## 2. The tree -/

inductive FileNode where
  | file (content : ByteArray)
  | directory

/-- The place of a file or directory: the names from the working directory down to it.  A place
above the working directory begins with `..`, a place below the root with `/`. -/
abbrev Location := List String

namespace Location

/-- Whether a place is the working directory, a directory above it, or the root. -/
def isBase (l : Location) : Bool :=
  l == ["/"] || l.all (· == "..")

/-- The directory above a place; the root is above itself. -/
def parent (l : Location) : Location :=
  if l = ["/"] then l else if l.all (· == "..") then l ++ [".."] else l.dropLast

/-- Whether a place lies below the working directory. -/
def isBelow (l : Location) : Bool :=
  l.head? != some ".." && l.head? != some "/"

end Location

/-- What there is in the directories, each place once. -/
structure Files where
  nodes : List (Location × FileNode) := []

namespace Files

/-- What is at a place; the working directory and those above it are always there. -/
def node? (f : Files) (l : Location) : Option FileNode :=
  if Location.isBase l then some .directory else f.nodes.lookup l

/-- Puts a node at a place. -/
def put (f : Files) (l : Location) (n : FileNode) : Files :=
  ⟨f.nodes.filter (fun e => e.1 != l) ++ [(l, n)]⟩

/-- The directory that names lead to from a directory. -/
def walk (f : Files) : Location → List String → Except FileCause Location
  | here, [] => .ok here
  | here, name :: rest =>
      if name = ".." then walk f (Location.parent here) rest
      else
        match f.node? (here ++ [name]) with
        | some .directory => walk f (here ++ [name]) rest
        | some (.file _) => .error .notADirectory
        | none => .error .missing

/-- The place that a path stands for; all but its last name must be directories. -/
def locate (f : Files) (p : Path) : Except FileCause Location :=
  let base : Location := if p.absolute then ["/"] else []
  match p.names.getLast? with
  | none => .ok base
  | some ".." => f.walk base p.names
  | some name => (f.walk base p.names.dropLast).map (· ++ [name])

/-- The files below the working directory with their contents, in the order in which they were
written. -/
def contents (f : Files) : List (Location × ByteArray) :=
  f.nodes.filterMap fun e =>
    match e.2 with
    | .file content => if Location.isBelow e.1 then some (e.1, content) else none
    | .directory => none

/-- The place of every directory above a place. -/
def above (l : Location) : List Location :=
  (List.range l.length).filterMap fun n => if n = 0 then none else some (l.take n)

/-- The place that a path without `..` stands for. -/
def placeOf (p : Path) : Location :=
  if p.absolute then "/" :: p.names else p.names

/-- Puts a node at the place of a path and directories above it. -/
def insert (f : Files) (path : String) (n : FileNode) : Files :=
  let l := placeOf (Path.ofText path)
  let f := (above l).foldl (fun f d => if (f.node? d).isSome then f else f.put d .directory) f
  f.put l n

/-- Files with these contents and the directories above them. -/
def ofContents (files : List (String × ByteArray)) : Files :=
  files.foldl (fun f (path, content) => f.insert path (.file content)) {}

end Files

/-! ## 3. Operations -/

/-- Work on files: it may stop with a fault, and then what was done before stays done. -/
abbrev Filing (α : Type) := ExceptT Fault (StateM Files) α

namespace Filing

/-- The answer of work on files, and the files after it. -/
def run {α : Type} (work : Filing α) (f : Files) : Except Fault α × Files :=
  Id.run (StateT.run (ExceptT.run work) f)

def ofExcept {α : Type} : Except Fault α → Filing α
  | .ok a => pure a
  | .error e => throw e

def faultAt (p : Path) (cause : FileCause) : Fault :=
  .file ⟨cause, p.text⟩

/-- Refuses a path that no file can have. -/
def requireNames (p : Path) : Filing Unit :=
  if p.hasNull then throw .unusable else pure ()

/-- The place of a path. -/
def locate (p : Path) : Filing Location := do
  requireNames p
  match (← get).locate p with
  | .ok l => pure l
  | .error cause => throw (faultAt p cause)

/-- The content of a file. -/
def read (p : Path) : Filing ByteArray := do
  match (← get).node? (← locate p) with
  | some (.file content) => pure content
  | some .directory => throw (faultAt p .isADirectory)
  | none => throw (faultAt p .missing)

/-- Writes a text as the content of a file. -/
def write (p : Path) (text : String) : Filing Unit := do
  let l ← locate p
  match (← get).node? l with
  | some .directory => throw (faultAt p .isADirectory)
  | _ => modify fun f => f.put l (.file text.toUTF8)

/-- Creates a directory where nothing is. -/
def ensureDirectory (p : Path) : Filing Unit := do
  let l ← locate p
  if ((← get).node? l).isNone then modify fun f => f.put l .directory

/-- Creates the directories of a path in turn; the names are given from the last one up. -/
def ensureNames (absolute : Bool) : List String → Filing Unit
  | [] => pure ()
  | name :: above => do
      ensureNames absolute above
      ensureDirectory ⟨absolute, (name :: above).reverse⟩

/-- Creates a directory with all directories above it; one that is already there is kept. -/
def makeDirectories (p : Path) : Filing Unit := do
  requireNames p
  ensureNames p.absolute p.names.reverse
  match (← get).node? (← locate p) with
  | some (.file _) => throw (faultAt p .exists)
  | _ => pure ()

end Filing

end PlotScene
