import SketchMerge.Files.Disk
import SketchMerge.Journal.Note
import SketchMerge.Sketch.Source
import SketchMerge.Text.Lines

/-! # Sketch projects

    A project is a folder with a sketch file of the same name.  It has sketch
    files, which are merged, and companion files, which are copied.  Only the
    folder itself is looked at, and which file is which is told by its ending. -/

namespace SketchMerge

/-- A sketch project. -/
structure Project where
  name : Text
  root : Path
  /-- The sketch files in the order in which they are merged. -/
  sketches : List Source
  /-- The companion files in the order of their names. -/
  companions : List Path
  deriving DecidableEq, Repr

namespace Project

/-- What a folder is needed for. -/
inductive Role where
  | project
  | output
  deriving DecidableEq, Repr

/-- What a folder is called in a refusal. -/
def Role.label : Role → String
  | .project => "Project folder"
  | .output => "Output folder"

/-- Why there is no project to work on. -/
inductive Fault where
  | notFolder (role : Role) (given : Text)
  | sameFolder
  /-- None of the expected main sketches is in the folder. -/
  | noMainSketch (expected : List Text) (root : Path)
  | file (cause : Files.Fault)
  deriving DecidableEq, Repr

namespace Fault

/-- The wording of a fault. -/
def message : Fault → Text
  | .notFolder role given => role.label ++ " is not a directory: " ++ given
  | .sameFolder => "Output folder must differ from the project folder"
  | .noMainSketch expected root =>
    "Project folder doesn't look like a sketch project (expected "
      ++ Text.joinWith " or " expected ++ " in " ++ root.text ++ ")"
  | .file cause => cause.message

/-- The input itself is refused. -/
def isRefusal : Fault → Bool
  | .notFolder .. | .sameFolder | .noMainSketch .. => true
  | .file _ => false

end Fault

/-- A fault with files is a fault with the project. -/
def ofFiles (r : Except Files.Fault α) : Except Fault α :=
  r.mapError .file

/-- The folder that a path leads to, without links and dots. -/
def requireFolder (d : Disk) (role : Role) : Option Text → Except Fault Path
  | none => .error (.file .noPath)
  | some given => do
    let p ← ofFiles (d.expandHome (Path.ofText given))
    if ← ofFiles (d.isFolder p) then ofFiles (d.resolve p) else .error (.notFolder role given)

/-- The project folder and the output folder, which must not be the same. -/
def folders (d : Disk) (project output : Option Text) : Except Fault (Path × Path) := do
  let root ← requireFolder d .project project
  let target ← requireFolder d .output output
  if root = target then .error .sameFolder
  .ok (root, target)

/-- The files with one of the given endings among some names of a folder. -/
def filesAmong (d : Disk) (folder : Path) (endings : List Text) (names : List Text) :
    Except Files.Fault (List Path) :=
  (names.map folder.child).filterM fun p => do
    .ok ((← d.isFile p) && endings.contains (FileName.ending p.name))

/-- The files of a folder with one of the given endings. -/
def filesIn (d : Disk) (folder : Path) (endings : List Text) :
    Except Files.Fault (List Path) := do
  filesAmong d folder endings (← d.names folder)

/-- Reads a sketch file.  Bytes that are not UTF-8 are kept, and every line end
    becomes a newline. -/
def readSketch (d : Disk) (p : Path) : Except Files.Fault Source := do
  .ok ⟨p.name, (Utf8.decode (← d.read p)).unifyNewlines⟩

/-- The names that the main sketch of a project may have. -/
def mainNames (project : Text) (endings : List Text) : List Text :=
  endings.map (project ++ ·)

/-- One of some names is that of a file in a folder. -/
def anyFile (d : Disk) (folder : Path) : List Text → Except Files.Fault Bool
  | [] => .ok false
  | name :: rest => do
    if ← d.isFile (folder.child name) then .ok true else anyFile d folder rest

/-- Paths in the order of their names. -/
def byName (ps : List Path) : List Path :=
  sortBy (fun p q => Text.le p.name q.name) ps

/-- The project in a folder. -/
def scan (d : Disk) (sketchEndings companionEndings : List Text) (given : Text) :
    Except Fault Project := do
  let root ← requireFolder d .project (some given)
  let name := root.name
  let expected := mainNames name sketchEndings
  if !(← ofFiles (anyFile d root expected)) then .error (.noMainSketch expected root)
  let files ← ofFiles (filesIn d root sketchEndings)
  let sources ← ofFiles (files.mapM (readSketch d))
  let companions ← ofFiles (filesIn d root companionEndings)
  .ok { name, root, sketches := Source.inOrder name sources, companions := byName companions }

/-- The note on a project that was found. -/
def scanNote (p : Project) : Note :=
  Note.debug "project"
    ("Project " ++ p.name ++ ": " ++ Text.ofNat p.sketches.length ++ " sketch file(s), "
      ++ Text.ofNat p.companions.length ++ " companion file(s)")

end Project

end SketchMerge
