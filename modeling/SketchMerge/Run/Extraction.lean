import SketchMerge.Run.Fault
import SketchMerge.Run.World

/-! # Extracting tags

    The tag tool reads a file, so the merged text is put into a temporary folder
    that is gone again afterwards, whatever happens.  In place of a tool there may
    be an extractor at hand, which answers to what is in the file. -/

namespace SketchMerge

/-- Why an extractor has no tag lines to give. -/
inductive Extractor.Fault where
  | tool (cause : Tag.ToolFault)
  /-- Anything else, in its own words. -/
  | other (message : Text)
  deriving DecidableEq, Repr

/-- What answers to the content of a file with tag lines. -/
abbrev Extractor := List UInt8 → Except Extractor.Fault (List Text)

/-- The fault of an extractor as one of a run. -/
def Extractor.Fault.ofRun : Extractor.Fault → SketchMerge.Fault
  | .tool cause => .tool cause
  | .other message => .foreign message

/-- Where the tag lines of a run come from. -/
inductive TagSource where
  /-- From an extractor that is at hand. -/
  | extractor (answer : Extractor)
  /-- From a tool that is called. -/
  | tool (executable : Text) (arguments : List Text)

/-- Changes the disk, where the fault can only be one with files. -/
def Action.changeFiles (f : Disk → Except Files.Fault α × Disk) : Action Fault α :=
  Action.change fun d =>
    let (result, d) := f d
    (result.mapError .file, d)

namespace Extraction

/-- Why a name without folders cannot be called, other than that there is no such
    tool: it names a folder, or it is too long. -/
def barredName? (name : Text) : Option Files.Cause :=
  if name.isEmpty || name == Path.dot || name == Path.dotDot then some .denied
  else if Tree.nameTooLong name then some .tooLong
  else none

/-- Why a path with folders cannot be called.  No file of the disk is a tool. -/
def barredPath (d : Disk) (executable : Text) : Files.Cause :=
  match d.lookWritten executable with
  | .ok _ => .denied
  | .error cause => cause

/-- A tool by its name, or why it cannot be called.  There is no result if there is
    no such tool. -/
def findTool (w : World) (executable : Text) : Except Files.Cause (Option Tool) :=
  if executable.contains Path.slash then
    match barredPath w.disk executable with
    | .missing => .ok none
    | cause => .error cause
  else
    match w.tools.lookup executable, barredName? executable with
    | some tool, _ => .ok (some tool)
    | none, some cause => .error cause
    | none, none => .ok none

/-- The first of some words that cannot be handed to a tool, with the reason. -/
def barredWord? (words : List Text) : Option Files.Fault :=
  words.findSome? fun word => (Files.barredText? word).map (.at · word)

/-- What a tool prints, as text.  Bytes that are not UTF-8 are kept, and every line
    end becomes a newline. -/
def printedText (bytes : List UInt8) : Text :=
  (Utf8.decode bytes).unifyNewlines

/-- Calls a tool with the given arguments and a file.  There is no result if there
    is no such tool. -/
def call (executable : Text) (arguments : List Text) (source : Path) (content : List UInt8) :
    Action Fault (Option Tag.ToolOutput) := do
  let w ← get
  let words := Tag.command executable arguments source.text
  match barredWord? words with
  | some fault => throw (.file fault)
  | none => pure ()
  match findTool w executable with
  | .error cause => throw (.file (.at cause executable))
  | .ok none => pure none
  | .ok (some tool) =>
    let made : Call := { tool := executable, arguments := words.tail, source := content }
    modify fun w => { w with calls := w.calls ++ [made] }
    pure (some {
      status := tool.status, stdout := printedText tool.stdout,
      stderr := printedText tool.stderr })

/-- The tag lines that a tool prints for a file. -/
def toolLines (executable : Text) (arguments : List Text) (source : Path)
    (content : List UInt8) : Action Fault (List Text) := do
  Action.say (Tag.callNote (Tag.command executable arguments source.text))
  let output ← call executable arguments source content
  let lines ← Action.ofResult ((Tag.tagLines executable output).mapError .tool)
  Action.sayAll (output.toList.flatMap (Tag.outputNotes executable))
  pure lines

/-- The tag lines of a file. -/
def tagLines (from_ : TagSource) (source : Path) : Action Fault (List Text) := do
  let content := ((← get).disk.read source).toOption.getD []
  modify fun w => { w with handed := w.handed ++ [content] }
  match from_ with
  | .extractor answer => Action.ofResult ((answer content).mapError Extractor.Fault.ofRun)
  | .tool executable arguments => toolLines executable arguments source content

/-- Where the copy of a merged text is put, in a temporary folder. -/
def copyPath (folder : Location) (project : Text) : Path :=
  (Path.absolute folder).child (project ++ ".ino")

/-- Takes the temporary folder away. -/
def cleanUp (folder : Location) : Action ε Unit :=
  Action.change fun d => (.ok (), { d with tree := d.tree.prune folder })

/-- Puts a text into a file of a folder that is made for it, and gives its tag
    lines. -/
def fromCopy (from_ : TagSource) (source : Path) (text : Text) : Action Fault (List Text) := do
  Action.changeFiles (·.writeText source text)
  tagLines from_ source

/-- The tag lines of a text, which is put into a temporary file for the time. -/
def extract (from_ : TagSource) (project text : Text) : Action Fault (List Text) := do
  let folder := (← get).temporary
  Action.change fun d => (.ok (), { d with tree := d.tree.putFolder folder })
  tryCatch
    (do
      let lines ← fromCopy from_ (copyPath folder project) text
      cleanUp folder
      pure lines)
    (fun fault => do
      cleanUp folder
      throw fault)

end Extraction

end SketchMerge
