import SketchMerge.Files.Disk
import SketchMerge.Journal.Journal
import SketchMerge.Run.Stage
import SketchMerge.Tag.Tool
import SketchMerge.Text.Lines

/-! # The world of a run

    Everything that a run can see and change: files, tools, the journal and the
    console.  An action is a computation on a world that may fail; a failure keeps
    what was changed before. -/

namespace SketchMerge

/-- A tool: what it prints, and its exit status. -/
structure Tool where
  stdout : List UInt8 := []
  stderr : List UInt8 := []
  status : Int := 0
  deriving DecidableEq, Repr

/-- A call of a tool. -/
structure Call where
  tool : Text
  arguments : List Text
  /-- The content of the file that the last argument names. -/
  source : List UInt8
  deriving DecidableEq, Repr

/-- The world of a run. -/
structure World where
  disk : Disk
  /-- Where a folder for temporary files can be made. -/
  temporary : Location
  /-- The tag tool that the environment names. -/
  toolVariable : Option Text := none
  /-- The tools that can be called by their names. -/
  tools : List (Text × Tool) := []
  /-- The time as it is written to log files. -/
  time : Text
  journal : Journal := {}
  /-- The stage of the pipeline. -/
  stage : Stage := .start
  /-- What has been shown as errors and notes. -/
  console : Text := []
  /-- What has been printed. -/
  printed : Text := []
  /-- The tools that have been called, in order. -/
  calls : List Call := []
  /-- The contents that have been handed over to have tags extracted, in order. -/
  handed : List (List UInt8) := []

/-- A computation on a world that may fail. -/
abbrev Action (ε α : Type) := ExceptT ε (StateM World) α

namespace World

/-- The tree after a text is written to the end of a log file.  A text with stray
    bytes cannot be written. -/
def appendLog (tree : Tree) (file : Option Journal.LogFile) (t : Text) : Tree :=
  match file with
  | some ⟨some l⟩ =>
    match tree.get? l, t.toString? with
    | some (.file content), some _ => tree.put l (.file (content ++ Utf8.encode t))
    | _, _ => tree
  | _ => tree

/-- The world with a note in its journal, shown where the journal shows it by a rule
    for its voices. -/
def noteBy (governs : Voice.Rule) (w : World) (n : Note) : World :=
  let j := w.journal.callUp (Voice.ofPart n.part)
  let tree := appendLog w.disk.tree j.logFile (j.logLine governs w.time n)
  { w with
    journal := j.enter governs n
    console := w.console ++ j.consoleLine governs n
    disk := { w.disk with tree } }

/-- The world with a note in its journal. -/
def note (w : World) (n : Note) : World :=
  w.noteBy Voice.isGoverned n

/-- The world with another disk.  A log file that is gone is forgotten. -/
def withDisk (w : World) (d : Disk) : World :=
  let journal := match w.journal.logFile with
    | some ⟨some l⟩ => if (d.tree.get? l).isSome then w.journal else w.journal.forget l
    | _ => w.journal
  { w with disk := d, journal }

/-- The world at another stage of the journal. -/
def atStage (w : World) (stage : Text) : World :=
  { w with journal := w.journal.atStage stage }

end World

namespace Action

/-- Enters a note. -/
def say (n : Note) : Action ε Unit :=
  modify (·.note n)

/-- Enters notes. -/
def sayAll (ns : List Note) : Action ε Unit :=
  ns.forM say

/-- A result that is at hand. -/
def ofResult : Except ε α → Action ε α
  | .ok a => pure a
  | .error e => throw e

/-- What the disk says. -/
def ask (f : Disk → Except ε α) : Action ε α := do
  ofResult (f (← get).disk)

/-- Changes the disk. -/
def change (f : Disk → Except ε α × Disk) : Action ε α := do
  let (result, d) := f (← get).disk
  modify (·.withDisk d)
  ofResult result

/-- Sets up the journal: how much it shows, and where.  If the log file cannot be
    opened, the rest is set up all the same. -/
def setUpJournal (verbose : Bool) (logFile : Option Path) : Action Files.Fault Unit := do
  modify fun w => { w with journal := w.journal.setUp (if verbose then .debug else .info) }
  match logFile with
  | none => pure ()
  | some p =>
    let l ← ask fun d => d.target (d.absolutePath p)
    modify fun w =>
      let tree := if (w.disk.tree.get? l).isSome then w.disk.tree else w.disk.tree.put l (.file [])
      { w with
        disk := { w.disk with tree }
        journal := { w.journal with logFile := some ⟨some l⟩ } }

end Action

end SketchMerge
