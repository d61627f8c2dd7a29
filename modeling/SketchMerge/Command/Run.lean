import SketchMerge.Command.Arguments
import SketchMerge.Command.Help
import SketchMerge.Run.Pipeline

/-! # The command

    One call of the program: it reads its arguments, sets up the journal and runs
    the pipeline.  Its exit status is nought when a sketch was written, one when
    the run stopped, and two when the command line cannot be used. -/

namespace SketchMerge.Command

/-- Prints a text. -/
def print (t : Text) : Action ε Unit :=
  modify fun w => { w with printed := w.printed ++ t }

/-- Shows a text on the console. -/
def complain (t : Text) : Action ε Unit :=
  modify fun w => { w with console := w.console ++ Quoted.console t }

/-- The path as seen from the current folder, if it is inside. -/
def fromHere (here : Location) (p : Path) : Path :=
  if p.anchor == .root && here.isPrefixOf p.parts then ⟨.here, p.parts.drop here.length⟩ else p

/-- What is said of a run that stopped.  A refusal speaks for itself. -/
def stopMessage (fault : Fault) : Text :=
  if fault.isRefusal then fault.message ++ "\n"
  else "sketchpp failed: " ++ fault.message ++ "\nRun with --verbose for more details.\n"

/-- A run that ends in a result, whatever happens. -/
def attempt (x : Action ε α) : Action ε' (Except ε α) := fun w =>
  let (result, w) := x w
  (.ok result, w)

/-- Sets up the journal as the arguments say.  A log file that names nothing is a
    fault once all else is set up. -/
def setUpJournal (a : Arguments) : Action Files.Fault Unit := do
  Action.setUpJournal a.verbose (a.logFile.join.map Path.ofText)
  if a.logFile == some none then throw .noPath

/-- Runs the pipeline as the arguments say, and gives the exit status. -/
def obey (a : Arguments) : Action Files.Fault Nat := do
  setUpJournal a
  let pipeline : Pipeline := { variant := a.variant, executable := a.tool }
  let folder (i : Nat) : Option Text := (a.folders[i]?).join
  match ← attempt (pipeline.run (folder 0) (folder 1)) with
  | .error fault =>
    complain (stopMessage fault)
    pure 1
  | .ok product =>
    let path := fromHere (← get).disk.here product.path
    print ("Preprocessed sketch written to " ++ path.text ++ "\n")
    pure 0

/-- Calls the program with the given words, and gives the exit status. -/
def run (words : List Text) : Action Files.Fault Nat :=
  match Arguments.ofWords words with
  | .error .help => do
    print help
    pure 0
  | .error (.misuse cause) => do
    complain (usage ++ "sketchpp: error: " ++ cause.message ++ "\n")
    pure 2
  | .ok a => obey a

end SketchMerge.Command
