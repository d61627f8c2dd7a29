import SketchMerge.Project.Output
import SketchMerge.Prototype.Synthesis
import SketchMerge.Run.Extraction
import SketchMerge.Sketch.Compose
import SketchMerge.Sketch.Trivia
import SketchMerge.Tag.Line

/-! # The pipeline

    One run merges the sketches of a project, asks the tag tool what functions
    there are, and writes the merged sketch with their declarations into the
    output folder.  A run goes through its stages in order; when it stops early,
    its last stage is that of failure. -/

namespace SketchMerge

/-- What a run can be asked to do otherwise than the settings say. -/
structure Pipeline where
  variant : Option Text := none
  executable : Option Text := none
  /-- What extracts the tags in place of a tool. -/
  extractor : Option Extractor := none

/-- What a run has made. -/
structure Product where
  /-- The merged sketch. -/
  path : Path
  prototypes : List Text
  /-- The copies of the companion files. -/
  copied : List Path
  deriving DecidableEq, Repr

namespace Pipeline

/-- The note on going on to a stage. -/
def stageNote (now next : Stage) : Note :=
  Note.debug "orchestrator" ("Stage " ++ now.word ++ " -> " ++ next.word)

/-- Goes on to a stage. -/
def advance (next : Stage) : Action ε Unit := do
  Action.say (stageNote (← get).stage next)
  modify fun w => { w.atStage next.word with stage := next }

/-- The note on the start of the work. -/
def startNote (root : Path) (v : Variant) : Note :=
  Note.info "orchestrator" ("Preprocessing " ++ root.name ++ " with the " ++ v.name ++ " pipeline")

/-- The note on a run that went well. -/
def doneNote (p : Product) : Note :=
  Note.info "orchestrator"
    ("Wrote " ++ p.path.text ++ " with " ++ Text.ofNat p.prototypes.length ++ " prototype(s)")

/-- What stands in a note for the report on an unexpected fault. -/
def faultReport : Text := "<TRACEBACK>"

/-- The note on a run that stopped. -/
def abortNote (fault : Fault) : Note :=
  if fault.isExpected then Note.debug "orchestrator" ("Run aborted: " ++ fault.message)
  else Note.error "orchestrator" "Run aborted by unexpected error" faultReport

/-- Where the tag lines come from. -/
def tagSource (p : Pipeline) (s : Settings) (v : Variant) (environment : Option Text) :
    TagSource :=
  match p.extractor with
  | some answer => .extractor answer
  | none => .tool (s.toolFor p.executable environment) v.arguments

/-- Finds the project, and prepares the output folder for it. -/
def prepare (s : Settings) (root target : Path) : Action Fault (Project × List Path) := do
  let project ← Action.ask fun d =>
    (Project.scan d s.sketchEndings s.companionEndings root.text).mapError .project
  Action.say project.scanNote
  let removed ← Action.changeFiles (Output.clear target (s.sketchEndings ++ s.companionEndings))
  Action.sayAll (Output.clearNotes target removed)
  let copied ← Action.changeFiles (Output.copyEach target project.companions)
  pure (project, copied)

/-- A project whose sketches are merged, with all that was decided on the way. -/
structure Merged where
  settings : Settings
  variant : Variant
  project : Project
  /-- The output folder. -/
  target : Path
  copied : List Path

namespace Merged

/-- The merged text. -/
def buffer (m : Merged) : Buffer :=
  Buffer.unify m.variant.lineMarkers m.project.sketches

/-- Where the merged sketch is written to. -/
def path (m : Merged) : Path :=
  m.target.child (m.project.name ++ m.settings.sketchEndings.headD [])

/-- The declarations for what some tag lines report. -/
def prototypes (lines : List Text) : List Text :=
  Prototype.texts (Prototype.synthesize (Tag.readLines lines))

/-- The merged text with the declarations for some tag lines put in. -/
def composed (m : Merged) (lines : List Text) : Except Buffer.Refusal Buffer :=
  m.buffer.compose m.variant.lineCorrection (Trivia.locate m.buffer.text) (prototypes lines)

/-- What comes of the merged text and some tag lines. -/
def product (m : Merged) (lines : List Text) : Product :=
  { path := m.path, prototypes := prototypes lines, copied := m.copied }

end Merged

/-- Finds the project, prepares the output folder and merges the sketches. -/
def merge (p : Pipeline) (project output : Option Text) : Action Fault Merged := do
  let (root, target) ← Action.ask fun d => (Project.folders d project output).mapError .project
  let settings ← Action.ask fun d => (Settings.load d root).mapError .settings
  let variant ← Action.ofResult ((settings.variantFor p.variant).mapError .settings)
  Action.say (startNote root variant)
  let (project, copied) ← prepare settings root target
  Action.sayAll (Buffer.unifyNotes project.sketches)
  pure { settings, variant, project, target, copied }

/-- Puts the declarations into the merged text and writes it. -/
def finish (m : Merged) (lines : List Text) : Action Fault Product := do
  let records := Tag.readLines lines
  Action.sayAll (Tag.readNotes lines)
  advance .parsed
  Action.sayAll (Prototype.synthesizeNotes (some m.buffer) records)
  advance .synthesized
  Action.say (Trivia.locateNote m.buffer.text)
  advance .located
  let composed ← Action.ofResult ((m.composed lines).mapError .composing)
  Action.say (Buffer.composeNote (Trivia.locate m.buffer.text) (Merged.prototypes lines))
  advance .composed
  Action.changeFiles (·.writeText m.path composed.text)
  advance .done
  Action.say (doneNote (m.product lines))
  pure (m.product lines)

/-- The work of a run. -/
def work (p : Pipeline) (project output : Option Text) : Action Fault Product := do
  let m ← p.merge project output
  advance .unified
  let from_ := p.tagSource m.settings m.variant (← get).toolVariable
  let lines ← Extraction.extract from_ m.project.name m.buffer.text
  advance .extracted
  finish m lines

/-- Runs the pipeline from its first stage on. -/
def run (p : Pipeline) (project output : Option Text) : Action Fault Product := do
  modify fun w => { w.atStage Stage.start.word with stage := .start }
  tryCatch (p.work project output) fun fault => do
    advance .failed
    Action.say (abortNote fault)
    throw fault

end Pipeline

end SketchMerge
