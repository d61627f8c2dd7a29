import SketchMerge.Config.Settings
import SketchMerge.Project.Project
import SketchMerge.Sketch.Buffer
import SketchMerge.Tag.Tool

/-! # Why a run stops -/

namespace SketchMerge

/-- Why a run stops. -/
inductive Fault where
  | project (cause : Project.Fault)
  | settings (cause : Settings.Fault)
  | tool (cause : Tag.ToolFault)
  | composing (cause : Buffer.Refusal)
  | file (cause : Files.Fault)
  /-- Something else has gone wrong while tags were extracted. -/
  | foreign (message : Text)
  deriving DecidableEq, Repr

namespace Fault

/-- The wording of a fault. -/
def message : Fault → Text
  | .project cause => cause.message
  | .settings cause => cause.message
  | .tool cause => cause.message
  | .composing cause => cause.message
  | .file cause => cause.message
  | .foreign message => message

/-- The input is refused: a folder, the project or its configuration. -/
def isRefusal : Fault → Bool
  | .project cause => cause.isRefusal
  | .settings cause => cause.isRefusal
  | _ => false

/-- The fault is one that a run is prepared for. -/
def isExpected : Fault → Bool
  | .tool _ => true
  | fault => fault.isRefusal

end Fault

end SketchMerge
