import SketchMerge.Journal.Note
import SketchMerge.Text.Blank
import SketchMerge.Text.Lines

/-! # The tag tool

    Tags come from a program outside.  It is called with arguments and the path
    of a file and prints tag lines.  It has failed when it cannot be found, when
    its exit status is not nought, or when it complains and prints nothing else;
    a complaint beside tag lines is passed on as a warning. -/

namespace SketchMerge.Tag

/-- What a finished tool has left behind. -/
structure ToolOutput where
  status : Int
  stdout : Text
  stderr : Text
  deriving DecidableEq, Repr

/-- The words of a call: the tool, its arguments and the file. -/
def command (executable : Text) (arguments : List Text) (source : Text) : List Text :=
  executable :: arguments ++ [source]

/-- The note in front of a call. -/
def callNote (command : List Text) : Note :=
  Note.debug "tags.extractor" ("Running " ++ Text.joinWith " " command)

/-- Why no tags could be had. -/
inductive ToolFault where
  | notFound (executable : Text)
  | failed (executable : Text) (status : Int) (diagnostics : Text)
  | noTags (executable : Text) (status : Int) (diagnostics : Text)
  deriving DecidableEq, Repr

namespace ToolFault

/-- The exit status of the tool, if it ran. -/
def status? : ToolFault → Option Int
  | .notFound _ => none
  | .failed _ status _ => some status
  | .noTags _ status _ => some status

/-- What the tool complained of. -/
def diagnostics : ToolFault → Text
  | .notFound _ => []
  | .failed _ _ diagnostics => diagnostics
  | .noTags _ _ diagnostics => diagnostics

/-- The wording of a fault without the complaint. -/
def summary : ToolFault → Text
  | .notFound executable =>
    "Unable to locate '" ++ executable ++ "'. Install ctags or point SKETCHPP_CTAGS at it."
  | .failed executable status _ => executable ++ " exited with status " ++ Text.ofInt status
  | .noTags executable _ _ => executable ++ " produced no tags"

/-- The wording of a fault, followed by the complaint if there is one. -/
def message (fault : ToolFault) : Text :=
  if fault.diagnostics.isEmpty then fault.summary
  else fault.summary ++ ": " ++ fault.diagnostics

end ToolFault

/-- The tag lines of a call, where `none` stands for a tool that is not there. -/
def tagLines (executable : Text) : Option ToolOutput → Except ToolFault (List Text)
  | none => .error (.notFound executable)
  | some output =>
    let diagnostics := Text.trim output.stderr
    if output.status ≠ 0 then .error (.failed executable output.status diagnostics)
    else if Text.isBlank output.stdout && !diagnostics.isEmpty then
      .error (.noTags executable output.status diagnostics)
    else .ok (Text.splitLines output.stdout)

/-- The notes after a call that went well: the complaint, if there is one. -/
def outputNotes (executable : Text) (output : ToolOutput) : List Note :=
  let diagnostics := Text.trim output.stderr
  if diagnostics.isEmpty then []
  else [Note.warning "tags.extractor" (executable ++ ": " ++ diagnostics)]

end SketchMerge.Tag
