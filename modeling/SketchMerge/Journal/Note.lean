import SketchMerge.Text.Glyph

/-! # Notes

    What a part of the program has to say about its work.  A note carries its
    weight, the part it comes from and its wording; where it is shown is decided
    by the journal it is entered in. -/

namespace SketchMerge

/-- How much a note weighs. -/
inductive Level where
  | debug
  | info
  | warning
  | error
  | critical
  deriving DecidableEq, Repr

namespace Level

/-- The place of a level in the order of weight. -/
def rank : Level → Nat
  | .debug => 10
  | .info => 20
  | .warning => 30
  | .error => 40
  | .critical => 50

/-- The name of a level as it is shown. -/
def label : Level → String
  | .debug => "DEBUG"
  | .info => "INFO"
  | .warning => "WARNING"
  | .error => "ERROR"
  | .critical => "CRITICAL"

/-- The level is at least as heavy as `threshold`. -/
def reaches (level threshold : Level) : Bool :=
  threshold.rank ≤ level.rank

end Level

/-- A note of one part of the program. -/
structure Note where
  level : Level
  /-- The part that speaks, as a dotted name. -/
  part : Text
  message : Text
  /-- What is shown below the message, on lines of its own. -/
  detail : Text := []
  deriving DecidableEq, Repr

/-- A note that only a verbose run shows. -/
def Note.debug (part : String) (message : Text) : Note :=
  { level := .debug, part, message }

/-- A note on the progress of a run. -/
def Note.info (part : String) (message : Text) : Note :=
  { level := .info, part, message }

/-- A note on something that may be wrong. -/
def Note.warning (part : String) (message : Text) : Note :=
  { level := .warning, part, message }

/-- A note on something that went wrong, with a detail. -/
def Note.error (part : String) (message detail : Text) : Note :=
  { level := .error, part, message, detail }

end SketchMerge
