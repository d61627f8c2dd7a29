import SketchMerge.Number.Numeral

/-! # What can be wrong with a YAML stream

    Most faults only say that the stream is no YAML.  A few come from scalars
    that have the look of a value, or are tagged as one, and are none, and a few
    from values that have no written form. -/

namespace SketchMerge.Yaml

/-- Why a stream has no value, or a value no written form. -/
inductive Fault where
  /-- The stream breaks the rules of YAML, or holds what has no value here. -/
  | malformed
  /-- A scalar tagged as a number is no numeral, or a number is too long to write. -/
  | numeral (fault : Numeral.Fault)
  /-- A scalar tagged as a number is empty. -/
  | emptyNumeral
  /-- A scalar tagged as a truth value is none. -/
  | unknownTruth (word : Text)
  /-- A scalar tagged as a time is none. -/
  | noTime
  /-- A mapping that stands in for a scalar is tagged as a time. -/
  | timeOfMapping
  /-- A part of a date or time is out of range; the words say which. -/
  | badTime (words : String)
  /-- A place of a number in base sixty is worth more than any number. -/
  | placeTooHigh
  /-- Collections are nested too deeply, or a mapping is its own default value. -/
  | tooDeep
  /-- Collections are nested too deeply to be written. -/
  | tooDeepToWrite
  /-- An escape names a number beyond the last character. -/
  | escapeTooLarge
  /-- An escape names a number beyond any sense. -/
  | escapeOverflow
  deriving DecidableEq, Repr

/-- The wording of a fault. -/
def Fault.message : Fault → Text
  | .malformed => "<YAML>"
  | .numeral fault => fault.message
  | .emptyNumeral => "string index out of range"
  | .unknownTruth word => Quoted.text word
  | .noTime => "'NoneType' object has no attribute 'groupdict'"
  | .timeOfMapping => "expected string or bytes-like object, got 'list'"
  | .badTime words => words
  | .placeTooHigh => "int too large to convert to float"
  | .tooDeep => "maximum recursion depth exceeded"
  | .tooDeepToWrite => "maximum recursion depth exceeded while getting the repr of an object"
  | .escapeTooLarge => "chr() arg not in range(0x110000)"
  | .escapeOverflow => "Python int too large to convert to C int"

-- ── How deep a document may be ──────────────────────────────────────────────

/-- How many steps may wait, each for the one that it has led to, while a document is
    loaded or written.  One more, and the work is given up. -/
def mostWaiting : Nat := 1000

/-- The levels for which there is room, if a level keeps `steps` waiting and `before` wait
    already when the first is entered. -/
def levelsWithin (steps before : Nat) : Nat :=
  (mostWaiting - before) / steps

end SketchMerge.Yaml
