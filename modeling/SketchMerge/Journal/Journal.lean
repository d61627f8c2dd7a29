import SketchMerge.Files.Tree
import SketchMerge.Journal.Note
import SketchMerge.Journal.Voice
import SketchMerge.Text.Quoted
import SketchMerge.Text.Utf8

/-! # The journal

    Notes are entered in a journal.  It remembers them all, each with the stage of
    the run at that time.  Once it is set up, the notes that are heavy enough are
    also shown on the console and written to a log file if there is one.  Before
    that, and for voices that the head voice does not govern, warnings and what is
    heavier are shown bare.

    Whether the notes of a voice are heavy enough is asked once for each weight: a
    voice that has been passed over with a note stays so for notes of this weight
    until the journal is set up again, also if the head voice comes to govern it in
    the meantime. -/

namespace SketchMerge

/-- A note as the journal remembers it. -/
structure Journal.Record where
  level : Level
  voice : Text
  stage : Text
  message : Text
  deriving DecidableEq, Repr

/-- A log file that is open.  Its location is lost when it is deleted. -/
structure Journal.LogFile where
  location : Option Location
  deriving DecidableEq, Repr

/-- A journal. -/
structure Journal where
  /-- The stage of the run. -/
  stage : Text := "-"
  /-- The weight from which on notes are shown, once the journal is set up. -/
  threshold : Option Level := none
  logFile : Option Journal.LogFile := none
  /-- The voices that have been called up. -/
  voices : List Text := []
  /-- The voices whose notes have been too light since the last set-up, each with the
      weight. -/
  passedOver : List (Text × Level) := []
  /-- What has been entered, in order. -/
  records : List Journal.Record := []
  deriving DecidableEq, Repr

namespace Journal

/-- The journal at another stage. -/
def atStage (j : Journal) (stage : Text) : Journal :=
  { j with stage }

/-- The journal after a voice is called up. -/
def callUp (j : Journal) (voice : Text) : Journal :=
  if j.voices.contains voice then j else { j with voices := voice :: j.voices }

/-- The journal after it is set up with a weight and without a log file. -/
def setUp (j : Journal) (threshold : Level) : Journal :=
  { j.callUp Voice.head with threshold := some threshold, logFile := none, passedOver := [] }

/-- The number of places where notes are shown. -/
def sinks (j : Journal) : Nat :=
  (if j.threshold.isSome then 1 else 0) + (if j.logFile.isSome then 1 else 0)

/-- The journal after the entry at a location is deleted. -/
def forget (j : Journal) (l : Location) : Journal :=
  { j with logFile := j.logFile.map fun f => if f.location == some l then ⟨none⟩ else f }

/-- A note with the detail below its message. -/
def body (n : Note) : Text :=
  if n.detail.isEmpty then n.message else n.message ++ "\n" ++ n.detail

section

variable (governs : Voice.Rule)

/-- The weight from which on the notes of a voice are shown by the rules of the
    journal, if they are. -/
def thresholdFor (j : Journal) (voice : Text) : Option Level :=
  if governs j.voices voice then j.threshold else none

/-- A note is heavy enough for its voice, and has not been passed over before. -/
def takes (j : Journal) (n : Note) : Bool :=
  let voice := Voice.ofPart n.part
  !j.passedOver.contains (voice, n.level)
    && n.level.reaches ((j.thresholdFor governs voice).getD .warning)

/-- What the console shows of a note. -/
def consoleLine (j : Journal) (n : Note) : Text :=
  if j.takes governs n then
    match j.thresholdFor governs (Voice.ofPart n.part) with
    | some _ => Quoted.console ("[sketchpp] " ++ n.level.label ++ " " ++ body n ++ "\n")
    | none => Quoted.console (body n ++ "\n")
  else []

/-- What the log file receives of a note that is entered at the given time. -/
def logLine (j : Journal) (time : Text) (n : Note) : Text :=
  let voice := Voice.ofPart n.part
  if j.takes governs n && (j.thresholdFor governs voice).isSome then
    time ++ " " ++ n.level.label ++ " " ++ voice ++ " [" ++ j.stage ++ "]: " ++ body n ++ "\n"
  else []

/-- The journal with one more note. -/
def enter (j : Journal) (n : Note) : Journal :=
  let voice := Voice.ofPart n.part
  let record : Record := { level := n.level, voice, stage := j.stage, message := n.message }
  { j.callUp voice with
    records := j.records ++ [record]
    passedOver := if j.takes governs n then j.passedOver else j.passedOver.insert (voice, n.level) }

end

end Journal

end SketchMerge
