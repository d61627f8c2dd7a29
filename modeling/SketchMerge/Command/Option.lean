import SketchMerge.Config.Variant
import SketchMerge.Text.Digit
import SketchMerge.Text.Quoted

/-! # Options of the command line

    How single words of a command line are read.  An option may be shortened as
    long as only one option fits; its value may be joined to it with an equals
    sign.  Words that look like numbers below zero, or that hold a space, are
    never options. -/

namespace SketchMerge.Command

/-- An option. -/
inductive Flag where
  | help
  | verbose
  | logFile
  | variant
  | tool
  deriving DecidableEq, Repr

namespace Flag

/-- The spellings of the options, in the order in which they are compared. -/
def spellings : List (Text × Flag) :=
  [("-h", .help), ("--help", .help), ("-v", .verbose), ("--verbose", .verbose),
    ("--log-file", .logFile), ("--variant", .variant), ("--ctags", .tool)]

/-- The option with a given spelling. -/
def spelled? (t : Text) : Option Flag :=
  spellings.lookup t

/-- All spellings of an option, as they are shown in messages. -/
def label (f : Flag) : Text :=
  Text.joinWith "/" ((spellings.filter fun (_, g) => g == f).map Prod.fst)

/-- The option has a value. -/
def takesValue : Flag → Bool
  | .help | .verbose => false
  | .logFile | .variant | .tool => true

end Flag

/-- Why a command line cannot be used. -/
inductive Misuse where
  /-- The word could be short for several options. -/
  | ambiguous (word : Text) (candidates : List Text)
  /-- The option has no value, yet one is joined to it. -/
  | ignoredValue (flag : Flag) (value : Text)
  /-- The value of the option is missing. -/
  | noValue (flag : Flag)
  /-- The value is none of those that can be chosen. -/
  | badChoice (flag : Flag) (value : Text)
  /-- Some of the folders are missing. -/
  | missing (names : List Text)
  /-- Some words have no meaning. -/
  | unrecognized (words : List Text)
  deriving DecidableEq, Repr

/-- The wording of a misuse. -/
def Misuse.message : Misuse → Text
  | .ambiguous word candidates =>
    "ambiguous option: " ++ word ++ " could match " ++ Text.joinWith ", " candidates
  | .ignoredValue flag value =>
    "argument " ++ flag.label ++ ": ignored explicit argument " ++ Quoted.text value
  | .noValue flag => "argument " ++ flag.label ++ ": expected one argument"
  | .badChoice flag value =>
    "argument " ++ flag.label ++ ": invalid choice: " ++ Quoted.text value ++ " (choose from "
      ++ Text.joinWith ", " (Variant.all.map fun v => Quoted.text v.name) ++ ")"
  | .missing names => "the following arguments are required: " ++ Text.joinWith ", " names
  | .unrecognized words => "unrecognized arguments: " ++ Text.joinWith " " words

/-- An option as it is written in a word. -/
structure Written where
  /-- The option, if there is such an option. -/
  flag : Option Flag
  /-- The spelling is a dash and one more glyph. -/
  short : Bool := false
  /-- The value joined to it. -/
  value : Option Text := none
  deriving DecidableEq, Repr

/-- A word of a command line. -/
inductive Word where
  | plain (text : Text)
  /-- The first pair of dashes.  No word after it is an option. -/
  | divider
  | option (text : Text) (written : Written)
  deriving DecidableEq, Repr

namespace Word

/-- The word as it was given. -/
def text : Word → Text
  | .plain t => t
  | .divider => "--"
  | .option t _ => t

/-- The word is an option. -/
def isOption : Word → Bool
  | .option .. => true
  | _ => false

/-- The dash. -/
def dash : Glyph := .char '-'

/-- The text before the first equals sign, and the text after it if there is one. -/
def cutAtEquals (t : Text) : Text × Option Text :=
  match Text.cutAtFirst (.char '=') t with
  | some (before, after) => (before, some after)
  | none => (t, none)

/-- What a word with two dashes can be short for. -/
def longCandidates (t : Text) : List (Text × Written) :=
  let (start, value) := cutAtEquals t
  (Flag.spellings.filter fun (s, _) => s.startsWith start).map fun (s, f) =>
    (s, { flag := some f, value })

/-- What a word with one dash can be: an option of one letter with more joined to
    it, or the start of an option. -/
def shortCandidates (t : Text) : List (Text × Written) :=
  Flag.spellings.filterMap fun (s, f) =>
    if s == t.take 2 then some (s, { flag := some f, short := true, value := some (t.drop 2) })
    else if s.startsWith t then some (s, { flag := some f })
    else none

/-- The glyphs are digits, at least one. -/
def areDigits (t : Text) : Bool :=
  !t.isEmpty && t.all (·.digit?.isSome)

/-- The word looks like a number below zero.  A newline may end it. -/
def isNegativeNumber (t : Text) : Bool :=
  let body := if t.getLast? == some (.char '\n') then t.dropLast else t
  match body with
  | g :: digits =>
    g == dash &&
      (areDigits digits ||
        match Text.cutAtFirst (.char '.') digits with
        | some (whole, fraction) => (whole.isEmpty || areDigits whole) && areDigits fraction
        | none => false)
  | [] => false

/-- The option has two glyphs. -/
def isShort (t : Text) : Bool :=
  t.length == 2

/-- Reads a word before the divider. -/
def read (t : Text) : Except Misuse Word :=
  if t.head? != some dash then .ok (.plain t)
  else
    match Flag.spelled? t with
    | some f => .ok (.option t { flag := some f, short := isShort t })
    | none =>
      if t.length == 1 then .ok (.plain t)
      else
        let (start, value) := cutAtEquals t
        match value, Flag.spelled? start with
        | some v, some f =>
          .ok (.option t { flag := some f, short := isShort start, value := some v })
        | _, _ =>
          let candidates :=
            if t.drop 1 |>.head? |> (· == some dash) then longCandidates t else shortCandidates t
          match candidates with
          | _ :: _ :: _ => .error (.ambiguous t (candidates.map Prod.fst))
          | [(_, written)] => .ok (.option t written)
          | [] =>
            if isNegativeNumber t || t.contains (.char ' ') then .ok (.plain t)
            else .ok (.option t { flag := none })

/-- Reads the words of a command line. -/
def readAll : List Text → Except Misuse (List Word)
  | [] => .ok []
  | t :: rest =>
    if t == ("--" : Text) then .ok (.divider :: rest.map .plain)
    else do
      let w ← read t
      .ok (w :: (← readAll rest))

end Word

end SketchMerge.Command
