import SketchMerge.Text.Digit
import SketchMerge.Yaml.Fault

/-! # Dates and times

    A timestamp is a date, or a date with a time of day and perhaps an offset
    from universal time.  Years have four digits; what follows a sixth decimal
    place of a second is dropped. -/

namespace SketchMerge.Yaml

/-- A day of the calendar. -/
structure Date where
  year : Nat
  month : Nat
  day : Nat
  deriving DecidableEq, Repr

/-- A time on a day, with the offset from universal time in minutes if it is
    known. -/
structure Moment where
  date : Date
  hour : Nat
  minute : Nat
  second : Nat
  microsecond : Nat
  offset : Option Int
  deriving DecidableEq, Repr

namespace Date

/-- The year has a leap day. -/
def isLeap (year : Nat) : Bool :=
  year % 4 == 0 && (year % 100 != 0 || year % 400 == 0)

/-- The number of days of a month. -/
def daysIn (year month : Nat) : Nat :=
  if month == 2 then if isLeap year then 29 else 28
  else if [4, 6, 9, 11].contains month then 30 else 31

/-- The date if there is such a day. -/
def check (d : Date) : Except Fault Date :=
  if d.year == 0 then .error (.badTime "year 0 is out of range")
  else if d.month == 0 || 12 < d.month then .error (.badTime "month must be in 1..12")
  else if d.day == 0 || daysIn d.year d.month < d.day then
    .error (.badTime "day is out of range for month")
  else .ok d

/-- The written form of a date. -/
def text (d : Date) : Text :=
  Text.padded 4 d.year ++ "-" ++ Text.padded 2 d.month ++ "-" ++ Text.padded 2 d.day

/-- The parts of a date. -/
def parts (d : Date) : List Text :=
  [d.year, d.month, d.day].map Text.ofNat

/-- The form of a date inside a collection. -/
def quoted (d : Date) : Text :=
  "datetime.date(" ++ Text.joinWith ", " d.parts ++ ")"

end Date

namespace Moment

/-- A length of time in minutes, as days and the seconds of a day. -/
def durationText (minutes : Int) : Text :=
  let days := minutes / 1440
  let seconds := minutes % 1440 * 60
  let parts : List Text :=
    (if days = 0 then [] else ["days=" ++ Text.ofInt days])
      ++ (if seconds = 0 then [] else ["seconds=" ++ Text.ofInt seconds])
  "datetime.timedelta(" ++ (if parts.isEmpty then ("0" : Text) else Text.joinWith ", " parts) ++ ")"

/-- The offset if it is less than a day. -/
def checkOffset (minutes : Int) : Except Fault Int :=
  if minutes.natAbs < 1440 then .ok minutes
  else
    .error (.badTime
      ("offset must be a timedelta strictly between -timedelta(hours=24) and "
        ++ "timedelta(hours=24), not " ++ Quoted.console (durationText minutes) ++ "."))

/-- The moment if there is such a time. -/
def check (m : Moment) : Except Fault Moment := do
  let _ ← m.date.check
  if 23 < m.hour then .error (.badTime "hour must be in 0..23")
  else if 59 < m.minute then .error (.badTime "minute must be in 0..59")
  else if 59 < m.second then .error (.badTime "second must be in 0..59")
  else .ok m

/-- The written form of an offset. -/
def offsetText (minutes : Int) : Text :=
  let size := minutes.natAbs
  (if minutes < 0 then ("-" : Text) else ("+" : Text))
    ++ Text.padded 2 (size / 60) ++ ":" ++ Text.padded 2 (size % 60)

/-- The written form of a moment. -/
def text (m : Moment) : Text :=
  m.date.text ++ " " ++ Text.padded 2 m.hour ++ ":" ++ Text.padded 2 m.minute ++ ":"
    ++ Text.padded 2 m.second
    ++ (if m.microsecond = 0 then [] else ("." : Text) ++ Text.padded 6 m.microsecond)
    ++ (match m.offset with
      | some minutes => offsetText minutes
      | none => [])

/-- The form of a moment inside a collection. -/
def quoted (m : Moment) : Text :=
  let time :=
    [m.hour, m.minute]
      ++ (if m.microsecond = 0 then if m.second = 0 then [] else [m.second]
        else [m.second, m.microsecond])
  let zone : List Text :=
    match m.offset with
    | none => []
    | some 0 => ["tzinfo=datetime.timezone.utc"]
    | some minutes => ["tzinfo=datetime.timezone(" ++ durationText minutes ++ ")"]
  "datetime.datetime("
    ++ Text.joinWith ", " (m.date.parts ++ time.map Text.ofNat ++ zone) ++ ")"

/-- The minutes from the first day of the calendar to a moment, in universal time
    if the offset is known. -/
def minutes (m : Moment) : Int :=
  let years := m.date.year - 1
  let before := (List.range (m.date.month - 1)).foldl
    (fun days i => days + Date.daysIn m.date.year (i + 1)) 0
  let days := years * 365 + years / 4 - years / 100 + years / 400 + before + (m.date.day - 1)
  ((days * 1440 + m.hour * 60 + m.minute : Nat) : Int) - m.offset.getD 0

/-- Two moments are the same instant.  One with and one without an offset never
    are. -/
def same (a b : Moment) : Bool :=
  a.offset.isSome == b.offset.isSome && a.minutes == b.minutes && a.second == b.second
    && a.microsecond == b.microsecond

end Moment

/-- A date or a moment. -/
inductive Time where
  | date (d : Date)
  | moment (m : Moment)
  deriving DecidableEq, Repr

namespace Time

/-- The digits at the start of a text, at most `most` of them, as a number. -/
def number? (least most : Nat) (t : Text) : Option (Nat × Text) :=
  let run := (t.take most).takeWhile Glyph.isAsciiDigit
  if run.length < least then none
  else some (Numeral.ofDigits 10 (run.filterMap Glyph.digit?), t.drop run.length)

/-- The text after a given character. -/
def after? (c : Char) : Text → Option Text
  | g :: rest => if g.is c then some rest else none
  | [] => none

/-- Spaces and tabs. -/
def isGap (g : Glyph) : Bool := g.is ' ' || g.is '\t'

/-- The text after what divides the date from the time of day. -/
def afterDivider? : Text → Option Text
  | g :: rest =>
    if g.is 'T' || g.is 't' then some rest
    else if isGap g then some (rest.dropWhile isGap)
    else none
  | [] => none

/-- The fraction of a second in millionths. -/
def fraction (t : Text) : Nat × Text :=
  match after? '.' t with
  | none => (0, t)
  | some rest =>
    let digits := (rest.takeWhile Glyph.isAsciiDigit).filterMap Glyph.digit?
    let six := (digits ++ List.replicate 6 0).take 6
    (Numeral.ofDigits 10 six, rest.drop digits.length)

/-- The end of a text, or a newline before it. -/
def atEnd (t : Text) : Bool :=
  t.isEmpty || t == [.char '\n']

/-- The offset at the end of a time: none, a `Z`, or a sign with hours and perhaps
    minutes. -/
def offset? (t : Text) : Option (Option Int) :=
  if atEnd t then some none
  else
    match t.dropWhile isGap with
    | .char 'Z' :: rest => if atEnd rest then some (some 0) else none
    | g :: rest =>
      if g.is '+' || g.is '-' then do
        let (hours, rest) ← number? 1 2 rest
        let (minutes, rest) ←
          match after? ':' rest with
          | some rest => number? 2 2 rest
          | none => some (0, rest)
        let total : Int := hours * 60 + minutes
        if atEnd rest then some (some (if g.is '-' then -total else total)) else none
      else none
    | [] => none

/-- The date or moment that a text writes, before its ranges are checked. -/
def parse? (t : Text) : Option Time := do
  let (year, t) ← number? 4 4 t
  let (month, t) ← number? 1 2 (← after? '-' t)
  let (day, t) ← number? 1 2 (← after? '-' t)
  let date : Date := ⟨year, month, day⟩
  if atEnd t then some (.date date)
  else
    let (hour, t) ← number? 1 2 (← afterDivider? t)
    let (minute, t) ← number? 2 2 (← after? ':' t)
    let (second, t) ← number? 2 2 (← after? ':' t)
    let (microsecond, t) := fraction t
    let offset ← offset? t
    some (.moment { date, hour, minute, second, microsecond, offset })

/-- The date or moment that a text writes.  The offset is checked before the rest. -/
def read (t : Text) : Except Fault Time := do
  match parse? t with
  | none => .error .noTime
  | some (.date d) => .ok (.date (← d.check))
  | some (.moment m) =>
    match m.offset with
    | some minutes => let _ ← Moment.checkOffset minutes
    | none => pure ()
    .ok (.moment (← m.check))

end Time

end SketchMerge.Yaml
