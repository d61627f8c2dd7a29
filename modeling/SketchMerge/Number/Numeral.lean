import SketchMerge.Number.Binary64
import SketchMerge.Text.Blank
import SketchMerge.Text.Digit
import SketchMerge.Text.Lowercase
import SketchMerge.Text.Quoted

/-! # Numerals

    How numbers are read from text.  Around a numeral there may be blanks, the
    information separators excepted; in front of it a sign; between two digits
    one underscore; and a digit may be of any script.  Whole numbers outside
    bases that are powers of two have at most 4300 digits, both when they are
    read and when they are written. -/

namespace SketchMerge.Numeral

/-- The largest number of decimal digits that is read or written. -/
def maxDigits : Nat := 4300

/-- Why a text is not the numeral of a whole number. -/
inductive Fault where
  /-- The text is no numeral of that base. -/
  | malformed (base : Nat) (t : Text)
  /-- The numeral has too many digits. -/
  | tooLongToRead (digits : Nat)
  /-- The number has too many digits. -/
  | tooLongToWrite
  /-- The text is no numeral of a floating point number. -/
  | malformedFloat (t : Text)
  deriving DecidableEq, Repr

/-- The wording of a fault.  A quoted text is cut after two hundred glyphs. -/
def Fault.message : Fault → Text
  | .malformed base t =>
    "invalid literal for int() with base " ++ Text.ofNat base ++ ": "
      ++ (Quoted.text t).take 200
  | .tooLongToRead digits =>
    "Exceeds the limit (" ++ Text.ofNat maxDigits
      ++ " digits) for integer string conversion: value has " ++ Text.ofNat digits
      ++ " digits; use sys.set_int_max_str_digits() to increase the limit"
  | .tooLongToWrite =>
    "Exceeds the limit (" ++ Text.ofNat maxDigits
      ++ " digits) for integer string conversion; use sys.set_int_max_str_digits()"
      ++ " to increase the limit"
  | .malformedFloat t => "could not convert string to float: " ++ Quoted.text t

/-- The blanks that may stand around a numeral. -/
def isMargin (g : Glyph) : Bool :=
  g.isBlank && !(28 ≤ g.code && g.code ≤ 31)

/-- The text without its margins. -/
def trimMargins (t : Text) : Text :=
  (t.dropWhile isMargin |>.reverse.dropWhile isMargin).reverse

/-- A leading sign, if any, and the rest. -/
def takeSign : Text → Bool × Text
  | .char '-' :: rest => (true, rest)
  | .char '+' :: rest => (false, rest)
  | t => (false, t)

/-- The digits of a text in which single underscores may stand between digits.
    `afterDigit` says that a digit stands right before. -/
def digitsFrom (value? : Glyph → Option Nat) : Bool → Text → Option (List Nat)
  | afterDigit, [] => if afterDigit then some [] else none
  | afterDigit, g :: rest =>
    if g.is '_' then if afterDigit then digitsFrom value? false rest else none
    else
      match value? g with
      | some d => (digitsFrom value? true rest).map (d :: ·)
      | none => none

/-- The mark that may announce a base: nought and a letter. -/
def baseLetter? : Nat → Option Char
  | 2 => some 'b'
  | 8 => some 'o'
  | 16 => some 'x'
  | _ => none

/-- The text with the decimal digits of every script written as those of ASCII. -/
def plainDigits (t : Text) : Text :=
  t.map fun g => match g.digit? with
    | some d => .char (Nat.digitChar d)
    | none => g

/-- The text without the mark of its base.  An underscore may follow the mark. -/
def dropBaseMark (base : Nat) (t : Text) : Text :=
  match baseLetter? base, t with
  | some letter, .char '0' :: .char c :: rest =>
    if c.toLower == letter then
      match rest with
      | .char '_' :: rest => rest
      | rest => rest
    else t
  | _, t => t

/-- The number with the given digits. -/
def ofDigits (base : Nat) (ds : List Nat) : Nat :=
  ds.foldl (fun n d => n * base + d) 0

/-- The whole number that a text writes in the given base.  The digits at its front
    are counted before it is asked what stands after them. -/
def readInt (base : Nat) (t : Text) : Except Fault Int :=
  let (negative, body) := takeSign (plainDigits (t.dropWhile isMargin))
  let value? (g : Glyph) : Option Nat := g.digitOrLetter?.filter (· < base)
  let (run, rest) :=
    (dropBaseMark base body).span fun g => g.is '_' || (value? g).isSome
  match digitsFrom value? false run with
  | none => .error (.malformed base t)
  | some ds =>
    if (baseLetter? base).isNone && maxDigits < ds.length then .error (.tooLongToRead ds.length)
    else if !rest.all isMargin then .error (.malformed base t)
    else
      let n : Int := ofDigits base ds
      .ok (if negative then -n else n)

/-- The decimal numeral of a whole number. -/
def writeInt (n : Int) : Except Fault Text :=
  if Nat.pow 10 maxDigits ≤ n.natAbs then .error .tooLongToWrite else .ok (Text.ofInt n)

/-- Whether every underscore stands between two digits. -/
def underscoresFit : Bool → Text → Bool
  | _, [] => true
  | afterDigit, g :: rest =>
    if g.is '_' then
      afterDigit && (match rest with | d :: _ => d.digit?.isSome | [] => false)
        && underscoresFit false rest
    else underscoresFit g.digit?.isSome rest

/-- The digits at the start of a text, and the rest. -/
def spanDigits (t : Text) : List Nat × Text :=
  ((t.takeWhile (·.digit?.isSome)).filterMap Glyph.digit?, t.dropWhile (·.digit?.isSome))

/-- A power of ten: an `e`, a sign and digits, or nothing at all. -/
def readPower : Text → Option Int
  | [] => some 0
  | .char 'e' :: rest =>
    let (negative, body) := takeSign rest
    match spanDigits body with
    | ([], _) => none
    | (ds, []) =>
      let n : Int := ofDigits 10 ds
      some (if negative then -n else n)
    | (_, _ :: _) => none
  | _ :: _ => none

/-- A number without sign, in small letters: digits with at most one point, then
    a power of ten; or the name of infinity or of no number. -/
def readUnsigned (negative : Bool) (t : Text) : Option Binary64 :=
  if t == ("inf" : Text) || t == ("infinity" : Text) then some (.infinite negative)
  else if t == ("nan" : Text) then some .nan
  else
    let (whole, rest) := spanDigits t
    let (fraction, rest) :=
      match rest with
      | .char '.' :: after => spanDigits after
      | _ => ([], rest)
    if whole.isEmpty && fraction.isEmpty then none
    else
      (readPower rest).map fun power =>
        Binary64.ofDecimal negative (ofDigits 10 (whole ++ fraction)) (power - fraction.length)

/-- The floating point number that a text writes. -/
def readFloat (t : Text) : Except Fault Binary64 :=
  let body := trimMargins t
  let (negative, digits) := takeSign body
  let plain := Text.lower (digits.filter (!·.is '_'))
  match underscoresFit false body, readUnsigned negative plain with
  | true, some x => .ok x
  | _, _ => .error (.malformedFloat t)

end SketchMerge.Numeral
