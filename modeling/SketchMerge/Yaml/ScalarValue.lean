import SketchMerge.Yaml.Base64
import SketchMerge.Yaml.Document
import SketchMerge.Yaml.TypeTag

/-! # Values of scalars

    What the text of a scalar means under its type.  A type may come from a tag,
    so the text need not look like it, and then there is a fault. -/

namespace SketchMerge.Yaml.ScalarValue

/-- The truth values by their names. -/
def truthNames : List (String × Bool) :=
  [("yes", true), ("no", false), ("true", true), ("false", false), ("on", true), ("off", false)]

/-- The truth value that a text names, in letters of any case. -/
def truth (t : Text) : Except Fault Datum :=
  let word := t.lower
  match truthNames.find? fun (name, _) => word == Text.ofString name with
  | some (_, b) => .ok (.truth b)
  | none => .error (.unknownTruth word)

/-- The texts between the colons of a number in base sixty. -/
def places (t : Text) : List Text :=
  t.splitAtEach (·.is ':')

/-- The number that a text writes in the given base. -/
def numeral (base : Nat) (t : Text) : Except Fault Int :=
  (Numeral.readInt base t).mapError .numeral

/-- A whole number without sign.  The start of the text tells its base. -/
def natural (t : Text) : Except Fault Int :=
  match t with
  | [] => .error .emptyNumeral
  | [.char '0'] => .ok 0
  | .char '0' :: .char 'b' :: rest => numeral 2 rest
  | .char '0' :: .char 'x' :: rest => numeral 16 rest
  | .char '0' :: _ => numeral 8 t
  | _ =>
    if t.any (·.is ':') then do
      let digits ← (places t).mapM (numeral 10)
      .ok (digits.foldl (fun n d => n * 60 + d) 0)
    else numeral 10 t

/-- The text without underscores, which may stand anywhere in a number. -/
def withoutUnderscores (t : Text) : Text :=
  t.filter (!·.is '_')

/-- A number and its sign apart.  There must be some text. -/
def signed (t : Text) : Except Fault (Bool × Text) :=
  if t.isEmpty then .error .emptyNumeral else .ok (Numeral.takeSign t)

/-- A whole number. -/
def integer (t : Text) : Except Fault Datum := do
  let (negative, body) ← signed (withoutUnderscores t)
  let n ← natural body
  .ok (.integer (if negative then -n else n))

/-- Floating point digits in base sixty, the lowest place first, added up from the
    lowest place on.  Every place must be worth a finite number. -/
def addPlaces (digits : List Binary64) : Except Fault Binary64 := do
  let (sum, _) ← digits.foldlM
    (fun (sum, worth) d =>
      match Binary64.ofNat worth with
      | .infinite _ => .error .placeTooHigh
      | w => .ok (Binary64.add sum (Binary64.mul d w), worth * 60))
    (Binary64.zero false, 1)
  .ok sum

/-- A floating point number, in letters of any case.  Letters get their small form
    once the underscores are gone, so what an underscore kept apart is one word. -/
def float (t : Text) : Except Fault Datum := do
  let (negative, body) ← signed (withoutUnderscores t).lower
  if body == (".nan" : Text) then .ok .noNumber
  else
    let x ←
      if body == (".inf" : Text) then .ok (Binary64.infinite false)
      else if body.any (·.is ':') then do
        let digits ← (places body).mapM fun p => (Numeral.readFloat p).mapError Fault.numeral
        addPlaces digits.reverse
      else (Numeral.readFloat body).mapError Fault.numeral
    .ok (.float (if negative then x.neg else x))

/-- Bytes in base 64. -/
def binary (t : Text) : Except Fault Datum :=
  match t.mapM fun g => g.char?.filter (·.toNat < 128) with
  | none => .error .malformed
  | some cs =>
    match Base64.decode? cs with
    | some bs => .ok (.bytes bs)
    | none => .error .malformed

/-- The value of a scalar of the given type.  Collections are no scalars, and some
    types have no values. -/
def ofText (type : TypeTag) (t : Text) : Except Fault Datum :=
  match type with
  | .null => .ok .null
  | .truth => truth t
  | .integer => integer t
  | .float => float t
  | .binary => binary t
  | .timestamp => (Time.read t).map .time
  | .text => .ok (.text t)
  | _ => .error .malformed

end SketchMerge.Yaml.ScalarValue
