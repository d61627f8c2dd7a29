import SketchMerge.Number.Binary64
import SketchMerge.Text.Glyph

/-! # The fewest digits that read back

    A floating point number is written with the fewest decimal digits that are
    nearer to it than to any other number, and of those with the nearest.  The
    reals that round to a number form an interval, whose ends belong to it when
    the mantissa is even; for one digit, two digits, … the two neighbours of the
    number on that decimal grid are tested against the interval. -/

namespace SketchMerge

/-- A positive decimal: nought, a point, the digits, times `10 ^ point`. -/
structure Decimal where
  digits : List Nat
  point : Int
  deriving DecidableEq, Repr

namespace Decimal

/-- The decimal digits of a number, the highest first. -/
def digitsOf (n : Nat) : List Nat :=
  (Nat.toDigits 10 n).map fun c => c.toNat - 48

/-- A whole number of units `10 ^ unit`, without noughts at its end. -/
def ofUnits (n : Nat) (unit : Int) : Decimal :=
  let ds := digitsOf n
  ⟨(ds.reverse.dropWhile (· == 0)).reverse, unit + ds.length⟩

/-- The least `point` with `num / den < 10 ^ point`, found by going down from
    `point` at most `fuel` times. -/
def findPoint (num den : Nat) : Nat → Int → Int
  | 0, point => point
  | fuel + 1, point =>
    let (p, q) := if 1 ≤ point then (num, den * Nat.pow 10 (point - 1).toNat)
      else (num * Nat.pow 10 (1 - point).toNat, den)
    if p < q then findPoint num den fuel (point - 1) else point

/-- A candidate with `count` digits that rounds to the number, if there is one.
    The value and the ends of its interval are `v`, `lo`, `hi` over `den`. -/
def withDigits (v lo hi den : Nat) (closed : Bool) (point : Int) (count : Nat) : Option Decimal :=
  let unit : Int := point - count
  let (up, down) := if unit < 0 then (Nat.pow 10 (-unit).toNat, 1) else (1, Nat.pow 10 unit.toNat)
  -- everything is measured in units: a number `n` of units is `n * down * den` against `v * up`
  let step := down * den
  let below := v * up / step
  let inside (n : Nat) : Bool :=
    if closed then lo * up ≤ n * step && n * step ≤ hi * up
    else lo * up < n * step && n * step < hi * up
  let rest := v * up - below * step
  let nearerBelow := 2 * rest < step || (2 * rest == step && below % 2 == 0)
  match inside below, inside (below + 1) with
  | true, true => some (ofUnits (if nearerBelow then below else below + 1) unit)
  | true, false => some (ofUnits below unit)
  | false, true => some (ofUnits (below + 1) unit)
  | false, false => none

/-- The shortest decimal of the number `m * 2 ^ e` with `m` positive. -/
def shortest (m : Nat) (e : Int) : Decimal :=
  let lowGap := if m = Nat.pow 2 52 && Binary64.leastExponent < e then 1 else 2
  let (factor, den) := Binary64.unscale 1 1 (2 - e)
  let v := 4 * m * factor
  let lo := (4 * m - lowGap) * factor
  let hi := (4 * m + 2) * factor
  let start : Int := (Nat.toDigits 10 (v / den)).length
  let point := findPoint v den 400 start
  match (List.range 17).findSome? fun i =>
      withDigits v lo hi den (m % 2 == 0) point (i + 1) with
  | some d => d
  | none => ofUnits (v / den) 0

/-- How a decimal is laid out. -/
structure Layout where
  /-- Exponents from here on are written with a point in place. -/
  leastPositional : Int
  /-- Exponents from here on are written with a power of ten. -/
  firstScientific : Int
  /-- The least number of digits of the power. -/
  powerWidth : Nat

private def digitText (ds : List Nat) : Text :=
  ds.map fun d => .char (Nat.digitChar d)

/-- The decimal with a point in place, and at least one digit on either side. -/
def positional (d : Decimal) : Text :=
  if d.point ≤ 0 then
    ("0." : Text) ++ List.replicate (-d.point).toNat (Glyph.char '0') ++ digitText d.digits
  else
    let whole := d.point.toNat
    let front := d.digits.take whole
    let back := d.digits.drop whole
    digitText front ++ List.replicate (whole - front.length) (Glyph.char '0')
      ++ (if back.isEmpty then (".0" : Text) else ("." : Text) ++ digitText back)

/-- The decimal with one digit before the point, and a power of ten. -/
def scientific (layout : Layout) (d : Decimal) : Text :=
  let power := d.point - 1
  digitText (d.digits.take 1)
    ++ (if d.digits.length ≤ 1 then [] else ("." : Text) ++ digitText (d.digits.drop 1))
    ++ (if power < 0 then ("e-" : Text) else ("e+" : Text))
    ++ Text.padded layout.powerWidth power.natAbs

/-- The decimal in the form that its size asks for. -/
def layOut (layout : Layout) (d : Decimal) : Text :=
  if layout.leastPositional ≤ d.point - 1 && d.point - 1 < layout.firstScientific
  then positional d else scientific layout d

end Decimal

/-- The text of a floating point number in the given layout. -/
def Binary64.text (layout : Decimal.Layout) : Binary64 → Text
  | .nan => "nan"
  | .infinite negative => if negative then "-inf" else "inf"
  | .finite negative m e =>
    let size : Text := if m = 0 then "0.0" else (Decimal.shortest m e).layOut layout
    if negative then .char '-' :: size else size

end SketchMerge
