/-! # Binary floating point numbers of 64 bits

    A finite number is a sign, a mantissa below `2 ^ 53` and a power of two from
    `2 ^ -1074` on.  Everything is exact arithmetic on natural numbers followed
    by one rounding to the nearest number, ties to the even mantissa. -/

namespace SketchMerge

/-- A binary floating point number.  Finite numbers come from `ofRatio`, which
    gives each value its one form: the mantissa is at least `2 ^ 52`, or the
    exponent is the least one. -/
inductive Binary64 where
  /-- The number `mantissa * 2 ^ exponent`, or its negative. -/
  | finite (negative : Bool) (mantissa : Nat) (exponent : Int)
  | infinite (negative : Bool)
  | nan
  deriving DecidableEq, Repr, Inhabited

namespace Binary64

/-- The least exponent of a finite number. -/
def leastExponent : Int := -1074

/-- The largest exponent of a finite number. -/
def largestExponent : Int := 971

/-- The zero with the given sign. -/
def zero (negative : Bool) : Binary64 := .finite negative 0 leastExponent

/-- The quotient rounded to the nearest integer, a half to the even one. -/
def roundDiv (num den : Nat) : Nat :=
  let q := num / den
  let r := num % den
  if den < 2 * r || (2 * r == den && q % 2 == 1) then q + 1 else q

/-- The fraction `num / den` divided by `2 ^ e`. -/
def unscale (num den : Nat) (e : Int) : Nat × Nat :=
  if e < 0 then (num * Nat.pow 2 (-e).toNat, den) else (num, den * Nat.pow 2 e.toNat)

/-- The number nearest to `num / den`. -/
def ofRatio (negative : Bool) (num den : Nat) : Binary64 :=
  if num = 0 then zero negative
  else
    let guess : Int := max ((num.log2 : Int) - den.log2 - 53) leastExponent
    let (p, q) := unscale num den guess
    let e := if Nat.pow 2 53 ≤ p / q then guess + 1 else guess
    let (p, q) := unscale num den e
    let m := roundDiv p q
    let (m, e) := if m = Nat.pow 2 53 then (Nat.pow 2 52, e + 1) else (m, e)
    if largestExponent < e then .infinite negative else .finite negative m e

/-- The number nearest to `m * 2 ^ e`. -/
def ofScaled (negative : Bool) (m : Nat) (e : Int) : Binary64 :=
  let (num, den) := unscale m 1 (-e)
  ofRatio negative num den

/-- The number nearest to a decimal `digits * 10 ^ exponent`.  Beyond four
    hundred places the answer is infinite or zero, whatever the digits. -/
def ofDecimal (negative : Bool) (digits : Nat) (exponent : Int) : Binary64 :=
  if digits = 0 then zero negative
  else
    let size : Int := (toString digits).length + exponent
    if 400 < size then .infinite negative
    else if size < -400 then zero negative
    else if exponent < 0 then ofRatio negative digits (Nat.pow 10 (-exponent).toNat)
    else ofRatio negative (digits * Nat.pow 10 exponent.toNat) 1

/-- The number nearest to a natural number. -/
def ofNat (n : Nat) : Binary64 := ofRatio false n 1

/-- The number with the other sign. -/
def neg : Binary64 → Binary64
  | .finite s m e => .finite (!s) m e
  | .infinite s => .infinite (!s)
  | .nan => .nan

/-- The number is nought, of either sign. -/
def isZero : Binary64 → Bool
  | .finite _ 0 _ => true
  | _ => false

/-- The rounded product. -/
def mul : Binary64 → Binary64 → Binary64
  | .finite s m e, .finite s' m' e' => ofScaled (s != s') (m * m') (e + e')
  | .infinite s, .infinite s' => .infinite (s != s')
  | .infinite s, .finite s' m _ => if m = 0 then .nan else .infinite (s != s')
  | .finite s m _, .infinite s' => if m = 0 then .nan else .infinite (s != s')
  | _, _ => .nan

/-- The rounded sum.  A sum that cancels is positive nought. -/
def add : Binary64 → Binary64 → Binary64
  | .finite s m e, .finite s' m' e' =>
    let low := min e e'
    let a : Int := (if s then -1 else 1) * (m * Nat.pow 2 (e - low).toNat : Nat)
    let b : Int := (if s' then -1 else 1) * (m' * Nat.pow 2 (e' - low).toNat : Nat)
    let sum := a + b
    if sum = 0 then zero (s && s') else ofScaled (sum < 0) sum.natAbs low
  | .infinite s, .infinite s' => if s = s' then .infinite s else .nan
  | .infinite s, .finite .. => .infinite s
  | .finite .., .infinite s => .infinite s
  | _, _ => .nan

/-- The number as an exact fraction with sign, when it is finite. -/
def toRatio? : Binary64 → Option (Int × Nat)
  | .finite s m e =>
    let (num, den) := unscale m 1 (-e)
    some (if s then -(num : Int) else num, den)
  | _ => none

end Binary64

end SketchMerge
