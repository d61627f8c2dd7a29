import SketchMerge.Text.Glyph

/-! # Base 64

    Bytes written as letters, four letters for three bytes.  Whatever is not one
    of the sixty-four letters is passed over; padding ends the data once the
    letters before it fill a group. -/

namespace SketchMerge.Yaml.Base64

/-- The value of a letter. -/
def letter? (c : Char) : Option Nat :=
  let n := c.toNat
  if 65 ≤ n && n ≤ 90 then some (n - 65)
  else if 97 ≤ n && n ≤ 122 then some (n - 71)
  else if 48 ≤ n && n ≤ 57 then some (n + 4)
  else if c == '+' then some 62
  else if c == '/' then some 63
  else none

/-- Decodes from the middle of a group: `have_` letters of it are read, `left` are
    their bits that are not yet written, `pads` the padding just before.  There is
    no result if the letters end inside a group. -/
def decodeFrom : (have_ left pads : Nat) → List Char → Option (List UInt8)
  | have_, _, _, [] => if have_ == 0 then some [] else none
  | have_, left, pads, c :: rest =>
    if c == '=' then
      if 2 ≤ have_ && 4 ≤ have_ + pads + 1 then some []
      else decodeFrom have_ left (if 2 ≤ have_ then pads + 1 else pads) rest
    else
      match letter? c with
      | none => decodeFrom have_ left pads rest
      | some v =>
        match have_ with
        | 0 => decodeFrom 1 v 0 rest
        | 1 => (decodeFrom 2 (v % 16) 0 rest).map (UInt8.ofNat (left * 4 + v / 16) :: ·)
        | 2 => (decodeFrom 3 (v % 4) 0 rest).map (UInt8.ofNat (left * 16 + v / 4) :: ·)
        | _ => (decodeFrom 0 0 0 rest).map (UInt8.ofNat (left * 64 + v) :: ·)

/-- The bytes that some ASCII characters write. -/
def decode? (cs : List Char) : Option (List UInt8) :=
  decodeFrom 0 0 0 cs

end SketchMerge.Yaml.Base64
