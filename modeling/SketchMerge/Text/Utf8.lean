import SketchMerge.Text.Glyph

/-! # UTF-8, with and without tolerance

    `decode` reads any bytes: a byte that starts no well-formed sequence becomes
    a stray glyph and reading goes on after it.  `encode` writes a text back, a
    stray glyph as its byte.  `decodeStrict` refuses such bytes and says where
    the first broken sequence lies and what is wrong with it; `unwritable?` says
    where a text has surrogates that no bytes stand for. -/

namespace SketchMerge.Utf8

/-- What is wrong with a broken sequence. -/
inductive Flaw where
  /-- The first byte starts no sequence. -/
  | start
  /-- A later byte does not continue the sequence. -/
  | continuation
  /-- The bytes end inside the sequence. -/
  | truncated
  deriving DecidableEq, Repr

/-- The wording of a flaw. -/
def Flaw.message : Flaw → String
  | .start => "invalid start byte"
  | .continuation => "invalid continuation byte"
  | .truncated => "unexpected end of data"

/-- What stands at the front of some bytes: a character, or the longest start of
    one that the next byte breaks.  `more` counts the bytes after the first. -/
inductive Front where
  | char (c : Char) (more : Nat)
  | flaw (why : Flaw) (more : Nat)
  deriving DecidableEq, Repr

/-- Continuation bytes. -/
def isTail (b : UInt8) : Bool :=
  0x80 ≤ b && b ≤ 0xBF

/-- The six bits a continuation byte carries. -/
def tailBits (b : UInt8) : Nat :=
  b.toNat % 64

/-- The second byte that may follow `b` in a sequence of three: the range keeps
    out numbers that fit in two bytes, and surrogates. -/
def isSecondOfThree (b t : UInt8) : Bool :=
  (if b == 0xE0 then 0xA0 ≤ t else 0x80 ≤ t) && (if b == 0xED then t ≤ 0x9F else t ≤ 0xBF)

/-- The second byte that may follow `b` in a sequence of four: the range keeps
    out numbers that fit in three bytes, and those above `0x10FFFF`. -/
def isSecondOfFour (b t : UInt8) : Bool :=
  (if b == 0xF0 then 0x90 ≤ t else 0x80 ≤ t) && (if b == 0xF4 then t ≤ 0x8F else t ≤ 0xBF)

/-- What stands at the front of `b :: rest`. -/
def front (b : UInt8) (rest : List UInt8) : Front :=
  if b < 0x80 then .char (Char.ofNat b.toNat) 0
  else if b < 0xC2 then .flaw .start 0
  else if b < 0xE0 then
    match rest with
    | [] => .flaw .truncated 0
    | t :: _ =>
      if isTail t then .char (Char.ofNat (b.toNat % 32 * 64 + tailBits t)) 1
      else .flaw .continuation 0
  else if b < 0xF0 then
    match rest with
    | [] => .flaw .truncated 0
    | [t] => if isSecondOfThree b t then .flaw .truncated 1 else .flaw .continuation 0
    | t :: u :: _ =>
      if !isSecondOfThree b t then .flaw .continuation 0
      else if !isTail u then .flaw .continuation 1
      else .char (Char.ofNat ((b.toNat % 16 * 64 + tailBits t) * 64 + tailBits u)) 2
  else if b < 0xF5 then
    match rest with
    | [] => .flaw .truncated 0
    | [t] => if isSecondOfFour b t then .flaw .truncated 1 else .flaw .continuation 0
    | [t, u] =>
      if !isSecondOfFour b t then .flaw .continuation 0
      else if !isTail u then .flaw .continuation 1
      else .flaw .truncated 2
    | t :: u :: v :: _ =>
      if !isSecondOfFour b t then .flaw .continuation 0
      else if !isTail u then .flaw .continuation 1
      else if !isTail v then .flaw .continuation 2
      else
        .char (Char.ofNat (((b.toNat % 8 * 64 + tailBits t) * 64 + tailBits u) * 64 + tailBits v)) 3
  else .flaw .start 0

/-- The stray glyph of a byte from `0x80` on. -/
def strayOf (b : UInt8) : Glyph :=
  Glyph.stray ⟨b.toNat % 128, Nat.mod_lt _ (by decide)⟩

/-- Reads bytes of which the first `skip` belong to a character already read. -/
def decodeAfter : Nat → List UInt8 → Text
  | _, [] => []
  | skip + 1, _ :: rest => decodeAfter skip rest
  | 0, b :: rest =>
    match front b rest with
    | .char c more => .char c :: decodeAfter more rest
    | .flaw _ _ => strayOf b :: decodeAfter 0 rest

/-- The text of any bytes. -/
def decode (bytes : List UInt8) : Text :=
  decodeAfter 0 bytes

/-- The three bytes that a number takes which is neither small nor large. -/
def threeBytes (n : Nat) : List UInt8 :=
  [0xE0 + n / 4096, 0x80 + n / 64 % 64, 0x80 + n % 64].map UInt8.ofNat

/-- The bytes of one glyph.  A surrogate that stands for no byte has the bytes that
    its number takes, though nothing reads them back. -/
def encodeGlyph (g : Glyph) : List UInt8 :=
  match g, g.byte? with
  | .char c, _ => String.utf8EncodeChar c
  | .surrogate _, some b => [b]
  | .surrogate _, none => threeBytes g.code

/-- The bytes of a text. -/
def encode (t : Text) : List UInt8 :=
  t.flatMap encodeGlyph

/-- The first broken sequence of some bytes. -/
structure Fault where
  /-- The bytes of the broken sequence. -/
  bytes : List UInt8
  /-- How many bytes stand before it. -/
  position : Nat
  why : Flaw
  deriving DecidableEq, Repr

/-- A byte as two hexadecimal digits. -/
def hexByte (b : UInt8) : String :=
  String.ofList [Nat.digitChar (b.toNat / 16), Nat.digitChar (b.toNat % 16)]

/-- The wording of a fault: one byte is named, several only by position. -/
def Fault.message (f : Fault) : String :=
  let place :=
    match f.bytes with
    | [b] => "byte 0x" ++ hexByte b ++ " in position " ++ toString f.position
    | bs => "bytes in position " ++ toString f.position ++ "-"
        ++ toString (f.position + bs.length - 1)
  "'utf-8' codec can't decode " ++ place ++ ": " ++ f.why.message

/-- Reads strictly the bytes from `position` on, of which the first `skip` belong
    to a character already read. -/
def decodeStrictAfter : Nat → Nat → List UInt8 → Except Fault Text
  | _, _, [] => .ok []
  | position, skip + 1, _ :: rest => decodeStrictAfter (position + 1) skip rest
  | position, 0, b :: rest =>
    match front b rest with
    | .char c more => (decodeStrictAfter (position + 1) more rest).map (.char c :: ·)
    | .flaw why more => .error ⟨(b :: rest).take (more + 1), position, why⟩

/-- The text of well-formed bytes, or the first fault. -/
def decodeStrict (bytes : List UInt8) : Except Fault Text :=
  decodeStrictAfter 0 0 bytes

/-- Surrogates in a text that no bytes stand for. -/
structure Unwritable where
  /-- The surrogates from the first such on, without a gap. -/
  glyphs : Text
  /-- How many glyphs stand before them. -/
  position : Nat
  deriving DecidableEq, Repr

/-- A surrogate, whether it stands for a byte or not. -/
def isSurrogate (g : Glyph) : Bool :=
  g.char?.isNone

/-- A surrogate that no byte stands for. -/
def isUnwritable (g : Glyph) : Bool :=
  isSurrogate g && g.byte?.isNone

/-- The first place at which a text cannot be written. -/
def unwritable? (t : Text) : Option Unwritable :=
  (t.findIdx? isUnwritable).map fun n => ⟨(t.drop n).takeWhile isSurrogate, n⟩

theorem encode_append (s t : Text) : encode (s ++ t) = encode s ++ encode t := by
  simp [encode]

theorem encode_cons (g : Glyph) (t : Text) : encode (g :: t) = encodeGlyph g ++ encode t := by
  simp [encode]

end SketchMerge.Utf8
