/-! # Text that may hold undecodable bytes

    Source files, tool output and file names arrive as bytes that are mostly,
    but not always, UTF-8.  A text is a list of glyphs; a glyph is a Unicode
    character or a surrogate.  Surrogates are numbers that no character has, and
    some of them stand for a stray byte that belongs to no well-formed sequence.
    A stray byte keeps its value, so that writing a text gives back the bytes it
    was read from, and it counts as one position like any character.  The other
    surrogates can only be named by escapes, and no bytes stand for them.

    Positions, lengths and the order of texts are all taken on glyphs. -/

namespace SketchMerge

/-- One position of a text. -/
inductive Glyph where
  /-- A Unicode character. -/
  | char (c : Char)
  /-- The surrogate with the number `0xD800 + index`. -/
  | surrogate (index : Fin 2048)
  deriving DecidableEq, Repr, Inhabited

namespace Glyph

/-- The number by which glyphs are compared and shown. -/
def code : Glyph → Nat
  | .char c => c.toNat
  | .surrogate index => 0xD800 + index.val

/-- The byte `0x80 + low`, which is part of no well-formed sequence.  A stray byte
    `0xNN` has the number `0xDCNN`. -/
def stray (low : Fin 128) : Glyph :=
  .surrogate ⟨0x480 + low.val, by omega⟩

/-- The stray byte that a glyph stands for, if it does. -/
def byte? : Glyph → Option UInt8
  | .char _ => none
  | .surrogate index =>
    if 0x480 ≤ index.val && index.val < 0x500 then some (UInt8.ofNat (index.val - 0x400)) else none

/-- The character of a glyph, if it is one. -/
def char? : Glyph → Option Char
  | .char c => some c
  | .surrogate _ => none

/-- The glyph is the character `c`. -/
def is (g : Glyph) (c : Char) : Bool :=
  g == .char c

/-- The glyph is one of the characters of `s`. -/
def isOneOf (g : Glyph) (s : String) : Bool :=
  match g with
  | .char c => s.toList.contains c
  | .surrogate _ => false

/-- The glyph with a given number.  Every number up to the last character has
    one. -/
def ofCode? (n : Nat) : Option Glyph :=
  if h : n.isValidChar then some (.char (Char.ofNatAux n h))
  else if h : 0xD800 ≤ n ∧ n < 0xE000 then some (.surrogate ⟨n - 0xD800, by omega⟩)
  else none

theorem code_char (c : Char) : (Glyph.char c).code = c.toNat := rfl

theorem code_surrogate (index : Fin 2048) :
    (Glyph.surrogate index).code = 0xD800 + index.val := rfl

theorem byte?_stray (low : Fin 128) : (stray low).byte? = some (UInt8.ofNat (0x80 + low.val)) := by
  have : 0x480 + low.val < 0x500 := by omega
  simp [stray, byte?, this, show 0x480 + low.val - 0x400 = 0x80 + low.val by omega]

/-- No two glyphs share a number, so the order by number is a total order. -/
theorem code_injective {a b : Glyph} (h : a.code = b.code) : a = b := by
  have valid (c : Char) : c.toNat < 0xD800 ∨ 0xDFFF < c.toNat ∧ c.toNat < 0x110000 := c.valid
  cases a with
  | char c =>
    cases b with
    | char d => exact congrArg Glyph.char (Char.toNat_inj.1 h)
    | surrogate index =>
      have := valid c
      simp only [code] at h
      omega
  | surrogate index =>
    cases b with
    | char d =>
      have := valid d
      simp only [code] at h
      omega
    | surrogate index' =>
      simp only [code] at h
      exact congrArg Glyph.surrogate (Fin.ext (by omega))

end Glyph

/-- A number lies in one of some ranges. -/
def inRanges (ranges : List (Nat × Nat)) (n : Nat) : Bool :=
  ranges.any fun (first, last) => first ≤ n && n ≤ last

/-- A text is a list of glyphs. -/
abbrev Text := List Glyph

namespace Text

/-- The text of a string of characters. -/
def ofString (s : String) : Text :=
  s.toList.map Glyph.char

instance : Coe String Text where
  coe := ofString

/-- The string of a text that holds no surrogate. -/
def toString? (t : Text) : Option String :=
  (t.mapM Glyph.char?).map String.ofList

/-- The decimal numeral of a natural number. -/
def ofNat (n : Nat) : Text :=
  ofString (toString n)

/-- The decimal numeral of an integer, with a minus sign below zero. -/
def ofInt (n : Int) : Text :=
  ofString (toString n)

/-- Texts are ordered glyph by glyph, by number, and a text comes before its
    extensions. -/
def le : Text → Text → Bool
  | [], _ => true
  | _ :: _, [] => false
  | a :: s, b :: t => a.code < b.code || (a.code == b.code && le s t)

/-- The text starts with `p`. -/
def startsWith (t p : Text) : Bool :=
  p.isPrefixOf t

/-- Texts put together with `sep` between neighbours. -/
def joinWith (sep : Text) (parts : List Text) : Text :=
  (parts.intersperse sep).flatten

/-- The text cut at every glyph that satisfies `p`; the cuts are left out. -/
def splitAtEach (p : Glyph → Bool) : Text → List Text
  | [] => [[]]
  | g :: rest =>
    if p g then [] :: splitAtEach p rest
    else
      match splitAtEach p rest with
      | [] => [[g]]
      | part :: parts => (g :: part) :: parts

/-- The text before the first `sep`, and the text after it. -/
def cutAtFirst (sep : Glyph) (t : Text) : Option (Text × Text) :=
  match t.span (· != sep) with
  | (_, []) => none
  | (before, _ :: after) => some (before, after)

/-- The position of the first occurrence of `p`. -/
def find? (p : Text) : Text → Option Nat
  | [] => if p.isEmpty then some 0 else none
  | g :: rest => if p.isPrefixOf (g :: rest) then some 0 else (find? p rest).map (· + 1)

/-- The text holds `p` somewhere. -/
def holds (t p : Text) : Bool :=
  (find? p t).isSome

/-- The text from position `i` on, up to position `j`. -/
def slice (t : Text) (i j : Nat) : Text :=
  (t.take j).drop i

/-- A number padded with zeros on the left to `width` digits. -/
def padded (width n : Nat) : Text :=
  let digits := (toString n).toList
  (List.replicate (width - digits.length) '0' ++ digits).map Glyph.char

end Text

end SketchMerge
