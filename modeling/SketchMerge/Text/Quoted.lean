import SketchMerge.Text.Shown
import SketchMerge.Text.Utf8

/-! # Quoted texts

    Messages quote a text so that it fits on one line and every glyph can be
    told.  The quote is the single one, unless the text holds a single quote and
    no double one.  Backslashes and the chosen quote get a backslash; tab,
    newline and carriage return have short escapes; whatever is not shown is
    given by number in hexadecimal. -/

namespace SketchMerge.Quoted

/-- The single quote. -/
def single : Char := '\x27'

/-- The double quote. -/
def double : Char := '\x22'

/-- The quote to put around a text that has, or has not, quotes in it. -/
def chooseQuote (hasSingle hasDouble : Bool) : Char :=
  if hasSingle && !hasDouble then double else single

/-- The last `width` hexadecimal digits of a number. -/
def hex : Nat → Nat → List Char
  | 0, _ => []
  | width + 1, n => hex width (n / 16) ++ [Nat.digitChar (n % 16)]

/-- A number as a hexadecimal escape of two, four or eight digits. -/
def numberEscape (n : Nat) : List Char :=
  if n < 0x100 then ['\\', 'x'] ++ hex 2 n
  else if n < 0x10000 then ['\\', 'u'] ++ hex 4 n
  else ['\\', 'U'] ++ hex 8 n

/-- One glyph between quotes. -/
def escapeGlyph (quote : Char) (g : Glyph) : Text :=
  if g.is quote || g.is '\\' then [.char '\\', g]
  else if g.is '\t' then ofChars ['\\', 't']
  else if g.is '\n' then ofChars ['\\', 'n']
  else if g.is '\r' then ofChars ['\\', 'r']
  else if g.isShown then [g]
  else ofChars (numberEscape g.code)
where
  ofChars (cs : List Char) : Text := cs.map Glyph.char

/-- The quoted form of a text. -/
def text (t : Text) : Text :=
  let quote := chooseQuote (t.any (·.is single)) (t.any (·.is double))
  .char quote :: t.flatMap (escapeGlyph quote) ++ [.char quote]

/-- One byte between quotes: only ASCII is shown. -/
def escapeByte (quote : Char) (b : UInt8) : List Char :=
  let c := Char.ofNat b.toNat
  if c == quote || c == '\\' then ['\\', c]
  else if c == '\t' then ['\\', 't']
  else if c == '\n' then ['\\', 'n']
  else if c == '\r' then ['\\', 'r']
  else if 0x20 ≤ b && b < 0x7F then [c]
  else ['\\', 'x'] ++ hex 2 b.toNat

/-- The quoted form of bytes, marked by a letter in front. -/
def bytes (bs : List UInt8) : Text :=
  let quote := chooseQuote (bs.contains 0x27) (bs.contains 0x22)
  ([ 'b', quote ] ++ bs.flatMap (escapeByte quote) ++ [quote]).map Glyph.char

/-- The text as a console shows it: surrogates by number, all else as it is. -/
def consoleGlyph (g : Glyph) : List Char :=
  match g with
  | .char c => [c]
  | .surrogate _ => numberEscape g.code

/-- What a console shows of a text. -/
def console (t : Text) : String :=
  String.ofList (t.flatMap consoleGlyph)

/-- The wording for a text that cannot be written: one glyph is named, several only
    by position. -/
def unwritable (u : Utf8.Unwritable) : Text :=
  let place : Text :=
    match u.glyphs with
    | [g] => "character '" ++ (numberEscape g.code).map Glyph.char ++ "' in position "
        ++ Text.ofNat u.position
    | gs => "characters in position " ++ Text.ofNat u.position ++ "-"
        ++ Text.ofNat (u.position + gs.length - 1)
  "'utf-8' codec can't encode " ++ place ++ ": surrogates not allowed"

end SketchMerge.Quoted
