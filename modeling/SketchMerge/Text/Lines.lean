import SketchMerge.Text.Glyph

/-! # Lines

    Three notions of a line end meet in this program.  Files and tool output are
    read with every carriage return turned into a newline.  Buffers count
    newlines only.  Tool output is then cut at every line end of Unicode. -/

namespace SketchMerge

/-- The newline glyph. -/
def Glyph.newline : Glyph := .char '\n'

/-- The glyphs at which tool output is cut into lines. -/
def Glyph.endsLine (g : Glyph) : Bool :=
  g.isOneOf "\n\r\x0b\x0c\x1c\x1d\x1e\x85\u2028\u2029"

namespace Text

/-- Carriage returns, alone or before a newline, become newlines. -/
def unifyNewlines : Text → Text
  | .char '\r' :: .char '\n' :: rest => Glyph.newline :: unifyNewlines rest
  | .char '\r' :: rest => Glyph.newline :: unifyNewlines rest
  | g :: rest => g :: unifyNewlines rest
  | [] => []

/-- The lines of a text without their ends.  A carriage return with a newline
    after it is one end, and an end at the very end starts no further line. -/
def splitLines : Text → List Text
  | [] => []
  | .char '\r' :: .char '\n' :: rest => [] :: splitLines rest
  | g :: rest =>
    if g.endsLine then [] :: splitLines rest
    else
      match splitLines rest with
      | [] => [[g]]
      | line :: lines => (g :: line) :: lines

/-- The number of newlines. -/
def newlines (t : Text) : Nat :=
  t.count Glyph.newline

/-- Where position `i` falls in a text of the given length: positions below zero
    count from the end, and none falls outside. -/
def clampPosition (length : Nat) (i : Int) : Nat :=
  min (if i < 0 then (i + length).toNat else i.toNat) length

/-- The number of newlines from position `i` up to position `j`. -/
def newlinesBetween (t : Text) (i j : Int) : Nat :=
  (t.slice (clampPosition t.length i) (clampPosition t.length j)).newlines

/-- The text with a newline at its end, unless it is empty or has one. -/
def closeLine (t : Text) : Text :=
  if t.isEmpty || t.getLast? == some Glyph.newline then t else t ++ [Glyph.newline]

end Text

end SketchMerge
