/-! # A place in a YAML stream

    A cursor is the part of a stream that is still to be read, with the line and
    the column where it starts.  The stream holds no carriage returns and no
    nought characters, so a nought can stand for its end. -/

namespace SketchMerge.Yaml

/-- The characters that end a line. -/
def isBreak (c : Char) : Bool :=
  c == '\n' || c == '\x85' || c == '\u2028' || c == '\u2029'

/-- Line ends and the end of the stream. -/
def isBreakOrEnd (c : Char) : Bool :=
  isBreak c || c == '\x00'

/-- What may follow an indicator: a space, a line end or the end of the stream. -/
def isSpaceOrEnd (c : Char) : Bool :=
  c == ' ' || isBreakOrEnd c

/-- As before, or a tab. -/
def isGapOrEnd (c : Char) : Bool :=
  c == '\t' || isSpaceOrEnd c

/-- The characters of names: letters and digits of ASCII, hyphen, underscore. -/
def isNameChar (c : Char) : Bool :=
  c.isAlphanum || c == '-' || c == '_'

/-- The byte order mark, which takes up no column. -/
def byteOrderMark : Char := '\ufeff'

/-- A place in a stream. -/
structure Cursor where
  rest : List Char
  /-- How many characters are still to be read. -/
  left : Nat
  line : Nat := 0
  column : Nat := 0

namespace Cursor

/-- The start of a stream. -/
def start (stream : List Char) : Cursor :=
  { rest := stream, left := stream.length }

/-- The character `n` places further on, or nought beyond the end. -/
def peekAt (c : Cursor) (n : Nat) : Char :=
  c.rest.getD n '\x00'

/-- The next character, or nought at the end. -/
def peek (c : Cursor) : Char :=
  c.rest.headD '\x00'

/-- One character further on. -/
def next (c : Cursor) : Cursor :=
  match c.rest with
  | [] => c
  | ch :: rest =>
    if isBreak ch then ⟨rest, c.left - 1, c.line + 1, 0⟩
    else ⟨rest, c.left - 1, c.line, if ch == byteOrderMark then c.column else c.column + 1⟩

/-- Some characters further on. -/
def advance : Nat → Cursor → Cursor
  | 0, c => c
  | n + 1, c => advance n c.next

/-- The longest run of characters that satisfy `p`, and the place after it. -/
def span (p : Char → Bool) (c : Cursor) : List Char × Cursor :=
  let run := c.rest.takeWhile p
  (run, c.advance run.length)

/-- The place after the longest run of characters that satisfy `p`. -/
def skip (p : Char → Bool) (c : Cursor) : Cursor :=
  (c.span p).2

/-- A line end: how it is read, and the place after it.  The two separators of
    Unicode stand for themselves, all other line ends for a newline. -/
def lineBreak? (c : Cursor) : Option (Char × Cursor) :=
  let ch := c.peek
  if !isBreak ch then none
  else if ch == '\u2028' || ch == '\u2029' then some (ch, c.next)
  else some ('\n', c.next)

/-- Three hyphens or three dots stand here by themselves. -/
def atSeparator (c : Cursor) : Bool :=
  let three := c.rest.take 3
  (three == ['-', '-', '-'] || three == ['.', '.', '.']) && isGapOrEnd (c.peekAt 3)

end Cursor

end SketchMerge.Yaml
