import SketchMerge.Journal.Note
import SketchMerge.Text.Pattern
import SketchMerge.Text.Blank

/-! # Leading trivia

    Forward declarations go in front of the first statement of a sketch, after
    everything that is not code: directives, comments and blanks.  The text is
    tiled from its start by these four kinds of trivia.  At each position the
    longest tile is taken, of equally long ones the first kind in the list; the
    insertion point is where no tile fits any more. -/

namespace SketchMerge

/-- The kinds of trivia. -/
inductive Trivia where
  | directive
  | lineComment
  | blockComment
  | whitespace
  deriving DecidableEq, Repr

namespace Trivia

/-- The name of a kind. -/
def label : Trivia → String
  | .directive => "directive"
  | .lineComment => "line_comment"
  | .blockComment => "block_comment"
  | .whitespace => "whitespace"

/-- The kinds in the order in which they are preferred. -/
def all : List Trivia :=
  [.directive, .lineComment, .blockComment, .whitespace]

open Pattern in
/-- Two slashes and the rest of the line. -/
def lineCommentPattern : Pattern :=
  chain [char '/', char '/', many (except '\n')]

open Pattern in
/-- A slash and a star, up to the next star and slash.  Without an end there is
    no match. -/
def blockCommentPattern : Pattern :=
  chain
    [char '/', char '*', many (except '*'), oneOrMore (char '*'),
      many (chain
        [one fun g => !g.is '/' && !g.is '*', many (except '*'), oneOrMore (char '*')]),
      char '/']

open Pattern in
/-- A number sign after blanks and tabs, and the rest of the line.  A line that
    ends in a backslash goes on, and so does one on which a comment is open. -/
def directivePattern : Pattern :=
  chain
    [many (one fun g => g.is ' ' || g.is '\t'), char '#',
      many (firstOf (chain [char '\\', optional (char '\r'), char '\n'])
        [lineCommentPattern, blockCommentPattern, except '\n'])]

open Pattern in
/-- Blanks. -/
def whitespacePattern : Pattern :=
  oneOrMore (one Glyph.isBlank)

/-- The pattern of a kind. -/
def pattern : Trivia → Pattern
  | .directive => directivePattern
  | .lineComment => lineCommentPattern
  | .blockComment => blockCommentPattern
  | .whitespace => whitespacePattern

/-- Where the tile of a kind ends that starts at a place.  An empty match is no
    tile. -/
def tile? (kind : Trivia) (p : Pattern.Place) : Option Pattern.Place :=
  (kind.pattern.stop? p).filter (p.taken < ·.taken)

/-- The longer of two tiles, the first one if they are equally long. -/
def longer : Option (Trivia × Pattern.Place) → Option (Trivia × Pattern.Place) →
    Option (Trivia × Pattern.Place)
  | some a, some b => if a.2.taken < b.2.taken then some b else some a
  | none, b => b
  | a, none => a

/-- The tile to take at a place, with the place where it ends. -/
def longest? (p : Pattern.Place) : Option (Trivia × Pattern.Place) :=
  (all.map fun kind => (kind.tile? p).map (kind, ·)).foldl longer none

/-- A stretch of trivia in a text, from `start` up to `stop`. -/
structure Span where
  kind : Trivia
  start : Nat
  stop : Nat
  deriving DecidableEq, Repr

/-- The tiles from a place on.  There are at most as many as `fuel`, and a text has
    no more tiles than glyphs. -/
def spansFrom : Nat → Pattern.Place → List Span
  | 0, _ => []
  | fuel + 1, p =>
    match longest? p with
    | none => []
    | some (kind, q) => ⟨kind, p.taken, q.taken⟩ :: spansFrom fuel q

/-- The trivia at the start of a text. -/
def spans (t : Text) : List Span :=
  spansFrom t.length ⟨0, t⟩

/-- The insertion point: the end of the leading trivia. -/
def locate (t : Text) : Nat :=
  match (spans t).getLast? with
  | some last => last.stop
  | none => 0

/-- The note on an insertion point. -/
def locateNote (t : Text) : Note :=
  Note.debug "insertion"
    ("Insertion point at offset " ++ Text.ofNat (locate t) ++ " after "
      ++ Text.ofNat (spans t).length ++ " trivia span(s)")

end Trivia

end SketchMerge
