import SketchMerge.Text.Glyph

/-! # Patterns

    Regular expressions over glyphs, matched at the start of a text.  A match is
    searched for in order of preference: the left branch of a choice before the
    right one, and one more round of a repetition before its end.  The first way
    that lets the whole pattern succeed decides how much is matched. -/

namespace SketchMerge

/-- A regular expression in which choices are ordered and repetitions greedy. -/
inductive Pattern where
  | empty
  /-- One glyph of a class. -/
  | one (accepts : Glyph → Bool)
  | seq (p q : Pattern)
  /-- `p`, or else `q`. -/
  | choice (p q : Pattern)
  /-- `p` as often as possible. -/
  | many (p : Pattern)

namespace Pattern

/-- The given glyph. -/
def char (c : Char) : Pattern :=
  .one (·.is c)

/-- Any glyph but the given one. -/
def except (c : Char) : Pattern :=
  .one (!·.is c)

/-- One of the characters of a string. -/
def oneOf (s : String) : Pattern :=
  .one (·.isOneOf s)

/-- One of the ten digits. -/
def digit : Pattern :=
  oneOf "0123456789"

/-- `p` at least once. -/
def oneOrMore (p : Pattern) : Pattern :=
  .seq p (.many p)

/-- `p` or nothing. -/
def optional (p : Pattern) : Pattern :=
  .choice p .empty

/-- Patterns one after the other. -/
def chain : List Pattern → Pattern
  | [] => .empty
  | [p] => p
  | p :: ps => .seq p (chain ps)

/-- The first of some patterns that leads to a match. -/
def firstOf (p : Pattern) : List Pattern → Pattern
  | [] => p
  | q :: qs => .choice p (firstOf q qs)

/-- The characters of a string one after the other. -/
def word (s : String) : Pattern :=
  chain (s.toList.map char)

/-- The first of some words that leads to a match. -/
def words : List String → Pattern
  | [] => .one fun _ => false
  | s :: rest => firstOf (word s) (rest.map word)

/-- A place in a text: how many glyphs lie before it, and those after it. -/
structure Place where
  taken : Nat
  left : Text

/-- How the rest of a match goes on: it leads from one place to the place where the
    match ends, or fails. -/
abbrev Continuation := Place → Option Place

/-- At most as many rounds of `round` as `bound` has glyphs, as many as lead to a
    match, and then `next`. -/
def rounds (round : Continuation → Continuation) (bound : Text) (next : Continuation) :
    Continuation :=
  match bound with
  | [] => next
  | _ :: bound => fun p =>
    match round (rounds round bound next) p with
    | some stop => some stop
    | none => next p

/-- Matches the pattern from a place on and goes on with `next`.  No text allows
    more rounds of a repetition than it has glyphs. -/
def run : Pattern → Continuation → Continuation
  | .empty, next => next
  | .one accepts, next => fun p =>
    match p.left with
    | [] => none
    | g :: rest => if accepts g then next ⟨p.taken + 1, rest⟩ else none
  | .seq q r, next => q.run (r.run next)
  | .choice q r, next => fun p =>
    match q.run next p with
    | some stop => some stop
    | none => r.run next p
  | .many q, next => fun p => rounds q.run p.left next p

/-- The place where the match from a place on ends. -/
def stop? (q : Pattern) (p : Place) : Option Place :=
  q.run some p

/-- The pattern matches a whole text, or all of it but a newline at its end. -/
def matchesAll (q : Pattern) (t : Text) : Bool :=
  let atEnd (p : Place) : Option Place :=
    if p.left.isEmpty || p.left == [.char '\n'] then some p else none
  (q.run atEnd ⟨0, t⟩).isSome

end Pattern

end SketchMerge
