import SketchMerge.Yaml.Cursor
import SketchMerge.Yaml.Fault

/-! # Scalars of a YAML stream

    Plain, quoted and block scalars, read from a place in a stream.  Line ends
    inside a scalar are folded by the rules of each style. -/

namespace SketchMerge.Yaml.Scalar

/-- Characters as text. -/
def ofChars (cs : List Char) : Text :=
  cs.map Glyph.char

-- ── Plain scalars ───────────────────────────────────────────────────────────

/-- The characters that end a plain scalar inside brackets. -/
def isFlowIndicator (c : Char) : Bool :=
  c == ',' || c == '[' || c == ']' || c == '\x7b' || c == '\x7d'

/-- The characters of a plain scalar up to a gap, a colon that ends a key, or,
    inside brackets, an indicator. -/
def plainRun (inFlow : Bool) : List Char → List Char
  | [] => []
  | c :: rest =>
    let after := rest.headD '\x00'
    if isGapOrEnd c
        || (c == ':' && (isGapOrEnd after || (inFlow && isFlowIndicator after)))
        || (inFlow && (isFlowIndicator c || c == '?'))
    then [] else c :: plainRun inFlow rest

/-- Spaces and line ends, with the line ends collected, and the place after them;
    no line ends if a document separator turns up at the start of a line.
    `breaks` are those before, the last one first. -/
def collectBreaks : Nat → Cursor → List Char → Option (List Char) × Cursor
  | 0, c, breaks => (some breaks.reverse, c)
  | fuel + 1, c, breaks =>
    if c.peek == ' ' then collectBreaks fuel c.next breaks
    else
      match c.lineBreak? with
      | none => (some breaks.reverse, c)
      | some (b, after) =>
        if after.atSeparator then (none, after) else collectBreaks fuel after (b :: breaks)

/-- What a line end and the line ends after it are folded to. -/
def fold (first : Char) (others : List Char) : List Char :=
  if first != '\n' then first :: others
  else if others.isEmpty then [' ']
  else others

/-- What stands between two runs of a plain scalar. -/
structure Gap where
  /-- How the gap is read; nothing when the scalar cannot go on. -/
  chars : List Char
  after : Cursor
  /-- The gap goes over a line end. -/
  overLines : Bool

/-- The gap after a run of a plain scalar. -/
def plainGap (c : Cursor) : Gap :=
  let (spaces, c) := c.span (· == ' ')
  match c.lineBreak? with
  | none => ⟨spaces, c, false⟩
  | some (b, after) =>
    if after.atSeparator then ⟨[], after, true⟩
    else
      match collectBreaks after.left after [] with
      | (some others, after) => ⟨fold b others, after, true⟩
      | (none, after) => ⟨[], after, true⟩

/-- A plain scalar: its characters, the place after it, and whether a key may
    follow because a line has ended. -/
structure Plain where
  chars : List Char
  after : Cursor
  keyAllowed : Bool

/-- Reads a plain scalar that has been read up to a gap.  `before` are its runs and
    gaps so far, the last one first, without that gap. -/
def plainFrom (inFlow : Bool) (indent : Int) :
    Nat → Cursor → List (List Char) → List Char → Bool → Plain
  | 0, c, before, _, keyAllowed => ⟨before.reverse.flatten, c, keyAllowed⟩
  | fuel + 1, c, before, gap, keyAllowed =>
    let run := if c.peek == '#' then [] else plainRun inFlow c.rest
    if run.isEmpty then ⟨before.reverse.flatten, c, keyAllowed⟩
    else
      let before := run :: gap :: before
      let g := plainGap (c.advance run.length)
      if g.chars.isEmpty || g.after.peek == '#'
          || (!inFlow && (g.after.column : Int) < indent) then
        ⟨before.reverse.flatten, g.after, g.overLines⟩
      else plainFrom inFlow indent fuel g.after before g.chars g.overLines

/-- The plain scalar at a place; its lines have to be indented by `indent`. -/
def plain (inFlow : Bool) (indent : Int) (c : Cursor) : Plain :=
  plainFrom inFlow indent (c.left + 1) c [] [] false

-- ── Quoted scalars ──────────────────────────────────────────────────────────

/-- The characters that stand for another one after a backslash. -/
def shortEscape? : Char → Option Char
  | '0' => some '\x00'
  | 'a' => some '\x07'
  | 'b' => some '\x08'
  | 't' => some '\t'
  | '\t' => some '\t'
  | 'n' => some '\n'
  | 'v' => some '\x0b'
  | 'f' => some '\x0c'
  | 'r' => some '\r'
  | 'e' => some '\x1b'
  | ' ' => some ' '
  | '\x22' => some '\x22'
  | '\\' => some '\\'
  | '/' => some '/'
  | 'N' => some '\x85'
  | '_' => some '\xa0'
  | 'L' => some '\u2028'
  | 'P' => some '\u2029'
  | _ => none

/-- How many hexadecimal digits follow the letter of a numeric escape. -/
def escapeWidth? : Char → Option Nat
  | 'x' => some 2
  | 'u' => some 4
  | 'U' => some 8
  | _ => none

/-- The value of a hexadecimal digit. -/
def hexDigit? (c : Char) : Option Nat :=
  if '0' ≤ c && c ≤ '9' then some (c.toNat - 48)
  else if 'a' ≤ c && c ≤ 'f' then some (c.toNat - 87)
  else if 'A' ≤ c && c ≤ 'F' then some (c.toNat - 55)
  else none

/-- The number of `width` hexadecimal digits. -/
def hexNumber? (width : Nat) (cs : List Char) : Option Nat :=
  let digits := (cs.take width).filterMap hexDigit?
  if digits.length == width then some (digits.foldl (fun n d => n * 16 + d) 0) else none

/-- The glyph that a numeric escape names. -/
def glyphOfEscape (n : Nat) : Except Fault Glyph :=
  if Nat.pow 2 31 ≤ n then .error .escapeOverflow
  else if 0x110000 ≤ n then .error .escapeTooLarge
  else
    match Glyph.ofCode? n with
    | some g => .ok g
    | none => .error .malformed

/-- Line ends and the blanks before lines, with the line ends collected.  A
    document separator must not stand inside quotes.  `breaks` are the line ends
    before, the last one first. -/
def quotedBreaks : Nat → Cursor → List Char → Except Fault (List Char × Cursor)
  | 0, c, breaks => .ok (breaks.reverse, c)
  | fuel + 1, c, breaks =>
    if c.atSeparator then .error .malformed
    else
      let c := c.skip fun ch => ch == ' ' || ch == '\t'
      match c.lineBreak? with
      | none => .ok (breaks.reverse, c)
      | some (b, after) => quotedBreaks fuel after (b :: breaks)

/-- The characters that stand for themselves in both styles of quotes. -/
def isOrdinary (c : Char) : Bool :=
  !(c == '\x27' || c == '\x22' || c == '\\' || isGapOrEnd c)

/-- One backslash escape, from after the backslash. -/
def escape (c : Cursor) : Except Fault (Text × Cursor) :=
  let ch := c.peek
  match shortEscape? ch, escapeWidth? ch with
  | some r, _ => .ok ([.char r], c.next)
  | none, some width =>
    match hexNumber? width c.next.rest with
    | none => .error .malformed
    | some n => do
      let g ← glyphOfEscape n
      .ok ([g], c.next.advance width)
  | none, none =>
    match c.lineBreak? with
    | none => .error .malformed
    | some (_, after) => do
      let (breaks, after) ← quotedBreaks (after.left + 1) after []
      .ok (ofChars breaks, after)

/-- Reads a quoted scalar up to its closing quote.  `before` are its pieces so far,
    the last one first. -/
def quotedFrom (double : Bool) : Nat → Cursor → List Text → Except Fault (Text × Cursor)
  | 0, _, _ => .error .malformed
  | fuel + 1, c, before =>
    let (run, c) := c.span isOrdinary
    let before := ofChars run :: before
    let ch := c.peek
    if !double && ch == '\x27' && c.peekAt 1 == '\x27' then
      quotedFrom double fuel c.next.next ([.char ch] :: before)
    else if (double && ch == '\x27') || (!double && (ch == '\x22' || ch == '\\')) then
      quotedFrom double fuel c.next ([.char ch] :: before)
    else if double && ch == '\\' then do
      let (piece, c) ← escape c.next
      quotedFrom double fuel c (piece :: before)
    else if ch == '\x27' || ch == '\x22' then .ok (before.reverse.flatten, c.next)
    else
      let (blanks, c) := c.span fun ch => ch == ' ' || ch == '\t'
      match c.lineBreak? with
      | some (b, after) => do
        let (others, after) ← quotedBreaks (after.left + 1) after []
        quotedFrom double fuel after (ofChars (fold b others) :: before)
      | none =>
        if c.peek == '\x00' then .error .malformed
        else quotedFrom double fuel c (ofChars blanks :: before)

/-- The quoted scalar at a place, from its opening quote on. -/
def quoted (c : Cursor) : Except Fault (Text × Cursor) :=
  quotedFrom (c.peek == '\x22') (c.left + 1) c.next []

-- ── Block scalars ───────────────────────────────────────────────────────────

/-- What becomes of the line ends at the end of a block scalar. -/
inductive Chomping where
  | strip
  | clip
  | keep
  deriving DecidableEq, Repr

/-- The sign for chomping. -/
def chomping? (c : Char) : Option Chomping :=
  if c == '+' then some .keep else if c == '-' then some .strip else none

/-- The digit for indentation, which is not nought. -/
def increment (c : Char) : Except Fault (Option Nat) :=
  if c.isDigit then if c == '0' then .error .malformed else .ok (some (c.toNat - 48))
  else .ok none

/-- The header of a block scalar: sign and digit in either order. -/
def header (c : Cursor) : Except Fault (Chomping × Option Nat × Cursor) := do
  match chomping? c.peek with
  | some chomping =>
    match ← increment c.next.peek with
    | some n => .ok (chomping, some n, c.next.next)
    | none => .ok (chomping, none, c.next)
  | none =>
    match ← increment c.peek with
    | some n =>
      match chomping? c.next.peek with
      | some chomping => .ok (chomping, some n, c.next.next)
      | none => .ok (.clip, some n, c.next)
    | none => .ok (.clip, none, c)

/-- The place after spaces, a comment and the line end; anything else is wrong. -/
def ignoredLine (c : Cursor) : Except Fault Cursor :=
  let c := c.skip (· == ' ')
  let c := if c.peek == '#' then c.skip (!isBreakOrEnd ·) else c
  match c.lineBreak? with
  | some (_, after) => .ok after
  | none => if c.peek == '\x00' then .ok c else .error .malformed

/-- Leading blank lines of a block scalar, and the largest indentation there.
    `breaks` are the line ends before, the last one first. -/
def leadingBreaks : Nat → Cursor → List Char → Nat → List Char × Nat × Cursor
  | 0, c, breaks, widest => (breaks.reverse, widest, c)
  | fuel + 1, c, breaks, widest =>
    if c.peek == ' ' then leadingBreaks fuel c.next breaks (max widest c.next.column)
    else
      match c.lineBreak? with
      | some (b, after) => leadingBreaks fuel after (b :: breaks) widest
      | none => (breaks.reverse, widest, c)

/-- The place after at most as many spaces as lead to the column `indent`. -/
def skipIndent (indent : Nat) (c : Cursor) : Cursor :=
  c.advance (min (indent - c.column) (c.rest.takeWhile (· == ' ')).length)

/-- Blank lines of a block scalar, and the place at which the next line starts.
    `breaks` are the line ends before, the last one first. -/
def blankLines (indent : Nat) : Nat → Cursor → List Char → List Char × Cursor
  | 0, c, breaks => (breaks.reverse, c)
  | fuel + 1, c, breaks =>
    let c := skipIndent indent c
    match c.lineBreak? with
    | some (b, after) => blankLines indent fuel after (b :: breaks)
    | none => (breaks.reverse, c)

/-- The lines of a block scalar from the place of its next line on.  `before` are
    its pieces so far, the last one first, with the blank lines before that line. -/
def blockLines (folded : Bool) (indent : Nat) (chomping : Chomping) :
    Nat → Cursor → List (List Char) → List Char × Cursor
  | 0, c, before => (before.reverse.flatten, c)
  | fuel + 1, c, before =>
    let leading := !(c.peek == ' ' || c.peek == '\t')
    let (run, c) := c.span (!isBreakOrEnd ·)
    let before := run :: before
    let (ending, c) :=
      match c.lineBreak? with
      | some (b, after) => ([b], after)
      | none => ([], c)
    let (later, c) := blankLines indent (c.left + 1) c []
    if c.column == indent && c.peek != '\x00' then
      let joint :=
        if folded && ending == ['\n'] && leading && !(c.peek == ' ' || c.peek == '\t') then
          if later.isEmpty then [' '] else []
        else ending
      blockLines folded indent chomping fuel c (later :: joint :: before)
    else ((chomp chomping ending later :: before).reverse.flatten, c)
where
  /-- What is left of the last line end and the blank lines after it. -/
  chomp (chomping : Chomping) (ending later : List Char) : List Char :=
    match chomping with
    | .strip => []
    | .clip => ending
    | .keep => ending ++ later

/-- The block scalar at a place, from its indicator on, inside a block that is
    indented by `outer`. -/
def block (outer : Int) (c : Cursor) : Except Fault (Text × Cursor) := do
  let folded := c.peek == '>'
  let (chomping, increment, c) ← header c.next
  if !isSpaceOrEnd c.peek then .error .malformed
  let c ← ignoredLine c
  let least := (max (outer + 1) 1).toNat
  let (indent, breaks, c) :=
    match increment with
    | none =>
      let (breaks, widest, c) := leadingBreaks (c.left + 1) c [] 0
      (max least widest, breaks, c)
    | some n =>
      let indent := least + n - 1
      let (breaks, c) := blankLines indent (c.left + 1) c []
      (indent, breaks, c)
  if c.column == indent && c.peek != '\x00' then
    let (chars, c) := blockLines folded indent chomping (c.left + 1) c [breaks]
    .ok (ofChars chars, c)
  else
    .ok (ofChars (if chomping == .keep then breaks else []), c)

end SketchMerge.Yaml.Scalar
