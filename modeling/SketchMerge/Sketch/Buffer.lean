import SketchMerge.Journal.Note
import SketchMerge.Sketch.Source
import SketchMerge.Text.Lines

/-! # The unified buffer

    The sources of a project are joined into one text.  Each may be preceded by a
    marker, a directive that restarts the line numbers for its file.  A segment
    remembers where a source lies in the text, so that a line of the text can be
    traced back.  A buffer takes one insertion and no more; its segments keep
    describing the text as it was joined. -/

namespace SketchMerge

/-- Where one source lies in a unified text. -/
structure Segment where
  name : Text
  /-- The position of its marker, if it has one. -/
  marker : Option Int
  /-- The position of its first glyph. -/
  content : Int
  /-- The number of its first line in the unified text. -/
  firstLine : Int
  /-- The number of its lines. -/
  lineCount : Int
  deriving DecidableEq, Repr

/-- A unified text with its segments. -/
structure Buffer where
  text : Text
  segments : List Segment
  /-- The buffer has taken its insertion. -/
  composed : Bool := false
  deriving DecidableEq, Repr

namespace Buffer

/-- The directive that restarts line numbers for a file. -/
def markerFor (name : Text) : Text :=
  "#line 1 \"" ++ name ++ "\"\n"

/-- The segments of sources that are joined from position `offset` and line
    `line` on. -/
def segmentsFrom (markers : Bool) : Nat → Nat → List Source → List Segment
  | _, _, [] => []
  | offset, line, s :: rest =>
    let content := Text.closeLine s.content
    let start := if markers then offset + (markerFor s.name).length else offset
    let first := if markers then line + 1 else line
    { name := s.name
      marker := if markers then some (offset : Int) else none
      content := start
      firstLine := first
      lineCount := content.newlines }
      :: segmentsFrom markers (start + content.length) (first + content.newlines) rest

/-- One source as it stands in a unified text. -/
def pieceOf (markers : Bool) (s : Source) : Text :=
  (if markers then markerFor s.name else []) ++ Text.closeLine s.content

/-- The sources joined in order. -/
def unify (markers : Bool) (sources : List Source) : Buffer :=
  { text := sources.flatMap (pieceOf markers)
    segments := segmentsFrom markers 0 1 sources }

/-- The notes on joining some sources. -/
def unifyNotes (sources : List Source) : List Note :=
  sources.map fun s =>
    Note.debug "unifier"
      ("Unified " ++ s.name ++ " (" ++ Text.ofNat (Text.closeLine s.content).newlines
        ++ " lines)")

/-- The file and the line in it that a line of the unified text comes from.
    Marker lines come from no file. -/
def origin (b : Buffer) (line : Int) : Option (Text × Int) :=
  (b.segments.find? fun s => s.firstLine ≤ line && line < s.firstLine + s.lineCount).map
    fun s => (s.name, line - s.firstLine + 1)

/-- The first index from `lo` up to `hi` whose entry is not below `x`, by halving
    the range. -/
def bisect (xs : Array Int) (x : Int) (lo hi : Nat) : Nat :=
  if lo < hi then
    let mid := (lo + hi) / 2
    if xs.getD mid 0 < x then bisect xs x (mid + 1) hi else bisect xs x lo mid
  else lo
termination_by hi - lo

/-- The number of markers that start before a position. -/
def markerCount (b : Buffer) (offset : Int) : Nat :=
  let starts := (b.segments.filterMap Segment.marker).toArray
  bisect starts offset 0 starts.size

/-- The segment whose content starts last at or before a position, among those
    before the first that starts after it. -/
def segmentHolding (b : Buffer) (offset : Int) : Option Segment :=
  (b.segments.takeWhile (·.content ≤ offset)).getLast?

/-- Why an insertion is refused. -/
inductive Refusal where
  /-- The buffer has taken its insertion. -/
  | alreadyComposed
  /-- The position lies outside of the text. -/
  | outside (offset : Int) (length : Nat)
  deriving DecidableEq, Repr

/-- The wording of a refusal. -/
def Refusal.message : Refusal → Text
  | .alreadyComposed => "Unified buffer has already been composed"
  | .outside offset length =>
    "Insertion offset " ++ Text.ofInt offset ++ " outside buffer of length "
      ++ Text.ofNat length

/-- The buffer with a block put in at a position. -/
def insert (b : Buffer) (offset : Int) (block : Text) : Except Refusal Buffer :=
  if b.composed then .error .alreadyComposed
  else if 0 ≤ offset && offset ≤ b.text.length then
    .ok { b with
      text := b.text.take offset.toNat ++ block ++ b.text.drop offset.toNat
      composed := true }
  else .error (.outside offset b.text.length)

end Buffer

end SketchMerge
