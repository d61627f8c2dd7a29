import SketchMerge.Sketch.Buffer

/-! # Composing the sketch

    The forward declarations go into the buffer as one block.  The block may end
    in a directive that gives the line after it the number it had before, so that
    diagnostics still point to the right place. -/

namespace SketchMerge.Buffer

/-- The number of the line at a position as the sketch counts it.  Where markers
    restart the count it is taken from the start of the segment, and elsewhere
    marker lines are not counted. -/
def lineNumberAt (b : Buffer) (offset : Int) : Int :=
  let fromStart : Int := b.text.newlinesBetween 0 offset - b.markerCount offset + 1
  match b.segmentHolding offset with
  | some s =>
    if s.marker.isSome then (b.text.newlinesBetween s.content offset : Int) + 1 else fromStart
  | none => fromStart

/-- The directive that numbers the next line. -/
def correctionFor (line : Int) : Text :=
  "#line " ++ Text.ofInt line ++ "\n"

/-- The declarations as lines, with the correction of line numbers if wanted.
    Without declarations there is no block. -/
def block (b : Buffer) (correction : Bool) (offset : Int) (prototypes : List Text) : Text :=
  if prototypes.isEmpty then []
  else
    Text.joinWith "\n" prototypes ++ "\n"
      ++ (if correction then correctionFor (b.lineNumberAt offset) else [])

/-- The buffer with the block of the declarations put in.  Without declarations
    it stays as it is and can still take its insertion. -/
def compose (b : Buffer) (correction : Bool) (offset : Int) (prototypes : List Text) :
    Except Refusal Buffer :=
  let text := b.block correction offset prototypes
  if text.isEmpty then .ok b else b.insert offset text

/-- The note on a composition that went well. -/
def composeNote (offset : Int) (prototypes : List Text) : Note :=
  Note.debug "composer"
    (if prototypes.isEmpty then "No prototypes to insert"
    else "Inserted " ++ Text.ofNat prototypes.length ++ " prototype(s) at offset "
      ++ Text.ofInt offset)

end SketchMerge.Buffer
