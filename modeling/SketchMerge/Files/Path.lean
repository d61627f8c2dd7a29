import SketchMerge.Text.Glyph

/-! # Paths

    A path is written with slashes.  Empty parts and single dots drop out when it
    is read, double dots stay.  Two slashes at the start are kept as two; one, or
    more than two, count as one. -/

namespace SketchMerge

/-- Where a path starts. -/
inductive Path.Anchor where
  /-- At the current folder. -/
  | here
  /-- At the root. -/
  | root
  /-- At the root, written with two slashes. -/
  | doubleRoot
  deriving DecidableEq, Repr

/-- A path as it is written, with its parts from the outermost folder inwards. -/
structure Path where
  anchor : Path.Anchor
  parts : List Text
  deriving DecidableEq, Repr

namespace Path

/-- The slash. -/
def slash : Glyph := .char '/'

/-- The part that names the folder itself. -/
def dot : Text := "."

/-- The part that names the folder around. -/
def dotDot : Text := ".."

/-- The parts between slashes that say something. -/
def splitParts (t : Text) : List Text :=
  (Text.splitAtEach (· == slash) t).filter fun p => !p.isEmpty && p != dot

/-- The names to go through when a written path is followed.  Here single dots
    stay, for what is in front of one must be a folder; a slash at the end asks
    for a folder too, and leaves an empty name. -/
def steps (t : Text) : List Text :=
  let names := Text.splitAtEach (· == slash) t
  names.dropLast.filter (!·.isEmpty) ++ names.drop (names.length - 1)

/-- Where a written path starts. -/
def anchorOf : Text → Anchor
  | a :: b :: rest =>
    if a == slash then
      if b == slash && rest.head? != some slash then .doubleRoot else .root
    else .here
  | [a] => if a == slash then .root else .here
  | [] => .here

/-- The path that a text writes. -/
def ofText (t : Text) : Path :=
  ⟨anchorOf t, splitParts t⟩

/-- The written form of the start of a path. -/
def Anchor.text : Anchor → Text
  | .here => []
  | .root => "/"
  | .doubleRoot => "//"

/-- The written form of a path; the current folder is a dot. -/
def text (p : Path) : Text :=
  let t := p.anchor.text ++ Text.joinWith "/" p.parts
  if t.isEmpty then dot else t

/-- The path of the parts below the root. -/
def absolute (parts : List Text) : Path :=
  ⟨.root, parts⟩

/-- The path starts at the root. -/
def isAbsolute (p : Path) : Bool :=
  p.anchor != .here

/-- The path of an entry, seen from the folder `p`. -/
def join (p : Path) (entry : Path) : Path :=
  if entry.isAbsolute then entry else ⟨p.anchor, p.parts ++ entry.parts⟩

/-- The path of the entry that `name` writes, seen from the folder `p`. -/
def child (p : Path) (name : Text) : Path :=
  p.join (ofText name)

/-- The last part, empty if there is none. -/
def name (p : Path) : Text :=
  p.parts.getLast?.getD []

/-- The path without its last part. -/
def parent (p : Path) : Path :=
  ⟨p.anchor, p.parts.dropLast⟩

/-- The path of the folder around.  There is none around the root; double dots stay
    where they cannot be taken away. -/
def up (p : Path) : Path :=
  if p.parts.isEmpty && p.isAbsolute then p
  else if p.parts.isEmpty || p.name == dotDot then ⟨p.anchor, p.parts ++ [dotDot]⟩
  else p.parent

/-- Written paths put together.  One that starts at the root stands for itself. -/
def joinWritten (t rest : Text) : Text :=
  if anchorOf rest != .here then rest
  else if t.getLast? == some slash then t ++ rest
  else t ++ [slash] ++ rest

end Path

namespace FileName

/-- Where the ending of a file name starts: at its last dot, unless that is the
    first or the last glyph of the name. -/
def endingStart? (name : Text) : Option Nat :=
  match name.reverse.findIdx? (·.is '.') with
  | some k => if 0 < k && k + 1 < name.length then some (name.length - 1 - k) else none
  | none => none

/-- The ending of a file name with its dot, empty if there is none. -/
def ending (name : Text) : Text :=
  match endingStart? name with
  | some i => name.drop i
  | none => []

/-- The file name without its ending. -/
def stem (name : Text) : Text :=
  match endingStart? name with
  | some i => name.take i
  | none => name

end FileName

end SketchMerge
