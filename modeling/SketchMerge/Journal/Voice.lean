import SketchMerge.Text.Glyph

/-! # Voices

    Every part of the program speaks with a voice of its own, known by a dotted
    name.  Voices form a tree: the parent of a voice is the nearest one among its
    shortened names that has been called up before.  A name is shortened by
    cutting it before a dot; right after a cut at a dot, a dot directly before
    it is passed over.  So a name with two dots in a row may lose the head voice
    as its ancestor. -/

namespace SketchMerge.Voice

/-- The head voice. -/
def head : Text := "sketchpp"

/-- The voice of a part of the program. -/
def ofPart (part : Text) : Text :=
  if part.isEmpty then head else head ++ "." ++ part

/-- A rule that decides, from the voices that have been called up, whether what the head
    voice decides is in force for a voice. -/
abbrev Rule := List Text → Text → Bool

/-- The position of the last dot. -/
def lastDot? (t : Text) : Option Nat :=
  match t.reverse.findIdx? (·.is '.') with
  | some k => some (t.length - 1 - k)
  | none => none

/-- The shortened forms of a name, the longest first, found in the first `n` of its
    glyphs. -/
def cutsWithin (name : Text) : Nat → Nat → List Text
  | 0, _ => []
  | fuel + 1, n =>
    match lastDot? (name.take n) with
    | some (i + 1) => name.take (i + 1) :: cutsWithin name fuel i
    | _ => []

/-- The shortened forms of a name, the longest first. -/
def cuts (name : Text) : List Text :=
  cutsWithin name name.length name.length

/-- The parent of a voice, among the voices that have been called up. -/
def parent? (known : List Text) (name : Text) : Option Text :=
  (cuts name).find? known.contains

/-- A voice is the head voice or below it.  Names grow shorter on the way up, so
    `fuel` need only exceed the length of the name. -/
def isUnderHead (known : List Text) : Nat → Text → Bool
  | 0, _ => false
  | fuel + 1, name =>
    name == head ||
      match parent? known name with
      | some p => isUnderHead known fuel p
      | none => false

/-- What the head voice decides is in force for a voice, by the search for parents. -/
def isGoverned : Rule := fun known name =>
  isUnderHead known (name.length + 1) name

end SketchMerge.Voice
