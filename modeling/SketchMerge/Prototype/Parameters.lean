import SketchMerge.Text.Blank

/-! # Parameter lists

    The parameters of a function are the text between its first opening
    parenthesis and the closing one that matches it.  They are cut at the commas
    outside of all brackets.  A forward declaration must not repeat default
    values, so each parameter is cut before its first equals sign. -/

namespace SketchMerge.Parameters

/-- How far away the parenthesis is that closes the `depth` open ones. -/
def closing? : Nat → Text → Option Nat
  | _, [] => none
  | depth, g :: rest =>
    if g.is '(' then (closing? (depth + 1) rest).map (· + 1)
    else if g.is ')' then
      if depth ≤ 1 then some 0 else (closing? (depth - 1) rest).map (· + 1)
    else (closing? depth rest).map (· + 1)

/-- Where the parameters of a declaration start and end. -/
def span? (t : Text) : Option (Nat × Nat) :=
  match t.findIdx? (·.is '(') with
  | none => none
  | some i => (closing? 1 (t.drop (i + 1))).map fun length => (i + 1, i + 1 + length)

/-- The brackets that open. -/
def isOpener (g : Glyph) : Bool :=
  g.is '(' || g.is '[' || g.is '\x7b'

/-- The brackets that close. -/
def isCloser (g : Glyph) : Bool :=
  g.is ')' || g.is ']' || g.is '\x7d'

/-- How far one glyph leads into brackets. -/
def depthChange (g : Glyph) : Int :=
  if isOpener g then 1 else if isCloser g then -1 else 0

/-- The parts with one more glyph in front of the first. -/
def consFirst (g : Glyph) : List Text → List Text
  | [] => [[g]]
  | part :: parts => (g :: part) :: parts

/-- Cuts at the commas where as many brackets are closed as opened, when `depth`
    more were opened before. -/
def splitFrom : Int → Text → List Text
  | _, [] => [[]]
  | depth, g :: rest =>
    if g.is ',' && depth == 0 then [] :: splitFrom depth rest
    else consFirst g (splitFrom (depth + depthChange g) rest)

/-- The parameters of a parameter list. -/
def split (t : Text) : List Text :=
  splitFrom 0 t

/-- One parameter without its default value. -/
def withoutDefault (parameter : Text) : Text :=
  Text.trim (parameter.takeWhile (!·.is '='))

/-- The declaration without default values.  One that has none stays as it is. -/
def stripDefaults (t : Text) : Text :=
  match span? t with
  | none => t
  | some (i, j) =>
    let inner := t.slice i j
    if inner.any (·.is '=') then
      t.take i ++ Text.joinWith ", " ((split inner).map withoutDefault) ++ t.drop j
    else t

end SketchMerge.Parameters
