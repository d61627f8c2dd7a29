import SketchMerge.Text.Glyph

/-! # Tag records

    A tag tool reports the symbols of a source file.  A record holds what it said
    of one symbol, and later the forward declaration made from it. -/

namespace SketchMerge.Tag

/-- What kind of symbol a record is about. -/
inductive Kind where
  /-- A function that is declared. -/
  | prototype
  /-- A function that is defined. -/
  | function
  | other
  deriving DecidableEq, Repr

/-- The word for a kind. -/
def Kind.word : Kind → String
  | .prototype => "prototype"
  | .function => "function"
  | .other => "other"

/-- The kind that a word names; unknown words name no kind of interest. -/
def Kind.ofWord (t : Text) : Kind :=
  if t == Text.ofString Kind.prototype.word then .prototype
  else if t == Text.ofString Kind.function.word then .function
  else .other

/-- One symbol as a tag tool reports it. -/
structure Record where
  name : Text
  kind : Kind := .other
  /-- The line of the symbol in the file that the tool read. -/
  line : Option Int := none
  typeRef : Option Text := none
  signature : Option Text := none
  returnType : Option Text := none
  /-- The declarator, cut out of the source line of the symbol. -/
  code : Option Text := none
  /-- The forward declaration, once it is made. -/
  prototype : Option Text := none
  deriving DecidableEq, Repr

end SketchMerge.Tag
