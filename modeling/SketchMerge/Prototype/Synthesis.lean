import SketchMerge.Prototype.Parameters
import SketchMerge.Sketch.Buffer
import SketchMerge.Tag.Record
import SketchMerge.Text.Sort

/-! # Forward declarations

    Every function that is defined and nowhere declared gets a forward
    declaration, made from its return type, name and signature.  A template
    cannot be put together from these, so its declarator is used as it was found.
    The declarations come in the order of their lines. -/

namespace SketchMerge.Prototype

open Tag (Record Kind)

/-- The word that starts a template. -/
def templateWord : Text := "template"

/-- The text is there and starts with the word for a template. -/
def startsTemplate : Option Text → Bool
  | some t => Text.startsWith t templateWord
  | none => false

/-- The record is of a template function. -/
def isTemplate (r : Record) : Bool :=
  startsTemplate r.returnType || startsTemplate r.code

/-- A record that lacks what a declaration is made of. -/
structure Skip where
  name : Text
  /-- The fields that are absent or empty. -/
  missing : List String
  deriving DecidableEq, Repr

/-- The wording of a skip. -/
def Skip.message (s : Skip) : Text :=
  let shown : Text := if s.name.isEmpty then "<unnamed>" else s.name
  shown ++ " lacks " ++ Text.joinWith ", " (s.missing.map Text.ofString)

/-- The fields that a declaration is made of and that the record lacks. -/
def missingFields (r : Record) : List String :=
  (if (r.returnType.getD []).isEmpty then ["returntype"] else [])
    ++ (if r.name.isEmpty then ["name"] else [])
    ++ (if (r.signature.getD []).isEmpty then ["signature"] else [])

/-- The declaration put together from return type, name and signature. -/
def assemble (r : Record) : Except Skip Text :=
  match missingFields r with
  | [] => .ok (r.returnType.getD [] ++ " " ++ r.name ++ r.signature.getD [] ++ ";")
  | missing => .error ⟨r.name, missing⟩

/-- The declaration of a record, default values included. -/
def build (r : Record) : Except Skip Text :=
  match isTemplate r, r.code with
  | true, some code => .ok code
  | _, _ => assemble r

/-- The names that are declared. -/
def declaredNames (records : List Record) : List Text :=
  (records.filter (·.kind == .prototype)).map Record.name

/-- The record calls for a declaration: it is of a function, and its name is not one of
    the declared names. -/
def callsFor (declared : List Text) (r : Record) : Bool :=
  r.kind != .other && !declared.contains r.name

/-- The records that call for a declaration: those of functions that are nowhere
    declared. -/
def candidates (records : List Record) : List Record :=
  records.filter (callsFor (declaredNames records))

/-- The record with its declaration, if one can be made. -/
def declare (r : Record) : Option Record :=
  (build r).toOption.map fun t => { r with prototype := some (Parameters.stripDefaults t) }

/-- What a pass over some records leaves behind.  A declaration is put into the record
    it is made for, so the records are not what they were. -/
structure Pass where
  /-- The records as they are afterwards. -/
  records : List Record
  /-- Those among them that got a declaration. -/
  made : List Record
  deriving DecidableEq, Repr

/-- A pass over records, given the names that are declared. -/
def pass (declared : List Text) : List Record → Pass
  | [] => ⟨[], []⟩
  | r :: rest =>
    let after := pass declared rest
    match if callsFor declared r then declare r else none with
    | some made => ⟨made :: after.records, made :: after.made⟩
    | none => ⟨r :: after.records, after.made⟩

/-- The line by which a record is ordered; one without a line counts as line 0. -/
def sortLine (r : Record) : Int :=
  r.line.getD 0

/-- The records with declarations, in the order of their lines. -/
def synthesize (records : List Record) : List Record :=
  sortBy (fun a b => sortLine a ≤ sortLine b) (pass (declaredNames records) records).made

/-- Where a record is, in the words of a note.  A number that was read from a tag line is not
    too long to be written (`writeInt_located`); one that is put into a record by other means
    is written whatever its length. -/
def place (buffer : Option Buffer) (r : Record) : Text :=
  match r.line with
  | none => "unknown line"
  | some line =>
    match buffer.bind (·.origin line) with
    | some (name, inFile) => name ++ ":" ++ Text.ofInt inFile
    | none => "unified line " ++ Text.ofInt line

/-- The warning about a record that lacks something. -/
def warning? (buffer : Option Buffer) (r : Record) : Option Note :=
  match build r with
  | .ok _ => none
  | .error skip =>
    some (Note.warning "prototypes"
      ("Skipping prototype at " ++ place buffer r ++ ": " ++ skip.message))

/-- The notes on making declarations: a warning for each record that lacks
    something, and a count. -/
def synthesizeNotes (buffer : Option Buffer) (records : List Record) : List Note :=
  (candidates records).filterMap (warning? buffer)
  ++ [Note.debug "prototypes"
      ("Synthesized " ++ Text.ofNat (synthesize records).length ++ " prototype(s); "
        ++ Text.ofNat (declaredNames records).eraseDups.length
        ++ " name(s) already declared")]

/-- The declarations of some records, empty ones left out. -/
def texts (records : List Record) : List Text :=
  (records.filterMap Record.prototype).filter (!·.isEmpty)

end SketchMerge.Prototype
