import SketchMerge.Journal.Note
import SketchMerge.Number.Numeral
import SketchMerge.Tag.Record

/-! # Tag lines

    A tag line has columns between tabs: the name of the symbol, the file, the
    source line as a search pattern `/^…$/;"` in which slashes and backslashes
    are escaped, and then fields `key:value`.  Only the name must be there.  A
    field that comes twice counts by its last value. -/

namespace SketchMerge.Tag

/-- What opens a search pattern. -/
def patternStart : Text := "/^"

/-- What closes a search pattern. -/
def patternEnd : Text := "/;"

/-- Every `x` followed by `y` becomes one `z`, from the left. -/
def replacePair (x y z : Glyph) : Text → Text
  | a :: b :: rest =>
    if a == x && b == y then z :: replacePair x y z rest
    else a :: replacePair x y z (b :: rest)
  | t => t

/-- Takes the escapes out of a search pattern, those of slashes first. -/
def unescape (t : Text) : Text :=
  replacePair (.char '\\') (.char '\\') (.char '\\')
    (replacePair (.char '\\') (.char '/') (.char '/') t)

/-- The declarator in the text after the start of a pattern: up to the first
    opening brace, or else up to the last closing parenthesis. -/
def declaratorIn (t : Text) : Option Text :=
  if t.any (·.is '\x7b') then some (t.takeWhile (!·.is '\x7b'))
  else if t.any (·.is ')') then some (t.reverse.dropWhile (!·.is ')')).reverse
  else none

/-- The declarator in a pattern column. -/
def declarator (column : Text) : Option Text :=
  match Text.find? patternStart column with
  | some i => (declaratorIn (column.drop (i + 2))).map fun t => Text.trim (unescape t)
  | none => none

/-- The record with the value of one field; unknown fields change nothing. -/
def Record.withField (r : Record) (field value : Text) : Record :=
  if field == Text.ofString "kind" then { r with kind := Kind.ofWord value }
  else if field == Text.ofString "line" then { r with line := (Numeral.readInt 10 value).toOption }
  else if field == Text.ofString "typeref" then { r with typeRef := some value }
  else if field == Text.ofString "signature" then { r with signature := some value }
  else if field == Text.ofString "returntype" then { r with returnType := some value }
  else r

/-- The record after one more column: a pattern gives the declarator, anything
    else with a colon is a field. -/
def Record.withColumn (r : Record) (column : Text) : Record :=
  if Text.holds column patternStart && Text.holds column patternEnd then
    match declarator column with
    | some code => { r with code := some code }
    | none => r
  else
    match Text.cutAtFirst (.char ':') column with
    | some (field, value) => r.withField field (Text.trim value)
    | none => r

/-- The columns of a line, without the line end. -/
def columnsOf (line : Text) : List Text :=
  Text.splitAtEach (·.is '\t')
    (line.reverse.dropWhile fun g => g.is '\r' || g.is '\n').reverse

/-- A line without the name of a symbol. -/
structure MissingName where
  line : Text
  deriving DecidableEq, Repr

/-- The wording of the fault. -/
def MissingName.message (fault : MissingName) : Text :=
  "missing symbol name in " ++ Quoted.text fault.line

/-- The record of one tag line. -/
def readLine (line : Text) : Except MissingName Record :=
  match columnsOf line with
  | [] => .error ⟨line⟩
  | first :: columns =>
    let name := Text.trim first
    if name.isEmpty then .error ⟨line⟩
    else .ok (columns.foldl Record.withColumn { name })

/-- The records of the lines that have a name. -/
def readLines (lines : List Text) : List Record :=
  (lines.filter (!Text.isBlank ·)).filterMap fun line => (readLine line).toOption

/-- The notes on the lines from number `n` on: each line without a name, blank
    ones apart, is reported. -/
def skippedNotes : Nat → List Text → List Note
  | _, [] => []
  | n, line :: rest =>
    let later := skippedNotes (n + 1) rest
    if Text.isBlank line then later
    else
      match readLine line with
      | .ok _ => later
      | .error fault =>
        Note.debug "tags.parser" ("Skipping tag line " ++ Text.ofNat n ++ ": " ++ fault.message)
          :: later

/-- The notes on reading some tag lines. -/
def readNotes (lines : List Text) : List Note :=
  skippedNotes 1 lines ++
    [Note.debug "tags.parser"
      ("Parsed " ++ Text.ofNat (readLines lines).length ++ " tag record(s)")]

end SketchMerge.Tag
