import SketchMerge.Config.Setting
import SketchMerge.Config.Variant
import SketchMerge.Files.Disk
import SketchMerge.Text.Blank
import SketchMerge.Text.Lines
import SketchMerge.Yaml.Load

/-! # Settings of a project

    A project may have a configuration file in its folder.  It names a variant of
    the pipeline and may change single decisions of it: line markers, line
    correction, the tag tool with its arguments, and the file endings. -/

namespace SketchMerge

/-- The settings of a project.  What is absent is decided by the variant. -/
structure Settings where
  /-- The folder of the configuration file. -/
  root : Path
  /-- The name of the variant. -/
  variant : Text := "default"
  lineMarkers : Option Bool := none
  lineCorrection : Option Bool := none
  /-- The tag tool. -/
  executable : Option Text := none
  /-- The arguments of the tag tool. -/
  arguments : Option (List Text) := none
  /-- The endings of sketch files. -/
  sketchEndings : List Text := [".ino", ".pde"].map Text.ofString
  /-- The endings of files that are copied as they are. -/
  companionEndings : List Text := [".cpp", ".c", ".h", ".S"].map Text.ofString
  deriving DecidableEq, Repr

namespace Settings

/-- The name of the configuration file. -/
def fileName : Text := ".sketchpp.yml"

/-- Why there are no settings. -/
inductive Fault where
  /-- The file of that name is no YAML. -/
  | unparsable (name : Text) (cause : Yaml.Fault)
  | noMapping
  | unknownVariant (name : Text)
  | noSketchEnding
  /-- A scalar of the file has no value, or a value no written form. -/
  | badValue (cause : Yaml.Fault)
  /-- The file is not UTF-8. -/
  | undecodable (cause : Utf8.Fault)
  | file (cause : Files.Fault)
  deriving DecidableEq, Repr

namespace Fault

/-- The wording of a fault. -/
def message : Fault → Text
  | .unparsable name cause => "Failed to parse " ++ name ++ ": " ++ cause.message
  | .noMapping => fileName ++ " must contain a mapping at the root"
  | .unknownVariant name =>
    "Unknown pipeline variant '" ++ name ++ "' (expected one of: "
      ++ Text.joinWith ", " (Variant.all.map Variant.name) ++ ")"
  | .noSketchEnding => "extensions.sketch must list at least one extension"
  | .badValue cause => cause.message
  | .undecodable cause => cause.message
  | .file cause => cause.message

/-- The configuration itself is at fault, not the way it could be read. -/
def isRefusal : Fault → Bool
  | .unparsable .. | .noMapping | .unknownVariant _ | .noSketchEnding => true
  | _ => false

end Fault

-- ── Using settings ──────────────────────────────────────────────────────────

/-- The variant of a run: the one that is asked for, or else the one of the
    settings, with the decisions of the settings. -/
def variantFor (s : Settings) (asked : Option Text) : Except Fault Variant :=
  let name := match asked with
    | some name => if name.isEmpty then s.variant else name
    | none => s.variant
  match Variant.named? name with
  | none => .error (.unknownVariant name)
  | some v =>
    .ok { v with
      lineMarkers := s.lineMarkers.getD v.lineMarkers
      lineCorrection := s.lineCorrection.getD v.lineCorrection
      arguments := s.arguments.getD v.arguments }

/-- A text, unless it is empty. -/
def nonEmpty? : Option Text → Option Text
  | some [] => none
  | t => t

/-- The tag tool that is used if none is named. -/
def standardExecutable : Text := "ctags"

/-- The tag tool of a run: the one that is asked for, or else the one that the
    environment names, or else the one of the settings.  Empty names do not
    count. -/
def toolFor (s : Settings) (asked environment : Option Text) : Text :=
  nonEmpty? asked
    |>.or (nonEmpty? (environment.map Text.trim))
    |>.or (nonEmpty? s.executable)
    |>.getD standardExecutable

-- ── Reading settings ────────────────────────────────────────────────────────

open Yaml

/-- The entries of a value that is a mapping, and no entries otherwise. -/
def entriesOf (d : Document) : Option Ref → List (Ref × Ref)
  | some r =>
    match d.get r with
    | .mapping entries => entries
    | _ => []
  | none => []

/-- Reads a setting if it is given. -/
def ifGiven (d : Document) (entries : List (Ref × Ref)) (key : Text)
    (read : Document → Ref → Except Yaml.Fault α) : Except Fault (Option α) :=
  match d.lookup entries key with
  | some r => ((read d r).map some).mapError .badValue
  | none => .ok none

/-- The settings in the entries of a document. -/
def ofEntries (root : Path) (d : Document) (entries : List (Ref × Ref)) :
    Except Fault Settings := do
  let standard : Settings := { root }
  let variant := (nonEmpty? (← ifGiven d entries "variant" Setting.text?).join).getD
    standard.variant
  if (Variant.named? variant).isNone then .error (.unknownVariant variant)
  let tool := entriesOf d (d.lookup entries "extractor")
  let executable := (← ifGiven d tool "executable" Setting.text?).join
  let arguments ← ifGiven d tool "arguments" Setting.texts
  let endings := entriesOf d (d.lookup entries "extensions")
  let sketchEndings :=
    (← ifGiven d endings "sketch" Setting.endings).getD standard.sketchEndings
  if sketchEndings.isEmpty then .error .noSketchEnding
  let companionEndings :=
    (← ifGiven d endings "companion" Setting.endings).getD standard.companionEndings
  .ok {
    root, variant, executable, arguments, sketchEndings, companionEndings
    lineMarkers := (d.lookup entries "line_markers").bind (Setting.truth? d)
    lineCorrection := (d.lookup entries "line_correction").bind (Setting.truth? d) }

/-- The settings in a document.  A void document has none of its own. -/
def ofDocument (root : Path) (d : Document) : Except Fault Settings :=
  if (d.get d.root).isVoid then .ok { root }
  else
    match d.get d.root with
    | .mapping entries => ofEntries root d entries
    | _ => .error .noMapping

/-- The settings that the text of a file writes. -/
def ofText (root : Path) (file t : Text) : Except Fault Settings :=
  if t.isBlank then .ok { root }
  else
    match Yaml.load (t.filterMap Glyph.char?) with
    | .ok d => ofDocument root d
    | .error .malformed => .error (.unparsable file .malformed)
    | .error cause => .error (.badValue cause)

/-- The path of the configuration file for a path that is given: the file in that
    folder, or beside that file. -/
def filePath (d : Disk) (given : Path) : Except Files.Fault Path := do
  let p ← d.expandHome given
  if ← d.isFolder p then d.resolve (p.child fileName)
  else if p.name != fileName then d.resolve (p.parent.child fileName)
  else d.resolve p

/-- A fault with files is a fault with settings. -/
def ofFiles (r : Except Files.Fault α) : Except Fault α :=
  r.mapError .file

/-- The settings for a path that is given. -/
def load (d : Disk) (given : Path) : Except Fault Settings := do
  let file ← ofFiles (filePath d given)
  let root ← ofFiles (d.resolve file.parent)
  if ← ofFiles (d.isThere file) then
    let bytes ← ofFiles (d.read file)
    let t ← (Utf8.decodeStrict bytes).mapError .undecodable
    ofText root file.name t.unifyNewlines
  else .ok { root }

end Settings

end SketchMerge
