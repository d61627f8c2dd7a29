import SketchMerge.Yaml.Fault

/-! # YAML tokens

    What a YAML stream is made of.  Indentation has become tokens that open and
    close collections, and keys are marked wherever they were recognised.  Where
    a stream can be read no further, a last token says why, so that whoever reads
    the tokens meets the fault only when it comes to it. -/

namespace SketchMerge.Yaml

/-- One token of a stream. -/
inductive Token where
  | streamEnd
  /-- The directive that names the version of YAML. -/
  | version (major : Nat)
  /-- The directive that gives a handle for tags. -/
  | tagHandle (handle stem : Text)
  /-- Any other directive. -/
  | directive
  | documentStart
  | documentEnd
  | blockSequenceStart
  | blockMappingStart
  | blockEnd
  | flowSequenceStart
  | flowSequenceEnd
  | flowMappingStart
  | flowMappingEnd
  | blockEntry
  | flowEntry
  | key
  | value
  | alias (name : Text)
  | anchor (name : Text)
  /-- A tag: its handle, if it has one, and the rest. -/
  | tag (handle : Option Text) (rest : Text)
  | scalar (text : Text) (plain : Bool)
  /-- What comes here cannot be read. -/
  | unreadable (why : Fault)
  deriving DecidableEq, Repr

end SketchMerge.Yaml
