import SketchMerge.Text.Glyph

/-! # Pipeline variants

    There are two ways to run the pipeline.  The default one writes line markers
    and corrects line numbers; the plain one does neither and asks the tag tool
    for more kinds of symbols. -/

namespace SketchMerge

/-- What tells the ways of running the pipeline apart. -/
structure Variant where
  name : Text
  lineMarkers : Bool
  lineCorrection : Bool
  /-- The arguments for the tag tool. -/
  arguments : List Text
  deriving DecidableEq, Repr

namespace Variant

/-- The arguments for the tag tool, given the kinds of symbols to report. -/
def argumentsFor (kinds : String) : List Text :=
  ["--language-force=c++", "-f", "-", "--c++-kinds=" ++ kinds, "--fields=KSTtzn"].map
    Text.ofString

/-- The variant that is used unless another is asked for. -/
def default : Variant :=
  ⟨"default", true, true, argumentsFor "pf"⟩

/-- The variant without line bookkeeping. -/
def plain : Variant :=
  ⟨"plain", false, false, argumentsFor "svpf"⟩

/-- The variants in the order of their names. -/
def all : List Variant := [default, plain]

/-- The variant with the given name. -/
def named? (name : Text) : Option Variant :=
  all.find? (·.name == name)

end Variant

end SketchMerge
