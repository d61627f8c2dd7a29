import SketchMerge.Text.Glyph

/-! # Stages of a run -/

namespace SketchMerge

/-- How far a run has come. -/
inductive Stage where
  | start
  | unified
  | extracted
  | parsed
  | synthesized
  | located
  | composed
  | done
  | failed
  deriving DecidableEq, Repr

/-- The word for a stage. -/
def Stage.word : Stage → Text
  | .start => "start"
  | .unified => "unified"
  | .extracted => "extracted"
  | .parsed => "parsed"
  | .synthesized => "synthesized"
  | .located => "located"
  | .composed => "composed"
  | .done => "done"
  | .failed => "failed"

end SketchMerge
