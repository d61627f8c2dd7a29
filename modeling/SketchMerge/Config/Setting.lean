import SketchMerge.Yaml.Document

/-! # Reading single settings

    How a value of the configuration file is taken as a text, a truth value, a
    list of texts or a list of file endings.  A value of another kind counts as
    not given. -/

namespace SketchMerge.Setting

open Yaml

/-- The value as one text.  Numbers have a text, truth values have none. -/
def text? (d : Document) (r : Ref) : Except Fault (Option Text) :=
  match d.get r with
  | .text _ | .integer _ | .float _ | .noNumber => (d.text r).map some
  | _ => .ok none

/-- The words for true. -/
def trueWords : List Text := ["true", "yes", "1", "on"].map Text.ofString

/-- The words for false. -/
def falseWords : List Text := ["false", "no", "0", "off"].map Text.ofString

/-- The truth value that a word names, whatever the case of its letters and the
    blanks around it. -/
def truthOfWord? (t : Text) : Option Bool :=
  let word := t.trim.lower
  if trueWords.contains word then some true
  else if falseWords.contains word then some false
  else none

/-- The value as a truth value.  Numbers are none. -/
def truth? (d : Document) (r : Ref) : Option Bool :=
  match d.get r with
  | .truth b => some b
  | .text t => truthOfWord? t
  | _ => none

/-- The value as a list of texts: the words of a text, or the items of a list
    that are not null. -/
def texts (d : Document) (r : Ref) : Except Fault (List Text) :=
  match d.get r with
  | .text t => .ok t.words
  | .list items => (items.filter fun i => d.get i != .null).mapM d.text
  | .pairs items => d.pairTexts r items
  | _ => .ok []

/-- A file ending with its dot. -/
def withDot (t : Text) : Text :=
  if t.head? == some (.char '.') then t else .char '.' :: t

/-- Texts as file endings: trimmed, with a dot in front; empty ones drop out. -/
def endingsOf (ts : List Text) : List Text :=
  ((ts.map Text.trim).filter (!·.isEmpty)).map withDot

/-- The value as a list of file endings. -/
def endings (d : Document) (r : Ref) : Except Fault (List Text) :=
  (texts d r).map endingsOf

end SketchMerge.Setting
