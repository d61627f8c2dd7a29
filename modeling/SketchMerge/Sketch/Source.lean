import SketchMerge.Files.Path
import SketchMerge.Text.Sort

/-! # Sketch sources

    The sketch files of a project in the order in which they are joined: those
    that are named after the project first, then the others, and among each the
    names in ascending order. -/

namespace SketchMerge

/-- One sketch file. -/
structure Source where
  name : Text
  content : Text
  deriving DecidableEq, Repr

namespace Source

/-- The name of the file without folders and without its ending. -/
def stem (s : Source) : Text :=
  FileName.stem (Path.ofText s.name).name

/-- The file is named after the project. -/
def isMain (project : Text) (s : Source) : Bool :=
  s.stem == project

/-- The order of two files of a project. -/
def precedes (project : Text) (a b : Source) : Bool :=
  match a.isMain project, b.isMain project with
  | true, false => true
  | false, true => false
  | _, _ => Text.le a.name b.name

/-- The files of a project in order. -/
def inOrder (project : Text) (files : List Source) : List Source :=
  sortBy (precedes project) files

end Source

end SketchMerge
