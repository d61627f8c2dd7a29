import SketchMerge.Files.Path

/-! # File trees

    A tree of folders, files and symbolic links.  A location is the list of names
    from the root to an entry, without dots and without links on the way.  The
    order of the entries is the order in which folders list them; nothing else
    depends on it as long as no location comes twice. -/

namespace SketchMerge

/-- The names from the root to an entry. -/
abbrev Location := List Text

/-- What stands under a name. -/
inductive Entry where
  | folder
  | file (content : List UInt8)
  /-- A symbolic link and the path it is written with. -/
  | link (target : Text)
  deriving DecidableEq, Repr

/-- A file tree.  The root is a folder and is not listed. -/
structure Tree where
  entries : List (Location × Entry) := []
  deriving DecidableEq, Repr

namespace Tree

/-- The entry at a location. -/
def get? (t : Tree) (l : Location) : Option Entry :=
  if l.isEmpty then some .folder else t.entries.lookup l

/-- The tree with an entry at a location.  A new entry is listed last. -/
def put (t : Tree) (l : Location) (e : Entry) : Tree :=
  if (t.entries.lookup l).isSome then
    { entries := t.entries.map fun (l', e') => if l' == l then (l', e) else (l', e') }
  else { entries := t.entries ++ [(l, e)] }

/-- The tree without the entry at a location. -/
def erase (t : Tree) (l : Location) : Tree :=
  { entries := t.entries.filter fun (l', _) => l' != l }

/-- The tree without an entry and all that is below it. -/
def prune (t : Tree) (l : Location) : Tree :=
  { entries := t.entries.filter fun (l', _) => !l.isPrefixOf l' }

/-- The names in a folder, in the order in which it lists them. -/
def names (t : Tree) (folder : Location) : List Text :=
  t.entries.filterMap fun (l, _) =>
    if l.dropLast == folder then l.getLast? else none

/-- The tree with a folder at a location, and with the folders around it. -/
def putFolder (t : Tree) (l : Location) : Tree :=
  ((List.range l.length).map fun n => l.take (n + 1)).foldl
    (fun t l => if (t.get? l).isSome then t else t.put l .folder) t

end Tree

end SketchMerge
