import SketchMerge.Files.Walk

/-! # Files as a program sees them

    A file tree together with the current folder, from which relative paths
    start, and the home folder, for which a tilde stands. -/

namespace SketchMerge

/-- A file tree as seen by a program. -/
structure Disk where
  tree : Tree
  /-- The current folder. -/
  here : Location
  /-- The home folder. -/
  home : Path

namespace Disk

/-- The most bytes of a path, with the end mark. -/
def longestPath : Nat := 4096

/-- Where a path starts. -/
def start (d : Disk) (p : Path) : Location :=
  if p.isAbsolute then [] else d.here

/-- The written form of a path from the root, with double dots taken away as they
    are written. -/
def absolutePath (d : Disk) (p : Path) : Path :=
  let parts := if p.isAbsolute then p.parts else d.here ++ p.parts
  let anchor := if p.isAbsolute then p.anchor else .root
  ⟨anchor, (parts.foldl
    (fun kept part => if part == Path.dotDot then kept.tail else part :: kept) []).reverse⟩

/-- What is wrong with a written path, if anything. -/
def unusable? (written : Text) : Option Files.Cause :=
  match Files.barredText? written with
  | some cause => some cause
  | none => if longestPath ≤ (Utf8.encode written).length then some .tooLong else none

/-- The location that a path leads to, links followed.  The last name need not
    exist. -/
def locate (d : Disk) (purpose : Tree.Purpose) (p : Path) : Except Files.Cause Location :=
  match unusable? p.text with
  | some cause => .error cause
  | none => d.tree.walk purpose Tree.mostLinks (d.start p) p.parts

/-- The entry at a location. -/
def entryAt (d : Disk) (l : Location) : Except Files.Cause (Location × Entry) :=
  match d.tree.get? l with
  | some e => .ok (l, e)
  | none => .error .missing

/-- The entry that a path leads to, links followed, and its location. -/
def look (d : Disk) (p : Path) : Except Files.Cause (Location × Entry) := do
  d.entryAt (← d.locate .find p)

/-- The entry that a path leads to just as it is written. -/
def lookWritten (d : Disk) (written : Text) : Except Files.Cause (Location × Entry) :=
  match unusable? written with
  | some cause => .error cause
  | none => do
    d.entryAt (← d.tree.walk .find Tree.mostLinks (d.start (Path.ofText written))
      (Path.steps written))

/-- A path leads to an entry that satisfies `test`.  A path that leads nowhere does
    not; one that is too long is a fault. -/
def check (d : Disk) (p : Path) (test : Entry → Bool) : Except Files.Fault Bool :=
  match d.look p with
  | .ok (_, e) => .ok (test e)
  | .error .tooLong => .error (.at .tooLong p.text)
  | .error _ => .ok false

/-- A path leads to a folder. -/
def isFolder (d : Disk) (p : Path) : Except Files.Fault Bool :=
  d.check p (· == .folder)

/-- A path leads to a file. -/
def isFile (d : Disk) (p : Path) : Except Files.Fault Bool :=
  d.check p fun
    | .file _ => true
    | _ => false

/-- A path leads to something. -/
def isThere (d : Disk) (p : Path) : Except Files.Fault Bool :=
  d.check p fun _ => true

/-- A path with a leading tilde replaced by the home folder.  The homes of other
    users are not known. -/
def expandHome (d : Disk) (p : Path) : Except Files.Fault Path :=
  match p.anchor, p.parts with
  | .here, first :: rest =>
    if first == ("~" : Text) then .ok (d.home.join ⟨.here, rest⟩)
    else if first.head? == some (.char '~') then .error .noHome
    else .ok p
  | _, _ => .ok p

/-- The path without links and dots.  What does not exist is kept as written.  A path
    to a link may be written from the root, or with as many double dots in front as
    the current folder has folders around it. -/
def resolve (d : Disk) (p : Path) : Except Files.Fault Path :=
  if p.text.contains (.char '\x00') then .error (.at .zeroByte p.text)
  else
    let fuel := (d.tree.entries.length + 1) * (d.here.length + 2)
    let start : Path := if p.isAbsolute then .absolute [] else ⟨.here, []⟩
    let found := match d.tree.realWith d.here (d.tree.real d.here fuel []) start p.parts with
      | .ok q => d.absolutePath q
      | .error stuck => d.absolutePath (Path.ofText stuck)
    match d.look found with
    | .error .tooManyLinks => .error (.linkLoop found.text)
    | _ => .ok found

/-- The content of a file. -/
def read (d : Disk) (p : Path) : Except Files.Fault (List UInt8) :=
  match d.look p with
  | .ok (_, .file content) => .ok content
  | .ok _ => .error (.at .isFolder p.text)
  | .error cause => .error (.at cause p.text)

/-- The location that a file would be written to. -/
def target (d : Disk) (p : Path) : Except Files.Fault Location :=
  match d.locate .write p with
  | .ok l => if d.tree.get? l == some .folder then .error (.at .isFolder p.text) else .ok l
  | .error cause => .error (.at cause p.text)

/-- The disk with an entry at a location. -/
def put (d : Disk) (l : Location) (e : Entry) : Disk :=
  { d with tree := d.tree.put l e }

/-- The disk after a file is written. -/
def write (d : Disk) (p : Path) (content : List UInt8) : Except Files.Fault Disk := do
  .ok (d.put (← d.target p) (.file content))

/-- Writes a text to a file.  The file is opened empty, and stays so if the text has
    a surrogate that no bytes stand for. -/
def writeText (d : Disk) (p : Path) (t : Text) : Except Files.Fault Unit × Disk :=
  match d.target p with
  | .error fault => (.error fault, d)
  | .ok l =>
    match Utf8.unwritable? t with
    | some place => (.error (.unwritable place), d.put l (.file []))
    | none => (.ok (), d.put l (.file (Utf8.encode t)))

/-- The disk after a file is copied.  A file cannot be copied onto itself.  Where a
    folder is asked for and there is nothing, that is said. -/
def copy (d : Disk) (source target : Path) : Except Files.Fault Disk := do
  match d.look source, d.look target with
  | .ok (l, _), .ok (l', _) =>
    if l == l' then .error (.sameFile source.text target.text)
  | _, _ => pure ()
  let content ← d.read source
  match d.write target content, d.isThere target with
  | .error (.at .isFolder _), .ok false => .error (.noFolder target.text)
  | result, _ => result

/-- The names in the folder that a path leads to. -/
def names (d : Disk) (p : Path) : Except Files.Fault (List Text) :=
  match d.look p with
  | .ok (l, .folder) => .ok (d.tree.names l)
  | .ok _ => .error (.at .notFolder p.text)
  | .error cause => .error (.at cause p.text)

/-- Where an entry of a folder stands that is itself not followed. -/
def entryLocation (d : Disk) (p : Path) : Except Files.Fault Location :=
  match d.look p.parent with
  | .ok (l, _) => .ok (l ++ [p.name])
  | .error cause => .error (.at cause p.text)

end Disk

end SketchMerge
