import SketchMerge.Files.Fault
import SketchMerge.Files.Tree
import SketchMerge.Text.Utf8

/-! # Following paths

    There are two ways to follow a path.  The strict way is that of opening a
    file: every step must exist, and the number of links on the way is limited.
    Only the last name need not exist, since a file may be created there; but then
    the path must not end in a slash.  The lenient way finds the written form of a
    path without links: what does not exist is taken as it is written.  A link that
    is met again while it is followed stops it, and then the rest of the path is
    put behind that link as it is written. -/

namespace SketchMerge

namespace Tree

/-- The most bytes of a name. -/
def longestName : Nat := 255

/-- The most links that are followed for one path. -/
def mostLinks : Nat := 40

/-- The name has too many bytes. -/
def nameTooLong (name : Text) : Bool :=
  longestName < (Utf8.encode name).length

/-- What a path is followed for. -/
inductive Purpose where
  /-- To find what is there. -/
  | find
  /-- To write a file there. -/
  | write
  deriving DecidableEq, Repr

/-- Where a link starts that stands in a folder. -/
def linkStart (folder : Location) (target : Text) : Location :=
  if Path.anchorOf target == .here then folder else []

/-- Follows names from a folder; `enter` follows the names after a link.  The last
    name need not exist.  A file cannot be written under a name with a slash after
    it, whatever stands there. -/
def walkWith (t : Tree) (purpose : Purpose)
    (enter : Location → List Text → Except Files.Cause Location) :
    Location → List Text → Except Files.Cause Location
  | at_, [] => .ok at_
  | at_, name :: rest =>
    if name.isEmpty || name == Path.dot then walkWith t purpose enter at_ rest
    else if name == Path.dotDot then walkWith t purpose enter at_.dropLast rest
    else if purpose == .write && rest == [[]] then .error .isFolder
    else if nameTooLong name then .error .tooLong
    else
      let next := at_ ++ [name]
      match t.get? next with
      | none => if rest.isEmpty then .ok next else .error .missing
      | some .folder => walkWith t purpose enter next rest
      | some (.file _) => if rest.isEmpty then .ok next else .error .notFolder
      | some (.link target) => enter (linkStart at_ target) (Path.steps target ++ rest)

/-- Follows names and at most `links` links.  The last name need not exist. -/
def walk (t : Tree) (purpose : Purpose) :
    Nat → Location → List Text → Except Files.Cause Location
  | 0 => t.walkWith purpose fun _ _ => .error .tooManyLinks
  | links + 1 => t.walkWith purpose (t.walk purpose links)

/-- The location that a path names if there are no links. -/
def plainLocation (here : Location) (p : Path) : Location :=
  p.parts.foldl (fun l name => if name == Path.dotDot then l.dropLast else l ++ [name])
    (if p.isAbsolute then [] else here)

/-- A lenient walk that stopped: the written path that is left. -/
abbrev Stuck := Text

/-- Follows names leniently from a path without links; `enter` finds where a link
    leads that stands in a folder. -/
def realWith (t : Tree) (here : Location) (enter : Path → Path → Text → Except Stuck Path) :
    Path → List Text → Except Stuck Path
  | p, [] => .ok p
  | p, name :: rest =>
    if name.isEmpty || name == Path.dot then realWith t here enter p rest
    else if name == Path.dotDot then realWith t here enter p.up rest
    else
      let next : Path := ⟨p.anchor, p.parts ++ [name]⟩
      match t.get? (plainLocation here next) with
      | some (.link target) =>
        match enter next p target with
        | .ok found => realWith t here enter found rest
        | .error stuck => .error (Path.joinWritten stuck (Text.joinWith "/" rest))
      | _ => realWith t here enter next rest

/-- Where a link leads that stands in `folder`, leniently; `open_` are the links that
    are being followed.  They are all different paths, so `fuel` need only exceed
    the number of paths that lead to links. -/
def real (t : Tree) (here : Location) :
    Nat → List Path → Path → Path → Text → Except Stuck Path
  | 0, _, link, _, _ => .error link.text
  | fuel + 1, open_, link, folder, target =>
    if open_.contains link then .error link.text
    else
      t.realWith here (t.real here fuel (link :: open_))
        (if Path.anchorOf target == .here then folder else .absolute [])
        (Text.splitAtEach (· == Path.slash) target)

end Tree

end SketchMerge
