import SketchMerge.Project.Project

/-! # The output folder

    Before a run the output folder is cleared of what an earlier run may have
    left there, and the companion files are copied into it.  Both change the disk
    step by step, and what was done before a fault stays done. -/

namespace SketchMerge.Output

/-- What a change of the disk comes to, and the disk after it. -/
abbrev Outcome (α : Type) := Except Files.Fault α × Disk

/-- Deletes the files with one of the given endings, one name after the other.
    Each name is looked at when its turn comes. -/
def clearEach (folder : Path) (endings : List Text) : List Text → Disk → Outcome (List Path)
  | [], d => (.ok [], d)
  | name :: rest, d =>
    let p := folder.child name
    match Project.filesAmong d folder endings [name] with
    | .error fault => (.error fault, d)
    | .ok [] => clearEach folder endings rest d
    | .ok (_ :: _) =>
      match d.entryLocation p with
      | .error fault => (.error fault, d)
      | .ok l =>
        let (removed, d) := clearEach folder endings rest { d with tree := d.tree.erase l }
        (removed.map (p :: ·), d)

/-- Deletes the files of a folder with one of the given endings, and gives what was
    deleted. -/
def clear (folder : Path) (endings : List Text) (d : Disk) : Outcome (List Path) :=
  match d.names folder with
  | .error fault => (.error fault, d)
  | .ok names => clearEach folder endings names d

/-- The note on a cleared folder, if anything was deleted. -/
def clearNotes (folder : Path) (removed : List Path) : List Note :=
  if removed.isEmpty then []
  else
    [Note.debug "project"
      ("Removed " ++ Text.ofNat removed.length ++ " stale artifact(s) from " ++ folder.text)]

/-- Copies files into a folder under their own names, and gives the copies. -/
def copyEach (folder : Path) : List Path → Disk → Outcome (List Path)
  | [], d => (.ok [], d)
  | source :: rest, d =>
    let target := folder.child source.name
    match d.copy source target with
    | .error fault => (.error fault, d)
    | .ok d =>
      let (copied, d) := copyEach folder rest d
      (copied.map (target :: ·), d)

end SketchMerge.Output
