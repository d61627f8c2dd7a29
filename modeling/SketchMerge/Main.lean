import SketchMerge.Command.Run

/-! # The program

    The outermost layer: it takes the folders that the command line names as they
    are on disk, runs the command on them, and writes back what has changed.  It
    starts no other program, so a run that needs the tag tool reports that it
    cannot be located. -/

namespace SketchMerge.Program

/-- The location that an absolute path writes. -/
def locationOf (path : String) : Location :=
  (Path.ofText path).parts

/-- The absolute path of a location. -/
def pathOf (l : Location) : String :=
  ((Path.absolute l).text.toString?).getD ""

/-- The tree with a folder of the disk and what is directly in it. -/
def addFolder (tree : Tree) (path : String) : IO Tree := do
  let real ← IO.FS.realPath path
  let folder := locationOf real.toString
  let mut tree := tree.putFolder folder
  for entry in ← real.readDir do
    let l := folder ++ [(entry.fileName : Text)]
    if ← entry.path.isDir then tree := tree.putFolder l
    else
      let content ← IO.FS.readBinFile entry.path
      tree := tree.put l (.file content.toList)
  return tree

/-- The tree of the folders among some words. -/
def addFolders (tree : Tree) (words : List String) : IO Tree :=
  words.foldlM
    (fun tree word => try addFolder tree word catch _ => pure tree)
    tree

/-- Writes the difference between two trees to disk. -/
def writeBack (before after : Tree) : IO Unit := do
  for (l, e) in before.entries do
    match e, after.get? l with
    | .file _, none => IO.FS.removeFile (pathOf l)
    | _, _ => pure ()
  for (l, e) in after.entries do
    match e with
    | .file content =>
      if before.get? l != some (.file content) then
        IO.FS.writeBinFile (pathOf l) ⟨content.toArray⟩
    | _ => pure ()

/-- Prints bytes of a text. -/
def emit (stream : IO.FS.Stream) (t : Text) : IO Unit :=
  stream.write ⟨(Utf8.encode t).toArray⟩

/-- Runs the command with the given words. -/
def run (words : List String) : IO UInt32 := do
  let here ← IO.currentDir
  let home := (← IO.getEnv "HOME").getD "/"
  let tool ← IO.getEnv "SKETCHPP_CTAGS"
  let tree ← addFolders (Tree.putFolder {} (locationOf here.toString)) words
  let world : World := {
    disk := { tree, here := locationOf here.toString, home := Path.ofText home }
    temporary := ["tmp", "sketchpp"]
    toolVariable := tool.map Text.ofString
    time := Text.ofNat (← IO.monoMsNow) }
  let (result, after) := Command.run (words.map Text.ofString) world
  writeBack tree after.disk.tree
  emit (← IO.getStdout) after.printed
  emit (← IO.getStderr) after.console
  match result with
  | .ok status => return UInt32.ofNat status
  | .error fault =>
    emit (← IO.getStderr) (fault.message ++ "\n")
    return 1

end SketchMerge.Program

/-- Runs the program. -/
def main (words : List String) : IO UInt32 :=
  SketchMerge.Program.run words
