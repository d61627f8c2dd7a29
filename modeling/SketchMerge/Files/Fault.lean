import SketchMerge.Text.Quoted

/-! # What can go wrong with files -/

namespace SketchMerge.Files

/-- Why a path leads to no usable entry. -/
inductive Cause where
  | missing
  | denied
  /-- A folder was needed and something else is there. -/
  | notFolder
  /-- A folder is there and something else was needed. -/
  | isFolder
  /-- A name or the whole path is too long. -/
  | tooLong
  | tooManyLinks
  /-- The path holds a zero byte. -/
  | zeroByte
  /-- The path holds surrogates that no bytes stand for. -/
  | unwritable
  deriving DecidableEq, Repr

/-- Why a text cannot be handed to the system, if it cannot. -/
def barredText? (t : Text) : Option Cause :=
  if (Utf8.unwritable? t).isSome then some .unwritable
  else if t.contains (.char '\x00') then some .zeroByte
  else none

/-- The number and the words by which a cause is known to the system. -/
def Cause.system? : Cause → Option (Nat × String)
  | .missing => some (2, "No such file or directory")
  | .denied => some (13, "Permission denied")
  | .notFolder => some (20, "Not a directory")
  | .isFolder => some (21, "Is a directory")
  | .tooLong => some (36, "File name too long")
  | .tooManyLinks => some (40, "Too many levels of symbolic links")
  | .zeroByte | .unwritable => none

/-- Why something could not be done with files. -/
inductive Fault where
  /-- The path, as it was given, leads to no usable entry. -/
  | at (cause : Cause) (path : Text)
  /-- Links lead back to themselves. -/
  | linkLoop (path : Text)
  /-- There is no home folder for a path that starts with a tilde. -/
  | noHome
  /-- A file was to be copied onto itself. -/
  | sameFile (source target : Text)
  /-- A file was to be copied to where a folder is asked for and none is. -/
  | noFolder (target : Text)
  /-- No path at all was given. -/
  | noPath
  /-- A text was to be written that holds surrogates which no bytes stand for. -/
  | unwritable (place : Utf8.Unwritable)
  deriving DecidableEq, Repr

/-- The wording of a fault. -/
def Fault.message : Fault → Text
  | .at cause path =>
    match cause.system?, Utf8.unwritable? path with
    | some (number, words), _ =>
      "[Errno " ++ Text.ofNat number ++ "] " ++ words ++ ": " ++ Quoted.text path
    | none, some place => Quoted.unwritable place
    | none, none => "embedded null byte"
  | .linkLoop path => "Symlink loop from " ++ Quoted.text path
  | .noHome => "Could not determine home directory."
  | .sameFile source target =>
    "PosixPath(" ++ Quoted.text source ++ ") and PosixPath(" ++ Quoted.text target
      ++ ") are the same file"
  | .noFolder target => "Directory does not exist: " ++ target
  | .noPath => "expected str, bytes or os.PathLike object, not list"
  | .unwritable place => Quoted.unwritable place

end SketchMerge.Files
