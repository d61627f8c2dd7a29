import SketchMerge.Command.Option

/-! # Arguments of the command line

    The options may stand before, between and after the two folders.  As many
    folders as possible are read wherever words that are no options stand
    together.  A pair of dashes is never a value: a folder or an option that gets
    one in place of its value is given, and yet names nothing. -/

namespace SketchMerge.Command

/-- What a command line asks for. -/
structure Arguments where
  verbose : Bool := false
  /-- The log file, if one is given.  It may name nothing. -/
  logFile : Option (Option Text) := none
  variant : Option Text := none
  /-- The tag tool. -/
  tool : Option Text := none
  /-- The folders, the project first.  One may name nothing. -/
  folders : List (Option Text) := []
  /-- The words that have no meaning. -/
  extras : List Text := []
  deriving DecidableEq, Repr

/-- Why there is nothing to run. -/
inductive Stop where
  | help
  | misuse (cause : Misuse)
  deriving DecidableEq, Repr

namespace Arguments

/-- The names of the folders. -/
def folderNames : List Text := ["project_folder", "output_folder"].map Text.ofString

/-- A word as a value, unless it is a pair of dashes. -/
def value? (t : Text) : Option Text :=
  if t == ("--" : Text) then none else some t

/-- An option with its value. -/
abbrev Setting := Flag × Option Text

/-- Obeys an option. -/
def obey (a : Arguments) : Setting → Except Stop Arguments
  | (.help, _) => .error .help
  | (.verbose, _) => .ok { a with verbose := true }
  | (.logFile, value) => .ok { a with logFile := some value }
  | (.tool, value) => .ok { a with tool := value }
  | (.variant, none) => .ok { a with variant := none }
  | (.variant, some name) =>
    if (Variant.named? name).isSome then .ok { a with variant := some name }
    else .error (.misuse (.badChoice .variant name))

/-- The options that one word holds. -/
structure Cluster where
  settings : List Setting := []
  /-- The last option, if no value is joined to it. -/
  last : Option Flag := none

/-- The cluster with one more option in front. -/
def Cluster.cons (f : Flag) (c : Cluster) : Cluster :=
  { c with settings := (f, none) :: c.settings }

/-- Reads an option with something joined to it.  An option of one letter without a
    value may be followed by further such letters, and by nothing else. -/
def readJoined (short : Bool) : Flag → Text → Except Misuse Cluster
  | f, joined =>
    if f.takesValue then .ok { settings := [(f, value? joined)] }
    else
      match joined with
      | [] => .error (.ignoredValue f [])
      | g :: rest =>
        match short, Flag.spelled? [Word.dash, g], rest with
        | true, some next, [] => .ok { settings := [(f, none)], last := some next }
        | true, some next, h :: more => (readJoined short next (h :: more)).map (·.cons f)
        | _, _, _ => .error (.ignoredValue f (g :: rest))

/-- Reads an option and the value after it, and gives the words that are left. -/
def readOption (a : Arguments) (word : Text) (w : Written) (rest : List Word) :
    Except Stop (Arguments × List Word) := do
  match w.flag with
  | none => .ok ({ a with extras := a.extras ++ [word] }, rest)
  | some f =>
    let cluster ← match w.value with
      | some joined => (readJoined w.short f joined).mapError Stop.misuse
      | none => .ok { last := some f }
    let (settings, rest) ← match cluster.last with
      | none => .ok (cluster.settings, rest)
      | some f =>
        if f.takesValue then
          match rest with
          | .plain t :: rest => .ok (cluster.settings ++ [(f, some t)], rest)
          | _ => .error (Stop.misuse (.noValue f))
        else .ok (cluster.settings ++ [(f, none)], rest)
    let a ← settings.foldlM obey a
    .ok (a, rest)

/-- Reads one folder: a plain word, with the divider perhaps before or after it. -/
def readFolder? : List Word → Option (Option Text × List Word)
  | .divider :: .plain t :: rest => some (some t, rest)
  | .plain t :: .divider :: rest => some (some t, rest)
  | .plain t :: rest => some (value? t, rest)
  | _ => none

/-- Reads as many folders as are wanted and there, and gives the words that are
    left. -/
def readFolders (a : Arguments) : Nat → List Word → Arguments × List Word
  | 0, words => (a, words)
  | wanted + 1, words =>
    match readFolder? words with
    | some (folder, rest) =>
      readFolders { a with folders := a.folders ++ [folder] } wanted rest
    | none => (a, words)

/-- Reads the folders that are still wanted. -/
def readMissing (a : Arguments) (words : List Word) : Arguments × List Word :=
  readFolders a (folderNames.length - a.folders.length) words

/-- Passes over words. -/
def passOver (a : Arguments) (words : List Word) : Arguments :=
  { a with extras := a.extras ++ words.map Word.text }

/-- Reads words in order.  Every step but the last takes a word away, so `fuel`
    need only exceed their number. -/
def readWords : Nat → Arguments → List Word → Except Stop Arguments
  | 0, a, words => .ok (a.passOver words)
  | fuel + 1, a, words =>
    if words.any Word.isOption then
      match words with
      | .option t w :: rest => do
        let (a, rest) ← readOption a t w rest
        readWords fuel a rest
      | _ =>
        let (a, rest) := a.readMissing words
        if rest.length < words.length then readWords fuel a rest
        else
          readWords fuel (a.passOver (rest.takeWhile (!·.isOption)))
            (rest.dropWhile (!·.isOption))
    else
      let (a, rest) := a.readMissing words
      .ok (a.passOver rest)

/-- What the words of a command line ask for. -/
def ofWords (words : List Text) : Except Stop Arguments := do
  let read ← (Word.readAll words).mapError .misuse
  let a ← readWords (read.length + 1) {} read
  if a.folders.length < folderNames.length then
    .error (.misuse (.missing (folderNames.drop a.folders.length)))
  else if !a.extras.isEmpty then .error (.misuse (.unrecognized a.extras))
  else .ok a

end Arguments

end SketchMerge.Command
