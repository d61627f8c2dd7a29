import SketchMerge.Number.Shortest
import SketchMerge.Yaml.Time

/-! # Values of a YAML document

    The values of a document form a graph, as its nodes do: a collection holds
    the numbers of its members.  Two written forms are needed.  The text of a
    value is what stands for it by itself, the quoted form what stands for it
    inside a collection.  A collection that contains itself is written with dots
    where it comes again. -/

namespace SketchMerge.Yaml

/-- The number of a value in its document. -/
abbrev Ref := Nat

/-- One value. -/
inductive Datum where
  | null
  | truth (b : Bool)
  | integer (n : Int)
  | float (x : Binary64)
  /-- What the name of no number stands for. -/
  | noNumber
  | text (t : Text)
  | bytes (bs : List UInt8)
  | time (t : Time)
  | list (items : List Ref)
  /-- A list of pairs. -/
  | pairs (items : List (Ref × Ref))
  /-- A mapping, in the order in which its keys came. -/
  | mapping (entries : List (Ref × Ref))
  | set (members : List Ref)
  deriving DecidableEq, Repr

/-- The values of a document and where it starts. -/
structure Document where
  data : Array Datum
  root : Ref

namespace Datum

/-- The value is a collection, which cannot be a key. -/
def isCollection : Datum → Bool
  | .list _ | .pairs _ | .mapping _ | .set _ => true
  | _ => false

/-- The value is nought, empty or false. -/
def isVoid : Datum → Bool
  | .null => true
  | .truth b => !b
  | .integer n => n == 0
  | .float x => x.isZero
  | .noNumber => false
  | .text t => t.isEmpty
  | .bytes bs => bs.isEmpty
  | .time _ => false
  | .list items => items.isEmpty
  | .pairs items => items.isEmpty
  | .mapping entries => entries.isEmpty
  | .set members => members.isEmpty

/-- The number that a value is, as an exact fraction.  Truth values count as one
    and nought. -/
def ratio? : Datum → Option (Int × Nat)
  | .truth b => some (if b then 1 else 0, 1)
  | .integer n => some (n, 1)
  | .float x => x.toRatio?
  | _ => none

/-- Two values are the same key.  Numbers are compared by their size, whatever
    their type.  A floating point number that is none, though it was read as a
    numeral, is like no other value. -/
def sameKey (a b : Datum) : Bool :=
  match a.ratio?, b.ratio? with
  | some (p, q), some (p', q') => p * q' == p' * q
  | none, none =>
    match a, b with
    | .time (.moment m), .time (.moment m') => m.same m'
    | .float .nan, _ => false
    | _, _ => a == b
  | _, _ => false

end Datum

/-- How floating point numbers are written: with a point in place from a ten
    thousandth up to sixteen digits, and with two digits of a power beyond. -/
def floatLayout : Decimal.Layout :=
  { leastPositional := -4, firstScientific := 16, powerWidth := 2 }

namespace Document

/-- The value under a number. -/
def get (d : Document) (r : Ref) : Datum :=
  d.data.getD r .null

/-- A part of a document that is written with brackets. -/
inductive Bracket where
  /-- A collection. -/
  | whole (r : Ref)
  /-- The `n`-th pair of a list of pairs. -/
  | pair (r : Ref) (n : Nat)
  deriving DecidableEq, Repr

/-- What stands for a collection that comes again inside itself. -/
def again : Datum → Text
  | .mapping _ => "\x7b...\x7d"
  | .set _ => "set(...)"
  | _ => "[...]"

/-- The form of a pair, which may come again inside itself too; `inside` are the
    brackets around it and `quoted` writes its members. -/
def pairFrom (quoted : List Bracket → Ref → Except Fault Text) (inside : List Bracket)
    (r : Ref) (n : Nat) (pair : Ref × Ref) : Except Fault Text :=
  let here := Bracket.pair r n
  if inside.contains here then .ok "(...)"
  else do
    .ok ("(" ++ (← quoted (here :: inside) pair.1) ++ ", "
      ++ (← quoted (here :: inside) pair.2) ++ ")")

/-- How many brackets may stand around a value that is written.  Each waits for what is
    written inside it. -/
def mostAround : Nat := levelsWithin 1 9

/-- The quoted form of a value; `inside` are the brackets around it.  As no
    collection comes twice in them, `fuel` need only exceed the number of values. -/
def quotedFrom (d : Document) : Nat → List Bracket → Ref → Except Fault Text
  | 0, _, r => .ok (again (d.get r))
  | fuel + 1, inside, r =>
    let around := Bracket.whole r :: inside
    let quoted := quotedFrom d fuel around
    if mostAround < inside.length then .error .tooDeepToWrite
    else if inside.contains (.whole r) && (d.get r).isCollection then .ok (again (d.get r))
    else
      match d.get r with
      | .null => .ok "None"
      | .truth b => .ok (if b then "True" else "False")
      | .integer n => (Numeral.writeInt n).mapError .numeral
      | .float x => .ok (x.text floatLayout)
      | .noNumber => .ok (Binary64.nan.text floatLayout)
      | .text t => .ok (Quoted.text t)
      | .bytes bs => .ok (Quoted.bytes bs)
      | .time (.date t) => .ok t.quoted
      | .time (.moment t) => .ok t.quoted
      | .list items => do
        let parts ← items.mapM quoted
        .ok ("[" ++ Text.joinWith ", " parts ++ "]")
      | .pairs items => do
        let parts ← items.zipIdx.mapM fun (pair, n) =>
          pairFrom (quotedFrom d fuel) around r n pair
        .ok ("[" ++ Text.joinWith ", " parts ++ "]")
      | .mapping entries => do
        let parts ← entries.mapM fun (k, v) => do
          .ok ((← quoted k) ++ ": " ++ (← quoted v))
        .ok ("\x7b" ++ Text.joinWith ", " parts ++ "\x7d")
      | .set members =>
        if members.isEmpty then .ok "set()"
        else do
          let parts ← members.mapM quoted
          .ok ("\x7b" ++ Text.joinWith ", " parts ++ "\x7d")

/-- The quoted form of a value. -/
def quoted (d : Document) (r : Ref) : Except Fault Text :=
  d.quotedFrom (d.data.size + 1) [] r

/-- The text of a value: texts and times stand for themselves, all else has its
    quoted form. -/
def text (d : Document) (r : Ref) : Except Fault Text :=
  match d.get r with
  | .text t => .ok t
  | .time (.date t) => .ok t.text
  | .time (.moment t) => .ok t.text
  | _ => d.quoted r

/-- The forms of the pairs of a list of pairs. -/
def pairTexts (d : Document) (r : Ref) (items : List (Ref × Ref)) :
    Except Fault (List Text) :=
  items.zipIdx.mapM fun (pair, n) => pairFrom (d.quotedFrom (d.data.size + 1)) [] r n pair

/-- The value that a mapping has under a key. -/
def lookup (d : Document) (entries : List (Ref × Ref)) (key : Text) : Option Ref :=
  (entries.find? fun (k, _) => d.get k == .text key).map Prod.snd

end Document

end SketchMerge.Yaml
