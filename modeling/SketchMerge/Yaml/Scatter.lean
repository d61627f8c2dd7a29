import SketchMerge.Yaml.Document

/-! # The order of a set of numbers

    A set lists its members by the slots of a scatter table.  A number has a key
    that depends on its size alone, whatever its type; the key names the slot
    where it is first looked for, and if that is taken, further slots.  Other
    values have no lasting key, so a set that holds one keeps the order in which
    its members came. -/

namespace SketchMerge.Yaml.Scatter

/-- The prime modulo which numbers get their keys. -/
def modulus : Nat := Nat.pow 2 61 - 1

/-- The number of different keys. -/
def range : Nat := Nat.pow 2 64

/-- The key of a number below nought; the key before the last one is not used. -/
def below (remainder : Nat) : Nat :=
  (range - if remainder = 1 then 2 else remainder) % range

/-- The key of a fraction whose denominator is a power of two.  Modulo the prime,
    sixty-one doublings change nothing, so halving is doubling all but once. -/
def ofRatio (num : Int) (den : Nat) : Nat :=
  let remainder := num.natAbs * Nat.pow 2 (61 - den.log2 % 61) % modulus
  if num < 0 then below remainder else remainder

/-- The key of the infinite. -/
def infinite : Nat := 314159

/-- The key of a value, if it is a number. -/
def key? : Datum → Option Nat
  | .float (.infinite negative) => some (if negative then below infinite else infinite)
  | d => d.ratio?.map fun (num, den) => ofRatio num den

/-- The number of slots for some members: eight, or the first power of two above
    twice their number if that would leave too few free. -/
def slots (members : Nat) : Nat :=
  if members < 5 then 8 else Nat.pow 2 ((2 * members).log2 + 1)

/-- The slots to try in one go: a slot and nine more after it, if there is room. -/
def stretch (size slot : Nat) : List Nat :=
  if slot + 9 < size then (List.range 10).map (slot + ·) else [slot]

/-- The first free slot from a slot on, stretch by stretch, with a jump by what is
    left of the key in between.  Once the key is used up the jumps reach every
    slot, so `fuel` need only exceed the number of slots by a few. -/
def freeSlot? (table : Array (Option Ref)) : Nat → Nat → Nat → Option Nat
  | 0, _, _ => none
  | fuel + 1, slot, left =>
    match (stretch table.size slot).find? fun s => table.getD s none == none with
    | some s => some s
    | none => freeSlot? table fuel ((slot * 5 + 1 + left / 32) % table.size) (left / 32)

/-- The table with a member in the first free slot for its key. -/
def place (table : Array (Option Ref)) (key : Nat) (r : Ref) : Array (Option Ref) :=
  match freeSlot? table (table.size + 16) (key % table.size) key with
  | some slot => table.setIfInBounds slot (some r)
  | none => table

/-- The members of a set, each with its key, in the order in which it lists them. -/
def order (members : List (Nat × Ref)) : List Ref :=
  let table := members.foldl (fun table (key, r) => place table key r)
    (Array.replicate (slots members.length) none)
  table.toList.filterMap id

/-- The members of a set in the order in which it lists them. -/
def list (datum : Ref → Datum) (members : List Ref) : List Ref :=
  match members.mapM fun r => (key? (datum r)).map (·, r) with
  | some keyed => order keyed
  | none => members

end SketchMerge.Yaml.Scatter
