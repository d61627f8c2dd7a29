import SketchMerge.Text.Pattern

/-! # Types of YAML nodes

    Every node has a type, either by a tag or, for plain scalars, by its looks.
    The looks are those of YAML 1.1: `yes` and `off` are truth values, numbers
    may have underscores and may be written in base sixty, dates are dates. -/

namespace SketchMerge.Yaml

/-- The type of a node. -/
inductive TypeTag where
  | null
  | truth
  | integer
  | float
  | binary
  | timestamp
  /-- A list of pairs with keys in order. -/
  | orderedMap
  | pairs
  | set
  | text
  | sequence
  | mapping
  /-- The key under which other mappings are merged in. -/
  | merge
  /-- The key for the default value of a mapping. -/
  | value
  /-- Any type without a meaning here. -/
  | unknown
  deriving DecidableEq, Repr

namespace TypeTag

/-- The start of the tags that YAML itself defines. -/
def stem : String := "tag:yaml.org,2002:"

/-- The types that a tag can name. -/
def named : List (String × TypeTag) :=
  [("null", .null), ("bool", .truth), ("int", .integer), ("float", .float),
    ("binary", .binary), ("timestamp", .timestamp), ("omap", .orderedMap), ("pairs", .pairs),
    ("set", .set), ("str", .text), ("seq", .sequence), ("map", .mapping), ("merge", .merge),
    ("value", .value)]

/-- The type that a tag names. -/
def ofTag (t : Text) : TypeTag :=
  match named.find? fun (name, _) => t == Text.ofString (stem ++ name) with
  | some (_, type) => type
  | none => .unknown

section Looks

open Pattern

/-- Digits and underscores. -/
def digits_ : Pattern := many (oneOf "0123456789_")

/-- An optional sign. -/
def sign : Pattern := optional (oneOf "-+")

/-- Further places of a number in base sixty. -/
def sixties : Pattern :=
  oneOrMore (chain [char ':', optional (oneOf "012345"), digit])

/-- A power of ten, whose sign is required. -/
def power : Pattern :=
  optional (chain [oneOf "eE", oneOf "-+", oneOrMore digit])

/-- The looks of truth values. -/
def truthLooks : Pattern :=
  words
    ["yes", "Yes", "YES", "no", "No", "NO", "true", "True", "TRUE", "false", "False", "FALSE",
      "on", "On", "ON", "off", "Off", "OFF"]

/-- The looks of floating point numbers. -/
def floatLooks : Pattern :=
  firstOf
    (chain [sign, digit, digits_, char '.', digits_, power])
    [chain [char '.', digit, digits_, power],
      chain [sign, digit, digits_, sixties, char '.', digits_],
      chain [sign, char '.', words ["inf", "Inf", "INF"]],
      chain [char '.', words ["nan", "NaN", "NAN"]]]

/-- The looks of whole numbers: in base two, eight, ten, sixteen or sixty. -/
def integerLooks : Pattern :=
  .seq sign
    (firstOf
      (.seq (word "0b") (oneOrMore (oneOf "01_")))
      [.seq (char '0') (oneOrMore (oneOf "01234567_")),
        char '0',
        chain [oneOf "123456789", digits_],
        .seq (word "0x") (oneOrMore (oneOf "0123456789abcdefABCDEF_")),
        chain [oneOf "123456789", digits_, sixties]])

/-- The looks of null. -/
def nullLooks : Pattern :=
  optional (words ["~", "null", "Null", "NULL"])

/-- One or two digits. -/
def oneOrTwo : Pattern :=
  chain [digit, optional digit]

/-- The looks of dates and times. -/
def timestampLooks : Pattern :=
  let year := chain [digit, digit, digit, digit, char '-']
  let two := chain [digit, digit]
  let zone := firstOf (char 'Z')
    [chain [oneOf "-+", oneOrTwo, optional (.seq (char ':') two)]]
  firstOf
    (chain [year, two, char '-', two])
    [chain
      [year, oneOrTwo, char '-', oneOrTwo, firstOf (oneOf "Tt") [oneOrMore (oneOf " \t")],
        oneOrTwo, char ':', two, char ':', two,
        optional (.seq (char '.') (many digit)),
        optional (.seq (many (oneOf " \t")) zone)]]

/-- The looks of the types, in the order in which they are tried.  A lone sign of
    a tag, an anchor or an alias has a type without meaning. -/
def looks : List (Pattern × TypeTag) :=
  [(truthLooks, .truth), (floatLooks, .float), (integerLooks, .integer), (word "<<", .merge),
    (nullLooks, .null), (timestampLooks, .timestamp), (char '=', .value),
    (oneOf "!&*", .unknown)]

end Looks

/-- The type of a plain scalar.  What looks like nothing else is text. -/
def ofLooks (t : Text) : TypeTag :=
  if t == [.char '\n'] then .text
  else
    match looks.find? fun (p, _) => p.matchesAll t with
    | some (_, type) => type
    | none => .text

end TypeTag

end SketchMerge.Yaml
