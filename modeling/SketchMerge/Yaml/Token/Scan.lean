import SketchMerge.Yaml.Token
import SketchMerge.Yaml.Token.Scalar

/-! # Cutting a YAML stream into tokens

    The scanner keeps the indentation of the open blocks, the number of open
    brackets, and the tokens that may turn out to be keys.  A key is known only
    when its colon is met, on the same line and within 1024 characters; the mark
    for it is then put in front of it.  Until then neither it nor what comes after
    it can be handed on. -/

namespace SketchMerge.Yaml

/-- A token that may turn out to be a key. -/
structure KeyCandidate where
  /-- How many tokens stand before it. -/
  position : Nat
  /-- It stands where only a key may stand. -/
  required : Bool
  /-- How many characters are to be read from it on. -/
  left : Nat
  line : Nat
  column : Nat

/-- The state of a scan. -/
structure Scanner where
  cursor : Cursor
  tokens : Array Token := #[]
  /-- The number of open brackets. -/
  flowLevel : Nat := 0
  /-- The indentation of the innermost block. -/
  indent : Int := -1
  /-- The indentation of the blocks around it. -/
  outer : List Int := []
  /-- A key may start here. -/
  keyAllowed : Bool := true
  /-- The key candidates, one at most for each number of open brackets. -/
  candidates : List (Nat × KeyCandidate) := []

namespace Scanner

abbrev Step := Except Fault Scanner

/-- The scan is inside brackets. -/
def inFlow (s : Scanner) : Bool :=
  s.flowLevel != 0

/-- The state with one more token. -/
def push (s : Scanner) (t : Token) : Scanner :=
  { s with tokens := s.tokens.push t }

/-- The state some characters further on. -/
def advance (s : Scanner) (n : Nat) : Scanner :=
  { s with cursor := s.cursor.advance n }

/-- The candidate can be a key no more. -/
def isStale (s : Scanner) (k : KeyCandidate) : Bool :=
  k.line != s.cursor.line || 1024 < k.left - s.cursor.left

/-- Drops the candidates that can be keys no more.  One that had to be a key is a
    fault. -/
def dropStale (s : Scanner) : Step :=
  if s.candidates.any fun (_, k) => s.isStale k && k.required then .error .malformed
  else .ok { s with candidates := s.candidates.filter fun (_, k) => !s.isStale k }

/-- How many tokens can be handed on: those in front of every candidate. -/
def ready (s : Scanner) : Nat :=
  (s.candidates.filter fun (_, k) => !s.isStale k).foldl (fun n (_, k) => min n k.position)
    s.tokens.size

/-- Drops the candidate of the current brackets. -/
def dropCandidate (s : Scanner) : Step :=
  match s.candidates.lookup s.flowLevel with
  | none => .ok s
  | some k =>
    if k.required then .error .malformed
    else .ok { s with candidates := s.candidates.filter (·.1 != s.flowLevel) }

/-- Remembers that the next token may be a key. -/
def saveCandidate (s : Scanner) : Step := do
  if !s.keyAllowed then .ok s
  else
    let s ← s.dropCandidate
    let k : KeyCandidate :=
      { position := s.tokens.size
        required := !s.inFlow && s.indent == s.cursor.column
        left := s.cursor.left
        line := s.cursor.line
        column := s.cursor.column }
    .ok { s with candidates := (s.flowLevel, k) :: s.candidates }

/-- Closes the blocks that are indented by more than `column`. -/
def unwind (s : Scanner) (column : Int) : Scanner :=
  if s.inFlow then s else go column s.outer s
where
  go (column : Int) : List Int → Scanner → Scanner
    | [], s => s
    | i :: outer, s =>
      if column < s.indent then
        go column outer { s.push .blockEnd with indent := i, outer := outer }
      else s

/-- Opens a block at a column, unless one is open there; `start` is the token for
    it and `position` its place. -/
def openBlock (s : Scanner) (column : Nat) (start : Token) (position : Nat) : Scanner :=
  if s.indent < column then
    { s with
      indent := column
      outer := s.indent :: s.outer
      tokens := s.tokens.insertIdxIfInBounds position start }
  else s

/-- Skips spaces, comments and line ends.  Outside of brackets a key may start on
    a new line. -/
def skipToToken : Nat → Scanner → Scanner
  | 0, s => s
  | fuel + 1, s =>
    let c := s.cursor.skip (· == ' ')
    let c := if c.peek == '#' then c.skip (!isBreakOrEnd ·) else c
    match c.lineBreak? with
    | some (_, after) =>
      skipToToken fuel { s with cursor := after, keyAllowed := s.keyAllowed || !s.inFlow }
    | none => { s with cursor := c }

-- ── Directives ──────────────────────────────────────────────────────────────

/-- A number of a directive. -/
def directiveNumber (c : Cursor) : Except Fault (Nat × Cursor) := do
  let (digits, after) := c.span Char.isDigit
  if digits.isEmpty then .error .malformed
  let n ← (Numeral.readInt 10 (Scalar.ofChars digits)).mapError .numeral
  .ok (n.toNat, after)

/-- The value of the directive that names the version. -/
def versionValue (c : Cursor) : Except Fault (Token × Cursor) := do
  let (major, c) ← directiveNumber (c.skip (· == ' '))
  if c.peek != '.' then .error .malformed
  let (_, c) ← directiveNumber c.next
  if isSpaceOrEnd c.peek then .ok (.version major, c) else .error .malformed

/-- A handle of tags: two exclamation marks with a name between them, or one by
    itself before a space. -/
def handle (c : Cursor) : Except Fault (Text × Cursor) :=
  if c.peek != '!' then .error .malformed
  else if c.peekAt 1 == ' ' then .ok (Scalar.ofChars ['!'], c.next)
  else
    let (name, after) := c.next.span isNameChar
    if after.peek == '!' then .ok (Scalar.ofChars ('!' :: name ++ ['!']), after.next)
    else .error .malformed

/-- The characters of addresses. -/
def isUriChar (c : Char) : Bool :=
  c.isAlphanum || "-;/?:@&=+$,_.!~*\x27()[]%".toList.contains c

/-- Bytes written with percent signs. -/
def uriEscapes : Nat → Cursor → Except Fault (List UInt8 × Cursor)
  | 0, c => .ok ([], c)
  | fuel + 1, c =>
    if c.peek != '%' then .ok ([], c)
    else
      match Scalar.hexNumber? 2 c.next.rest with
      | none => .error .malformed
      | some n => do
        let (bytes, c) ← uriEscapes fuel (c.next.advance 2)
        .ok (UInt8.ofNat n :: bytes, c)

/-- An address from a place on; `t` is what has been read of it. -/
def uriFrom : Nat → Cursor → Text → Except Fault (Text × Cursor)
  | 0, c, t => .ok (t, c)
  | fuel + 1, c, t =>
    let (run, c) := c.span fun ch => isUriChar ch && ch != '%'
    let t := t ++ Scalar.ofChars run
    if c.peek == '%' then do
      let (bytes, c) ← uriEscapes (c.left + 1) c
      match Utf8.decodeStrict bytes with
      | .ok piece => uriFrom fuel c (t ++ piece)
      | .error _ => .error .malformed
    else .ok (t, c)

/-- An address, which is not empty. -/
def uri (c : Cursor) : Except Fault (Text × Cursor) :=
  if isUriChar c.peek then uriFrom (c.left + 1) c [] else .error .malformed

/-- The value of the directive that gives a handle. -/
def tagHandleValue (c : Cursor) : Except Fault (Token × Cursor) := do
  let (h, c) ← handle (c.skip (· == ' '))
  if c.peek != ' ' then .error .malformed
  let (stem, c) ← uri (c.skip (· == ' '))
  if isSpaceOrEnd c.peek then .ok (.tagHandle h stem, c) else .error .malformed

/-- The directive at a place, from its percent sign on, with the rest of its
    line. -/
def directive (c : Cursor) : Except Fault (Token × Cursor) := do
  let (name, c) := c.next.span isNameChar
  if name.isEmpty || !isSpaceOrEnd c.peek then .error .malformed
  let (token, c) ←
    if name == ['Y', 'A', 'M', 'L'] then versionValue c
    else if name == ['T', 'A', 'G'] then tagHandleValue c
    else .ok (Token.directive, c.skip (!isBreakOrEnd ·))
  .ok (token, ← Scalar.ignoredLine c)

-- ── Names and tags ──────────────────────────────────────────────────────────

/-- The name after the sign of an anchor or an alias. -/
def anchorName (c : Cursor) : Except Fault (Text × Cursor) :=
  let (name, after) := c.next.span isNameChar
  let follows (ch : Char) : Bool := isGapOrEnd ch || "?:,]\x7d%@\x60".toList.contains ch
  if name.isEmpty || !follows after.peek then .error .malformed
  else .ok (Scalar.ofChars name, after)

/-- The tag at a place, from its exclamation mark on. -/
def tag (c : Cursor) : Except Fault (Token × Cursor) := do
  let ch := c.peekAt 1
  let (token, c) ←
    if ch == '<' then do
      let (rest, c) ← uri (c.advance 2)
      if c.peek != '>' then .error .malformed
      pure (Token.tag none rest, c.next)
    else if isGapOrEnd ch then pure (Token.tag none (Scalar.ofChars ['!']), c.next)
    else do
      let word := c.next.rest.takeWhile (!isSpaceOrEnd ·)
      let (h, c) ← if word.contains '!' then handle c else pure (Scalar.ofChars ['!'], c.next)
      let (rest, c) ← uri c
      pure (Token.tag (some h) rest, c)
  if isSpaceOrEnd c.peek then .ok (token, c) else .error .malformed

-- ── Tokens ──────────────────────────────────────────────────────────────────

/-- The end of the stream. -/
def fetchEnd (s : Scanner) : Step := do
  let s ← (s.unwind (-1)).dropCandidate
  .ok ({ s with keyAllowed := false, candidates := [] }.push .streamEnd)

/-- A directive. -/
def fetchDirective (s : Scanner) : Step := do
  let s ← (s.unwind (-1)).dropCandidate
  let (token, c) ← directive s.cursor
  .ok ({ s with keyAllowed := false, cursor := c }.push token)

/-- The start or the end of a document. -/
def fetchSeparator (token : Token) (s : Scanner) : Step := do
  let s ← (s.unwind (-1)).dropCandidate
  .ok (({ s with keyAllowed := false }.advance 3).push token)

/-- An opening bracket, which may start a key. -/
def fetchOpening (token : Token) (s : Scanner) : Step := do
  let s ← s.saveCandidate
  .ok (({ s with flowLevel := s.flowLevel + 1, keyAllowed := true }.advance 1).push token)

/-- A closing bracket, for which one must be open. -/
def fetchClosing (token : Token) (s : Scanner) : Step := do
  let s ← s.dropCandidate
  if s.flowLevel == 0 then .error .malformed
  else .ok (({ s with flowLevel := s.flowLevel - 1, keyAllowed := false }.advance 1).push token)

/-- A comma between entries in brackets. -/
def fetchFlowEntry (s : Scanner) : Step := do
  let s ← { s with keyAllowed := true }.dropCandidate
  .ok ((s.advance 1).push .flowEntry)

/-- A hyphen before an entry of a block. -/
def fetchBlockEntry (s : Scanner) : Step := do
  if !s.inFlow && !s.keyAllowed then .error .malformed
  let s := if s.inFlow then s
    else s.openBlock s.cursor.column .blockSequenceStart s.tokens.size
  let s ← { s with keyAllowed := true }.dropCandidate
  .ok ((s.advance 1).push .blockEntry)

/-- A question mark before a key. -/
def fetchKey (s : Scanner) : Step := do
  if !s.inFlow && !s.keyAllowed then .error .malformed
  let s := if s.inFlow then s
    else s.openBlock s.cursor.column .blockMappingStart s.tokens.size
  let s ← { s with keyAllowed := !s.inFlow }.dropCandidate
  .ok ((s.advance 1).push .key)

/-- A colon after a key.  If there is a candidate it is the key. -/
def fetchValue (s : Scanner) : Step := do
  match s.candidates.lookup s.flowLevel with
  | some k =>
    let s := { s with
      candidates := s.candidates.filter (·.1 != s.flowLevel)
      tokens := s.tokens.insertIdxIfInBounds k.position .key
      keyAllowed := false }
    let s := if s.inFlow then s else s.openBlock k.column .blockMappingStart k.position
    .ok ((s.advance 1).push .value)
  | none =>
    if !s.inFlow && !s.keyAllowed then .error .malformed
    let s := if s.inFlow then s
      else s.openBlock s.cursor.column .blockMappingStart s.tokens.size
    let s ← { s with keyAllowed := !s.inFlow }.dropCandidate
    .ok ((s.advance 1).push .value)

/-- A token that may be a key, read by `read`. -/
def fetchCandidate (read : Cursor → Except Fault (Token × Cursor)) (s : Scanner) : Step := do
  let s ← s.saveCandidate
  let (token, c) ← read s.cursor
  .ok ({ s with keyAllowed := false, cursor := c }.push token)

/-- A block scalar. -/
def fetchBlockScalar (s : Scanner) : Step := do
  let s ← { s with keyAllowed := true }.dropCandidate
  let (t, c) ← Scalar.block s.indent s.cursor
  .ok ({ s with cursor := c }.push (.scalar t false))

/-- A plain scalar. -/
def fetchPlain (s : Scanner) : Step := do
  let s ← s.saveCandidate
  let p := Scalar.plain s.inFlow (s.indent + 1) s.cursor
  .ok ({ s with keyAllowed := p.keyAllowed, cursor := p.after }.push
    (.scalar (Scalar.ofChars p.chars) true))

/-- The place can start a plain scalar. -/
def startsPlain (s : Scanner) : Bool :=
  let c := s.cursor.peek
  !(isGapOrEnd c || "-?:,[]\x7b\x7d#&*!|>\x27\x22%@\x60".toList.contains c)
    || (!isGapOrEnd (s.cursor.peekAt 1)
      && (c == '-' || (!s.inFlow && (c == '?' || c == ':'))))

/-- Reads the next token. -/
def fetch (s : Scanner) : Step := do
  let s ← (skipToToken (s.cursor.left + 1) s).dropStale
  let s := s.unwind s.cursor.column
  let c := s.cursor.peek
  let gapAfter := isGapOrEnd (s.cursor.peekAt 1)
  let separator := s.cursor.column == 0 && s.cursor.atSeparator
  if c == '\x00' then s.fetchEnd
  else if c == '%' && s.cursor.column == 0 then s.fetchDirective
  else if c == '-' && separator then s.fetchSeparator .documentStart
  else if c == '.' && separator then s.fetchSeparator .documentEnd
  else if c == '[' then s.fetchOpening .flowSequenceStart
  else if c == '\x7b' then s.fetchOpening .flowMappingStart
  else if c == ']' then s.fetchClosing .flowSequenceEnd
  else if c == '\x7d' then s.fetchClosing .flowMappingEnd
  else if c == ',' then s.fetchFlowEntry
  else if c == '-' && gapAfter then s.fetchBlockEntry
  else if c == '?' && (s.inFlow || gapAfter) then s.fetchKey
  else if c == ':' && (s.inFlow || gapAfter) then s.fetchValue
  else if c == '*' then
    s.fetchCandidate fun c => (anchorName c).map fun (n, c) => (.alias n, c)
  else if c == '&' then
    s.fetchCandidate fun c => (anchorName c).map fun (n, c) => (.anchor n, c)
  else if c == '!' then s.fetchCandidate tag
  else if (c == '|' || c == '>') && !s.inFlow then s.fetchBlockScalar
  else if c == '\x27' || c == '\x22' then
    s.fetchCandidate fun c => (Scalar.quoted c).map fun (t, c) => (.scalar t false, c)
  else if s.startsPlain then s.fetchPlain
  else .error .malformed

/-- Reads tokens up to the end of the stream, or as far as it can be read.  Every
    token but the last takes at least one character. -/
def fetchAll : Nat → Scanner → List Token
  | 0, _ => [.unreadable .malformed]
  | fuel + 1, s =>
    match s.fetch with
    | .error why => s.tokens.toList.take s.ready ++ [.unreadable why]
    | .ok s =>
      if s.tokens.back? == some .streamEnd then s.tokens.toList else fetchAll fuel s

end Scanner

/-- The characters that may stand in a stream. -/
def isPrintable (c : Char) : Bool :=
  let n := c.toNat
  n == 0x09 || n == 0x0A || n == 0x0D || (0x20 ≤ n && n ≤ 0x7E) || n == 0x85
    || (0xA0 ≤ n && n ≤ 0xFFFD) || 0x10000 ≤ n

/-- The tokens of a stream.  A byte order mark at its start is left out. -/
def tokensOf (stream : List Char) : List Token :=
  if !stream.all isPrintable then [.unreadable .malformed]
  else
    let start := Cursor.start stream
    let start := if start.peek == byteOrderMark then start.next else start
    Scanner.fetchAll (start.left + 1) { cursor := start }

end SketchMerge.Yaml
