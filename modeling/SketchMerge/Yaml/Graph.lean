import SketchMerge.Yaml.Fault
import SketchMerge.Yaml.Token
import SketchMerge.Yaml.TypeTag

/-! # The graph of a YAML document

    A document is a graph of typed nodes, because an alias may point to any node
    that was anchored before, one that contains the alias included.  Nodes are
    known by their number.  A stream must hold at most one document.

    Tokens are looked at one by one, and none before it is needed: of two faults,
    one in the tokens and one in their order, the first is found. -/

namespace SketchMerge.Yaml

/-- The number of a node in its graph. -/
abbrev NodeId := Nat

/-- What a node holds. -/
inductive Body where
  | scalar (text : Text)
  | sequence (items : List NodeId)
  | mapping (pairs : List (NodeId × NodeId))
  deriving DecidableEq, Repr

/-- A typed node. -/
structure Node where
  type : TypeTag
  body : Body
  deriving DecidableEq, Repr

/-- A document: its nodes and where it starts. -/
structure Graph where
  nodes : Array Node
  root : NodeId

/-- A graph in the making, with the tokens that are left. -/
structure Builder where
  tokens : List Token
  nodes : Array Node := #[]
  anchors : List (Text × NodeId) := []
  /-- What the handles of tags stand for. -/
  handles : List (Text × Text) := []
  /-- How many collections are open. -/
  depth : Nat := 0

namespace Builder

/-- The handles that every document has. -/
def standardHandles : List (Text × Text) :=
  [("!", "!"), ("!!", TypeTag.stem)]

/-- The next token; past the end there are only ends of the stream. -/
def peek (b : Builder) : Token :=
  b.tokens.headD .streamEnd

/-- Why the next token cannot come here. -/
def refusal (b : Builder) : Fault :=
  match b.peek with
  | .unreadable why => why
  | _ => .malformed

/-- The builder without the next token. -/
def next (b : Builder) : Builder :=
  { b with tokens := b.tokens.tail }

/-- The builder with one more node, and the number of the node. -/
def add (b : Builder) (node : Node) : NodeId × Builder :=
  (b.nodes.size, { b with nodes := b.nodes.push node })

/-- The builder with another node under a number. -/
def set (b : Builder) (id : NodeId) (node : Node) : Builder :=
  { b with nodes := b.nodes.setIfInBounds id node }

/-- The builder with an empty plain scalar, which is null. -/
def addEmpty (b : Builder) : NodeId × Builder :=
  b.add ⟨.null, .scalar []⟩

/-- The builder with an anchor for a node, which must be a new one. -/
def withAnchor (b : Builder) (anchor : Option Text) (id : NodeId) : Except Fault Builder :=
  match anchor with
  | none => .ok b
  | some name =>
    if (b.anchors.lookup name).isSome then .error .malformed
    else .ok { b with anchors := (name, id) :: b.anchors }

/-- A tag with its handle replaced by what it stands for. -/
def expandTag (b : Builder) (handle : Option Text) (rest : Text) : Except Fault Text :=
  match handle with
  | none => .ok rest
  | some h =>
    match b.handles.lookup h with
    | some start => .ok (start ++ rest)
    | none => .error .malformed

/-- The properties in front of a node: an anchor and a tag, in either order. -/
structure Properties where
  anchor : Option Text := none
  tag : Option Text := none

/-- Reads the properties of a node. -/
def properties (b : Builder) : Except Fault (Properties × Builder) :=
  match b.peek with
  | .anchor name =>
    match b.next.peek with
    | .tag handle rest => do
      .ok (⟨some name, some (← b.expandTag handle rest)⟩, b.next.next)
    | _ => .ok (⟨some name, none⟩, b.next)
  | .tag handle rest =>
    match b.next.peek with
    | .unreadable why => .error why
    | .anchor name => do .ok (⟨some name, some (← b.expandTag handle rest)⟩, b.next.next)
    | _ => do .ok (⟨none, some (← b.expandTag handle rest)⟩, b.next)
  | _ => .ok ({}, b)

/-- The type of a collection: that of its tag, unless the tag leaves it open. -/
def collectionType (p : Properties) (ifOpen : TypeTag) : TypeTag :=
  match p.tag with
  | none => ifOpen
  | some t => if t == [.char '!'] then ifOpen else TypeTag.ofTag t

/-- The type of a scalar.  Without a tag a plain one goes by its looks and any
    other is text; a lone exclamation mark asks for the looks. -/
def scalarType (p : Properties) (t : Text) (plain : Bool) : TypeTag :=
  match p.tag with
  | none => if plain then TypeTag.ofLooks t else .text
  | some tag => if tag == [.char '!'] then TypeTag.ofLooks t else TypeTag.ofTag tag

/-- The builder with a scalar. -/
def addScalar (b : Builder) (p : Properties) (t : Text) (plain : Bool) :
    Except Fault (NodeId × Builder) := do
  let (id, b) := b.add ⟨scalarType p t plain, .scalar t⟩
  .ok (id, ← b.withAnchor p.anchor id)

/-- Where a node stands. -/
inductive Place where
  /-- In a block. -/
  | block
  /-- In a block mapping, where a sequence need not be indented further. -/
  | blockMapping
  /-- In brackets. -/
  | flow
  deriving DecidableEq

/-- One of the given tokens comes next. -/
def comes (b : Builder) (ts : List Token) : Bool :=
  ts.contains b.peek

/-- How many collections may be open at a time.  Each keeps two steps waiting, one for its
    node and one for its members.  The steps before the first are those of settings that
    are loaded by themselves, and so they are below. -/
def mostOpen : Nat := levelsWithin 2 24

/-- The builder inside one more collection. -/
def deeper (b : Builder) : Except Fault Builder :=
  if b.depth < mostOpen then .ok { b with depth := b.depth + 1 } else .error .tooDeep

/-- The builder with a collection that is still empty, and its number and type. -/
def openCollection (b : Builder) (p : Properties) (ifOpen : TypeTag) :
    Except Fault (NodeId × TypeTag × Builder) := do
  let type := collectionType p ifOpen
  let (id, b) := b.add ⟨type, .sequence []⟩
  .ok (id, type, ← (← b.withAnchor p.anchor id).deeper)

/-- The builder with a collection that is complete. -/
def close (b : Builder) (id : NodeId) (type : TypeTag) (body : Body) : Builder :=
  { b.set id ⟨type, body⟩ with depth := b.depth - 1 }

/-- The builder after the comma in front of an entry that is not the first. -/
def comma (first : Bool) (b : Builder) : Except Fault Builder :=
  if first then .ok b
  else if b.peek == .flowEntry then .ok b.next
  else .error b.refusal

mutual

/-- Reads a node. -/
def node : Nat → Place → Builder → Except Fault (NodeId × Builder)
  | 0, _, _ => .error .malformed
  | fuel + 1, place, b =>
    match b.peek with
    | .alias name =>
      match b.anchors.lookup name with
      | some id => .ok (id, b.next)
      | none => .error .malformed
    | _ => do
      let (p, b) ← b.properties
      let token := b.peek
      if token == .blockEntry && place == .blockMapping then
        let (id, type, b) ← b.openCollection p .sequence
        let (items, b) ← indentlessItems fuel b
        .ok (id, b.close id type (.sequence items))
      else if token == .flowSequenceStart then
        let (id, type, b) ← b.next.openCollection p .sequence
        let (items, b) ← flowItems fuel true b
        .ok (id, b.close id type (.sequence items))
      else if token == .flowMappingStart then
        let (id, type, b) ← b.next.openCollection p .mapping
        let (pairs, b) ← flowPairs fuel true b
        .ok (id, b.close id type (.mapping pairs))
      else if token == .blockSequenceStart && place != .flow then
        let (id, type, b) ← b.next.openCollection p .sequence
        let (items, b) ← blockItems fuel b
        .ok (id, b.close id type (.sequence items))
      else if token == .blockMappingStart && place != .flow then
        let (id, type, b) ← b.next.openCollection p .mapping
        let (pairs, b) ← blockPairs fuel b
        .ok (id, b.close id type (.mapping pairs))
      else
        match token with
        | .scalar t plain => b.next.addScalar p t plain
        | .unreadable why => .error why
        | _ =>
          if p.anchor.isSome || p.tag.isSome then b.addScalar p [] true else .error .malformed

/-- Reads a node, or an empty one if one of the tokens `ends` comes next. -/
def nodeUnless : Nat → List Token → Place → Builder → Except Fault (NodeId × Builder)
  | 0, _, _, _ => .error .malformed
  | fuel + 1, ends, place, b =>
    if b.comes ends then .ok b.addEmpty else node fuel place b

/-- Reads the value after a key, which is empty without a colon. -/
def valueUnless : Nat → List Token → Place → Builder → Except Fault (NodeId × Builder)
  | 0, _, _, _ => .error .malformed
  | fuel + 1, ends, place, b =>
    if b.peek == .value then nodeUnless fuel ends place b.next else .ok b.addEmpty

/-- Reads the entries of a block sequence. -/
def blockItems : Nat → Builder → Except Fault (List NodeId × Builder)
  | 0, _ => .error .malformed
  | fuel + 1, b =>
    match b.peek with
    | .blockEntry => do
      let (id, b) ← nodeUnless fuel [.blockEntry, .blockEnd] .block b.next
      let (ids, b) ← blockItems fuel b
      .ok (id :: ids, b)
    | .blockEnd => .ok ([], b.next)
    | _ => .error b.refusal

/-- Reads the entries of a sequence that is indented no further than its key. -/
def indentlessItems : Nat → Builder → Except Fault (List NodeId × Builder)
  | 0, _ => .error .malformed
  | fuel + 1, b =>
    match b.peek with
    | .blockEntry => do
      let (id, b) ← nodeUnless fuel [.blockEntry, .key, .value, .blockEnd] .block b.next
      let (ids, b) ← indentlessItems fuel b
      .ok (id :: ids, b)
    | _ => .ok ([], b)

/-- Reads the pairs of a block mapping. -/
def blockPairs : Nat → Builder → Except Fault (List (NodeId × NodeId) × Builder)
  | 0, _ => .error .malformed
  | fuel + 1, b =>
    match b.peek with
    | .key => do
      let (k, b) ← nodeUnless fuel [.key, .value, .blockEnd] .blockMapping b.next
      let (v, b) ← valueUnless fuel [.key, .value, .blockEnd] .blockMapping b
      let (pairs, b) ← blockPairs fuel b
      .ok ((k, v) :: pairs, b)
    | .blockEnd => .ok ([], b.next)
    | _ => .error b.refusal

/-- Reads the entries of a sequence in brackets.  An entry with a key is a mapping
    with one pair. -/
def flowItems : Nat → Bool → Builder → Except Fault (List NodeId × Builder)
  | 0, _, _ => .error .malformed
  | fuel + 1, first, b =>
    if b.peek == .flowSequenceEnd then .ok ([], b.next)
    else do
      let b ← comma first b
      match b.peek with
      | .flowSequenceEnd => .ok ([], b.next)
      | .key =>
        let (id, b) := b.next.add ⟨.mapping, .mapping []⟩
        let b ← b.deeper
        let (k, b) ← nodeUnless fuel [.value, .flowEntry, .flowSequenceEnd] .flow b
        let (v, b) ← valueUnless fuel [.flowEntry, .flowSequenceEnd] .flow b
        let (ids, b) ← flowItems fuel false (b.close id .mapping (.mapping [(k, v)]))
        .ok (id :: ids, b)
      | _ =>
        let (id, b) ← node fuel .flow b
        let (ids, b) ← flowItems fuel false b
        .ok (id :: ids, b)

/-- Reads the pairs of a mapping in brackets. -/
def flowPairs : Nat → Bool → Builder → Except Fault (List (NodeId × NodeId) × Builder)
  | 0, _, _ => .error .malformed
  | fuel + 1, first, b =>
    if b.peek == .flowMappingEnd then .ok ([], b.next)
    else do
      let b ← comma first b
      match b.peek with
      | .flowMappingEnd => .ok ([], b.next)
      | .key =>
        let (k, b) ← nodeUnless fuel [.value, .flowEntry, .flowMappingEnd] .flow b.next
        let (v, b) ← valueUnless fuel [.flowEntry, .flowMappingEnd] .flow b
        let (pairs, b) ← flowPairs fuel false b
        .ok ((k, v) :: pairs, b)
      | _ =>
        let (k, b) ← node fuel .flow b
        let (v, b) := b.addEmpty
        let (pairs, b) ← flowPairs fuel false b
        .ok ((k, v) :: pairs, b)

end

/-- The token is a directive. -/
def isDirective : Token → Bool
  | .version _ | .tagHandle .. | .directive => true
  | _ => false

/-- Reads directives: the version is named once at most and is of the first
    generation, and every handle is given once at most. -/
def directives : List Token → Bool → List (Text × Text) →
    Except Fault (List (Text × Text) × List Token)
  | .version major :: rest, versioned, handles =>
    if versioned || major != 1 then .error .malformed else directives rest true handles
  | .tagHandle h stem :: rest, versioned, handles =>
    if (handles.lookup h).isSome then .error .malformed
    else directives rest versioned ((h, stem) :: handles)
  | .directive :: rest, versioned, handles => directives rest versioned handles
  | tokens, _, handles => .ok (handles ++ standardHandles, tokens)

/-- Reads the only document of a stream, if there is one. -/
def document (tokens : List Token) : Except Fault (Option Graph) := do
  let fuel := 4 * tokens.length + 4
  let b : Builder := { tokens, handles := standardHandles }
  if b.peek == .streamEnd then .ok none
  else
    let (root, b) ←
      if isDirective b.peek || b.peek == .documentStart then do
        let (handles, rest) ← directives tokens false []
        let b : Builder := { tokens := rest, handles }
        if b.peek != .documentStart then .error b.refusal
        let b := b.next
        if isDirective b.peek || b.comes [.documentStart, .documentEnd, .streamEnd]
        then pure b.addEmpty
        else node fuel .block b
      else node fuel .block b
    match b.tokens.dropWhile (· == .documentEnd) with
    | .streamEnd :: _ => .ok (some ⟨b.nodes, root⟩)
    | rest => do
      let (_, rest) ← directives rest false []
      .error { b with tokens := rest }.refusal

end Builder

end SketchMerge.Yaml
