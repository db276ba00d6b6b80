import Stencil.Yaml.Token

/-!
# The nodes of a YAML text

The tree that tokens write: scalars, sequences and mappings, each with its tag written out in full or
none where none is written. A node with an anchor stands again wherever an alias names it; an anchor
is set once. A node that is named inside itself is not read. A text holds one document.
-/

namespace Stencil.Yaml

/-- The tag of a node. -/
inductive NodeTag where
  /-- The node is what its notation says it is. -/
  | implicit
  /-- The node is the plain kind of its form: a text, a sequence or a mapping. -/
  | natural
  | named (uri : String)
  deriving Repr, DecidableEq

/-- A node. -/
inductive Node where
  | scalar (tag : NodeTag) (text : String)
  | sequence (tag : NodeTag) (items : List Node)
  | mapping (tag : NodeTag) (entries : List (Node × Node))
  deriving Repr

instance : Inhabited Node := ⟨.scalar .implicit ""⟩

/-- How far the tokens of a document are read. -/
structure Reading where
  rest : List Token
  /-- What stopped the scan after these tokens. -/
  fault : Option Fault
  /-- The handles of tags and what they stand for. -/
  handles : List (String × String)
  /-- The nodes with an anchor; none for one that is still being read. -/
  anchors : List (String × Option Node)

/-- A step of reading. -/
abbrev ReadM := StateT Reading (Except Fault)

/-- What handles stand for unless a directive says otherwise. -/
def usualHandles : List (String × String) := [("!", "!"), ("!!", "tag:yaml.org,2002:")]

/-- A node that is not written. -/
def emptyNode : Node := .scalar .implicit ""

/-- The next token; none at the end of the text. -/
def peek : ReadM (Option Token) := do
  let r ← get
  match r.rest, r.fault with
  | [], some f => throw f
  | rest, _ => return rest.head?

/-- Passes over the next token. -/
def advance : ReadM Unit := modify fun r => { r with rest := r.rest.drop 1 }

/-- Passes over the next token if it is the one given. -/
def accept (t : Token) : ReadM Bool := do
  if (← peek) = some t then
    advance
    return true
  else return false

/-- Passes over the token given, which must come next. -/
def expect (t : Token) : ReadM Unit := do
  if !(← accept t) then throw .malformed

/-- The full name of a tag. -/
def resolveTag (t : Tag) : ReadM String := do
  match t.handle with
  | none => return t.suffix
  | some h =>
    match (← get).handles.lookup h with
    | some stem => return stem ++ t.suffix
    | none => throw .malformed

/-- An anchor and a tag, in either order, where they are written. -/
def properties : ReadM (Option String × Option String) := do
  match ← peek with
  | some (.anchor a) =>
    advance
    match ← peek with
    | some (.tag t) =>
      advance
      return (some a, some (← resolveTag t))
    | _ => return (some a, none)
  | some (.tag t) =>
    advance
    match ← peek with
    | some (.anchor a) =>
      advance
      return (some a, some (← resolveTag t))
    | _ => return (none, some (← resolveTag t))
  | _ => return (none, none)

/-- The tag of a scalar: a lone exclamation mark leaves it to the notation. -/
def scalarTag (tag : Option String) (isPlain : Bool) : NodeTag :=
  match tag with
  | none => if isPlain then .implicit else .natural
  | some "!" => .implicit
  | some uri => .named uri

/-- The tag of a sequence or a mapping. -/
def collectionTag : Option String → NodeTag
  | none | some "!" => .natural
  | some uri => .named uri

/-- Reads a node that may have an anchor. While it is being read, an alias that names it would lie in
what it stands for. -/
def anchored (anchor : Option String) (read : ReadM Node) : ReadM Node := do
  match anchor with
  | none => read
  | some a =>
    if ((← get).anchors.lookup a).isSome then throw .malformed
    modify fun r => { r with anchors := (a, none) :: r.anchors }
    let node ← read
    modify fun r => { r with anchors := (a, some node) :: r.anchors }
    return node

mutual

/-- A node. Outside brackets it may be a block collection, and as a key or a value of a block mapping
also a sequence that is not set in. -/
def readNode (block flush : Bool) : (fuel : Nat) → ReadM Node
  | 0 => throw .malformed
  | fuel + 1 => do
    match ← peek with
    | some (.alias name) =>
      advance
      match (← get).anchors.lookup name with
      | some (some node) => return node
      | some none => throw .endless
      | none => throw .malformed
    | _ =>
      let (anchor, tag) ← properties
      let next ← peek
      match next, block with
      | some .blockEntry, _ =>
        if flush then
          anchored anchor do return .sequence (collectionTag tag) (← readEntries true fuel)
        else if anchor.isSome || tag.isSome then
          anchored anchor (return .scalar (scalarTag tag true) "")
        else throw .malformed
      | some (.scalar text isPlain), _ =>
        advance
        anchored anchor (return .scalar (scalarTag tag isPlain) text)
      | some .flowSequenceStart, _ =>
        advance
        anchored anchor do return .sequence (collectionTag tag) (← readFlowItems true fuel)
      | some .flowMappingStart, _ =>
        advance
        anchored anchor do return .mapping (collectionTag tag) (← readFlowEntries true fuel)
      | some .blockSequenceStart, true =>
        advance
        anchored anchor do return .sequence (collectionTag tag) (← readEntries false fuel)
      | some .blockMappingStart, true =>
        advance
        anchored anchor do return .mapping (collectionTag tag) (← readPairs fuel)
      | _, _ =>
        if anchor.isSome || tag.isSome then anchored anchor (return .scalar (scalarTag tag true) "")
        else throw .malformed

/-- The entries of a block sequence. One that is not set in ends where something else comes. -/
def readEntries (flush : Bool) : (fuel : Nat) → ReadM (List Node)
  | 0 => throw .malformed
  | fuel + 1 => do
    if ← accept .blockEntry then
      let next ← peek
      let blank := next = some .blockEntry || next = some .blockEnd ||
        (flush && (next = some .key || next = some .value))
      let item ← if blank then pure emptyNode else readNode true false fuel
      return item :: (← readEntries flush fuel)
    else
      if !flush then expect .blockEnd
      return []

/-- A part of an entry: the node after a token, or an empty one if `ends` comes. -/
def readPart (block flush : Bool) (ends : List Token) : (fuel : Nat) → ReadM Node
  | 0 => throw .malformed
  | fuel + 1 => do
    match ← peek with
    | some t => if ends.contains t then return emptyNode else readNode block flush fuel
    | none => readNode block flush fuel

/-- The entries of a block mapping. -/
def readPairs : (fuel : Nat) → ReadM (List (Node × Node))
  | 0 => throw .malformed
  | fuel + 1 => do
    if ← accept .key then
      let ends := [Token.key, .value, .blockEnd]
      let key ← readPart true true ends fuel
      let value ← if ← accept .value then readPart true true ends fuel else pure emptyNode
      return (key, value) :: (← readPairs fuel)
    else
      expect .blockEnd
      return []

/-- The items of a sequence in brackets. -/
def readFlowItems (first : Bool) : (fuel : Nat) → ReadM (List Node)
  | 0 => throw .malformed
  | fuel + 1 => do
    if ← accept .flowSequenceEnd then return []
    if !first then expect .flowEntry
    if ← accept .flowSequenceEnd then return []
    if ← accept .key then
      let key ← readPart false false [.value, .flowEntry, .flowSequenceEnd] fuel
      let value ←
        if ← accept .value then readPart false false [.flowEntry, .flowSequenceEnd] fuel
        else pure emptyNode
      return .mapping .natural [(key, value)] :: (← readFlowItems false fuel)
    else
      let item ← readNode false false fuel
      return item :: (← readFlowItems false fuel)

/-- The entries of a mapping in brackets. -/
def readFlowEntries (first : Bool) : (fuel : Nat) → ReadM (List (Node × Node))
  | 0 => throw .malformed
  | fuel + 1 => do
    if ← accept .flowMappingEnd then return []
    if !first then expect .flowEntry
    if ← accept .flowMappingEnd then return []
    if ← accept .key then
      let key ← readPart false false [.value, .flowEntry, .flowMappingEnd] fuel
      let value ←
        if ← accept .value then readPart false false [.flowEntry, .flowMappingEnd] fuel
        else pure emptyNode
      return (key, value) :: (← readFlowEntries false fuel)
    else
      let key ← readNode false false fuel
      return (key, emptyNode) :: (← readFlowEntries false fuel)

end

/-- The directives before a document: the version, at most once, and handles, each at most once. -/
def readDirectives (versioned : Bool) (handles : List (String × String)) :
    (fuel : Nat) → ReadM (List (String × String))
  | 0 => throw .malformed
  | fuel + 1 => do
    match ← peek with
    | some (.version major) =>
      if versioned || major ≠ 1 then throw .malformed
      advance
      readDirectives true handles fuel
    | some (.handle name stem) =>
      if (handles.lookup name).isSome then throw .malformed
      advance
      readDirectives versioned ((name, stem) :: handles) fuel
    | some .directive =>
      advance
      readDirectives versioned handles fuel
    | _ => return handles

/-- Passes over marks that end a document. -/
def skipEnds : (fuel : Nat) → ReadM Unit
  | 0 => return ()
  | fuel + 1 => do
    if ← accept .documentEnd then skipEnds fuel

/-- Whether a token opens a document or what comes before it. -/
def Token.opensDocument : Token → Bool
  | version _ | handle .. | directive | documentStart => true
  | _ => false

/-- The only document of a text; none where the text is empty. -/
def readDocument (fuel : Nat) : ReadM (Option Node) := do
  match ← peek with
  | none => return none
  | some t =>
    let node ←
      if t.opensDocument then do
        let handles ← readDirectives false [] fuel
        modify fun r => { r with handles := handles ++ usualHandles }
        expect .documentStart
        match ← peek with
        | none => pure emptyNode
        | some t =>
          if t.opensDocument || t = .documentEnd then pure emptyNode else readNode true false fuel
      else readNode true false fuel
    skipEnds fuel
    match ← peek with
    | none => return some node
    | some _ => throw .malformed

/-- The node that a text writes; none where the text is empty. -/
def Node.read (text : String) : Except Fault (Option Node) := do
  let (rest, fault) := scan text
  let start : Reading := { rest, fault, handles := usualHandles, anchors := [] }
  return (← (readDocument (4 * rest.length + 8)).run start).1

end Stencil.Yaml
