import OpenApiClient.Document.Yaml.Node
import OpenApiClient.Document.Yaml.Token

/-! # Documents in YAML

The tokens of a text are read into one tree of nodes, and the tree into a value. A reference stands
for the node with its anchor. This reader knows neither tags nor directives, and takes a date for a
text; what holds of loading holds for any other reader too. -/
namespace OpenApiClient.Yaml

/-- What is left to read, and the nodes that have an anchor. -/
structure Reader where
  tokens : Tokens
  anchors : List (String × Node) := []

/-- A step of reading. -/
abbrev ReaderStep := StateT Reader (Except ReadFlaw)

/-- The next token, if there is one. Looking beyond a flaw of the text ends the reading. -/
def peek : ReaderStep (Option Token) := do
  match (← get).tokens with
  | { list := t :: _, .. } => return some t
  | { list := [], flaw := none } => return none
  | { list := [], flaw := some flaw } => throw flaw

def pass : ReaderStep Unit :=
  modify fun r => { r with tokens := { r.tokens with list := r.tokens.list.drop 1 } }

def accept (t : Token) : ReaderStep Bool := do
  if (← peek) = some t then
    pass
    return true
  else return false

/-- Passes the next token, which has to be the given one. -/
def expect (t : Token) : ReaderStep Unit := do
  if !(← accept t) then throw .malformed

def isNext (ts : List Token) : ReaderStep Bool := do
  match ← peek with
  | some t => return ts.contains t
  | none => return false

/-- What may stand for a node: a node of a block, an entry list without indentation of its own, or
a node of a flow collection. -/
inductive Position
  | block
  | indentless
  | flow
  deriving DecidableEq

/-- The anchor that stands here, if one does. Each name is an anchor once, and within its own node
it stands for a loop. -/
def anchor? : ReaderStep (Option String) := do
  match ← peek with
  | some (.anchor name) =>
    pass
    let _ ← peek
    if ((← get).anchors.lookup name).isSome then throw .malformed
    modify fun r => { r with anchors := (name, .loop) :: r.anchors }
    return some name
  | _ => return none

def note (anchor : Option String) (n : Node) : ReaderStep Unit :=
  match anchor with
  | none => return
  | some name => modify fun r => { r with anchors := (name, n) :: r.anchors }

mutual

/-- A node at a position. -/
def node : (fuel : Nat) → Position → ReaderStep Node
  | 0, _ => throw .malformed
  | fuel + 1, position => do
    match ← peek with
    | some (.reference name) =>
      pass
      match (← get).anchors.lookup name with
      | some n => return n
      | none => throw .malformed
    | _ =>
      let anchor ← anchor?
      let n ← content fuel position anchor.isSome
      note anchor n
      return n

/-- What a node holds. With an anchor it may hold nothing. -/
def content : (fuel : Nat) → Position → (mayBeBlank : Bool) → ReaderStep Node
  | 0, _, _ => throw .malformed
  | fuel + 1, position, mayBeBlank => do
    match ← peek with
    | some (.scalar text isPlain) =>
      pass
      return .scalar text isPlain
    | some .flowSequenceStart =>
      pass
      return .sequence (← flowItems fuel true)
    | some .flowMappingStart =>
      pass
      return .mapping (← flowPairs fuel true)
    | some .blockEntry =>
      if position = .indentless then return .sequence (← indentlessItems fuel)
      else if mayBeBlank then return .blank
      else throw .malformed
    | some .blockSequenceStart =>
      if position = .flow then throw .malformed
      pass
      return .sequence (← blockItems fuel)
    | some .blockMappingStart =>
      if position = .flow then throw .malformed
      pass
      return .mapping (← blockPairs fuel)
    | _ => if mayBeBlank then return .blank else throw .malformed

/-- A node, or a blank one where one of the given tokens comes next. -/
def nodeUnless : (fuel : Nat) → Position → (ends : List Token) → ReaderStep Node
  | 0, _, _ => throw .malformed
  | fuel + 1, position, ends => do
    if ← isNext ends then return .blank else node fuel position

/-- The node after the sign of a value, a blank one without this sign. -/
def valueUnless : (fuel : Nat) → Position → (ends : List Token) → ReaderStep Node
  | 0, _, _ => throw .malformed
  | fuel + 1, position, ends => do
    if ← accept .value then nodeUnless fuel position ends else return .blank

/-- The entries of a block sequence, up to the end of the block. -/
def blockItems : (fuel : Nat) → ReaderStep (List Node)
  | 0 => throw .malformed
  | fuel + 1 => do
    if ← accept .blockEntry then
      let n ← nodeUnless fuel .block [.blockEntry, .blockEnd]
      return n :: (← blockItems fuel)
    else
      expect .blockEnd
      return []

/-- The entries of a sequence that has the indentation of the mapping around it. -/
def indentlessItems : (fuel : Nat) → ReaderStep (List Node)
  | 0 => throw .malformed
  | fuel + 1 => do
    if ← accept .blockEntry then
      let n ← nodeUnless fuel .block [.blockEntry, .key, .value, .blockEnd]
      return n :: (← indentlessItems fuel)
    else return []

/-- The pairs of a block mapping, up to the end of the block. -/
def blockPairs : (fuel : Nat) → ReaderStep (List (Node × Node))
  | 0 => throw .malformed
  | fuel + 1 => do
    let ends := [Token.key, .value, .blockEnd]
    if ← accept .key then
      let key ← nodeUnless fuel .indentless ends
      let value ← valueUnless fuel .indentless ends
      return (key, value) :: (← blockPairs fuel)
    else
      expect .blockEnd
      return []

/-- The items of a flow sequence, up to its end. An item may be a single pair of a mapping. -/
def flowItems : (fuel : Nat) → (first : Bool) → ReaderStep (List Node)
  | 0, _ => throw .malformed
  | fuel + 1, first => do
    if ← accept .flowSequenceEnd then return []
    if !first then expect .flowEntry
    if ← accept .flowSequenceEnd then return []
    let n ←
      if ← accept .key then
        let key ← nodeUnless fuel .flow [.value, .flowEntry, .flowSequenceEnd]
        let value ← valueUnless fuel .flow [.flowEntry, .flowSequenceEnd]
        pure (.mapping [(key, value)])
      else node fuel .flow
    return n :: (← flowItems fuel false)

/-- The pairs of a flow mapping, up to its end. -/
def flowPairs : (fuel : Nat) → (first : Bool) → ReaderStep (List (Node × Node))
  | 0, _ => throw .malformed
  | fuel + 1, first => do
    if ← accept .flowMappingEnd then return []
    if !first then expect .flowEntry
    if ← accept .flowMappingEnd then return []
    let pair ←
      if ← accept .key then
        let key ← nodeUnless fuel .flow [.value, .flowEntry, .flowMappingEnd]
        let value ← valueUnless fuel .flow [.flowEntry, .flowMappingEnd]
        pure (key, value)
      else
        let key ← node fuel .flow
        pure (key, .blank)
    return pair :: (← flowPairs fuel false)

end

/-- Passes the marks that end documents. -/
def passEnds : (fuel : Nat) → ReaderStep Unit
  | 0 => return
  | fuel + 1 => do if ← accept .documentEnd then passEnds fuel

/-- The one document of a text, blank for a text without one. Its start may be marked. -/
def document : ReaderStep Node := do
  let fuel := 5 * (← get).tokens.list.length + 5
  if (← peek).isNone then return .blank
  let n ←
    if ← accept .documentStart then
      if (← peek).isNone then pure .blank
      else nodeUnless fuel .block [.documentStart, .documentEnd]
    else node fuel .block
  passEnds fuel
  if (← peek).isNone then return n else throw .malformed

def read (text : String) : Except ReadFlaw Value := do
  let (n, _) ← document.run { tokens := .ofText text.toList }
  n.value

end OpenApiClient.Yaml
