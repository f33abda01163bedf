import IoSource.Yaml.Tag
import IoSource.Yaml.Token.Stream

/-!
# Nodes

A node is a scalar, a list or a mapping with its tag. The nodes of a document are numbered, and what
a collection contains is given by numbers: an alias is the number of the node that carries the
anchor, so a node can stand in several places, and even inside itself. `Document.ofTokens` is the
grammar: it reads the one document of a stream and puts an empty scalar where a value is missing.
-/

namespace IoSource.Yaml

inductive Node
  | scalar (tag : Tag) (text : WideText)
  | list (tag : Tag) (items : List Nat)
  | mapping (tag : Tag) (entries : List (Nat × Nat))
  deriving DecidableEq, Repr

/-- The scalar that stands where nothing is written. -/
def Node.empty : Node := scalar .null []

instance : Inhabited Node := ⟨Node.empty⟩

def Node.tag : Node → Tag
  | scalar tag _ | list tag _ | mapping tag _ => tag

/-- Nodes, and the number of the outermost one. -/
structure Document where
  nodes : Array Node
  root : Nat
  deriving DecidableEq, Repr

/-- What reading a document needs: the tokens to come, the number of nodes around, what the handles
of tags stand for, the nodes so far and the numbers of those that are anchored. -/
structure Composer where
  tokens : List Token
  depth : Nat := 0
  handles : List (Text × Text) := []
  nodes : Array Node := #[]
  anchors : List (Text × Nat) := []

abbrev Compose := StateT Composer (Except Error)

namespace Compose

def fail {α : Type} : Compose α := throw .malformed

/-- The next token; behind the last one the end comes again and again. -/
def peek : Compose Token := do
  match ((← get).tokens.head?).getD .streamEnd with
  | .fault e => throw e
  | t => return t

def skip : Compose Unit := modify fun c => { c with tokens := c.tokens.drop 1 }

/-- Skip a token if it is the next one, and say whether it was. -/
def skipIf (t : Token) : Compose Bool := do
  if (← peek) = t then
    skip
    return true
  else return false

def expect (t : Token) : Compose Unit := do
  if !(← skipIf t) then fail

def nextIsOneOf (ts : List Token) : Compose Bool := do return ts.contains (← peek)

def anchor? : Compose (Option Text) := do
  match ← peek with
  | .anchor name =>
    skip
    return some name
  | _ => return none

def tagParts? : Compose (Option (Option Text × Text)) := do
  match ← peek with
  | .tag handle? rest =>
    skip
    return some (handle?, rest)
  | _ => return none

def wholeTag : (parts : Option Text × Text) → Compose Text
  | (none, rest) => return rest
  | (some handle, rest) => do
    match (← get).handles.find? (·.1 = handle) with
    | some (_, start) => return start ++ rest
    | none => fail

def properties : Compose (Option Text × Option Text) := do
  let before? ← anchor?
  let parts? ← tagParts?
  let behind? ← if before?.isSome || parts?.isNone then pure none else anchor?
  return (before?.or behind?, ← parts?.mapM wholeTag)

/-- Read what is nested in the nodes around. -/
def nested [Platform] {α : Type} (read : Compose α) : Compose α := do
  let depth := (← get).depth
  if Platform.nodeDepth ≤ depth then throw .tooDeep
  modify fun c => { c with depth := depth + 1 }
  let x ← read
  modify fun c => { c with depth }
  return x

def add (node : Node) : Compose Nat := do
  let number := (← get).nodes.size
  modify fun c => { c with nodes := c.nodes.push node }
  return number

def replace (number : Nat) (node : Node) : Compose Nat := do
  modify fun c => { c with nodes := c.nodes.setIfInBounds number node }
  return number

/-- Each anchor has one node. -/
def anchorNode (name : Text) (number : Nat) : Compose Unit := do
  if (← get).anchors.any (·.1 = name) then fail
  modify fun c => { c with anchors := (name, number) :: c.anchors }

def anchored (name : Text) : Compose Nat := do
  match (← get).anchors.find? (·.1 = name) with
  | some (_, number) => return number
  | none => fail

end Compose

namespace Document

open Compose

variable [Platform]

/-- The tag that gives a scalar the type it looks like, and a collection its usual type. -/
def plainTag : Text := ['!']

def scalarTag (tag? : Option Text) (plain : Bool) (text : WideText) : Tag :=
  match tag? with
  | none => if plain then Tag.ofPlain text else .text
  | some uri => if uri = plainTag then Tag.ofPlain text else Tag.ofUri uri

def collectionTag (tag? : Option Text) (usual : Tag) : Tag :=
  match tag? with
  | none => usual
  | some uri => if uri = plainTag then usual else Tag.ofUri uri

mutual

/-- A node. Blocks cannot start inside brackets, and only below a key may the items of a list stand
at the column of the mapping, in which case no block is opened for them. What follows the properties
of a node is looked at before its anchor is. -/
def readNode : (fuel : Nat) → (inBlock belowKey : Bool) → Compose Nat
  | 0, _, _ => fail
  | fuel + 1, inBlock, belowKey => do
    match ← peek with
    | .reference name =>
      skip
      anchored name
    | _ =>
      let (anchor?, tag?) ← properties
      discard peek
      let number ← add Node.empty
      if let some name := anchor? then anchorNode name number
      let hasProperties := anchor?.isSome || tag?.isSome
      replace number (← nested (readContent fuel inBlock belowKey hasProperties tag?))

/-- What stands behind the properties of a node; a node with properties may be empty. -/
def readContent : (fuel : Nat) → (inBlock belowKey mayBeEmpty : Bool) → (tag? : Option Text) →
    Compose Node
  | 0, _, _, _, _ => fail
  | fuel + 1, inBlock, belowKey, mayBeEmpty, tag? => do
    let listTag := collectionTag tag? .list
    let mappingTag := collectionTag tag? .mapping
    match ← peek with
    | .scalar text plain =>
      skip
      return .scalar (scalarTag tag? plain text) text
    | .openList =>
      skip
      if ← skipIf .closeList then return .list listTag []
      return .list listTag ((← readFlowItem fuel) :: (← readFlowItems fuel))
    | .openMapping =>
      skip
      if ← skipIf .closeMapping then return .mapping mappingTag []
      return .mapping mappingTag ((← readFlowEntry fuel) :: (← readFlowEntries fuel))
    | token =>
      if belowKey ∧ token = .item then return .list listTag (← readItems fuel true)
      else if inBlock ∧ token = .blockList then
        skip
        return .list listTag (← readItems fuel false)
      else if inBlock ∧ token = .blockMapping then
        skip
        return .mapping mappingTag (← readEntries fuel)
      else if mayBeEmpty then
        return .scalar (scalarTag tag? true []) []
      else fail

/-- A node, or an empty scalar if one of some tokens is next. -/
def readNodeUnless : (fuel : Nat) → (inBlock belowKey : Bool) → (ends : List Token) → Compose Nat
  | 0, _, _, _ => fail
  | fuel + 1, inBlock, belowKey, ends => do
    if ← nextIsOneOf ends then add Node.empty else readNode fuel inBlock belowKey

/-- The value behind a colon, or an empty scalar if there is no colon. -/
def readValue : (fuel : Nat) → (inBlock : Bool) → (ends : List Token) → Compose Nat
  | 0, _, _ => fail
  | fuel + 1, inBlock, ends => do
    if ← skipIf .value then readNodeUnless fuel inBlock inBlock ends else add Node.empty

/-- The items of a list in a block. A list at the column of its mapping has no end of its own. -/
def readItems : (fuel : Nat) → (belowKey : Bool) → Compose (List Nat)
  | 0, _ => fail
  | fuel + 1, belowKey => do
    if ← skipIf .item then
      let ends :=
        if belowKey then [.item, .key, .value, .blockEnd] else [.item, .blockEnd]
      let item ← readNodeUnless fuel true false ends
      return item :: (← readItems fuel belowKey)
    else
      if !belowKey then expect .blockEnd
      return []

def readEntries : (fuel : Nat) → Compose (List (Nat × Nat))
  | 0 => fail
  | fuel + 1 => do
    if ← skipIf .key then
      let ends := [.key, .value, .blockEnd]
      let key ← readNodeUnless fuel true true ends
      let value ← readValue fuel true ends
      return (key, value) :: (← readEntries fuel)
    else
      expect .blockEnd
      return []

/-- An item inside brackets; a key and a value form a mapping of one entry. -/
def readFlowItem : (fuel : Nat) → Compose Nat
  | 0 => fail
  | fuel + 1 => do
    if ← skipIf .key then
      let key ← nested (readNodeUnless fuel false false [.value, .comma, .closeList])
      let value ← nested (readValue fuel false [.comma, .closeList])
      add (.mapping .mapping [(key, value)])
    else readNode fuel false false

/-- The items behind the first one, up to the bracket. A comma may stand before the bracket. -/
def readFlowItems : (fuel : Nat) → Compose (List Nat)
  | 0 => fail
  | fuel + 1 => do
    if ← skipIf .closeList then return []
    expect .comma
    if ← skipIf .closeList then return []
    return (← readFlowItem fuel) :: (← readFlowItems fuel)

/-- An entry inside braces; without a key indicator the value is missing. -/
def readFlowEntry : (fuel : Nat) → Compose (Nat × Nat)
  | 0 => fail
  | fuel + 1 => do
    if ← skipIf .key then
      let key ← readNodeUnless fuel false false [.value, .comma, .closeMapping]
      return (key, ← readValue fuel false [.comma, .closeMapping])
    else
      let key ← readNode fuel false false
      return (key, ← add Node.empty)

/-- The entries behind the first one, up to the brace. -/
def readFlowEntries : (fuel : Nat) → Compose (List (Nat × Nat))
  | 0 => fail
  | fuel + 1 => do
    if ← skipIf .closeMapping then return []
    expect .comma
    if ← skipIf .closeMapping then return []
    return (← readFlowEntry fuel) :: (← readFlowEntries fuel)

end

/-- The handles that need no directive. -/
def standardHandles : List (Text × Text) := [(['!'], ['!']), (['!', '!'], Tag.standardStart)]

/-- The directives in front of a document: at most one version, and each handle once. -/
def readDirectives : (fuel : Nat) → (hasVersion : Bool) → (handles : List (Text × Text)) →
    Compose (List (Text × Text))
  | 0, _, _ => fail
  | fuel + 1, hasVersion, handles => do
    match ← peek with
    | .directive (.version major) =>
      skip
      if hasVersion ∨ major ≠ 1 then fail
      readDirectives fuel true handles
    | .directive (.handle name start) =>
      skip
      if handles.any (·.1 = name) then fail
      readDirectives fuel hasVersion (handles ++ [(name, start)])
    | .directive .other =>
      skip
      readDirectives fuel hasVersion handles
    | _ => return handles ++ standardHandles

/-- A document that is marked as one: directives, the mark, and its node, which may be missing. -/
def readMarkedDocument (fuel : Nat) : Compose Nat := do
  let handles ← readDirectives fuel false []
  modify fun c => { c with handles }
  expect .documentStart
  match ← peek with
  | .directive _ | .documentStart | .documentEnd | .streamEnd => add Node.empty
  | _ => readNode fuel true false

def skipDocumentEnds : (fuel : Nat) → Compose Unit
  | 0 => return
  | fuel + 1 => do
    if ← skipIf .documentEnd then skipDocumentEnds fuel

/-- The outermost node of the one document of a stream, if it has any. Of a second document no more
than the directives are read. -/
def readStream (fuel : Nat) : Compose (Option Nat) := do
  let root? ← match ← peek with
    | .streamEnd => pure none
    | .directive _ | .documentStart => some <$> readMarkedDocument fuel
    | _ =>
      modify fun c => { c with handles := standardHandles }
      some <$> readNode fuel true false
  skipDocumentEnds fuel
  if !(← skipIf .streamEnd) then
    discard (readDirectives fuel false [])
    fail
  return root?

/-- The document of a stream of tokens. Between two tokens at most four calls nest. -/
def ofTokens (tokens : List Token) : Except Error (Option Document) := do
  let (root?, c) ← (readStream (4 * tokens.length + 4)).run { tokens }
  return root?.map fun root => ⟨c.nodes, root⟩

end Document

end IoSource.Yaml
