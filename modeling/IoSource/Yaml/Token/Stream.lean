import IoSource.Yaml.Token.Block
import IoSource.Yaml.Token.Name
import IoSource.Yaml.Token.Plain

/-!
# The tokens of a document

Indentation opens and closes blocks, and a key is known to be one only when the colon behind it is
met. So a token that may turn out to start a key is remembered, one for each level of brackets; when
the colon comes, the key and the block that it may open are put in front of that token. A key ends
on the line it starts on.
-/

namespace IoSource.Yaml

/-- A place where a key may start. It is required if nothing else could start there. -/
structure KeyPlace where
  /-- The number of tokens in front. -/
  tokens : Nat
  required : Bool
  spot : Spot
  deriving DecidableEq, Repr

def maxKeyLength : Nat := 1024

/-- What has been read: the tokens, last first, and their number; the columns of the open blocks,
innermost first; and the places where keys may start, here and outside the brackets that are
open. -/
structure Stream where
  tokens : List Token := []
  count : Nat := 0
  indent : Int := -1
  outerIndents : List Int := []
  mayStartKey : Bool := true
  keyPlace : Option KeyPlace := none
  outerKeyPlaces : List (Option KeyPlace) := []
  deriving DecidableEq, Repr

namespace Stream

def inFlow (st : Stream) : Bool := !st.outerKeyPlaces.isEmpty

def push (st : Stream) (t : Token) : Stream :=
  { st with tokens := t :: st.tokens, count := st.count + 1 }

def insert (st : Stream) (after : Nat) (t : Token) : Stream :=
  let behind := st.count - after
  { st with
    tokens := st.tokens.take behind ++ t :: st.tokens.drop behind
    count := st.count + 1 }

def giveUp : Option KeyPlace → Except Error (Option KeyPlace)
  | some place => if place.required then .error .malformed else .ok none
  | none => .ok none

def dropKeyPlace (st : Stream) : Except Error Stream := do
  return { st with keyPlace := ← giveUp st.keyPlace }

/-- Give up a place that is on another line or too far back. -/
def giveUpStale (here : Spot) (place? : Option KeyPlace) : Except Error (Option KeyPlace) :=
  match place? with
  | some place =>
    if place.spot.line ≠ here.line ∨ maxKeyLength < here.index - place.spot.index then giveUp place?
    else .ok place?
  | none => .ok none

def dropStale (here : Spot) (st : Stream) : Except Error Stream := do
  return { st with
    keyPlace := ← giveUpStale here st.keyPlace
    outerKeyPlaces := ← st.outerKeyPlaces.mapM (giveUpStale here) }

/-- Remember that a key may start here. -/
def noteKeyPlace (here : Spot) (st : Stream) : Except Error Stream := do
  if !st.mayStartKey then return st
  let st ← st.dropKeyPlace
  let required := !st.inFlow && st.indent = here.column
  return { st with keyPlace := some ⟨st.count, required, here⟩ }

/-- Close the blocks that are indented more than a column; `outerIndents` are those of the blocks
around. -/
def closeBlocks (column : Int) (st : Stream) : (outerIndents : List Int) → Stream
  | [] => { st with outerIndents := [] }
  | outer :: further =>
    if column < st.indent then
      closeBlocks column { st.push .blockEnd with indent := outer } further
    else { st with outerIndents := outer :: further }

/-- Indentation has no meaning inside brackets. -/
def unindent (column : Int) (st : Stream) : Stream :=
  if st.inFlow then st else st.closeBlocks column st.outerIndents

/-- Open a block at a column, unless the innermost block is indented as much. The token goes behind
the first `after` tokens. -/
def openBlock (column after : Nat) (t : Token) (st : Stream) : Stream :=
  if st.indent < column then
    { st.insert after t with indent := column, outerIndents := st.indent :: st.outerIndents }
  else st

/-- Open a block at a place outside brackets where one may start. -/
def startBlock (here : Spot) (t : Token) (st : Stream) : Except Error Stream :=
  if st.inFlow then .ok st
  else if st.mayStartKey then .ok (st.openBlock here.column st.count t)
  else .error .malformed

/-- A directive or a mark between documents ends all blocks. -/
def endBlocks (st : Stream) : Except Error Stream := do
  return { ← (st.unindent (-1)).dropKeyPlace with mayStartKey := false }

/-- The greatest number of open brackets. They are more than nodes can nest and a key can start
with, so whoever reads the tokens in front of one bracket more has given up before it. -/
def maxOpen : Nat := 2000

def openFlow (here : Spot) (t : Token) (st : Stream) : Except Error Stream := do
  if maxOpen ≤ st.outerKeyPlaces.length then throw .tooDeep
  let st ← st.noteKeyPlace here
  return { st.push t with
    mayStartKey := true
    keyPlace := none
    outerKeyPlaces := st.keyPlace :: st.outerKeyPlaces }

/-- A closing bracket that nothing opened is an error. -/
def closeFlow (t : Token) (st : Stream) : Except Error Stream := do
  let st ← st.dropKeyPlace
  match st.outerKeyPlaces with
  | [] => throw .malformed
  | keyPlace :: outerKeyPlaces =>
    return { st.push t with mayStartKey := false, keyPlace, outerKeyPlaces }

def comma (st : Stream) : Except Error Stream := do
  return { (← st.dropKeyPlace).push .comma with mayStartKey := true }

def item (here : Spot) (st : Stream) : Except Error Stream := do
  let st ← (← st.startBlock here .blockList).dropKeyPlace
  return { st.push .item with mayStartKey := true }

def explicitKey (here : Spot) (st : Stream) : Except Error Stream := do
  let st ← (← st.startBlock here .blockMapping).dropKeyPlace
  return { st.push .key with mayStartKey := !st.inFlow }

/-- The colon: what has been remembered as a possible key is one. -/
def value (here : Spot) (st : Stream) : Except Error Stream := do
  match st.keyPlace with
  | some place =>
    let st := { st.insert place.tokens .key with keyPlace := none, mayStartKey := false }
    let st := if st.inFlow then st else st.openBlock place.spot.column place.tokens .blockMapping
    return st.push .value
  | none =>
    let st ← st.startBlock here .blockMapping
    return { st.push .value with mayStartKey := !st.inFlow }

/-- Something that may start a key, or be one, which is about to be read. -/
def startNode (here : Spot) (st : Stream) : Except Error Stream := do
  return { ← st.noteKeyPlace here with mayStartKey := false }

/-- Skip to the next token, over spaces, comments and breaks. Behind a break outside brackets a key
may start. -/
def toToken (st : Stream) : (inComment : Bool) → Spots → Stream × Spots
  | _, [] => (st, [])
  | inComment, spot :: rest =>
    if isBreak spot.char then
      toToken (if st.inFlow then st else { st with mayStartKey := true }) false rest
    else if spot.char = endMark then (st, spot :: rest)
    else if inComment || spot.char = '#' then st.toToken true rest
    else if spot.char = ' ' then st.toToken false rest
    else (st, spot :: rest)

/-- Whether an indicator stands here that counts as one: always inside brackets, with a gap behind
it elsewhere. -/
def indicates (st : Stream) (c : Char) (s : Spots) : Bool :=
  Spots.charAt s 0 = c && (st.inFlow || isGap (Spots.charAt s 1))

/-- The characters that no plain scalar starts with. -/
def isIndicator (c : Char) : Bool := "-?:,[]\x7b\x7d#&*!|>'\"%@\x60".toList.contains c

/-- Whether a plain scalar starts here. A dash and, outside brackets, a question mark or a colon
start one if no gap follows. -/
def startsPlain (st : Stream) (s : Spots) : Bool :=
  let c := Spots.charAt s 0
  !(isGap c || isIndicator c) ||
    (!isGap (Spots.charAt s 1) && (c = '-' || !st.inFlow && (c = '?' || c = ':')))

/-- A scalar, of which the first spot has not been read. -/
def readScalar (st : Stream) (s : Spots) : Except Error (Stream × Spots) := do
  let here := Spots.here s
  let c := Spots.charAt s 0
  if (c = '|' ∨ c = '>') ∧ !st.inFlow then
    let st ← st.dropKeyPlace
    let (text, s) ← readBlock (c = '>') st.indent (s.drop 1)
    return ({ st.push (.scalar (.ofText text) false) with mayStartKey := true }, s)
  else if c = '\'' ∨ c = '"' then
    let st ← st.startNode here
    let (text, s) ← readQuoted c s.length (s.drop 1)
    return (st.push (.scalar text false), s)
  else if st.startsPlain s then
    let st ← st.startNode here
    let (text, broken, s) := readPlain st.inFlow (st.indent + 1) s.length s
    return ({ st.push (.scalar (.ofText text) true) with mayStartKey := broken }, s)
  else throw .malformed

def readToken (st : Stream) (s : Spots) : Except Error (Stream × Spots) := do
  let here := Spots.here s
  let c := here.char
  let next := s.drop 1
  if c = '%' ∧ here.column = 0 then
    let st ← st.endBlocks
    let (directive, rest) ← readDirective s
    return (st.push (.directive directive), rest)
  else if here.column = 0 ∧ Spots.marks s '-' then
    return ((← st.endBlocks).push .documentStart, s.drop 3)
  else if here.column = 0 ∧ Spots.marks s '.' then
    return ((← st.endBlocks).push .documentEnd, s.drop 3)
  else if c = '[' then return (← st.openFlow here .openList, next)
  else if c = '\x7b' then return (← st.openFlow here .openMapping, next)
  else if c = ']' then return (← st.closeFlow .closeList, next)
  else if c = '\x7d' then return (← st.closeFlow .closeMapping, next)
  else if c = ',' then return (← st.comma, next)
  else if c = '-' ∧ isGap (Spots.charAt s 1) then return (← st.item here, next)
  else if st.indicates '?' s then return (← st.explicitKey here, next)
  else if st.indicates ':' s then return (← st.value here, next)
  else if c = '*' then
    let st ← st.startNode here
    let (name, rest) ← readName s
    return (st.push (.reference name), rest)
  else if c = '&' then
    let st ← st.startNode here
    let (name, rest) ← readName s
    return (st.push (.anchor name), rest)
  else if c = '!' then
    let st ← st.startNode here
    let (tag, rest) ← readTag s
    return (st.push tag, rest)
  else st.readScalar s

/-- Read up to the next token and past it. There are no further spots behind the end, unless the
document does not really end there. -/
def step (isCutOff : Bool) (st : Stream) (s : Spots) :
    Except Error (Stream × Option Spots) := do
  let (st, s) := st.toToken false s
  if isCutOff && Spots.isAtEnd s then throw .unfinished
  let st := (← st.dropStale (Spots.here s)).unindent (Spots.column s)
  if Spots.isAtEnd s then
    let st ← (st.unindent (-1)).dropKeyPlace
    return (st.push .streamEnd, none)
  else
    let (st, s) ← st.readToken s
    if isCutOff && Spots.isAtEnd s then throw .unfinished
    return (st, some s)

/-- The tokens that a colon can put nothing in front of any more. -/
def settled (st : Stream) : List Token :=
  let places := (st.keyPlace :: st.outerKeyPlaces).filterMap (·.map KeyPlace.tokens)
  st.tokens.reverse.take (places.foldl min st.count)

/-- All tokens from here on, of which there are at most as many as there are spots. Where reading
fails the tokens are no more than those that are settled. -/
def readAll (fault? : Option Error) : (fuel : Nat) → Stream → Spots → List Token
  | 0, st, _ => st.tokens.reverse
  | fuel + 1, st, s =>
    let failed (st : Stream) (e : Error) : List Token :=
      st.settled ++ [.fault (if e = .unfinished then fault?.getD e else e)]
    match st.dropStale (Spots.here s) with
    | .error e => failed st e
    | .ok st =>
      match st.step fault?.isSome s with
      | .error e => failed st e
      | .ok (st, none) => st.tokens.reverse
      | .ok (st, some s) => readAll fault? fuel st s

end Stream

/-- The tokens of a source. -/
def tokensOf (source : Source) : List Token :=
  let s := spotsOf source
  Stream.readAll source.fault? (s.length + 1) {} s

end IoSource.Yaml
