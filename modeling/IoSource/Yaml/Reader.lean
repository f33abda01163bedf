import IoSource.Yaml.Node
import IoSource.Yaml.Scalar
import IoSource.Yaml.SetOrder

/-!
# Reading YAML

The data of a document: the datum of a node has the number of the node. Scalars are read where they
are met; collections are empty where they are met, and are filled one after the other, in the order
in which they were met. So of two errors the one that is less deep in the document comes first, and
a collection can be met inside itself.

Mappings become dictionaries: of entries with one key the last counts, at the place of the first.
Entries that are merged from elsewhere are put in front of the own ones, and become part of the
mapping, wherever else it stands.
-/

namespace IoSource.Yaml

/-- The nodes, which merging changes, the data of those that have been met, and the collections
that have been met, in order. -/
structure Building where
  nodes : Array Node
  data : Array (Option Datum)
  met : Array Nat := #[]

abbrev Build := StateT Building (Except Error)

namespace Build

def fail {α : Type} : Build α := throw .malformed

def node (n : Nat) : Build Node := do return (← get).nodes.getD n .empty

def setNode (n : Nat) (node : Node) : Build Unit :=
  modify fun b => { b with nodes := b.nodes.setIfInBounds n node }

def store : Build Store := do return (← get).data.map (·.getD .null)

def setDatum (n : Nat) (d : Datum) : Build Unit :=
  modify fun b => { b with data := b.data.setIfInBounds n (some d) }

/-! ### Scalars -/

/-- The text of a scalar. A mapping stands for what it has under the key that is marked for this. -/
def scalarText : (fuel : Nat) → (n : Nat) → Build WideText
  | 0, _ => throw .tooDeep
  | fuel + 1, n => do
    match ← node n with
    | .scalar _ t => return t
    | .list .. => fail
    | .mapping _ entries =>
      let isMarked (e : Nat × Nat) : Build Bool := do return (← node e.1).tag = .default
      match ← entries.findM? isMarked with
      | some (_, value) => scalarText fuel value
      | none => fail

def readScalar (n : Nat) : Build Datum := do
  if !Scalar.tags.contains (← node n).tag then fail
  let text ← scalarText ((← get).nodes.size + 1) n
  match ← node n with
  | .mapping .timestamp _ => throw .timestampOfMapping
  | node =>
    match Scalar.read node.tag text with
    | .ok d => return d
    | .error e => throw e

/-! ### Meeting nodes -/

/-- The empty collection of a tag, if it is one of a collection. -/
def emptyCollection? : Tag → Option Datum
  | .list => some (.list [])
  | .pairs => some (.pairs [])
  | .mapping => some (.dict [])
  | .set => some (.set [])
  | _ => none

/-- The datum of a node, which may have been met before. -/
def meet (n : Nat) : Build Datum := do
  match (← get).data.getD n none with
  | some d => return d
  | none =>
    match emptyCollection? (← node n).tag with
    | some d =>
      setDatum n d
      modify fun b => { b with met := b.met.push n }
      return d
    | none =>
      let d ← readScalar n
      setDatum n d
      return d

/-! ### Merging -/

/-- The first entry to be merged among some entries, and the others. -/
def takeMerge? : List (Nat × Nat) → Build (Option (Nat × List (Nat × Nat)))
  | [] => return none
  | (key, value) :: rest => do
    if (← node key).tag = .merge then return some (value, rest)
    else
      return (← takeMerge? rest).map fun (source, others) => (source, (key, value) :: others)

/-- A key that is marked as standing for its mapping is a text from now on. -/
def unmark (key : Nat) : Build Unit := do
  match ← node key with
  | .scalar .default t => setNode key (.scalar .text t)
  | .list .default items => setNode key (.list .text items)
  | .mapping .default entries => setNode key (.mapping .text entries)
  | _ => return

mutual

/-- Put the entries that a mapping takes from elsewhere in front of its own. Before anything is
taken, the entry that says from where is removed, so this ends even if a mapping takes entries from
itself. -/
def merge : (fuel : Nat) → (n : Nat) → Build Unit
  | 0, _ => return
  | fuel + 1, n => do
    if let .mapping tag entries ← node n then
      match ← takeMerge? entries with
      | none => entries.forM fun e => unmark e.1
      | some (source, others) =>
        setNode n (.mapping tag others)
        let taken ← entriesOf fuel source
        merge fuel n
        if let .mapping tag others ← node n then setNode n (.mapping tag (taken ++ others))

/-- The entries of a mapping, or of several of which the first counts most, so it comes last. -/
def entriesOf : (fuel : Nat) → (source : Nat) → Build (List (Nat × Nat))
  | 0, _ => return []
  | fuel + 1, source => do
    match ← node source with
    | .mapping .. => entriesOfMapping fuel source
    | .list _ sources => entriesOfAll fuel sources
    | .scalar .. => fail

def entriesOfMapping : (fuel : Nat) → (source : Nat) → Build (List (Nat × Nat))
  | 0, _ => return []
  | fuel + 1, source => do
    merge fuel source
    match ← node source with
    | .mapping _ entries => return entries
    | _ => fail

def entriesOfAll : (fuel : Nat) → (sources : List Nat) → Build (List (Nat × Nat))
  | _, [] => return []
  | 0, _ => return []
  | fuel + 1, source :: sources => do
    let first ← entriesOfMapping fuel source
    let later ← entriesOfAll (fuel + 1) sources
    return later ++ first

end

def mergeCount : Build Nat := do
  let nodes := (← get).nodes
  let isMerge (e : Nat × Nat) : Bool := (nodes.getD e.1 .empty).tag = .merge
  return nodes.foldl (fun count node =>
    match node with
    | .mapping _ entries => count + entries.countP isMerge
    | _ => count) 0

/-! ### Filling collections -/

/-- The keys and values of a mapping in order, the merged ones first. -/
def entriesFor (n : Nat) : Build (List (Nat × Nat)) := do
  merge (4 * (← mergeCount) + 4) n
  let .mapping _ entries ← node n | fail
  for (key, value) in entries do
    if !(← meet key).canBeKey then fail
    discard (meet value)
  return (← store).setEntries [] entries

def pairOf (n : Nat) : Build (Nat × Nat) := do
  match ← node n with
  | .mapping _ [(key, value)] =>
    discard (meet key)
    discard (meet value)
    return (key, value)
  | _ => fail

/-- Fill a collection that has been met. -/
def fill (n : Nat) : Build Unit := do
  match (← get).data.getD n none with
  | some (.list _) =>
    let .list _ items ← node n | fail
    items.forM fun item => discard (meet item)
    setDatum n (.list items)
  | some (.pairs _) =>
    let .list _ items ← node n | fail
    setDatum n (.pairs (← items.mapM pairOf))
  | some (.dict _) => setDatum n (.dict (← entriesFor n))
  | some (.set _) =>
    let entries ← entriesFor n
    setDatum n (.set ((← store).inSetOrder (entries.map Prod.fst)))
  | _ => return

/-- Fill the collections that have been met, from one on, and those that are met meanwhile. There
are at most as many as there are nodes. -/
def fillFrom : (fuel : Nat) → (place : Nat) → Build Unit
  | 0, _ => return
  | fuel + 1, place => do
    if let some n := (← get).met[place]? then
      fill n
      fillFrom fuel (place + 1)

end Build

/-- The data of a document. -/
def Document.store (d : Document) : Except Error Store := do
  let size := d.nodes.size
  let build : Build Store := do
    discard (Build.meet d.root)
    Build.fillFrom (size + 1) 0
    Build.store
  build.run' ⟨d.nodes, Array.replicate size none, #[]⟩

/-- The data of a source, and the number of the outermost; a source without a document says
nothing. -/
def read [Platform] (source : Source) : Except Error (Store × Nat) := do
  match ← Document.ofTokens (tokensOf source) with
  | some d => return (← d.store, d.root)
  | none => return (#[.null], 0)

end IoSource.Yaml
