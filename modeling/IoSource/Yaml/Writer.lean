import IoSource.Base64
import IoSource.Yaml.Anchor
import IoSource.Yaml.Error
import IoSource.Yaml.Tag
import IoSource.Yaml.Token.Quoted

/-!
# Writing YAML

A dictionary is written as a block, an entry a line, and an empty list or dictionary in brackets.
The items of a list stand at the column of the key they belong to. What stands in several places is
written in the first, behind its anchor. A text is written plain if it reads back as a text, in
single quotes if it can be, and in double quotes with escapes otherwise; all but ASCII is escaped.
Long texts are broken where a single space allows it.
-/

namespace IoSource.Yaml

/-- The column behind which a line is broken. -/
def bestWidth : Nat := 80

def newLine (indent : Nat) : Text := '\n' :: List.replicate indent ' '

/-! ### What a text allows -/

/-- Characters that need escapes: all but ASCII and the controls except the line feed. -/
def isSpecial (c : Char) : Bool := c ≠ '\n' && !(0x20 ≤ c.toNat && c.toNat ≤ 0x7E)

/-- Whether two characters stand next to each other somewhere. -/
def hasPair (c d : Char) : Text → Bool
  | [] => false
  | e :: rest => (e = c && rest.head? = some d) || hasPair c d rest

/-- Whether a colon with a gap behind it, or a comment, stands in a text. -/
def hasInnerIndicator : Text → Bool
  | [] => false
  | ':' :: [] | ':' :: ' ' :: _ | ' ' :: '#' :: _ => true
  | _ :: rest => hasInnerIndicator rest

/-- Whether a text starts like something else than a plain scalar. -/
def hasFirstIndicator (t : Text) : Bool :=
  match t with
  | [] => false
  | c :: rest =>
    "#,[]\x7b\x7d&*!|>'\"%@\x60".toList.contains c ||
      ((c = '?' || c = ':' || c = '-') && (rest = [] || rest.head? = some ' ')) ||
      "---".toList.isPrefixOf t || "...".toList.isPrefixOf t

/-- Whether a text can stand without quotes, whatever it would be read as. -/
def allowsPlain (t : Text) : Bool :=
  !(t.any isSpecial || t.contains '\n' || t.head? = some ' ' || t.getLast? = some ' ' ||
    hasFirstIndicator t || hasInnerIndicator t)

/-- Whether a text can stand in single quotes, between which nothing is escaped. -/
def allowsSingleQuotes (t : Text) : Bool :=
  !(t.any isSpecial || hasPair '\n' ' ' t || hasPair ' ' '\n' t)

/-! ### The styles -/

/-- The text of a scalar in which nothing is escaped but quotes are doubled, if `quoted`. It starts
in some column and goes on in the column `indent` where it is broken: at line feeds, and at single
spaces beyond the best width if `split`. -/
def foldedText (quoted split : Bool) (indent : Nat) : (column : Nat) → (before : Option Char) →
    Text → Text
  | _, _, [] => []
  | column, before, c :: rest =>
    if c = '\n' then
      let breaks := if before = some '\n' then ['\n'] else ['\n', '\n']
      if rest.head? = some '\n' then breaks ++ foldedText quoted split indent 0 (some c) rest
      else
        breaks ++ (List.replicate indent ' ' ++ foldedText quoted split indent indent (some c) rest)
    else if c = ' ' ∧ split ∧ bestWidth < column ∧ before.any (· ≠ ' ') ∧
        rest.head?.any (· ≠ ' ') then
      newLine indent ++ foldedText quoted split indent indent (some c) rest
    else if c = '\'' ∧ quoted then
      c :: c :: foldedText quoted split indent (column + 2) (some c) rest
    else c :: foldedText quoted split indent (column + 1) (some c) rest

/-- What a point is written as between double quotes, if not as itself. -/
def escape? (p : Point) : Option Text :=
  let hex (letter : Char) (width : Nat) : Text :=
    '\\' :: letter :: (Number.hexadecimal width p.code).map Char.toUpper
  if p.isOf fun c => !(c = '\n' ∨ c = '"' ∨ c = '\\' ∨ isSpecial c) then none
  else match escapes.find? fun e => p = .char e.2 ∧ e.1 ≠ '\t' with
    | some (letter, _) => some ['\\', letter]
    | none =>
      if p.code < 0x100 then some (hex 'x' 2)
      else if p.code < 0x10000 then some (hex 'u' 4)
      else some (hex 'U' 8)

/-- The text between double quotes. It may be broken behind an escape and before a space, with a
backslash at the end of the line and one before a space that would start the next. -/
def escapedText (split : Bool) (indent : Nat) :
    (column : Nat) → (isFirst behindEscape : Bool) → WideText → Text
  | _, _, _, [] => []
  | column, isFirst, behindEscape, p :: rest =>
    let mayBreak := split && !isFirst && !rest.isEmpty
    match escape? p with
    | some text =>
      let column := column + text.length
      if mayBreak && bestWidth < column - 1 then
        if rest.head? = some (.char ' ') then
          text ++ '\\' ::
            (newLine indent ++ '\\' :: escapedText split indent (indent + 1) false true rest)
        else text ++ '\\' :: (newLine indent ++ escapedText split indent indent false true rest)
      else text ++ escapedText split indent column false true rest
    | none =>
      let c := p.char?.getD ' '
      if mayBreak && (c = ' ' || behindEscape) && bestWidth < column then
        if c = ' ' then
          '\\' ::
            (newLine indent ++ '\\' :: c :: escapedText split indent (indent + 2) false false rest)
        else '\\' :: (newLine indent ++ c :: escapedText split indent (indent + 1) false false rest)
      else c :: escapedText split indent (column + 1) false false rest

/-- Where a scalar is written: in a column, below a block of some indentation. Only texts that are
no keys before a colon are broken. -/
structure Site where
  column : Nat
  indent : Nat
  split : Bool

def writeEscaped (site : Site) (w : WideText) : Text :=
  '"' :: (escapedText site.split site.indent (site.column + 1) true false w ++ ['"'])

/-- A text, which must not be read back as something else. -/
def writeText (site : Site) (w : WideText) : Text :=
  match w.text? with
  | none => writeEscaped site w
  | some t =>
    if Tag.ofPlain w = .text ∧ allowsPlain t then
      foldedText false site.split site.indent site.column none t
    else if allowsSingleQuotes t then
      '\'' :: (foldedText true site.split site.indent (site.column + 1) none t ++ ['\''])
    else writeEscaped site w

/-! ### Values -/

def specialFloats : Number.FloatNotation := ⟨".nan".toList, ".inf".toList, "-.inf".toList⟩

def writeFloat (x : Float) : Text :=
  let t := Number.floatText specialFloats x
  if t.contains 'e' ∧ !t.contains '.' then
    t.takeWhile (· ≠ 'e') ++ '.' :: '0' :: t.dropWhile (· ≠ 'e')
  else t

/-- Bytes, in lines below the mark for this. -/
def writeBytes (site : Site) : Utf8.Bytes → Text
  | [] => ['"', '"']
  | content =>
    let lines := (Text.cutAt '\n' (Base64.encodeLines content)).dropLast
    '|' :: lines.flatMap fun line => newLine site.indent ++ line

/-- The text of a datum in which nothing is nested, unless it is an integer of too many digits. -/
def writeScalar? (site : Site) : Datum → Option Text
  | .null => some "null".toList
  | .bool true => some "true".toList
  | .bool false => some "false".toList
  | .int i => Number.decimalInt? i
  | .float x => some (writeFloat x)
  | .nan => some specialFloats.nan
  | .text t => some (writeText site t)
  | .bytes content => some (writeBytes site content)
  | .date d => some d.text
  | .moment m => some (foldedText false site.split site.indent site.column none m.text)
  | .list _ | .pairs _ | .set _ | .dict _ => some []

/-- The tag that a datum needs to be read back. -/
def tagMark : Datum → Text
  | .set _ => " !!set".toList
  | .bytes _ => " !!binary".toList
  | _ => []

/-! ### Keys -/

/-- The length of the short form of a tag, which counts as part of a key. -/
def tagLength : Datum → Nat
  | .null | .bool _ => 6
  | .float _ | .nan => 7
  | .date _ | .moment _ => 11
  | _ => 5

def maxSimpleKey : Nat := 128

/-- Whether a key can stand before a colon; others get a line of their own and a question mark. -/
def isSimpleKey (key : Datum) : Bool :=
  match key with
  | .bytes _ => false
  | .text t =>
    t ≠ [] && !t.any (Point.isOf isBreak) && tagLength key + t.length < maxSimpleKey
  | key => (writeScalar? ⟨0, 0, false⟩ key).any fun t => tagLength key + t.length < maxSimpleKey

/-- A key, its colon or question mark, and the column behind them. `mark` is the anchor in front of
the key. -/
def writeKey? (indent : Nat) (mark : Text) (key : Datum) : Option (Text × Nat) := do
  if isSimpleKey key then
    let mark := if mark = [] then [] else mark.drop 1 ++ [' ']
    let t ← writeScalar? ⟨indent + mark.length, indent + 2, false⟩ key
    return (mark ++ t ++ [':'], indent + mark.length + t.length + 1)
  else
    let mark := mark ++ tagMark key
    let t ← writeScalar? ⟨indent + 2 + mark.length, indent + 2, true⟩ key
    return ('?' :: (mark ++ ' ' :: (t ++ (newLine indent ++ [':']))), indent + 1)

/-! ### Collections -/

/-- What is written, and what is known to have been written before. -/
abbrev Write := StateT (Array Bool) Option

/-- What stands in front of a datum: its anchor if it has one, or a reference to it if it has been
written before. -/
inductive Opening
  | anchor (mark : Text)
  | reference (mark : Text)

def opening (anchors : List Nat) (n : Nat) : Write Opening := do
  match anchors.findIdx? (· = n) with
  | none => return .anchor []
  | some place =>
    if (← get).getD n false then return .reference (' ' :: '*' :: anchorName place)
    else
      modify fun written => written.setIfInBounds n true
      return .anchor (' ' :: '&' :: anchorName place)

/-- What a datum stands behind: a simple key that ends in some column, the dash of an item, or the
colon on a line of its own. -/
inductive Before
  | key (column : Nat)
  | dash
  | colon

def Before.column (indent : Nat) : Before → Nat
  | key column => column
  | dash | colon => indent + 1

/-- Whether what is nested starts a new line behind a mark. -/
def Before.startsLine (mark : Text) : Before → Bool
  | key _ => true
  | dash | colon => mark ≠ []

/-- Whether the items of a list stay at the column of the key. -/
def Before.keepsColumn (mark : Text) : Before → Bool
  | key _ => true
  | dash => false
  | colon => mark ≠ []

/-- The start of what is nested, at some indentation. -/
def Before.start (before : Before) (mark : Text) (indent : Nat) : Text :=
  mark ++ if before.startsLine mark then newLine indent else [' ']

mutual

/-- A datum behind something in a block of some indentation. -/
def writeNode (s : Store) (anchors : List Nat) :
    (fuel : Nat) → (before : Before) → (indent n : Nat) → Write Text
  | 0, _, _, _ => failure
  | fuel + 1, before, indent, n => do
    match ← opening anchors n with
    | .reference mark => return mark
    | .anchor mark =>
      let datum := s.datum n
      let mark := mark ++ tagMark datum
      let column := if before.keepsColumn mark then indent else indent + 2
      match datum with
      | .list [] | .pairs [] => return mark ++ [' ', '[', ']']
      | .set [] | .dict [] => return mark ++ [' ', '\x7b', '\x7d']
      | .list items =>
        return before.start mark column ++ (← writeItems s anchors fuel column items)
      | .pairs items =>
        return before.start mark column ++ (← writePairs s anchors fuel column items)
      | .set elements =>
        let entries := elements.map fun n => (n, none)
        return before.start mark (indent + 2) ++
          (← writeEntries s anchors fuel (indent + 2) entries)
      | .dict entries =>
        let entries := entries.map fun (key, value) => (key, some value)
        return before.start mark (indent + 2) ++
          (← writeEntries s anchors fuel (indent + 2) entries)
      | datum =>
        let site := ⟨before.column indent + mark.length + 1, indent + 2, true⟩
        return mark ++ ' ' :: (← writeScalar? site datum)

/-- The items of a list; the first dash stands in the column `indent` already. -/
def writeItems (s : Store) (anchors : List Nat) :
    (fuel : Nat) → (indent : Nat) → (items : List Nat) → Write Text
  | _, _, [] => return []
  | 0, _, _ => failure
  | fuel + 1, indent, item :: items => do
    let first ← writeNode s anchors fuel .dash indent item
    let more ← writeItems s anchors (fuel + 1) indent items
    return '-' :: (first ++ if items.isEmpty then [] else newLine indent ++ more)

/-- The items of a list of pairs, which are lists of two items. -/
def writePairs (s : Store) (anchors : List Nat) :
    (fuel : Nat) → (indent : Nat) → (pairs : List (Nat × Nat)) → Write Text
  | _, _, [] => return []
  | 0, _, _ => failure
  | fuel + 1, indent, (m, n) :: pairs => do
    let first ← writeItems s anchors fuel (indent + 2) [m, n]
    let more ← writePairs s anchors (fuel + 1) indent pairs
    return '-' :: ' ' :: (first ++ if pairs.isEmpty then [] else newLine indent ++ more)

/-- The entries of a dictionary; the first key stands in the column `indent` already. The elements
of a set are keys without values. -/
def writeEntries (s : Store) (anchors : List Nat) :
    (fuel : Nat) → (indent : Nat) → (entries : List (Nat × Option Nat)) → Write Text
  | _, _, [] => return []
  | 0, _, _ => failure
  | fuel + 1, indent, (key, value?) :: entries => do
    let (front, before) ← match ← opening anchors key with
      | .reference mark =>
        let front := mark.drop 1 ++ [':']
        pure (front, Before.key (indent + front.length))
      | .anchor mark =>
        let (front, column) ← writeKey? indent mark (s.datum key)
        pure (front, if isSimpleKey (s.datum key) then Before.key column else Before.colon)
    let value ← match value? with
      | some value => writeNode s anchors fuel before indent value
      | none => pure " null".toList
    let more ← writeEntries s anchors (fuel + 1) indent entries
    return front ++ (value ++ if entries.isEmpty then [] else newLine indent ++ more)

end

/-- Why a dictionary is not written. -/
inductive WriteFault
  /-- An integer has too many digits. -/
  | tooManyDigits
  /-- Data nest too deeply. -/
  | tooDeep
  deriving DecidableEq, Repr

def WriteFault.message : WriteFault → Text
  | tooManyDigits => Number.tooManyDigits
  | tooDeep => depthExceeded

/-- The document of a dictionary. Between a collection and one inside it three calls nest at
most. -/
def write [Platform] (s : Store) (entries : List (Nat × Nat)) : Except WriteFault Text :=
  let found := s.surveyEntries entries
  if Platform.dataDepth < found.deepest then .error .tooDeep
  else
    let all := entries.map fun (key, value) => (key, some value)
    let text? := (writeEntries s found.again.reverse (3 * s.size + 3) 0 all).run'
      (Array.replicate s.size false)
    match entries, text? with
    | [], _ => .ok ['\x7b', '\x7d', '\n']
    | _, some t => .ok (t ++ ['\n'])
    | _, none => .error .tooManyDigits

end IoSource.Yaml
