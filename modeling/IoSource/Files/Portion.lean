import IoSource.Files.Utf8
import IoSource.Text.Line

/-!
# Reading in portions

A text file is read in portions of some length, for which its bytes are taken in chunks. A character
may be cut off by the end of a chunk, and so may a line end of two characters; both wait for the
next chunk. What is no text in a chunk fails the portion that the chunk is taken for, and its place
is counted from the start of the chunk.
-/

namespace IoSource

/-- How far a file has been read. -/
structure Reading where
  /-- The bytes that are left. -/
  rest : Utf8.Bytes
  /-- The start of a character, the other bytes of which are left. -/
  cutOff : Utf8.Bytes := []
  /-- Whether a carriage return waits for the line feed that may follow it. -/
  atReturn : Bool := false
  /-- The bytes for each character of the last chunk. -/
  density : Float := 1.0
  /-- The characters of the last chunk that are in no portion so far. -/
  ready : Text := []

namespace Reading

/-- The least number of bytes in a chunk, if there are as many. -/
def minChunk : Nat := 8192

def chunkSize (density : Float) (characters : Nat) : Nat :=
  let expected := (if density < 1.0 then 1.0 else density) * Float.ofNat characters
  max minChunk expected.floor.toUInt64.toNat

/-- Whether bytes are the start of half a character. That this is malformed is clear from its second
byte on, but the third is waited for. -/
def isStartOfHalf : Utf8.Bytes → Bool
  | [b, c] => b = 0xED && 0xA0 ≤ c && c ≤ 0xBF
  | _ => false

/-- The characters of a chunk, and the start of one that the end of the chunk cuts off. Nothing is
cut off by the end of the file. -/
def decodeChunk (isLast : Bool) (chunk : Utf8.Bytes) : Except Utf8.Malformed (Text × Utf8.Bytes) :=
  match Utf8.decode chunk with
  | .ok t => .ok (t, [])
  | .error m =>
    let behind := chunk.drop m.start
    if (m.reason = .truncated || isStartOfHalf behind) && !isLast then
      return (← Utf8.decode (chunk.take m.start), behind)
    else .error m

/-- Take a chunk, in which some characters are wanted; what is wrong with it is a message. -/
def takeChunk (r : Reading) (wanted : Nat) : Except Text Reading := do
  let chunk := r.rest.take (chunkSize r.density wanted)
  let bytes := r.cutOff ++ chunk
  let isLast := chunk.isEmpty
  let (decoded, cutOff) ← (decodeChunk isLast bytes).mapError (·.message bytes)
  let waits := r.atReturn && decoded.isEmpty && !isLast
  let t := if r.atReturn && !waits then '\r' :: decoded else decoded
  let endsInReturn := !isLast && t.getLast? = some '\r'
  let ready := Text.unixLineEnds (if endsInReturn then t.dropLast else t)
  let density :=
    if ready.isEmpty then 0.0 else Float.ofNat chunk.length / Float.ofNat ready.length
  return ⟨r.rest.drop chunk.length, cutOff, waits || endsInReturn, density, ready⟩

/-- Take the next portion, of some length unless the file ends before. -/
def takePortion : (fuel : Nat) → (wanted : Nat) → Reading → Except Text (Text × Reading)
  | 0, _, r => .ok ([], r)
  | fuel + 1, wanted, r => do
    let portion := r.ready.take wanted
    let r := { r with ready := r.ready.drop wanted }
    let missing := wanted - portion.length
    if missing = 0 then return (portion, r)
    let next ← r.takeChunk missing
    if r.rest.isEmpty && next.ready.isEmpty then return (portion, next)
    let (further, next) ← takePortion fuel missing next
    return (portion ++ further, next)

def portion (r : Reading) (length : Nat) : Except Text (Text × Reading) :=
  r.takePortion (r.rest.length + 3) length

end Reading

end IoSource
