import IoSource.Files.Portion
import IoSource.Yaml.Spot

/-!
# The source of a document

A file is read in portions as far as the document needs them. The first two are read before the
document is begun, so that what is wrong with them comes first; what is wrong with a later portion
is met only if reading gets that far.
-/

namespace IoSource.Yaml.Source

def portionLength : Nat := 4096

/-- A portion of a file, unless it holds other characters than a document may hold. -/
def checked (t : Text) : Except Error Text := if t.all isAllowed then .ok t else .error .malformed

def later : (fuel : Nat) → Reading → Source
  | 0, _ => { text := [] }
  | fuel + 1, r =>
    let next : Except Error (Text × Reading) := do
      let (t, r) ← (r.portion portionLength).mapError .encoding
      return (← checked t, r)
    match next with
    | .error e => { text := [], fault? := some e }
    | .ok ([], _) => { text := [] }
    | .ok (t, r) =>
      let source := later fuel r
      { source with text := t ++ source.text }

/-- The portions that are read before the document is begun. -/
def first (r : Reading) : Except Error (Text × Reading) := do
  let (s, r) ← (r.portion portionLength).mapError .encoding
  let (t, r) ← (r.portion portionLength).mapError .encoding
  return (← checked (s ++ t), r)

def ofBytes (content : Utf8.Bytes) : Source :=
  match first { rest := content } with
  | .error e => { text := [], fault? := some e }
  | .ok (t, r) =>
    let source := later (content.length + 1) r
    { source with text := t ++ source.text }

end IoSource.Yaml.Source
