import IoSource.Report
import IoSource.Proofs.Files.Utf8
import IoSource.Proofs.NormalForm.LineEnds

/-!
# Reading a stored text

What a tool reads from a file that holds a text in UTF-8 is that text, but for its line ends, and
cleaned up if the options say so (`readSource_encode`).  None of this shows in the one-line form, so
it is the same whether a fragment is given as a text or as a file (`normalize_stored`).
-/

namespace IoSource

/-- Only the line ends of a text change on its way through a file. -/
theorem sourceText_encode (t : Text) : sourceText (Utf8.encode t) = t.unixLineEnds := by
  rw [sourceText, Utf8.decodeLossy_encode]

theorem readSource_encode [Platform] {tree : FileTree} {path : Path} {names : List Text} {t : Text}
    (h : tree.status path = .file names (Utf8.encode t)) (task : Text)
    (options : ProcessingOptions) :
    readSource tree task path options =
      .ok (if options.stripWhitespace.holds then t.unixLineEnds.cleanUp else t.unixLineEnds) := by
  rw [readSource, h]
  simp only [sourceText_encode]

/-- **How a text is stored does not show.**  Its line ends and trailing white space do not change
its one-line form, so a file that holds it gives the same line and statements as the text. -/
theorem normalize_stored [Platform] (t : Text) :
    Text.normalize t.unixLineEnds = Text.normalize t ∧
      Text.normalize t.cleanUp = Text.normalize t ∧
      ∀ (tree : FileTree) (path : Path) (names : List Text) (options : ProcessingOptions),
        tree.status path = .file names (Utf8.encode t) →
          Normalization.ofFile tree path options =
            .ok { Normalization.ofText t none with source? := some path } := by
  refine ⟨Text.normalize_unixLineEnds t, Text.normalize_cleanUp t, ?_⟩
  intro tree path names options hfile
  have hsame : ∀ source : Text, Text.normalize source = Text.normalize t →
      Normalization.ofText source (some path) =
        { Normalization.ofText t none with source? := some path } := by
    intro source hsource
    simp only [Normalization.ofText, hsource]
  rw [Normalization.ofFile, readSource_encode hfile]
  split
  · refine congrArg Except.ok (hsame _ ?_)
    rw [Text.normalize_cleanUp, Text.normalize_unixLineEnds]
  · exact congrArg Except.ok (hsame _ (Text.normalize_unixLineEnds t))

open Platform.Usual in
/-- A comment parts a return from the line feed behind it, and the file is cleaned up. -/
theorem normalize_stored_returns :
    (⟨[], [([['a']], .file (Utf8.encode ['x', '\r', '#', '\n', 'é', ' ']))]⟩ : FileTree).status
        ⟨[], [['a']]⟩ = .file [['a']] (Utf8.encode ['x', '\r', '#', '\n', 'é', ' ']) ∧
      Normalization.ofFile ⟨[], [([['a']], .file (Utf8.encode ['x', '\r', '#', '\n', 'é', ' ']))]⟩
          ⟨[], [['a']]⟩ ⟨.int 8, .bool true⟩ =
        .ok ⟨some ⟨[], [['a']]⟩, ['x', ';', ' ', 'é'], [['x'], ['é']]⟩ := by
  have hfile :
      (⟨[], [([['a']], .file (Utf8.encode ['x', '\r', '#', '\n', 'é', ' ']))]⟩ : FileTree).status
        ⟨[], [['a']]⟩ = .file [['a']] (Utf8.encode ['x', '\r', '#', '\n', 'é', ' ']) := by decide
  refine ⟨hfile, ?_⟩
  rw [(normalize_stored ['x', '\r', '#', '\n', 'é', ' ']).2.2 _ _ _ ⟨.int 8, .bool true⟩ hfile]
  refine congrArg Except.ok ?_
  decide

end IoSource
