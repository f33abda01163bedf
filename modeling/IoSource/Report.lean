import IoSource.Cleanup
import IoSource.Files.Tree
import IoSource.Highlight.Span
import IoSource.Indent.Estimate
import IoSource.NormalForm
import IoSource.Text.Line

/-!
# Reports on source files

A report is what one of the tools finds in a file. Files are read leniently: malformed bytes become
replacement characters, and every line end a line feed. Each report shows itself as a record.
-/

namespace IoSource

/-- Why there is no report. -/
inductive ReportError
  | notFound (path : Path)
  | notAFile (path : Path)
  /-- The tool gave up on a file; `task` names what it was doing. -/
  | failed (task : Text) (cause : FileError)
  | badTabWidth (error : EditError)

namespace ReportError

def message : ReportError → Text
  | notFound path => "Source file not found: ".toList ++ path.text
  | notAFile path => "Source path is not a file: ".toList ++ path.text
  | failed task cause => task ++ " failed: ".toList ++ cause.message
  | badTabWidth error => error.message

end ReportError

/-- How files are processed; if `stripWhitespace` holds they are cleaned up first. Neither value has
been checked. -/
structure ProcessingOptions where
  tabWidth : Value := .int defaultTabWidth
  stripWhitespace : Value := .bool false

/-- The text of bytes, read leniently. -/
def sourceText (content : Utf8.Bytes) : Text := (Utf8.decodeLossy content).unixLineEnds

variable [Platform]

def readSource (tree : FileTree) (task : Text) (path : Path) (options : ProcessingOptions) :
    Except ReportError Text :=
  match tree.status path with
  | .file _ content =>
    let source := sourceText content
    .ok (if options.stripWhitespace.holds then source.cleanUp else source)
  | .directory => .error (.notAFile path)
  | .missing => .error (.notFound path)
  | .nameTooLong => .error (.failed task (.nameTooLong path))
  | .unreadable cause | .denied cause => .error (.failed task (.refused cause path))

/-- A field of a record. -/
def field (name : String) (value : Value) : Text × Value := (name.toList, value)

/-! ### The one-line form of a source -/

structure Normalization where
  source? : Option Path
  normalized : Text
  statements : List Text
  deriving DecidableEq, Repr

namespace Normalization

def ofText (text : Text) (source? : Option Path) : Normalization :=
  let normalized := text.normalize
  ⟨source?, normalized, normalized.statements⟩

/-- The time that normalizing took is always shown as zero. -/
def toValue (n : Normalization) : Value :=
  .record [
    field "source_path" (match n.source? with
      | some path => .text path.text
      | none => .null),
    field "normalized" (.text n.normalized),
    field "statements" (.list (n.statements.map .text)),
    field "statement_count" (.int n.statements.length),
    field "execution_time_seconds" (.float 0.0)]

def ofFile (tree : FileTree) (path : Path) (options : ProcessingOptions) :
    Except ReportError Normalization := do
  return ofText (← readSource tree "Normalization".toList path options) (some path)

end Normalization

/-! ### The indentation of every line -/

structure LineIndent where
  number : Nat
  current : Nat
  estimated : Nat
  text : Text
  deriving DecidableEq, Repr

namespace LineIndent

def isChanged (line : LineIndent) : Bool := line.current ≠ line.estimated

def toValue (line : LineIndent) : Value :=
  .record [
    field "line_number" (.int line.number),
    field "current" (.int line.current),
    field "estimated" (.int line.estimated),
    field "text" (.text line.text)]

end LineIndent

structure IndentReport where
  source : Path
  tabWidth : Nat
  lines : List LineIndent
  deriving DecidableEq, Repr

namespace IndentReport

/-- The entry of one line of a buffer, estimated from the lines before it. -/
def lineIndent (tabWidth : Nat) (lines : List Text) (index : Nat) (line : Text) :
    Except EditError LineIndent := do
  let estimated ← estimateIndent (.upTo (.buffer lines) index) line (.int tabWidth)
  return ⟨index + 1, line.indentation tabWidth, estimated, line⟩

def ofLines (tabWidth : Nat) (lines : List Text) : Except EditError (List LineIndent) :=
  lines.zipIdx.mapM fun (line, index) => lineIndent tabWidth lines index line

def ofFile (tree : FileTree) (path : Path) (options : ProcessingOptions) :
    Except ReportError IndentReport := do
  let tabWidth ← (checkTabWidth options.tabWidth).mapError .badTabWidth
  let text ← readSource tree "Indentation estimate".toList path options
  return ⟨path, tabWidth, ← (ofLines tabWidth text.lines).mapError .badTabWidth⟩

/-- The record of a report, of which only some lines may be listed; the summary is of all lines. -/
def toValueListing (report : IndentReport) (listed : List LineIndent) : Value :=
  .record [
    field "source_path" (.text report.source.text),
    field "tab_width" (.int report.tabWidth),
    field "lines" (.list (listed.map LineIndent.toValue)),
    field "summary" (.record [
      field "total_lines" (.int report.lines.length),
      field "lines_changed" (.int (report.lines.filter LineIndent.isChanged).length)])]

def toValue (report : IndentReport) : Value := report.toValueListing report.lines

end IndentReport

/-! ### Highlighted spans -/

def Span.toValue (span : Span) : Value :=
  .record [
    field "start" (.int span.start),
    field "end" (.int span.stop),
    field "text" (.text span.text),
    field "category" (.text span.category.label.toList)]

structure HighlightReport where
  source : Path
  spans : List Span
  deriving DecidableEq, Repr

namespace HighlightReport

def ofFile (tree : FileTree) (path : Path) (options : ProcessingOptions) :
    Except ReportError HighlightReport := do
  return ⟨path, highlight (← readSource tree "Highlighting".toList path options)⟩

/-- One more of a category, which is new at the end or counted already. -/
def count (counts : List (Category × Nat)) (category : Category) : List (Category × Nat) :=
  match counts with
  | [] => [(category, 1)]
  | (c, n) :: rest => if c = category then (c, n + 1) :: rest else (c, n) :: count rest category

/-- The number of spans of each category, in the order in which the categories first occur. -/
def counts (report : HighlightReport) : List (Category × Nat) :=
  report.spans.foldl (fun counts span => count counts span.category) []

/-- The record of a report, of which only some spans may be listed; the counts are of all spans. -/
def toValueListing (report : HighlightReport) (listed : List Span) : Value :=
  .record [
    field "source_path" (.text report.source.text),
    field "spans" (.list (listed.map Span.toValue)),
    field "category_counts" (.record (report.counts.map fun (category, n) =>
      field category.label (.int n)))]

def toValue (report : HighlightReport) : Value := report.toValueListing report.spans

end HighlightReport

def Continuation.toValue (c : Continuation) : Value :=
  .record [field "indent" (.int c.indent), field "prefix_text" (.text c.opening)]

def ProcessingOptions.toValue (options : ProcessingOptions) : Value :=
  .record [field "tab_width" options.tabWidth,
    field "strip_whitespace" options.stripWhitespace]

end IoSource
