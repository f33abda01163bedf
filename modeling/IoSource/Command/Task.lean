import IoSource.Command.Arguments
import IoSource.Configuration
import IoSource.Interpreter.Bridge
import IoSource.Json.Writer
import IoSource.Log
import IoSource.Report
import IoSource.Yaml.Writer

/-!
# What the commands do

A task prints, makes log entries and ends with an exit code. Only a cleanup changes a file, and it
says so in its outcome: a task sees the files but does not write them. What the platform refuses, be
it the reading or writing of the source or what is printed, is logged and ends the task with the exit
code for that. Three things are not seen to: a source that cannot even be looked for, a standard input
that is no text, and a configuration that is shown but not taken.
-/

namespace IoSource

/-- What ends a run otherwise than by an exit code. -/
inductive Failure
  | configuration (cause : ConfigurationError)
  | level (cause : LevelError)
  | file (cause : FileError)
  /-- The configuration cannot be shown. -/
  | output (cause : Yaml.WriteFault)
  /-- The standard input gives no text, or the standard output does not take the configuration. -/
  | stream (cause : StreamFault)

/-- What a task has printed and logged. -/
structure Output where
  stdout : Text := []
  entries : List LogEntry := []
  deriving DecidableEq, Repr

abbrev Task := ExceptT Failure (StateM Output)

/-- New content for a file, under the names that lead to it. -/
structure Change where
  names : List Text
  content : Utf8.Bytes
  deriving DecidableEq, Repr

/-- An exit code, and the one file that is changed, if any is. -/
structure Outcome where
  code : Nat
  change? : Option Change := none
  deriving DecidableEq, Repr

namespace Task
variable [Platform]

def print (t : Text) : Task (Option StreamFault) := do
  match Platform.outputFault? t with
  | some fault => return some fault
  | none =>
    modify fun o => { o with stdout := o.stdout ++ t }
    return none

def printLine (t : Text) : Task (Option StreamFault) := print (t ++ ['\n'])

def log (source : String) (severity : Severity) (message : Text) : Task Unit :=
  modify fun o => { o with entries := o.entries ++ [⟨source, severity, message, none⟩] }

/-- Log what has gone wrong and end with the exit code for that. -/
def fail (message : Text) : Task Outcome := do
  log "main" .error message
  return ⟨1, none⟩

/-- Log what has gone wrong unexpectedly, with the kind of its cause. -/
def failUnexpectedly (activity kind : String) (message : Text) : Task Outcome := do
  let entry : LogEntry := {
    source := "main"
    severity := .error
    message := activity.toList ++ " failed: ".toList ++ message
    cause? := some (kind.toList ++ ':' :: ' ' :: message) }
  modify fun o => { o with entries := o.entries ++ [entry] }
  return ⟨1, none⟩

/-! ### Results -/

/-- Why a result is not written. -/
inductive ResultError
  /-- The configuration of the output is no section. -/
  | notASection (typeName : Text)
  | write (cause : WriteError)
  deriving DecidableEq, Repr

namespace ResultError

def message : ResultError → Text
  | notASection name => ConfigurationError.noAttribute name "get"
  | write cause => cause.message

def kind : ResultError → String
  | notASection _ => "AttributeError"
  | write (.indentTooLarge .tooMany) => "OverflowError"
  | write (.indentTooLarge .noRoom) => "MemoryError"
  | write .tooManyDigits => "ValueError"
  | write .tooDeep => "RecursionError"
  | write _ => "TypeError"

end ResultError

/-- The writer that a configuration describes. -/
def writer (config : Configuration) : Except ResultError Writer := do
  let output ← (config.sectionAt "output").mapError .notASection
  return { prettyPrint := output.holds "pretty_print", indent := output.get "indent_size" (.int 2) }

def written (config : Configuration) (result : Value) : Except ResultError Text := do
  ((← writer config).write result).mapError .write

/-- Print a result; `activity` says what has failed if it cannot be written or is not taken. -/
def printResult (config : Configuration) (activity : String) (result : Value) : Task Outcome := do
  match written config result with
  | .error e => failUnexpectedly activity e.kind e.message
  | .ok t =>
    match ← printLine t with
    | some fault => failUnexpectedly activity fault.kind fault.message
    | none => return ⟨0, none⟩

/-! ### Sources -/

/-- The names and the bytes of a source, or why it cannot be read, or a log entry saying that there
is none. -/
def source? (tree : FileTree) (path : Path) :
    Task (Option (Except FileError (List Text × Utf8.Bytes))) := do
  match tree.status path with
  | .file names content => return some (.ok (names, content))
  | .unreadable cause => return some (.error (.refused cause path))
  | .directory =>
    log "main" .error (ReportError.message (.notAFile path))
    return none
  | .missing =>
    log "main" .error (ReportError.message (.notFound path))
    return none
  | .nameTooLong => throw (.file (.nameTooLong path))
  | .denied cause => throw (.file (.refused cause path))

/-- Print a report on a source, if there is one. -/
def printReport {α : Type} (activity : String) (path : Path) (report : Except ReportError α)
    (print : α → Task Outcome) : Task Outcome := do
  log "api" .debug ("Reading source file: ".toList ++ path.text)
  match report with
  | .ok report => print report
  | .error e => fail (activity.toList ++ " failed: ".toList ++ e.message)

/-! ### The commands -/

/-- End a sending, which has failed if what was sent is not taken. -/
def endSending (sent : Nat) : (fault? : Option StreamFault) → Task Outcome
  | some fault => failUnexpectedly "Normalization" fault.kind fault.message
  | none => do
    log "main" .info ("Payloads sent: ".toList ++ Number.decimal sent)
    return ⟨0, none⟩

/-- Write a text as one line of an interpreter's input. An empty one is not sent, so there is nothing
to be taken. -/
def send (text : Text) : Task Outcome := do
  let (result, session) :=
    (Bridge.sendBuffer (Sender.lines (ε := Empty)) Text.normalize text).run.run ⟨[], 0⟩
  if let .ok payload := result then log "repl.bridge" .debug (Bridge.note payload)
  if session.sent = 0 then endSending 0 none
  else endSending session.sent (← print session.receiver)

/-- The path that stands for the standard input. -/
def standardInput : Path := Path.ofText ['-']

/-- The text of the standard input, which is read strictly. -/
def inputText (input : Utf8.Bytes) : Except StreamFault Text :=
  match Platform.inputFault?, Utf8.decode input with
  | some fault, _ => .error fault
  | none, .error m => .error ⟨"UnicodeDecodeError", m.message input⟩
  | none, .ok text => .ok text.unixLineEnds

def normalize (tree : FileTree) (config : Configuration) (input : Utf8.Bytes) (path : Path)
    (json : Bool) : Task Outcome := do
  let finish (text : Text) (source? : Option Path) : Task Outcome :=
    if json then
      printResult config "Normalization" (Normalization.ofText text source?).toValue
    else send text
  if path = standardInput then
    match inputText input with
    | .ok text => finish text none
    | .error fault => throw (.stream fault)
  else match ← source? tree path with
    | none => return ⟨1, none⟩
    | some (.error e) => fail ("Failed to read source file: ".toList ++ e.message)
    | some (.ok (_, content)) => finish (sourceText content) (some path)

/-- The tab width that is given, or else configured. One given without a value is no number. -/
def tabWidthOr (config : Configuration) : (given? : Option (Option Int)) → Value
  | some (some width) => .int width
  | some none => .list []
  | none => config.get "tab_width" (.int defaultTabWidth)

def indent (tree : FileTree) (config : Configuration) (path : Path)
    (tabWidth? : Option (Option Int)) (changedOnly : Bool) : Task Outcome := do
  if (← source? tree path).isNone then return ⟨1, none⟩
  match checkTabWidth (tabWidthOr config tabWidth?) with
  | .error e => fail e.message
  | .ok tabWidth =>
    printReport "Indentation" path
      (IndentReport.ofFile tree path { tabWidth := .int tabWidth }) fun report =>
        printResult config "Indentation" (report.toValueListing
          (if changedOnly then report.lines.filter LineIndent.isChanged else report.lines))

/-- The spans of some categories, or all spans if there are none. A category that was given without
a value cannot be looked for. -/
def selected (categories : List (Option Text)) (spans : List Span) : Option (List Span) := do
  let labels ← categories.mapM id
  return if labels = [] then spans
    else spans.filter fun span => labels.contains span.category.label.toList

def highlight (tree : FileTree) (config : Configuration) (path : Path)
    (categories : List (Option Text)) : Task Outcome := do
  if (← source? tree path).isNone then return ⟨1, none⟩
  printReport "Highlighting" path (HighlightReport.ofFile tree path {}) fun report =>
    match selected categories report.spans with
    | some spans => printResult config "Highlighting" (report.toValueListing spans)
    | none => failUnexpectedly "Highlighting" "TypeError" "unhashable type: 'list'".toList

/-- Say what has been done with a file, unless the run is quiet. -/
def say (quiet : Bool) (what : String) (path : Path) : Task (Option StreamFault) :=
  if quiet then return none else printLine (what.toList ++ ':' :: ' ' :: path.text)

/-- Say what a cleanup has done, and end with an outcome. If that is not taken, the cleanup has
failed, but what it has done stays done. -/
def report (quiet : Bool) (what : String) (path : Path) (outcome : Outcome) : Task Outcome := do
  match ← say quiet what path with
  | none => return outcome
  | some fault =>
    discard (fail ("Cleanup failed: ".toList ++ fault.message))
    return { outcome with code := 1 }

/-- Write what a cleanup has made of a source. A file that is opened but not written to its end
holds the bytes that have passed. -/
def rewrite (quiet : Bool) (path : Path) (names : List Text) (content : Utf8.Bytes) :
    Task Outcome := do
  match Platform.refusal? .write names with
  | none => report quiet "Cleaned" path ⟨0, some ⟨names, content⟩⟩
  | some cause =>
    discard (fail ("Cleanup failed: ".toList ++ FileError.message (.refused cause path)))
    return ⟨1, cause.passed?.map fun count => ⟨names, content.take count⟩⟩

def cleanup (tree : FileTree) (config : Configuration) (quiet : Bool) (path : Path)
    (force check : Bool) : Task Outcome := do
  match ← source? tree path with
  | none => return ⟨1, none⟩
  | some source =>
    if !(check || force || config.holds "strip_whitespace_on_save") then
      log "main" .info
        "Whitespace cleanup disabled by configuration (use --force to override)".toList
      return ⟨0, none⟩
    match source with
    | .error e => fail ("Cleanup failed: ".toList ++ e.message)
    | .ok (names, content) =>
      match Utf8.decode content with
      | .error m => fail ("Cleanup failed: ".toList ++ m.message content)
      | .ok text =>
        if text.cleanUp = text then
          log "main" .info ("Already clean: ".toList ++ path.text)
          return ⟨0, none⟩
        if check then report quiet "Would clean" path ⟨1, none⟩
        else rewrite quiet path names (Utf8.encode text.cleanUp)

def showConfig (config : Configuration) : Task Outcome := do
  match Yaml.write config.store config.entries with
  | .error e => throw (.output e)
  | .ok t =>
    match ← print t with
    | some fault => throw (.stream fault)
    | none => return ⟨0, none⟩

def ofCommand (tree : FileTree) (config : Configuration) (input : Utf8.Bytes) (quiet : Bool) :
    Command → Task Outcome
  | .normalize path json => normalize tree config input path json
  | .indent path tabWidth? changedOnly => indent tree config path tabWidth? changedOnly
  | .highlight path categories => highlight tree config path categories
  | .cleanup path force check => cleanup tree config quiet path force check
  | .showConfig => showConfig config

end Task

end IoSource
