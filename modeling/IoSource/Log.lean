import IoSource.Value

/-!
# The log

An entry is shown if it is at least as severe as the level of the log. The configuration names the
level in letters of either case; some names belong to the log but are no levels.
-/

namespace IoSource

inductive Severity
  | debug
  | info
  | warning
  | error
  | critical
  deriving DecidableEq, Repr

namespace Severity

def label : Severity → String
  | debug => "DEBUG"
  | info => "INFO"
  | warning => "WARNING"
  | error => "ERROR"
  | critical => "CRITICAL"

def rank : Severity → Nat
  | debug => 10
  | info => 20
  | warning => 30
  | error => 40
  | critical => 50

end Severity

/-- Why a log has no level. -/
inductive LevelError
  /-- What should name the level, or hold its name, is of another type. -/
  | notAName (typeName : Text)
  /-- Bytes stand in the place of the name. -/
  | bytesForName
  | noSuchLevel (name : Text)
  /-- The name is that of a text the log uses. -/
  | notALevel (text : Text)
  /-- The name is that of a table the log uses. -/
  | notANumber (name : Text)
  deriving DecidableEq, Repr

namespace LevelError

def message : LevelError → Text
  | notAName name => Text.quoted name ++ " object has no attribute 'get'".toList
  | bytesForName => "attribute name must be string, not 'bytes'".toList
  | noSuchLevel name => "module 'logging' has no attribute ".toList ++ name.quoted
  | notALevel text => "Unknown level: ".toList ++ text.quoted
  | notANumber name => "Level not an integer or a valid string: ".toList ++ name

end LevelError

/-- The least rank of the entries that a log shows. -/
abbrev Level := Nat

namespace Level

/-- The names of levels; the level that nothing sets shows everything. -/
def named : List (String × Level) := [
  ("DEBUG", Severity.debug.rank), ("INFO", Severity.info.rank), ("WARNING", Severity.warning.rank),
  ("WARN", Severity.warning.rank), ("ERROR", Severity.error.rank),
  ("CRITICAL", Severity.critical.rank), ("FATAL", Severity.critical.rank), ("NOTSET", 0)]

def capitals (c : Char) : Text :=
  match c with
  | 'ß' => ['S', 'S']
  | 'ı' => ['I']
  | 'ſ' => ['S']
  | 'ﬀ' => ['F', 'F']
  | 'ﬁ' => ['F', 'I']
  | 'ﬂ' => ['F', 'L']
  | 'ﬃ' => ['F', 'F', 'I']
  | 'ﬄ' => ['F', 'F', 'L']
  | 'ﬅ' | 'ﬆ' => ['S', 'T']
  | c => [c.toUpper]

/-- The texts and tables of the log that have names like those of levels. -/
def reserved : List (String × LevelError) := [
  ("BASIC_FORMAT", .notALevel "%(levelname)s:%(name)s:%(message)s".toList),
  ("_STYLES", .notANumber "_STYLES".toList)]

/-- The level of a name. -/
def ofName (t : Text) : Except LevelError Level :=
  let name := t.flatMap capitals
  match named.find? (·.1.toList = name), reserved.find? (·.1.toList = name) with
  | some (_, level), _ => .ok level
  | none, some (_, e) => .error e
  | none, none => .error (.noSuchLevel name)

/-- The level that a value names. -/
def ofValue : Value → Except LevelError Level
  | .text t => ofName t
  | value =>
    if value.typeName = "bytes".toList then .error .bytesForName
    else .error (.notAName value.typeName)

end Level

/-- An entry of the log, with what caused it if that was unexpected. -/
structure LogEntry where
  source : String
  severity : Severity
  message : Text
  cause? : Option Text := none
  deriving DecidableEq, Repr

namespace LogEntry

/-- The lines of an entry, which carries the time at which it was made. -/
def text (time : Text) (e : LogEntry) : Text :=
  let dash : Text := [' ', '-', ' ']
  time ++ dash ++ e.source.toList ++ dash ++ e.severity.label.toList ++ dash ++ e.message ++ '\n' ::
    (match e.cause? with
      | some cause => cause ++ ['\n']
      | none => [])

def isShown (level : Level) (e : LogEntry) : Bool := level ≤ e.severity.rank

end LogEntry

end IoSource
