import IoSource.Number.Literal
import IoSource.Text.Quoted

/-!
# Commands and their options

Each command has its options, in the order in which help lists them and in which a name that is cut
short is completed.
-/

namespace IoSource

inductive Subcommand
  | normalize
  | indent
  | highlight
  | cleanup
  | showConfig
  deriving DecidableEq, Repr

namespace Subcommand

def all : List Subcommand := [normalize, indent, highlight, cleanup, showConfig]

def name : Subcommand → String
  | normalize => "normalize"
  | indent => "indent"
  | highlight => "highlight"
  | cleanup => "cleanup"
  | showConfig => "show-config"

def ofName? (t : Text) : Option Subcommand := all.find? (·.name.toList = t)

end Subcommand

/-- What an option sets. -/
inductive Setting
  | help
  | version
  | json
  | tabWidth
  | changedOnly
  | category
  | force
  | check
  | config
  | verbose
  | quiet
  deriving DecidableEq, Repr

namespace Setting

def names : Setting → List String
  | help => ["-h", "--help"]
  | version => ["--version"]
  | json => ["--json"]
  | tabWidth => ["-t", "--tab-width"]
  | changedOnly => ["--changed-only"]
  | category => ["--category"]
  | force => ["--force"]
  | check => ["--check"]
  | config => ["--config"]
  | verbose => ["-V", "--verbose"]
  | quiet => ["-q", "--quiet"]

/-- Whether an option has a value; the others are switches. -/
def hasValue : Setting → Bool
  | tabWidth | category | config => true
  | _ => false

/-- All names of an option, as messages give them. -/
def label (s : Setting) : Text := ("/".intercalate s.names).toList

end Setting

/-- The options that stand in front of every command. -/
def generalSettings : List Setting := [.help, .version]

namespace Subcommand

def settings : Subcommand → List Setting
  | normalize => [.help, .json, .config, .verbose, .quiet]
  | indent => [.help, .tabWidth, .changedOnly, .config, .verbose, .quiet]
  | highlight => [.help, .category, .config, .verbose, .quiet]
  | cleanup => [.help, .force, .check, .config, .verbose, .quiet]
  | showConfig => [.help, .config, .verbose, .quiet]

/-- Whether a command works on a source. -/
def hasSource : Subcommand → Bool
  | showConfig => false
  | _ => true

end Subcommand

/-- What is wrong with a command line. -/
inductive UsageError
  | ambiguous (given : Text) (candidates : List Text)
  | valueMissing (s : Setting)
  | valueIgnored (s : Setting) (given : Text)
  | notAnInteger (s : Setting) (given : Text)
  | sourceMissing
  | unrecognized (given : List Text)
  | verboseAndQuiet
  deriving DecidableEq, Repr

namespace UsageError

def join (separator : Text) (ts : List Text) : Text := (ts.intersperse separator).flatten

def aboutSetting (s : Setting) (what : String) : Text :=
  "argument ".toList ++ s.label ++ ':' :: ' ' :: what.toList

def message : UsageError → Text
  | ambiguous given candidates =>
    "ambiguous option: ".toList ++ given ++ " could match ".toList ++ join [',', ' '] candidates
  | valueMissing s => aboutSetting s "expected one argument"
  | valueIgnored s given => aboutSetting s "ignored explicit argument " ++ given.quoted
  | notAnInteger s given => aboutSetting s "invalid int value: " ++ given.quoted
  | sourceMissing => "the following arguments are required: source".toList
  | unrecognized given => "unrecognized arguments: ".toList ++ join [' '] given
  | verboseAndQuiet => "--verbose and --quiet cannot be used together".toList

end UsageError

end IoSource
