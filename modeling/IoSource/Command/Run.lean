import IoSource.Command.Help
import IoSource.Command.Task

/-!
# Runs of the program

A run takes files, the standard input and a command line, and gives what is printed and logged, how
it ends, and the files afterwards. All else that it depends on is given by the platform, and the same
while it lasts.
-/

namespace IoSource

structure Run where
  /-- The exit code, or what kept the run from ending with one. -/
  ending : Except Failure Nat
  stdout : Text := []
  /-- What is said about a misused command line. -/
  complaint : Text := []
  /-- The entries of the log that are shown. -/
  entries : List LogEntry := []
  tree : FileTree

namespace Run
variable [Platform]

def configuredLevel (config : Configuration) : Except LevelError Value := do
  let logging ← (config.sectionAt "logging").mapError .notAName
  return logging.get "level" (.text "INFO".toList)

/-- The level of the log. The command line overrides the name that the configuration gives, but not
the need for a section to look for it in. -/
def level (config : Configuration) (volume : Volume) : Except LevelError Level := do
  let configured ← configuredLevel config
  match volume with
  | .asConfigured => Level.ofValue configured
  | .verbose => return Severity.debug.rank
  | .quiet => return Severity.error.rank

/-- The configuration and the level of the log, which come before any command. -/
def setUp (tree : FileTree) (config? : Option Path) (volume : Volume) :
    Except Failure (Configuration × Level) := do
  let config ← (Configuration.load tree config?).mapError .configuration
  return (config, ← (level config volume).mapError .level)

/-- The files after a change. -/
def changed (tree : FileTree) : (change? : Option Change) → FileTree
  | some change => tree.write change.names change.content
  | none => tree

def ofCommand (tree : FileTree) (input : Utf8.Bytes) (command : Command) (config? : Option Path)
    (volume : Volume) : Run :=
  match setUp tree config? volume with
  | .error failure => { ending := .error failure, tree }
  | .ok (config, level) =>
    let task := Task.ofCommand tree config input (volume = .quiet) command
    let (result, output) := task.run.run {}
    let entries := output.entries.filter (LogEntry.isShown level)
    match result with
    | .error failure => { ending := .error failure, stdout := output.stdout, entries, tree }
    | .ok outcome => {
        ending := .ok outcome.code
        stdout := output.stdout
        entries
        tree := changed tree outcome.change? }

def ofArguments (tree : FileTree) (input : Utf8.Bytes) (arguments : List Text) : Run :=
  match Request.ofArguments arguments with
  | .help topic? => { ending := .ok 0, stdout := Help.help topic?, tree }
  | .version => { ending := .ok 0, stdout := Help.version, tree }
  | .misuse topic? e => { ending := .ok 2, complaint := Help.misuse topic? e, tree }
  | .run command config? volume => ofCommand tree input command config? volume

/-- What stands on the standard error stream, if each entry is made at some time. -/
def stderr (time : Text) (run : Run) : Text :=
  run.complaint ++ run.entries.flatMap (LogEntry.text time)

end Run

end IoSource
