import IoSource.Command.Arguments

/-!
# Help

The usage of each command, which also stands above a message on a misused command line, and the
explanation that help adds to it.
-/

namespace IoSource.Help

def lines (ls : List String) : Text := ls.flatMap fun l => l.toList ++ ['\n']

/-- How a command is called, or how any command is. -/
def usage : (topic? : Option Subcommand) → Text
  | none => lines ["usage: iotools [-h] [--version] <command> ..."]
  | some .normalize =>
    lines ["usage: iotools normalize [-h] [--json] [--config FILE] [-V] [-q] source"]
  | some .indent => lines [
    "usage: iotools indent [-h] [-t N] [--changed-only] [--config FILE] [-V] [-q]",
    "                      source"]
  | some .highlight => lines [
    "usage: iotools highlight [-h] [--category NAME] [--config FILE] [-V] [-q]",
    "                         source"]
  | some .cleanup => lines [
    "usage: iotools cleanup [-h] [--force] [--check] [--config FILE] [-V] [-q]",
    "                       source"]
  | some .showConfig => lines ["usage: iotools show-config [-h] [--config FILE] [-V] [-q]"]

def explanation : (topic? : Option Subcommand) → Text
  | none => lines [
    "Io Source Tools - Normalizes, indents and highlights Io programs.",
    "",
    "options:",
    "  -h, --help   show this help message and exit",
    "  --version    show program's version number and exit",
    "",
    "commands:",
    "  <command>",
    "    normalize  Normalize Io source into a single interpreter line",
    "    indent     Estimate the indentation of every line",
    "    highlight  Classify highlighted spans",
    "    cleanup    Strip trailing whitespace in place",
    "    show-config",
    "               Print the effective configuration",
    "",
    "Commands:",
    "  normalize    Normalize source into one interpreter line (default)",
    "  indent       Estimate indentation for every line",
    "  highlight    Classify highlighted spans",
    "  cleanup      Strip trailing whitespace in place",
    "  show-config  Print the effective configuration",
    "",
    "Examples:",
    "  iotools normalize program.io | io",
    "  iotools program.io          # same as normalize",
    "  iotools indent program.io --tab-width 2",
    "  iotools highlight program.io --category comment",
    "",
    "For more information on a command, use: iotools <command> --help",
    "        "]
  | some .normalize => lines [
    "Strip comments and join lines so the code can be sent to a line-oriented Io",
    "interpreter.",
    "",
    "positional arguments:",
    "  source         Path to Io source file ('-' reads standard input)",
    "",
    "options:",
    "  -h, --help     show this help message and exit",
    "",
    "Output Options:",
    "  --json         Print a JSON result instead of the raw payload",
    "",
    "Configuration:",
    "  --config FILE  Path to YAML configuration file",
    "",
    "Logging:",
    "  -V, --verbose  Enable verbose output (debug level logging)",
    "  -q, --quiet    Suppress all output except errors"]
  | some .indent => lines [
    "Report current and estimated indentation for each line of an Io source file.",
    "",
    "positional arguments:",
    "  source               Path to Io source file",
    "",
    "options:",
    "  -h, --help           show this help message and exit",
    "  -t N, --tab-width N  Columns per indentation step (default: from config, 8)",
    "",
    "Output Options:",
    "  --changed-only       Only list lines whose estimated indentation differs",
    "",
    "Configuration:",
    "  --config FILE        Path to YAML configuration file",
    "",
    "Logging:",
    "  -V, --verbose        Enable verbose output (debug level logging)",
    "  -q, --quiet          Suppress all output except errors"]
  | some .highlight => lines [
    "List the highlighted spans of an Io source file with their categories.",
    "",
    "positional arguments:",
    "  source           Path to Io source file",
    "",
    "options:",
    "  -h, --help       show this help message and exit",
    "",
    "Output Options:",
    "  --category NAME  Only list spans of this category (can be specified multiple",
    "                   times)",
    "",
    "Configuration:",
    "  --config FILE    Path to YAML configuration file",
    "",
    "Logging:",
    "  -V, --verbose    Enable verbose output (debug level logging)",
    "  -q, --quiet      Suppress all output except errors"]
  | some .cleanup => lines [
    "Remove trailing whitespace and trailing blank lines, as done on save.",
    "",
    "positional arguments:",
    "  source         Path to Io source file",
    "",
    "options:",
    "  -h, --help     show this help message and exit",
    "  --force        Clean up even if strip_whitespace_on_save is disabled",
    "  --check        Report whether the file needs cleaning without modifying it",
    "                 (runs even if cleanup is disabled)",
    "",
    "Configuration:",
    "  --config FILE  Path to YAML configuration file",
    "",
    "Logging:",
    "  -V, --verbose  Enable verbose output (debug level logging)",
    "  -q, --quiet    Suppress all output except errors"]
  | some .showConfig => lines [
    "Print the configuration after merging the YAML file over defaults.",
    "",
    "options:",
    "  -h, --help     show this help message and exit",
    "",
    "Configuration:",
    "  --config FILE  Path to YAML configuration file",
    "",
    "Logging:",
    "  -V, --verbose  Enable verbose output (debug level logging)",
    "  -q, --quiet    Suppress all output except errors"]

def help (topic? : Option Subcommand) : Text := usage topic? ++ '\n' :: explanation topic?

def version : Text := lines ["iotools 0.1.0"]

def programName : (topic? : Option Subcommand) → Text
  | none => "iotools".toList
  | some command => "iotools ".toList ++ command.name.toList

/-- What is said about a misused command line. -/
def misuse (topic? : Option Subcommand) (e : UsageError) : Text :=
  usage topic? ++ (programName topic? ++ (": error: ".toList ++ (e.message ++ ['\n'])))

end IoSource.Help
