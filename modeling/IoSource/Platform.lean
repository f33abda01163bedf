import IoSource.Text.Basic

/-!
# Platforms

Some of what a run comes to is not settled by what it is given: memory and stack have bounds, files
may be closed to a run, a stream may refuse a text, and there are two releases of the reader of
command lines. A platform says how all this is, once for a whole run. Nothing is assumed of it but
that the stack suffices for a view of a buffer and for writing a report, so what is said of runs
holds on every platform.

Some idealizations remain. Memory is asked for only where spaces are made, since nothing else can be
much longer than what is there already. How deep a configuration may nest is counted in collections,
and not in the calls that each kind of them takes. The standard output takes a text as a whole or
not at all, and help, complaints and the log are always taken.
-/

namespace IoSource

/-- How a value is written as JSON, with items on lines of their own or not. -/
inductive WritingMode
  | text (isIndented : Bool)
  | stream (isIndented : Bool)
  | compact
  deriving DecidableEq, Repr

/-- What a value consists of that is not written at once. Names are paths and categories, which
become texts first. -/
inductive Layer
  | list
  | set
  | dict
  | record
  | name
  deriving DecidableEq, Repr

/-- Releases of the reader of command lines. The earlier one takes an equals sign in a cluster of
switches for a part of what follows it, and refuses a cluster that holds an unknown letter. It also
drops a value that is a delimiter. -/
inductive Release
  | earlier
  | later
  deriving DecidableEq, Repr

/-- What a run does with what stands at a place in a file tree: look for a name in a directory, read
a file, or write one. -/
inductive Access
  | lookup
  | read
  | write
  deriving DecidableEq, Repr

/-- Why a file is not read or written. If it has been opened, some of its bytes may have passed, and
a file that is opened to be written holds no others. -/
structure Refusal where
  reason : Text
  passed? : Option Nat := none
  deriving DecidableEq, Repr

/-- Why a stream does not give or take a text. -/
structure StreamFault where
  kind : String
  message : Text
  deriving DecidableEq, Repr

/-- What messages say about what nests too deeply. -/
def depthExceeded : Text := "maximum recursion depth exceeded".toList

/-- What a run depends on besides what it is given. -/
class Platform where
  /-- The greatest length of a text that there is memory for. -/
  memory : Nat
  /-- How many views may stand between a reader and a buffer. -/
  viewDepth : Nat
  viewDepth_pos : 0 < viewDepth
  /-- How many calls may nest while a value is written as JSON, and how many a layer of it takes. -/
  stack : WritingMode → Nat
  calls : WritingMode → Layer → Nat
  reports_fit : ∀ mode, calls mode .record + (calls mode .list + calls mode .record) ≤ stack mode
  /-- How deep the nodes of a configuration nest at most, and the data of one that is shown. -/
  nodeDepth : Nat
  dataDepth : Nat
  release : Release
  /-- Places are given by the names that lead to them from the root. -/
  refusal? : Access → (names : List Text) → Option Refusal
  inputFault? : Option StreamFault
  outputFault? : Text → Option StreamFault

namespace Platform.Usual

/-- Memory for some thousand million characters and a stack of a thousand calls, of which a node
takes two and a datum that is shown three; nothing is refused. -/
scoped instance platform : Platform where
  memory := 4294967295
  viewDepth := 990
  viewDepth_pos := by decide
  stack := fun
    | .stream _ => 994
    | _ => 993
  calls := fun
    | _, .list | _, .dict => 1
    | .compact, _ | .text false, _ => 2
    | _, _ => 3
  reports_fit := by rintro (⟨⟨⟩⟩ | ⟨⟨⟩⟩ | _) <;> decide
  nodeDepth := 490
  dataDepth := 328
  release := .later
  refusal? := fun _ _ => none
  inputFault? := none
  outputFault? := fun _ => none

end Platform.Usual

end IoSource
