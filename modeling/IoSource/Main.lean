import IoSource.Command.Run
import Std.Time

/-!
# The program

The outer layer of the command line: it reads what a run may look at, and writes what the run gives.
A run is computed as if nothing more was refused than what reading has met. If something is, when its
files or its output are written, it is computed once more on a platform that says so.
-/

namespace IoSource.Main

/-- What the system has refused so far. -/
structure Refusals where
  places : List ((Access × List Text) × Refusal) := []
  input? : Option StreamFault := none
  output? : Option StreamFault := none

/-- The usual platform, but for what is refused. -/
abbrev Refusals.platform (r : Refusals) : Platform :=
  { Platform.Usual.platform with
    refusal? := fun access names => (r.places.find? (·.1 = (access, names))).map Prod.snd
    inputFault? := r.input?
    outputFault? := fun _ => r.output? }

def reason (e : IO.Error) : Text := (toString e).toList

def fault (e : IO.Error) : StreamFault := ⟨"OSError", reason e⟩

def paths : Request → List Path
  | .run command config? _ =>
    config?.toList ++ (match command with
      | .normalize source _ | .indent source _ _ | .highlight source _ | .cleanup source _ _ =>
        [source]
      | .showConfig => [])
  | _ => []

/-- The names that lead from the root to the working directory. -/
def homeNames : IO (List Text) := do
  return (Path.ofText (← IO.currentDir).toString.toList).parts

/-- The place that names lead to, where double dots lead back. -/
def placeOf (home : List Text) (path : Path) (names : List Text) : List Text :=
  names.foldl (fun place name => if name = ['.', '.'] then place.dropLast else place ++ [name])
    (if path.root = [] then home else [])

/-- The entries on the way to a path, and what may not be looked into or read there. -/
def entriesOn (tree : FileTree) (refused : Refusals) (path : Path) : IO (FileTree × Refusals) := do
  let start ← IO.currentDir
  let mut tree := tree
  let mut refused := refused
  for count in List.range (path.parts.length + 1) do
    let names := path.parts.take count
    let place := placeOf tree.home path names
    let file := start / String.ofList (Path.text ⟨path.root, names⟩)
    try
      if (← file.metadata).type == .dir then
        tree := { tree with entries := (place, .directory) :: tree.entries }
      else
        let content ← try pure (← IO.FS.readBinFile file).data.toList catch e =>
          refused := { refused with
            places := ((.read, place), ⟨reason e, none⟩) :: refused.places }
          pure []
        tree := { tree with entries := (place, .file content) :: tree.entries }
    catch
      | .permissionDenied _ code details =>
        let directory := placeOf tree.home path names.dropLast
        let cause : Refusal := ⟨reason (.permissionDenied none code details), none⟩
        refused := { refused with places := ((.lookup, directory), cause) :: refused.places }
      | _ => pure ()
  return (tree, refused)

/-- The part of the file system that a request looks at. -/
def treeFor (request : Request) : IO (FileTree × Refusals) := do
  let looked := (paths request).filter fun path => !path.text.contains '\x00'
  looked.foldlM (fun (tree, refused) path => entriesOn tree refused path) (⟨← homeNames, []⟩, {})

/-- The standard input, if it is the source. -/
def inputFor (request : Request) (refused : Refusals) : IO (Utf8.Bytes × Refusals) := do
  match request with
  | .run (.normalize source _) _ _ =>
    if source = Task.standardInput then
      try
        return ((← (← IO.getStdin).readBinToEnd).data.toList, refused)
      catch e => return ([], { refused with input? := some (fault e) })
    else return ([], refused)
  | _ => return ([], refused)

/-- Write the files that differ, and return what is refused. -/
def writeChanges (before after : FileTree) (refused : Refusals) : IO Refusals := do
  let mut refused := refused
  for (names, entry) in after.entries do
    if let .file content := entry then
      if !before.entries.contains (names, entry) then
        try
          IO.FS.writeBinFile (String.ofList (Path.text ⟨['/'], names⟩)) ⟨content.toArray⟩
        catch e =>
          refused := { refused with
            places := ((.write, names), ⟨reason e, none⟩) :: refused.places }
  return refused

def printOut (t : Text) (refused : Refusals) : IO Refusals := do
  try
    IO.print (String.ofList t)
    (← IO.getStdout).flush
    return refused
  catch e => return { refused with output? := some (fault e) }

def timeText : IO Text := do
  return ((← Std.Time.PlainDateTime.now).format "uuuu-MM-dd HH:mm:ss,SSS").toList

def failureText : Failure → Text
  | .configuration cause => cause.message
  | .level cause => cause.message
  | .file cause => cause.message
  | .output cause => cause.message
  | .stream cause => cause.message

end IoSource.Main

open IoSource Main in
def main (arguments : List String) : IO UInt32 := do
  let arguments := arguments.map String.toList
  let request := @Request.ofArguments (Refusals.platform {}) arguments
  let (tree, refused) ← treeFor request
  let (input, refused) ← inputFor request refused
  let run (refused : Refusals) : Run := @Run.ofArguments refused.platform tree input arguments
  let refused ← writeChanges tree (run refused).tree refused
  let refused ← printOut (run refused).stdout refused
  let run := run refused
  IO.eprint (String.ofList (run.stderr (← timeText)))
  match run.ending with
  | .ok code => return code.toUInt32
  | .error failure =>
    IO.eprintln (String.ofList (failureText failure))
    return 1
