import IoSource.Files.Path
import IoSource.Files.Utf8
import IoSource.Platform
import IoSource.Text.Quoted

/-!
# File trees

A tree holds files and directories under the names that lead to them from the root, and knows the
working directory, from which relative paths are resolved. There are no links, so a file stands under
one list of names only. A file has nothing below it, and double dots lead out of a directory that
exists. The platform may refuse to look into a directory or to read a file.
-/

namespace IoSource

/-- A directory, or a file with its bytes. -/
inductive FileEntry
  | file (content : Utf8.Bytes)
  | directory
  deriving DecidableEq, Repr

/-- A working directory, and entries with the names that lead to them. The directories on the way to
any of these are there too, listed or not. -/
structure FileTree where
  home : List Text
  entries : List (List Text × FileEntry)
  deriving DecidableEq, Repr

/-- What stands at a path: a file that can be read, or another one. A name that is too long for a
file, or stands in a closed directory, cannot even be looked for. -/
inductive PathStatus
  | file (names : List Text) (content : Utf8.Bytes)
  | unreadable (cause : Refusal)
  | directory
  | missing
  | nameTooLong
  | denied (cause : Refusal)
  deriving DecidableEq, Repr

namespace FileTree

def ofList (home : List Text) (files : List (Path × FileEntry)) : FileTree :=
  ⟨home, files.map fun (path, entry) => (home ++ path.parts, entry)⟩

/-- The entry that some names lead to from the root. -/
def entry? (tree : FileTree) (names : List Text) : Option FileEntry :=
  match tree.entries.find? (·.1 = names) with
  | some (_, entry) => some entry
  | none =>
    if names.isPrefixOf tree.home ∨ tree.entries.any (fun e => names.isPrefixOf e.1) then
      some .directory
    else none

/-- The longest name and the longest path that files can have, in bytes. -/
def maxNameLength : Nat := 255
def maxPathLength : Nat := 4095

def follow [Platform] (tree : FileTree) (place : List Text) : (names : List Text) → PathStatus
  | [] =>
    match tree.entry? place with
    | some (.file content) =>
      match Platform.refusal? .read place with
      | none => .file place content
      | some cause => .unreadable cause
    | some .directory => .directory
    | none => .missing
  | name :: names =>
    match tree.entry? place with
    | some .directory =>
      match Platform.refusal? .lookup place with
      | some cause => .denied cause
      | none =>
        if name = ['.', '.'] then tree.follow place.dropLast names
        else if maxNameLength < (Utf8.encode name).length then .nameTooLong
        else tree.follow (place ++ [name]) names
    | _ => .missing

/-- What stands at a path. -/
def status [Platform] (tree : FileTree) (path : Path) : PathStatus :=
  if path.text.contains '\x00' then .missing
  else if maxPathLength < (Utf8.encode path.text).length then .nameTooLong
  else tree.follow (if path.root = [] then tree.home else []) path.parts

/-- Put new content into a file. -/
def write (tree : FileTree) (names : List Text) (content : Utf8.Bytes) : FileTree :=
  { tree with
    entries := tree.entries.map fun e => if e.1 = names then (names, .file content) else e }

end FileTree

/-- An error of the file system, with the path that it is about. -/
inductive FileError
  | nameTooLong (path : Path)
  | isDirectory (path : Path)
  | refused (cause : Refusal) (path : Path)
  deriving DecidableEq, Repr

namespace FileError

/-- The path is not shown any more once the file has been opened. -/
def message : FileError → Text
  | nameTooLong path => "[Errno 36] File name too long: ".toList ++ path.text.quoted
  | isDirectory path => "[Errno 21] Is a directory: ".toList ++ path.text.quoted
  | refused cause path =>
    if cause.passed?.isSome then cause.reason else cause.reason ++ ':' :: ' ' :: path.text.quoted

end FileError

end IoSource
