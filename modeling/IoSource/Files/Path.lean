import IoSource.Text.Order

/-!
# Paths

A path is a root and the names behind it. Empty names and single dots say nothing and are dropped
when a path is read; double dots stay, for what they lead to depends on the files.
-/

namespace IoSource

/-- A path; the root is empty, one slash or exactly two. -/
structure Path where
  root : Text
  parts : List Text
  deriving DecidableEq, Repr

namespace Path

/-- More than two slashes at the start are one. -/
def rootOf : Text → Text
  | '/' :: '/' :: '/' :: _ => ['/']
  | '/' :: '/' :: _ => ['/', '/']
  | '/' :: _ => ['/']
  | _ => []

def ofText (t : Text) : Path :=
  ⟨rootOf t, (t.cutAt '/').filter fun part => part ≠ [] ∧ part ≠ ['.']⟩

def joinParts : List Text → Text
  | [] => []
  | [part] => part
  | part :: parts => part ++ '/' :: joinParts parts

/-- The text of a path; the path that names nothing is the current directory. -/
def text (p : Path) : Text :=
  match p.root ++ joinParts p.parts with
  | [] => ['.']
  | t => t

def namesBefore : List Text → List Text → Bool
  | _, [] => false
  | [], _ :: _ => true
  | s :: ss, t :: ts => if s = t then namesBefore ss ts else s.before t

/-- Paths are ordered name by name. -/
def before (p q : Path) : Bool :=
  let names (p : Path) := if p.root = [] then p.parts else p.root :: p.parts
  namesBefore (names p) (names q)

end Path

end IoSource
