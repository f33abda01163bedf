import IoSource.Files.Tree
import IoSource.Indent.TabWidth
import IoSource.Yaml.Reader
import IoSource.Yaml.Source

/-!
# Configuration

A configuration is a dictionary of settings, some of which are sections: dictionaries of their own.
A file of settings is laid over the defaults, entry by entry within sections; anything else replaces
what was there. The values are not checked here.
-/

namespace IoSource

open Yaml (Datum Store)

/-- Settings: keys and values, which are data of a store. -/
structure Configuration where
  store : Store
  entries : List (Nat × Nat)

/-- Why there is no configuration. -/
inductive ConfigurationError
  | file (cause : FileError)
  | document (cause : Yaml.Error)
  /-- The file holds something else than settings. -/
  | notSettings (typeName : Text)
  /-- A section is laid over a setting that is none. -/
  | notASection (typeName : Text)

namespace ConfigurationError

def noAttribute (typeName : Text) (name : String) : Text :=
  typeName.quoted ++ " object has no attribute ".toList ++ Text.quoted name.toList

def message : ConfigurationError → Text
  | file cause => cause.message
  | document cause => cause.message
  | notSettings name => noAttribute name "items"
  | notASection name => noAttribute name "update"

end ConfigurationError

namespace Configuration

/-! ### Defaults -/

def add (d : Datum) : StateM Store Nat := modifyGet fun s => (s.size, s.push d)

def textDatum (t : String) : Datum := .text (.ofText t.toList)

def addEntry (name : String) (value : Datum) : StateM Store (Nat × Nat) := do
  return (← add (textDatum name), ← add value)

def addDefaults : StateM Store (List (Nat × Nat)) := do
  let extension ← add (textDatum ".io")
  let output ← [("pretty_print", Datum.bool true), ("indent_size", .int 2)].mapM
    fun (name, value) => addEntry name value
  let level ← addEntry "level" (textDatum "INFO")
  [("tab_width", Datum.int defaultTabWidth), ("strip_whitespace_on_save", .bool true),
    ("interpreter_command", textDatum "io"), ("source_extensions", .list [extension]),
    ("output", .dict output), ("logging", .dict [level])].mapM
    fun (name, value) => addEntry name value

def defaultsIn (s : Store) : Configuration :=
  let (entries, store) := addDefaults.run s
  { store, entries }

def defaults : Configuration := defaultsIn #[]

/-! ### Merging -/

/-- Lay one setting over a configuration. -/
def lay (config : Configuration) (setting : Nat × Nat) :
    Except ConfigurationError Configuration :=
  let s := config.store
  match s.datum setting.2, s.lookup? (s.datum setting.1) config.entries with
  | .dict added, some n =>
    match s.datum n with
    | .dict entries =>
      .ok { config with store := s.setIfInBounds n (.dict (s.setEntries entries added)) }
    | other => .error (.notASection other.typeName)
  | _, _ => .ok { config with entries := s.setEntry config.entries setting.1 setting.2 }

/-- Lay settings over a configuration, one after the other. -/
def merge (config : Configuration) (settings : List (Nat × Nat)) :
    Except ConfigurationError Configuration :=
  settings.foldlM lay config

/-- The configuration that a datum describes; an empty one says nothing. -/
def ofDatum (s : Store) (n : Nat) : Except ConfigurationError Configuration :=
  if (s.datum n).holds then
    match s.datum n with
    | .dict settings => merge (defaultsIn s) settings
    | other => .error (.notSettings other.typeName)
  else .ok defaults

variable [Platform]

def ofBytes (content : Utf8.Bytes) : Except ConfigurationError Configuration := do
  let (s, n) ← (Yaml.read (.ofBytes content)).mapError .document
  ofDatum s n

/-- The configuration of a file; a file that is missing changes nothing. -/
def load (tree : FileTree) : (path? : Option Path) → Except ConfigurationError Configuration
  | none => .ok defaults
  | some path =>
    match tree.status path with
    | .file _ content => ofBytes content
    | .directory => .error (.file (.isDirectory path))
    | .missing => .ok defaults
    | .nameTooLong => .error (.file (.nameTooLong path))
    | .unreadable cause | .denied cause => .error (.file (.refused cause path))

/-! ### Looking up settings -/

def lookup? (config : Configuration) (name : String) : Option Nat :=
  config.store.lookup? (textDatum name) config.entries

/-- The value of a setting, or another value without it. -/
def get (config : Configuration) (name : String) (otherwise : Value) : Value :=
  ((config.lookup? name).map config.store.value).getD otherwise

/-- Whether the value of a setting holds; without the setting it does. -/
def holds (config : Configuration) (name : String) : Bool :=
  ((config.lookup? name).map fun n => (config.store.datum n).holds).getD true

/-- The settings of a section, none without it, or the name of the type of what stands in its
place. -/
def sectionAt (config : Configuration) (name : String) : Except Text Configuration :=
  match (config.lookup? name).map config.store.datum with
  | none => .ok { config with entries := [] }
  | some (.dict entries) => .ok { config with entries }
  | some other => .error other.typeName

end Configuration

end IoSource
