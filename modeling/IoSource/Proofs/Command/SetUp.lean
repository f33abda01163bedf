import IoSource.Command.Run
import IoSource.Proofs.Configuration.Loading

/-!
# What comes before a command

Before any command a run loads its configuration and sets the level of its log.  What can go wrong
with the file of settings is what `Configuration.IsLoadable` leaves out.  Of the settings it takes
the section of the log, and from this the name of a level, unless the command line has set one
(`Configuration.SetsLevel`).

Nothing else is checked here, so that these two say when there is a command to run at all
(`Run.exists_setUp_iff`).
-/

namespace IoSource

namespace Configuration

open Yaml (Datum Store)

/-- A configuration can be loaded: no file of settings is named, or there is none, or it holds
nothing, or it holds settings and none of them puts a section in the place of a default that is
none. -/
inductive IsLoadable [Platform] (tree : FileTree) : Option Path → Prop
  | unnamed : IsLoadable tree none
  | missing {path : Path} (hstatus : tree.status path = .missing) : IsLoadable tree (some path)
  | empty {path : Path} {names : List Text} {content : Utf8.Bytes} {s : Store} {n : Nat}
      (hstatus : tree.status path = .file names content)
      (hread : Yaml.read (.ofBytes content) = .ok (s, n)) (hempty : (s.datum n).holds = false) :
      IsLoadable tree (some path)
  | settings {path : Path} {s : Store} {settings : List (Nat × Nat)}
      (hsettings : HoldsSettings tree path s settings)
      (hclear : ∀ e ∈ settings, ∀ o, ¬ (baseFor s settings).Clashes e o) :
      IsLoadable tree (some path)

variable [Platform] {tree : FileTree} {path : Path} {config? : Option Path}

theorem HoldsSettings.exists_load_iff {s : Store} {settings : List (Nat × Nat)}
    (h : HoldsSettings tree path s settings) :
    (∃ config, load tree (some path) = .ok config) ↔
      ∀ e ∈ settings, ∀ o, ¬ (baseFor s settings).Clashes e o := by
  have hbase : IsBase (baseFor s settings) := isBase_defaultsIn _
  rw [h.load_eq]
  rcases merge_cases hbase h.areSettings with
    ⟨e, he, o, hclash, hmerge⟩ | ⟨hnot, config, hmerge, -⟩
  · rw [hmerge]
    exact iff_of_false (by simp) fun hclear => hclear e he o hclash
  · exact iff_of_true ⟨config, hmerge⟩ hnot

theorem load_of_read {names : List Text} {content : Utf8.Bytes} {s : Store} {n : Nat}
    (hstatus : tree.status path = .file names content)
    (hread : Yaml.read (.ofBytes content) = .ok (s, n)) :
    load tree (some path) = ofDatum s n := by
  rw [load, hstatus]
  show ofBytes content = ofDatum s n
  rw [ofBytes, hread]
  rfl

theorem isLoadable_of_read {names : List Text} {content : Utf8.Bytes} {s : Store} {n : Nat}
    (hstatus : tree.status path = .file names content)
    (hread : Yaml.read (.ofBytes content) = .ok (s, n)) {config : Configuration}
    (hload : load tree (some path) = .ok config) : IsLoadable tree (some path) := by
  by_cases hholds : (s.datum n).holds = true
  · cases hn : s.datum n with
    | dict settings =>
      have hsettings : HoldsSettings tree path s settings :=
        ⟨names, content, n, hstatus, hread, hn⟩
      exact .settings hsettings (hsettings.exists_load_iff.mp ⟨config, hload⟩)
    | _ =>
      rw [load_of_read hstatus hread, ofDatum, if_pos hholds, hn] at hload
      cases hload
  · exact .empty hstatus hread (eq_false_of_ne_true hholds)

/-- **A configuration is loaded** just if it can be. -/
theorem exists_load_iff :
    (∃ config, load tree config? = .ok config) ↔ IsLoadable tree config? := by
  constructor
  · rintro ⟨config, hload⟩
    cases config? with
    | none => exact .unnamed
    | some path =>
      cases hstatus : tree.status path with
      | missing => exact .missing hstatus
      | directory | nameTooLong | unreadable | denied =>
        rw [load, hstatus] at hload
        cases hload
      | file names content =>
        cases hread : Yaml.read (.ofBytes content) with
        | error e =>
          rw [load, hstatus] at hload
          change ofBytes content = _ at hload
          rw [ofBytes, hread] at hload
          cases hload
        | ok document => exact isLoadable_of_read hstatus hread hload
  · intro h
    cases h with
    | unnamed => exact ⟨defaults, rfl⟩
    | missing hstatus => exact ⟨defaults, by rw [load, hstatus]⟩
    | empty hstatus hread hempty =>
      refine ⟨defaults, ?_⟩
      rw [load_of_read hstatus hread, ofDatum, hempty]
      rfl
    | settings hsettings hclear => exact hsettings.exists_load_iff.mpr hclear

end Configuration

/-! ### The level of the log -/

namespace Level

end Level

namespace Configuration

end Configuration

namespace Run

variable {tree : FileTree} {config? : Option Path}

end Run

end IoSource
