import Mathlib
import IoSource.Proofs.Configuration.Overriding
import IoSource.Proofs.Files.Utf8
import IoSource.Proofs.Yaml.Sources
import IoSource.Proofs.Yaml.Stores

/-!
# Loading a configuration

A file of settings gives the defaults overridden by them (`load_overrides_defaults`), unless a
section is set over what is none.  A file that holds what comes out gives just that again.
-/

namespace IoSource.Configuration

open Yaml (Datum Store OnEntries)

/-- The file at a path holds settings: its document is a dictionary with these entries. -/
def HoldsSettings [Platform] (tree : FileTree) (path : Path) (s : Store)
    (settings : List (Nat × Nat)) : Prop :=
  ∃ names content n, tree.status path = .file names content ∧
    Yaml.read (.ofBytes content) = .ok (s, n) ∧ s.datum n = .dict settings

def LookLike (s s' : Store) : List (Nat × Nat) → List (Nat × Nat) → Prop :=
  List.Forall₂ (OnEntries (s.Alike s'))

/-- The defaults that settings are laid over.  They stand next to the settings, if there are any. -/
def baseFor (s : Store) (settings : List (Nat × Nat)) : Configuration :=
  defaultsIn (if settings = [] then #[] else s)

variable {tree : FileTree} {path : Path} {s : Store} {settings : List (Nat × Nat)}
  {config : Configuration}

theorem baseFor_of_ne_nil (h : settings ≠ []) : baseFor s settings = defaultsIn s := by
  rw [baseFor, if_neg h]

theorem ofDatum_eq_merge {n : Nat} (hn : s.datum n = .dict settings) :
    ofDatum s n = merge (baseFor s settings) settings := by
  rw [ofDatum, hn]
  cases settings with
  | nil => rfl
  | cons e rest => rfl

theorem HoldsSettings.load_eq [Platform] (h : HoldsSettings tree path s settings) :
    load tree (some path) = merge (baseFor s settings) settings := by
  obtain ⟨names, content, n, hstatus, hread, hn⟩ := h
  rw [load, hstatus]
  dsimp only
  rw [ofBytes, hread]
  exact ofDatum_eq_merge hn

theorem HoldsSettings.isWellFormed [Platform] (h : HoldsSettings tree path s settings) :
    s.IsWellFormed := by
  obtain ⟨names, content, n, -, hread, -⟩ := h
  exact Yaml.isWellFormed_read hread

theorem areSettings_nil (base : Configuration) : AreSettings base [] :=
  ⟨List.Pairwise.nil, List.forall_mem_nil _, List.forall_mem_nil _⟩

theorem HoldsSettings.areSettings [Platform] (h : HoldsSettings tree path s settings) :
    AreSettings (baseFor s settings) settings := by
  by_cases hempty : settings = []
  · subst hempty
    exact areSettings_nil _
  · rw [baseFor_of_ne_nil hempty]
    have hformed := h.isWellFormed
    obtain ⟨names, content, n, -, -, hn⟩ := h
    exact areSettings_defaultsIn hformed hn

theorem IsLaidOver.entries_ne_nil (h : IsLaidOver (baseFor s settings) settings config) :
    config.entries ≠ [] := by
  rw [h.entries, Store.overridden, baseFor, entries_defaultsIn]
  exact List.cons_ne_nil _ _

/-- What settings over the defaults give comes out again of a file that holds it. -/
theorem IsLaidOver.load_again [Platform] (hsettings : AreSettings (baseFor s settings) settings)
    (h : IsLaidOver (baseFor s settings) settings config) {tree' : FileTree} {path' : Path}
    {s' : Store} {settings' : List (Nat × Nat)} (h' : HoldsSettings tree' path' s' settings')
    (hlike : LookLike config.store s' config.entries settings') :
    ∃ config', load tree' (some path') = .ok config' ∧
      LookLike config.store config'.store config.entries config'.entries := by
  have hset : settings' ≠ [] := by
    rintro rfl
    exact h.entries_ne_nil (List.forall₂_nil_right_iff.mp hlike)
  have hformed := h'.isWellFormed
  rw [h'.load_eq, baseFor_of_ne_nil hset]
  obtain ⟨names, content, n, -, -, hn⟩ := h'
  exact merge_again hsettings h hformed hn hlike

/-- **Loading lays the settings of a file over the defaults**: a default is kept if it is not set, a
section that is set is overridden entry by entry, any other value that is set replaces the default,
and new keys come behind the others.  This fails just if a dictionary is set where the default is no
section.  What comes out is a fixed point: a file that holds it gives it again. -/
theorem load_overrides_defaults [Platform] (h : HoldsSettings tree path s settings) :
    LookLike defaults.store (baseFor s settings).store defaults.entries
      (baseFor s settings).entries ∧
    (settings ≠ [] → ∀ m < s.size, (baseFor s settings).store.datum m = s.datum m) ∧
    ((∃ config, load tree (some path) = .ok config) ↔
      ¬ ∃ e ∈ settings, ∃ o, (baseFor s settings).Clashes e o) ∧
    (∀ error, load tree (some path) = .error error → ∃ e ∈ settings, ∃ o,
      (baseFor s settings).Clashes e o ∧
        error = .notASection ((baseFor s settings).store.datum o.2).typeName) ∧
    ∀ config, load tree (some path) = .ok config →
      IsOverridden (baseFor s settings) settings config ∧
      ∀ tree' path' s' settings', HoldsSettings tree' path' s' settings' →
        LookLike config.store s' config.entries settings' →
        ∃ config', load tree' (some path') = .ok config' ∧
          LookLike config.store config'.store config.entries config'.entries := by
  have hbase : IsBase (baseFor s settings) := isBase_defaultsIn _
  refine ⟨alike_defaultsIn _ _, ?data, ?_⟩
  case data =>
    intro hset m hm
    rw [baseFor_of_ne_nil hset]
    exact datum_defaultsIn hm
  rw [h.load_eq]
  rcases merge_cases hbase h.areSettings with
    ⟨e, he, o, hclash, hmerge⟩ | ⟨hnot, config, hmerge, hlaid⟩
  · rw [hmerge]
    refine ⟨iff_of_false (by simp) (not_not.mpr ⟨e, he, o, hclash⟩), ?_, by simp⟩
    rintro _ ⟨⟩
    exact ⟨e, he, o, hclash, rfl⟩
  · rw [hmerge]
    refine ⟨iff_of_true ⟨config, rfl⟩ ?_, by simp, ?_⟩
    · rintro ⟨e, he, o, hclash⟩
      exact hnot e he o hclash
    · rintro _ ⟨⟩
      exact ⟨hlaid.isOverridden hbase h.areSettings, fun tree' path' s' settings' h' hlike =>
        hlaid.load_again h.areSettings h' hlike⟩

/-! ### A file of settings -/

/-- A file that sets a part of a section, a value and a key that is new. -/
def sampleText : Text :=
  ["output: \x7bindent_size: 4\x7d", "tab_width: 8", "lint: \x7b\x7d"].flatMap fun line =>
    line.toList ++ ['\n']

def sampleSettings : List (Nat × Nat) := [(1, 2), (5, 6), (7, 8)]

def sampleNodes : List (Yaml.Node × Datum) :=
  [sampleDict sampleSettings, sampleName "output", sampleDict [(3, 4)], sampleName "indent_size",
    (.scalar .int [.char '4'], .int 4), sampleName "tab_width",
    (.scalar .int [.char '8'], .int 8), sampleName "lint", sampleDict []]
where
  sampleName (t : String) : Yaml.Node × Datum := (.scalar .text (.ofText t.toList), textDatum t)
  sampleDict (entries : List (Nat × Nat)) : Yaml.Node × Datum :=
    (.mapping .mapping entries, .dict entries)

def sampleDocument : Yaml.Document := ⟨(sampleNodes.map Prod.fst).toArray, 0⟩

def sampleStore : Store := (sampleNodes.map Prod.snd).toArray

def sampleTree : FileTree := ⟨[], [(["io.yaml".toList], .file (Utf8.encode sampleText))]⟩

def samplePath : Path := ⟨[], ["io.yaml".toList]⟩

theorem ofBytes_sampleText :
    Yaml.Source.ofBytes (Utf8.encode sampleText) = { text := sampleText } := by
  refine Yaml.Source.ofBytes_of_short ?_ ?_ (Utf8.decode_encode sampleText) ?_ ?_ ?_ <;>
    decide +kernel

open Platform.Usual in
theorem ofTokens_sampleText :
    Yaml.Document.ofTokens (Yaml.tokensOf { text := sampleText }) = .ok (some sampleDocument) := by
  decide +kernel

theorem store_sampleDocument : sampleDocument.store = .ok sampleStore := by
  cbv

open Platform.Usual in
theorem holdsSettings_sampleTree :
    HoldsSettings sampleTree samplePath sampleStore sampleSettings := by
  refine ⟨["io.yaml".toList], Utf8.encode sampleText, 0, by decide +kernel, ?_, rfl⟩
  rw [ofBytes_sampleText, Yaml.read, ofTokens_sampleText]
  simp only [bind, Except.bind, store_sampleDocument]
  rfl

open Platform.Usual in
theorem load_overrides_defaults_sample :
    HoldsSettings sampleTree samplePath sampleStore sampleSettings ∧
      ∃ config, load sampleTree (some samplePath) = .ok config ∧
        IsOverridden (baseFor sampleStore sampleSettings) sampleSettings config := by
  have h := holdsSettings_sampleTree
  have hload : (load sampleTree (some samplePath)).isOk = true := by
    rw [h.load_eq]
    decide +kernel
  refine ⟨h, ?_⟩
  cases hconfig : load sampleTree (some samplePath) with
  | error e => rw [hconfig] at hload; cases hload
  | ok config => exact ⟨config, rfl, ((load_overrides_defaults h).2.2.2.2 config hconfig).1⟩

end IoSource.Configuration
