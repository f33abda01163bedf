import IoSource.Proofs.Configuration.Merging
import IoSource.Proofs.Yaml.Alike

/-!
# The default settings

The defaults are put behind the data that are there (`defaultsIn_eq`), so these keep their numbers.
Settings can be laid over them: the keys are names, and the two sections are theirs alone
(`isBase_defaultsIn`).
-/

namespace IoSource.Configuration

open Yaml (Datum Store OnEntries)

/-- The data of the defaults behind some number of others. -/
def defaultData (n : Nat) : List Datum :=
  [textDatum ".io",
    textDatum "pretty_print", .bool true, textDatum "indent_size", .int 2,
    textDatum "level", textDatum "INFO",
    textDatum "tab_width", .int defaultTabWidth,
    textDatum "strip_whitespace_on_save", .bool true,
    textDatum "interpreter_command", textDatum "io",
    textDatum "source_extensions", .list [n],
    textDatum "output", .dict [(n + 1, n + 2), (n + 3, n + 4)],
    textDatum "logging", .dict [(n + 5, n + 6)]]

def defaultEntries (n : Nat) : List (Nat × Nat) :=
  [(n + 7, n + 8), (n + 9, n + 10), (n + 11, n + 12), (n + 13, n + 14), (n + 15, n + 16),
    (n + 17, n + 18)]

theorem run_addDefaults (s : Store) :
    addDefaults.run s = pure (defaultEntries s.size, s ++ (defaultData s.size).toArray) := by
  simp only [addDefaults, add, addEntry, bind_pure_comp, List.mapM_cons, List.mapM_nil, map_pure,
    map_bind, Functor.map_map, bind_assoc, bind_map_left, StateT.run_bind, StateT.run_modifyGet,
    StateT.run_map, Array.size_push]
  rfl

theorem defaultsIn_eq (s : Store) :
    defaultsIn s = ⟨s ++ (defaultData s.size).toArray, defaultEntries s.size⟩ := by
  rw [defaultsIn, run_addDefaults]
  rfl

/-- The defaults leave the data that are there alone. -/
theorem datum_defaultsIn {s : Store} {m : Nat} (hm : m < s.size) :
    (defaultsIn s).store.datum m = s.datum m := by
  rw [defaultsIn_eq, Store.datum, Store.datum, Array.getD_eq_getD_getElem?,
    Array.getD_eq_getD_getElem?, Array.getElem?_append_left hm]

theorem datum_defaultsIn_add (s : Store) (k : Nat) :
    (defaultsIn s).store.datum (s.size + k) = (defaultData s.size).getD k .null := by
  rw [defaultsIn_eq, Store.datum, Array.getD_eq_getD_getElem?,
    Array.getElem?_append_right (Nat.le_add_right s.size k), Nat.add_sub_cancel_left,
    List.getElem?_toArray, List.getD_eq_getElem?_getD]

/-! ### Names -/

theorem named_of_names {s : Store} {entries : List (Nat × Nat)} (names : List String)
    (hnames : entries.map (fun e => s.datum e.1) = names.map textDatum)
    (hnodup : (names.map fun t => WideText.ofText t.toList).Nodup) : s.Named entries := by
  have hname : ∀ e ∈ entries, ∃ t, s.datum e.1 = .text t := by
    intro e he
    have hmem : s.datum e.1 ∈ names.map textDatum := by
      rw [← hnames]
      exact List.mem_map.mpr ⟨e, he, rfl⟩
    obtain ⟨t, -, ht⟩ := List.mem_map.mp hmem
    exact ⟨_, ht.symm⟩
  refine ⟨hname, ?_⟩
  have hdata : (entries.map fun e => s.datum e.1).Nodup := by
    have htexts : names.map textDatum = (names.map fun t =>
        WideText.ofText t.toList).map Datum.text := by
      rw [List.map_map]
      rfl
    rw [hnames, htexts]
    exact hnodup.map fun t u => Datum.text.inj
  refine (List.pairwise_map.mp hdata).imp_of_mem fun {e f} he hf hne => ?_
  obtain ⟨t, ht⟩ := hname e he
  rw [← Bool.not_eq_true, Store.sameKey_name_left ht]
  intro hft
  exact hne (ht.trans hft.symm)

def defaultNames : List String :=
  ["tab_width", "strip_whitespace_on_save", "interpreter_command", "source_extensions", "output",
    "logging"]

theorem entries_defaultsIn (s : Store) : (defaultsIn s).entries = defaultEntries s.size := by
  rw [defaultsIn_eq]

theorem size_defaultsIn (s : Store) : (defaultsIn s).store.size = s.size + 19 := by
  rw [defaultsIn_eq, Array.size_append]
  rfl

theorem mem_defaultEntries_iff {n : Nat} {o : Nat × Nat} : o ∈ defaultEntries n ↔
    o = (n + 7, n + 8) ∨ o = (n + 9, n + 10) ∨ o = (n + 11, n + 12) ∨ o = (n + 13, n + 14) ∨
      o = (n + 15, n + 16) ∨ o = (n + 17, n + 18) := by
  simp [defaultEntries]

theorem named_defaultsIn (s : Store) : (defaultsIn s).store.Named (defaultsIn s).entries := by
  refine named_of_names defaultNames ?_ (by decide)
  rw [entries_defaultsIn]
  simp only [defaultEntries, List.map_cons, List.map_nil, datum_defaultsIn_add]
  rfl

theorem le_of_mem_defaultsIn {s : Store} {o : Nat × Nat} (ho : o ∈ (defaultsIn s).entries) :
    s.size ≤ o.2 ∧ o.2 < (defaultsIn s).store.size := by
  rw [entries_defaultsIn, mem_defaultEntries_iff] at ho
  rw [size_defaultsIn]
  rcases ho with rfl | rfl | rfl | rfl | rfl | rfl <;> simp

theorem isBase_defaultsIn (s : Store) : IsBase (defaultsIn s) := by
  refine ⟨named_defaultsIn s, ?apart, fun o ho => (le_of_mem_defaultsIn ho).2, ?sections⟩
  case apart =>
    rw [entries_defaultsIn]
    simp [defaultEntries]
  case sections =>
    intro o ho own hown
    rw [entries_defaultsIn, mem_defaultEntries_iff] at ho
    rcases ho with rfl | rfl | rfl | rfl | rfl | rfl <;> rw [datum_defaultsIn_add] at hown
    · exact absurd hown (by simp [defaultData])
    · exact absurd hown (by simp [defaultData])
    · exact absurd hown (by simp [defaultData, textDatum])
    · exact absurd hown (by simp [defaultData])
    · obtain rfl := Datum.dict.inj hown
      refine named_of_names ["pretty_print", "indent_size"] ?_ (by decide)
      simp only [List.map_cons, List.map_nil, datum_defaultsIn_add]
      rfl
    · obtain rfl := Datum.dict.inj hown
      refine named_of_names ["level"] ?_ (by decide)
      simp only [List.map_cons, List.map_nil, datum_defaultsIn_add]
      rfl

/-! ### The defaults next to other data -/

theorem matches_defaultData {R : Nat → Nat → Prop} {n n' : Nat}
    (hR : ∀ k, R (n + k) (n' + k)) :
    List.Forall₂ (Datum.Matches R) (defaultData n) (defaultData n') := by
  simp only [defaultData, List.forall₂_cons, List.Forall₂.nil, and_true]
  exact ⟨.scalar rfl, .scalar rfl, .scalar rfl, .scalar rfl, .scalar rfl, .scalar rfl, .scalar rfl,
    .scalar rfl, .scalar rfl, .scalar rfl, .scalar rfl, .scalar rfl, .scalar rfl, .scalar rfl,
    .list (.cons (hR 0) .nil), .scalar rfl,
    .dict (.cons ⟨hR 1, hR 2⟩ (.cons ⟨hR 3, hR 4⟩ .nil)), .scalar rfl,
    .dict (.cons ⟨hR 5, hR 6⟩ .nil)⟩

theorem matches_getD {R : Nat → Nat → Prop} {data data' : List Datum}
    (h : List.Forall₂ (Datum.Matches R) data data') (k : Nat) :
    (data.getD k .null).Matches R (data'.getD k .null) := by
  induction h generalizing k with
  | nil => exact .scalar rfl
  | cons hd _ ih =>
    cases k with
    | zero => exact hd
    | succ k => exact ih k

theorem alike_add (s s' : Store) (k : Nat) :
    (defaultsIn s).store.Alike (defaultsIn s').store (s.size + k) (s'.size + k) := by
  refine ⟨fun a b => ∃ k, a = s.size + k ∧ b = s'.size + k, ?_, k, rfl, rfl⟩
  rintro _ _ ⟨k, rfl, rfl⟩
  rw [datum_defaultsIn_add, datum_defaultsIn_add]
  exact matches_getD (matches_defaultData fun k => ⟨k, rfl, rfl⟩) k

/-- Wherever the defaults stand, they look the same. -/
theorem alike_defaultsIn (s s' : Store) :
    List.Forall₂ (OnEntries ((defaultsIn s).store.Alike (defaultsIn s').store))
      (defaultsIn s).entries (defaultsIn s').entries := by
  have halike := alike_add s s'
  rw [entries_defaultsIn, entries_defaultsIn]
  simp only [defaultEntries, List.forall₂_cons, List.Forall₂.nil, and_true]
  exact ⟨⟨halike 7, halike 8⟩, ⟨halike 9, halike 10⟩, ⟨halike 11, halike 12⟩,
    ⟨halike 13, halike 14⟩, ⟨halike 15, halike 16⟩, ⟨halike 17, halike 18⟩⟩

/-- Entries of two stores have one name, and are sections with the same names or no sections. -/
structure Corresponds (s s' : Store) (o o' : Nat × Nat) : Prop where
  name : s.SameName s' o o'
  isDict : (s.datum o.2).isDict = (s'.datum o'.2).isDict
  own : ∀ own own', s.datum o.2 = .dict own → s'.datum o'.2 = .dict own' →
    List.Forall₂ (s.SameName s') own own'

theorem IsBase.corresponds {base base' : Configuration} (hbase : IsBase base) {o o' : Nat × Nat}
    (ho : o ∈ base.entries) (hoo' : OnEntries (base.store.Alike base'.store) o o') :
    Corresponds base.store base'.store o o' := by
  refine ⟨hbase.named.sameName ho hoo'.1, hoo'.2.matches.isDict_eq, ?_⟩
  intro own own' hown hown'
  have hentries := hoo'.2.matches
  rw [hown, hown'] at hentries
  obtain ⟨_, heq, hentries⟩ := hentries.exists_dict
  obtain rfl := Datum.dict.inj heq
  have hnamed := hbase.sections o ho own hown
  exact Yaml.forall₂_imp_of_mem hentries fun e he e' _ hee' => hnamed.sameName he hee'.1

theorem corresponds_defaultsIn (s s' : Store) :
    List.Forall₂ (Corresponds (defaultsIn s).store (defaultsIn s').store)
      (defaultsIn s).entries (defaultsIn s').entries :=
  Yaml.forall₂_imp_of_mem (alike_defaultsIn s s') fun _ ho _ _ hoo' =>
    (isBase_defaultsIn s).corresponds ho hoo'

end IoSource.Configuration
