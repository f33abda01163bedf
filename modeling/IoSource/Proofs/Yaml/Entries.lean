import IoSource.Yaml.Datum
import Mathlib.Data.List.Basic

/-!
# The entries of a dictionary

A dictionary has each key once (`Store.Distinct`).  Setting an entry replaces the value at its key,
or puts it behind the others; setting several entries overrides a dictionary by another one, and
`setEntries_eq_overridden` says in one step what comes out.

The dictionaries that are overridden have names for keys, and a name is one key with the same name
alone.
-/

namespace IoSource.Yaml

namespace Datum

def isDict : Datum → Bool
  | dict _ => true
  | _ => false

theorem isDict_iff {d : Datum} : d.isDict = true ↔ ∃ entries, d = dict entries := by
  cases d <;> simp [isDict]

theorem text_same_iff {t : WideText} {d : Datum} : (text t).same d = true ↔ d = text t := by
  cases d <;> simp [same, number?, eq_comm]

theorem same_dict_left {d : Datum} (hd : d.isDict = true) (e : Datum) : d.same e = false := by
  obtain ⟨entries, rfl⟩ := isDict_iff.mp hd
  cases e <;> rfl

theorem same_dict_right {e : Datum} (he : e.isDict = true) (d : Datum) : d.same e = false := by
  obtain ⟨entries, rfl⟩ := isDict_iff.mp he
  cases d <;> simp [same, number?]

end Datum

namespace Store

variable {s s' : Store} {entries own added : List (Nat × Nat)} {key value : Nat}

/-- No two of some entries have one key. -/
def Distinct (s : Store) (entries : List (Nat × Nat)) : Prop :=
  entries.Pairwise fun e f => s.sameKey e.1 f.1 = false

/-- The keys of some entries are names, and each name stands there once. -/
structure Named (s : Store) (entries : List (Nat × Nat)) : Prop where
  name : ∀ e ∈ entries, ∃ t, s.datum e.1 = .text t
  distinct : s.Distinct entries

def at? (s : Store) (entries : List (Nat × Nat)) (key : Nat) : Option Nat :=
  (entries.find? fun e => s.sameKey key e.1).map Prod.snd

def hasKey (s : Store) (entries : List (Nat × Nat)) (key : Nat) : Bool :=
  entries.any fun e => s.sameKey e.1 key

/-- Entries overridden by others, one by one: every key keeps its place, and new keys come last. -/
def overridden (s : Store) (own added : List (Nat × Nat)) : List (Nat × Nat) :=
  own.map (fun e => (e.1, (s.at? added e.1).getD e.2)) ++
    added.filter fun e => !s.hasKey own e.1

/-! ### Keys -/

theorem sameKey_name_left {t : WideText} {m n : Nat} (hm : s.datum m = .text t) :
    s.sameKey m n = true ↔ s.datum n = .text t := by
  rw [sameKey, hm, Bool.or_eq_true, Datum.text_same_iff, decide_eq_true_iff]
  refine ⟨?_, Or.inr⟩
  rintro (rfl | h)
  · exact hm
  · exact h

/-- A key that is found under its own name is found by its datum alone. -/
theorem same_eq_sameKey {t : WideText} {m : Nat} (hm : s.datum m = .text t) (n : Nat) :
    (s.datum m).same (s.datum n) = s.sameKey m n := by
  rw [Bool.eq_iff_iff, sameKey_name_left hm, hm, Datum.text_same_iff]

theorem Distinct.sublist {entries' : List (Nat × Nat)} (h : s.Distinct entries)
    (hsub : entries'.Sublist entries) : s.Distinct entries' :=
  List.Pairwise.sublist hsub h

theorem Distinct.unique (h : s.Distinct entries) {e f : Nat × Nat} (he : e ∈ entries)
    (hf : f ∈ entries) {t : WideText} (het : s.datum e.1 = .text t)
    (hft : s.datum f.1 = .text t) : e = f := by
  by_contra hne
  have hkeys := List.Pairwise.forall_of_forall_of_flip (R := fun e f : Nat × Nat =>
    e ≠ f → s.sameKey e.1 f.1 = false ∨ s.sameKey f.1 e.1 = false) (fun _ _ h => absurd rfl h)
    (h.imp fun h _ => Or.inl h) (h.imp fun h _ => Or.inr h) he hf hne
  rw [← Bool.not_eq_true, ← Bool.not_eq_true, sameKey_name_left het, sameKey_name_left hft] at hkeys
  exact hkeys.elim (absurd hft) (absurd het)

theorem Named.unique (h : s.Named entries) {e f : Nat × Nat} (he : e ∈ entries) (hf : f ∈ entries)
    (hekey : s.sameKey e.1 key = true) (hfkey : s.sameKey f.1 key = true) : e = f := by
  obtain ⟨t, ht⟩ := h.name e he
  obtain ⟨u, hu⟩ := h.name f hf
  have hnames : Datum.text t = .text u :=
    ((sameKey_name_left ht).mp hekey).symm.trans ((sameKey_name_left hu).mp hfkey)
  obtain rfl := Datum.text.inj hnames
  exact h.distinct.unique he hf ht hu

/-! ### Setting entries -/

theorem setEntry_of_new (h : s.hasKey entries key = false) :
    s.setEntry entries key value = entries ++ [(key, value)] := by
  induction entries with
  | nil => rfl
  | cons e rest ih =>
    rw [hasKey, List.any_cons, Bool.or_eq_false_iff] at h
    rw [setEntry, if_neg (by rw [h.1]; exact Bool.false_ne_true), ih h.2, List.cons_append]

theorem setEntry_of_hasKey (h : s.hasKey entries key = true)
    (honce : entries.Pairwise fun e f => s.sameKey e.1 key = true → s.sameKey f.1 key = false) :
    s.setEntry entries key value =
      entries.map fun e => (e.1, if s.sameKey e.1 key then value else e.2) := by
  induction entries with
  | nil => exact absurd h (by simp [hasKey])
  | cons e rest ih =>
    rw [List.pairwise_cons] at honce
    rw [setEntry, List.map_cons]
    by_cases he : s.sameKey e.1 key = true
    · have hrest : rest.map (fun e => (e.1, if s.sameKey e.1 key then value else e.2)) = rest := by
        refine (List.map_congr_left fun f hf => ?_).trans (List.map_id rest)
        rw [honce.1 f hf he]
        rfl
      rw [if_pos he, if_pos he, hrest]
    · rw [hasKey, List.any_cons, Bool.or_eq_true, or_iff_right he] at h
      rw [if_neg he, if_neg he, ih h honce.2]

theorem mem_setEntry {e : Nat × Nat} (he : e ∈ s.setEntry entries key value) :
    e.1 = key ∨ ∃ f ∈ entries, f.1 = e.1 := by
  induction entries with
  | nil =>
    rw [List.mem_singleton.mp he]
    exact Or.inl rfl
  | cons f rest ih =>
    rw [setEntry] at he
    split at he
    · rcases List.mem_cons.mp he with rfl | he
      · exact Or.inr ⟨f, List.mem_cons_self, rfl⟩
      · exact Or.inr ⟨e, List.mem_cons_of_mem f he, rfl⟩
    · rcases List.mem_cons.mp he with rfl | he
      · exact Or.inr ⟨f, List.mem_cons_self, rfl⟩
      · rcases ih he with heq | ⟨g, hg, heq⟩
        · exact Or.inl heq
        · exact Or.inr ⟨g, List.mem_cons_of_mem f hg, heq⟩

theorem Distinct.setEntry (h : s.Distinct entries) (key value : Nat) :
    s.Distinct (s.setEntry entries key value) := by
  induction entries with
  | nil => exact List.pairwise_singleton _ _
  | cons f rest ih =>
    obtain ⟨hfirst, hrest⟩ := List.pairwise_cons.mp h
    rw [Store.setEntry]
    split
    · exact List.pairwise_cons.mpr ⟨hfirst, hrest⟩
    · next hother =>
      refine List.pairwise_cons.mpr ⟨fun e he => ?_, ih hrest⟩
      rcases mem_setEntry he with heq | ⟨g, hg, heq⟩
      · rw [heq, ← Bool.not_eq_true]
        exact hother
      · rw [← heq]
        exact hfirst g hg

theorem hasKey_append (entries more : List (Nat × Nat)) (key : Nat) :
    s.hasKey (entries ++ more) key = (s.hasKey entries key || s.hasKey more key) :=
  List.any_append

theorem hasKey_overridden (own added : List (Nat × Nat)) (key : Nat) :
    s.hasKey (s.overridden own added) key =
      (s.hasKey own key || s.hasKey (added.filter fun e => !s.hasKey own e.1) key) := by
  rw [overridden, hasKey_append]
  congr 1
  rw [hasKey, List.any_map]
  rfl

theorem hasKey_eq_false_iff : s.hasKey entries key = false ↔
    ∀ e ∈ entries, s.sameKey e.1 key = false := by
  rw [hasKey, List.any_eq_false]
  simp only [Bool.not_eq_true]

theorem at?_eq_none_iff : s.at? entries key = none ↔
    ∀ e ∈ entries, s.sameKey key e.1 = false := by
  rw [at?, Option.map_eq_none_iff, List.find?_eq_none]
  simp only [Bool.not_eq_true]

theorem exists_of_at? (h : s.at? entries key = some value) :
    ∃ e ∈ entries, s.sameKey key e.1 = true ∧ e.2 = value := by
  obtain ⟨e, he, rfl⟩ := Option.map_eq_some_iff.mp h
  exact ⟨e, List.mem_of_find?_eq_some he, by simpa using List.find?_some he, rfl⟩

theorem at?_of_mem {e : Nat × Nat} (he : e ∈ entries) (hkey : s.sameKey key e.1 = true)
    (honce : ∀ f ∈ entries, s.sameKey key f.1 = true → f = e) : s.at? entries key = some e.2 := by
  rw [at?]
  cases hfind : entries.find? fun e => s.sameKey key e.1 with
  | none => exact absurd hkey (List.find?_eq_none.mp hfind e he)
  | some f =>
    have hfkey : s.sameKey key f.1 = true := by simpa using List.find?_some hfind
    rw [honce f (List.mem_of_find?_eq_some hfind) hfkey]
    rfl

theorem at?_concat (entries : List (Nat × Nat)) (e : Nat × Nat) (key : Nat) :
    s.at? (entries ++ [e]) key =
      (s.at? entries key).or (if s.sameKey key e.1 then some e.2 else none) := by
  rw [at?, at?, List.find?_append, List.find?_singleton, Option.map_or]
  congr 1
  cases s.sameKey key e.1 <;> rfl

theorem Named.sameKey_self (h : s.Named entries) {e : Nat × Nat} (he : e ∈ entries) :
    s.sameKey e.1 e.1 = true := by
  obtain ⟨t, ht⟩ := h.name e he
  exact (sameKey_name_left ht).mpr ht

/-- Where a name is one key with another key, it has no value among entries without that key. -/
theorem Named.at?_eq_none (h : s.Named own) {o : Nat × Nat} (ho : o ∈ own)
    (hkey : s.sameKey o.1 key = true) (hnew : s.hasKey added key = false) :
    s.at? added o.1 = none := by
  obtain ⟨t, ht⟩ := h.name o ho
  rw [sameKey_name_left ht] at hkey
  rw [at?_eq_none_iff]
  intro f hf
  rw [← Bool.not_eq_true, sameKey_name_left ht]
  intro hft
  have hfalse := hasKey_eq_false_iff.mp hnew f hf
  rw [(sameKey_name_left hft).mpr hkey] at hfalse
  exact absurd hfalse (by simp)

/-- Overridden by entries without a key, named entries have it once at most. -/
theorem Named.once_overridden (h : s.Named own) (hnew : s.hasKey added key = false) :
    (s.overridden own added).Pairwise fun f g =>
      s.sameKey f.1 key = true → s.sameKey g.1 key = false := by
  have hadded : ∀ f ∈ added.filter fun e => !s.hasKey own e.1, s.sameKey f.1 key = false :=
    fun f hf => hasKey_eq_false_iff.mp hnew f (List.mem_of_mem_filter hf)
  refine List.pairwise_append.mpr ⟨?_, ?_, fun f _ g hg _ => hadded g hg⟩
  · refine List.pairwise_map.mpr (h.distinct.imp_of_mem fun {f g} hf hg hfg hfkey => ?_)
    rw [← Bool.not_eq_true]
    intro hgkey
    obtain rfl := h.unique hf hg hfkey hgkey
    rw [h.sameKey_self hf] at hfg
    exact absurd hfg (by simp)
  · exact List.pairwise_of_forall_mem_list fun f _ g hg _ => hadded g hg

/-- One more entry overrides one more value, or comes last. -/
theorem setEntry_overridden (hown : s.Named own) {e : Nat × Nat}
    (hnew : s.hasKey added e.1 = false) :
    s.setEntry (s.overridden own added) e.1 e.2 = s.overridden own (added ++ [e]) := by
  have hfiltered : ∀ f ∈ added.filter fun e => !s.hasKey own e.1, s.sameKey f.1 e.1 = false :=
    fun f hf => hasKey_eq_false_iff.mp hnew f (List.mem_of_mem_filter hf)
  cases hhas : s.hasKey own e.1 with
  | true =>
    have hall : s.hasKey (s.overridden own added) e.1 = true := by
      rw [hasKey_overridden, hhas, Bool.true_or]
    rw [setEntry_of_hasKey hall (hown.once_overridden hnew), overridden, overridden,
      List.map_append, List.map_map, List.filter_append, List.filter_singleton, hhas,
      Bool.not_true, cond_false, List.append_nil]
    congr 1
    · refine List.map_congr_left fun o ho => ?_
      rw [at?_concat, Function.comp_apply]
      by_cases hkey : s.sameKey o.1 e.1 = true
      · rw [if_pos hkey, if_pos hkey, hown.at?_eq_none ho hkey hnew]
        rfl
      · rw [if_neg hkey, if_neg hkey, Option.or_none]
    · refine (List.map_congr_left fun f hf => ?_).trans (List.map_id _)
      rw [hfiltered f hf]
      rfl
  | false =>
    have hnone : s.hasKey (s.overridden own added) e.1 = false := by
      rw [hasKey_overridden, hhas, hasKey_eq_false_iff.mpr hfiltered, Bool.false_or]
    have hsame : own.map (fun o => (o.1, (s.at? (added ++ [e]) o.1).getD o.2)) =
        own.map fun o => (o.1, (s.at? added o.1).getD o.2) := by
      refine List.map_congr_left fun o ho => ?_
      rw [at?_concat, hasKey_eq_false_iff.mp hhas o ho, if_neg Bool.false_ne_true, Option.or_none]
    rw [setEntry_of_new hnone, overridden, overridden, hsame, List.filter_append,
      List.filter_singleton, hhas, Bool.not_false, cond_true, List.append_assoc]

theorem overridden_nil (own : List (Nat × Nat)) : s.overridden own [] = own := by
  rw [overridden, List.filter_nil, List.append_nil]
  exact List.map_id own

/-- **Setting the entries of a dictionary** overrides those that there are. -/
theorem setEntries_eq_overridden (hown : s.Named own) (hadded : s.Distinct added) :
    s.setEntries own added = s.overridden own added := by
  suffices h : ∀ before, s.Distinct (before ++ added) →
      added.foldl (fun all e => s.setEntry all e.1 e.2) (s.overridden own before) =
        s.overridden own (before ++ added) by
    have hwhole := h [] hadded
    rwa [overridden_nil, List.nil_append] at hwhole
  clear hadded
  induction added with
  | nil =>
    intro before hbefore
    rw [List.append_nil]
    rfl
  | cons e rest ih =>
    intro before hbefore
    have hnew : s.hasKey before e.1 = false := by
      rw [hasKey_eq_false_iff]
      intro f hf
      exact (List.pairwise_append.mp hbefore).2.2 f hf e List.mem_cons_self
    rw [List.append_cons] at hbefore ⊢
    rw [List.foldl_cons, setEntry_overridden hown hnew, ih (before ++ [e]) hbefore]

/-! ### Looking up -/

theorem lookup?_of_new (h : ∀ e ∈ entries, (s.datum e.1).same (s.datum key) = false) :
    s.lookup? (s.datum key) entries = none := by
  induction entries with
  | nil => rfl
  | cons e rest ih =>
    rw [List.forall_mem_cons] at h
    rw [lookup?, if_neg (by rw [h.1]; exact Bool.false_ne_true), ih h.2]

theorem lookup?_of_mem {e : Nat × Nat} (he : e ∈ entries)
    (hsame : (s.datum e.1).same (s.datum key) = true)
    (honce : ∀ f ∈ entries, (s.datum f.1).same (s.datum key) = true → f = e) :
    s.lookup? (s.datum key) entries = some e.2 := by
  induction entries with
  | nil => exact absurd he (by simp)
  | cons f rest ih =>
    rw [lookup?]
    by_cases hf : (s.datum f.1).same (s.datum key) = true
    · rw [if_pos hf, honce f List.mem_cons_self hf]
    · have hrest : e ∈ rest := by
        rcases List.mem_cons.mp he with rfl | hrest
        · exact absurd hsame hf
        · exact hrest
      rw [if_neg hf, ih hrest fun g hg => honce g (List.mem_cons_of_mem f hg)]

/-! ### Stores with the same keys -/

/-- Two stores hold the same data, dictionaries apart. -/
def SameKeys (s s' : Store) : Prop :=
  ∀ m, s'.datum m = s.datum m ∨ (s.datum m).isDict = true ∧ (s'.datum m).isDict = true

theorem SameKeys.same_eq (h : s.SameKeys s') (m n : Nat) :
    (s'.datum m).same (s'.datum n) = (s.datum m).same (s.datum n) := by
  rcases h m with hm | ⟨hm, hm'⟩
  · rcases h n with hn | ⟨hn, hn'⟩
    · rw [hm, hn]
    · rw [Datum.same_dict_right hn, Datum.same_dict_right hn']
  · rw [Datum.same_dict_left hm, Datum.same_dict_left hm']

theorem SameKeys.sameKey_eq (h : s.SameKeys s') (m n : Nat) : s'.sameKey m n = s.sameKey m n := by
  rw [sameKey, sameKey, h.same_eq]

theorem SameKeys.hasKey_eq (h : s.SameKeys s') (entries : List (Nat × Nat)) (key : Nat) :
    s'.hasKey entries key = s.hasKey entries key := by
  simp only [hasKey, h.sameKey_eq]

theorem SameKeys.distinct_iff (h : s.SameKeys s') : s'.Distinct entries ↔ s.Distinct entries := by
  simp only [Distinct, h.sameKey_eq]

theorem SameKeys.overridden_eq (h : s.SameKeys s') (own added : List (Nat × Nat)) :
    s'.overridden own added = s.overridden own added := by
  simp only [overridden, at?, h.hasKey_eq, h.sameKey_eq]

theorem SameKeys.name (h : s.SameKeys s') {m : Nat} {t : WideText} (hm : s.datum m = .text t) :
    s'.datum m = .text t := by
  rcases h m with hsame | ⟨hdict, -⟩
  · exact hsame.trans hm
  · rw [hm] at hdict
    exact absurd hdict (by simp [Datum.isDict])

theorem SameKeys.isDict_eq (h : s.SameKeys s') (m : Nat) :
    (s'.datum m).isDict = (s.datum m).isDict := by
  rcases h m with hsame | ⟨hdict, hdict'⟩
  · rw [hsame]
  · rw [hdict, hdict']

theorem SameKeys.setEntry_eq (h : s.SameKeys s') (entries : List (Nat × Nat)) (key value : Nat) :
    s'.setEntry entries key value = s.setEntry entries key value := by
  induction entries with
  | nil => rfl
  | cons e rest ih => rw [setEntry, setEntry, h.sameKey_eq, ih]

theorem SameKeys.setEntries_eq (h : s.SameKeys s') (entries added : List (Nat × Nat)) :
    s'.setEntries entries added = s.setEntries entries added := by
  rw [setEntries, setEntries]
  congr 1
  funext all e
  exact h.setEntry_eq all e.1 e.2

end Store

end IoSource.Yaml
