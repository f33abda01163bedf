import IoSource.Configuration
import IoSource.Proofs.Yaml.Entries
import Mathlib.Data.List.Nodup

/-!
# Laying settings over a configuration

A setting that is laid over a configuration gives a key a value, except that a dictionary under a
known key is laid over the section there, entry by entry.  What has come out after some settings is
said at once by `IsLaidOver`: `lay_cases` is about one more setting, and `merge_cases` about all of
them.  Merging fails only where a section would be laid over what is none (`Clashes`).
-/

namespace IoSource.Configuration

open Yaml (Datum Store)

/-- A configuration that settings can be laid over: its keys are names, and so are those of its
sections, each of which is a dictionary of its own. -/
structure IsBase (base : Configuration) : Prop where
  named : base.store.Named base.entries
  apart : (base.entries.map Prod.snd).Nodup
  inside : ∀ o ∈ base.entries, o.2 < base.store.size
  sections : ∀ o ∈ base.entries, ∀ own, base.store.datum o.2 = .dict own → base.store.Named own

/-- Settings that can be laid over a configuration, next to which they stand: each key is there
once, also in sections, and no value is the configuration's own. -/
structure AreSettings (base : Configuration) (settings : List (Nat × Nat)) : Prop where
  distinct : base.store.Distinct settings
  apart : ∀ e ∈ settings, ∀ o ∈ base.entries, e.2 ≠ o.2
  sections : ∀ e ∈ settings, ∀ added, base.store.datum e.2 = .dict added →
    base.store.Distinct added

/-- A dictionary under a key that is known is laid over what is there. -/
def laysSection (base : Configuration) (e : Nat × Nat) : Bool :=
  (base.store.datum e.2).isDict && base.store.hasKey base.entries e.1

/-- A setting overrides the entries of a section by entries of its own. -/
structure Overrides (base : Configuration) (e o : Nat × Nat) (own added : List (Nat × Nat)) :
    Prop where
  mem : o ∈ base.entries
  key : base.store.sameKey o.1 e.1 = true
  own : base.store.datum o.2 = .dict own
  added : base.store.datum e.2 = .dict added

/-- A setting is a dictionary, and what has its key is no section. -/
structure Clashes (base : Configuration) (e o : Nat × Nat) : Prop where
  mem : o ∈ base.entries
  key : base.store.sameKey o.1 e.1 = true
  value : (base.store.datum e.2).isDict = true
  notASection : (base.store.datum o.2).isDict = false

/-- What comes out when settings have been laid over a configuration. -/
structure IsLaidOver (base : Configuration) (settings : List (Nat × Nat))
    (config : Configuration) : Prop where
  entries : config.entries =
    base.store.overridden base.entries (settings.filter fun e => !base.laysSection e)
  size : config.store.size = base.store.size
  sections : ∀ e ∈ settings, ∀ o own added, base.Overrides e o own added →
    config.store.datum o.2 = .dict (base.store.overridden own added)
  others : ∀ m, (∀ e ∈ settings, ∀ o own added, base.Overrides e o own added → o.2 ≠ m) →
    config.store.datum m = base.store.datum m

/-! ### One setting -/

section Lay

variable {config : Configuration} {e : Nat × Nat} {n : Nat} {own added : List (Nat × Nat)}

theorem lay_section (hvalue : config.store.datum e.2 = .dict added)
    (hlookup : config.store.lookup? (config.store.datum e.1) config.entries = some n)
    (hn : config.store.datum n = .dict own) :
    lay config e = .ok { config with
      store := config.store.setIfInBounds n (.dict (config.store.setEntries own added)) } := by
  simp only [lay, hvalue, hlookup, hn]

theorem lay_clash (hvalue : config.store.datum e.2 = .dict added)
    (hlookup : config.store.lookup? (config.store.datum e.1) config.entries = some n)
    (hn : (config.store.datum n).isDict = false) :
    lay config e = .error (.notASection (config.store.datum n).typeName) := by
  simp only [lay, hvalue, hlookup]
  split
  · next heq =>
    rw [heq] at hn
    exact absurd hn (by simp [Datum.isDict])
  · rfl

theorem lay_setting (h : (config.store.datum e.2).isDict = false ∨
      config.store.lookup? (config.store.datum e.1) config.entries = none) :
    lay config e = .ok { config with
      entries := config.store.setEntry config.entries e.1 e.2 } := by
  simp only [lay]
  split
  · next hvalue hlookup =>
    rw [hvalue, hlookup] at h
    exact absurd h (by simp [Datum.isDict])
  · rfl

end Lay

variable {base config : Configuration} {settings before : List (Nat × Nat)} {e o : Nat × Nat}
  {own added : List (Nat × Nat)}

theorem IsBase.eq_of_value (hbase : IsBase base) {o' : Nat × Nat} (ho : o ∈ base.entries)
    (ho' : o' ∈ base.entries) (heq : o.2 = o'.2) : o = o' :=
  List.inj_on_of_nodup_map hbase.apart ho ho' heq

theorem laysSection_eq_false_iff : base.laysSection e = false ↔
    (base.store.datum e.2).isDict = false ∨ base.store.hasKey base.entries e.1 = false := by
  rw [laysSection, Bool.and_eq_false_iff]

theorem Overrides.laysSection (h : base.Overrides e o own added) : base.laysSection e = true := by
  have hvalue : (base.store.datum e.2).isDict = true := by
    rw [h.added]
    rfl
  rw [Configuration.laysSection, hvalue, Bool.true_and]
  exact List.any_eq_true.mpr ⟨o, h.mem, h.key⟩

theorem Overrides.unique (hbase : IsBase base) (hsettings : base.store.Distinct (before ++ [e]))
    (h : base.Overrides e o own added) {e' : Nat × Nat} (he' : e' ∈ before)
    {own' added' : List (Nat × Nat)} : ¬ base.Overrides e' o own' added' := by
  intro h'
  obtain ⟨t, ht⟩ := hbase.named.name o h.mem
  have he := (Store.sameKey_name_left ht).mp h.key
  have hsame := (Store.sameKey_name_left ((Store.sameKey_name_left ht).mp h'.key)).mpr he
  have hdistinct := (List.pairwise_append.mp hsettings).2.2 e' he' e List.mem_cons_self
  rw [hsame] at hdistinct
  exact absurd hdistinct (by simp)

namespace IsLaidOver

theorem refl (base : Configuration) : IsLaidOver base [] base := by
  refine ⟨?_, rfl, fun e he => absurd he (by simp), fun m _ => rfl⟩
  rw [List.filter_nil, Store.overridden_nil]

/-- Only dictionaries are replaced, and by dictionaries. -/
theorem sameKeys (h : IsLaidOver base settings config) : base.store.SameKeys config.store := by
  intro m
  by_cases hm : ∃ e ∈ settings, ∃ o own added, base.Overrides e o own added ∧ o.2 = m
  · obtain ⟨e, he, o, own, added, ho, rfl⟩ := hm
    rw [h.sections e he o own added ho, ho.own]
    exact Or.inr ⟨rfl, rfl⟩
  · refine Or.inl (h.others m fun e he o own added ho heq => ?_)
    exact hm ⟨e, he, o, own, added, ho, heq⟩

/-- What is not the configuration's own stays as it is. -/
theorem datum_apart (h : IsLaidOver base settings config) {m : Nat}
    (hm : ∀ o ∈ base.entries, m ≠ o.2) : config.store.datum m = base.store.datum m :=
  h.others m fun _ _ o _ _ ho => (hm o ho.mem).symm

theorem datum_unset (h : IsLaidOver base settings config) (hbase : IsBase base)
    (ho : o ∈ base.entries) (hkey : ∀ e ∈ settings, base.store.sameKey o.1 e.1 = false) :
    config.store.datum o.2 = base.store.datum o.2 := by
  refine h.others o.2 fun e he o' own added ho' heq => ?_
  obtain rfl := hbase.eq_of_value ho'.mem ho heq
  have hfalse := hkey e he
  rw [ho'.key] at hfalse
  exact absurd hfalse (by simp)

variable (hbase : IsBase base) (h : IsLaidOver base before config)
  (hnew : base.store.hasKey before e.1 = false)

include h hnew in
theorem lookup?_of_new (hunknown : base.store.hasKey base.entries e.1 = false) :
    config.store.lookup? (config.store.datum e.1) config.entries = none := by
  refine Store.lookup?_of_new fun f hf => ?_
  rw [h.entries] at hf
  have hall : base.store.hasKey (base.store.overridden base.entries
      (before.filter fun e => !base.laysSection e)) e.1 = false := by
    rw [Store.hasKey_overridden, hunknown, Bool.false_or, Store.hasKey_eq_false_iff]
    intro f hf
    exact Store.hasKey_eq_false_iff.mp hnew f
      (List.mem_of_mem_filter (List.mem_of_mem_filter hf))
  have hf' := Store.hasKey_eq_false_iff.mp hall f hf
  rw [Store.sameKey, Bool.or_eq_false_iff] at hf'
  rw [h.sameKeys.same_eq, hf'.2]

include hbase h hnew in
/-- A key that is known and has not been set has the value that it had. -/
theorem lookup?_of_known (ho : o ∈ base.entries) (hkey : base.store.sameKey o.1 e.1 = true) :
    config.store.lookup? (config.store.datum e.1) config.entries = some o.2 := by
  have hfiltered : base.store.hasKey (before.filter fun e => !base.laysSection e) e.1 = false :=
    Store.hasKey_eq_false_iff.mpr fun f hf =>
      Store.hasKey_eq_false_iff.mp hnew f (List.mem_of_mem_filter hf)
  have hsame : ∀ f, (config.store.datum f).same (config.store.datum e.1) = true →
      base.store.sameKey f e.1 = true := by
    intro f hf
    rw [h.sameKeys.same_eq] at hf
    rw [Store.sameKey, hf, Bool.or_true]
  have hentry : ∀ o' ∈ base.entries, base.store.sameKey o'.1 e.1 = true →
      (o'.1, (base.store.at? (before.filter fun e => !base.laysSection e) o'.1).getD o'.2) = o := by
    intro o' ho' hkey'
    rw [hbase.named.at?_eq_none ho' hkey' hfiltered]
    exact hbase.named.unique ho' ho hkey' hkey
  refine Store.lookup?_of_mem (e := o) ?_ ?_ fun f hf hfkey => ?_
  · rw [h.entries, Store.overridden]
    exact List.mem_append_left _ (List.mem_map.mpr ⟨o, ho, hentry o ho hkey⟩)
  · obtain ⟨t, ht⟩ := hbase.named.name o ho
    rw [h.sameKeys.same_eq, Store.same_eq_sameKey ht, hkey]
  · rw [h.entries, Store.overridden, List.mem_append] at hf
    rcases hf with hf | hf
    · obtain ⟨o', ho', rfl⟩ := List.mem_map.mp hf
      exact hentry o' ho' (hsame o'.1 hfkey)
    · have hfalse := Store.hasKey_eq_false_iff.mp hfiltered f (List.mem_of_mem_filter hf)
      rw [hsame f.1 hfkey] at hfalse
      exact absurd hfalse (by simp)

include hbase h hnew in
/-- A setting that lays no section gives a key a value. -/
theorem setting (hlays : base.laysSection e = false) :
    IsLaidOver base (before ++ [e]) { config with
      entries := config.store.setEntry config.entries e.1 e.2 } := by
  have hfiltered : base.store.hasKey (before.filter fun e => !base.laysSection e) e.1 = false :=
    Store.hasKey_eq_false_iff.mpr fun f hf =>
      Store.hasKey_eq_false_iff.mp hnew f (List.mem_of_mem_filter hf)
  refine ⟨?entries, h.size, ?sections, ?others⟩
  case entries =>
    dsimp only
    rw [h.sameKeys.setEntry_eq, h.entries, Store.setEntry_overridden hbase.named hfiltered,
      List.filter_append, List.filter_singleton, hlays]
    rfl
  case sections =>
    intro e' he' o own added ho
    rcases List.mem_append.mp he' with he' | he'
    · exact h.sections e' he' o own added ho
    · obtain rfl := List.mem_singleton.mp he'
      exact absurd (ho.laysSection.symm.trans hlays) (by simp)
  case others =>
    intro m hm
    exact h.others m fun e' he' => hm e' (List.mem_append_left _ he')

theorem datum_setIfInBounds {s : Store} {m n : Nat} (d : Datum) (hn : n < s.size) :
    Store.datum (s.setIfInBounds n d) m = if n = m then d else s.datum m := by
  rw [Store.datum, Store.datum, Array.getD_eq_getD_getElem?, Array.getD_eq_getD_getElem?,
    Array.getElem?_setIfInBounds]
  split
  · rfl
  · rfl

include hbase h in
/-- A dictionary under the key of a section overrides the entries there. -/
theorem overriding (hsettings : AreSettings base (before ++ [e]))
    (ho : base.Overrides e o own added) :
    IsLaidOver base (before ++ [e]) { config with
      store := config.store.setIfInBounds o.2 (.dict (config.store.setEntries own added)) } := by
  have hadded : base.store.Distinct added :=
    hsettings.sections e (List.mem_append_right _ List.mem_cons_self) added ho.added
  have hentries : config.store.setEntries own added = base.store.overridden own added := by
    rw [h.sameKeys.setEntries_eq own added]
    exact Store.setEntries_eq_overridden (hbase.sections o ho.mem own ho.own) hadded
  have hinside : o.2 < config.store.size := by
    rw [h.size]
    exact hbase.inside o ho.mem
  refine ⟨?entries, ?size, ?sections, ?others⟩
  case entries =>
    rw [List.filter_append, List.filter_singleton, ho.laysSection, Bool.not_true, cond_false,
      List.append_nil]
    exact h.entries
  case size =>
    rw [Array.size_setIfInBounds]
    exact h.size
  case sections =>
    intro e' he' o' own' added' ho'
    rw [datum_setIfInBounds _ hinside]
    rcases List.mem_append.mp he' with he' | he'
    · have hne : o.2 ≠ o'.2 := by
        intro heq
        obtain rfl := hbase.eq_of_value ho.mem ho'.mem heq
        exact ho.unique hbase hsettings.distinct he' ho'
      rw [if_neg hne]
      exact h.sections e' he' o' own' added' ho'
    · obtain rfl := List.mem_singleton.mp he'
      obtain rfl := hbase.named.unique ho.mem ho'.mem ho.key ho'.key
      obtain rfl := Datum.dict.inj (ho.own.symm.trans ho'.own)
      obtain rfl := Datum.dict.inj (ho.added.symm.trans ho'.added)
      rw [if_pos rfl, hentries]
  case others =>
    intro m hm
    rw [datum_setIfInBounds _ hinside,
      if_neg (hm e (List.mem_append_right _ List.mem_cons_self) o own added ho)]
    exact h.others m fun e' he' => hm e' (List.mem_append_left _ he')

end IsLaidOver

/-- **One more setting** is laid over a configuration, unless it clashes. -/
theorem lay_cases (hbase : IsBase base) (h : IsLaidOver base before config)
    (hsettings : AreSettings base (before ++ [e])) :
    (∃ o, base.Clashes e o ∧
      lay config e = .error (.notASection (base.store.datum o.2).typeName)) ∨
    (∀ o, ¬ base.Clashes e o) ∧ ∃ config', lay config e = .ok config' ∧
      IsLaidOver base (before ++ [e]) config' := by
  have hnew : base.store.hasKey before e.1 = false := by
    rw [Store.hasKey_eq_false_iff]
    intro f hf
    exact (List.pairwise_append.mp hsettings.distinct).2.2 f hf e List.mem_cons_self
  have hvalue : config.store.datum e.2 = base.store.datum e.2 :=
    h.datum_apart (hsettings.apart e (List.mem_append_right _ List.mem_cons_self))
  have hcases : base.laysSection e = false ↔ _ := laysSection_eq_false_iff
  cases hlays : base.laysSection e with
  | false =>
    right
    refine ⟨fun o ho => ?_, _, lay_setting ?_, h.setting hbase hnew hlays⟩
    · rcases hcases.mp hlays with hscalar | hunknown
      · exact absurd (ho.value.symm.trans hscalar) (by simp)
      · have hfalse := Store.hasKey_eq_false_iff.mp hunknown o ho.mem
        exact absurd (ho.key.symm.trans hfalse) (by simp)
    · rcases hcases.mp hlays with hscalar | hunknown
      · exact Or.inl (by rw [hvalue, hscalar])
      · exact Or.inr (h.lookup?_of_new hnew hunknown)
  | true =>
    rw [laysSection, Bool.and_eq_true] at hlays
    obtain ⟨hdict, hknown⟩ := hlays
    obtain ⟨added, hadded⟩ := Datum.isDict_iff.mp hdict
    obtain ⟨o, ho, hkey⟩ := List.any_eq_true.mp hknown
    have hlookup := h.lookup?_of_known hbase hnew ho hkey
    have hunset : config.store.datum o.2 = base.store.datum o.2 := by
      refine h.datum_unset hbase ho fun f hf => ?_
      obtain ⟨t, ht⟩ := hbase.named.name o ho
      rw [← Bool.not_eq_true, Store.sameKey_name_left ht]
      intro hft
      have hfalse := Store.hasKey_eq_false_iff.mp hnew f hf
      rw [(Store.sameKey_name_left hft).mpr ((Store.sameKey_name_left ht).mp hkey)] at hfalse
      exact absurd hfalse (by simp)
    cases hsection : (base.store.datum o.2).isDict with
    | false =>
      left
      refine ⟨o, ⟨ho, hkey, hdict, hsection⟩, ?_⟩
      rw [← hunset] at hsection ⊢
      exact lay_clash (hvalue.trans hadded) hlookup hsection
    | true =>
      right
      obtain ⟨own, hown⟩ := Datum.isDict_iff.mp hsection
      have hoverrides : base.Overrides e o own added := ⟨ho, hkey, hown, hadded⟩
      refine ⟨fun o' ho' => ?_, _, lay_section (hvalue.trans hadded) hlookup (hunset.trans hown),
        h.overriding hbase hsettings hoverrides⟩
      obtain rfl := hbase.named.unique ho ho'.mem hkey ho'.key
      exact absurd (ho'.notASection.symm.trans hsection) (by simp)

theorem AreSettings.of_append {more : List (Nat × Nat)}
    (h : AreSettings base (settings ++ more)) : AreSettings base settings := by
  refine ⟨h.distinct.sublist (List.sublist_append_left settings more), ?_, ?_⟩
  · exact fun e he => h.apart e (List.mem_append_left _ he)
  · exact fun e he => h.sections e (List.mem_append_left _ he)

/-- **Settings are laid over a configuration** one by one, up to the first that clashes. -/
theorem merge_cases (hbase : IsBase base) (hsettings : AreSettings base settings) :
    (∃ e ∈ settings, ∃ o, base.Clashes e o ∧
      merge base settings = .error (.notASection (base.store.datum o.2).typeName)) ∨
    (∀ e ∈ settings, ∀ o, ¬ base.Clashes e o) ∧ ∃ config, merge base settings = .ok config ∧
      IsLaidOver base settings config := by
  -- by induction on the settings that are left, when some have been laid over the base
  suffices h : ∀ rest before config, IsLaidOver base before config →
      AreSettings base (before ++ rest) →
      (∃ e ∈ rest, ∃ o, base.Clashes e o ∧
        merge config rest = .error (.notASection (base.store.datum o.2).typeName)) ∨
      (∀ e ∈ rest, ∀ o, ¬ base.Clashes e o) ∧ ∃ config', merge config rest = .ok config' ∧
        IsLaidOver base (before ++ rest) config' from
    h settings [] base (.refl base) hsettings
  clear hsettings
  intro rest
  induction rest with
  | nil =>
    intro before config hlaid hsettings
    rw [List.append_nil]
    exact Or.inr ⟨fun e he => absurd he (by simp), config, rfl, hlaid⟩
  | cons e rest ih =>
    intro before config hlaid hsettings
    rw [List.append_cons] at hsettings ⊢
    have hmerge : merge config (e :: rest) = (lay config e).bind fun config => merge config rest :=
      List.foldlM_cons
    rw [hmerge]
    rcases lay_cases hbase hlaid hsettings.of_append with ⟨o, ho, hlay⟩ | ⟨hnot, next, hlay, hnext⟩
    · refine Or.inl ⟨e, List.mem_cons_self, o, ho, ?_⟩
      rw [hlay]
      rfl
    · rw [hlay, Except.bind]
      rcases ih (before ++ [e]) next hnext hsettings with
        ⟨f, hf, o, ho, hrest⟩ | ⟨hclash, config', hrest, hconfig'⟩
      · exact Or.inl ⟨f, List.mem_cons_of_mem e hf, o, ho, hrest⟩
      · exact Or.inr ⟨List.forall_mem_cons.mpr ⟨hnot, hclash⟩, config', hrest, hconfig'⟩

end IoSource.Configuration
