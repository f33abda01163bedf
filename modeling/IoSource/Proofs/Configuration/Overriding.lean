import IoSource.Proofs.Configuration.Defaults

/-!
# Settings over defaults

The settings of a file are laid over the defaults.  `IsOverridden` says what is then under each key:
a default that has not been set, a section of both, or the value of the file.

The configuration that comes out can be laid over the defaults again and stays the same
(`merge_again`): each of its sections has the default one within it already.
-/

namespace IoSource.Configuration

open Yaml (Datum Store OnEntries)

structure IsOverridden (base : Configuration) (settings : List (Nat × Nat))
    (config : Configuration) : Prop where
  /-- The keys are those that were there, and behind them the new ones. -/
  keys : config.entries.map Prod.fst = base.entries.map Prod.fst ++
    (settings.map Prod.fst).filter fun key => !base.store.hasKey base.entries key
  /-- An entry that is not set is kept. -/
  kept : ∀ o ∈ base.entries, base.store.at? settings o.1 = none →
    o ∈ config.entries ∧ config.store.datum o.2 = base.store.datum o.2
  /-- A section that is set has its entries overridden. -/
  overridden : ∀ o ∈ base.entries, ∀ v, base.store.at? settings o.1 = some v →
    ∀ own added, base.store.datum o.2 = .dict own → base.store.datum v = .dict added →
    o ∈ config.entries ∧ config.store.datum o.2 = .dict (base.store.overridden own added)
  /-- Any other value that is set replaces what was there. -/
  replaced : ∀ o ∈ base.entries, ∀ v, base.store.at? settings o.1 = some v →
    (base.store.datum v).isDict = false → (o.1, v) ∈ config.entries
  /-- What is set under a new key is there as it was set. -/
  new : ∀ e ∈ settings, base.store.hasKey base.entries e.1 = false → e ∈ config.entries
  /-- Nothing but sections has changed. -/
  others : ∀ m, (∀ o ∈ base.entries, m ≠ o.2) → config.store.datum m = base.store.datum m

variable {base config : Configuration} {settings : List (Nat × Nat)} {e o : Nat × Nat}
  {own added : List (Nat × Nat)}

theorem filter_new (base : Configuration) (settings : List (Nat × Nat)) :
    (settings.filter fun e => !base.laysSection e).filter
        (fun e => !base.store.hasKey base.entries e.1) =
      settings.filter fun e => !base.store.hasKey base.entries e.1 := by
  rw [List.filter_filter]
  refine List.filter_congr fun e _ => ?_
  cases hkey : base.store.hasKey base.entries e.1 with
  | true => rfl
  | false => rw [laysSection, hkey, Bool.and_false]; rfl

/-- Under the key of an entry, a section is laid over what is there, and all else replaces it. -/
theorem at?_filter_laysSection (hbase : IsBase base) (hsettings : AreSettings base settings)
    (ho : o ∈ base.entries) (he : e ∈ settings) (hkey : base.store.sameKey o.1 e.1 = true) :
    base.store.at? (settings.filter fun e => !base.laysSection e) o.1 =
      if (base.store.datum e.2).isDict then none else some e.2 := by
  obtain ⟨t, ht⟩ := hbase.named.name o ho
  have hknown : base.store.hasKey base.entries e.1 = true := List.any_eq_true.mpr ⟨o, ho, hkey⟩
  rw [Store.at?_filter hsettings.distinct he ht ((Store.sameKey_name_left ht).mp hkey),
    laysSection, hknown, Bool.and_true]
  cases (base.store.datum e.2).isDict <;> rfl

namespace IsLaidOver

variable (hbase : IsBase base) (hsettings : AreSettings base settings)
  (h : IsLaidOver base settings config)

include h in
theorem mem_of_at? (v? : Option Nat) (ho : o ∈ base.entries)
    (hv : base.store.at? (settings.filter fun e => !base.laysSection e) o.1 = v?) :
    (o.1, v?.getD o.2) ∈ config.entries := by
  rw [h.entries, ← hv]
  exact List.mem_append_left _ (List.mem_map.mpr ⟨o, ho, rfl⟩)

include hbase hsettings h in
theorem isOverridden : IsOverridden base settings config := by
  refine ⟨?keys, ?kept, ?overridden, ?replaced, ?new, fun m => h.datum_apart⟩
  case keys =>
    rw [h.entries, Store.overridden, List.map_append, List.map_map, filter_new, List.filter_map]
    rfl
  case kept =>
    intro o ho hnone
    have hkey := Store.at?_eq_none_iff.mp hnone
    refine ⟨?_, h.datum_unset hbase ho hkey⟩
    refine h.mem_of_at? none ho (Store.at?_eq_none_iff.mpr fun e he => ?_)
    exact hkey e (List.mem_of_mem_filter he)
  case overridden =>
    intro o ho v hv own added hown hadded
    obtain ⟨e, he, hkey, rfl⟩ := Store.exists_of_at? hv
    refine ⟨h.mem_of_at? none ho ?_, h.sections e he o own added ⟨ho, hkey, hown, hadded⟩⟩
    rw [at?_filter_laysSection hbase hsettings ho he hkey, hadded]
    rfl
  case replaced =>
    intro o ho v hv hscalar
    obtain ⟨e, he, hkey, rfl⟩ := Store.exists_of_at? hv
    refine h.mem_of_at? (some e.2) ho ?_
    rw [at?_filter_laysSection hbase hsettings ho he hkey, hscalar]
    rfl
  case new =>
    intro e he hnew
    rw [h.entries, Store.overridden, filter_new]
    refine List.mem_append_right _ (List.mem_filter.mpr ⟨he, ?_⟩)
    rw [hnew]
    rfl

include hbase hsettings h in
theorem section_of_isDict (ho : o ∈ base.entries) {v : Nat}
    (hv : v = (base.store.at? (settings.filter fun e => !base.laysSection e) o.1).getD o.2)
    (hdict : (config.store.datum v).isDict = true) :
    v = o.2 ∧ ∃ own added, base.store.datum o.2 = .dict own ∧
      config.store.datum o.2 = .dict (base.store.overridden own added) := by
  cases hset : base.store.at? settings o.1 with
  | none =>
    have hkey := Store.at?_eq_none_iff.mp hset
    have hnone : base.store.at? (settings.filter fun e => !base.laysSection e) o.1 = none :=
      Store.at?_eq_none_iff.mpr fun e he => hkey e (List.mem_of_mem_filter he)
    rw [hnone, Option.getD_none] at hv
    subst hv
    rw [h.sameKeys.isDict_eq] at hdict
    obtain ⟨own, hown⟩ := Datum.isDict_iff.mp hdict
    refine ⟨rfl, own, [], hown, ?_⟩
    rw [h.datum_unset hbase ho hkey, hown, Store.overridden_nil]
  | some w =>
    obtain ⟨e, he, hkey, rfl⟩ := Store.exists_of_at? hset
    rw [at?_filter_laysSection hbase hsettings ho he hkey] at hv
    split at hv
    · next hvalue =>
      rw [Option.getD_none] at hv
      subst hv
      rw [h.sameKeys.isDict_eq] at hdict
      obtain ⟨own, hown⟩ := Datum.isDict_iff.mp hdict
      obtain ⟨added, hadded⟩ := Datum.isDict_iff.mp hvalue
      exact ⟨rfl, own, added, hown, h.sections e he o own added ⟨ho, hkey, hown, hadded⟩⟩
    · next hvalue =>
      rw [Option.getD_some] at hv
      subst hv
      rw [h.sameKeys.isDict_eq] at hdict
      exact absurd hdict hvalue

end IsLaidOver

/-! ### Settings of a store -/

section Store

variable {s : Store}

theorem sameKey_defaultsIn {m n : Nat} (hm : m < s.size) (hn : n < s.size) :
    (defaultsIn s).store.sameKey m n = s.sameKey m n := by
  rw [Store.sameKey, Store.sameKey, datum_defaultsIn hm, datum_defaultsIn hn]

theorem distinct_defaultsIn {entries : List (Nat × Nat)} (h : s.Distinct entries)
    (hmem : ∀ e ∈ entries, e.1 < s.size) : (defaultsIn s).store.Distinct entries := by
  refine List.Pairwise.imp_of_mem (fun {e f} he hf hef => ?_) h
  rw [sameKey_defaultsIn (hmem e he) (hmem f hf), hef]

theorem areSettings_defaultsIn (hs : s.IsWellFormed) {n : Nat} (hn : s.datum n = .dict settings) :
    AreSettings (defaultsIn s) settings := by
  refine ⟨?distinct, ?apart, ?sections⟩
  case distinct =>
    exact distinct_defaultsIn (hs.distinct n settings hn) fun e he => (hs.lt_of_mem hn he).1
  case apart =>
    intro e he o ho
    exact Nat.ne_of_lt (Nat.lt_of_lt_of_le (hs.lt_of_mem hn he).2 (le_of_mem_defaultsIn ho).1)
  case sections =>
    intro e he added hadded
    rw [datum_defaultsIn (hs.lt_of_mem hn he).2] at hadded
    exact distinct_defaultsIn (hs.distinct e.2 added hadded) fun f hf => (hs.lt_of_mem hadded hf).1

theorem IsLaidOver.datum_defaultsIn (h : IsLaidOver (defaultsIn s) settings config) {m : Nat}
    (hm : m < s.size) : config.store.datum m = s.datum m := by
  rw [h.datum_apart, Configuration.datum_defaultsIn hm]
  exact fun o ho => Nat.ne_of_lt (Nat.lt_of_lt_of_le hm (le_of_mem_defaultsIn ho).1)

end Store

/-! ### Laying a configuration over the defaults -/

section Again

variable {s s' : Store} {settings' : List (Nat × Nat)} {n' : Nat} {e' o' : Nat × Nat}

theorem IsLaidOver.exists_of_name (hbase : IsBase base) (h : IsLaidOver base settings config)
    (ho : o ∈ base.entries) {t : WideText} (ht : base.store.datum o.1 = .text t) {x : Nat × Nat}
    (hx : x ∈ config.entries) (hxt : config.store.datum x.1 = .text t) :
    x.2 = (base.store.at? (settings.filter fun e => !base.laysSection e) o.1).getD o.2 := by
  rw [h.entries, Store.overridden, List.mem_append] at hx
  have ho' := h.sameKeys.name ht
  rcases hx with hx | hx
  · obtain ⟨p, hp, rfl⟩ := List.mem_map.mp hx
    have hpo : base.store.sameKey o.1 p.1 = true := by
      rw [← h.sameKeys.sameKey_eq, Store.sameKey_name_left ho']
      exact hxt
    have hpt := (Store.sameKey_name_left ht).mp hpo
    rw [hbase.named.distinct.unique hp ho hpt ht]
  · have hnew := (List.mem_filter.mp hx).2
    rw [Bool.not_eq_true', ← h.sameKeys.hasKey_eq, Store.hasKey_eq_false_iff] at hnew
    have hfalse := hnew o ho
    rw [(Store.sameKey_name_left ho').mpr hxt] at hfalse
    exact absurd hfalse (by simp)

theorem not_clashes_again (hsettings : AreSettings (defaultsIn s) settings)
    (h : IsLaidOver (defaultsIn s) settings config) (hs' : s'.IsWellFormed)
    (hn' : s'.datum n' = .dict settings')
    (halike : List.Forall₂ (OnEntries (config.store.Alike s')) config.entries settings')
    (he' : e' ∈ settings') : ¬ (defaultsIn s').Clashes e' o' := by
  intro hclash
  obtain ⟨o, ho, hoo'⟩ := Yaml.exists_of_mem_forall₂ (corresponds_defaultsIn s s') hclash.mem
  obtain ⟨t, ht, ht'⟩ := hoo'.name
  obtain ⟨x, hx, hkey, hvalue⟩ := Yaml.exists_of_mem_forall₂ halike he'
  obtain ⟨hlt, hlt'⟩ := hs'.lt_of_mem hn' he'
  have het := (Store.sameKey_name_left ht').mp hclash.key
  rw [datum_defaultsIn hlt] at het
  have hxt := hkey.matches.text_iff.mpr het
  have hdict := hclash.value
  rw [datum_defaultsIn hlt', ← hvalue.matches.isDict_eq] at hdict
  have hbase := isBase_defaultsIn s
  obtain ⟨-, own, -, hown, -⟩ := h.section_of_isDict hbase hsettings ho
    (h.exists_of_name hbase ho ht hx hxt) hdict
  have hsection := hoo'.isDict
  rw [hown, hclash.notASection] at hsection
  exact absurd hsection (by simp [Datum.isDict])

/-- A section of the defaults that is laid over its default again stays the same. -/
theorem alike_section (hsettings : AreSettings (defaultsIn s) settings)
    (h : IsLaidOver (defaultsIn s) settings config)
    (hsettings' : AreSettings (defaultsIn s') settings') {config' : Configuration}
    (h' : IsLaidOver (defaultsIn s') settings' config') (ho : o ∈ (defaultsIn s).entries)
    (ho' : o' ∈ (defaultsIn s').entries)
    (hoo' : Corresponds (defaultsIn s).store (defaultsIn s').store o o') (he' : e' ∈ settings')
    (hkey : config.store.Alike config'.store o.1 e'.1) {v : Nat}
    (hv : v = ((defaultsIn s).store.at?
      (settings.filter fun e => !(defaultsIn s).laysSection e) o.1).getD o.2)
    (hvalue : config.store.Alike config'.store v e'.2)
    (hlays : (defaultsIn s').laysSection e' = true) :
    config.store.Alike config'.store v o'.2 := by
  rw [laysSection, Bool.and_eq_true] at hlays
  obtain ⟨latest, hlatest⟩ := Datum.isDict_iff.mp hlays.1
  have hlatest' : config'.store.datum e'.2 = .dict latest :=
    (h'.datum_apart (hsettings'.apart e' he')).trans hlatest
  have hdict : (config.store.datum v).isDict = true := by
    rw [hvalue.matches.isDict_eq, hlatest']
    rfl
  obtain ⟨rfl, own, added, hown, hsection⟩ :=
    h.section_of_isDict (isBase_defaultsIn s) hsettings ho hv hdict
  have hdict' : ((defaultsIn s').store.datum o'.2).isDict = true := by
    rw [← hoo'.isDict, hown]
    rfl
  obtain ⟨own', hown'⟩ := Datum.isDict_iff.mp hdict'
  obtain ⟨t, ht, ht'⟩ := hoo'.name
  have hoverrides : (defaultsIn s').Overrides e' o' own' latest := by
    refine ⟨ho', ?_, hown', hlatest⟩
    rw [← h'.sameKeys.sameKey_eq, Store.sameKey_name_left (h'.sameKeys.name ht')]
    exact hkey.matches.text_iff.mp (h.sameKeys.name ht)
  have hentries := hvalue.matches
  rw [hsection, hlatest'] at hentries
  obtain ⟨_, heq, hentries⟩ := hentries.exists_dict
  obtain rfl := Datum.dict.inj heq
  -- the section has the default one within it, so it is overridden by a later state of it
  refine .of_matches ?_
  rw [hsection, h'.sections e' he' o' own' latest hoverrides, ← h'.sameKeys.overridden_eq]
  refine .dict ?_
  have hall : latest.filter (fun _ => true) = latest := List.filter_eq_self.mpr fun _ _ => rfl
  rw [← hall]
  refine Store.alike_overridden ?distinct (fun p p' hp => hp.of_sameKeys h.sameKeys h'.sameKeys)
    (hoo'.own own own' hown hown') ?new (fun _ _ _ => rfl) (fun p p' _ f _ _ hf => hf) hentries
  case distinct => exact h'.sameKeys.distinct_iff.mpr (hsettings'.sections e' he' latest hlatest)
  case new =>
    intro f hf
    rw [h.sameKeys.hasKey_eq, ← Bool.not_eq_true']
    exact (List.mem_filter.mp hf).2

/-- **What came of settings over the defaults** stays the same when it is laid over them again. -/
theorem merge_again (hsettings : AreSettings (defaultsIn s) settings)
    (h : IsLaidOver (defaultsIn s) settings config) (hs' : s'.IsWellFormed)
    (hn' : s'.datum n' = .dict settings')
    (halike : List.Forall₂ (OnEntries (config.store.Alike s')) config.entries settings') :
    ∃ config', merge (defaultsIn s') settings' = .ok config' ∧
      List.Forall₂ (OnEntries (config.store.Alike config'.store)) config.entries
        config'.entries := by
  have hsettings' := areSettings_defaultsIn hs' hn'
  rcases merge_cases (isBase_defaultsIn s') hsettings' with
    ⟨e', he', o', hclash, -⟩ | ⟨-, config', hmerge, h'⟩
  · exact absurd hclash (not_clashes_again hsettings h hs' hn' halike he')
  refine ⟨config', hmerge, ?_⟩
  have hextend : List.Forall₂ (OnEntries (config.store.Alike config'.store)) config.entries
      settings' := by
    refine Yaml.forall₂_imp_of_mem halike fun x _ e' he' hx => ?_
    obtain ⟨hlt, hlt'⟩ := hs'.lt_of_mem hn' he'
    exact ⟨hx.1.extend hs' hlt fun m hm => h'.datum_defaultsIn hm,
      hx.2.extend hs' hlt' fun m hm => h'.datum_defaultsIn hm⟩
  rw [h'.entries, ← h'.sameKeys.overridden_eq]
  rw [h.entries] at hextend ⊢
  refine Store.alike_overridden (P := fun o o' => o ∈ (defaultsIn s).entries ∧
    o' ∈ (defaultsIn s').entries ∧ Corresponds (defaultsIn s).store (defaultsIn s').store o o')
    ?distinct ?name ?pairs ?new ?kept ?value hextend
  case distinct => exact h'.sameKeys.distinct_iff.mpr hsettings'.distinct
  case name => exact fun o o' ho => ho.2.2.name.of_sameKeys h.sameKeys h'.sameKeys
  case pairs =>
    exact Yaml.forall₂_imp_of_mem (corresponds_defaultsIn s s') fun o ho o' ho' hoo' =>
      ⟨ho, ho', hoo'⟩
  case new =>
    intro e he
    rw [h.sameKeys.hasKey_eq, ← Bool.not_eq_true']
    exact (List.mem_filter.mp he).2
  case kept =>
    intro e' he' hnew
    rw [h'.sameKeys.hasKey_eq] at hnew
    rw [laysSection, hnew, Bool.and_false]
    rfl
  case value =>
    rintro o o' ⟨ho, ho', hoo'⟩ e' he' hkey hvalue
    cases hlays : (defaultsIn s').laysSection e' with
    | false => exact hvalue
    | true => exact alike_section hsettings h hsettings' h' ho ho' hoo' he' hkey rfl hvalue hlays

end Again

end IoSource.Configuration
