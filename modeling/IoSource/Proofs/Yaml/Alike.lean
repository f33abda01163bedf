import IoSource.Proofs.Yaml.Entries
import Mathlib.Data.List.Forall2

/-!
# Data that look alike

The numbers of data say where they are kept, not what they are.  Data of two stores are alike if
they are the same scalars, or collections of the same kind whose parts are alike one by one
(`Store.Alike`).  A collection may contain itself, so this is the greatest such relation and no
recursion.

`alike_overridden` is about a dictionary that is laid over one of which it is a later state: what
comes out looks like the dictionary that was laid over it.
-/

namespace IoSource.Yaml

/-- A relation holds of the keys of two entries, and of their values. -/
def OnEntries (R : Nat → Nat → Prop) (e f : Nat × Nat) : Prop := R e.1 f.1 ∧ R e.2 f.2

theorem forall₂_imp_of_mem {α β : Type} {R R' : α → β → Prop} {l : List α} {l' : List β}
    (h : List.Forall₂ R l l') (himp : ∀ a ∈ l, ∀ b ∈ l', R a b → R' a b) :
    List.Forall₂ R' l l' := by
  rw [List.forall₂_iff_zip] at h ⊢
  refine ⟨h.1, fun {a b} hab => ?_⟩
  exact himp a (List.of_mem_zip hab).1 b (List.of_mem_zip hab).2 (h.2 hab)

theorem exists_of_mem_forall₂ {α β : Type} {R : α → β → Prop} {l : List α} {l' : List β}
    (h : List.Forall₂ R l l') {b : β} (hb : b ∈ l') : ∃ a ∈ l, R a b := by
  induction h with
  | nil => exact absurd hb (by simp)
  | @cons a b' l l' hab _ ih =>
    rcases List.mem_cons.mp hb with rfl | hb
    · exact ⟨a, List.mem_cons_self, hab⟩
    · obtain ⟨a', ha', hab'⟩ := ih hb
      exact ⟨a', List.mem_cons_of_mem a ha', hab'⟩

namespace Datum

def parts : Datum → List Nat
  | list items | set items => items
  | pairs entries | dict entries => entries.flatMap fun e => [e.1, e.2]
  | _ => []

/-- Two data are the same scalar, or collections of one kind the parts of which are related. -/
inductive Matches (R : Nat → Nat → Prop) : Datum → Datum → Prop
  | scalar {d : Datum} (h : d.canBeKey = true) : Matches R d d
  | list {items items' : List Nat} (h : List.Forall₂ R items items') :
      Matches R (.list items) (.list items')
  | set {items items' : List Nat} (h : List.Forall₂ R items items') :
      Matches R (.set items) (.set items')
  | pairs {items items' : List (Nat × Nat)} (h : List.Forall₂ (OnEntries R) items items') :
      Matches R (.pairs items) (.pairs items')
  | dict {items items' : List (Nat × Nat)} (h : List.Forall₂ (OnEntries R) items items') :
      Matches R (.dict items) (.dict items')

theorem mem_parts_of_mem {entries : List (Nat × Nat)} {e : Nat × Nat} (he : e ∈ entries) :
    e.1 ∈ (dict entries).parts ∧ e.2 ∈ (dict entries).parts :=
  ⟨List.mem_flatMap.mpr ⟨e, he, by simp⟩, List.mem_flatMap.mpr ⟨e, he, by simp⟩⟩

theorem Matches.imp {R R' : Nat → Nat → Prop} {d d' : Datum} (h : d.Matches R d')
    (himp : ∀ a, ∀ b ∈ d'.parts, R a b → R' a b) : d.Matches R' d' := by
  have hentries : ∀ {items items' : List (Nat × Nat)},
      (∀ b ∈ (Datum.dict items').parts, ∀ a, R a b → R' a b) →
      List.Forall₂ (OnEntries R) items items' → List.Forall₂ (OnEntries R') items items' := by
    intro items items' himp h
    refine forall₂_imp_of_mem h fun e _ f hf hef => ?_
    obtain ⟨hkey, hvalue⟩ := mem_parts_of_mem hf
    exact ⟨himp _ hkey _ hef.1, himp _ hvalue _ hef.2⟩
  cases h with
  | scalar hscalar => exact .scalar hscalar
  | list h => exact .list (forall₂_imp_of_mem h fun a _ b hb => himp a b hb)
  | set h => exact .set (forall₂_imp_of_mem h fun a _ b hb => himp a b hb)
  | pairs h => exact .pairs (hentries (fun b hb a => himp a b hb) h)
  | dict h => exact .dict (hentries (fun b hb a => himp a b hb) h)

theorem Matches.isDict_eq {R : Nat → Nat → Prop} {d d' : Datum} (h : d.Matches R d') :
    d.isDict = d'.isDict := by
  cases h <;> rfl

theorem Matches.text_iff {R : Nat → Nat → Prop} {d d' : Datum} (h : d.Matches R d')
    {t : WideText} : d = text t ↔ d' = text t := by
  cases h with
  | scalar h => rfl
  | list h => exact iff_of_false (by simp) (by simp)
  | set h => exact iff_of_false (by simp) (by simp)
  | pairs h => exact iff_of_false (by simp) (by simp)
  | dict h => exact iff_of_false (by simp) (by simp)

theorem Matches.exists_dict {R : Nat → Nat → Prop} {entries : List (Nat × Nat)} {d' : Datum}
    (h : (Datum.dict entries).Matches R d') :
    ∃ entries', d' = Datum.dict entries' ∧ List.Forall₂ (OnEntries R) entries entries' := by
  cases h with
  | scalar h => exact absurd h (by simp [canBeKey])
  | dict h => exact ⟨_, rfl, h⟩

end Datum

namespace Store

/-- The numbers in a store are those of its data, and no dictionary has a key twice. -/
structure IsWellFormed (s : Store) : Prop where
  inside : ∀ m, ∀ n ∈ (s.datum m).parts, n < s.size
  distinct : ∀ m entries, s.datum m = .dict entries → s.Distinct entries

theorem IsWellFormed.lt_of_mem {s : Store} (hs : s.IsWellFormed) {m : Nat}
    {entries : List (Nat × Nat)} (hm : s.datum m = .dict entries) {e : Nat × Nat}
    (he : e ∈ entries) : e.1 < s.size ∧ e.2 < s.size := by
  obtain ⟨hkey, hvalue⟩ := Datum.mem_parts_of_mem he
  rw [← hm] at hkey hvalue
  exact ⟨hs.inside m e.1 hkey, hs.inside m e.2 hvalue⟩

/-- Data of two stores look alike: they are related by a relation that goes on to their parts. -/
def Alike (s s' : Store) (m m' : Nat) : Prop :=
  ∃ R : Nat → Nat → Prop, (∀ a b, R a b → (s.datum a).Matches R (s'.datum b)) ∧ R m m'

variable {s s' s'' : Store} {m m' : Nat}

theorem Alike.matches (h : s.Alike s' m m') :
    (s.datum m).Matches (s.Alike s') (s'.datum m') := by
  obtain ⟨R, hR, hm⟩ := h
  exact (hR m m' hm).imp fun a b _ hab => ⟨R, hR, hab⟩

theorem Alike.of_matches (h : (s.datum m).Matches (s.Alike s') (s'.datum m')) :
    s.Alike s' m m' := by
  refine ⟨fun a b => s.Alike s' a b ∨ a = m ∧ b = m', ?_, Or.inr ⟨rfl, rfl⟩⟩
  rintro a b (hab | ⟨rfl, rfl⟩)
  · exact hab.matches.imp fun _ _ _ => Or.inl
  · exact h.imp fun _ _ _ => Or.inl

theorem Alike.of_scalar (h : s'.datum m' = s.datum m) (hscalar : (s.datum m).canBeKey = true) :
    s.Alike s' m m' := by
  refine .of_matches ?_
  rw [h]
  exact .scalar hscalar

/-- Data that look alike still do when others are added to a store or changed in it. -/
theorem Alike.extend (h : s.Alike s' m m') (hformed : s'.IsWellFormed) (hm' : m' < s'.size)
    (hsame : ∀ n < s'.size, s''.datum n = s'.datum n) : s.Alike s'' m m' := by
  refine ⟨fun a b => s.Alike s' a b ∧ b < s'.size, ?_, h, hm'⟩
  rintro a b ⟨hab, hb⟩
  rw [hsame b hb]
  exact hab.matches.imp fun a c hc hac => ⟨hac, hformed.inside b c hc⟩

/-! ### Overriding a dictionary by a later state of it -/

theorem at?_filter {entries : List (Nat × Nat)} (hdistinct : s.Distinct entries)
    {e : Nat × Nat} (he : e ∈ entries) {key : Nat} {t : WideText} (hkey : s.datum key = .text t)
    (hname : s.datum e.1 = .text t) (p : Nat × Nat → Bool) :
    s.at? (entries.filter p) key = if p e then some e.2 else none := by
  have honce : ∀ f ∈ entries, s.sameKey key f.1 = true → f = e := by
    intro f hf hfkey
    exact hdistinct.unique hf he ((sameKey_name_left hkey).mp hfkey) hname
  by_cases hp : p e = true
  · rw [if_pos hp]
    refine at?_of_mem (List.mem_filter.mpr ⟨he, hp⟩) ((sameKey_name_left hkey).mpr hname) ?_
    exact fun f hf => honce f (List.mem_of_mem_filter hf)
  · rw [if_neg hp, at?_eq_none_iff]
    intro f hf
    rw [← Bool.not_eq_true]
    intro hfkey
    obtain ⟨hmem, hpf⟩ := List.mem_filter.mp hf
    rw [honce f hmem hfkey] at hpf
    exact hp hpf

/-- Two keys are one name. -/
def SameName (s s' : Store) (e f : Nat × Nat) : Prop :=
  ∃ t, s.datum e.1 = .text t ∧ s'.datum f.1 = .text t

theorem Named.sameName {entries : List (Nat × Nat)} (h : s.Named entries) {e f : Nat × Nat}
    (he : e ∈ entries) (hef : s.Alike s' e.1 f.1) : s.SameName s' e f := by
  obtain ⟨t, ht⟩ := h.name e he
  exact ⟨t, ht, hef.matches.text_iff.mp ht⟩

theorem SameName.of_sameKeys {t t' : Store} {e f : Nat × Nat} (h : s.SameName s' e f)
    (hs : s.SameKeys t) (hs' : s'.SameKeys t') : t.SameName t' e f := by
  obtain ⟨name, he, hf⟩ := h
  exact ⟨name, hs.name he, hs'.name hf⟩

variable {own own' new entries : List (Nat × Nat)} {value : Nat × Nat → Nat}
  {p : Nat × Nat → Bool} {P : Nat × Nat → Nat × Nat → Prop}

/-- The own entries of a dictionary that is overridden by a later state of it. -/
theorem alike_overridden_own (hdistinct : s'.Distinct entries)
    (hP : ∀ o o', P o o' → s.SameName s' o o')
    (hvalue : ∀ o o', P o o' → ∀ e ∈ entries, s.Alike s' o.1 e.1 → s.Alike s' (value o) e.2 →
      s.Alike s' (value o) (if p e then e.2 else o'.2)) (hown : List.Forall₂ P own own')
    {front : List (Nat × Nat)} (hfront : ∀ e ∈ front, e ∈ entries)
    (h : List.Forall₂ (OnEntries (s.Alike s')) (own.map fun o => (o.1, value o)) front) :
    List.Forall₂ (OnEntries (s.Alike s')) (own.map fun o => (o.1, value o))
      (own'.map fun o => (o.1, (s'.at? (entries.filter p) o.1).getD o.2)) := by
  induction hown generalizing front with
  | nil => exact .nil
  | @cons o o' own own' ho _ ih =>
    rw [List.map_cons, List.forall₂_cons_left_iff] at h
    obtain ⟨e, front, he, hrest, rfl⟩ := h
    rw [List.forall_mem_cons] at hfront
    obtain ⟨t, ht, ht'⟩ := hP o o' ho
    have hname : s'.datum e.1 = .text t := he.1.matches.text_iff.mp ht
    have hkey : s.Alike s' o.1 o'.1 := .of_scalar (ht'.trans ht.symm) (by rw [ht]; rfl)
    refine .cons ⟨hkey, ?_⟩ (ih hfront.2 hrest)
    have hat := at?_filter hdistinct hfront.1 ht' hname p
    have hgoal := hvalue o o' ho e hfront.1 he.1 he.2
    dsimp only
    rw [hat]
    split at hgoal
    · next hpe => rwa [if_pos hpe]
    · next hpe => rwa [if_neg hpe]

/-- **A dictionary overridden by a later state of it** looks like that state.  Entries of the state
may be left out if what is there in their place is alike. -/
theorem alike_overridden (hdistinct : s'.Distinct entries)
    (hP : ∀ o o', P o o' → s.SameName s' o o') (hown : List.Forall₂ P own own')
    (hnew : ∀ e ∈ new, s.hasKey own e.1 = false)
    (hp : ∀ e ∈ entries, s'.hasKey own' e.1 = false → p e = true)
    (hvalue : ∀ o o', P o o' → ∀ e ∈ entries, s.Alike s' o.1 e.1 → s.Alike s' (value o) e.2 →
      s.Alike s' (value o) (if p e then e.2 else o'.2))
    (h : List.Forall₂ (OnEntries (s.Alike s')) (own.map (fun o => (o.1, value o)) ++ new)
      entries) :
    List.Forall₂ (OnEntries (s.Alike s')) (own.map (fun o => (o.1, value o)) ++ new)
      (s'.overridden own' (entries.filter p)) := by
  have hfront := List.forall₂_take own.length h
  have hback := List.forall₂_drop own.length h
  rw [List.take_left' (List.length_map _)] at hfront
  rw [List.drop_left' (List.length_map _)] at hback
  have hknown : ∀ e ∈ entries.take own.length, s'.hasKey own' e.1 = true := by
    intro e he
    obtain ⟨x, hx, hxe⟩ := exists_of_mem_forall₂ hfront he
    obtain ⟨o, ho, rfl⟩ := List.mem_map.mp hx
    obtain ⟨o', ho', hoo'⟩ := exists_of_mem_forall₂ (List.Forall₂.flip (R := flip P) hown) ho
    obtain ⟨t, ht, ht'⟩ := hP o o' hoo'
    exact List.any_eq_true.mpr ⟨o', ho', (sameKey_name_left ht').mpr
      (hxe.1.matches.text_iff.mp ht)⟩
  have hunknown : ∀ e ∈ entries.drop own.length, s'.hasKey own' e.1 = false := by
    intro e he
    obtain ⟨x, hx, hxe⟩ := exists_of_mem_forall₂ hback he
    rw [hasKey_eq_false_iff]
    intro o' ho'
    obtain ⟨o, ho, hoo'⟩ := exists_of_mem_forall₂ hown ho'
    obtain ⟨t, ht, ht'⟩ := hP o o' hoo'
    have hox := hasKey_eq_false_iff.mp (hnew x hx) o ho
    rw [← Bool.not_eq_true, sameKey_name_left ht] at hox
    rw [← Bool.not_eq_true, sameKey_name_left ht']
    exact fun het => hox (hxe.1.matches.text_iff.mpr het)
  have hlast : (entries.filter p).filter (fun e => !s'.hasKey own' e.1) =
      entries.drop own.length := by
    calc (entries.filter p).filter (fun e => !s'.hasKey own' e.1)
        = entries.filter (fun e => !s'.hasKey own' e.1) := by
          rw [List.filter_filter]
          refine List.filter_congr fun e he => ?_
          cases hkey : s'.hasKey own' e.1 with
          | true => rfl
          | false => rw [hp e he hkey, Bool.and_true]
      _ = entries.drop own.length := by
          conv_lhs => rw [← List.take_append_drop own.length entries]
          rw [List.filter_append, List.filter_eq_nil_iff.mpr, List.filter_eq_self.mpr,
            List.nil_append]
          · intro e he
            rw [hunknown e he]
            rfl
          · intro e he
            rw [hknown e he]
            exact Bool.false_ne_true
  rw [overridden, hlast]
  refine List.rel_append ?_ hback
  exact alike_overridden_own hdistinct hP hvalue hown (fun e => List.mem_of_mem_take) hfront

end Store

end IoSource.Yaml
