import IoSource.Proofs.Yaml.Alike
import IoSource.Proofs.Yaml.Nodes
import IoSource.Yaml.Reader

/-!
# Data that are being built

A dictionary is filled when its keys have been read, and a scalar that has been read stays as it is:
what happens while the data of a document are built only fills collections (`Building.Leads`), so
keys that are different stay different.  `Build.Keeps` says of a program that it keeps what is built
sound, and `keeps_meet` is the first that does: it reads a scalar, or puts an empty collection.
-/

namespace IoSource.Yaml

/-! ### Scalars -/

namespace Scalar

/-- What is read, if anything, can be a key. -/
def GivesKey (result : Except Error Datum) : Prop := ∀ d, result = .ok d → d.canBeKey = true

theorem givesKey_ok {d : Datum} (h : d.canBeKey = true) : GivesKey (.ok d) := by
  rintro _ ⟨⟩
  exact h

theorem givesKey_error (e : Error) : GivesKey (.error e) := by
  rintro d ⟨⟩

theorem givesKey_bind {α : Type} {x : Except Error α} {next : α → Except Error Datum}
    (h : ∀ y, GivesKey (next y)) : GivesKey (x >>= next) := by
  cases x with
  | error e => exact givesKey_error e
  | ok y => exact h y

theorem givesKey_readFloat (t : WideText) : GivesKey (readFloat t) := by
  refine givesKey_bind fun sign => ?_
  obtain ⟨negative, t⟩ := sign
  dsimp only
  split
  · exact givesKey_ok rfl
  split
  · exact givesKey_ok rfl
  split
  · exact givesKey_bind fun part => givesKey_ok rfl
  · exact givesKey_bind fun digits => givesKey_bind fun sum => givesKey_ok rfl

theorem givesKey_readTruth (t : WideText) : GivesKey (readTruth t) := by
  unfold readTruth
  dsimp only
  split
  · exact givesKey_ok rfl
  split
  · exact givesKey_ok rfl
  · exact givesKey_error _

theorem givesKey_readBytes (t : WideText) : GivesKey (readBytes t) := by
  unfold readBytes
  split
  · exact givesKey_error _
  split
  · exact givesKey_error _
  · cases Base64.decode? _ with
    | none => exact givesKey_error _
    | some content => exact givesKey_ok rfl

theorem givesKey_readTimestamp (t : WideText) : GivesKey (readTimestamp t) := by
  unfold readTimestamp
  split
  · exact givesKey_error _
  split
  · exact givesKey_ok rfl
  · exact givesKey_ok rfl
  · exact givesKey_error _

theorem givesKey_read (tag : Tag) (t : WideText) : GivesKey (read tag t) := by
  unfold read
  split
  · exact givesKey_ok rfl
  · exact givesKey_readTruth t
  · exact givesKey_bind fun sign => givesKey_bind fun size => givesKey_ok rfl
  · exact givesKey_readFloat t
  · exact givesKey_ok rfl
  · exact givesKey_readBytes t
  · exact givesKey_readTimestamp t
  · exact givesKey_error _

end Scalar

theorem Datum.parts_of_canBeKey {d : Datum} (h : d.canBeKey = true) : d.parts = [] := by
  cases d <;> first | rfl | exact absurd h (by simp [canBeKey])

/-! ### Data that are being built -/

namespace Building

def store (b : Building) : Store := b.data.map (·.getD .null)

/-- The scalar of a number has been read. -/
def IsKey (b : Building) (n : Nat) : Prop :=
  ∃ d, b.data[n]? = some (some d) ∧ d.canBeKey = true

/-- Entries that a dictionary can have: the keys have been read, and they are different. -/
structure AreEntries (b : Building) (entries : List (Nat × Nat)) : Prop where
  keys : ∀ e ∈ entries, b.IsKey e.1
  distinct : b.store.Distinct entries

/-- The numbers that are being built are those of as many nodes, and dictionaries have entries that
they can have. -/
structure IsSound (size : Nat) (b : Building) : Prop where
  nodes : NodesClosed b.nodes
  size_nodes : b.nodes.size = size
  size_data : b.data.size = size
  parts : ∀ (m : Nat) (d : Datum), b.data[m]? = some (some d) → ∀ n ∈ d.parts, n < size
  dicts : ∀ (m : Nat) (entries : List (Nat × Nat)), b.data[m]? = some (some (.dict entries)) →
    b.AreEntries entries

/-- What has been read stays: scalars as they are, and collections as collections. -/
def Leads (b b' : Building) : Prop :=
  ∀ (m : Nat) (d : Datum), b.data[m]? = some (some d) → ∃ d', b'.data[m]? = some (some d') ∧
    (d' = d ∨ d.canBeKey = false ∧ d'.canBeKey = false)

variable {size : Nat} {b b' b'' : Building}

theorem Leads.refl (b : Building) : b.Leads b := fun _ d hd => ⟨d, hd, Or.inl rfl⟩

theorem Leads.trans (h : b.Leads b') (h' : b'.Leads b'') : b.Leads b'' := by
  intro m d hd
  obtain ⟨d', hd', hsame⟩ := h m d hd
  obtain ⟨d'', hd'', hsame'⟩ := h' m d' hd'
  refine ⟨d'', hd'', ?_⟩
  rcases hsame with rfl | ⟨hd, hd'⟩
  · exact hsame'
  · rcases hsame' with rfl | ⟨-, hd''⟩
    · exact Or.inr ⟨hd, hd'⟩
    · exact Or.inr ⟨hd, hd''⟩

theorem Leads.of_data_eq (h : b'.data = b.data) : b.Leads b' := by
  intro m d hd
  exact ⟨d, by rw [h, hd], Or.inl rfl⟩

theorem datum_store {m : Nat} {d : Datum} (h : b.data[m]? = some (some d)) :
    b.store.datum m = d := by
  rw [store, Store.datum, Array.getD_eq_getD_getElem?, Array.getElem?_map, h]
  rfl

theorem Leads.isKey (h : b.Leads b') {n : Nat} (hn : b.IsKey n) :
    b'.IsKey n ∧ b'.store.datum n = b.store.datum n := by
  obtain ⟨d, hd, hkey⟩ := hn
  obtain ⟨d', hd', rfl | ⟨hnot, -⟩⟩ := h n d hd
  · exact ⟨⟨d', hd', hkey⟩, by rw [datum_store hd, datum_store hd']⟩
  · exact absurd (hkey.symm.trans hnot) (by simp)

theorem Leads.areEntries (h : b.Leads b') {entries : List (Nat × Nat)}
    (hentries : b.AreEntries entries) : b'.AreEntries entries := by
  refine ⟨fun e he => (h.isKey (hentries.keys e he)).1, ?_⟩
  refine List.Pairwise.imp_of_mem (fun {e f} he hf hef => ?_) hentries.distinct
  rw [Store.sameKey, (h.isKey (hentries.keys e he)).2, (h.isKey (hentries.keys f hf)).2]
  exact hef

/-- A datum can be put where none has been read, and a collection in the place of one. -/
theorem Leads.setDatum {n : Nat} {d : Datum}
    (hold : ∀ c, b.data[n]? = some (some c) → c.canBeKey = false ∧ d.canBeKey = false) :
    b.Leads { b with data := b.data.setIfInBounds n (some d) } := by
  intro m c hc
  show ∃ d', (b.data.setIfInBounds n (some d))[m]? = some (some d') ∧ _
  rw [Array.getElem?_setIfInBounds]
  by_cases hnm : n = m
  · subst hnm
    have hlt : n < b.data.size := (Array.getElem?_eq_some_iff.mp hc).1
    rw [if_pos rfl, if_pos hlt]
    exact ⟨d, rfl, Or.inr (hold c hc)⟩
  · rw [if_neg hnm]
    exact ⟨c, hc, Or.inl rfl⟩

theorem IsSound.setDatum (hb : b.IsSound size) {n : Nat} {d : Datum}
    (hold : ∀ c, b.data[n]? = some (some c) → c.canBeKey = false ∧ d.canBeKey = false)
    (hparts : ∀ m ∈ d.parts, m < size) (hdict : ∀ entries, d = .dict entries → b.AreEntries entries) :
    IsSound size { b with data := b.data.setIfInBounds n (some d) } := by
  have hleads := Leads.setDatum hold
  have hcases : ∀ {m : Nat} {c : Datum},
      (b.data.setIfInBounds n (some d))[m]? = some (some c) → c = d ∨ b.data[m]? = some (some c) := by
    intro m c hc
    rw [Array.getElem?_setIfInBounds] at hc
    split at hc
    · split at hc
      · exact Or.inl (Option.some.inj (Option.some.inj hc)).symm
      · exact absurd hc (by simp)
    · exact Or.inr hc
  refine ⟨hb.nodes, hb.size_nodes, ?_, ?_, ?_⟩
  · exact Array.size_setIfInBounds.trans hb.size_data
  · intro m c hc
    rcases hcases hc with rfl | hc
    · exact hparts
    · exact hb.parts m c hc
  · intro m entries hc
    rcases hcases hc with heq | hc
    · exact hleads.areEntries (hdict entries heq.symm)
    · exact hleads.areEntries (hb.dicts m entries hc)

/-- What has been built is a well-formed store. -/
theorem IsSound.isWellFormed (hb : b.IsSound size) : b.store.IsWellFormed := by
  have hdatum : ∀ m, b.data[m]? = some (some (b.store.datum m)) ∨ b.store.datum m = .null := by
    intro m
    rcases hm : b.data[m]? with _ | _ | d
    · right
      rw [store, Store.datum, Array.getD_eq_getD_getElem?, Array.getElem?_map, hm]
      rfl
    · right
      rw [store, Store.datum, Array.getD_eq_getD_getElem?, Array.getElem?_map, hm]
      rfl
    · left
      rw [datum_store hm]
  constructor
  · intro m n hn
    rw [store, Array.size_map, hb.size_data]
    rcases hdatum m with hm | hnull
    · exact hb.parts m _ hm n hn
    · rw [hnull] at hn
      exact absurd hn List.not_mem_nil
  · intro m entries hentries
    rcases hdatum m with hm | hnull
    · rw [hentries] at hm
      exact (hb.dicts m entries hm).distinct
    · exact absurd (hnull.symm.trans hentries) (by simp)

end Building

/-! ### Programs that build -/

namespace Build

/-- From some building on, a program keeps what is built sound, and what it gives has a property. -/
def Keeps {α : Type} (size : Nat) (b : Building) (p : Build α) (post : α → Building → Prop) :
    Prop :=
  ∀ x b', p.run b = .ok (x, b') → b'.IsSound size ∧ b.Leads b' ∧ post x b'

/-- A program that gives something with a property and changes nothing. -/
def Looks {α : Type} (b : Building) (p : Build α) (post : α → Prop) : Prop :=
  ∀ x b', p.run b = .ok (x, b') → b' = b ∧ post x

variable {α β : Type} {size : Nat} {b : Building} {p : Build α} {next : α → Build β}
  {post : α → Building → Prop} {post' : β → Building → Prop}

theorem keeps_pure (hb : b.IsSound size) {x : α} (hx : post x b) : Keeps size b (pure x) post := by
  intro y b' hrun
  cases hrun
  exact ⟨hb, .refl b, hx⟩

theorem keeps_throw (e : Error) : Keeps size b (throw e) post := by
  intro y b' hrun
  cases hrun

theorem keeps_throw_bind (e : Error) : Keeps size b ((throw e : Build α) >>= next) post' := by
  intro y b' hrun
  cases hrun

theorem keeps_bind (hp : Keeps size b p post)
    (hnext : ∀ x b₁, b₁.IsSound size → b.Leads b₁ → post x b₁ → Keeps size b₁ (next x) post') :
    Keeps size b (p >>= next) post' := by
  intro y b' hrun
  obtain ⟨x, b₁, hfirst, hrest⟩ := exists_of_run_bind_eq_ok hrun
  obtain ⟨hb₁, hleads, hx⟩ := hp x b₁ hfirst
  obtain ⟨hb', hleads', hy⟩ := hnext x b₁ hb₁ hleads hx y b' hrest
  exact ⟨hb', hleads.trans hleads', hy⟩

theorem Keeps.imp {post' : α → Building → Prop} (hp : Keeps size b p post)
    (h : ∀ x b', post x b' → post' x b') : Keeps size b p post' := by
  intro x b' hrun
  obtain ⟨hb', hleads, hx⟩ := hp x b' hrun
  exact ⟨hb', hleads, h x b' hx⟩

theorem Keeps.discard (hp : Keeps size b p post) :
    Keeps size b (discard p) fun _ b' => ∃ x, post x b' := by
  show Keeps size b (p >>= fun _ => pure PUnit.unit) _
  exact keeps_bind hp fun x _ hb₁ _ hx => keeps_pure hb₁ ⟨x, hx⟩

theorem keeps_look {found : α → Prop} (hp : Looks b p found)
    (hnext : ∀ x, found x → Keeps size b (next x) post') : Keeps size b (p >>= next) post' := by
  intro y b' hrun
  obtain ⟨x, b₁, hfirst, hrest⟩ := exists_of_run_bind_eq_ok hrun
  obtain ⟨rfl, hx⟩ := hp x b₁ hfirst
  exact hnext x hx y b' hrest

theorem looks_pure {x : α} {found : α → Prop} (hx : found x) : Looks b (pure x) found := by
  intro y b' hrun
  cases hrun
  exact ⟨rfl, hx⟩

theorem looks_throw (e : Error) {found : α → Prop} : Looks b (throw e : Build α) found := by
  intro y b' hrun
  cases hrun

theorem looks_throw_bind (e : Error) {found : β → Prop} :
    Looks b ((throw e : Build α) >>= next) found := by
  intro y b' hrun
  cases hrun

theorem looks_bind {found : α → Prop} {found' : β → Prop} (hp : Looks b p found)
    (hnext : ∀ x, found x → Looks b (next x) found') : Looks b (p >>= next) found' := by
  intro y b' hrun
  obtain ⟨x, b₁, hfirst, hrest⟩ := exists_of_run_bind_eq_ok hrun
  obtain ⟨rfl, hx⟩ := hp x b₁ hfirst
  exact hnext x hx y b' hrest

theorem looks_get : Looks b (get : Build Building) (· = b) := by
  intro y b' hrun
  cases hrun
  exact ⟨rfl, rfl⟩

theorem looks_node (hb : b.IsSound size) (n : Nat) :
    Looks b (node n) fun node => ∀ m ∈ node.parts, m < size := by
  refine looks_bind looks_get fun c hc => ?_
  subst hc
  refine looks_pure fun m hm => ?_
  rw [Array.getD_eq_getD_getElem?] at hm
  cases hnode : c.nodes[n]? with
  | none =>
    rw [hnode] at hm
    exact absurd hm List.not_mem_nil
  | some node =>
    rw [hnode] at hm
    rw [← hb.size_nodes]
    exact hb.nodes n node hnode m hm

theorem looks_store : Looks b store (· = b.store) := by
  refine looks_bind looks_get fun c hc => ?_
  subst hc
  exact looks_pure rfl

theorem keeps_setNode (hb : b.IsSound size) (n : Nat) {node : Node}
    (hnode : ∀ m ∈ node.parts, m < size) : Keeps size b (setNode n node) fun _ _ => True := by
  intro x b' hrun
  cases hrun
  have hleads : b.Leads { b with nodes := b.nodes.setIfInBounds n node } := .of_data_eq rfl
  refine ⟨⟨?_, ?_, hb.size_data, hb.parts, ?_⟩, hleads, trivial⟩
  · exact hb.nodes.set n fun m hm => by
      rw [hb.size_nodes]
      exact hnode m hm
  · exact Array.size_setIfInBounds.trans hb.size_nodes
  · exact fun m entries hm => hleads.areEntries (hb.dicts m entries hm)

theorem keeps_setDatum (hb : b.IsSound size) {n : Nat} {d : Datum}
    (hold : ∀ c, b.data[n]? = some (some c) → c.canBeKey = false ∧ d.canBeKey = false)
    (hparts : ∀ m ∈ d.parts, m < size)
    (hdict : ∀ entries, d = .dict entries → b.AreEntries entries) :
    Keeps size b (setDatum n d) fun _ b' => n < size → b'.data[n]? = some (some d) := by
  intro x b' hrun
  cases hrun
  refine ⟨hb.setDatum hold hparts hdict, .setDatum hold, fun hn => ?_⟩
  show (b.data.setIfInBounds n (some d))[n]? = some (some d)
  rw [Array.getElem?_setIfInBounds, if_pos rfl, if_pos (by rwa [hb.size_data])]

/-! ### Scalars and nodes that are met -/

theorem looks_findM? {isMarked : Nat × Nat → Build Bool}
    (h : ∀ e, Looks b (isMarked e) fun _ => True) (entries : List (Nat × Nat)) :
    Looks b (entries.findM? isMarked) fun _ => True := by
  induction entries with
  | nil => exact looks_pure trivial
  | cons e rest ih =>
    rw [List.findM?]
    refine looks_bind (h e) fun found _ => ?_
    split
    · exact looks_pure trivial
    · exact ih

theorem looks_scalarText (hb : b.IsSound size) (fuel n : Nat) :
    Looks b (scalarText fuel n) fun _ => True := by
  induction fuel generalizing n with
  | zero => exact looks_throw _
  | succ fuel ih =>
    rw [scalarText]
    refine looks_bind (looks_node hb n) fun node _ => ?_
    split
    · exact looks_pure trivial
    · exact looks_throw _
    · refine looks_bind (looks_findM? (fun e => ?_) _) fun found _ => ?_
      · exact looks_bind (looks_node hb e.1) fun node _ => looks_pure trivial
      · split
        · exact ih _
        · exact looks_throw _

theorem looks_readScalar (hb : b.IsSound size) (n : Nat) :
    Looks b (readScalar n) fun d => d.canBeKey = true := by
  refine looks_bind (looks_node hb n) fun first _ => ?_
  dsimp only
  split
  · exact looks_throw_bind _
  refine looks_bind looks_get fun c _ => looks_bind (looks_scalarText hb _ n) fun text _ => ?_
  refine looks_bind (looks_node hb n) fun last _ => ?_
  split
  · exact looks_throw _
  · split
    · next d hd => exact looks_pure (Scalar.givesKey_read _ _ d hd)
    · exact looks_throw _

theorem emptyCollection?_eq_some {tag : Tag} {d : Datum} (h : emptyCollection? tag = some d) :
    d.parts = [] ∧ ∀ entries, d = .dict entries → entries = [] := by
  unfold emptyCollection? at h
  split at h
  · cases h
    exact ⟨rfl, fun entries heq => by cases heq⟩
  · cases h
    exact ⟨rfl, fun entries heq => by cases heq⟩
  · cases h
    exact ⟨rfl, fun entries heq => by cases heq; rfl⟩
  · cases h
    exact ⟨rfl, fun entries heq => by cases heq⟩
  · cases h

theorem getD_data_eq_some_iff {n : Nat} {d : Datum} :
    b.data.getD n none = some d ↔ b.data[n]? = some (some d) := by
  rw [Array.getD_eq_getD_getElem?]
  cases b.data[n]? with
  | none => simp
  | some d? => simp

theorem keeps_meetCollection (hb : b.IsSound size) (n : Nat) {x : α} (hx : post x b)
    (hpost : ∀ x met, post x b → post x { b with met }) :
    Keeps size b (do
      modify fun b => { b with met := b.met.push n }
      return x) post := by
  intro y b' hrun
  cases hrun
  have hleads : b.Leads { b with met := b.met.push n } := .of_data_eq rfl
  refine ⟨⟨hb.nodes, hb.size_nodes, hb.size_data, hb.parts, ?_⟩, hleads, hpost x _ hx⟩
  exact fun m entries hm => hleads.areEntries (hb.dicts m entries hm)

theorem areEntries_nil (b : Building) : b.AreEntries [] :=
  ⟨List.forall_mem_nil _, List.Pairwise.nil⟩

/-- A node that is met has its datum from then on. -/
theorem keeps_meet (hb : b.IsSound size) {n : Nat} (hn : n < size) :
    Keeps size b (meet n) fun d b' => b'.data[n]? = some (some d) := by
  refine keeps_look looks_get fun c hc => ?_
  subst hc
  split
  · next d hd => exact keeps_pure hb (getD_data_eq_some_iff.mp hd)
  · next hd =>
    have hunset : ∀ {d : Datum}, c.data[n]? ≠ some (some d) := by
      intro d hsome
      rw [getD_data_eq_some_iff.mpr hsome] at hd
      cases hd
    refine keeps_look (looks_node hb n) fun node _ => ?_
    split
    · next d hd =>
      obtain ⟨hparts, hentries⟩ := emptyCollection?_eq_some hd
      refine keeps_bind (keeps_setDatum hb (d := d) (fun c hc => absurd hc hunset) ?_ ?_) ?_
      · rw [hparts]
        exact List.forall_mem_nil _
      · intro entries heq
        rw [hentries entries heq]
        exact areEntries_nil c
      · exact fun _ b₁ hb₁ _ hd => keeps_meetCollection hb₁ n (hd hn) fun _ _ h => h
    · refine keeps_look (looks_readScalar hb n) fun d hkey => ?_
      refine keeps_bind (keeps_setDatum hb (d := d) (fun c hc => absurd hc hunset) ?_ ?_) ?_
      · rw [Datum.parts_of_canBeKey hkey]
        exact List.forall_mem_nil _
      · rintro entries rfl
        exact absurd hkey (by simp [Datum.canBeKey])
      · exact fun _ b₁ hb₁ _ hd => keeps_pure hb₁ (hd hn)

end Build

end IoSource.Yaml
