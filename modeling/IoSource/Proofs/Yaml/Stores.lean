import IoSource.Proofs.Yaml.Building

/-!
# The data of a document

A datum has the number of its node, so the numbers in data are numbers of data.  Merging changes the
entries of mappings, and filling a collection meets what it contains; both keep what is built sound.
`isWellFormed_read` says what this comes to for a source.
-/

namespace IoSource.Yaml

namespace Build

variable {size : Nat} {b : Building}

/-! ### Merging -/

/-- What a program gives holds numbers of nodes alone. -/
def AreInside (size : Nat) (entries : List (Nat × Nat)) : Prop :=
  ∀ e ∈ entries, e.1 < size ∧ e.2 < size

theorem areInside_of_mapping {tag : Tag} {entries : List (Nat × Nat)}
    (h : ∀ m ∈ (Node.mapping tag entries).parts, m < size) : AreInside size entries := by
  intro e he
  obtain ⟨hkey, hvalue⟩ := Datum.mem_parts_of_mem he
  exact ⟨h e.1 hkey, h e.2 hvalue⟩

theorem AreInside.mapping {entries : List (Nat × Nat)} (h : AreInside size entries) (tag : Tag) :
    ∀ m ∈ (Node.mapping tag entries).parts, m < size := by
  intro m hm
  obtain ⟨e, he, hm⟩ := List.mem_flatMap.mp hm
  rcases List.mem_cons.mp hm with rfl | hm
  · exact (h e he).1
  · obtain rfl := List.mem_singleton.mp hm
    exact (h e he).2

theorem looks_takeMerge? (hb : b.IsSound size) {entries : List (Nat × Nat)}
    (hentries : AreInside size entries) :
    Looks b (takeMerge? entries) fun taken => ∀ source others, taken = some (source, others) →
      AreInside size others := by
  induction entries with
  | nil => exact looks_pure fun source others h => by cases h
  | cons e rest ih =>
    have hrest : AreInside size rest := fun f hf => hentries f (List.mem_cons_of_mem e hf)
    rw [takeMerge?]
    refine looks_bind (looks_node hb e.1) fun key _ => ?_
    split
    · refine looks_pure fun source others h => ?_
      cases h
      exact hrest
    · refine looks_bind (ih hrest) fun taken htaken => looks_pure fun source others h => ?_
      obtain ⟨⟨source', others'⟩, hsome, heq⟩ := Option.map_eq_some_iff.mp h
      obtain ⟨-, rfl⟩ := Prod.mk.inj heq
      intro f hf
      rcases List.mem_cons.mp hf with rfl | hf
      · exact hentries e List.mem_cons_self
      · exact htaken source' others' hsome f hf

theorem keeps_unmark (hb : b.IsSound size) (key : Nat) :
    Keeps size b (unmark key) fun _ _ => True := by
  refine keeps_look (looks_node hb key) fun node hnode => ?_
  split
  · exact keeps_setNode hb key hnode
  · exact keeps_setNode hb key hnode
  · exact keeps_setNode hb key hnode
  · exact keeps_pure hb trivial

theorem keeps_forM {γ : Type} {f : γ → Build Unit} (good : γ → Prop) {xs : List γ}
    (hf : ∀ x b, b.IsSound size → good x → Keeps size b (f x) fun _ _ => True)
    (hb : b.IsSound size) (hxs : ∀ x ∈ xs, good x) :
    Keeps size b (xs.forM f) fun _ _ => True := by
  induction xs generalizing b with
  | nil => exact keeps_pure hb trivial
  | cons x rest ih =>
    show Keeps size b (f x >>= fun _ => rest.forM f) _
    refine keeps_bind (hf x b hb (hxs x List.mem_cons_self)) fun _ b₁ hb₁ _ _ => ?_
    exact ih hb₁ fun y hy => hxs y (List.mem_cons_of_mem x hy)

/-- What merges with some fuel keeps what is built sound. -/
structure MergersKeep (size fuel : Nat) : Prop where
  merge : ∀ n b, b.IsSound size → Keeps size b (merge fuel n) fun _ _ => True
  entriesOf : ∀ n b, b.IsSound size →
    Keeps size b (entriesOf fuel n) fun entries _ => AreInside size entries
  ofMapping : ∀ n b, b.IsSound size →
    Keeps size b (entriesOfMapping fuel n) fun entries _ => AreInside size entries
  ofAll : ∀ ns b, b.IsSound size →
    Keeps size b (entriesOfAll fuel ns) fun entries _ => AreInside size entries

theorem AreInside.append {xs ys : List (Nat × Nat)} (hxs : AreInside size xs)
    (hys : AreInside size ys) : AreInside size (xs ++ ys) := by
  intro e he
  rcases List.mem_append.mp he with he | he
  · exact hxs e he
  · exact hys e he

theorem keeps_merge {fuel : Nat} (h : MergersKeep size fuel) (hb : b.IsSound size) (n : Nat) :
    Keeps size b (merge (fuel + 1) n) fun _ _ => True := by
  rw [merge]
  refine keeps_look (looks_node hb n) fun node hnode => ?_
  split
  · next tag entries =>
    refine keeps_look (looks_takeMerge? hb (areInside_of_mapping hnode)) fun taken htaken => ?_
    split
    · exact keeps_forM (fun _ => True) (fun e b hb _ => keeps_unmark hb e.1) hb
        fun _ _ => trivial
    · next source others =>
      have hothers := htaken source others rfl
      refine keeps_bind (keeps_setNode hb n (hothers.mapping tag)) fun _ b₁ hb₁ _ _ => ?_
      refine keeps_bind (h.entriesOf source b₁ hb₁) fun entries b₂ hb₂ _ hentries => ?_
      refine keeps_bind (h.merge n b₂ hb₂) fun _ b₃ hb₃ _ _ => ?_
      refine keeps_look (looks_node hb₃ n) fun node hnode => ?_
      split
      · exact keeps_setNode hb₃ n ((hentries.append (areInside_of_mapping hnode)).mapping _)
      · exact keeps_pure hb₃ trivial
  · exact keeps_pure hb trivial

theorem keeps_entriesOf {fuel : Nat} (h : MergersKeep size fuel) (hb : b.IsSound size) (n : Nat) :
    Keeps size b (entriesOf (fuel + 1) n) fun entries _ => AreInside size entries := by
  rw [entriesOf]
  refine keeps_look (looks_node hb n) fun node hnode => ?_
  split
  · exact h.ofMapping n b hb
  · exact h.ofAll _ b hb
  · exact keeps_throw _

theorem keeps_entriesOfMapping {fuel : Nat} (h : MergersKeep size fuel) (hb : b.IsSound size)
    (n : Nat) :
    Keeps size b (entriesOfMapping (fuel + 1) n) fun entries _ => AreInside size entries := by
  rw [entriesOfMapping]
  refine keeps_bind (h.merge n b hb) fun _ b₁ hb₁ _ _ => ?_
  refine keeps_look (looks_node hb₁ n) fun node hnode => ?_
  split
  · exact keeps_pure hb₁ (areInside_of_mapping hnode)
  · exact keeps_throw _

theorem areInside_nil : AreInside size [] := List.forall_mem_nil _

theorem keeps_entriesOfAll {fuel : Nat} (h : MergersKeep size fuel) (hb : b.IsSound size)
    (ns : List Nat) :
    Keeps size b (entriesOfAll (fuel + 1) ns) fun entries _ => AreInside size entries := by
  induction ns generalizing b with
  | nil =>
    rw [entriesOfAll]
    exact keeps_pure hb areInside_nil
  | cons n rest ih =>
    rw [entriesOfAll]
    refine keeps_bind (h.ofMapping n b hb) fun first b₁ hb₁ _ hfirst => ?_
    refine keeps_bind (ih hb₁) fun later b₂ hb₂ _ hlater => ?_
    exact keeps_pure hb₂ (hlater.append hfirst)

theorem mergersKeep (size fuel : Nat) : MergersKeep size fuel := by
  -- the functions call each other with less fuel, so all of them are taken together
  induction fuel with
  | zero =>
    refine ⟨fun n b hb => ?merge, fun n b hb => ?entriesOf, fun n b hb => ?ofMapping,
      fun ns b hb => ?ofAll⟩
    case merge =>
      rw [merge]
      exact keeps_pure hb trivial
    case entriesOf =>
      rw [entriesOf]
      exact keeps_pure hb areInside_nil
    case ofMapping =>
      rw [entriesOfMapping]
      exact keeps_pure hb areInside_nil
    case ofAll =>
      cases ns with
      | nil =>
        rw [entriesOfAll]
        exact keeps_pure hb areInside_nil
      | cons n rest =>
        rw [entriesOfAll]
        · exact keeps_pure hb areInside_nil
        · exact List.cons_ne_nil n rest
  | succ fuel ih =>
    exact ⟨fun n b hb => keeps_merge ih hb n, fun n b hb => keeps_entriesOf ih hb n,
      fun n b hb => keeps_entriesOfMapping ih hb n, fun ns b hb => keeps_entriesOfAll ih hb ns⟩

/-! ### Sets -/

theorem mem_of_mem_inSlots {count : Nat} {numbers : List (Nat × Number)} {n : Nat}
    (h : some n ∈ inSlots count numbers) : n ∈ numbers.map Prod.fst := by
  refine (List.foldlRecOn (motive := fun slots => ∀ n, some n ∈ slots → n ∈ numbers.map Prod.fst)
    numbers _ ?empty ?put) n h
  case empty => exact fun n hn => absurd (Array.mem_replicate.mp hn).2 (by simp)
  case put =>
    intro slots hslots e he n hn
    dsimp only at hn
    split at hn
    · rcases Array.mem_or_eq_of_mem_setIfInBounds hn with hn | heq
      · exact hslots n hn
      · obtain rfl := Option.some.inj heq
        exact List.mem_map.mpr ⟨e, he, rfl⟩
    · exact hslots n hn

theorem map_fst_of_mapM {s : Store} {elements : List Nat} {numbers : List (Nat × Number)}
    (h : (elements.mapM fun n => (s.datum n).number?.map fun number => (n, number)) = some numbers) :
    numbers.map Prod.fst = elements := by
  induction elements generalizing numbers with
  | nil =>
    cases h
    rfl
  | cons n rest ih =>
    rw [List.mapM_cons] at h
    obtain ⟨e, he, h⟩ := Option.bind_eq_some_iff.mp h
    obtain ⟨more, hmore, h⟩ := Option.bind_eq_some_iff.mp h
    obtain ⟨number, -, rfl⟩ := Option.map_eq_some_iff.mp he
    cases h
    rw [List.map_cons, ih hmore]

theorem mem_of_mem_inSetOrder {s : Store} {elements : List Nat} {n : Nat}
    (h : n ∈ s.inSetOrder elements) : n ∈ elements := by
  rw [Store.inSetOrder] at h
  split at h
  · exact h
  · next numbers hnumbers =>
    obtain ⟨slot, hslot, rfl⟩ := List.mem_filterMap.mp h
    rw [← map_fst_of_mapM hnumbers]
    exact mem_of_mem_inSlots (Array.mem_toList_iff.mp hslot)

/-! ### Filling collections -/

/-- Keys and values that are met one after the other are there at the end, and can be keys. -/
theorem keeps_forIn {f : Nat × Nat → PUnit → Build (ForInStep PUnit)}
    (hf : ∀ e b, b.IsSound size → e.1 < size ∧ e.2 < size →
      Keeps size b (f e PUnit.unit) fun r b' => r = .yield PUnit.unit ∧ b'.IsKey e.1)
    {entries : List (Nat × Nat)} (hb : b.IsSound size) (hentries : AreInside size entries) :
    Keeps size b (forIn entries PUnit.unit f) fun _ b' => ∀ e ∈ entries, b'.IsKey e.1 := by
  induction entries generalizing b with
  | nil => exact keeps_pure hb (List.forall_mem_nil _)
  | cons e rest ih =>
    have hrest : AreInside size rest := fun g hg => hentries g (List.mem_cons_of_mem e hg)
    rw [List.forIn_cons]
    refine keeps_bind (hf e b hb (hentries e List.mem_cons_self)) fun r b₁ hb₁ _ hr => ?_
    obtain ⟨rfl, hkey⟩ := hr
    intro x b' hrun
    obtain ⟨hb', hleads, hkeys⟩ := ih hb₁ hrest x b' hrun
    exact ⟨hb', hleads, List.forall_mem_cons.mpr ⟨(hleads.isKey hkey).1, hkeys⟩⟩

theorem areInside_setEntry {s : Store} {entries : List (Nat × Nat)} (h : AreInside size entries)
    {key value : Nat} (hkey : key < size) (hvalue : value < size) :
    AreInside size (s.setEntry entries key value) := by
  induction entries with
  | nil =>
    intro e he
    obtain rfl := List.mem_singleton.mp he
    exact ⟨hkey, hvalue⟩
  | cons f rest ih =>
    obtain ⟨hf, hrest⟩ := List.forall_mem_cons.mp h
    rw [Store.setEntry]
    split
    · exact List.forall_mem_cons.mpr ⟨⟨hf.1, hvalue⟩, hrest⟩
    · exact List.forall_mem_cons.mpr ⟨hf, ih hrest⟩

theorem areEntries_setEntries {entries : List (Nat × Nat)} (hentries : AreInside size entries)
    (hkeys : ∀ e ∈ entries, b.IsKey e.1) :
    AreInside size (b.store.setEntries [] entries) ∧
      b.AreEntries (b.store.setEntries [] entries) := by
  suffices h : ∀ all, AreInside size all → b.AreEntries all →
      AreInside size (b.store.setEntries all entries) ∧
        b.AreEntries (b.store.setEntries all entries) from h [] areInside_nil (areEntries_nil b)
  induction entries with
  | nil => exact fun all hall hentries => ⟨hall, hentries⟩
  | cons e rest ih =>
    intro all hall hset
    obtain ⟨he, hrest⟩ := List.forall_mem_cons.mp hentries
    obtain ⟨hkey, hkeys⟩ := List.forall_mem_cons.mp hkeys
    refine ih hrest hkeys _ (areInside_setEntry hall he.1 he.2) ⟨fun f hf => ?_, ?_⟩
    · rcases Store.mem_setEntry hf with heq | ⟨g, hg, heq⟩
      · rw [heq]
        exact hkey
      · rw [← heq]
        exact hset.keys g hg
    · exact hset.distinct.setEntry e.1 e.2

/-- The entries that a mapping stands for can be those of a dictionary. -/
theorem keeps_entriesFor (hb : b.IsSound size) (n : Nat) :
    Keeps size b (entriesFor n) fun entries b' =>
      AreInside size entries ∧ b'.AreEntries entries := by
  have hcount : ∀ {b : Building}, Looks b mergeCount fun _ => True :=
    looks_bind looks_get fun _ _ => looks_pure trivial
  rw [entriesFor]
  refine keeps_look hcount fun count _ => ?_
  refine keeps_bind ((mergersKeep size _).merge n b hb) fun _ b₁ hb₁ _ _ => ?_
  refine keeps_look (looks_node hb₁ n) fun node hnode => ?_
  split
  · next tag entries =>
    have hentries := areInside_of_mapping hnode
    refine keeps_bind (keeps_forIn (fun e b hb he => ?_) hb₁ hentries)
      fun _ b₂ hb₂ _ hkeys => ?_
    · refine keeps_bind (keeps_meet hb he.1) fun d b₁ hb₁ _ hd => ?_
      have hvalue : d.canBeKey = true → Keeps size b₁ (do
          discard (meet e.2)
          pure (ForInStep.yield PUnit.unit)) fun r b' => r = .yield PUnit.unit ∧ b'.IsKey e.1 := by
        intro hkey
        refine keeps_bind (keeps_meet hb₁ he.2).discard fun _ b₂ hb₂ hleads _ => ?_
        exact keeps_pure hb₂ ⟨rfl, (hleads.isKey ⟨d, hd, hkey⟩).1⟩
      dsimp only
      split
      · exact keeps_throw_bind _
      · next hkey => exact hvalue (by simpa using hkey)
    · refine keeps_look looks_store fun s hs => ?_
      subst hs
      exact keeps_pure hb₂ (areEntries_setEntries hentries hkeys)
  · exact keeps_throw _

theorem keeps_pairOf (hb : b.IsSound size) (n : Nat) :
    Keeps size b (pairOf n) fun e _ => e.1 < size ∧ e.2 < size := by
  rw [pairOf]
  refine keeps_look (looks_node hb n) fun node hnode => ?_
  split
  · next tag key value =>
    have he := areInside_of_mapping hnode (key, value) List.mem_cons_self
    refine keeps_bind (keeps_meet hb he.1).discard fun _ b₁ hb₁ _ _ => ?_
    refine keeps_bind (keeps_meet hb₁ he.2).discard fun _ b₂ hb₂ _ _ => ?_
    exact keeps_pure hb₂ he
  · exact keeps_throw _

theorem keeps_mapM_pairOf (hb : b.IsSound size) (items : List Nat) :
    Keeps size b (items.mapM pairOf) fun entries _ => AreInside size entries := by
  induction items generalizing b with
  | nil => exact keeps_pure hb areInside_nil
  | cons n rest ih =>
    rw [List.mapM_cons]
    refine keeps_bind (keeps_pairOf hb n) fun e b₁ hb₁ _ he => ?_
    refine keeps_bind (ih hb₁) fun entries b₂ hb₂ _ hentries => ?_
    exact keeps_pure hb₂ (List.forall_mem_cons.mpr ⟨he, hentries⟩)

theorem keeps_setCollection {b₁ : Building} (hb₁ : b₁.IsSound size) (hleads : b.Leads b₁) {n : Nat}
    {d d' : Datum} (hd : b.data.getD n none = some d) (hnot : d.canBeKey = false)
    (hnot' : d'.canBeKey = false) (hparts : ∀ m ∈ d'.parts, m < size)
    (hdict : ∀ entries, d' = .dict entries → b₁.AreEntries entries) :
    Keeps size b₁ (setDatum n d') fun _ _ => True := by
  refine (keeps_setDatum hb₁ (fun c hc => ⟨?_, hnot'⟩) hparts hdict).imp fun _ _ _ => trivial
  obtain ⟨c', hc', hsame⟩ := hleads n d (getD_data_eq_some_iff.mp hd)
  obtain rfl := Option.some.inj (Option.some.inj (hc.symm.trans hc'))
  rcases hsame with rfl | ⟨-, hc⟩
  · exact hnot
  · exact hc

theorem keeps_fill (hb : b.IsSound size) (n : Nat) : Keeps size b (fill n) fun _ _ => True := by
  rw [fill]
  refine keeps_look looks_get fun c hc => ?_
  subst hc
  split
  case h_1 old hd =>
    refine keeps_look (looks_node hb n) fun node hnode => ?_
    split
    · next tag items =>
      refine keeps_bind (keeps_forM (· < size) (fun m b hb hm => ?_) hb hnode)
        fun _ b₁ hb₁ hleads _ => ?_
      · exact (keeps_meet hb hm).discard.imp fun _ _ _ => trivial
      · exact keeps_setCollection hb₁ hleads hd rfl rfl hnode fun _ h => by cases h
    · exact keeps_throw _
  case h_2 old hd =>
    refine keeps_look (looks_node hb n) fun node hnode => ?_
    split
    · next tag items =>
      refine keeps_bind (keeps_mapM_pairOf hb items) fun entries b₁ hb₁ hleads hentries => ?_
      exact keeps_setCollection hb₁ hleads hd rfl rfl (hentries.mapping tag) fun _ h => by cases h
    · exact keeps_throw _
  case h_3 old hd =>
    refine keeps_bind (keeps_entriesFor hb n) fun entries b₁ hb₁ hleads hentries => ?_
    refine keeps_setCollection hb₁ hleads hd rfl rfl (hentries.1.mapping .mapping) ?_
    rintro _ ⟨⟩
    exact hentries.2
  case h_4 old hd =>
    refine keeps_bind (keeps_entriesFor hb n) fun entries b₁ hb₁ hleads hentries => ?_
    refine keeps_look looks_store fun s _ => ?_
    refine keeps_setCollection hb₁ hleads hd rfl rfl ?_ fun _ h => by cases h
    intro m hm
    obtain ⟨e, he, rfl⟩ := List.mem_map.mp (mem_of_mem_inSetOrder hm)
    exact (hentries.1 e he).1
  case h_5 => exact keeps_pure hb trivial

theorem keeps_fillFrom (fuel : Nat) (hb : b.IsSound size) (place : Nat) :
    Keeps size b (fillFrom fuel place) fun _ _ => True := by
  induction fuel generalizing b place with
  | zero => exact keeps_pure hb trivial
  | succ fuel ih =>
    rw [fillFrom]
    refine keeps_look looks_get fun c _ => ?_
    split
    · next n _ => exact keeps_bind (keeps_fill hb n) fun _ b₁ hb₁ _ _ => ih hb₁ (place + 1)
    · exact keeps_pure hb trivial

end Build

/-! ### What is read -/

theorem Building.isSound_init {nodes : Array Node} (hnodes : NodesClosed nodes) :
    Building.IsSound nodes.size ⟨nodes, Array.replicate nodes.size none, #[]⟩ := by
  have hunset : ∀ (m : Nat) (d : Datum),
      (Array.replicate nodes.size (none : Option Datum))[m]? ≠ some (some d) := by
    intro m d
    rw [Array.getElem?_replicate]
    split <;> simp
  refine ⟨hnodes, rfl, Array.size_replicate, ?_, ?_⟩
  · exact fun m d hd => absurd hd (hunset m d)
  · exact fun m entries hd => absurd hd (hunset m _)

theorem Document.isWellFormed_store {d : Document} (hnodes : NodesClosed d.nodes)
    (hroot : d.root < d.nodes.size) {s : Store} (h : d.store = .ok s) : s.IsWellFormed := by
  have hb := Building.isSound_init hnodes
  obtain ⟨b, hrun⟩ := exists_of_run'_eq_ok h
  obtain ⟨_, b₁, hmeet, hrun⟩ := exists_of_run_bind_eq_ok hrun
  obtain ⟨hb₁, -, -⟩ := (Build.keeps_meet hb hroot).discard _ b₁ hmeet
  obtain ⟨_, b₂, hfill, hrun⟩ := exists_of_run_bind_eq_ok hrun
  obtain ⟨hb₂, -, -⟩ := Build.keeps_fillFrom _ hb₁ 0 _ b₂ hfill
  obtain ⟨-, rfl⟩ := Build.looks_store s b hrun
  exact hb₂.isWellFormed

theorem isWellFormed_null : Store.IsWellFormed #[.null] := by
  have hnull : ∀ m, Store.datum #[.null] m = .null := by
    intro m
    cases m <;> rfl
  constructor
  · intro m n hn
    rw [hnull] at hn
    exact absurd hn List.not_mem_nil
  · intro m entries h
    exact absurd ((hnull m).symm.trans h) (by simp)

/-- **What is read from a source is well formed**: the numbers in data are numbers of data, and no
dictionary has a key twice. -/
theorem isWellFormed_read [Platform] {source : Source} {s : Store} {n : Nat}
    (h : read source = .ok (s, n)) : s.IsWellFormed := by
  rw [read] at h
  obtain ⟨d?, hd, h⟩ := exists_of_bind_eq_ok h
  cases d? with
  | none =>
    cases h
    exact isWellFormed_null
  | some d =>
    obtain ⟨s', hs', h⟩ := exists_of_bind_eq_ok h
    cases h
    obtain ⟨hnodes, hroot⟩ := Document.nodesClosed_ofTokens hd
    exact Document.isWellFormed_store hnodes hroot hs'

end IoSource.Yaml
