import IoSource.Proofs.Json.RoundTrip

/-!
# The canonical form

With sorted keys a writer forgets the order in which entries and elements were put in.  Two values
that differ in that order alone, at any depth (`Value.Reordered`), become the same document
(`Json.ofValue_eq_of_reordered`) and take as many calls, so whatever the indentation is, the same text
or the same error comes out (`Writer.eq_of_reordered`).
-/

namespace IoSource

/-- Whether two values are the same but for the order of entries of dictionaries and of elements of
sets.  Two dictionaries are if the entries of the second, moved to the order of the first, have the
same keys, and values that are the same but for order again. -/
inductive Value.Reordered : Value → Value → Prop
  | null : Reordered .null .null
  | bool (b : Bool) : Reordered (.bool b) (.bool b)
  | int (i : Int) : Reordered (.int i) (.int i)
  | text (t : Text) : Reordered (.text t) (.text t)
  | list {items items' : List Value} (hlength : items.length = items'.length)
      (h : ∀ p ∈ items.zip items', Reordered p.1 p.2) : Reordered (.list items) (.list items')
  | dict {entries moved entries' : List (Text × Value)} (hunique : (entries.map Prod.fst).Nodup)
      (hkeys : entries.map Prod.fst = moved.map Prod.fst)
      (h : ∀ p ∈ entries.zip moved, Reordered p.1.2 p.2.2) (hperm : moved.Perm entries') :
      Reordered (.dict (entries.map fun e => (.text e.1, e.2)))
        (.dict (entries'.map fun e => (.text e.1, e.2)))
  | set {ts ts' : List Text} (hperm : ts.Perm ts') : Reordered (.set (ts.map .text)) (.set (ts'.map .text))

namespace Json

theorem map_eq_map_iff_zip {α β : Type} {f : α → β} {xs ys : List α} :
    xs.map f = ys.map f ↔ xs.length = ys.length ∧ ∀ p ∈ xs.zip ys, f p.1 = f p.2 := by
  have hpointwise : xs.map f = ys.map f ↔ List.Forall₂ (fun x y => f x = f y) xs ys := by
    rw [← List.forall₂_eq_eq_eq, List.forall₂_map_left_iff, List.forall₂_map_right_iff]
  rw [hpointwise, List.forall₂_iff_zip]
  simp

/-- Objects of reordered entries are equal, if their keys are sorted and no key comes twice. -/
theorem ofEntries_eq_of_perm {pairs pairs' : List (Text × Except WriteError Json)}
    (hunique : (pairs.map Prod.fst).Nodup) (hperm : pairs.Perm pairs') :
    ofEntries true (pairs.map fun p => (.text p.1, p.2)) =
      ofEntries true (pairs'.map fun p => (.text p.1, p.2)) := by
  have hkeys : ∀ p ∈ pairs, ∀ q ∈ pairs, p.1 = q.1 → p = q :=
    fun p hp q hq => List.inj_on_of_nodup_map hunique hp hq
  rw [ofEntries_text, ofEntries_text, arranged, arranged, if_pos rfl, if_pos rfl,
    sortedByKey_eq_of_perm hperm hkeys]

/-- **Sorted documents forget the order** of entries and elements. -/
theorem ofValue_eq_of_reordered {v v' : Value} (h : v.Reordered v') :
    ofValue true v = ofValue true v' := by
  induction h with
  | null => rfl
  | bool b => rfl
  | int i => rfl
  | text t => rfl
  | list hlength _ ih =>
    have hitems := map_eq_map_iff_zip.mpr ⟨hlength, ih⟩
    rw [ofValue, ofValue, ofItems_eq, ofItems_eq, hitems]
  | @dict entries moved entries' hunique hkeys _ hperm ih =>
    obtain ⟨hlength, hkey⟩ := map_eq_map_iff_zip.mp hkeys
    -- with the keys in the same order the values of the entries are equal in pairs
    have hmoved : (entries.map fun e => (e.1, ofValue true e.2)) =
        moved.map fun e => (e.1, ofValue true e.2) :=
      map_eq_map_iff_zip.mpr ⟨hlength, fun p hp => Prod.ext (hkey p hp) (ih p hp)⟩
    have hpairs : (entries.map fun e => (e.1, ofValue true e.2)).Perm
        (entries'.map fun e => (e.1, ofValue true e.2)) := by
      rw [hmoved]
      exact hperm.map _
    have hnodup : ((entries.map fun e => (e.1, ofValue true e.2)).map Prod.fst).Nodup := by
      rw [List.map_map]
      exact hunique
    have hobject := ofEntries_eq_of_perm hnodup hpairs
    rw [List.map_map, List.map_map] at hobject
    rw [ofValue_dict, ofValue_dict]
    exact hobject
  | @set ts ts' hperm =>
    have hsorted : ts.insertionSort (· ≤ ·) = ts'.insertionSort (· ≤ ·) :=
      insertionSort_eq_of_perm hperm fun _ _ _ _ => le_antisymm
    rw [ofValue_set, ofValue_set, hsorted]

end Json

namespace Value

theorem callsOfItems_eq_of_forall {cost : Layer → Nat} {items items' : List Value}
    (h : ∀ n, (∀ v ∈ items, v.calls cost ≤ n) ↔ ∀ v ∈ items', v.calls cost ≤ n) :
    callsOfItems cost items = callsOfItems cost items' :=
  eq_of_forall_ge_iff fun n => by rw [callsOfItems_le_iff, callsOfItems_le_iff, h]

/-- **Order takes no calls.** -/
theorem calls_eq_of_reordered {v v' : Value} (h : v.Reordered v') (cost : Layer → Nat) :
    v.calls cost = v'.calls cost := by
  induction h with
  | null => rfl
  | bool b => rfl
  | int i => rfl
  | text t => rfl
  | @list items items' hlength _ ih =>
    have hcalls : items.map (calls cost) = items'.map (calls cost) :=
      Json.map_eq_map_iff_zip.mpr ⟨hlength, ih⟩
    rw [calls, calls]
    congr 1
    refine callsOfItems_eq_of_forall fun n => ?_
    rw [← List.forall_mem_map (P := (· ≤ n)), hcalls, List.forall_mem_map]
  | @dict entries moved entries' _ hkeys _ hperm ih =>
    obtain ⟨hlength, -⟩ := Json.map_eq_map_iff_zip.mp hkeys
    have hcalls : (entries.map fun e => e.2.calls cost) = moved.map fun e => e.2.calls cost :=
      Json.map_eq_map_iff_zip.mpr ⟨hlength, ih⟩
    rw [calls, calls]
    congr 1
    refine eq_of_forall_ge_iff fun n => ?_
    rw [callsOfValues_le_iff, callsOfValues_le_iff, List.forall_mem_map, List.forall_mem_map]
    show (∀ e ∈ entries, e.2.calls cost ≤ n) ↔ ∀ e ∈ entries', e.2.calls cost ≤ n
    rw [← List.forall_mem_map (f := fun e : Text × Value => e.2.calls cost) (P := (· ≤ n)), hcalls,
      List.forall_mem_map]
    simp only [hperm.mem_iff]
  | @set ts ts' hperm =>
    rw [calls, calls]
    congr 1
    refine callsOfItems_eq_of_forall fun n => ?_
    simp only [(hperm.map Value.text).mem_iff]

end Value

namespace Writer

/-- **Sorted output is canonical.**  Reordered values give the same result, a text or an error, in
every way of writing.  It is a text if the value is writable and the stack suffices. -/
theorem eq_of_reordered [Platform] (w : Writer) (hsort : w.sortKeys = true) {v v' : Value}
    (h : v.Reordered v') :
    (w.write v = w.write v' ∧ w.stream v = w.stream v' ∧ w.compact v = w.compact v') ∧
      (v.IsWritable → (v.fits .compact = true → ∃ t, w.compact v = .ok t) ∧
        (w.indent.IsSpaceCount → w.HasRoom →
          (v.fits (.text w.isIndented) = true → ∃ t, w.write v = .ok t) ∧
          (v.fits (.stream w.isIndented) = true → ∃ t, w.stream v = .ok t))) := by
  have hdocument : ∀ mode, w.document mode v = w.document mode v' := by
    intro mode
    rw [document, document, hsort, Json.ofValue_eq_of_reordered h, Value.fits, Value.fits,
      Value.calls_eq_of_reordered h]
  have hstream : w.stream v = w.stream v' := by rw [stream, stream, hdocument]
  have hcompact : w.compact v = w.compact v' := by rw [compact, compact, hdocument]
  have hwrite : w.write v = w.write v' := by
    by_cases htext : ∃ t, v = .text t
    · obtain ⟨t, rfl⟩ := htext
      cases h
      rfl
    · have htext' : ∀ t, v' ≠ .text t := by
        rintro t rfl
        cases h
        exact htext ⟨t, rfl⟩
      rw [write, write, hdocument]
      · exact htext'
      · exact fun t heq => htext ⟨t, heq⟩
  refine ⟨⟨hwrite, hstream, hcompact⟩, fun hv => ?_⟩
  have hplain : ∃ json, Json.ofValue w.sortKeys v = .ok json :=
    ⟨_, Json.ofValue_eq_plain w.sortKeys hv⟩
  refine ⟨fun hfits => ?_, fun hindent hroom => ?_⟩
  · rw [compact_eq]
    exact exists_map_eq_ok_iff.mpr (exists_document_iff.mpr ⟨hfits, hplain⟩)
  · obtain ⟨layout, hlayout, -⟩ := exists_layout hindent hroom
    rw [write_of_layout hlayout, stream_of_layout hlayout]
    exact ⟨fun hfits => exists_map_eq_ok_iff.mpr (exists_document_iff.mpr ⟨hfits, hplain⟩),
      fun hfits => exists_map_eq_ok_iff.mpr (exists_document_iff.mpr ⟨hfits, hplain⟩)⟩

open Platform.Usual in
theorem eq_of_reordered_swapped :
    let w : Writer := {}
    let v : Value := .dict [(.text ['a'], .set [.text ['c'], .text ['d']]), (.text ['b'], .null)]
    let v' : Value := .dict [(.text ['b'], .null), (.text ['a'], .set [.text ['d'], .text ['c']])]
    w.sortKeys = true ∧ v.Reordered v' ∧ w.write v = w.write v' := by
  intro w v v'
  have hset : Value.Reordered (.set [.text ['c'], .text ['d']]) (.set [.text ['d'], .text ['c']]) :=
    @Value.Reordered.set [['c'], ['d']] [['d'], ['c']] (.swap _ _ _)
  have hreordered : v.Reordered v' := by
    refine @Value.Reordered.dict
      [(['a'], .set [.text ['c'], .text ['d']]), (['b'], .null)]
      [(['a'], .set [.text ['d'], .text ['c']]), (['b'], .null)]
      [(['b'], .null), (['a'], .set [.text ['d'], .text ['c']])] (by decide) rfl ?_ (.swap _ _ _)
    simp only [List.zip_cons_cons, List.forall_mem_cons]
    exact ⟨hset, .null, by simp⟩
  exact ⟨rfl, hreordered, (eq_of_reordered w rfl hreordered).1.1⟩

end Writer

end IoSource
