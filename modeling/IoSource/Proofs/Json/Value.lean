import IoSource.Json.Writer
import IoSource.Proofs.Json.Grammar
import IoSource.Proofs.Text.Order
import IoSource.Report

/-!
# The documents of values

Which document a value stands for is said by `Value.plain`: tuples become arrays, sets arrays in
order, paths and categories strings, results objects, and the members of an object keep their order or
are sorted by their keys.  `Value.IsWritable` are the values that have such a document, results among
them, and for these the writer makes it (`Json.ofValue_eq_plain`).

All values go through the same few equations: with texts as keys or elements, sorting never fails, and
`ofEntries` and `ofElements` are a sort and a conversion of each part (`Json.ofEntries_text`,
`Json.ofElements_text`).
-/

namespace IoSource.Json

/-! ### Parts -/

theorem ofItems_eq (sortKeys : Bool) (items : List Value) :
    ofItems sortKeys items = items.map (ofValue sortKeys) := by
  induction items with
  | nil => rfl
  | cons item items ih => rw [ofItems, ih, List.map_cons]

theorem ofValues_eq (sortKeys : Bool) (entries : List (Value × Value)) :
    ofValues sortKeys entries = entries.map fun e => ofValue sortKeys e.2 := by
  induction entries with
  | nil => rfl
  | cons e entries ih => rw [ofValues, ih, List.map_cons]

theorem ofFields_eq (sortKeys : Bool) (fields : List (Text × Value)) :
    ofFields sortKeys fields = fields.map fun f => ofValue sortKeys f.2 := by
  induction fields with
  | nil => rfl
  | cons f fields ih => rw [ofFields, ih, List.map_cons]

theorem allOk_map_ok {α β : Type} (f : α → β) (xs : List α) :
    allOk (xs.map fun x => .ok (f x)) = .ok (xs.map f) := by
  induction xs with
  | nil => rfl
  | cons x xs ih =>
    rw [List.map_cons, allOk, ih]
    rfl

/-- Pairs with texts for keys are sorted by these, and that never fails. -/
theorem sortedByValue_text {α : Type} (pairs : List (Text × α)) :
    sortedByValue (pairs.map fun p => (Value.text p.1, p.2)) =
      .ok ((sortedByKey pairs).map fun p => (Value.text p.1, p.2)) := by
  have hbefore : ∀ p q : Text × α, (fun p q : Value × α => p.1.before? q.1)
      (Value.text q.1, q.2) (Value.text p.1, p.2) = some (!decide (p.1 ≤ q.1)) := by
    intro p q
    show (Value.text q.1).before? (.text p.1) = _
    rw [Value.before?, Text.before_eq]
  have hsorted := @sorted?_map _ _ (fun p q : Value × α => p.1.before? q.1)
    (fun p q : Text × α => p.1 ≤ q.1) _ (fun p => (Value.text p.1, p.2)) hbefore pairs
  rw [sortedByValue, hsorted]
  rfl

/-- The members of an object: in order, if keys are sorted. -/
def arranged {α : Type} (sortKeys : Bool) (pairs : List (Text × α)) : List (Text × α) :=
  if sortKeys then sortedByKey pairs else pairs

theorem arranged_map {α β : Type} (sortKeys : Bool) (f : α → β) (pairs : List (Text × α)) :
    arranged sortKeys (pairs.map fun p => (p.1, f p.2)) =
      (arranged sortKeys pairs).map fun p => (p.1, f p.2) := by
  cases sortKeys with
  | false => rfl
  | true => exact sortedByKey_map f pairs

theorem ofEntries_text (sortKeys : Bool) (pairs : List (Text × Except WriteError Json)) :
    ofEntries sortKeys (pairs.map fun p => (.text p.1, p.2)) =
      (allOk ((arranged sortKeys pairs).map fun p => p.2.map fun json => (p.1, json))).map object := by
  have hobject : ∀ pairs : List (Text × Except WriteError Json),
      (do
        let members ← allOk ((pairs.map fun p => (Value.text p.1, p.2)).map fun p =>
          (do return (← keyText? p.1, ← p.2) : Except WriteError (Text × Json)))
        return object members : Except WriteError Json) =
      (allOk (pairs.map fun p => p.2.map fun json => (p.1, json))).map object := by
    intro pairs
    have hmember : ∀ p : Text × Except WriteError Json,
        (do return (← keyText? (.text p.1), ← p.2) : Except WriteError (Text × Json)) =
          p.2.map fun json => (p.1, json) := by
      rintro ⟨key, json⟩
      cases json <;> rfl
    simp only [List.map_map, Function.comp_def, hmember]
    cases allOk (pairs.map fun p => p.2.map fun json => (p.1, json)) <;> rfl
  cases sortKeys with
  | false => exact hobject pairs
  | true =>
    rw [ofEntries, if_pos rfl, sortedByValue_text]
    exact hobject (sortedByKey pairs)

theorem ofElements_text (ts : List Text) :
    ofElements (ts.map fun t => (.text t, .ok (string t))) =
      .ok (array ((ts.insertionSort (· ≤ ·)).map string)) := by
  have hpairs : (ts.map fun t => (Value.text t, (.ok (string t) : Except WriteError Json))) =
      (ts.map fun t => (t, (.ok (string t) : Except WriteError Json))).map
        fun p => (Value.text p.1, p.2) := by
    rw [List.map_map]
    rfl
  rw [ofElements, hpairs, sortedByValue_text, sortedByKey_keys]
  show (allOk _ >>= fun items => pure (array items)) = _
  rw [List.map_map, List.map_map]
  show (allOk ((ts.insertionSort (· ≤ ·)).map fun t => .ok (string t)) >>= _) = _
  rw [allOk_map_ok]
  rfl

end IoSource.Json

namespace IoSource.Value

/-! ### Plain documents -/

def asText : Value → Text
  | .text t => t
  | _ => []

mutual

/-- **The document that a value stands for.**  Values that have none stand for nothing. -/
def plain (sortKeys : Bool) : Value → Json
  | .bool b => .bool b
  | .int i => .int i
  | .float x => .float x
  | .text t => .string t
  | .list items | .tuple items => .array (plainItems sortKeys items)
  | .set elements => .array (((elements.map asText).insertionSort (· ≤ ·)).map .string)
  | .dict entries => .object (Json.arranged sortKeys (plainEntries sortKeys entries))
  | .path p => .string p.text
  | .category c => .string c.label.toList
  | .record fields => .object (Json.arranged sortKeys (plainFields sortKeys fields))
  | .null | .kind _ | .foreign .. => .null

def plainItems (sortKeys : Bool) : List Value → List Json
  | [] => []
  | value :: values => plain sortKeys value :: plainItems sortKeys values

def plainEntries (sortKeys : Bool) : List (Value × Value) → List (Text × Json)
  | [] => []
  | (key, value) :: entries => (key.asText, plain sortKeys value) :: plainEntries sortKeys entries

def plainFields (sortKeys : Bool) : List (Text × Value) → List (Text × Json)
  | [] => []
  | (name, value) :: fields => (name, plain sortKeys value) :: plainFields sortKeys fields

end

theorem plainItems_eq (sortKeys : Bool) (items : List Value) :
    plainItems sortKeys items = items.map (plain sortKeys) := by
  induction items with
  | nil => rfl
  | cons item items ih => rw [plainItems, ih, List.map_cons]

theorem plainEntries_eq (sortKeys : Bool) (entries : List (Text × Value)) :
    plainEntries sortKeys (entries.map fun e => (.text e.1, e.2)) =
      entries.map fun e => (e.1, plain sortKeys e.2) := by
  induction entries with
  | nil => rfl
  | cons e entries ih => rw [List.map_cons, plainEntries, ih, List.map_cons, asText]

theorem plainFields_eq (sortKeys : Bool) (fields : List (Text × Value)) :
    plainFields sortKeys fields = fields.map fun f => (f.1, plain sortKeys f.2) := by
  induction fields with
  | nil => rfl
  | cons f fields ih => rw [plainFields, ih, List.map_cons]

/-! ### Writable values -/

/-- The values that JSON has a form for: nothing, truth values, integers of no more digits than may be
written, texts, paths and categories, sets of texts, and lists, tuples, dictionaries with texts for
keys and results of writable values. -/
inductive IsWritable : Value → Prop
  | null : IsWritable .null
  | bool (b : Bool) : IsWritable (.bool b)
  | int {i : Int} (h : i.natAbs < Nat.pow 10 Number.maxDecimalDigits) : IsWritable (.int i)
  | text (t : Text) : IsWritable (.text t)
  | list {items : List Value} (h : ∀ v ∈ items, IsWritable v) : IsWritable (.list items)
  | tuple {items : List Value} (h : ∀ v ∈ items, IsWritable v) : IsWritable (.tuple items)
  | set (ts : List Text) : IsWritable (.set (ts.map .text))
  | dict {entries : List (Text × Value)} (h : ∀ e ∈ entries, IsWritable e.2) :
      IsWritable (.dict (entries.map fun e => (.text e.1, e.2)))
  | path (p : Path) : IsWritable (.path p)
  | category (c : Category) : IsWritable (.category c)
  | record {fields : List (Text × Value)} (h : ∀ f ∈ fields, IsWritable f.2) :
      IsWritable (.record fields)

end IoSource.Value

namespace IoSource.Json

theorem ofValue_set (sortKeys : Bool) (ts : List Text) :
    ofValue sortKeys (.set (ts.map .text)) =
      .ok (array ((ts.insertionSort (· ≤ ·)).map string)) := by
  have helements : (ts.map Value.text).zip (ofItems sortKeys (ts.map .text)) =
      ts.map fun t => (.text t, .ok (string t)) := by
    rw [ofItems_eq, List.map_map, List.zip_map']
    rfl
  rw [ofValue, helements, ofElements_text]

theorem ofValue_dict (sortKeys : Bool) (entries : List (Text × Value)) :
    ofValue sortKeys (.dict (entries.map fun e => (.text e.1, e.2))) =
      ofEntries sortKeys (entries.map fun e => (.text e.1, ofValue sortKeys e.2)) := by
  rw [ofValue, ofValues_eq, List.map_map, List.map_map, List.zip_map']
  rfl

theorem ofValue_record (sortKeys : Bool) (fields : List (Text × Value)) :
    ofValue sortKeys (.record fields) =
      ofEntries sortKeys (fields.map fun f => (.text f.1, ofValue sortKeys f.2)) := by
  rw [ofValue, ofFields_eq, List.zip_map']

theorem ofItems_plain {sortKeys : Bool} {items : List Value}
    (h : ∀ v ∈ items, ofValue sortKeys v = .ok (v.plain sortKeys)) :
    allOk (ofItems sortKeys items) = .ok (Value.plainItems sortKeys items) := by
  have hitems : ofItems sortKeys items = items.map fun v => .ok (v.plain sortKeys) := by
    rw [ofItems_eq]
    exact List.map_congr_left h
  rw [hitems, allOk_map_ok, Value.plainItems_eq]

theorem ofEntries_plain {sortKeys : Bool} {pairs : List (Text × Value)}
    (h : ∀ p ∈ pairs, ofValue sortKeys p.2 = .ok (p.2.plain sortKeys)) :
    ofEntries sortKeys (pairs.map fun p => (.text p.1, ofValue sortKeys p.2)) =
      .ok (object (arranged sortKeys (pairs.map fun p => (p.1, p.2.plain sortKeys)))) := by
  have hpairs : (pairs.map fun p => (Value.text p.1, ofValue sortKeys p.2)) =
      ((pairs.map fun p => (p.1, p.2.plain sortKeys)).map fun p =>
        (p.1, (.ok p.2 : Except WriteError Json))).map fun p => (.text p.1, p.2) := by
    rw [List.map_map, List.map_map]
    exact List.map_congr_left fun p hp => by simp [h p hp]
  rw [hpairs, ofEntries_text, arranged_map, List.map_map]
  show (allOk ((arranged sortKeys _).map fun p => .ok (p.1, p.2))).map object = _
  rw [allOk_map_ok]
  simp [Except.map]

/-- **The document of a writable value** is the one it stands for. -/
theorem ofValue_eq_plain (sortKeys : Bool) {v : Value} (h : v.IsWritable) :
    ofValue sortKeys v = .ok (v.plain sortKeys) := by
  induction h with
  | null => rfl
  | bool b => rfl
  | @int i hsize =>
    have hprintable : (Number.decimalInt? i).isSome = true := by
      rw [Number.decimalInt?, if_pos hsize]
      rfl
    simp only [ofValue, hprintable, if_true, Value.plain]
  | text t => rfl
  | list _ ih =>
    rw [ofValue, ofItems_plain ih]
    rfl
  | tuple _ ih =>
    rw [ofValue, ofItems_plain ih]
    rfl
  | set ts =>
    rw [ofValue_set]
    simp [Value.plain, Value.asText, Function.comp_def]
  | @dict entries _ ih =>
    rw [ofValue_dict, ofEntries_plain ih, Value.plain, Value.plainEntries_eq]
  | path p => rfl
  | category c => rfl
  | @record fields _ ih =>
    rw [ofValue_record, ofEntries_plain ih, Value.plain, Value.plainFields_eq]

theorem mem_arranged {α : Type} {sortKeys : Bool} {pairs : List (Text × α)} {p : Text × α} :
    p ∈ arranged sortKeys pairs ↔ p ∈ pairs := by
  cases sortKeys with
  | false => exact Iff.rfl
  | true => exact (perm_sortedByKey pairs).mem_iff

theorem isExact_plain (sortKeys : Bool) {v : Value} (h : v.IsWritable) :
    (v.plain sortKeys).IsExact := by
  have harray : ∀ {items : List Value}, (∀ v ∈ items, (v.plain sortKeys).IsExact) →
      (array (Value.plainItems sortKeys items)).IsExact := by
    intro items hitems
    rw [Value.plainItems_eq]
    refine .array fun json hjson => ?_
    obtain ⟨v, hv, rfl⟩ := List.mem_map.mp hjson
    exact hitems v hv
  have hobject : ∀ {pairs : List (Text × Value)}, (∀ p ∈ pairs, (p.2.plain sortKeys).IsExact) →
      (object (arranged sortKeys (pairs.map fun p => (p.1, p.2.plain sortKeys)))).IsExact := by
    intro pairs hpairs
    refine .object fun m hm => ?_
    obtain ⟨p, hp, rfl⟩ := List.mem_map.mp (mem_arranged.mp hm)
    exact hpairs p hp
  induction h with
  | null => exact .null
  | bool b => exact .bool b
  | @int i _ => exact .int i
  | text t => exact .string t
  | list _ ih => exact harray ih
  | tuple _ ih => exact harray ih
  | set ts =>
    refine .array fun json hjson => ?_
    obtain ⟨t, -, rfl⟩ := List.mem_map.mp hjson
    exact .string t
  | dict _ ih =>
    rw [Value.plain, Value.plainEntries_eq]
    exact hobject ih
  | path p => exact .string p.text
  | category c => exact .string c.label.toList
  | record _ ih =>
    rw [Value.plain, Value.plainFields_eq]
    exact hobject ih

end IoSource.Json

namespace IoSource

/-! ### Results are writable -/

theorem Value.IsWritable.nat {n : Nat} (h : n < Nat.pow 10 Number.maxDecimalDigits) :
    IsWritable (.int n) :=
  .int h

theorem Span.isWritable_toValue {span : Span}
    (hstart : span.start < Nat.pow 10 Number.maxDecimalDigits)
    (hstop : span.stop < Nat.pow 10 Number.maxDecimalDigits) : span.toValue.IsWritable := by
  refine .record ?_
  simp only [List.forall_mem_cons, field]
  exact ⟨.nat hstart, .nat hstop, .text _, .text _, by simp⟩

theorem LineIndent.isWritable_toValue {line : LineIndent}
    (hnumber : line.number < Nat.pow 10 Number.maxDecimalDigits)
    (hcurrent : line.current < Nat.pow 10 Number.maxDecimalDigits)
    (hestimated : line.estimated < Nat.pow 10 Number.maxDecimalDigits) :
    line.toValue.IsWritable := by
  refine .record ?_
  simp only [List.forall_mem_cons, field]
  exact ⟨.nat hnumber, .nat hcurrent, .nat hestimated, .text _, by simp⟩

theorem IndentReport.isWritable_toValueListing {report : IndentReport} {listed : List LineIndent}
    (hwidth : report.tabWidth < Nat.pow 10 Number.maxDecimalDigits)
    (hlisted : ∀ line ∈ listed, line.toValue.IsWritable)
    (hcount : report.lines.length < Nat.pow 10 Number.maxDecimalDigits) :
    (report.toValueListing listed).IsWritable := by
  have hchanged : (report.lines.filter LineIndent.isChanged).length <
      Nat.pow 10 Number.maxDecimalDigits :=
    Nat.lt_of_le_of_lt (List.length_filter_le _ _) hcount
  have hvalues : ∀ v ∈ listed.map LineIndent.toValue, v.IsWritable := by
    simpa using hlisted
  refine .record ?_
  simp only [List.forall_mem_cons, field]
  refine ⟨.text _, .nat hwidth, .list hvalues, .record ?_, by simp⟩
  simp only [List.forall_mem_cons]
  exact ⟨.nat hcount, .nat hchanged, by simp⟩

theorem IndentReport.isWritable_toValue {report : IndentReport}
    (hwidth : report.tabWidth < Nat.pow 10 Number.maxDecimalDigits)
    (hlines : ∀ line ∈ report.lines, line.toValue.IsWritable)
    (hcount : report.lines.length < Nat.pow 10 Number.maxDecimalDigits) :
    report.toValue.IsWritable :=
  isWritable_toValueListing hwidth hlines hcount

namespace HighlightReport

theorem le_of_mem_count {counts : List (Category × Nat)} {n : Nat} (h : ∀ p ∈ counts, p.2 ≤ n)
    (category : Category) : ∀ p ∈ count counts category, p.2 ≤ n + 1 := by
  induction counts with
  | nil => simp [count]
  | cons q counts ih =>
    obtain ⟨hq, hcounts⟩ := List.forall_mem_cons.mp h
    rw [count]
    split
    · simp only [List.forall_mem_cons]
      exact ⟨Nat.succ_le_succ hq, fun p hp => Nat.le_succ_of_le (hcounts p hp)⟩
    · simp only [List.forall_mem_cons]
      exact ⟨Nat.le_succ_of_le hq, ih hcounts⟩

theorem le_of_mem_counts {report : HighlightReport} {p : Category × Nat}
    (hp : p ∈ report.counts) : p.2 ≤ report.spans.length := by
  have hfold : ∀ (spans : List Span) (counts : List (Category × Nat)) (n : Nat),
      (∀ p ∈ counts, p.2 ≤ n) →
        ∀ p ∈ spans.foldl (fun counts span => count counts span.category) counts,
          p.2 ≤ n + spans.length := by
    intro spans
    induction spans with
    | nil => exact fun counts n h => h
    | cons span spans ih =>
      intro counts n h p hp
      have := ih _ (n + 1) (le_of_mem_count h span.category) p hp
      rw [List.length_cons]
      omega
  have := hfold report.spans [] 0 (by simp) p hp
  omega

theorem isWritable_toValue {report : HighlightReport}
    (hspans : ∀ span ∈ report.spans, span.toValue.IsWritable)
    (hcount : report.spans.length < Nat.pow 10 Number.maxDecimalDigits) :
    report.toValue.IsWritable := by
  have hlisted : ∀ v ∈ report.spans.map Span.toValue, v.IsWritable := by simpa using hspans
  refine .record ?_
  simp only [List.forall_mem_cons, field]
  refine ⟨.text _, .list hlisted, .record fun f hf => ?_, by simp⟩
  obtain ⟨p, hp, rfl⟩ := List.mem_map.mp hf
  exact .nat (Nat.lt_of_le_of_lt (le_of_mem_counts hp) hcount)

end HighlightReport

end IoSource
