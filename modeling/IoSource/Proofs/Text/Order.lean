import IoSource.Text.Order
import Mathlib.Data.Char
import Mathlib.Data.List.Lex
import Mathlib.Data.List.NodupEquivFin
import Mathlib.Data.List.Sort

/-!
# Sorting by texts

Texts are in the order of dictionaries, by code points (`Text.before_iff`).  So a list that is sorted
by texts can always be sorted (`sorted?_map`), and if no key stands in it twice the result does not
depend on the order that the list had before (`insertionSort_eq_of_perm`).
-/

namespace IoSource

theorem Text.before_iff {s t : Text} : Text.before s t = true ↔ s < t := by
  induction s generalizing t with
  | nil =>
    cases t with
    | nil => simp [Text.before]
    | cons d t => simp [Text.before]
  | cons c s ih =>
    cases t with
    | nil => simp [Text.before]
    | cons d t =>
      rw [Text.before, List.cons_lt_cons_iff]
      by_cases hcd : c = d
      · rw [if_pos hcd, ih]
        simp [hcd]
      · rw [if_neg hcd, decide_eq_true_iff]
        simp only [hcd, false_and, or_false]
        exact Iff.rfl

theorem Text.before_eq (s t : Text) : Text.before t s = !decide (s ≤ t) := by
  rw [Bool.eq_iff_iff, Text.before_iff]
  simp

/-! ### Sorting what can be compared -/

section
variable {α β : Type} {before? : α → α → Option Bool} {r : β → β → Prop} [DecidableRel r]
  {g : β → α}

theorem insertSorted?_map (h : ∀ x y, before? (g y) (g x) = some (!decide (r x y))) (x : β)
    (ys : List β) : insertSorted? before? (g x) (ys.map g) = some ((ys.orderedInsert r x).map g) := by
  induction ys with
  | nil => rfl
  | cons y ys ih =>
    rw [List.map_cons, insertSorted?, h, List.orderedInsert_cons]
    by_cases hxy : r x y
    · simp [hxy]
    · simp [hxy, ih]

/-- **Sorting never refuses** where any two elements can be compared, and it is the stable sort. -/
theorem sorted?_map (h : ∀ x y, before? (g y) (g x) = some (!decide (r x y))) (xs : List β) :
    sorted? before? (xs.map g) = some ((xs.insertionSort r).map g) := by
  induction xs with
  | nil => rfl
  | cons x xs ih =>
    rw [List.map_cons, sorted?, ih]
    exact insertSorted?_map h x _

end

/-- **Sorting forgets the order** that a list had, if only equal elements are equally great. -/
theorem insertionSort_eq_of_perm {α : Type} {r : α → α → Prop} [DecidableRel r] [Std.Total r]
    [IsTrans α r] {xs ys : List α} (h : xs.Perm ys)
    (hr : ∀ x ∈ xs, ∀ y ∈ xs, r x y → r y x → x = y) :
    xs.insertionSort r = ys.insertionSort r := by
  have hxs := List.perm_insertionSort r xs
  have hys := List.perm_insertionSort r ys
  refine List.Perm.eq_of_pairwise ?_ (List.pairwise_insertionSort r xs)
    (List.pairwise_insertionSort r ys) (hxs.trans (h.trans hys.symm))
  intro x y hx hy hxy hyx
  exact hr x (hxs.mem_iff.mp hx) y (h.mem_iff.mpr (hys.mem_iff.mp hy)) hxy hyx

/-! ### Sorting by keys -/

/-- Pairs in the order of their keys; those with the same key keep their places. -/
def sortedByKey {α : Type} (pairs : List (Text × α)) : List (Text × α) :=
  pairs.insertionSort fun p q => p.1 ≤ q.1

section
variable {α β : Type} {pairs pairs' : List (Text × α)}

theorem perm_sortedByKey (pairs : List (Text × α)) : (sortedByKey pairs).Perm pairs :=
  List.perm_insertionSort _ pairs

instance : Std.Total fun p q : Text × α => p.1 ≤ q.1 := ⟨fun p q => le_total p.1 q.1⟩

instance : IsTrans (Text × α) fun p q => p.1 ≤ q.1 := ⟨fun _ _ _ => le_trans⟩

theorem sortedByKey_map (f : α → β) (pairs : List (Text × α)) :
    sortedByKey (pairs.map fun p => (p.1, f p.2)) =
      (sortedByKey pairs).map fun p => (p.1, f p.2) :=
  (List.map_insertionSort (fun p q : Text × α => p.1 ≤ q.1) (fun p q : Text × β => p.1 ≤ q.1)
    (fun p => (p.1, f p.2)) pairs fun _ _ _ _ => Iff.rfl).symm

/-- Where each key determines what belongs to it, the keys are sorted. -/
theorem sortedByKey_keys (f : Text → α) (ts : List Text) :
    sortedByKey (ts.map fun t => (t, f t)) =
      (ts.insertionSort (· ≤ ·)).map fun t => (t, f t) :=
  (List.map_insertionSort (fun s t : Text => s ≤ t) (fun p q : Text × α => p.1 ≤ q.1)
    (fun t => (t, f t)) ts fun _ _ _ _ => Iff.rfl).symm

theorem sortedByKey_eq_of_perm (h : pairs.Perm pairs')
    (hkeys : ∀ p ∈ pairs, ∀ q ∈ pairs, p.1 = q.1 → p = q) :
    sortedByKey pairs = sortedByKey pairs' :=
  insertionSort_eq_of_perm h fun p hp q hq hpq hqp => hkeys p hp q hq (le_antisymm hpq hqp)

end

end IoSource
