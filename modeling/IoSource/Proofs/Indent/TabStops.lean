import IoSource.Proofs.Indent.Columns
import IoSource.Proofs.Text.Runs
import Mathlib.Algebra.Ring.Nat

/-!
# Tab stops

Tabs cut the blanks in front of a line into runs of spaces.  A tab is at a tab stop when it has been
passed, so each run counts from there: it takes as many whole steps as it has in it, and one more
for its tab (`indentationFrom_tabbed`).  Only the spaces behind the last tab count one by one.

So the columns of a line come from the lengths of these runs (`measure_tabbed`), and as many spaces
in place of the blanks take the same columns.
-/

namespace IoSource.Text

variable {tabWidth : Nat}

/-- Runs of spaces with a tab behind each of them, and spaces behind the last tab. -/
def tabbed (runs : List Nat) (last : Nat) : Text :=
  runs.flatMap (fun n => List.replicate n ' ' ++ ['\t']) ++ List.replicate last ' '

/-- The columns up to the last tab stop that runs of spaces with tabs behind them lead to. -/
def stopBehind (tabWidth : Nat) (runs : List Nat) : Nat :=
  tabWidth * (runs.map fun n => n / tabWidth + 1).sum

theorem tabbed_cons (n : Nat) (runs : List Nat) (last : Nat) :
    tabbed (n :: runs) last = List.replicate n ' ' ++ '\t' :: tabbed runs last := by
  simp [tabbed]

theorem stopBehind_cons (tabWidth n : Nat) (runs : List Nat) :
    stopBehind tabWidth (n :: runs) = tabWidth * (n / tabWidth + 1) + stopBehind tabWidth runs := by
  rw [stopBehind, List.map_cons, List.sum_cons, Nat.mul_add]
  rfl

theorem isBlank_of_mem_tabbed {runs : List Nat} {last : Nat} :
    ∀ c ∈ tabbed runs last, isBlank c = true := by
  intro c hc
  rcases List.mem_append.mp hc with hc | hc
  · obtain ⟨n, -, hc⟩ := List.mem_flatMap.mp hc
    rcases List.mem_append.mp hc with hc | hc
    · rw [List.eq_of_mem_replicate hc]
      rfl
    · rw [List.mem_singleton.mp hc]
      rfl
  · rw [List.eq_of_mem_replicate hc]
    rfl

/-- **Blanks are runs of spaces with tabs between them.** -/
theorem exists_eq_tabbed {blanks : Text} (h : ∀ c ∈ blanks, isBlank c = true) :
    ∃ runs last, blanks = tabbed runs last := by
  induction blanks with
  | nil => exact ⟨[], 0, rfl⟩
  | cons c blanks ih =>
    obtain ⟨runs, last, rfl⟩ := ih fun d hd => h d (List.mem_cons_of_mem c hd)
    rcases (by simpa [isBlank] using h c List.mem_cons_self : c = ' ' ∨ c = '\t') with rfl | rfl
    · -- a space makes the first run longer
      cases runs with
      | nil => exact ⟨[], last + 1, by simp [tabbed, List.replicate_succ]⟩
      | cons n runs => exact ⟨(n + 1) :: runs, last, by simp [tabbed_cons, List.replicate_succ]⟩
    · exact ⟨0 :: runs, last, by simp [tabbed_cons]⟩

theorem add_tab_eq {column : Nat} (hstop : tabWidth ∣ column) (hpos : 0 < tabWidth) (n : Nat) :
    column + n + (tabWidth - (column + n) % tabWidth) =
      column + tabWidth * (n / tabWidth + 1) := by
  obtain ⟨steps, rfl⟩ := hstop
  have hlt : n % tabWidth < tabWidth := Nat.mod_lt n hpos
  have hdiv : tabWidth * (n / tabWidth) + n % tabWidth = n := Nat.div_add_mod n tabWidth
  rw [Nat.mul_add_mod, Nat.mul_succ]
  omega

/-- **Behind a tab the count starts at a tab stop**, which the runs in front of the last tab lead to
one after the other. -/
theorem indentationFrom_tabbed (hpos : 0 < tabWidth) {column : Nat} (hstop : tabWidth ∣ column)
    (runs : List Nat) (last : Nat) :
    indentationFrom tabWidth column (tabbed runs last) =
      column + stopBehind tabWidth runs + last := by
  induction runs generalizing column with
  | nil =>
    show indentationFrom tabWidth column (List.replicate last ' ') = column + tabWidth * 0 + last
    have h : indentationFrom tabWidth column (List.replicate last ' ' ++ []) = column + last :=
      indentationFrom_spaces_append last column []
    rwa [List.append_nil] at h
  | cons n runs ih =>
    have hnext : tabWidth ∣ column + tabWidth * (n / tabWidth + 1) :=
      Nat.dvd_add hstop (Nat.dvd_mul_right _ _)
    rw [tabbed_cons, indentationFrom_spaces_append, indentationFrom, add_tab_eq hstop hpos,
      ih hnext, stopBehind_cons, Nat.add_assoc column]

theorem indentation_tabbed_append (hpos : 0 < tabWidth) (runs : List Nat) (last : Nat) {rest : Text}
    (hrest : ∀ c ∈ rest.head?, isBlank c = false) :
    indentation tabWidth (tabbed runs last ++ rest) = stopBehind tabWidth runs + last := by
  rw [indentation_append isBlank_of_mem_tabbed hrest, indentation,
    indentationFrom_tabbed hpos (Nat.dvd_zero tabWidth), Nat.zero_add]

/-- **The columns of a line in closed form.**  In front of a line there are runs of spaces with tabs
between them, and behind these nothing, or a character that is no blank.  A run that ends with a tab
takes the whole steps in it and one more, and the last run takes its spaces, whatever stands behind
it.  So the line takes the same columns with as many spaces in place of all its blanks. -/
theorem measure_tabbed (tabWidth : Nat) (hpos : 0 < tabWidth) :
    (∀ line : Text, ∃ runs last rest, line = tabbed runs last ++ rest ∧
      ∀ c ∈ rest.head?, isBlank c = false) ∧
    ∀ (runs : List Nat) (last : Nat) (rest : Text), (∀ c ∈ rest.head?, isBlank c = false) →
      let line := tabbed runs last ++ rest
      let columns := tabWidth * (runs.map fun n => n / tabWidth + 1).sum + last
      let spaced := List.replicate columns ' ' ++ rest
      line.indentation tabWidth = columns ∧ line.measure (.int tabWidth) = .ok (.int columns) ∧
        indentation tabWidth spaced = columns ∧
        measure (.int tabWidth) spaced = .ok (.int columns) := by
  constructor
  · intro line
    have hblanks : ∀ c ∈ line.takeWhile isBlank, isBlank c = true := fun c hc =>
      List.mem_takeWhile_imp hc
    obtain ⟨runs, last, heq⟩ := exists_eq_tabbed hblanks
    refine ⟨runs, last, line.dropWhile isBlank, ?_, not_of_mem_head?_dropWhile isBlank line⟩
    rw [← heq, List.takeWhile_append_dropWhile]
  · intro runs last rest hrest line columns spaced
    have hline : line.indentation tabWidth = columns :=
      indentation_tabbed_append hpos runs last hrest
    have hspaced : indentation tabWidth spaced = columns := indentation_spaces_append columns hrest
    refine ⟨hline, ?_, hspaced, ?_⟩
    · rw [measure_natCast hpos, hline]
    · rw [measure_natCast hpos, hspaced]

/-- Three spaces do not reach the first tab stop, five pass it, and a no-break space is no blank. -/
theorem measure_tabbed_stops :
    let line : Text := "   \t     \t  \u00A0x".toList
    0 < 4 ∧ line = tabbed [3, 5] 2 ++ ['\u00A0', 'x'] ∧
      (∀ c ∈ (['\u00A0', 'x'] : Text).head?, isBlank c = false) ∧
      line.measure (.int 4) = .ok (.int 14) := by
  intro line
  have hpos : 0 < 4 := by decide
  have hline : line = tabbed [3, 5] 2 ++ ['\u00A0', 'x'] := by decide
  have hrest : ∀ c ∈ (['\u00A0', 'x'] : Text).head?, isBlank c = false := by
    intro c hc
    obtain rfl : '\u00A0' = c := Option.some.inj hc
    decide
  obtain ⟨-, hmeasure, -⟩ := (measure_tabbed 4 hpos).2 [3, 5] 2 ['\u00A0', 'x'] hrest
  refine ⟨hpos, hline, hrest, ?_⟩
  rw [hline]
  exact hmeasure

end IoSource.Text
