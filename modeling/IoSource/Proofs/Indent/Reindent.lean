import IoSource.Proofs.Indent.Columns
import IoSource.Proofs.Indent.Estimate
import IoSource.Proofs.Text.Runs
import Mathlib.Data.List.Forall2

/-!
# Lines that count alike

Of a line an estimate takes its columns and whether it is blank, and of the lines above it the columns
of the last two that are written (`estimateBelow_congr`).  So blank lines may come and go, and lines
may be indented with other blanks to the same column (`estimate_from_last_written`).

A blank line may hold more than the blanks that indent it, such as a no-break space.  Blanks are white
space, so another indentation leaves a line as blank as it was (`Reindented.isWhite_eq`).
-/

namespace IoSource

variable {tabWidth : Nat}

/-- The last two written lines in their order, or fewer if there are fewer. -/
def lastWritten (lines : List Text) : List Text := ((written lines).take 2).reverse

/-- Two lines that differ only in the blanks in front, which take the same columns. -/
def Reindented (tabWidth : Nat) (line line' : Text) : Prop :=
  ∃ run run' rest : Text, line = run ++ rest ∧ line' = run' ++ rest ∧
    (∀ c ∈ run, isBlank c = true) ∧ (∀ c ∈ run', isBlank c = true) ∧
    (∀ c ∈ rest.head?, isBlank c = false) ∧
    run.indentation tabWidth = run'.indentation tabWidth

/-! ### Written lines -/

theorem written_eq_iff {lines lines' : List Text} :
    written lines = written lines' ↔
      lines.filter (fun line => !line.isWhite) = lines'.filter fun line => !line.isWhite :=
  List.reverse_inj

theorem not_isWhite_of_mem_written {lines : List Text} {line : Text} (h : line ∈ written lines) :
    line.isWhite = false := by
  simpa using (List.mem_filter.mp (List.mem_reverse.mp h)).2

theorem written_lastWritten (lines : List Text) :
    written (lastWritten lines) = (written lines).take 2 := by
  have hall : ∀ line ∈ ((written lines).take 2).reverse, (!line.isWhite) = true := by
    intro line hline
    have hwritten := List.mem_of_mem_take (List.mem_reverse.mp hline)
    simpa using not_isWhite_of_mem_written hwritten
  rw [lastWritten, written, List.filter_eq_self.mpr hall, List.reverse_reverse]

theorem length_lastWritten_le (lines : List Text) : (lastWritten lines).length ≤ 2 := by
  rw [lastWritten, List.length_reverse]
  exact List.length_take_le 2 _

/-- The columns of the last two written lines are enough for an estimate. -/
theorem estimateBelow_congr {above above' : List Text} {line line' : Text}
    (habove : ((written above).take 2).map (Text.indentation tabWidth) =
      ((written above').take 2).map (Text.indentation tabWidth))
    (hwhite : line.isWhite = line'.isWhite)
    (hcolumns : line.indentation tabWidth = line'.indentation tabWidth) :
    estimateBelow tabWidth above line = estimateBelow tabWidth above' line' := by
  have hdepth : ∀ k, k < 2 → depthAbove tabWidth above k = depthAbove tabWidth above' k := by
    intro k hk
    have h := congrArg (fun columns => (columns[k]?).getD 0) habove
    simp only [List.getElem?_map, List.getElem?_take_of_lt hk] at h
    exact h
  unfold estimateBelow
  rw [hwhite, hcolumns, hdepth 0 (by decide), hdepth 1 (by decide)]

/-! ### Other blanks in front -/

theorem Text.isWhite_append {run : Text} (hrun : ∀ c ∈ run, isBlank c = true) (rest : Text) :
    Text.isWhite (run ++ rest) = rest.isWhite := by
  have hall : run.all isSpace = true :=
    List.all_eq_true.mpr fun c hc => isSpace_of_isBlank (hrun c hc)
  rw [Text.isWhite, List.all_append, hall, Bool.true_and, Text.isWhite]

theorem Text.isWhite_dropWhile (line : Text) :
    Text.isWhite (line.dropWhile isBlank) = line.isWhite := by
  have hblanks : ∀ c ∈ line.takeWhile isBlank, isBlank c = true := fun c hc =>
    List.mem_takeWhile_imp hc
  rw [← Text.isWhite_append hblanks, List.takeWhile_append_dropWhile]

namespace Reindented

variable {line line' : Text}

theorem refl (line : Text) : Reindented tabWidth line line := by
  have hsplit : line = line.takeWhile isBlank ++ line.dropWhile isBlank :=
    List.takeWhile_append_dropWhile.symm
  have hrun : ∀ c ∈ line.takeWhile isBlank, isBlank c = true := fun c hc =>
    List.mem_takeWhile_imp hc
  exact ⟨_, _, _, hsplit, hsplit, hrun, hrun, Text.not_of_mem_head?_dropWhile isBlank line, rfl⟩

theorem isWhite_eq (h : Reindented tabWidth line line') : line.isWhite = line'.isWhite := by
  obtain ⟨run, run', rest, rfl, rfl, hrun, hrun', -, -⟩ := h
  rw [Text.isWhite_append hrun, Text.isWhite_append hrun']

theorem indentation_eq (h : Reindented tabWidth line line') :
    line.indentation tabWidth = line'.indentation tabWidth := by
  obtain ⟨run, run', rest, rfl, rfl, hrun, hrun', hrest, hcolumns⟩ := h
  rw [Text.indentation_append hrun hrest, Text.indentation_append hrun' hrest, hcolumns]

end Reindented

theorem map_indentation_written {lines lines' : List Text}
    (h : List.Forall₂ (Reindented tabWidth) lines lines') :
    (written lines).map (Text.indentation tabWidth) =
      (written lines').map (Text.indentation tabWidth) := by
  have hfilter : (lines.filter fun line => !line.isWhite).map (Text.indentation tabWidth) =
      (lines'.filter fun line => !line.isWhite).map (Text.indentation tabWidth) := by
    induction h with
    | nil => rfl
    | @cons line line' lines lines' hline _ ih =>
      rw [List.filter_cons, List.filter_cons, hline.isWhite_eq]
      split
      · rw [List.map_cons, List.map_cons, hline.indentation_eq, ih]
      · exact ih
  rw [written, written, List.map_reverse, List.map_reverse, hfilter]

/-- **An estimate comes from the last two written lines and from columns.**  It is the same below
these two lines alone; so it is the same below any lines of which the same ones are written, wherever
blank lines are put in or left out.  And it is the same if lines, the one in question among them, are
indented with other blanks to the same columns. -/
theorem estimate_from_last_written [Platform] (tabWidth : Nat) (hpos : 0 < tabWidth)
    (lines : List Text) (hlength : lines.length ≤ maxIndex + 1) (line : Text) :
    ∃ width, estimateIndent (.buffer lines) line (.int tabWidth) = .ok width ∧
      estimateIndent (.buffer (lastWritten lines)) line (.int tabWidth) = .ok width ∧
      (∀ lines' : List Text, lines'.length ≤ maxIndex + 1 →
        (lines'.filter fun line => !line.isWhite) = (lines.filter fun line => !line.isWhite) →
        estimateIndent (.buffer lines') line (.int tabWidth) = .ok width) ∧
      ∀ (lines' : List Text) (line' : Text), List.Forall₂ (Reindented tabWidth) lines lines' →
        Reindented tabWidth line line' →
        estimateIndent (.buffer lines') line' (.int tabWidth) = .ok width := by
  have hestimate : ∀ (lines' : List Text) (line' : Text), lines'.length ≤ maxIndex + 1 →
      estimateBelow tabWidth lines' line' = estimateBelow tabWidth lines line →
      estimateIndent (.buffer lines') line' (.int tabWidth) =
        .ok (estimateBelow tabWidth lines line) := by
    intro lines' line' hlength' hsame
    rw [estimateIndent_eq (History.reads_buffer hlength') hpos, hsame]
  refine ⟨estimateBelow tabWidth lines line, hestimate lines line hlength rfl, ?_, ?_, ?_⟩
  · refine hestimate _ _ ?_ (estimateBelow_congr ?_ rfl rfl)
    · exact Nat.le_trans (length_lastWritten_le lines) (by decide)
    · rw [written_lastWritten, List.take_take, Nat.min_self]
  · intro lines' hlength' hwritten
    refine hestimate _ _ hlength' (estimateBelow_congr ?_ rfl rfl)
    rw [written_eq_iff.mpr hwritten]
  · intro lines' line' hlines hline
    refine hestimate _ _ ?_ (estimateBelow_congr ?_ hline.isWhite_eq.symm hline.indentation_eq.symm)
    · rwa [← hlines.length_eq]
    · rw [List.map_take, List.map_take, map_indentation_written hlines]

open Platform.Usual in
/-- The blank lines in between hold a no-break space and a vertical tab. -/
theorem estimate_from_last_written_tabs :
    let lines := [['x'], ['\t', ' ', 'y'], ['\u00A0'], [' ', 'z'], ['\t', '\x0B']]
    let lines' := [['x'], [' ', ' ', ' ', ' ', ' ', 'y'], ['\u00A0'], [' ', 'z'], [' ', '\t', '\x0B']]
    0 < 4 ∧ lines.length ≤ maxIndex + 1 ∧ List.Forall₂ (Reindented 4) lines lines' ∧
      estimateIndent (.buffer lines) [] (.int 4) = .ok 5 ∧
      estimateIndent (.buffer [['\t', ' ', 'y'], [' ', 'z']]) [] (.int 4) = .ok 5 ∧
      estimateIndent (.buffer lines') [] (.int 4) = .ok 5 := by
  intro lines lines'
  have hpos : 0 < 4 := by decide
  have hlength : lines.length ≤ maxIndex + 1 := by decide
  have hlines : List.Forall₂ (Reindented 4) lines lines' := by
    refine .cons (.refl _) (.cons ?_ (.cons (.refl _) (.cons (.refl _) (.cons ?_ .nil))))
    · exact ⟨['\t', ' '], [' ', ' ', ' ', ' ', ' '], ['y'], rfl, rfl, by simp [isBlank],
        by simp [isBlank], by simp [isBlank], rfl⟩
    · exact ⟨['\t'], [' ', '\t'], ['\x0B'], rfl, rfl, by simp [isBlank], by simp [isBlank],
        by simp [isBlank], rfl⟩
  obtain ⟨width, hwidth, hlast, -, hother⟩ := estimate_from_last_written 4 hpos lines hlength []
  obtain rfl : 5 = width := Except.ok.inj hwidth
  exact ⟨hpos, hlength, hlines, hwidth, hlast, hother lines' [] hlines (.refl [])⟩

end IoSource
