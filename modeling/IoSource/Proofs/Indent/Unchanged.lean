import IoSource.Proofs.Indent.Above

/-!
# Lines that a report leaves unchanged

An estimate moves almost every line: a line with columns, or with anything to be seen, goes one step
deeper or back to column zero.  Only an empty line can be where it is estimated, and it is if the
estimate sends it back to the margin (`StaysAtMargin`, `indentation_eq_estimateBelow_iff`).

So a report counts the lines without those (`IndentReport.reportsOn_entries`).
-/

namespace IoSource

variable {tabWidth : Nat}

/-- A blank line without columns, below a written line that is deeper than the one above it. -/
def StaysAtMargin (tabWidth : Nat) (above : List Text) (line : Text) : Prop :=
  line.isWhite = true ∧ line.indentation tabWidth = 0 ∧ written above ≠ [] ∧
    depthAbove tabWidth above 1 < depthAbove tabWidth above 0

instance (tabWidth : Nat) (above : List Text) (line : Text) :
    Decidable (StaysAtMargin tabWidth above line) :=
  inferInstanceAs (Decidable (_ ∧ _ ∧ _ ∧ _))

def stayingAtMargin (tabWidth : Nat) (lines : List Text) : Nat :=
  lines.zipIdx.countP fun (line, index) => StaysAtMargin tabWidth (lines.take index) line

/-! ### The next indentation -/

theorem nextIndentation_ne_self (hpos : 0 < tabWidth) (current previous : Nat) :
    nextIndentation tabWidth current previous ≠ current := by
  unfold nextIndentation
  split <;> omega

theorem nextIndentation_eq_zero_iff (hpos : 0 < tabWidth) {current previous : Nat} :
    nextIndentation tabWidth current previous = 0 ↔ previous < current := by
  unfold nextIndentation
  split
  · next h => exact iff_of_true rfl h
  · next h => exact iff_of_false (by omega) h

/-- **A line is where it is estimated** if and only if it stays at the margin. -/
theorem indentation_eq_estimateBelow_iff (hpos : 0 < tabWidth) (above : List Text) (line : Text) :
    line.indentation tabWidth = estimateBelow tabWidth above line ↔
      StaysAtMargin tabWidth above line := by
  unfold estimateBelow StaysAtMargin
  by_cases hopen : (line.isWhite && line.indentation tabWidth = 0) = true
  · obtain ⟨hwhite, hzero⟩ : line.isWhite = true ∧ line.indentation tabWidth = 0 := by
      simpa using hopen
    rw [if_pos hopen, hzero, eq_comm, nextIndentation_eq_zero_iff hpos]
    constructor
    · intro hdeeper
      refine ⟨hwhite, rfl, ?_, hdeeper⟩
      intro hnone
      rw [depthAbove_of_written_eq_nil hnone, depthAbove_of_written_eq_nil hnone] at hdeeper
      exact absurd hdeeper (Nat.lt_irrefl 0)
    · rintro ⟨-, -, -, hdeeper⟩
      exact hdeeper
  · rw [if_neg hopen]
    refine iff_of_false (nextIndentation_ne_self hpos _ _).symm ?_
    rintro ⟨hwhite, hzero, -⟩
    exact hopen (by simp [hwhite, hzero])

/-! ### Reports -/

/-- What a report says about the lines of a text. -/
structure IndentReport.ReportsOn (tabWidth : Nat) (lines : List Text) (report : IndentReport) :
    Prop where
  tabWidth_eq : report.tabWidth = tabWidth
  text : report.lines.map LineIndent.text = lines
  number : ∀ (i : Nat) entry, report.lines[i]? = some entry → entry.number = i + 1
  current : ∀ entry ∈ report.lines, entry.current = entry.text.indentation tabWidth
  unchanged_iff : ∀ (i : Nat) entry, report.lines[i]? = some entry →
    (entry.current = entry.estimated ↔ StaysAtMargin tabWidth (lines.take i) entry.text)
  changed : ∀ entry ∈ report.lines,
    entry.text.isWhite = false ∨ 0 < entry.text.indentation tabWidth → entry.isChanged = true
  count : (report.lines.filter LineIndent.isChanged).length + stayingAtMargin tabWidth lines =
    lines.length

namespace IndentReport

theorem ReportsOn.length_filter_isChanged {lines : List Text} {report : IndentReport}
    (h : report.ReportsOn tabWidth lines) :
    (report.lines.filter LineIndent.isChanged).length =
      lines.length - stayingAtMargin tabWidth lines :=
  Nat.eq_sub_of_add_eq h.count

theorem ReportsOn.length_eq {lines : List Text} {report : IndentReport}
    (h : report.ReportsOn tabWidth lines) : report.lines.length = lines.length := by
  rw [← h.text, List.length_map]

theorem ReportsOn.number_le {lines : List Text} {report : IndentReport}
    (h : report.ReportsOn tabWidth lines) {entry : LineIndent} (hmem : entry ∈ report.lines) :
    entry.number ≤ report.lines.length := by
  obtain ⟨i, hi⟩ := List.mem_iff_getElem?.mp hmem
  obtain ⟨hlt, -⟩ := List.getElem?_eq_some_iff.mp hi
  rw [h.number i entry hi]
  exact hlt

theorem length_filter_isChanged_entries (hpos : 0 < tabWidth) (lines : List Text) :
    ((entries tabWidth lines).filter LineIndent.isChanged).length + stayingAtMargin tabWidth lines =
      lines.length := by
  have htotal := List.length_eq_countP_add_countP (l := lines.zipIdx)
    fun (line, index) => decide (StaysAtMargin tabWidth (lines.take index) line)
  rw [List.length_zipIdx] at htotal
  rw [htotal, Nat.add_comm, stayingAtMargin, ← List.countP_eq_length_filter, entries,
    List.countP_map]
  refine congrArg _ (List.countP_congr ?_)
  rintro ⟨line, index⟩ -
  simp [LineIndent.isChanged, indentation_eq_estimateBelow_iff hpos]

/-- **A report changes every line but those that stay at the margin**, and counts so. -/
theorem reportsOn_entries (hpos : 0 < tabWidth) (path : Path) (lines : List Text) :
    ReportsOn tabWidth lines ⟨path, tabWidth, entries tabWidth lines⟩ := by
  have hentry : ∀ entry ∈ entries tabWidth lines, ∃ (i : Nat) (line : Text),
      lines[i]? = some line ∧ entry = ⟨i + 1, line.indentation tabWidth,
        estimateBelow tabWidth (lines.take i) line, line⟩ := by
    intro entry hmem
    obtain ⟨i, hi⟩ := List.mem_iff_getElem?.mp hmem
    rw [getElem?_entries] at hi
    obtain ⟨line, hline, rfl⟩ := Option.map_eq_some_iff.mp hi
    exact ⟨i, line, hline, rfl⟩
  refine ⟨rfl, ?text, ?number, ?current, ?unchanged, ?changed,
    length_filter_isChanged_entries hpos lines⟩
  case text =>
    refine List.ext_getElem? fun i => ?_
    rw [List.getElem?_map, getElem?_entries, Option.map_map]
    exact Option.map_id'
  case number =>
    intro i entry hi
    rw [getElem?_entries] at hi
    obtain ⟨line, -, rfl⟩ := Option.map_eq_some_iff.mp hi
    rfl
  case current =>
    intro entry hmem
    obtain ⟨i, line, -, rfl⟩ := hentry entry hmem
    rfl
  case unchanged =>
    intro i entry hi
    rw [getElem?_entries] at hi
    obtain ⟨line, -, rfl⟩ := Option.map_eq_some_iff.mp hi
    exact indentation_eq_estimateBelow_iff hpos _ _
  case changed =>
    intro entry hmem hseen
    obtain ⟨i, line, -, rfl⟩ := hentry entry hmem
    refine decide_eq_true fun hsame => ?_
    obtain ⟨hwhite, hzero, -⟩ := (indentation_eq_estimateBelow_iff hpos _ _).mp hsame
    rcases hseen with hnot | hcolumns
    · exact absurd (hwhite.symm.trans hnot) (by decide)
    · exact absurd hzero (Nat.ne_of_gt hcolumns)

theorem exists_reportsOn [Platform] (hpos : 0 < tabWidth) {tree : FileTree} {path : Path} {t : Text}
    {options : ProcessingOptions} (htab : options.tabWidth = .int tabWidth)
    (hread : readSource tree "Indentation estimate".toList path options = .ok t)
    (hlength : t.lines.length ≤ maxIndex + 1) :
    ∃ report, ofFile tree path options = .ok report ∧ report.ReportsOn tabWidth t.lines :=
  ⟨_, ofFile_of_readSource hpos htab hread hlength, reportsOn_entries hpos path t.lines⟩

end IndentReport

end IoSource
