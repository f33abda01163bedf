import IoSource.Proofs.Files.Stored
import IoSource.Proofs.Indent.Edit
import IoSource.Proofs.Text.Lines

/-!
# Indentation from the lines above

Lines are estimated in a view of a buffer, indented in the buffer itself, and listed for a whole
file.  All three look at the lines above and at the line (`estimateIndent_upTo`,
`Edit.run_applyIndent_eq`, `IndentReport.getElem?_entries`), so the lines below do not matter
(`indented_from_above`).

Only an indentation in the buffer needs room for the spaces, and fails where there is none.
-/

namespace IoSource

variable {tabWidth : Nat}

/-! ### In a view and in a buffer -/

theorem estimateIndent_upTo [Platform] (hpos : 0 < tabWidth) {index : Nat} (hindex : index ≤ maxIndex)
    (lines : List Text) (line : Text) :
    estimateIndent (.upTo (.buffer lines) index) line (.int tabWidth) =
      .ok (estimateBelow tabWidth (lines.take index) line) :=
  estimateIndent_eq (History.reads_upTo lines (Nat.le_succ_of_le hindex)) hpos line

namespace Edit

variable [Platform]

/-- **Giving a line the indentation** that is estimated from the lines above it. -/
theorem run_applyIndent_eq (hpos : 0 < tabWidth) {index : Nat} (hindex : index ≤ maxIndex)
    {lines : Buffer} {line : Text} (hline : lines[index]? = some line) :
    (applyIndent index (.int tabWidth)).run.run lines =
      ((line.indentedBy (estimateBelow tabWidth (lines.take index) line)).1,
        lines.set index (line.indentedBy (estimateBelow tabWidth (lines.take index) line)).2) :=
  run_applyIndent_of_estimate
    (bufferLine_eq_ok_iff.mpr ⟨(isIndex_natCast index).mpr hindex, hline⟩)
    (estimateIndent_upTo hpos hindex lines line)

theorem run_applyIndent_tooLarge {index : Nat} (hindex : maxIndex < index) (tabWidth : Value)
    (lines : Buffer) :
    (applyIndent index tabWidth).run.run lines = (.error .indexTooLarge, lines) := by
  unfold applyIndent
  rw [run_bind, run_lineAt, bufferLine_tooLarge hindex]

end Edit

/-! ### In a report -/

theorem mapM_eq_ok {α β ε : Type} {f : α → Except ε β} {g : α → β} {l : List α}
    (h : ∀ x ∈ l, f x = .ok (g x)) : l.mapM f = .ok (l.map g) := by
  induction l with
  | nil => rfl
  | cons x l ih =>
    rw [List.mapM_cons, h x List.mem_cons_self, ih fun y hy => h y (List.mem_cons_of_mem x hy)]
    rfl

namespace IndentReport

def entries (tabWidth : Nat) (lines : List Text) : List LineIndent :=
  lines.zipIdx.map fun (line, index) =>
    ⟨index + 1, line.indentation tabWidth, estimateBelow tabWidth (lines.take index) line, line⟩

theorem getElem?_entries (tabWidth : Nat) (lines : List Text) (i : Nat) :
    (entries tabWidth lines)[i]? = lines[i]?.map fun line =>
      ⟨i + 1, line.indentation tabWidth, estimateBelow tabWidth (lines.take i) line, line⟩ := by
  rw [entries, List.getElem?_map, List.getElem?_zipIdx, Option.map_map, Nat.zero_add]
  rfl

theorem length_entries (tabWidth : Nat) (lines : List Text) :
    (entries tabWidth lines).length = lines.length := by
  rw [entries, List.length_map, List.length_zipIdx]

/-- **The first lines have the first entries.** -/
theorem entries_take (tabWidth : Nat) (lines : List Text) (k : Nat) :
    entries tabWidth (lines.take k) = (entries tabWidth lines).take k := by
  refine List.ext_getElem? fun i => ?_
  rw [getElem?_entries]
  by_cases hi : i < k
  · rw [List.getElem?_take_of_lt hi, List.getElem?_take_of_lt hi, getElem?_entries, List.take_take,
      Nat.min_eq_left (Nat.le_of_lt hi)]
  · rw [List.getElem?_take_eq_none (by omega), List.getElem?_take_eq_none (by omega)]
    rfl

variable [Platform]

theorem ofLines_eq (hpos : 0 < tabWidth) {lines : List Text}
    (hlength : lines.length ≤ maxIndex + 1) :
    ofLines tabWidth lines = .ok (entries tabWidth lines) := by
  refine mapM_eq_ok ?_
  rintro ⟨line, index⟩ hmem
  obtain ⟨hlt, -⟩ := List.getElem?_eq_some_iff.mp (List.mk_mem_zipIdx_iff_getElem?.mp hmem)
  show lineIndent tabWidth lines index line = _
  unfold lineIndent
  rw [estimateIndent_upTo hpos (by omega)]
  rfl

/-- **The report on a file** has the entries for the lines of its text. -/
theorem ofFile_of_readSource (hpos : 0 < tabWidth) {tree : FileTree} {path : Path} {t : Text}
    {options : ProcessingOptions} (htab : options.tabWidth = .int tabWidth)
    (hread : readSource tree "Indentation estimate".toList path options = .ok t)
    (hlength : t.lines.length ≤ maxIndex + 1) :
    ofFile tree path options = .ok ⟨path, tabWidth, entries tabWidth t.lines⟩ := by
  rw [ofFile, htab, checkTabWidth_natCast hpos, hread]
  show (do return ⟨path, tabWidth, ← (ofLines tabWidth t.lines).mapError
    ReportError.badTabWidth⟩ : Except ReportError IndentReport) = _
  rw [ofLines_eq hpos hlength]
  rfl

theorem ofFile_encode (hpos : 0 < tabWidth) {tree : FileTree} {path : Path} {names : List Text}
    {t : Text} {options : ProcessingOptions}
    (hfile : tree.status path = .file names (Utf8.encode t))
    (htab : options.tabWidth = .int tabWidth) (hstrip : options.stripWhitespace.holds = false)
    (hlength : t.lines.length ≤ maxIndex + 1) :
    ofFile tree path options = .ok ⟨path, tabWidth, entries tabWidth t.lines⟩ := by
  have hread := readSource_encode hfile "Indentation estimate".toList options
  rw [hstrip] at hread
  rw [← Text.lines_unixLineEnds] at hlength ⊢
  exact ofFile_of_readSource hpos htab hread hlength

end IndentReport

/-! ### The lines below -/

/-- A call that gives a number of columns, unless there is no room for as many spaces. -/
def GivesIfRoom [Platform] (width : Nat) (outcome : Except EditError Nat) : Prop :=
  (width < roomLimit ∧ outcome = .ok width) ∨
    (roomLimit ≤ width ∧ ∃ cause, outcome = .error (.spaces cause))

theorem givesIfRoom_indentedBy [Platform] (width : Nat) (line : Text) :
    GivesIfRoom width (line.indentedBy width).1 := by
  rcases Text.indentedBy_cases width line with ⟨hroom, h⟩ | ⟨hwide, cause, h⟩
  · rw [h]
    exact Or.inl ⟨hroom, rfl⟩
  · rw [h]
    exact Or.inr ⟨hwide, cause, rfl⟩

open Edit

/-- Buffers that agree up to a line are treated alike there. -/
theorem run_applyIndent_congr [Platform] (hpos : 0 < tabWidth) {i : Nat} {lines lines' : Buffer}
    (hi : i < lines.length) (hi' : i < lines'.length)
    (hagree : lines.take (i + 1) = lines'.take (i + 1)) :
    ∃ outcome line,
      (applyIndent i (.int tabWidth)).run.run lines = (outcome, lines.set i line) ∧
      (applyIndent i (.int tabWidth)).run.run lines' = (outcome, lines'.set i line) ∧
      (i ≤ maxIndex → ∃ width, GivesIfRoom width outcome ∧
        estimateIndent (.upTo (.buffer lines) i) lines[i] (.int tabWidth) = .ok width ∧
        estimateIndent (.upTo (.buffer lines') i) lines'[i] (.int tabWidth) = .ok width) := by
  have habove : lines.take i = lines'.take i := by
    have h := congrArg (List.take i) hagree
    rwa [List.take_take, List.take_take, Nat.min_eq_left (Nat.le_succ i)] at h
  have hsame : lines[i] = lines'[i] := by
    have h := congrArg (·[i]?) hagree
    simpa [List.getElem?_take_of_lt (Nat.lt_succ_self i), hi, hi'] using h
  by_cases hindex : i ≤ maxIndex
  · have hrun := run_applyIndent_eq hpos hindex (List.getElem?_eq_getElem hi)
    have hrun' := run_applyIndent_eq hpos hindex (List.getElem?_eq_getElem hi')
    have hview := estimateIndent_upTo hpos hindex lines lines[i]
    rw [habove, hsame] at hrun hview
    refine ⟨_, _, hrun, hrun', fun _ => ⟨_, givesIfRoom_indentedBy _ _, ?_, ?_⟩⟩
    · rw [hsame]
      exact hview
    · exact estimateIndent_upTo hpos hindex lines' lines'[i]
  · refine ⟨.error .indexTooLarge, lines[i], ?_, ?_, fun h => absurd h hindex⟩
    · rw [List.set_getElem_self]
      exact run_applyIndent_tooLarge (Nat.lt_of_not_le hindex) _ lines
    · rw [hsame, List.set_getElem_self]
      exact run_applyIndent_tooLarge (Nat.lt_of_not_le hindex) _ lines'

/-- **Indentation comes from the lines above.**  Whatever stands below a line, it gets the same
indentation in a buffer, which is the one that is estimated in the view of the lines above; no other
line changes.  The report on a file estimates each of its lines as it would be indented in the
buffer of its lines, and the report on its first lines has the first entries.

Where there is no room for the spaces, indenting the line fails and changes nothing. -/
theorem indented_from_above [Platform] (tabWidth : Nat) (hpos : 0 < tabWidth) :
    (∀ (i : Nat) (lines lines' : Buffer) (hi : i < lines.length) (hi' : i < lines'.length),
      lines.take (i + 1) = lines'.take (i + 1) →
      ∃ outcome line,
        (applyIndent i (.int tabWidth)).run.run lines = (outcome, lines.set i line) ∧
        (applyIndent i (.int tabWidth)).run.run lines' = (outcome, lines'.set i line) ∧
        (i ≤ maxIndex → ∃ width, GivesIfRoom width outcome ∧
          estimateIndent (.upTo (.buffer lines) i) lines[i] (.int tabWidth) = .ok width ∧
          estimateIndent (.upTo (.buffer lines') i) lines'[i] (.int tabWidth) = .ok width)) ∧
    ∀ t : Text, t.lines.length ≤ maxIndex + 1 → ∀ options : ProcessingOptions,
      options.tabWidth = .int tabWidth → options.stripWhitespace.holds = false →
      ∀ tree path names, tree.status path = .file names (Utf8.encode t) →
      ∃ report, IndentReport.ofFile tree path options = .ok report ∧
        report.lines.length = t.lines.length ∧
        (∀ (i : Nat) entry, report.lines[i]? = some entry →
          GivesIfRoom entry.estimated ((applyIndent i (.int tabWidth)).run.run t.lines).1) ∧
        ∀ k tree' path' names',
          tree'.status path' = .file names' (Utf8.encode (t.endedLines.take k).flatten) →
          ∃ report', IndentReport.ofFile tree' path' options = .ok report' ∧
            report'.lines = report.lines.take k := by
  refine ⟨fun i lines lines' hi hi' => run_applyIndent_congr hpos hi hi', ?_⟩
  intro t hlength options htab hstrip tree path names hfile
  refine ⟨_, IndentReport.ofFile_encode hpos hfile htab hstrip hlength,
    IndentReport.length_entries tabWidth t.lines, ?_, ?_⟩
  · intro i entry hentry
    rw [IndentReport.getElem?_entries] at hentry
    obtain ⟨line, hline, rfl⟩ := Option.map_eq_some_iff.mp hentry
    obtain ⟨hlt, -⟩ := List.getElem?_eq_some_iff.mp hline
    rw [run_applyIndent_eq hpos (by omega) hline]
    exact givesIfRoom_indentedBy _ line
  · intro k tree' path' names' hfile'
    have hlines := Text.lines_take t k
    have hlength' : (Text.lines (t.endedLines.take k).flatten).length ≤ maxIndex + 1 := by
      rw [hlines, List.length_take]
      omega
    refine ⟨_, IndentReport.ofFile_encode hpos hfile' htab hstrip hlength', ?_⟩
    show IndentReport.entries tabWidth (Text.lines (t.endedLines.take k).flatten) = _
    rw [hlines, IndentReport.entries_take]

open Platform.Usual in
/-- What stands below the first line does not matter to it. -/
theorem indented_from_above_first :
    (∃ line,
      (applyIndent 0 (.int 8)).run.run [['x'], ['y']] = (.ok 8, [line, ['y']]) ∧
      (applyIndent 0 (.int 8)).run.run [['x'], ['z'], []] = (.ok 8, [line, ['z'], []])) ∧
    ∃ report, IndentReport.ofFile
        ⟨[], [([['a']], .file (Utf8.encode ['x', '\r', '\n', 'y']))]⟩ ⟨[], [['a']]⟩
        ⟨.int 8, .bool false⟩ = .ok report ∧ report.lines.length = 2 := by
  obtain ⟨hbuffers, hfiles⟩ := indented_from_above 8 (by decide)
  constructor
  · obtain ⟨outcome, line, hrun, hrun', hwidth⟩ :=
      hbuffers 0 [['x'], ['y']] [['x'], ['z'], []] (by decide) (by decide) rfl
    obtain ⟨width, hgives, hestimate, -⟩ := hwidth (Nat.zero_le _)
    obtain rfl : 8 = width := Except.ok.inj hestimate
    rcases hgives with ⟨-, rfl⟩ | ⟨hwide, -⟩
    · exact ⟨line, hrun, hrun'⟩
    · exact absurd hwide (by decide)
  · have hfile : (⟨[], [([['a']], .file (Utf8.encode ['x', '\r', '\n', 'y']))]⟩ : FileTree).status
        ⟨[], [['a']]⟩ = .file [['a']] (Utf8.encode ['x', '\r', '\n', 'y']) := by decide
    obtain ⟨report, hreport, hlength, -⟩ := hfiles ['x', '\r', '\n', 'y'] (by decide)
      ⟨.int 8, .bool false⟩ rfl rfl _ _ [['a']] hfile
    exact ⟨report, hreport, hlength⟩

open Platform.Usual in
/-- Where there is no room for it, a line is not indented as it is estimated. -/
theorem indentation_without_room :
    estimateIndent (.upTo (.buffer [['a']]) 0) ['a'] (.int (Nat.pow 2 70)) = .ok (Nat.pow 2 70) ∧
      ¬ ∃ width, ((applyIndent 0 (.int (Nat.pow 2 70))).run.run [['a']]).1 = .ok width := by
  have hpos : 0 < Nat.pow 2 70 := by decide
  have hline : ([['a']] : Buffer)[0]? = some ['a'] := rfl
  have hwidth : estimateBelow (Nat.pow 2 70) [] ['a'] = Nat.pow 2 70 := by decide
  have hestimate := estimateIndent_upTo hpos (Nat.zero_le _) [['a']] ['a']
  have hrun := congrArg Prod.fst (run_applyIndent_eq hpos (Nat.zero_le _) hline)
  rw [List.take_zero, hwidth] at hestimate hrun
  refine ⟨hestimate, ?_⟩
  rintro ⟨width, hresult⟩
  rcases givesIfRoom_indentedBy (Nat.pow 2 70) ['a'] with ⟨hroom, -⟩ | ⟨-, cause, hfails⟩
  · exact absurd hroom (by decide)
  · exact absurd (hresult.symm.trans (hrun.trans hfails)) (by simp)

end IoSource
