import IoSource.Command.Task
import IoSource.Proofs.Command.Writes
import IoSource.Proofs.Indent.Unchanged
import IoSource.Proofs.Json.RoundTrip
import IoSource.Proofs.Run

/-!
# What an indentation report lists

A report says how many of its lines have changed, and the command that lists changed lines only lists
as many (`report_lists_changed_lines`).  It tells them apart by the same test, but on its way to the
standard output the list has to be written, and an integer of too many digits is not.  Then what is
written has to be taken.
-/

namespace IoSource

/-! ### Values that are not written -/

namespace Json

theorem exists_allOk_eq_error {α : Type} {results : List (Except WriteError α)} {e : WriteError}
    (h : .error e ∈ results) : ∃ e', allOk results = .error e' := by
  induction results with
  | nil => simp at h
  | cons result results ih =>
    cases result with
    | error e' => exact ⟨e', rfl⟩
    | ok x =>
      obtain ⟨e', he'⟩ := ih (by simpa using h)
      exact ⟨e', by rw [allOk, he']; rfl⟩

theorem exists_ofValue_list_eq_error {sortKeys : Bool} {items : List Value} {v : Value}
    (hv : v ∈ items) {e : WriteError} (h : ofValue sortKeys v = .error e) :
    ∃ e', ofValue sortKeys (.list items) = .error e' := by
  have hmem : .error e ∈ ofItems sortKeys items := by
    rw [ofItems_eq]
    exact List.mem_map.mpr ⟨v, hv, h⟩
  obtain ⟨e', he'⟩ := exists_allOk_eq_error hmem
  exact ⟨e', by rw [ofValue, he']; rfl⟩

theorem exists_ofValue_record_eq_error {sortKeys : Bool} {fields : List (Text × Value)}
    (name : String) {v : Value} (hv : field name v ∈ fields) {e : WriteError}
    (h : ofValue sortKeys v = .error e) : ∃ e', ofValue sortKeys (.record fields) = .error e' := by
  have hpairs : fields.map (fun f => (Value.text f.1, ofValue sortKeys f.2)) =
      (fields.map fun f => (f.1, ofValue sortKeys f.2)).map fun p => (.text p.1, p.2) := by
    rw [List.map_map]
    rfl
  have hmem : (.error e : Except WriteError (Text × Json)) ∈
      (arranged sortKeys (fields.map fun f => (f.1, ofValue sortKeys f.2))).map
        fun p => p.2.map fun json => (p.1, json) := by
    refine List.mem_map.mpr ⟨(name.toList, ofValue sortKeys v), mem_arranged.mpr ?_, ?_⟩
    · exact List.mem_map.mpr ⟨field name v, hv, rfl⟩
    · rw [h]
      rfl
  obtain ⟨e', he'⟩ := exists_allOk_eq_error hmem
  exact ⟨e', by rw [ofValue_record, hpairs, ofEntries_text, he']; rfl⟩

theorem ofValue_int_eq_error {sortKeys : Bool} {n : Nat}
    (h : ¬ n < Nat.pow 10 Number.maxDecimalDigits) :
    ofValue sortKeys (.int n) = .error .tooManyDigits := by
  have hdigits : Number.decimalInt? n = none := by
    rw [Number.decimalInt?, Int.natAbs_natCast, if_neg h]
  rw [ofValue, hdigits]
  rfl

end Json

/-! ### Listings -/

/-- A document lists some lines and says of how many that they have changed. -/
def Json.Lists (json : Json) (listed changed : Nat) : Prop :=
  ∃ members items summary, json = .object members ∧
    ("lines".toList, .array items) ∈ members ∧ items.length = listed ∧
    ("summary".toList, .object summary) ∈ members ∧
    ("lines_changed".toList, .int changed) ∈ summary

/-- The tab width of a report and the columns of some of its lines have decimal texts. -/
def IndentReport.HasDigits (report : IndentReport) (listed : List LineIndent) : Prop :=
  report.tabWidth < Nat.pow 10 Number.maxDecimalDigits ∧
    ∀ line ∈ listed, line.current < Nat.pow 10 Number.maxDecimalDigits ∧
      line.estimated < Nat.pow 10 Number.maxDecimalDigits

theorem IndentReport.hasDigits_of_le {report : IndentReport} {listed : List LineIndent}
    (hwidth : report.tabWidth ≤ 10) (h : ∀ line ∈ listed, line.current ≤ 10 ∧ line.estimated ≤ 10) :
    report.HasDigits listed := by
  have hten : 10 < Nat.pow 10 Number.maxDecimalDigits := by decide +kernel
  refine ⟨Nat.lt_of_le_of_lt hwidth hten, fun line hline => ?_⟩
  obtain ⟨hcurrent, hestimated⟩ := h line hline
  exact ⟨Nat.lt_of_le_of_lt hcurrent hten, Nat.lt_of_le_of_lt hestimated hten⟩

theorem IndentReport.exists_ofValue_toValueListing_eq_error {report : IndentReport}
    {listed : List LineIndent} (h : ¬ report.HasDigits listed) (sortKeys : Bool) :
    ∃ e, Json.ofValue sortKeys (report.toValueListing listed) = .error e := by
  by_cases hwidth : report.tabWidth < Nat.pow 10 Number.maxDecimalDigits
  · obtain ⟨line, hline, hcolumns⟩ : ∃ line ∈ listed,
        ¬ (line.current < Nat.pow 10 Number.maxDecimalDigits ∧
          line.estimated < Nat.pow 10 Number.maxDecimalDigits) := by
      by_contra hnone
      refine h ⟨hwidth, fun line hline => ?_⟩
      by_contra hcolumns
      exact hnone ⟨line, hline, hcolumns⟩
    obtain ⟨e, he⟩ : ∃ e, Json.ofValue sortKeys line.toValue = .error e := by
      by_cases hcurrent : line.current < Nat.pow 10 Number.maxDecimalDigits
      · have hestimated : ¬ line.estimated < Nat.pow 10 Number.maxDecimalDigits := fun hestimated =>
          hcolumns ⟨hcurrent, hestimated⟩
        exact Json.exists_ofValue_record_eq_error "estimated" (by simp)
          (Json.ofValue_int_eq_error hestimated)
      · exact Json.exists_ofValue_record_eq_error "current" (by simp)
          (Json.ofValue_int_eq_error hcurrent)
    obtain ⟨e', he'⟩ := Json.exists_ofValue_list_eq_error (List.mem_map.mpr ⟨line, hline, rfl⟩) he
    exact Json.exists_ofValue_record_eq_error "lines" (by simp) he'
  · exact Json.exists_ofValue_record_eq_error "tab_width" (by simp)
      (Json.ofValue_int_eq_error hwidth)

theorem Value.exists_plain_record (sortKeys : Bool) (fields : List (Text × Value)) :
    ∃ members, (Value.record fields).plain sortKeys = .object members ∧
      ∀ f ∈ fields, (f.1, f.2.plain sortKeys) ∈ members := by
  rw [Value.plain, Value.plainFields_eq]
  exact ⟨_, rfl, fun f hf => Json.mem_arranged.mpr (List.mem_map.mpr ⟨f, hf, rfl⟩)⟩

/-- The document of a report says how many lines have changed, whichever lines it lists. -/
theorem IndentReport.lists_toValueListing (report : IndentReport) (listed : List LineIndent)
    (sortKeys : Bool) :
    ((report.toValueListing listed).plain sortKeys).Lists listed.length
      (report.lines.filter LineIndent.isChanged).length := by
  obtain ⟨members, hmembers, hfields⟩ : ∃ members,
      (report.toValueListing listed).plain sortKeys = .object members ∧ _ :=
    Value.exists_plain_record sortKeys _
  simp only [field, List.forall_mem_cons] at hfields
  obtain ⟨-, -, hlines, hsummary, -⟩ := hfields
  obtain ⟨summary, hplain, hcounts⟩ := Value.exists_plain_record sortKeys [
    ("total_lines".toList, .int report.lines.length),
    ("lines_changed".toList, .int (report.lines.filter LineIndent.isChanged).length)]
  rw [hplain] at hsummary
  simp only [List.forall_mem_cons] at hcounts
  rw [Value.plain, Value.plainItems_eq] at hlines
  exact ⟨members, _, summary, hmembers, hlines, by simp, hsummary, hcounts.2.1⟩

theorem IndentReport.fits_toValueListing [Platform] (report : IndentReport)
    (listed : List LineIndent) (mode : WritingMode) :
    (report.toValueListing listed).fits mode = true := by
  rw [Value.fits_iff]
  refine Nat.le_trans (Nat.add_le_add_left ?_ _) (Platform.reports_fit mode)
  simp only [Value.callsOfFields_le_iff, List.forall_mem_cons, field, Value.calls]
  refine ⟨Nat.zero_le _, Nat.zero_le _, Nat.add_le_add_left ?lines _, ?summary, by simp⟩
  case lines =>
    rw [Value.callsOfItems_le_iff]
    intro v hv
    obtain ⟨line, -, rfl⟩ := List.mem_map.mp hv
    simp [LineIndent.toValue, field, Value.calls, Value.callsOfFields]
  case summary => simp [Value.callsOfFields, Value.calls]

namespace Task

variable [Platform] {config : Configuration} {tree : FileTree} {path : Path} {tabWidth : Nat}

theorem run_printResult_of_ok {result : Value} {t : Text} (h : written config result = .ok t)
    (htaken : Platform.outputFault? (t ++ ['\n']) = none) (activity : String) (output : Output) :
    (printResult config activity result).run.run output =
      (.ok ⟨0, none⟩, { output with stdout := output.stdout ++ (t ++ ['\n']) }) := by
  unfold printResult
  rw [h]
  dsimp only
  rw [run_bind, printLine, run_print, htaken]
  rfl

theorem run_printResult_of_fault {result : Value} {t : Text} (h : written config result = .ok t)
    {fault : StreamFault} (hfault : Platform.outputFault? (t ++ ['\n']) = some fault)
    (activity : String) (output : Output) :
    ∃ entries, (printResult config activity result).run.run output =
      (.ok ⟨1, none⟩, { output with entries }) := by
  unfold printResult
  rw [h]
  dsimp only
  rw [run_bind, printLine, run_print, hfault]
  exact ⟨_, rfl⟩

theorem run_printResult_of_error {result : Value} {e : ResultError}
    (h : written config result = .error e) (activity : String) (output : Output) :
    ∃ entries, (printResult config activity result).run.run output =
      (.ok ⟨1, none⟩, { output with entries }) := by
  unfold printResult
  rw [h]
  exact ⟨_, rfl⟩

theorem run_indent {names : List Text} {content : Utf8.Bytes} {report : IndentReport}
    (hfile : tree.status path = .file names content) {tabWidth? : Option (Option Int)}
    (hpos : 0 < tabWidth) (htab : tabWidthOr config tabWidth? = .int tabWidth)
    (hreport : IndentReport.ofFile tree path { tabWidth := .int tabWidth } = .ok report)
    (changedOnly : Bool) (output : Output) :
    ∃ entries, (indent tree config path tabWidth? changedOnly).run.run output =
      (printResult config "Indentation" (report.toValueListing
        (if changedOnly then report.lines.filter LineIndent.isChanged else report.lines))).run.run
          { output with entries } := by
  have hindent : (indent tree config path tabWidth? changedOnly).run.run output = _ :=
    run_bind (source? tree path) _ output
  rw [run_source?, hfile] at hindent
  rw [hindent]
  dsimp only [Option.isNone]
  rw [if_neg (by decide), htab, checkTabWidth_natCast hpos]
  dsimp only [printReport]
  rw [run_bind, hreport]
  exact ⟨_, rfl⟩

/-- **A listing is written** if and only if its integers have decimal texts. -/
theorem written_toValueListing_cases {w : Writer} (hw : writer config = .ok w)
    (hindent : w.indent.IsSpaceCount) (hroom : w.HasRoom) {report : IndentReport}
    {listed : List LineIndent} (hlength : report.lines.length ≤ maxIndex + 1)
    (hnumber : ∀ line ∈ listed, line.number ≤ report.lines.length) :
    (report.HasDigits listed ∧ ∃ t, written config (report.toValueListing listed) = .ok t ∧
      Json.IsDocument t ∧
      Json.read? t = some ((report.toValueListing listed).plain w.sortKeys)) ∨
    ¬ report.HasDigits listed ∧ ∃ e, written config (report.toValueListing listed) = .error e := by
  have hwritten : written config (report.toValueListing listed) =
      (w.write (report.toValueListing listed)).mapError .write := by
    rw [written, hw]
    rfl
  by_cases hdigits : report.HasDigits listed
  · left
    have hfew : maxIndex + 1 < Nat.pow 10 Number.maxDecimalDigits := by decide +kernel
    have hcount := Nat.lt_of_le_of_lt hlength hfew
    have hwritable : (report.toValueListing listed).IsWritable := by
      refine IndentReport.isWritable_toValueListing hdigits.1 (fun line hline => ?_) hcount
      obtain ⟨hcurrent, hestimated⟩ := hdigits.2 line hline
      exact LineIndent.isWritable_toValue (Nat.lt_of_le_of_lt (hnumber line hline) hcount)
        hcurrent hestimated
    obtain ⟨t, ht, hdocument, hread⟩ :=
      ((w.readsBack hwritable).1 hindent hroom).1 (report.fits_toValueListing listed _)
    exact ⟨hdigits, t, by rw [hwritten, ht]; rfl, hdocument, hread⟩
  · right
    obtain ⟨e, he⟩ := IndentReport.exists_ofValue_toValueListing_eq_error hdigits w.sortKeys
    obtain ⟨layout, hlayout, -⟩ := Writer.exists_layout hindent hroom
    refine ⟨hdigits, .write e, ?_⟩
    rw [hwritten, Writer.write_of_layout hlayout,
      Writer.document_of_fits w (report.fits_toValueListing listed _), he]
    rfl

/-- **The command that lists changed lines only** lists as many as have changed. -/
theorem run_indent_changedOnly {names : List Text} {content : Utf8.Bytes} {report : IndentReport}
    {lines : List Text} (hfile : tree.status path = .file names content)
    {tabWidth? : Option (Option Int)} (hpos : 0 < tabWidth)
    (htab : tabWidthOr config tabWidth? = .int tabWidth)
    (hreport : IndentReport.ofFile tree path { tabWidth := .int tabWidth } = .ok report)
    (hlines : report.ReportsOn tabWidth lines) (hlength : lines.length ≤ maxIndex + 1) {w : Writer}
    (hw : writer config = .ok w) (hindent : w.indent.IsSpaceCount) (hroom : w.HasRoom)
    (output : Output) :
    let run := (indent tree config path tabWidth? true).run.run output
    let listed := report.lines.filter LineIndent.isChanged
    let changed := lines.length - stayingAtMargin tabWidth lines
    (report.HasDigits listed → ∃ t json, Json.IsDocument t ∧ Json.read? t = some json ∧
      json.Lists changed changed ∧
      (Platform.outputFault? (t ++ ['\n']) = none →
        run.1 = .ok ⟨0, none⟩ ∧ run.2.stdout = output.stdout ++ (t ++ ['\n'])) ∧
      (Platform.outputFault? (t ++ ['\n']) ≠ none →
        run.1 = .ok ⟨1, none⟩ ∧ run.2.stdout = output.stdout)) ∧
    (¬ report.HasDigits listed → run.1 = .ok ⟨1, none⟩ ∧ run.2.stdout = output.stdout) := by
  intro run listed changed
  obtain ⟨entries, hrun⟩ := run_indent hfile hpos htab hreport true output
  have hlists := report.lists_toValueListing listed w.sortKeys
  rw [hlines.length_filter_isChanged] at hlists
  have hnumber : ∀ line ∈ listed, line.number ≤ report.lines.length := fun line hline =>
    hlines.number_le (List.mem_of_mem_filter hline)
  -- a run that fails leaves the standard output as it is
  have hfailed (h : ∃ entries', (printResult config "Indentation"
        (report.toValueListing listed)).run.run { output with entries } =
      (.ok ⟨1, none⟩, { output with entries := entries' })) :
      run.1 = .ok ⟨1, none⟩ ∧ run.2.stdout = output.stdout := by
    obtain ⟨entries', hfailed⟩ := h
    have hresult : run = _ := hrun.trans hfailed
    rw [hresult]
    exact ⟨rfl, rfl⟩
  rw [← hlines.length_eq] at hlength
  rcases written_toValueListing_cases hw hindent hroom hlength hnumber with
    ⟨hdigits, t, ht, hdocument, hread⟩ | ⟨hdigits, e, he⟩
  · refine ⟨fun _ => ⟨t, _, hdocument, hread, hlists, fun htaken => ?_, fun hfault => ?_⟩,
      fun hnot => absurd hdigits hnot⟩
    · have hprinted := run_printResult_of_ok ht htaken "Indentation" { output with entries }
      have hresult : run = _ := hrun.trans hprinted
      rw [hresult]
      exact ⟨rfl, rfl⟩
    · obtain ⟨fault, hfault⟩ := Option.ne_none_iff_exists'.mp hfault
      exact hfailed (run_printResult_of_fault ht hfault _ _)
  · exact ⟨fun h => absurd h hdigits, fun _ => hfailed (run_printResult_of_error he _ _)⟩

end Task

/-- **A report counts the lines that it lists as changed.**  Whatever a file holds, its report leaves
exactly those lines as they are that stay at the margin, and counts the others; the command that lists
changed lines only lists as many, if all integers of its listing have decimal texts and the listing is
taken.  If not, the command lists nothing and ends with an exit code of one. -/
theorem report_lists_changed_lines [Platform] (tabWidth : Nat) (hpos : 0 < tabWidth)
    (tree : FileTree) (path : Path) :
    (∀ (options : ProcessingOptions) (t : Text), options.tabWidth = .int tabWidth →
      readSource tree "Indentation estimate".toList path options = .ok t →
      t.lines.length ≤ maxIndex + 1 →
      ∃ report, IndentReport.ofFile tree path options = .ok report ∧
        report.ReportsOn tabWidth t.lines ∧
        ∀ sortKeys, (report.toValue.plain sortKeys).Lists t.lines.length
          (t.lines.length - stayingAtMargin tabWidth t.lines)) ∧
    ∀ names content, tree.status path = .file names content →
      (sourceText content).lines.length ≤ maxIndex + 1 →
      ∀ (config : Configuration) (w : Writer) (tabWidth? : Option (Option Int)) (output : Output),
        Task.tabWidthOr config tabWidth? = .int tabWidth → Task.writer config = .ok w →
        w.indent.IsSpaceCount → w.HasRoom →
        ∃ report, IndentReport.ofFile tree path { tabWidth := .int tabWidth } = .ok report ∧
          let run := (Task.indent tree config path tabWidth? true).run.run output
          let listed := report.lines.filter LineIndent.isChanged
          let changed := (sourceText content).lines.length -
            stayingAtMargin tabWidth (sourceText content).lines
          (report.HasDigits listed → ∃ t json, Json.IsDocument t ∧ Json.read? t = some json ∧
            json.Lists changed changed ∧
            (Platform.outputFault? (t ++ ['\n']) = none →
              run.1 = .ok ⟨0, none⟩ ∧ run.2.stdout = output.stdout ++ (t ++ ['\n'])) ∧
            (Platform.outputFault? (t ++ ['\n']) ≠ none →
              run.1 = .ok ⟨1, none⟩ ∧ run.2.stdout = output.stdout)) ∧
          (¬ report.HasDigits listed →
            run.1 = .ok ⟨1, none⟩ ∧ run.2.stdout = output.stdout) := by
  constructor
  · intro options t htab hread hlength
    obtain ⟨report, hreport, hlines⟩ := IndentReport.exists_reportsOn hpos htab hread hlength
    refine ⟨report, hreport, hlines, fun sortKeys => ?_⟩
    have hlists := report.lists_toValueListing report.lines sortKeys
    rwa [hlines.length_filter_isChanged, hlines.length_eq] at hlists
  · intro names content hfile hlength config w tabWidth? output htab hw hindent hroom
    have hread : readSource tree "Indentation estimate".toList path { tabWidth := .int tabWidth } =
        .ok (sourceText content) := by
      rw [readSource, hfile]
      rfl
    obtain ⟨report, hreport, hlines⟩ := IndentReport.exists_reportsOn hpos rfl hread hlength
    exact ⟨report, hreport, Task.run_indent_changedOnly hfile hpos htab hreport hlines hlength hw
      hindent hroom output⟩

open Platform.Usual in
/-- The last of three lines is empty, below two lines of which the second is deeper. -/
theorem report_lists_changed_lines_deeper :
    let tree : FileTree := ⟨[], [([['a']], .file (Utf8.encode ['a', '\n', '\t', 'b', '\n', '\n']))]⟩
    let path : Path := ⟨[], [['a']]⟩
    let run := (Task.indent tree Configuration.defaults path (some (some 4)) true).run.run {}
    ∃ report, IndentReport.ofFile tree path ⟨.int 4, .bool false⟩ = .ok report ∧
      report.ReportsOn 4 [['a'], ['\t', 'b'], []] ∧
      (∀ sortKeys, (report.toValue.plain sortKeys).Lists 3 2) ∧ run.1 = .ok ⟨0, none⟩ ∧
      ∃ t json, run.2.stdout = t ++ ['\n'] ∧ Json.read? t = some json ∧ json.Lists 2 2 := by
  intro tree path run
  have hrun : run = (Task.indent tree Configuration.defaults path (some (some 4)) true).run.run {} :=
    rfl
  clear_value run
  have hfile : tree.status path =
      .file [['a']] (Utf8.encode ['a', '\n', '\t', 'b', '\n', '\n']) := by decide
  have hread : readSource tree "Indentation estimate".toList path ⟨.int 4, .bool false⟩ =
      .ok ['a', '\n', '\t', 'b', '\n', '\n'] := by
    rw [readSource_encode hfile]
    rfl
  have hlines : Text.lines ['a', '\n', '\t', 'b', '\n', '\n'] = [['a'], ['\t', 'b'], []] := by decide
  obtain ⟨hreports, hlistings⟩ := report_lists_changed_lines 4 (by decide) tree path
  obtain ⟨report, hreport, hreportsOn, hcounts⟩ := hreports ⟨.int 4, .bool false⟩ _ rfl hread
    (by decide)
  have hentries := IndentReport.ofFile_of_readSource (by decide : 0 < 4) rfl hread (by decide)
  rw [hlines] at hentries
  obtain rfl := Except.ok.inj (hreport.symm.trans hentries)
  have hdigits : (⟨path, 4, IndentReport.entries 4 [['a'], ['\t', 'b'], []]⟩ :
      IndentReport).HasDigits
        ((IndentReport.entries 4 [['a'], ['\t', 'b'], []]).filter LineIndent.isChanged) :=
    IndentReport.hasDigits_of_le (by decide : 4 ≤ 10) (by decide)
  have hroom : ({} : Writer).HasRoom := Writer.hasRoom_of_indent rfl (by decide : 2 < roomLimit)
  obtain ⟨report', hreport', hlisted, -⟩ := hlistings _ _ hfile (by decide) Configuration.defaults {}
    (some (some 4)) {} rfl rfl (.int 2) hroom
  obtain rfl := Except.ok.inj (hreport'.symm.trans hentries)
  rw [← hrun] at hlisted
  obtain ⟨t, json, -, hjson, hlists, hprinted, -⟩ := hlisted hdigits
  obtain ⟨hcode, hstdout⟩ := hprinted rfl
  exact ⟨_, hreport, hreportsOn, hcounts, hcode, t, json, hstdout, hjson, hlists⟩

open Platform.Usual in
/-- A tab width of nines puts the second line at a column with one digit too many, so that no line is
listed, although both have changed. -/
theorem no_listing_without_digits :
    let tabWidth : Nat := Nat.pow 10 Number.maxDecimalDigits - 1
    let tree : FileTree := ⟨[], [([['a']], .file (Utf8.encode [' ', 'x', '\n', ' ', 'y', '\n']))]⟩
    let path : Path := ⟨[], [['a']]⟩
    let run := (Task.indent tree Configuration.defaults path (some (some tabWidth)) true).run.run {}
    ∃ report, IndentReport.ofFile tree path { tabWidth := .int tabWidth } = .ok report ∧
      (report.lines.filter LineIndent.isChanged).length = 2 ∧
      run.1 = .ok ⟨1, none⟩ ∧ run.2.stdout = [] := by
  intro tabWidth tree path run
  have hpos : 0 < tabWidth := by decide +kernel
  have hnext : Nat.pow 10 Number.maxDecimalDigits = 1 + tabWidth := by decide +kernel
  clear_value tabWidth
  have hfile : tree.status path =
      .file [['a']] (Utf8.encode [' ', 'x', '\n', ' ', 'y', '\n']) := by decide
  have hread : readSource tree "Indentation estimate".toList path { tabWidth := .int tabWidth } =
      .ok [' ', 'x', '\n', ' ', 'y', '\n'] := by
    rw [readSource_encode hfile]
    rfl
  have hlines : Text.lines [' ', 'x', '\n', ' ', 'y', '\n'] = [[' ', 'x'], [' ', 'y']] := by decide
  have hreport := IndentReport.ofFile_of_readSource hpos rfl hread (by decide)
  rw [hlines] at hreport
  have hentries : (IndentReport.entries tabWidth [[' ', 'x'], [' ', 'y']]).filter
      LineIndent.isChanged = [⟨1, 1, 0, [' ', 'x']⟩, ⟨2, 1, 1 + tabWidth, [' ', 'y']⟩] := by
    have hx : Text.indentation tabWidth [' ', 'x'] = 1 := rfl
    have hy : Text.indentation tabWidth [' ', 'y'] = 1 := rfl
    have hwhite : Text.isWhite [' ', 'x'] = false := by decide
    have hwhite' : Text.isWhite [' ', 'y'] = false := by decide
    simp [IndentReport.entries, estimateBelow, depthAbove, written, nextIndentation,
      LineIndent.isChanged, hx, hy, hwhite, hwhite', Nat.ne_of_gt hpos]
  have hdigits : ¬ (⟨path, tabWidth, IndentReport.entries tabWidth [[' ', 'x'], [' ', 'y']]⟩ :
      IndentReport).HasDigits ((IndentReport.entries tabWidth [[' ', 'x'], [' ', 'y']]).filter
        LineIndent.isChanged) := by
    rw [hentries]
    rintro ⟨-, hcolumns⟩
    have hlast := (hcolumns ⟨2, 1, 1 + tabWidth, [' ', 'y']⟩ (by simp)).2
    rw [hnext] at hlast
    exact Nat.lt_irrefl _ hlast
  have hroom : ({} : Writer).HasRoom := Writer.hasRoom_of_indent rfl (by decide : 2 < roomLimit)
  have htab : Task.tabWidthOr Configuration.defaults (some (some tabWidth)) = .int tabWidth := rfl
  have hlisted := (Task.run_indent_changedOnly hfile hpos htab hreport
    (IndentReport.reportsOn_entries hpos path _) (by decide) rfl (.int 2) hroom {}).2 hdigits
  exact ⟨_, hreport, congrArg List.length hentries, hlisted.1, hlisted.2⟩

end IoSource
