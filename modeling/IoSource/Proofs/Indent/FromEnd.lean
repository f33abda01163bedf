import IoSource.Proofs.Indent.Above
import IoSource.Proofs.Indent.Break
import IoSource.Proofs.Indent.Failure

/-!
# Lines counted from the end

A line can be named by an index that counts from the end of the buffer.  An edit then reads and
changes that line, as it would under the other index.  But there are two more things that an edit
takes its index for.

It is where the view of the lines above ends.  In front of a negative index there are none, so the
line is estimated as if it were the first one (`run_applyIndent_fromEnd`).  And the next line is
inserted behind it.  Behind the last line, counted from the end, the index is zero, so what is left
over of this line goes to the front (`opened_fromEnd_last`).
-/

namespace IoSource

variable {lines : Buffer} {i tabWidth : Nat} {column : Int}

def fromEnd (size i : Nat) : Int := i - size

theorem indexIn?_fromEnd (hi : i < lines.length) :
    indexIn? lines.length (fromEnd lines.length i) = some i := by
  have hneg : ¬ 0 ≤ fromEnd lines.length i := by
    unfold fromEnd
    omega
  have hplace : (fromEnd lines.length i + lines.length).toNat = i := by
    unfold fromEnd
    omega
  rw [indexIn?, if_neg hneg, if_pos, hplace]
  unfold fromEnd
  omega

theorem isIndex_fromEnd (hlength : lines.length ≤ maxIndex) (hi : i < lines.length) :
    isIndex (fromEnd lines.length i) = true ∧ isIndex (fromEnd lines.length i + 1) = true := by
  rw [isIndex_iff, isIndex_iff]
  unfold fromEnd
  omega

theorem line_fromEnd (hlength : lines.length ≤ maxIndex) (hi : i < lines.length) :
    bufferLine lines (fromEnd lines.length i) = .ok lines[i] :=
  bufferLine_iff.mpr ⟨(isIndex_fromEnd hlength hi).1, i, indexIn?_fromEnd hi,
    List.getElem?_eq_getElem hi⟩

theorem line_fromStart (hlength : lines.length ≤ maxIndex) (hi : i < lines.length) :
    bufferLine lines i = .ok lines[i] :=
  bufferLine_eq_ok_iff.mpr ⟨(isIndex_natCast i).mpr (by omega),
    List.getElem?_eq_getElem hi⟩

/-! ### Indenting -/

/-- The lines above a line do not matter to its estimate: it is empty, and the last written line
above it is at the margin or missing; or it is past that line; or it is written at the margin
itself. -/
def IgnoresAbove (tabWidth : Nat) (above : List Text) (line : Text) : Prop :=
  (line.isWhite = true → line.indentation tabWidth = 0 → depthAbove tabWidth above 0 = 0) ∧
    (0 < line.indentation tabWidth →
      depthAbove tabWidth above 0 < line.indentation tabWidth)

/-- There is no room for either number of spaces, for the same cause. -/
def LackRoomAlike [Platform] (width width' : Nat) : Prop :=
  ∃ cause, Text.spaces width = .error cause ∧ Text.spaces width' = .error cause

/-- **A line is estimated as if it were the first one** just if the lines above it do not matter. -/
theorem estimateBelow_nil_eq_iff (hpos : 0 < tabWidth) (above : List Text) (line : Text) :
    estimateBelow tabWidth [] line = estimateBelow tabWidth above line ↔
      IgnoresAbove tabWidth above line := by
  have hnone : ∀ k, depthAbove tabWidth [] k = 0 := depthAbove_of_written_eq_nil rfl
  unfold estimateBelow IgnoresAbove nextIndentation
  rw [hnone, hnone]
  generalize depthAbove tabWidth above 0 = depth
  generalize depthAbove tabWidth above 1 = before
  by_cases hzero : line.indentation tabWidth = 0
  · rw [hzero]
    cases line.isWhite with
    | false => simp
    | true =>
      by_cases hdeeper : before < depth
      · have hdepth : depth ≠ 0 := Nat.ne_zero_of_lt hdeeper
        simp [hdeeper, hdepth, Nat.ne_of_gt hpos]
      · simp [hdeeper]
  · have hsome : 0 < line.indentation tabWidth := Nat.pos_of_ne_zero hzero
    by_cases hpast : depth < line.indentation tabWidth
    · simp [hzero, hsome, hpast]
    · have hnot : 0 ≠ line.indentation tabWidth + tabWidth := by omega
      simp [hzero, hsome, hpast, hnot]

theorem Text.fst_indentedBy_eq_iff [Platform] (line : Text) (width width' : Nat) :
    (line.indentedBy width).1 = (line.indentedBy width').1 ↔
      width = width' ∨ LackRoomAlike width width' := by
  constructor
  · intro h
    unfold Text.indentedBy at h
    cases hspaces : Text.spaces width with
    | ok spaces =>
      cases hspaces' : Text.spaces width' with
      | ok spaces' =>
        rw [hspaces, hspaces'] at h
        exact Or.inl (Except.ok.inj h)
      | error cause => simp [hspaces, hspaces'] at h
    | error cause =>
      cases hspaces' : Text.spaces width' with
      | ok spaces' => simp [hspaces, hspaces'] at h
      | error cause' =>
        rw [hspaces, hspaces'] at h
        obtain rfl : cause = cause' := EditError.spaces.inj (Except.error.inj h)
        exact Or.inr ⟨cause, hspaces, hspaces'⟩
  · rintro (rfl | ⟨cause, hspaces, hspaces'⟩)
    · rfl
    · rw [Text.indentedBy, Text.indentedBy, hspaces, hspaces']

theorem Text.indentedBy_congr [Platform] {line : Text} {width width' : Nat}
    (h : (line.indentedBy width).1 = (line.indentedBy width').1) :
    line.indentedBy width = line.indentedBy width' := by
  rcases (fst_indentedBy_eq_iff line width width').mp h with rfl | ⟨cause, hspaces, hspaces'⟩
  · rfl
  · rw [Text.indentedBy, Text.indentedBy, hspaces, hspaces']

namespace Edit

variable [Platform]

/-- **Named from the end**, a line is indented as if it were the first one. -/
theorem run_applyIndent_fromEnd (hpos : 0 < tabWidth) (hlength : lines.length ≤ maxIndex)
    (hi : i < lines.length) :
    (applyIndent (fromEnd lines.length i) (.int tabWidth)).run.run lines =
      ((lines[i].indentedBy (estimateBelow tabWidth [] lines[i])).1,
        lines.set i (lines[i].indentedBy (estimateBelow tabWidth [] lines[i])).2) := by
  have hreads := History.reads_upTo_index lines (isIndex_fromEnd hlength hi).1
  have hnone : (fromEnd lines.length i).toNat = 0 := by
    unfold fromEnd
    omega
  rw [hnone, List.take_zero] at hreads
  rw [run_applyIndent_at (line_fromEnd hlength hi) (indexIn?_fromEnd hi),
    estimateIndent_eq hreads hpos]

theorem run_applyIndent_fromEnd_eq_iff (hpos : 0 < tabWidth) (hlength : lines.length ≤ maxIndex)
    (hi : i < lines.length) :
    (applyIndent (fromEnd lines.length i) (.int tabWidth)).run.run lines =
        (applyIndent i (.int tabWidth)).run.run lines ↔
      IgnoresAbove tabWidth (lines.take i) lines[i] ∨
        LackRoomAlike (estimateBelow tabWidth [] lines[i])
          (estimateBelow tabWidth (lines.take i) lines[i]) := by
  have hindex : i ≤ maxIndex := Nat.le_trans (Nat.le_of_lt hi) hlength
  rw [run_applyIndent_fromEnd hpos hlength hi,
    run_applyIndent_eq hpos hindex (List.getElem?_eq_getElem hi), ← estimateBelow_nil_eq_iff hpos,
    ← Text.fst_indentedBy_eq_iff]
  constructor
  · intro h
    exact (Prod.mk.inj h).1
  · intro h
    rw [Text.indentedBy_congr h]

/-! ### Breaking -/

theorem run_splitLine_natCast (hpos : 0 < tabWidth) {index : Int} {line : Text}
    (hline : bufferLine lines index = .ok line)
    (hplace : indexIn? lines.length index = some i) (column : Int) :
    (splitLine index column (.int tabWidth)).run.run lines =
      (openNext index (continuation tabWidth (line.indentation tabWidth) (line.cutOff column))
        ((line.leftOver column).dropWhile isBlank)).run.run (lines.cut i column line) := by
  rw [run_splitLine_plan hline hplace, planNext_natCast hpos]

theorem run_openNext_of_error {next : Continuation} {cause : SpacesError}
    (h : Text.spaces next.indent = .error cause) (index : Int) (rest : Text) (lines : Buffer) :
    (openNext index next rest).run.run lines = (.error (.spaces cause), lines) := by
  have hspaces : (spaces next.indent).run.run lines = (.error (.spaces cause), lines) := by
    rw [spaces, run_ofExcept, h]
    rfl
  have hprogram : (openNext index next rest).run.run lines = _ :=
    run_bind (spaces next.indent) _ lines
  rwa [hspaces] at hprogram

theorem run_openNext_of_hasRoom {index : Int} {next : Continuation}
    (hroom : HasRoomBehind index next) (rest : Text) (lines : Buffer) :
    (openNext index next rest).run.run lines = (.ok next,
      lines.opened (index + 1) (List.replicate next.indent ' ' ++ (next.opening ++ rest))) := by
  rcases run_openNext index next rest lines with ⟨hnot, -⟩ | ⟨-, hrun⟩
  · exact absurd hroom hnot
  · exact hrun

end Edit

namespace Buffer

theorem opened_fromEnd (hi : i + 1 < lines.length) (line : Text) :
    lines.opened (fromEnd lines.length i + 1) line = lines.opened ((i : Int) + 1) line := by
  have hplace : cutIn lines.length (fromEnd lines.length i + 1) =
      cutIn lines.length ((i : Int) + 1) := by
    unfold cutIn fromEnd
    rw [if_neg (by omega), if_pos (by omega)]
    omega
  rw [opened, opened, hplace]

/-- **Behind the last line the index is zero**, and what is inserted there is the first line. -/
theorem opened_fromEnd_last (hi : i + 1 = lines.length) (line : Text) :
    lines.opened (fromEnd lines.length i + 1) line = line :: lines := by
  have hplace : cutIn lines.length (fromEnd lines.length i + 1) = 0 := by
    unfold cutIn fromEnd
    rw [if_pos (by omega)]
    omega
  rw [opened, hplace]
  rfl

theorem opened_last (hi : i + 1 = lines.length) (line : Text) :
    lines.opened ((i : Int) + 1) line = lines ++ [line] := by
  have hplace : cutIn lines.length ((i : Int) + 1) = lines.length := by
    unfold cutIn
    rw [if_pos (by omega)]
    omega
  rw [opened, hplace, List.take_length, List.drop_length]

theorem length_cut (lines : Buffer) (i : Nat) (column : Int) (line : Text) :
    (lines.cut i column line).length = lines.length := List.length_set

theorem cut_last (hi : i + 1 = lines.length) (column : Int) (line : Text) :
    lines.cut i column line =
      lines.take i ++ [Text.dropEndWhile isBlank (line.cutOff column)] := by
  have h := Edit.take_set_succ (by omega : i < lines.length)
    (Text.dropEndWhile isBlank (line.cutOff column))
  rwa [hi, ← length_cut lines i column line, ← cut, List.take_length] at h

end Buffer

/-- An element can be moved from the end of a list to its front just if all others are the same. -/
theorem cons_eq_concat_iff {α : Type} {x : α} {l : List α} :
    x :: l = l ++ [x] ↔ ∀ y ∈ l, y = x := by
  induction l with
  | nil => simp
  | cons y l ih =>
    rw [List.cons_append, List.cons.injEq, List.forall_mem_cons]
    constructor
    · rintro ⟨rfl, h⟩
      exact ⟨rfl, ih.mp h⟩
    · rintro ⟨rfl, h⟩
      exact ⟨rfl, ih.mpr h⟩

namespace Edit

variable [Platform]

theorem run_splitLine_fromEnd_of_crowded (hpos : 0 < tabWidth) (hlength : lines.length ≤ maxIndex)
    (hi : i < lines.length)
    (hwide : ¬ lines[i].indentation tabWidth / tabWidth * tabWidth < roomLimit) (column : Int) :
    (splitLine (fromEnd lines.length i) column (.int tabWidth)).run.run lines =
      (splitLine i column (.int tabWidth)).run.run lines := by
  rw [run_splitLine_natCast hpos (line_fromEnd hlength hi) (indexIn?_fromEnd hi),
    run_splitLine_natCast hpos (line_fromStart hlength hi) (indexIn?_natCast hi)]
  rcases Text.spaces_cases (lines[i].indentation tabWidth / tabWidth * tabWidth : Nat) with
    ⟨hroom, -⟩ | ⟨-, cause, hcause⟩
  · exact absurd ((hasRoomFor_natCast _).mp hroom) hwide
  · rw [run_openNext_of_error hcause, run_openNext_of_error hcause]

theorem run_splitLine_fromEnd_of_room (hpos : 0 < tabWidth) (hlength : lines.length ≤ maxIndex)
    (hi : i < lines.length)
    (hroom : lines[i].indentation tabWidth / tabWidth * tabWidth < roomLimit) (column : Int) :
    ∃ next second,
      IsBroken tabWidth lines[i] (lines[i].cutOff column) next
        (Text.dropEndWhile isBlank (lines[i].cutOff column)) second ∧
      (splitLine i column (.int tabWidth)).run.run lines =
        (.ok next, (lines.cut i column lines[i]).opened ((i : Int) + 1) second) ∧
      (splitLine (fromEnd lines.length i) column (.int tabWidth)).run.run lines =
        (.ok next, (lines.cut i column lines[i]).opened (fromEnd lines.length i + 1) second) := by
  let next := continuation tabWidth (lines[i].indentation tabWidth) (lines[i].cutOff column)
  have hfront : HasRoomBehind i next :=
    (hasRoomBehind_natCast i next).mpr ⟨hroom, Nat.lt_of_lt_of_le hi hlength⟩
  have hend : HasRoomBehind (fromEnd lines.length i) next :=
    ⟨hroom, (isIndex_fromEnd hlength hi).2⟩
  refine ⟨next, _, isBroken_continuation hpos lines[i] column, ?_, ?_⟩
  · rw [run_splitLine_natCast hpos (line_fromStart hlength hi) (indexIn?_natCast hi)]
    exact run_openNext_of_hasRoom hfront _ _
  · rw [run_splitLine_natCast hpos (line_fromEnd hlength hi) (indexIn?_fromEnd hi)]
    exact run_openNext_of_hasRoom hend _ _

/-- **What is left over of the last line** goes in front of all lines, or behind the last one. -/
theorem run_splitLine_fromEnd_last (hpos : 0 < tabWidth) (hlength : lines.length ≤ maxIndex)
    (hi : i < lines.length) (hlast : i + 1 = lines.length)
    (hroom : lines[i].indentation tabWidth / tabWidth * tabWidth < roomLimit) (column : Int) :
    ∃ next first second, IsBroken tabWidth lines[i] (lines[i].cutOff column) next first second ∧
      (splitLine i column (.int tabWidth)).run.run lines =
        (.ok next, lines.take i ++ [first, second]) ∧
      (splitLine (fromEnd lines.length i) column (.int tabWidth)).run.run lines =
        (.ok next, second :: (lines.take i ++ [first])) := by
  obtain ⟨next, second, hbroken, hrun, hrun'⟩ :=
    run_splitLine_fromEnd_of_room hpos hlength hi hroom column
  have hsize := Buffer.length_cut lines i column lines[i]
  have hfront := Buffer.opened_fromEnd_last (hlast.trans hsize.symm) second
  have hend := Buffer.opened_last (hlast.trans hsize.symm) second
  rw [hsize, Buffer.cut_last hlast] at hfront
  rw [Buffer.cut_last hlast, List.append_assoc] at hend
  rw [Buffer.cut_last hlast] at hrun hrun'
  rw [hend] at hrun
  rw [hfront] at hrun'
  exact ⟨next, _, second, hbroken, hrun, hrun'⟩

end Edit

open Edit

/-- **An index from the end names the same line**, but an edit does not always treat it alike.

A line is indented alike just if the lines above it do not matter to its estimate, or if there is no
room for it either way.

A line is broken with the same outcome.  If it is not the last one, or if there is no room for the
next one, it also leaves the same buffer.  What is left over of the last line goes to the front of
the buffer instead of behind that line, which comes to the same just if all lines are the same. -/
theorem indices_from_end_agree_iff [Platform] (lines : Buffer)
    (hlength : lines.length ≤ maxIndex) (i : Nat) (hi : i < lines.length) (tabWidth : Nat)
    (hpos : 0 < tabWidth) :
    let line := lines[i]
    let above := lines.take i
    let index : Int := i - lines.length
    ((applyIndent index (.int tabWidth)).run.run lines =
        (applyIndent i (.int tabWidth)).run.run lines ↔
      IgnoresAbove tabWidth above line ∨
        LackRoomAlike (estimateBelow tabWidth [] line) (estimateBelow tabWidth above line)) ∧
    ∀ column : Int,
      let run := (splitLine i column (.int tabWidth)).run.run lines
      let run' := (splitLine index column (.int tabWidth)).run.run lines
      let hasRoom := line.indentation tabWidth / tabWidth * tabWidth < roomLimit
      run'.1 = run.1 ∧
        (i + 1 < lines.length ∨ ¬ hasRoom → run' = run) ∧
        (i + 1 = lines.length → hasRoom → ∃ next first second,
          run = (.ok next, above ++ [first, second]) ∧
          run' = (.ok next, second :: (above ++ [first])) ∧
          IsBroken tabWidth line (line.take (cutIn line.length column)) next first second ∧
          (run' = run ↔ ∀ other ∈ above ++ [first], other = second)) := by
  intro line above index
  refine ⟨run_applyIndent_fromEnd_eq_iff hpos hlength hi, ?_⟩
  intro column run run' hasRoom
  by_cases hroom : hasRoom
  · obtain ⟨next, second, -, hrun, hrun'⟩ :=
      run_splitLine_fromEnd_of_room hpos hlength hi hroom column
    refine ⟨(congrArg Prod.fst hrun').trans (congrArg Prod.fst hrun).symm, ?notLast, ?last⟩
    case notLast =>
      rintro (hbefore | hnot)
      · have hsize := Buffer.length_cut lines i column line
        have hopened := Buffer.opened_fromEnd (hbefore.trans_eq hsize.symm) second
        rw [hsize] at hopened
        rw [hopened] at hrun'
        exact hrun'.trans hrun.symm
      · exact absurd hroom hnot
    case last =>
      intro hlast _
      obtain ⟨next, first, second, hbroken, hrun, hrun'⟩ :=
        run_splitLine_fromEnd_last hpos hlength hi hlast hroom column
      refine ⟨next, first, second, hrun, hrun', hbroken, ?_⟩
      have hmoved := cons_eq_concat_iff (x := second) (l := above ++ [first])
      rw [List.append_assoc] at hmoved
      rw [show run' = _ from hrun', show run = _ from hrun, Prod.mk.injEq]
      exact (and_iff_right rfl).trans hmoved
  · have hsame : run' = run := run_splitLine_fromEnd_of_crowded hpos hlength hi hroom column
    refine ⟨congrArg Prod.fst hsame, fun _ => hsame, ?_⟩
    intro _ h
    exact absurd h hroom

open Platform.Usual in
/-- The line in the middle is deeper than the one above it and is not the last one. -/
theorem indices_from_end_agree_middle :
    let lines : Buffer := ["x".toList, "\tyz".toList, "w".toList]
    lines.length ≤ maxIndex ∧ 1 < lines.length ∧ 0 < 4 ∧
      (applyIndent (-2) (.int 4)).run.run lines = (applyIndent 1 (.int 4)).run.run lines ∧
      (splitLine (-2) 2 (.int 4)).run.run lines = (splitLine 1 2 (.int 4)).run.run lines := by
  intro lines
  have hlength : lines.length ≤ maxIndex := by decide
  have hi : 1 < lines.length := by decide
  have hpos : 0 < 4 := by decide
  obtain ⟨hindented, hbroken⟩ := indices_from_end_agree_iff lines hlength 1 hi 4 hpos
  have hignores : IgnoresAbove 4 ["x".toList] "\tyz".toList := ⟨by decide, by decide⟩
  exact ⟨hlength, hi, hpos, hindented.mpr (Or.inl hignores), (hbroken 2).2.1 (Or.inl (by decide))⟩

open Platform.Usual in
/-- What is left over of the last line goes in front of the others if that line is named from the
end, and it is indented as if there were no others. -/
theorem last_line_named_from_end :
    let lines : Buffer := ["    a".toList, "    b".toList]
    let broken (index : Int) := (splitLine index 5 (.int 4)).run.run lines
    let indented (index : Int) := (applyIndent index (.int 4)).run.run lines
    (broken 1).2 = ["    a".toList, "    b".toList, "    ".toList] ∧
      (broken (-1)).2 = ["    ".toList, "    a".toList, "    b".toList] ∧
      broken (-1) ≠ broken 1 ∧
      (indented 1).1.toOption = some 8 ∧ (indented (-1)).1.toOption = some 0 ∧
      indented (-1) ≠ indented 1 := by
  intro lines broken indented
  have hfront : (broken (-1)).2 = ["    ".toList, "    a".toList, "    b".toList] := by
    decide +kernel
  have hend : (broken 1).2 = ["    a".toList, "    b".toList, "    ".toList] := by decide +kernel
  have hreset : (indented (-1)).1.toOption = some 0 := by decide +kernel
  have hnudged : (indented 1).1.toOption = some 8 := by decide +kernel
  refine ⟨hend, hfront, ?_, hnudged, hreset, ?_⟩
  · intro hsame
    rw [hsame, hend] at hfront
    exact absurd hfront (by decide)
  · intro hsame
    rw [hsame, hnudged] at hreset
    exact absurd hreset (by decide)

end IoSource
