import IoSource.Proofs.Indent.Columns
import IoSource.Proofs.Indent.Edit

/-!
# Edits that fail

An edit reads its line and checks its tab width before it changes anything.  If there is no such
line, or the value given is no tab width, it is refused and the buffer is as it was.  After that it
can fail only for a lack of room, for its spaces or for the place of the next line.

Either edit ends in one of these ways (`Ends`), so that it is known beforehand whether it returns
(`refused_edits_keep_buffer`).
-/

namespace IoSource

theorem checkTabWidth_cases (tabWidth : Value) :
    (∃ width : Nat, 0 < width ∧ tabWidth = .int width ∧ checkTabWidth tabWidth = .ok width) ∨
    ((∀ width : Nat, 0 < width → tabWidth ≠ .int width) ∧
      checkTabWidth tabWidth = .error (.badTabWidth tabWidth)) := by
  by_cases h : ∃ width : Nat, 0 < width ∧ tabWidth = .int width
  · obtain ⟨width, hpos, rfl⟩ := h
    exact Or.inl ⟨width, hpos, rfl, checkTabWidth_natCast hpos⟩
  · refine Or.inr ⟨fun width hpos heq => h ⟨width, hpos, heq⟩, ?_⟩
    unfold checkTabWidth
    split
    · next i =>
      refine if_neg fun hpos => h ⟨i.toNat, by omega, ?_⟩
      rw [Int.toNat_of_nonneg (Int.le_of_lt hpos)]
    · rfl

/-! ### Errors that come before any change -/

theorem isLackOfRoom_bufferLine {lines : Buffer} {index : Int} {e : EditError}
    (h : bufferLine lines index = .error e) : e.isLackOfRoom = false := by
  unfold bufferLine at h
  split at h
  · obtain rfl := Except.error.inj h
    rfl
  · split at h
    · exact absurd h (by simp)
    · obtain rfl := Except.error.inj h
      rfl

theorem Text.isLackOfRoom_measureFrom {tabWidth : Value} {column : Number} {t : Text}
    {e : EditError} (h : measureFrom tabWidth column t = .error e) : e.isLackOfRoom = false := by
  fun_induction measureFrom tabWidth column t with
  | case1 column rest ih => exact ih h
  | case2 column rest hnumber =>
    obtain rfl := Except.error.inj h
    rfl
  | case3 column rest width hnumber hmod =>
    obtain rfl := Except.error.inj h
    rfl
  | case4 column rest width hnumber past hmod ih => exact ih h
  | case5 column t hspace htab => exact absurd h (by simp)

namespace Edit

/-- A line can be edited: it is there, and the value given is a tab width. -/
structure IsPossible (lines : Buffer) (index : Int) (tabWidth : Value) (line : Text)
    (width : Nat) : Prop where
  line : bufferLine lines index = .ok line
  pos : 0 < width
  tabWidth : tabWidth = .int width

variable {lines : Buffer} {index column : Int} {tabWidth : Value} {line : Text} {width : Nat}

theorem IsPossible.unique (h : IsPossible lines index tabWidth line width) {line' : Text}
    {width' : Nat} (h' : IsPossible lines index tabWidth line' width') :
    line' = line ∧ width' = width := by
  have hline : line' = line := Except.ok.inj (h'.line.symm.trans h.line)
  have hwidth : (width' : Int) = width := Value.int.inj (h'.tabWidth.symm.trans h.tabWidth)
  exact ⟨hline, Int.ofNat.inj hwidth⟩

theorem exists_isPossible_iff :
    (∃ line width, IsPossible lines index tabWidth line width) ↔
      (isIndex index = true ∧ -(lines.length : Int) ≤ index ∧ index < lines.length) ∧
        ∃ width : Nat, 0 < width ∧ tabWidth = .int width := by
  constructor
  · rintro ⟨line, width, hline, hpos, htab⟩
    obtain ⟨hindex, place, hplace, -⟩ := bufferLine_iff.mp hline
    exact ⟨⟨hindex, exists_indexIn?_iff.mp ⟨place, hplace⟩⟩, width, hpos, htab⟩
  · rintro ⟨⟨hindex, hrange⟩, width, hpos, htab⟩
    obtain ⟨place, hplace⟩ := exists_indexIn?_iff.mpr hrange
    have hline := List.getElem?_eq_getElem (lt_of_indexIn? hplace)
    exact ⟨_, width, bufferLine_iff.mpr ⟨hindex, place, hplace, hline⟩, hpos, htab⟩

/-- How an edit ends: it is refused, or there is no room for what it makes, or it returns. -/
inductive Ends {α : Type} (lines : Buffer) (index : Int) (tabWidth : Value)
    (room : Text → Nat → Prop) : Except EditError α × Buffer → Prop
  | refused {e : EditError} (hnot : ∀ line width, ¬ IsPossible lines index tabWidth line width)
      (he : e.isLackOfRoom = false) : Ends lines index tabWidth room (.error e, lines)
  | crowded {e : EditError} {lines' : Buffer} {line : Text} {width : Nat}
      (h : IsPossible lines index tabWidth line width) (hroom : ¬ room line width)
      (he : e.isLackOfRoom = true) : Ends lines index tabWidth room (.error e, lines')
  | returned {result : α} {lines' : Buffer} {line : Text} {width : Nat}
      (h : IsPossible lines index tabWidth line width) (hroom : room line width) :
      Ends lines index tabWidth room (.ok result, lines')

namespace Ends

variable {α : Type} {room : Text → Nat → Prop} {run : Except EditError α × Buffer}

theorem returns_iff (h : Ends lines index tabWidth room run) :
    (∃ result, run.1 = .ok result) ↔
      ∃ line width, IsPossible lines index tabWidth line width ∧ room line width := by
  cases h with
  | refused hnot he =>
    refine iff_of_false (by simp) ?_
    rintro ⟨line, width, h, -⟩
    exact hnot line width h
  | crowded h hroom he =>
    refine iff_of_false (by simp) ?_
    rintro ⟨line, width, h', hroom'⟩
    obtain ⟨rfl, rfl⟩ := h.unique h'
    exact hroom hroom'
  | returned h hroom => exact iff_of_true ⟨_, rfl⟩ ⟨_, _, h, hroom⟩

theorem crowded_iff (h : Ends lines index tabWidth room run) :
    (∃ e, run.1 = .error e ∧ e.isLackOfRoom = true) ↔
      ∃ line width, IsPossible lines index tabWidth line width ∧ ¬ room line width := by
  cases h with
  | @refused e hnot he =>
    refine iff_of_false ?_ ?_
    · rintro ⟨e', heq, he'⟩
      obtain rfl := Except.error.inj heq
      exact absurd (he.symm.trans he') (by decide)
    · rintro ⟨line, width, h, -⟩
      exact hnot line width h
  | crowded h hroom he => exact iff_of_true ⟨_, rfl, he⟩ ⟨_, _, h, hroom⟩
  | returned h hroom =>
    refine iff_of_false (by simp) ?_
    rintro ⟨line, width, h', hnoRoom⟩
    obtain ⟨rfl, rfl⟩ := h.unique h'
    exact hnoRoom hroom

theorem keeps (h : Ends lines index tabWidth room run) {e : EditError} (hrun : run.1 = .error e)
    (he : e.isLackOfRoom = false) : run.2 = lines := by
  cases h with
  | refused hnot he' => rfl
  | crowded h hroom he' =>
    obtain rfl := Except.error.inj hrun
    exact absurd (he.symm.trans he') (by decide)
  | returned h hroom => exact absurd hrun (by simp)

end Ends

/-! ### The two edits -/

theorem not_isPossible_of_unread {e : EditError}
    (hline : bufferLine lines index = .error e) (line : Text) (width : Nat) :
    ¬ IsPossible lines index tabWidth line width :=
  fun h => absurd (hline.symm.trans h.line) (by simp)

/-- There is room to indent a line as far as is estimated. -/
def HasRoomToIndent [Platform] (lines : Buffer) (index : Int) (line : Text) (width : Nat) : Prop :=
  ∃ columns, estimateIndent (.upTo (.buffer lines) index) line (.int width) = .ok columns ∧
    columns < roomLimit

theorem ends_applyIndent [Platform] (lines : Buffer) (index : Int) (tabWidth : Value) :
    Ends lines index tabWidth (HasRoomToIndent lines index)
      ((applyIndent index tabWidth).run.run lines) := by
  cases hline : bufferLine lines index with
  | error e =>
    rw [run_applyIndent_of_unread hline]
    exact .refused (not_isPossible_of_unread hline) (isLackOfRoom_bufferLine hline)
  | ok line =>
    obtain ⟨hindex, place, hplace, hget⟩ := bufferLine_iff.mp hline
    rw [run_applyIndent_at hline hplace]
    rcases checkTabWidth_cases tabWidth with ⟨width, hpos, rfl, -⟩ | ⟨hnot, hcheck⟩
    · have hestimate := estimateIndent_eq (History.reads_upTo_index lines hindex) hpos line
      have hpossible : IsPossible lines index (.int width) line width := ⟨hline, hpos, rfl⟩
      rw [hestimate]
      dsimp only
      rcases Text.indentedBy_cases (estimateBelow width (lines.take index.toNat) line) line with
        ⟨hroom, h⟩ | ⟨hwide, cause, h⟩
      · rw [h]
        exact .returned hpossible ⟨_, hestimate, hroom⟩
      · rw [h]
        refine .crowded hpossible ?_ rfl
        rintro ⟨columns, hcolumns, hroom⟩
        obtain rfl := Except.ok.inj (hestimate.symm.trans hcolumns)
        exact Nat.not_lt_of_le hwide hroom
    · have hestimate : estimateIndent (.upTo (.buffer lines) index) line tabWidth =
          .error (.badTabWidth tabWidth) := by
        rw [estimateIndent, hcheck]
        rfl
      rw [hestimate]
      exact .refused (fun line width h => hnot width h.pos h.tabWidth) rfl

theorem keeps_applyIndent [Platform] {e : EditError}
    (he : ((applyIndent index tabWidth).run.run lines).1 = .error e) :
    ((applyIndent index tabWidth).run.run lines).2 = lines := by
  cases hline : bufferLine lines index with
  | error e => rw [run_applyIndent_of_unread hline]
  | ok line =>
    obtain ⟨-, place, hplace, hget⟩ := bufferLine_iff.mp hline
    obtain ⟨hlt, hsame⟩ := List.getElem?_eq_some_iff.mp hget
    rw [run_applyIndent_at hline hplace] at he ⊢
    cases hestimate : estimateIndent (.upTo (.buffer lines) index) line tabWidth with
    | error e => rfl
    | ok columns =>
      rw [hestimate] at he
      dsimp only at he ⊢
      rcases Text.indentedBy_cases columns line with ⟨-, h⟩ | ⟨-, cause, h⟩
      · rw [h] at he
        exact absurd he (by simp)
      · rw [h, ← hsame, List.set_getElem_self]

theorem planNext_natCast (hpos : 0 < width) (line : Text) (column : Int) :
    planNext line column (.int width) =
      .ok (continuation width (line.indentation width) (line.cutOff column)) := by
  rw [planNext, Text.measure_natCast hpos, checkTabWidth_natCast hpos]
  rfl

theorem exists_planNext_eq_error (hnot : ∀ width : Nat, 0 < width → tabWidth ≠ .int width)
    (line : Text) (column : Int) :
    ∃ e, planNext line column tabWidth = .error e ∧ e.isLackOfRoom = false := by
  unfold planNext
  cases hmeasure : line.measure tabWidth with
  | error e => exact ⟨e, rfl, Text.isLackOfRoom_measureFrom hmeasure⟩
  | ok measured =>
    rcases checkTabWidth_cases tabWidth with ⟨width, hpos, heq, -⟩ | ⟨-, hcheck⟩
    · exact absurd heq (hnot width hpos)
    · rw [hcheck]
      exact ⟨_, rfl, rfl⟩

theorem ends_splitLine [Platform] (lines : Buffer) (index column : Int) (tabWidth : Value) :
    Ends lines index tabWidth
      (fun line width => line.indentation width / width * width < roomLimit ∧
        isIndex (index + 1) = true)
      ((splitLine index column tabWidth).run.run lines) := by
  cases hline : bufferLine lines index with
  | error e =>
    rw [run_splitLine_of_unread hline]
    exact .refused (not_isPossible_of_unread hline) (isLackOfRoom_bufferLine hline)
  | ok line =>
    obtain ⟨-, place, hplace, -⟩ := bufferLine_iff.mp hline
    have hrun := run_splitLine_at hline hplace column tabWidth
    rcases checkTabWidth_cases tabWidth with ⟨width, hpos, rfl, -⟩ | ⟨hnot, -⟩
    · have hpossible : IsPossible lines index (.int width) line width := ⟨hline, hpos, rfl⟩
      rw [planNext_natCast hpos] at hrun
      rcases hrun with ⟨e, hplan, -⟩ | ⟨next, hplan, ⟨hroom, e, he, hrun⟩ | ⟨hroom, hrun⟩⟩
      · exact absurd hplan (by simp)
      · obtain rfl := Except.ok.inj hplan
        rw [hrun]
        exact .crowded hpossible hroom he
      · obtain rfl := Except.ok.inj hplan
        rw [hrun]
        exact .returned hpossible hroom
    · obtain ⟨e, hplan, he⟩ := exists_planNext_eq_error hnot line column
      rw [hplan] at hrun
      rcases hrun with ⟨e', heq, hrun⟩ | ⟨next, hnext, -⟩
      · obtain rfl := Except.error.inj heq
        rw [hrun]
        exact .refused (fun line width h => hnot width h.pos h.tabWidth) he
      · exact absurd hnext (by simp)

end Edit

open Edit

/-- **An edit that is refused keeps the buffer.**  It returns if its line is there, the value given
is a tab width and there is room for what it makes.  If room alone is missing it fails for that; if
anything else is missing it is refused, and no line has changed.  An edit that indents a line keeps
the buffer in either case. -/
theorem refused_edits_keep_buffer [Platform] (lines : Buffer) (index column : Int) (tabWidth : Value) :
    let indented := (applyIndent index tabWidth).run.run lines
    let broken := (splitLine index column tabWidth).run.run lines
    (∀ e, indented.1 = .error e → indented.2 = lines) ∧
    (∀ e, broken.1 = .error e → e.isLackOfRoom = false → broken.2 = lines) ∧
    ((∃ columns, indented.1 = .ok columns) ↔ ∃ line width,
      IsPossible lines index tabWidth line width ∧ HasRoomToIndent lines index line width) ∧
    ((∃ e, indented.1 = .error e ∧ e.isLackOfRoom = true) ↔ ∃ line width,
      IsPossible lines index tabWidth line width ∧ ¬ HasRoomToIndent lines index line width) ∧
    ((∃ next, broken.1 = .ok next) ↔ ∃ line width,
      IsPossible lines index tabWidth line width ∧
        line.indentation width / width * width < roomLimit ∧ isIndex (index + 1) = true) ∧
    ((∃ e, broken.1 = .error e ∧ e.isLackOfRoom = true) ↔ ∃ line width,
      IsPossible lines index tabWidth line width ∧
        ¬ (line.indentation width / width * width < roomLimit ∧ isIndex (index + 1) = true)) ∧
    ((∃ line width, IsPossible lines index tabWidth line width) ↔
      (isIndex index = true ∧ -(lines.length : Int) ≤ index ∧ index < lines.length) ∧
        ∃ width : Nat, 0 < width ∧ tabWidth = .int width) := by
  intro indented broken
  have hindented := ends_applyIndent lines index tabWidth
  have hbroken := ends_splitLine lines index column tabWidth
  refine ⟨?_, ?_, hindented.returns_iff, hindented.crowded_iff, hbroken.returns_iff,
    hbroken.crowded_iff, exists_isPossible_iff⟩
  · intro e he
    exact keeps_applyIndent he
  · intro e he hother
    exact hbroken.keeps he hother

open Platform.Usual in
/-- A truth value measures a tab but is no tab width; the last line can be named from the end. -/
theorem refused_edits_keep_buffer_bool :
    let lines : Buffer := [['x'], "\tab".toList]
    let refused := (splitLine (-1) 2 (.bool true)).run.run lines
    (refused.1 = .error (.badTabWidth (.bool true)) ∧ refused.2 = lines) ∧
      ∃ columns, ((applyIndent (-1) (.int 3)).run.run lines).1 = .ok columns := by
  intro lines refused
  have herror : refused.1 = .error (.badTabWidth (.bool true)) := rfl
  refine ⟨⟨herror, ?_⟩, ?_⟩
  · exact (refused_edits_keep_buffer lines (-1) 2 (.bool true)).2.1 _ herror rfl
  · apply (refused_edits_keep_buffer lines (-1) 0 (.int 3)).2.2.1.mpr
    exact ⟨"\tab".toList, 3, ⟨rfl, by decide, rfl⟩, 0, rfl, by decide⟩

open Platform.Usual in
/-- A line that is there cannot be edited with every tab width: neither edit has room for this
one. -/
theorem possible_edits_without_room :
    let lines : Buffer := ["\ta".toList, "\tb".toList]
    IsPossible lines 1 (.int (Nat.pow 2 70)) "\tb".toList (Nat.pow 2 70) ∧
      (¬ ∃ columns, ((applyIndent 1 (.int (Nat.pow 2 70))).run.run lines).1 = .ok columns) ∧
      ¬ ∃ next, ((splitLine 1 1 (.int (Nat.pow 2 70))).run.run lines).1 = .ok next := by
  intro lines
  have hpossible : IsPossible lines 1 (.int (Nat.pow 2 70)) "\tb".toList (Nat.pow 2 70) :=
    ⟨rfl, by decide, rfl⟩
  have hindex : isIndex 1 = true := by decide
  have hestimate :=
    estimateIndent_eq (History.reads_upTo_index lines hindex) hpossible.pos "\tb".toList
  refine ⟨hpossible, ?_, ?_⟩
  · rw [(ends_applyIndent lines 1 (.int (Nat.pow 2 70))).returns_iff]
    rintro ⟨line, width, h, columns, hcolumns, hroom⟩
    obtain ⟨rfl, rfl⟩ := hpossible.unique h
    obtain rfl := Except.ok.inj (hestimate.symm.trans hcolumns)
    exact absurd hroom (by decide +kernel)
  · rw [(ends_splitLine lines 1 1 (.int (Nat.pow 2 70))).returns_iff]
    rintro ⟨line, width, h, hroom, -⟩
    obtain ⟨rfl, rfl⟩ := hpossible.unique h
    exact absurd hroom (by decide +kernel)

end IoSource
