import IoSource.Indent.Edit
import IoSource.Proofs.Indent.Estimate
import IoSource.Proofs.Run

/-!
# What an edit does

An edit of a line that is there reads that line, and does one of a few things to the buffer
(`run_applyIndent_at`, `run_splitLine_at`).  Giving a line its indentation changes the buffer last, so
it fails with the buffer as it was.  Breaking a line cuts it first; if then the next line is too
large, the cut stays and what was behind it is gone.

Both are said of any index first.  `run_applyIndent` and `run_splitLine` are about lines that are
counted from the start.
-/

namespace IoSource

def Text.cutOff (column : Int) (line : Text) : Text := line.take (cutIn line.length column)

def Text.leftOver (column : Int) (line : Text) : Text := line.drop (cutIn line.length column)

/-- What it gives to indent a line by some columns, and the line that is left. -/
def Text.indentedBy [Platform] (width : Nat) (line : Text) : Except EditError Nat × Text :=
  match Text.spaces width with
  | .ok spaces => (.ok width, spaces ++ line.dropWhile isBlank)
  | .error cause => (.error (.spaces cause), line)

/-- **A line is indented** if there is room for the spaces, and left as it is if not. -/
theorem Text.indentedBy_cases [Platform] (width : Nat) (line : Text) :
    (width < roomLimit ∧
      line.indentedBy width = (.ok width, List.replicate width ' ' ++ line.dropWhile isBlank)) ∨
    (roomLimit ≤ width ∧ ∃ cause, line.indentedBy width = (.error (.spaces cause), line)) := by
  unfold Text.indentedBy
  rcases Text.spaces_cases width with ⟨hroom, h⟩ | ⟨hwide, cause, h⟩
  · rw [h]
    exact Or.inl ⟨(hasRoomFor_natCast width).mp hroom, rfl⟩
  · rw [hasRoomFor_natCast, Nat.not_lt] at hwide
    rw [h]
    exact Or.inr ⟨hwide, cause, rfl⟩

/-- Whether an edit has found no room for a line, or no place. -/
def EditError.isLackOfRoom : EditError → Bool
  | .placeTooLarge | .spaces _ => true
  | _ => false

namespace Buffer

def indented (lines : Buffer) (index : Nat) (line : Text) (width : Nat) : Buffer :=
  lines.set index (List.replicate width ' ' ++ line.dropWhile isBlank)

/-- A line cut at a column. -/
def cut (lines : Buffer) (index : Nat) (column : Int) (line : Text) : Buffer :=
  lines.set index (Text.dropEndWhile isBlank (line.cutOff column))

def opened (lines : Buffer) (index : Int) (line : Text) : Buffer :=
  lines.take (cutIn lines.length index) ++ line :: lines.drop (cutIn lines.length index)

/-- A line cut at a column, and the rest of it behind the start of the next one. -/
def broken (lines : Buffer) (index : Nat) (column : Int) (line : Text) (next : Continuation) :
    Buffer :=
  lines.take index ++ Text.dropEndWhile isBlank (line.cutOff column) ::
    (List.replicate next.indent ' ' ++
      (next.opening ++ (line.leftOver column).dropWhile isBlank)) :: lines.drop (index + 1)

end Buffer

variable {lines : Buffer} {index : Nat} {column : Int} {line : Text} {tabWidth : Value}

namespace Edit

/-- What a break reads before it changes the buffer: the line, and how the next one is to start. -/
def planBreak (lines : Buffer) (index : Nat) (column : Int) (tabWidth : Value) :
    Except EditError (Text × Continuation) := do
  let line ← bufferLine lines index
  let _ ← line.measure tabWidth
  let width ← checkTabWidth tabWidth
  return (line, continuation width (line.indentation width) (line.cutOff column))

/-- A line can be indented as far as the next one, and put behind this one. -/
def HasRoom [Platform] (index : Nat) (next : Continuation) : Prop :=
  next.indent < roomLimit ∧ index < maxIndex

theorem getElem?_of_planBreak {next : Continuation}
    (h : planBreak lines index column tabWidth = .ok (line, next)) :
    lines[index]? = some line ∧
      ∃ width indent, next = continuation width indent (line.cutOff column) := by
  cases hline : bufferLine lines index with
  | error e => simp [planBreak, hline, bind, Except.bind] at h
  | ok found =>
    cases hmeasure : found.measure tabWidth with
    | error e => simp [planBreak, hline, hmeasure, bind, Except.bind] at h
    | ok measured =>
      cases hwidth : checkTabWidth tabWidth with
      | error e => simp [planBreak, hline, hmeasure, hwidth, bind, Except.bind] at h
      | ok width =>
        simp only [planBreak, hline, hmeasure, hwidth, bind, Except.bind, pure, Except.pure] at h
        obtain ⟨rfl, rfl⟩ := Prod.mk.inj (Except.ok.inj h)
        exact ⟨(bufferLine_eq_ok_iff.mp hline).2, width, _, rfl⟩

def planNext (line : Text) (column : Int) (tabWidth : Value) : Except EditError Continuation := do
  let _ ← line.measure tabWidth
  let width ← checkTabWidth tabWidth
  return continuation width (line.indentation width) (line.cutOff column)

theorem planBreak_of_line (hline : bufferLine lines index = .ok line) (column : Int)
    (tabWidth : Value) :
    planBreak lines index column tabWidth = (planNext line column tabWidth).map (line, ·) := by
  rw [planBreak, hline]
  cases hmeasure : line.measure tabWidth with
  | error e => simp [planNext, hmeasure, bind, Except.bind, Except.map]
  | ok measured =>
    cases hwidth : checkTabWidth tabWidth with
    | error e => simp [planNext, hmeasure, hwidth, bind, Except.bind, Except.map]
    | ok width => simp [planNext, hmeasure, hwidth, bind, Except.bind, Except.map, pure, Except.pure]

theorem run_ofExcept {α : Type} (result : Except EditError α) (lines : Buffer) :
    (ofExcept result).run.run lines = (result, lines) := by
  cases result with
  | ok x => rfl
  | error e => rfl

theorem run_discard {α : Type} (result : Except EditError α) (lines : Buffer) :
    (discard (ofExcept result)).run.run lines = (result.map fun _ => (), lines) := by
  cases result with
  | ok x => rfl
  | error e => rfl

theorem run_get (lines : Buffer) : (get : Edit Buffer).run.run lines = (.ok lines, lines) := rfl

-- `run_bind` would have inserting a line evaluated, and its test of the index goes too deep
theorem run_bind_pure {α β : Type} {program : Edit α} {result : Except EditError α}
    {lines lines' : Buffer} (h : program.run.run lines = (result, lines')) (f : α → β) :
    (program >>= fun x => pure (f x) : Edit β).run.run lines = (result.map f, lines') := by
  rw [run_bind, h]
  cases result with
  | ok x => rfl
  | error e => rfl

theorem run_lineAt (index : Int) (lines : Buffer) :
    (lineAt index).run.run lines = (bufferLine lines index, lines) :=
  run_ofExcept _ lines

theorem run_replaceLine {index : Int} {place : Nat} (hindex : isIndex index = true)
    (hplace : indexIn? lines.length index = some place) (line : Text) :
    (replaceLine index line).run.run lines = (.ok (), lines.set place line) := by
  have hplaceOf : (placeOf index).run.run lines = (.ok place, lines) := by
    unfold placeOf
    rw [hindex]
    dsimp only
    rw [if_neg (by decide), run_bind, run_get]
    dsimp only
    rw [hplace]
    rfl
  unfold replaceLine
  rw [run_bind, hplaceOf]
  rfl

theorem run_insertLine (index : Int) (line : Text) (lines : Buffer) :
    (isIndex index = false ∧
      (insertLine index line).run.run lines = (.error .placeTooLarge, lines)) ∨
    (isIndex index = true ∧
      (insertLine index line).run.run lines = (.ok (), lines.opened index line)) := by
  unfold insertLine
  cases isIndex index with
  | false => exact Or.inl ⟨rfl, rfl⟩
  | true => exact Or.inr ⟨rfl, rfl⟩

theorem take_set_succ (hlt : index < lines.length) (line : Text) :
    (lines.set index line).take (index + 1) = lines.take index ++ [line] := by
  have hlength : (lines.take index).length = index := List.length_take_of_le (Nat.le_of_lt hlt)
  rw [List.set_eq_take_append_cons_drop, if_pos hlt, List.take_append, hlength,
    List.take_of_length_le (by omega), Nat.add_sub_cancel_left, List.take_succ_cons, List.take_zero]

theorem opened_cut (hlt : index < lines.length) (column : Int) (line : Text)
    (next : Continuation) :
    (lines.cut index column line).opened (index + 1) (List.replicate next.indent ' ' ++
      (next.opening ++ (line.leftOver column).dropWhile isBlank)) =
        lines.broken index column line next := by
  have hplace : cutIn (lines.cut index column line).length (index + 1) = index + 1 := by
    unfold cutIn
    rw [if_pos (by omega), Buffer.cut, List.length_set]
    omega
  rw [Buffer.opened, hplace, Buffer.cut, take_set_succ hlt,
    List.drop_set_of_lt (Nat.lt_succ_self index), List.append_assoc, List.singleton_append]
  rfl

variable [Platform]

theorem run_spaces (width : Nat) (lines : Buffer) :
    (roomLimit ≤ width ∧ ∃ cause, (spaces width).run.run lines = (.error (.spaces cause), lines)) ∨
      (width < roomLimit ∧
        (spaces width).run.run lines = (.ok (List.replicate width ' '), lines)) := by
  unfold spaces
  rw [run_ofExcept]
  rcases Text.spaces_cases width with ⟨hroom, h⟩ | ⟨hwide, cause, h⟩
  · rw [hasRoomFor_natCast] at hroom
    rw [h]
    exact Or.inr ⟨hroom, rfl⟩
  · rw [hasRoomFor_natCast, Nat.not_lt] at hwide
    rw [h]
    exact Or.inl ⟨hwide, cause, rfl⟩

/-- **Giving a line its indentation** changes that line alone, and only at the end. -/
theorem run_applyIndent_at {index : Int} {place : Nat}
    (hline : bufferLine lines index = .ok line)
    (hplace : indexIn? lines.length index = some place) :
    (applyIndent index tabWidth).run.run lines =
      match estimateIndent (.upTo (.buffer lines) index) line tabWidth with
      | .ok width => ((line.indentedBy width).1, lines.set place (line.indentedBy width).2)
      | .error e => (.error e, lines) := by
  obtain ⟨hindex, place', hplace', hget⟩ := bufferLine_iff.mp hline
  obtain rfl : place' = place := Option.some.inj (hplace'.symm.trans hplace)
  obtain ⟨hlt, hline'⟩ := List.getElem?_eq_some_iff.mp hget
  unfold applyIndent
  rw [run_bind, run_lineAt, hline]
  dsimp only
  rw [run_bind, run_get]
  dsimp only
  rw [run_bind, run_ofExcept]
  cases estimateIndent (.upTo (.buffer lines) index) line tabWidth with
  | error e => rfl
  | ok width =>
    dsimp only
    rw [run_bind, spaces, run_ofExcept, Text.indentedBy]
    cases Text.spaces width with
    | error cause =>
      show (Except.error (EditError.spaces cause), lines) = _
      rw [← hline', List.set_getElem_self]
    | ok columns =>
      dsimp only [Except.mapError]
      rw [run_bind, run_replaceLine hindex hplace]
      rfl

theorem run_applyIndent_of_estimate (hline : bufferLine lines index = .ok line)
    {width : Nat}
    (hestimate : estimateIndent (.upTo (.buffer lines) index) line tabWidth = .ok width) :
    (applyIndent index tabWidth).run.run lines =
      ((line.indentedBy width).1, lines.set index (line.indentedBy width).2) := by
  obtain ⟨-, hget⟩ := bufferLine_eq_ok_iff.mp hline
  obtain ⟨hlt, -⟩ := List.getElem?_eq_some_iff.mp hget
  rw [run_applyIndent_at hline (indexIn?_natCast hlt), hestimate]

theorem run_applyIndent_of_unread {index : Int} {e : EditError}
    (hline : bufferLine lines index = .error e) (tabWidth : Value) :
    (applyIndent index tabWidth).run.run lines = (.error e, lines) := by
  unfold applyIndent
  rw [run_bind, run_lineAt, hline]

theorem run_applyIndent (index : Nat) (tabWidth : Value) (lines : Buffer) :
    (∃ e, (applyIndent index tabWidth).run.run lines = (.error e, lines)) ∨
      ∃ line width, lines[index]? = some line ∧
        (applyIndent index tabWidth).run.run lines =
          (.ok width, lines.indented index line width) := by
  cases hline : bufferLine lines index with
  | error e => exact Or.inl ⟨e, run_applyIndent_of_unread hline tabWidth⟩
  | ok line =>
    obtain ⟨-, hget⟩ := bufferLine_eq_ok_iff.mp hline
    obtain ⟨hlt, hsame⟩ := List.getElem?_eq_some_iff.mp hget
    rw [run_applyIndent_at hline (indexIn?_natCast hlt)]
    cases estimateIndent (.upTo (.buffer lines) index) line tabWidth with
    | error e => exact Or.inl ⟨e, rfl⟩
    | ok width =>
      dsimp only
      rcases Text.indentedBy_cases width line with ⟨-, h⟩ | ⟨-, cause, h⟩
      · rw [h]
        exact Or.inr ⟨line, width, hget, rfl⟩
      · rw [h, ← hsame, List.set_getElem_self]
        exact Or.inl ⟨_, rfl⟩

/-- The next line can be indented as far as it is to be, and put behind an index. -/
def HasRoomBehind (index : Int) (next : Continuation) : Prop :=
  next.indent < roomLimit ∧ isIndex (index + 1) = true

theorem hasRoomBehind_natCast (index : Nat) (next : Continuation) :
    HasRoomBehind index next ↔ HasRoom index next := by
  have hindex := isIndex_natCast (index + 1)
  rw [Int.natCast_add, Int.natCast_one, Nat.succ_le_iff] at hindex
  exact and_congr_right fun _ => hindex

def openNext (index : Int) (next : Continuation) (rest : Text) : Edit Continuation := do
  insertLine (index + 1) ((← spaces next.indent) ++ (next.opening ++ rest))
  return next

/-- Opening the next line fails for want of room alone. -/
theorem run_openNext (index : Int) (next : Continuation) (rest : Text) (lines : Buffer) :
    (¬ HasRoomBehind index next ∧ ∃ e, e.isLackOfRoom = true ∧
      (openNext index next rest).run.run lines = (.error e, lines)) ∨
    (HasRoomBehind index next ∧ (openNext index next rest).run.run lines = (.ok next,
      lines.opened (index + 1) (List.replicate next.indent ' ' ++ (next.opening ++ rest)))) := by
  have hprogram : (openNext index next rest).run.run lines = _ :=
    run_bind (spaces next.indent) _ lines
  rcases run_spaces next.indent lines with ⟨hwide, cause, hspaces⟩ | ⟨hroom, hspaces⟩
  · rw [hspaces] at hprogram
    exact Or.inl ⟨fun h => absurd h.1 (Nat.not_lt_of_le hwide), _, rfl, hprogram⟩
  · rw [hspaces] at hprogram
    rw [hprogram]
    dsimp only
    rcases run_insertLine (index + 1) _ lines with ⟨hplace, hinsert⟩ | ⟨hplace, hinsert⟩
    · refine Or.inl ⟨fun h => ?_, .placeTooLarge, rfl, run_bind_pure hinsert fun _ => next⟩
      exact absurd (hplace.symm.trans h.2) (by decide)
    · exact Or.inr ⟨⟨hroom, hplace⟩, run_bind_pure hinsert fun _ => next⟩

theorem run_splitLine_of_unread {index : Int} {e : EditError}
    (hline : bufferLine lines index = .error e) (column : Int) (tabWidth : Value) :
    (splitLine index column tabWidth).run.run lines = (.error e, lines) := by
  unfold splitLine
  rw [run_bind, run_lineAt, hline]

/-- **Breaking a line** changes nothing if its plan fails.  Otherwise it cuts the line, and then opens
the next one. -/
theorem run_splitLine_plan {index : Int} {place : Nat}
    (hline : bufferLine lines index = .ok line)
    (hplace : indexIn? lines.length index = some place) (column : Int) (tabWidth : Value) :
    (splitLine index column tabWidth).run.run lines =
      match planNext line column tabWidth with
      | .ok next => (openNext index next ((line.leftOver column).dropWhile isBlank)).run.run
          (lines.cut place column line)
      | .error e => (.error e, lines) := by
  obtain ⟨hindex, -⟩ := bufferLine_iff.mp hline
  unfold splitLine
  rw [run_bind, run_lineAt, hline]
  dsimp only
  rw [run_bind, run_discard]
  cases hmeasure : line.measure tabWidth with
  | error e =>
    have hplan : planNext line column tabWidth = .error e := by
      simp [planNext, hmeasure, bind, Except.bind]
    rw [hplan]
    rfl
  | ok measured =>
    dsimp only [Except.map]
    rw [run_bind, run_ofExcept]
    cases hwidth : checkTabWidth tabWidth with
    | error e =>
      have hplan : planNext line column tabWidth = .error e := by
        simp [planNext, hmeasure, hwidth, bind, Except.bind]
      rw [hplan]
    | ok width =>
      have hplan : planNext line column tabWidth =
          .ok (continuation width (line.indentation width) (line.cutOff column)) := by
        simp [planNext, hmeasure, hwidth, bind, Except.bind, pure, Except.pure]
      rw [hplan]
      dsimp only
      rw [run_bind, run_replaceLine hindex hplace]
      rfl

/-- A break fails with its plan, or for want of room with the line cut. -/
theorem run_splitLine_at {index : Int} {place : Nat}
    (hline : bufferLine lines index = .ok line)
    (hplace : indexIn? lines.length index = some place) (column : Int) (tabWidth : Value) :
    (∃ e, planNext line column tabWidth = .error e ∧
      (splitLine index column tabWidth).run.run lines = (.error e, lines)) ∨
    ∃ next, planNext line column tabWidth = .ok next ∧
      ((¬ HasRoomBehind index next ∧ ∃ e, e.isLackOfRoom = true ∧
        (splitLine index column tabWidth).run.run lines =
          (.error e, lines.cut place column line)) ∨
      (HasRoomBehind index next ∧ (splitLine index column tabWidth).run.run lines =
        (.ok next, (lines.cut place column line).opened (index + 1)
          (List.replicate next.indent ' ' ++
            (next.opening ++ (line.leftOver column).dropWhile isBlank))))) := by
  rw [run_splitLine_plan hline hplace]
  cases planNext line column tabWidth with
  | error e => exact Or.inl ⟨e, rfl, rfl⟩
  | ok next => exact Or.inr ⟨next, rfl, run_openNext index next _ _⟩

theorem run_splitLine (index : Nat) (column : Int) (tabWidth : Value) (lines : Buffer) :
    (∃ e, planBreak lines index column tabWidth = .error e ∧
      (splitLine index column tabWidth).run.run lines = (.error e, lines)) ∨
    ∃ line next, planBreak lines index column tabWidth = .ok (line, next) ∧
      ((¬ HasRoom index next ∧ ∃ e, (splitLine index column tabWidth).run.run lines =
        (.error e, lines.cut index column line)) ∨
      (HasRoom index next ∧ (splitLine index column tabWidth).run.run lines =
        (.ok next, lines.broken index column line next))) := by
  cases hline : bufferLine lines index with
  | error e =>
    have hplan : planBreak lines index column tabWidth = .error e := by
      simp [planBreak, hline, bind, Except.bind]
    exact Or.inl ⟨e, hplan, run_splitLine_of_unread hline column tabWidth⟩
  | ok line =>
    obtain ⟨-, hget⟩ := bufferLine_eq_ok_iff.mp hline
    obtain ⟨hlt, -⟩ := List.getElem?_eq_some_iff.mp hget
    rw [planBreak_of_line hline]
    rcases run_splitLine_at hline (indexIn?_natCast hlt) column tabWidth with
      ⟨e, hnext, hrun⟩ | ⟨next, hnext, ⟨hroom, e, -, hrun⟩ | ⟨hroom, hrun⟩⟩
    · exact Or.inl ⟨e, by rw [hnext]; rfl, hrun⟩
    · rw [hasRoomBehind_natCast] at hroom
      exact Or.inr ⟨line, next, by rw [hnext]; rfl, Or.inl ⟨hroom, e, hrun⟩⟩
    · rw [hasRoomBehind_natCast] at hroom
      rw [opened_cut hlt] at hrun
      exact Or.inr ⟨line, next, by rw [hnext]; rfl, Or.inr ⟨hroom, hrun⟩⟩

end Edit

end IoSource
