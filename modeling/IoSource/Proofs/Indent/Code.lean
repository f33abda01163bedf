import IoSource.Proofs.Indent.Edit
import IoSource.Proofs.Text.Strip

/-!
# Editing keeps the code

The code of a buffer is what is left of it without blanks and line ends.  Giving a line its
indentation changes blanks only, and breaking a line puts the markers of the next line at the cut.
Only a break that fails with the line cut loses code, that behind the cut
(`EditCall.keepsCode_iff`).
-/

namespace IoSource

def Text.code (t : Text) : Text := t.filter fun c => !isBlank c

def Buffer.code (lines : Buffer) : Text := lines.flatMap Text.code

def Continuation.markers (next : Continuation) : Text := next.opening.code

/-! ### Code -/

namespace Text

theorem code_append (s t : Text) : code (s ++ t) = s.code ++ t.code := List.filter_append ..

theorem code_of_blank {t : Text} (h : ∀ c ∈ t, isBlank c = true) : t.code = [] := by
  unfold code
  rw [List.filter_eq_nil_iff]
  intro c hc
  simp [h c hc]

theorem code_spaces (n : Nat) : code (List.replicate n ' ') = [] :=
  code_of_blank isBlank_of_mem_replicate

theorem code_dropWhile (t : Text) : code (t.dropWhile isBlank) = t.code := by
  have hblank : code (t.takeWhile isBlank) = [] :=
    code_of_blank fun c hc => List.mem_takeWhile_imp hc
  have hsplit := congrArg code (List.takeWhile_append_dropWhile (p := isBlank) (l := t))
  rwa [code_append, hblank, List.nil_append] at hsplit

theorem code_dropEndWhile (t : Text) : code (dropEndWhile isBlank t) = t.code := by
  obtain ⟨run, hrun, hsplit⟩ := exists_dropEndWhile_append isBlank t
  have hsplit := congrArg code hsplit
  rwa [code_append, code_of_blank hrun, List.append_nil] at hsplit

theorem code_cutOff_append (column : Int) (line : Text) :
    (line.cutOff column).code ++ (line.leftOver column).code = line.code := by
  rw [← code_append, cutOff, leftOver, List.take_append_drop]

end Text

namespace Buffer

variable {lines : Buffer} {index : Nat} {line : Text}

theorem code_append (lines lines' : Buffer) :
    code (lines ++ lines' : List Text) = lines.code ++ lines'.code :=
  List.flatMap_append ..

theorem code_cons (line : Text) (lines : Buffer) :
    code (line :: lines : List Text) = line.code ++ lines.code := rfl

theorem code_eq (h : lines[index]? = some line) :
    lines.code = code (lines.take index) ++ (line.code ++ code (lines.drop (index + 1))) := by
  obtain ⟨hlt, hget⟩ := List.getElem?_eq_some_iff.mp h
  rw [← hget, ← code_cons, ← code_append, ← List.drop_eq_getElem_cons hlt, List.take_append_drop]

theorem code_set (h : lines[index]? = some line) (line' : Text) :
    code (lines.set index line') =
      code (lines.take index) ++ (line'.code ++ code (lines.drop (index + 1))) := by
  obtain ⟨hlt, -⟩ := List.getElem?_eq_some_iff.mp h
  rw [List.set_eq_take_append_cons_drop, if_pos hlt, code_append, code_cons]

theorem code_indented (h : lines[index]? = some line) (width : Nat) :
    code (lines.indented index line width) = lines.code := by
  rw [indented, code_set h, Text.code_append, Text.code_spaces, Text.code_dropWhile,
    List.nil_append, ← code_eq h]

theorem code_cut (h : lines[index]? = some line) (column : Int) :
    code (lines.cut index column line) =
      code (lines.take index) ++ ((line.cutOff column).code ++ code (lines.drop (index + 1))) := by
  rw [cut, code_set h, Text.code_dropEndWhile]

theorem code_broken (lines : Buffer) (index : Nat) (column : Int) (line : Text)
    (next : Continuation) :
    code (lines.broken index column line next) =
      code (lines.take index) ++ (line.cutOff column).code ++ next.markers ++
        (line.leftOver column).code ++ code (lines.drop (index + 1)) := by
  have hnext : Text.code (List.replicate next.indent ' ' ++
      (next.opening ++ (line.leftOver column).dropWhile isBlank)) =
        next.markers ++ (line.leftOver column).code := by
    rw [Text.code_append, Text.code_spaces, Text.code_append, Text.code_dropWhile]
    rfl
  rw [broken, code_append, code_cons, code_cons, Text.code_dropEndWhile, hnext]
  simp only [List.append_assoc]

theorem length_broken (h : lines[index]? = some line) (column : Int) (next : Continuation) :
    (lines.broken index column line next).length = lines.length + 1 := by
  obtain ⟨hlt, -⟩ := List.getElem?_eq_some_iff.mp h
  rw [broken, List.length_append, List.length_cons, List.length_cons, List.length_drop,
    List.length_take]
  omega

end Buffer

theorem Comment.code_leadingMarkers (t : Text) : (leadingMarkers t).code = leadingMarkers t := by
  fun_induction leadingMarkers t with
  | case1 rest ih => exact congrArg (List.cons '#') ih
  | case2 rest ih => exact congrArg (fun s => '/' :: '/' :: s) ih
  | case3 => rfl

open Text in
theorem continuation_opening (width indent : Nat) (line : Text) :
    let next := continuation width indent line
    next.opening = next.markers ∨ next.opening = next.markers ++ [' '] := by
  intro next
  show (Comment.opening? line).getD [] = code ((Comment.opening? line).getD []) ∨
    (Comment.opening? line).getD [] = code ((Comment.opening? line).getD []) ++ [' ']
  unfold Comment.opening?
  dsimp only
  have hmarkers := Comment.code_leadingMarkers (line.dropWhile isBlank)
  split
  · exact Or.inl rfl
  · rw [Option.getD_some, Text.code_append, hmarkers]
    split
    · exact Or.inr (by simp [Text.code, isBlank])
    · exact Or.inl (by simp [Text.code])

/-! ### Calls -/

/-- An edit of a line that is counted from the start. -/
inductive EditCall
  | applyIndent (index : Nat) (tabWidth : Value)
  | splitLine (index : Nat) (column : Int) (tabWidth : Value)

namespace EditCall

variable [Platform]

/-- Only a break returns how the next line starts. -/
def run : EditCall → Edit (Option Continuation)
  | applyIndent index tabWidth => do
    let _ ← Edit.applyIndent index tabWidth
    return none
  | splitLine index column tabWidth => do
    return some (← Edit.splitLine index column tabWidth)

/-- A call leaves the number of the lines and their code as they are, but for a break that returns,
which adds one line, and the markers at the cut. -/
def KeepsCode (call : EditCall) (lines : Buffer) : Prop :=
  match call, call.run.run.run lines with
  | splitLine index column _, (.ok (some next), lines') =>
    lines'.length = lines.length + 1 ∧
    (next.opening = next.markers ∨ next.opening = next.markers ++ [' ']) ∧
    ∃ line, lines[index]? = some line ∧
      lines.code = Buffer.code (lines.take index) ++ (line.cutOff column).code ++
        (line.leftOver column).code ++ Buffer.code (lines.drop (index + 1)) ∧
      lines'.code = Buffer.code (lines.take index) ++ (line.cutOff column).code ++
        next.markers ++ (line.leftOver column).code ++ Buffer.code (lines.drop (index + 1))
  | _, (_, lines') => lines'.length = lines.length ∧ lines'.code = lines.code

/-- A break cuts a line with code behind the cut, and has no room for the next line. -/
def LosesCode (call : EditCall) (lines : Buffer) : Prop :=
  match call with
  | applyIndent _ _ => False
  | splitLine index column tabWidth =>
    ∃ line next, Edit.planBreak lines index column tabWidth = .ok (line, next) ∧
      ¬ Edit.HasRoom index next ∧ (line.leftOver column).code ≠ []

theorem run_applyIndent (index : Nat) (tabWidth : Value) (lines : Buffer) :
    (∃ e, (applyIndent index tabWidth).run.run.run lines = (.error e, lines)) ∨
      ∃ line width, lines[index]? = some line ∧
        (applyIndent index tabWidth).run.run.run lines =
          (.ok none, lines.indented index line width) := by
  rcases Edit.run_applyIndent index tabWidth lines with ⟨e, h⟩ | ⟨line, width, hget, h⟩
  · exact Or.inl ⟨e, Edit.run_bind_pure h fun _ => none⟩
  · exact Or.inr ⟨line, width, hget, Edit.run_bind_pure h fun _ => none⟩

theorem keepsCode_applyIndent (index : Nat) (tabWidth : Value) (lines : Buffer) :
    (applyIndent index tabWidth).KeepsCode lines := by
  unfold KeepsCode
  rcases run_applyIndent index tabWidth lines with ⟨e, h⟩ | ⟨line, width, hget, h⟩
  · rw [h]
    exact ⟨rfl, rfl⟩
  · rw [h]
    exact ⟨List.length_set .., Buffer.code_indented hget width⟩

theorem run_splitLine (index : Nat) (column : Int) (tabWidth : Value) (lines : Buffer) :
    (∃ e, Edit.planBreak lines index column tabWidth = .error e ∧
      (splitLine index column tabWidth).run.run.run lines = (.error e, lines)) ∨
    ∃ line next, Edit.planBreak lines index column tabWidth = .ok (line, next) ∧
      ((¬ Edit.HasRoom index next ∧ ∃ e, (splitLine index column tabWidth).run.run.run lines =
        (.error e, lines.cut index column line)) ∨
      (Edit.HasRoom index next ∧ (splitLine index column tabWidth).run.run.run lines =
        (.ok (some next), lines.broken index column line next))) := by
  rcases Edit.run_splitLine index column tabWidth lines with
    ⟨e, hplan, h⟩ | ⟨line, next, hplan, ⟨hroom, e, h⟩ | ⟨hroom, h⟩⟩
  · exact Or.inl ⟨e, hplan, Edit.run_bind_pure h some⟩
  · exact Or.inr ⟨line, next, hplan, Or.inl ⟨hroom, e, Edit.run_bind_pure h some⟩⟩
  · exact Or.inr ⟨line, next, hplan, Or.inr ⟨hroom, Edit.run_bind_pure h some⟩⟩

theorem keepsCode_splitLine_iff (index : Nat) (column : Int) (tabWidth : Value) (lines : Buffer) :
    (splitLine index column tabWidth).KeepsCode lines ↔
      ¬ (splitLine index column tabWidth).LosesCode lines := by
  unfold KeepsCode LosesCode
  rcases run_splitLine index column tabWidth lines with
    ⟨e, hplan, h⟩ | ⟨line, next, hplan, ⟨hroom, e, h⟩ | ⟨hroom, h⟩⟩
  · -- nothing has been changed
    rw [h]
    refine iff_of_true ⟨rfl, rfl⟩ ?_
    rintro ⟨line, next, hplan', -⟩
    rw [hplan] at hplan'
    cases hplan'
  · -- the line has been cut
    obtain ⟨hget, -⟩ := Edit.getElem?_of_planBreak hplan
    rw [h]
    dsimp only
    rw [Buffer.code_cut hget, Buffer.code_eq hget, ← Text.code_cutOff_append column line]
    constructor
    · rintro ⟨-, hcode⟩ ⟨line', next', hplan', -, hrest⟩
      rw [hplan] at hplan'
      cases hplan'
      exact hrest (by simpa using hcode)
    · intro hkept
      refine ⟨List.length_set .., ?_⟩
      have hrest : (line.leftOver column).code = [] := by
        by_contra hrest
        exact hkept ⟨line, next, hplan, hroom, hrest⟩
      rw [hrest, List.append_nil]
  · -- the next line has been opened
    obtain ⟨hget, width, indent, hnext⟩ := Edit.getElem?_of_planBreak hplan
    rw [h]
    dsimp only
    refine iff_of_true ⟨Buffer.length_broken hget column next, ?_, line, hget, ?_, ?_⟩ ?_
    · rw [hnext]
      exact continuation_opening width indent _
    · rw [Buffer.code_eq hget, ← Text.code_cutOff_append column line]
      simp only [List.append_assoc]
    · exact Buffer.code_broken lines index column line next
    · rintro ⟨line', next', hplan', hnoRoom, -⟩
      rw [hplan] at hplan'
      cases hplan'
      exact hnoRoom hroom

theorem LosesCode.toOption_eq_none {call : EditCall} {lines : Buffer} (h : call.LosesCode lines) :
    (call.run.run.run lines).1.toOption = none := by
  cases call with
  | applyIndent index tabWidth => exact h.elim
  | splitLine index column tabWidth =>
    obtain ⟨line, next, hplan, hroom, -⟩ := h
    rcases run_splitLine index column tabWidth lines with
      ⟨e, -, hrun⟩ | ⟨line', next', hplan', ⟨-, e, hrun⟩ | ⟨hroom', -⟩⟩
    · rw [hrun]
      rfl
    · rw [hrun]
      rfl
    · rw [hplan] at hplan'
      cases hplan'
      exact absurd hroom' hroom

/-- **A call keeps the code unless it cuts a line and has no room for the rest.** -/
theorem keepsCode_iff (call : EditCall) (lines : Buffer) :
    call.KeepsCode lines ↔ ¬ call.LosesCode lines := by
  cases call with
  | applyIndent index tabWidth =>
    exact iff_of_true (keepsCode_applyIndent index tabWidth lines) id
  | splitLine index column tabWidth => exact keepsCode_splitLine_iff index column tabWidth lines

end EditCall

/-! ### Runs -/

def continuations (results : List (Except EditError (Option Continuation))) : List Continuation :=
  results.filterMap fun result => result.toOption.join

namespace EditCall

variable [Platform]

theorem length_run (call : EditCall) (lines : Buffer) :
    (call.run.run.run lines).2.length =
      lines.length + (continuations [(call.run.run.run lines).1]).length := by
  cases call with
  | applyIndent index tabWidth =>
    rcases run_applyIndent index tabWidth lines with ⟨e, h⟩ | ⟨line, width, -, h⟩
    · rw [h]
      rfl
    · rw [h]
      exact List.length_set ..
  | splitLine index column tabWidth =>
    rcases run_splitLine index column tabWidth lines with
      ⟨e, -, h⟩ | ⟨line, next, hplan, ⟨-, e, h⟩ | ⟨-, h⟩⟩
    · rw [h]
      rfl
    · rw [h]
      exact List.length_set ..
    · rw [h]
      exact Buffer.length_broken (Edit.getElem?_of_planBreak hplan).1 column next

theorem KeepsCode.grows {call : EditCall} {lines : Buffer} (h : call.KeepsCode lines) :
    lines.code.Sublist (Buffer.code (call.run.run.run lines).2) ∧
      (Buffer.code (call.run.run.run lines).2).length = lines.code.length +
        ((continuations [(call.run.run.run lines).1]).flatMap Continuation.markers).length := by
  unfold KeepsCode at h
  cases call with
  | applyIndent index tabWidth =>
    rcases run_applyIndent index tabWidth lines with ⟨e, hrun⟩ | ⟨line, width, -, hrun⟩
    · rw [hrun]
      exact ⟨List.Sublist.refl _, rfl⟩
    · rw [hrun] at h ⊢
      rw [h.2]
      exact ⟨List.Sublist.refl _, rfl⟩
  | splitLine index column tabWidth =>
    rcases run_splitLine index column tabWidth lines with
      ⟨e, -, hrun⟩ | ⟨line, next, -, ⟨-, e, hrun⟩ | ⟨-, hrun⟩⟩
    · rw [hrun]
      exact ⟨List.Sublist.refl _, rfl⟩
    · rw [hrun] at h ⊢
      rw [h.2]
      exact ⟨List.Sublist.refl _, rfl⟩
    · rw [hrun] at h ⊢
      obtain ⟨-, -, line, -, hbefore, hafter⟩ := h
      rw [hbefore, hafter]
      constructor
      · apply List.Sublist.append_right
        apply List.Sublist.append_right
        exact List.sublist_append_left _ _
      · simp [continuations, Except.toOption]
        omega

end EditCall

theorem continuations_cons (result : Except EditError (Option Continuation))
    (results : List (Except EditError (Option Continuation))) :
    continuations (result :: results) = continuations [result] ++ continuations results := by
  unfold continuations
  rw [← List.singleton_append, List.filterMap_append]

theorem length_runAll [Platform] (calls : List EditCall) (lines : Buffer) :
    (runAll (calls.map EditCall.run) lines).2.length =
      lines.length + (continuations (runAll (calls.map EditCall.run) lines).1).length := by
  induction calls generalizing lines with
  | nil => rfl
  | cons call calls ih =>
    rw [List.map_cons, runAll_cons]
    dsimp only
    rw [ih, EditCall.length_run,
      continuations_cons (call.run.run.run lines).1 (runAll (calls.map EditCall.run) _).1,
      List.length_append, Nat.add_assoc]

theorem code_runAll [Platform] (calls : List EditCall) (lines : Buffer)
    (hkeeps : ∀ earlier call later, calls = earlier ++ call :: later →
      call.KeepsCode (runAll (earlier.map EditCall.run) lines).2) :
    let run := runAll (calls.map EditCall.run) lines
    lines.code.Sublist (Buffer.code run.2) ∧
      (Buffer.code run.2).length = lines.code.length +
        ((continuations run.1).flatMap Continuation.markers).length := by
  induction calls generalizing lines with
  | nil => exact ⟨List.Sublist.refl _, rfl⟩
  | cons call calls ih =>
    intro run
    obtain ⟨hfirst, hfirstLength⟩ := (hkeeps [] call calls rfl).grows
    obtain ⟨hlater, hlaterLength⟩ := ih (call.run.run.run lines).2 (by
      intro earlier call' later hcalls
      rw [hcalls] at hkeeps
      exact hkeeps (call :: earlier) call' later rfl)
    refine ⟨hfirst.trans hlater, ?_⟩
    show (Buffer.code (runAll (calls.map EditCall.run) (call.run.run.run lines).2).2).length = _
    rw [hlaterLength]
    simp only [run, List.map_cons, runAll_cons]
    rw [continuations_cons, List.flatMap_append, List.length_append, ← Nat.add_assoc]
    exact congrArg (· + _) hfirstLength

/-- **Edits keep the code, in its order.**  A call does so unless it cuts a line and has no room for
the rest.  A run adds a line for each break that returns, and if all of its calls keep the code, it
adds the markers of the next lines and nothing else. -/
theorem edits_keep_code [Platform] (calls : List EditCall) (lines : Buffer) :
    let run := runAll (calls.map EditCall.run) lines
    (∀ call buffer, EditCall.KeepsCode call buffer ↔ ¬ call.LosesCode buffer) ∧
    run.2.length = lines.length + (continuations run.1).length ∧
    ((∀ earlier call later, calls = earlier ++ call :: later →
        ¬ call.LosesCode (runAll (earlier.map EditCall.run) lines).2) →
      lines.code.Sublist (Buffer.code run.2) ∧
      ((∀ next ∈ continuations run.1, next.opening = []) → Buffer.code run.2 = lines.code) ∧
      (Buffer.code run.2).length = lines.code.length +
        ((continuations run.1).flatMap Continuation.markers).length) := by
  intro run
  refine ⟨EditCall.keepsCode_iff, length_runAll calls lines, ?_⟩
  intro hkept
  obtain ⟨hsublist, hlength⟩ := code_runAll calls lines fun earlier call later hcalls =>
    (call.keepsCode_iff _).mpr (hkept earlier call later hcalls)
  refine ⟨hsublist, ?_, hlength⟩
  intro hempty
  refine (hsublist.eq_of_length ?_).symm
  have hnone : (continuations run.1).flatMap Continuation.markers = [] := by
    rw [List.flatMap_eq_nil_iff]
    intro next hnext
    rw [Continuation.markers, hempty next hnext]
    rfl
  rw [hlength, hnone, List.length_nil, Nat.add_zero]

open Platform.Usual in
theorem edits_keep_code_comment :
    let lines : Buffer := ["  # hello world".toList]
    let run := runAll ([.splitLine 0 9 (.int 2)].map EditCall.run) lines
    run.2 = ["  # hello".toList, "  # world".toList] ∧ lines.code.Sublist (Buffer.code run.2) := by
  intro lines run
  refine ⟨by decide +kernel, ?_⟩
  refine ((edits_keep_code [.splitLine 0 9 (.int 2)] lines).2.2 ?_).1
  intro earlier call later hcalls hloses
  cases earlier with
  | nil =>
    obtain ⟨rfl, -⟩ := List.cons.inj hcalls
    exact absurd hloses.toOption_eq_none (by decide +kernel)
  | cons first earlier => simp at hcalls

open Platform.Usual in
/-- A tab is as wide as the tab width, and so is the next line's indentation. -/
theorem break_loses_code :
    let lines : Buffer := ["\tab".toList]
    let call : EditCall := .splitLine 0 1 (.int 1180591620717411303424)
    (call.run.run.run lines).1.toOption = none ∧ (call.run.run.run lines).2 = [[]] ∧
      lines.code = "ab".toList ∧ ¬ call.KeepsCode lines := by
  intro lines call
  have hcut : (call.run.run.run lines).2 = [[]] := by decide +kernel
  refine ⟨by decide +kernel, hcut, by decide, ?_⟩
  intro hkeeps
  have hsublist := hkeeps.grows.1
  rw [hcut] at hsublist
  exact absurd hsublist (by decide)

end IoSource
