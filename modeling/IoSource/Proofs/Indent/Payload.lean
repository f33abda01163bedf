import IoSource.Proofs.Indent.Break
import IoSource.Proofs.Indent.Reindent
import IoSource.Proofs.NormalForm.Bracket

/-!
# Breaking a line at a bracket

An interpreter gets a buffer as one line, in its one-line form.  Behind `(` and `,` and in front of
`)` that form leaves nothing of a gap, whatever white space it is (`oneLine_closesUp`).  A break there
puts a line end and an indentation in place of the blanks at the cut, so it does not show.

It does show if there is no room for the next line, as then what stood behind the cut is gone
(`splitLine_keeps_payload`).
-/

namespace IoSource

/-! ### The text of a buffer -/

namespace Buffer

variable {lines : Buffer} {index : Nat}

/-- The lines of a buffer as one text. -/
def joined (lines : Buffer) : Text := ['\n'].intercalate lines

theorem joined_cons {later : Buffer} (hne : later ≠ []) (line : Text) :
    joined (line :: later : List Text) = line ++ '\n' :: joined later := by
  obtain ⟨next, later, rfl⟩ := List.exists_cons_of_ne_nil hne
  show ['\n'].intercalate (line :: next :: later) = _
  rw [List.intercalate_cons_cons, List.append_assoc]
  rfl

theorem joined_cons_eq_flatMap (line : Text) (later : Buffer) :
    joined (line :: later : List Text) = line ++ later.flatMap fun line => '\n' :: line := by
  induction later generalizing line with
  | nil =>
    show ['\n'].intercalate [line] = _
    rw [List.intercalate_singleton, List.flatMap_nil, List.append_nil]
  | cons next later ih =>
    rw [joined_cons (List.cons_ne_nil next later), ih, List.flatMap_cons]
    rfl

theorem joined_append_cons (earlier : Buffer) (line : Text) (later : Buffer) :
    joined (earlier ++ line :: later : List Text) =
      (earlier.flatMap fun line => line ++ ['\n']) ++ line ++
        later.flatMap fun line => '\n' :: line := by
  induction earlier with
  | nil => exact joined_cons_eq_flatMap line later
  | cons first earlier ih =>
    have hne : earlier ++ line :: later ≠ [] := List.append_ne_nil_of_right_ne_nil _ (by simp)
    rw [List.cons_append, joined_cons hne, ih, List.flatMap_cons]
    simp only [List.append_assoc, List.cons_append, List.nil_append]

/-- A line stands between two texts that do not depend on it. -/
theorem exists_joined_eq (hindex : index < lines.length) :
    ∃ front back : Text, (∀ c ∈ back.head?, isSpace c = true) ∧
      (∀ line, joined (lines.set index line) = front ++ line ++ back) ∧
      ∀ first second, joined (lines.take index ++ first :: second :: lines.drop (index + 1)) =
        front ++ first ++ '\n' :: (second ++ back) := by
  refine ⟨(lines.take index).flatMap fun line => line ++ ['\n'],
    (lines.drop (index + 1)).flatMap fun line => '\n' :: line, ?_, fun line => ?_,
    fun first second => ?_⟩
  · intro c hc
    cases hdrop : lines.drop (index + 1) with
    | nil =>
      rw [hdrop] at hc
      exact absurd hc (by simp)
    | cons line later =>
      rw [hdrop] at hc
      obtain rfl : '\n' = c := by simpa using hc
      decide
  · rw [List.set_eq_take_append_cons_drop, if_pos hindex, joined_append_cons]
  · rw [joined_append_cons, List.flatMap_cons]
    rfl

end Buffer

/-! ### The outcome of a break -/

namespace Edit

variable {lines : Buffer} {index : Nat} {line : Text} {tabWidth : Nat}

theorem planBreak_tooLarge (hindex : maxIndex < index) (lines : Buffer) (column : Int)
    (tabWidth : Value) : planBreak lines index column tabWidth = .error .indexTooLarge := by
  rw [planBreak, bufferLine_tooLarge hindex]
  rfl

theorem run_splitLine_cases [Platform] (hpos : 0 < tabWidth) (hline : lines[index]? = some line)
    (column : Int) :
    let next := continuation tabWidth (line.indentation tabWidth) (line.cutOff column)
    let run := (splitLine index column (.int tabWidth)).run.run lines
    (HasRoom index next ∧ run = (.ok next, lines.broken index column line next)) ∨
    (¬ HasRoom index next ∧ (∃ e, run.1 = .error e) ∧
      run.2 = if index ≤ maxIndex then lines.cut index column line else lines) := by
  intro next run
  by_cases hroom : HasRoom index next
  · exact Or.inl ⟨hroom, (run_splitLine_eq hpos hline column).1 hroom⟩
  · refine Or.inr ⟨hroom, (run_splitLine_eq hpos hline column).2 hroom, ?_⟩
    by_cases hindex : index ≤ maxIndex
    · rw [if_pos hindex]
      have hplan := planBreak_eq hpos hindex hline column
      rcases run_splitLine index column (.int tabWidth) lines with
        ⟨e, hfails, -⟩ | ⟨line', next', hplan', ⟨-, e, hrun⟩ | ⟨hroom', -⟩⟩
      · exact absurd (hplan.symm.trans hfails) (by simp)
      · obtain ⟨rfl, -⟩ := Prod.mk.inj (Except.ok.inj (hplan.symm.trans hplan'))
        exact congrArg Prod.snd hrun
      · obtain ⟨-, rfl⟩ := Prod.mk.inj (Except.ok.inj (hplan.symm.trans hplan'))
        exact absurd hroom' hroom
    · rw [if_neg hindex]
      have hfails := planBreak_tooLarge (Nat.lt_of_not_le hindex) lines column (.int tabWidth)
      rcases run_splitLine index column (.int tabWidth) lines with
        ⟨e, -, hrun⟩ | ⟨line', next', hplan, -⟩
      · exact congrArg Prod.snd hrun
      · exact absurd (hfails.symm.trans hplan) (by simp)

end Edit

/-! ### The payload -/

section Payload

open Text

variable {lines : Buffer} {index : Nat} {column : Int} {line : Text}

/-- What stands on both sides of a cut, without blanks, and the buffers that a break leaves. -/
theorem Buffer.exists_joined_at_cut (hline : lines[index]? = some line) (column : Int) :
    let first := dropEndWhile isBlank (line.cutOff column)
    let rest := (line.leftOver column).dropWhile isBlank
    ∃ front blanks back : Text, (∀ c ∈ blanks, isSpace c = true) ∧
      (∀ c ∈ back.head?, isSpace c = true) ∧
      lines.joined = front ++ first ++ blanks ++ (rest ++ back) ∧
      (lines.cut index column line).joined = front ++ first ++ back ∧
      ∀ next, next.opening = [] → (lines.broken index column line next).joined =
        front ++ first ++ ('\n' :: List.replicate next.indent ' ') ++ (rest ++ back) := by
  intro first rest
  obtain ⟨hindex, hget⟩ := List.getElem?_eq_some_iff.mp hline
  obtain ⟨front, back, hback, hset, hbroken⟩ := exists_joined_eq hindex
  obtain ⟨blanks, hblanks, hcut⟩ := exists_blanks_at_cut column line
  refine ⟨front, blanks, back, fun c hc => isSpace_of_isBlank (hblanks c hc), hback, ?_,
    hset first, ?_⟩
  · have hjoined := hset line
    rw [← hget, List.set_getElem_self, hget, hcut] at hjoined
    simpa only [List.append_assoc] using hjoined
  · intro next hnone
    rw [broken, hbroken, hnone]
    simp only [List.append_assoc, List.cons_append, List.nil_append]
    rfl

/-- **A break at a bracket** does not show in the one-line form. -/
theorem Buffer.normalize_broken (hline : lines[index]? = some line)
    (hmarker : Comment.NoMarker lines.joined)
    (hbracket : ClosesUp (dropEndWhile isBlank (line.cutOff column))
      ((line.leftOver column).dropWhile isBlank))
    {next : Continuation} (hnone : next.opening = []) :
    (lines.broken index column line next).joined.normalize = lines.joined.normalize := by
  obtain ⟨front, blanks, back, hblanks, -, hjoined, -, hbroken⟩ := exists_joined_at_cut hline column
  have hspaces : ∀ c ∈ '\n' :: List.replicate next.indent ' ', isSpace c = true := by
    intro c hc
    rcases List.mem_cons.mp hc with rfl | hc
    · decide
    · exact isSpace_of_isBlank (isBlank_of_mem_replicate c hc)
  have hmarker' : Comment.NoMarker (lines.broken index column line next).joined := by
    rw [hjoined] at hmarker
    obtain ⟨hfront, hbehind⟩ := hmarker.of_append
    rw [hbroken next hnone, List.append_assoc]
    refine hfront.append (hbehind.white_append hspaces) ?_
    intro c hc
    obtain rfl : '\n' = c := by simpa using hc
    decide
  rw [normalize_eq_oneLine, normalize_eq_oneLine, Comment.erase_eq_self hmarker',
    Comment.erase_eq_self hmarker, hbroken next hnone, hjoined]
  exact oneLine_closesUp (hbracket.append front back) hspaces hblanks

/-- **A line that is only cut** shows, unless there was only white space behind the cut. -/
theorem Buffer.normalize_cut_iff (hline : lines[index]? = some line)
    (hmarker : Comment.NoMarker lines.joined)
    (hbracket : ClosesUp (dropEndWhile isBlank (line.cutOff column))
      ((line.leftOver column).dropWhile isBlank)) :
    (lines.cut index column line).joined.normalize = lines.joined.normalize ↔
      (line.leftOver column).isWhite = true := by
  obtain ⟨front, blanks, back, hblanks, hback, hjoined, hcut, -⟩ := exists_joined_at_cut hline column
  have hmarker' : Comment.NoMarker (lines.cut index column line).joined := by
    rw [hjoined] at hmarker
    obtain ⟨hfront, hbehind⟩ := hmarker.of_append
    rw [hcut]
    exact hfront.append (hbehind.of_infix (List.suffix_append _ _).isInfix) hback
  rw [normalize_eq_oneLine, normalize_eq_oneLine, Comment.erase_eq_self hmarker',
    Comment.erase_eq_self hmarker, hcut, hjoined, ← isWhite_dropWhile (line.leftOver column)]
  by_cases hwhite : ∀ c ∈ (line.leftOver column).dropWhile isBlank, isSpace c = true
  · refine iff_of_true ?_ (List.all_eq_true.mpr hwhite)
    have hopens : ClosesUp (dropEndWhile isBlank (line.cutOff column)) [] := by
      rcases hbracket with hopens | hclosing
      · exact Or.inl hopens
      · exact absurd (hwhite ')' (List.mem_of_mem_head? hclosing)) (by decide)
    have hgone := oneLine_closesUp (hopens.append front back) (List.forall_mem_nil _)
      (List.forall_mem_append.mpr ⟨hblanks, hwhite⟩)
    simpa only [List.append_assoc, List.nil_append] using hgone
  · refine iff_of_false (oneLine_ne_of_lost ?_ hwhite hblanks back) ?_
    · simpa only [List.append_nil] using hbracket.append front []
    · exact fun h => hwhite (List.all_eq_true.mp h)

theorem Comment.NoMarker.isLine_eq_false {line : Text} (h : NoMarker line) : isLine line = false := by
  rw [← Bool.not_eq_true, isLine_iff]
  have hbody := h.of_infix (List.dropWhile_suffix isBlank).isInfix
  rintro (hhash | hslashes)
  · exact hbody.1 (hhash.subset (by simp))
  · exact hbody.2.1 hslashes.isInfix

theorem continuation_opening_eq_nil (hline : lines[index]? = some line)
    (hmarker : Comment.NoMarker lines.joined) (column : Int) (tabWidth indent : Nat) :
    (continuation tabWidth indent (line.cutOff column)).opening = [] := by
  rcases continuation_opening_cases tabWidth indent (line.cutOff column) with
    ⟨-, hnone⟩ | ⟨hcomment, -⟩
  · exact hnone
  · obtain ⟨front, blanks, back, -, -, hjoined, -⟩ := Buffer.exists_joined_at_cut hline column
    have hfirst : Comment.NoMarker (dropEndWhile isBlank (line.cutOff column)) := by
      rw [hjoined] at hmarker
      refine hmarker.of_infix ⟨front, blanks ++ ((line.leftOver column).dropWhile isBlank ++ back), ?_⟩
      simp only [List.append_assoc]
    have hcomment' := Comment.isLine_dropEndWhile hcomment
    rw [hfirst.isLine_eq_false] at hcomment'
    exact absurd hcomment' (by decide)

end Payload

open Edit Text

/-- **Breaking a line at a bracket keeps the payload.**  In a buffer without comments, a line that is
broken behind `(` or `,` or in front of `)` leaves the one-line form of the buffer as it is.  The break
returns where there is room for the next line, and there alone; without room it has cut the line
already, and the one-line form is the same only if nothing but white space stood behind the cut, or if
the line is too far down to be read. -/
theorem splitLine_keeps_payload [Platform] (lines : Buffer) (index : Nat)
    (hindex : index < lines.length) (column : Int) (tabWidth : Nat) (hpos : 0 < tabWidth)
    (hmarker : Comment.NoMarker lines.joined)
    (hbracket : ClosesUp (dropEndWhile isBlank (lines[index].cutOff column))
      ((lines[index].leftOver column).dropWhile isBlank)) :
    let line := lines[index]
    let run := (splitLine index column (.int tabWidth)).run.run lines
    let room := line.indentation tabWidth / tabWidth * tabWidth < roomLimit ∧ index < maxIndex
    ((∃ next, run.1 = .ok next) ↔ room) ∧
    (run.2.joined.normalize = lines.joined.normalize ↔
      room ∨ (line.leftOver column).isWhite = true ∨ maxIndex < index) := by
  intro line run room
  have hline : lines[index]? = some line := List.getElem?_eq_getElem hindex
  rcases run_splitLine_cases hpos hline column with ⟨hroom, hrun⟩ | ⟨hroom, ⟨e, hfails⟩, hleft⟩
  · have hreturns : run = _ := hrun
    rw [hreturns]
    refine ⟨iff_of_true ⟨_, rfl⟩ hroom, iff_of_true ?_ (Or.inl hroom)⟩
    exact Buffer.normalize_broken hline hmarker hbracket
      (continuation_opening_eq_nil hline hmarker column _ _)
  · constructor
    · refine iff_of_false ?_ hroom
      rintro ⟨next, hreturns⟩
      exact absurd (hreturns.symm.trans hfails) (by simp)
    · have hbuffer : run.2 = _ := hleft
      rw [hbuffer]
      split
      · next hread =>
        rw [Buffer.normalize_cut_iff hline hmarker hbracket]
        constructor
        · exact fun hwhite => Or.inr (Or.inl hwhite)
        · rintro (hroom' | hwhite | hfar)
          · exact absurd hroom' hroom
          · exact hwhite
          · exact absurd hread (Nat.not_le_of_lt hfar)
      · next hfar => exact iff_of_true rfl (Or.inr (Or.inr (Nat.lt_of_not_le hfar)))

open Platform.Usual in
/-- The cut is behind a comma, with blanks on both sides of it. -/
theorem splitLine_keeps_payload_comma :
    let lines : Buffer := ["\tf(a, \t b".toList, [], ")".toList]
    let run := (splitLine 0 6 (.int 4)).run.run lines
    0 < lines.length ∧ 0 < 4 ∧ Comment.NoMarker lines.joined ∧
      ClosesUp "\tf(a,".toList "b".toList ∧
      (∃ next, run.1 = .ok next) ∧ run.2.joined.normalize = "f(a,b)".toList := by
  intro lines run
  have hindex : 0 < lines.length := by decide
  have hpos : 0 < 4 := by decide
  have hroom : Text.indentation 4 lines[0] / 4 * 4 < roomLimit ∧ 0 < maxIndex := by
    decide +revert +kernel
  have hmarker : Comment.NoMarker lines.joined := by decide +kernel
  have hbracket : ClosesUp "\tf(a,".toList "b".toList := Or.inl (by decide)
  have hbefore : lines.joined.normalize = "f(a,b)".toList := by decide +kernel
  obtain ⟨hreturns, hpayload⟩ := splitLine_keeps_payload lines 0 hindex 6 4 hpos hmarker hbracket
  exact ⟨hindex, hpos, hmarker, hbracket, hreturns.mpr hroom,
    (hpayload.mpr (Or.inl hroom)).trans hbefore⟩

open Platform.Usual in
/-- Behind a tab that is too wide, the line has been cut at the bracket when the break fails. -/
theorem payload_lost_at_bracket :
    let lines : Buffer := ["\t(a".toList]
    let run := (splitLine 0 2 (.int 1180591620717411303424)).run.run lines
    Comment.NoMarker lines.joined ∧
      ClosesUp (dropEndWhile isBlank (Text.cutOff 2 "\t(a".toList))
        ((Text.leftOver 2 "\t(a".toList).dropWhile isBlank) ∧
      lines.joined.normalize = "(a".toList ∧ run.2.joined.normalize = "(".toList := by
  intro lines run
  refine ⟨by decide +kernel, Or.inl (by decide), ?_⟩
  decide +kernel

end IoSource
