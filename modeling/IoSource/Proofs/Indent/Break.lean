import IoSource.Proofs.Indent.Columns
import IoSource.Proofs.Indent.Edit
import IoSource.Proofs.Text.Runs
import IoSource.Proofs.Text.Strip

/-!
# Breaking a line

A line that is broken becomes two.  The first is what stood in front of the column and the second
what stood behind it, both without the blanks at the cut; the second has the indentation of the line
in whole steps, and the markers of a comment line again (`IsBroken`).

`splitLine_breaks` says that this is all a break does to a buffer, provided that there is room for
the indentation of the second line, and that without room the break fails.
-/

namespace IoSource

/-! ### Comment lines -/

namespace Comment

/-- The text starts with a marker of a line comment. -/
def OpensLine (t : Text) : Prop := ['#'] <+: t ∨ ['/', '/'] <+: t

theorem leadingMarkers_eq_nil_iff {t : Text} : leadingMarkers t = [] ↔ ¬ OpensLine t := by
  rw [leadingMarkers.eq_def]
  split
  · next rest => simp [OpensLine]
  · next rest => simp [OpensLine]
  · next hhash hslashes =>
    refine iff_of_true rfl ?_
    rintro (⟨rest, rfl⟩ | ⟨rest, rfl⟩)
    · exact hhash rest rfl
    · exact hslashes rest rfl

theorem opensLine_leadingMarkers {t : Text} (h : OpensLine t) : OpensLine (leadingMarkers t) := by
  rcases h with ⟨rest, rfl⟩ | ⟨rest, rfl⟩
  · exact Or.inl ⟨leadingMarkers rest, rfl⟩
  · exact Or.inr ⟨leadingMarkers rest, rfl⟩

theorem OpensLine.ne_nil {t : Text} (h : OpensLine t) : t ≠ [] := by
  rintro rfl
  exact absurd h (by simp [OpensLine])

theorem OpensLine.append {t : Text} (h : OpensLine t) (rest : Text) : OpensLine (t ++ rest) :=
  h.imp (·.trans (List.prefix_append t rest)) (·.trans (List.prefix_append t rest))

theorem OpensLine.not_isBlank {t : Text} (h : OpensLine t) : ∀ c ∈ t.head?, isBlank c = false := by
  intro c hc
  rcases h with ⟨rest, rfl⟩ | ⟨rest, rfl⟩
  · obtain rfl : '#' = c := by simpa using hc
    rfl
  · obtain rfl : '/' = c := by simpa using hc
    rfl

/-- **A comment line** starts with a marker behind its indentation. -/
theorem isLine_iff {line : Text} : isLine line = true ↔ OpensLine (line.dropWhile isBlank) := by
  rw [isLine, opening?]
  split
  · next hnone => exact iff_of_false (by simp) (leadingMarkers_eq_nil_iff.mp hnone)
  · next hsome =>
    refine iff_of_true rfl ?_
    by_contra hnot
    exact hsome (leadingMarkers_eq_nil_iff.mpr hnot)

/-- What a comment line opens the next one with starts with a marker, and other lines open it with
nothing. -/
theorem opening?_cases (line : Text) :
    (isLine line = false ∧ opening? line = none) ∨
      ∃ opening, isLine line = true ∧ opening? line = some opening ∧ OpensLine opening := by
  by_cases hline : OpensLine (line.dropWhile isBlank)
  · right
    have hmarkers := opensLine_leadingMarkers hline
    rw [isLine_iff, opening?]
    split
    · next hnone => exact absurd hline (leadingMarkers_eq_nil_iff.mp hnone)
    · exact ⟨_, hline, rfl, hmarkers.append _⟩
  · left
    refine ⟨by rwa [← Bool.not_eq_true, isLine_iff], ?_⟩
    rw [opening?, leadingMarkers_eq_nil_iff.mpr hline]

theorem OpensLine.isLine_append {blanks t : Text} (h : OpensLine t)
    (hblanks : ∀ c ∈ blanks, isBlank c = true) : isLine (blanks ++ t) = true := by
  rw [isLine_iff, List.dropWhile_append_of_pos hblanks]
  rcases h with ⟨rest, rfl⟩ | ⟨rest, rfl⟩
  · exact Or.inl ⟨rest, rfl⟩
  · exact Or.inr ⟨rest, rfl⟩

theorem isLine_dropEndWhile {line : Text} (h : isLine line = true) :
    isLine (Text.dropEndWhile isBlank line) = true := by
  obtain ⟨blanks, body, hblanks, rfl, hbody⟩ : ∃ blanks body, (∀ c ∈ blanks, isBlank c = true) ∧
      line = blanks ++ body ∧ OpensLine body :=
    ⟨_, _, fun c hc => List.mem_takeWhile_imp hc, List.takeWhile_append_dropWhile.symm,
      isLine_iff.mp h⟩
  rcases hbody with ⟨rest, rfl⟩ | ⟨rest, rfl⟩
  · have hkeep : Text.dropEndWhile isBlank (blanks ++ '#' :: rest) =
        blanks ++ '#' :: Text.dropEndWhile isBlank rest :=
      Text.dropEndWhile_append_cons (by decide) blanks rest
    rw [List.singleton_append, hkeep]
    exact OpensLine.isLine_append (Or.inl ⟨_, rfl⟩) hblanks
  · have hkeep : Text.dropEndWhile isBlank (blanks ++ '/' :: '/' :: rest) =
        blanks ++ '/' :: '/' :: Text.dropEndWhile isBlank rest := by
      have h := Text.dropEndWhile_append_cons (show isBlank '/' = false by decide)
        (blanks ++ ['/']) rest
      simpa only [List.append_assoc, List.singleton_append] using h
    show isLine (Text.dropEndWhile isBlank (blanks ++ '/' :: '/' :: rest)) = true
    rw [hkeep]
    exact OpensLine.isLine_append (Or.inr ⟨_, rfl⟩) hblanks

end Comment

/-! ### The two lines -/

/-- The two lines that a line becomes which is broken behind `head`. -/
structure IsBroken (tabWidth : Nat) (line head : Text) (next : Continuation)
    (first second : Text) : Prop where
  cut : ∃ blanks rest, line = first ++ blanks ++ rest ∧ (∀ c ∈ blanks, isBlank c = true) ∧
    (∀ c ∈ rest.head?, isBlank c = false) ∧
    second = List.replicate next.indent ' ' ++ (next.opening ++ rest)
  first_end : ∀ c ∈ first.getLast?, isBlank c = false
  steps : tabWidth ∣ next.indent
  indent_le : next.indent ≤ line.indentation tabWidth
  lt_indent : line.indentation tabWidth < next.indent + tabWidth
  indentation : second.indentation tabWidth = next.indent
  opening : next.opening ≠ [] ↔ Comment.isLine head = true
  comment : Comment.isLine head = true → Comment.isLine first = true ∧ Comment.isLine second = true

variable {lines : Buffer} {index : Nat} {column : Int} {line : Text} {tabWidth : Nat}

theorem continuation_opening_cases (tabWidth indent : Nat) (head : Text) :
    let next := continuation tabWidth indent head
    (Comment.isLine head = false ∧ next.opening = []) ∨
      (Comment.isLine head = true ∧ Comment.OpensLine next.opening) := by
  intro next
  rcases Comment.opening?_cases head with ⟨hnot, hnone⟩ | ⟨opening, hline, hsome, hopens⟩
  · left
    refine ⟨hnot, ?_⟩
    show (Comment.opening? head).getD [] = []
    rw [hnone]
    rfl
  · right
    refine ⟨hline, ?_⟩
    show Comment.OpensLine ((Comment.opening? head).getD [])
    rw [hsome]
    exact hopens

/-- At the cut only blanks go. -/
theorem Text.exists_blanks_at_cut (column : Int) (line : Text) :
    ∃ blanks : Text, (∀ c ∈ blanks, isBlank c = true) ∧
      line = dropEndWhile isBlank (line.cutOff column) ++ blanks ++
        (line.leftOver column).dropWhile isBlank := by
  obtain ⟨before, hbefore, hfirst⟩ := exists_dropEndWhile_append isBlank (line.cutOff column)
  have hbehind : (line.leftOver column).takeWhile isBlank ++
      (line.leftOver column).dropWhile isBlank = line.leftOver column :=
    List.takeWhile_append_dropWhile
  refine ⟨before ++ (line.leftOver column).takeWhile isBlank, fun c hc => ?_, ?_⟩
  · rcases List.mem_append.mp hc with hc | hc
    · exact hbefore c hc
    · exact List.mem_takeWhile_imp hc
  · rw [← List.append_assoc, hfirst, List.append_assoc, hbehind, cutOff, leftOver,
      List.take_append_drop]

theorem isBroken_continuation (hpos : 0 < tabWidth) (line : Text) (column : Int) :
    let next := continuation tabWidth (line.indentation tabWidth) (line.cutOff column)
    IsBroken tabWidth line (line.cutOff column) next
      (Text.dropEndWhile isBlank (line.cutOff column))
      (List.replicate next.indent ' ' ++
        (next.opening ++ (line.leftOver column).dropWhile isBlank)) := by
  intro next
  have hopening := continuation_opening_cases tabWidth (line.indentation tabWidth)
    (line.cutOff column)
  have hrest := Text.not_of_mem_head?_dropWhile isBlank (line.leftOver column)
  refine ⟨?cut, ?first_end, ?steps, ?indent_le, ?lt_indent, ?indentation, ?opening, ?comment⟩
  case cut =>
    obtain ⟨blanks, hblanks, hline⟩ := Text.exists_blanks_at_cut column line
    exact ⟨blanks, _, hline, hblanks, hrest, rfl⟩
  case first_end => exact Text.not_of_mem_getLast?_dropEndWhile isBlank _
  case steps => exact Nat.dvd_mul_left _ _
  case indent_le => exact Nat.div_mul_le_self _ _
  case lt_indent => exact Nat.lt_div_mul_add hpos
  case indentation =>
    -- the second line starts with a marker, or with what stands behind the cut
    apply Text.indentation_spaces_append
    rcases hopening with ⟨-, hnone⟩ | ⟨-, hopens⟩
    · rwa [hnone, List.nil_append]
    · exact (hopens.append _).not_isBlank
  case opening =>
    rcases hopening with ⟨hnot, hnone⟩ | ⟨hline, hopens⟩
    · simp [next, hnot, hnone]
    · exact iff_of_true hopens.ne_nil hline
  case comment =>
    intro hline
    rcases hopening with ⟨hnot, -⟩ | ⟨-, hopens⟩
    · rw [hline] at hnot
      exact absurd hnot (by simp)
    · refine ⟨Comment.isLine_dropEndWhile hline, ?_⟩
      exact (hopens.append _).isLine_append isBlank_of_mem_replicate

namespace Edit

theorem planBreak_eq (hpos : 0 < tabWidth) (hindex : index ≤ maxIndex)
    (hline : lines[index]? = some line) (column : Int) :
    planBreak lines index column (.int tabWidth) =
      .ok (line, continuation tabWidth (line.indentation tabWidth) (line.cutOff column)) := by
  have hread : bufferLine lines index = .ok line :=
    bufferLine_eq_ok_iff.mpr ⟨(isIndex_natCast index).mpr hindex, hline⟩
  rw [planBreak, hread, checkTabWidth_natCast hpos]
  simp [Text.measure_natCast hpos, bind, Except.bind, pure, Except.pure]

/-- The outcome of a break with a tab width. -/
theorem run_splitLine_eq [Platform] (hpos : 0 < tabWidth) (hline : lines[index]? = some line)
    (column : Int) :
    let next := continuation tabWidth (line.indentation tabWidth) (line.cutOff column)
    (HasRoom index next → (splitLine index column (.int tabWidth)).run.run lines =
      (.ok next, lines.broken index column line next)) ∧
    (¬ HasRoom index next →
      ∃ e, ((splitLine index column (.int tabWidth)).run.run lines).1 = .error e) := by
  intro next
  rcases run_splitLine index column (.int tabWidth) lines with
    ⟨e, hplan, hrun⟩ | ⟨line', next', hplan, hrun⟩
  · rw [hrun]
    refine ⟨fun hroom => ?_, fun _ => ⟨e, rfl⟩⟩
    rw [planBreak_eq hpos (Nat.le_of_lt hroom.2) hline] at hplan
    exact absurd hplan (by simp)
  · by_cases hindex : index ≤ maxIndex
    · rw [planBreak_eq hpos hindex hline] at hplan
      obtain ⟨rfl, rfl⟩ := Prod.mk.inj (Except.ok.inj hplan)
      rcases hrun with ⟨hnoRoom, e, hrun⟩ | ⟨hroom, hrun⟩
      · rw [hrun]
        exact ⟨fun hroom => absurd hroom hnoRoom, fun _ => ⟨e, rfl⟩⟩
      · exact ⟨fun _ => hrun, fun hnoRoom => absurd hroom hnoRoom⟩
    · refine ⟨fun hroom => absurd (Nat.le_of_lt hroom.2) hindex, fun _ => ?_⟩
      rcases hrun with ⟨-, e, hrun⟩ | ⟨hroom, -⟩
      · rw [hrun]
        exact ⟨e, rfl⟩
      · exact absurd (Nat.le_of_lt hroom.2) hindex

end Edit

open Edit in
/-- **A break makes two lines of one** and leaves the others as they are, in their order.  It fails
where there is no room for the indentation of the second line, and there alone. -/
theorem splitLine_breaks [Platform] (lines : Buffer) (index : Nat) (hindex : index < lines.length)
    (column : Int) (tabWidth : Nat) (hpos : 0 < tabWidth) :
    let line := lines[index]
    let run := (splitLine index column (.int tabWidth)).run.run lines
    (line.indentation tabWidth / tabWidth * tabWidth < roomLimit ∧ index < maxIndex →
      ∃ next first second,
        run = (.ok next, lines.take index ++ first :: second :: lines.drop (index + 1)) ∧
        IsBroken tabWidth line (line.take (cutIn line.length column)) next first second) ∧
    (¬ (line.indentation tabWidth / tabWidth * tabWidth < roomLimit ∧ index < maxIndex) →
      ∃ e, run.1 = .error e) := by
  intro line run
  have hline : lines[index]? = some line := List.getElem?_eq_getElem hindex
  obtain ⟨hreturns, hfails⟩ := run_splitLine_eq hpos hline column
  refine ⟨fun hroom => ?_, hfails⟩
  exact ⟨_, _, _, hreturns hroom, isBroken_continuation hpos line column⟩

open Platform.Usual in
theorem splitLine_breaks_comment :
    let lines : Buffer := ["x".toList, "\t# hello world".toList, "y".toList]
    1 < lines.length ∧ 0 < 3 ∧
      ∃ next first second, (Edit.splitLine 1 (-5) (.int 3)).run.run lines =
          (.ok next, ["x".toList, first, second, "y".toList]) ∧
        IsBroken 3 "\t# hello world".toList "\t# hello ".toList next first second := by
  intro lines
  have hindex : 1 < lines.length := by decide
  have hpos : 0 < 3 := by decide
  have hroom : Text.indentation 3 lines[1] / 3 * 3 < roomLimit ∧ 1 < maxIndex := by
    decide +revert +kernel
  obtain ⟨next, first, second, hrun, hbroken⟩ :=
    (splitLine_breaks lines 1 hindex (-5) 3 hpos).1 hroom
  exact ⟨hindex, hpos, next, first, second, hrun, hbroken⟩

open Platform.Usual in
/-- A line that is indented by a tab cannot be broken where a tab is too wide. -/
theorem no_break_without_room :
    let lines : Buffer := ["\tab".toList]
    ¬ ∃ next, ((Edit.splitLine 0 1 (.int (Nat.pow 2 70))).run.run lines).1 = .ok next := by
  intro lines
  have hpos : 0 < Nat.pow 2 70 := by decide
  have hline : lines[0]? = some "\tab".toList := rfl
  obtain ⟨e, he⟩ := (Edit.run_splitLine_eq hpos hline 1).2 fun hroom =>
    absurd hroom.1 (by decide +kernel)
  rintro ⟨next, hnext⟩
  exact absurd (hnext.symm.trans he) (by simp)

end IoSource
