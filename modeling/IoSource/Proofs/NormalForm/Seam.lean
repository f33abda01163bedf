import IoSource.Proofs.Comment.Erase
import IoSource.Proofs.NormalForm.OnePass

/-!
# The one-line form, line by line

A fragment can be cut at a line break: the one-line form of the whole is that of the two parts put
together by `joinLines`, which looks at nothing but the last character of the one and the first of
the other (`normalize_append_newline`).

Around the cut stands one gap, whatever white space the parts end and begin with, and it holds a
line break.  So `gapText` says nothing or a separator about it.
-/

namespace IoSource.Text

/-- Two one-line forms on one line.  A part that is empty adds nothing; behind `(` and `,` and in
front of `)` the line goes on; elsewhere a statement ends. -/
def joinLines (a b : Text) : Text :=
  if a = [] then b
  else if b = [] then a
  else if a.getLast?.any opensGap ∨ b.head? = some ')' then a ++ b
  else a ++ statementSeparator ++ b

/-! ### The seam -/

/-- White space on both sides of a line break is one gap with it. -/
theorem isSpace_of_mem_around_newline {gap gap' : Text} (hgap : ∀ c ∈ gap, isSpace c = true)
    (hgap' : ∀ c ∈ gap', isSpace c = true) : ∀ c ∈ gap ++ '\n' :: gap', isSpace c = true := by
  intro c hc
  rcases List.mem_append.mp hc with hc | hc
  · exact hgap c hc
  · rcases List.mem_cons.mp hc with rfl | hc
    · decide
    · exact hgap' c hc

theorem gapText_around_newline (b d : Char) (gap gap' : Text) :
    gapText (some b) (gap ++ '\n' :: gap') (some d) =
      if opensGap b = true ∨ d = ')' then [] else statementSeparator := by
  have hbreak : (gap ++ '\n' :: gap').any isLineBreak = true := by simp [isLineBreak]
  rw [gapText_some, hbreak, if_pos rfl]

/-- What stands behind the last character that is not white does not show. -/
theorem oneLine_append_char_white {b : Char} (hb : isSpace b = false) {gap : Text}
    (hgap : ∀ c ∈ gap, isSpace c = true) (s : Text) :
    oneLine (s ++ b :: gap) = oneLine (s ++ [b]) := by
  rw [oneLine_append_char hb, replaceGaps_white hgap, List.append_nil]

/-- **Cutting text without comments at a line break.** -/
theorem oneLine_append_newline (s t : Text) :
    oneLine (s ++ '\n' :: t) = joinLines (oneLine s) (oneLine t) := by
  rcases white_or_last s with hwhite | ⟨s, b, gap, rfl, hb, hgap⟩
  · have hfront : ∀ c ∈ s ++ ['\n'], isSpace c = true := isSpace_of_mem_concat hwhite (by decide)
    rw [joinLines, if_pos (oneLine_of_white hwhite), ← oneLine_white_append hfront t,
      List.append_assoc, List.singleton_append]
  · have hlast := getLast?_oneLine_concat hb s
    have hne : oneLine (s ++ [b]) ≠ [] := by
      intro h
      rw [h] at hlast
      exact absurd hlast (by simp)
    rw [oneLine_append_char_white hb hgap, joinLines, if_neg hne, hlast, List.append_assoc,
      List.cons_append, oneLine_append_char hb]
    rcases white_or_first t with hwhite | ⟨gap', d, rest, rfl, hgap', hd⟩
    · have hbehind := isSpace_of_mem_around_newline hgap hwhite
      rw [if_pos (oneLine_of_white hwhite), replaceGaps_white hbehind, List.append_nil]
    · have hgaps := isSpace_of_mem_around_newline hgap hgap'
      have hseam : replaceGaps gapText (some b) [] ((gap ++ '\n' :: gap') ++ d :: rest) = _ :=
        replaceGaps_gap_char hgaps hd rest
      rw [List.append_assoc, List.cons_append, gapText_around_newline] at hseam
      rw [oneLine_gap_char hgap' hd, if_neg (by simp), hseam, List.head?_cons]
      simp only [Option.any_some, Option.some.injEq]
      split
      · rw [List.nil_append]
      · rw [List.append_assoc]

/-- **Cutting a fragment at a line break.**  If the first part leaves no block comment open, the
one-line form of the whole depends on those of the parts alone. -/
theorem normalize_append_newline {t : Text} (h : Comment.ClosesBlocks t) (u : Text) :
    normalize (t ++ '\n' :: u) = joinLines (normalize t) (normalize u) := by
  rw [normalize_eq_oneLine, normalize_eq_oneLine, normalize_eq_oneLine,
    Comment.erase_append_newline h, oneLine_append_newline]

/-- The cut may end a line comment, behind a block comment that looks closed too early. -/
theorem normalize_append_newline_call :
    Comment.ClosesBlocks ['f', '(', '1', ',', ' ', '/', '*', '/', '*', '/', '#', 'x'] ∧
      normalize (['f', '(', '1', ',', ' ', '/', '*', '/', '*', '/', '#', 'x'] ++
        '\n' :: ['2', ')', ' ', '/', '/', 'y']) = ['f', '(', '1', ',', '2', ')'] := by
  have hcloses : Comment.ClosesBlocks
      ['f', '(', '1', ',', ' ', '/', '*', '/', '*', '/', '#', 'x'] := by decide
  refine ⟨hcloses, ?_⟩
  rw [normalize_append_newline hcloses]
  decide

end IoSource.Text
