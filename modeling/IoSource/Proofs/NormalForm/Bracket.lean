import IoSource.Proofs.NormalForm.Seam

/-!
# Gaps at brackets

Behind `(` and `,` and in front of `)` the one-line form leaves nothing of a gap (`ClosesUp`).  White
space may change there as it likes (`oneLine_closesUp`), but what else is taken away there is missed
(`oneLine_ne_of_lost`).
-/

namespace IoSource.Text

/-! ### White space -/

/-- A gap between two texts does not show: the one ends with `(` or `,`, or the other starts with
`)`. -/
def ClosesUp (s u : Text) : Prop := s.getLast?.any opensGap = true ∨ u.head? = some ')'

theorem isSpace_of_opensGap {c : Char} (h : opensGap c = true) : isSpace c = false := by
  rcases (by simpa [opensGap] using h : c = '(' ∨ c = ',') with rfl | rfl
  · decide
  · decide

theorem closesUp_cases {s u : Text} (h : ClosesUp s u) :
    (∃ s' b, s = s' ++ [b] ∧ opensGap b = true) ∨ ∃ rest, u = ')' :: rest := by
  rcases h with hopens | hclosing
  · left
    cases hlast : s.getLast? with
    | none => simp [hlast] at hopens
    | some b =>
      rw [hlast] at hopens
      obtain ⟨s', rfl⟩ := List.getLast?_eq_some_iff.mp hlast
      exact ⟨s', b, rfl, hopens⟩
  · exact Or.inr (List.head?_eq_some_iff.mp hclosing)

theorem ClosesUp.append {s u : Text} (h : ClosesUp s u) (before behind : Text) :
    ClosesUp (before ++ s) (u ++ behind) := by
  rcases closesUp_cases h with ⟨s', b, rfl, hb⟩ | ⟨rest, rfl⟩
  · left
    rw [← List.append_assoc, List.getLast?_concat]
    exact hb
  · exact Or.inr rfl

theorem replaceGaps_behind_opening {b : Char} (hb : opensGap b = true) {gap : Text}
    (hgap : ∀ c ∈ gap, isSpace c = true) (u : Text) :
    replaceGaps gapText (some b) [] (gap ++ u) = replaceGaps gapText (some b) [] u := by
  rcases white_or_first u with hwhite | ⟨gap', c, rest, rfl, hgap', hc⟩
  · rw [replaceGaps_white (List.forall_mem_append.mpr ⟨hgap, hwhite⟩), replaceGaps_white hwhite]
  · rw [← List.append_assoc, replaceGaps_gap_char (List.forall_mem_append.mpr ⟨hgap, hgap'⟩) hc,
      replaceGaps_gap_char hgap' hc, gapText_some, gapText_some, if_pos (Or.inl hb),
      if_pos (Or.inl hb)]

theorem oneLine_before_closing (s : Text) {gap : Text} (hgap : ∀ c ∈ gap, isSpace c = true)
    (rest : Text) :
    oneLine (s ++ gap ++ ')' :: rest) =
      oneLine s ++ ')' :: replaceGaps gapText (some ')') [] rest := by
  have hclosing : isSpace ')' = false := by decide
  rcases white_or_last s with hwhite | ⟨s, b, gap', rfl, hb, hgap'⟩
  · rw [oneLine_gap_char (List.forall_mem_append.mpr ⟨hwhite, hgap⟩) hclosing, oneLine_of_white hwhite,
      List.nil_append]
  · have hseam : replaceGaps gapText (some b) [] (gap' ++ gap ++ ')' :: rest) = _ :=
      replaceGaps_gap_char (List.forall_mem_append.mpr ⟨hgap', hgap⟩) hclosing rest
    rw [gapText_some, if_pos (Or.inr rfl), List.nil_append] at hseam
    rw [List.append_assoc, List.append_assoc, List.cons_append, oneLine_append_char hb,
      ← List.append_assoc, hseam, oneLine_append_char_white hb hgap']

/-- **White space that closes up** is the same as any other. -/
theorem oneLine_closesUp {s u : Text} (h : ClosesUp s u) {gap gap' : Text}
    (hgap : ∀ c ∈ gap, isSpace c = true) (hgap' : ∀ c ∈ gap', isSpace c = true) :
    oneLine (s ++ gap ++ u) = oneLine (s ++ gap' ++ u) := by
  rcases closesUp_cases h with ⟨s, b, rfl, hb⟩ | ⟨rest, rfl⟩
  · have hopen := isSpace_of_opensGap hb
    simp only [List.append_assoc, List.cons_append, List.nil_append]
    rw [oneLine_append_char hopen, oneLine_append_char hopen s (gap' ++ u),
      replaceGaps_behind_opening hb hgap, replaceGaps_behind_opening hb hgap']
  · rw [oneLine_before_closing s hgap, oneLine_before_closing s hgap']

/-! ### What is not white -/

/-- Characters that are not white are counted in the one-line form, but for the semicolons of the
separators. -/
theorem count_oneLine {c : Char} (hc : isSpace c = false) (hsep : c ≠ ';') (t : Text) :
    (oneLine t).count c = t.count c := by
  have hsolid : ∀ t : Text, t.count c = (solid t).count c := fun t =>
    (List.count_filter (by simp [hc])).symm
  have hperm := (solid_pieces_perm none t).count_eq c
  rw [← oneLine_eq_flatten, List.count_append, List.count_replicate, if_neg (by simpa using hsep.symm),
    Nat.zero_add] at hperm
  rw [hsolid, hperm, ← hsolid]

/-- A text leaves behind another one at least what it leaves right behind `(` or `,`. -/
theorem length_replaceGaps_le {b : Char} (hb : opensGap b = true) {before : Option Char} {gap : Text}
    (hgap : ∀ c ∈ gap, isSpace c = true) (t u : Text) :
    (replaceGaps gapText (some b) [] u).length ≤ (replaceGaps gapText before gap (t ++ u)).length := by
  induction t generalizing before gap with
  | nil =>
    rcases white_or_first u with hwhite | ⟨gap', c, rest, rfl, hgap', hc⟩
    · rw [replaceGaps_white hwhite]
      exact Nat.zero_le _
    · rw [replaceGaps_gap_char hgap' hc, gapText_some, if_pos (Or.inl hb), List.nil_append,
        List.nil_append, replaceGaps_append hgap', replaceGaps_char hc, List.length_append]
      exact Nat.le_add_left _ _
  | cons c t ih =>
    cases hc : isSpace c with
    | true =>
      rw [List.cons_append, replaceGaps_space hc]
      exact ih (isSpace_of_mem_concat hgap hc)
    | false =>
      have hlater : _ ≤ (replaceGaps gapText (some c) [] (t ++ u)).length := ih (by simp)
      rw [List.cons_append, replaceGaps_char hc, List.length_append, List.length_cons]
      omega

/-- **What is taken away in front of `)` or behind `(` or `,` shows**, unless it is white. -/
theorem oneLine_ne_of_lost {s t : Text} (h : ClosesUp s t) (hlost : ¬ ∀ c ∈ t, isSpace c = true)
    {gap : Text} (hgap : ∀ c ∈ gap, isSpace c = true) (u : Text) :
    oneLine (s ++ u) ≠ oneLine (s ++ gap ++ (t ++ u)) := by
  intro hsame
  rcases closesUp_cases h with ⟨s, b, rfl, hb⟩ | ⟨rest, rfl⟩
  · -- behind the opening character the line gets shorter
    have hopen := isSpace_of_opensGap hb
    obtain ⟨gap', c, rest, rfl, hgap', hc⟩ := (white_or_first t).resolve_left hlost
    simp only [List.append_assoc, List.cons_append, List.nil_append] at hsame
    rw [oneLine_append_char hopen, oneLine_append_char hopen s (gap ++ _)] at hsame
    have hbehind := congrArg List.length (List.append_cancel_left hsame)
    rw [replaceGaps_behind_opening hb hgap, replaceGaps_behind_opening hb hgap', replaceGaps_char hc,
      List.length_append, List.length_cons] at hbehind
    have hle : _ ≤ (replaceGaps gapText (some c) [] (rest ++ u)).length :=
      length_replaceGaps_le hb (by simp) rest u
    omega
  · -- the closing bracket is missing
    have hcount := congrArg (List.count ')') hsame
    rw [count_oneLine (by decide) (by decide), count_oneLine (by decide) (by decide)] at hcount
    simp only [List.count_append, List.count_cons_self] at hcount
    omega

end IoSource.Text
