import IoSource.NormalForm
import IoSource.Proofs.Text.Runs
import IoSource.Proofs.Text.Strip

/-!
# The one-line form in one pass

`Text.normalize` rewrites a text four times after its comments have gone.  Each of these passes is a
rule about gaps, so all four together are one rule, `gapText`, and the one-line form can be read off
the runs of the text without its comments (`normalize_run_by_run`).

The passes cannot be swapped freely.  A gap keeps its place when it becomes empty, so a later pass
still meets the same neighbours; and squeezing a gap never removes its last line break, so it does
not matter that separators are put in only at the end.
-/

namespace IoSource.Text

/-- A gap that stays: each block of blanks in it becomes one space. -/
def singleBlanks (gap : Text) : Text :=
  (runs isBlank gap).flatMap fun block => if block.all isBlank then [' '] else block

/-- What becomes of a gap: nothing at the ends of the text, behind `(` or `,` and in front of `)`; a
separator if it holds a line break; otherwise the gap itself with single blanks. -/
def gapText : GapRule := fun before gap after =>
  if before = none ∨ after = none ∨ before.any opensGap ∨ after = some ')' then []
  else if gap.any isLineBreak then statementSeparator
  else singleBlanks gap

/-- Between two characters only these decide, and a line break in the gap. -/
theorem gapText_some (b c : Char) (gap : Text) :
    gapText (some b) gap (some c) =
      if opensGap b = true ∨ c = ')' then []
      else if gap.any isLineBreak then statementSeparator
      else singleBlanks gap := by
  simp [gapText]

theorem gapText_last (before : Option Char) (gap : Text) : gapText before gap none = [] :=
  if_pos (Or.inr (Or.inl rfl))

theorem gapText_first (gap : Text) (after : Option Char) : gapText none gap after = [] :=
  if_pos (Or.inl rfl)

theorem gapText_nil (before after : Option Char) : gapText before [] after = [] := by
  rw [gapText]
  split <;> rfl

/-- A text without comments on one line. -/
def oneLine (t : Text) : Text := replaceGaps gapText none [] t

/-! ### Squeezing -/

theorem squeezeBlanks_eq (t : Text) : squeezeBlanks t = singleBlanks t := replaceRuns_eq_flatMap t

theorem singleBlanks_eq_nil_iff {gap : Text} : singleBlanks gap = [] ↔ gap = [] := by
  refine ⟨fun h => ?_, fun h => by rw [h]; rfl⟩
  rw [← squeezeBlanks_eq] at h
  cases gap with
  | nil => rfl
  | cons c gap =>
    rw [squeezeBlanks, replaceRuns] at h
    split at h <;> simp at h

theorem isBlank_of_not_isSpace {c : Char} (h : isSpace c = false) : isBlank c = false := by
  cases hb : isBlank c with
  | false => rfl
  | true => rw [isSpace_of_isBlank hb] at h; exact absurd h (by simp)

theorem squeezeBlanks_eq_replaceGaps (before : Option Char) (gap t : Text) :
    squeezeBlanks (gap ++ t) =
      replaceGaps (fun _ gap _ => squeezeBlanks gap) before gap t := by
  induction t generalizing before gap with
  | nil => rw [List.append_nil, replaceGaps_nil]
  | cons c rest ih =>
    cases hc : isSpace c with
    | true => rw [replaceGaps_space hc, ← ih, List.append_assoc, List.singleton_append]
    | false =>
      rw [replaceGaps_char hc, ← ih, List.nil_append]
      exact replaceRuns_cut (isBlank_of_not_isSpace hc) none gap rest

theorem isSpace_of_mem_singleBlanks {gap : Text} (hgap : ∀ c ∈ gap, isSpace c = true) :
    ∀ c ∈ singleBlanks gap, isSpace c = true := by
  intro c hc
  obtain ⟨block, hblock, hc⟩ := List.mem_flatMap.mp hc
  split at hc
  · rw [List.mem_singleton.mp hc]
    decide
  · refine hgap c ?_
    rw [← flatten_runs (p := isBlank) (t := gap)]
    exact List.mem_flatten_of_mem hblock hc

/-- **Squeezing keeps line breaks.** -/
theorem any_isLineBreak_singleBlanks (gap : Text) :
    (singleBlanks gap).any isLineBreak = gap.any isLineBreak := by
  have hblock : ∀ block : Text,
      (if block.all isBlank then [' '] else block).any isLineBreak = block.any isLineBreak := by
    intro block
    split
    · next h =>
      have hnone : block.any isLineBreak = false := List.any_eq_false.mpr fun c hc => by
        simp [not_isLineBreak_of_isBlank (List.all_eq_true.mp h c hc)]
      rw [hnone]
      decide
    · rfl
  rw [singleBlanks, List.any_flatMap]
  conv_rhs => rw [← flatten_runs (p := isBlank) (t := gap), List.any_flatten]
  exact List.any_congr rfl hblock

/-! ### The four passes -/

/-- The rule that closes a text up at brackets and commas. -/
def bracketGap : GapRule := fun before gap after =>
  if before.any opensGap || after = some ')' then [] else gap

/-- The rule that puts a separator in place of a line break. -/
def statementGap : GapRule := fun _ gap _ =>
  if gap.any isLineBreak then statementSeparator else gap

theorem closeBrackets_eq_replaceGaps (t : Text) :
    closeBrackets t = replaceGaps bracketGap none [] t := by
  refine replaceRuns_isSpace (fun _ _ _ _ => ?_) (fun before after => ?_) t
  · rfl
  · exact ite_self []

theorem separateStatements_eq_replaceGaps (t : Text) :
    separateStatements t = replaceGaps statementGap none [] t := by
  refine replaceRuns_isSpace (fun _ _ _ _ => ?_) (fun before after => ?_) t
  · rfl
  · rfl

theorem isSpace_of_mem_endGap {before after : Option Char} {gap : Text}
    (hgap : ∀ c ∈ gap, isSpace c = true) : ∀ c ∈ endGap before gap after, isSpace c = true := by
  intro c hc
  rw [endGap] at hc
  split at hc
  · exact absurd hc (by simp)
  · exact hgap c hc

theorem isSpace_of_mem_bracketGap {before after : Option Char} {gap : Text}
    (hgap : ∀ c ∈ gap, isSpace c = true) : ∀ c ∈ bracketGap before gap after, isSpace c = true := by
  intro c hc
  rw [bracketGap] at hc
  split at hc
  · exact absurd hc (by simp)
  · exact hgap c hc

/-- What the four passes do to a gap, one behind the other. -/
theorem statementGap_bracketGap_endGap (before : Option Char) (gap : Text) (after : Option Char) :
    statementGap before
        (bracketGap before (endGap before (squeezeBlanks gap) after) after) after =
      gapText before gap after := by
  rw [squeezeBlanks_eq]
  by_cases hbracket : before.any opensGap ∨ after = some ')'
  · have hdrop : gapText before gap after = [] := if_pos (by tauto)
    rw [bracketGap, if_pos (by simpa using hbracket), hdrop]
    rfl
  · rw [bracketGap, if_neg (by simpa using hbracket)]
    by_cases hend : before = none ∨ after = none
    · have hdrop : gapText before gap after = [] := if_pos (by tauto)
      rw [endGap, if_pos (by simpa using hend), hdrop]
      rfl
    · rw [endGap, if_neg (by simpa using hend), gapText, if_neg (by tauto), statementGap,
        any_isLineBreak_singleBlanks]

/-- **The four passes are one.** -/
theorem normalize_eq_oneLine (t : Text) : normalize t = oneLine (Comment.erase t) := by
  have hnil : ∀ c ∈ ([] : Text), isSpace c = true := by simp
  have hsqueeze := squeezeBlanks_eq_replaceGaps none [] (Comment.erase t)
  rw [List.nil_append] at hsqueeze
  have hwhite : ∀ gap : Text, (∀ c ∈ gap, isSpace c = true) →
      ∀ c ∈ squeezeBlanks gap, isSpace c = true := fun gap hgap => by
    rw [squeezeBlanks_eq]
    exact isSpace_of_mem_singleBlanks hgap
  rw [normalize, separateStatements_eq_replaceGaps, closeBrackets_eq_replaceGaps,
    strip_eq_replaceGaps [], hsqueeze,
    replaceGaps_replaceGaps (fun _ gap _ hgap => hwhite gap hgap) hnil,
    replaceGaps_replaceGaps (fun _ gap _ hgap => isSpace_of_mem_endGap (hwhite gap hgap)) hnil,
    replaceGaps_replaceGaps (fun _ gap _ hgap =>
      isSpace_of_mem_bracketGap (isSpace_of_mem_endGap (hwhite gap hgap))) hnil]
  refine replaceGaps_congr (fun before gap after _ => ?_) hnil _
  exact statementGap_bracketGap_endGap before gap after

/-! ### The line around a character -/

theorem replaceGaps_gap_char {before : Option Char} {gap : Text}
    (hgap : ∀ c ∈ gap, isSpace c = true) {c : Char} (hc : isSpace c = false) (rest : Text) :
    replaceGaps gapText before [] (gap ++ c :: rest) =
      gapText before gap (some c) ++ c :: replaceGaps gapText (some c) [] rest := by
  rw [replaceGaps_append hgap, replaceGaps_char hc, List.nil_append]

theorem replaceGaps_white {before : Option Char} {gap : Text}
    (hgap : ∀ c ∈ gap, isSpace c = true) : replaceGaps gapText before [] gap = [] := by
  have h : replaceGaps gapText before [] (gap ++ []) = replaceGaps gapText before ([] ++ gap) [] :=
    replaceGaps_append hgap []
  rw [List.append_nil] at h
  rw [h, replaceGaps_nil, gapText_last]

theorem oneLine_of_white {t : Text} (h : ∀ c ∈ t, isSpace c = true) : oneLine t = [] :=
  replaceGaps_white h

theorem oneLine_gap_char {gap : Text} (hgap : ∀ c ∈ gap, isSpace c = true) {c : Char}
    (hc : isSpace c = false) (rest : Text) :
    oneLine (gap ++ c :: rest) = c :: replaceGaps gapText (some c) [] rest := by
  rw [oneLine, replaceGaps_gap_char hgap hc, gapText_first, List.nil_append]

theorem oneLine_white_append {gap : Text} (hgap : ∀ c ∈ gap, isSpace c = true) (t : Text) :
    oneLine (gap ++ t) = oneLine t := by
  rcases white_or_first t with hwhite | ⟨gap', c, rest, rfl, hgap', hc⟩
  · rw [oneLine_of_white hwhite, oneLine_of_white]
    intro c hc
    exact (List.mem_append.mp hc).elim (hgap c) (hwhite c)
  · have hall : ∀ d ∈ gap ++ gap', isSpace d = true := fun d hd =>
      (List.mem_append.mp hd).elim (hgap d) (hgap' d)
    rw [← List.append_assoc, oneLine_gap_char hall hc, oneLine_gap_char hgap' hc]

/-- The line up to a character that is not white does not depend on what follows. -/
theorem oneLine_append_char {c : Char} (hc : isSpace c = false) (s rest : Text) :
    oneLine (s ++ c :: rest) = oneLine (s ++ [c]) ++ replaceGaps gapText (some c) [] rest :=
  replaceGaps_cut (gapText_last _ _) hc s rest

theorem getLast?_oneLine_concat {c : Char} (hc : isSpace c = false) (s : Text) :
    (oneLine (s ++ [c])).getLast? = some c := by
  have hlast : ∀ (s : Text) (before : Option Char) (gap : Text),
      (replaceGaps gapText before gap (s ++ [c])).getLast? = some c := by
    intro s
    induction s with
    | nil => intro before gap; simp [replaceGaps_char hc, gapText_last]
    | cons d s ih =>
      intro before gap
      cases hd : isSpace d with
      | true => rw [List.cons_append, replaceGaps_space hd, ih]
      | false => simp [replaceGaps_char hd, ih, List.getLast?_cons]
  exact hlast s none []

/-! ### What is kept and what is added -/

def solid (t : Text) : Text := t.filter fun c => !isSpace c

@[simp] theorem solid_append (s t : Text) : solid (s ++ t) = solid s ++ solid t :=
  List.filter_append s t

theorem solid_of_white {t : Text} (h : ∀ c ∈ t, isSpace c = true) : solid t = [] :=
  List.filter_eq_nil_iff.mpr fun c hc => by simp [h c hc]

theorem solid_eq_nil_iff {t : Text} : solid t = [] ↔ ∀ c ∈ t, isSpace c = true := by
  simp [solid]

theorem gapText_eq_separator_or_white {gap : Text} (hgap : ∀ c ∈ gap, isSpace c = true)
    (before after : Option Char) :
    gapText before gap after = statementSeparator ∨
      ∀ c ∈ gapText before gap after, isSpace c = true := by
  rw [gapText]
  split
  · exact Or.inr (by simp)
  · split
    · exact Or.inl rfl
    · exact Or.inr (isSpace_of_mem_singleBlanks hgap)

theorem ne_separator_of_white {t : Text} (h : ∀ c ∈ t, isSpace c = true) :
    t ≠ statementSeparator := by
  rintro rfl
  exact absurd (h ';' (by decide)) (by decide)

theorem ne_separator_of_word {t : Text} (h : ∀ c ∈ t, isSpace c = false) :
    t ≠ statementSeparator := by
  rintro rfl
  exact absurd (h ' ' (by decide)) (by decide)

/-- The pieces of the one-line form of a text: its runs, each gap replaced. -/
def pieces (before : Option Char) (t : Text) : List Text :=
  replaceEach gapText before (runs isSpace t)

theorem pieces_append {k : Bool} {run rest : Text} (hne : run ≠ [])
    (hrun : ∀ c ∈ run, isSpace c = k) (hrest : ∀ c ∈ rest.head?, isSpace c ≠ k)
    (before : Option Char) :
    pieces before (run ++ rest) =
      (if k then gapText before run rest.head? else run) :: pieces run.getLast? rest := by
  have hwhite : isWhite run = k := by
    cases k with
    | true => exact List.all_eq_true.mpr hrun
    | false =>
      obtain ⟨c, hc⟩ := List.exists_mem_of_ne_nil run hne
      exact List.all_eq_false.mpr ⟨c, hc, by simp [hrun c hc]⟩
  rw [pieces, runs_append hne hrun hrest, replaceEach, flatten_runs, hwhite, pieces]

/-- The characters of a text that are not white are kept in order. -/
theorem solid_sublist_pieces (before : Option Char) (t : Text) :
    (solid t).Sublist (solid (pieces before t).flatten) := by
  induction t using runs_induction isSpace generalizing before with
  | nil => exact List.Sublist.refl _
  | run k run rest hne hrun hrest ih =>
    rw [pieces_append hne hrun hrest, List.flatten_cons, solid_append, solid_append]
    cases k with
    | false => exact (List.Sublist.refl _).append (ih _)
    | true =>
      rw [solid_of_white hrun]
      exact (List.nil_sublist _).append (ih _)

theorem solid_pieces_perm (before : Option Char) (t : Text) :
    (solid (pieces before t).flatten).Perm
      (List.replicate ((pieces before t).count statementSeparator) ';' ++ solid t) := by
  induction t using runs_induction isSpace generalizing before with
  | nil => exact List.Perm.refl _
  | run k run rest hne hrun hrest ih =>
    rw [pieces_append hne hrun hrest, List.flatten_cons, solid_append, solid_append]
    cases k with
    | false =>
      rw [if_neg (by simp), List.count_cons_of_ne (ne_separator_of_word hrun)]
      exact ((ih _).append_left _).trans (List.perm_append_comm_assoc _ _ _)
    | true =>
      rw [if_pos rfl, solid_of_white hrun, List.nil_append]
      rcases gapText_eq_separator_or_white hrun before rest.head? with hsep | hwhite
      · rw [hsep, List.count_cons_self, List.replicate_succ, List.cons_append]
        exact (ih _).cons ';'
      · rw [solid_of_white hwhite, List.count_cons_of_ne (ne_separator_of_white hwhite)]
        exact ih _

theorem oneLine_eq_flatten (t : Text) : oneLine t = (pieces none t).flatten :=
  replaceGaps_eq_flatten gapText_nil none t

theorem oneLine_eq_nil_iff {t : Text} : oneLine t = [] ↔ ∀ c ∈ t, isSpace c = true := by
  refine ⟨fun h => ?_, oneLine_of_white⟩
  have hsub := solid_sublist_pieces none t
  rw [← oneLine_eq_flatten, h] at hsub
  exact solid_eq_nil_iff.mp (List.sublist_nil.mp hsub)

/-- Exactly the texts that hold nothing outside comments become empty. -/
theorem normalize_eq_nil_iff {t : Text} : normalize t = [] ↔ (Comment.erase t).isWhite := by
  rw [normalize_eq_oneLine, oneLine_eq_nil_iff, isWhite, List.all_eq_true]

/-- **The one-line form, run by run.**  It puts the runs of the text without its comments one behind
another, each run of white space replaced on its own.  So no other character is lost, doubled or
moved, only the semicolons of the separators are new, and nothing is left exactly when there was
nothing but white space. -/
theorem normalize_run_by_run (t : Text) :
    normalize t = (pieces none (Comment.erase t)).flatten ∧
      (solid (Comment.erase t)).Sublist (solid (normalize t)) ∧
      (solid (normalize t)).Perm
        (List.replicate ((pieces none (Comment.erase t)).count statementSeparator) ';' ++
          solid (Comment.erase t)) ∧
      (normalize t = [] ↔ ∀ c ∈ Comment.erase t, isSpace c = true) := by
  have hflat := oneLine_eq_flatten (Comment.erase t)
  rw [normalize_eq_oneLine]
  refine ⟨hflat, ?_, ?_, oneLine_eq_nil_iff⟩
  · rw [hflat]
    exact solid_sublist_pieces none _
  · rw [hflat]
    exact solid_pieces_perm none _

end IoSource.Text
