import IoSource.Proofs.NormalForm.Seam

/-!
# The statements of a fragment

The statements of a one-line form are what its separators part, so that they can be joined again
(`intercalate_statements`).  If each line of a fragment stands alone, as one statement or none, then
these statements are the one-line forms of the lines (`statements_of_lines`).

A statement may end with a semicolon, as the separator behind it starts with another one.  The search
for a separator passes the first semicolon by, since no space follows it.
-/

namespace IoSource.Text

/-! ### Cutting at separators -/

theorem splitAtSeparators_cons {c : Char} {rest : Text}
    (h : ¬ (c = ';' ∧ rest.head? = some ' ')) {piece : Text} {pieces : List Text}
    (hrest : splitAtSeparators rest = piece :: pieces) :
    splitAtSeparators (c :: rest) = (c :: piece) :: pieces := by
  rw [splitAtSeparators, hrest]
  rintro later rfl rfl
  exact h ⟨rfl, rfl⟩

/-- **A piece ends at the first separator**, which may stand behind a semicolon of the piece. -/
theorem splitAtSeparators_append {piece : Text} (h : ¬ statementSeparator <:+: piece)
    (rest : Text) :
    splitAtSeparators (piece ++ (statementSeparator ++ rest)) =
      piece :: splitAtSeparators rest := by
  induction piece with
  | nil => rfl
  | cons c piece ih =>
    obtain ⟨hpair, htail⟩ := not_or.mp (mt List.infix_cons_iff.mpr h)
    rw [statementSeparator, Comment.pair_prefix_cons_iff] at hpair
    refine splitAtSeparators_cons ?_ (ih htail)
    rintro ⟨rfl, hhead⟩
    cases piece with
    | nil => exact absurd (Option.some.inj hhead) (by decide)
    | cons d piece => exact hpair ⟨rfl, hhead⟩

theorem splitAtSeparators_of_not_infix {piece : Text} (h : ¬ statementSeparator <:+: piece) :
    splitAtSeparators piece = [piece] := by
  induction piece with
  | nil => rfl
  | cons c piece ih =>
    obtain ⟨hpair, htail⟩ := not_or.mp (mt List.infix_cons_iff.mpr h)
    rw [statementSeparator, Comment.pair_prefix_cons_iff] at hpair
    exact splitAtSeparators_cons (fun ⟨hc, hhead⟩ => hpair ⟨hc.symm, hhead⟩) (ih htail)

/-- Pieces without separators are found again between them. -/
theorem splitAtSeparators_intercalate {pieces : List Text} (hne : pieces ≠ [])
    (h : ∀ piece ∈ pieces, ¬ statementSeparator <:+: piece) :
    splitAtSeparators (statementSeparator.intercalate pieces) = pieces := by
  induction pieces with
  | nil => exact absurd rfl hne
  | cons piece pieces ih =>
    have hpiece := h piece List.mem_cons_self
    cases pieces with
    | nil => rw [List.intercalate_singleton, splitAtSeparators_of_not_infix hpiece]
    | cons next pieces =>
      rw [List.intercalate_cons_cons, List.append_assoc, splitAtSeparators_append hpiece,
        ih (List.cons_ne_nil _ _) fun p hp => h p (List.mem_cons_of_mem _ hp)]

theorem splitAtSeparators_ne_nil (t : Text) : splitAtSeparators t ≠ [] := by
  fun_cases splitAtSeparators t with
  | _ => simp

theorem intercalate_cons_head (c : Char) (piece : Text) (pieces : List Text) :
    statementSeparator.intercalate ((c :: piece) :: pieces) =
      c :: statementSeparator.intercalate (piece :: pieces) := by
  cases pieces with
  | nil => rw [List.intercalate_singleton, List.intercalate_singleton]
  | cons next pieces => rw [List.intercalate_cons_cons, List.intercalate_cons_cons]; rfl

/-- **The pieces make up the text again.** -/
theorem intercalate_splitAtSeparators (t : Text) :
    statementSeparator.intercalate (splitAtSeparators t) = t := by
  induction t using splitAtSeparators.induct with
  | case1 => rfl
  | case2 rest ih =>
    obtain ⟨piece, pieces, hpieces⟩ := List.exists_cons_of_ne_nil (splitAtSeparators_ne_nil rest)
    rw [splitAtSeparators, hpieces, List.intercalate_cons_cons, ← hpieces, ih]
    rfl
  | case3 c rest hsep hnone ih => exact absurd hnone (splitAtSeparators_ne_nil rest)
  | case4 c rest hsep piece pieces hpieces ih =>
    rw [hpieces] at ih
    rw [splitAtSeparators, hpieces]
    · exact (intercalate_cons_head c piece pieces).trans (congrArg (List.cons c) ih)
    · exact hsep

/-- The statements of a line make up the line again. -/
theorem intercalate_statements (line : Text) :
    statementSeparator.intercalate (statements line) = line := by
  cases line with
  | nil => rfl
  | cons c rest => exact intercalate_splitAtSeparators (c :: rest)

/-- **Statements are found again** if none of them is empty or holds a separator. -/
theorem statements_intercalate {pieces : List Text}
    (h : ∀ piece ∈ pieces, piece ≠ [] ∧ ¬ statementSeparator <:+: piece) :
    statements (statementSeparator.intercalate pieces) = pieces := by
  cases pieces with
  | nil => rfl
  | cons piece pieces =>
    obtain ⟨c, rest, rfl⟩ := List.exists_cons_of_ne_nil (h piece List.mem_cons_self).1
    rw [intercalate_cons_head, statements, ← intercalate_cons_head]
    · exact splitAtSeparators_intercalate (List.cons_ne_nil _ _) fun p hp => (h p hp).2
    · exact List.cons_ne_nil _ _

/-! ### The statements of lines -/

/-- A line that makes up its statements alone, which is one or none: it leaves no block comment open,
and its one-line form neither holds a separator nor goes on from the line above or in the line
below. -/
structure StandsAlone (line : Text) : Prop where
  closed : Comment.ClosesBlocks line
  whole : ¬ statementSeparator <:+: normalize line
  last : (normalize line).getLast?.any opensGap = false
  first : (normalize line).head? ≠ some ')'

instance (line : Text) : Decidable (StandsAlone line) :=
  decidable_of_iff
    (Comment.ClosesBlocks line ∧ ¬ statementSeparator <:+: normalize line ∧
      (normalize line).getLast?.any opensGap = false ∧ (normalize line).head? ≠ some ')')
    ⟨fun h => ⟨h.1, h.2.1, h.2.2.1, h.2.2.2⟩, fun h => ⟨h.closed, h.whole, h.last, h.first⟩⟩

def statementsOf (lines : List Text) : List Text := (lines.map normalize).filter (· ≠ [])

theorem statementsOf_cons (line : Text) (lines : List Text) :
    statementsOf (line :: lines) =
      if normalize line = [] then statementsOf lines else normalize line :: statementsOf lines := by
  rw [statementsOf, List.map_cons, List.filter_cons]
  by_cases h : normalize line = [] <;> simp [h, statementsOf]

theorem mem_statementsOf {lines : List Text} (h : ∀ line ∈ lines, StandsAlone line) {s : Text}
    (hs : s ∈ statementsOf lines) : s ≠ [] ∧ ∃ line, StandsAlone line ∧ s = normalize line := by
  obtain ⟨hmem, hne⟩ := List.mem_filter.mp hs
  obtain ⟨line, hline, rfl⟩ := List.mem_map.mp hmem
  exact ⟨by simpa using hne, line, h line hline, rfl⟩

theorem joinLines_nil (a : Text) : joinLines a [] = a := by
  rw [joinLines, if_pos rfl]
  split
  · next h => exact h.symm
  · rfl

/-- A line that stands alone is joined to later statements by a separator, if there are both. -/
theorem joinLines_intercalate {line : Text} (hline : StandsAlone line) {lines : List Text}
    (hlines : ∀ line ∈ lines, StandsAlone line) :
    joinLines (normalize line) (statementSeparator.intercalate (statementsOf lines)) =
      statementSeparator.intercalate (statementsOf (line :: lines)) := by
  rw [statementsOf_cons, joinLines]
  by_cases hempty : normalize line = []
  · rw [if_pos hempty, if_pos hempty]
  rw [if_neg hempty, if_neg hempty]
  have hstatements : ∀ s ∈ statementsOf lines, _ := fun s hs => mem_statementsOf hlines hs
  cases hcases : statementsOf lines with
  | nil => simp [List.intercalate_singleton]
  | cons s later =>
    obtain ⟨hne, next, hnext, hs⟩ := hstatements s (by rw [hcases]; exact List.mem_cons_self)
    obtain ⟨c, rest, hc⟩ := List.exists_cons_of_ne_nil hne
    have hfirst : c ≠ ')' := by
      rintro rfl
      exact hnext.first (by rw [← hs, hc]; rfl)
    rw [hc, intercalate_cons_head, if_neg (List.cons_ne_nil _ _), if_neg, ← intercalate_cons_head,
      List.intercalate_cons_cons]
    simp [hline.last, hfirst]

/-- **The one-line form of lines that stand alone.** -/
theorem normalize_lines {lines : List Text} (h : ∀ line ∈ lines, StandsAlone line) :
    normalize (['\n'].intercalate lines) = statementSeparator.intercalate (statementsOf lines) := by
  induction lines with
  | nil => rfl
  | cons line lines ih =>
    have hline := h line List.mem_cons_self
    have hlines : ∀ l ∈ lines, StandsAlone l := fun l hl => h l (List.mem_cons_of_mem _ hl)
    rw [← joinLines_intercalate hline hlines]
    cases lines with
    | nil =>
      rw [List.intercalate_singleton]
      exact (joinLines_nil _).symm
    | cons next lines =>
      rw [← ih hlines, List.intercalate_cons_cons, List.append_assoc, List.singleton_append,
        normalize_eq_oneLine, Comment.erase_append_newline hline.closed, oneLine_append_newline,
        ← normalize_eq_oneLine, ← normalize_eq_oneLine]

/-- **Each line is a statement.**  If the lines of a fragment stand alone, its statements are the
one-line forms of the lines in their order, but for those that leave nothing.  Statements of any text,
joined by separators, give the text again. -/
theorem statements_of_lines :
    (∀ lines : List Text, (∀ line ∈ lines, StandsAlone line) →
      statements (normalize (['\n'].intercalate lines)) =
        (lines.map normalize).filter (· ≠ [])) ∧
    ∀ t : Text, statementSeparator.intercalate (statements t) = t := by
  refine ⟨fun lines h => ?_, intercalate_statements⟩
  rw [normalize_lines h]
  refine statements_intercalate fun s hs => ?_
  obtain ⟨hne, line, hline, rfl⟩ := mem_statementsOf h hs
  exact ⟨hne, hline.whole⟩

/-- Of four lines two are statements, the first of which ends with a semicolon. -/
theorem statements_of_lines_two :
    let lines := ["a(1);".toList, "# (".toList, [], "b /* ; */ c".toList]
    (∀ line ∈ lines, StandsAlone line) ∧
      normalize (['\n'].intercalate lines) = "a(1);; b c".toList ∧
      statements (normalize (['\n'].intercalate lines)) = ["a(1);".toList, "b c".toList] := by
  intro lines
  have halone : ∀ line ∈ lines, StandsAlone line := by decide +kernel
  refine ⟨halone, by decide +kernel, ?_⟩
  rw [statements_of_lines.1 lines halone]
  decide +kernel

end IoSource.Text
