import IoSource.Proofs.Cleanup.Settled
import IoSource.Proofs.Text.Pieces

/-!
# Cleaning up line by line

What a cleanup does to a blank is told by the text behind it, across the end of the line.  It comes
to the same as cutting the text at its line feeds and cleaning each line by itself (`cleanLine`),
before the line breaks at the end of the text are made into one (`cleanUp_line_by_line`).

So the lines stay in their places, and a line keeps what stands in front of its written characters,
be it indentation or not.
-/

namespace IoSource.Text

/-- A line without the blanks at its end.  A carriage return there belongs to the end of the line,
and the blanks in front of it go. -/
def cleanLine (line : Text) : Text :=
  match line.reverse with
  | '\r' :: _ => dropEndWhile isBlank line.dropLast ++ ['\r']
  | _ => dropEndWhile isBlank line

def ended (lines : List Text) : Text := lines.flatMap (· ++ ['\n'])

/-- What is neither indentation nor the end of a line. -/
def isWritten (c : Char) : Bool := !isBlank c && !isLineBreak c

theorem cleanLine_return (stem : Text) :
    cleanLine (stem ++ ['\r']) = dropEndWhile isBlank stem ++ ['\r'] := by
  rw [cleanLine, List.reverse_append, List.dropLast_concat]
  rfl

theorem cleanLine_of_ne {line : Text} (h : line.getLast? ≠ some '\r') :
    cleanLine line = dropEndWhile isBlank line := by
  rw [cleanLine]
  split
  · next rest hreverse =>
    rw [List.getLast?_eq_head?_reverse, hreverse] at h
    exact absurd rfl h
  · rfl

/-! ### One line -/

/-- In front of a character that is no blank, and with which the line goes on, no blank stands at
the end of the line. -/
theorem endsLineBehind_append_cons {s rest : Text} {c : Char} (hs : '\n' ∉ s)
    (hc : isBlank c = false) (hgoes : endsLine (c :: rest) = false) :
    endsLineBehind (s ++ c :: rest) = false := by
  induction s with
  | nil => rwa [List.nil_append, endsLineBehind_char hc]
  | cons d s ih =>
    obtain ⟨hfeed, hs⟩ := not_or.mp (mt List.mem_cons.mpr hs)
    rw [List.cons_append]
    cases hd : isBlank d with
    | true => rw [endsLineBehind_blank hd, ih hs]
    | false =>
      rw [endsLineBehind_char hd, ← Bool.not_eq_true, endsLine_cons_iff]
      rintro (rfl | ⟨-, hnil | hnext⟩)
      · exact hfeed rfl
      · exact absurd hnil (by simp)
      · cases s with
        | nil =>
          obtain rfl : c = '\n' := by simpa using hnext
          exact absurd hgoes (by simp [endsLine])
        | cons e s =>
          obtain rfl : e = '\n' := by simpa using hnext
          exact hs List.mem_cons_self

theorem trimLineEnds_append_cons {s rest : Text} {c : Char} (hs : '\n' ∉ s)
    (hc : isBlank c = false) (hgoes : endsLine (c :: rest) = false) :
    trimLineEnds (s ++ c :: rest) = s ++ c :: trimLineEnds rest := by
  induction s with
  | nil => rw [List.nil_append, trimLineEnds_cons, if_neg (by simp [hc]), List.nil_append]
  | cons d s ih =>
    obtain ⟨-, hs⟩ := not_or.mp (mt List.mem_cons.mpr hs)
    have hstays := endsLineBehind_append_cons hs hc hgoes
    rw [List.cons_append, trimLineEnds_cons, if_neg (by simp [hstays]), ih hs, List.cons_append]

/-- In front of the end of a line the last run of blanks goes. -/
theorem trimLineEnds_append_end {stem rest : Text} (hstem : '\n' ∉ stem)
    (hend : endsLine rest = true)
    (hreturn : stem.getLast? = some '\r' → endsLine ('\r' :: rest) = false) :
    trimLineEnds (stem ++ rest) = dropEndWhile isBlank stem ++ trimLineEnds rest := by
  obtain ⟨run, hrun, hsplit⟩ := exists_dropEndWhile_append isBlank stem
  have hhead : ∀ d ∈ rest.head?, isBlank d ≠ true := by
    intro d hd
    obtain ⟨later, rfl⟩ := List.head?_eq_some_iff.mp hd
    rw [not_isBlank_of_endsLine hend]
    exact Bool.false_ne_true
  have hgoes : trimLineEnds (run ++ rest) = trimLineEnds rest := by
    rw [trimLineEnds_run hrun hhead, if_pos hend, List.nil_append]
  rcases dropEndWhile_eq_nil_or_concat isBlank stem with hnone | ⟨s, c, hcore, hc⟩
  · rw [hnone, List.nil_append] at hsplit ⊢
    rw [← hsplit, hgoes]
  · rw [hcore] at hsplit ⊢
    rw [List.append_assoc, List.singleton_append] at hsplit
    have hs : '\n' ∉ s := fun hmem => hstem (by rw [← hsplit]; exact List.mem_append_left _ hmem)
    have hline : endsLine (c :: (run ++ rest)) = false := by
      rw [← Bool.not_eq_true, endsLine_cons_iff]
      rintro (rfl | ⟨rfl, hnext⟩)
      · exact hstem (by rw [← hsplit]; simp)
      · cases run with
        | nil =>
          rw [← hsplit] at hreturn
          have hfalse := hreturn (by simp)
          rw [← Bool.not_eq_true, endsLine_cons_iff] at hfalse
          exact hfalse (Or.inr ⟨rfl, hnext⟩)
        | cons b run =>
          have hb := hrun b List.mem_cons_self
          obtain rfl : b = '\n' := by simpa using hnext
          exact absurd hb (by decide)
    rw [← hsplit, List.append_assoc, List.cons_append, trimLineEnds_append_cons hs hc hline, hgoes,
      List.append_assoc, List.singleton_append]

/-- **A line is cleaned by itself**, whether it is the last one or not. -/
theorem trimLineEnds_line {line rest : Text} (hline : '\n' ∉ line)
    (hrest : rest = [] ∨ rest.head? = some '\n') :
    trimLineEnds (line ++ rest) = cleanLine line ++ trimLineEnds rest := by
  by_cases hlast : line.getLast? = some '\r'
  · obtain ⟨stem, rfl⟩ := List.getLast?_eq_some_iff.mp hlast
    have hend : endsLine ('\r' :: rest) = true := endsLine_cons_iff.mpr (Or.inr ⟨rfl, hrest⟩)
    have hstem : '\n' ∉ stem := fun hmem => hline (List.mem_append_left _ hmem)
    have hreturn : endsLine ('\r' :: '\r' :: rest) = false := by
      rw [← Bool.not_eq_true, endsLine_cons_iff]
      simp
    rw [List.append_assoc, List.singleton_append,
      trimLineEnds_append_end hstem hend fun _ => hreturn, trimLineEnds_cons,
      if_neg (by simp [isBlank]), cleanLine_return, List.append_assoc, List.singleton_append]
  · have hend : endsLine rest = true := by
      rcases hrest with rfl | hfeed
      · rfl
      · obtain ⟨later, rfl⟩ := List.head?_eq_some_iff.mp hfeed
        rfl
    rw [trimLineEnds_append_end hline hend fun h => absurd h hlast, cleanLine_of_ne hlast]

theorem trimLineEnds_line_append {line : Text} (hline : '\n' ∉ line) (rest : Text) :
    trimLineEnds (line ++ '\n' :: rest) = cleanLine line ++ '\n' :: trimLineEnds rest := by
  rw [trimLineEnds_line hline (Or.inr rfl), trimLineEnds_cons, if_neg (by simp [isBlank])]

/-! ### All lines -/

/-- **Trimming the line ends** of a text is cleaning its lines. -/
theorem trimLineEnds_eq_intercalate (t : Text) :
    trimLineEnds t = ['\n'].intercalate ((cutAt '\n' t).map cleanLine) := by
  induction t using pieces_induction '\n' with
  | last line hline =>
    have h := trimLineEnds_line hline (Or.inl rfl)
    rw [List.append_nil] at h
    rw [cutAt_of_not_mem hline, List.map_singleton, List.intercalate_singleton, h]
    exact List.append_nil _
  | cut line rest hline ih =>
    obtain ⟨next, later, hlater⟩ := List.exists_cons_of_ne_nil (cutAt_ne_nil '\n' rest)
    rw [trimLineEnds_line_append hline, ih, cutAt_append_cons hline, hlater, List.map_cons,
      List.map_cons, List.map_cons, List.intercalate_cons_cons, List.append_assoc,
      List.singleton_append]

theorem filter_trimLineEnds (t : Text) :
    (trimLineEnds t).filter (fun c => !isBlank c) = t.filter fun c => !isBlank c := by
  induction t with
  | nil => rfl
  | cons c t ih =>
    rw [trimLineEnds_cons]
    split
    · next hgoes =>
      rw [ih, List.filter_cons_of_neg (by simp [(Bool.and_eq_true_iff.mp hgoes).1])]
    · rw [List.filter_cons, List.filter_cons, ih]

theorem ended_cons (line : Text) (lines : List Text) :
    ended (line :: lines) = line ++ '\n' :: ended lines := by
  rw [ended, List.flatMap_cons, List.append_assoc, List.singleton_append, ended]

theorem trimLineEnds_ended_append {above : List Text} (habove : ∀ line ∈ above, '\n' ∉ line)
    (rest : Text) :
    trimLineEnds (ended above ++ rest) = ended (above.map cleanLine) ++ trimLineEnds rest := by
  induction above with
  | nil => rfl
  | cons line above ih =>
    have hline : '\n' ∉ line := habove line List.mem_cons_self
    have hlater := ih fun l hl => habove l (List.mem_cons_of_mem line hl)
    rw [List.map_cons, ended_cons, ended_cons, List.append_assoc, List.cons_append,
      trimLineEnds_line_append hline, hlater, List.append_assoc, List.cons_append]

theorem finalLineEnd_eq (t : Text) :
    finalLineEnd t =
      if ¬ (['\n'] <:+ t ∨ ['\r'] <:+ t) then []
      else if ['\r', '\n'] <:+ t then ['\r', '\n'] else ['\n'] := by
  have hsuffix : ∀ ends : Text, ends <:+ t ↔ ends.reverse <+: t.reverse := fun ends =>
    List.reverse_prefix.symm
  simp only [finalLineEnd, hsuffix]
  generalize t.reverse = s
  split
  · next rest => simp
  · next rest hone =>
    have hreturn : ¬ ['\r'] <+: rest := by
      rintro ⟨later, rfl⟩
      exact hone later rfl
    simp [List.cons_prefix_cons, hreturn]
  · next rest => simp
  · next htwo hfeed hreturn =>
    have hnone : ¬ (['\n'] <+: s ∨ ['\r'] <+: s) := by
      rintro (⟨later, rfl⟩ | ⟨later, rfl⟩)
      · exact hfeed later rfl
      · exact hreturn later rfl
    simp [hnone]

theorem filter_isWritten (t : Text) :
    t.filter isWritten = (t.filter fun c => !isBlank c).filter fun c => !isLineBreak c := by
  rw [List.filter_filter]
  congr 1
  funext c
  exact Bool.and_comm _ _

theorem filter_cleanUp (t : Text) : (cleanUp t).filter isWritten = t.filter isWritten := by
  have hnone : ∀ w : Text, (∀ c ∈ w, isLineBreak c = true) → w.filter isWritten = [] := by
    intro w hw
    rw [List.filter_eq_nil_iff]
    intro c hc
    simp [isWritten, hw c hc]
  obtain ⟨ends, hends, hsplit⟩ := exists_dropEndWhile_append isLineBreak (trimLineEnds t)
  have hbody : (dropEndWhile isLineBreak (trimLineEnds t)).filter isWritten =
      t.filter isWritten := by
    rw [filter_isWritten t, ← filter_trimLineEnds, ← filter_isWritten, ← hsplit,
      List.filter_append, hnone ends hends, List.append_nil, hsplit]
  rw [cleanUp_eq, ← hbody]
  split
  · next hempty => rw [hempty]
  · rw [List.filter_append, hnone _ (isLineBreak_of_mem_finalLineEnd t), List.append_nil]

/-- In front of a written character lines have been cleaned one by one, and its own not at all. -/
theorem cleanUp_above {above : List Text} (habove : ∀ line ∈ above, '\n' ∉ line) {before : Text}
    (hbefore : '\n' ∉ before) {c : Char} (hc : isWritten c = true) (rest : Text) :
    ∃ rest', cleanUp (ended above ++ (before ++ c :: rest)) =
      ended (above.map cleanLine) ++ (before ++ c :: rest') := by
  obtain ⟨hblank, hbreak⟩ : isBlank c = false ∧ isLineBreak c = false := by
    simpa [isWritten] using hc
  have hgoes : endsLine (c :: rest) = false := by
    rw [← Bool.not_eq_true, endsLine_cons_iff]
    rintro (rfl | ⟨rfl, -⟩)
    · exact absurd hbreak (by decide)
    · exact absurd hbreak (by decide)
  rw [cleanUp_eq, trimLineEnds_ended_append habove, trimLineEnds_append_cons hbefore hblank hgoes,
    ← List.append_assoc, dropEndWhile_append_cons hbreak, if_neg (by simp)]
  exact ⟨_, by rw [List.append_assoc, List.append_assoc, List.cons_append]⟩

/-- **A cleanup goes line by line** and touches nothing else: it cleans every line, cuts the line
breaks at the end, and puts one back if there were any.  The written characters stay.  In front of
each of them the lines stand as before, without the blanks at their ends, and so does the beginning
of its own line. -/
theorem cleanUp_line_by_line (t : Text) :
    let body := dropEndWhile isLineBreak (['\n'].intercalate ((cutAt '\n' t).map cleanLine))
    (cleanUp t =
      if body = [] ∨ ¬ (['\n'] <:+ t ∨ ['\r'] <:+ t) then body
      else if ['\r', '\n'] <:+ t then body ++ ['\r', '\n'] else body ++ ['\n']) ∧
    (cleanUp t).filter isWritten = t.filter isWritten ∧
    ∀ (above : List Text) (before : Text) (c : Char) (rest : Text),
      t = ended above ++ (before ++ c :: rest) →
      (∀ line ∈ above, '\n' ∉ line) → '\n' ∉ before → isWritten c = true →
      (∃ rest', cleanUp t = ended (above.map cleanLine) ++ (before ++ c :: rest')) ∧
      (ended (above.map cleanLine)).filter (fun d => !isBlank d) =
        (ended above).filter fun d => !isBlank d := by
  intro body
  refine ⟨?_, filter_cleanUp t, ?_⟩
  · have hbody : dropEndWhile isLineBreak (trimLineEnds t) = body := by
      rw [trimLineEnds_eq_intercalate]
    rw [cleanUp_eq, hbody, finalLineEnd_eq]
    by_cases hempty : body = []
    · rw [if_pos hempty, if_pos (Or.inl hempty), hempty]
    · by_cases hends : ['\n'] <:+ t ∨ ['\r'] <:+ t
      · have hneither : ¬ (body = [] ∨ ¬ (['\n'] <:+ t ∨ ['\r'] <:+ t)) := by
          rintro (h | h)
          · exact hempty h
          · exact h hends
        rw [if_neg hempty, if_neg hneither, if_neg (not_not_intro hends), apply_ite (body ++ ·)]
      · rw [if_neg hempty, if_pos (Or.inr hends), if_pos hends, List.append_nil]
  · rintro above before c rest rfl habove hbefore hc
    refine ⟨cleanUp_above habove hbefore hc rest, ?_⟩
    have hlines := trimLineEnds_ended_append habove []
    rw [List.append_nil] at hlines
    rw [← filter_trimLineEnds (ended above), hlines]
    exact congrArg _ (List.append_nil _).symm

end IoSource.Text
