import IoSource.Cleanup
import IoSource.Text.Line
import IoSource.Proofs.Comment.Erase
import IoSource.Proofs.NormalForm.OnePass

/-!
# Line ends do not show

The one-line form does not depend on how the lines of a text end: not on the characters that stand
for a line end, and not on blanks in front of it or on empty lines at the end of the text.

None of these rewritings commutes with deleting comments character by character.  So the proof is
about pairs of texts instead: `SameLines` relates two texts that differ only in their line ends.  A
rewriting leads from a text to a related one, deleting comments keeps the relation
(`SameLines.erase`), and related texts have the same one-line form (`SameLines.normalize_eq`).
-/

namespace IoSource.Text

open Comment (StartsComment blockLength)

/-- White space that ends a line. -/
structure IsLineEnd (w : Text) : Prop where
  white : ∀ c ∈ w, isSpace c = true
  breaks : w.any isLineBreak = true

/-- Two texts of the same lines.  They differ only in how their lines end, which is white space with
a line break in both, and in the white space at the end of the text. -/
inductive SameLines : Text → Text → Prop
  | ends {w w' : Text} (hw : ∀ c ∈ w, isSpace c = true) (hw' : ∀ c ∈ w', isSpace c = true) :
      SameLines w w'
  | lineEnd {w w' s t : Text} (hw : IsLineEnd w) (hw' : IsLineEnd w') (h : SameLines s t) :
      SameLines (w ++ s) (w' ++ t)
  | char (c : Char) {s t : Text} (h : SameLines s t) : SameLines (c :: s) (c :: t)

theorem IsLineEnd.ne_nil {w : Text} (hw : IsLineEnd w) : w ≠ [] := by
  rintro rfl
  exact absurd hw.breaks (by simp)

theorem IsLineEnd.singleton {c : Char} (hc : isLineBreak c = true) : IsLineEnd [c] :=
  ⟨fun d hd => by rw [List.mem_singleton.mp hd]; exact isSpace_of_isLineBreak hc, by simp [hc]⟩

theorem IsLineEnd.append {w r : Text} (hr : ∀ c ∈ r, isSpace c = true) (hw : IsLineEnd w) :
    IsLineEnd (r ++ w) :=
  ⟨fun c hc => (List.mem_append.mp hc).elim (hr c) (hw.white c), by simp [hw.breaks]⟩

theorem IsLineEnd.dropWhile {w : Text} (hw : IsLineEnd w) :
    IsLineEnd (w.dropWhile fun c => !isLineBreak c) := by
  refine ⟨fun c hc => hw.white c ((List.dropWhile_sublist _).subset hc), ?_⟩
  have hbreaks := hw.breaks
  rw [← List.takeWhile_append_dropWhile (p := fun c => !isLineBreak c) (l := w),
    List.any_append, Bool.or_eq_true] at hbreaks
  refine hbreaks.resolve_left fun hfront => ?_
  obtain ⟨c, hc, hbreak⟩ := List.any_eq_true.mp hfront
  have := List.mem_takeWhile_imp hc
  rw [hbreak] at this
  exact absurd this (by simp)

theorem IsLineEnd.dropWhile_append {w : Text} (hw : IsLineEnd w) (t : Text) :
    (w ++ t).dropWhile (fun c => !isLineBreak c) =
      w.dropWhile (fun c => !isLineBreak c) ++ t := by
  rw [List.dropWhile_append, if_neg]
  rw [List.isEmpty_iff]
  exact hw.dropWhile.ne_nil

namespace SameLines

variable {s t : Text} {c : Char}

theorem refl (t : Text) : SameLines t t := by
  induction t with
  | nil => exact .ends (by simp) (by simp)
  | cons c t ih => exact .char c ih

theorem symm (h : SameLines s t) : SameLines t s := by
  induction h with
  | ends hw hw' => exact .ends hw' hw
  | lineEnd hw hw' _ ih => exact .lineEnd hw' hw ih
  | char c _ ih => exact .char c ih

theorem append_left (r : Text) (h : SameLines s t) : SameLines (r ++ s) (r ++ t) := by
  induction r with
  | nil => exact h
  | cons c r ih => exact .char c ih

theorem exists_of_cons (hc : isSpace c = false) (h : SameLines (c :: s) t) :
    ∃ t', t = c :: t' ∧ SameLines s t' := by
  generalize hr : c :: s = r at h
  cases h with
  | ends hw _ =>
    subst hr
    rw [hw c (by simp)] at hc
    exact absurd hc (by simp)
  | @lineEnd w _ _ _ hw _ _ =>
    obtain ⟨d, w, rfl⟩ := List.exists_cons_of_ne_nil hw.ne_nil
    obtain ⟨rfl, -⟩ := List.cons.inj hr
    rw [hw.white c (by simp)] at hc
    exact absurd hc (by simp)
  | char d h =>
    obtain ⟨rfl, rfl⟩ := List.cons.inj hr
    exact ⟨_, rfl, h⟩

theorem head?_eq_some (hc : isSpace c = false) (h : SameLines s t) (hs : s.head? = some c) :
    t.head? = some c := by
  obtain ⟨s, rfl⟩ := List.head?_eq_some_iff.mp hs
  obtain ⟨t, rfl, -⟩ := h.exists_of_cons hc
  rfl

/-! ### Comments -/

theorem startsComment (h : SameLines s t) (hs : StartsComment c s.head?) :
    StartsComment c t.head? := by
  rcases hs with rfl | ⟨rfl, hnext | hnext⟩
  · exact Or.inl rfl
  · exact Or.inr ⟨rfl, Or.inl (h.head?_eq_some (by decide) hnext)⟩
  · exact Or.inr ⟨rfl, Or.inr (h.head?_eq_some (by decide) hnext)⟩

theorem dropLine (h : SameLines s t) :
    SameLines (s.dropWhile fun c => !isLineBreak c) (t.dropWhile fun c => !isLineBreak c) := by
  induction h with
  | ends hw hw' =>
    exact .ends (fun c hc => hw c ((List.dropWhile_sublist _).subset hc))
      (fun c hc => hw' c ((List.dropWhile_sublist _).subset hc))
  | lineEnd hw hw' h _ =>
    rw [hw.dropWhile_append, hw'.dropWhile_append]
    exact .lineEnd hw.dropWhile hw'.dropWhile h
  | char c h ih =>
    rw [List.dropWhile_cons, List.dropWhile_cons]
    split
    · exact ih
    · exact .char c h

theorem dropBlock (h : SameLines s t) :
    SameLines (s.drop (blockLength s)) (t.drop (blockLength t)) := by
  induction h with
  | @ends w w' hw hw' =>
    have hlength : ∀ {w : Text}, (∀ c ∈ w, isSpace c = true) → blockLength w = w.length := by
      intro w hw
      have := Comment.blockLength_white_append hw []
      rwa [List.append_nil, blockLength, Nat.add_zero] at this
    rw [hlength hw, hlength hw', List.drop_length, List.drop_length]
    exact refl []
  | lineEnd hw hw' _ ih =>
    rw [Comment.blockLength_white_append hw.white, Comment.blockLength_white_append hw'.white,
      List.drop_length_add_append, List.drop_length_add_append]
    exact ih
  | @char c s t h ih =>
    by_cases hend : c = '*' ∧ s.head? = some '/'
    · obtain ⟨rfl, hs⟩ := hend
      obtain ⟨s, rfl⟩ := List.head?_eq_some_iff.mp hs
      obtain ⟨t, rfl, hrest⟩ := h.exists_of_cons (by decide)
      exact hrest
    · have hs : ∀ d, c = '*' → s = '/' :: d → False := by
        rintro d rfl rfl
        exact hend ⟨rfl, rfl⟩
      have ht : ∀ d, c = '*' → t = '/' :: d → False := by
        rintro d rfl rfl
        exact hend ⟨rfl, h.symm.head?_eq_some (by decide) rfl⟩
      rw [blockLength, blockLength, List.drop_succ_cons, List.drop_succ_cons]
      · exact ih
      · exact ht
      · exact hs

/-- **Deleting comments keeps the lines the same.** -/
theorem erase (h : SameLines s t) : SameLines (Comment.erase s) (Comment.erase t) := by
  -- a comment is skipped at once, so the induction is on the length and not on `SameLines`
  induction hn : s.length using Nat.strong_induction_on generalizing s t with
  | _ n ih =>
    cases h with
    | ends hw hw' =>
      rw [Comment.erase_of_white hw, Comment.erase_of_white hw']
      exact .ends hw hw'
    | @lineEnd w _ s _ hw hw' h =>
      have hlt : s.length < n := by
        have := List.length_pos_iff.mpr hw.ne_nil
        rw [← hn, List.length_append]
        omega
      rw [Comment.erase_white_append hw.white, Comment.erase_white_append hw'.white]
      exact .lineEnd hw hw' (ih _ hlt h rfl)
    | @char c s t h =>
      have hlt : s.length < n := by rw [← hn, List.length_cons]; exact Nat.lt_succ_self _
      by_cases hstart : StartsComment c s.head?
      · rcases hstart with rfl | ⟨rfl, hnext | hnext⟩
        · rw [Comment.erase_hash, Comment.erase_hash]
          exact ih _ (lt_of_le_of_lt (List.dropWhile_sublist _).length_le hlt) h.dropLine rfl
        · obtain ⟨s, rfl⟩ := List.head?_eq_some_iff.mp hnext
          obtain ⟨t, rfl, hrest⟩ := h.exists_of_cons (by decide)
          rw [Comment.erase_slashes, Comment.erase_slashes]
          refine ih _ ?_ hrest.dropLine rfl
          have := (List.dropWhile_sublist (fun c => !isLineBreak c) (l := s)).length_le
          rw [List.length_cons] at hlt
          omega
        · obtain ⟨s, rfl⟩ := List.head?_eq_some_iff.mp hnext
          obtain ⟨t, rfl, hrest⟩ := h.exists_of_cons (by decide)
          rw [Comment.erase_block, Comment.erase_block]
          refine ih _ ?_ hrest.dropBlock rfl
          rw [List.length_cons] at hlt
          rw [List.length_drop]
          omega
      · have hstart' : ¬ StartsComment c t.head? := fun h' => hstart (h.symm.startsComment h')
        rw [Comment.erase_char (Comment.length?_eq_none_iff.mpr hstart),
          Comment.erase_char (Comment.length?_eq_none_iff.mpr hstart')]
        exact .char c (ih _ hlt h rfl)

/-! ### The one-line form -/

/-- The gaps that have been read so far are the same or both end a line. -/
theorem gapText_eq {gap gap' : Text}
    (h : gap = gap' ∨ gap.any isLineBreak = true ∧ gap'.any isLineBreak = true)
    (before after : Option Char) : gapText before gap after = gapText before gap' after := by
  rcases h with rfl | ⟨hgap, hgap'⟩
  · rfl
  · rw [gapText, gapText, hgap, hgap']
    rfl

theorem replaceGaps_eq (h : SameLines s t) {before : Option Char} {gap gap' : Text}
    (hgap : gap = gap' ∨ gap.any isLineBreak = true ∧ gap'.any isLineBreak = true) :
    replaceGaps gapText before gap s = replaceGaps gapText before gap' t := by
  induction h generalizing before gap gap' with
  | @ends w w' hw hw' =>
    have hlast : ∀ {w gap : Text}, (∀ c ∈ w, isSpace c = true) →
        replaceGaps gapText before gap w = [] := by
      intro w gap hw
      have hread : replaceGaps gapText before gap (w ++ []) = _ := replaceGaps_append hw []
      rw [List.append_nil, replaceGaps_nil, gapText_last] at hread
      exact hread
    rw [hlast hw, hlast hw']
  | lineEnd hw hw' _ ih =>
    rw [replaceGaps_append hw.white, replaceGaps_append hw'.white]
    exact ih (Or.inr ⟨by simp [hw.breaks], by simp [hw'.breaks]⟩)
  | char c _ ih =>
    cases hc : isSpace c with
    | true =>
      rw [replaceGaps_space hc, replaceGaps_space hc]
      refine ih ?_
      rcases hgap with rfl | ⟨hgap, hgap'⟩
      · exact Or.inl rfl
      · exact Or.inr ⟨by simp [hgap], by simp [hgap']⟩
    | false =>
      rw [replaceGaps_char hc, replaceGaps_char hc, gapText_eq hgap, ih (Or.inl rfl)]

/-- **Texts of the same lines have one one-line form.** -/
theorem normalize_eq (h : SameLines s t) : normalize s = normalize t := by
  rw [normalize_eq_oneLine, normalize_eq_oneLine, oneLine, oneLine]
  exact h.erase.replaceGaps_eq (Or.inl rfl)

end SameLines

/-! ### Line ends -/

theorem sameLines_unixLineEnds (t : Text) : SameLines (unixLineEnds t) t := by
  have hfeed : IsLineEnd ['\n'] := .singleton (by decide)
  have hreturn : IsLineEnd ['\r'] := .singleton (by decide)
  induction t using unixLineEnds.induct with
  | case1 => exact .refl []
  | case2 rest ih => exact .lineEnd hfeed (.append hreturn.white hfeed) ih
  | case3 c rest hne ih =>
    rw [unixLineEnds]
    · split
      · next hc =>
        rw [hc]
        exact .lineEnd hfeed hreturn ih
      · exact .char c ih
    · exact hne

/-! ### Cleaning up -/

/-- Blanks in front of a line break belong to the line end, and those at the end of the text do not
matter. -/
theorem SameLines.append_right {s t w : Text} (h : SameLines s t)
    (ht : ∀ c ∈ t.head?, isLineBreak c = true) (hw : ∀ c ∈ w, isSpace c = true) :
    SameLines s (w ++ t) := by
  cases h with
  | ends hs ht' =>
    exact .ends hs fun c hc => (List.mem_append.mp hc).elim (hw c) (ht' c)
  | lineEnd hend hend' h =>
    rw [← List.append_assoc]
    exact .lineEnd hend (.append hw hend') h
  | @char c s t h =>
    have hbreak : IsLineEnd [c] := .singleton (ht c rfl)
    have hsame : SameLines ([c] ++ s) ((w ++ [c]) ++ t) := .lineEnd hbreak (.append hw hbreak) h
    rwa [List.append_assoc] at hsame

theorem isLineBreak_of_endsLine {t : Text} (h : endsLine t = true) :
    ∀ c ∈ t.head?, isLineBreak c = true := by
  intro c hc
  rw [endsLine.eq_def] at h
  split at h
  · exact absurd hc (by simp)
  · obtain rfl : '\r' = c := by simpa using hc
    decide
  · obtain rfl : '\n' = c := by simpa using hc
    decide
  · obtain rfl : '\r' = c := by simpa using hc
    decide
  · exact absurd h (by simp)

theorem sameLines_trimLineEnds (t : Text) : SameLines (trimLineEnds t) t := by
  rw [trimLineEnds]
  induction t using runs_induction isBlank with
  | nil => exact .refl []
  | run k run rest hne hrun hrest ih =>
    cases k with
    | false =>
      rw [replaceRuns_word hrun rfl]
      exact ih.append_left run
    | true =>
      rw [replaceRuns_run hne hrun hrest]
      split
      · next hends =>
        exact ih.append_right (isLineBreak_of_endsLine hends) fun c hc =>
          isSpace_of_isBlank (hrun c hc)
      · exact ih.append_left run

theorem isSpace_of_mem_finalLineEnd (t : Text) : ∀ c ∈ finalLineEnd t, isSpace c = true := by
  apply List.all_eq_true.mp
  rw [finalLineEnd]
  split
  · rfl
  · rfl
  · rfl
  · rfl

/-- Line breaks at the end of a text do not matter. -/
theorem sameLines_cleanUp (t : Text) : SameLines (cleanUp t) (trimLineEnds t) := by
  obtain ⟨ends, hends, hsplit⟩ := exists_dropEndWhile_append isLineBreak (trimLineEnds t)
  have hwhite : ∀ c ∈ ends, isSpace c = true := fun c hc => isSpace_of_isLineBreak (hends c hc)
  rw [cleanUp]
  split
  · next hbody =>
    rw [hbody, List.nil_append] at hsplit
    rw [← hsplit]
    exact .ends (by simp) hwhite
  · conv_rhs => rw [← hsplit]
    exact .append_left _ (.ends (isSpace_of_mem_finalLineEnd t) hwhite)

theorem normalize_unixLineEnds (t : Text) : normalize (unixLineEnds t) = normalize t :=
  (sameLines_unixLineEnds t).normalize_eq

theorem normalize_cleanUp (t : Text) : normalize (cleanUp t) = normalize t :=
  (sameLines_cleanUp t).normalize_eq.trans (sameLines_trimLineEnds t).normalize_eq

end IoSource.Text
