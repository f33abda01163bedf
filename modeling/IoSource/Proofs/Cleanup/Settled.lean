import IoSource.Cleanup
import IoSource.Proofs.Text.Runs
import IoSource.Proofs.Text.Strip

/-!
# What a cleanup leaves

A text is tidy if no line ends in a blank, and a cleanup leaves just the tidy texts as they are.
But it decides what ends a line by the text that it is given.  A carriage return ends no line if
another one or a blank follows it, and comes to end one when these go, so that a blank in front of
it is left at a line end (`StrandsBlank`).  Nothing else keeps the result from being tidy and
settled (`not_tidy_cleanUp_iff`, `cleanUp_cleanUp_iff_tidy`).
-/

namespace IoSource.Text

/-- No line ends in a blank. -/
def Tidy (t : Text) : Prop :=
  ∀ c after, (c :: after) <:+ t → isBlank c = true → endsLine after = false

/-- A blank stands in front of a carriage return that does not end its line, but will do so when the
blanks behind it, or all that is left of the text, have gone. -/
def StrandsBlank (t : Text) : Prop :=
  ∃ c rest, (c :: '\r' :: rest) <:+ t ∧ isBlank c = true ∧ endsLine ('\r' :: rest) = false ∧
    ((rest.dropWhile isBlank).head? = some '\n' ∨
      ∀ d ∈ rest, isBlank d = true ∨ isLineBreak d = true)

/-! ### Blanks at line ends -/

/-- Whether blanks in front of a text stand at the end of a line. -/
def endsLineBehind (rest : Text) : Bool := endsLine (rest.dropWhile isBlank)

theorem endsLine_cons_iff {c : Char} {rest : Text} :
    endsLine (c :: rest) = true ↔
      c = '\n' ∨ c = '\r' ∧ (rest = [] ∨ rest.head? = some '\n') := by
  by_cases hfeed : c = '\n'
  · simp [hfeed, endsLine]
  by_cases hreturn : c = '\r'
  · subst hreturn
    cases rest with
    | nil => simp [endsLine]
    | cons d rest =>
      by_cases hd : d = '\n' <;> simp [hd, endsLine]
  · simp [hfeed, hreturn, endsLine]

theorem not_isBlank_of_endsLine {c : Char} {rest : Text} (h : endsLine (c :: rest) = true) :
    isBlank c = false := by
  rcases endsLine_cons_iff.mp h with rfl | ⟨rfl, -⟩ <;> rfl

theorem endsLineBehind_of_endsLine {rest : Text} (h : endsLine rest = true) :
    endsLineBehind rest = true := by
  cases rest with
  | nil => rfl
  | cons c rest =>
    rwa [endsLineBehind, List.dropWhile_cons, if_neg (by simp [not_isBlank_of_endsLine h])]

theorem endsLineBehind_blank {c : Char} (hc : isBlank c = true) (rest : Text) :
    endsLineBehind (c :: rest) = endsLineBehind rest := by
  rw [endsLineBehind, endsLineBehind, List.dropWhile_cons, if_pos hc]

theorem endsLineBehind_char {c : Char} (hc : isBlank c = false) (rest : Text) :
    endsLineBehind (c :: rest) = endsLine (c :: rest) := by
  rw [endsLineBehind, List.dropWhile_cons, if_neg (by simp [hc])]

theorem trimLineEnds_run {run rest : Text} (hrun : ∀ c ∈ run, isBlank c = true)
    (hrest : ∀ c ∈ rest.head?, isBlank c ≠ true) :
    trimLineEnds (run ++ rest) = (if endsLine rest then [] else run) ++ trimLineEnds rest := by
  by_cases hne : run = []
  · subst hne
    simp
  · exact replaceRuns_run hne hrun hrest

/-- **Cleaning up goes from character to character.**  A blank goes if it stands at the end of a
line. -/
theorem trimLineEnds_cons (c : Char) (rest : Text) :
    trimLineEnds (c :: rest) =
      if isBlank c && endsLineBehind rest then trimLineEnds rest else c :: trimLineEnds rest := by
  cases hc : isBlank c with
  | false =>
    have hword : ∀ d ∈ [c], isBlank d = false := by
      intro d hd
      rw [List.mem_singleton.mp hd]
      exact hc
    exact replaceRuns_word hword rfl rest
  | true =>
    have hrun : ∀ d ∈ rest.takeWhile isBlank, isBlank d = true := fun d hd =>
      List.mem_takeWhile_imp hd
    have hrest : ∀ d ∈ (rest.dropWhile isBlank).head?, isBlank d ≠ true := by
      intro d hd
      rw [not_of_mem_head?_dropWhile isBlank rest d hd]
      exact Bool.false_ne_true
    have hsplit : rest = rest.takeWhile isBlank ++ rest.dropWhile isBlank :=
      List.takeWhile_append_dropWhile.symm
    have hblanks : ∀ d ∈ c :: rest.takeWhile isBlank, isBlank d = true := by simpa [hc] using hrun
    have hfirst := trimLineEnds_run hblanks hrest
    have hlater := trimLineEnds_run hrun hrest
    rw [List.cons_append, ← hsplit] at hfirst
    rw [← hsplit] at hlater
    rw [hfirst, hlater, endsLineBehind, Bool.true_and]
    split <;> rfl

/-- The blanks that are left are those that stand elsewhere. -/
theorem suffix_trimLineEnds_iff {c : Char} (hc : isBlank c = true) {after t : Text} :
    (c :: after) <:+ trimLineEnds t ↔
      ∃ rest, (c :: rest) <:+ t ∧ endsLineBehind rest = false ∧ after = trimLineEnds rest := by
  induction t with
  | nil => simp [trimLineEnds, replaceRuns]
  | cons d t ih =>
    rw [trimLineEnds_cons]
    by_cases hd : (isBlank d && endsLineBehind t) = true
    · rw [if_pos hd, ih]
      constructor
      · rintro ⟨rest, hsuffix, hkept⟩
        exact ⟨rest, hsuffix.trans (List.suffix_cons d t), hkept⟩
      · rintro ⟨rest, hsuffix, hkept, hafter⟩
        rcases List.suffix_cons_iff.mp hsuffix with heq | hsuffix
        · obtain ⟨rfl, rfl⟩ := List.cons.inj heq
          simp [hkept] at hd
        · exact ⟨rest, hsuffix, hkept, hafter⟩
    · rw [if_neg hd, List.suffix_cons_iff, ih]
      constructor
      · rintro (heq | ⟨rest, hsuffix, hkept⟩)
        · obtain ⟨rfl, rfl⟩ := List.cons.inj heq
          exact ⟨t, List.suffix_refl _, by simpa [hc] using hd, rfl⟩
        · exact ⟨rest, hsuffix.trans (List.suffix_cons d t), hkept⟩
      · rintro ⟨rest, hsuffix, hkept, hafter⟩
        rcases List.suffix_cons_iff.mp hsuffix with heq | hsuffix
        · obtain ⟨rfl, rfl⟩ := List.cons.inj heq
          exact Or.inl (by rw [hafter])
        · exact Or.inr ⟨rest, hsuffix, hkept, hafter⟩

theorem isBlank_or_mem_trimLineEnds {d : Char} {t : Text} (h : d ∈ t) :
    isBlank d = true ∨ d ∈ trimLineEnds t := by
  induction t with
  | nil => exact absurd h (by simp)
  | cons c t ih =>
    rw [trimLineEnds_cons]
    rcases List.mem_cons.mp h with rfl | h
    · cases hd : isBlank d <;> simp
    · rcases ih h with hd | hd
      · exact Or.inl hd
      · refine Or.inr ?_
        split
        · exact hd
        · exact List.mem_cons_of_mem c hd

theorem trimLineEnds_sublist (t : Text) : (trimLineEnds t).Sublist t := by
  induction t with
  | nil => exact List.nil_sublist _
  | cons c t ih =>
    rw [trimLineEnds_cons]
    split
    · exact ih.cons c
    · exact ih.cons_cons c

/-! ### Tidy texts -/

/-- In a tidy text no blank stands at the end of a line, be it the last of a run or not. -/
theorem Tidy.endsLineBehind {t : Text} (h : Tidy t) {c : Char} (hc : isBlank c = true)
    {rest : Text} (hrest : (c :: rest) <:+ t) : endsLineBehind rest = false := by
  induction rest generalizing c with
  | nil => exact h c [] hrest hc
  | cons d rest ih =>
    cases hd : isBlank d with
    | true => rw [endsLineBehind_blank hd]; exact ih hd ((List.suffix_cons c _).trans hrest)
    | false => rw [endsLineBehind_char hd]; exact h c _ hrest hc

theorem Tidy.trimLineEnds_eq {t : Text} (h : Tidy t) : trimLineEnds t = t := by
  induction t with
  | nil => rfl
  | cons c t ih =>
    have htail : Tidy t := fun d after hsuffix => h d after (hsuffix.trans (List.suffix_cons c t))
    rw [trimLineEnds_cons, ih htail, if_neg]
    intro hgoes
    obtain ⟨hc, hends⟩ := Bool.and_eq_true_iff.mp hgoes
    rw [h.endsLineBehind hc (List.suffix_refl _)] at hends
    exact absurd hends (by simp)

theorem countP_trimLineEnds_lt {t : Text} (h : ¬ Tidy t) :
    (trimLineEnds t).countP isBlank < t.countP isBlank := by
  induction t with
  | nil => exact absurd (fun c after hsuffix => by simp at hsuffix) h
  | cons c t ih =>
    have hle : (trimLineEnds t).countP isBlank ≤ t.countP isBlank :=
      (trimLineEnds_sublist t).countP_le
    rw [trimLineEnds_cons, List.countP_cons]
    by_cases htail : Tidy t
    · -- the blank that ends a line is the first character
      obtain ⟨hc, hends⟩ : isBlank c = true ∧ endsLine t = true := by
        by_contra hnot
        refine h fun d after hsuffix hd => ?_
        rcases List.suffix_cons_iff.mp hsuffix with heq | hsuffix
        · obtain ⟨rfl, rfl⟩ := List.cons.inj heq
          simpa [hd] using hnot
        · exact htail d after hsuffix hd
      rw [if_pos (by simp [hc, endsLineBehind_of_endsLine hends]), if_pos hc]
      omega
    · have hlt := ih htail
      split
      · omega
      · rw [List.countP_cons]
        omega

/-! ### The end of the text -/

theorem isLineBreak_of_mem_finalLineEnd (t : Text) :
    ∀ c ∈ finalLineEnd t, isLineBreak c = true := by
  apply List.all_eq_true.mp
  unfold finalLineEnd
  split <;> rfl

theorem endsLine_finalLineEnd (t : Text) : endsLine (finalLineEnd t) = true := by
  unfold finalLineEnd
  split <;> rfl

theorem finalLineEnd_append {s t : Text} {c : Char} (hc : isLineBreak c = false) :
    finalLineEnd (s ++ c :: finalLineEnd t) = finalLineEnd t := by
  have hfeed : c ≠ '\n' := by rintro rfl; simp [isLineBreak] at hc
  have hreturn : c ≠ '\r' := by rintro rfl; simp [isLineBreak] at hc
  have hends : finalLineEnd t = ['\r', '\n'] ∨ finalLineEnd t = ['\n'] ∨ finalLineEnd t = [] := by
    unfold finalLineEnd
    split <;> simp
  generalize finalLineEnd t = ends at hends ⊢
  rcases hends with rfl | rfl | rfl <;> simp [finalLineEnd, hfeed, hreturn]

theorem cleanUp_eq (t : Text) :
    cleanUp t =
      if dropEndWhile isLineBreak (trimLineEnds t) = [] then []
      else dropEndWhile isLineBreak (trimLineEnds t) ++ finalLineEnd t := by
  unfold cleanUp
  split
  · next h => rw [if_pos h]
  · next h => rw [if_neg h]

/-- Only line breaks go at the end, and only line breaks come back. -/
theorem countP_cleanUp (t : Text) :
    (cleanUp t).countP isBlank = (trimLineEnds t).countP isBlank := by
  have hnone : ∀ w : Text, (∀ c ∈ w, isLineBreak c = true) → w.countP isBlank = 0 := by
    intro w hw
    refine List.countP_eq_zero.mpr fun c hc hblank => ?_
    have hbreak := hw c hc
    rw [not_isLineBreak_of_isBlank hblank] at hbreak
    exact absurd hbreak (by simp)
  obtain ⟨ends, hends, hsplit⟩ := exists_dropEndWhile_append isLineBreak (trimLineEnds t)
  have hbody : (dropEndWhile isLineBreak (trimLineEnds t)).countP isBlank =
      (trimLineEnds t).countP isBlank := by
    conv_rhs => rw [← hsplit]
    rw [List.countP_append, hnone ends hends, Nat.add_zero]
  rw [cleanUp_eq, ← hbody]
  split
  · next hempty => rw [hempty]
  · rw [List.countP_append, hnone _ (isLineBreak_of_mem_finalLineEnd t), Nat.add_zero]

theorem Tidy.cleanUp_cleanUp {t : Text} (h : Tidy (cleanUp t)) :
    cleanUp (cleanUp t) = cleanUp t := by
  rw [cleanUp_eq (cleanUp t), h.trimLineEnds_eq]
  rcases dropEndWhile_eq_nil_or_concat isLineBreak (trimLineEnds t) with hbody | ⟨s, c, hbody, hc⟩
  · rw [cleanUp_eq t, if_pos hbody]
    rfl
  · have hclean : cleanUp t = s ++ c :: finalLineEnd t := by
      rw [cleanUp_eq t, hbody, if_neg (by simp), List.append_assoc, List.singleton_append]
    rw [hclean, dropEndWhile_append_cons hc,
      dropEndWhile_of_all (isLineBreak_of_mem_finalLineEnd t), if_neg (by simp),
      finalLineEnd_append hc, List.append_assoc, List.singleton_append]

/-- **A cleanup settles just the texts that it makes tidy.** -/
theorem cleanUp_cleanUp_iff_tidy (t : Text) :
    cleanUp (cleanUp t) = cleanUp t ↔ Tidy (cleanUp t) := by
  refine ⟨fun h => ?_, Tidy.cleanUp_cleanUp⟩
  by_contra htidy
  have hlt := countP_trimLineEnds_lt htidy
  rw [← countP_cleanUp, h] at hlt
  exact absurd hlt (lt_irrefl _)

/-! ### What is left at line ends -/

/-- A blank of the result is one that has not gone; what follows it is cut and ended anew. -/
theorem suffix_cleanUp_iff {c : Char} (hc : isBlank c = true) {after t : Text} :
    (c :: after) <:+ cleanUp t ↔
      ∃ rest, (c :: rest) <:+ t ∧ endsLineBehind rest = false ∧
        after = dropEndWhile isLineBreak (trimLineEnds rest) ++ finalLineEnd t := by
  have hbreak : isLineBreak c = false := not_isLineBreak_of_isBlank hc
  constructor
  · rintro ⟨s, hs⟩
    rw [cleanUp_eq] at hs
    split at hs
    · simp at hs
    · rcases List.append_eq_append_iff.mp hs with ⟨w, hbody, hw⟩ | ⟨w, -, hends⟩
      · cases w with
        | nil =>
          have hmem := isLineBreak_of_mem_finalLineEnd t c (by
            rw [List.nil_append] at hw
            simp [← hw])
          rw [hbreak] at hmem
          exact absurd hmem (by simp)
        | cons d w =>
          obtain ⟨rfl, hafter⟩ := List.cons.inj hw
          obtain ⟨ends, -, hsplit⟩ := exists_dropEndWhile_append isLineBreak (trimLineEnds t)
          rw [hbody, List.append_assoc, List.cons_append] at hsplit
          obtain ⟨rest, hsuffix, hkept, hrest⟩ := (suffix_trimLineEnds_iff hc).mp ⟨s, hsplit⟩
          refine ⟨rest, hsuffix, hkept, ?_⟩
          rw [← hsplit, dropEndWhile_append_cons hbreak, hrest] at hbody
          have hw := (List.cons.inj (List.append_cancel_left hbody)).2
          rw [hafter, hw]
          rfl
      · have hmem := isLineBreak_of_mem_finalLineEnd t c (by simp [hends])
        rw [hbreak] at hmem
        exact absurd hmem (by simp)
  · rintro ⟨rest, hsuffix, hkept, rfl⟩
    obtain ⟨s, hs⟩ := (suffix_trimLineEnds_iff hc).mpr ⟨rest, hsuffix, hkept, rfl⟩
    rw [cleanUp_eq, ← hs, dropEndWhile_append_cons hbreak, if_neg (by simp), List.append_assoc]
    exact List.suffix_append s _

theorem head?_trimLineEnds_eq_newline_iff {t : Text} :
    (trimLineEnds t).head? = some '\n' ↔ (t.dropWhile isBlank).head? = some '\n' := by
  induction t with
  | nil => rfl
  | cons c t ih =>
    rw [trimLineEnds_cons, List.dropWhile_cons]
    cases hc : isBlank c with
    | false => simp
    | true =>
      rw [Bool.true_and, if_pos rfl, ← ih]
      split
      · rfl
      · next hkept =>
        constructor
        · intro hhead
          obtain rfl : c = '\n' := by simpa using hhead
          exact absurd hc (by decide)
        · intro hhead
          obtain ⟨rest, hrest⟩ := List.head?_eq_some_iff.mp (ih.mp hhead)
          exact absurd (by rw [endsLineBehind, hrest]; rfl) hkept

/-- **What comes to end a line** behind a blank that has not gone is a carriage return: one behind
which only line breaks are left, or a line feed comes to stand. -/
theorem endsLine_cleaned_iff {rest ends : Text} (hkept : endsLineBehind rest = false)
    (hends : endsLine ends = true) :
    endsLine (dropEndWhile isLineBreak (trimLineEnds rest) ++ ends) = true ↔
      ∃ later, rest = '\r' :: later ∧
        ((∀ d ∈ trimLineEnds later, isLineBreak d = true) ∨
          (later.dropWhile isBlank).head? = some '\n') := by
  cases rest with
  | nil => exact absurd hkept (by decide)
  | cons d later =>
    have hhead : trimLineEnds (d :: later) = d :: trimLineEnds later := by
      rw [trimLineEnds_cons, if_neg]
      intro hgoes
      obtain ⟨hd, hbehind⟩ := Bool.and_eq_true_iff.mp hgoes
      rw [endsLineBehind_blank hd, hbehind] at hkept
      exact absurd hkept (by simp)
    rw [hhead]
    by_cases hreturn : d = '\r'
    · subst hreturn
      by_cases hall : ∀ e ∈ trimLineEnds later, isLineBreak e = true
      · have hcut : dropEndWhile isLineBreak ('\r' :: trimLineEnds later) = [] :=
          dropEndWhile_of_all (List.forall_mem_cons.mpr ⟨rfl, hall⟩)
        rw [hcut, List.nil_append]
        exact iff_of_true hends ⟨later, rfl, Or.inl hall⟩
      · obtain ⟨e, he, hbreak⟩ : ∃ e ∈ trimLineEnds later, isLineBreak e = false := by
          simpa using hall
        obtain ⟨s, w, hsplit⟩ := List.append_of_mem he
        have hcut : dropEndWhile isLineBreak ('\r' :: trimLineEnds later) =
            '\r' :: (s ++ e :: dropEndWhile isLineBreak w) := by
          rw [hsplit]
          exact dropEndWhile_append_cons hbreak ('\r' :: s) w
        have hnext : (s ++ e :: dropEndWhile isLineBreak w ++ ends).head? =
            (trimLineEnds later).head? := by
          rw [hsplit]
          cases s <;> rfl
        rw [hcut, List.cons_append, endsLine_cons_iff, hnext, head?_trimLineEnds_eq_newline_iff]
        constructor
        · rintro (heq | ⟨-, heq | hfeed⟩)
          · exact absurd heq (by decide)
          · simp at heq
          · exact ⟨later, rfl, Or.inr hfeed⟩
        · rintro ⟨_, heq, hend⟩
          obtain rfl := (List.cons.inj heq).2
          exact Or.inr ⟨rfl, Or.inr (hend.resolve_left hall)⟩
    · have hbreak : isLineBreak d = false := by
        cases hbreak : isLineBreak d with
        | false => rfl
        | true =>
          have hfeed : d = '\n' := by simpa [isLineBreak, hreturn] using hbreak
          rw [hfeed] at hkept
          exact absurd hkept (by simp [endsLineBehind, isBlank, endsLine])
      have hcut : dropEndWhile isLineBreak (d :: trimLineEnds later) =
          d :: dropEndWhile isLineBreak (trimLineEnds later) :=
        dropEndWhile_append_cons hbreak [] _
      rw [hcut, List.cons_append, endsLine_cons_iff]
      constructor
      · rintro (rfl | ⟨rfl, -⟩) <;> exact absurd hbreak (by decide)
      · rintro ⟨_, heq, -⟩
        exact absurd (List.cons.inj heq).1 hreturn

theorem exists_blank_suffix {c : Char} (hc : isBlank c = true) (rest : Text) :
    ∃ d, isBlank d = true ∧ (d :: rest.dropWhile isBlank) <:+ (c :: rest) := by
  induction rest generalizing c with
  | nil => exact ⟨c, hc, List.suffix_refl _⟩
  | cons e rest ih =>
    rw [List.dropWhile_cons]
    split
    · next he =>
      obtain ⟨d, hd, hsuffix⟩ := ih he
      exact ⟨d, hd, hsuffix.trans (List.suffix_cons c _)⟩
    · exact ⟨c, hc, List.suffix_refl _⟩

/-- A blank in front of a carriage return stays behind if only blanks and line breaks follow.  The
blanks among these may stay, too, and then the last of them is the one that is left at a line
end. -/
theorem exists_stranded {c : Char} {rest t : Text} (hsuffix : (c :: '\r' :: rest) <:+ t)
    (hc : isBlank c = true) (hkept : endsLine ('\r' :: rest) = false)
    (hrest : ∀ d ∈ rest, isBlank d = true ∨ isLineBreak d = true) :
    ∃ c rest, (c :: '\r' :: rest) <:+ t ∧ isBlank c = true ∧ endsLine ('\r' :: rest) = false ∧
      ∀ d ∈ trimLineEnds rest, isLineBreak d = true := by
  induction hn : rest.length using Nat.strong_induction_on generalizing c rest with
  | _ n ih =>
    by_cases hall : ∀ d ∈ trimLineEnds rest, isLineBreak d = true
    · exact ⟨c, rest, hsuffix, hc, hkept, hall⟩
    · obtain ⟨d, hd, hbreak⟩ : ∃ d ∈ trimLineEnds rest, isLineBreak d = false := by
        simpa using hall
      have hblank : isBlank d = true := by
        refine (hrest d ((trimLineEnds_sublist rest).subset hd)).resolve_right ?_
        simp [hbreak]
      obtain ⟨s, after, hsplit⟩ := List.append_of_mem hd
      obtain ⟨behind, hbehind, hstays, -⟩ :=
        (suffix_trimLineEnds_iff hblank).mp ⟨s, hsplit.symm⟩
      obtain ⟨e, he, hlast⟩ := exists_blank_suffix hblank behind
      have hlater : (e :: behind.dropWhile isBlank) <:+ rest := hlast.trans hbehind
      -- what is behind the run is a carriage return, for a line feed would have ended the line
      cases hdrop : behind.dropWhile isBlank with
      | nil => simp [endsLineBehind, hdrop, endsLine] at hstays
      | cons f later =>
        have hf : isBlank f = false := by
          have h := List.head?_dropWhile_not isBlank behind
          rwa [hdrop] at h
        rw [hdrop] at hlater
        rw [endsLineBehind, hdrop] at hstays
        have hfbreak : isLineBreak f = true := by
          refine (hrest f (hlater.subset (by simp))).resolve_left ?_
          simp [hf]
        obtain rfl : f = '\r' := by
          refine ((by simpa [isLineBreak] using hfbreak) : f = '\n' ∨ f = '\r').resolve_left ?_
          rintro rfl
          exact absurd hstays (by simp [endsLine])
        have hlength := hlater.length_le
        simp only [List.length_cons] at hlength
        refine ih later.length (by omega) ?_ he hstays ?_ rfl
        · exact hlater.trans ((List.suffix_cons _ _).trans ((List.suffix_cons c _).trans hsuffix))
        · exact fun g hg => hrest g (hlater.subset (by simp [hg]))

theorem not_tidy_cleanUp_iff (t : Text) : ¬ Tidy (cleanUp t) ↔ StrandsBlank t := by
  constructor
  · intro h
    obtain ⟨c, after, hsuffix, hc, hends⟩ :
        ∃ c after, (c :: after) <:+ cleanUp t ∧ isBlank c = true ∧ endsLine after = true := by
      simpa [Tidy] using h
    obtain ⟨rest, hrest, hkept, rfl⟩ := (suffix_cleanUp_iff hc).mp hsuffix
    obtain ⟨later, rfl, hlater⟩ :=
      (endsLine_cleaned_iff hkept (endsLine_finalLineEnd t)).mp hends
    refine ⟨c, later, hrest, hc, hkept, ?_⟩
    rcases hlater with hall | hfeed
    · exact Or.inr fun d hd => (isBlank_or_mem_trimLineEnds hd).imp id (hall d)
    · exact Or.inl hfeed
  · rintro ⟨c, later, hsuffix, hc, hkept, hlater⟩ htidy
    have hstranded : ∀ {c later}, (c :: '\r' :: later) <:+ t → isBlank c = true →
        endsLine ('\r' :: later) = false →
        ((∀ d ∈ trimLineEnds later, isLineBreak d = true) ∨
          (later.dropWhile isBlank).head? = some '\n') → False := by
      intro c later hsuffix hc hkept hend
      rw [← endsLineBehind_char (by decide)] at hkept
      have hclean := (suffix_cleanUp_iff hc).mpr ⟨_, hsuffix, hkept, rfl⟩
      have hends := (endsLine_cleaned_iff hkept (endsLine_finalLineEnd t)).mpr ⟨later, rfl, hend⟩
      rw [htidy c _ hclean hc] at hends
      exact absurd hends (by simp)
    rcases hlater with hfeed | hwhite
    · exact hstranded hsuffix hc hkept (Or.inr hfeed)
    · obtain ⟨c, later, hsuffix, hc, hkept, hall⟩ := exists_stranded hsuffix hc hkept hwhite
      exact hstranded hsuffix hc hkept (Or.inl hall)

end IoSource.Text
