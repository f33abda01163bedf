import IoSource.Proofs.Highlight.Comments

/-!
# Highlighted words

A word is highlighted as a whole or not at all (`word_spans`).  It shares no character with an
operator, stands in no other list of words, and lies within a comment or apart from it, so no
earlier category can take a part of it.  A self reference shows within comments too.
-/

namespace IoSource

open Category

/-! ### Words are not cut -/

namespace Category

theorem not_wordAt_of_takes_operator {t : Text} {i : Nat} (h : operator.pattern.Takes t i) :
    ¬ WordAt t i := by
  obtain ⟨m, hm, hi⟩ := h
  obtain ⟨k, rfl, hk⟩ := Match.covers_iff.mp hi
  have hget := Pattern.getElem?_of_covers hm hi
  rw [Nat.add_sub_cancel_left, List.getElem?_eq_getElem hk] at hget
  exact not_wordAt hget.symm
    (not_isWordChar_of_mem_operator (longest_of_mem_longestLiteral hm).1 _ (List.getElem_mem hk))

theorem Precedes.ne {d c : Category} (h : d.Precedes c) : d ≠ c := by
  revert h
  cases d <;> cases c <;> decide

end Category

/-- No comment holds a word. -/
def Uncommented (t : Text) (start stop : Nat) : Prop :=
  ¬ ∃ m ∈ Comment.pattern.findAll t, m.start ≤ start ∧ stop ≤ m.stop

/-- **Nothing cuts a word**, unless a comment holds all of it. -/
theorem shows_word_iff {t : Text} {c : Category} (hc : c.ListsWords) {m : Match}
    (hm : m ∈ c.pattern.findAll t)
    (hfree : c = selfReference ∨ Uncommented t m.start m.stop) (i : Nat) :
    Shows t c m i ↔ m.Covers i := by
  refine ⟨fun h => h.1, fun hi => ⟨hi, fun d hd htakes => ?_⟩⟩
  rw [pattern_of_listsWords hc] at hm
  obtain ⟨hrun, htext, hmem⟩ := mem_wholeWord_iff.mp hm
  by_cases hcomment : d = comment
  · subst hcomment
    obtain ⟨m', hm', hi'⟩ := htakes
    have hfree := hfree.resolve_left (by rintro rfl; revert hd; decide)
    rcases Comment.within_or_apart_of_wordAt hm' hrun.inside with hwithin | hapart
    · exact hfree ⟨m', hm', hwithin⟩
    · rw [Match.Covers] at hi hi'
      omega
  by_cases hoperator : d = operator
  · subst hoperator
    exact not_wordAt_of_takes_operator htakes (hrun.inside i hi.1 hi.2)
  -- two lists of words agree on the run, and no word stands in both
  rw [pattern_of_listsWords ⟨hcomment, hoperator⟩] at htakes
  obtain ⟨m', hm', hi'⟩ := htakes
  obtain ⟨hrun', htext', hmem'⟩ := mem_wholeWord_iff.mp hm'
  obtain ⟨hstart, hstop⟩ := hrun'.unique hrun hi' hi
  rw [htext', hstart, hstop, ← htext] at hmem'
  exact hd.ne (eq_of_mem_literals hmem' hmem)

/-- **Words are highlighted whole.**  The spans of a list of words are the maximal runs of
identifier characters that are in the list and that no comment holds; those of self references may
be held by one. -/
theorem exists_word_span_iff {t : Text} {c : Category} (hc : c.ListsWords) {start stop : Nat} :
    (∃ span ∈ highlight t, span.start = start ∧ span.stop = stop ∧ span.category = c) ↔
      IsMaximalRun (WordAt t) start stop ∧ (t.drop start).take (stop - start) ∈ c.literals ∧
        (c = selfReference ∨ Uncommented t start stop) := by
  constructor
  · rintro ⟨span, hspan, rfl, rfl, rfl⟩
    obtain ⟨m, hm, hrun⟩ := isMaximalRun_of_mem hspan
    have hpos := (Pattern.bounds_of_mem_findFrom hm).2.1
    have hfirst := hrun.inside span.start (Nat.le_refl _) hrun.nonempty
    have hfree : span.category = selfReference ∨ Uncommented t m.start m.stop := by
      by_cases hself : span.category = selfReference
      · exact Or.inl hself
      · refine Or.inr fun ⟨m', hm', hstart, hstop⟩ => ?_
        have hlater : comment.Precedes span.category := by
          by_contra hnot
          exact (eq_of_not_precedes hnot).elim hself hc.1
        exact hfirst.2 comment hlater
          ⟨m', hm', Nat.le_trans hstart hfirst.1.1, Nat.lt_of_lt_of_le hfirst.1.2 hstop⟩
    obtain ⟨hstart, hstop⟩ := (isMaximalRun_covers_iff hpos).mp
      ((IsMaximalRun.congr (shows_word_iff hc hm hfree)).mp hrun)
    rw [pattern_of_listsWords hc] at hm
    obtain ⟨hword, htext, hmem⟩ := mem_wholeWord_iff.mp hm
    rw [hstart, hstop, ← htext]
    exact ⟨hword, hmem, hfree⟩
  · rintro ⟨hword, hmem, hfree⟩
    have hlength : ((t.drop start).take (stop - start)).length = stop - start := by
      obtain ⟨-, -, hstop⟩ := isMaximalRun_wordAt_iff.mp hword
      rw [← hword.takeWhile_eq]
      omega
    have hstop : (⟨start, (t.drop start).take (stop - start)⟩ : Match).stop = stop := by
      rw [Match.stop]
      dsimp only
      rw [hlength]
      exact Nat.add_sub_cancel' (Nat.le_of_lt hword.nonempty)
    have hm : ⟨start, (t.drop start).take (stop - start)⟩ ∈ c.pattern.findAll t := by
      rw [pattern_of_listsWords hc]
      exact mem_wholeWord_iff.mpr ⟨by rwa [hstop], by rw [hstop], hmem⟩
    obtain ⟨span, hspan, hcategory, hstart, hend⟩ :=
      exists_span_of_shows hm (shows_word_iff hc hm (by rwa [hstop]))
    exact ⟨span, hspan, hstart, hend.trans hstop, hcategory⟩

/-- **The words that are highlighted** are maximal runs of identifier characters: every `self`, and
outside comments every run that is a boolean, a prototype or a builtin message. -/
theorem word_spans (t : Text) (start stop : Nat) :
    ((∃ span ∈ highlight t, span.start = start ∧ span.stop = stop ∧
        span.category = .selfReference) ↔
      IsMaximalRun (WordAt t) start stop ∧
        (t.drop start).take (stop - start) = ['s', 'e', 'l', 'f']) ∧
    ∀ c ∈ [Category.boolean, .prototype, .builtinMessage],
      ((∃ span ∈ highlight t, span.start = start ∧ span.stop = stop ∧ span.category = c) ↔
        IsMaximalRun (WordAt t) start stop ∧ (t.drop start).take (stop - start) ∈ c.literals ∧
          ¬ ∃ m ∈ Comment.pattern.findAll t, m.start ≤ start ∧ stop ≤ m.stop) := by
  constructor
  · have hliterals : selfReference.literals = [['s', 'e', 'l', 'f']] := by decide
    rw [exists_word_span_iff ⟨by decide, by decide⟩, hliterals, List.mem_singleton]
    simp
  · intro c hc
    have hwords : c.ListsWords ∧ c ≠ selfReference := by
      simp only [List.mem_cons, List.not_mem_nil, or_false] at hc
      rcases hc with rfl | rfl | rfl <;> exact ⟨⟨by decide, by decide⟩, by decide⟩
    rw [exists_word_span_iff hwords.1, or_iff_right hwords.2]
    rfl

end IoSource
