import IoSource.Proofs.Highlight.Operators

/-!
# Highlighting and classifying a word

A word is classified by looking it up in the lists of the categories, and a text is highlighted by
scanning it.  The two agree (`classified_as_highlighted`): every span but a comment carries a text
of its category's list, also where a comment has cut it, and a text of a list is highlighted as one
span.

Comments are on one side only.  A text that reads as a comment from its marker to its end may hold
an end marker, and is highlighted as a comment and what stands behind it.
-/

namespace IoSource

open Category

/-! ### Classified words -/

namespace Category

/-- Whether a whole text belongs to a category. -/
def Holds (c : Category) (w : Text) : Prop :=
  w ∈ c.literals ∨ (c = comment ∧ Comment.isWhole w = true)

theorem Holds.unique {c d : Category} {w : Text} (hc : c.Holds w) (hd : d.Holds w) : c = d := by
  have hliteral : ∀ {e : Category}, w ∈ e.literals → Comment.isWhole w = true → False := by
    intro e he hwhole
    rw [(shape_of_mem_literals he).2.2.2] at hwhole
    exact absurd hwhole (by decide)
  rcases hc with hc | ⟨rfl, hc⟩ <;> rcases hd with hd | ⟨rfl, hd⟩
  · exact eq_of_mem_literals hc hd
  · exact (hliteral hc hd).elim
  · exact (hliteral hd hc).elim
  · rfl

/-- **A word is classified** by the category that it belongs to, which is the only one. -/
theorem ofWord?_eq_some_iff {w : Text} {c : Category} : ofWord? w = some c ↔ c.Holds w := by
  have hnone : comment.literals = [] := rfl
  have hfind : ∃ p : Category → Bool, ofWord? w = all.find? p ∧ ∀ d, p d = true ↔ d.Holds w := by
    refine ⟨_, rfl, fun d => ?_⟩
    cases d <;> simp [Holds, hnone]
  obtain ⟨p, hofWord, hp⟩ := hfind
  rw [hofWord]
  constructor
  · exact fun h => (hp c).mp (List.find?_some h)
  · intro h
    have hsome : (all.find? p).isSome := List.find?_isSome.mpr ⟨c, mem_all c, (hp c).mpr h⟩
    obtain ⟨d, hd⟩ := Option.isSome_iff_exists.mp hsome
    rw [hd, h.unique ((hp d).mp (List.find?_some hd))]

end Category

/-! ### The text of a span -/

/-- **Spans carry literals.**  What a comment leaves of an operator is an operator too. -/
theorem text_mem_literals {t : Text} {span : Span} (hspan : span ∈ highlight t)
    (hcategory : span.category ≠ comment) : span.text ∈ span.category.literals := by
  by_cases hoperator : span.category = operator
  · rw [hoperator]
    rcases operator_span_cases hspan hoperator with ⟨o, ho, -, htext, -⟩ | ⟨-, htext⟩
    · rw [htext]
      exact (longest_of_mem_longestLiteral ho).1
    · simp [htext, literals_operator]
  · rw [text_of_mem_highlight hspan]
    exact ((exists_word_span_iff ⟨hcategory, hoperator⟩).mp ⟨span, hspan, rfl, rfl, rfl⟩).2.1

/-- A text that its own comment takes up to the end reads as one comment. -/
theorem Comment.isWhole_of_length? {t : Text} (h : length? t = some t.length) :
    isWhole t = true := by
  have hline : ∀ {rest : Text}, (restOfLine rest).length = rest.length →
      (rest.all fun c => !isLineBreak c) = true := by
    intro rest hlength
    have hline := List.takeWhile_prefix (l := rest) fun c => !isLineBreak c
    exact List.all_eq_true.mpr (List.takeWhile_eq_self_iff.mp (hline.eq_of_length hlength))
  rw [length?.eq_def] at h
  split at h
  · exact hline (by simpa using Option.some.inj h)
  · exact hline (by simpa using Option.some.inj h)
  · rfl
  · exact absurd h (by simp)

theorem isWhole_of_mem_highlight {t : Text} {span : Span} (hspan : span ∈ highlight t)
    (hcategory : span.category = comment) (hstart : span.start = 0) (hstop : span.stop = t.length) :
    Comment.isWhole t = true := by
  obtain ⟨m, hm, hrun⟩ := isMaximalRun_of_mem hspan
  rw [hcategory] at hm
  have hlt := hrun.nonempty
  have hfirst := (hrun.inside span.start (Nat.le_refl _) hlt).1.1
  have hlast := (hrun.inside (span.stop - 1) (by omega) (by omega)).1.2
  have hbound := (Pattern.bounds_of_mem_findFrom hm).2.2
  have hzero : m.start = 0 := by omega
  have hlength := Comment.length?_of_mem_findAll hm
  rw [Match.stop, hzero] at hlast
  rw [hzero, List.drop_zero] at hlength
  refine Comment.isWhole_of_length? (hlength.trans ?_)
  rw [Match.stop, hzero] at hbound
  congr 1
  omega

/-! ### The span of a literal -/

theorem findAll_comment_operator :
    ∀ w ∈ operator.literals, Comment.pattern.findAll w = [] := by
  rw [literals_operator]
  decide

/-- **A literal is highlighted as a whole.** -/
theorem exists_whole_span {c : Category} {w : Text} (hw : w ∈ c.literals) :
    ∃ span ∈ highlight w, span.start = 0 ∧ span.stop = w.length ∧ span.category = c := by
  have hpos := List.length_pos_iff.mpr (shape_of_mem_literals hw).2.1
  by_cases hcomment : c = comment
  · subst hcomment
    exact absurd hw List.not_mem_nil
  by_cases hoperator : c = operator
  · subst hoperator
    obtain ⟨o, ho, hi⟩ := exists_covers_of_prefix (i := 0) hw (List.length_pos_iff.mp hpos)
      (List.prefix_refl w)
    obtain ⟨-, hprefix, hlongest⟩ := longest_of_mem_longestLiteral ho
    have hzero : o.start = 0 := Nat.le_zero.mp hi.1
    rw [hzero, List.drop_zero] at hprefix hlongest
    have hlength := Nat.le_antisymm hprefix.length_le (hlongest w hw (List.prefix_refl w))
    have hshows : ∀ i, Shows w operator o i ↔ o.Covers i := by
      intro i
      rw [shows_operator_iff ho]
      refine and_iff_left ?_
      rintro ⟨m, hm, -⟩
      rw [findAll_comment_operator w hw] at hm
      exact List.not_mem_nil hm
    obtain ⟨span, hspan, hcategory, hstart, hstop⟩ := exists_span_of_shows ho hshows
    refine ⟨span, hspan, hstart.trans hzero, ?_, hcategory⟩
    rw [hstop, Match.stop, hzero, Nat.zero_add, hlength]
  · have hwords : c.ListsWords := ⟨hcomment, hoperator⟩
    have hword : w.takeWhile isWordChar = w :=
      List.takeWhile_eq_self_iff.mpr (isWordChar_of_mem_literals hwords hw)
    have hrun : IsMaximalRun (WordAt w) 0 w.length := by
      refine isMaximalRun_wordAt_iff.mpr ⟨hpos, fun i hi => absurd hi (Nat.succ_ne_zero i), ?_⟩
      rw [List.drop_zero, hword, Nat.zero_add]
    refine (exists_word_span_iff hwords).mpr ⟨hrun, ?_, Or.inr ?_⟩
    · rwa [List.drop_zero, Nat.sub_zero, List.take_length]
    · rintro ⟨m, hm, hstart, -⟩
      refine Comment.not_wordAt_start hm (hrun.inside _ (Nat.zero_le _) ?_)
      rwa [Nat.le_zero.mp hstart]

theorem text_eq_of_whole {t : Text} {span : Span} (hspan : span ∈ highlight t)
    (hstart : span.start = 0) (hstop : span.stop = t.length) : span.text = t := by
  rw [text_of_mem_highlight hspan, hstart, hstop, List.drop_zero, Nat.sub_zero, List.take_length]

theorem highlight_eq_singleton {t : Text} {span : Span} (hspan : span ∈ highlight t)
    (hstart : span.start = 0) (hstop : span.stop = t.length) : highlight t = [span] := by
  have hordered := (collected_highlight t).ordered
  have hnonempty : ∀ {other : Span}, other ∈ highlight t → other.start < other.stop :=
    fun hother => (isMaximalRun_of_mem hother).elim fun _ h => h.2.nonempty
  have heq : ∀ other ∈ highlight t, other = span := by
    intro other hother
    have hlt := hnonempty hother
    have hle := stop_le_length hother
    exact eq_of_apart hordered hother hspan (i := other.start)
      ⟨Nat.le_refl _, hlt⟩ ⟨by omega, by omega⟩
  cases hspans : highlight t with
  | nil =>
    rw [hspans] at hspan
    exact absurd hspan List.not_mem_nil
  | cons first rest =>
    rw [hspans] at heq hordered
    cases rest with
    | nil => rw [heq first List.mem_cons_self]
    | cons second rest =>
      have hapart := (List.pairwise_cons.mp hordered).1 second List.mem_cons_self
      rw [heq first (by simp), heq second (by simp)] at hapart
      exact absurd (hnonempty hspan) (by omega)

/-! ### Agreement -/

/-- **Highlighting and classifying a word agree.**  The text of every span but a comment is in the
list of its category, and is classified as that.  A text that is highlighted as one span is
classified as its category; and one that is classified, but not as a comment, is highlighted as one
span. -/
theorem classified_as_highlighted (t : Text) :
    (∀ span ∈ highlight t, span.category ≠ .comment →
      span.text ∈ span.category.literals ∧ ofWord? span.text = some span.category) ∧
    (∀ span, highlight t = [span] → span.start = 0 → span.stop = t.length →
      ofWord? t = some span.category) ∧
    ∀ c, c ≠ .comment → ofWord? t = some c → highlight t = [⟨0, t.length, t, c⟩] := by
  have hspans : ∀ span ∈ highlight t, span.category ≠ .comment →
      span.text ∈ span.category.literals ∧ ofWord? span.text = some span.category := by
    intro span hspan hcategory
    have hmem := text_mem_literals hspan hcategory
    exact ⟨hmem, ofWord?_eq_some_iff.mpr (Or.inl hmem)⟩
  refine ⟨hspans, ?_, ?_⟩
  · intro span hone hstart hstop
    have hspan : span ∈ highlight t := by
      rw [hone]
      exact List.mem_cons_self
    by_cases hcategory : span.category = .comment
    · rw [hcategory]
      exact ofWord?_eq_some_iff.mpr
        (Or.inr ⟨rfl, isWhole_of_mem_highlight hspan hcategory hstart hstop⟩)
    · have hword := (hspans span hspan hcategory).2
      rwa [text_eq_of_whole hspan hstart hstop] at hword
  · intro c hc hword
    have hmem := (ofWord?_eq_some_iff.mp hword).resolve_right fun h => hc h.1
    obtain ⟨span, hspan, hstart, hstop, hcategory⟩ := exists_whole_span hmem
    have htext := text_eq_of_whole hspan hstart hstop
    rw [highlight_eq_singleton hspan hstart hstop]
    obtain ⟨start, stop, text, category⟩ := span
    simp only at hstart hstop htext hcategory
    rw [hstart, hstop, htext, hcategory]

end IoSource
