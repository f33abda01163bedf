import IoSource.Proofs.Highlight.Identifiers

/-!
# Highlighted operators

An operator is shown as the longest one that stands at its place, and a compound operator is not
split, but for one case (`operators_longest`).  Operators are looked for within comments too, and an
operator that starts with the slash of a comment's end may reach across it.  The only one that does
is `/=`, whose equals sign is then shown on its own; where two equals signs stand behind the
comment they are torn apart.

`within_or_slash` is the analysis of an operator and a comment that share characters.
-/

namespace IoSource

open Category

/-! ### Operators and comments -/

theorem operator_shape : ∀ w ∈ operator.literals, '/' ∉ w.tail ∧ '#' ∉ w.tail ∧
    (∀ c ∈ w, isLineBreak c = false) ∧
    (w.head? = some '/' → w = ['/'] ∨ w = ['/', '=']) ∧
    (w.head? = some '=' → w = ['='] ∨ w = ['=', '=']) := by
  -- the characters are checked by a function, since deciding `∀ c ∈ w` may try all characters
  have hall : ∀ w ∈ operator.literals, '/' ∉ w.tail ∧ '#' ∉ w.tail ∧
      (w.all fun c => !isLineBreak c) = true ∧
      (w.head? = some '/' → w = ['/'] ∨ w = ['/', '=']) ∧
      (w.head? = some '=' → w = ['='] ∨ w = ['=', '=']) := by
    rw [literals_operator]
    decide
  intro w hw
  obtain ⟨hslash, hhash, hbreak, hfirst⟩ := hall w hw
  exact ⟨hslash, hhash, by simpa using hbreak, hfirst⟩

theorem Pattern.mem_of_covers {p : Pattern} {t : Text} {m : Match} (hm : m ∈ p.findAll t) {i : Nat}
    (hi : m.Covers i) {c : Char} (hc : t[i]? = some c) :
    c ∈ m.text ∧ (m.start < i → c ∈ m.text.tail) ∧ (m.start = i → m.text.head? = some c) := by
  obtain ⟨k, rfl, hk⟩ := Match.covers_iff.mp hi
  have hget := getElem?_of_covers hm hi
  rw [Nat.add_sub_cancel_left, hc] at hget
  refine ⟨List.mem_of_getElem? hget, fun hlt => ?_, fun heq => ?_⟩
  · obtain ⟨k, rfl⟩ : ∃ k', k = k' + 1 := ⟨k - 1, by omega⟩
    rw [← List.getElem?_tail] at hget
    exact List.mem_of_getElem? hget
  · obtain rfl : k = 0 := by omega
    rwa [List.head?_eq_getElem?]

/-- **An operator and a comment that share a character**: the operator lies within the comment, or
it is the slash at the end of the comment with the equals sign behind it. -/
theorem within_or_slash {t : Text} {m o : Match} (hm : m ∈ Comment.pattern.findAll t)
    (ho : o ∈ operator.pattern.findAll t) {i : Nat} (hi : m.Covers i) (hi' : o.Covers i) :
    (m.start ≤ o.start ∧ o.stop ≤ m.stop) ∨ (o.start + 1 = m.stop ∧ o.text = ['/', '=']) := by
  obtain ⟨hslash, hhash, hbreak, hfirst, -⟩ := operator_shape _ (longest_of_mem_longestLiteral ho).1
  have hle := hi.1
  have hlt := hi.2
  have hle' := hi'.1
  have hlt' := hi'.2
  by_cases hstart : m.start ≤ o.start
  · by_cases hstop : o.stop ≤ m.stop
    · exact Or.inl ⟨hstart, hstop⟩
    · refine Or.inr ?_
      rcases Comment.end_of_mem_findAll hm with hall | ⟨c, hc, hc'⟩ | hc
      · have hbound := (Pattern.bounds_of_mem_findFrom ho).2.2
        omega
      · have hmem := (Pattern.mem_of_covers ho (i := m.stop) ⟨by omega, by omega⟩ hc).1
        rw [hbreak c hmem] at hc'
        exact absurd hc' (by decide)
      · have hlast := Pattern.mem_of_covers ho (i := m.stop - 1) ⟨by omega, by omega⟩ hc
        have hat : o.start = m.stop - 1 := by
          by_contra hne
          exact hslash (hlast.2.1 (by omega))
        refine ⟨by omega, (hfirst (hlast.2.2 hat)).resolve_left fun hone => ?_⟩
        rw [Match.stop, hone, List.length_singleton] at hstop
        omega
  · -- the marker of the comment would stand within the operator
    have hmarker := Comment.first_of_mem_findAll hm
    rcases hmarker with hc | hc
    · have hmem := Pattern.mem_of_covers ho (i := m.start) ⟨by omega, by omega⟩ hc
      exact absurd (hmem.2.1 (by omega)) hhash
    · have hmem := Pattern.mem_of_covers ho (i := m.start) ⟨by omega, by omega⟩ hc
      exact absurd (hmem.2.1 (by omega)) hslash

/-- Only comments take characters away from operators. -/
theorem shows_operator_iff {t : Text} {o : Match} (ho : o ∈ operator.pattern.findAll t) (i : Nat) :
    Shows t operator o i ↔ o.Covers i ∧ ¬ Comment.pattern.Takes t i := by
  constructor
  · exact fun h => ⟨h.1, h.2 comment (by decide)⟩
  · rintro ⟨hi, hfree⟩
    refine ⟨hi, fun d hd htakes => ?_⟩
    have hword : ∀ {d : Category}, d.ListsWords → ¬ d.pattern.Takes t i := by
      intro d hd htakes
      rw [pattern_of_listsWords hd] at htakes
      exact not_wordAt_of_takes_operator ⟨o, ho, hi⟩ (wordAt_of_takes htakes)
    by_cases hcomment : d = comment
    · subst hcomment
      exact hfree htakes
    · exact hword ⟨hcomment, hd.ne⟩ htakes

/-- A comment goes on to a character, unless that is the first of a marker. -/
theorem Comment.not_takes_succ {t : Text} {i : Nat} (h : ¬ pattern.Takes t i) {c : Char}
    (hc : t[i + 1]? = some c) (hhash : c ≠ '#') (hslash : c ≠ '/') :
    ¬ pattern.Takes t (i + 1) := by
  rintro ⟨m, hm, hi⟩
  have hle := hi.1
  have hlt := hi.2
  by_cases hstart : m.start ≤ i
  · exact h ⟨m, hm, hstart, by omega⟩
  · have hat : m.start = i + 1 := by omega
    have hfirst := first_of_mem_findAll hm
    rw [hat, hc] at hfirst
    rcases hfirst with hfirst | hfirst
    · exact hhash (Option.some.inj hfirst)
    · exact hslash (Option.some.inj hfirst)

/-! ### The places of operators -/

/-- An operator stands at an offset, with no character in a comment. -/
def OperatorAt (t : Text) (i : Nat) (w : Text) : Prop :=
  w ∈ operator.literals ∧ w <+: t.drop i ∧ ∀ k < w.length, ¬ Comment.pattern.Takes t (i + k)

/-- Of the operators that stand at an offset, the longest. -/
def LongestOperatorAt (t : Text) (i : Nat) (w : Text) : Prop :=
  OperatorAt t i w ∧ ∀ v, OperatorAt t i v → v.length ≤ w.length

/-- Two equals signs stand right behind a comment. -/
def EqualsBehindComment (t : Text) (i : Nat) : Prop :=
  (∃ m ∈ Comment.pattern.findAll t, m.stop = i) ∧ ['=', '='] <+: t.drop i

namespace OperatorAt

variable {t : Text} {i : Nat} {w : Text}

theorem ne_nil (h : OperatorAt t i w) : w ≠ [] := (shape_of_mem_literals h.1).2.1

theorem not_takes (h : OperatorAt t i w) : ¬ Comment.pattern.Takes t i :=
  h.2.2 0 (List.length_pos_iff.mpr h.ne_nil)

theorem head?_eq (h : OperatorAt t i w) : w.head? = t[i]? := by
  obtain ⟨rest, hrest⟩ := h.2.1
  rw [← List.head?_drop, ← hrest, List.head?_append_of_ne_nil _ h.ne_nil]

end OperatorAt

/-- An equals sign behind a comment belongs to the operator that starts with the slash in front. -/
theorem exists_slash_of_equals {t : Text} {m : Match} (hm : m ∈ Comment.pattern.findAll t)
    (hequals : t[m.stop]? = some '=') :
    ∃ o ∈ operator.pattern.findAll t, o.start + 1 = m.stop ∧ o.text = ['/', '='] := by
  have hpos := (Pattern.bounds_of_mem_findFrom hm).2.1
  have hstart : m.start + m.text.length = m.stop := rfl
  have hslash : t[m.stop - 1]? = some '/' := by
    rcases Comment.end_of_mem_findAll hm with hall | ⟨c, hc, hbreak⟩ | hslash
    · rw [hall, List.getElem?_eq_none (Nat.le_refl _)] at hequals
      exact absurd hequals (by simp)
    · rw [hequals] at hc
      obtain rfl := Option.some.inj hc
      exact absurd hbreak (by decide)
    · exact hslash
  have hprefix : ['/', '='] <+: t.drop (m.stop - 1) := by
    obtain ⟨hlt, hget⟩ := List.getElem?_eq_some_iff.mp hslash
    obtain ⟨hlt', hget'⟩ := List.getElem?_eq_some_iff.mp hequals
    have hnext : m.stop - 1 + 1 = m.stop := by omega
    rw [List.drop_eq_getElem_cons hlt, hget, hnext, List.drop_eq_getElem_cons hlt', hget']
    exact ⟨_, rfl⟩
  have hmem : ['/', '='] ∈ operator.literals := by simp [literals_operator]
  obtain ⟨o, ho, hi⟩ := exists_covers_of_prefix hmem (by simp) hprefix
  refine ⟨o, ho, (within_or_slash hm ho ⟨by omega, by omega⟩ hi).resolve_left ?_⟩
  rintro ⟨-, hstop⟩
  -- the slash is the first character of the operator, and `/=` would be longer
  obtain ⟨hoperator, -, hlongest⟩ := longest_of_mem_longestLiteral ho
  have hat : o.start = m.stop - 1 := by
    by_contra hne
    have hle := hi.1
    exact (operator_shape _ hoperator).1 ((Pattern.mem_of_covers ho hi hslash).2.1 (by omega))
  have hlength := hlongest _ hmem (by rwa [hat])
  simp only [List.length_cons, List.length_nil] at hlength
  rw [Match.stop] at hstop
  omega

/-- Where an operator starts in the scan, two equals signs do not stand behind a comment. -/
theorem not_equalsBehindComment {t : Text} {o : Match} (ho : o ∈ operator.pattern.findAll t) :
    ¬ EqualsBehindComment t o.start := by
  rintro ⟨⟨m, hm, hstop⟩, hequals⟩
  have hfirst : t[m.stop]? = some '=' := by
    obtain ⟨rest, hrest⟩ := hequals
    rw [hstop, ← List.head?_drop, ← hrest]
    rfl
  obtain ⟨o', ho', hstart, htext⟩ := exists_slash_of_equals hm hfirst
  have hpos := (Pattern.bounds_of_mem_findFrom ho).2.1
  have hsame : o' = o := by
    refine Pattern.eq_of_covers ho' ho (i := o.start) ?_ ⟨Nat.le_refl _, ?_⟩
    · rw [Match.Covers, Match.stop, htext]
      simp only [List.length_cons, List.length_nil]
      omega
    · rw [Match.stop]
      omega
  rw [hsame] at hstart
  omega

/-! ### Spans of operators -/

/-- **A span of operators** is a whole match outside comments, or the equals sign that is left of
one. -/
theorem operator_span_cases {t : Text} {span : Span} (hspan : span ∈ highlight t)
    (hoperator : span.category = operator) :
    (∃ o ∈ operator.pattern.findAll t, span.start = o.start ∧ span.text = o.text ∧
      ∀ i, o.Covers i → ¬ Comment.pattern.Takes t i) ∨
    ((∃ m ∈ Comment.pattern.findAll t, m.stop = span.start) ∧ span.text = ['=']) := by
  obtain ⟨o, ho, hrun⟩ := isMaximalRun_of_mem hspan
  rw [hoperator] at ho hrun
  have hlt := hrun.nonempty
  have htext := text_of_mem_highlight hspan
  have hprefix := (longest_of_mem_longestLiteral ho).2.1
  by_cases hfree : ∀ i, o.Covers i → ¬ Comment.pattern.Takes t i
  · have hpos := (Pattern.bounds_of_mem_findFrom ho).2.1
    have hshows : ∀ i, Shows t operator o i ↔ o.Covers i := by
      intro i
      rw [shows_operator_iff ho, and_iff_left_of_imp (hfree i)]
    obtain ⟨hstart, hstop⟩ :=
      (isMaximalRun_covers_iff hpos).mp ((IsMaximalRun.congr hshows).mp hrun)
    rw [hstart, hstop, Match.stop, Nat.add_sub_cancel_left,
      ← List.prefix_iff_eq_take.mp hprefix] at htext
    exact Or.inl ⟨o, ho, hstart, htext, hfree⟩
  · refine Or.inr ?_
    obtain ⟨i, hi, m, hm, hi'⟩ : ∃ i, o.Covers i ∧ Comment.pattern.Takes t i := by
      simpa only [not_forall, not_not, exists_prop] using hfree
    -- what shows of the match is behind the comment
    have hbehind : ∀ j, span.start ≤ j → j < span.stop → o.Covers j ∧ ¬ m.Covers j := by
      intro j hj hlt
      have hshows := (shows_operator_iff ho j).mp (hrun.inside j hj hlt)
      exact ⟨hshows.1, fun hcovers => hshows.2 ⟨m, hm, hcovers⟩⟩
    have hfirst := hbehind span.start (Nat.le_refl _) hlt
    have hlast := hbehind (span.stop - 1) (by omega) (by omega)
    simp only [Match.Covers] at hi hi' hfirst hlast
    obtain ⟨hend, hslash⟩ := (within_or_slash hm ho hi' hi).resolve_left fun h => by omega
    have hstop : o.stop = m.stop + 1 := by
      rw [Match.stop, hslash, ← hend]
      rfl
    have hat : span.start = o.start + 1 := by omega
    have hone : span.stop - span.start = 1 := by omega
    obtain ⟨rest, hrest⟩ := hprefix
    refine ⟨⟨m, hm, by omega⟩, ?_⟩
    rw [htext, hone, hat, ← List.drop_drop, ← hrest, hslash]
    rfl

theorem longestOperatorAt_equals_iff {t : Text} {i : Nat} (hequals : ['='] <+: t.drop i)
    (hfree : ¬ Comment.pattern.Takes t i) :
    LongestOperatorAt t i ['='] ↔ ¬ ['=', '='] <+: t.drop i := by
  have hone : OperatorAt t i ['='] := by
    refine ⟨by simp [literals_operator], hequals, fun k hk => ?_⟩
    obtain rfl : k = 0 := by simpa using hk
    exact hfree
  constructor
  · rintro ⟨-, hlongest⟩ hprefix
    have hnext : t[i + 1]? = some '=' := by
      obtain ⟨rest, hrest⟩ := hprefix
      rw [← List.getElem?_drop, ← hrest]
      rfl
    have htwo : OperatorAt t i ['=', '='] := by
      refine ⟨by simp [literals_operator], hprefix, fun k hk => ?_⟩
      rcases (by simp only [List.length_cons, List.length_nil] at hk; omega : k = 0 ∨ k = 1) with
        rfl | rfl
      · exact hfree
      · exact Comment.not_takes_succ hfree hnext (by decide) (by decide)
    exact absurd (hlongest _ htwo) (by simp)
  · intro hnot
    refine ⟨hone, fun v hv => ?_⟩
    have hhead := hv.head?_eq.trans hone.head?_eq.symm
    rcases (operator_shape v hv.1).2.2.2.2 hhead with rfl | rfl
    · exact Nat.le_refl _
    · exact absurd hv.2.1 hnot

/-- A span of operators carries the longest operator at its place, unless two equals signs stand
there behind a comment. -/
theorem longest_iff {t : Text} {span : Span} (hspan : span ∈ highlight t)
    (hoperator : span.category = operator) :
    LongestOperatorAt t span.start span.text ↔ ¬ EqualsBehindComment t span.start := by
  rcases operator_span_cases hspan hoperator with
    ⟨o, ho, hstart, htext, hfree⟩ | ⟨hbehind, htext⟩
  · obtain ⟨hmem, hprefix, hlongest⟩ := longest_of_mem_longestLiteral ho
    rw [hstart, htext]
    refine iff_of_true ⟨⟨hmem, hprefix, fun k hk => hfree _ ?_⟩, ?_⟩ (not_equalsBehindComment ho)
    · exact Match.covers_iff.mpr ⟨k, rfl, hk⟩
    · exact fun v hv => hlongest v hv.1 hv.2.1
  · have hprefix : span.text <+: t.drop span.start := by
      rw [text_of_mem_highlight hspan]
      exact List.take_prefix _ _
    have hlt := (isMaximalRun_of_mem hspan).elim fun _ h => h.2.nonempty
    have hfree : ¬ Comment.pattern.Takes t span.start :=
      (owns_of_covers hspan ⟨Nat.le_refl _, hlt⟩).2 comment (by rw [hoperator]; decide)
    rw [htext] at hprefix ⊢
    rw [longestOperatorAt_equals_iff hprefix hfree, EqualsBehindComment, and_iff_right hbehind]

/-! ### Compound operators -/

theorem not_takes_of_not_takes_start {t : Text} {o : Match} (ho : o ∈ operator.pattern.findAll t)
    (hstart : ¬ Comment.pattern.Takes t o.start) {j : Nat} (hj : o.Covers j) :
    ¬ Comment.pattern.Takes t j := by
  rintro ⟨m, hm, hj'⟩
  refine hstart ⟨m, hm, ?_⟩
  have hfirst := hj'.1
  have hlast := hj'.2
  have hle := hj.1
  rcases within_or_slash hm ho hj' hj with ⟨hbegin, -⟩ | ⟨hend, -⟩
  · exact ⟨hbegin, by omega⟩
  · exact ⟨by omega, by omega⟩

/-- If the match at the place of an operator has started before, it is the slash of a comment's end
with an equals sign behind, and the operator starts with that. -/
theorem equals_of_started_before {t : Text} {i : Nat} {w : Text} (hw : OperatorAt t i w)
    (hfront : ∀ j c, j + 1 = i → t[j]? = some c → (∃ v ∈ operator.literals, c ∈ v) →
      Comment.pattern.Takes t j)
    {o : Match} (ho : o ∈ operator.pattern.findAll t) (hi : o.Covers i) (hbefore : o.start < i) :
    (∃ m ∈ Comment.pattern.findAll t, m.stop = i ∧ m.Covers o.start) ∧
      (w = ['='] ∨ w = ['=', '=']) := by
  obtain ⟨j, rfl⟩ : ∃ j, i = j + 1 := ⟨i - 1, by omega⟩
  have hlt := hi.2
  have hj : o.Covers j := ⟨by omega, by omega⟩
  have hjlt : j < t.length := by
    have hbound := (Pattern.bounds_of_mem_findFrom ho).2.2
    omega
  have hc := List.getElem?_eq_getElem hjlt
  have hmem := (longest_of_mem_longestLiteral ho).1
  obtain ⟨m, hm, hjm⟩ := hfront j _ rfl hc ⟨_, hmem, (Pattern.mem_of_covers ho hj hc).1⟩
  have hfirst := hjm.1
  have hlast := hjm.2
  have hend : m.stop = j + 1 := by
    by_contra hne
    exact hw.not_takes ⟨m, hm, by omega, by omega⟩
  obtain ⟨hat, htext⟩ := (within_or_slash hm ho hjm hj).resolve_left fun h => by omega
  have hequals : t[j + 1]? = some '=' := by
    have hget := Pattern.getElem?_of_covers ho hi
    have hplace : j + 1 - o.start = 1 := by omega
    rw [hplace, htext] at hget
    exact hget.symm
  refine ⟨⟨m, hm, hend, ?_⟩, (operator_shape w hw.1).2.2.2.2 (hw.head?_eq.trans hequals)⟩
  exact ⟨by omega, by omega⟩

/-- **A compound operator is not split**, unless it is two equals signs right behind a comment. -/
theorem exists_span_of_operatorAt_iff {t : Text} {i : Nat} {w : Text} (hw : OperatorAt t i w)
    (hcompound : 2 ≤ w.length)
    (hfront : ∀ j c, j + 1 = i → t[j]? = some c → (∃ v ∈ operator.literals, c ∈ v) →
      Comment.pattern.Takes t j) :
    (∃ span ∈ highlight t, span.start ≤ i ∧ i + w.length ≤ span.stop) ↔
      ¬ EqualsBehindComment t i := by
  obtain ⟨o, ho, hi⟩ := exists_covers_of_prefix hw.1 hw.ne_nil hw.2.1
  rcases Nat.eq_or_lt_of_le hi.1 with rfl | hbefore
  · have hlength := (longest_of_mem_longestLiteral ho).2.2 w hw.1 hw.2.1
    obtain ⟨span, hspan, -, hstart, hstop⟩ := exists_span_of_shows (c := operator) ho fun j => by
      rw [shows_operator_iff ho,
        and_iff_left_of_imp fun hj => not_takes_of_not_takes_start ho hw.not_takes hj]
    refine iff_of_true ⟨span, hspan, Nat.le_of_eq hstart, ?_⟩ (not_equalsBehindComment ho)
    rw [hstop, Match.stop]
    omega
  · obtain ⟨⟨m, hm, hend, hcovered⟩, hequals⟩ := equals_of_started_before hw hfront ho hi hbefore
    have htwo : w = ['=', '='] := by
      refine hequals.resolve_left ?_
      rintro rfl
      exact absurd hcompound (by decide)
    refine iff_of_false ?_ (not_not.mpr ⟨⟨m, hm, hend⟩, htwo ▸ hw.2.1⟩)
    rintro ⟨span, hspan, hfirst, hlast⟩
    -- the span at this place is what the comment has left of the match: one equals sign
    have hcovers : span.Covers i := ⟨hfirst, by omega⟩
    have howns : operator.Owns t i :=
      ⟨⟨o, ho, hi⟩, ((shows_operator_iff ho _).mpr ⟨hi, hw.not_takes⟩).2⟩
    have hlength := start_add_length hspan
    rcases operator_span_cases hspan ((owns_of_covers hspan hcovers).unique howns) with
      ⟨o', ho', hstart', htext', hfree⟩ | ⟨-, hone⟩
    · obtain rfl : o' = o := by
        refine Pattern.eq_of_covers ho' ho (i := i) ?_ hi
        rw [Match.Covers, Match.stop, ← hstart', ← htext', hlength]
        exact hcovers
      exact hfree _ ⟨Nat.le_refl _, Nat.lt_trans hbefore hi.2⟩ ⟨m, hm, hcovered⟩
    · rw [hone, List.length_singleton] at hlength
      omega

/-- **Operators are highlighted by the longest match**, but where two equals signs stand right
behind a comment.  A span of operators carries the longest operator that stands at its place outside
comments just when they do not; and a compound operator outside comments, in front of which no
character of an operator stands outside comments, lies in one span just when it is not the two. -/
theorem operators_longest (t : Text) :
    (∀ span ∈ highlight t, span.category = .operator →
      (LongestOperatorAt t span.start span.text ↔ ¬ EqualsBehindComment t span.start)) ∧
    ∀ i w, OperatorAt t i w → 2 ≤ w.length →
      (∀ j c, j + 1 = i → t[j]? = some c → (∃ v ∈ operator.literals, c ∈ v) →
        Comment.pattern.Takes t j) →
      ((∃ span ∈ highlight t, span.start ≤ i ∧ i + w.length ≤ span.stop) ↔
        ¬ EqualsBehindComment t i) :=
  ⟨fun _ hspan hoperator => longest_iff hspan hoperator,
    fun _ _ hw hcompound hfront => exists_span_of_operatorAt_iff hw hcompound hfront⟩

/-- The definition sign stays whole behind a comment. -/
theorem operators_longest_definition :
    let t : Text := ['/', '*', '*', '/', ':', ':', '=']
    OperatorAt t 4 [':', ':', '='] ∧ ¬ EqualsBehindComment t 4 ∧
      ∃ span ∈ highlight t, span.start ≤ 4 ∧ 7 ≤ span.stop := by
  intro t
  have hmem : [':', ':', '='] ∈ operator.literals := by simp [literals_operator]
  have hw : OperatorAt t 4 [':', ':', '='] := ⟨hmem, by decide, by decide⟩
  have hnot : ¬ EqualsBehindComment t 4 := fun h => absurd h.2 (by decide)
  refine ⟨hw, hnot, ((operators_longest t).2 4 _ hw (by decide) ?_).mpr hnot⟩
  rintro j c hj - -
  obtain rfl : j = 3 := by omega
  decide

/-- Two equals signs behind a comment are two operators. -/
theorem equals_behind_comment :
    let t : Text := ['/', '*', '*', '/', '=', '=']
    highlight t = [⟨0, 4, ['/', '*', '*', '/'], .comment⟩, ⟨4, 5, ['='], .operator⟩,
        ⟨5, 6, ['='], .operator⟩] ∧
      OperatorAt t 4 ['=', '='] ∧ ¬ LongestOperatorAt t 4 ['='] := by
  intro t
  have hmem : ['=', '='] ∈ operator.literals := by simp [literals_operator]
  have htwo : OperatorAt t 4 ['=', '='] := ⟨hmem, by decide, by decide⟩
  exact ⟨by decide +kernel, htwo, fun h => absurd (h.2 _ htwo) (by decide)⟩

end IoSource
