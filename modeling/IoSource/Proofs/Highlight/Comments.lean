import IoSource.Proofs.Comment.Erase
import IoSource.Proofs.Highlight.Literals

/-!
# Comments, deleted and highlighted

Deleting comments and highlighting them read the same grammar, but not in the same way: what is
highlighted as a comment loses the characters of a `self` within, and a `self` could take characters
on both sides of an end of a comment.  `erased_iff_highlighted` says that it never does, so that the
characters which deleting takes away are those that are shown in a comment.

The proof looks at the two ends of a comment (`first_of_mem_findAll`, `end_of_mem_findAll`).  A
marker stands at the front, and an end marker or a line break at the back, and none of these
characters belongs to a word.
-/

namespace IoSource

namespace Pattern

theorem getElem?_of_covers {p : Pattern} {t : Text} {m : Match} (hm : m ∈ p.findAll t) {i : Nat}
    (hi : m.Covers i) : m.text[i - m.start]? = t[i]? := by
  have htext := text_of_mem_findFrom hm
  have hlt := hi.2
  have hle := hi.1
  rw [Match.stop] at hlt
  rw [htext, List.getElem?_take_of_lt (by omega), List.getElem?_drop]
  congr 1
  omega

end Pattern

/-! ### The ends of a comment -/

namespace Comment

/-- A comment is what the grammar takes at its place. -/
theorem length?_of_mem_findAll {t : Text} {m : Match} (hm : m ∈ pattern.findAll t) :
    length? (t.drop m.start) = some m.text.length := by
  obtain ⟨n, hn, htext⟩ := Pattern.exists_lengthAt?_of_mem hm
  have hn' : length? (t.drop m.start) = some n := hn
  rw [hn', htext, List.length_take, Nat.min_eq_left (length?_le hn').2]

theorem first_of_length? {t : Text} {n : Nat} (h : length? t = some n) :
    t.head? = some '#' ∨ t.head? = some '/' := by
  cases t with
  | nil => exact absurd h (by simp [length?])
  | cons c rest =>
    by_cases hstart : StartsComment c rest.head?
    · rcases hstart with rfl | ⟨rfl, -⟩
      · exact Or.inl rfl
      · exact Or.inr rfl
    · rw [length?_eq_none_iff.mpr hstart] at h
      exact absurd h (by simp)

theorem getElem?_length_restOfLine (t : Text) :
    (restOfLine t).length = t.length ∨
      ∃ c, t[(restOfLine t).length]? = some c ∧ isLineBreak c = true := by
  have hdrop := drop_length_restOfLine t
  rw [← List.head?_drop, hdrop]
  cases hbehind : t.dropWhile fun c => !isLineBreak c with
  | nil =>
    rw [hbehind, List.drop_eq_nil_iff] at hdrop
    have hle := (List.takeWhile_prefix (l := t) fun c => !isLineBreak c).length_le
    exact Or.inl (Nat.le_antisymm hle hdrop)
  | cons c behind =>
    have hc := List.head?_dropWhile_not (fun c => !isLineBreak c) t
    rw [hbehind] at hc
    exact Or.inr ⟨c, rfl, by simpa using hc⟩

/-- An open block comment ends with the slash of its end marker, or with the text. -/
theorem getElem?_blockLength (t : Text) :
    blockLength t = t.length ∨ 0 < blockLength t ∧ t[blockLength t - 1]? = some '/' := by
  induction t using blockLength.induct with
  | case1 => exact Or.inl rfl
  | case2 rest => exact Or.inr ⟨Nat.succ_pos 1, rfl⟩
  | case3 c rest hne ih =>
    rw [blockLength, List.length_cons]
    · rcases ih with hall | ⟨hpos, hslash⟩
      · exact Or.inl (by rw [hall])
      · refine Or.inr ⟨Nat.succ_pos _, ?_⟩
        obtain ⟨k, hk⟩ : ∃ k, blockLength rest = k + 1 := ⟨blockLength rest - 1, by omega⟩
        rw [hk] at hslash ⊢
        exact hslash
    · exact hne

/-- A comment ends with the text, or before a line break, or with a slash. -/
theorem end_of_length? {t : Text} {n : Nat} (h : length? t = some n) :
    n = t.length ∨ (∃ c, t[n]? = some c ∧ isLineBreak c = true) ∨ t[n - 1]? = some '/' := by
  rw [length?.eq_def] at h
  split at h
  · next rest =>
    obtain rfl := Option.some.inj h
    rcases getElem?_length_restOfLine rest with hall | hbreak
    · exact Or.inl (by rw [hall, List.length_cons])
    · exact Or.inr (Or.inl hbreak)
  · next rest =>
    obtain rfl := Option.some.inj h
    rcases getElem?_length_restOfLine rest with hall | hbreak
    · exact Or.inl (by rw [hall, List.length_cons, List.length_cons])
    · exact Or.inr (Or.inl hbreak)
  · next rest =>
    obtain rfl := Option.some.inj h
    rcases getElem?_blockLength rest with hall | ⟨hpos, hslash⟩
    · exact Or.inl (by rw [hall, List.length_cons, List.length_cons])
    · refine Or.inr (Or.inr ?_)
      obtain ⟨k, hk⟩ : ∃ k, blockLength rest = k + 1 := ⟨blockLength rest - 1, by omega⟩
      rw [hk] at hslash ⊢
      exact hslash
  · exact absurd h (by simp)

theorem first_of_mem_findAll {t : Text} {m : Match} (hm : m ∈ pattern.findAll t) :
    t[m.start]? = some '#' ∨ t[m.start]? = some '/' := by
  have hfirst := first_of_length? (length?_of_mem_findAll hm)
  rwa [List.head?_drop] at hfirst

theorem end_of_mem_findAll {t : Text} {m : Match} (hm : m ∈ pattern.findAll t) :
    m.stop = t.length ∨ (∃ c, t[m.stop]? = some c ∧ isLineBreak c = true) ∨
      t[m.stop - 1]? = some '/' := by
  obtain ⟨-, hpos, hstop⟩ := Pattern.bounds_of_mem_findFrom hm
  have hplace : m.start + (m.text.length - 1) = m.stop - 1 := by
    rw [Match.stop]
    omega
  rw [Match.stop] at hstop
  have hend := end_of_length? (length?_of_mem_findAll hm)
  rw [List.length_drop, List.getElem?_drop, List.getElem?_drop, hplace] at hend
  rcases hend with hall | hbreak | hslash
  · refine Or.inl ?_
    rw [Match.stop]
    omega
  · exact Or.inr (Or.inl hbreak)
  · exact Or.inr (Or.inr hslash)

/-! ### The characters that are deleted -/

theorem filterMap_zip_eq {P : Nat → Prop} [DecidablePred P] {t : Text} {marks : List Mark}
    {start : Nat} (hlength : marks.length = t.length)
    (h : ∀ i, marks[i]? = some none ↔ i < t.length ∧ ¬ P (start + i)) :
    (t.zip marks).filterMap (fun (c, mark) => if mark.isNone then some c else none) =
      ((t.zipIdx start).filter fun p => ¬ P p.2).map Prod.fst := by
  induction t generalizing marks start with
  | nil => rfl
  | cons c t ih =>
    cases marks with
    | nil => exact absurd hlength (by simp)
    | cons mark marks =>
      have hlater : ∀ i, marks[i]? = some none ↔ i < t.length ∧ ¬ P (start + 1 + i) := by
        intro i
        have hi := h (i + 1)
        rw [List.getElem?_cons_succ, List.length_cons, Nat.add_lt_add_iff_right,
          Nat.add_comm i 1, ← Nat.add_assoc] at hi
        exact hi
      have hrest := ih (by simpa using hlength) hlater
      have hfirst := h 0
      rw [List.getElem?_cons_zero] at hfirst
      cases mark with
      | none =>
        have hP : ¬ P start := by simpa using hfirst
        rw [List.zip_cons_cons, List.filterMap_cons_some (b := c) (by simp), hrest,
          List.zipIdx_cons, List.filter_cons_of_pos (by simpa using hP), List.map_cons]
      | some k =>
        have hP : P start := by simpa using hfirst
        rw [List.zip_cons_cons, List.filterMap_cons_none (by simp), hrest,
          List.zipIdx_cons, List.filter_cons_of_neg (by simpa using hP)]

/-- **Deleting comments** keeps the characters that no comment takes. -/
theorem erase_eq_filter (t : Text) :
    erase t = ((t.zipIdx).filter fun p => ¬ pattern.Takes t p.2).map Prod.fst := by
  refine filterMap_zip_eq (Pattern.length_marks pattern t) fun i => ?_
  rw [Nat.zero_add]
  by_cases hi : i < t.length
  · rw [Pattern.getElem?_marks_eq_none hi, and_iff_right hi]
  · rw [List.getElem?_eq_none (by rw [Pattern.length_marks]; omega)]
    simp [hi]

theorem erase_ne_self_iff {t : Text} : erase t ≠ t ↔ ∃ m, m ∈ pattern.findAll t := by
  constructor
  · intro hne
    by_contra hnone
    apply hne
    have hall : ∀ p ∈ t.zipIdx, decide (¬ pattern.Takes t p.2) = true := by
      rintro p -
      exact decide_eq_true fun ⟨m, hm, _⟩ => hnone ⟨m, hm⟩
    rw [erase_eq_filter, List.filter_eq_self.mpr hall, List.zipIdx_map_fst]
  · rintro ⟨m, hm⟩ heq
    obtain ⟨-, hpos, hstop⟩ := Pattern.bounds_of_mem_findFrom hm
    have hlt : m.start < t.length := by
      rw [Match.stop] at hstop
      omega
    have htakes : pattern.Takes t m.start := ⟨m, hm, Nat.le_refl _, by rw [Match.stop]; omega⟩
    have hshort : ((t.zipIdx).filter fun p => ¬ pattern.Takes t p.2).length < t.zipIdx.length := by
      refine List.length_filter_lt_length_iff_exists.mpr ⟨(t[m.start], m.start), ?_, ?_⟩
      · exact List.mk_mem_zipIdx_iff_getElem?.mpr (List.getElem?_eq_getElem hlt)
      · simpa using htakes
    have hlength := congrArg List.length heq
    rw [erase_eq_filter, List.length_map] at hlength
    rw [List.length_zipIdx] at hshort
    omega

end Comment

/-! ### Words and comments -/

namespace Comment

/-- A comment starts with a marker, which is no part of a word. -/
theorem not_wordAt_start {t : Text} {m : Match} (hm : m ∈ pattern.findAll t) :
    ¬ WordAt t m.start := by
  rcases first_of_mem_findAll hm with h | h
  · exact not_wordAt h (by decide)
  · exact not_wordAt h (by decide)

theorem not_wordAt_end {t : Text} {m : Match} (hm : m ∈ pattern.findAll t) :
    ¬ WordAt t m.stop ∨ ¬ WordAt t (m.stop - 1) := by
  rcases end_of_mem_findAll hm with hall | ⟨c, hc, hbreak⟩ | hslash
  · refine Or.inl ?_
    rw [WordAt, hall, List.getElem?_eq_none (Nat.le_refl _)]
    simp
  · refine Or.inl (not_wordAt hc ?_)
    rcases (by simpa [isLineBreak] using hbreak) with rfl | rfl <;> decide
  · exact Or.inr (not_wordAt hslash (by decide))

/-- **Characters of a word lie within a comment or apart from it**, all together. -/
theorem within_or_apart_of_wordAt {t : Text} {m : Match} (hm : m ∈ pattern.findAll t)
    {start stop : Nat} (hword : ∀ i, start ≤ i → i < stop → WordAt t i) :
    (m.start ≤ start ∧ stop ≤ m.stop) ∨ stop ≤ m.start ∨ m.stop ≤ start := by
  -- where no word is, the characters end before or start behind
  have hpass : ∀ i, ¬ WordAt t i → start ≤ i → stop ≤ i :=
    fun i hi hle => Nat.le_of_not_lt fun hlt => hi (hword i hle hlt)
  have hfirst := hpass m.start (not_wordAt_start hm)
  rcases not_wordAt_end hm with hend | hend
  · have hlast := hpass m.stop hend
    omega
  · have hlast := hpass (m.stop - 1) hend
    omega

end Comment

namespace Category

theorem wordAt_of_takes {words : List Text} {t : Text} {i : Nat}
    (h : (wholeWord words).Takes t i) : WordAt t i := by
  obtain ⟨m, hm, hi⟩ := h
  exact (isMaximalRun_of_mem_wholeWord hm).1.inside i hi.1 hi.2

theorem not_takes_marker {t : Text} {m : Match} (hm : m ∈ Comment.pattern.findAll t) :
    ¬ selfReference.pattern.Takes t m.start :=
  fun h => Comment.not_wordAt_start hm (wordAt_of_takes h)

instance (d c : Category) : Decidable (d.Precedes c) :=
  inferInstanceAs (Decidable (d ∈ all.takeWhile (· != c)))

theorem precedes_comment_iff {d : Category} : d.Precedes comment ↔ d = selfReference := by
  cases d <;> decide

/-- Only self references and comments are not preceded by comments. -/
theorem eq_of_not_precedes {c : Category} (h : ¬ comment.Precedes c) :
    c = selfReference ∨ c = comment := by
  revert h
  cases c <;> decide

end Category

open Category

namespace Span

def Within (span : Span) (m : Match) : Prop := m.start ≤ span.start ∧ span.stop ≤ m.stop

def Apart (span : Span) (m : Match) : Prop := span.stop ≤ m.start ∨ m.stop ≤ span.start

/-- **A self reference lies within a comment or apart from it.** -/
theorem within_or_apart {t : Text} {span : Span} (hspan : span ∈ highlight t)
    (hself : span.category = selfReference) {m : Match} (hm : m ∈ Comment.pattern.findAll t) :
    span.Within m ∨ span.Apart m := by
  refine Comment.within_or_apart_of_wordAt hm fun i hi hstop => ?_
  have howns := (owns_of_covers hspan ⟨hi, hstop⟩).1
  rw [hself] at howns
  exact wordAt_of_takes howns

end Span

/-- Whether a character is shown in a comment: it stands in a span of comments, or in a self
reference that lies within a comment. -/
def ShownInComment (t : Text) (i : Nat) : Prop :=
  ∃ span ∈ highlight t, span.Covers i ∧
    (span.category = comment ∨
      span.category = selfReference ∧ ∃ m ∈ Comment.pattern.findAll t, span.Within m)

/-- What a comment takes is shown in a comment, and nothing else. -/
theorem takes_iff_shownInComment {t : Text} {i : Nat} :
    Comment.pattern.Takes t i ↔ ShownInComment t i := by
  constructor
  · rintro ⟨m, hm, hi⟩
    obtain ⟨c, hc⟩ := exists_owns_iff.mpr ⟨comment, m, hm, hi⟩
    obtain ⟨span, hspan, hcovers⟩ := exists_covers_of_owns hc
    have howns := owns_of_covers hspan hcovers
    refine ⟨span, hspan, hcovers, ?_⟩
    rcases eq_of_not_precedes fun h => howns.2 comment h ⟨m, hm, hi⟩ with hself | hcomment
    · refine Or.inr ⟨hself, m, hm, ?_⟩
      rcases Span.within_or_apart hspan hself hm with hwithin | hapart
      · exact hwithin
      · have hle := hcovers.1
        have hlt := hcovers.2
        have hle' := hi.1
        have hlt' := hi.2
        rw [Span.Apart] at hapart
        omega
    · exact Or.inl hcomment
  · rintro ⟨span, hspan, hcovers, hcomment | ⟨-, m, hm, hwithin⟩⟩
    · have htakes := (owns_of_covers hspan hcovers).1
      rwa [hcomment] at htakes
    · exact ⟨m, hm, Nat.le_trans hwithin.1 hcovers.1, Nat.lt_of_lt_of_le hcovers.2 hwithin.2⟩

/-- Every comment shows: its marker belongs to no self reference. -/
theorem exists_comment_span_iff {t : Text} :
    (∃ span ∈ highlight t, span.category = comment) ↔ ∃ m, m ∈ Comment.pattern.findAll t := by
  constructor
  · rintro ⟨span, hspan, hcomment⟩
    obtain ⟨m, hm, -⟩ := isMaximalRun_of_mem hspan
    rw [hcomment] at hm
    exact ⟨m, hm⟩
  · rintro ⟨m, hm⟩
    have hpos := (Pattern.bounds_of_mem_findFrom hm).2.1
    have htakes : comment.pattern.Takes t m.start :=
      ⟨m, hm, Nat.le_refl _, by rw [Match.stop]; omega⟩
    have howns : comment.Owns t m.start := by
      refine ⟨htakes, fun d hd => ?_⟩
      rw [precedes_comment_iff.mp hd]
      exact not_takes_marker hm
    obtain ⟨span, hspan, hcovers⟩ := exists_covers_of_owns howns
    exact ⟨span, hspan, (owns_of_covers hspan hcovers).unique howns⟩

/-- **Deleting and highlighting agree on comments.**  Deleting keeps the characters that no comment
takes, and those that comments take are the characters that are shown in a comment.  A self
reference lies within a comment or apart from it.  So comments are highlighted just when deleting
them changes the text, and never in what is left. -/
theorem erased_iff_highlighted (t : Text) :
    Comment.erase t = (t.zipIdx.filter fun p => ¬ Comment.pattern.Takes t p.2).map Prod.fst ∧
    (∀ i, Comment.pattern.Takes t i ↔ ShownInComment t i) ∧
    (∀ span ∈ highlight t, span.category = .selfReference →
      ∀ m ∈ Comment.pattern.findAll t, span.Within m ∨ span.Apart m) ∧
    ((∃ span ∈ highlight t, span.category = .comment) ↔ Comment.erase t ≠ t) ∧
    ∀ span ∈ highlight (Comment.erase t), span.category ≠ .comment := by
  refine ⟨Comment.erase_eq_filter t, fun i => takes_iff_shownInComment, ?_, ?_, ?_⟩
  · intro span hspan hself m hm
    exact Span.within_or_apart hspan hself hm
  · rw [exists_comment_span_iff, Comment.erase_ne_self_iff]
  · intro span hspan hcomment
    have hfound := exists_comment_span_iff.mp ⟨span, hspan, hcomment⟩
    exact Comment.erase_ne_self_iff.mpr hfound
      (Comment.erase_eq_self (Comment.noMarker_erase t))

end IoSource
