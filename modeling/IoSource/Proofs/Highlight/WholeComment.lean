import IoSource.Proofs.Comment.Grammar
import IoSource.Proofs.Highlight.Classify

/-!
# Texts that are classified as comments

A text ought to be classified as a comment if the scan for comments takes it as one from its first
character to its last (`IsOne`).  That is so for line comments.  A block comment is recognised by
its opening marker alone, so that a text which goes on behind the end of its first comment
(`ClosesEarly`) is classified as a comment, too, and is not one: `classified_comment_iff` says that
these are the only texts that go wrong.
-/

namespace IoSource.Comment

/-- The scan of a text finds a comment that is all of the text. -/
def IsOne (t : Text) : Prop :=
  t ≠ [] ∧ ∃ m ∈ pattern.findAll t, m.start = 0 ∧ m.stop = t.length

/-- The text starts with a block comment and goes on behind its end marker. -/
def ClosesEarly (t : Text) : Prop :=
  ∃ body rest, t = '/' :: '*' :: (body ++ '*' :: '/' :: rest) ∧ ¬ ['*', '/'] <:+: body ∧ rest ≠ []

theorem isOne_iff {t : Text} : IsOne t ↔ length? t = some t.length := by
  constructor
  · rintro ⟨-, m, hm, hstart, hstop⟩
    have hlength := length?_of_mem_findAll hm
    rw [Match.stop, hstart, Nat.zero_add] at hstop
    rwa [hstart, List.drop_zero, hstop] at hlength
  · intro h
    refine ⟨fun hnil => absurd h (by simp [hnil, length?]), ⟨0, t.take t.length⟩, ?_, rfl, ?_⟩
    · rw [findAll_comment h]
      exact List.mem_cons_self
    · rw [Match.stop, List.take_length, Nat.zero_add]

theorem length?_block_append {body : Text} (hbody : ¬ ['*', '/'] <:+: body) (rest : Text) :
    length? ('/' :: '*' :: (body ++ '*' :: '/' :: rest)) = some (body.length + 4) := by
  rw [length?, blockLength_append_end hbody]

theorem ClosesEarly.not_isOne {t : Text} (h : ClosesEarly t) : ¬ IsOne t := by
  obtain ⟨body, rest, rfl, hbody, hrest⟩ := h
  have hpos := List.length_pos_iff.mpr hrest
  rw [isOne_iff, length?_block_append hbody, Option.some.injEq]
  simp only [List.length_cons, List.length_append]
  omega

/-- **A text reads as a comment** if it is one, or goes on behind one. -/
theorem isWhole_iff {t : Text} : isWhole t = true ↔ IsOne t ∨ ClosesEarly t := by
  rw [isOne_iff]
  constructor
  · intro h
    have hline : ∀ {rest : Text}, (rest.all fun c => !isLineBreak c) = true →
        restOfLine rest = rest := fun hall =>
      List.takeWhile_eq_self_iff.mpr (List.all_eq_true.mp hall)
    unfold isWhole at h
    split at h
    · exact Or.inl (by rw [length?, hline h, List.length_cons])
    · exact Or.inl (by rw [length?, hline h, List.length_cons, List.length_cons])
    · next rest =>
      by_cases hend : ['*', '/'] <:+: rest
      · obtain ⟨body, later, rfl, hbody⟩ := exists_first_end hend
        by_cases hlater : later = []
        · left
          rw [length?_block_append hbody, hlater]
          simp
        · exact Or.inr ⟨body, later, rfl, hbody, hlater⟩
      · exact Or.inl (by rw [length?, blockLength_of_open hend, List.length_cons, List.length_cons])
    · exact absurd h (by simp)
  · rintro (h | ⟨body, rest, rfl, -, -⟩)
    · exact isWhole_of_length? h
    · rfl

theorem IsOne.erase_eq_nil {t : Text} (h : IsOne t) : erase t = [] := by
  rw [erase_comment (isOne_iff.mp h), List.drop_length, erase_nil]

theorem erase_block_append {body : Text} (hbody : ¬ ['*', '/'] <:+: body) (rest : Text) :
    erase ('/' :: '*' :: (body ++ '*' :: '/' :: rest)) = erase rest := by
  rw [erase_block, drop_blockLength_append_end hbody]

end IoSource.Comment

namespace IoSource

open Category Comment

theorem ofWord?_eq_comment_iff {t : Text} :
    ofWord? t = some .comment ↔ IsOne t ∨ ClosesEarly t := by
  have hnone : t ∉ Category.comment.literals := List.not_mem_nil
  rw [ofWord?_eq_some_iff, Category.Holds, or_iff_right hnone, and_iff_right rfl, isWhole_iff]

/-- **One whole comment is classified as a comment**, and so is a text that goes on behind a block
comment, but nothing else.  Deleting comments leaves nothing of the one, and of the other what it
leaves of the text behind the comment. -/
theorem classified_comment_iff (t : Text) :
    ((ofWord? t = some .comment ↔ IsOne t) ↔ ¬ ClosesEarly t) ∧
    (ofWord? t = some .comment ↔ IsOne t ∨ ClosesEarly t) ∧
    (IsOne t → erase t = []) ∧
    ∀ body rest, t = '/' :: '*' :: (body ++ '*' :: '/' :: rest) → ¬ ['*', '/'] <:+: body →
      erase t = erase rest := by
  refine ⟨?_, ofWord?_eq_comment_iff, IsOne.erase_eq_nil, ?_⟩
  · rw [ofWord?_eq_comment_iff]
    constructor
    · intro h hearly
      exact hearly.not_isOne (h.mp (Or.inr hearly))
    · exact fun hearly => or_iff_left hearly
  · rintro body rest rfl hbody
    exact erase_block_append hbody rest

/-- Code behind a block comment is classified as a comment with it. -/
theorem code_classified_as_comment :
    let t : Text := ['/', '*', '*', '/', 'b']
    ¬ (ofWord? t = some .comment ↔ IsOne t) ∧
      ¬ (ofWord? t = some .comment → erase t = []) := by
  intro t
  have hearly : ClosesEarly t := ⟨[], ['b'], rfl, by decide, by simp⟩
  have hword : ofWord? t = some .comment := ofWord?_eq_comment_iff.mpr (Or.inr hearly)
  refine ⟨fun h => hearly.not_isOne (h.mp hword), fun h => ?_⟩
  exact absurd (h hword) (by decide)

end IoSource
