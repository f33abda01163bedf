import IoSource.Proofs.Text.Gap
import Mathlib.Data.List.TakeWhile

/-!
# The ends of a text

`dropEndWhile` removes the last run of a class and nothing in front of it.  Removing the white space
at both ends is a rule about gaps: those at an end of the text go, the others stay.
-/

namespace IoSource.Text

variable {p : Char → Bool}

theorem dropEndWhile_of_all {t : Text} (h : ∀ c ∈ t, p c = true) : dropEndWhile p t = [] := by
  have hall : t.reverse.dropWhile p = [] :=
    List.dropWhile_eq_nil_iff.mpr fun c hc => h c (List.mem_reverse.mp hc)
  rw [dropEndWhile, hall, List.reverse_nil]

theorem dropEndWhile_append_cons {c : Char} (hc : p c = false) (s rest : Text) :
    dropEndWhile p (s ++ c :: rest) = s ++ c :: dropEndWhile p rest := by
  rw [dropEndWhile, dropEndWhile, List.reverse_append, List.reverse_cons, List.append_assoc,
    List.dropWhile_append]
  split
  · next h =>
    rw [List.isEmpty_iff.mp h, List.singleton_append, List.dropWhile_cons, if_neg (by simp [hc])]
    simp
  · simp

theorem exists_dropEndWhile_append (p : Char → Bool) (t : Text) :
    ∃ run : Text, (∀ c ∈ run, p c = true) ∧ dropEndWhile p t ++ run = t := by
  refine ⟨(t.reverse.takeWhile p).reverse, fun c hc => ?_, ?_⟩
  · exact List.mem_takeWhile_imp (List.mem_reverse.mp hc)
  · rw [dropEndWhile, ← List.reverse_append, List.takeWhile_append_dropWhile, List.reverse_reverse]

theorem dropEndWhile_eq_nil_or_concat (p : Char → Bool) (t : Text) :
    dropEndWhile p t = [] ∨ ∃ s c, dropEndWhile p t = s ++ [c] ∧ p c = false := by
  unfold dropEndWhile
  cases h : t.reverse.dropWhile p with
  | nil => exact Or.inl rfl
  | cons c s =>
    have hc := List.head?_dropWhile_not p t.reverse
    rw [h] at hc
    exact Or.inr ⟨s.reverse, c, List.reverse_cons, by simpa using hc⟩

theorem not_of_mem_getLast?_dropEndWhile (p : Char → Bool) (t : Text) :
    ∀ c ∈ (dropEndWhile p t).getLast?, p c = false := by
  intro c hc
  rcases dropEndWhile_eq_nil_or_concat p t with hnil | ⟨s, d, hconcat, hd⟩
  · rw [hnil] at hc
    exact absurd hc (by simp)
  · rw [hconcat] at hc
    obtain rfl : d = c := by simpa using hc
    exact hd

/-! ### White space at both ends -/

/-- The rule that removes a gap at an end of the text. -/
def endGap : GapRule := fun before gap after =>
  if before.isNone || after.isNone then [] else gap

theorem dropEndWhile_eq_replaceGaps {gap : Text} (hgap : ∀ c ∈ gap, isSpace c = true) (b : Char)
    (t : Text) : dropEndWhile isSpace (gap ++ t) = replaceGaps endGap (some b) gap t := by
  induction t generalizing gap b with
  | nil =>
    rw [List.append_nil, dropEndWhile_of_all hgap]
    rfl
  | cons c rest ih =>
    cases hc : isSpace c with
    | true =>
      rw [replaceGaps_space hc, ← ih (isSpace_of_mem_concat hgap hc), List.append_assoc,
        List.singleton_append]
    | false =>
      have h : dropEndWhile isSpace ([] ++ rest) = replaceGaps endGap (some c) [] rest :=
        ih (by simp) c
      rw [replaceGaps_char hc, dropEndWhile_append_cons hc, ← h]
      rfl

/-- **Stripping a text removes its first and its last gap.** -/
theorem strip_eq_replaceGaps (gap t : Text) : strip t = replaceGaps endGap none gap t := by
  induction t generalizing gap with
  | nil => rfl
  | cons c rest ih =>
    cases hc : isSpace c with
    | true =>
      rw [replaceGaps_space hc, ← ih, strip, strip, List.dropWhile_cons, if_pos hc]
    | false =>
      have hkeep := dropEndWhile_append_cons hc [] rest
      have hrest : dropEndWhile isSpace ([] ++ rest) = replaceGaps endGap (some c) [] rest :=
        dropEndWhile_eq_replaceGaps (by simp) c rest
      rw [replaceGaps_char hc, strip, List.dropWhile_cons, if_neg (by simp [hc]), ← hrest]
      exact hkeep

/-! ### First and last characters that are not white -/

theorem white_or_first (t : Text) :
    (∀ c ∈ t, isSpace c = true) ∨
      ∃ gap c rest, t = gap ++ c :: rest ∧ (∀ d ∈ gap, isSpace d = true) ∧ isSpace c = false := by
  cases hrest : t.dropWhile isSpace with
  | nil => exact Or.inl (List.dropWhile_eq_nil_iff.mp hrest)
  | cons c rest =>
    have hc := List.head?_dropWhile_not isSpace t
    rw [hrest] at hc
    refine Or.inr ⟨t.takeWhile isSpace, c, rest, ?_, fun d hd => List.mem_takeWhile_imp hd, hc⟩
    rw [← hrest, List.takeWhile_append_dropWhile]

theorem white_or_last (t : Text) :
    (∀ c ∈ t, isSpace c = true) ∨
      ∃ s c gap, t = s ++ c :: gap ∧ isSpace c = false ∧ ∀ d ∈ gap, isSpace d = true := by
  rcases white_or_first t.reverse with hwhite | ⟨gap, c, s, ht, hgap, hc⟩
  · exact Or.inl fun c hc => hwhite c (List.mem_reverse.mpr hc)
  · refine Or.inr ⟨s.reverse, c, gap.reverse, ?_, hc, fun d hd => hgap d (List.mem_reverse.mp hd)⟩
    rw [← List.reverse_reverse t, ht, List.reverse_append, List.reverse_cons, List.append_assoc,
      List.singleton_append]

end IoSource.Text
