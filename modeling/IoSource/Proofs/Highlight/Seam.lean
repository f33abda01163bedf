import IoSource.Proofs.Comment.Erase
import IoSource.Proofs.Highlight.Literals

/-!
# Highlighting line by line

A text can be highlighted piece by piece, if it is cut at a line break and no block comment is open
there: the spans of the whole are those of the two parts, the second ones moved
(`highlight_append_newline`).

Each of the six scans has to split at the line break.  Words and literals do not hold one, and a
word looks back at one character only, which is no part of a word here.  Then nobody owns the line
break, and a character without an owner separates the spans on its two sides
(`Span.collect_append_none`).
-/

namespace IoSource

namespace Category

/-! ### Cutting the patterns -/

theorem wholeWord_append_newline (words : List Text) (before : Option Char) (t u : Text) :
    wholeWord words before (t ++ '\n' :: u) = wholeWord words before t := by
  rw [wholeWord, wholeWord, Text.takeWhile_append_cons (by decide)]

theorem prefix_append_newline_iff {literal : Text} (h : '\n' ∉ literal) (t u : Text) :
    literal <+: t ++ '\n' :: u ↔ literal <+: t := by
  refine ⟨fun hpre => ?_, fun hpre => hpre.trans (List.prefix_append _ _)⟩
  rcases List.prefix_or_prefix_of_prefix hpre (List.prefix_append t _) with hshort | ⟨rest, rfl⟩
  · exact hshort
  · cases rest with
    | nil => rw [List.append_nil]
    | cons c rest =>
      -- a longer literal would hold the line break
      rw [List.prefix_append_right_inj, List.cons_prefix_cons] at hpre
      rw [hpre.1] at h
      exact absurd h (by simp)

theorem longestLiteral_append_newline {literals : List Text} (h : ∀ w ∈ literals, '\n' ∉ w)
    (before : Option Char) (t u : Text) :
    longestLiteral literals before (t ++ '\n' :: u) = longestLiteral literals before t := by
  have hsame : literals.filter (·.isPrefixOf (t ++ '\n' :: u)) =
      literals.filter (·.isPrefixOf t) := by
    refine List.filter_congr fun w hw => ?_
    rw [Bool.eq_iff_iff, List.isPrefixOf_iff_prefix, List.isPrefixOf_iff_prefix,
      prefix_append_newline_iff (h w hw)]
  rw [longestLiteral, longestLiteral, hsame]

theorem newline_not_mem_operator : ∀ w ∈ operator.literals, '\n' ∉ w := by decide

/-- **Every category is cut at a line break**, comments if no block is open there. -/
theorem marks_append_newline {t : Text} (h : Comment.ClosesBlocks t) (c : Category) (u : Text) :
    c.pattern.marks (t ++ '\n' :: u) = c.pattern.marks t ++ none :: c.pattern.marks u := by
  have hword : ∀ words : List Text, (wholeWord words).marks (t ++ '\n' :: u) =
      (wholeWord words).marks t ++ none :: (wholeWord words).marks u := by
    intro words
    refine Pattern.marks_append_cons ?_ (fun _ _ _ => length_le_of_wholeWord)
      (wholeWord_append_newline words) t u
    funext rest
    rfl
  cases c with
  | comment => exact Comment.marks_append_newline h u
  | operator =>
    exact Pattern.marks_append_cons rfl (fun _ _ _ => length_le_of_longestLiteral)
      (longestLiteral_append_newline newline_not_mem_operator) t u
  | selfReference => exact hword _
  | boolean => exact hword _
  | prototype => exact hword _
  | builtinMessage => exact hword _

end Category

theorem claims_append_newline {t : Text} (h : Comment.ClosesBlocks t) (u : Text)
    (categories : List Category) :
    claims (t ++ '\n' :: u) categories = claims t categories ++ none :: claims u categories := by
  induction categories with
  | nil => simp [claims]
  | cons c categories ih =>
    have hlength : (c.pattern.marks t).length = (claims t categories).length := by
      rw [Pattern.length_marks, length_claims]
    rw [claims, Category.marks_append_newline h, ih, List.zipWith_append hlength,
      List.zipWith_cons_cons]
    rfl

namespace Span

def shift (k : Nat) (span : Span) : Span :=
  { span with start := span.start + k, stop := span.stop + k }

theorem collect_ne_nil {l : List (Char × Option Claim)} (h : (l.head?.bind Prod.snd).isSome)
    (start : Nat) : collect start l ≠ [] := by
  cases l with
  | nil => exact absurd h (by simp)
  | cons pair rest =>
    obtain ⟨c, claim⟩ := pair
    obtain ⟨claim, rfl⟩ := Option.isSome_iff_exists.mp h
    rw [collect]
    split <;> simp

/-- An owner that goes on does so in the first of the spans behind it. -/
theorem exists_collect_of_continues {claim : Claim} {l : List (Char × Option Claim)}
    (h : continues claim (l.head?.bind Prod.snd) = true) (start : Nat) :
    ∃ span spans, collect start l = span :: spans := by
  refine List.exists_cons_of_ne_nil (collect_ne_nil ?_ start)
  rw [continues_iff.mp h]
  rfl

theorem collect_add (start k : Nat) (l : List (Char × Option Claim)) :
    collect (start + k) l = (collect start l).map (shift k) := by
  induction l generalizing start with
  | nil => rfl
  | cons pair rest ih =>
    obtain ⟨c, claim⟩ := pair
    have hlater : collect (start + k + 1) rest = (collect (start + 1) rest).map (shift k) := by
      rw [Nat.add_right_comm, ih]
    cases claim with
    | none => rw [collect, collect, hlater]
    | some claim =>
      cases hcontinues : continues claim (rest.head?.bind Prod.snd) with
      | false =>
        rw [collect_single hcontinues, collect_single hcontinues, hlater, List.map_cons, shift,
          Nat.add_right_comm]
      | true =>
        obtain ⟨span, spans, hspans⟩ := exists_collect_of_continues hcontinues (start + 1)
        rw [hspans, List.map_cons] at hlater
        rw [collect_join hcontinues hspans, collect_join hcontinues hlater, List.map_cons]
        rfl

/-- **A character that nobody owns separates the spans** on its two sides. -/
theorem collect_append_none (start : Nat) (l : List (Char × Option Claim)) (c : Char)
    (rest : List (Char × Option Claim)) :
    collect start (l ++ (c, none) :: rest) =
      collect start l ++ collect (start + l.length + 1) rest := by
  induction l generalizing start with
  | nil => rfl
  | cons pair l ih =>
    obtain ⟨d, claim⟩ := pair
    have hnext : (l ++ (c, none) :: rest).head?.bind Prod.snd = l.head?.bind Prod.snd := by
      cases l with
      | nil => rfl
      | cons _ _ => rfl
    have hlater : collect (start + 1) (l ++ (c, none) :: rest) =
        collect (start + 1) l ++ collect (start + (l.length + 1) + 1) rest := by
      rw [ih, Nat.add_right_comm start 1, Nat.add_assoc start]
    rw [List.cons_append, List.length_cons]
    cases claim with
    | none => rw [collect, collect, hlater]
    | some claim =>
      cases hcontinues : continues claim (l.head?.bind Prod.snd) with
      | false =>
        rw [collect_single hcontinues, collect_single (hnext ▸ hcontinues), hlater,
          List.cons_append]
      | true =>
        obtain ⟨span, spans, hspans⟩ := exists_collect_of_continues hcontinues (start + 1)
        rw [hspans, List.cons_append] at hlater
        rw [collect_join hcontinues hspans, collect_join (hnext ▸ hcontinues) hlater,
          List.cons_append]

end Span

/-- **Highlighting goes line by line.**  If the first part leaves no block comment open, its spans
are not changed by what follows the line break, and those of the second part are only moved. -/
theorem highlight_append_newline {t : Text} (h : Comment.ClosesBlocks t) (u : Text) :
    highlight (t ++ '\n' :: u) =
      highlight t ++ (highlight u).map (Span.shift (t.length + 1)) := by
  have hlength : t.length = (claims t Category.all).length := (length_claims t _).symm
  have hzip : (t.zip (claims t Category.all)).length = t.length := by
    rw [List.length_zip, ← hlength, Nat.min_self]
  rw [highlight, highlight, highlight, claims_append_newline h, List.zip_append hlength,
    List.zip_cons_cons, Span.collect_append_none, hzip, ← Span.collect_add, Nat.zero_add,
    Nat.zero_add]

/-- Two stars on two lines are two operators, and a comment on two lines is one comment. -/
theorem highlight_append_newline_stars :
    Comment.ClosesBlocks ['/', '*', '\n', 's', 'e', 'l', 'f', '*', '/', '*'] ∧
      highlight (['/', '*', '\n', 's', 'e', 'l', 'f', '*', '/', '*'] ++
        '\n' :: ['*', 'n', 'i', 'l']) =
          [⟨0, 3, ['/', '*', '\n'], .comment⟩, ⟨3, 7, ['s', 'e', 'l', 'f'], .selfReference⟩,
            ⟨7, 9, ['*', '/'], .comment⟩, ⟨9, 10, ['*'], .operator⟩,
            ⟨11, 12, ['*'], .operator⟩, ⟨12, 15, ['n', 'i', 'l'], .boolean⟩] := by
  have hcloses : Comment.ClosesBlocks
      ['/', '*', '\n', 's', 'e', 'l', 'f', '*', '/', '*'] := by decide
  refine ⟨hcloses, ?_⟩
  rw [highlight_append_newline hcloses]
  decide +kernel

end IoSource
