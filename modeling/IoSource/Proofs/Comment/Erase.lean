import IoSource.Proofs.Comment.Scan

/-!
# Deleting comments

What is left has no comment marker (`noMarker_erase`), although deleting brings characters together
that stood apart: a `/` in front of a comment that starts with `/` would itself have started a line
comment, and behind a `#` comment stands a line break.

`erase_append_newline` cuts a text at a line break.  A block comment that is still open there would
go on behind it, so the text before the cut must have none (`ClosesBlocks`).
-/

namespace IoSource.Comment

/-- Behind a line comment stands a line break, or nothing. -/
theorem isLineBreak_of_mem_head?_erase {rest : Text} {c : Char}
    (h : c ∈ (erase ('#' :: rest)).head?) : isLineBreak c = true := by
  rw [erase_hash] at h
  cases hbehind : rest.dropWhile fun c => !isLineBreak c with
  | nil =>
    rw [hbehind] at h
    exact absurd h (by simp [erase])
  | cons d behind =>
    have hd : isLineBreak d = true := by
      have := List.head?_dropWhile_not (fun c => !isLineBreak c) rest
      rw [hbehind] at this
      simpa using this
    have hnone : ¬ StartsComment d behind.head? := by
      rintro (rfl | ⟨rfl, -⟩) <;> exact absurd hd (by decide)
    rw [hbehind, erase_char (length?_eq_none_iff.mpr hnone)] at h
    obtain rfl : d = c := by simpa using h
    exact hd

/-- Deleting what follows a character never makes it start a comment. -/
theorem not_startsComment_erase {c : Char} {rest : Text} (h : ¬ StartsComment c rest.head?) :
    ¬ StartsComment c (erase rest).head? := by
  rintro (rfl | ⟨rfl, hnext⟩)
  · exact h (Or.inl rfl)
  · cases rest with
    | nil => simp [erase] at hnext
    | cons d rest =>
      by_cases hd : StartsComment d rest.head?
      · rcases hd with rfl | ⟨rfl, -⟩
        · rcases hnext with hnext | hnext <;>
            exact absurd (isLineBreak_of_mem_head?_erase hnext) (by decide)
        · exact h (Or.inr ⟨rfl, Or.inl rfl⟩)
      · rw [erase_char (length?_eq_none_iff.mpr hd)] at hnext
        exact h (Or.inr ⟨rfl, hnext⟩)

/-- **No comment marker is left.** -/
theorem noMarker_erase (t : Text) : NoMarker (erase t) := by
  induction t using scan_induction with
  | nil => exact noMarker_nil
  | char c rest hnone ih =>
    rw [erase_char hnone]
    exact noMarker_cons.mpr ⟨not_startsComment_erase (length?_eq_none_iff.mp hnone), ih⟩
  | comment t n hn ih =>
    rw [erase_comment hn]
    exact ih

theorem erase_eq_self {t : Text} (h : NoMarker t) : erase t = t := by
  induction t with
  | nil => rfl
  | cons c rest ih =>
    obtain ⟨hc, hrest⟩ := noMarker_cons.mp h
    rw [erase_char (length?_eq_none_iff.mpr hc), ih hrest]

/-! ### Texts without markers -/

theorem NoMarker.of_infix {s t : Text} (h : NoMarker t) (hst : s <:+: t) : NoMarker s :=
  ⟨fun hmem => h.1 (hst.subset hmem), fun hslash => h.2.1 (hslash.trans hst),
    fun hstar => h.2.2 (hstar.trans hst)⟩

theorem NoMarker.white_append {gap t : Text} (hgap : ∀ c ∈ gap, isSpace c = true) (h : NoMarker t) :
    NoMarker (gap ++ t) := by
  induction gap with
  | nil => exact h
  | cons c gap ih =>
    refine noMarker_cons.mpr ⟨not_startsComment_of_isSpace (hgap c List.mem_cons_self) _, ?_⟩
    exact ih fun d hd => hgap d (List.mem_cons_of_mem c hd)

/-- Markers do not reach across white space. -/
theorem NoMarker.append {s t : Text} (hs : NoMarker s) (ht : NoMarker t)
    (hhead : ∀ c ∈ t.head?, isSpace c = true) : NoMarker (s ++ t) := by
  induction s with
  | nil => exact ht
  | cons c s ih =>
    obtain ⟨hc, hs⟩ := noMarker_cons.mp hs
    refine noMarker_cons.mpr ⟨?_, ih hs⟩
    cases s with
    | cons d s => exact hc
    | nil =>
      rintro (rfl | ⟨rfl, hnext⟩)
      · exact hc (Or.inl rfl)
      · rcases hnext with hnext | hnext
        · exact absurd (hhead _ hnext) (by decide)
        · exact absurd (hhead _ hnext) (by decide)

theorem NoMarker.of_append {s gap t : Text} (h : NoMarker (s ++ gap ++ t)) :
    NoMarker s ∧ NoMarker t := by
  constructor
  · exact h.of_infix ((List.prefix_append s gap).trans (List.prefix_append _ t)).isInfix
  · exact h.of_infix (List.suffix_append _ t).isInfix

/-! ### Cutting at a line break -/

/-- Every block comment that the scan of the text meets has its end marker. -/
def ClosesBlocks (t : Text) : Prop := ∀ m ∈ pattern.findAll t, ¬ IsOpenBlock m.text

instance (t : Text) : Decidable (ClosesBlocks t) := by
  unfold ClosesBlocks
  infer_instance

theorem marks_append_newline {t : Text} (h : ClosesBlocks t) (u : Text) :
    pattern.marks (t ++ '\n' :: u) = pattern.marks t ++ none :: pattern.marks u := by
  refine Pattern.marksFrom_append_cons IsOpenBlock ?_ rfl ?_ ?_ (Nat.zero_le _) h
  · intro before n hn
    exact absurd hn (by simp [pattern, length?])
  · exact fun before t n hn => (length?_le hn).2
  · exact fun before d t hopen => length?_append_newline hopen u

/-- **Comments are deleted line by line**, unless a block comment reaches across. -/
theorem erase_append_newline {t : Text} (h : ClosesBlocks t) (u : Text) :
    erase (t ++ '\n' :: u) = erase t ++ '\n' :: erase u := by
  have hlength : t.length = (pattern.marks t).length := (Pattern.length_marks pattern t).symm
  rw [erase, marks_append_newline h, List.zip_append hlength, List.filterMap_append]
  rfl

end IoSource.Comment
