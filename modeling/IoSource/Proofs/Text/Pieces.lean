import IoSource.Text.Basic

/-!
# The pieces of a text

`cutAt` cuts a text at every place where some character stands.  `pieces_induction` is the induction
that goes with it: a text is one piece, or a piece that is ended by that character and a text
behind.
-/

namespace IoSource.Text

variable {sep : Char}

theorem cutAt_append_cons {piece : Text} (h : sep ∉ piece) (rest : Text) :
    cutAt sep (piece ++ sep :: rest) = piece :: cutAt sep rest := by
  induction piece with
  | nil => rw [List.nil_append, cutAt, if_pos rfl]
  | cons c piece ih =>
    obtain ⟨hc, hpiece⟩ := not_or.mp (mt List.mem_cons.mpr h)
    rw [List.cons_append, cutAt, if_neg (Ne.symm hc), ih hpiece]

theorem cutAt_of_not_mem {piece : Text} (h : sep ∉ piece) : cutAt sep piece = [piece] := by
  induction piece with
  | nil => rfl
  | cons c piece ih =>
    obtain ⟨hc, hpiece⟩ := not_or.mp (mt List.mem_cons.mpr h)
    rw [cutAt, if_neg (Ne.symm hc), ih hpiece]

/-- **Induction on the pieces of a text.** -/
theorem pieces_induction (sep : Char) {motive : Text → Prop}
    (last : ∀ piece, sep ∉ piece → motive piece)
    (cut : ∀ piece rest, sep ∉ piece → motive rest → motive (piece ++ sep :: rest)) (t : Text) :
    motive t := by
  -- the induction carries what has been read of the first piece
  have hall : ∀ piece : Text, sep ∉ piece → motive (piece ++ t) := by
    induction t with
    | nil =>
      intro piece hpiece
      rw [List.append_nil]
      exact last piece hpiece
    | cons c rest ih =>
      intro piece hpiece
      by_cases hc : c = sep
      · subst hc
        exact cut piece rest hpiece (ih [] List.not_mem_nil)
      · have hread : sep ∉ piece ++ [c] := by simp [hpiece, Ne.symm hc]
        have h := ih (piece ++ [c]) hread
        rwa [List.append_assoc, List.singleton_append] at h
  exact hall [] List.not_mem_nil

theorem cutAt_ne_nil (sep : Char) (t : Text) : cutAt sep t ≠ [] := by
  induction t using pieces_induction sep with
  | last piece hpiece =>
    rw [cutAt_of_not_mem hpiece]
    exact List.cons_ne_nil _ _
  | cut piece rest hpiece ih =>
    rw [cutAt_append_cons hpiece]
    exact List.cons_ne_nil _ _

/-- Pieces that are each ended by a separator are found again; nothing stands behind the last. -/
theorem cutAt_flatMap {pieces : List Text} (h : ∀ piece ∈ pieces, sep ∉ piece) :
    cutAt sep (pieces.flatMap (· ++ [sep])) = pieces ++ [[]] := by
  induction pieces with
  | nil => rfl
  | cons piece pieces ih =>
    have hpiece : sep ∉ piece := h piece List.mem_cons_self
    have hpieces : ∀ p ∈ pieces, sep ∉ p := fun p hp => h p (List.mem_cons_of_mem _ hp)
    rw [List.flatMap_cons, List.append_assoc, List.singleton_append, cutAt_append_cons hpiece,
      ih hpieces, List.cons_append]

end IoSource.Text
