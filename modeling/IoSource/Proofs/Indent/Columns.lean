import IoSource.Indent.TabWidth

/-!
# The columns of a line

The indentation of a line ends at its first character that is no blank, so it is that of the blanks
in front (`indentation_append`), and spaces there count for themselves (`indentation_spaces_append`).

A line is measured before the tab width has been checked, with whatever value was given for it.
With a tab width this comes to the same as measuring it afterwards (`measure_natCast`).
-/

namespace IoSource.Text

variable {tabWidth : Nat}

/-- Measuring stops at a character that is no blank. -/
theorem indentationFrom_of_head? {t : Text} (h : ∀ c ∈ t.head?, isBlank c = false)
    (column : Nat) : indentationFrom tabWidth column t = column := by
  cases t with
  | nil => rfl
  | cons c rest =>
    have hc := h c rfl
    rw [indentationFrom]
    · rintro later h
      obtain rfl := (List.cons.inj h).1
      exact absurd hc (by decide)
    · rintro later h
      obtain rfl := (List.cons.inj h).1
      exact absurd hc (by decide)

theorem indentationFrom_append {run rest : Text} (hrun : ∀ c ∈ run, isBlank c = true)
    (hrest : ∀ c ∈ rest.head?, isBlank c = false) (column : Nat) :
    indentationFrom tabWidth column (run ++ rest) = indentationFrom tabWidth column run := by
  induction run generalizing column with
  | nil => exact indentationFrom_of_head? hrest column
  | cons c run ih =>
    have hlater : ∀ d ∈ run, isBlank d = true := fun d hd => hrun d (List.mem_cons_of_mem c hd)
    rcases (by simpa [isBlank] using hrun c List.mem_cons_self : c = ' ' ∨ c = '\t') with rfl | rfl
    · exact ih hlater (column + 1)
    · exact ih hlater (column + (tabWidth - column % tabWidth))

theorem indentation_append {run rest : Text} (hrun : ∀ c ∈ run, isBlank c = true)
    (hrest : ∀ c ∈ rest.head?, isBlank c = false) :
    indentation tabWidth (run ++ rest) = indentation tabWidth run :=
  indentationFrom_append hrun hrest 0

theorem indentationFrom_spaces_append (k column : Nat) (t : Text) :
    indentationFrom tabWidth column (List.replicate k ' ' ++ t) =
      indentationFrom tabWidth (column + k) t := by
  induction k generalizing column with
  | zero => rfl
  | succ k ih =>
    rw [List.replicate_succ, List.cons_append, indentationFrom, ih, Nat.add_right_comm,
      Nat.add_assoc]

/-- **A line is indented by its spaces** if none of its other characters is in front. -/
theorem indentation_spaces_append (k : Nat) {t : Text} (h : ∀ c ∈ t.head?, isBlank c = false) :
    indentation tabWidth (List.replicate k ' ' ++ t) = k := by
  rw [indentation, indentationFrom_spaces_append, indentationFrom_of_head? h, Nat.zero_add]

theorem mod?_natCast (hpos : 0 < tabWidth) (column : Nat) :
    (Number.int column).mod? (.int tabWidth) = some (.int (column % tabWidth : Nat)) := by
  have hzero : (Number.int tabWidth).isZero = false := by
    simp [Number.isZero, Number.toBinary, Number.Binary.ofInt, Number.Binary.isZero]
    omega
  rw [Number.mod?, hzero, Int.natCast_emod,
    ← Int.fmod_eq_emod_of_nonneg _ (Int.natCast_nonneg tabWidth)]
  rfl

theorem measureFrom_natCast (hpos : 0 < tabWidth) (column : Nat) (t : Text) :
    measureFrom (.int tabWidth) (.int column) t =
      .ok (.int (indentationFrom tabWidth column t)) := by
  induction t generalizing column with
  | nil => rfl
  | cons c rest ih =>
    by_cases hspace : c = ' '
    · subst hspace
      exact ih (column + 1)
    by_cases htab : c = '\t'
    · subst htab
      have hpast : column % tabWidth ≤ tabWidth := Nat.le_of_lt (Nat.mod_lt _ hpos)
      have hstop : (column + (tabWidth - column % tabWidth) : Nat) =
          (column : Int) + (tabWidth - (column % tabWidth : Nat)) := by
        rw [Int.natCast_add, Int.natCast_sub hpast]
      rw [measureFrom, indentationFrom, ← ih, hstop]
      simp only [Value.number?, mod?_natCast hpos]
      rfl
    · rw [measureFrom, indentationFrom]
      · exact fun later h => hspace (List.cons.inj h).1
      · exact fun later h => htab (List.cons.inj h).1
      · exact fun later h => hspace (List.cons.inj h).1
      · exact fun later h => htab (List.cons.inj h).1

/-- **Measuring with a tab width** that has not been checked gives the indentation. -/
theorem measure_natCast (hpos : 0 < tabWidth) (line : Text) :
    line.measure (.int tabWidth) = .ok (.int (line.indentation tabWidth)) :=
  measureFrom_natCast hpos 0 line

end IoSource.Text
