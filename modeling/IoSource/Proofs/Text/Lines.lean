import IoSource.Text.Line

/-!
# Lines and their terminators

`endedLines` cuts a text behind its line terminators, so that nothing is lost
(`flatten_endedLines`).  The text of the first of these pieces has the first of the lines (`lines_take`).  The line ends of
text files are terminators, and stay so when they become line feeds (`lines_unixLineEnds`).
-/

namespace IoSource.Text

def endedLines : Text → List Text
  | [] => []
  | '\r' :: '\n' :: rest => ['\r', '\n'] :: endedLines rest
  | c :: rest => if isLineTerminator c then [c] :: endedLines rest else consLine c (endedLines rest)

theorem flatten_consLine (c : Char) (pieces : List Text) :
    (consLine c pieces).flatten = c :: pieces.flatten := by
  cases pieces <;> rfl

theorem take_succ_consLine (c : Char) (pieces : List Text) (k : Nat) :
    (consLine c pieces).take (k + 1) = consLine c (pieces.take (k + 1)) := by
  cases pieces with
  | nil => simp [consLine]
  | cons piece pieces => rfl

theorem flatten_endedLines (t : Text) : (endedLines t).flatten = t := by
  induction t using endedLines.induct with
  | case1 => rfl
  | case2 rest ih =>
    rw [endedLines, List.flatten_cons, ih]
    rfl
  | case3 c rest hpair hend ih =>
    rw [endedLines, if_pos hend, List.flatten_cons, ih]
    · rfl
    · exact hpair
  | case4 c rest hpair hend ih =>
    rw [endedLines, if_neg hend, flatten_consLine, ih]
    exact hpair

theorem flatten_take_endedLines_prefix (t : Text) (k : Nat) :
    ((endedLines t).take k).flatten <+: t := by
  refine ⟨((endedLines t).drop k).flatten, ?_⟩
  rw [← List.flatten_append, List.take_append_drop, flatten_endedLines]

theorem lines_cons {c : Char} {rest : Text} (hpair : c = '\r' → rest.head? ≠ some '\n') :
    lines (c :: rest) =
      if isLineTerminator c then [] :: lines rest else consLine c (lines rest) := by
  rw [lines]
  rintro behind rfl rfl
  exact hpair rfl rfl

/-- **The first lines of a text** are the lines of its first pieces. -/
theorem lines_take (t : Text) (k : Nat) :
    lines ((endedLines t).take k).flatten = (lines t).take k := by
  induction t using endedLines.induct generalizing k with
  | case1 => rw [endedLines, List.take_nil, lines, List.take_nil]; rfl
  | case2 rest ih =>
    cases k with
    | zero => rfl
    | succ k =>
      rw [endedLines, lines, List.take_succ_cons, List.take_succ_cons, List.flatten_cons, ← ih k]
      rfl
  | case3 c rest hpair hend ih =>
    cases k with
    | zero => rfl
    | succ k =>
      -- a line feed at the front of the pieces would be one at the front of the rest
      have hfirst : c = '\r' → ((endedLines rest).take k).flatten.head? ≠ some '\n' := by
        rintro rfl hfeed
        obtain ⟨later, hrest⟩ := flatten_take_endedLines_prefix rest k
        obtain ⟨behind, hpieces⟩ := List.head?_eq_some_iff.mp hfeed
        rw [hpieces, List.cons_append] at hrest
        exact hpair _ rfl hrest.symm
      rw [endedLines, if_pos hend, List.take_succ_cons, List.flatten_cons, List.singleton_append,
        lines_cons hfirst, if_pos hend, ih, lines, if_pos hend, List.take_succ_cons]
      · exact hpair
      · exact hpair
  | case4 c rest hpair hend ih =>
    cases k with
    | zero => rfl
    | succ k =>
      have hreturn : c ≠ '\r' := by
        rintro rfl
        exact hend (by decide)
      rw [endedLines, if_neg hend, take_succ_consLine, flatten_consLine,
        lines_cons fun h => absurd h hreturn, if_neg hend, ih, lines, if_neg hend,
        take_succ_consLine]
      · exact hpair
      · exact hpair

theorem lines_unixLineEnds (t : Text) : t.unixLineEnds.lines = t.lines := by
  induction t using unixLineEnds.induct with
  | case1 => rfl
  | case2 rest ih =>
    rw [unixLineEnds, lines_cons fun h => absurd h (by decide), if_pos (by decide), ih]
    rfl
  | case3 c rest hpair ih =>
    have hfirst : c = '\r' → rest.head? ≠ some '\n' := by
      rintro rfl hfeed
      obtain ⟨behind, hrest⟩ := List.head?_eq_some_iff.mp hfeed
      exact hpair behind rfl hrest
    rw [unixLineEnds, lines_cons hfirst]
    · by_cases hreturn : c = '\r'
      · rw [if_pos hreturn, lines_cons fun h => absurd h (by decide), ih, hreturn]
        rfl
      · rw [if_neg hreturn, lines_cons fun h => absurd h hreturn, ih]
    · exact hpair

end IoSource.Text
