import IoSource.Proofs.Indent.Above
import IoSource.Proofs.Indent.Reindent
import Mathlib.Data.List.DropRight

/-!
# Indenting a line again and again

A line that has got the indentation estimated for it is estimated from there the next time, so its
columns run through a sequence that begins with its own (`indentations`).  A written line goes on in
whole steps until it is past the line above it, and then round and round from column zero
(`indentations_from_zero`).  An empty line takes the step from the line above it instead, and if that
leads anywhere it comes back from there.

The calls follow this sequence as long as there is room for the spaces.  The first call without room
leaves the buffer as it was, and so do all the others after it (`indentation_cycles`).
-/

namespace IoSource

variable {tabWidth : Nat} {above : List Text} {line : Text}

/-- The columns of a line that gets the indentation estimated for it again and again. -/
def indentations (tabWidth : Nat) (above : List Text) (line : Text) : Nat → Nat
  | 0 => line.indentation tabWidth
  | n + 1 => estimateBelow tabWidth above
      (List.replicate (indentations tabWidth above line n) ' ' ++ line.dropWhile isBlank)

/-! ### The line in between -/

theorem isWhite_indented (width : Nat) (line : Text) :
    Text.isWhite (List.replicate width ' ' ++ line.dropWhile isBlank) = line.isWhite := by
  rw [Text.isWhite_append isBlank_of_mem_replicate, Text.isWhite_dropWhile]

theorem indentation_indented (width : Nat) (line : Text) :
    Text.indentation tabWidth (List.replicate width ' ' ++ line.dropWhile isBlank) = width :=
  Text.indentation_spaces_append width (Text.not_of_mem_head?_dropWhile isBlank line)

theorem dropWhile_indented (width : Nat) (line : Text) :
    (List.replicate width ' ' ++ line.dropWhile isBlank).dropWhile isBlank =
      line.dropWhile isBlank := by
  rw [List.dropWhile_append_of_pos isBlank_of_mem_replicate, List.dropWhile_idempotent]

theorem estimateBelow_eq_indentations {line' : Text} {n : Nat}
    (hcode : line'.dropWhile isBlank = line.dropWhile isBlank)
    (hcolumns : line'.indentation tabWidth = indentations tabWidth above line n) :
    estimateBelow tabWidth above line' = indentations tabWidth above line (n + 1) := by
  refine estimateBelow_congr rfl ?_ ?_
  · rw [isWhite_indented, ← Text.isWhite_dropWhile line, ← hcode, Text.isWhite_dropWhile]
  · rw [indentation_indented, hcolumns]

/-! ### The sequence -/

/-- A line with columns, or with anything to be seen, is compared with the line above. -/
theorem indentations_succ {n : Nat}
    (h : line.isWhite = false ∨ 0 < indentations tabWidth above line n) :
    indentations tabWidth above line (n + 1) =
      nextIndentation tabWidth (indentations tabWidth above line n) (depthAbove tabWidth above 0) := by
  have hseen : ¬ (line.isWhite && indentations tabWidth above line n = 0) = true := by
    rcases h with hwritten | hpos
    · simp [hwritten]
    · simp [Nat.ne_of_gt hpos]
  rw [indentations, estimateBelow, isWhite_indented, indentation_indented, if_neg hseen]

theorem indentations_succ_of_empty (hwhite : line.isWhite = true) {n : Nat}
    (hzero : indentations tabWidth above line n = 0) :
    indentations tabWidth above line (n + 1) =
      nextIndentation tabWidth (depthAbove tabWidth above 0) (depthAbove tabWidth above 1) := by
  rw [indentations, estimateBelow, isWhite_indented, indentation_indented, hwhite, hzero]
  rfl

section Written

variable (hpos : 0 < tabWidth) (hwritten : line.isWhite = false)

include hwritten in
/-- A step leads at most one step past the line above. -/
theorem indentations_succ_le (n : Nat) :
    indentations tabWidth above line (n + 1) ≤ depthAbove tabWidth above 0 + tabWidth := by
  rw [indentations_succ (Or.inl hwritten), nextIndentation]
  split <;> omega

include hwritten in
/-- Enough steps lead past the line above, and the next one leads back to column zero. -/
theorem exists_indentations_eq_zero {steps n : Nat}
    (hpast : depthAbove tabWidth above 0 < indentations tabWidth above line n + steps * tabWidth) :
    ∃ first, n < first ∧ first ≤ n + steps + 1 ∧ indentations tabWidth above line first = 0 := by
  induction steps generalizing n with
  | zero =>
    rw [Nat.zero_mul, Nat.add_zero] at hpast
    refine ⟨n + 1, Nat.lt_succ_self n, Nat.le_refl _, ?_⟩
    rw [indentations_succ (Or.inl hwritten), nextIndentation, if_pos hpast]
  | succ steps ih =>
    have hnext : indentations tabWidth above line (n + 1) = _ := indentations_succ (Or.inl hwritten)
    unfold nextIndentation at hnext
    split at hnext
    · exact ⟨n + 1, Nat.lt_succ_self n, by omega, hnext⟩
    · rw [Nat.succ_mul] at hpast
      obtain ⟨first, hlt, hle, hzero⟩ := ih (n := n + 1) (by omega)
      exact ⟨first, by omega, by omega, hzero⟩

include hpos hwritten in
/-- **Round and round**: from column zero a line goes in whole steps past the line above it, and back
to column zero. -/
theorem indentations_from_zero {first : Nat} (hzero : indentations tabWidth above line first = 0)
    (n : Nat) :
    indentations tabWidth above line (first + n) =
      n % (depthAbove tabWidth above 0 / tabWidth + 2) * tabWidth := by
  induction n with
  | zero => rw [Nat.add_zero, hzero, Nat.zero_mod, Nat.zero_mul]
  | succ n ih =>
    rw [← Nat.add_assoc, indentations_succ (Or.inl hwritten), ih, nextIndentation]
    generalize depthAbove tabWidth above 0 = depth
    have hround : n % (depth / tabWidth + 2) < depth / tabWidth + 2 := Nat.mod_lt n (Nat.succ_pos _)
    have hsucc : (n + 1) % (depth / tabWidth + 2) =
        (n % (depth / tabWidth + 2) + 1) % (depth / tabWidth + 2) := (Nat.mod_add_mod n _ 1).symm
    rw [hsucc]
    generalize n % (depth / tabWidth + 2) = step at hround ⊢
    by_cases hlast : step ≤ depth / tabWidth
    · have hnot : ¬ depth < step * tabWidth :=
        Nat.not_lt_of_le ((Nat.le_div_iff_mul_le hpos).mp hlast)
      rw [if_neg hnot, Nat.mod_eq_of_lt (by omega), Nat.succ_mul]
    · obtain rfl : step = depth / tabWidth + 1 := by omega
      have hpast : depth < (depth / tabWidth + 1) * tabWidth :=
        (Nat.div_lt_iff_lt_mul hpos).mp (Nat.lt_succ_self _)
      rw [if_pos hpast, Nat.mod_self, Nat.zero_mul]

end Written

section Empty

variable (hwhite : line.isWhite = true) (hzero : line.indentation tabWidth = 0)

include hwhite hzero in
/-- **To and fro**: an empty line goes one step past the line above, unless that one is deeper than the
line before it, and comes back from there. -/
theorem indentations_of_empty (hpos : 0 < tabWidth)
    (hle : depthAbove tabWidth above 0 ≤ depthAbove tabWidth above 1) (k : Nat) :
    indentations tabWidth above line (2 * k) = 0 ∧
      indentations tabWidth above line (2 * k + 1) = depthAbove tabWidth above 0 + tabWidth := by
  have hforth : ∀ n, indentations tabWidth above line n = 0 →
      indentations tabWidth above line (n + 1) = depthAbove tabWidth above 0 + tabWidth := by
    intro n hn
    rw [indentations_succ_of_empty hwhite hn, nextIndentation, if_neg (Nat.not_lt_of_le hle)]
  induction k with
  | zero => exact ⟨hzero, hforth 0 hzero⟩
  | succ k ih =>
    have hback : indentations tabWidth above line (2 * k + 1 + 1) = 0 := by
      rw [indentations_succ (Or.inr (by omega)), ih.2, nextIndentation, if_pos (by omega)]
    exact ⟨hback, hforth _ hback⟩

include hwhite hzero in
theorem indentations_eq_zero_of_empty
    (hlt : depthAbove tabWidth above 1 < depthAbove tabWidth above 0) (n : Nat) :
    indentations tabWidth above line n = 0 := by
  induction n with
  | zero => exact hzero
  | succ n ih => rw [indentations_succ_of_empty hwhite ih, nextIndentation, if_pos hlt]

end Empty

/-! ### The calls -/

/-- There is room for the spaces of the first indentations. -/
def HasRoomUntil [Platform] (tabWidth : Nat) (lines : Buffer) (index : Nat) (line : Text) (n : Nat) :
    Prop :=
  index ≤ maxIndex ∧
    ∀ k < n, indentations tabWidth (lines.take index) line (k + 1) < roomLimit

namespace Edit

variable {lines : Buffer} {index : Nat}

variable [Platform]

theorem run_applyIndent_set (hpos : 0 < tabWidth) (hlt : index < lines.length) {line' : Text} {n : Nat}
    (hcode : line'.dropWhile isBlank = line.dropWhile isBlank)
    (hcolumns : line'.indentation tabWidth = indentations tabWidth (lines.take index) line n) :
    let width := indentations tabWidth (lines.take index) line (n + 1)
    let run := (applyIndent index (.int tabWidth)).run.run (lines.set index line')
    ((index ≤ maxIndex ∧ width < roomLimit) ∧ run =
      (.ok width, lines.set index (List.replicate width ' ' ++ line.dropWhile isBlank))) ∨
    (¬ (index ≤ maxIndex ∧ width < roomLimit) ∧ ∃ e, run = (.error e, lines.set index line')) := by
  intro width run
  by_cases hindex : index ≤ maxIndex
  · have hline : (lines.set index line')[index]? = some line' := List.getElem?_set_self hlt
    have hrun : run = _ := run_applyIndent_eq hpos hindex hline
    rw [List.take_set_of_le (Nat.le_refl index), estimateBelow_eq_indentations hcode hcolumns,
      List.set_set] at hrun
    rcases Text.indentedBy_cases width line' with ⟨hroom, h⟩ | ⟨hwide, cause, h⟩
    · rw [h, hcode] at hrun
      exact Or.inl ⟨⟨hindex, hroom⟩, hrun⟩
    · rw [h] at hrun
      exact Or.inr ⟨fun hroom => absurd hroom.2 (Nat.not_lt_of_le hwide), _, hrun⟩
  · exact Or.inr ⟨fun hroom => hindex hroom.1, _,
      run_applyIndent_tooLarge (Nat.lt_of_not_le hindex) _ _⟩

variable (tabWidth index lines) in
/-- Give a line the indentation estimated for it, again and again. -/
def indentAgain (n : Nat) : List (Except EditError Nat) × Buffer :=
  runAll (List.replicate n (applyIndent index (.int tabWidth))) lines

theorem indentAgain_succ (n : Nat) :
    indentAgain tabWidth lines index (n + 1) =
      ((indentAgain tabWidth lines index n).1 ++
        [((applyIndent index (.int tabWidth)).run.run (indentAgain tabWidth lines index n).2).1],
        ((applyIndent index (.int tabWidth)).run.run (indentAgain tabWidth lines index n).2).2) := by
  rw [indentAgain, List.replicate_succ', runAll_concat]
  rfl

/-- **As long as there is room** the calls give the columns of the sequence. -/
theorem indentAgain_of_hasRoom (hpos : 0 < tabWidth) (hline : lines[index]? = some line) {n : Nat}
    (hroom : HasRoomUntil tabWidth lines index line n) :
    ∃ line', indentAgain tabWidth lines index n =
        ((List.range n).map fun k => .ok (indentations tabWidth (lines.take index) line (k + 1)),
          lines.set index line') ∧
      line'.dropWhile isBlank = line.dropWhile isBlank ∧
      line'.indentation tabWidth = indentations tabWidth (lines.take index) line n := by
  obtain ⟨hlt, hsame⟩ := List.getElem?_eq_some_iff.mp hline
  induction n with
  | zero =>
    refine ⟨line, ?_, rfl, rfl⟩
    rw [← hsame, List.set_getElem_self]
    rfl
  | succ n ih =>
    obtain ⟨line', hafter, hcode, hcolumns⟩ := ih ⟨hroom.1, fun k hk =>
      hroom.2 k (Nat.lt_succ_of_lt hk)⟩
    have hnext := hroom.2 n (Nat.lt_succ_self n)
    rcases run_applyIndent_set hpos hlt hcode hcolumns with ⟨-, hrun⟩ | ⟨hnot, -⟩
    · refine ⟨_, ?_, dropWhile_indented _ line, indentation_indented _ line⟩
      rw [indentAgain_succ, hafter, hrun, List.range_succ, List.map_append]
      rfl
    · exact absurd ⟨hroom.1, hnext⟩ hnot

/-- **From the first call without room on** all calls fail, and the buffer stays as it is. -/
theorem indentAgain_of_not_hasRoom (hpos : 0 < tabWidth) (hline : lines[index]? = some line) {n : Nat}
    (hroom : ¬ HasRoomUntil tabWidth lines index line (n + 1)) :
    ∃ e, (applyIndent index (.int tabWidth)).run.run (indentAgain tabWidth lines index n).2 =
      (.error e, (indentAgain tabWidth lines index n).2) := by
  obtain ⟨hlt, -⟩ := List.getElem?_eq_some_iff.mp hline
  -- the first call without room finds the line at the columns that the calls before it have given
  have hfirst : ∀ n, HasRoomUntil tabWidth lines index line n →
      ¬ HasRoomUntil tabWidth lines index line (n + 1) →
      ∃ e, (applyIndent index (.int tabWidth)).run.run (indentAgain tabWidth lines index n).2 =
        (.error e, (indentAgain tabWidth lines index n).2) := by
    intro n hbefore hnot
    obtain ⟨line', hafter, hcode, hcolumns⟩ := indentAgain_of_hasRoom hpos hline hbefore
    rw [hafter]
    rcases run_applyIndent_set hpos hlt hcode hcolumns with ⟨⟨-, hnext⟩, -⟩ | ⟨-, hrun⟩
    · refine absurd ⟨hbefore.1, fun k hk => ?_⟩ hnot
      rcases Nat.lt_succ_iff_lt_or_eq.mp hk with hk | rfl
      · exact hbefore.2 k hk
      · exact hnext
    · exact hrun
  induction n with
  | zero =>
    by_cases hindex : index ≤ maxIndex
    · exact hfirst 0 ⟨hindex, fun k hk => absurd hk (Nat.not_lt_zero k)⟩ hroom
    · exact ⟨_, run_applyIndent_tooLarge (Nat.lt_of_not_le hindex) _ _⟩
  | succ n ih =>
    by_cases hbefore : HasRoomUntil tabWidth lines index line (n + 1)
    · exact hfirst (n + 1) hbefore hroom
    · obtain ⟨e, hrun⟩ := ih hbefore
      rw [indentAgain_succ, hrun]
      exact ⟨e, hrun⟩

/-- **Whatever a line gets**, its code stays, and so do the other lines. -/
theorem exists_indentAgain_eq_set (hpos : 0 < tabWidth) (hline : lines[index]? = some line) (n : Nat) :
    ∃ line', (indentAgain tabWidth lines index n).2 = lines.set index line' ∧
      line'.dropWhile isBlank = line.dropWhile isBlank := by
  obtain ⟨hlt, hsame⟩ := List.getElem?_eq_some_iff.mp hline
  induction n with
  | zero =>
    refine ⟨line, ?_, rfl⟩
    rw [← hsame, List.set_getElem_self]
    rfl
  | succ n ih =>
    by_cases hroom : HasRoomUntil tabWidth lines index line (n + 1)
    · obtain ⟨line', hafter, hcode, -⟩ := indentAgain_of_hasRoom hpos hline hroom
      exact ⟨line', congrArg Prod.snd hafter, hcode⟩
    · obtain ⟨e, hrun⟩ := indentAgain_of_not_hasRoom hpos hline hroom
      rw [indentAgain_succ, hrun]
      exact ih

end Edit

open Edit

/-- **Indenting a line again and again.**  As long as there is room for its spaces, each call gives the
next columns of a sequence, and leaves the line there; without room the calls fail and change nothing.
The code of the line stays as it is, and so do the other lines.

If the line is not blank, its columns are never more than one step past the line above.  Column zero
comes up after as many calls at the latest as there are steps in a round, and the rounds go on from
there.

If it is empty, it goes one step past the line above and back, or stays where it is below a line that
is deeper than the one before it. -/
theorem indentation_cycles [Platform] (tabWidth : Nat) (hpos : 0 < tabWidth) (lines : Buffer)
    (index : Nat) (line : Text) (hline : lines[index]? = some line) :
    let columns := indentations tabWidth (lines.take index) line
    let depth := depthAbove tabWidth (lines.take index)
    let after := indentAgain tabWidth lines index
    let round := depth 0 / tabWidth + 2
    (∀ n, ∃ line', (after n).2 = lines.set index line' ∧
      line'.dropWhile isBlank = line.dropWhile isBlank ∧
      (HasRoomUntil tabWidth lines index line n → line'.indentation tabWidth = columns n ∧
        (after n).1 = (List.range n).map fun k => .ok (columns (k + 1))) ∧
      (¬ HasRoomUntil tabWidth lines index line (n + 1) →
        ∃ e, after (n + 1) = ((after n).1 ++ [.error e], (after n).2))) ∧
    (line.isWhite = false →
      (∀ n, columns (n + 1) ≤ depth 0 + tabWidth) ∧
      ∃ first, 0 < first ∧ first ≤ round ∧ columns first = 0 ∧
        ∀ n, columns (first + n) = n % round * tabWidth) ∧
    (line.isWhite = true → line.indentation tabWidth = 0 →
      (written (lines.take index) = [] ∨ depth 0 ≤ depth 1 →
        ∀ k, columns (2 * k + 1) = depth 0 + tabWidth ∧ columns (2 * k + 2) = 0) ∧
      (¬ (written (lines.take index) = [] ∨ depth 0 ≤ depth 1) → ∀ n, columns (n + 1) = 0)) := by
  intro columns depth after round
  refine ⟨fun n => ?calls, fun hwritten => ⟨?bound, ?cycle⟩, fun hwhite hzero => ⟨?toAndFro, ?stays⟩⟩
  case calls =>
    have hfails : ¬ HasRoomUntil tabWidth lines index line (n + 1) →
        ∃ e, after (n + 1) = ((after n).1 ++ [.error e], (after n).2) := by
      intro hroom
      obtain ⟨e, hrun⟩ := indentAgain_of_not_hasRoom hpos hline hroom
      refine ⟨e, ?_⟩
      show indentAgain tabWidth lines index (n + 1) = _
      rw [indentAgain_succ, hrun]
    by_cases hroom : HasRoomUntil tabWidth lines index line n
    · obtain ⟨line', hafter, hcode, hcolumns⟩ := indentAgain_of_hasRoom hpos hline hroom
      exact ⟨line', congrArg Prod.snd hafter, hcode,
        fun _ => ⟨hcolumns, congrArg Prod.fst hafter⟩, hfails⟩
    · obtain ⟨line', hset, hcode⟩ := exists_indentAgain_eq_set hpos hline n
      exact ⟨line', hset, hcode, fun h => absurd h hroom, hfails⟩
  case bound => exact indentations_succ_le hwritten
  case cycle =>
    have hpast : depth 0 < columns 0 + (depth 0 / tabWidth + 1) * tabWidth :=
      Nat.lt_add_left _ ((Nat.div_lt_iff_lt_mul hpos).mp (Nat.lt_succ_self _))
    obtain ⟨first, hfirst, hle, hzero⟩ := exists_indentations_eq_zero hwritten hpast
    refine ⟨first, hfirst, ?_, hzero, indentations_from_zero hpos hwritten hzero⟩
    rwa [Nat.zero_add] at hle
  case toAndFro =>
    intro hup k
    have hle : depth 0 ≤ depth 1 := by
      rcases hup with hnone | hle
      · show depthAbove tabWidth (lines.take index) 0 ≤ depthAbove tabWidth (lines.take index) 1
        rw [depthAbove_of_written_eq_nil hnone, depthAbove_of_written_eq_nil hnone]
      · exact hle
    exact ⟨(indentations_of_empty hwhite hzero hpos hle k).2,
      (indentations_of_empty hwhite hzero hpos hle (k + 1)).1⟩
  case stays =>
    intro hdown n
    exact indentations_eq_zero_of_empty hwhite hzero
      (Nat.lt_of_not_le fun hle => hdown (Or.inr hle)) (n + 1)

open Platform.Usual in
/-- Below a line at column four the rounds are of three steps. -/
theorem indentation_cycles_three :
    let lines : Buffer := [['\t', 'a'], ['\t', ' ', 'b']]
    0 < 4 ∧ lines[1]? = some ['\t', ' ', 'b'] ∧
      (indentAgain 4 lines 1 5).1 = [.ok 0, .ok 4, .ok 8, .ok 0, .ok 4] ∧
      (∃ line' : Text, (indentAgain 4 lines 1 5).2 = [['\t', 'a'], line'] ∧
        line'.dropWhile isBlank = ['b'] ∧ line'.indentation 4 = 4) ∧
      ∃ first, 0 < first ∧ first ≤ 3 ∧
        ∀ n, indentations 4 [['\t', 'a']] ['\t', ' ', 'b'] (first + n) = n % 3 * 4 := by
  intro lines
  have hpos : 0 < 4 := by decide
  have hline : lines[1]? = some ['\t', ' ', 'b'] := rfl
  have hround : depthAbove 4 (lines.take 1) 0 / 4 + 2 = 3 := by decide
  have hroom : HasRoomUntil 4 lines 1 ['\t', ' ', 'b'] 5 := ⟨by decide, by decide⟩
  obtain ⟨hcalls, hwritten, -⟩ := indentation_cycles 4 hpos lines 1 _ hline
  obtain ⟨line', hset, hcode, hgiven, -⟩ := hcalls 5
  obtain ⟨hcolumns, hresults⟩ := hgiven hroom
  obtain ⟨-, first, hfirst, hle, -, hrounds⟩ := hwritten (by decide)
  rw [hround] at hle hrounds
  have hlist : lines.set 1 line' = [['\t', 'a'], line'] := rfl
  have hfive : (List.range 5).map (fun k => indentations 4 (lines.take 1) ['\t', ' ', 'b'] (k + 1)) =
      [0, 4, 8, 0, 4] := by decide
  have hgives := congrArg (List.map (Except.ok : Nat → Except EditError Nat)) hfive
  rw [List.map_map] at hgives
  have hlast : indentations 4 (lines.take 1) ['\t', ' ', 'b'] 5 = 4 := by decide
  exact ⟨hpos, hline, hresults.trans hgives, ⟨line', hset.trans hlist, hcode, hcolumns.trans hlast⟩,
    first, hfirst, hle, hrounds⟩

open Platform.Usual in
/-- Without room for its first step a line gets no columns at all. -/
theorem no_cycle_without_room :
    ¬ ∃ width, .ok width ∈ (indentAgain (Nat.pow 2 70) [['a']] 0 2).1 := by
  have hpos : 0 < Nat.pow 2 70 := by decide
  have hline : ([['a']] : Buffer)[0]? = some ['a'] := rfl
  have hroom : ∀ n, ¬ HasRoomUntil (Nat.pow 2 70) [['a']] 0 ['a'] (n + 1) := by
    intro n h
    exact absurd (h.2 0 (Nat.succ_pos n)) (by decide)
  have hfails : ∀ n width, .ok width ∉ (indentAgain (Nat.pow 2 70) [['a']] 0 n).1 := by
    intro n width
    induction n with
    | zero => exact List.not_mem_nil
    | succ n ih =>
      obtain ⟨e, hrun⟩ := indentAgain_of_not_hasRoom hpos hline (hroom n)
      rw [indentAgain_succ, hrun]
      simpa using ih
  rintro ⟨width, hwidth⟩
  exact hfails 2 width hwidth

end IoSource
