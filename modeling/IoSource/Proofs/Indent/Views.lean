import IoSource.Proofs.Indent.Estimate
import Mathlib.Data.List.Induction

/-!
# Views of views

A view can be taken of a view, up to any stop.  What can be read from it are the first lines of
what can be read from the view below it (`History.Reads.upTo`), so that views stacked on a buffer
show its lines up to the least of the stops, where a negative one shows nothing
(`History.reads_stacked`).

An estimate in such a view is the one below these lines, and it does not fail, since it asks for no
line that the view refuses.  Reading asks every view of the stack, though, which must not be too
high.
-/

namespace IoSource

namespace History

/-- Views of a buffer, one of the other, each up to its stop. -/
def stacked (lines : List Text) (stops : List Int) : History := stops.foldl upTo (buffer lines)

/-- The number of lines in front of all stops; there are none in front of a negative one. -/
def shown (size : Nat) (stops : List Int) : Nat := (stops.map Int.toNat).foldl min size

theorem stacked_concat (lines : List Text) (stops : List Int) (stop : Int) :
    stacked lines (stops ++ [stop]) = upTo (stacked lines stops) stop := by
  rw [stacked, List.foldl_append]
  rfl

theorem exists_stacked_eq_upTo (lines : List Text) {stops : List Int} (hstops : stops ≠ []) :
    ∃ below stop, stacked lines stops = upTo below stop := by
  rw [← List.dropLast_concat_getLast hstops]
  exact ⟨_, _, stacked_concat lines _ _⟩

theorem shown_concat (size : Nat) (stops : List Int) (stop : Int) :
    shown size (stops ++ [stop]) = min (shown size stops) stop.toNat := by
  rw [shown, List.map_append, List.foldl_append]
  rfl

theorem size_upTo (history : History) (stop : Int) :
    (upTo history stop).size = min history.size stop.toNat := by
  rw [size]
  omega

theorem size_stacked (lines : List Text) (stops : List Int) :
    (stacked lines stops).size = shown lines.length stops := by
  induction stops using List.reverseRecOn with
  | nil => rfl
  | append_singleton stops stop ih => rw [stacked_concat, size_upTo, ih, shown_concat]

/-- As many views stand between a stack and its buffer as there are stops. -/
theorem depth_stacked (lines : List Text) (stops : List Int) :
    (stacked lines stops).depth = stops.length := by
  induction stops using List.reverseRecOn with
  | nil => rfl
  | append_singleton stops stop ih =>
    rw [stacked_concat, depth, ih, List.length_append, List.length_singleton]

theorem shown_le (size : Nat) (stops : List Int) : shown size stops ≤ size := by
  induction stops using List.reverseRecOn with
  | nil => exact Nat.le_refl size
  | append_singleton stops stop ih =>
    rw [shown_concat]
    exact Nat.le_trans (Nat.min_le_left _ _) ih

variable [Platform]

theorem line_upTo_of_lt {history : History} {stop : Int}
    (hdepth : (upTo history stop).depth ≤ Platform.viewDepth) {i : Nat}
    (hi : i < (upTo history stop).size) : (upTo history stop).line i = history.line i := by
  rw [line, if_pos ⟨Int.natCast_nonneg i, Int.ofNat_lt.mpr hi⟩, if_neg (Nat.not_lt_of_le hdepth)]

/-- Any view refuses anything else itself, and says what, if it can. -/
theorem line_upTo_of_outside {history : History} {stop index : Int}
    (hout : ¬ (0 ≤ index ∧ index < (upTo history stop).size)) :
    (upTo history stop).line index =
      if index.natAbs < Nat.pow 10 Number.maxDecimalDigits then .error (.outsideView index)
      else .error .tooManyDigits := by
  rw [line, if_neg hout, Number.decimalInt?]
  split <;> rfl

/-- **A view shows the first lines** of what it is a view of. -/
theorem Reads.upTo {history : History} {lines : List Text} (h : history.Reads lines) {stop : Int}
    (hdepth : (History.upTo history stop).depth ≤ Platform.viewDepth) :
    (upTo history stop).Reads (lines.take stop.toNat) := by
  have hsize : (History.upTo history stop).size = (lines.take stop.toNat).length := by
    rw [size_upTo, h.size, List.length_take, Nat.min_comm]
  refine ⟨hsize, ?_⟩
  intro i line hline
  obtain ⟨hlt, -⟩ := List.getElem?_eq_some_iff.mp hline
  rw [line_upTo_of_lt hdepth (hsize ▸ hlt)]
  rw [List.length_take] at hlt
  rw [List.getElem?_take_of_lt (by omega)] at hline
  exact h.line hline

/-- **Stacked views show the lines up to the least of their stops.** -/
theorem reads_stacked {lines : List Text} (hlength : lines.length ≤ maxIndex + 1)
    {stops : List Int} (hdepth : stops.length ≤ Platform.viewDepth) :
    (stacked lines stops).Reads (lines.take (shown lines.length stops)) := by
  induction stops using List.reverseRecOn with
  | nil =>
    show (buffer lines).Reads (lines.take lines.length)
    rw [List.take_length]
    exact reads_buffer hlength
  | append_singleton stops stop ih =>
    have hview : (upTo (stacked lines stops) stop).depth ≤ Platform.viewDepth := by
      rwa [← stacked_concat, depth_stacked]
    rw [List.length_append, List.length_singleton] at hdepth
    have hreads := (ih (Nat.le_of_succ_le hdepth)).upTo hview
    rwa [List.take_take, Nat.min_comm, ← shown_concat, ← stacked_concat] at hreads

/-- A stack that is too high lets read nothing. -/
theorem line_stacked_of_lt {lines : List Text} {stops : List Int}
    (hdepth : Platform.viewDepth < stops.length) {i : Nat} (hi : i < shown lines.length stops) :
    (stacked lines stops).line i = .error .tooDeep := by
  have hstops : stops ≠ [] := List.ne_nil_of_length_pos (Nat.zero_lt_of_lt hdepth)
  obtain ⟨below, stop, hview⟩ := exists_stacked_eq_upTo lines hstops
  rw [← size_stacked, hview] at hi
  rw [← depth_stacked lines, hview] at hdepth
  rw [hview, line, if_pos ⟨Int.natCast_nonneg i, Int.ofNat_lt.mpr hi⟩, if_pos hdepth]

end History

open History

/-- **Views stacked on some lines are the first of these lines.**  There are as many as the least of
the stops says, where a stop below zero counts as zero.  Any other index is refused, which is said
with the index unless it has too many digits.  If the stack is not too high, each of the lines can be
read at its index; an estimate in the view is the one below these lines alone, and does not fail. -/
theorem stacked_views_are_prefixes [Platform] (lines : List Text)
    (hlength : lines.length ≤ maxIndex + 1) (stops : List Int) (hstops : stops ≠ []) :
    let view := stacked lines stops
    let m := (stops.map Int.toNat).foldl min lines.length
    view.size = m ∧
      (∀ index : Int, ¬ (0 ≤ index ∧ index < m) → view.line index =
        if index.natAbs < Nat.pow 10 Number.maxDecimalDigits then .error (.outsideView index)
        else .error .tooManyDigits) ∧
      (stops.length ≤ Platform.viewDepth →
        (∀ i < m, ∃ line, lines[i]? = some line ∧ view.line i = .ok line) ∧
          ∀ (line : Text) (tabWidth : Nat), 0 < tabWidth → ∃ width,
            estimateIndent view line (.int tabWidth) = .ok width ∧
              estimateIndent (.buffer (lines.take m)) line (.int tabWidth) = .ok width) := by
  intro view m
  have hm : m ≤ lines.length := shown_le lines.length stops
  have hsize : view.size = m := size_stacked lines stops
  refine ⟨hsize, ?others, fun hdepth => ?inside⟩
  case others =>
    intro index hout
    -- the view on top refuses the index, without asking those below it
    obtain ⟨below, stop, hview⟩ : ∃ below stop, view = upTo below stop :=
      exists_stacked_eq_upTo lines hstops
    rw [hview] at hsize ⊢
    exact line_upTo_of_outside (hsize ▸ hout)
  case inside =>
    have hreads : view.Reads (lines.take m) := reads_stacked hlength hdepth
    refine ⟨fun i hi => ?_, fun line tabWidth hpos => ?_⟩
    · have hline : lines[i]? = some lines[i] :=
        List.getElem?_eq_getElem (Nat.lt_of_lt_of_le hi hm)
      refine ⟨_, hline, hreads.line ?_⟩
      rwa [List.getElem?_take_of_lt hi]
    · have hprefix : (buffer (lines.take m)).Reads (lines.take m) := by
        have hlengthTake : (lines.take m).length = m := List.length_take_of_le hm
        apply reads_buffer
        omega
      exact ⟨_, estimateIndent_eq hreads hpos line, estimateIndent_eq hprefix hpos line⟩

open Platform.Usual in
/-- The stop in the middle is the least. -/
theorem stacked_views_are_prefixes_twice :
    let lines : List Text := [['x'], [' ', ' ', 'y'], [], ['\t', 'z']]
    let stops : List Int := [3, 2, 40]
    let view := stacked lines stops
    lines.length ≤ maxIndex + 1 ∧ stops ≠ [] ∧ stops.length ≤ Platform.viewDepth ∧
      view.size = 2 ∧ view.line 1 = .ok [' ', ' ', 'y'] ∧
      view.line (-1) = .error (.outsideView (-1)) ∧
      ∃ width, estimateIndent view [] (.int 4) = .ok width ∧
        estimateIndent (.buffer [['x'], [' ', ' ', 'y']]) [] (.int 4) = .ok width := by
  intro lines stops view
  have hlength : lines.length ≤ maxIndex + 1 := by decide
  have hstops : stops ≠ [] := by decide
  have hdepth : stops.length ≤ Platform.viewDepth := by decide
  obtain ⟨hsize, hothers, hinside⟩ := stacked_views_are_prefixes lines hlength stops hstops
  obtain ⟨hlines, hestimate⟩ := hinside hdepth
  obtain ⟨line, hline, hread⟩ := hlines 1 (by decide)
  obtain rfl : [' ', ' ', 'y'] = line := Option.some.inj hline
  have hshown : (-1 : Int).natAbs < Nat.pow 10 Number.maxDecimalDigits := by decide +kernel
  have hrefused := hothers (-1) (by decide)
  rw [if_pos hshown] at hrefused
  exact ⟨hlength, hstops, hdepth, hsize, hread, hrefused, hestimate [] 4 (by decide)⟩

open Platform.Usual in
/-- Nothing is read through five thousand views, and an index of too many digits is not shown. -/
theorem views_refuse_otherwise :
    let lines : List Text := [['a']]
    let stops : List Int := List.replicate 5000 1
    (stacked lines stops).size = 1 ∧ (stacked lines stops).line 0 = .error .tooDeep ∧
      (stacked lines [1]).line (Nat.pow 10 Number.maxDecimalDigits : Nat) =
        .error .tooManyDigits := by
  intro lines stops
  have hshown : ∀ n, shown 1 (List.replicate n 1) = 1 := by
    intro n
    induction n with
    | zero => rfl
    | succ n ih => exact ih
  have hsize : (stacked lines stops).size = 1 := (size_stacked lines stops).trans (hshown 5000)
  have hdepth : Platform.viewDepth < stops.length := by
    rw [List.length_replicate]
    decide
  have hout : ¬ (0 ≤ ((Nat.pow 10 Number.maxDecimalDigits : Nat) : Int) ∧
      ((Nat.pow 10 Number.maxDecimalDigits : Nat) : Int) < (stacked lines [1]).size) := by
    have hone : (stacked lines [1]).size = 1 := rfl
    have hpos : ∀ digits, 0 < Nat.pow 10 digits := fun _ => Nat.pow_pos (by decide)
    have hlarge := hpos Number.maxDecimalDigits
    rw [hone]
    generalize Nat.pow 10 Number.maxDecimalDigits = index at hlarge ⊢
    omega
  refine ⟨hsize, line_stacked_of_lt hdepth (i := 0) ?_, ?_⟩
  · exact Nat.lt_of_lt_of_eq Nat.zero_lt_one (hshown 5000).symm
  · refine (line_upTo_of_outside hout).trans (if_neg ?_)
    rw [Int.natAbs_natCast]
    exact Nat.lt_irrefl _

end IoSource
