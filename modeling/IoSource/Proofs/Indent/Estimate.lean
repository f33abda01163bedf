import IoSource.Indent.Estimate
import IoSource.Proofs.Text.Spaces

/-!
# What an estimate depends on

An estimate looks at a line and at the lines above it that are not blank, of which it takes the last
two (`estimateBelow`).  `estimateIndent_eq` says that a history from which these lines can be read
gives just that, whatever the history is a view of.
-/

namespace IoSource

def written (lines : List Text) : List Text := (lines.filter fun line => !line.isWhite).reverse

/-- The columns of the last written line, of the one before it, and so on; none without such a
line. -/
def depthAbove (tabWidth : Nat) (lines : List Text) (k : Nat) : Nat :=
  (((written lines)[k]?).map (Text.indentation tabWidth)).getD 0

def estimateBelow (tabWidth : Nat) (above : List Text) (line : Text) : Nat :=
  if line.isWhite && line.indentation tabWidth = 0 then
    nextIndentation tabWidth (depthAbove tabWidth above 0) (depthAbove tabWidth above 1)
  else nextIndentation tabWidth (line.indentation tabWidth) (depthAbove tabWidth above 0)

theorem written_concat (lines : List Text) (line : Text) :
    written (lines ++ [line]) = if line.isWhite then written lines else line :: written lines := by
  unfold written
  cases hwhite : line.isWhite <;> simp [hwhite]

theorem depthAbove_of_written_eq_nil {tabWidth : Nat} {above : List Text} (h : written above = [])
    (k : Nat) : depthAbove tabWidth above k = 0 := by
  rw [depthAbove, h]
  rfl

theorem indexIn?_natCast {size index : Nat} (hlt : index < size) :
    indexIn? size index = some index := by
  simp [indexIn?, hlt]

theorem lt_of_indexIn? {size place : Nat} {index : Int} (h : indexIn? size index = some place) :
    place < size := by
  unfold indexIn? at h
  split at h
  · split at h
    · obtain rfl := Option.some.inj h
      omega
    · exact absurd h (by simp)
  · split at h
    · obtain rfl := Option.some.inj h
      omega
    · exact absurd h (by simp)

theorem exists_indexIn?_iff {size : Nat} {index : Int} :
    (∃ place, indexIn? size index = some place) ↔ -(size : Int) ≤ index ∧ index < size := by
  unfold indexIn?
  split
  · split
    · exact iff_of_true ⟨_, rfl⟩ (by omega)
    · exact iff_of_false (by simp) (by omega)
  · split
    · exact iff_of_true ⟨_, rfl⟩ (by omega)
    · exact iff_of_false (by simp) (by omega)

theorem bufferLine_iff {lines : List Text} {index : Int} {line : Text} :
    bufferLine lines index = .ok line ↔
      isIndex index = true ∧ ∃ place, indexIn? lines.length index = some place ∧
        lines[place]? = some line := by
  unfold bufferLine
  by_cases hindex : isIndex index = true
  · cases hplace : indexIn? lines.length index with
    | none => simp [hindex]
    | some place => simp [hindex, lt_of_indexIn? hplace]
  · simp [hindex]

theorem bufferLine_eq_ok_iff {lines : List Text} {index : Nat} {line : Text} :
    bufferLine lines index = .ok line ↔ isIndex index = true ∧ lines[index]? = some line := by
  rw [bufferLine_iff]
  refine and_congr_right fun _ => ⟨?_, fun hline => ?_⟩
  · rintro ⟨place, hplace, hline⟩
    have hlt : index < lines.length := by
      have := exists_indexIn?_iff.mp ⟨place, hplace⟩
      omega
    rw [indexIn?_natCast hlt] at hplace
    rwa [Option.some.inj hplace]
  · obtain ⟨hlt, -⟩ := List.getElem?_eq_some_iff.mp hline
    exact ⟨index, indexIn?_natCast hlt, hline⟩

theorem bufferLine_tooLarge {index : Nat} (hindex : maxIndex < index) (lines : List Text) :
    bufferLine lines index = .error .indexTooLarge := by
  have hnot : isIndex index = false := by
    rw [← Bool.not_eq_true, isIndex_natCast]
    exact Nat.not_le_of_lt hindex
  rw [bufferLine, hnot]
  rfl

namespace History
variable [Platform]

/-- Some lines can be read from a history, and there are no others. -/
structure Reads (history : History) (lines : List Text) : Prop where
  size : history.size = lines.length
  line : ∀ {i : Nat} {line : Text}, lines[i]? = some line → history.line i = .ok line

theorem reads_buffer {lines : List Text} (hlength : lines.length ≤ maxIndex + 1) :
    (buffer lines).Reads lines := by
  refine ⟨rfl, fun {i line} hline => bufferLine_eq_ok_iff.mpr ⟨?_, hline⟩⟩
  obtain ⟨hlt, -⟩ := List.getElem?_eq_some_iff.mp hline
  exact (isIndex_natCast i).mpr (by omega)

theorem reads_upTo (lines : List Text) {stop : Nat} (hstop : stop ≤ maxIndex + 1) :
    (upTo (buffer lines) stop).Reads (lines.take stop) := by
  have hsize : (upTo (buffer lines) stop).size = (lines.take stop).length := by
    rw [size, size, List.length_take]
    omega
  refine ⟨hsize, fun {i line} hline => ?_⟩
  obtain ⟨hlt, -⟩ := List.getElem?_eq_some_iff.mp hline
  rw [List.length_take] at hlt
  rw [List.getElem?_take_of_lt (by omega)] at hline
  have hdepth : ¬ Platform.viewDepth < (upTo (buffer lines) stop).depth :=
    Nat.not_lt_of_le Platform.viewDepth_pos
  rw [History.line, hsize, List.length_take, if_pos (by omega), if_neg hdepth]
  exact bufferLine_eq_ok_iff.mpr ⟨(isIndex_natCast i).mpr (by omega), hline⟩

/-- In front of a line that is counted from the end, a view has no lines. -/
theorem reads_upTo_index (lines : List Text) {index : Int} (hindex : isIndex index = true) :
    (upTo (buffer lines) index).Reads (lines.take index.toNat) := by
  by_cases hneg : index < 0
  · have hnone : lines.take index.toNat = [] := by
      rw [Int.toNat_of_nonpos (Int.le_of_lt hneg), List.take_zero]
    rw [hnone]
    refine ⟨?_, fun {i line} hline => absurd hline (by simp)⟩
    rw [size, List.length_nil, Int.toNat_of_nonpos (by omega)]
  · obtain ⟨n, rfl⟩ := Int.eq_ofNat_of_zero_le (Int.not_lt.mp hneg)
    rw [Int.toNat_natCast]
    exact reads_upTo lines (Nat.le_succ_of_le ((isIndex_natCast n).mp hindex))

variable {history : History} {lines : List Text}

/-- **The search for a written line**, from some line up: there is none, or it finds the last
one. -/
theorem lastNonBlankBelow_cases (h : history.Reads lines) {n : Nat} (hn : n ≤ lines.length) :
    (history.lastNonBlankBelow n = .ok none ∧ written (lines.take n) = []) ∨
    ∃ j line, history.lastNonBlankBelow n = .ok (some j) ∧ j < n ∧ lines[j]? = some line ∧
      written (lines.take n) = line :: written (lines.take j) := by
  induction n with
  | zero => exact Or.inl ⟨rfl, rfl⟩
  | succ n ih =>
    have hline := List.getElem?_eq_getElem (Nat.lt_of_succ_le hn)
    have hread := h.line hline
    generalize lines[n] = line at hline hread
    have hwritten := written_concat (lines.take n) line
    have htake : lines.take (n + 1) = lines.take n ++ [line] := by
      rw [List.take_add_one, hline]
      rfl
    rw [← htake] at hwritten
    have hbelow : history.lastNonBlankBelow (n + 1) =
        if line.isWhite then history.lastNonBlankBelow n else .ok (some n) := by
      rw [lastNonBlankBelow, hread]
      rfl
    rw [hbelow, hwritten]
    cases line.isWhite with
    | false => exact Or.inr ⟨n, line, rfl, Nat.lt_succ_self n, hline, rfl⟩
    | true =>
      rcases ih (Nat.le_of_succ_le hn) with hnone | ⟨j, found, hfound, hlt, hrest⟩
      · exact Or.inl hnone
      · exact Or.inr ⟨j, found, hfound, Nat.lt_succ_of_lt hlt, hrest⟩

theorem lastNonBlank_natCast (h : history.Reads lines) {n : Nat} (hn : n ≤ lines.length) :
    history.lastNonBlank n = history.lastNonBlankBelow n := by
  rw [lastNonBlank, h.size, Int.min_eq_left (Int.ofNat_le.mpr hn), Int.toNat_natCast]

theorem exists_lastNonBlank (h : history.Reads lines) {n : Nat} (hn : n ≤ lines.length)
    (tabWidth : Nat) :
    ∃ found, history.lastNonBlank n = .ok found ∧
      history.indentation tabWidth found = .ok (depthAbove tabWidth (lines.take n) 0) := by
  rw [lastNonBlank_natCast h hn]
  rcases lastNonBlankBelow_cases h hn with ⟨hfind, hwritten⟩ | ⟨j, line, hfind, -, hline, hwritten⟩
  · refine ⟨none, hfind, ?_⟩
    rw [depthAbove, hwritten]
    rfl
  · refine ⟨some j, hfind, ?_⟩
    rw [depthAbove, hwritten, indentation, h.line hline]
    rfl

end History

open History

theorem checkTabWidth_natCast {tabWidth : Nat} (hpos : 0 < tabWidth) :
    checkTabWidth (.int tabWidth) = .ok tabWidth := by
  rw [checkTabWidth, if_pos (Int.natCast_pos.mpr hpos), Int.toNat_natCast]

/-- **The estimate for a line** depends on the lines above it alone. -/
theorem estimateIndent_eq [Platform] {history : History} {above : List Text} (h : history.Reads above)
    {tabWidth : Nat} (hpos : 0 < tabWidth) (line : Text) :
    estimateIndent history line (.int tabWidth) = .ok (estimateBelow tabWidth above line) := by
  obtain ⟨found, hfound, hcurrent⟩ := exists_lastNonBlank h (Nat.le_refl above.length) tabWidth
  have hcases := lastNonBlankBelow_cases h (Nat.le_refl above.length)
  rw [← lastNonBlank_natCast h (Nat.le_refl _), List.take_length] at hcases
  rw [List.take_length] at hcurrent
  unfold estimateIndent estimateBelow
  rw [checkTabWidth_natCast hpos, h.size, hfound]
  split
  · next hopen =>
    -- an empty line goes on from the last written line, and is compared with the one above that
    rw [hfound] at hcases
    rcases hcases with ⟨hnone, hwritten⟩ | ⟨j, last, hsome, hlt, -, hwritten⟩
    · obtain rfl := Except.ok.inj hnone
      have hzero : ∀ k, depthAbove tabWidth above k = 0 := depthAbove_of_written_eq_nil hwritten
      simp [hopen, hzero, bind, Except.bind, pure, Except.pure]
    · obtain rfl := Except.ok.inj hsome
      obtain ⟨before, hbefore, hprevious⟩ := exists_lastNonBlank h (Nat.le_of_lt hlt) tabWidth
      have hdepth : depthAbove tabWidth above 1 = depthAbove tabWidth (above.take j) 0 := by
        rw [depthAbove, depthAbove, hwritten]
        rfl
      simp [hopen, hcurrent, hbefore, hprevious, hdepth, bind, Except.bind, pure, Except.pure]
  · next hopen => simp [hopen, hcurrent, bind, Except.bind, pure, Except.pure]

end IoSource
