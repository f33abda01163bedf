import IoSource.Text.Run

/-!
# Gaps

A gap is the white space between two characters of a text, or between one of them and an end of the
text.  `replaceGaps` reads a text once, from left to right, keeps every other character and replaces
each gap by what a rule says about it and its two neighbours.

Two facts make it the working form of everything that rewrites white space.  A rule that sees white
space only through gaps is a `replaceGaps` (`replaceRuns_isSpace`), and two passes are one
(`replaceGaps_replaceGaps`): the second rule sees the gap that the first one left.
-/

namespace IoSource.Text

/-- What replaces a gap, from the characters in front of it and behind it. -/
abbrev GapRule := (before : Option Char) → (gap : Text) → (after : Option Char) → Text

/-- Replace every gap of a text; `gap` is the part that has been read of the gap behind `before`. -/
def replaceGaps (f : GapRule) : (before : Option Char) → (gap : Text) → Text → Text
  | before, gap, [] => f before gap none
  | before, gap, c :: rest =>
    if isSpace c then replaceGaps f before (gap ++ [c]) rest
    else f before gap (some c) ++ c :: replaceGaps f (some c) [] rest

variable {f g : GapRule} {before : Option Char} {gap : Text} {c : Char}

@[simp] theorem replaceGaps_nil : replaceGaps f before gap [] = f before gap none := rfl

theorem replaceGaps_space (hc : isSpace c = true) (rest : Text) :
    replaceGaps f before gap (c :: rest) = replaceGaps f before (gap ++ [c]) rest := by
  rw [replaceGaps, if_pos hc]

theorem replaceGaps_char (hc : isSpace c = false) (rest : Text) :
    replaceGaps f before gap (c :: rest) =
      f before gap (some c) ++ c :: replaceGaps f (some c) [] rest := by
  rw [replaceGaps, if_neg (by simp [hc])]

/-- White space at the front of a text belongs to the gap that is being read. -/
theorem replaceGaps_append {run : Text} (hrun : ∀ c ∈ run, isSpace c = true) (rest : Text) :
    replaceGaps f before gap (run ++ rest) = replaceGaps f before (gap ++ run) rest := by
  induction run generalizing gap with
  | nil => rw [List.nil_append, List.append_nil]
  | cons c run ih =>
    rw [List.cons_append, replaceGaps_space (hrun c (by simp)),
      ih (fun d hd => hrun d (List.mem_cons_of_mem c hd)), List.append_assoc, List.singleton_append]

theorem isSpace_of_mem_concat (hgap : ∀ c ∈ gap, isSpace c = true) (hc : isSpace c = true) :
    ∀ d ∈ gap ++ [c], isSpace d = true := by
  intro d hd
  rcases List.mem_append.mp hd with hd | hd
  · exact hgap d hd
  · rwa [List.mem_singleton.mp hd]

theorem replaceGaps_congr
    (h : ∀ before gap after, (∀ c ∈ gap, isSpace c = true) →
      f before gap after = g before gap after)
    (hgap : ∀ c ∈ gap, isSpace c = true) (t : Text) :
    replaceGaps f before gap t = replaceGaps g before gap t := by
  induction t generalizing before gap with
  | nil => exact h before gap none hgap
  | cons c rest ih =>
    cases hc : isSpace c with
    | true =>
      rw [replaceGaps_space hc, replaceGaps_space hc, ih (isSpace_of_mem_concat hgap hc)]
    | false =>
      rw [replaceGaps_char hc, replaceGaps_char hc, h before gap (some c) hgap, ih (by simp)]

/-- **Two passes are one.**  The first rule leaves white space in place of each gap, so the second
pass meets the same neighbours. -/
theorem replaceGaps_replaceGaps
    (hf : ∀ before gap after, (∀ c ∈ gap, isSpace c = true) →
      ∀ c ∈ f before gap after, isSpace c = true)
    (hgap : ∀ c ∈ gap, isSpace c = true) (t : Text) :
    replaceGaps g before [] (replaceGaps f before gap t) =
      replaceGaps (fun before gap after => g before (f before gap after) after) before gap t := by
  induction t generalizing before gap with
  | nil =>
    have h : replaceGaps g before [] (f before gap none ++ []) =
        replaceGaps g before ([] ++ f before gap none) [] :=
      replaceGaps_append (hf before gap none hgap) []
    simpa using h
  | cons c rest ih =>
    cases hc : isSpace c with
    | true =>
      rw [replaceGaps_space hc, replaceGaps_space hc, ih (isSpace_of_mem_concat hgap hc)]
    | false =>
      rw [replaceGaps_char hc, replaceGaps_char hc, replaceGaps_append (hf before gap _ hgap),
        replaceGaps_char hc, ih (by simp), List.nil_append]

/-- A text can be cut behind any character that is not white, as a gap does not reach across it. -/
theorem replaceGaps_cut (hf : f (some c) [] none = []) (hc : isSpace c = false) (s rest : Text) :
    replaceGaps f before gap (s ++ c :: rest) =
      replaceGaps f before gap (s ++ [c]) ++ replaceGaps f (some c) [] rest := by
  induction s generalizing before gap with
  | nil => simp [replaceGaps_char hc, hf]
  | cons d s ih =>
    cases hd : isSpace d with
    | true =>
      rw [List.cons_append, List.cons_append, replaceGaps_space hd, replaceGaps_space hd, ih]
    | false =>
      rw [List.cons_append, List.cons_append, replaceGaps_char hd, replaceGaps_char hd, ih,
        List.append_assoc, List.cons_append]

/-! ### Runs of white space are gaps -/

section Runs

variable {r : Option Char → Text → Text → Text}

/-- The replacement of white runs is that of gaps, provided that the rule looks no further than one
character behind the run.  The run is replaced where it starts, a gap where it ends; the second part
says how the two keep in step inside a run. -/
theorem replaceRuns_isSpace_aux
    (hr : ∀ before run after, run ≠ [] → r before run after = f before run after.head?)
    (hf : ∀ before after, f before [] after = []) (t : Text) :
    (∀ before : Option Char, before.any isSpace = false →
      replaceRuns isSpace r before t = replaceGaps f before [] t) ∧
    ∀ (before : Option Char) (gap : Text) (c : Char), isSpace c = true →
      f before (gap ++ t.takeWhile isSpace) (t.dropWhile isSpace).head? ++
        replaceRuns isSpace r (some c) t = replaceGaps f before gap t := by
  induction t with
  | nil =>
    exact ⟨fun before _ => by simp [replaceRuns, hf],
      fun before gap c _ => by simp [replaceRuns]⟩
  | cons d rest ih =>
    cases hd : isSpace d with
    | true =>
      refine ⟨fun before hb => ?_, fun before gap c hc => ?_⟩
      · have h := ih.2 before [d] d hd
        rw [replaceRuns, if_pos hd, hb, replaceGaps_space hd, List.nil_append, ← h,
          hr _ _ _ (by simp)]
        rfl
      · have h := ih.2 before (gap ++ [d]) d hd
        rw [replaceRuns, if_pos hd, if_pos (by simpa using hc), replaceGaps_space hd, ← h,
          List.takeWhile_cons, List.dropWhile_cons]
        simp [hd]
    | false =>
      have h := ih.1 (some d) (by simpa using hd)
      refine ⟨fun before _ => ?_, fun before gap c _ => ?_⟩
      · rw [replaceRuns, if_neg (by simp [hd]), replaceGaps_char hd, hf, h, List.nil_append]
      · rw [replaceRuns, if_neg (by simp [hd]), replaceGaps_char hd, h]
        simp [hd]

theorem replaceRuns_isSpace
    (hr : ∀ before run after, run ≠ [] → r before run after = f before run after.head?)
    (hf : ∀ before after, f before [] after = []) (t : Text) :
    replaceRuns isSpace r none t = replaceGaps f none [] t :=
  (replaceRuns_isSpace_aux hr hf t).1 none rfl

end Runs

end IoSource.Text
