import IoSource.Proofs.Text.Gap
import Mathlib.Data.List.SplitBy
import Mathlib.Data.List.TakeWhile

/-!
# The runs of a text

`runs p` cuts a text into its maximal runs: blocks of characters of the class `p` and blocks of
other characters, in turn.  Here a rewriting is said by what becomes of each run, without a scan:
`replaceGaps_eq_flatten` says it of the gaps of a text and `replaceRuns_eq_flatMap` of any class
whose replacement does not look at its surroundings.
-/

namespace IoSource.Text

variable {p : Char → Bool} {t : Text}

/-- The maximal runs of a text: on each of them `p` is constant, and it changes in between. -/
def runs (p : Char → Bool) (t : Text) : List Text := t.splitBy fun a b => p a == p b

@[simp] theorem runs_nil : runs p [] = [] := rfl

@[simp] theorem flatten_runs : (runs p t).flatten = t := List.flatten_splitBy _ t

theorem not_of_mem_head?_dropWhile (p : Char → Bool) (t : Text) :
    ∀ c ∈ (t.dropWhile p).head?, p c = false := by
  intro c hc
  have h := List.head?_dropWhile_not p t
  rwa [Option.mem_def.mp hc] at h

theorem runs_append {k : Bool} {run rest : Text} (hne : run ≠ []) (hrun : ∀ c ∈ run, p c = k)
    (hrest : ∀ c ∈ rest.head?, p c ≠ k) : runs p (run ++ rest) = run :: runs p rest := by
  have hcut : ∀ a ∈ run.getLast?, ∀ b ∈ rest.head?, (p a == p b) = false := by
    intro a ha b hb
    rw [hrun a (List.mem_of_mem_getLast? ha)]
    simpa using (hrest b hb).symm
  have hsingle : run.splitBy (fun a b => p a == p b) = [run] := by
    refine List.splitBy_of_isChain hne (List.Pairwise.isChain ?_)
    refine List.pairwise_of_forall_mem_list fun a ha b hb => ?_
    rw [hrun a ha, hrun b hb, beq_self_eq_true]
  rw [runs, List.splitBy_append hcut, hsingle, List.singleton_append, runs]

/-- **Induction on the runs of a text.** -/
theorem runs_induction (p : Char → Bool) {motive : Text → Prop} (nil : motive [])
    (run : ∀ (k : Bool) (run rest : Text), run ≠ [] → (∀ c ∈ run, p c = k) →
      (∀ c ∈ rest.head?, p c ≠ k) → motive rest → motive (run ++ rest)) (t : Text) : motive t := by
  induction hn : t.length using Nat.strong_induction_on generalizing t with
  | _ n ih =>
    cases t with
    | nil => exact nil
    | cons c rest =>
      have hsplit : c :: rest =
          (c :: rest.takeWhile (p · == p c)) ++ rest.dropWhile (p · == p c) := by
        rw [List.cons_append, List.takeWhile_append_dropWhile]
      rw [hsplit]
      refine run (p c) _ _ (by simp) ?_ ?_ (ih _ ?_ _ rfl)
      · intro d hd
        rcases List.mem_cons.mp hd with rfl | hd
        · rfl
        · simpa using List.mem_takeWhile_imp hd
      · intro d hd
        simpa using not_of_mem_head?_dropWhile (p · == p c) rest d hd
      · have h := (List.dropWhile_suffix (p · == p c) (l := rest)).length_le
        rw [← hn, List.length_cons]
        omega

theorem takeWhile_append_cons {c : Char} (hc : p c = false) (s rest : Text) :
    (s ++ c :: rest).takeWhile p = s.takeWhile p := by
  rw [List.takeWhile_append]
  split
  · next h =>
    rw [List.takeWhile_cons, if_neg (by simp [hc]), List.append_nil]
    exact ((List.takeWhile_prefix p).eq_of_length h).symm
  · rfl

/-! ### Gaps are the white runs -/

/-- Replace the white ones of a list of runs, each on its own; `before` is the last character of the
run in front of the list. -/
def replaceEach (f : GapRule) : (before : Option Char) → List Text → List Text
  | _, [] => []
  | before, run :: later =>
    (if isWhite run then f before run later.flatten.head? else run) ::
      replaceEach f run.getLast? later

theorem replaceGaps_word {f : GapRule} (hf : ∀ before after, f before [] after = []) {word : Text}
    (hne : word ≠ []) (hword : ∀ c ∈ word, isSpace c = false) (before : Option Char)
    (rest : Text) :
    replaceGaps f before [] (word ++ rest) = word ++ replaceGaps f word.getLast? [] rest := by
  induction word generalizing before with
  | nil => exact absurd rfl hne
  | cons c word ih =>
    rw [List.cons_append, replaceGaps_char (hword c (by simp)), hf, List.nil_append]
    cases word with
    | nil => simp
    | cons d word =>
      rw [ih (by simp) (fun e he => hword e (List.mem_cons_of_mem c he)), List.getLast?_cons_cons]
      rfl

/-- **Gap by gap is run by run.** -/
theorem replaceGaps_eq_flatten {f : GapRule} (hf : ∀ before after, f before [] after = [])
    (before : Option Char) (t : Text) :
    replaceGaps f before [] t = (replaceEach f before (runs isSpace t)).flatten := by
  induction t using runs_induction isSpace generalizing before with
  | nil => simp [replaceEach, hf]
  | run k run rest hne hrun hrest ih =>
    rw [runs_append hne hrun hrest, replaceEach, List.flatten_cons, ← ih, flatten_runs]
    cases k with
    | false =>
      have hwhite : isWhite run = false := by
        obtain ⟨c, hc⟩ := List.exists_mem_of_ne_nil run hne
        rw [isWhite, List.all_eq_false]
        exact ⟨c, hc, by simp [hrun c hc]⟩
      rw [if_neg (by simp [hwhite]), replaceGaps_word hf hne hrun]
    | true =>
      rw [if_pos (by simpa [isWhite] using hrun), replaceGaps_append hrun, List.nil_append]
      cases rest with
      | nil => simp [hf]
      | cons c rest =>
        have hc : isSpace c = false := by simpa using hrest c (by simp)
        rw [replaceGaps_char hc, replaceGaps_char hc, hf, List.nil_append, List.head?_cons]

/-! ### Rules that do not look back -/

section LookAhead

variable {r : Text → Text → Text}

theorem replaceRuns_before {b b' : Option Char} (h : b.any p = b'.any p) (t : Text) :
    replaceRuns p (fun _ run after => r run after) b t =
      replaceRuns p (fun _ run after => r run after) b' t := by
  cases t with
  | nil => rfl
  | cons c rest => rw [replaceRuns, replaceRuns, h]

/-- The rest of a run that has been replaced at its start adds nothing. -/
theorem replaceRuns_skip {run : Text} (hrun : ∀ c ∈ run, p c = true) {b : Option Char}
    (hb : b.any p = true) {rest : Text} (hrest : ∀ c ∈ rest.head?, p c ≠ true) :
    replaceRuns p (fun _ run after => r run after) b (run ++ rest) =
      replaceRuns p (fun _ run after => r run after) none rest := by
  induction run generalizing b with
  | nil =>
    cases rest with
    | nil => rfl
    | cons c rest =>
      have hc : ¬ p c = true := hrest c (by simp)
      rw [List.nil_append, replaceRuns, replaceRuns, if_neg hc, if_neg hc]
  | cons c run ih =>
    have hc := hrun c (by simp)
    rw [List.cons_append, replaceRuns, if_pos hc, if_pos hb,
      ih (fun d hd => hrun d (List.mem_cons_of_mem c hd)) (by simpa using hc)]

theorem replaceRuns_word {word : Text} (hword : ∀ c ∈ word, p c = false) {b : Option Char}
    (hb : b.any p = false) (rest : Text) :
    replaceRuns p (fun _ run after => r run after) b (word ++ rest) =
      word ++ replaceRuns p (fun _ run after => r run after) none rest := by
  induction word generalizing b with
  | nil => exact replaceRuns_before (by simpa using hb) rest
  | cons c word ih =>
    have hc := hword c (by simp)
    rw [List.cons_append, replaceRuns, if_neg (by simp [hc]),
      ih (fun d hd => hword d (List.mem_cons_of_mem c hd)) (by simpa using hc), List.cons_append]

/-- A whole run is replaced by what the rule says of it and of the text behind. -/
theorem replaceRuns_run {run : Text} (hne : run ≠ []) (hrun : ∀ c ∈ run, p c = true) {rest : Text}
    (hrest : ∀ c ∈ rest.head?, p c ≠ true) :
    replaceRuns p (fun _ run after => r run after) none (run ++ rest) =
      r run rest ++ replaceRuns p (fun _ run after => r run after) none rest := by
  obtain ⟨c, run, rfl⟩ := List.exists_cons_of_ne_nil hne
  have hc := hrun c (by simp)
  have htail : ∀ d ∈ run, p d = true := fun d hd => hrun d (List.mem_cons_of_mem c hd)
  have htake : rest.takeWhile p = [] := by
    cases rest with
    | nil => rfl
    | cons d rest => rw [List.takeWhile_cons, if_neg (hrest d (by simp))]
  have hdrop : rest.dropWhile p = rest := by
    cases rest with
    | nil => rfl
    | cons d rest => rw [List.dropWhile_cons, if_neg (hrest d (by simp))]
  rw [List.cons_append, replaceRuns, if_pos hc, Option.any_none, if_neg (by simp),
    replaceRuns_skip htail (by simpa using hc) hrest, List.takeWhile_append_of_pos htail,
    List.dropWhile_append_of_pos htail, htake, hdrop, List.append_nil]

end LookAhead

/-! ### Rules without context -/

section ContextFree

variable {r : Text → Text}

/-- A character outside the class separates what is in front of it from what is behind it. -/
theorem replaceRuns_cut {c : Char} (hc : p c = false) (b : Option Char) (s rest : Text) :
    replaceRuns p (fun _ run _ => r run) b (s ++ c :: rest) =
      replaceRuns p (fun _ run _ => r run) b s ++
        c :: replaceRuns p (fun _ run _ => r run) none rest := by
  induction s generalizing b with
  | nil =>
    have hbefore : (some c).any p = (none : Option Char).any p := by simpa using hc
    rw [replaceRuns, List.nil_append, List.nil_append, replaceRuns, if_neg (by simp [hc]),
      replaceRuns_before hbefore]
  | cons d s ih =>
    rw [List.cons_append, replaceRuns, replaceRuns, ih, takeWhile_append_cons hc]
    split
    · split
      · rfl
      · rw [List.append_assoc]
    · rfl

/-- A rule that sees nothing but the run itself is applied to one run after the other. -/
theorem replaceRuns_eq_flatMap (t : Text) :
    replaceRuns p (fun _ run _ => r run) none t =
      (runs p t).flatMap fun run => if run.all p then r run else run := by
  induction t using runs_induction p with
  | nil => rfl
  | run k run rest hne hrun hrest ih =>
    rw [runs_append hne hrun hrest, List.flatMap_cons, ← ih]
    cases k with
    | false =>
      obtain ⟨c, hc⟩ := List.exists_mem_of_ne_nil run hne
      have hall : ¬ run.all p = true := fun h => by
        have := List.all_eq_true.mp h c hc
        rw [hrun c hc] at this
        exact absurd this (by simp)
      rw [if_neg hall, replaceRuns_word hrun rfl]
    | true =>
      rw [if_pos (List.all_eq_true.mpr hrun), replaceRuns_run hne hrun hrest]

end ContextFree

end IoSource.Text
