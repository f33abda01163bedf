import IoSource.Comment
import IoSource.Proofs.Text.Match
import IoSource.Proofs.Text.Runs
import Mathlib.Data.List.Infix

/-!
# Scanning for comments

Where a comment starts and how far it reaches depends on the text behind the place only.
`erase_char` and `erase_comment` say what deleting comments does at the front of a text, and
`scan_induction` is the induction that goes with them: a text is empty, or starts with a character
outside comments, or with a comment.  `findAll_char` and `findAll_comment` list the comments of a
text in the same two steps.

The other facts are those that a cut of a text needs: a comment that is closed before the cut does
not see what stands behind it.
-/

namespace IoSource.Comment

/-! ### Where comments start -/

/-- Whether a character and the one behind it start a comment. -/
def StartsComment (c : Char) (next : Option Char) : Prop :=
  c = '#' ∨ c = '/' ∧ (next = some '/' ∨ next = some '*')

theorem length?_eq_none_iff {c : Char} {rest : Text} :
    length? (c :: rest) = none ↔ ¬ StartsComment c rest.head? := by
  rw [length?.eq_def]
  split
  · next h =>
    obtain ⟨rfl, -⟩ := List.cons.inj h
    simp [StartsComment]
  · next h =>
    obtain ⟨rfl, rfl⟩ := List.cons.inj h
    simp [StartsComment]
  · next h =>
    obtain ⟨rfl, rfl⟩ := List.cons.inj h
    simp [StartsComment]
  · next h1 h2 h3 =>
    simp only [true_iff]
    rintro (rfl | ⟨rfl, h | h⟩)
    · exact h1 _ rfl
    · obtain ⟨d, rfl⟩ := List.head?_eq_some_iff.mp h
      exact h2 _ rfl
    · obtain ⟨d, rfl⟩ := List.head?_eq_some_iff.mp h
      exact h3 _ rfl

/-- No comment marker stands anywhere in the text. -/
def NoMarker (t : Text) : Prop := '#' ∉ t ∧ ¬ ['/', '/'] <:+: t ∧ ¬ ['/', '*'] <:+: t

instance (t : Text) : Decidable (NoMarker t) := inferInstanceAs (Decidable (_ ∧ _ ∧ _))

theorem pair_prefix_cons_iff {a b c : Char} {t : Text} :
    [a, b] <+: c :: t ↔ a = c ∧ t.head? = some b := by
  rw [List.cons_prefix_cons]
  cases t with
  | nil => simp
  | cons d t => simp [List.cons_prefix_cons, eq_comm]

theorem noMarker_cons {c : Char} {t : Text} :
    NoMarker (c :: t) ↔ ¬ StartsComment c t.head? ∧ NoMarker t := by
  simp only [NoMarker, StartsComment, List.mem_cons, List.infix_cons_iff, pair_prefix_cons_iff]
  grind

@[simp] theorem noMarker_nil : NoMarker [] := by simp [NoMarker]

/-! ### How far comments reach -/

theorem blockLength_le (t : Text) : blockLength t ≤ t.length := by
  induction t using blockLength.induct with
  | case1 => exact Nat.le_refl _
  | case2 rest => simp [blockLength]
  | case3 c rest hne ih =>
    rw [blockLength]
    · simpa using ih
    · exact hne

theorem blockLength_append {t : Text} (h : ['*', '/'] <:+: t) (u : Text) :
    blockLength (t ++ u) = blockLength t := by
  induction t using blockLength.induct with
  | case1 => exact absurd h (by simp)
  | case2 rest => rfl
  | case3 c rest hne ih =>
    have htail : ['*', '/'] <:+: rest := by
      rcases List.infix_cons_iff.mp h with hpre | htail
      · obtain ⟨rfl, hhead⟩ := pair_prefix_cons_iff.mp hpre
        obtain ⟨d, rfl⟩ := List.head?_eq_some_iff.mp hhead
        exact absurd rfl (hne d rfl)
      · exact htail
    have hne' : ∀ d, c = '*' → rest ++ u = '/' :: d → False := by
      rintro d rfl hd
      obtain ⟨e, rest, rfl⟩ := List.exists_cons_of_ne_nil (l := rest) (by rintro rfl; simp at htail)
      obtain ⟨rfl, -⟩ := List.cons.inj hd
      exact hne rest rfl rfl
    rw [List.cons_append, blockLength, blockLength, ih htail]
    · exact hne
    · exact hne'

theorem blockLength_white_append {w : Text} (hw : ∀ c ∈ w, isSpace c = true) (t : Text) :
    blockLength (w ++ t) = w.length + blockLength t := by
  induction w with
  | nil => rw [List.nil_append, List.length_nil, Nat.zero_add]
  | cons c w ih =>
    have hstar : ∀ d, c = '*' → w ++ t = '/' :: d → False := by
      rintro d rfl -
      exact absurd (hw '*' (by simp)) (by decide)
    rw [List.cons_append, blockLength, ih fun d hd => hw d (List.mem_cons_of_mem c hd),
      List.length_cons, Nat.add_right_comm]
    exact hstar

theorem blockLength_of_open {t : Text} (h : ¬ ['*', '/'] <:+: t) : blockLength t = t.length := by
  induction t using blockLength.induct with
  | case1 => rfl
  | case2 rest => exact absurd ⟨[], rest, rfl⟩ h
  | case3 c rest hne ih =>
    have htail : ¬ ['*', '/'] <:+: rest := fun htail => h (List.infix_cons_iff.mpr (Or.inr htail))
    rw [blockLength, ih htail, List.length_cons]
    exact hne

theorem length?_le {t : Text} {n : Nat} (h : length? t = some n) : 0 < n ∧ n ≤ t.length := by
  have hline : ∀ rest : Text, (restOfLine rest).length ≤ rest.length :=
    fun rest => (List.takeWhile_prefix _).length_le
  rw [length?.eq_def] at h
  split at h
  · next rest =>
    have := hline rest
    obtain rfl := Option.some.inj h
    simpa using this
  · next rest =>
    have := hline rest
    obtain rfl := Option.some.inj h
    simpa using this
  · next rest =>
    have := blockLength_le rest
    obtain rfl := Option.some.inj h
    simpa using this
  · exact absurd h (by simp)

/-- A comment that takes the rest of the text for want of an end marker. -/
def IsOpenBlock (comment : Text) : Prop :=
  ['/', '*'] <+: comment ∧ ¬ ['*', '/'] <:+: comment.drop 2

instance (comment : Text) : Decidable (IsOpenBlock comment) := by
  unfold IsOpenBlock
  infer_instance

theorem drop_length_restOfLine (t : Text) :
    t.drop (restOfLine t).length = t.dropWhile fun c => !isLineBreak c := by
  have hsplit : restOfLine t ++ t.dropWhile (fun c => !isLineBreak c) = t :=
    List.takeWhile_append_dropWhile
  calc t.drop (restOfLine t).length
      = (restOfLine t ++ t.dropWhile fun c => !isLineBreak c).drop (restOfLine t).length := by
        rw [hsplit]
    _ = t.dropWhile fun c => !isLineBreak c := List.drop_left

theorem restOfLine_append_newline (t u : Text) : restOfLine (t ++ '\n' :: u) = restOfLine t :=
  Text.takeWhile_append_cons (by decide) t u

/-- **A line break ends what is open, except for a block comment.** -/
theorem length?_append_newline {d : Char} {t : Text}
    (hopen : ∀ n, length? (d :: t) = some (n + 1) → ¬ IsOpenBlock (d :: t.take n)) (u : Text) :
    length? (d :: t ++ '\n' :: u) = length? (d :: t) := by
  by_cases hstart : StartsComment d t.head?
  · rcases hstart with rfl | ⟨rfl, hnext | hnext⟩
    · rw [List.cons_append, length?, length?, restOfLine_append_newline]
    · obtain ⟨t, rfl⟩ := List.head?_eq_some_iff.mp hnext
      rw [List.cons_append, List.cons_append, length?, length?, restOfLine_append_newline]
    · obtain ⟨t, rfl⟩ := List.head?_eq_some_iff.mp hnext
      have hclosed : ['*', '/'] <:+: t := by
        by_contra hnot
        refine hopen (t.length + 1) ?_ ⟨⟨t, by simp⟩, by simpa using hnot⟩
        rw [length?, blockLength_of_open hnot]
      rw [List.cons_append, List.cons_append, length?, length?, blockLength_append hclosed]
  · have hhead : ¬ StartsComment d (t ++ '\n' :: u).head? := by
      cases t with
      | nil =>
        rintro (rfl | ⟨rfl, h | h⟩)
        · exact hstart (Or.inl rfl)
        · exact absurd h (by simp)
        · exact absurd h (by simp)
      | cons e t => exact hstart
    rw [List.cons_append, length?_eq_none_iff.mpr hstart, length?_eq_none_iff.mpr hhead]

/-! ### Deleting comments -/

/-- Behind the first `left` characters, which belong to a comment, deleting starts afresh. -/
theorem filterMap_marksFrom (before : Option Char) (place left : Nat) (t : Text) :
    ((t.zip (pattern.marksFrom before place left t)).filterMap fun (c, mark) =>
      if mark.isNone then some c else none) = erase (t.drop left) := by
  induction t generalizing before place left with
  | nil => simp [erase]
  | cons c rest ih =>
    cases left with
    | succ left =>
      rw [Pattern.marksFrom, List.zip_cons_cons, List.filterMap_cons_none (by simp), ih,
        List.drop_succ_cons]
    | zero => rw [List.drop_zero, erase, Pattern.marks, Pattern.marksFrom]; rfl

theorem pattern_ne_some {t : Text} (h : length? t = none) (before : Option Char) (n : Nat) :
    pattern before t ≠ some (n + 1) := by
  intro hn
  rw [pattern, h] at hn
  exact absurd hn (by simp)

/-- A character outside comments stays. -/
theorem erase_char {c : Char} {rest : Text} (h : length? (c :: rest) = none) :
    erase (c :: rest) = c :: erase rest := by
  rw [erase, Pattern.marks, Pattern.marksFrom_skip (pattern_ne_some h none), List.zip_cons_cons,
    List.filterMap_cons_some (b := c) (by simp), filterMap_marksFrom, List.drop_zero]

/-- A comment goes as a whole. -/
theorem erase_comment {t : Text} {n : Nat} (h : length? t = some n) :
    erase t = erase (t.drop n) := by
  obtain ⟨n, rfl⟩ : ∃ k, n = k + 1 := ⟨n - 1, by have := (length?_le h).1; omega⟩
  cases t with
  | nil => exact absurd h (by simp [length?])
  | cons c rest =>
    have htake : pattern none (c :: rest) = some (n + 1) := h
    rw [erase, Pattern.marks, Pattern.marksFrom_take htake, List.zip_cons_cons,
      List.filterMap_cons_none (by simp), filterMap_marksFrom, List.drop_succ_cons]

@[simp] theorem erase_nil : erase [] = [] := rfl

theorem erase_hash (rest : Text) :
    erase ('#' :: rest) = erase (rest.dropWhile fun c => !isLineBreak c) := by
  rw [erase_comment rfl, List.drop_succ_cons, drop_length_restOfLine]

theorem erase_slashes (rest : Text) :
    erase ('/' :: '/' :: rest) = erase (rest.dropWhile fun c => !isLineBreak c) := by
  rw [erase_comment rfl, List.drop_succ_cons, List.drop_succ_cons, drop_length_restOfLine]

theorem erase_block (rest : Text) :
    erase ('/' :: '*' :: rest) = erase (rest.drop (blockLength rest)) := by
  rw [erase_comment rfl, List.drop_succ_cons, List.drop_succ_cons]

theorem not_startsComment_of_isSpace {c : Char} (hc : isSpace c = true) (next : Option Char) :
    ¬ StartsComment c next := by
  rintro (rfl | ⟨rfl, -⟩)
  · exact absurd hc (by decide)
  · exact absurd hc (by decide)

theorem erase_white_append {w : Text} (hw : ∀ c ∈ w, isSpace c = true) (t : Text) :
    erase (w ++ t) = w ++ erase t := by
  induction w with
  | nil => rfl
  | cons c w ih =>
    have hnone : length? (c :: (w ++ t)) = none :=
      length?_eq_none_iff.mpr (not_startsComment_of_isSpace (hw c (by simp)) _)
    rw [List.cons_append, erase_char hnone, ih fun d hd => hw d (List.mem_cons_of_mem c hd),
      List.cons_append]

theorem erase_of_white {w : Text} (hw : ∀ c ∈ w, isSpace c = true) : erase w = w := by
  have h := erase_white_append hw []
  rwa [List.append_nil, erase_nil, List.append_nil] at h

/-- **Induction along the scan for comments.** -/
theorem scan_induction {motive : Text → Prop} (nil : motive [])
    (char : ∀ c rest, length? (c :: rest) = none → motive rest → motive (c :: rest))
    (comment : ∀ t n, length? t = some n → motive (t.drop n) → motive t) (t : Text) :
    motive t := by
  induction hn : t.length using Nat.strong_induction_on generalizing t with
  | _ n ih =>
    cases hlen : length? t with
    | some k =>
      have hk := length?_le hlen
      refine comment t k hlen (ih _ ?_ _ rfl)
      rw [List.length_drop]
      omega
    | none =>
      cases t with
      | nil => exact nil
      | cons c rest => exact char c rest hlen (ih _ (by simp [← hn]) _ rfl)

/-! ### Finding comments -/

/-- Behind the first `left` characters, which belong to a comment, the scan starts afresh. -/
theorem findFrom_eq_findAll (before : Option Char) (start left : Nat) (t : Text) :
    pattern.findFrom before start left t =
      (pattern.findAll (t.drop left)).map (Match.shift (start + left)) := by
  induction t generalizing before start left with
  | nil => simp [Pattern.findFrom, Pattern.findAll]
  | cons c rest ih =>
    cases left with
    | succ left =>
      rw [Pattern.findFrom, ih, List.drop_succ_cons, Nat.add_right_comm, Nat.add_assoc]
    | zero =>
      rw [List.drop_zero, Nat.add_zero, Pattern.findAll, ← Pattern.findFrom_add, Nat.zero_add]
      rfl

theorem findAll_char {c : Char} {rest : Text} (h : length? (c :: rest) = none) :
    pattern.findAll (c :: rest) = (pattern.findAll rest).map (Match.shift 1) := by
  rw [Pattern.findAll, Pattern.findFrom_skip (pattern_ne_some h none), findFrom_eq_findAll,
    List.drop_zero]

theorem findAll_comment {t : Text} {n : Nat} (h : length? t = some n) :
    pattern.findAll t = ⟨0, t.take n⟩ :: (pattern.findAll (t.drop n)).map (Match.shift n) := by
  obtain ⟨n, rfl⟩ : ∃ k, n = k + 1 := ⟨n - 1, by have := (length?_le h).1; omega⟩
  cases t with
  | nil => exact absurd h (by simp [length?])
  | cons c rest =>
    have htake : pattern none (c :: rest) = some (n + 1) := h
    rw [Pattern.findAll, Pattern.findFrom_take htake, findFrom_eq_findAll, List.take_succ_cons,
      List.drop_succ_cons, Nat.zero_add, Nat.add_comm 1 n]

theorem takes_char {c : Char} {rest : Text} (h : length? (c :: rest) = none) {i : Nat} :
    pattern.Takes (c :: rest) (i + 1) ↔ pattern.Takes rest i := by
  rw [Pattern.Takes, Pattern.Takes, findAll_char h]
  simp only [List.mem_map, exists_exists_and_eq_and, Match.covers_shift]

theorem takes_comment {t : Text} {n : Nat} (h : length? t = some n) {i : Nat} :
    pattern.Takes t (i + n) ↔ pattern.Takes (t.drop n) i := by
  have hfirst : ¬ (⟨0, t.take n⟩ : Match).Covers (i + n) := fun hcovers => by
    have hlt := hcovers.2
    simp only [Match.stop, List.length_take] at hlt
    omega
  rw [Pattern.Takes, Pattern.Takes, findAll_comment h, List.exists_mem_cons_iff,
    or_iff_right hfirst]
  simp only [List.mem_map, exists_exists_and_eq_and, Match.covers_shift]

end IoSource.Comment
