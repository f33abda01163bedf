import IoSource.Proofs.Highlight.Precedence
import Mathlib.Data.List.TakeWhile

/-!
# Matches of words and of literals

All categories but one are given by lists.  The matches of a list of words are the maximal runs of
identifier characters that are in the list (`mem_wholeWord_iff`), so two lists never disagree on
where a word starts or ends.  The matches of a list of literals are the longest ones that stand at
their places (`longest_of_mem_longestLiteral`).
-/

namespace IoSource

def WordAt (t : Text) (i : Nat) : Prop := t[i]?.any isWordChar = true

theorem wordAt_iff {t : Text} {i : Nat} :
    WordAt t i ↔ ∃ c, t[i]? = some c ∧ isWordChar c = true := by
  rw [WordAt, Option.any_eq_true]

theorem not_wordAt {t : Text} {i : Nat} {c : Char} (hc : t[i]? = some c)
    (hword : isWordChar c = false) : ¬ WordAt t i := by
  rw [WordAt, hc]
  simpa using hword

/-! ### The word at a place -/

theorem getElem?_word_append (t : Text) (start i : Nat) :
    ((t.drop start).takeWhile isWordChar ++ (t.drop start).dropWhile isWordChar)[i]? =
      t[start + i]? := by
  rw [List.takeWhile_append_dropWhile, List.getElem?_drop]

theorem wordAt_add {t : Text} {start i : Nat}
    (hi : i < ((t.drop start).takeWhile isWordChar).length) : WordAt t (start + i) := by
  have hget := getElem?_word_append t start i
  rw [List.getElem?_append_left hi, List.getElem?_eq_getElem hi] at hget
  exact wordAt_iff.mpr ⟨_, hget.symm, List.mem_takeWhile_imp (List.getElem_mem hi)⟩

theorem not_wordAt_add_length (t : Text) (start : Nat) :
    ¬ WordAt t (start + ((t.drop start).takeWhile isWordChar).length) := by
  have hget := getElem?_word_append t start ((t.drop start).takeWhile isWordChar).length
  rw [List.getElem?_append_right (Nat.le_refl _), Nat.sub_self, ← List.head?_eq_getElem?] at hget
  have hbehind := List.head?_dropWhile_not isWordChar (t.drop start)
  rw [WordAt, ← hget]
  cases hhead : ((t.drop start).dropWhile isWordChar).head? with
  | none => simp
  | some c =>
    rw [hhead] at hbehind
    simpa using hbehind

/-- A maximal run of identifier characters is the word at its start, if none stands in front. -/
theorem isMaximalRun_wordAt_iff {t : Text} {start stop : Nat} :
    IsMaximalRun (WordAt t) start stop ↔
      start < stop ∧ (∀ i, i + 1 = start → ¬ WordAt t i) ∧
        stop = start + ((t.drop start).takeWhile isWordChar).length := by
  constructor
  · intro h
    refine ⟨h.nonempty, h.front, ?_⟩
    have hlt := h.nonempty
    rcases Nat.lt_trichotomy stop
      (start + ((t.drop start).takeWhile isWordChar).length) with hshort | heq | hlong
    · have hinside : WordAt t (start + (stop - start)) := wordAt_add (by omega)
      rw [Nat.add_sub_cancel' (Nat.le_of_lt hlt)] at hinside
      exact absurd hinside h.behind
    · exact heq
    · exact absurd (h.inside _ (Nat.le_add_right _ _) hlong) (not_wordAt_add_length t start)
  · rintro ⟨hlt, hfront, rfl⟩
    refine ⟨hlt, fun i hi hstop => ?_, hfront, not_wordAt_add_length t start⟩
    obtain ⟨k, rfl⟩ := Nat.exists_eq_add_of_le hi
    exact wordAt_add (Nat.lt_of_add_lt_add_left hstop)

theorem IsMaximalRun.takeWhile_eq {t : Text} {start stop : Nat}
    (h : IsMaximalRun (WordAt t) start stop) :
    (t.drop start).takeWhile isWordChar = (t.drop start).take (stop - start) := by
  obtain ⟨-, -, hstop⟩ := isMaximalRun_wordAt_iff.mp h
  rw [hstop, Nat.add_sub_cancel_left]
  exact List.prefix_iff_eq_take.mp (List.takeWhile_prefix _)

namespace Category

/-! ### Matches of words -/

theorem wholeWord_eq_some_iff {words : List Text} {before : Option Char} {rest : Text} {n : Nat} :
    wholeWord words before rest = some n ↔
      before.any isWordChar = false ∧ rest.takeWhile isWordChar ∈ words ∧
        n = (rest.takeWhile isWordChar).length := by
  unfold wholeWord
  cases before.any isWordChar with
  | true => simp
  | false => simp [eq_comm]

theorem length_le_of_wholeWord {words : List Text} {before : Option Char} {t : Text} {n : Nat}
    (h : wholeWord words before t = some n) : n ≤ t.length := by
  obtain ⟨-, -, rfl⟩ := wholeWord_eq_some_iff.mp h
  exact (List.takeWhile_prefix _).length_le

theorem any_before_eq_false_iff {t : Text} {start : Nat} :
    Option.any isWordChar (if start = 0 then none else t[start - 1]?) = false ↔
      ∀ i, i + 1 = start → ¬ WordAt t i := by
  cases start with
  | zero => simp
  | succ i =>
    rw [if_neg (Nat.succ_ne_zero i), Nat.add_sub_cancel]
    constructor
    · rintro h j hj hword
      obtain rfl : j = i := Nat.succ.inj hj
      rw [WordAt, h] at hword
      exact absurd hword (by decide)
    · exact fun h => eq_false_of_ne_true (h i rfl)

theorem isMaximalRun_of_mem_wholeWord {words : List Text} {t : Text} {m : Match}
    (hm : m ∈ (wholeWord words).findAll t) :
    IsMaximalRun (WordAt t) m.start m.stop ∧ m.text ∈ words := by
  obtain ⟨n, hn, htext⟩ := Pattern.exists_lengthAt?_of_mem hm
  obtain ⟨hfront, hmem, rfl⟩ := wholeWord_eq_some_iff.mp hn
  have hpos := (Pattern.bounds_of_mem_findFrom hm).2.1
  have hprefix := List.takeWhile_prefix (l := t.drop m.start) isWordChar
  rw [← List.prefix_iff_eq_take.mp hprefix] at htext
  refine ⟨isMaximalRun_wordAt_iff.mpr ⟨?_, any_before_eq_false_iff.mp hfront, ?_⟩, ?_⟩
  · rw [Match.stop]
    omega
  · rw [Match.stop, htext]
  · rwa [htext]

/-- **The matches of a list of words** are the maximal runs of identifier characters that are in
it. -/
theorem mem_wholeWord_iff {words : List Text} {t : Text} {m : Match} :
    m ∈ (wholeWord words).findAll t ↔
      IsMaximalRun (WordAt t) m.start m.stop ∧
        m.text = (t.drop m.start).take (m.stop - m.start) ∧ m.text ∈ words := by
  constructor
  · intro hm
    obtain ⟨hrun, hmem⟩ := isMaximalRun_of_mem_wholeWord hm
    have htext := Pattern.text_of_mem_findFrom hm
    rw [Nat.sub_zero] at htext
    refine ⟨hrun, ?_, hmem⟩
    rw [Match.stop, Nat.add_sub_cancel_left]
    exact htext
  · rintro ⟨hrun, htext, hmem⟩
    obtain ⟨hlt, hfront, hstop⟩ := isMaximalRun_wordAt_iff.mp hrun
    have hword : (t.drop m.start).takeWhile isWordChar = m.text := by
      rw [hrun.takeWhile_eq, ← htext]
    have hlength : (wholeWord words).lengthAt? t m.start = some (m.text.length - 1 + 1) := by
      refine wholeWord_eq_some_iff.mpr ⟨any_before_eq_false_iff.mpr hfront, ?_, ?_⟩
      · rwa [hword]
      · rw [Match.stop] at hlt
        rw [hword]
        omega
    have hstart : m.start < t.length := by
      obtain ⟨c, hc, -⟩ := wordAt_iff.mp (hrun.inside m.start (Nat.le_refl _) hlt)
      exact (List.getElem?_eq_some_iff.mp hc).1
    obtain ⟨m', hm', hcovers, htext'⟩ := Pattern.exists_covers_of_lengthAt? hlength hstart
    -- the match that stands there is a maximal run too, so it is the same
    have hrun' := (isMaximalRun_of_mem_wholeWord hm').1
    obtain ⟨hstart', -⟩ := hrun'.unique hrun hcovers ⟨Nat.le_refl _, hlt⟩
    have hsame : m'.text = m.text := by
      have hsub : m.stop - m.start = m.text.length := by
        rw [Match.stop, Nat.add_sub_cancel_left]
      rw [hsub] at htext
      rw [Match.stop] at hlt
      rw [htext' hstart', Nat.sub_add_cancel (by omega), ← htext]
    obtain ⟨start', text'⟩ := m'
    obtain ⟨start, text⟩ := m
    obtain rfl : start' = start := hstart'
    obtain rfl : text' = text := hsame
    exact hm'

/-! ### Matches of literals -/

theorem longestLiteral_eq_some_iff {literals : List Text} (before : Option Char) {rest : Text}
    {n : Nat} :
    longestLiteral literals before rest = some n ↔
      (∃ w ∈ literals, w <+: rest ∧ w.length = n) ∧
        ∀ w ∈ literals, w <+: rest → w.length ≤ n := by
  rw [longestLiteral, List.max?_eq_some_iff]
  simp only [List.mem_map, List.mem_filter, List.isPrefixOf_iff_prefix, and_assoc]
  refine and_congr_right fun _ => ⟨fun h w hw hprefix => h _ ⟨w, hw, hprefix, rfl⟩, ?_⟩
  rintro h _ ⟨w, hw, hprefix, rfl⟩
  exact h w hw hprefix

theorem length_le_of_longestLiteral {literals : List Text} {before : Option Char} {t : Text}
    {n : Nat} (h : longestLiteral literals before t = some n) : n ≤ t.length := by
  obtain ⟨⟨w, -, hprefix, rfl⟩, -⟩ := (longestLiteral_eq_some_iff none).mp h
  exact hprefix.length_le

/-- **A match of a list of literals** is the longest of them that stands at its place. -/
theorem longest_of_mem_longestLiteral {literals : List Text} {t : Text} {m : Match}
    (hm : m ∈ (longestLiteral literals).findAll t) :
    m.text ∈ literals ∧ m.text <+: t.drop m.start ∧
      ∀ w ∈ literals, w <+: t.drop m.start → w.length ≤ m.text.length := by
  obtain ⟨n, hn, htext⟩ := Pattern.exists_lengthAt?_of_mem hm
  obtain ⟨⟨w, hw, hprefix, rfl⟩, hlongest⟩ := (longestLiteral_eq_some_iff none).mp hn
  rw [← List.prefix_iff_eq_take.mp hprefix] at htext
  rw [htext]
  exact ⟨hw, hprefix, hlongest⟩

/-- Where a literal stands, a match does: the longest one there, or one that has started before. -/
theorem exists_covers_of_prefix {literals : List Text} {t : Text} {w : Text} {i : Nat}
    (hw : w ∈ literals) (hne : w ≠ []) (hstands : w <+: t.drop i) :
    ∃ m ∈ (longestLiteral literals).findAll t, m.Covers i := by
  have hpos := List.length_pos_iff.mpr hne
  have hlt : i < t.length := by
    have hle := hstands.length_le
    rw [List.length_drop] at hle
    omega
  obtain ⟨n, hn⟩ : ∃ n, (longestLiteral literals).lengthAt? t i = some n := by
    cases h : (longestLiteral literals).lengthAt? t i with
    | some n => exact ⟨n, rfl⟩
    | none =>
      have hnone : (literals.filter (·.isPrefixOf (t.drop i))).map List.length = [] :=
        List.max?_eq_none_iff.mp h
      rw [List.map_eq_nil_iff, List.filter_eq_nil_iff] at hnone
      exact absurd (List.isPrefixOf_iff_prefix.mpr hstands) (hnone w hw)
  have hle := ((longestLiteral_eq_some_iff none).mp hn).2 w hw hstands
  obtain ⟨n, rfl⟩ : ∃ k, n = k + 1 := ⟨n - 1, by omega⟩
  obtain ⟨m, hm, hcovers, -⟩ := Pattern.exists_covers_of_lengthAt? hn hlt
  exact ⟨m, hm, hcovers⟩

/-! ### The lists -/

def ListsWords (c : Category) : Prop := c ≠ comment ∧ c ≠ operator

theorem pattern_of_listsWords {c : Category} (hc : c.ListsWords) :
    c.pattern = wholeWord c.literals := by
  cases c with
  | comment => exact absurd rfl hc.1
  | operator => exact absurd rfl hc.2
  | _ => rfl

/-- The only category in whose list a text can stand.  Operators hold no identifier characters, the
names of prototypes start with a capital letter, and those of builtin messages do not. -/
def candidate (w : Text) : Category :=
  if w = ['s', 'e', 'l', 'f'] then selfReference
  else if w ∈ [['t', 'r', 'u', 'e'], ['f', 'a', 'l', 's', 'e'], ['n', 'i', 'l']] then boolean
  else if w.head?.any Char.isUpper then prototype
  else if w.all isWordChar then builtinMessage
  else operator

/-- Strings and their characters.  A string literal is `String.ofList` of its characters at once,
while it takes long to evaluate `String.toList`. -/
def Spells (words : List String) (literals : List Text) : Prop :=
  List.Forall₂ (fun s w => s = String.ofList w) words literals

theorem literals_eq_of_spells {c : Category} {literals : List Text}
    (h : Spells c.words literals) : c.literals = literals := by
  rw [Category.literals]
  generalize c.words = words at h
  induction h with
  | nil => rfl
  | cons hs _ ih => rw [List.map_cons, ih, hs, String.toList_ofList]

theorem literals_operator : operator.literals = [
    [':', ':', '='], [':', '='], ['='], ['=', '='], ['!', '='], ['<', '='], ['>', '='], ['<'],
    ['>'], ['+'], ['-'], ['*'], ['/'], ['%'], ['^'], ['*', '*'], ['+', '='], ['-', '='],
    ['*', '='], ['/', '='], ['&', '&'], ['|', '|'], ['!'], ['<', '<'], ['>', '>'], ['&'], ['|'],
    ['.', '.'], ['?'], ['@'], ['@', '@']] := by
  refine literals_eq_of_spells ?_
  repeat' first | exact List.Forall₂.nil | apply List.Forall₂.cons | rfl

theorem exists_literals (c : Category) : ∃ literals, Spells c.words literals ∧
    ∀ w ∈ literals, candidate w = c ∧ w ≠ [] ∧ (w.all fun d => isWordChar d == (c != operator)) ∧
      Comment.isWhole w = false := by
  cases c
  all_goals
    apply Exists.intro
    apply And.intro
    · repeat' first | exact List.Forall₂.nil | apply List.Forall₂.cons | rfl
    · decide +kernel

/-- **What the literals of a list look like.** -/
theorem shape_of_mem_literals {c : Category} {w : Text} (hw : w ∈ c.literals) :
    candidate w = c ∧ w ≠ [] ∧ (∀ d ∈ w, isWordChar d = (c != operator)) ∧
      Comment.isWhole w = false := by
  obtain ⟨literals, hspells, hall⟩ := exists_literals c
  rw [literals_eq_of_spells hspells] at hw
  obtain ⟨hcandidate, hne, hchars, hwhole⟩ := hall w hw
  exact ⟨hcandidate, hne, by simpa using hchars, hwhole⟩

theorem eq_of_mem_literals {c d : Category} {w : Text} (hc : w ∈ c.literals)
    (hd : w ∈ d.literals) : c = d :=
  (shape_of_mem_literals hc).1.symm.trans (shape_of_mem_literals hd).1

theorem isWordChar_of_mem_literals {c : Category} (hc : c.ListsWords) {w : Text}
    (hw : w ∈ c.literals) : ∀ d ∈ w, isWordChar d = true := by
  intro d hd
  rw [(shape_of_mem_literals hw).2.2.1 d hd]
  simpa using hc.2

theorem not_isWordChar_of_mem_operator {w : Text} (hw : w ∈ operator.literals) :
    ∀ d ∈ w, isWordChar d = false :=
  (shape_of_mem_literals hw).2.2.1

end Category

end IoSource
