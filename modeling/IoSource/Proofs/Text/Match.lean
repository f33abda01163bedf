import IoSource.Text.Pattern
import Mathlib.Data.List.Basic

/-!
# The matches of a pattern

`Pattern.findAll` lists the leftmost non-overlapping matches of a pattern, each with its offset and
its text, and `Pattern.marks` gives the same scan as one mark for each character.
`getElem?_marks` is the bridge between them: a character carries the mark `k` just when it is the
one at place `k` of a match.

The scan reads a text from left to right and remembers nothing but the character before and what is
left of the current match.  So it can be cut at a character where no match begins or goes on
(`marksFrom_append_cons`).
-/

namespace IoSource

theorem eq_of_apart {α : Type} {start stop : α → Nat} {l : List α}
    (h : l.Pairwise fun a b => stop a ≤ start b) {a b : α} (ha : a ∈ l) (hb : b ∈ l) {i : Nat}
    (hai : start a ≤ i ∧ i < stop a) (hbi : start b ≤ i ∧ i < stop b) : a = b := by
  induction l with
  | nil => exact absurd ha (by simp)
  | cons c l ih =>
    obtain ⟨hc, hl⟩ := List.pairwise_cons.mp h
    rcases List.mem_cons.mp ha with rfl | ha'
    · rcases List.mem_cons.mp hb with rfl | hb'
      · rfl
      · have := hc b hb'
        omega
    · rcases List.mem_cons.mp hb with rfl | hb'
      · have := hc a ha'
        omega
      · exact ih hl ha' hb'

/-- A match: the offset where it starts and the characters it takes. -/
structure Match where
  start : Nat
  text : Text
  deriving DecidableEq, Repr

namespace Match

def stop (m : Match) : Nat := m.start + m.text.length

def Covers (m : Match) (i : Nat) : Prop := m.start ≤ i ∧ i < m.stop

theorem covers_iff {m : Match} {i : Nat} :
    m.Covers i ↔ ∃ k, m.start + k = i ∧ k < m.text.length := by
  constructor
  · rintro ⟨h1, h2⟩
    exact ⟨i - m.start, by omega, by rw [stop] at h2; omega⟩
  · rintro ⟨k, rfl, hk⟩
    exact ⟨Nat.le_add_right _ _, by rw [stop]; omega⟩

instance (m : Match) (i : Nat) : Decidable (m.Covers i) := by
  unfold Covers
  infer_instance

def shift (k : Nat) (m : Match) : Match := { m with start := m.start + k }

@[simp] theorem start_shift (k : Nat) (m : Match) : (m.shift k).start = m.start + k := rfl

@[simp] theorem text_shift (k : Nat) (m : Match) : (m.shift k).text = m.text := rfl

@[simp] theorem stop_shift (k : Nat) (m : Match) : (m.shift k).stop = m.stop + k := by
  rw [stop, stop, start_shift, text_shift, Nat.add_right_comm]

theorem covers_shift {k i : Nat} {m : Match} : (m.shift k).Covers (i + k) ↔ m.Covers i := by
  rw [Covers, Covers, start_shift, stop_shift, Nat.add_le_add_iff_right, Nat.add_lt_add_iff_right]

end Match

namespace Pattern

/-- The matches in a text that starts at the offset `start` and whose first `left` characters belong
to a match that has been listed. -/
def findFrom (p : Pattern) : (before : Option Char) → (start left : Nat) → Text → List Match
  | _, _, _, [] => []
  | _, start, left + 1, c :: rest => findFrom p (some c) (start + 1) left rest
  | before, start, 0, c :: rest =>
    match p before (c :: rest) with
    | some (n + 1) => ⟨start, c :: rest.take n⟩ :: findFrom p (some c) (start + 1) n rest
    | _ => findFrom p (some c) (start + 1) 0 rest

def findAll (p : Pattern) (t : Text) : List Match := p.findFrom none 0 0 t

variable {p : Pattern} {before : Option Char} {start place left : Nat} {t : Text}

theorem findFrom_take {c : Char} {rest : Text} {n : Nat}
    (h : p before (c :: rest) = some (n + 1)) (start : Nat) :
    p.findFrom before start 0 (c :: rest) =
      ⟨start, c :: rest.take n⟩ :: p.findFrom (some c) (start + 1) n rest := by
  rw [findFrom, h]

theorem findFrom_skip {c : Char} {rest : Text} (h : ∀ n, p before (c :: rest) ≠ some (n + 1))
    (start : Nat) :
    p.findFrom before start 0 (c :: rest) = p.findFrom (some c) (start + 1) 0 rest := by
  rw [findFrom]
  split
  · next n hn => exact absurd hn (h n)
  · rfl

theorem marksFrom_take {c : Char} {rest : Text} {n : Nat}
    (h : p before (c :: rest) = some (n + 1)) :
    p.marksFrom before place 0 (c :: rest) = some 0 :: p.marksFrom (some c) 1 n rest := by
  rw [marksFrom, h]

theorem marksFrom_skip {c : Char} {rest : Text} (h : ∀ n, p before (c :: rest) ≠ some (n + 1)) :
    p.marksFrom before place 0 (c :: rest) = none :: p.marksFrom (some c) 0 0 rest := by
  rw [marksFrom]
  split
  · next n hn => exact absurd hn (h n)
  · rfl

theorem exists_length_or_not (p : Pattern) (before : Option Char) (t : Text) :
    (∃ n, p before t = some (n + 1)) ∨ ∀ n, p before t ≠ some (n + 1) := by
  by_cases h : ∃ n, p before t = some (n + 1)
  · exact Or.inl h
  · exact Or.inr (not_exists.mp h)

/-! ### Where matches stand -/

theorem bounds_of_mem_findFrom {m : Match} (hm : m ∈ p.findFrom before start left t) :
    start + left ≤ m.start ∧ 0 < m.text.length ∧ m.stop ≤ start + t.length := by
  induction t generalizing before start left with
  | nil => exact absurd hm (by simp [findFrom])
  | cons c rest ih =>
    rw [List.length_cons]
    cases left with
    | succ left =>
      have h := ih hm
      exact ⟨by omega, h.2.1, by omega⟩
    | zero =>
      rcases exists_length_or_not p before (c :: rest) with ⟨n, hn⟩ | hn
      · rw [findFrom_take hn] at hm
        rcases List.mem_cons.mp hm with rfl | hm
        · refine ⟨Nat.le_refl _, by simp, ?_⟩
          simp only [Match.stop, List.length_cons, List.length_take]
          omega
        · have h := ih hm
          exact ⟨by omega, h.2.1, by omega⟩
      · rw [findFrom_skip hn] at hm
        have h := ih hm
        exact ⟨by omega, h.2.1, by omega⟩

/-- **Matches stand in order and apart.** -/
theorem pairwise_findFrom (p : Pattern) (before : Option Char) (start left : Nat) (t : Text) :
    (p.findFrom before start left t).Pairwise fun m m' => m.stop ≤ m'.start := by
  induction t generalizing before start left with
  | nil => exact List.Pairwise.nil
  | cons c rest ih =>
    cases left with
    | succ left => exact ih _ _ _
    | zero =>
      rcases exists_length_or_not p before (c :: rest) with ⟨n, hn⟩ | hn
      · rw [findFrom_take hn]
        refine List.pairwise_cons.mpr ⟨fun m hm => ?_, ih _ _ _⟩
        have h := (bounds_of_mem_findFrom hm).1
        simp only [Match.stop, List.length_cons, List.length_take]
        omega
      · rw [findFrom_skip hn]
        exact ih _ _ _

theorem text_of_mem_findFrom {m : Match} (hm : m ∈ p.findFrom before start left t) :
    m.text = (t.drop (m.start - start)).take m.text.length := by
  induction t generalizing before start left with
  | nil => exact absurd hm (by simp [findFrom])
  | cons c rest ih =>
    have hlater : ∀ {left' : Nat}, m ∈ p.findFrom (some c) (start + 1) left' rest →
        m.text = ((c :: rest).drop (m.start - start)).take m.text.length := by
      intro left' hm
      have hstart := (bounds_of_mem_findFrom hm).1
      have hdrop : m.start - start = (m.start - (start + 1)) + 1 := by omega
      rw [hdrop, List.drop_succ_cons]
      exact ih hm
    cases left with
    | succ left => exact hlater hm
    | zero =>
      rcases exists_length_or_not p before (c :: rest) with ⟨n, hn⟩ | hn
      · rw [findFrom_take hn] at hm
        rcases List.mem_cons.mp hm with rfl | hm
        · simp
        · exact hlater hm
      · rw [findFrom_skip hn] at hm
        exact hlater hm

/-- Matches move with the text. -/
theorem findFrom_add (p : Pattern) (before : Option Char) (start left k : Nat) (t : Text) :
    p.findFrom before (start + k) left t =
      (p.findFrom before start left t).map (Match.shift k) := by
  induction t generalizing before start left with
  | nil => rfl
  | cons c rest ih =>
    have hnext : start + k + 1 = start + 1 + k := by omega
    cases left with
    | succ left => rw [findFrom, findFrom, hnext, ih]
    | zero =>
      rcases exists_length_or_not p before (c :: rest) with ⟨n, hn⟩ | hn
      · rw [findFrom_take hn, findFrom_take hn, hnext, ih, List.map_cons]
        rfl
      · rw [findFrom_skip hn, findFrom_skip hn, hnext, ih]

/-! ### Marks and matches -/

/-- The mark of a character, in a scan that starts inside a match or outside: its place in that
match, or in one that starts later. -/
theorem getElem?_marksFrom (start i k : Nat) :
    (p.marksFrom before place left t)[i]? = some (some k) ↔
      (i < left ∧ i < t.length ∧ k = place + i) ∨
        ∃ m ∈ p.findFrom before start left t, m.start + k = start + i ∧ k < m.text.length := by
  induction t generalizing before start place left i with
  | nil => simp [marksFrom, findFrom]
  | cons c rest ih =>
    -- a match of the rest starts behind `c`
    have hhead : ∀ {left' k' : Nat}, ¬ ∃ m ∈ p.findFrom (some c) (start + 1) left' rest,
        m.start + k' = start + 0 ∧ k' < m.text.length := by
      rintro left' k' ⟨m, hm, h, -⟩
      have := (bounds_of_mem_findFrom hm).1
      omega
    have hlength : ∀ i' : Nat, i' + 1 < (c :: rest).length ↔ i' < rest.length :=
      fun i' => by rw [List.length_cons]; omega
    have hoffset : ∀ i' : Nat, start + (i' + 1) = start + 1 + i' := fun i' => by omega
    cases left with
    | succ left =>
      rw [marksFrom, findFrom]
      cases i with
      | zero =>
        rw [List.getElem?_cons_zero, or_iff_left hhead]
        simp [eq_comm]
      | succ i =>
        have hplace : place + (i + 1) = place + 1 + i := by omega
        rw [List.getElem?_cons_succ, ih (start + 1), hlength, hoffset i, hplace,
          Nat.add_lt_add_iff_right]
    | zero =>
      rcases exists_length_or_not p before (c :: rest) with ⟨n, hn⟩ | hn
      · rw [marksFrom_take hn, findFrom_take hn, List.exists_mem_cons_iff]
        cases i with
        | zero =>
          rw [List.getElem?_cons_zero, or_iff_left hhead]
          simp only [List.length_cons, List.length_take]
          grind
        | succ i =>
          have hfirst : start + k = start + 1 + i ∧ k < (c :: rest.take n).length ↔
              i < n ∧ i < rest.length ∧ k = 1 + i := by
            simp only [List.length_cons, List.length_take]
            omega
          rw [List.getElem?_cons_succ, ih (start + 1), hoffset i, hfirst]
          simp
      · rw [marksFrom_skip hn, findFrom_skip hn]
        cases i with
        | zero =>
          rw [List.getElem?_cons_zero, or_iff_left hhead]
          simp
        | succ i =>
          rw [List.getElem?_cons_succ, ih (start + 1), hoffset i]
          simp

/-- **A mark is a place in a match.** -/
theorem getElem?_marks (p : Pattern) (t : Text) (i k : Nat) :
    (p.marks t)[i]? = some (some k) ↔
      ∃ m ∈ p.findAll t, m.start + k = i ∧ k < m.text.length := by
  rw [marks, getElem?_marksFrom 0, findAll]
  simp

/-- Whether some match takes the character at an offset. -/
def Takes (p : Pattern) (t : Text) (i : Nat) : Prop := ∃ m ∈ p.findAll t, m.Covers i

theorem takes_iff {i : Nat} : p.Takes t i ↔ ∃ k, (p.marks t)[i]? = some (some k) := by
  constructor
  · rintro ⟨m, hm, hi⟩
    obtain ⟨k, hk⟩ := Match.covers_iff.mp hi
    exact ⟨k, (getElem?_marks p t i k).mpr ⟨m, hm, hk⟩⟩
  · rintro ⟨k, hk⟩
    obtain ⟨m, hm, h⟩ := (getElem?_marks p t i k).mp hk
    exact ⟨m, hm, Match.covers_iff.mpr ⟨k, h⟩⟩

instance (p : Pattern) (t : Text) (i : Nat) : Decidable (p.Takes t i) := by
  unfold Takes
  infer_instance

theorem getElem?_marks_eq_none {i : Nat} (hi : i < t.length) :
    (p.marks t)[i]? = some none ↔ ¬ p.Takes t i := by
  obtain ⟨mark, hmark⟩ : ∃ mark, (p.marks t)[i]? = some mark :=
    ⟨_, List.getElem?_eq_getElem (by simpa using hi)⟩
  rw [takes_iff, hmark]
  cases mark with
  | none => simp
  | some k => simp

theorem eq_of_covers {m m' : Match} (hm : m ∈ p.findAll t) (hm' : m' ∈ p.findAll t) {i : Nat}
    (hi : m.Covers i) (hi' : m'.Covers i) : m = m' :=
  eq_of_apart (pairwise_findFrom p none 0 0 t) hm hm' hi hi'

/-! ### The places of a text at which a pattern matches -/

/-- The length of the match that a pattern has at a place of a text with a character in front. -/
def lengthFrom? (p : Pattern) (before : Option Char) (t : Text) (i : Nat) : Option Nat :=
  p (if i = 0 then before else t[i - 1]?) (t.drop i)

def lengthAt? (p : Pattern) (t : Text) (i : Nat) : Option Nat := p.lengthFrom? none t i

theorem lengthFrom?_zero : p.lengthFrom? before t 0 = p before t := rfl

theorem lengthFrom?_succ (c : Char) (rest : Text) (i : Nat) :
    p.lengthFrom? before (c :: rest) (i + 1) = p.lengthFrom? (some c) rest i := by
  cases i with
  | zero => rfl
  | succ i => rfl

theorem exists_lengthFrom?_of_mem {m : Match} (hm : m ∈ p.findFrom before start left t) :
    ∃ n, p.lengthFrom? before t (m.start - start) = some n ∧
      m.text = (t.drop (m.start - start)).take n := by
  induction t generalizing before start left with
  | nil => exact absurd hm (by simp [findFrom])
  | cons c rest ih =>
    have hlater : ∀ {left' : Nat}, m ∈ p.findFrom (some c) (start + 1) left' rest →
        ∃ n, p.lengthFrom? before (c :: rest) (m.start - start) = some n ∧
          m.text = ((c :: rest).drop (m.start - start)).take n := by
      intro left' hm
      have hstart := (bounds_of_mem_findFrom hm).1
      have hdrop : m.start - start = (m.start - (start + 1)) + 1 := by omega
      rw [hdrop, lengthFrom?_succ, List.drop_succ_cons]
      exact ih hm
    cases left with
    | succ left => exact hlater hm
    | zero =>
      rcases exists_length_or_not p before (c :: rest) with ⟨n, hn⟩ | hn
      · rw [findFrom_take hn] at hm
        rcases List.mem_cons.mp hm with rfl | hm
        · refine ⟨n + 1, ?_, ?_⟩
          · simpa [lengthFrom?_zero] using hn
          · simp
        · exact hlater hm
      · rw [findFrom_skip hn] at hm
        exact hlater hm

theorem exists_lengthAt?_of_mem {m : Match} (hm : m ∈ p.findAll t) :
    ∃ n, p.lengthAt? t m.start = some n ∧ m.text = (t.drop m.start).take n :=
  exists_lengthFrom?_of_mem hm

/-- A character at which the pattern matches belongs to what is left of the current match, or to a
listed one. -/
theorem covers_of_lengthFrom? {i n : Nat} (h : p.lengthFrom? before t i = some (n + 1))
    (hi : i < t.length) :
    i < left ∨ ∃ m ∈ p.findFrom before start left t, m.Covers (start + i) := by
  induction t generalizing before start left i with
  | nil => exact absurd hi (by simp)
  | cons c rest ih =>
    -- behind `c` the scan goes on with some `left'`
    have hlater : ∀ {i' : Nat} (left' : Nat), i = i' + 1 →
        i' < left' ∨ ∃ m ∈ p.findFrom (some c) (start + 1) left' rest, m.Covers (start + i) := by
      rintro i' left' rfl
      rw [lengthFrom?_succ] at h
      rw [Nat.add_comm i' 1, ← Nat.add_assoc]
      exact ih h (by simpa using hi)
    cases left with
    | succ left =>
      rw [findFrom]
      cases i with
      | zero => exact Or.inl (Nat.succ_pos left)
      | succ i => exact (hlater left rfl).imp Nat.succ_lt_succ id
    | zero =>
      refine Or.inr ?_
      rcases exists_length_or_not p before (c :: rest) with ⟨k, hk⟩ | hk
      · rw [findFrom_take hk]
        have hfirst : ∀ i', i' ≤ k → i' < (c :: rest).length →
            (⟨start, c :: rest.take k⟩ : Match).Covers (start + i') := by
          intro i' hle hlt
          refine ⟨Nat.le_add_right _ _, ?_⟩
          simp only [Match.stop, List.length_cons, List.length_take] at hlt ⊢
          omega
        cases i with
        | zero => exact ⟨_, List.mem_cons_self .., hfirst 0 (Nat.zero_le k) hi⟩
        | succ i =>
          rcases hlater k rfl with hleft | ⟨m, hm, hcovers⟩
          · exact ⟨_, List.mem_cons_self .., hfirst (i + 1) hleft hi⟩
          · exact ⟨m, List.mem_cons_of_mem _ hm, hcovers⟩
      · rw [findFrom_skip hk]
        cases i with
        | zero => exact absurd h (hk n)
        | succ i => exact (hlater 0 rfl).resolve_left (Nat.not_lt_zero i)

/-- **Where a pattern matches, a listed match stands**: the one that starts there, or one that has
started before. -/
theorem exists_covers_of_lengthAt? {i n : Nat} (h : p.lengthAt? t i = some (n + 1))
    (hi : i < t.length) :
    ∃ m ∈ p.findAll t, m.Covers i ∧ (m.start = i → m.text = (t.drop i).take (n + 1)) := by
  have hfound : i < 0 ∨ ∃ m ∈ p.findAll t, m.Covers (0 + i) := covers_of_lengthFrom? h hi
  rw [Nat.zero_add] at hfound
  obtain ⟨m, hm, hcovers⟩ := hfound.resolve_left (Nat.not_lt_zero i)
  refine ⟨m, hm, hcovers, ?_⟩
  rintro rfl
  obtain ⟨k, hk, htext⟩ := exists_lengthAt?_of_mem hm
  rw [h] at hk
  rw [htext, Option.some.inj hk]

/-! ### Cutting a scan -/

theorem marksFrom_before {b b' : Option Char} (h : p b = p b') (place : Nat) (t : Text) :
    p.marksFrom b place 0 t = p.marksFrom b' place 0 t := by
  cases t with
  | nil => rfl
  | cons c rest => rw [marksFrom, marksFrom, h]

/-- **A scan splits at a character** at which nothing matches, behind which the pattern starts
afresh, and up to which matches do not depend on what follows.  The last may fail for some matches
that reach up to the character: `Open` says which, and there must be none of them. -/
theorem marksFrom_append_cons {c : Char} {u : Text} (Open : Text → Prop)
    (hstop : ∀ before n, p before (c :: u) ≠ some (n + 1)) (hfresh : p (some c) = p none)
    (hlength : ∀ before t n, p before t = some n → n ≤ t.length)
    (hstable : ∀ before d t, (∀ n, p before (d :: t) = some (n + 1) → ¬ Open (d :: t.take n)) →
      p before (d :: t ++ c :: u) = p before (d :: t))
    (hleft : left ≤ t.length) (hopen : ∀ m ∈ p.findFrom before start left t, ¬ Open m.text) :
    p.marksFrom before place left (t ++ c :: u) =
      p.marksFrom before place left t ++ none :: p.marks u := by
  induction t generalizing before start place left with
  | nil =>
    obtain rfl : left = 0 := by simpa using hleft
    rw [List.nil_append, marksFrom_skip (hstop before), marksFrom_before hfresh]
    rfl
  | cons d t ih =>
    cases left with
    | succ left =>
      rw [List.cons_append, marksFrom, marksFrom, List.cons_append,
        ih (by simpa using hleft) hopen]
    | zero =>
      rcases exists_length_or_not p before (d :: t) with ⟨n, hn⟩ | hn
      · rw [findFrom_take hn] at hopen
        have hsame := hstable before d t fun n' hn' => by
          obtain rfl : n = n' := by rw [hn] at hn'; simpa using hn'
          exact hopen _ (List.mem_cons_self ..)
        have hn' : p before (d :: (t ++ c :: u)) = some (n + 1) := hsame.trans hn
        rw [List.cons_append, marksFrom_take hn', marksFrom_take hn, List.cons_append,
          ih (by simpa using hlength _ _ _ hn) fun m hm => hopen m (List.mem_cons_of_mem _ hm)]
      · rw [findFrom_skip hn] at hopen
        have hsame := hstable before d t fun n' hn' => absurd hn' (hn n')
        have hn' : ∀ n, p before (d :: (t ++ c :: u)) ≠ some (n + 1) := fun n h =>
          hn n (hsame.symm.trans h)
        rw [List.cons_append, marksFrom_skip hn', marksFrom_skip hn, List.cons_append,
          ih (Nat.zero_le _) hopen]

/-- A pattern that never looks across a character is cut there in any text. -/
theorem marks_append_cons {p : Pattern} {c : Char} (hfresh : p (some c) = p none)
    (hlength : ∀ before t n, p before t = some n → n ≤ t.length)
    (hstable : ∀ before t u, p before (t ++ c :: u) = p before t) (t u : Text) :
    p.marks (t ++ c :: u) = p.marks t ++ none :: p.marks u := by
  have hstop : ∀ before n, p before (c :: u) ≠ some (n + 1) := by
    intro before n hn
    have hnil : p before ([] ++ c :: u) = p before [] := hstable before [] u
    rw [List.nil_append, hn] at hnil
    exact absurd (hlength before [] _ hnil.symm) (by simp)
  have hopen : ∀ m ∈ p.findFrom none 0 0 t, ¬ False := fun _ _ => not_false
  exact marksFrom_append_cons (fun _ => False) hstop hfresh hlength
    (fun before d t _ => hstable before (d :: t) u) (Nat.zero_le _) hopen

end Pattern

end IoSource
