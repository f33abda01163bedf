import IoSource.Highlight.Span
import IoSource.Proofs.Text.Match

/-!
# Precedence of highlighted spans

Each category finds its matches in the whole text, as if there were no other.
`highlight_precedence` says what is shown of them: from each match the maximal runs of characters
that no earlier category takes.

The proof goes through the owner of a character, which is the first category that takes it together
with the place in the match (`owner_eq_some_iff`).  `Span.collect` groups neighbours whose owners go
on; `Collected` is what it guarantees for the spans behind an offset, and each of its steps keeps
that.
-/

namespace IoSource

/-- A maximal block of consecutive offsets with a property. -/
structure IsMaximalRun (P : Nat → Prop) (start stop : Nat) : Prop where
  nonempty : start < stop
  inside : ∀ i, start ≤ i → i < stop → P i
  front : ∀ i, i + 1 = start → ¬ P i
  behind : ¬ P stop

theorem IsMaximalRun.unique {P : Nat → Prop} {a b a' b' i : Nat} (h : IsMaximalRun P a b)
    (h' : IsMaximalRun P a' b') (hi : a ≤ i ∧ i < b) (hi' : a' ≤ i ∧ i < b') :
    a = a' ∧ b = b' := by
  constructor
  · rcases Nat.lt_trichotomy a a' with hlt | heq | hgt
    · exact absurd (h.inside (a' - 1) (by omega) (by omega)) (h'.front _ (by omega))
    · exact heq
    · exact absurd (h'.inside (a - 1) (by omega) (by omega)) (h.front _ (by omega))
  · rcases Nat.lt_trichotomy b b' with hlt | heq | hgt
    · exact absurd (h'.inside b (by omega) hlt) h.behind
    · exact heq
    · exact absurd (h.inside b' (by omega) hgt) h'.behind

theorem IsMaximalRun.congr {P Q : Nat → Prop} (h : ∀ i, P i ↔ Q i) {start stop : Nat} :
    IsMaximalRun P start stop ↔ IsMaximalRun Q start stop := by
  rw [funext fun i => propext (h i)]

/-- The characters of a match are one maximal run. -/
theorem isMaximalRun_covers_iff {m : Match} (hpos : 0 < m.text.length) {start stop : Nat} :
    IsMaximalRun m.Covers start stop ↔ start = m.start ∧ stop = m.stop := by
  have hrun : IsMaximalRun m.Covers m.start m.stop := by
    refine ⟨?_, fun i hi hstop => ⟨hi, hstop⟩, fun i hi hcovers => ?_, fun hcovers => ?_⟩
    · rw [Match.stop]
      omega
    · have hle := hcovers.1
      omega
    · exact Nat.lt_irrefl _ hcovers.2
  constructor
  · intro h
    have hfirst := h.inside start (Nat.le_refl _) h.nonempty
    exact h.unique hrun ⟨Nat.le_refl _, h.nonempty⟩ hfirst
  · rintro ⟨rfl, rfl⟩
    exact hrun

/-! ### The owner of a character -/

namespace Category

/-- Whether a category stands in front of another one in the order of precedence. -/
def Precedes (d c : Category) : Prop := d ∈ all.takeWhile (· != c)

/-- Whether a category is the first that takes the character at an offset. -/
def Owns (t : Text) (c : Category) (i : Nat) : Prop :=
  c.pattern.Takes t i ∧ ∀ d : Category, d.Precedes c → ¬ d.pattern.Takes t i

theorem mem_all (c : Category) : c ∈ all := by cases c <;> decide

theorem exists_first {P : Category → Prop} {c : Category} {categories : List Category}
    (hc : c ∈ categories) (h : P c) :
    ∃ e, P e ∧ ∀ d ∈ categories.takeWhile (· != e), ¬ P d := by
  induction categories with
  | nil => exact absurd hc (by simp)
  | cons a categories ih =>
    by_cases ha : P a
    · exact ⟨a, ha, by simp⟩
    · have hne : c ≠ a := fun heq => ha (heq ▸ h)
      obtain ⟨e, he, hfirst⟩ := ih ((List.mem_cons.mp hc).resolve_left hne)
      have hea : a ≠ e := fun heq => ha (heq ▸ he)
      refine ⟨e, he, fun d hd => ?_⟩
      rw [List.takeWhile_cons, if_pos (by simpa using hea)] at hd
      rcases List.mem_cons.mp hd with rfl | hd
      · exact ha
      · exact hfirst d hd

end Category

open Category

theorem length_claims (t : Text) (categories : List Category) :
    (claims t categories).length = t.length := by
  induction categories with
  | nil => simp [claims]
  | cons c categories ih => simp [claims, ih]

/-- A character goes to the first of the categories that takes it, with its mark. -/
theorem getElem?_claims {t : Text} {i : Nat} (hi : i < t.length) (categories : List Category)
    (c : Category) (k : Nat) :
    (claims t categories)[i]? = some (some (c, k)) ↔
      c ∈ categories ∧ (∀ d ∈ categories.takeWhile (· != c), ¬ d.pattern.Takes t i) ∧
        (c.pattern.marks t)[i]? = some (some k) := by
  induction categories with
  | nil => simp [claims, hi]
  | cons e categories ih =>
    obtain ⟨mark, hmark⟩ : ∃ mark, (e.pattern.marks t)[i]? = some mark :=
      ⟨_, List.getElem?_eq_getElem (by simpa using hi)⟩
    obtain ⟨later, hlater⟩ : ∃ later, (claims t categories)[i]? = some later :=
      ⟨_, List.getElem?_eq_getElem (by simpa [length_claims] using hi)⟩
    rw [hlater] at ih
    rw [claims, List.getElem?_zipWith, hmark, hlater]
    cases mark with
    | some k' =>
      have htakes : e.pattern.Takes t i := Pattern.takes_iff.mpr ⟨k', hmark⟩
      by_cases he : e = c
      · subst he
        simp [hmark, eq_comm]
      · simp [he, htakes]
    | none =>
      have hnot : ¬ e.pattern.Takes t i := (Pattern.getElem?_marks_eq_none hi).mp hmark
      by_cases he : e = c
      · subst he
        simp only [Option.map_none, Option.none_or]
        rw [ih]
        simp [hmark]
      · simp only [Option.map_none, Option.none_or]
        rw [ih]
        simp [he, hnot, Ne.symm he]

/-- What owns the character at an offset, if anything does. -/
def owner (t : Text) (i : Nat) : Option Claim := (claims t all)[i]?.join

theorem owner_eq_some {t : Text} {i : Nat} {c : Category} {k : Nat} :
    owner t i = some (c, k) ↔
      (∃ m ∈ c.pattern.findAll t, m.start + k = i ∧ k < m.text.length) ∧
        ∀ d : Category, d.Precedes c → ¬ d.pattern.Takes t i := by
  rw [owner, Option.join_eq_some_iff, ← Pattern.getElem?_marks]
  by_cases hi : i < t.length
  · rw [getElem?_claims hi, and_iff_right (mem_all c), and_comm]
    rfl
  · have hclaims : (claims t all)[i]? = none :=
      List.getElem?_eq_none (by rw [length_claims]; omega)
    have hmarks : (c.pattern.marks t)[i]? = none :=
      List.getElem?_eq_none (by rw [Pattern.length_marks]; omega)
    simp [hclaims, hmarks]

/-- **The owner of a character** is the first category that takes it. -/
theorem owner_eq_some_iff {t : Text} {i : Nat} {c : Category} :
    (∃ k, owner t i = some (c, k)) ↔ c.Owns t i := by
  simp only [owner_eq_some, exists_and_right]
  rw [Owns, Pattern.takes_iff]
  simp only [Pattern.getElem?_marks]

theorem Category.Owns.unique {t : Text} {i : Nat} {c d : Category} (hc : c.Owns t i)
    (hd : d.Owns t i) : c = d := by
  obtain ⟨k, hk⟩ := owner_eq_some_iff.mpr hc
  obtain ⟨k', hk'⟩ := owner_eq_some_iff.mpr hd
  rw [hk] at hk'
  exact (Prod.mk.inj (Option.some.inj hk')).1

theorem exists_owns_iff {t : Text} {i : Nat} :
    (∃ c : Category, c.Owns t i) ↔ ∃ c : Category, c.pattern.Takes t i := by
  constructor
  · rintro ⟨c, hc⟩
    exact ⟨c, hc.1⟩
  · rintro ⟨c, hc⟩
    exact exists_first (mem_all c) hc

/-! ### Collecting spans -/

def Span.Covers (span : Span) (i : Nat) : Prop := span.start ≤ i ∧ i < span.stop

/-- A span of one match: its characters are owned by places of the match that follow each other, and
the character behind it does not go on. -/
structure IsPiece (t : Text) (span : Span) (place : Nat) : Prop where
  nonempty : span.start < span.stop
  owned : ∀ i, span.start + i < span.stop →
    owner t (span.start + i) = some (span.category, place + i)
  behind : owner t span.stop ≠ some (span.category, place + (span.stop - span.start))
  text : span.text = (t.drop span.start).take (span.stop - span.start)

namespace IsPiece

variable {t : Text} {start : Nat} {c : Char} {claim : Claim}

theorem single (hdrop : t.drop start = c :: t.drop (start + 1))
    (howner : owner t start = some claim)
    (hnext : owner t (start + 1) ≠ some (claim.1, claim.2 + 1)) :
    IsPiece t ⟨start, start + 1, [c], claim.1⟩ claim.2 := by
  refine ⟨Nat.lt_succ_self _, fun i hi => ?_, ?_, ?_⟩
  · obtain rfl : i = 0 := by
      simp only at hi
      omega
    exact howner
  · simpa using hnext
  · simp [hdrop]

/-- A piece grows to the front by a character whose owner goes on in it. -/
theorem cons {span : Span} {place : Nat} (h : IsPiece t span place)
    (hstart : span.start = start + 1)
    (hdrop : t.drop start = c :: t.drop (start + 1)) (howner : owner t start = some claim)
    (hnext : owner t (start + 1) = some (claim.1, claim.2 + 1)) :
    IsPiece t { span with start := start, text := c :: span.text } claim.2 := by
  have hlt := h.nonempty
  have hfirst := h.owned 0 (by omega)
  rw [Nat.add_zero, hstart, hnext] at hfirst
  obtain ⟨hcategory, hplace⟩ := Prod.mk.inj (Option.some.inj hfirst)
  have hlength : span.stop - start = span.stop - span.start + 1 := by omega
  refine ⟨by simp only; omega, fun i hi => ?_, ?_, ?_⟩
  · cases i with
    | zero => rw [Nat.add_zero, Nat.add_zero, howner, ← hcategory]
    | succ i =>
      have hi' := h.owned i (by simp only at hi; omega)
      have hsum : start + (i + 1) = span.start + i := by omega
      have hplaces : claim.2 + (i + 1) = place + i := by omega
      simp only [hsum, hplaces]
      exact hi'
  · have hbehind := h.behind
    have hplaces : claim.2 + (span.stop - start) = place + (span.stop - span.start) := by omega
    simp only [hplaces]
    exact hbehind
  · simp only [hdrop, hlength, List.take_succ_cons]
    rw [h.text, hstart]

theorem not_continues {span other : Span} {place place' : Nat} (h : IsPiece t span place)
    (h' : IsPiece t other place') (hstop : other.stop = span.start)
    (hcategory : other.category = span.category) :
    place ≠ place' + (other.stop - other.start) := by
  intro hplace
  have hlt := h.nonempty
  have hfirst := h.owned 0 (by omega)
  rw [Nat.add_zero, Nat.add_zero, hplace, ← hcategory, ← hstop] at hfirst
  exact h'.behind hfirst

end IsPiece

/-- The spans of the characters from an offset on. -/
structure Collected (t : Text) (start : Nat) (spans : List Span) : Prop where
  from_start : ∀ span ∈ spans, start ≤ span.start
  pieces : ∀ span ∈ spans, ∃ place, IsPiece t span place
  ordered : spans.Pairwise fun a b => a.stop ≤ b.start
  complete : ∀ i, start ≤ i → (owner t i).isSome → ∃ span ∈ spans, span.Covers i

namespace Collected

variable {t : Text} {start : Nat} {spans : List Span}

theorem skip (h : Collected t (start + 1) spans) (hnone : owner t start = none) :
    Collected t start spans := by
  refine ⟨fun span hspan => ?_, h.pieces, h.ordered, fun i hi hsome => ?_⟩
  · have := h.from_start span hspan
    omega
  · rcases Nat.eq_or_lt_of_le hi with rfl | hlt
    · rw [hnone] at hsome
      exact absurd hsome (by simp)
    · exact h.complete i hlt hsome

theorem single (h : Collected t (start + 1) spans) {c : Char} {claim : Claim}
    (hdrop : t.drop start = c :: t.drop (start + 1)) (howner : owner t start = some claim)
    (hnext : owner t (start + 1) ≠ some (claim.1, claim.2 + 1)) :
    Collected t start (⟨start, start + 1, [c], claim.1⟩ :: spans) := by
  constructor
  · intro span hspan
    rcases List.mem_cons.mp hspan with rfl | hspan
    · exact Nat.le_refl _
    · have := h.from_start span hspan
      omega
  · intro span hspan
    rcases List.mem_cons.mp hspan with rfl | hspan
    · exact ⟨claim.2, IsPiece.single hdrop howner hnext⟩
    · exact h.pieces span hspan
  · exact List.pairwise_cons.mpr ⟨fun span hspan => h.from_start span hspan, h.ordered⟩
  · intro i hi hsome
    rcases Nat.eq_or_lt_of_le hi with rfl | hlt
    · exact ⟨_, List.mem_cons_self .., Nat.le_refl _, Nat.lt_succ_self _⟩
    · obtain ⟨span, hspan, hcovers⟩ := h.complete i hlt hsome
      exact ⟨span, List.mem_cons_of_mem _ hspan, hcovers⟩

theorem head_start {span : Span} (h : Collected t start (span :: spans))
    (hsome : (owner t start).isSome) : span.start = start := by
  obtain ⟨first, hfirst, hcovers⟩ := h.complete start (Nat.le_refl _) hsome
  have hspan := h.from_start span (List.mem_cons_self ..)
  have hle := hcovers.1
  rcases List.mem_cons.mp hfirst with rfl | hlater
  · omega
  · have := (List.pairwise_cons.mp h.ordered).1 first hlater
    obtain ⟨place, hpiece⟩ := h.pieces span (List.mem_cons_self ..)
    have := hpiece.nonempty
    omega

/-- A character whose owner goes on belongs to the span behind it. -/
theorem join {span : Span} (h : Collected t (start + 1) (span :: spans)) {c : Char} {claim : Claim}
    (hdrop : t.drop start = c :: t.drop (start + 1)) (howner : owner t start = some claim)
    (hnext : owner t (start + 1) = some (claim.1, claim.2 + 1)) :
    Collected t start ({ span with start := start, text := c :: span.text } :: spans) := by
  have hstart : span.start = start + 1 := h.head_start (by rw [hnext]; rfl)
  obtain ⟨hapart, hordered⟩ := List.pairwise_cons.mp h.ordered
  constructor
  · intro other hother
    rcases List.mem_cons.mp hother with rfl | hother
    · exact Nat.le_refl _
    · have := h.from_start other (List.mem_cons_of_mem _ hother)
      omega
  · intro other hother
    rcases List.mem_cons.mp hother with rfl | hother
    · obtain ⟨place, hpiece⟩ := h.pieces span (List.mem_cons_self ..)
      exact ⟨claim.2, hpiece.cons hstart hdrop howner hnext⟩
    · exact h.pieces other (List.mem_cons_of_mem _ hother)
  · exact List.pairwise_cons.mpr ⟨hapart, hordered⟩
  · intro i hi hsome
    rcases Nat.eq_or_lt_of_le hi with rfl | hlt
    · obtain ⟨place, hpiece⟩ := h.pieces span (List.mem_cons_self ..)
      have := hpiece.nonempty
      exact ⟨_, List.mem_cons_self .., Nat.le_refl _, by simp only; omega⟩
    · obtain ⟨other, hother, hcovers⟩ := h.complete i hlt hsome
      rcases List.mem_cons.mp hother with rfl | hother
      · exact ⟨_, List.mem_cons_self .., hi, hcovers.2⟩
      · exact ⟨other, List.mem_cons_of_mem _ hother, hcovers⟩

end Collected

/-! ### One step of the collection -/

theorem Span.continues_iff {claim : Claim} {next : Option Claim} :
    Span.continues claim next = true ↔ next = some (claim.1, claim.2 + 1) := by
  cases next with
  | none => simp [Span.continues]
  | some next => simp [Span.continues]

theorem Span.collect_single {start : Nat} {c : Char} {claim : Claim}
    {rest : List (Char × Option Claim)}
    (h : Span.continues claim (rest.head?.bind Prod.snd) = false) :
    Span.collect start ((c, some claim) :: rest) =
      ⟨start, start + 1, [c], claim.1⟩ :: Span.collect (start + 1) rest := by
  rw [Span.collect, h]

theorem Span.collect_join {start : Nat} {c : Char} {claim : Claim}
    {rest : List (Char × Option Claim)} {span : Span} {spans : List Span}
    (h : Span.continues claim (rest.head?.bind Prod.snd) = true)
    (hrest : Span.collect (start + 1) rest = span :: spans) :
    Span.collect start ((c, some claim) :: rest) =
      { span with start := start, text := c :: span.text } :: spans := by
  rw [Span.collect, h, hrest]

def owned (t : Text) : List (Char × Option Claim) := t.zip (claims t all)

theorem getElem?_owned (t : Text) (i : Nat) : ((owned t)[i]?).bind Prod.snd = owner t i := by
  rw [owned, owner]
  by_cases hi : i < t.length
  · have hclaims : i < (claims t all).length := by rwa [length_claims]
    have hboth : (t.zip (claims t all))[i]? = some (t[i], (claims t all)[i]) :=
      List.getElem?_zip_eq_some.mpr
        ⟨List.getElem?_eq_getElem hi, List.getElem?_eq_getElem hclaims⟩
    rw [hboth, List.getElem?_eq_getElem hclaims]
    rfl
  · have hlength : (t.zip (claims t all)).length = t.length := by
      rw [List.length_zip, length_claims, Nat.min_self]
    rw [List.getElem?_eq_none (by omega), List.getElem?_eq_none (by rw [length_claims]; omega)]
    rfl

/-- **The spans of a text**, from any offset on. -/
theorem collected_collect {t : Text} {start : Nat} {l : List (Char × Option Claim)}
    (hl : (owned t).drop start = l) : Collected t start (Span.collect start l) := by
  induction l generalizing start with
  | nil =>
    refine ⟨by simp [Span.collect], by simp [Span.collect], List.Pairwise.nil, fun i hi hsome => ?_⟩
    have hlength := List.drop_eq_nil_iff.mp hl
    rw [← getElem?_owned, List.getElem?_eq_none (by omega)] at hsome
    exact absurd hsome (by simp)
  | cons pair rest ih =>
    obtain ⟨c, claim⟩ := pair
    have hrest : (owned t).drop (start + 1) = rest := by
      rw [← List.tail_drop, hl, List.tail_cons]
    have hhere : (owned t)[start]? = some (c, claim) := by
      rw [← List.head?_drop, hl, List.head?_cons]
    have hnext : rest.head?.bind Prod.snd = owner t (start + 1) := by
      rw [← hrest, List.head?_drop, getElem?_owned]
    have howner : owner t start = claim := by
      rw [← getElem?_owned, hhere]
      rfl
    have hdrop : t.drop start = c :: t.drop (start + 1) := by
      have hc := (List.getElem?_zip_eq_some.mp hhere).1
      obtain ⟨hlt, rfl⟩ := List.getElem?_eq_some_iff.mp hc
      exact List.drop_eq_getElem_cons hlt
    have hlater := ih hrest
    cases claim with
    | none => exact hlater.skip howner
    | some claim =>
      cases hcontinues : Span.continues claim (rest.head?.bind Prod.snd) with
      | false =>
        rw [Span.collect_single hcontinues]
        refine hlater.single hdrop howner fun h => ?_
        rw [← hnext, ← Span.continues_iff, hcontinues] at h
        exact absurd h (by simp)
      | true =>
        have hgoes := Span.continues_iff.mp hcontinues
        rw [hnext] at hgoes
        cases hspans : Span.collect (start + 1) rest with
        | nil =>
          rw [hspans] at hlater
          obtain ⟨span, hspan, -⟩ := hlater.complete _ (Nat.le_refl _) (by rw [hgoes]; rfl)
          exact absurd hspan (by simp)
        | cons span spans =>
          rw [hspans] at hlater
          rw [Span.collect_join hcontinues hspans]
          exact hlater.join hdrop howner hgoes

/-- A span that holds the character in front of another span ends there. -/
theorem Collected.stop_eq_start {t : Text} {start i : Nat} {spans : List Span} {span other : Span}
    (h : Collected t start spans) (hspan : span ∈ spans) (hother : other ∈ spans)
    (hi : other.Covers i) (hstart : i + 1 = span.start) : other.stop = span.start := by
  obtain ⟨place, hpiece⟩ := h.pieces span hspan
  have hlt := hpiece.nonempty
  have hle := hi.1
  have hbefore := hi.2
  by_contra hne
  have hsame : other = span :=
    eq_of_apart h.ordered hother hspan (i := span.start) ⟨by omega, by omega⟩ ⟨Nat.le_refl _, hlt⟩
  rw [hsame] at hle
  omega

theorem collected_highlight (t : Text) : Collected t 0 (highlight t) :=
  collected_collect (l := owned t) List.drop_zero

/-! ### Spans and matches -/

/-- Whether a match shows at an offset: it takes the character, and no earlier category does. -/
def Shows (t : Text) (c : Category) (m : Match) (i : Nat) : Prop :=
  m.Covers i ∧ ∀ d : Category, d.Precedes c → ¬ d.pattern.Takes t i

/-- The characters at which a match shows are owned by its places. -/
theorem owner_of_shows {t : Text} {c : Category} {m : Match} (hm : m ∈ c.pattern.findAll t)
    {i : Nat} (h : Shows t c m i) : owner t i = some (c, i - m.start) := by
  have hstart := h.1.1
  have hstop := h.1.2
  rw [Match.stop] at hstop
  exact owner_eq_some.mpr ⟨⟨m, hm, by omega, by omega⟩, h.2⟩

theorem shows_of_owner {t : Text} {c : Category} {m : Match} (hm : m ∈ c.pattern.findAll t)
    {i k : Nat} (h : owner t i = some (c, k)) (hk : m.start + k = i) : Shows t c m i := by
  obtain ⟨⟨m', hm', hplace, hlength⟩, hfirst⟩ := owner_eq_some.mp h
  have hpos := (Pattern.bounds_of_mem_findFrom hm).2.1
  have hstart : m'.start = m.start := by omega
  obtain rfl : m = m' := by
    refine Pattern.eq_of_covers hm hm' (i := m.start) ?_ ?_
    · exact ⟨Nat.le_refl _, by rw [Match.stop]; omega⟩
    · exact ⟨by omega, by rw [Match.stop]; omega⟩
  exact ⟨Match.covers_iff.mpr ⟨k, hk, hlength⟩, hfirst⟩

/-- **Each span is a maximal run** of the characters at which some match shows. -/
theorem isMaximalRun_of_mem {t : Text} {span : Span} (hspan : span ∈ highlight t) :
    ∃ m ∈ span.category.pattern.findAll t,
      IsMaximalRun (Shows t span.category m) span.start span.stop := by
  have hall := collected_highlight t
  obtain ⟨place, hpiece⟩ := hall.pieces span hspan
  have hlt := hpiece.nonempty
  have hfirst : owner t span.start = some (span.category, place) := hpiece.owned 0 (by omega)
  obtain ⟨⟨m, hm, hplace, hlength⟩, -⟩ := owner_eq_some.mp hfirst
  refine ⟨m, hm, hlt, fun i hi hstop => ?_, fun i hi hshows => ?_, fun hshows => ?_⟩
  · obtain ⟨j, rfl⟩ := Nat.exists_eq_add_of_le hi
    exact shows_of_owner hm (hpiece.owned j hstop) (by omega)
  · -- the span in front of `i + 1` would have gone on there
    have howner := owner_of_shows hm hshows
    have hstart := hshows.1.1
    obtain ⟨other, hother, hcovers⟩ := hall.complete i (Nat.zero_le _) (by rw [howner]; rfl)
    have hle := hcovers.1
    have hbefore := hcovers.2
    have hstop : other.stop = span.start := hall.stop_eq_start hspan hother hcovers hi
    obtain ⟨place', hpiece'⟩ := hall.pieces other hother
    have hlast := hpiece'.owned (i - other.start) (by omega)
    have hi' : other.start + (i - other.start) = i := by omega
    rw [hi', howner] at hlast
    obtain ⟨hcategory, hplace'⟩ := Prod.mk.inj (Option.some.inj hlast)
    exact hpiece.not_continues hpiece' hstop hcategory.symm (by omega)
  · have howner := owner_of_shows hm hshows
    have hnext : span.stop - m.start = place + (span.stop - span.start) := by omega
    rw [hnext] at howner
    exact hpiece.behind howner

/-- Every maximal run of the characters at which a match shows is a span. -/
theorem exists_span_of_isMaximalRun {t : Text} {c : Category} {m : Match}
    (hm : m ∈ c.pattern.findAll t) {start stop : Nat}
    (h : IsMaximalRun (Shows t c m) start stop) :
    ∃ span ∈ highlight t, span.category = c ∧ span.start = start ∧ span.stop = stop := by
  have hshows := h.inside start (Nat.le_refl _) h.nonempty
  have howner := owner_of_shows hm hshows
  obtain ⟨span, hspan, hcovers⟩ :=
    (collected_highlight t).complete start (Nat.zero_le _) (by rw [howner]; rfl)
  obtain ⟨m', hm', hrun⟩ := isMaximalRun_of_mem hspan
  have hshows' := hrun.inside start hcovers.1 hcovers.2
  have howner' := owner_of_shows hm' hshows'
  rw [howner] at howner'
  obtain ⟨hcategory, -⟩ := Prod.mk.inj (Option.some.inj howner')
  obtain ⟨first, last, text, category⟩ := span
  obtain rfl : c = category := hcategory
  obtain rfl : m = m' := Pattern.eq_of_covers hm hm' hshows.1 hshows'.1
  obtain ⟨hfirst, hlast⟩ := h.unique hrun ⟨Nat.le_refl _, h.nonempty⟩ hcovers
  exact ⟨_, hspan, rfl, hfirst.symm, hlast.symm⟩

/-- A match of which no earlier category takes a character is shown as one span. -/
theorem exists_span_of_shows {t : Text} {c : Category} {m : Match} (hm : m ∈ c.pattern.findAll t)
    (hshows : ∀ i, Shows t c m i ↔ m.Covers i) :
    ∃ span ∈ highlight t, span.category = c ∧ span.start = m.start ∧ span.stop = m.stop := by
  have hpos := (Pattern.bounds_of_mem_findFrom hm).2.1
  refine exists_span_of_isMaximalRun hm ((IsMaximalRun.congr hshows).mpr ?_)
  exact (isMaximalRun_covers_iff hpos).mpr ⟨rfl, rfl⟩

/-! ### Precedence -/

theorem text_of_mem_highlight {t : Text} {span : Span} (hspan : span ∈ highlight t) :
    span.text = (t.drop span.start).take (span.stop - span.start) :=
  ((collected_highlight t).pieces span hspan).elim fun _ hpiece => hpiece.text

theorem mem_highlight_iff {t : Text} {span : Span} :
    span ∈ highlight t ↔
      (∃ m ∈ span.category.pattern.findAll t,
        IsMaximalRun (Shows t span.category m) span.start span.stop) ∧
      span.text = (t.drop span.start).take (span.stop - span.start) := by
  constructor
  · intro hspan
    exact ⟨isMaximalRun_of_mem hspan, text_of_mem_highlight hspan⟩
  · rintro ⟨⟨m, hm, hrun⟩, htext⟩
    obtain ⟨other, hother, hcategory, hstart, hstop⟩ := exists_span_of_isMaximalRun hm hrun
    have hother' := text_of_mem_highlight hother
    obtain ⟨start, stop, text, category⟩ := span
    obtain ⟨start', stop', text', category'⟩ := other
    simp only at hcategory hstart hstop htext hother'
    subst hcategory hstart hstop
    rw [htext, ← hother']
    exact hother

theorem owns_of_covers {t : Text} {span : Span} (hspan : span ∈ highlight t) {i : Nat}
    (hi : span.Covers i) : span.category.Owns t i := by
  obtain ⟨m, hm, hrun⟩ := isMaximalRun_of_mem hspan
  exact owner_eq_some_iff.mp ⟨_, owner_of_shows hm (hrun.inside i hi.1 hi.2)⟩

theorem exists_covers_of_owns {t : Text} {c : Category} {i : Nat} (h : c.Owns t i) :
    ∃ span ∈ highlight t, span.Covers i := by
  obtain ⟨k, hk⟩ := owner_eq_some_iff.mpr h
  exact (collected_highlight t).complete i (Nat.zero_le _) (by rw [hk]; rfl)

theorem stop_le_length {t : Text} {span : Span} (hspan : span ∈ highlight t) :
    span.stop ≤ t.length := by
  obtain ⟨m, hm, hrun⟩ := isMaximalRun_of_mem hspan
  have hlast := (hrun.inside (span.stop - 1) (by have := hrun.nonempty; omega)
    (by have := hrun.nonempty; omega)).1.2
  have := (Pattern.bounds_of_mem_findFrom hm).2.2
  omega

theorem start_add_length {t : Text} {span : Span} (hspan : span ∈ highlight t) :
    span.start + span.text.length = span.stop := by
  have hlt := (isMaximalRun_of_mem hspan).elim fun _ h => h.2.nonempty
  have hle := stop_le_length hspan
  rw [text_of_mem_highlight hspan, List.length_take, List.length_drop]
  omega

/-- **Precedence of highlighting.**  The spans of a text are, for every match of every category, the
maximal runs of its characters that no earlier category takes, with the text that stands there, in
the order of their offsets.  So they stand apart, a character is in a span just when some category
takes it, and the category of the span is the first that does. -/
theorem highlight_precedence (t : Text) :
    (∀ span, span ∈ highlight t ↔
      (∃ m ∈ span.category.pattern.findAll t, IsMaximalRun
        (fun i => m.Covers i ∧ ∀ d : Category, d.Precedes span.category → ¬ d.pattern.Takes t i)
        span.start span.stop) ∧
      span.text = (t.drop span.start).take (span.stop - span.start)) ∧
    (highlight t).Pairwise (fun a b => a.start < b.start ∧ a.stop ≤ b.start) ∧
    (∀ span ∈ highlight t, span.start < span.stop ∧ span.stop ≤ t.length) ∧
    (∀ i, (∃ span ∈ highlight t, span.Covers i) ↔ ∃ c : Category, c.pattern.Takes t i) ∧
    ∀ span ∈ highlight t, ∀ i, span.Covers i →
      span.category.pattern.Takes t i ∧
        ∀ d : Category, d.Precedes span.category → ¬ d.pattern.Takes t i := by
  have hall := collected_highlight t
  have hnonempty : ∀ span ∈ highlight t, span.start < span.stop := fun span hspan =>
    (hall.pieces span hspan).elim fun _ hpiece => hpiece.nonempty
  refine ⟨fun span => mem_highlight_iff, ?_, fun span hspan => ?_, fun i => ?_, ?_⟩
  · refine hall.ordered.imp_of_mem fun {a b} ha _ hstop => ⟨?_, hstop⟩
    have := hnonempty a ha
    omega
  · exact ⟨hnonempty span hspan, stop_le_length hspan⟩
  · rw [← exists_owns_iff]
    constructor
    · rintro ⟨span, hspan, hi⟩
      exact ⟨_, owns_of_covers hspan hi⟩
    · rintro ⟨c, hc⟩
      exact exists_covers_of_owns hc
  · exact fun span hspan i hi => owns_of_covers hspan hi

end IoSource
