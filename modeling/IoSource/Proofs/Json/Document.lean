import IoSource.Json.Reader
import IoSource.Proofs.Number.Digits

/-!
# Documents and their texts

What all proofs about documents share: the induction over a document (`Json.induction`), the texts of
items and members as lists of pieces, the three ways to write a character of a string
(`escapedChar_cases`), and the layouts that put nothing but spaces and line breaks between tokens
(`Layout.IsSpaced`).
-/

namespace IoSource.Json

/-- **Induction on documents.**  What holds of an array or an object may be shown from what holds of
its items and of the values of its members. -/
@[elab_as_elim]
theorem induction {motive : Json → Prop} (null : motive null) (bool : ∀ b, motive (bool b))
    (int : ∀ i, motive (int i)) (float : ∀ x, motive (float x)) (string : ∀ t, motive (string t))
    (array : ∀ items, (∀ item ∈ items, motive item) → motive (array items))
    (object : ∀ members, (∀ m ∈ members, motive m.2) → motive (object members)) (json : Json) :
    motive json := by
  refine @Json.rec motive (fun items => ∀ item ∈ items, motive item)
    (fun members => ∀ m ∈ members, motive m.2) (fun m => motive m.2) null bool int float string array
    object ?_ ?_ ?_ ?_ ?_ json
  · simp
  · intro item items hitem hitems
    simpa using And.intro hitem hitems
  · simp
  · intro m members hm hmembers
    simp only [List.mem_cons, forall_eq_or_imp]
    exact ⟨hm, hmembers⟩
  · intro key value hvalue
    exact hvalue

/-! ### Pieces -/

theorem renderItems_eq (layout : Layout) (depth : Nat) (items : List Json) :
    renderItems layout depth items = items.flatMap fun item =>
      layout.comma ++ (layout.lineStart depth ++ render layout depth item) := by
  induction items with
  | nil => rfl
  | cons item items ih => simp [renderItems, ih]

theorem renderMembers_eq (layout : Layout) (depth : Nat) (members : List (Text × Json)) :
    renderMembers layout depth members = members.flatMap fun m =>
      layout.comma ++ (layout.lineStart depth ++ (quote m.1 ++ (layout.colon ++
        render layout depth m.2))) := by
  induction members with
  | nil => rfl
  | cons m members ih => simp [renderMembers, ih]

/-! ### Characters of strings -/

/-- **The three ways to write a character** of a string: by a letter behind a backslash, by its code
unit, or as it is. -/
theorem escapedChar_cases (c : Char) :
    (∃ letter, escapedChar c = ['\\', letter] ∧ unescape? letter = some c) ∨
      (c.toNat < 0x20 ∧ escapedChar c = '\\' :: 'u' :: Number.hexadecimal 4 c.toNat) ∨
      (0x20 ≤ c.toNat ∧ c ≠ '"' ∧ c ≠ '\\' ∧ escapedChar c = [c]) := by
  unfold escapedChar
  split
  · next h =>
    refine Or.inl ⟨c, rfl, ?_⟩
    rcases h with rfl | rfl <;> rfl
  · next hquote =>
    obtain ⟨hquote, hbackslash⟩ := not_or.mp hquote
    split
    · next h => exact Or.inl ⟨'n', rfl, h ▸ rfl⟩
    · split
      · next h => exact Or.inl ⟨'r', rfl, h ▸ rfl⟩
      · split
        · next h => exact Or.inl ⟨'t', rfl, h ▸ rfl⟩
        · split
          · next h => exact Or.inl ⟨'b', rfl, h ▸ rfl⟩
          · split
            · next h => exact Or.inl ⟨'f', rfl, h ▸ rfl⟩
            · split
              · next h => exact Or.inr (Or.inl ⟨h, rfl⟩)
              · next h => exact Or.inr (Or.inr ⟨Nat.le_of_not_lt h, hquote, hbackslash, rfl⟩)

theorem mem_of_unescape? {letter c : Char} (h : unescape? letter = some c) :
    letter ∈ ['"', '\\', '/', 'b', 'f', 'n', 'r', 't'] := by
  rw [unescape?.eq_def] at h
  split at h
  all_goals first | decide | exact absurd h (by simp)

/-! ### Numbers -/

theorem isNumeral_of_mem_floatText {x : Float} {c : Char} (hc : c ∈ floatText x) :
    Number.isNumeral c = true :=
  Number.isNumeral_floatText (List.all_eq_true.mp rfl) (List.all_eq_true.mp rfl)
    (List.all_eq_true.mp rfl) x c hc

/-! ### Layouts -/

def IsSpacing (t : Text) : Prop := ∀ c ∈ t, c = ' ' ∨ c = '\n'

namespace IsSpacing

theorem nil : IsSpacing [] := by simp [IsSpacing]

theorem append {s t : Text} (hs : IsSpacing s) (ht : IsSpacing t) : IsSpacing (s ++ t) := by
  intro c hc
  rcases List.mem_append.mp hc with hc | hc
  · exact hs c hc
  · exact ht c hc

theorem spaces (n : Nat) : IsSpacing (List.replicate n ' ') :=
  fun _ hc => Or.inl (List.eq_of_mem_replicate hc)

end IsSpacing

/-- Whether a layout adds nothing but spaces and line breaks to what a document needs. -/
structure Layout.IsSpaced (layout : Layout) : Prop where
  comma : ∃ w, layout.comma = ',' :: w ∧ IsSpacing w
  colon : ∃ w, layout.colon = ':' :: w ∧ IsSpacing w
  indent : ∀ unit ∈ layout.indent?, IsSpacing unit

namespace Layout

theorem isSpaced_compact : compact.IsSpaced :=
  ⟨⟨[], rfl, .nil⟩, ⟨[], rfl, .nil⟩, by simp [compact]⟩

theorem isSpaced_oneLine : oneLine.IsSpaced :=
  ⟨⟨[' '], rfl, .spaces 1⟩, ⟨[' '], rfl, .spaces 1⟩, by simp [oneLine]⟩

theorem isSpaced_indented (n : Nat) : (indented (List.replicate n ' ')).IsSpaced := by
  refine ⟨⟨[], rfl, .nil⟩, ⟨[' '], rfl, .spaces 1⟩, fun unit hunit => ?_⟩
  obtain rfl : List.replicate n ' ' = unit := by simpa [indented] using hunit
  exact .spaces n

theorem IsSpaced.lineStart {layout : Layout} (h : layout.IsSpaced) (depth : Nat) :
    IsSpacing (layout.lineStart depth) := by
  unfold Layout.lineStart
  split
  · exact .nil
  · next unit hunit =>
    intro c hc
    rcases List.mem_cons.mp hc with rfl | hc
    · exact Or.inr rfl
    · obtain ⟨piece, hpiece, hc⟩ := List.mem_flatten.mp hc
      rw [List.eq_of_mem_replicate hpiece] at hc
      exact h.indent unit hunit c hc

end Layout

end IoSource.Json
