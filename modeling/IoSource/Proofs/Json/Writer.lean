import IoSource.Json.Writer
import IoSource.Proofs.Json.Document
import IoSource.Proofs.Text.Spaces

/-!
# Writers

A writer makes a document of a value and lays it out.  Only the layout depends on the indentation,
and there is one unless the indentation is no number of spaces that there is room for
(`Writer.layout?_cases`); in every layout that there is, nothing but spaces and line breaks is added.

The document is the same in every way of writing, but the stack may suffice for it in some and not in
others.  How many calls a value takes is what the deepest of its parts takes
(`Value.callsOfItems_le_iff` and its like).
-/

namespace IoSource

/-- Nothing or a number of spaces, as which truth values count too. -/
inductive Value.IsSpaceCount : Value → Prop
  | null : IsSpaceCount .null
  | int (i : Int) : IsSpaceCount (.int i)
  | bool (b : Bool) : IsSpaceCount (.bool b)

namespace Writer
variable {w : Writer} {layout : Json.Layout}

variable [Platform]

/-- Whether a writer's indentation, if it needs one, is a number of spaces that there is room for. -/
def HasRoom (w : Writer) : Prop :=
  w.prettyPrint = true → ∀ i, w.indent = .int i → HasRoomFor i

theorem hasRoom_of_indent {w : Writer} {n : Nat} (hindent : w.indent = .int n) (hn : n < roomLimit) :
    w.HasRoom := by
  rintro - i hi
  obtain rfl : (n : Int) = i := Value.int.inj (hindent.symm.trans hi)
  exact (hasRoomFor_natCast n).mpr hn

/-- **A writer has a layout** if and only if there is room for the indentation, and then nothing but
spaces and line breaks stands between tokens. -/
theorem layout?_cases (h : w.indent.IsSpaceCount) :
    (w.HasRoom ∧ ∃ layout, w.layout? = .ok layout ∧ layout.IsSpaced) ∨
      (¬ w.HasRoom ∧ ∃ e, w.layout? = .error e) := by
  obtain ⟨pretty, indent, sortKeys⟩ := w
  cases pretty with
  | false => exact Or.inl ⟨by simp [HasRoom], _, rfl, Json.Layout.isSpaced_oneLine⟩
  | true =>
    cases h with
    | null => exact Or.inl ⟨by simp [HasRoom], _, rfl, Json.Layout.isSpaced_oneLine⟩
    | bool b =>
      refine Or.inl ⟨by simp [HasRoom], _, rfl, ?_⟩
      cases b with
      | false => exact Json.Layout.isSpaced_indented 0
      | true => exact Json.Layout.isSpaced_indented 1
    | int i =>
      have hroom : (⟨true, .int i, sortKeys⟩ : Writer).HasRoom ↔ HasRoomFor i := by simp [HasRoom]
      rw [hroom]
      rcases Text.spaces_cases i with ⟨hi, hspaces⟩ | ⟨hi, e, hspaces⟩
      · refine Or.inl ⟨hi, _, ?_, Json.Layout.isSpaced_indented i.toNat⟩
        simp only [layout?, if_true, hspaces]
        rfl
      · refine Or.inr ⟨hi, .indentTooLarge e, ?_⟩
        simp only [layout?, if_true, hspaces]
        rfl

theorem exists_layout (h : w.indent.IsSpaceCount) (hroom : w.HasRoom) :
    ∃ layout, w.layout? = .ok layout ∧ layout.IsSpaced := by
  rcases layout?_cases h with ⟨-, hlayout⟩ | ⟨hno, -⟩
  · exact hlayout
  · exact absurd hroom hno

/-! ### Calls -/

end Writer

namespace Value
variable {cost : Layer → Nat} {n : Nat}

theorem callsOfItems_le_iff {items : List Value} :
    callsOfItems cost items ≤ n ↔ ∀ v ∈ items, v.calls cost ≤ n := by
  induction items with
  | nil => simp [callsOfItems]
  | cons v items ih => rw [callsOfItems, Nat.max_le, ih, List.forall_mem_cons]

theorem callsOfValues_le_iff {entries : List (Value × Value)} :
    callsOfValues cost entries ≤ n ↔ ∀ e ∈ entries, e.2.calls cost ≤ n := by
  induction entries with
  | nil => simp [callsOfValues]
  | cons e entries ih => rw [callsOfValues, Nat.max_le, ih, List.forall_mem_cons]

theorem callsOfFields_le_iff {fields : List (Text × Value)} :
    callsOfFields cost fields ≤ n ↔ ∀ f ∈ fields, f.2.calls cost ≤ n := by
  induction fields with
  | nil => simp [callsOfFields]
  | cons f fields ih => rw [callsOfFields, Nat.max_le, ih, List.forall_mem_cons]

/-- Lists that hold one list each, but for the innermost, which is empty. -/
def nestedLists : (depth : Nat) → Value
  | 0 => .list []
  | depth + 1 => .list [nestedLists depth]

theorem calls_nestedLists (cost : Layer → Nat) (depth : Nat) :
    (nestedLists depth).calls cost = (depth + 1) * cost .list := by
  induction depth with
  | zero => simp [nestedLists, calls, callsOfItems]
  | succ depth ih =>
    rw [nestedLists, calls, callsOfItems, ih, callsOfItems, Nat.max_zero,
      Nat.add_comm, ← Nat.succ_mul]

variable [Platform]

theorem fits_iff {v : Value} {mode : WritingMode} :
    v.fits mode = true ↔ v.calls (Platform.calls mode) ≤ Platform.stack mode :=
  decide_eq_true_iff

theorem fits_text (t : Text) (mode : WritingMode) : (text t).fits mode = true :=
  fits_iff.mpr (Nat.zero_le _)

end Value

/-! ### What is written -/

namespace Writer

theorem exists_map_eq_ok_iff {α β ε : Type} {f : α → β} {result : Except ε α} :
    (∃ y, result.map f = .ok y) ↔ ∃ x, result = .ok x := by
  cases result <;> simp [Except.map]

variable [Platform] {w : Writer} {layout : Json.Layout} {mode : WritingMode} {data : Value}

theorem document_of_fits (w : Writer) (h : data.fits mode = true) :
    w.document mode data = Json.ofValue w.sortKeys data := by
  rw [document]
  cases Json.ofValue w.sortKeys data with
  | error e => rfl
  | ok json => exact if_pos h

theorem exists_document_eq_error (w : Writer) (h : data.fits mode = false) :
    ∃ e, w.document mode data = .error e := by
  rw [document]
  cases Json.ofValue w.sortKeys data with
  | error e => exact ⟨e, rfl⟩
  | ok json => exact ⟨.tooDeep, if_neg (by simp [h])⟩

theorem exists_document_iff :
    (∃ json, w.document mode data = .ok json) ↔
      data.fits mode = true ∧ ∃ json, Json.ofValue w.sortKeys data = .ok json := by
  cases h : data.fits mode with
  | true => simp [document_of_fits w h]
  | false =>
    obtain ⟨e, he⟩ := exists_document_eq_error w h
    simp [he]

theorem stream_of_layout (h : w.layout? = .ok layout) (data : Value) :
    w.stream data = (w.document (.stream w.isIndented) data).map (Json.write layout) := by
  rw [stream, h]
  show (w.document (.stream w.isIndented) data >>= fun json => pure (json.write layout)) = _
  cases w.document (.stream w.isIndented) data <;> rfl

/-- A text alone looks the same in every layout. -/
theorem write_of_layout (h : w.layout? = .ok layout) (data : Value) :
    w.write data = (w.document (.text w.isIndented) data).map (Json.write layout) := by
  by_cases htext : ∃ t, data = .text t
  · obtain ⟨t, rfl⟩ := htext
    rw [document_of_fits w (Value.fits_text t _)]
    rfl
  · rw [write, h]
    · show (w.document (.text w.isIndented) data >>= fun json => pure (json.write layout)) = _
      cases w.document (.text w.isIndented) data <;> rfl
    · exact fun t heq => htext ⟨t, heq⟩

theorem write_of_error {e : WriteError} (h : w.layout? = .error e) (hdata : ∀ t, data ≠ .text t) :
    w.write data = .error e := by
  rw [write, h]
  · rfl
  · exact hdata

theorem compact_eq (w : Writer) (data : Value) :
    w.compact data = (w.document .compact data).map (Json.write .compact) := by
  rw [compact]
  cases w.document .compact data <;> rfl

end Writer

end IoSource
