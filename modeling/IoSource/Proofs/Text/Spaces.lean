import IoSource.Text.Spaces

/-!
# Room for spaces

A number of spaces has a text if it is an index and the text is short enough; negative numbers stand
for no spaces (`Text.spaces_cases`).
-/

namespace IoSource

theorem isBlank_of_mem_replicate {width : Nat} :
    ∀ c ∈ List.replicate width ' ', isBlank c = true := by
  intro c hc
  rw [List.eq_of_mem_replicate hc]
  rfl

theorem isIndex_iff (i : Int) : isIndex i = true ↔ -(maxIndex : Int) - 1 ≤ i ∧ i ≤ maxIndex := by
  rw [isIndex, Bool.and_eq_true, decide_eq_true_iff, decide_eq_true_iff]

theorem isIndex_natCast (i : Nat) : isIndex i = true ↔ i ≤ maxIndex := by
  rw [isIndex_iff]
  generalize maxIndex = greatest
  omega

variable [Platform]

/-- Whether there is room for a number of spaces. -/
def HasRoomFor (i : Int) : Prop := -(maxIndex : Int) - 1 ≤ i ∧ i < roomLimit

theorem hasRoomFor_natCast (width : Nat) : HasRoomFor width ↔ width < roomLimit := by
  unfold HasRoomFor
  generalize maxIndex = greatest
  generalize roomLimit = room
  omega

/-- **There are texts of spaces** up to some width. -/
theorem Text.spaces_cases (i : Int) :
    (HasRoomFor i ∧ Text.spaces i = .ok (List.replicate i.toNat ' ')) ∨
      (¬ HasRoomFor i ∧ ∃ e, Text.spaces i = .error e) := by
  have hiff := isIndex_iff i
  unfold Text.spaces HasRoomFor roomLimit
  revert hiff
  generalize maxIndex = greatest
  intro hiff
  by_cases hindex : isIndex i = true
  · have hbounds := hiff.mp hindex
    rw [hindex]
    by_cases hwide : Platform.memory < i.toNat
    · exact Or.inr ⟨by omega, .noRoom, by simp [hwide]⟩
    · exact Or.inl ⟨by omega, by simp [hwide]⟩
  · have hbounds : ¬ (-(greatest : Int) - 1 ≤ i ∧ i ≤ greatest) := fun h => hindex (hiff.mpr h)
    refine Or.inr ⟨by omega, .tooMany, ?_⟩
    rw [eq_false_of_ne_true hindex]
    rfl

end IoSource
