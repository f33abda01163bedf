import IoSource.Files.Tree

/-!
# Writing a file

Writing changes what stands under one list of names and nothing else (`entry?_write`).  So every
path that leads to the file goes on doing so (`status_write`).
-/

namespace IoSource.FileTree

variable {tree : FileTree} {names place : List Text} {old : Utf8.Bytes}

/-- **Writing to a file changes that file only.** -/
theorem entry?_write (h : tree.entry? names = some (.file old)) (content : Utf8.Bytes)
    (place : List Text) :
    entry? (tree.write names content) place =
      if place = names then some (.file content) else tree.entry? place := by
  have hfind : (tree.write names content).entries.find? (·.1 = place) =
      (tree.entries.find? (·.1 = place)).map fun e =>
        if e.1 = names then (names, .file content) else e := by
    have hname (e : List Text × FileEntry) :
        (if e.1 = names then (names, .file content) else e).1 = e.1 := by
      split
      · next he => exact he.symm
      · rfl
    rw [write, List.find?_map]
    simp only [Function.comp_def, hname]
  have hany : (tree.write names content).entries.any (fun e => place.isPrefixOf e.1) =
      tree.entries.any fun e => place.isPrefixOf e.1 := by
    rw [write, List.any_map]
    congr 1
    funext e
    simp only [Function.comp_apply]
    split
    · next he => rw [he]
    · rfl
  unfold entry? at h ⊢
  rw [hfind, hany]
  by_cases hplace : place = names
  · subst hplace
    cases hentry : tree.entries.find? (·.1 = place) with
    | none =>
      rw [hentry] at h
      dsimp only at h
      split at h <;> simp at h
    | some e =>
      have he : e.1 = place := by simpa using List.find?_some hentry
      simp [he]
  · rw [if_neg hplace]
    cases hentry : tree.entries.find? (·.1 = place) with
    | none => rfl
    | some e =>
      have he : e.1 = place := by simpa using List.find?_some hentry
      rw [Option.map_some, if_neg (by rw [he]; exact hplace)]

variable [Platform]

theorem entry?_of_follow {path : List Text} (h : tree.follow place path = .file names old) :
    tree.entry? names = some (.file old) := by
  induction path generalizing place with
  | nil =>
    unfold follow at h
    split at h
    · next hentry =>
      split at h
      · obtain ⟨rfl, rfl⟩ : place = names ∧ _ = old := by simpa using h
        exact hentry
      · exact absurd h (by simp)
    · exact absurd h (by simp)
    · exact absurd h (by simp)
  | cons name path ih =>
    unfold follow at h
    split at h
    · split at h
      · exact absurd h (by simp)
      · split at h
        · exact ih h
        · split at h
          · exact absurd h (by simp)
          · exact ih h
    · exact absurd h (by simp)

theorem follow_write {path : List Text} (h : tree.follow place path = .file names old)
    (content : Utf8.Bytes) :
    (tree.write names content).follow place path = .file names content := by
  have hfile := entry?_of_follow h
  induction path generalizing place with
  | nil =>
    unfold follow at h ⊢
    split at h
    · split at h
      · obtain ⟨rfl, -⟩ : place = names ∧ _ = old := by simpa using h
        rw [entry?_write hfile, if_pos rfl]
      · exact absurd h (by simp)
    · exact absurd h (by simp)
    · exact absurd h (by simp)
  | cons name path ih =>
    unfold follow at h ⊢
    split at h
    · next hdirectory =>
      have hplace : place ≠ names := by
        rintro rfl
        rw [hfile] at hdirectory
        exact absurd hdirectory (by simp)
      rw [entry?_write hfile, if_neg hplace, hdirectory]
      dsimp only
      split at h
      · exact absurd h (by simp)
      · by_cases hup : name = ['.', '.']
        · rw [if_pos hup] at h ⊢
          exact ih h
        · rw [if_neg hup] at h ⊢
          split at h
          · exact absurd h (by simp)
          · next hshort =>
            rw [if_neg hshort]
            exact ih h
    · exact absurd h (by simp)

theorem follow_of_status {path : Path} (h : tree.status path = .file names old) :
    tree.follow (if path.root = [] then tree.home else []) path.parts = .file names old := by
  unfold status at h
  split at h
  · exact absurd h (by simp)
  · split at h
    · exact absurd h (by simp)
    · exact h

/-- **A path that leads to a file leads to it when it has been written.** -/
theorem status_write {path : Path} (h : tree.status path = .file names old)
    (content : Utf8.Bytes) : (tree.write names content).status path = .file names content := by
  have hfollow := follow_write (follow_of_status h) content
  unfold status at h ⊢
  split at h
  · exact absurd h (by simp)
  · next hname =>
    split at h
    · exact absurd h (by simp)
    · next hlength =>
      rw [if_neg hname, if_neg hlength]
      exact hfollow

end IoSource.FileTree
