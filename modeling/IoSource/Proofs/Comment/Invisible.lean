import IoSource.NormalForm
import IoSource.Proofs.Comment.Erase

/-!
# Comments do not show

A comment can be put into a text or taken out of it, and its body changed, and nothing of that is
seen in what is left of the text when its comments have gone (`erase_insert_comment`).

This holds where a comment can start, so the text in front must leave nothing open (`IsSettled`):
no comment, and no slash that the marker would turn into another one.  Such a text can be cut off
before anything that follows (`erase_append`), and then only the comment itself is to be looked at.
-/

namespace IoSource.Comment

/-! ### Settled texts -/

/-- A text the scan of which leaves nothing open: its block comments have their end markers, no line
comment reaches its end, and a slash at its end stands in a comment. -/
structure IsSettled (t : Text) : Prop where
  blocks : ClosesBlocks t
  lines : ∀ m ∈ pattern.findAll t, m.stop = t.length → ['/', '*'] <+: m.text
  slash : t.getLast? = some '/' → pattern.Takes t (t.length - 1)

instance (t : Text) : Decidable (IsSettled t) :=
  decidable_of_iff
    (ClosesBlocks t ∧ (∀ m ∈ pattern.findAll t, m.stop = t.length → ['/', '*'] <+: m.text) ∧
      (t.getLast? = some '/' → pattern.Takes t (t.length - 1)))
    ⟨fun ⟨hblocks, hlines, hslash⟩ => ⟨hblocks, hlines, hslash⟩,
      fun h => ⟨h.blocks, h.lines, h.slash⟩⟩

theorem length?_append {t : Text} {n : Nat} (h : length? t = some n)
    (hblock : ¬ IsOpenBlock (t.take n)) (hline : n = t.length → ['/', '*'] <+: t) (u : Text) :
    length? (t ++ u) = some n := by
  have hbreak : ∀ rest : Text, (restOfLine rest).length ≠ rest.length →
      restOfLine (rest ++ u) = restOfLine rest := by
    intro rest hne
    simp only [restOfLine] at hne ⊢
    rw [List.takeWhile_append, if_neg hne]
  rw [length?.eq_def] at h
  split at h
  · next rest =>
    obtain rfl := Option.some.inj h
    have hne : (restOfLine rest).length ≠ rest.length := by
      intro heq
      have := hline (by rw [heq, List.length_cons])
      simp at this
    rw [List.cons_append, length?, hbreak rest hne]
  · next rest =>
    obtain rfl := Option.some.inj h
    have hne : (restOfLine rest).length ≠ rest.length := by
      intro heq
      have := hline (by rw [heq, List.length_cons, List.length_cons])
      simp at this
    rw [List.cons_append, List.cons_append, length?, hbreak rest hne]
  · next rest =>
    obtain rfl := Option.some.inj h
    have hclosed : ['*', '/'] <:+: rest := by
      by_contra hopen
      refine hblock ⟨⟨rest, ?_⟩, ?_⟩
      · rw [blockLength_of_open hopen]
        simp
      · rw [blockLength_of_open hopen]
        simpa using hopen
    rw [List.cons_append, List.cons_append, length?, blockLength_append hclosed]
  · exact absurd h (by simp)

namespace IsSettled

variable {t : Text} {c : Char} {rest : Text} {n : Nat}

theorem tail (h : IsSettled (c :: rest)) (hnone : length? (c :: rest) = none) : IsSettled rest := by
  have hmem : ∀ m ∈ pattern.findAll rest, m.shift 1 ∈ pattern.findAll (c :: rest) := by
    intro m hm
    rw [findAll_char hnone]
    exact List.mem_map_of_mem hm
  refine ⟨fun m hm => h.blocks (m.shift 1) (hmem m hm), fun m hm hstop => ?_, fun hlast => ?_⟩
  · refine h.lines (m.shift 1) (hmem m hm) ?_
    rw [Match.stop_shift, hstop, List.length_cons]
  · have hslash := h.slash (by rw [List.getLast?_cons, hlast]; rfl)
    obtain ⟨d, rest, rfl⟩ := List.exists_cons_of_ne_nil (l := rest) (by rintro rfl; simp at hlast)
    exact (takes_char hnone).mp hslash

theorem length?_append_eq_none (h : IsSettled (c :: rest)) (hnone : length? (c :: rest) = none)
    (u : Text) : length? (c :: (rest ++ u)) = none := by
  have hstart := length?_eq_none_iff.mp hnone
  refine length?_eq_none_iff.mpr ?_
  cases rest with
  | cons d rest => exact hstart
  | nil =>
    -- no comment takes a slash that stands alone
    have hslash : c ≠ '/' := by
      rintro rfl
      obtain ⟨m, hm, -⟩ := h.slash rfl
      rw [findAll_char hnone] at hm
      exact absurd hm (by simp [Pattern.findAll, Pattern.findFrom])
    rintro (rfl | ⟨rfl, -⟩)
    · exact hstart (Or.inl rfl)
    · exact hslash rfl

theorem drop (h : IsSettled t) (hn : length? t = some n) : IsSettled (t.drop n) := by
  have hle := (length?_le hn).2
  have hmem : ∀ m ∈ pattern.findAll (t.drop n), m.shift n ∈ pattern.findAll t := by
    intro m hm
    rw [findAll_comment hn]
    exact List.mem_cons_of_mem _ (List.mem_map_of_mem hm)
  refine ⟨fun m hm => h.blocks (m.shift n) (hmem m hm), fun m hm hstop => ?_, fun hlast => ?_⟩
  · refine h.lines (m.shift n) (hmem m hm) ?_
    rw [Match.stop_shift, hstop, List.length_drop]
    omega
  · have hlt : n < t.length := by
      by_contra hge
      rw [List.drop_eq_nil_of_le (by omega)] at hlast
      exact absurd hlast (by simp)
    have hplace : t.length - 1 = (t.drop n).length - 1 + n := by
      rw [List.length_drop]
      omega
    rw [List.getLast?_drop, if_neg (by omega)] at hlast
    have hslash := h.slash hlast
    rwa [hplace, takes_comment hn] at hslash

theorem length?_append_eq_some (h : IsSettled t) (hn : length? t = some n) (u : Text) :
    length? (t ++ u) = some n := by
  have hfirst : (⟨0, t.take n⟩ : Match) ∈ pattern.findAll t := by
    rw [findAll_comment hn]
    exact List.mem_cons_self
  refine length?_append hn (h.blocks _ hfirst) (fun heq => ?_) u
  have := h.lines _ hfirst (by rw [Match.stop, List.length_take, heq]; simp)
  rwa [heq, List.take_length] at this

end IsSettled

/-- **A settled text can be cut off.**  What comes behind is scanned as if it stood alone. -/
theorem erase_append {t : Text} (h : IsSettled t) (u : Text) :
    erase (t ++ u) = erase t ++ erase u := by
  induction t using scan_induction with
  | nil => rfl
  | char c rest hnone ih =>
    rw [List.cons_append, erase_char (h.length?_append_eq_none hnone u), erase_char hnone,
      ih (h.tail hnone), List.cons_append]
  | comment t n hn ih =>
    rw [erase_comment (h.length?_append_eq_some hn u), erase_comment hn,
      List.drop_append_of_le_length (length?_le hn).2, ih (h.drop hn)]

/-! ### One comment -/

theorem dropWhile_append_lineBreak {body : Text} (hbody : ∀ c ∈ body, isLineBreak c = false)
    {c : Char} (hc : isLineBreak c = true) (rest : Text) :
    (body ++ c :: rest).dropWhile (fun c => !isLineBreak c) = c :: rest := by
  rw [List.dropWhile_append_of_pos (fun d hd => by simp [hbody d hd]),
    List.dropWhile_cons_of_neg (by simp [hc])]

theorem blockLength_append_end {body : Text} (hbody : ¬ ['*', '/'] <:+: body) (rest : Text) :
    blockLength (body ++ '*' :: '/' :: rest) = body.length + 2 := by
  induction body with
  | nil => rfl
  | cons c body ih =>
    obtain ⟨hpair, htail⟩ := not_or.mp (mt List.infix_cons_iff.mpr hbody)
    have hnext : ∀ d, c = '*' → body ++ '*' :: '/' :: rest = '/' :: d → False := by
      rintro d rfl heq
      cases body with
      | nil => exact absurd (List.cons.inj heq).1 (by decide)
      | cons e body => exact hpair (pair_prefix_cons_iff.mpr ⟨rfl, by simp [(List.cons.inj heq).1]⟩)
    rw [List.cons_append, blockLength, ih htail, List.length_cons]
    exact hnext

theorem drop_blockLength_append_end {body : Text} (hbody : ¬ ['*', '/'] <:+: body) (rest : Text) :
    (body ++ '*' :: '/' :: rest).drop (blockLength (body ++ '*' :: '/' :: rest)) = rest := by
  rw [blockLength_append_end hbody, List.drop_length_add_append]
  rfl

/-! ### A comment between two texts -/

theorem normalize_congr {s t : Text} (h : erase s = erase t) :
    Text.normalize s = Text.normalize t := by
  rw [Text.normalize, Text.normalize, h]

/-- **Comments do not show.**  Behind a settled text a line comment is as good as the line break
that ends it, and a block comment as good as nothing, whatever they hold and whatever follows. -/
theorem erase_insert_comment {pre : Text} (hpre : IsSettled pre) (post : Text) {line : Text}
    (hline : ∀ c ∈ line, isLineBreak c = false) {block : Text} (hblock : ¬ ['*', '/'] <:+: block) :
    (erase (pre ++ '#' :: (line ++ '\n' :: post)) = erase (pre ++ '\n' :: post) ∧
      erase (pre ++ '/' :: '/' :: (line ++ '\n' :: post)) = erase (pre ++ '\n' :: post) ∧
      erase (pre ++ '/' :: '*' :: (block ++ '*' :: '/' :: post)) = erase (pre ++ post)) ∧
    Text.normalize (pre ++ '#' :: (line ++ '\n' :: post)) = Text.normalize (pre ++ '\n' :: post) ∧
      Text.normalize (pre ++ '/' :: '/' :: (line ++ '\n' :: post)) =
        Text.normalize (pre ++ '\n' :: post) ∧
      Text.normalize (pre ++ '/' :: '*' :: (block ++ '*' :: '/' :: post)) =
        Text.normalize (pre ++ post) := by
  have hnewline : isLineBreak '\n' = true := by decide
  have hhash : erase (pre ++ '#' :: (line ++ '\n' :: post)) = erase (pre ++ '\n' :: post) := by
    rw [erase_append hpre, erase_hash, dropWhile_append_lineBreak hline hnewline,
      ← erase_append hpre]
  have hslashes :
      erase (pre ++ '/' :: '/' :: (line ++ '\n' :: post)) = erase (pre ++ '\n' :: post) := by
    rw [erase_append hpre, erase_slashes, dropWhile_append_lineBreak hline hnewline,
      ← erase_append hpre]
  have hstar :
      erase (pre ++ '/' :: '*' :: (block ++ '*' :: '/' :: post)) = erase (pre ++ post) := by
    rw [erase_append hpre, erase_block, drop_blockLength_append_end hblock, ← erase_append hpre]
  exact ⟨⟨hhash, hslashes, hstar⟩, normalize_congr hhash, normalize_congr hslashes,
    normalize_congr hstar⟩

/-- A slash that ends a comment and a slash that starts the text behind do not meet. -/
theorem erase_insert_comment_slashes :
    IsSettled ['p', ' ', '/', '*', '#', '*', '/'] ∧
      (∀ c ∈ ['/', '*', '\''], isLineBreak c = false) ∧ ¬ ['*', '/'] <:+: ['/', '#', '*'] ∧
      Text.normalize (['p', ' ', '/', '*', '#', '*', '/'] ++
        '#' :: (['/', '*', '\''] ++ '\n' :: ['/', 'q'])) = ['p', ';', ' ', '/', 'q'] ∧
      Text.normalize (['p', ' ', '/', '*', '#', '*', '/'] ++
        '/' :: '*' :: (['/', '#', '*'] ++ '*' :: '/' :: ['/', 'q'])) = ['p', ' ', '/', 'q'] := by
  have hpre : IsSettled ['p', ' ', '/', '*', '#', '*', '/'] := by decide
  have hline : ∀ c ∈ ['/', '*', '\''], isLineBreak c = false := by simp [isLineBreak]
  have hblock : ¬ ['*', '/'] <:+: ['/', '#', '*'] := by decide
  obtain ⟨-, hhash, -, hstar⟩ := erase_insert_comment hpre ['/', 'q'] hline hblock
  refine ⟨hpre, hline, hblock, ?_, ?_⟩
  · rw [hhash]
    decide
  · rw [hstar]
    decide

end IoSource.Comment
