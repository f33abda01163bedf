import IoSource.Proofs.Comment.Invisible

/-!
# The grammar of comments

A text is code, and comments with code behind each of them.  `Division.Divides` says so without a
scan: a comment is told by its own characters and by what stands behind it (`IsCommentBefore`), and
in code no marker starts, not even one that ends in the comment behind (`IsCodeBefore`).

Every text has exactly one division, and deleting comments leaves its code (`comments_divide`).  The
scan is not mentioned there, but it is what the proof follows: where it meets a character outside
comments, a division starts with code, and where it meets a comment, with just that one.
-/

namespace IoSource.Comment

def markers : List Text := [['#'], ['/', '/'], ['/', '*']]

/-- A comment that stands in front of the text `behind`. -/
inductive IsCommentBefore (behind : Text) : Text → Prop
  /-- The rest of a line, up to the line break or the end of the text. -/
  | line {marker body : Text} (hmarker : marker = ['#'] ∨ marker = ['/', '/'])
      (hbody : ∀ c ∈ body, isLineBreak c = false)
      (hlongest : ∀ c ∈ behind.head?, isLineBreak c = true) :
      IsCommentBefore behind (marker ++ body)
  /-- A block that ends with its first end marker. -/
  | block {body : Text} (hbody : ¬ ['*', '/'] <:+: body) :
      IsCommentBefore behind ('/' :: '*' :: (body ++ ['*', '/']))
  /-- A block that has no end marker takes the rest of the text. -/
  | openBlock {body : Text} (hbody : ¬ ['*', '/'] <:+: body) (hend : behind = []) :
      IsCommentBefore behind ('/' :: '*' :: body)

/-- No marker starts in the text `code` when the text `behind` follows it. -/
def IsCodeBefore (behind code : Text) : Prop :=
  ∀ rest, rest <:+ code → rest ≠ [] → ∀ marker ∈ markers, ¬ marker <+: rest ++ behind

/-- The text of comments with the code behind each of them. -/
def written (parts : List (Text × Text)) : Text := parts.flatMap fun part => part.1 ++ part.2

inductive AreParts : List (Text × Text) → Prop
  | nil : AreParts []
  | cons {comment code : Text} {later : List (Text × Text)}
      (hcomment : IsCommentBefore (code ++ written later) comment)
      (hcode : IsCodeBefore (written later) code) (hlater : AreParts later) :
      AreParts ((comment, code) :: later)

/-- Code, and comments with the code behind each of them. -/
structure Division where
  first : Text
  parts : List (Text × Text)
  deriving DecidableEq, Repr

namespace Division

def code (d : Division) : Text := d.first ++ d.parts.flatMap Prod.snd

/-- What is left when only the block comments have gone. -/
def outsideBlocks (d : Division) : Text :=
  d.first ++ d.parts.flatMap fun part =>
    (if ['/', '*'] <+: part.1 then [] else part.1) ++ part.2

structure Divides (d : Division) (t : Text) : Prop where
  text : d.first ++ written d.parts = t
  first : IsCodeBefore (written d.parts) d.first
  parts : AreParts d.parts

end Division

/-! ### Code and comments by themselves -/

theorem exists_marker_prefix_iff {c : Char} {rest : Text} :
    (∃ marker ∈ markers, marker <+: c :: rest) ↔ StartsComment c rest.head? := by
  have hhash : ['#'] <+: c :: rest ↔ c = '#' := by
    rw [List.cons_prefix_cons, and_iff_left List.nil_prefix, eq_comm]
  simp only [markers, StartsComment, List.exists_mem_cons_iff, List.not_mem_nil, false_and,
    exists_false, or_false, hhash, pair_prefix_cons_iff]
  grind

@[simp] theorem isCodeBefore_nil (behind : Text) : IsCodeBefore behind [] := by
  intro rest hrest hne
  exact absurd (List.suffix_nil.mp hrest) hne

theorem isCodeBefore_cons {behind code : Text} {c : Char} :
    IsCodeBefore behind (c :: code) ↔
      length? (c :: (code ++ behind)) = none ∧ IsCodeBefore behind code := by
  rw [length?_eq_none_iff, ← exists_marker_prefix_iff]
  constructor
  · intro h
    refine ⟨?_, fun rest hrest => h rest (hrest.trans (List.suffix_cons c code))⟩
    rintro ⟨marker, hmarker, hprefix⟩
    exact h (c :: code) (List.suffix_refl _) (by simp) marker hmarker hprefix
  · rintro ⟨hfirst, hcode⟩ rest hrest hne marker hmarker hprefix
    rcases List.suffix_cons_iff.mp hrest with rfl | hrest
    · exact hfirst ⟨marker, hmarker, hprefix⟩
    · exact hcode rest hrest hne marker hmarker hprefix

theorem restOfLine_append {body behind : Text} (hbody : ∀ c ∈ body, isLineBreak c = false)
    (hbehind : ∀ c ∈ behind.head?, isLineBreak c = true) :
    restOfLine (body ++ behind) = body := by
  have hpos : ∀ c ∈ body, (!isLineBreak c) = true := fun c hc => by rw [hbody c hc]; rfl
  rw [restOfLine, List.takeWhile_append_of_pos hpos]
  cases behind with
  | nil => rw [List.takeWhile_nil, List.append_nil]
  | cons c behind =>
    have hc := hbehind c (by simp)
    rw [List.takeWhile_cons_of_neg (by simp [hc]), List.append_nil]

/-- **A comment reaches as far as the scan takes it.** -/
theorem IsCommentBefore.length?_append {behind comment : Text}
    (h : IsCommentBefore behind comment) : length? (comment ++ behind) = some comment.length := by
  cases h with
  | line hmarker hbody hlongest =>
    rcases hmarker with rfl | rfl
    · simp [length?, restOfLine_append hbody hlongest]
    · simp [length?, restOfLine_append hbody hlongest]
  | @block body hbody =>
    have hlength := blockLength_append_end hbody behind
    simp [length?, hlength]
  | openBlock hbody hend =>
    subst hend
    simp [length?, blockLength_of_open hbody]

theorem IsCommentBefore.ne_nil {behind comment : Text} (h : IsCommentBefore behind comment) :
    comment ≠ [] := by
  rintro rfl
  exact absurd (length?_le h.length?_append).1 (by simp)

theorem exists_first_end {t : Text} (h : ['*', '/'] <:+: t) :
    ∃ body rest, t = body ++ '*' :: '/' :: rest ∧ ¬ ['*', '/'] <:+: body := by
  induction t using blockLength.induct with
  | case1 => exact absurd h (by simp)
  | case2 rest => exact ⟨[], rest, rfl, by simp⟩
  | case3 c rest hne ih =>
    have hnext : ¬ (c = '*' ∧ rest.head? = some '/') := by
      rintro ⟨rfl, hhead⟩
      obtain ⟨later, rfl⟩ := List.head?_eq_some_iff.mp hhead
      exact hne later rfl rfl
    have htail : ['*', '/'] <:+: rest := by
      refine (List.infix_cons_iff.mp h).resolve_left fun hpair => hnext ?_
      exact (pair_prefix_cons_iff.mp hpair).imp Eq.symm id
    obtain ⟨body, later, rfl, hbody⟩ := ih htail
    refine ⟨c :: body, later, rfl, fun hend => ?_⟩
    rcases List.infix_cons_iff.mp hend with hpair | hend
    · obtain ⟨rfl, hhead⟩ := pair_prefix_cons_iff.mp hpair
      refine hnext ⟨rfl, ?_⟩
      rw [List.head?_append, hhead]
      rfl
    · exact hbody hend

theorem isCommentBefore_take {t : Text} {n : Nat} (h : length? t = some n) :
    IsCommentBefore (t.drop n) (t.take n) := by
  have hline : ∀ {marker : Text} (rest : Text), marker = ['#'] ∨ marker = ['/', '/'] →
      IsCommentBefore (rest.drop (restOfLine rest).length)
        (marker ++ rest.take (restOfLine rest).length) := by
    intro marker rest hmarker
    have htake : rest.take (restOfLine rest).length = restOfLine rest :=
      (List.prefix_iff_eq_take.mp (List.takeWhile_prefix _)).symm
    rw [drop_length_restOfLine, htake]
    refine .line hmarker (fun c hc => ?_) fun c hc => ?_
    · simpa using List.mem_takeWhile_imp hc
    · simpa using Text.not_of_mem_head?_dropWhile (fun c => !isLineBreak c) rest c hc
  rw [length?.eq_def] at h
  split at h
  · next rest =>
    obtain rfl := Option.some.inj h
    exact hline rest (Or.inl rfl)
  · next rest =>
    obtain rfl := Option.some.inj h
    exact hline rest (Or.inr rfl)
  · next rest =>
    obtain rfl := Option.some.inj h
    rw [List.take_succ_cons, List.take_succ_cons, List.drop_succ_cons, List.drop_succ_cons]
    by_cases hend : ['*', '/'] <:+: rest
    · obtain ⟨body, later, rfl, hbody⟩ := exists_first_end hend
      have htake : (body ++ '*' :: '/' :: later).take (body.length + 2) = body ++ ['*', '/'] := by
        rw [List.take_length_add_append]
        rfl
      rw [blockLength_append_end hbody, htake]
      exact .block hbody
    · rw [blockLength_of_open hend, List.take_length, List.drop_length]
      exact .openBlock hend rfl
  · exact absurd h (by simp)

/-! ### Divisions along the scan -/

namespace Division

variable {d d' : Division} {t : Text}

theorem Divides.eq_of_nil (h : d.Divides []) : d = ⟨[], []⟩ := by
  obtain ⟨first, parts⟩ := d
  obtain ⟨hfirst, hparts⟩ := List.append_eq_nil_iff.mp h.text
  cases hfirst
  cases h.parts with
  | nil => rfl
  | cons hcomment hcode hlater =>
    exact absurd (List.append_eq_nil_iff.mp (List.append_eq_nil_iff.mp hparts).1).1
      hcomment.ne_nil

/-- Where the scan meets a character outside comments, a division starts with code. -/
theorem Divides.tail {c : Char} {rest : Text} (hnone : length? (c :: rest) = none)
    (h : d.Divides (c :: rest)) :
    ∃ first, d = ⟨c :: first, d.parts⟩ ∧ Divides ⟨first, d.parts⟩ rest := by
  obtain ⟨first, parts⟩ := d
  cases first with
  | cons x first =>
    obtain ⟨rfl, htext⟩ := List.cons.inj h.text
    exact ⟨first, rfl, htext, (isCodeBefore_cons.mp h.first).2, h.parts⟩
  | nil =>
    have htext : written parts = c :: rest := h.text
    cases h.parts with
    | nil => exact absurd htext (by simp [written])
    | @cons comment code later hcomment hcode hlater =>
      have hsome := hcomment.length?_append
      rw [← List.append_assoc] at hsome
      rw [← htext] at hnone
      exact absurd (hsome.symm.trans hnone) (by simp)

/-- Where it meets a comment, a division starts with that one. -/
theorem Divides.drop {n : Nat} (hn : length? t = some n) (h : d.Divides t) :
    ∃ code later, d = ⟨[], (t.take n, code) :: later⟩ ∧ Divides ⟨code, later⟩ (t.drop n) := by
  obtain ⟨first, parts⟩ := d
  cases first with
  | cons c first =>
    have hnone := (isCodeBefore_cons.mp h.first).1
    have htext : c :: (first ++ written parts) = t := h.text
    rw [htext, hn] at hnone
    exact absurd hnone (by simp)
  | nil =>
    have htext : written parts = t := h.text
    cases h.parts with
    | nil => exact absurd hn (by simp [← htext, written, length?])
    | @cons comment code later hcomment hcode hlater =>
      have hwhole : comment ++ (code ++ written later) = t := by
        rw [← htext, ← List.append_assoc]
        rfl
      have hlength := hcomment.length?_append
      rw [hwhole, hn] at hlength
      obtain rfl := Option.some.inj hlength
      rw [← hwhole, List.take_left, List.drop_left]
      exact ⟨code, later, rfl, rfl, hcode, hlater⟩

theorem Divides.cons {c : Char} {rest : Text} (hnone : length? (c :: rest) = none)
    (h : d.Divides rest) : Divides ⟨c :: d.first, d.parts⟩ (c :: rest) := by
  refine ⟨congrArg (c :: ·) h.text, isCodeBefore_cons.mpr ⟨?_, h.first⟩, h.parts⟩
  rwa [h.text]

theorem Divides.comment {n : Nat} (hn : length? t = some n) (h : d.Divides (t.drop n)) :
    Divides ⟨[], (t.take n, d.first) :: d.parts⟩ t := by
  refine ⟨?_, isCodeBefore_nil _, .cons ?_ h.first h.parts⟩
  · show [] ++ (t.take n ++ d.first ++ written d.parts) = t
    rw [List.nil_append, List.append_assoc, h.text, List.take_append_drop]
  · rw [h.text]
    exact isCommentBefore_take hn

theorem exists_divides (t : Text) : ∃ d : Division, d.Divides t := by
  induction t using scan_induction with
  | nil => exact ⟨⟨[], []⟩, rfl, isCodeBefore_nil _, .nil⟩
  | char c rest hnone ih =>
    obtain ⟨d, hd⟩ := ih
    exact ⟨_, hd.cons hnone⟩
  | comment t n hn ih =>
    obtain ⟨d, hd⟩ := ih
    exact ⟨_, hd.comment hn⟩

theorem Divides.unique (h : d.Divides t) (h' : d'.Divides t) : d = d' := by
  induction t using scan_induction generalizing d d' with
  | nil => rw [h.eq_of_nil, h'.eq_of_nil]
  | char c rest hnone ih =>
    obtain ⟨first, hd, hrest⟩ := h.tail hnone
    obtain ⟨first', hd', hrest'⟩ := h'.tail hnone
    obtain ⟨rfl, hparts⟩ := Division.mk.inj (ih hrest hrest')
    rw [hd, hd', hparts]
  | comment t n hn ih =>
    obtain ⟨code, later, rfl, hrest⟩ := h.drop hn
    obtain ⟨code', later', rfl, hrest'⟩ := h'.drop hn
    obtain ⟨rfl, rfl⟩ := Division.mk.inj (ih hrest hrest')
    rfl

/-! ### What is left -/

theorem Divides.erase_eq (h : d.Divides t) : erase t = d.code := by
  induction t using scan_induction generalizing d with
  | nil =>
    rw [h.eq_of_nil]
    rfl
  | char c rest hnone ih =>
    obtain ⟨first, hd, hrest⟩ := h.tail hnone
    rw [hd, erase_char hnone, ih hrest]
    rfl
  | comment t n hn ih =>
    obtain ⟨code, later, rfl, hrest⟩ := h.drop hn
    rw [erase_comment hn, ih hrest]
    rfl

end Division

/-- Only block comments reach across lines. -/
theorem IsCommentBefore.not_isLineBreak {behind comment : Text}
    (h : IsCommentBefore behind comment) (hblock : ¬ ['/', '*'] <+: comment) :
    ∀ c ∈ comment, isLineBreak c = false := by
  cases h with
  | line hmarker hbody =>
    intro c hc
    rcases List.mem_append.mp hc with hc | hc
    · rcases hmarker with rfl | rfl
      · rw [List.mem_singleton.mp hc]
        rfl
      · obtain rfl : c = '/' := by simpa using hc
        rfl
    · exact hbody c hc
  | block => exact absurd ⟨_, rfl⟩ hblock
  | openBlock => exact absurd ⟨_, rfl⟩ hblock

theorem AreParts.filter_isLineBreak {parts : List (Text × Text)} (h : AreParts parts) :
    (parts.flatMap Prod.snd).filter isLineBreak =
      (parts.flatMap fun part =>
        (if ['/', '*'] <+: part.1 then [] else part.1) ++ part.2).filter isLineBreak := by
  induction h with
  | nil => rfl
  | @cons comment code later hcomment hcode hlater ih =>
    have hnone : (if ['/', '*'] <+: comment then [] else comment).filter isLineBreak = [] := by
      split
      · rfl
      · next hblock =>
        rw [List.filter_eq_nil_iff]
        intro c hc
        simp [hcomment.not_isLineBreak hblock c hc]
    rw [List.flatMap_cons, List.flatMap_cons, List.filter_append, List.filter_append,
      List.filter_append, hnone, List.nil_append, ih]

/-- **Deleting comments leaves the code** of the one division of a text into code and comments.  In
what is left no marker stands, so that deleting again changes nothing, and of the line breaks just
those in block comments have gone. -/
theorem comments_divide (t : Text) :
    (∃! d : Division, d.Divides t) ∧
    (∀ d : Division, d.Divides t →
      erase t = d.code ∧
      (erase t).filter isLineBreak = d.outsideBlocks.filter isLineBreak) ∧
    (∀ marker ∈ markers, ¬ marker <:+: erase t) ∧
    erase (erase t) = erase t := by
  obtain ⟨d, hd⟩ := Division.exists_divides t
  have hmarker := noMarker_erase t
  refine ⟨⟨d, hd, fun d' hd' => hd'.unique hd⟩, fun d hd => ⟨hd.erase_eq, ?_⟩, ?_,
    erase_eq_self hmarker⟩
  · rw [hd.erase_eq, Division.code, Division.outsideBlocks, List.filter_append,
      List.filter_append, hd.parts.filter_isLineBreak]
  · obtain ⟨hhash, hslashes, hstar⟩ := hmarker
    intro marker hmem
    rcases (by simpa [markers] using hmem) with rfl | rfl | rfl
    · rwa [List.singleton_infix_iff]
    · exact hslashes
    · exact hstar

end IoSource.Comment
