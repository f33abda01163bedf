import IoSource.Proofs.Comment.Erase
import IoSource.Proofs.NormalForm.OnePass

/-!
# Normal texts

`IsNormal` says without any rewriting what a one-line form looks like.  It is exactly the property
of being left alone: every one-line form is normal, and a normal text is its own one-line form
(`normalize_normalForm`).

Being normal is local, a matter of single characters and of neighbours (`Fits`), apart from the two
ends of the text.  A rewriting brings together only characters that stood at the two sides of a
gap, so it is enough to look at one gap with its neighbours, in both directions: what `gapText` puts
there fits, and what fits there `gapText` leaves.
-/

namespace IoSource.Text

open Comment (NoMarker StartsComment)

/-- A text on one line as an interpreter gets it. -/
structure IsNormal (t : Text) : Prop where
  noMarker : NoMarker t
  plain : ∀ c ∈ t, isLineBreak c = false ∧ c ≠ '\t'
  singleSpaces : ¬ [' ', ' '] <:+: t
  first : ∀ c ∈ t.head?, isSpace c = false
  last : ∀ c ∈ t.getLast?, isSpace c = false
  behindOpening : ∀ a b, [a, b] <:+: t → opensGap a = true → isSpace b = false
  beforeClosing : ∀ a, [a, ')'] <:+: t → isSpace a = false

/-! ### Neighbours -/

/-- The two characters that start a line or block comment with a slash. -/
def IsMarker (a b : Char) : Prop := a = '/' ∧ (b = '/' ∨ b = '*')

/-- Whether two neighbours may stand in a normal text. -/
structure Fits (a b : Char) : Prop where
  marker : ¬ IsMarker a b
  spaces : ¬ (a = ' ' ∧ b = ' ')
  opening : opensGap a = true → isSpace b = false
  closing : b = ')' → isSpace a = false

/-- Whether a character may stand in a normal text. -/
structure Clean (c : Char) : Prop where
  hash : c ≠ '#'
  lineBreak : isLineBreak c = false
  tab : c ≠ '\t'

theorem isChain_iff_neighbours {R : Char → Char → Prop} {t : Text} :
    t.IsChain R ↔ ∀ a b, [a, b] <:+: t → R a b := by
  rw [List.isChain_iff_forall_rel_of_append_cons_cons]
  constructor
  · rintro h a b ⟨s, u, rfl⟩
    exact h (List.append_assoc s [a, b] u)
  · rintro h a b s u rfl
    exact h a b ⟨s, u, by simp⟩

theorem noMarker_iff {t : Text} :
    NoMarker t ↔ (∀ c ∈ t, c ≠ '#') ∧ t.IsChain fun a b => ¬ IsMarker a b := by
  rw [isChain_iff_neighbours]
  constructor
  · rintro ⟨hhash, hslash, hstar⟩
    refine ⟨fun c hc h => hhash (h ▸ hc), ?_⟩
    rintro a b hab ⟨rfl, rfl | rfl⟩
    · exact hslash hab
    · exact hstar hab
  · rintro ⟨hhash, hpair⟩
    exact ⟨fun h => hhash _ h rfl, fun h => hpair _ _ h ⟨rfl, Or.inl rfl⟩,
      fun h => hpair _ _ h ⟨rfl, Or.inr rfl⟩⟩

/-- **Being normal is local.** -/
theorem isNormal_iff {t : Text} :
    IsNormal t ↔ (∀ c ∈ t, Clean c) ∧ t.IsChain Fits ∧
      (∀ c ∈ t.head?, isSpace c = false) ∧ ∀ c ∈ t.getLast?, isSpace c = false := by
  constructor
  · intro h
    obtain ⟨hhash, hmarker⟩ := noMarker_iff.mp h.noMarker
    refine ⟨fun c hc => ⟨hhash c hc, (h.plain c hc).1, (h.plain c hc).2⟩, ?_, h.first, h.last⟩
    refine isChain_iff_neighbours.mpr fun a b hab => ⟨isChain_iff_neighbours.mp hmarker a b hab, ?_,
      h.behindOpening a b hab, ?_⟩
    · rintro ⟨rfl, rfl⟩
      exact h.singleSpaces hab
    · rintro rfl
      exact h.beforeClosing a hab
  · rintro ⟨hclean, hchain, hfirst, hlast⟩
    have hfits := isChain_iff_neighbours.mp hchain
    exact {
      noMarker := noMarker_iff.mpr
        ⟨fun c hc => (hclean c hc).hash, hchain.imp fun _ _ h => h.marker⟩
      plain := fun c hc => ⟨(hclean c hc).lineBreak, (hclean c hc).tab⟩
      singleSpaces := fun h => (hfits _ _ h).spaces ⟨rfl, rfl⟩
      first := hfirst
      last := hlast
      behindOpening := fun a b h => (hfits a b h).opening
      beforeClosing := fun a h => (hfits a _ h).closing rfl }

theorem Fits.of_space {a b : Char} (ha : isSpace a = true) (hspaces : ¬ (a = ' ' ∧ b = ' '))
    (hb : b ≠ ')') : Fits a b := by
  refine ⟨?_, hspaces, fun h => ?_, fun h => absurd h hb⟩
  · rintro ⟨rfl, -⟩
    exact absurd ha (by decide)
  · rcases (by simpa [opensGap] using h : a = '(' ∨ a = ',') with rfl | rfl
    · exact absurd ha (by decide)
    · exact absurd ha (by decide)

theorem Fits.to_space {a b : Char} (ha : isSpace a = false) (hb : isSpace b = true)
    (hopen : opensGap a ≠ true) : Fits a b := by
  refine ⟨?_, ?_, fun h => absurd h hopen, fun _ => ha⟩
  · rintro ⟨-, rfl | rfl⟩
    · exact absurd hb (by decide)
    · exact absurd hb (by decide)
  · rintro ⟨rfl, -⟩
    exact absurd ha (by decide)

theorem Fits.of_solid {a b : Char} (ha : isSpace a = false) (hb : isSpace b = false)
    (h : ¬ IsMarker a b) : Fits a b := by
  refine ⟨h, ?_, fun _ => hb, fun _ => ha⟩
  rintro ⟨rfl, -⟩
  exact absurd ha (by decide)

/-! ### Single blanks -/

/-- No two spaces are left side by side; behind a blank that has been passed stands none at all. -/
theorem isChain_squeeze (before : Option Char) (t : Text) :
    (replaceRuns isBlank (fun _ _ _ => [' ']) before t).IsChain (fun a b => ¬ (a = ' ' ∧ b = ' ')) ∧
      (before.any isBlank = true →
        ∀ c ∈ (replaceRuns isBlank (fun _ _ _ => [' ']) before t).head?, isBlank c = false) := by
  induction t generalizing before with
  | nil => simp [replaceRuns]
  | cons c rest ih =>
    obtain ⟨hchain, hhead⟩ := ih (some c)
    rw [replaceRuns]
    cases hc : isBlank c with
    | false =>
      refine ⟨List.isChain_cons.mpr ⟨fun d _ h => ?_, hchain⟩, fun _ d hd => ?_⟩
      · rw [h.1] at hc
        exact absurd hc (by decide)
      · obtain rfl : c = d := by simpa using hd
        exact hc
    | true =>
      rw [if_pos rfl]
      split
      · next hb => exact ⟨hchain, fun _ => hhead hc⟩
      · next hb =>
        refine ⟨List.isChain_cons.mpr ⟨fun d hd h => ?_, hchain⟩, fun h => absurd h hb⟩
        have := hhead hc d hd
        rw [h.2] at this
        exact absurd this (by decide)

theorem eq_space_of_mem_squeeze {before : Option Char} {t : Text} {c : Char}
    (hc : c ∈ replaceRuns isBlank (fun _ _ _ => [' ']) before t) (hblank : isBlank c = true) :
    c = ' ' := by
  induction t generalizing before with
  | nil => exact absurd hc (by simp [replaceRuns])
  | cons d rest ih =>
    rw [replaceRuns] at hc
    split at hc
    · split at hc
      · exact ih hc
      · rcases List.mem_append.mp hc with hc | hc
        · exact List.mem_singleton.mp hc
        · exact ih hc
    · next hd =>
      rcases List.mem_cons.mp hc with rfl | hc
      · exact absurd hblank hd
      · exact ih hc

theorem squeeze_eq_self {before : Option Char} {t : Text}
    (hchain : t.IsChain fun a b => ¬ (a = ' ' ∧ b = ' ')) (htab : ∀ c ∈ t, c ≠ '\t')
    (hbefore : before.any isBlank = true → ∀ c ∈ t.head?, isBlank c = false) :
    replaceRuns isBlank (fun _ _ _ => [' ']) before t = t := by
  induction t generalizing before with
  | nil => rfl
  | cons c rest ih =>
    have hrest : replaceRuns isBlank (fun _ _ _ => [' ']) (some c) rest = rest := by
      refine ih hchain.tail (fun d hd => htab d (List.mem_cons_of_mem c hd)) fun hc d hd => ?_
      have hspace : ∀ e : Char, e ≠ '\t' → isBlank e = true → e = ' ' := fun e he h =>
        (by simpa [isBlank] using h : e = ' ' ∨ e = '\t').resolve_right he
      by_contra hblank
      refine (List.isChain_cons.mp hchain).1 d hd ⟨hspace c (htab c (by simp)) hc, hspace d ?_ ?_⟩
      · exact htab d (List.mem_cons_of_mem c (List.mem_of_mem_head? hd))
      · simpa using hblank
    rw [replaceRuns, hrest]
    split
    · next hc =>
      have hb : ¬ before.any isBlank = true := fun hb => by
        have := hbefore hb c (by simp)
        rw [hc] at this
        exact absurd this (by simp)
      rw [if_neg hb]
      obtain rfl | rfl : c = ' ' ∨ c = '\t' := by simpa [isBlank] using hc
      · rfl
      · exact absurd rfl (htab '\t' (by simp))
    · rfl

/-! ### One gap -/

theorem clean_of_mem_gapText {before after : Option Char} {gap : Text}
    (hgap : ∀ c ∈ gap, isSpace c = true) : ∀ c ∈ gapText before gap after, Clean c := by
  intro c hc
  rw [gapText] at hc
  split at hc
  · exact absurd hc (by simp)
  · split at hc
    · rcases (by simpa [statementSeparator] using hc : c = ';' ∨ c = ' ') with rfl | rfl
      · exact ⟨by decide, by decide, by decide⟩
      · exact ⟨by decide, by decide, by decide⟩
    · next hbreak =>
      have hwhite := isSpace_of_mem_singleBlanks hgap c hc
      refine ⟨?_, ?_, ?_⟩
      · rintro rfl
        exact absurd hwhite (by decide)
      · rw [← any_isLineBreak_singleBlanks, List.any_eq_true] at hbreak
        exact Bool.eq_false_iff.mpr fun h => hbreak ⟨c, hc, h⟩
      · rintro rfl
        rw [← squeezeBlanks_eq] at hc
        exact absurd (eq_space_of_mem_squeeze hc (by decide)) (by decide)

theorem isChain_singleBlanks {gap : Text} (hgap : ∀ c ∈ gap, isSpace c = true) :
    (singleBlanks gap).IsChain Fits := by
  have hwhite := isSpace_of_mem_singleBlanks hgap
  have hspaces := (isChain_squeeze none gap).1
  rw [← squeezeBlanks, squeezeBlanks_eq] at hspaces
  refine List.IsChain.imp_of_mem_imp (fun d e hd he h => ?_) hspaces
  refine Fits.of_space (hwhite d hd) h ?_
  rintro rfl
  exact absurd (hwhite _ he) (by decide)

/-- A text fits between two characters if all its characters fit to both. -/
theorem isChain_between {b c : Char} {t : Text} (hne : t ≠ []) (ht : t.IsChain Fits)
    (hb : ∀ d ∈ t, Fits b d) (hc : ∀ d ∈ t, Fits d c) : (b :: (t ++ [c])).IsChain Fits := by
  have hend : (t ++ [c]).IsChain Fits := by
    refine List.isChain_append.mpr ⟨ht, List.isChain_singleton c, fun d hd e he => ?_⟩
    obtain rfl : c = e := by simpa using he
    exact hc d (List.mem_of_mem_getLast? hd)
  refine List.isChain_cons.mpr ⟨fun d hd => hb d ?_, hend⟩
  obtain ⟨e, t, rfl⟩ := List.exists_cons_of_ne_nil hne
  obtain rfl : e = d := by simpa using hd
  exact List.mem_cons_self

/-- **What is put in place of a gap fits** between its neighbours. -/
theorem isChain_gapText {b c : Char} {gap : Text} (hb : isSpace b = false)
    (hc : isSpace c = false) (hgap : ∀ d ∈ gap, isSpace d = true)
    (hmarker : gap = [] → ¬ IsMarker b c) :
    (b :: (gapText (some b) gap (some c) ++ [c])).IsChain Fits := by
  rw [gapText_some]
  split
  · next hbracket =>
    refine List.isChain_pair.mpr (Fits.of_solid hb hc ?_)
    rintro ⟨rfl, h⟩
    rcases hbracket with hopen | rfl
    · exact absurd hopen (by decide)
    · exact absurd h (by decide)
  · next hbracket =>
    obtain ⟨hopen, hclose⟩ := not_or.mp hbracket
    have hafter : ∀ d, isSpace d = true → Fits d c := fun d hd => by
      refine Fits.of_space hd ?_ hclose
      rintro ⟨-, rfl⟩
      exact absurd hc (by decide)
    split
    · have hsemicolon : Fits b ';' := Fits.of_solid hb (by decide) (by rintro ⟨-, h⟩; simp at h)
      have hspace : Fits ';' ' ' := Fits.to_space (by decide) (by decide) (by decide)
      exact List.isChain_cons_cons.mpr ⟨hsemicolon, List.isChain_cons_cons.mpr
        ⟨hspace, List.isChain_pair.mpr (hafter ' ' (by decide))⟩⟩
    · have hwhite := isSpace_of_mem_singleBlanks hgap
      by_cases hempty : gap = []
      · rw [singleBlanks_eq_nil_iff.mpr hempty]
        exact List.isChain_pair.mpr (Fits.of_solid hb hc (hmarker hempty))
      · refine isChain_between (fun h => hempty (singleBlanks_eq_nil_iff.mp h))
          (isChain_singleBlanks hgap) (fun d hd => ?_) (fun d hd => ?_)
        · exact Fits.to_space hb (hwhite d hd) hopen
        · exact hafter d (hwhite d hd)

/-- **What fits is left as it is.** -/
theorem gapText_eq_self {b c : Char} {gap : Text} (hgap : ∀ d ∈ gap, isSpace d = true)
    (hclean : ∀ d ∈ gap, Clean d) (hfits : (b :: (gap ++ [c])).IsChain Fits) :
    gapText (some b) gap (some c) = gap := by
  cases gap with
  | nil => exact gapText_nil _ _
  | cons d gap =>
    have hfirst : Fits b d := (List.isChain_cons.mp hfits).1 d (by simp)
    obtain ⟨hchain, -, hend⟩ := List.isChain_append.mp (List.isChain_cons.mp hfits).2
    have hopen : opensGap b ≠ true := fun h => by
      have := hfirst.opening h
      rw [hgap d (by simp)] at this
      exact absurd this (by simp)
    have hclose : c ≠ ')' := fun h => by
      have hne := List.cons_ne_nil d gap
      have hlast := List.getLast?_eq_some_getLast hne
      have := (hend _ hlast c (by simp)).closing h
      rw [hgap _ (List.getLast_mem hne)] at this
      exact absurd this (by simp)
    have hbreak : ¬ (d :: gap).any isLineBreak = true := fun h => by
      obtain ⟨e, he, hline⟩ := List.any_eq_true.mp h
      rw [(hclean e he).lineBreak] at hline
      exact absurd hline (by simp)
    have hspaces : (d :: gap).IsChain fun a b => ¬ (a = ' ' ∧ b = ' ') :=
      hchain.imp fun _ _ h => h.spaces
    rw [gapText_some, if_neg (not_or.mpr ⟨hopen, hclose⟩), if_neg hbreak, ← squeezeBlanks_eq]
    exact squeeze_eq_self hspaces (fun e he => (hclean e he).tab) (by simp)

/-! ### The whole line -/

/-- Every gap of a text without markers is replaced by what fits. -/
theorem isChain_replaceGaps {b : Char} {gap t : Text} (hb : isSpace b = false)
    (hgap : ∀ c ∈ gap, isSpace c = true)
    (hmarker : (b :: (gap ++ t)).IsChain fun a b => ¬ IsMarker a b) :
    (b :: replaceGaps gapText (some b) gap t).IsChain Fits := by
  induction t generalizing b gap with
  | nil =>
    rw [replaceGaps_nil, gapText_last]
    exact List.isChain_singleton b
  | cons c rest ih =>
    cases hc : isSpace c with
    | true =>
      rw [replaceGaps_space hc]
      refine ih hb (isSpace_of_mem_concat hgap hc) ?_
      rwa [List.append_assoc, List.singleton_append]
    | false =>
      rw [replaceGaps_char hc]
      refine List.isChain_cons_split.mpr ⟨isChain_gapText hb hc hgap ?_, ih hc (by simp) ?_⟩
      · rintro rfl
        exact (List.isChain_cons_cons.mp hmarker).1
      · exact (List.isChain_cons_split.mp hmarker).2

theorem clean_of_mem_replaceGaps {before : Option Char} {gap t : Text}
    (hgap : ∀ c ∈ gap, isSpace c = true) (ht : ∀ c ∈ t, c ≠ '#') :
    ∀ c ∈ replaceGaps gapText before gap t, Clean c := by
  induction t generalizing before gap with
  | nil => exact clean_of_mem_gapText hgap
  | cons d rest ih =>
    have hrest : ∀ c ∈ rest, c ≠ '#' := fun c hc => ht c (List.mem_cons_of_mem d hc)
    cases hd : isSpace d with
    | true =>
      rw [replaceGaps_space hd]
      exact ih (isSpace_of_mem_concat hgap hd) hrest
    | false =>
      have hclean : Clean d := by
        refine ⟨ht d (by simp), ?_, ?_⟩
        · refine Bool.eq_false_iff.mpr fun h => ?_
          rw [isSpace_of_isLineBreak h] at hd
          exact absurd hd (by simp)
        · rintro rfl
          exact absurd hd (by decide)
      rw [replaceGaps_char hd]
      intro c hc
      rcases List.mem_append.mp hc with hc | hc
      · exact clean_of_mem_gapText hgap c hc
      · rcases List.mem_cons.mp hc with rfl | hc
        · exact hclean
        · exact ih (by simp) hrest c hc

theorem replaceGaps_eq_self {b : Char} {gap t : Text} (hb : isSpace b = false)
    (hgap : ∀ c ∈ gap, isSpace c = true) (hclean : ∀ c ∈ gap ++ t, Clean c)
    (hfits : (b :: (gap ++ t)).IsChain Fits)
    (hlast : ∀ c ∈ (b :: (gap ++ t)).getLast?, isSpace c = false) :
    replaceGaps gapText (some b) gap t = gap ++ t := by
  induction t generalizing b gap with
  | nil =>
    cases gap using List.reverseRecOn with
    | nil => exact gapText_nil _ _
    | append_singleton gap c =>
      have := hlast c (by simp [List.getLast?_cons])
      rw [hgap c (by simp)] at this
      exact absurd this (by simp)
  | cons c rest ih =>
    cases hc : isSpace c with
    | true =>
      rw [replaceGaps_space hc, ih hb (isSpace_of_mem_concat hgap hc) (by simpa using hclean)
        (by simpa using hfits) (by simpa using hlast), List.append_assoc, List.singleton_append]
    | false =>
      obtain ⟨hfront, hback⟩ := List.isChain_cons_split.mp hfits
      have hgapText : gapText (some b) gap (some c) = gap :=
        gapText_eq_self hgap (fun d hd => hclean d (List.mem_append_left _ hd)) hfront
      have hrest : replaceGaps gapText (some c) [] rest = [] ++ rest := by
        refine ih hc (by simp) (fun d hd => hclean d ?_) hback fun d hd => hlast d ?_
        · exact List.mem_append_right _ (List.mem_cons_of_mem c hd)
        · have hend : (c :: rest).getLast? = some d := hd
          rw [← List.cons_append, List.getLast?_append, hend]
          rfl
      rw [replaceGaps_char hc, hgapText, hrest, List.nil_append]

theorem isNormal_oneLine {t : Text} (h : NoMarker t) : IsNormal (oneLine t) := by
  obtain ⟨hhash, hmarker⟩ := noMarker_iff.mp h
  refine isNormal_iff.mpr ⟨clean_of_mem_replaceGaps (by simp) hhash, ?_, ?_, ?_⟩
  · rcases white_or_first t with hwhite | ⟨gap, c, rest, rfl, hgap, hc⟩
    · rw [oneLine_of_white hwhite]
      exact List.isChain_nil
    · rw [oneLine_gap_char hgap hc]
      exact isChain_replaceGaps hc (by simp) hmarker.right_of_append
  · rcases white_or_first t with hwhite | ⟨gap, c, rest, rfl, hgap, hc⟩
    · simp [oneLine_of_white hwhite]
    · rw [oneLine_gap_char hgap hc]
      simpa using hc
  · rcases white_or_last t with hwhite | ⟨s, c, gap, rfl, hc, hgap⟩
    · simp [oneLine_of_white hwhite]
    · rw [oneLine_append_char hc, replaceGaps_white hgap, List.append_nil,
        getLast?_oneLine_concat hc]
      simpa using hc

theorem oneLine_eq_self {t : Text} (h : IsNormal t) : oneLine t = t := by
  obtain ⟨hclean, hfits, hfirst, hlast⟩ := isNormal_iff.mp h
  cases t with
  | nil => rfl
  | cons c rest =>
    have hc := hfirst c (by simp)
    have hcleanRest : ∀ d ∈ rest, Clean d := fun d hd => hclean d (List.mem_cons_of_mem c hd)
    have hrest : replaceGaps gapText (some c) [] rest = [] ++ rest :=
      replaceGaps_eq_self hc (by simp) hcleanRest hfits hlast
    have hline : oneLine ([] ++ c :: rest) = c :: replaceGaps gapText (some c) [] rest :=
      oneLine_gap_char (by simp) hc rest
    rw [List.nil_append] at hline
    rw [hline, hrest, List.nil_append]

theorem isNormal_normalize (t : Text) : IsNormal (normalize t) := by
  rw [normalize_eq_oneLine]
  exact isNormal_oneLine (Comment.noMarker_erase t)

theorem normalize_eq_self {t : Text} (h : IsNormal t) : normalize t = t := by
  rw [normalize_eq_oneLine, Comment.erase_eq_self h.noMarker, oneLine_eq_self h]

/-- **One-line forms are the normal texts.**  Every one-line form is normal, and the normal texts
are those that are their own one-line form; so nothing else is a one-line form, and taking it again
changes nothing. -/
theorem normalize_normalForm :
    (∀ t, IsNormal (normalize t)) ∧ (∀ t, IsNormal t ↔ normalize t = t) ∧
      (∀ t, IsNormal t ↔ ∃ s, normalize s = t) ∧
      ∀ t, normalize (normalize t) = normalize t := by
  refine ⟨isNormal_normalize, fun t => ⟨normalize_eq_self, ?_⟩, fun t => ⟨fun h => ?_, ?_⟩,
    fun t => normalize_eq_self (isNormal_normalize t)⟩
  · intro h
    rw [← h]
    exact isNormal_normalize t
  · exact ⟨t, normalize_eq_self h⟩
  · rintro ⟨s, rfl⟩
    exact isNormal_normalize s

end IoSource.Text
