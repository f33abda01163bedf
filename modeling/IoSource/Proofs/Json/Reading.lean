import IoSource.Proofs.Json.Grammar

/-!
# Reading what was written

Reading undoes writing (`read?_write`), for documents whose numbers are integers and for every layout
that adds nothing but spaces and line breaks.

A text is read in parts, and a part stands behind white space and in front of something else, so
`IsReadAs` says of a text that it is read as one document wherever it stands.  What follows matters
for numbers only: it must not go on with the digits.  The length of a text is always enough fuel, as
every item takes a character of its own.
-/

namespace IoSource.Json

/-! ### White space -/

theorem skipWhite_append {w : Text} (hw : IsWhite w) {c : Char} (hc : isInsignificant c = false)
    (t : Text) : skipWhite (w ++ c :: t) = c :: t := by
  rw [skipWhite, List.dropWhile_append_of_pos hw, List.dropWhile_cons_of_neg (by simp [hc])]

theorem skipWhite_cons {c : Char} (hc : isInsignificant c = false) (t : Text) :
    skipWhite (c :: t) = c :: t :=
  skipWhite_append .nil hc t

/-! ### Strings -/

theorem codeUnit?_hexadecimal {n : Nat} (h : n < 0x10000) (rest : Text) :
    codeUnit? (Number.hexadecimal 4 n ++ rest) = some (n, rest) := by
  have hdigit : ∀ m, Number.digitValue? 16 (Number.digit (m % 16)) = some (m % 16) :=
    fun m => Number.digitValue?_digit (Nat.mod_lt m (by decide))
  simp only [Number.hexadecimal_four, List.cons_append, List.nil_append, codeUnit?, hdigit,
    Option.pure_def, Option.bind_eq_bind, Option.bind_some]
  congr 2
  omega

theorem escapedUnit?_hexadecimal {c : Char} (h : c.toNat < 0x20) (rest : Text) :
    escapedUnit? (Number.hexadecimal 4 c.toNat ++ rest) = some (c, rest) := by
  have hunit := codeUnit?_hexadecimal (n := c.toNat) (by omega) rest
  have hhigh : ¬ (0xD800 ≤ c.toNat ∧ c.toNat < 0xDC00) := by omega
  have hlow : ¬ (0xDC00 ≤ c.toNat ∧ c.toNat < 0xE000) := by omega
  simp only [escapedUnit?, hunit, Option.bind_eq_bind, Option.bind_some, if_neg hhigh, if_neg hlow,
    Option.pure_def, Char.ofNat_toNat]

theorem readString?_escapedChar (c : Char) (rest : Text) (fuel : Nat) :
    readString? (fuel + 1) (escapedChar c ++ rest) =
      (readString? fuel rest).map fun (t, rest) => (c :: t, rest) := by
  rcases escapedChar_cases c with ⟨letter, hc, hletter⟩ | ⟨hcontrol, hc⟩ |
    ⟨hcontrol, hquote, hback, hc⟩
  · have hu : letter ≠ 'u' := by
      rintro rfl
      exact absurd (mem_of_unescape? hletter) (by decide)
    rw [hc, List.cons_append, List.cons_append, List.nil_append, readString?, hletter]
    · cases readString? fuel rest <;> rfl
    · simpa using hu
  · rw [hc, List.cons_append, List.cons_append, readString?, escapedUnit?_hexadecimal hcontrol]
    show ((readString? fuel rest).bind fun (t, rest) => some (c :: t, rest)) = _
    cases readString? fuel rest <;> rfl
  · have hplain : ¬ (c.toNat < 0x20 ∨ c = '\\') := by
      rintro (h | h)
      · omega
      · exact hback h
    rw [hc, List.singleton_append, readString?, if_neg hplain]
    · cases readString? fuel rest <;> rfl
    all_goals simp_all

theorem readString?_body {t : Text} {fuel : Nat} (hfuel : t.length < fuel) (rest : Text) :
    readString? fuel (t.flatMap escapedChar ++ '"' :: rest) = some (t, rest) := by
  induction t generalizing fuel with
  | nil =>
    obtain ⟨fuel, rfl⟩ := Nat.exists_eq_add_one.mpr (Nat.zero_lt_of_lt hfuel)
    rfl
  | cons c t ih =>
    rw [List.length_cons] at hfuel
    obtain ⟨fuel, rfl⟩ := Nat.exists_eq_add_one.mpr (Nat.zero_lt_of_lt hfuel)
    rw [List.flatMap_cons, List.append_assoc, readString?_escapedChar, ih (by omega)]
    rfl

theorem length_le_flatMap_escapedChar (t : Text) : t.length ≤ (t.flatMap escapedChar).length := by
  induction t with
  | nil => exact Nat.le_refl _
  | cons c t ih =>
    have hpos : 0 < (escapedChar c).length := by
      rcases escapedChar_cases c with ⟨letter, hc, -⟩ | ⟨-, hc⟩ | ⟨-, -, -, hc⟩ <;> simp [hc]
    rw [List.flatMap_cons, List.length_append, List.length_cons]
    omega

/-- **A string is read back**, with the fuel that a reader gives it. -/
theorem readString?_quote (t rest : Text) :
    readString? ((t.flatMap escapedChar ++ '"' :: rest).length + 1)
      (t.flatMap escapedChar ++ '"' :: rest) = some (t, rest) := by
  apply readString?_body
  have := length_le_flatMap_escapedChar t
  rw [List.length_append]
  omega

/-! ### Numbers -/

/-- Whether a text does not go on with a number. -/
def EndsNumber (rest : Text) : Prop := ∀ c ∈ rest.head?, Number.isNumeral c = false

theorem EndsNumber.ne {c d : Char} {t : Text} (h : EndsNumber (c :: t))
    (hd : Number.isNumeral d = true) : c ≠ d :=
  (Number.ne_of_isNumeral hd (h c (by simp))).symm

theorem takeDigits_append {digits rest : Text} (hdigits : ∀ c ∈ digits, c.isDigit = true)
    (h : EndsNumber rest) : takeDigits (digits ++ rest) = (digits, rest) := by
  have hrest : rest.takeWhile Char.isDigit = [] ∧ rest.dropWhile Char.isDigit = rest := by
    cases rest with
    | nil => exact ⟨rfl, rfl⟩
    | cons c t =>
      have hc : ¬ c.isDigit = true := fun hdigit =>
        h.ne (Number.isNumeral_of_isDigit hdigit) rfl
      exact ⟨List.takeWhile_cons_of_neg hc, List.dropWhile_cons_of_neg hc⟩
  rw [takeDigits, List.takeWhile_append_of_pos hdigits, List.dropWhile_append_of_pos hdigits,
    hrest.1, hrest.2, List.append_nil]

theorem readFraction?_of_endsNumber {rest : Text} (h : EndsNumber rest) :
    readFraction? rest = some ([], rest) := by
  cases rest with
  | nil => rfl
  | cons c t =>
    rw [readFraction?]
    rintro rest heq
    exact h.ne (by decide) (List.cons.inj heq).1

theorem readExponent?_of_endsNumber {rest : Text} (h : EndsNumber rest) :
    readExponent? rest = some (none, rest) := by
  cases rest with
  | nil => rfl
  | cons c t =>
    have hc : ¬ (c = 'e' ∨ c = 'E') := by
      rintro (rfl | rfl)
      · exact h.ne (by decide) rfl
      · exact h.ne (by decide) rfl
    simp only [readExponent?, if_neg hc]

theorem readUnsigned?_decimal (negative : Bool) (n : Nat) {rest : Text} (h : EndsNumber rest) :
    readUnsigned? negative (Number.decimal n ++ rest) =
      some (int (if negative then -n else n), rest) := by
  obtain ⟨c, digits, hdecimal, hzero⟩ := Number.decimal_eq_cons n
  have htake : takeDigits (Number.decimal n ++ rest) = (Number.decimal n, rest) :=
    takeDigits_append (fun c => Number.isDigit_of_mem_decimal) h
  rw [readUnsigned?, htake]
  split
  · next heq =>
    rw [hdecimal] at heq
    exact absurd heq (by simp)
  · next d t rest' heq =>
    -- a zero in front stands alone
    rw [hdecimal] at heq
    simp only [Prod.mk.injEq, List.cons.injEq] at heq
    have := (hzero heq.1.1).2
    rw [this] at heq
    exact absurd heq.1.2 (by simp)
  · next digits' rest' _ _ heq =>
    obtain ⟨rfl, rfl⟩ := Prod.mk.inj heq
    rw [readFraction?_of_endsNumber h]
    simp [readExponent?_of_endsNumber h, Number.ofDigits_decimal]

theorem exists_decimal_cons (n : Nat) :
    ∃ c t, Number.decimal n = c :: t ∧ c.isDigit = true := by
  obtain ⟨c, t, hdecimal, -⟩ := Number.decimal_eq_cons n
  exact ⟨c, t, hdecimal, Number.isDigit_of_mem_decimal (by rw [hdecimal]; simp)⟩

theorem exists_decimalInt_cons (i : Int) :
    ∃ c t, Number.decimalInt i = c :: t ∧ (c = '-' ∨ c.isDigit = true) := by
  cases i with
  | ofNat n =>
    obtain ⟨c, t, hdecimal, hc⟩ := exists_decimal_cons n
    exact ⟨c, t, hdecimal, Or.inr hc⟩
  | negSucc n => exact ⟨'-', _, rfl, Or.inl rfl⟩

theorem readNumberOrWord?_of_not_word {t : Text}
    (h : ∀ p ∈ specialWords, p.1.isPrefixOf t = false) : readNumberOrWord? t = readNumber? t := by
  have hnone : specialWords.find? (·.1.isPrefixOf t) = none :=
    List.find?_eq_none.mpr fun p hp => by simp [h p hp]
  rw [readNumberOrWord?, hnone]

theorem not_word_of_digit {c : Char} (hc : c.isDigit = true) (t : Text) :
    ∀ p ∈ specialWords, p.1.isPrefixOf (c :: t) = false := by
  have hne : c ≠ 'N' ∧ c ≠ 'I' ∧ c ≠ '-' := by
    refine ⟨?_, ?_, ?_⟩ <;> rintro rfl <;> exact absurd hc (by decide)
  intro p hp
  simp only [specialWords, specialFloats, List.mem_cons, List.not_mem_nil, or_false] at hp
  rcases hp with rfl | rfl | rfl <;> simp [List.isPrefixOf, hne.1.symm, hne.2.1.symm, hne.2.2.symm]

theorem not_word_of_minus_digit {c : Char} (hc : c.isDigit = true) (t : Text) :
    ∀ p ∈ specialWords, p.1.isPrefixOf ('-' :: c :: t) = false := by
  have hne : 'I' ≠ c := by
    rintro rfl
    exact absurd hc (by decide)
  intro p hp
  simp only [specialWords, specialFloats, List.mem_cons, List.not_mem_nil, or_false] at hp
  rcases hp with rfl | rfl | rfl <;> simp [List.isPrefixOf, hne]

/-- **An integer is read back**, if nothing goes on with its digits. -/
theorem readNumberOrWord?_decimalInt (i : Int) {rest : Text} (h : EndsNumber rest) :
    readNumberOrWord? (Number.decimalInt i ++ rest) = some (int i, rest) := by
  cases i with
  | ofNat n =>
    obtain ⟨c, t, hdecimal, hc⟩ := exists_decimal_cons n
    have hunsigned := readUnsigned?_decimal false n h
    rw [Number.decimalInt]
    rw [hdecimal, List.cons_append] at hunsigned ⊢
    rw [readNumberOrWord?_of_not_word (not_word_of_digit hc _), readNumber?, hunsigned]
    · rfl
    · rintro rest heq
      rw [(List.cons.inj heq).1] at hc
      exact absurd hc (by decide)
  | negSucc n =>
    obtain ⟨c, t, hdecimal, hc⟩ := exists_decimal_cons (n + 1)
    have hunsigned := readUnsigned?_decimal true (n + 1) h
    rw [Number.decimalInt]
    rw [hdecimal, List.cons_append] at hunsigned
    rw [hdecimal, List.cons_append, List.cons_append,
      readNumberOrWord?_of_not_word (not_word_of_minus_digit hc _), readNumber?, hunsigned]
    rfl

/-! ### Values -/

/-- Whether a text is read as a document wherever it stands, with as much fuel as it is long. -/
def IsReadAs (text : Text) (json : Json) : Prop :=
  ∀ (fuel : Nat) {w rest : Text}, IsWhite w → EndsNumber rest → text.length ≤ fuel →
    readValue? fuel (w ++ (text ++ rest)) = some (json, rest)

theorem isInsignificant_of_isNumeral {c : Char} (hc : Number.isNumeral c = true) :
    isInsignificant c = false := by
  by_contra h
  simp only [isInsignificant, Bool.not_eq_false, Bool.or_eq_true, decide_eq_true_eq] at h
  rcases h with ((rfl | rfl) | rfl) | rfl <;> exact absurd hc (by decide)

theorem EndsNumber.append_cons {w t : Text} {c : Char} (hw : IsWhite w)
    (hc : Number.isNumeral c = false) : EndsNumber (w ++ c :: t) := by
  cases w with
  | nil => simpa [EndsNumber] using hc
  | cons d w =>
    have hd : Number.isNumeral d = false := by
      by_contra h
      have := isInsignificant_of_isNumeral (by simpa using h)
      rw [hw d (by simp)] at this
      exact absurd this (by decide)
    simpa [EndsNumber] using hd

/-- Where no other value starts, a number is read. -/
theorem readValue?_number {c : Char} (hc : Number.isNumeral c = true)
    (hletters : c ∉ ['n', 't', 'f']) (t : Text) (fuel : Nat) :
    readValue? (fuel + 1) (c :: t) = readNumberOrWord? (c :: t) := by
  have hquote : c ≠ '"' := Number.ne_of_isNumeral hc (by decide)
  have hbracket : c ≠ '[' := Number.ne_of_isNumeral hc (by decide)
  have hbrace : c ≠ '\x7b' := Number.ne_of_isNumeral hc (by decide)
  rw [readValue?, skipWhite_cons (isInsignificant_of_isNumeral hc)]
  simp only [List.mem_cons, List.not_mem_nil, or_false, not_or] at hletters
  split <;> simp_all

/-- It is enough to look at a text that no white space stands in front of. -/
theorem IsReadAs.of_cons {c : Char} {t : Text} {json : Json} (hc : isInsignificant c = false)
    (h : ∀ (fuel : Nat) {rest : Text}, EndsNumber rest → t.length ≤ fuel →
      readValue? (fuel + 1) (c :: (t ++ rest)) = some (json, rest)) : IsReadAs (c :: t) json := by
  intro fuel w rest hw hrest hfuel
  obtain ⟨fuel, rfl⟩ :=
    Nat.exists_eq_add_one.mpr (Nat.lt_of_lt_of_le (Nat.succ_pos t.length) hfuel)
  have hread := h fuel hrest (Nat.le_of_succ_le_succ hfuel)
  rw [readValue?, skipWhite_cons hc] at hread
  rw [readValue?, List.cons_append, skipWhite_append hw hc]
  exact hread

theorem isReadAs_null : IsReadAs ['n', 'u', 'l', 'l'] null :=
  IsReadAs.of_cons rfl fun _ _ _ _ => rfl

theorem isReadAs_bool (b : Bool) (layout : Layout) (depth : Nat) :
    IsReadAs (render layout depth (bool b)) (bool b) := by
  cases b with
  | false => exact IsReadAs.of_cons rfl fun _ _ _ _ => rfl
  | true => exact IsReadAs.of_cons rfl fun _ _ _ _ => rfl

theorem isReadAs_quote (t : Text) : IsReadAs (quote t) (string t) := by
  refine IsReadAs.of_cons rfl fun fuel rest _ _ => ?_
  rw [readValue?, skipWhite_cons rfl]
  simp only [List.append_assoc, List.singleton_append, readString?_quote, Option.map_some]

theorem isReadAs_decimalInt (i : Int) : IsReadAs (Number.decimalInt i) (int i) := by
  obtain ⟨c, t, hdecimal, hc⟩ := exists_decimalInt_cons i
  have hnumeral : Number.isNumeral c = true :=
    Number.isNumeral_decimalInt (by rw [hdecimal]; exact List.mem_cons_self)
  have hletters : c ∉ ['n', 't', 'f'] := by
    intro hmem
    simp only [List.mem_cons, List.not_mem_nil, or_false] at hmem
    rcases hmem with rfl | rfl | rfl <;> revert hc <;> decide
  rw [hdecimal]
  refine IsReadAs.of_cons (isInsignificant_of_isNumeral hnumeral) fun fuel rest hrest _ => ?_
  have hread := readNumberOrWord?_decimalInt i hrest
  rw [hdecimal] at hread
  rw [readValue?_number hnumeral hletters]
  exact hread

section
variable {layout : Layout} {depth : Nat}

/-- What starts a value is neither white space nor the end of an array. -/
theorem exists_render_cons {json : Json} (hjson : json.IsExact) :
    ∃ c t, render layout depth json = c :: t ∧ isInsignificant c = false ∧ c ≠ ']' := by
  cases hjson with
  | null => exact ⟨'n', _, rfl, rfl, by decide⟩
  | bool b => cases b <;> exact ⟨_, _, rfl, rfl, by decide⟩
  | int i =>
    obtain ⟨c, t, hdecimal, -⟩ := exists_decimalInt_cons i
    have hc : Number.isNumeral c = true := Number.isNumeral_decimalInt (by rw [hdecimal]; simp)
    exact ⟨c, t, hdecimal, isInsignificant_of_isNumeral hc,
      Number.ne_of_isNumeral hc (by decide)⟩
  | string t => exact ⟨'"', _, rfl, rfl, by decide⟩
  | @array items _ => cases items <;> exact ⟨'[', _, rfl, rfl, by decide⟩
  | @object members _ => cases members <;> exact ⟨'\x7b', _, rfl, rfl, by decide⟩

theorem endsNumber_renderItems (h : layout.IsSpaced) (items : List Json) {w rest : Text}
    (hw : IsWhite w) : EndsNumber (renderItems layout depth items ++ (w ++ ']' :: rest)) := by
  obtain ⟨gap, hcomma, -⟩ := h.comma
  cases items with
  | nil => exact .append_cons hw (by decide)
  | cons item items =>
    simp only [renderItems, hcomma, List.cons_append]
    exact .append_cons .nil (by decide)

/-- The items behind the first one are read up to the bracket. -/
theorem readItems?_render (h : layout.IsSpaced) {items : List Json}
    (hitems : ∀ item ∈ items, IsReadAs (render layout depth item) item) {w rest : Text}
    (hw : IsWhite w) (fuel : Nat) (hfuel : (renderItems layout depth items).length < fuel) :
    readItems? fuel (renderItems layout depth items ++ (w ++ ']' :: rest)) = some (items, rest) := by
  obtain ⟨gap, hcomma, hgap⟩ := h.comma
  have hspace : IsWhite (gap ++ layout.lineStart depth) := (hgap.append (h.lineStart depth)).isWhite
  induction items generalizing fuel with
  | nil =>
    obtain ⟨fuel, rfl⟩ := Nat.exists_eq_add_one.mpr (Nat.zero_lt_of_lt hfuel)
    rw [renderItems, List.nil_append, readItems?, skipWhite_append hw rfl]
    rfl
  | cons item items ih =>
    simp only [renderItems, hcomma, List.cons_append, List.length_cons, List.length_append] at hfuel
    obtain ⟨fuel, rfl⟩ := Nat.exists_eq_add_one.mpr (Nat.zero_lt_of_lt hfuel)
    have hends := @endsNumber_renderItems _ depth h items w rest hw
    have hitem := hitems item (by simp) fuel hspace hends (by omega)
    have hrest := ih (fun j hj => hitems j (List.mem_cons_of_mem item hj)) fuel (by omega)
    rw [List.append_assoc] at hitem
    simp only [renderItems, hcomma, List.cons_append, List.append_assoc]
    rw [readItems?, skipWhite_cons rfl]
    simp only [hitem, Option.bind_eq_bind, Option.bind_some, hrest]
    rfl

theorem readMember?_quote (h : layout.IsSpaced) {m : Text × Json}
    (hm : IsReadAs (render layout depth m.2) m.2) {w rest : Text} (hw : IsWhite w)
    (hrest : EndsNumber rest) (fuel : Nat)
    (hfuel : (render layout depth m.2).length < fuel) :
    readMember? fuel (w ++ (quote m.1 ++ (layout.colon ++ (render layout depth m.2 ++ rest)))) =
      some (m, rest) := by
  obtain ⟨space, hcolon, hspace⟩ := h.colon
  obtain ⟨fuel, rfl⟩ := Nat.exists_eq_add_one.mpr (Nat.zero_lt_of_lt hfuel)
  have hvalue := hm fuel hspace.isWhite hrest (by omega)
  simp only [hcolon, quote, List.cons_append, List.append_assoc, List.nil_append]
  rw [readMember?, skipWhite_append hw rfl]
  simp only [readString?_quote, Option.bind_eq_bind, Option.bind_some]
  rw [skipWhite_cons rfl]
  simp only [hvalue, Option.bind_some]
  rfl

theorem endsNumber_renderMembers (h : layout.IsSpaced) (members : List (Text × Json))
    {w rest : Text} (hw : IsWhite w) :
    EndsNumber (renderMembers layout depth members ++ (w ++ '\x7d' :: rest)) := by
  obtain ⟨gap, hcomma, -⟩ := h.comma
  cases members with
  | nil => exact .append_cons hw (by decide)
  | cons m members =>
    simp only [renderMembers, hcomma, List.cons_append]
    exact .append_cons .nil (by decide)

/-- The members behind the first one are read up to the brace. -/
theorem readMembers?_render (h : layout.IsSpaced) {members : List (Text × Json)}
    (hmembers : ∀ m ∈ members, IsReadAs (render layout depth m.2) m.2) {w rest : Text}
    (hw : IsWhite w) (fuel : Nat) (hfuel : (renderMembers layout depth members).length < fuel) :
    readMembers? fuel (renderMembers layout depth members ++ (w ++ '\x7d' :: rest)) =
      some (members, rest) := by
  obtain ⟨gap, hcomma, hgap⟩ := h.comma
  have hspace : IsWhite (gap ++ layout.lineStart depth) := (hgap.append (h.lineStart depth)).isWhite
  induction members generalizing fuel with
  | nil =>
    obtain ⟨fuel, rfl⟩ := Nat.exists_eq_add_one.mpr (Nat.zero_lt_of_lt hfuel)
    rw [renderMembers, List.nil_append, readMembers?, skipWhite_append hw rfl]
    rfl
  | cons m members ih =>
    simp only [renderMembers, hcomma, List.cons_append, List.length_cons, List.length_append]
      at hfuel
    obtain ⟨fuel, rfl⟩ := Nat.exists_eq_add_one.mpr (Nat.zero_lt_of_lt hfuel)
    have hends := @endsNumber_renderMembers _ depth h members w rest hw
    have hmember := readMember?_quote h (hmembers m (by simp)) hspace hends fuel (by omega)
    have hrest := ih (fun p hp => hmembers p (List.mem_cons_of_mem m hp)) fuel (by omega)
    rw [List.append_assoc] at hmember
    simp only [renderMembers, hcomma, List.cons_append, List.append_assoc]
    rw [readMembers?, skipWhite_cons rfl]
    simp only [hmember, Option.bind_eq_bind, Option.bind_some, hrest]
    rfl

/-- What stands in brackets is items, unless the bracket closes at once. -/
theorem readValue?_bracket {t mid rest : Text} {item : Json} {items : List Json} {fuel : Nat}
    (hopen : ∀ rest, skipWhite t ≠ ']' :: rest) (hitem : readValue? fuel t = some (item, mid))
    (hitems : readItems? fuel mid = some (items, rest)) :
    readValue? (fuel + 1) ('[' :: t) = some (array (item :: items), rest) := by
  rw [readValue?, skipWhite_cons rfl]
  split
  case h_5 inside heq =>
    obtain rfl := (List.cons.inj heq).2
    split
    · next rest heq => exact absurd heq (hopen rest)
    · simp only [hitem, hitems, Option.bind_eq_bind, Option.bind_some]
      rfl
  case h_7 hnot _ => exact absurd rfl (hnot t)
  all_goals next heq => exact absurd (List.cons.inj heq).1 (by decide)

/-- What stands in braces is members, unless the brace closes at once. -/
theorem readValue?_brace {t mid rest : Text} {m : Text × Json} {members : List (Text × Json)}
    {fuel : Nat} (hopen : ∀ rest, skipWhite t ≠ '\x7d' :: rest)
    (hmember : readMember? fuel t = some (m, mid))
    (hmembers : readMembers? fuel mid = some (members, rest)) :
    readValue? (fuel + 1) ('\x7b' :: t) = some (object (m :: members), rest) := by
  rw [readValue?, skipWhite_cons rfl]
  split
  case h_6 inside heq =>
    obtain rfl := (List.cons.inj heq).2
    split
    · next rest heq => exact absurd heq (hopen rest)
    · simp only [hmember, hmembers, Option.bind_eq_bind, Option.bind_some]
      rfl
  case h_7 hnot => exact absurd rfl (hnot t)
  all_goals next heq => exact absurd (List.cons.inj heq).1 (by decide)

theorem isReadAs_array (h : layout.IsSpaced) {items : List Json}
    (hexact : ∀ item ∈ items, item.IsExact)
    (hitems : ∀ item ∈ items, IsReadAs (render layout (depth + 1) item) item) :
    IsReadAs (render layout depth (array items)) (array items) := by
  cases items with
  | nil => exact IsReadAs.of_cons rfl fun _ _ _ _ => rfl
  | cons item items =>
    refine IsReadAs.of_cons rfl fun fuel rest _ hfuel => ?_
    have hback : IsWhite (layout.lineStart depth) := (h.lineStart depth).isWhite
    have hfront : IsWhite (layout.lineStart (depth + 1)) := (h.lineStart (depth + 1)).isWhite
    simp only [List.length_append, List.length_cons] at hfuel
    have hitem := hitems item (by simp) fuel hfront
      (@endsNumber_renderItems _ (depth + 1) h items _ rest hback) (by omega)
    have hrest := @readItems?_render _ (depth + 1) h items
      (fun j hj => hitems j (List.mem_cons_of_mem item hj)) _ rest hback fuel (by omega)
    obtain ⟨c, t, hfirst, hc, hclose⟩ :=
      @exists_render_cons layout (depth + 1) _ (hexact item (by simp))
    simp only [List.append_assoc, List.singleton_append]
    refine readValue?_bracket (fun rest heq => ?_) hitem hrest
    rw [hfirst, List.cons_append, skipWhite_append hfront hc] at heq
    exact hclose (List.cons.inj heq).1

theorem isReadAs_object (h : layout.IsSpaced) {members : List (Text × Json)}
    (hmembers : ∀ m ∈ members, IsReadAs (render layout (depth + 1) m.2) m.2) :
    IsReadAs (render layout depth (object members)) (object members) := by
  cases members with
  | nil => exact IsReadAs.of_cons rfl fun _ _ _ _ => rfl
  | cons m members =>
    refine IsReadAs.of_cons rfl fun fuel rest _ hfuel => ?_
    have hback : IsWhite (layout.lineStart depth) := (h.lineStart depth).isWhite
    have hfront : IsWhite (layout.lineStart (depth + 1)) := (h.lineStart (depth + 1)).isWhite
    simp only [List.length_append, List.length_cons, quote] at hfuel
    have hmember := readMember?_quote h (hmembers m (by simp)) hfront
      (@endsNumber_renderMembers _ (depth + 1) h members _ rest hback) fuel (by omega)
    have hrest := @readMembers?_render _ (depth + 1) h members
      (fun p hp => hmembers p (List.mem_cons_of_mem m hp)) _ rest hback fuel (by omega)
    simp only [List.append_assoc, List.singleton_append]
    refine readValue?_brace (fun rest heq => ?_) hmember hrest
    rw [quote, List.cons_append, skipWhite_append hfront rfl] at heq
    exact absurd (List.cons.inj heq).1 (by decide)

/-- **Every value is read back**, wherever it stands. -/
theorem isReadAs_render (h : layout.IsSpaced) {json : Json} (hjson : json.IsExact) :
    IsReadAs (render layout depth json) json := by
  induction hjson generalizing depth with
  | null => exact isReadAs_null
  | bool b => exact isReadAs_bool b layout depth
  | int i => exact isReadAs_decimalInt i
  | string t => exact isReadAs_quote t
  | array hitems ih => exact isReadAs_array h hitems fun item hitem => ih item hitem
  | object _ ih => exact isReadAs_object h fun m hm => ih m hm

/-- **Reading undoes writing.** -/
theorem read?_write (h : layout.IsSpaced) {json : Json} (hjson : json.IsExact) :
    read? (json.write layout) = some json := by
  have hvalue : IsReadAs (json.write layout) json := isReadAs_render h hjson
  have hends : EndsNumber [] := by simp [EndsNumber]
  have hread := hvalue ((json.write layout).length + 1) .nil hends (Nat.le_succ _)
  rw [List.nil_append, List.append_nil] at hread
  rw [read?, hread]
  rfl

end

end IoSource.Json
