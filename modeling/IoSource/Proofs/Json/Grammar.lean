import IoSource.Proofs.Json.Document

/-!
# The grammar of documents

`IsDocument` is the grammar of RFC 8259: which texts are JSON, said without a reader and without a
writer.  `isDocument_write` shows that what is written obeys it, in every layout that adds nothing
but spaces and line breaks.  Special floats are no JSON, so the documents are those whose numbers
are integers (`IsExact`).
-/

namespace IoSource.Json

/-! ### Strings -/

/-- A character of a string: as it is, by a letter behind a backslash, or by the four hexadecimal
digits of a code unit. -/
inductive IsStringChar : Text → Prop
  | plain {c : Char} (hcontrol : 0x20 ≤ c.toNat) (hquote : c ≠ '"') (hbackslash : c ≠ '\\') :
      IsStringChar [c]
  | escaped {letter : Char} (h : letter ∈ ['"', '\\', '/', 'b', 'f', 'n', 'r', 't']) :
      IsStringChar ['\\', letter]
  | codeUnit {digits : Text} (hlength : digits.length = 4)
      (h : ∀ d ∈ digits, Number.isDigitOf 16 d = true) : IsStringChar ('\\' :: 'u' :: digits)

inductive IsStringBody : Text → Prop
  | nil : IsStringBody []
  | cons {c t : Text} (hchar : IsStringChar c) (hrest : IsStringBody t) : IsStringBody (c ++ t)

inductive IsString : Text → Prop
  | quoted {body : Text} (h : IsStringBody body) : IsString ('"' :: (body ++ ['"']))

/-! ### Numbers -/

/-- A zero, or digits without a zero in front. -/
inductive IsWhole : Text → Prop
  | zero : IsWhole ['0']
  | digits {c : Char} {t : Text} (hfirst : c.isDigit = true) (hzero : c ≠ '0')
      (h : ∀ d ∈ t, d.isDigit = true) : IsWhole (c :: t)

inductive IsFraction : Text → Prop
  | none : IsFraction []
  | digits {c : Char} {t : Text} (h : ∀ d ∈ c :: t, d.isDigit = true) : IsFraction ('.' :: c :: t)

inductive IsExponent : Text → Prop
  | none : IsExponent []
  | digits {marker c : Char} {sign t : Text} (hmarker : marker ∈ ['e', 'E'])
      (hsign : sign ∈ [[], ['+'], ['-']]) (h : ∀ d ∈ c :: t, d.isDigit = true) :
      IsExponent (marker :: (sign ++ c :: t))

inductive IsNumber : Text → Prop
  | signed {sign whole fraction exponent : Text} (hsign : sign ∈ [[], ['-']])
      (hwhole : IsWhole whole) (hfraction : IsFraction fraction)
      (hexponent : IsExponent exponent) : IsNumber (sign ++ (whole ++ (fraction ++ exponent)))

/-! ### Values -/

def IsWhite (t : Text) : Prop := ∀ c ∈ t, isInsignificant c = true

mutual

/-- A value without white space around. -/
inductive IsValue : Text → Prop
  | null : IsValue ['n', 'u', 'l', 'l']
  | true : IsValue ['t', 'r', 'u', 'e']
  | false : IsValue ['f', 'a', 'l', 's', 'e']
  | number {t : Text} (h : IsNumber t) : IsValue t
  | string {t : Text} (h : IsString t) : IsValue t
  | emptyArray {w : Text} (h : IsWhite w) : IsValue ('[' :: (w ++ [']']))
  | array {t : Text} (h : AreItems t) : IsValue ('[' :: (t ++ [']']))
  | emptyObject {w : Text} (h : IsWhite w) : IsValue ('\x7b' :: (w ++ ['\x7d']))
  | object {t : Text} (h : AreMembers t) : IsValue ('\x7b' :: (t ++ ['\x7d']))

inductive IsElement : Text → Prop
  | padded {v t w : Text} (hfront : IsWhite v) (h : IsValue t) (hback : IsWhite w) :
      IsElement (v ++ (t ++ w))

inductive AreItems : Text → Prop
  | last {t : Text} (h : IsElement t) : AreItems t
  | cons {t u : Text} (h : IsElement t) (hrest : AreItems u) : AreItems (t ++ ',' :: u)

inductive IsMember : Text → Prop
  | pair {v key w t : Text} (hfront : IsWhite v) (hkey : IsString key) (hback : IsWhite w)
      (h : IsElement t) : IsMember (v ++ (key ++ (w ++ ':' :: t)))

inductive AreMembers : Text → Prop
  | last {t : Text} (h : IsMember t) : AreMembers t
  | cons {t u : Text} (h : IsMember t) (hrest : AreMembers u) : AreMembers (t ++ ',' :: u)

end

/-- **The texts that are JSON.** -/
def IsDocument (t : Text) : Prop := IsElement t

/-! ### What is written obeys the grammar -/

/-- Whether the numbers of a document are integers. -/
inductive IsExact : Json → Prop
  | null : IsExact null
  | bool (b : Bool) : IsExact (bool b)
  | int (i : Int) : IsExact (int i)
  | string (t : Text) : IsExact (string t)
  | array {items : List Json} (h : ∀ item ∈ items, IsExact item) : IsExact (array items)
  | object {members : List (Text × Json)} (h : ∀ m ∈ members, IsExact m.2) :
      IsExact (object members)

theorem IsSpacing.isWhite {t : Text} (h : IsSpacing t) : IsWhite t := by
  intro c hc
  rcases h c hc with rfl | rfl <;> decide

theorem IsWhite.nil : IsWhite [] := IsSpacing.nil.isWhite

theorem isDigitOf_digit {d : Nat} (h : d < 16) : Number.isDigitOf 16 (Number.digit d) = true := by
  rw [Number.isDigitOf, Number.digitValue?_digit h]
  rfl

theorem isStringChar_escapedChar (c : Char) : IsStringChar (escapedChar c) := by
  rcases escapedChar_cases c with ⟨letter, hc, hletter⟩ | ⟨-, hc⟩ | ⟨hcontrol, hquote, hback, hc⟩
  · rw [hc]
    exact .escaped (mem_of_unescape? hletter)
  · rw [hc, Number.hexadecimal_four]
    refine .codeUnit rfl fun d hd => ?_
    simp only [List.mem_cons, List.not_mem_nil, or_false] at hd
    rcases hd with rfl | rfl | rfl | rfl <;> exact isDigitOf_digit (Nat.mod_lt _ (by decide))
  · rw [hc]
    exact .plain hcontrol hquote hback

theorem isString_quote (t : Text) : IsString (quote t) := by
  have hbody : IsStringBody (t.flatMap escapedChar) := by
    induction t with
    | nil => exact .nil
    | cons c t ih => exact .cons (isStringChar_escapedChar c) ih
  exact .quoted hbody

theorem isWhole_decimal (n : Nat) : IsWhole (Number.decimal n) := by
  obtain ⟨c, rest, hdecimal, hzero⟩ := Number.decimal_eq_cons n
  have hdigits : ∀ d ∈ c :: rest, d.isDigit = true := by
    intro d hd
    rw [← hdecimal] at hd
    exact Number.isDigit_of_mem_decimal hd
  rw [hdecimal]
  by_cases hc : c = '0'
  · obtain ⟨-, rfl⟩ := hzero hc
    rw [hc]
    exact .zero
  · exact .digits (hdigits c (by simp)) hc fun d hd => hdigits d (List.mem_cons_of_mem c hd)

theorem isNumber_decimalInt (i : Int) : IsNumber (Number.decimalInt i) := by
  cases i with
  | ofNat n =>
    have h := @IsNumber.signed [] _ _ _ (by simp) (isWhole_decimal n) .none .none
    rw [List.append_nil, List.append_nil] at h
    exact h
  | negSucc n =>
    have h := @IsNumber.signed ['-'] _ _ _ (by simp) (isWhole_decimal (n + 1)) .none .none
    rw [List.append_nil, List.append_nil] at h
    exact h

section
variable {layout : Layout} {depth : Nat}

theorem areItems_render (h : layout.IsSpaced) {item : Json} {items : List Json}
    (hitems : ∀ j ∈ item :: items, IsValue (render layout depth j)) {v w : Text}
    (hv : IsWhite v) (hw : IsWhite w) :
    AreItems (v ++ (render layout depth item ++ (renderItems layout depth items ++ w))) := by
  induction items generalizing item v with
  | nil => exact .last (.padded hv (hitems item (by simp)) hw)
  | cons next items ih =>
    obtain ⟨gap, hcomma, hgap⟩ := h.comma
    have hfirst := IsElement.padded hv (hitems item (by simp)) .nil
    have hrest := ih (fun j hj => hitems j (List.mem_cons_of_mem item hj))
      (hgap.append (h.lineStart depth)).isWhite
    have hall := AreItems.cons hfirst hrest
    simpa [renderItems, hcomma] using hall

theorem areMembers_render (h : layout.IsSpaced) {m : Text × Json} {members : List (Text × Json)}
    (hmembers : ∀ p ∈ m :: members, IsValue (render layout depth p.2)) {v w : Text}
    (hv : IsWhite v) (hw : IsWhite w) :
    AreMembers (v ++ (quote m.1 ++ (layout.colon ++ (render layout depth m.2 ++
      (renderMembers layout depth members ++ w))))) := by
  obtain ⟨space, hcolon, hspace⟩ := h.colon
  have hmember : ∀ p ∈ m :: members, ∀ {v w : Text}, IsWhite v → IsWhite w →
      IsMember (v ++ (quote p.1 ++ (layout.colon ++ (render layout depth p.2 ++ w)))) := by
    intro p hp v w hv hw
    have hp' := IsMember.pair hv (isString_quote p.1) .nil
      (.padded hspace.isWhite (hmembers p hp) hw)
    simpa [hcolon] using hp'
  induction members generalizing m v with
  | nil => exact .last (hmember m (by simp) hv hw)
  | cons next members ih =>
    obtain ⟨gap, hcomma, hgap⟩ := h.comma
    have hrest := ih (fun p hp => hmembers p (List.mem_cons_of_mem m hp))
      (hgap.append (h.lineStart depth)).isWhite fun p hp => hmember p (List.mem_cons_of_mem m hp)
    have hall := AreMembers.cons (hmember m (by simp) hv .nil) hrest
    simpa [renderMembers, hcomma] using hall

theorem isValue_render (h : layout.IsSpaced) {json : Json} (hjson : json.IsExact) :
    IsValue (render layout depth json) := by
  induction hjson generalizing depth with
  | null => exact .null
  | bool b =>
    cases b with
    | false => exact .false
    | true => exact .true
  | int i => exact .number (isNumber_decimalInt i)
  | string t => exact .string (isString_quote t)
  | @array items _ ih =>
    cases items with
    | nil => exact .emptyArray .nil
    | cons item items =>
      have hvalues : ∀ j ∈ item :: items, IsValue (render layout (depth + 1) j) :=
        fun j hj => ih j hj
      have hitems := areItems_render h hvalues (h.lineStart (depth + 1)).isWhite
        (h.lineStart depth).isWhite
      simpa [render] using IsValue.array hitems
  | @object members _ ih =>
    cases members with
    | nil => exact .emptyObject .nil
    | cons m members =>
      have hvalues : ∀ p ∈ m :: members, IsValue (render layout (depth + 1) p.2) :=
        fun p hp => ih p hp
      have hmembers := areMembers_render h hvalues (h.lineStart (depth + 1)).isWhite
        (h.lineStart depth).isWhite
      simpa [render] using IsValue.object hmembers

/-- **What is written is JSON.** -/
theorem isDocument_write (h : layout.IsSpaced) {json : Json} (hjson : json.IsExact) :
    IsDocument (json.write layout) := by
  have hvalue : IsValue (render layout 0 json) := isValue_render h hjson
  simpa [IsDocument, write] using IsElement.padded .nil hvalue .nil

end

end IoSource.Json
