import IoSource.Proofs.Json.Reading
import IoSource.Proofs.Json.Value
import IoSource.Proofs.Json.Writer

/-!
# Values are read back

What a writer makes of a writable value is JSON, and reading it gives the document that the value
stands for (`Writer.readsBack`), whatever the layout.  Compact texts hold no control characters.
Reports are among the writable values, as long as their numbers are.

Three limits are set by the machine: an integer may have no more digits than its decimal text, there
has to be room for the indentation, and the stack has to suffice (`Writer.not_readsBack`).
-/

namespace IoSource

namespace Json

/-! ### Control characters -/

def HasNoControl (t : Text) : Prop := ∀ c ∈ t, 0x20 ≤ c.toNat

namespace HasNoControl

theorem nil : HasNoControl [] := by simp [HasNoControl]

theorem cons {c : Char} {t : Text} (hc : 0x20 ≤ c.toNat) (ht : HasNoControl t) :
    HasNoControl (c :: t) :=
  List.forall_mem_cons.mpr ⟨hc, ht⟩

theorem append {s t : Text} (hs : HasNoControl s) (ht : HasNoControl t) : HasNoControl (s ++ t) := by
  intro c hc
  rcases List.mem_append.mp hc with hc | hc
  · exact hs c hc
  · exact ht c hc

theorem of_isNumeral {t : Text} (h : ∀ c ∈ t, Number.isNumeral c = true) : HasNoControl t := by
  have hcontrols : ∀ n, n < 0x20 → Number.isNumeral (Char.ofNat n) = false := by decide
  intro c hc
  by_contra hlow
  have := hcontrols c.toNat (Nat.lt_of_not_le hlow)
  rw [Char.ofNat_toNat, h c hc] at this
  exact absurd this (by decide)

end HasNoControl

theorem hasNoControl_escapedChar (c : Char) : HasNoControl (escapedChar c) := by
  rcases escapedChar_cases c with ⟨letter, hc, hletter⟩ | ⟨-, hc⟩ | ⟨hcontrol, -, -, hc⟩
  · have hletters : ∀ d ∈ ['"', '\\', '/', 'b', 'f', 'n', 'r', 't'], 0x20 ≤ d.toNat := by simp
    rw [hc]
    exact .cons (by decide) (.cons (hletters letter (mem_of_unescape? hletter)) .nil)
  · have hdigits : ∀ d, d < 16 → 0x20 ≤ (Number.digit d).toNat := by decide
    rw [hc, Number.hexadecimal_four]
    exact .cons (by decide) (.cons (by decide) (.cons (hdigits _ (by omega)) (.cons
      (hdigits _ (by omega)) (.cons (hdigits _ (by omega)) (.cons (hdigits _ (by omega)) .nil)))))
  · rw [hc]
    exact .cons hcontrol .nil

theorem hasNoControl_quote (t : Text) : HasNoControl (quote t) := by
  have hbody : HasNoControl (t.flatMap escapedChar) := by
    intro c hc
    obtain ⟨d, -, hd⟩ := List.mem_flatMap.mp hc
    exact hasNoControl_escapedChar d c hd
  exact .cons (by decide) (hbody.append (.cons (by decide) .nil))

theorem hasNoControl_renderItems {depth : Nat} {items : List Json}
    (h : ∀ item ∈ items, HasNoControl (render .compact depth item)) :
    HasNoControl (renderItems .compact depth items) := by
  rw [renderItems_eq]
  intro c hc
  obtain ⟨item, hitem, hc⟩ := List.mem_flatMap.mp hc
  exact HasNoControl.cons (by decide) (h item hitem) c hc

theorem hasNoControl_renderMembers {depth : Nat} {members : List (Text × Json)}
    (h : ∀ m ∈ members, HasNoControl (render .compact depth m.2)) :
    HasNoControl (renderMembers .compact depth members) := by
  rw [renderMembers_eq]
  intro c hc
  obtain ⟨m, hm, hc⟩ := List.mem_flatMap.mp hc
  exact HasNoControl.cons (by decide)
    ((hasNoControl_quote m.1).append (.cons (by decide) (h m hm))) c hc

/-- **Compact texts hold no control characters**, as those of strings are escaped. -/
theorem hasNoControl_render (depth : Nat) (json : Json) :
    HasNoControl (render .compact depth json) := by
  induction json using Json.induction generalizing depth with
  | null => exact .of_isNumeral (List.all_eq_true.mp rfl)
  | bool b => cases b <;> exact .of_isNumeral (List.all_eq_true.mp rfl)
  | int i => exact .of_isNumeral fun c => Number.isNumeral_decimalInt
  | float x => exact .of_isNumeral fun c => isNumeral_of_mem_floatText
  | string t => exact hasNoControl_quote t
  | array items ih =>
    cases items with
    | nil => exact .cons (by decide) (.cons (by decide) .nil)
    | cons item items =>
      have hitems := hasNoControl_renderItems fun j hj =>
        ih j (List.mem_cons_of_mem item hj) (depth + 1)
      exact .cons (by decide) ((ih item (by simp) (depth + 1)).append
        (hitems.append (.cons (by decide) .nil)))
  | object members ih =>
    cases members with
    | nil => exact .cons (by decide) (.cons (by decide) .nil)
    | cons m members =>
      have hmembers := hasNoControl_renderMembers fun p hp =>
        ih p (List.mem_cons_of_mem m hp) (depth + 1)
      exact .cons (by decide) ((hasNoControl_quote m.1).append (.cons (by decide)
        ((ih m (by simp) (depth + 1)).append (hmembers.append (.cons (by decide) .nil)))))

/-! ### Reading what a writer wrote -/

/-- Whether a result is a text that is JSON and that is read as a document. -/
def IsReadFrom (json : Json) (result : Except WriteError Text) : Prop :=
  ∃ t, result = .ok t ∧ IsDocument t ∧ read? t = some json

theorem isReadFrom_write {layout : Layout} (h : layout.IsSpaced) {json : Json}
    (hjson : json.IsExact) : IsReadFrom json (.ok (json.write layout)) :=
  ⟨json.write layout, rfl, isDocument_write h hjson, read?_write h hjson⟩

end Json

namespace Writer

/-- **What is written is read back**, in every way of writing that the stack suffices for. -/
theorem readsBack [Platform] (w : Writer) {v : Value} (hv : v.IsWritable) :
    (w.indent.IsSpaceCount → w.HasRoom →
      (v.fits (.text w.isIndented) = true → (v.plain w.sortKeys).IsReadFrom (w.write v)) ∧
      (v.fits (.stream w.isIndented) = true → (v.plain w.sortKeys).IsReadFrom (w.stream v))) ∧
    (v.fits .compact = true → (v.plain w.sortKeys).IsReadFrom (w.compact v)) ∧
    ∀ t, w.compact v = .ok t → Json.HasNoControl t := by
  have hjson := Json.ofValue_eq_plain w.sortKeys hv
  have hexact := Json.isExact_plain w.sortKeys hv
  refine ⟨fun hindent hroom => ?laidOut, fun hfits => ?compact, fun t ht => ?control⟩
  case laidOut =>
    obtain ⟨layout, hlayout, hspaced⟩ := exists_layout hindent hroom
    constructor
    · intro hfits
      rw [write_of_layout hlayout, document_of_fits w hfits, hjson]
      exact Json.isReadFrom_write hspaced hexact
    · intro hfits
      rw [stream_of_layout hlayout, document_of_fits w hfits, hjson]
      exact Json.isReadFrom_write hspaced hexact
  case compact =>
    rw [compact_eq, document_of_fits w hfits, hjson]
    exact Json.isReadFrom_write Json.Layout.isSpaced_compact hexact
  case control =>
    obtain ⟨hfits, -⟩ := exists_document_iff.mp (exists_map_eq_ok_iff.mp ⟨t, compact_eq w v ▸ ht⟩)
    rw [compact_eq, document_of_fits w hfits, hjson] at ht
    obtain rfl := Except.ok.inj ht
    exact Json.hasNoControl_render 0 _

open Platform.Usual in
/-- A tuple, a category and a set, and reports on a file of one line. -/
theorem readsBack_nested :
    let w : Writer := { indent := .int 1 }
    let path : Path := ⟨[], [['a']]⟩
    let spans : HighlightReport := ⟨path, [⟨0, 1, ['#'], .comment⟩]⟩
    let lines : IndentReport := ⟨path, 4, [⟨1, 0, 4, ['x']⟩]⟩
    let v : Value := .list [.tuple [.int (-7), .null], .category .comment, .set [.text ['b']],
      spans.toValue, lines.toValue]
    v.IsWritable ∧ w.indent.IsSpaceCount ∧ w.HasRoom ∧ v.fits (.text w.isIndented) = true ∧
      (v.plain true).IsReadFrom (w.write v) := by
  intro w path spans lines v
  have hsize : (-7 : Int).natAbs < Nat.pow 10 Number.maxDecimalDigits := by decide +kernel
  have hsmall : ∀ n ≤ 7, n < Nat.pow 10 Number.maxDecimalDigits := fun n hn =>
    Nat.lt_of_le_of_lt hn hsize
  have htuple : (Value.tuple [.int (-7), .null]).IsWritable := by
    refine .tuple ?_
    simp only [List.forall_mem_cons]
    exact ⟨.int hsize, .null, by simp⟩
  have hspans : spans.toValue.IsWritable := by
    refine HighlightReport.isWritable_toValue (fun span hspan => ?_) (hsmall 1 (by decide))
    obtain rfl := List.mem_singleton.mp hspan
    exact Span.isWritable_toValue (hsmall 0 (by decide)) (hsmall 1 (by decide))
  have hlines : lines.toValue.IsWritable := by
    refine IndentReport.isWritable_toValue (hsmall 4 (by decide)) (fun line hline => ?_)
      (hsmall 1 (by decide))
    obtain rfl := List.mem_singleton.mp hline
    exact LineIndent.isWritable_toValue (hsmall 1 (by decide)) (hsmall 0 (by decide))
      (hsmall 4 (by decide))
  have hwritable : v.IsWritable := by
    refine .list ?_
    simp only [List.forall_mem_cons]
    exact ⟨htuple, .category _, .set [['b']], hspans, hlines, by simp⟩
  have hcount : w.indent.IsSpaceCount := .int 1
  have hroom : w.HasRoom := hasRoom_of_indent rfl (by decide : 1 < roomLimit)
  have hfits : v.fits (.text w.isIndented) = true := by decide
  exact ⟨hwritable, hcount, hroom, hfits, ((readsBack w hwritable).1 hcount hroom).1 hfits⟩

theorem isWritable_nestedLists (depth : Nat) : (Value.nestedLists depth).IsWritable := by
  induction depth with
  | zero => exact .list (by simp)
  | succ depth ih => exact .list fun v hv => List.mem_singleton.mp hv ▸ ih

open Platform.Usual in
/-- **The three limits.**  An integer of too many digits is not written at all, nothing is if there
is no room for the indentation, and of what nests too deeply nothing is. -/
theorem not_readsBack :
    ({} : Writer).compact (.int (Nat.pow 10 Number.maxDecimalDigits : Nat)) = .error .tooManyDigits ∧
      ({ indent := .int (-(Nat.pow 2 63 : Nat) - 1) } : Writer).write (.list [.int 1]) =
        .error (.indentTooLarge .tooMany) ∧
      (Value.nestedLists 993).IsWritable ∧
        ∃ e, ({} : Writer).compact (Value.nestedLists 993) = .error e := by
  refine ⟨?digits, ?room, isWritable_nestedLists 993, ?stack⟩
  case digits =>
    have hdigits : Number.decimalInt? (Nat.pow 10 Number.maxDecimalDigits : Nat) = none := by
      rw [Number.decimalInt?, Int.natAbs_natCast, if_neg (Nat.lt_irrefl _)]
    rw [compact_eq, document, Json.ofValue, hdigits]
    rfl
  case room =>
    have hlayout : ({ indent := .int (-(Nat.pow 2 63 : Nat) - 1) } : Writer).layout? =
        .error (.indentTooLarge .tooMany) := by decide
    exact write_of_error hlayout (by simp)
  case stack =>
    have hfits : (Value.nestedLists 993).fits .compact = false := by
      rw [← Bool.not_eq_true, Value.fits_iff, Value.calls_nestedLists]
      decide
    obtain ⟨e, he⟩ := exists_document_eq_error {} hfits
    rw [compact_eq, he]
    exact ⟨e, rfl⟩

end Writer

end IoSource
