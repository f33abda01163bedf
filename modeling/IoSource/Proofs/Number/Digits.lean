import IoSource.Number.Shortest
import Mathlib.Data.List.Basic

/-!
# Reading digits back

The decimal text of a number spells that number (`ofDigits_decimal`), in digits only and without a
zero in front (`decimal_eq_cons`).  So do the hexadecimal digits of a code unit, digit by digit.

The texts of numbers, floats included, hold neither white space nor quotes (`isNumeral_floatText`):
they are made of letters, digits, points and signs.
-/

namespace IoSource.Number

/-! ### Digits -/

theorem isDigit_digit {d : Nat} (h : d < 10) : (digit d).isDigit = true := by
  have hall : ∀ d, d < 10 → (digit d).isDigit = true := by decide
  exact hall d h

theorem digitValue?_digit {d : Nat} (h : d < 16) : digitValue? 16 (digit d) = some d := by
  have hall : ∀ d, d < 16 → digitValue? 16 (digit d) = some d := by decide
  exact hall d h

theorem digitValue?_digit_ten {d : Nat} (h : d < 10) : digitValue? 10 (digit d) = some d := by
  have hall : ∀ d, d < 10 → digitValue? 10 (digit d) = some d := by decide
  exact hall d h

theorem digit_eq_zero {d : Nat} (h : d < 10) : digit d = '0' ↔ d = 0 := by
  have hall : ∀ d, d < 10 → (digit d = '0' ↔ d = 0) := by decide
  exact hall d h

/-! ### Decimal texts -/

theorem decimal_of_lt {n : Nat} (h : n < 10) : decimal n = [digit n] := by
  rw [decimal, if_pos h]

theorem decimal_of_not_lt {n : Nat} (h : ¬ n < 10) :
    decimal n = decimal (n / 10) ++ [digit (n % 10)] := by
  rw [decimal, if_neg h]

theorem isDigit_of_mem_decimal {n : Nat} {c : Char} (hc : c ∈ decimal n) : c.isDigit = true := by
  induction n using decimal.induct with
  | case1 n hn =>
    rw [decimal_of_lt hn] at hc
    obtain rfl := List.mem_singleton.mp hc
    exact isDigit_digit hn
  | case2 n hn ih =>
    rw [decimal_of_not_lt hn] at hc
    rcases List.mem_append.mp hc with hc | hc
    · exact ih hc
    · obtain rfl := List.mem_singleton.mp hc
      exact isDigit_digit (by omega)

/-- **Digits spell the number** that they were made of. -/
theorem ofDigits_decimal (n : Nat) : ofDigits 10 (decimal n) = n := by
  induction n using decimal.induct with
  | case1 n hn => simp [decimal_of_lt hn, ofDigits, digitValue?_digit_ten hn]
  | case2 n hn ih =>
    have hlast : n % 10 < 10 := by omega
    rw [ofDigits] at ih
    rw [decimal_of_not_lt hn, ofDigits, List.foldl_append, ih]
    simp only [List.foldl_cons, List.foldl_nil, digitValue?_digit_ten hlast, Option.getD_some]
    omega

/-- A decimal text starts with a digit, which is a zero only if it stands alone. -/
theorem decimal_eq_cons (n : Nat) :
    ∃ c rest, decimal n = c :: rest ∧ (c = '0' → n = 0 ∧ rest = []) := by
  induction n using decimal.induct with
  | case1 n hn =>
    exact ⟨digit n, [], decimal_of_lt hn, fun hzero => ⟨(digit_eq_zero hn).mp hzero, rfl⟩⟩
  | case2 n hn ih =>
    obtain ⟨c, rest, hfront, hzero⟩ := ih
    refine ⟨c, rest ++ [digit (n % 10)], ?_, fun hc => ?_⟩
    · rw [decimal_of_not_lt hn, hfront, List.cons_append]
    · have := (hzero hc).1
      omega

/-! ### Hexadecimal texts -/

theorem hexadecimal_four (n : Nat) :
    hexadecimal 4 n = [digit (n / 16 / 16 / 16 % 16), digit (n / 16 / 16 % 16), digit (n / 16 % 16),
      digit (n % 16)] := rfl

/-! ### The characters of numbers -/

def isNumeral (c : Char) : Bool := c.isAlphanum || c = '.' || c = '+' || c = '-'

theorem isNumeral_of_isDigit {c : Char} (h : c.isDigit = true) : isNumeral c = true := by
  simp [isNumeral, Char.isAlphanum, h]

theorem ne_of_isNumeral {c d : Char} (hc : isNumeral c = true) (hd : isNumeral d = false) :
    c ≠ d := by
  rintro rfl
  rw [hc] at hd
  exact absurd hd (by decide)

theorem isNumeral_decimal {n : Nat} {c : Char} (hc : c ∈ decimal n) : isNumeral c = true :=
  isNumeral_of_isDigit (isDigit_of_mem_decimal hc)

theorem isNumeral_decimalInt {i : Int} {c : Char} (hc : c ∈ decimalInt i) :
    isNumeral c = true := by
  cases i with
  | ofNat n => exact isNumeral_decimal hc
  | negSucc n =>
    rcases List.mem_cons.mp hc with rfl | hc
    · decide
    · exact isNumeral_decimal hc

theorem isNumeral_layOut {d : Decimal} : ∀ c ∈ layOut d, isNumeral c = true := by
  have hdigits : ∀ n, ∀ c ∈ decimal n, isNumeral c = true := fun n c => isNumeral_decimal
  have hzeros : ∀ n, ∀ c ∈ List.replicate n '0', isNumeral c = true := by
    intro n c hc
    rw [List.eq_of_mem_replicate hc]
    decide
  have hpoint : isNumeral '.' = true := by decide
  have hzero : isNumeral '0' = true := by decide
  intro c hc
  simp only [layOut] at hc
  split at hc
  · split at hc
    · grind
    · split at hc
      · grind
      · grind [List.mem_of_mem_take, List.mem_of_mem_drop]
  · rcases List.mem_append.mp hc with hc | hc
    · have hmantissa := hdigits d.digits
      split at hc <;> grind
    · rcases List.mem_cons.mp hc with rfl | hc
      · decide
      · rcases List.mem_cons.mp hc with rfl | hc
        · split <;> decide
        · split at hc <;> grind

/-- **The text of a float** is made of the same characters as its special texts. -/
theorem isNumeral_floatText {special : FloatNotation}
    (hnan : ∀ c ∈ special.nan, isNumeral c = true)
    (hinfinity : ∀ c ∈ special.infinity, isNumeral c = true)
    (hnegative : ∀ c ∈ special.negativeInfinity, isNumeral c = true) (x : Float) :
    ∀ c ∈ floatText special x, isNumeral c = true := by
  intro c hc
  rw [floatText] at hc
  split at hc
  · exact hnan c hc
  · split at hc
    · exact hnegative c hc
    · exact hinfinity c hc
  · next negative mantissa exponent _ =>
    have hsize : ∀ c ∈ (if mantissa = 0 then ['0', '.', '0']
        else layOut (shortest mantissa exponent)), isNumeral c = true := by
      split
      · exact List.all_eq_true.mp rfl
      · exact isNumeral_layOut
    simp only at hc
    split at hc
    · rcases List.mem_cons.mp hc with rfl | hc
      · decide
      · exact hsize c hc
    · exact hsize c hc

end IoSource.Number
