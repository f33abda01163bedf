import IoSource.Files.Utf8
import Mathlib.Data.List.Basic

/-!
# Reading back what was written in UTF-8

A text comes back when its encoding is decoded (`decodeLossy_encode`).  The decoder does not look at
whole characters: a lead byte says how many bytes follow and in which range the next one lies, and
these ranges leave out surrogates and encodings that are too long.  So for each length there is one
fact about the lead byte (`begin_two`, `begin_three`, `begin_four`), and the bytes behind it are
read one by one.
-/

namespace IoSource.Utf8

variable {offset : Nat} {b : UInt8} {rest : Bytes}

/-! ### One byte -/

theorem toNat_ofNat_of_lt {n : Nat} (h : n < 256) : (UInt8.ofNat n).toNat = n := by
  rw [UInt8.toNat_ofNat', Nat.mod_eq_of_lt h]

theorem decodeFrom_begin {p : Pending} (h : begin offset b.toNat = .ok (.inr p)) :
    decodeFrom offset none (b :: rest) = decodeFrom (offset + 1) (some p) rest := by
  rw [decodeFrom, h]

section Continuation

variable {low high : Nat} (n : Nat) (hlow : low ≤ n % 64 + 0x80) (hhigh : n % 64 + 0x80 ≤ high)
include hlow hhigh

/-- A continuation byte that is not the last one adds six bits. -/
theorem decodeFrom_continue {owed bits read : Nat} (howed : owed ≠ 0) :
    decodeFrom offset (some ⟨owed + 1, low, high, bits, read⟩)
        (UInt8.ofNat (n % 64 + 0x80) :: rest) =
      decodeFrom (offset + 1) (some ⟨owed, 0x80, 0xBF, bits * 64 + n % 64, read + 1⟩) rest := by
  have hbyte : (UInt8.ofNat (n % 64 + 0x80)).toNat = n % 64 + 0x80 := toNat_ofNat_of_lt (by omega)
  rw [decodeFrom, hbyte, if_pos ⟨hlow, hhigh⟩, if_neg (by simpa using howed), Nat.add_sub_cancel,
    Nat.add_sub_cancel]

theorem decodeFrom_last {bits read : Nat} :
    decodeFrom offset (some ⟨1, low, high, bits, read⟩) (UInt8.ofNat (n % 64 + 0x80) :: rest) =
      .ok (Char.ofNat (bits * 64 + n % 64)) :: decodeFrom (offset + 1) none rest := by
  have hbyte : (UInt8.ofNat (n % 64 + 0x80)).toNat = n % 64 + 0x80 := toNat_ofNat_of_lt (by omega)
  rw [decodeFrom, hbyte, if_pos ⟨hlow, hhigh⟩, if_pos rfl, Nat.add_sub_cancel]

end Continuation

/-! ### Lead bytes -/

theorem begin_two (offset : Nat) {v : Nat} (h : 0x80 ≤ v) (h' : v < 0x800) :
    begin offset (v / 64 + 0xC0) = .ok (.inr ⟨1, 0x80, 0xBF, v / 64, 1⟩) := by
  rw [begin, if_neg (by omega), if_pos (by omega), Nat.add_sub_cancel]

/-- The range for the second of three bytes leaves out what two bytes can hold, and surrogates. -/
theorem begin_three (offset : Nat) {v : Nat} (h : 0x800 ≤ v) (h' : v < 0x10000)
    (hvalid : v < 0xD800 ∨ 0xDFFF < v) :
    ∃ low high, begin offset (v / 4096 + 0xE0) = .ok (.inr ⟨2, low, high, v / 4096, 1⟩) ∧
      low ≤ v / 64 % 64 + 0x80 ∧ v / 64 % 64 + 0x80 ≤ high := by
  rw [begin, if_neg (by omega), if_neg (by omega)]
  by_cases hfirst : v / 4096 = 0
  · rw [hfirst, if_pos rfl]
    exact ⟨_, _, rfl, by omega, by omega⟩
  · rw [if_neg (by omega)]
    by_cases hsurrogate : v / 4096 = 0xD
    · rw [hsurrogate, if_pos rfl]
      exact ⟨_, _, rfl, by omega, by omega⟩
    · rw [if_neg (by omega), if_pos (by omega), Nat.add_sub_cancel]
      exact ⟨_, _, rfl, by omega, by omega⟩

/-- That for the second of four bytes leaves out what three bytes can hold, and what is no
character. -/
theorem begin_four (offset : Nat) {v : Nat} (h : 0x10000 ≤ v) (h' : v < 0x110000) :
    ∃ low high, begin offset (v / 262144 + 0xF0) = .ok (.inr ⟨3, low, high, v / 262144, 1⟩) ∧
      low ≤ v / 4096 % 64 + 0x80 ∧ v / 4096 % 64 + 0x80 ≤ high := by
  rw [begin, if_neg (by omega), if_neg (by omega), if_neg (by omega), if_neg (by omega),
    if_neg (by omega)]
  by_cases hfirst : v / 262144 = 0
  · rw [hfirst, if_pos rfl]
    exact ⟨_, _, rfl, by omega, by omega⟩
  · rw [if_neg (by omega)]
    by_cases hlast : v / 262144 = 4
    · rw [hlast, if_neg (by omega), if_pos rfl]
      exact ⟨_, _, rfl, by omega, by omega⟩
    · rw [if_pos (by omega), Nat.add_sub_cancel]
      exact ⟨_, _, rfl, by omega, by omega⟩

/-! ### Characters -/

variable {v : Nat}

theorem decodeFrom_one (offset : Nat) (h : v < 0x80) (rest : Bytes) :
    decodeFrom offset none (UInt8.ofNat v :: rest) =
      .ok (Char.ofNat v) :: decodeFrom (offset + 1) none rest := by
  have hbyte : (UInt8.ofNat v).toNat = v := toNat_ofNat_of_lt (by omega)
  rw [decodeFrom, hbyte, begin, if_pos h]

theorem decodeFrom_two (offset : Nat) (h : 0x80 ≤ v) (h' : v < 0x800) (rest : Bytes) :
    decodeFrom offset none
        (UInt8.ofNat (v / 64 % 32 + 0xC0) :: UInt8.ofNat (v % 64 + 0x80) :: rest) =
      .ok (Char.ofNat v) :: decodeFrom (offset + 2) none rest := by
  have hlead : (UInt8.ofNat (v / 64 % 32 + 0xC0)).toNat = v / 64 + 0xC0 := by
    rw [toNat_ofNat_of_lt (by omega)]
    omega
  have hbits : v / 64 * 64 + v % 64 = v := by omega
  rw [decodeFrom_begin (by rw [hlead]; exact begin_two offset h h'),
    decodeFrom_last v (by omega) (by omega), hbits]

theorem decodeFrom_three (offset : Nat) (h : 0x800 ≤ v) (h' : v < 0x10000)
    (hvalid : v < 0xD800 ∨ 0xDFFF < v) (rest : Bytes) :
    decodeFrom offset none
        (UInt8.ofNat (v / 4096 % 16 + 0xE0) :: UInt8.ofNat (v / 64 % 64 + 0x80) ::
          UInt8.ofNat (v % 64 + 0x80) :: rest) =
      .ok (Char.ofNat v) :: decodeFrom (offset + 3) none rest := by
  have hlead : (UInt8.ofNat (v / 4096 % 16 + 0xE0)).toNat = v / 4096 + 0xE0 := by
    rw [toNat_ofNat_of_lt (by omega)]
    omega
  have hbits : (v / 4096 * 64 + v / 64 % 64) * 64 + v % 64 = v := by omega
  obtain ⟨low, high, hbegin, hlow, hhigh⟩ := begin_three offset h h' hvalid
  rw [decodeFrom_begin (by rw [hlead]; exact hbegin),
    decodeFrom_continue (v / 64) hlow hhigh (by decide),
    decodeFrom_last v (by omega) (by omega), hbits]

theorem decodeFrom_four (offset : Nat) (h : 0x10000 ≤ v) (h' : v < 0x110000) (rest : Bytes) :
    decodeFrom offset none
        (UInt8.ofNat (v / 262144 % 8 + 0xF0) :: UInt8.ofNat (v / 4096 % 64 + 0x80) ::
          UInt8.ofNat (v / 64 % 64 + 0x80) :: UInt8.ofNat (v % 64 + 0x80) :: rest) =
      .ok (Char.ofNat v) :: decodeFrom (offset + 4) none rest := by
  have hlead : (UInt8.ofNat (v / 262144 % 8 + 0xF0)).toNat = v / 262144 + 0xF0 := by
    rw [toNat_ofNat_of_lt (by omega)]
    omega
  have hbits : ((v / 262144 * 64 + v / 4096 % 64) * 64 + v / 64 % 64) * 64 + v % 64 = v := by
    omega
  obtain ⟨low, high, hbegin, hlow, hhigh⟩ := begin_four offset h h'
  rw [decodeFrom_begin (by rw [hlead]; exact hbegin),
    decodeFrom_continue (v / 4096) hlow hhigh (by decide),
    decodeFrom_continue (v / 64) (by omega) (by omega) (by decide),
    decodeFrom_last v (by omega) (by omega), hbits]

/-- **A character comes back** from its bytes, and decoding goes on behind them. -/
theorem decodeFrom_encodeChar (offset : Nat) (c : Char) (rest : Bytes) :
    decodeFrom offset none (String.utf8EncodeChar c ++ rest) =
      .ok c :: decodeFrom (offset + (String.utf8EncodeChar c).length) none rest := by
  have hvalid : c.toNat < 0xD800 ∨ 0xDFFF < c.toNat ∧ c.toNat < 0x110000 := c.valid
  have hv : c.val.toNat = c.toNat := rfl
  have hback : Char.ofNat c.toNat = c := Char.ofNat_toNat c
  simp only [String.utf8EncodeChar, hv]
  split
  · next h1 => exact (decodeFrom_one offset (by omega) rest).trans (by rw [hback]; rfl)
  · next h1 =>
    split
    · next h2 =>
      exact (decodeFrom_two offset (by omega) (by omega) rest).trans (by rw [hback]; rfl)
    · next h2 =>
      split
      · next h3 =>
        exact (decodeFrom_three offset (by omega) (by omega) (by omega) rest).trans
          (by rw [hback]; rfl)
      · next h3 =>
        exact (decodeFrom_four offset (by omega) (by omega) rest).trans (by rw [hback]; rfl)

/-! ### Texts -/

theorem decodeFrom_encode (offset : Nat) (t : Text) :
    decodeFrom offset none (encode t) = t.map .ok := by
  induction t generalizing offset with
  | nil => rfl
  | cons c t ih =>
    rw [encode, List.flatMap_cons, decodeFrom_encodeChar, ← encode, ih, List.map_cons]

/-- **A text comes back from its encoding.** -/
theorem decodeLossy_encode (t : Text) : decodeLossy (encode t) = t := by
  rw [decodeLossy, decodeFrom_encode, List.map_map]
  exact List.map_id t

theorem allOk_map_ok (t : Text) : allOk (t.map .ok) = .ok t := by
  induction t with
  | nil => rfl
  | cons c t ih =>
    rw [List.map_cons, allOk, ih]
    rfl

theorem decode_encode (t : Text) : decode (encode t) = .ok t := by
  rw [decode, decodeFrom_encode, allOk_map_ok]

end IoSource.Utf8
