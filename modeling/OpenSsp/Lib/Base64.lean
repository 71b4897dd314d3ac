/-
OpenSsp/Lib/Base64.lean

The URL-safe base64 text of bytes, without padding, and the UTF-8 bytes of a text.

Three bytes are four digits of six bits; two bytes that are left over are three digits and one byte
is two.  A decoder refuses other characters, a single digit left over, and bits that belong to no
byte, so every text it accepts is the text of what it decodes.

Main results: `base64Decode_encode`, `base64Encode_size` and `utf8Text_bytes`.
-/
import Mathlib.Data.List.Basic
import Mathlib.Tactic.IntervalCases

namespace Interleave

/-! ### Digits -/

/-- The digit for six bits: letters, figures, and the two signs. -/
def base64Digit (n : Nat) : Char :=
  if n < 26 then Char.ofNat (65 + n)
  else if n < 52 then Char.ofNat (71 + n)
  else if n < 62 then Char.ofNat (n - 4)
  else if n = 62 then '-'
  else '_'

/-- The six bits of a digit. -/
def base64Value (c : Char) : Option Nat :=
  let n := c.toNat
  if 65 ≤ n ∧ n ≤ 90 then some (n - 65)
  else if 97 ≤ n ∧ n ≤ 122 then some (n - 71)
  else if 48 ≤ n ∧ n ≤ 57 then some (n + 4)
  else if c = '-' then some 62
  else if c = '_' then some 63
  else none

/-- A digit is read back as its six bits. -/
theorem base64Value_digit {n : Nat} (h : n < 64) : base64Value (base64Digit n) = some n := by
  have hall : ∀ n < 64, base64Value (base64Digit n) = some n := by decide
  exact hall n h

/-- Every digit is an ASCII character. -/
theorem base64Digit_ascii {n : Nat} (h : n < 64) : (base64Digit n).val ≤ 127 := by
  have hall : ∀ n < 64, (base64Digit n).val ≤ 127 := by decide
  exact hall n h

/-! ### Encoding -/

/-- Three bytes make four digits; one or two left over make two or three. -/
def base64Chars : List UInt8 → List Char
  | a :: b :: c :: bs =>
      base64Digit (a.toNat / 4) :: base64Digit (a.toNat % 4 * 16 + b.toNat / 16) ::
        base64Digit (b.toNat % 16 * 4 + c.toNat / 64) :: base64Digit (c.toNat % 64) ::
        base64Chars bs
  | [a, b] =>
      [base64Digit (a.toNat / 4), base64Digit (a.toNat % 4 * 16 + b.toNat / 16),
        base64Digit (b.toNat % 16 * 4)]
  | [a] => [base64Digit (a.toNat / 4), base64Digit (a.toNat % 4 * 16)]
  | [] => []

/-- The encoding without padding. -/
def base64Encode (bs : List UInt8) : String := String.ofList (base64Chars bs)

/-- The length of the encoding; by recursion on the groups of three. -/
theorem base64Chars_length (bs : List UInt8) :
    (base64Chars bs).length = (4 * bs.length + 2) / 3 := by
  induction bs using base64Chars.induct with
  | case1 a b c bs ih =>
      simp only [base64Chars, List.length_cons, ih]
      omega
  | case2 a b => simp [base64Chars]
  | case3 a => simp [base64Chars]
  | case4 => rfl

/-- An encoding has ASCII characters only. -/
theorem base64Chars_ascii (bs : List UInt8) : ∀ c ∈ base64Chars bs, c.val ≤ 127 := by
  have hbyte : ∀ b : UInt8, b.toNat < 256 := fun b => b.toNat_lt
  induction bs using base64Chars.induct with
  | case1 a b c bs ih =>
      have ha := hbyte a
      have hb := hbyte b
      have hc := hbyte c
      intro d hd
      simp only [base64Chars, List.mem_cons] at hd
      rcases hd with rfl | rfl | rfl | rfl | hd
      · exact base64Digit_ascii (by omega)
      · exact base64Digit_ascii (by omega)
      · exact base64Digit_ascii (by omega)
      · exact base64Digit_ascii (by omega)
      · exact ih d hd
  | case2 a b =>
      have ha := hbyte a
      have hb := hbyte b
      intro d hd
      simp only [base64Chars, List.mem_cons, List.not_mem_nil, or_false] at hd
      rcases hd with rfl | rfl | rfl
      · exact base64Digit_ascii (by omega)
      · exact base64Digit_ascii (by omega)
      · exact base64Digit_ascii (by omega)
  | case3 a =>
      have ha := hbyte a
      intro d hd
      simp only [base64Chars, List.mem_cons, List.not_mem_nil, or_false] at hd
      rcases hd with rfl | rfl
      · exact base64Digit_ascii (by omega)
      · exact base64Digit_ascii (by omega)
  | case4 => exact fun _ hd => nomatch hd

/-! ### Decoding -/

/-- Four digits at a time; what is left over has no bits to spare. -/
def base64DecodeChars : List Char → Option (List UInt8)
  | w :: x :: y :: z :: cs => do
      let w ← base64Value w
      let x ← base64Value x
      let y ← base64Value y
      let z ← base64Value z
      let bs ← base64DecodeChars cs
      return UInt8.ofNat (w * 4 + x / 16) :: UInt8.ofNat (x % 16 * 16 + y / 4) ::
        UInt8.ofNat (y % 4 * 64 + z) :: bs
  | [w, x, y] => do
      let w ← base64Value w
      let x ← base64Value x
      let y ← base64Value y
      if y % 4 = 0 then some [UInt8.ofNat (w * 4 + x / 16), UInt8.ofNat (x % 16 * 16 + y / 4)]
      else none
  | [w, x] => do
      let w ← base64Value w
      let x ← base64Value x
      if x % 16 = 0 then some [UInt8.ofNat (w * 4 + x / 16)] else none
  | [_] => none
  | [] => some []

/-- The decoding of a text. -/
def base64Decode (s : String) : Option (List UInt8) := base64DecodeChars s.toList

/-- A byte is known by its number. -/
theorem ofNat_eq_byte {n : Nat} {b : UInt8} (h : n = b.toNat) : UInt8.ofNat n = b := by
  rw [h, UInt8.ofNat_toNat]

/-- What was encoded is decoded; by recursion on the groups of three. -/
theorem base64DecodeChars_chars (bs : List UInt8) :
    base64DecodeChars (base64Chars bs) = some bs := by
  have hbyte : ∀ b : UInt8, b.toNat < 256 := fun b => b.toNat_lt
  induction bs using base64Chars.induct with
  | case1 a b c bs ih =>
      have ha := hbyte a
      have hb := hbyte b
      have hc := hbyte c
      simp only [base64Chars, base64DecodeChars, ih,
        base64Value_digit (show a.toNat / 4 < 64 by omega),
        base64Value_digit (show a.toNat % 4 * 16 + b.toNat / 16 < 64 by omega),
        base64Value_digit (show b.toNat % 16 * 4 + c.toNat / 64 < 64 by omega),
        base64Value_digit (show c.toNat % 64 < 64 by omega), Option.bind_eq_bind, Option.bind_some]
      -- four digits of six bits are three bytes of eight
      rw [ofNat_eq_byte (b := a) (by omega), ofNat_eq_byte (b := b) (by omega),
        ofNat_eq_byte (b := c) (by omega)]
      rfl
  | case2 a b =>
      have ha := hbyte a
      have hb := hbyte b
      simp only [base64Chars, base64DecodeChars,
        base64Value_digit (show a.toNat / 4 < 64 by omega),
        base64Value_digit (show a.toNat % 4 * 16 + b.toNat / 16 < 64 by omega),
        base64Value_digit (show b.toNat % 16 * 4 < 64 by omega), Option.bind_eq_bind,
        Option.bind_some]
      rw [if_pos (by omega), ofNat_eq_byte (b := a) (by omega), ofNat_eq_byte (b := b) (by omega)]
  | case3 a =>
      have ha := hbyte a
      simp only [base64Chars, base64DecodeChars,
        base64Value_digit (show a.toNat / 4 < 64 by omega),
        base64Value_digit (show a.toNat % 4 * 16 < 64 by omega), Option.bind_eq_bind,
        Option.bind_some]
      rw [if_pos (by omega), ofNat_eq_byte (b := a) (by omega)]
  | case4 => rfl

/-- The same on texts. -/
theorem base64Decode_encode (bs : List UInt8) : base64Decode (base64Encode bs) = some bs := by
  rw [base64Decode, base64Encode, String.toList_ofList, base64DecodeChars_chars]

/-! ### Bytes of a text -/

/-- The UTF-8 form of a text. -/
def utf8Bytes (s : String) : List UInt8 := s.toByteArray.data.toList

/-- The text with this UTF-8 form, if the bytes are valid. -/
def utf8Text (bs : List UInt8) : Option String := String.fromUTF8? ⟨bs.toArray⟩

/-- A text is read back from its bytes. -/
theorem utf8Text_bytes (s : String) : utf8Text (utf8Bytes s) = some s := by
  have harray : (⟨(utf8Bytes s).toArray⟩ : ByteArray) = s.toByteArray := rfl
  rw [utf8Text, harray, String.fromUTF8?, dif_pos s.isValidUTF8]
  rfl

/-- Texts with the same bytes are the same. -/
theorem utf8Bytes_inj {a b : String} (h : utf8Bytes a = utf8Bytes b) : a = b := by
  apply Option.some.inj
  rw [← utf8Text_bytes a, ← utf8Text_bytes b, h]

/-- The length in bytes is the one that the program compares. -/
theorem utf8Bytes_length (s : String) : (utf8Bytes s).length = s.utf8ByteSize := rfl

/-- A text of ASCII characters has as many bytes as characters. -/
theorem utf8ByteSize_ascii {cs : List Char} (h : ∀ c ∈ cs, c.val ≤ 127) :
    (String.ofList cs).utf8ByteSize = cs.length := by
  induction cs with
  | nil => rfl
  | cons c cs ih =>
      have hc : c.utf8Size = 1 := Char.utf8Size_eq_one_iff.mpr (h c (by simp))
      have hcons : String.ofList (c :: cs) = String.singleton c ++ String.ofList cs := by
        rw [← List.singleton_append, String.ofList_append]
        rfl
      rw [hcons, String.utf8ByteSize_append, String.utf8ByteSize_singleton, hc,
        ih fun d hd => h d (by simp [hd]), List.length_cons]
      omega

/-- The encoding has as many bytes as digits. -/
theorem base64Encode_size (bs : List UInt8) :
    (base64Encode bs).utf8ByteSize = (4 * bs.length + 2) / 3 := by
  rw [base64Encode, utf8ByteSize_ascii (base64Chars_ascii bs), base64Chars_length]

end Interleave
