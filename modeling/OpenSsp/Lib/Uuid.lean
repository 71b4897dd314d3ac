/-
OpenSsp/Lib/Uuid.lean

Hexadecimal text and UUIDs.  `hexEncode` writes lower-case digits; `hexDecode` reads
both cases.  A `Uuid` is sixteen bytes; `Uuid.parse` accepts the four textual forms
(32 digits, hyphenated, braced, URN) in either case, and `Uuid.print` writes the
hyphenated lower-case one.

Main results: `hexDecode_hexEncode` and `Uuid.parse_print`, so printing is injective
and every UUID has one canonical spelling among those that parse to it.
-/
import Mathlib.Data.List.Basic
import Mathlib.Tactic.IntervalCases

namespace Interleave

/-! ### Hexadecimal text -/

/-- The hexadecimal digit, in small letters. -/
def hexDigit (n : Nat) : Char :=
  if n < 10 then Char.ofNat (48 + n) else Char.ofNat (87 + n)

/-- The value of a digit, upper or lower case. -/
def hexValue (c : Char) : Option Nat :=
  let n := c.toNat
  if 48 ≤ n ∧ n ≤ 57 then some (n - 48)
  else if 97 ≤ n ∧ n ≤ 102 then some (n - 87)
  else if 65 ≤ n ∧ n ≤ 70 then some (n - 55)
  else none

/-- A digit is read back as its value. -/
theorem hexValue_hexDigit {n : Nat} (h : n < 16) : hexValue (hexDigit n) = some n := by
  interval_cases n <;> decide

/-- The two digits of a byte. -/
def hexByte (b : UInt8) : List Char := [hexDigit (b.toNat / 16), hexDigit (b.toNat % 16)]

/-- The digits of some bytes. -/
def hexChars (bs : List UInt8) : List Char := bs.flatMap hexByte

/-- The hexadecimal text of some bytes. -/
def hexEncode (bs : List UInt8) : String := String.ofList (hexChars bs)

/-- Read pairs of digits; `none` on an odd number of them or another character. -/
def hexDecodeChars : List Char → Option (List UInt8)
  | [] => some []
  | [_] => none
  | a :: b :: cs => do
      let x ← hexValue a
      let y ← hexValue b
      let bs ← hexDecodeChars cs
      return UInt8.ofNat (16 * x + y) :: bs

/-- The bytes of a hexadecimal text, in letters of either size. -/
def hexDecode (s : String) : Option (List UInt8) := hexDecodeChars s.toList

/-- Two digits in front are a byte in front. -/
theorem hexDecodeChars_append_byte (b : UInt8) (cs : List Char) :
    hexDecodeChars (hexByte b ++ cs) = (hexDecodeChars cs).map (b :: ·) := by
  have hb : b.toNat < 256 := b.toNat_lt
  have hsum : 16 * (b.toNat / 16) + b.toNat % 16 = b.toNat := by omega
  simp only [hexByte, List.cons_append, List.nil_append, hexDecodeChars,
    hexValue_hexDigit (show b.toNat / 16 < 16 by omega),
    hexValue_hexDigit (show b.toNat % 16 < 16 by omega), Option.bind_eq_bind,
    Option.bind_some, hsum, UInt8.ofNat_toNat]
  cases hexDecodeChars cs <;> rfl

/-- By induction on the bytes. -/
theorem hexDecodeChars_hexChars (bs : List UInt8) : hexDecodeChars (hexChars bs) = some bs := by
  induction bs with
  | nil => rfl
  | cons b bs ih =>
      show hexDecodeChars (hexByte b ++ hexChars bs) = _
      rw [hexDecodeChars_append_byte, ih]
      rfl

/-- Bytes survive the round trip through their text. -/
theorem hexDecode_hexEncode (bs : List UInt8) : hexDecode (hexEncode bs) = some bs := by
  rw [hexDecode, hexEncode, String.toList_ofList, hexDecodeChars_hexChars]

/-- A byte has two digits. -/
@[simp] theorem hexChars_length (bs : List UInt8) : (hexChars bs).length = 2 * bs.length := by
  induction bs with
  | nil => rfl
  | cons b bs ih =>
      show (hexByte b ++ hexChars bs).length = _
      simp only [List.length_append, ih, hexByte, List.length_cons, List.length_nil]
      omega

@[simp] theorem hexEncode_length (bs : List UInt8) : (hexEncode bs).length = 2 * bs.length := by
  rw [hexEncode, String.length_ofList, hexChars_length]

/-- A value is below 16, and its digit is the small form of the character. -/
theorem hexDigit_hexValue {c : Char} {n : Nat} (h : hexValue c = some n) :
    n < 16 ∧ hexDigit n = c.toLower := by
  have hc : c = Char.ofNat c.toNat := (Char.ofNat_toNat c).symm
  simp only [hexValue] at h
  generalize c.toNat = m at h hc
  subst hc
  split at h
  · obtain rfl := Option.some.inj h
    obtain ⟨hl, hu⟩ := ‹48 ≤ m ∧ m ≤ 57›
    interval_cases m <;> decide
  · split at h
    · obtain rfl := Option.some.inj h
      obtain ⟨hl, hu⟩ := ‹97 ≤ m ∧ m ≤ 102›
      interval_cases m <;> decide
    · split at h
      · obtain rfl := Option.some.inj h
        obtain ⟨hl, hu⟩ := ‹65 ≤ m ∧ m ≤ 70›
        interval_cases m <;> decide
      · simp at h

/-- Decoding and encoding again spells the text in lower case. -/
theorem hexChars_hexDecodeChars {cs : List Char} {bs : List UInt8}
    (h : hexDecodeChars cs = some bs) : hexChars bs = cs.map Char.toLower := by
  induction cs using hexDecodeChars.induct generalizing bs with
  | case1 =>
      obtain rfl := Option.some.inj h
      rfl
  | case2 c => simp [hexDecodeChars] at h
  | case3 a b cs ih =>
      obtain ⟨x, hx, h⟩ := Option.bind_eq_some_iff.mp h
      obtain ⟨y, hy, h⟩ := Option.bind_eq_some_iff.mp h
      obtain ⟨bs', hbs, h⟩ := Option.bind_eq_some_iff.mp h
      obtain rfl := Option.some.inj h
      obtain ⟨hx16, hxa⟩ := hexDigit_hexValue hx
      obtain ⟨hy16, hyb⟩ := hexDigit_hexValue hy
      have hbyte : hexByte (UInt8.ofNat (16 * x + y)) = [a.toLower, b.toLower] := by
        have hn : (UInt8.ofNat (16 * x + y)).toNat = 16 * x + y := by
          rw [UInt8.toNat_ofNat']
          omega
        rw [hexByte, hn, show (16 * x + y) / 16 = x by omega,
          show (16 * x + y) % 16 = y by omega, hxa, hyb]
      show hexByte _ ++ hexChars bs' = _
      rw [hbyte, ih hbs]
      rfl

/-! ### UUIDs -/

/-- Sixteen bytes. -/
structure Uuid where
  bytes : List UInt8
  size : bytes.length = 16
deriving DecidableEq

namespace Uuid

/-- Sixteen bytes are an id. -/
def ofBytes (bs : List UInt8) : Option Uuid :=
  if h : bs.length = 16 then some ⟨bs, h⟩ else none

/-- One byte sixteen times. -/
def fill (b : UInt8) : Uuid := ⟨List.replicate 16 b, List.length_replicate⟩

/-- Fifteen zeros and one byte are sixteen bytes. -/
theorem ending_size (b : UInt8) : (List.replicate 15 0 ++ [b]).length = 16 := by simp

/-- Zeros, and `b` as the last byte. -/
def ending (b : UInt8) : Uuid := ⟨List.replicate 15 0 ++ [b], ending_size b⟩

/-- Thirty-two digits. -/
def parseSimple (cs : List Char) : Option Uuid := (hexDecodeChars cs).bind ofBytes

/-- Digits in groups of 8, 4, 4, 4 and 12, separated by hyphens. -/
def parseHyphenated (cs : List Char) : Option Uuid :=
  if cs[8]? = some '-' ∧ cs[13]? = some '-' ∧ cs[18]? = some '-' ∧ cs[23]? = some '-' then
    parseSimple (cs.take 8 ++ (cs.drop 9).take 4 ++ (cs.drop 14).take 4 ++
      (cs.drop 19).take 4 ++ cs.drop 24)
  else none

/-- The spellings a UUID parser accepts: the length says which form it is. -/
def parseChars (cs : List Char) : Option Uuid :=
  if cs.length = 32 then parseSimple cs
  else if cs.length = 36 then parseHyphenated cs
  else if cs.length = 38 ∧ cs.head? = some '{' ∧ cs.getLast? = some '}' then
    parseHyphenated (cs.drop 1).dropLast
  else if cs.length = 45 ∧ cs.take 9 = ['u', 'r', 'n', ':', 'u', 'u', 'i', 'd', ':'] then
    parseHyphenated (cs.drop 9)
  else none

/-- The id of a text, hyphenated or not. -/
def parse (s : String) : Option Uuid := parseChars s.toList

/-- The hyphenated form: groups of 8, 4, 4, 4 and 12 digits. -/
def printChars (u : Uuid) : List Char :=
  hexChars (u.bytes.take 4) ++ '-' :: hexChars ((u.bytes.drop 4).take 2) ++
    '-' :: hexChars ((u.bytes.drop 6).take 2) ++ '-' :: hexChars ((u.bytes.drop 8).take 2) ++
    '-' :: hexChars (u.bytes.drop 10)

/-- The canonical spelling. -/
def print (u : Uuid) : String := String.ofList u.printChars

/-- What is printed can be parsed again. -/
theorem parseChars_printChars (u : Uuid) : parseChars u.printChars = some u := by
  obtain ⟨bs, hbs⟩ := u
  -- with sixteen bytes in sight both functions compute on lists of known shape
  obtain ⟨b0, b1, b2, b3, b4, b5, b6, b7, b8, b9, b10, b11, b12, b13, b14, b15, rfl⟩ :
      ∃ b0 b1 b2 b3 b4 b5 b6 b7 b8 b9 b10 b11 b12 b13 b14 b15, bs =
        [b0, b1, b2, b3, b4, b5, b6, b7, b8, b9, b10, b11, b12, b13, b14, b15] := by
    match bs, hbs with
    | [b0, b1, b2, b3, b4, b5, b6, b7, b8, b9, b10, b11, b12, b13, b14, b15], _ =>
        exact ⟨_, _, _, _, _, _, _, _, _, _, _, _, _, _, _, _, rfl⟩
  have hdec := hexDecodeChars_hexChars
    [b0, b1, b2, b3, b4, b5, b6, b7, b8, b9, b10, b11, b12, b13, b14, b15]
  simp only [hexChars, hexByte, List.flatMap_cons, List.flatMap_nil, List.cons_append,
    List.nil_append] at hdec
  simp [parseChars, printChars, parseHyphenated, parseSimple, hexChars, hexByte, hdec, ofBytes]

/-- The same on texts. -/
theorem parse_print (u : Uuid) : parse u.print = some u := by
  rw [parse, print, String.toList_ofList, parseChars_printChars]

/-- Two ids have different texts. -/
theorem print_injective {u v : Uuid} (h : u.print = v.print) : u = v := by
  have := parse_print u
  rw [h, parse_print] at this
  exact (Option.some.inj this).symm

/-- The text of an id has 36 characters. -/
@[simp] theorem print_length (u : Uuid) : u.print.length = 36 := by
  rw [print, String.length_ofList]
  simp [printChars, u.size]

example : parse "550E8400-e29b-41d4-a716-446655440000" =
    parse "550e8400e29b41d4a716446655440000" := by decide +kernel

end Uuid

end Interleave
