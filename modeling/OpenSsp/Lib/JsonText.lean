/-
OpenSsp/Lib/JsonText.lean

JSON texts of arrays of strings.

`jsonString` writes a string with the short escapes where there are any, and `\u00xx` for the other
control characters; every other character stands for itself.  `parseString` reads all escapes of
JSON, pairs of surrogates included, and refuses bare control characters.  `parseTriple` reads an
array of three strings, with white space between the tokens.

Main results: `parseTriple_jsonTriple` and `jsonTriple_size`, the size of the text of an array of
plain strings.
-/
import OpenSsp.Lib.Base64
import OpenSsp.Lib.Uuid

namespace Interleave

/-! ### Writing -/

/-- How a character is written between quotes. -/
def jsonEscape (c : Char) : List Char :=
  if c = '"' then ['\\', '"']
  else if c = '\\' then ['\\', '\\']
  else if c = '\n' then ['\\', 'n']
  else if c = '\r' then ['\\', 'r']
  else if c = '\t' then ['\\', 't']
  else if c.toNat = 8 then ['\\', 'b']
  else if c.toNat = 12 then ['\\', 'f']
  else if c.toNat < 32 then
    ['\\', 'u', '0', '0', hexDigit (c.toNat / 16), hexDigit (c.toNat % 16)]
  else [c]

def jsonString (s : String) : List Char := '"' :: s.toList.flatMap jsonEscape ++ ['"']

/-- The text of an array of three strings. -/
def jsonTriple (a b c : String) : String :=
  String.ofList ('[' :: jsonString a ++ ',' :: jsonString b ++ ',' :: jsonString c ++ [']'])

/-! ### Reading -/

def jsonSpace (c : Char) : Bool := c == ' ' || c == '\t' || c == '\n' || c == '\r'

def skipSpace (cs : List Char) : List Char := cs.dropWhile jsonSpace

def hexQuad (a b c d : Char) : Option Nat := do
  let a ← hexValue a
  let b ← hexValue b
  let c ← hexValue c
  let d ← hexValue d
  return ((a * 16 + b) * 16 + c) * 16 + d

/-- The character of a short escape. -/
def shortEscape (c : Char) : Option Char :=
  if c = '"' ∨ c = '\\' ∨ c = '/' then some c
  else if c = 'b' then some (Char.ofNat 8)
  else if c = 'f' then some (Char.ofNat 12)
  else if c = 'n' then some '\n'
  else if c = 'r' then some '\r'
  else if c = 't' then some '\t'
  else none

/-- The rest of a string after its opening quote, and what follows the closing one. -/
def stringBody : List Char → Option (List Char × List Char)
  | [] => none
  | '"' :: cs => some ([], cs)
  | '\\' :: 'u' :: a :: b :: c :: d :: cs => do
      let n ← hexQuad a b c d
      if 0xD800 ≤ n ∧ n ≤ 0xDBFF then
        -- the first half of a pair
        match cs with
        | '\\' :: 'u' :: e :: f :: g :: h :: cs => do
            let m ← hexQuad e f g h
            if 0xDC00 ≤ m ∧ m ≤ 0xDFFF then do
              let (s, rest) ← stringBody cs
              return (Char.ofNat (0x10000 + (n - 0xD800) * 0x400 + (m - 0xDC00)) :: s, rest)
            else none
        | _ => none
      else if 0xDC00 ≤ n ∧ n ≤ 0xDFFF then none
      else do
        let (s, rest) ← stringBody cs
        return (Char.ofNat n :: s, rest)
  | '\\' :: c :: cs => do
      let c ← shortEscape c
      let (s, rest) ← stringBody cs
      return (c :: s, rest)
  | c :: cs => do
      if c = '\\' ∨ c.toNat < 32 then none
      else do
        let (s, rest) ← stringBody cs
        return (c :: s, rest)

example : stringBody ['a', '\\', 'n', '"', ']'] = some (['a', '\n'], [']']) := by
  simp [stringBody, shortEscape]

/-- The next token is `c`. -/
def expect (c : Char) (cs : List Char) : Option (List Char) :=
  match skipSpace cs with
  | d :: cs => if d = c then some cs else none
  | [] => none

def parseString (cs : List Char) : Option (String × List Char) := do
  let cs ← expect '"' cs
  let (s, rest) ← stringBody cs
  return (String.ofList s, rest)

def parseTriple (s : String) : Option (String × String × String) := do
  let cs ← expect '[' s.toList
  let (a, cs) ← parseString cs
  let cs ← expect ',' cs
  let (b, cs) ← parseString cs
  let cs ← expect ',' cs
  let (c, cs) ← parseString cs
  let cs ← expect ']' cs
  if skipSpace cs = [] then some (a, b, c) else none

/-! ### What is written is read back -/

theorem stringBody_plain {c : Char} (hquote : c ≠ '"') (hback : c ≠ '\\') (hctrl : 32 ≤ c.toNat)
    (cs : List Char) :
    stringBody (c :: cs) = (stringBody cs).map fun p => (c :: p.1, p.2) := by
  have hnot : ¬ (c = '\\' ∨ c.toNat < 32) := by
    rintro (h | h)
    · exact hback h
    · omega
  rw [stringBody]
  · rw [if_neg hnot]
    cases stringBody cs <;> rfl
  all_goals simp_all

/-- A short escape stands for its character. -/
theorem stringBody_short {c d : Char} (hu : c ≠ 'u') (hd : shortEscape c = some d)
    (cs : List Char) :
    stringBody ('\\' :: c :: cs) = (stringBody cs).map fun p => (d :: p.1, p.2) := by
  rw [stringBody]
  · simp only [hd, Option.bind_eq_bind, Option.bind_some]
    cases stringBody cs <;> rfl
  all_goals simp_all

/-- The escape of a control character without a short one. -/
theorem stringBody_control {c : Char} (h : c.toNat < 32) (cs : List Char) :
    stringBody ('\\' :: 'u' :: '0' :: '0' :: hexDigit (c.toNat / 16) ::
      hexDigit (c.toNat % 16) :: cs) = (stringBody cs).map fun p => (c :: p.1, p.2) := by
  have hquad : hexQuad '0' '0' (hexDigit (c.toNat / 16)) (hexDigit (c.toNat % 16)) =
      some c.toNat := by
    have hzero : hexValue '0' = some 0 := rfl
    simp only [hexQuad, hzero, hexValue_hexDigit (show c.toNat / 16 < 16 by omega),
      hexValue_hexDigit (show c.toNat % 16 < 16 by omega), Option.bind_eq_bind, Option.bind_some]
    show some _ = some _
    congr 1
    omega
  rw [stringBody, hquad]
  simp only [Option.bind_eq_bind, Option.bind_some]
  rw [if_neg (by omega), if_neg (by omega), Char.ofNat_toNat]
  cases stringBody cs <;> rfl

theorem stringBody_escape (c : Char) (cs : List Char) :
    stringBody (jsonEscape c ++ cs) = (stringBody cs).map fun p => (c :: p.1, p.2) := by
  unfold jsonEscape
  split
  · next h =>
      subst h
      exact stringBody_short (by decide) rfl cs
  split
  · next h =>
      subst h
      exact stringBody_short (by decide) rfl cs
  split
  · next h =>
      subst h
      exact stringBody_short (by decide) rfl cs
  split
  · next h =>
      subst h
      exact stringBody_short (by decide) rfl cs
  split
  · next h =>
      subst h
      exact stringBody_short (by decide) rfl cs
  split
  · next h =>
      obtain rfl : Char.ofNat 8 = c := by rw [← h, Char.ofNat_toNat]
      exact stringBody_short (by decide) rfl cs
  split
  · next h =>
      obtain rfl : Char.ofNat 12 = c := by rw [← h, Char.ofNat_toNat]
      exact stringBody_short (by decide) rfl cs
  split
  · next h => exact stringBody_control h cs
  · next hquote hback _ _ _ _ _ hctrl =>
      exact stringBody_plain hquote hback (Nat.le_of_not_lt hctrl) cs

theorem stringBody_string (s cs : List Char) :
    stringBody (s.flatMap jsonEscape ++ '"' :: cs) = some (s, cs) := by
  induction s with
  | nil => rw [List.flatMap_nil, List.nil_append, stringBody]
  | cons c s ih =>
      rw [List.flatMap_cons, List.append_assoc, stringBody_escape, ih]
      rfl

theorem expect_head {c : Char} (hc : jsonSpace c = false) (cs : List Char) :
    expect c (c :: cs) = some cs := by
  have hskip : skipSpace (c :: cs) = c :: cs := List.dropWhile_cons_of_neg (by simp [hc])
  rw [expect, hskip]
  exact if_pos rfl

theorem parseString_jsonString (s : String) (cs : List Char) :
    parseString (jsonString s ++ cs) = some (s, cs) := by
  have htext : jsonString s ++ cs = '"' :: (s.toList.flatMap jsonEscape ++ '"' :: cs) := by
    simp [jsonString]
  rw [htext, parseString, expect_head (by decide)]
  simp only [Option.bind_eq_bind, Option.bind_some, stringBody_string]
  rw [String.ofList_toList]
  rfl

theorem parseTriple_jsonTriple (a b c : String) :
    parseTriple (jsonTriple a b c) = some (a, b, c) := by
  have htext : (jsonTriple a b c).toList = '[' :: (jsonString a ++
      ',' :: (jsonString b ++ ',' :: (jsonString c ++ [']']))) := by
    simp [jsonTriple]
  rw [parseTriple, htext, expect_head (by decide)]
  simp only [Option.bind_eq_bind, Option.bind_some, parseString_jsonString,
    expect_head (show jsonSpace ',' = false by decide),
    expect_head (show jsonSpace ']' = false by decide)]
  rfl

/-! ### Sizes -/

/-- An ASCII character that stands for itself between quotes. -/
def plainChar (c : Char) : Bool := 32 ≤ c.toNat && c.toNat ≤ 127 && c != '"' && c != '\\'

theorem jsonEscape_plain {c : Char} (h : plainChar c = true) : jsonEscape c = [c] := by
  simp only [plainChar, Bool.and_eq_true, decide_eq_true_eq, bne_iff_ne] at h
  obtain ⟨⟨⟨hlow, -⟩, hquote⟩, hback⟩ := h
  have hctrl : ∀ d : Char, d.toNat < 32 → c ≠ d := by
    rintro d hd rfl
    omega
  rw [jsonEscape, if_neg hquote, if_neg hback, if_neg (hctrl _ (by decide)),
    if_neg (hctrl _ (by decide)), if_neg (hctrl _ (by decide)), if_neg (by omega),
    if_neg (by omega), if_neg (by omega)]

theorem flatMap_plain {cs : List Char} (h : cs.all plainChar = true) :
    cs.flatMap jsonEscape = cs := by
  induction cs with
  | nil => rfl
  | cons c cs ih =>
      rw [List.all_cons, Bool.and_eq_true] at h
      rw [List.flatMap_cons, jsonEscape_plain h.1, ih h.2]
      rfl

theorem jsonTriple_size {a b c : String} (ha : a.toList.all plainChar = true)
    (hb : b.toList.all plainChar = true) (hc : c.toList.all plainChar = true) :
    (jsonTriple a b c).utf8ByteSize = a.length + b.length + c.length + 10 := by
  have htext : jsonTriple a b c = String.ofList ('[' :: '"' :: a.toList ++
      ('"' :: ',' :: '"' :: b.toList ++ ('"' :: ',' :: '"' :: c.toList ++ ['"', ']']))) := by
    simp [jsonTriple, jsonString, flatMap_plain ha, flatMap_plain hb, flatMap_plain hc]
  have hascii : ∀ s : String, s.toList.all plainChar = true → ∀ d ∈ s.toList, d.val ≤ 127 := by
    intro s hs d hd
    have hd := List.all_eq_true.mp hs d hd
    simp only [plainChar, Bool.and_eq_true, decide_eq_true_eq] at hd
    exact hd.1.1.2
  rw [htext, utf8ByteSize_ascii]
  · simp only [List.length_append, List.length_cons, List.length_nil, String.length_toList]
    omega
  · intro d hd
    simp only [List.mem_append, List.mem_cons, List.not_mem_nil, or_false] at hd
    rcases hd with (rfl | rfl | hd) | (rfl | rfl | rfl | hd) | (rfl | rfl | rfl | hd) | rfl | rfl
    · decide
    · decide
    · exact hascii a ha d hd
    · decide
    · decide
    · decide
    · exact hascii b hb d hd
    · decide
    · decide
    · decide
    · exact hascii c hc d hd
    · decide
    · decide

end Interleave
