/-
OpenSsp/Aliases.lean

The aliases that the gateway finds in the text of a GraphQL document.

`collectAliases` does not parse.  It takes out what is between parentheses and what is in comments,
and then looks for a name, a colon and a name.  A string between parentheses is not told from other
text there, a comment ends at a line feed only, names that only parentheses kept apart become one,
and only blanks may stand at the colon: `Legible` says which texts of a document the scanner gets
right all the same, and `Readable` is a simpler condition on each string and comment.

Main results: `collectAliases_document`, `legible_aliases` and `string_hides_alias`.
-/
import OpenSsp.Lib.GraphqlSyntax
import Mathlib.Data.List.Chain
import Mathlib.Data.List.Infix

namespace OpenSsp.Aliases

open GraphqlSyntax

/-! ### `collect_aliases` -/

/-- What is kept of the query, and where its reading stands. -/
structure Strip where
  stripped : List Char := []
  depth : Nat := 0
  inString : Bool := false
  inComment : Bool := false
  prevBackslash : Bool := false

/-- One character of `strip_strings_and_args`, in the state the ones before it left. -/
def Strip.char (s : Strip) (ch : Char) : Strip :=
  if s.inComment then
    if ch = '\n' then { s with inComment := false, stripped := s.stripped ++ [ch] } else s
  else if s.inString then
    { s with
      inString := !(ch == '"' && !s.prevBackslash)
      prevBackslash := ch == '\\' && !s.prevBackslash }
  else
    let s' :=
      if ch = '#' ∧ s.depth = 0 then { s with inComment := true }
      else if ch = '"' ∧ s.depth = 0 then { s with inString := true }
      else if ch = '(' then { s with depth := s.depth + 1 }
      else if ch = ')' ∧ 0 < s.depth then { s with depth := s.depth - 1 }
      else if s.depth = 0 then { s with stripped := s.stripped ++ [ch] }
      else s
    if ch = '\\' then s' else { s' with prevBackslash := false }

/-- `u8::is_ascii_whitespace`. -/
def asciiWhitespace (c : Char) : Bool :=
  c == ' ' || c == '\t' || c == '\n' || c == Char.ofNat 12 || c == '\r'

/-- The name that follows here, and what is after it. -/
def nameAt (cs : List Char) : Option (List Char × List Char) :=
  let cs := cs.dropWhile asciiWhitespace
  if cs.head?.any nameStart then some (cs.takeWhile nameContinue, cs.dropWhile nameContinue)
  else none

/-- The colon and the name that follow here, and what is after them. -/
def fieldAt (cs : List Char) : Option (List Char × List Char) :=
  match cs.dropWhile asciiWhitespace with
  | ':' :: cs => nameAt cs
  | _ => none

/-- A name is read off the front, so what is left is no longer. -/
theorem nameAt_length {cs name rest : List Char} (h : nameAt cs = some (name, rest)) :
    rest.length ≤ cs.length := by
  simp only [nameAt, Option.ite_none_right_eq_some, Option.some.injEq, Prod.mk.injEq] at h
  obtain ⟨-, -, rfl⟩ := h
  exact ((List.dropWhile_suffix _).trans (List.dropWhile_suffix _)).length_le

/-- So is a field behind its colon. -/
theorem fieldAt_length {cs field rest : List Char} (h : fieldAt cs = some (field, rest)) :
    rest.length ≤ cs.length := by
  unfold fieldAt at h
  split at h
  · rename_i cs' hcs
    have hlen : cs'.length + 1 ≤ cs.length := by
      have := (List.dropWhile_suffix (p := asciiWhitespace) (l := cs)).length_le
      rwa [hcs] at this
    have := nameAt_length h
    omega
  · cases h

/-- The bound on the list of aliases. -/
def maxAliases : Nat := 2000

/-- The pair is one to add to `out`. -/
def Fresh (out : List (String × String)) (name field : List Char) : Prop :=
  name ≠ "__typename".toList ∧ name ≠ field ∧ ¬ "...".toList <+: name ∧
    (String.ofList name, String.ofList field) ∉ out

/-- Whether a pair is new, decided by comparison. -/
instance (out : List (String × String)) (name field : List Char) :
    Decidable (Fresh out name field) :=
  inferInstanceAs (Decidable (_ ∧ _ ∧ ¬ _ ∧ _))

/-- The bytes of characters that are not ASCII are neither letters nor blanks nor colons, so that
the text is read by characters here.  What has been seen is what is in `out`. -/
def scan (out : List (String × String)) : List Char → List (String × String)
  | [] => out
  | c :: cs =>
      if nameStart c then
        let name := (c :: cs).takeWhile nameContinue
        match _h : fieldAt (cs.dropWhile nameContinue) with
        | some (field, after) =>
            if Fresh out name field then
              let out := out ++ [(String.ofList name, String.ofList field)]
              if maxAliases ≤ out.length then out else scan out after
            else scan out after
        | none => scan out (cs.dropWhile nameContinue)
      else scan out cs
termination_by cs => cs.length
decreasing_by
  all_goals
    have hr := (List.dropWhile_suffix (p := nameContinue) (l := cs)).length_le
    try have hf := fieldAt_length _h
    simp only [List.length_cons]
    omega

/-- `collect_aliases`. -/
def collectAliases (query : String) : List (String × String) :=
  scan [] (query.toList.foldl Strip.char {}).stripped

example : collectAliases "query Q($a: T) \x7b x: y(z: 1) # u: v\n w, s : t \x7d" =
    [("x", "y"), ("s", "t")] := by decide +kernel

/-! ### Texts that are read right -/

/-- How many parentheses are open after the characters, when `d` are open before them. -/
def opened : Nat → List Char → Option Nat
  | d, [] => some d
  | d, c :: cs =>
      if c = '(' then opened (d + 1) cs
      else if c = ')' then if d = 0 then none else opened (d - 1) cs
      else opened d cs

/-- Parentheses match in the text. -/
def Balanced (cs : List Char) : Prop := opened 0 cs = some 0

/-- Between parentheses only these have a text that can contain one. -/
def Closed : Lexeme → Prop
  | .token (.literal text) => Balanced text
  | .comment text _ _ => Balanced text
  | _ => True

/-- Outside of parentheses a comment ends at a line feed, or with the text. -/
def Ended (rest : List Lexeme) : Lexeme → Prop
  | .comment _ _ ending => ending = .newline ∨ ending = .both ∨ ending = .text ∧ rest = []
  | _ => True

/-- The depth of parentheses after a lexeme. -/
def depthAfter (d : Nat) : Lexeme → Nat
  | .token t => t.depth d
  | _ => d

/-- The reading conditions on a text, from a depth on: the strings and comments the stripping
understands. -/
def ReadableFrom : Nat → List Lexeme → Prop
  | _, [] => True
  | d, l :: ls =>
      (d ≠ 0 → Closed l) ∧ (d = 0 → Ended ls l) ∧ ReadableFrom (depthAfter d l) ls

/-- What is left of a lexeme outside of parentheses. -/
def kept : Lexeme → List Lexeme
  | .token t => if t = .punct .openParen then [] else [.token t]
  | .comment _ _ ending =>
      if ending = .newline ∨ ending = .both then [.blank '\n' rfl] else []
  | l => [l]

/-- What is left of the text, with `d` parentheses open before it. -/
def outer : Nat → List Lexeme → List Lexeme
  | _, [] => []
  | d, l :: ls => (if d = 0 then kept l else []) ++ outer (depthAfter d l) ls

/-- Two names do not touch. -/
def Separated (ls : List Lexeme) : Prop := ls.IsChain fun x y => ¬ (x.isName ∧ y.isName)

/-- No comma and no byte order mark is at a colon, except for blanks. -/
def Tight (ls : List Lexeme) : Prop :=
  (ls.filter fun l => !l.isBlank).IsChain fun x y =>
    ¬ (x.isColon ∧ y.isMark) ∧ ¬ (x.isMark ∧ y.isColon)

/-- The text of a document is read right: parentheses match in every string and comment between
parentheses, the other comments end where the code ends them, and in what is left two names do not
touch and a colon has nothing but blanks between it and its names. -/
structure Readable (ls : List Lexeme) : Prop where
  lexemes : ReadableFrom 0 ls
  separated : Separated (outer 0 ls)
  tight : Tight (outer 0 ls)

/-- The same on whole groups: read as characters, a group is closed where it ends, with `d`
parentheses open among the tokens and `k + 1` among the characters. -/
def LegibleFrom : Nat → Nat → List Lexeme → Prop
  | _, _, [] => True
  | 0, _, l :: ls => Ended ls l ∧ LegibleFrom (depthAfter 0 l) 0 ls
  | d + 1, k, l :: ls =>
      if depthAfter (d + 1) l = 0 then k = 0 ∧ LegibleFrom 0 0 ls
      else match opened k l.text with
        | some m => LegibleFrom (depthAfter (d + 1) l) m ls
        | none => False

/-- A name comes first. -/
def touches (ls : List Lexeme) : Bool := ls.head?.any Lexeme.isName

/-- A colon comes first, blanks apart. -/
def colonNext (ls : List Lexeme) : Bool := (ls.dropWhile Lexeme.isBlank).head?.any Lexeme.isColon

/-- The first lexeme is no name that touches another one before a colon, and no colon before a name
that does. -/
def ApartAt : List Lexeme → Prop
  | [] => True
  | l :: ls =>
      (l.isName = true → touches ls = true → colonNext (ls.dropWhile Lexeme.isName) = false) ∧
      (l.isColon = true → touches (ls.dropWhile Lexeme.isBlank) = true →
        touches (ls.dropWhile Lexeme.isBlank).tail = false)

/-- Two names do not touch at a colon. -/
def Apart (ls : List Lexeme) : Prop := ∀ ls' ∈ ls.tails, ApartAt ls'

/-- What the scanner gets right: read as characters every group is closed where it ends, the comments
outside end where the code ends them, and in what is left names do not touch at a colon, which has
nothing but blanks between it and its names. -/
structure Legible (ls : List Lexeme) : Prop where
  lexemes : LegibleFrom 0 0 ls
  apart : Apart (outer 0 ls)
  tight : Tight (outer 0 ls)

instance (cs : List Char) : Decidable (Balanced cs) := inferInstanceAs (Decidable (_ = _))

instance (l : Lexeme) : Decidable (Closed l) := by
  unfold Closed
  split <;> infer_instance

instance (rest : List Lexeme) (l : Lexeme) : Decidable (Ended rest l) := by
  unfold Ended
  split <;> infer_instance

instance decidableReadableFrom : (d : Nat) → (ls : List Lexeme) → Decidable (ReadableFrom d ls)
  | _, [] => isTrue trivial
  | d, l :: ls =>
      haveI := decidableReadableFrom (depthAfter d l) ls
      inferInstanceAs (Decidable (_ ∧ _ ∧ _))

section legible

variable {d k m : Nat} {l : Lexeme} {ls : List Lexeme}

/-- Where a group ends, no parenthesis of its characters is open. -/
theorem legibleFrom_closed (hd : depthAfter (d + 1) l = 0) :
    LegibleFrom (d + 1) k (l :: ls) ↔ k = 0 ∧ LegibleFrom 0 0 ls := by
  rw [LegibleFrom, if_pos hd]

/-- Inside of it the characters are counted. -/
theorem legibleFrom_counted (hd : depthAfter (d + 1) l ≠ 0) (hm : opened k l.text = some m) :
    LegibleFrom (d + 1) k (l :: ls) ↔ LegibleFrom (depthAfter (d + 1) l) m ls := by
  rw [LegibleFrom, if_neg hd, hm]

/-- A closing one too many ends it too early. -/
theorem not_legibleFrom (hd : depthAfter (d + 1) l ≠ 0) (hm : opened k l.text = none) :
    ¬ LegibleFrom (d + 1) k (l :: ls) := by
  rw [LegibleFrom, if_neg hd, hm]
  exact id

end legible

instance decidableLegibleFrom : (d k : Nat) → (ls : List Lexeme) → Decidable (LegibleFrom d k ls)
  | _, _, [] => isTrue trivial
  | 0, _, l :: ls =>
      haveI := decidableLegibleFrom (depthAfter 0 l) 0 ls
      inferInstanceAs (Decidable (_ ∧ _))
  | d + 1, k, l :: ls =>
      if hd : depthAfter (d + 1) l = 0 then
        haveI := decidableLegibleFrom 0 0 ls
        decidable_of_iff' _ (legibleFrom_closed hd)
      else match hm : opened k l.text with
        | some m =>
            haveI := decidableLegibleFrom (depthAfter (d + 1) l) m ls
            decidable_of_iff' _ (legibleFrom_counted hd hm)
        | none => isFalse (not_legibleFrom hd hm)

instance : (ls : List Lexeme) → Decidable (ApartAt ls)
  | [] => isTrue trivial
  | _ :: _ => inferInstanceAs (Decidable (_ ∧ _))

instance (ls : List Lexeme) : Decidable (Apart ls) := inferInstanceAs (Decidable (∀ _ ∈ _, _))

instance (ls : List Lexeme) : Decidable (Separated ls) := inferInstanceAs (Decidable (List.IsChain _ _))

instance (ls : List Lexeme) : Decidable (Tight ls) := inferInstanceAs (Decidable (List.IsChain _ _))

/-! ### What is stripped -/

/-- Between two lexemes, with `d` parentheses open. -/
def between (d : Nat) (out : List Char) : Strip := { stripped := out, depth := d }

/-- Inside parentheses every other character is dropped. -/
theorem char_inner {d : Nat} {out : List Char} {c : Char} (h₁ : c ≠ '(') (h₂ : c ≠ ')') :
    (between (d + 1) out).char c = between (d + 1) out := by
  simp [between, Strip.char, h₁, h₂]

/-- Outside of them every other character is kept. -/
theorem char_outer {out : List Char} {c : Char} (h₁ : c ≠ '#') (h₂ : c ≠ '"') (h₃ : c ≠ '(') :
    (between 0 out).char c = between 0 (out ++ [c]) := by
  simp [between, Strip.char, h₁, h₂, h₃]

/-- Characters between parentheses leave nothing. -/
theorem fold_inner {cs : List Char} {k m : Nat} (h : opened k cs = some m) (d : Nat)
    (out : List Char) :
    cs.foldl Strip.char (between (d + k + 1) out) = between (d + m + 1) out := by
  induction cs generalizing k with
  | nil =>
      obtain rfl : k = m := by simpa [opened] using h
      rfl
  | cons c cs ih =>
      rw [opened] at h
      rw [List.foldl_cons]
      split at h
      · rename_i hc
        subst hc
        exact ih h
      · split at h
        · rename_i hc
          subst hc
          split at h
          · cases h
          · rename_i hk
            obtain ⟨k, rfl⟩ := Nat.exists_eq_succ_of_ne_zero hk
            exact ih h
        · rename_i h₁ h₂
          rw [char_inner h₁ h₂]
          exact ih h

/-- A stretch without specials is copied. -/
theorem fold_outer {cs : List Char} (h : ∀ c ∈ cs, c ≠ '#' ∧ c ≠ '"' ∧ c ≠ '(') (out : List Char) :
    cs.foldl Strip.char (between 0 out) = between 0 (out ++ cs) := by
  induction cs generalizing out with
  | nil => simp
  | cons c cs ih =>
      obtain ⟨h₁, h₂, h₃⟩ := h c List.mem_cons_self
      rw [List.foldl_cons, char_outer h₁ h₂ h₃, ih fun c hc => h c (List.mem_cons_of_mem _ hc),
        List.append_assoc, List.singleton_append]

/-- In a comment everything is left out up to the line feed. -/
theorem fold_comment {cs : List Char} (h : ∀ c ∈ cs, c ≠ '\n') (out : List Char) :
    cs.foldl Strip.char { between 0 out with inComment := true } =
      { between 0 out with inComment := true } := by
  induction cs with
  | nil => rfl
  | cons c cs ih =>
      have hc : c ≠ '\n' := h c List.mem_cons_self
      have hchar : ({ between 0 out with inComment := true } : Strip).char c =
          { between 0 out with inComment := true } := by
        simp [between, Strip.char, hc]
      rw [List.foldl_cons, hchar, ih fun c hc => h c (List.mem_cons_of_mem _ hc)]

/-- Depths are counted from left to right. -/
theorem opened_append (d : Nat) (u v : List Char) :
    opened d (u ++ v) = (opened d u).bind (opened · v) := by
  induction u generalizing d with
  | nil => rfl
  | cons c u ih =>
      rw [List.cons_append, opened, opened]
      split
      · exact ih _
      · split
        · split
          · rfl
          · exact ih _
        · exact ih _

/-- A stretch without parentheses leaves the depth. -/
theorem opened_plain {cs : List Char} (h : ∀ c ∈ cs, c ≠ '(' ∧ c ≠ ')') : opened 0 cs = some 0 := by
  induction cs with
  | nil => rfl
  | cons c cs ih =>
      obtain ⟨h₁, h₂⟩ := h c List.mem_cons_self
      rw [opened, if_neg h₁, if_neg h₂]
      exact ih fun c hc => h c (List.mem_cons_of_mem _ hc)

/-- No character of a name is special. -/
theorem nameContinue_plain {c : Char} (h : nameContinue c = true) :
    c ≠ '#' ∧ c ≠ '"' ∧ c ≠ '(' ∧ c ≠ ')' := by
  refine ⟨?_, ?_, ?_, ?_⟩ <;>
    (rintro rfl; revert h; decide)

/-- No other punctuator is special. -/
theorem char_plain {p : Punct} (h₁ : p ≠ .openParen) (h₂ : p ≠ .closeParen) :
    p.char ≠ '(' ∧ p.char ≠ ')' := by
  cases p <;> first | exact absurd rfl h₁ | exact absurd rfl h₂ | decide

/-- No blank is special. -/
theorem blank_plain {c : Char} (h : blankChar c = true) :
    c ≠ '#' ∧ c ≠ '"' ∧ c ≠ '(' ∧ c ≠ ')' := by
  refine ⟨?_, ?_, ?_, ?_⟩ <;>
    (rintro rfl; revert h; decide)

/-- More parentheses open before the characters are more after them. -/
theorem opened_add {cs : List Char} {k m : Nat} (h : opened k cs = some m) (j : Nat) :
    opened (k + j) cs = some (m + j) := by
  induction cs generalizing k with
  | nil =>
      obtain rfl : k = m := by simpa [opened] using h
      rfl
  | cons c cs ih =>
      rw [opened] at h ⊢
      split at h
      · next hc =>
          rw [if_pos hc, Nat.add_right_comm]
          exact ih h
      · next hc =>
          rw [if_neg hc]
          split at h
          · next hc' =>
              rw [if_pos hc']
              split at h
              · cases h
              · next hk =>
                  rw [if_neg (by omega), show k + j - 1 = k - 1 + j by omega]
                  exact ih h
          · next hc' =>
              rw [if_neg hc']
              exact ih h

/-- Outside of parentheses one lexeme opens one at most. -/
theorem depthAfter_zero (l : Lexeme) : depthAfter 0 l = 0 ∨ depthAfter 0 l = 1 := by
  cases l with
  | token t =>
      cases t with
      | punct p => cases p <;> decide
      | _ => exact .inl rfl
  | _ => exact .inl rfl

/-- A group ends with its closing parenthesis. -/
theorem depthAfter_eq_zero {d : Nat} {l : Lexeme} (h : depthAfter (d + 1) l = 0) :
    d = 0 ∧ l = .token (.punct .closeParen) := by
  cases l with
  | token t =>
      cases t with
      | punct p => cases p <;> first | exact ⟨h, rfl⟩ | cases h
      | _ => cases h
  | _ => cases h

/-- In a readable text the characters open what the tokens open. -/
theorem opened_lexeme {l : Lexeme} (h : Closed l) {d : Nat} (hd : depthAfter (d + 1) l ≠ 0) :
    opened d l.text = some (depthAfter (d + 1) l - 1) := by
  have hplain : ∀ {cs : List Char}, opened 0 cs = some 0 → opened d cs = some d := by
    intro cs hcs
    have hadd := opened_add hcs d
    rwa [Nat.zero_add] at hadd
  cases l with
  | token t =>
      cases t with
      | name n =>
          exact hplain (opened_plain fun c hc =>
            (nameContinue_plain (List.all_eq_true.mp n.all c hc)).2.2)
      | spread => exact hplain (by decide)
      | literal text => exact hplain h
      | punct p =>
          by_cases h₁ : p = .openParen
          · subst h₁
            rfl
          by_cases h₂ : p = .closeParen
          · subst h₂
            exact if_neg hd
          have hdepth : depthAfter (d + 1) (.token (.punct p)) = d + 1 := by
            cases p <;> first | rfl | exact absurd rfl h₁ | exact absurd rfl h₂
          rw [hdepth]
          exact hplain (opened_plain (by simpa [Lexeme.text, Token.text] using char_plain h₁ h₂))
  | blank c hc =>
      exact hplain (opened_plain (by simpa [Lexeme.text] using (blank_plain hc).2.2))
  | comma => exact hplain (by decide)
  | byteOrderMark => exact hplain (by decide)
  | comment text htext ending =>
      refine hplain ?_
      show opened 0 (('#' :: text) ++ ending.chars) = some 0
      have htext : opened 0 ('#' :: text) = some 0 := h
      rw [opened_append, htext]
      cases ending <;> rfl

/-- What is readable is legible. -/
theorem ReadableFrom.legible {d : Nat} {ls : List Lexeme} (h : ReadableFrom d ls) :
    LegibleFrom d (d - 1) ls := by
  induction ls generalizing d with
  | nil => cases d <;> trivial
  | cons l ls ih =>
      obtain ⟨hinner, houter, hrest⟩ := h
      have hnext := ih hrest
      cases d with
      | zero =>
          have hzero := depthAfter_zero l
          rw [show depthAfter 0 l - 1 = 0 by omega] at hnext
          exact ⟨houter rfl, hnext⟩
      | succ d =>
          by_cases hd : depthAfter (d + 1) l = 0
          · rw [legibleFrom_closed hd]
            rw [hd] at hnext
            exact ⟨(depthAfter_eq_zero hd).1, hnext⟩
          · exact (legibleFrom_counted hd (opened_lexeme (hinner (Nat.succ_ne_zero d)) hd)).mpr hnext

/-- Outside of parentheses a lexeme leaves what is kept of it. -/
theorem lexeme_outer {l : Lexeme} {rest : List Lexeme} (h : Ended rest l)
    (hlit : ∀ t, l = .token t → t.isLiteral = false) (out : List Char) :
    l.text.foldl Strip.char (between 0 out) = between (depthAfter 0 l) (out ++ textOf (kept l)) ∨
      rest = [] ∧ kept l = [] ∧ (l.text.foldl Strip.char (between 0 out)).stripped = out := by
  cases l with
  | token t =>
      refine .inl ?_
      cases t with
      | name n =>
          have hn : ∀ c ∈ n.text, c ≠ '#' ∧ c ≠ '"' ∧ c ≠ '(' := fun c hc =>
            have hp := nameContinue_plain (List.all_eq_true.mp n.all c hc)
            ⟨hp.1, hp.2.1, hp.2.2.1⟩
          have hk : textOf (kept (.token (.name n))) = n.text := by
            simp [kept, textOf, Lexeme.text, Token.text]
          rw [hk]
          exact fold_outer hn out
      | spread => exact fold_outer (by simp [Lexeme.text, Token.text]) out
      | literal text => cases hlit _ rfl
      | punct p =>
          -- an opening parenthesis goes one level down and is left out; others are copied
          cases p <;> first
            | exact fold_outer (by simp [Lexeme.text, Token.text, Punct.char]) out
            | (simp [kept, textOf]; rfl)
  | blank c hc =>
      have hp := blank_plain hc
      exact .inl (fold_outer (by simpa [Lexeme.text] using ⟨hp.1, hp.2.1, hp.2.2.1⟩) out)
  | comma => exact .inl (fold_outer (by simp [Lexeme.text]) out)
  | byteOrderMark => exact .inl (fold_outer (by simp [Lexeme.text]) out)
  -- a comment runs to the end of its line, which is kept, or to the end of the document
  | comment text htext ending =>
      have hnl : ∀ c ∈ text, c ≠ '\n' := by
        intro c hc
        rintro rfl
        exact absurd (List.all_eq_true.mp htext _ hc) (by decide)
      have hopen : (between 0 out).char '#' = { between 0 out with inComment := true } := rfl
      have hrun : (Lexeme.comment text htext ending).text.foldl Strip.char (between 0 out) =
          ending.chars.foldl Strip.char { between 0 out with inComment := true } := by
        show ('#' :: text ++ ending.chars).foldl Strip.char (between 0 out) = _
        rw [List.cons_append, List.foldl_cons, hopen, List.foldl_append, fold_comment hnl]
      rw [hrun]
      rcases h with rfl | rfl | ⟨rfl, rfl⟩
      · exact .inl rfl
      · exact .inl rfl
      · exact .inr ⟨rfl, rfl, rfl⟩

/-- The scanner's depth, with `d` parentheses open among the tokens: in a group it has its own. -/
def charDepth : Nat → Nat → Nat
  | 0, _ => 0
  | _ + 1, k => k + 1

/-- **The text that is scanned** is what is outside of parentheses and comments. -/
theorem strip_textOf {ls : List Lexeme} {d k : Nat} (h : LegibleFrom d k ls)
    (hlit : ∀ t ∈ skeleton d (tokensOf ls), t.isLiteral = false) (out : List Char) :
    ((textOf ls).foldl Strip.char (between (charDepth d k) out)).stripped =
      out ++ textOf (outer d ls) := by
  induction ls generalizing d k out with
  | nil => simp [textOf, outer, between]
  | cons l ls ih =>
      -- the literals of the rest are literals of the whole
      have hlit' : ∀ t ∈ skeleton (depthAfter d l) (tokensOf ls), t.isLiteral = false := by
        intro t ht
        apply hlit
        cases l with
        | token u =>
            show t ∈ skeleton d (u :: tokensOf ls)
            rw [skeleton]
            split
            · exact List.mem_cons_of_mem _ ht
            · exact ht
        | _ => exact ht
      rw [textOf_cons, List.foldl_append, outer]
      cases d with
      -- inside parentheses nothing is kept, outside of them what is no comment
      | succ d =>
          rw [if_neg (Nat.succ_ne_zero d), List.nil_append]
          by_cases hd : depthAfter (d + 1) l = 0
          · rw [legibleFrom_closed hd] at h
            obtain ⟨rfl, hrest⟩ := h
            obtain ⟨rfl, rfl⟩ := depthAfter_eq_zero hd
            exact ih hrest hlit' out
          · rcases hm : opened k l.text with - | m
            · exact absurd h (not_legibleFrom hd hm)
            · rw [legibleFrom_counted hd hm] at h
              have hfold := fold_inner hm 0 out
              obtain ⟨e, he⟩ := Nat.exists_eq_succ_of_ne_zero hd
              rw [Nat.zero_add, Nat.zero_add] at hfold
              rw [he] at h hlit' ⊢
              rw [charDepth, hfold]
              exact ih h hlit' out
      | zero =>
          obtain ⟨hended, hrest⟩ := h
          have hl : ∀ t, l = .token t → t.isLiteral = false := by
            rintro t rfl
            by_cases ht : t = .punct .openParen
            · subst ht
              rfl
            · apply hlit
              show t ∈ skeleton 0 (t :: tokensOf ls)
              rw [skeleton, if_pos ⟨rfl, ht⟩]
              exact List.mem_cons_self
          rw [if_pos rfl]
          rw [charDepth]
          rcases lexeme_outer hended hl out with h | ⟨rfl, hkept, h⟩
          · have hdepth : charDepth (depthAfter 0 l) 0 = depthAfter 0 l := by
              rcases depthAfter_zero l with hzero | hone
              · rw [hzero, charDepth]
              · rw [hone, charDepth]
            have hnext := ih hrest hlit' (out ++ textOf (kept l))
            rw [hdepth] at hnext
            rw [h, textOf_append, ← List.append_assoc]
            exact hnext
          · rw [hkept]
            show (List.foldl Strip.char _ []).stripped = out ++ []
            rw [List.append_nil]
            exact h

/-- The tokens that are left are the skeleton of the document's. -/
theorem tokensOf_outer (ls : List Lexeme) (d : Nat) :
    tokensOf (outer d ls) = skeleton d (tokensOf ls) := by
  induction ls generalizing d with
  | nil => rfl
  | cons l ls ih =>
      rw [outer, tokensOf_append, ih]
      cases l with
      | token t =>
          show _ = skeleton d (t :: tokensOf ls)
          rw [skeleton]
          by_cases hd : d = 0 <;> by_cases ht : t = .punct .openParen <;>
            simp [hd, ht, kept, tokensOf, Lexeme.toToken, depthAfter]
      | comment text htext ending =>
          have hk : tokensOf (if d = 0 then kept (.comment text htext ending) else []) = [] := by
            split
            · cases ending <;> rfl
            · rfl
          rw [hk]
          rfl
      | _ => split <;> rfl

/-! ### What is scanned -/

/-- Neither a literal nor a comment. -/
def Bare : Lexeme → Prop
  | .token (.literal _) | .comment _ _ _ => False
  | _ => True

/-- What is left of a readable text has no literals. -/
theorem bare_outer {ls : List Lexeme} {d : Nat}
    (hlit : ∀ t ∈ skeleton d (tokensOf ls), t.isLiteral = false) : ∀ l ∈ outer d ls, Bare l := by
  intro l hl
  cases l with
  | token t =>
      cases t with
      | literal text =>
          have ht : Token.literal text ∈ tokensOf (outer d ls) :=
            List.mem_filterMap.mpr ⟨_, hl, rfl⟩
          rw [tokensOf_outer] at ht
          cases hlit _ ht
      | _ => trivial
  | comment text htext ending =>
      clear hlit
      induction ls generalizing d with
      | nil => cases hl
      | cons m ls ih =>
          rcases List.mem_append.mp hl with hl | hl
          · split at hl
            · cases m with
              | token t => exact absurd hl (by unfold kept; split <;> simp)
              | comment text' htext' ending' => exact absurd hl (by unfold kept; split <;> simp)
              | _ => exact absurd hl (by simp [kept])
            · cases hl
          · exact ih hl
  | _ => trivial

/-- A lexeme that is a name is the lexeme of a name. -/
theorem isName_eq {l : Lexeme} (h : l.isName = true) : ∃ n, l = .token (.name n) := by
  cases l with
  | token t =>
      cases t with
      | name n => exact ⟨n, rfl⟩
      | _ => cases h
  | _ => cases h

/-- Outside of names there is no character of a name. -/
theorem bare_text {l : Lexeme} (h : Bare l) (hn : l.isName = false) :
    ∀ c ∈ l.text, nameContinue c = false := by
  cases l with
  | token t =>
      cases t with
      | name n => cases hn
      | literal text => exact h.elim
      | spread => simp [Lexeme.text, Token.text, nameContinue]
      | punct p => cases p <;> simp [Lexeme.text, Token.text, Punct.char, nameContinue]
  | blank c hc =>
      intro c' hc'
      obtain rfl : c' = c := by simpa [Lexeme.text] using hc'
      rcases by simpa [blankChar] using hc with ((rfl | rfl) | rfl) | rfl <;> decide
  | comma => simp [Lexeme.text, nameContinue]
  | byteOrderMark => simp [Lexeme.text, nameContinue]
  | comment => exact h.elim

/-- Every blank of a text is skipped. -/
theorem blank_text {c : Char} (h : blankChar c = true) : asciiWhitespace c = true := by
  rcases by simpa [blankChar] using h with ((rfl | rfl) | rfl) | rfl <;> decide

/-- With a blank character begins only a blank, and with a colon only a colon. -/
theorem bare_head {l : Lexeme} (h : Bare l) :
    ∃ c cs, l.text = c :: cs ∧ asciiWhitespace c = l.isBlank ∧ (c = ':' ↔ l.isColon = true) := by
  cases l with
  | token t =>
      cases t with
      | name n =>
          obtain ⟨text, hhead, hall⟩ := n
          cases text with
          | nil => cases hhead
          | cons c cs =>
              have hc : nameStart c = true := by simpa using hhead
              refine ⟨c, cs, rfl, ?_, ?_⟩
              · show asciiWhitespace c = false
                rw [asciiWhitespace]
                simp only [Bool.or_eq_false_iff, beq_eq_false_iff_ne]
                refine ⟨⟨⟨⟨?_, ?_⟩, ?_⟩, ?_⟩, ?_⟩ <;>
                  (rintro rfl; exact absurd hc (by decide))
              · refine iff_of_false ?_ (by simp [Lexeme.isColon])
                rintro rfl
                exact absurd hc (by decide)
      | literal text => exact h.elim
      | spread => exact ⟨_, _, rfl, by decide, by decide⟩
      | punct p => exact ⟨_, _, rfl, by cases p <;> decide, by cases p <;> decide⟩
  | blank c hc =>
      refine ⟨c, [], rfl, blank_text hc, iff_of_false ?_ (by simp [Lexeme.isColon])⟩
      rintro rfl
      exact absurd hc (by decide)
  | comma => exact ⟨_, _, rfl, by decide, by decide⟩
  | byteOrderMark => exact ⟨_, _, rfl, by decide, by decide⟩
  | comment => exact h.elim

/-- Skipping characters is skipping blank lexemes. -/
theorem drop_blanks {ls : List Lexeme} (h : ∀ l ∈ ls, Bare l) :
    (textOf ls).dropWhile asciiWhitespace = textOf (ls.dropWhile Lexeme.isBlank) := by
  induction ls with
  | nil => rfl
  | cons l ls ih =>
      cases hb : l.isBlank with
      | true =>
          obtain ⟨c, hc, rfl⟩ : ∃ c hc, l = .blank c hc := by
            cases l <;> first | exact ⟨_, _, rfl⟩ | cases hb
          show (c :: textOf ls).dropWhile asciiWhitespace = textOf (ls.dropWhile Lexeme.isBlank)
          rw [List.dropWhile_cons_of_pos (blank_text hc)]
          exact ih fun l hl => h l (List.mem_cons_of_mem _ hl)
      | false =>
          obtain ⟨c, cs, htext, hw, -⟩ := bare_head (h l List.mem_cons_self)
          rw [List.dropWhile_cons_of_neg (by simp [hb]), textOf_cons, htext, List.cons_append,
            List.dropWhile_cons_of_neg (by simp [hw, hb])]

/-- The names at the front are read as one. -/
theorem take_names {ls : List Lexeme} (h : ∀ l ∈ ls, Bare l) :
    (textOf ls).takeWhile nameContinue = textOf (ls.takeWhile Lexeme.isName) ∧
      (textOf ls).dropWhile nameContinue = textOf (ls.dropWhile Lexeme.isName) := by
  induction ls with
  | nil => exact ⟨rfl, rfl⟩
  | cons l ls ih =>
      obtain ⟨htake, hdrop⟩ := ih fun l hl => h l (List.mem_cons_of_mem _ hl)
      have hl := h l List.mem_cons_self
      cases hname : l.isName with
      | true =>
          obtain ⟨n, rfl⟩ := isName_eq hname
          have hn : ∀ c ∈ n.text, nameContinue c = true := List.all_eq_true.mp n.all
          rw [List.takeWhile_cons_of_pos hname, List.dropWhile_cons_of_pos hname, textOf_cons,
            textOf_cons]
          show (n.text ++ textOf ls).takeWhile nameContinue = n.text ++ _ ∧
            (n.text ++ textOf ls).dropWhile nameContinue = _
          rw [List.takeWhile_append_of_pos hn, List.dropWhile_append_of_pos hn, htake, hdrop]
          exact ⟨rfl, rfl⟩
      | false =>
          obtain ⟨c, cs, htext, -⟩ := bare_head hl
          have hc : nameContinue c = false :=
            bare_text hl hname c (by rw [htext]; exact List.mem_cons_self)
          rw [List.takeWhile_cons_of_neg (by simp [hname]),
            List.dropWhile_cons_of_neg (by simp [hname]), textOf_cons, htext, List.cons_append]
          exact ⟨List.takeWhile_cons_of_neg (by simp [hc]), List.dropWhile_cons_of_neg (by simp [hc])⟩

/-- A name that touches no other is read alone. -/
theorem take_name {n : Name} {ls : List Lexeme} (h : ∀ l ∈ ls, Bare l) (ht : touches ls = false) :
    (n.text ++ textOf ls).takeWhile nameContinue = n.text ∧
      (n.text ++ textOf ls).dropWhile nameContinue = textOf ls := by
  have hn : ∀ c ∈ n.text, nameContinue c = true := List.all_eq_true.mp n.all
  obtain ⟨htake, hdrop⟩ := take_names h
  have hnone : ls.takeWhile Lexeme.isName = [] ∧ ls.dropWhile Lexeme.isName = ls := by
    cases ls with
    | nil => exact ⟨rfl, rfl⟩
    | cons l ls =>
        have hl : l.isName = false := by simpa [touches] using ht
        exact ⟨List.takeWhile_cons_of_neg (by simp [hl]), List.dropWhile_cons_of_neg (by simp [hl])⟩
  rw [hnone.1] at htake
  rw [hnone.2] at hdrop
  rw [List.takeWhile_append_of_pos hn, List.dropWhile_append_of_pos hn, htake, hdrop]
  exact ⟨List.append_nil _, rfl⟩

/-- The name that follows here, among lexemes. -/
def nameOf (ls : List Lexeme) : Option (Name × List Lexeme) :=
  match ls.dropWhile Lexeme.isBlank with
  | .token (.name f) :: ls => some (f, ls)
  | _ => none

/-- The colon and the name that follow here, among lexemes. -/
def fieldOf (ls : List Lexeme) : Option (Name × List Lexeme) :=
  match ls.dropWhile Lexeme.isBlank with
  | l :: ls => if l.isColon then nameOf ls else none
  | [] => none

/-- After the blanks comes a token. -/
theorem head_not_blank {ls rest : List Lexeme} {l : Lexeme}
    (h : ls.dropWhile Lexeme.isBlank = l :: rest) : l.isBlank = false := by
  have := List.head?_dropWhile_not Lexeme.isBlank ls
  rw [h] at this
  simpa using this

/-- Skipping blanks keeps a text bare. -/
theorem dropWhile_bare {ls : List Lexeme} (h : ∀ l ∈ ls, Bare l) :
    ∀ l ∈ ls.dropWhile Lexeme.isBlank, Bare l :=
  fun l hl => h l ((List.dropWhile_suffix _).subset hl)

/-- A suffix of lexemes whose names are apart has names that are apart. -/
theorem apart_suffix {ls ls' : List Lexeme} (h : Apart ls) (hs : ls' <:+ ls) : Apart ls' :=
  fun ls'' hls => h ls'' ((List.mem_tails _ _).mpr (((List.mem_tails _ _).mp hls).trans hs))

/-- What is apart is so at its front. -/
theorem Apart.front {ls : List Lexeme} (h : Apart ls) : ApartAt ls :=
  h ls ((List.mem_tails _ _).mpr List.suffix_rfl)

/-- Names that do not touch at all do not touch at a colon. -/
theorem Separated.apart {ls : List Lexeme} (h : Separated ls) : Apart ls := by
  intro ls' hls
  have hs : Separated ls' := List.IsChain.suffix h ((List.mem_tails _ _).mp hls)
  have htouches : ∀ {l ls}, Separated (l :: ls) → l.isName = true → touches ls = false := by
    intro l ls hs hl
    cases ls with
    | nil => rfl
    | cons x ls => simpa [hl, touches] using (List.isChain_cons_cons.mp hs).1
  cases ls' with
  | nil => trivial
  | cons l ls =>
      constructor
      · intro hl ht
        rw [htouches hs hl] at ht
        cases ht
      · intro _ ht
        have hsuffix : ls.dropWhile Lexeme.isBlank <:+ l :: ls :=
          (List.dropWhile_suffix _).trans (List.suffix_cons _ _)
        rcases e : ls.dropWhile Lexeme.isBlank with - | ⟨f, rest⟩
        · rfl
        · rw [e] at ht hsuffix
          exact htouches (List.IsChain.suffix hs hsuffix) (by simpa [touches] using ht)

/-- A text that is readable is legible. -/
theorem Readable.legible {ls : List Lexeme} (h : Readable ls) : Legible ls :=
  ⟨h.lexemes.legible, h.separated.apart, h.tight⟩

/-- What cannot continue a name cannot start one. -/
theorem nameStart_continue {c : Char} (h : nameContinue c = false) : nameStart c = false := by
  simp only [nameContinue, nameStart, Char.isAlphanum, Bool.or_eq_false_iff] at h ⊢
  exact ⟨h.1.1, h.2⟩

/-- A name begins with a letter or an underscore. -/
theorem name_head (n : Name) (rest : List Char) : (n.text ++ rest).head?.any nameStart = true := by
  obtain ⟨text, hhead, hall⟩ := n
  cases text with
  | nil => cases hhead
  | cons c cs => exact hhead

/-- Reading a name off a text is reading the name lexeme. -/
theorem nameAt_textOf {ls : List Lexeme} (h : ∀ l ∈ ls, Bare l)
    (hsep : touches (ls.dropWhile Lexeme.isBlank) = true →
      touches (ls.dropWhile Lexeme.isBlank).tail = false) :
    nameAt (textOf ls) = (nameOf ls).map fun p => (p.1.text, textOf p.2) := by
  simp only [nameAt, nameOf, drop_blanks h]
  have hb := dropWhile_bare h
  rcases e : ls.dropWhile Lexeme.isBlank with - | ⟨l, rest⟩
  · rfl
  · rw [e] at hb hsep
    have hl := hb l List.mem_cons_self
    cases hname : l.isName with
    | false =>
        obtain ⟨c, cs, htext, -⟩ := bare_head hl
        have hc : nameStart c = false :=
          nameStart_continue (bare_text hl hname c (by rw [htext]; exact List.mem_cons_self))
        rw [textOf_cons, htext, if_neg (by simp [hc])]
        cases l with
        | token t => cases t <;> first | rfl | cases hname
        | _ => rfl
    | true =>
        obtain ⟨f, rfl⟩ := isName_eq hname
        obtain ⟨htake, hdrop⟩ := take_name (n := f) (fun l hl => hb l (List.mem_cons_of_mem _ hl))
          (hsep rfl)
        rw [textOf_cons]
        show (if (f.text ++ textOf rest).head?.any nameStart = true then
          some ((f.text ++ textOf rest).takeWhile nameContinue,
            (f.text ++ textOf rest).dropWhile nameContinue) else none) = _
        rw [if_pos (name_head f _), htake, hdrop]
        rfl

/-- The colon is the one punctuator that makes an alias. -/
theorem isColon_eq {l : Lexeme} (h : l.isColon = true) : l = .token (.punct .colon) := by
  cases l <;> simp_all [Lexeme.isColon]

/-- Reading a field off a text is reading the two lexemes of an alias. -/
theorem fieldAt_textOf {ls : List Lexeme} (h : ∀ l ∈ ls, Bare l) (hsep : Apart ls) :
    fieldAt (textOf ls) = (fieldOf ls).map fun p => (p.1.text, textOf p.2) := by
  rw [fieldAt, fieldOf, drop_blanks h]
  have hb := dropWhile_bare h
  have hs := apart_suffix hsep (List.dropWhile_suffix Lexeme.isBlank)
  rcases e : ls.dropWhile Lexeme.isBlank with - | ⟨l, rest⟩
  · rfl
  · rw [e] at hb hs
    obtain ⟨c, cs, htext, -, hcolon⟩ := bare_head (hb l List.mem_cons_self)
    cases hl : l.isColon with
    | false =>
        have hc : c ≠ ':' := fun hc => by simp [hcolon.mp hc] at hl
        rw [textOf_cons, htext, List.cons_append]
        simp [hc, hl]
    | true =>
        obtain rfl := isColon_eq hl
        show nameAt (textOf rest) = (nameOf rest).map _
        exact nameAt_textOf (fun l hl => hb l (List.mem_cons_of_mem _ hl)) (hs.front.2 rfl)

/-- Skipping blanks loses no token. -/
theorem tokensOf_drop (ls : List Lexeme) :
    tokensOf (ls.dropWhile Lexeme.isBlank) = tokensOf ls := by
  induction ls with
  | nil => rfl
  | cons l ls ih =>
      cases l with
      | blank c hc => exact ih
      | _ => rfl

/-- An alias stays tight when the blanks before it go. -/
theorem tight_drop {l : Lexeme} {ls : List Lexeme} (h : Tight (l :: ls)) :
    Tight (l :: ls.dropWhile Lexeme.isBlank) := by
  have hf : (ls.dropWhile Lexeme.isBlank).filter (fun l => !l.isBlank) =
      ls.filter fun l => !l.isBlank := by
    induction ls with
    | nil => rfl
    | cons x ls ih =>
        cases x with
        | blank c hc => exact ih h
        | _ => rfl
  unfold Tight at h ⊢
  rw [List.filter_cons] at h ⊢
  rw [hf]
  exact h

/-- A suffix of tight lexemes is tight. -/
theorem tight_suffix {ls ls' : List Lexeme} (h : Tight ls) (hs : ls' <:+ ls) : Tight ls' :=
  List.IsChain.suffix h (hs.filter _)

/-- After a comma or a byte order mark the next token is no colon. -/
theorem mark_head {l : Lexeme} {ls : List Lexeme} (hl : l.isMark = true) (h : ∀ l ∈ ls, Bare l)
    (ht : Tight (l :: ls)) : (tokensOf ls).head? ≠ some (.punct .colon) := by
  induction ls generalizing l with
  | nil => simp [tokensOf]
  | cons x ls ih =>
      have hlb : l.isBlank = false := by cases l <;> first | rfl | cases hl
      have hx := h x List.mem_cons_self
      have hls : ∀ l ∈ ls, Bare l := fun l hl => h l (List.mem_cons_of_mem _ hl)
      cases hb : x.isBlank with
      | true =>
          have hskip : tokensOf (x :: ls) = tokensOf ls := by
            cases x <;> first | rfl | cases hb
          rw [hskip]
          refine ih hl hls ?_
          simpa [Tight, hlb, hb] using ht
      | false =>
          have ht : (¬ (l.isColon ∧ x.isMark) ∧ ¬ (l.isMark ∧ x.isColon)) ∧ Tight (x :: ls) := by
            simpa [Tight, hlb, hb] using ht
          cases x with
          | token t =>
              intro hc
              have ht' : t = .punct .colon := by simpa using hc
              subst ht'
              exact ht.1.2 ⟨hl, rfl⟩
          | blank c hc => cases hb
          | comma => exact ih rfl hls ht.2
          | byteOrderMark => exact ih rfl hls ht.2
          | comment => exact hx.elim

/-- A name and what follows it, as tokens. -/
theorem pairs_fieldOf {n : Name} {ls : List Lexeme} (h : ∀ l ∈ ls, Bare l)
    (ht : Tight (.token (.name n) :: ls)) :
    pairs (.name n :: tokensOf ls) = match fieldOf ls with
      | some (f, ls) => (n, f) :: pairs (tokensOf ls)
      | none => pairs (tokensOf ls) := by
  have hb := dropWhile_bare h
  have ht := tight_drop ht
  rw [fieldOf, ← tokensOf_drop ls]
  -- after the name and its blanks there is a colon or the name renames nothing
  rcases e : ls.dropWhile Lexeme.isBlank with - | ⟨l, rest⟩
  · rfl
  · rw [e] at hb ht
    have hl := hb l List.mem_cons_self
    have hrest : ∀ l ∈ rest, Bare l := fun l hl => hb l (List.mem_cons_of_mem _ hl)
    have hlb := head_not_blank e
    have ht : Tight (l :: rest) := tight_suffix ht (List.suffix_cons _ _)
    cases hc : l.isColon with
    | false =>
        simp only [hc, Bool.false_eq_true, if_false]
        refine pairs_name ?_
        cases l with
        | token t =>
            intro h
            have ht' : t = .punct .colon := by simpa using h
            subst ht'
            cases hc
        | blank c hc => cases hlb
        | comma =>
            show (tokensOf rest).head? ≠ _
            exact mark_head rfl hrest ht
        | byteOrderMark =>
            show (tokensOf rest).head? ≠ _
            exact mark_head rfl hrest ht
        | comment => exact hl.elim
    | true =>
        obtain rfl := isColon_eq hc
        have ht := tight_drop ht
        have hb := dropWhile_bare hrest
        simp only [hc, if_true, tokensOf_token, nameOf]
        rw [← tokensOf_drop rest]
        -- after the colon and its blanks only a name makes an alias
        rcases e' : rest.dropWhile Lexeme.isBlank with - | ⟨y, rest'⟩
        · rfl
        · rw [e'] at ht hb
          have hy := head_not_blank e'
          cases y with
          | token t =>
              cases t <;> rfl
          | blank c hc => cases hy
          -- an alias is tight: no comma stands between its parts
          | comma => exact absurd ht (by simp [Tight, Lexeme.isColon, Lexeme.isMark, Lexeme.isBlank])
          | byteOrderMark =>
              exact absurd ht (by simp [Tight, Lexeme.isColon, Lexeme.isMark, Lexeme.isBlank])
          | comment => exact (hb _ List.mem_cons_self).elim

/-! ### What is collected -/

/-- The pairs as `scan` collects them. -/
def collect (out : List (String × String)) : List (Name × Name) → List (String × String)
  | [] => out
  | (a, f) :: ps =>
      if Fresh out a.text f.text then
        let out := out ++ [(String.ofList a.text, String.ofList f.text)]
        if maxAliases ≤ out.length then out else collect out ps
      else collect out ps

/-- The scan passes over what no name starts with. -/
theorem scan_skip {cs : List Char} (h : ∀ c ∈ cs, nameContinue c = false)
    (out : List (String × String)) (rest : List Char) : scan out (cs ++ rest) = scan out rest := by
  induction cs with
  | nil => rfl
  | cons c cs ih =>
      have hc : nameStart c = false := nameStart_continue (h c List.mem_cons_self)
      rw [List.cons_append, scan, hc]
      exact ih fun c hc => h c (List.mem_cons_of_mem _ hc)

/-- At a word, what follows it decides. -/
theorem scan_word {text rest : List Char} (out : List (String × String))
    (hhead : text.head?.any nameStart = true)
    (htake : (text ++ rest).takeWhile nameContinue = text)
    (hdrop : (text ++ rest).dropWhile nameContinue = rest) :
    scan out (text ++ rest) = match fieldAt rest with
      | some (field, after) =>
          if Fresh out text field then
            let out := out ++ [(String.ofList text, String.ofList field)]
            if maxAliases ≤ out.length then out else scan out after
          else scan out after
      | none => scan out rest := by
  cases text with
  | nil => cases hhead
  | cons c cs =>
      have hstart : nameStart c = true := by simpa using hhead
      have hcont : nameContinue c = true := by
        cases hc : nameContinue c with
        | true => rfl
        | false => cases hstart.symm.trans (nameStart_continue hc)
      replace hdrop : (c :: (cs ++ rest)).dropWhile nameContinue = rest := hdrop
      rw [List.dropWhile_cons_of_pos hcont] at hdrop
      replace htake : (c :: (cs ++ rest)).takeWhile nameContinue = c :: cs := htake
      rw [List.cons_append, scan, if_pos hstart, htake]
      split
      · rename_i field after hfield
        rw [hdrop] at hfield
        simp only [hfield]
      · rename_i hfield
        rw [hdrop] at hfield ⊢
        simp only [hfield]

/-- A name is read off the front of the lexemes. -/
theorem nameOf_suffix {f : Name} {ls ls' : List Lexeme} (h : nameOf ls = some (f, ls')) :
    ls' <:+ ls := by
  unfold nameOf at h
  split at h
  · rename_i f' rest hd
    obtain ⟨rfl, rfl⟩ : f' = f ∧ rest = ls' := by simpa using h
    have := List.dropWhile_suffix (l := ls) Lexeme.isBlank
    rw [hd] at this
    exact (List.suffix_cons _ _).trans this
  · cases h

/-- So is a field. -/
theorem fieldOf_suffix {f : Name} {ls ls' : List Lexeme} (h : fieldOf ls = some (f, ls')) :
    ls' <:+ ls := by
  unfold fieldOf at h
  split at h
  · rename_i l rest hd
    have := List.dropWhile_suffix (l := ls) Lexeme.isBlank
    rw [hd] at this
    split at h
    · exact ((nameOf_suffix h).trans (List.suffix_cons _ _)).trans this
    · cases h
  · cases h

/-- No alias is where no colon is. -/
theorem fieldOf_none {ls : List Lexeme} (h : colonNext ls = false) : fieldOf ls = none := by
  unfold fieldOf
  rcases e : ls.dropWhile Lexeme.isBlank with - | ⟨l, rest⟩
  · rfl
  · have hl : l.isColon = false := by simpa [colonNext, e] using h
    simp [hl]

/-- Names that touch, with no colon after them, rename nothing. -/
theorem pairs_names {a : Name} {ls : List Lexeme} (h : ∀ l ∈ ls, Bare l)
    (ht : Tight (.token (.name a) :: ls)) (hc : colonNext (ls.dropWhile Lexeme.isName) = false) :
    pairs (.name a :: tokensOf ls) = pairs (tokensOf (ls.dropWhile Lexeme.isName)) := by
  induction ls generalizing a with
  | nil => rfl
  | cons l ls ih =>
      cases hname : l.isName with
      | true =>
          obtain ⟨b, rfl⟩ := isName_eq hname
          rw [List.dropWhile_cons_of_pos hname] at hc ⊢
          rw [tokensOf_token, pairs_name (by simp)]
          exact ih (fun l hl => h l (List.mem_cons_of_mem _ hl))
            (tight_suffix ht (List.suffix_cons _ _)) hc
      | false =>
          rw [List.dropWhile_cons_of_neg (by simp [hname])] at hc ⊢
          rw [pairs_fieldOf h ht, fieldOf_none hc]

/-- The scan of what is left of a document collects the pairs among its tokens. -/
theorem scan_textOf {ls : List Lexeme} (h : ∀ l ∈ ls, Bare l) (hsep : Apart ls) (ht : Tight ls)
    (out : List (String × String)) : scan out (textOf ls) = collect out (pairs (tokensOf ls)) := by
  -- the scan goes on at a suffix of the lexemes
  generalize hn : ls.length = n
  induction n using Nat.strong_induction_on generalizing ls out with
  | _ n ih =>
    have next : ∀ {ls'} (out : List (String × String)), ls' <:+ ls → ls'.length < n →
        scan out (textOf ls') = collect out (pairs (tokensOf ls')) := fun out hs hlt =>
      ih _ hlt (fun l hl => h l (hs.subset hl)) (apart_suffix hsep hs) (tight_suffix ht hs) out rfl
    cases ls with
    | nil => rw [show textOf [] = [] from rfl, scan]; rfl
    | cons l ls =>
        have hlen : ls.length < n := by rw [← hn]; exact Nat.lt_succ_self _
        have hls : ∀ l ∈ ls, Bare l := fun l hl => h l (List.mem_cons_of_mem _ hl)
        cases hname : l.isName with
        | false =>
            have hskip : pairs (tokensOf (l :: ls)) = pairs (tokensOf ls) := by
              cases l with
              | token t => exact pairs_skip hname _
              | _ => rfl
            rw [textOf_cons, scan_skip (bare_text (h l List.mem_cons_self) hname), hskip]
            exact next out (List.suffix_cons l ls) hlen
        | true =>
            obtain ⟨a, rfl⟩ := isName_eq hname
            have hsuffix : ls <:+ .token (.name a) :: ls := List.suffix_cons _ ls
            rw [textOf_cons, tokensOf_token]
            show scan out (a.text ++ textOf ls) = _
            cases htouch : touches ls with
            | true =>
                -- names that touch are scanned as one, but there is no colon after it
                have hc := hsep.front.1 rfl htouch
                obtain ⟨htake, hdrop⟩ := take_names h
                rw [List.takeWhile_cons_of_pos rfl] at htake
                rw [List.dropWhile_cons_of_pos rfl] at hdrop
                have hrest : ls.dropWhile Lexeme.isName <:+ ls := List.dropWhile_suffix _
                have hsplit : a.text ++ textOf ls =
                    (a.text ++ textOf (ls.takeWhile Lexeme.isName)) ++
                      textOf (ls.dropWhile Lexeme.isName) := by
                  rw [List.append_assoc, ← textOf_append, List.takeWhile_append_dropWhile]
                replace htake : (a.text ++ textOf ls).takeWhile nameContinue =
                  a.text ++ textOf (ls.takeWhile Lexeme.isName) := htake
                replace hdrop : (a.text ++ textOf ls).dropWhile nameContinue =
                  textOf (ls.dropWhile Lexeme.isName) := hdrop
                rw [hsplit] at htake hdrop ⊢
                rw [scan_word out (name_head a _) htake hdrop, fieldAt_textOf (fun l hl => hls l (hrest.subset hl))
                  (apart_suffix hsep (hrest.trans hsuffix)), fieldOf_none hc,
                  pairs_names hls ht hc]
                exact next out (hrest.trans hsuffix) (Nat.lt_of_le_of_lt hrest.length_le hlen)
            | false =>
                obtain ⟨htake, hdrop⟩ := take_name hls htouch
                rw [pairs_fieldOf hls ht, scan_word out (by simpa using name_head a []) htake hdrop,
                  fieldAt_textOf hls (apart_suffix hsep hsuffix)]
                rcases e : fieldOf ls with - | ⟨f, after⟩
                · exact next out hsuffix hlen
                · have hafter : after <:+ ls := fieldOf_suffix e
                  have hlt : after.length < n := Nat.lt_of_le_of_lt hafter.length_le hlen
                  have hnext := fun out => next out (hafter.trans hsuffix) hlt
                  simp only [Option.map_some, collect, hnext]

/-- Duplicates of a list without any come from what is added. -/
theorem eraseDups_after {α : Type} [BEq α] [LawfulBEq α] {out : List α} (h : out.Nodup)
    (xs : List α) : (out ++ xs).eraseDups = out ++ (xs.removeAll out).eraseDups := by
  have hid : out.eraseDups = out := by
    induction out with
    | nil => rfl
    | cons a out ih =>
        obtain ⟨ha, hout⟩ := List.nodup_cons.mp h
        have hf : out.filter (fun b => !b == a) = out := by
          refine List.filter_eq_self.mpr fun b hb => ?_
          have hba : b ≠ a := fun hba => ha (hba ▸ hb)
          simpa using hba
        rw [List.eraseDups_cons, hf, ih hout]
  rw [List.eraseDups_append, hid]

/-- The field is selected under another name, and not as the name of its type. -/
def renames (p : Name × Name) : Bool := p.1.text ≠ "__typename".toList ∧ p.1 ≠ p.2

/-- An alias and its field as the reply's keys. -/
def texts (p : Name × Name) : String × String := (String.ofList p.1.text, String.ofList p.2.text)

/-- A pair is collected when it renames and is new. -/
theorem fresh_iff {out : List (String × String)} (p : Name × Name) :
    Fresh out p.1.text p.2.text ↔ renames p = true ∧ texts p ∉ out := by
  obtain ⟨a, f⟩ := p
  have hdots : ¬ "...".toList <+: a.text := by
    rintro ⟨rest, hrest⟩
    have hstart := name_head a []
    rw [← hrest] at hstart
    cases hstart
  have hren : renames (a, f) = true ↔ a.text ≠ "__typename".toList ∧ a.text ≠ f.text := by
    simp only [renames, ne_eq, Name.text_inj, decide_eq_true_eq]
  rw [hren]
  exact ⟨fun h => ⟨⟨h.1, h.2.1⟩, h.2.2.2⟩, fun h => ⟨h.1.1, h.1.2, hdots, h.2⟩⟩

/-- The scan collects the first new renamings, up to its bound. -/
theorem collect_eq {out : List (String × String)} (hnodup : out.Nodup)
    (hlen : out.length < maxAliases) (ps : List (Name × Name)) :
    collect out ps = ((out ++ (ps.filter renames).map texts).eraseDups).take maxAliases := by
  induction ps generalizing out with
  | nil =>
      rw [List.filter_nil, List.map_nil, eraseDups_after hnodup, List.nil_removeAll,
        List.eraseDups_nil, List.append_nil, List.take_of_length_le (Nat.le_of_lt hlen), collect]
  | cons p ps ih =>
      rw [collect]
      -- a new renaming is collected, and the scan ends when the list is full
      by_cases hp : Fresh out p.1.text p.2.text
      · obtain ⟨hren, hnew⟩ := fresh_iff p |>.mp hp
        have hnodup' : (out ++ [texts p]).Nodup :=
          List.nodup_append.mpr ⟨hnodup, List.nodup_cons.mpr ⟨List.not_mem_nil, List.nodup_nil⟩, by
            rintro a ha b hb rfl
            exact hnew (List.mem_singleton.mp hb ▸ ha)⟩
        have hcons : out ++ ((p :: ps).filter renames).map texts =
            (out ++ [texts p]) ++ (ps.filter renames).map texts := by
          rw [List.filter_cons_of_pos hren, List.map_cons, List.append_assoc,
            List.singleton_append]
        rw [if_pos hp, hcons]
        show (if maxAliases ≤ (out ++ [texts p]).length then out ++ [texts p]
          else collect (out ++ [texts p]) ps) = _
        by_cases hfull : maxAliases ≤ (out ++ [texts p]).length
        · have hexact : (out ++ [texts p]).length = maxAliases := by
            simp only [List.length_append, List.length_singleton] at hfull ⊢
            omega
          rw [if_pos hfull, eraseDups_after hnodup', List.take_left' hexact]
        · rw [if_neg hfull]
          exact ih hnodup' (Nat.lt_of_not_le hfull)
      · rw [if_neg hp, ih hnodup hlen]
        cases hren : renames p with
        | false => rw [List.filter_cons_of_neg (by simp [hren])]
        | true =>
            -- it renames and is not new, so it was collected before
            have hold : texts p ∈ out := by
              by_contra hnew
              exact hp ((fresh_iff p).mpr ⟨hren, hnew⟩)
            rw [List.filter_cons_of_pos hren, List.map_cons, eraseDups_after hnodup,
              eraseDups_after hnodup, List.cons_removeAll]
            simp [hold]

/-- From a text that is read right the aliases of its document are collected, one by one. -/
theorem collectAliases_textOf {doc : Document} {ls : List Lexeme} (htokens : tokensOf ls = doc.tokens)
    (h : Legible ls) : collectAliases (String.ofList (textOf ls)) = collect [] doc.aliases := by
  have hplain : ∀ t ∈ skeleton 0 (tokensOf ls), t.isLiteral = false := by
    rw [htokens]
    exact plain_tokens doc
  have hstrip : ((textOf ls).foldl Strip.char (between 0 [])).stripped =
      [] ++ textOf (outer 0 ls) := strip_textOf h.lexemes hplain []
  have hpairs : pairs (tokensOf (outer 0 ls)) = doc.aliases := by
    rw [tokensOf_outer, htokens]
    exact outerPairs_tokens doc
  calc collectAliases (String.ofList (textOf ls))
      = scan [] ((textOf ls).foldl Strip.char (between 0 [])).stripped := by
        rw [collectAliases, String.toList_ofList]
        rfl
    _ = scan [] (textOf (outer 0 ls)) := by rw [hstrip, List.nil_append]
    _ = collect [] doc.aliases := by
        rw [scan_textOf (bare_outer hplain) h.apart h.tight, hpairs]

/-- The different aliases of the document, in its order. -/
def renamed (doc : Document) : List (String × String) :=
  ((doc.aliases.filter renames).map texts).eraseDups

/-- Over a document: the first renamings, up to the bound. -/
theorem collect_aliases (doc : Document) : collect [] doc.aliases = (renamed doc).take maxAliases := by
  rw [collect_eq List.nodup_nil (by decide), List.nil_append, renamed]

/-- **The aliases that are collected** from a text of a document that is read right: its fields
under another name, the first 2000 different ones in the order of the document.  What is between
parentheses and in comments, and the other ignored characters, change nothing. -/
theorem collectAliases_document {doc : Document} {ls : List Lexeme}
    (htokens : tokensOf ls = doc.tokens) (h : Readable ls) :
    collectAliases (String.ofList (textOf ls)) = (renamed doc).take maxAliases := by
  rw [collectAliases_textOf htokens h.legible, collect_aliases]

namespace Sample

/-- A name of one letter. -/
def name (c : Char) (h : nameStart c = true := by decide) (h' : nameContinue c = true := by decide) :
    Name := ⟨[c], by simpa using h, by simpa using h'⟩

/-- The lexemes of `"(@)"`, a comment, and two fields with aliases. -/
def lexemes : List Lexeme :=
  [.token (.punct .openBrace), .token (.name (name 'a')), .token (.punct .colon), .blank ' ' rfl,
    .token (.name (name 'b')), .token (.punct .openParen), .token (.name (name 'x')),
    .token (.punct .colon), .token (.literal ['"', '(', '@', ')', '"']),
    .token (.punct .closeParen), .comment [' ', 'c', ':', 'd'] (by decide) .newline, .comma,
    .token (.name (name 'e')), .blank ' ' rfl, .token (.punct .colon), .token (.name (name 'f')),
    .token (.punct .closeBrace)]

/-- Arguments with a nested list, a string and a colon in it. -/
def arguments : Group :=
  ⟨[.name (name 'x'), .punct .colon, .literal ['"', '(', '@', ')', '"']], by
    refine ⟨by decide, by decide, by decide, rfl⟩⟩

/-- Two renamed fields, one of them under the other. -/
def document : Document :=
  [.shorthand [.field (some (name 'a')) (name 'b') (some arguments) [] [],
    .field (some (name 'e')) (name 'f') none [] []]]

end Sample

theorem collectAliases_document_two :
    collectAliases (String.ofList (textOf Sample.lexemes)) = [("a", "b"), ("e", "f")] := by
  rw [@collectAliases_document Sample.document _ rfl ⟨by decide, by decide, by decide⟩]
  rfl

namespace Sample

end Sample

end OpenSsp.Aliases
