/-
OpenSsp/Lib/GraphqlSyntax.lean

Executable documents of GraphQL, and the texts they are written as.

* `Document` is the syntax tree: operations and fragments with their selections.  What stands
  between parentheses (arguments, variables) is kept as tokens in which parentheses match.
* `Document.tokens` lists its tokens.  A text is a list of lexemes: tokens, and between them the
  blanks, commas, byte order marks and comments that GraphQL ignores.
* `Document.aliases` are the fields that are selected under another name.

A colon stands outside of parentheses only after an alias.  So the aliases can be read off the
tokens without parsing, once what is between parentheses is taken out.

Main results: `outerPairs_tokens` and `plain_tokens`.
-/
import Mathlib.Data.List.Basic

namespace GraphqlSyntax

/-! ### Tokens -/

/-- The first character of a name. -/
def nameStart (c : Char) : Bool := c.isAlpha || c == '_'

/-- The other characters of a name. -/
def nameContinue (c : Char) : Bool := c.isAlphanum || c == '_'

/-- A name is not empty, and has the characters of one. -/
structure Name where
  text : List Char
  head : text.head?.any nameStart = true
  all : text.all nameContinue = true
  deriving DecidableEq

/-- A name is its text. -/
theorem Name.text_inj {a b : Name} : a.text = b.text ↔ a = b := by
  refine ⟨fun h => ?_, fun h => by rw [h]⟩
  cases a
  cases b
  cases h
  rfl

/-- The punctuators, the spread apart. -/
inductive Punct
  | bang | dollar | amp | openParen | closeParen | colon | equals | atSign | openBracket | closeBracket
  | openBrace | pipe | closeBrace
  deriving DecidableEq

/-- The character of a punctuator. -/
def Punct.char : Punct → Char
  | bang => '!'
  | dollar => '$'
  | amp => '&'
  | openParen => '('
  | closeParen => ')'
  | colon => ':'
  | equals => '='
  | atSign => '@'
  | openBracket => '['
  | closeBracket => ']'
  | openBrace => Char.ofNat 123
  | pipe => '|'
  | closeBrace => Char.ofNat 125

/-- Tokens; `literal` is any value that is written in one piece. -/
inductive Token
  | name (n : Name)
  | punct (p : Punct)
  | spread
  /-- A number, a string or a block string, with its quotes and as it is written. -/
  | literal (text : List Char)
  deriving DecidableEq

namespace Token

/-- The text of a token. -/
def text : Token → List Char
  | name n => n.text
  | punct p => [p.char]
  | spread => ['.', '.', '.']
  | literal text => text

/-- Names are what the scanner looks for. -/
def isName : Token → Bool
  | name _ => true
  | _ => false

/-- Literals matter where one may follow a colon. -/
def isLiteral : Token → Bool
  | literal _ => true
  | _ => false

/-- How many parentheses are open after the token, when `d` are open before it. -/
def depth (d : Nat) : Token → Nat
  | punct .openParen => d + 1
  | punct .closeParen => d - 1
  | _ => d

end Token

/-- The tokens outside of parentheses, with `d` open before the first. -/
def skeleton : Nat → List Token → List Token
  | _, [] => []
  | d, t :: ts =>
      if d = 0 ∧ t ≠ .punct .openParen then t :: skeleton (t.depth d) ts
      else skeleton (t.depth d) ts

/-- Parentheses match: `d` are open before, none is open after, and none is closed too much. -/
def Matched : Nat → List Token → Prop
  | d, [] => d = 0
  | d, t :: ts => (t = .punct .closeParen → 0 < d) ∧ Matched (t.depth d) ts

/-- What stands between a pair of parentheses: arguments with their values, or variables with their
types. -/
structure Group where
  tokens : List Token
  matched : Matched 0 tokens

/-- The tokens of a group, between its parentheses. -/
def Group.enclosed (g : Group) : List Token :=
  .punct .openParen :: g.tokens ++ [.punct .closeParen]

/-! ### Documents -/

/-- A directive with its arguments. -/
structure Directive where
  name : Name
  arguments : Option Group

/-- A field with its alias, a spread of a fragment, or an inline fragment. -/
inductive Selection
  | field (aliased : Option Name) (name : Name) (arguments : Option Group)
      (directives : List Directive) (selections : List Selection)
  | spread (fragment : Name) (directives : List Directive)
  | inline (on : Option Name) (directives : List Directive) (selections : List Selection)

/-- The three kinds of operations. -/
inductive OperationKind
  | query | mutation | subscription
  deriving DecidableEq

/-- What a document consists of. -/
inductive Definition
  /-- A query that is written as its selections only. -/
  | shorthand (selections : List Selection)
  | operation (kind : OperationKind) (name : Option Name) (vars : Option Group)
      (directives : List Directive) (selections : List Selection)
  | fragment (name : Name) (on : Name) (directives : List Directive) (selections : List Selection)

abbrev Document := List Definition

/-- The word that an operation begins with. -/
def OperationKind.keyword : OperationKind → Name
  | query => ⟨['q', 'u', 'e', 'r', 'y'], by decide, by decide⟩
  | mutation => ⟨['m', 'u', 't', 'a', 't', 'i', 'o', 'n'], by decide, by decide⟩
  | subscription =>
      ⟨['s', 'u', 'b', 's', 'c', 'r', 'i', 'p', 't', 'i', 'o', 'n'], by decide, by decide⟩

/-- The word before a type condition. -/
def Name.on : Name := ⟨['o', 'n'], by decide, by decide⟩

/-- The word that a fragment begins with. -/
def Name.fragment : Name := ⟨['f', 'r', 'a', 'g', 'm', 'e', 'n', 't'], by decide, by decide⟩

/-! ### The tokens of a document -/

/-- The tokens of a group that may be missing. -/
def group (g : Option Group) : List Token := (g.map Group.enclosed).getD []

def Directive.tokens (d : Directive) : List Token := .punct .atSign :: .name d.name :: group d.arguments

def directives (ds : List Directive) : List Token := ds.flatMap Directive.tokens

/-- An alias stands before its field, with a colon. -/
def aliasTokens (aliased : Option Name) : List Token :=
  (aliased.map fun a => [.name a, .punct .colon]).getD []

/-- A type condition stands after `on`. -/
def condition (on : Option Name) : List Token :=
  (on.map fun type => [.name Name.on, .name type]).getD []

mutual

/-- The tokens of a selection, with those of its own selections between braces. -/
def Selection.tokens : Selection → List Token
  | .field aliased name arguments ds selections =>
      aliasTokens aliased ++ .name name :: (group arguments ++ (directives ds ++ nested selections))
  | .spread fragment ds => .spread :: .name fragment :: directives ds
  | .inline on ds selections => .spread :: (condition on ++ (directives ds ++ nested selections))

/-- A selection set; a field without one selects nothing below it. -/
def nested : List Selection → List Token
  | [] => []
  | s :: ss => .punct .openBrace :: (s.tokens ++ closed ss)

/-- The rest of a selection set. -/
def closed : List Selection → List Token
  | [] => [.punct .closeBrace]
  | s :: ss => s.tokens ++ closed ss

end

/-- The tokens of a definition. -/
def Definition.tokens : Definition → List Token
  | .shorthand selections => nested selections
  | .operation kind name vars ds selections =>
      .name kind.keyword :: ((name.map Token.name).toList ++
        (group vars ++ (directives ds ++ nested selections)))
  | .fragment name on ds selections =>
      .name Name.fragment :: .name name :: .name Name.on :: .name on ::
        (directives ds ++ nested selections)

def Document.tokens (doc : Document) : List Token := doc.flatMap Definition.tokens

/-! ### The aliases of a document -/

/-- The alias of a field, with its name. -/
def aliasOf (aliased : Option Name) (name : Name) : List (Name × Name) :=
  (aliased.map fun a => (a, name)).toList

mutual

/-- The aliases of a selection and of all that it selects. -/
def Selection.aliases : Selection → List (Name × Name)
  | .field aliased name _ _ selections => aliasOf aliased name ++ selectionAliases selections
  | .spread _ _ => []
  | .inline _ _ selections => selectionAliases selections

/-- The aliases of a list of selections. -/
def selectionAliases : List Selection → List (Name × Name)
  | [] => []
  | s :: ss => s.aliases ++ selectionAliases ss

end

/-- What a definition selects at its top. -/
def Definition.selections : Definition → List Selection
  | .shorthand selections | .operation _ _ _ _ selections | .fragment _ _ _ selections => selections

def Definition.aliases (d : Definition) : List (Name × Name) := selectionAliases d.selections

/-- The fields of the document that have an alias, in its order. -/
def Document.aliases (doc : Document) : List (Name × Name) := doc.flatMap Definition.aliases

/-- An alias of one selection is one of the list. -/
theorem mem_selectionAliases {p : Name × Name} {s : Selection} {ss : List Selection}
    (hs : s ∈ ss) (hp : p ∈ s.aliases) : p ∈ selectionAliases ss := by
  induction ss with
  | nil => cases hs
  | cons x ss ih =>
      rw [selectionAliases]
      rcases List.mem_cons.mp hs with rfl | hs
      · exact List.mem_append_left _ hp
      · exact List.mem_append_right _ (ih hs)

/-- Where a name, a colon and a name follow each other. -/
def pairs : List Token → List (Name × Name)
  | .name a :: .punct .colon :: .name f :: ts => (a, f) :: pairs ts
  | _ :: ts => pairs ts
  | [] => []

/-! ### What is outside of parentheses -/

/-- The skeleton leaves out what is parenthesised; by induction on its tokens. -/
theorem skeleton_enclosed {ts : List Token} {d : Nat} (h : Matched d ts) (rest : List Token) :
    skeleton (d + 1) (ts ++ .punct .closeParen :: rest) = skeleton 0 rest := by
  induction ts generalizing d with
  | nil =>
      obtain rfl : d = 0 := h
      rfl
  | cons t ts ih =>
      obtain ⟨hclose, hm⟩ := h
      show skeleton (d + 1) (t :: (ts ++ .punct .closeParen :: rest)) = _
      rw [skeleton, if_neg (by omega)]
      have hd : t.depth (d + 1) = t.depth d + 1 := by
        by_cases ht : t = .punct .closeParen
        · have := hclose ht
          subst ht
          show d + 1 - 1 = d - 1 + 1
          omega
        · unfold Token.depth
          split <;> simp_all
      rw [hd]
      exact ih hm

/-- A group leaves no trace in the skeleton. -/
theorem skeleton_group (g : Option Group) (rest : List Token) :
    skeleton 0 (group g ++ rest) = skeleton 0 rest := by
  cases g with
  | none => rfl
  | some g =>
      show skeleton 0 (.punct .openParen :: (g.tokens ++ [.punct .closeParen] ++ rest)) = _
      rw [List.append_assoc, skeleton, if_neg (by simp)]
      exact skeleton_enclosed g.matched rest

/-- Outside of parentheses every token but an opening one stays. -/
theorem skeleton_cons {t : Token} (h : t ≠ .punct .openParen) (hd : t.depth 0 = 0)
    (rest : List Token) : skeleton 0 (t :: rest) = t :: skeleton 0 rest := by
  rw [skeleton, if_pos ⟨rfl, h⟩, hd]

@[simp] theorem skeleton_name (n : Name) (rest : List Token) :
    skeleton 0 (.name n :: rest) = .name n :: skeleton 0 rest :=
  skeleton_cons (by simp) rfl rest

@[simp] theorem skeleton_spread (rest : List Token) :
    skeleton 0 (.spread :: rest) = .spread :: skeleton 0 rest := skeleton_cons (by decide) rfl rest

@[simp] theorem skeleton_colon (rest : List Token) :
    skeleton 0 (.punct .colon :: rest) = .punct .colon :: skeleton 0 rest :=
  skeleton_cons (by decide) rfl rest

@[simp] theorem skeleton_atSign (rest : List Token) :
    skeleton 0 (.punct .atSign :: rest) = .punct .atSign :: skeleton 0 rest :=
  skeleton_cons (by decide) rfl rest

@[simp] theorem skeleton_openBrace (rest : List Token) :
    skeleton 0 (.punct .openBrace :: rest) = .punct .openBrace :: skeleton 0 rest :=
  skeleton_cons (by decide) rfl rest

@[simp] theorem skeleton_closeBrace (rest : List Token) :
    skeleton 0 (.punct .closeBrace :: rest) = .punct .closeBrace :: skeleton 0 rest :=
  skeleton_cons (by decide) rfl rest

/-- No colon comes first, outside of parentheses. -/
def NoColon (ts : List Token) : Prop := (skeleton 0 ts).head? ≠ some (.punct .colon)

/-- After a group comes what comes after it. -/
theorem noColon_group {g : Option Group} {rest : List Token} (h : NoColon rest) :
    NoColon (group g ++ rest) := by
  unfold NoColon
  rw [skeleton_group]
  exact h

/-- Directives do not begin with a colon. -/
theorem noColon_directives {ds : List Directive} {rest : List Token} (h : NoColon rest) :
    NoColon (directives ds ++ rest) := by
  cases ds with
  | nil => exact h
  | cons d ds => simp [NoColon, directives, Directive.tokens]

/-- Nor do selections. -/
theorem noColon_nested {ss : List Selection} {rest : List Token} (h : NoColon rest) :
    NoColon (nested ss ++ rest) := by
  cases ss with
  | nil => exact h
  | cons s ss => simp [NoColon, nested]

/-- Nor does one selection. -/
theorem noColon_selection (s : Selection) (rest : List Token) : NoColon (s.tokens ++ rest) := by
  cases s with
  | field aliased name arguments ds selections =>
      cases aliased <;> simp [NoColon, Selection.tokens, aliasTokens]
  | spread fragment ds => simp [NoColon, Selection.tokens]
  | inline on ds selections => simp [NoColon, Selection.tokens]

/-- Nor do selections in braces. -/
theorem noColon_closed (ss : List Selection) (rest : List Token) : NoColon (closed ss ++ rest) := by
  cases ss with
  | nil => simp [NoColon, closed]
  | cons s ss =>
      rw [closed, List.append_assoc]
      exact noColon_selection s _

/-- Nor does a definition. -/
theorem noColon_definition {d : Definition} {rest : List Token} (h : NoColon rest) :
    NoColon (d.tokens ++ rest) := by
  cases d with
  | shorthand selections => exact noColon_nested h
  | operation kind name vars ds selections => simp [NoColon, Definition.tokens]
  | fragment name on ds selections => simp [NoColon, Definition.tokens]

/-! ### The aliases among the tokens -/

/-- A name without a colon behind it is no alias. -/
theorem pairs_name {n : Name} {ts : List Token} (h : ts.head? ≠ some (.punct .colon)) :
    pairs (.name n :: ts) = pairs ts := by
  cases ts with
  | nil => rfl
  | cons t ts =>
      have ht : t ≠ .punct .colon := fun e => h (by rw [e]; rfl)
      rw [pairs.eq_def]
      split
      · simp_all
      · simp_all
      · simp_all

/-- What is no name begins no alias. -/
theorem pairs_skip {t : Token} (h : t.isName = false) (ts : List Token) :
    pairs (t :: ts) = pairs ts := by
  cases t <;> first | rfl | cases h

/-- The pairs outside of parentheses. -/
def outerPairs (ts : List Token) : List (Name × Name) := pairs (skeleton 0 ts)

/-- The same after parenthesised parts are out. -/
theorem outerPairs_name {n : Name} {ts : List Token} (h : NoColon ts) :
    outerPairs (.name n :: ts) = outerPairs ts := by
  rw [outerPairs, skeleton_name, pairs_name h, outerPairs]

/-- A group has no aliases outside of its parentheses. -/
theorem outerPairs_group (g : Option Group) (rest : List Token) :
    outerPairs (group g ++ rest) = outerPairs rest := by
  rw [outerPairs, skeleton_group, outerPairs]

/-- The names of directives are no aliases. -/
theorem outerPairs_directives {ds : List Directive} {rest : List Token} (h : NoColon rest) :
    outerPairs (directives ds ++ rest) = outerPairs rest := by
  induction ds with
  | nil => rfl
  | cons d ds ih =>
      have hd : NoColon (group d.arguments ++ (directives ds ++ rest)) :=
        noColon_group (noColon_directives h)
      calc outerPairs (directives (d :: ds) ++ rest)
          = outerPairs (.punct .atSign :: .name d.name ::
              (group d.arguments ++ (directives ds ++ rest))) := by
            simp [directives, Directive.tokens]
        _ = outerPairs (.name d.name :: (group d.arguments ++ (directives ds ++ rest))) := by
            rw [outerPairs, skeleton_atSign, pairs_skip rfl, outerPairs]
        _ = outerPairs rest := by rw [outerPairs_name hd, outerPairs_group, ih]

/-- A field with an alias gives its pair. -/
theorem outerPairs_field {aliased : Option Name} {name : Name} {rest : List Token}
    (h : NoColon rest) :
    outerPairs (aliasTokens aliased ++ .name name :: rest) =
      aliasOf aliased name ++ outerPairs rest := by
  cases aliased with
  | none => exact outerPairs_name h
  | some a => simp [outerPairs, aliasTokens, aliasOf, pairs]

/-- A type condition is no alias. -/
theorem outerPairs_condition {on : Option Name} {rest : List Token} (h : NoColon rest) :
    outerPairs (condition on ++ rest) = outerPairs rest := by
  cases on with
  | none => rfl
  | some type =>
      show outerPairs (.name Name.on :: .name type :: rest) = _
      rw [outerPairs_name (by simp [NoColon]), outerPairs_name h]

mutual

/-- The aliases that the scanner finds in a selection are its own; by recursion on the selection. -/
theorem outerPairs_selection (s : Selection) {rest : List Token} (h : NoColon rest) :
    outerPairs (s.tokens ++ rest) = s.aliases ++ outerPairs rest := by
  cases s with
  | field aliased name arguments ds selections =>
      have hn : NoColon (nested selections ++ rest) := noColon_nested h
      rw [Selection.tokens, Selection.aliases, List.append_assoc, List.cons_append,
        List.append_assoc, List.append_assoc,
        outerPairs_field (noColon_group (noColon_directives hn)), outerPairs_group,
        outerPairs_directives hn, outerPairs_nested selections h, List.append_assoc]
  | spread fragment ds =>
      rw [Selection.tokens, Selection.aliases, List.cons_append, List.cons_append, outerPairs,
        skeleton_spread, pairs_skip rfl, ← outerPairs, outerPairs_name (noColon_directives h),
        outerPairs_directives h]
      rfl
  | inline on ds selections =>
      have hn : NoColon (nested selections ++ rest) := noColon_nested h
      rw [Selection.tokens, Selection.aliases, List.cons_append, List.append_assoc,
        List.append_assoc, outerPairs, skeleton_spread, pairs_skip rfl, ← outerPairs,
        outerPairs_condition (noColon_directives hn), outerPairs_directives hn,
        outerPairs_nested selections h]

/-- The same for a list of selections. -/
theorem outerPairs_nested (ss : List Selection) {rest : List Token} (h : NoColon rest) :
    outerPairs (nested ss ++ rest) = selectionAliases ss ++ outerPairs rest := by
  cases ss with
  | nil => rw [nested, selectionAliases]; rfl
  | cons s ss =>
      rw [nested, selectionAliases, List.cons_append, List.append_assoc, outerPairs,
        skeleton_openBrace, pairs_skip rfl, ← outerPairs,
        outerPairs_selection s (noColon_closed ss rest), outerPairs_closed ss h, List.append_assoc]

/-- The same for selections in braces. -/
theorem outerPairs_closed (ss : List Selection) {rest : List Token} (h : NoColon rest) :
    outerPairs (closed ss ++ rest) = selectionAliases ss ++ outerPairs rest := by
  cases ss with
  | nil =>
      rw [closed, selectionAliases]
      show pairs (skeleton 0 (.punct .closeBrace :: rest)) = _
      rw [skeleton_closeBrace, pairs_skip rfl]
      rfl
  | cons s ss =>
      rw [closed, selectionAliases, List.append_assoc,
        outerPairs_selection s (noColon_closed ss rest), outerPairs_closed ss h, List.append_assoc]

end

/-- The name and the variables of a definition are no aliases. -/
theorem outerPairs_definition (d : Definition) {rest : List Token} (h : NoColon rest) :
    outerPairs (d.tokens ++ rest) = d.aliases ++ outerPairs rest := by
  cases d with
  | shorthand selections => exact outerPairs_nested selections h
  | operation kind name vars ds selections =>
      have hn : NoColon (nested selections ++ rest) := noColon_nested h
      have hg : NoColon (group vars ++ (directives ds ++ (nested selections ++ rest))) :=
        noColon_group (noColon_directives hn)
      have hvars : outerPairs (group vars ++ (directives ds ++ (nested selections ++ rest))) =
          selectionAliases selections ++ outerPairs rest := by
        rw [outerPairs_group, outerPairs_directives hn, outerPairs_nested selections h]
      simp only [Definition.tokens, Definition.aliases, Definition.selections, List.cons_append,
        List.append_assoc]
      cases name with
      | none =>
          show outerPairs (.name kind.keyword :: (group vars ++ _)) = _
          rw [outerPairs_name hg, hvars]
      | some name =>
          show outerPairs (.name kind.keyword :: .name name :: (group vars ++ _)) = _
          rw [outerPairs_name (by simp [NoColon]), outerPairs_name hg, hvars]
  | fragment name on ds selections =>
      have hn : NoColon (nested selections ++ rest) := noColon_nested h
      simp only [Definition.tokens, Definition.aliases, Definition.selections, List.cons_append,
        List.append_assoc]
      rw [outerPairs_name (by simp [NoColon]), outerPairs_name (by simp [NoColon]),
        outerPairs_name (by simp [NoColon]), outerPairs_name (noColon_directives hn),
        outerPairs_directives hn, outerPairs_nested selections h]

/-- A document does not begin with a colon. -/
theorem noColon_tokens (doc : Document) : NoColon doc.tokens := by
  induction doc with
  | nil => simp [NoColon, Document.tokens, skeleton]
  | cons d doc ih => exact noColon_definition ih

/-- **The aliases of a document** are the names before a colon, outside of parentheses, each with
the name after it. -/
theorem outerPairs_tokens (doc : Document) : outerPairs doc.tokens = doc.aliases := by
  induction doc with
  | nil => rfl
  | cons d doc ih =>
      show outerPairs (d.tokens ++ Document.tokens doc) = d.aliases ++ Document.aliases doc
      rw [outerPairs_definition d (noColon_tokens doc), ih]

/-! ### No literal is outside of parentheses -/

/-- Outside of parentheses there is no literal. -/
def Plain (ts : List Token) : Prop := ∀ t ∈ skeleton 0 ts, t.isLiteral = false

/-- A group hides its literals. -/
theorem plain_group {g : Option Group} {rest : List Token} (h : Plain rest) :
    Plain (group g ++ rest) := by
  unfold Plain
  rw [skeleton_group]
  exact h

/-- Directives have literals in their groups only. -/
theorem plain_directives {ds : List Directive} {rest : List Token} (h : Plain rest) :
    Plain (directives ds ++ rest) := by
  induction ds with
  | nil => exact h
  | cons d ds ih =>
      have hg : Plain (group d.arguments ++ (directives ds ++ rest)) := plain_group ih
      simpa [Plain, directives, Directive.tokens, Token.isLiteral] using hg

/-- A type condition has none. -/
theorem plain_condition {on : Option Name} {rest : List Token} (h : Plain rest) :
    Plain (condition on ++ rest) := by
  cases on with
  | none => exact h
  | some type => simpa [Plain, condition, Token.isLiteral] using h

mutual

/-- A selection has none outside of its groups; by recursion on the selection. -/
theorem plain_selection (s : Selection) {rest : List Token} (h : Plain rest) :
    Plain (s.tokens ++ rest) := by
  cases s with
  | field aliased name arguments ds selections =>
      have hn : Plain (group arguments ++ (directives ds ++ (nested selections ++ rest))) :=
        plain_group (plain_directives (plain_nested selections h))
      cases aliased <;>
        simpa [Plain, Selection.tokens, aliasTokens, Token.isLiteral] using hn
  | spread fragment ds =>
      have hn : Plain (directives ds ++ rest) := plain_directives h
      simpa [Plain, Selection.tokens, Token.isLiteral] using hn
  | inline on ds selections =>
      have hn : Plain (condition on ++ (directives ds ++ (nested selections ++ rest))) :=
        plain_condition (plain_directives (plain_nested selections h))
      simpa [Plain, Selection.tokens, Token.isLiteral] using hn

/-- The same for a list of selections. -/
theorem plain_nested (ss : List Selection) {rest : List Token} (h : Plain rest) :
    Plain (nested ss ++ rest) := by
  cases ss with
  | nil => exact h
  | cons s ss =>
      have hs : Plain (s.tokens ++ (closed ss ++ rest)) := plain_selection s (plain_closed ss h)
      simpa [Plain, nested, Token.isLiteral] using hs

/-- The same for selections in braces. -/
theorem plain_closed (ss : List Selection) {rest : List Token} (h : Plain rest) :
    Plain (closed ss ++ rest) := by
  cases ss with
  | nil => simpa [Plain, closed, Token.isLiteral] using h
  | cons s ss =>
      rw [closed, List.append_assoc]
      exact plain_selection s (plain_closed ss h)

end

/-- The default values of variables are parenthesised as well. -/
theorem plain_definition (d : Definition) {rest : List Token} (h : Plain rest) :
    Plain (d.tokens ++ rest) := by
  cases d with
  | shorthand selections => exact plain_nested selections h
  | operation kind name vars ds selections =>
      have hn : Plain (group vars ++ (directives ds ++ (nested selections ++ rest))) :=
        plain_group (plain_directives (plain_nested selections h))
      cases name <;> simpa [Plain, Definition.tokens, Token.isLiteral] using hn
  | fragment name on ds selections =>
      have hn : Plain (directives ds ++ (nested selections ++ rest)) :=
        plain_directives (plain_nested selections h)
      simpa [Plain, Definition.tokens, Token.isLiteral] using hn

/-- No document has a literal outside of parentheses. -/
theorem plain_tokens (doc : Document) : Plain doc.tokens := by
  induction doc with
  | nil => simp [Plain, Document.tokens, skeleton]
  | cons d doc ih => exact plain_definition d ih

/-! ### Texts -/

/-- How a comment ends.  The last one of a text can end with it. -/
inductive LineEnd
  | newline | carriageReturn | both | text
  deriving DecidableEq

/-- The characters that end a line. -/
def LineEnd.chars : LineEnd → List Char
  | newline => ['\n']
  | carriageReturn => ['\r']
  | both => ['\r', '\n']
  | text => []

/-- The characters between tokens. -/
def blankChar (c : Char) : Bool := c == ' ' || c == '\t' || c == '\n' || c == '\r'

/-- The characters of a comment. -/
def commentChar (c : Char) : Bool := c != '\n' && c != '\r'

/-- A token, or something between tokens that says nothing. -/
inductive Lexeme
  | token (t : Token)
  | blank (c : Char) (hc : blankChar c = true)
  | comma
  | byteOrderMark
  | comment (text : List Char) (htext : text.all commentChar = true) (ending : LineEnd)

namespace Lexeme

/-- The text of a lexeme. -/
def text : Lexeme → List Char
  | token t => t.text
  | blank c _ => [c]
  | comma => [',']
  | byteOrderMark => [Char.ofNat 0xFEFF]
  | comment text _ ending => '#' :: text ++ ending.chars

/-- The token of a lexeme, unless it is blank. -/
def toToken : Lexeme → Option Token
  | token t => some t
  | _ => none

/-- Is it a name? -/
def isName : Lexeme → Bool
  | token t => t.isName
  | _ => false

/-- Is it a blank? -/
def isBlank : Lexeme → Bool
  | blank _ _ => true
  | _ => false

/-- Is it a colon? -/
def isColon : Lexeme → Bool
  | token t => t == .punct .colon
  | _ => false

/-- A comma or a byte order mark. -/
def isMark : Lexeme → Bool
  | comma | byteOrderMark => true
  | _ => false

end Lexeme

/-- The text of a list of lexemes. -/
def textOf (ls : List Lexeme) : List Char := ls.flatMap Lexeme.text

/-- The tokens among them. -/
def tokensOf (ls : List Lexeme) : List Token := ls.filterMap Lexeme.toToken

@[simp] theorem textOf_cons (l : Lexeme) (ls : List Lexeme) : textOf (l :: ls) = l.text ++ textOf ls :=
  List.flatMap_cons

@[simp] theorem textOf_append (ls ls' : List Lexeme) : textOf (ls ++ ls') = textOf ls ++ textOf ls' :=
  List.flatMap_append

@[simp] theorem tokensOf_append (ls ls' : List Lexeme) :
    tokensOf (ls ++ ls') = tokensOf ls ++ tokensOf ls' :=
  List.filterMap_append

@[simp] theorem tokensOf_token (t : Token) (ls : List Lexeme) :
    tokensOf (.token t :: ls) = t :: tokensOf ls := rfl

end GraphqlSyntax
