/-
OpenSsp/AliasedResponse.lean

The response under the keys that the document asks for.

The resolvers answer under the names of the fields.  `applyQueryAliases` adds each field of each
object once more under every alias that the document has for it, anywhere, unless the object has
that key already.  So nothing of the answer is lost (`answer_kept`), and a client that follows its
own selections through the response finds what the resolver gave for them, as long as its aliases
mean one field each and are not keys of the answer.

Main result: `selected_readable`.
-/
import OpenSsp.Aliases

namespace OpenSsp.Aliases

open GraphqlSyntax

/-! ### `apply_aliases_to_value` -/

/-- A JSON value; what is neither an object nor an array is a leaf. -/
inductive Value (α : Type) where
  | leaf (a : α)
  | array (values : List (Value α))
  | object (map : List (String × Value α))

variable {α : Type}

def addAlias (map : List (String × Value α)) (pair : String × String) : List (String × Value α) :=
  match map.lookup pair.2 with
  | some val => if (map.lookup pair.1).isNone then map ++ [(pair.1, val)] else map
  | none => map

/-- The object with its aliases. -/
def addAliases (aliases : List (String × String)) (map : List (String × Value α)) :
    List (String × Value α) := aliases.foldl addAlias map

theorem mem_addAlias {map : List (String × Value α)} {pair : String × String} {x : String × Value α}
    (h : x ∈ addAlias map pair) : ∃ key, (key, x.2) ∈ map := by
  unfold addAlias at h
  split at h
  · rename_i val hval
    split at h
    · rcases List.mem_append.mp h with h | h
      · exact ⟨x.1, h⟩
      · obtain rfl := List.mem_singleton.mp h
        obtain ⟨l, l', hmap, -⟩ := List.lookup_eq_some_iff.mp hval
        exact ⟨pair.2, by simp [hmap]⟩
    · exact ⟨x.1, h⟩
  · exact ⟨x.1, h⟩

/-- What is added is there already. -/
theorem mem_addAliases {aliases : List (String × String)} {map : List (String × Value α)}
    {x : String × Value α} (h : x ∈ addAliases aliases map) : ∃ key, (key, x.2) ∈ map := by
  induction aliases generalizing map with
  | nil => exact ⟨x.1, h⟩
  | cons pair aliases ih =>
      obtain ⟨key, hkey⟩ : ∃ key, (key, x.2) ∈ addAlias map pair := ih h
      exact mem_addAlias (x := (key, x.2)) hkey

def applyAliasesToValue (aliases : List (String × String)) : Value α → Value α
  | .leaf a => .leaf a
  | .array values => .array (values.attach.map fun x => applyAliasesToValue aliases x.1)
  | .object map =>
      .object ((addAliases aliases map).attach.map fun x =>
        (x.1.1, applyAliasesToValue aliases x.1.2))
termination_by v => sizeOf v
decreasing_by
  · have := List.sizeOf_lt_of_mem x.2
    simp only [Value.array.sizeOf_spec]
    omega
  · obtain ⟨key, hkey⟩ := mem_addAliases x.2
    have := List.sizeOf_lt_of_mem hkey
    simp only [Prod.mk.sizeOf_spec, Value.object.sizeOf_spec] at this ⊢
    omega

def applyQueryAliases (data : Value α) (query : String) : Value α :=
  applyAliasesToValue (collectAliases query) data

theorem applyAliasesToValue_array (aliases : List (String × String)) (values : List (Value α)) :
    applyAliasesToValue aliases (.array values) =
      .array (values.map (applyAliasesToValue aliases)) := by
  simp [applyAliasesToValue]

theorem applyAliasesToValue_object (aliases : List (String × String))
    (map : List (String × Value α)) :
    applyAliasesToValue aliases (.object map) = .object ((addAliases aliases map).map fun x =>
      (x.1, applyAliasesToValue aliases x.2)) := by
  rw [applyAliasesToValue, List.attach_map_val (f := fun x : String × Value α =>
    (x.1, applyAliasesToValue aliases x.2))]

/-! ### The keys of one object -/

theorem addAlias_keeps (map : List (String × Value α)) (pair : String × String) :
    map <+: addAlias map pair := by
  unfold addAlias
  split
  · split
    · exact List.prefix_append _ _
    · exact List.prefix_rfl
  · exact List.prefix_rfl

theorem addAliases_keeps (aliases : List (String × String)) (map : List (String × Value α)) :
    map <+: addAliases aliases map := by
  induction aliases generalizing map with
  | nil => exact List.prefix_rfl
  | cons pair aliases ih => exact (addAlias_keeps map pair).trans (ih _)

/-- Nothing is overwritten. -/
theorem lookup_kept {aliases : List (String × String)} {map : List (String × Value α)}
    {key : String} {v : Value α} (h : map.lookup key = some v) :
    (addAliases aliases map).lookup key = some v :=
  (addAliases_keeps aliases map).lookup_eq_some h

/-- The alias means one field. -/
def Means (aliases : List (String × String)) (key name : String) : Prop :=
  ∀ field, (key, field) ∈ aliases → field = name

/-- Under an alias of one field the object has that field, or what it had there before. -/
theorem lookup_addAlias {map : List (String × Value α)} {pair : String × String} {key name : String}
    {v : Value α} (hm : pair.1 = key → pair.2 = name) (hname : map.lookup name = some v)
    (hkey : map.lookup key = none ∨ map.lookup key = some v) :
    (addAlias map pair).lookup key = none ∨ (addAlias map pair).lookup key = some v := by
  obtain ⟨a, f⟩ := pair
  rcases hkey with hkey | hkey
  · unfold addAlias
    split
    · rename_i val hval
      split
      · by_cases ha : a = key
        · subst ha
          obtain rfl : f = name := hm rfl
          right
          rw [List.lookup_append, hkey]
          rw [hname] at hval
          cases hval
          simp
        · left
          rw [List.lookup_append, hkey]
          have ha' : (key == a) = false := by simpa using Ne.symm ha
          simp [List.lookup_cons, ha']
      · exact .inl hkey
    · exact .inl hkey
  · exact .inr ((addAlias_keeps map (a, f)).lookup_eq_some hkey)

theorem lookup_aliased {aliases : List (String × String)} {map : List (String × Value α)}
    {key name : String} {v : Value α} (hmem : (key, name) ∈ aliases) (hm : Means aliases key name)
    (hname : map.lookup name = some v) (hkey : map.lookup key = none ∨ map.lookup key = some v) :
    (addAliases aliases map).lookup key = some v := by
  induction aliases generalizing map with
  | nil => cases hmem
  | cons pair aliases ih =>
      have hm' : Means aliases key name := fun field h => hm field (List.mem_cons_of_mem _ h)
      have hpair : pair.1 = key → pair.2 = name := by
        rintro rfl
        exact hm pair.2 List.mem_cons_self
      have hname' := (addAlias_keeps map pair).lookup_eq_some hname
      have hkey' := lookup_addAlias hpair hname hkey
      show (addAliases aliases (addAlias map pair)).lookup key = some v
      rcases List.mem_cons.mp hmem with rfl | hmem
      · -- the alias itself is added here, unless it is there
        refine lookup_kept ?_
        rcases hkey with hkey | hkey
        · simp [addAlias, hname, hkey, List.lookup_append]
        · exact (addAlias_keeps map _).lookup_eq_some hkey
      · exact ih hmem hm' hname' hkey'

/-! ### The paths of a document -/

/-- A step into a value: from an object by a field, with the key that the document gives it, or from
an array by the place in it. -/
inductive Hop where
  | field (key name : String)
  | element (i : Nat)

/-- What a path leads to, with the keys of objects chosen from its fields. -/
def read (choose : String → String → String) : Value α → List Hop → Option (Value α)
  | v, [] => some v
  | .object map, .field key name :: hops =>
      (map.lookup (choose key name)).bind fun v => read choose v hops
  | .array values, .element i :: hops => values[i]?.bind fun v => read choose v hops
  | _, _ => none

/-- The answer of the resolver, by the names of its fields. -/
def byName : Value α → List Hop → Option (Value α) := read fun _ name => name

/-- The response, by the keys of the document. -/
def byKey : Value α → List Hop → Option (Value α) := read fun key _ => key

/-- No object on the path has a key of its own that is an alias for another one. -/
def Clear : Value α → List Hop → Prop
  | _, [] => True
  | v, .field key name :: hops => ∀ map, v = .object map →
      (key ≠ name → map.lookup key = none) ∧ ∀ w, map.lookup name = some w → Clear w hops
  | v, .element i :: hops => ∀ values w, v = .array values → values[i]? = some w → Clear w hops

theorem lookup_map (f : Value α → Value α) (map : List (String × Value α)) (key : String) :
    (map.map fun x => (x.1, f x.2)).lookup key = (map.lookup key).map f := by
  induction map with
  | nil => rfl
  | cons x map ih =>
      rw [List.map_cons, List.lookup_cons, List.lookup_cons, ih]
      split <;> rfl

/-- **Nothing of the answer is overwritten**: what is found in it by its own keys is found in the
response by the same ones. -/
theorem answer_kept {aliases : List (String × String)} {hops : List Hop} {data v : Value α}
    (h : byKey data hops = some v) :
    byKey (applyAliasesToValue aliases data) hops = some (applyAliasesToValue aliases v) := by
  induction hops generalizing data with
  | nil =>
      obtain rfl : data = v := by simpa [byKey, read] using h
      simp [byKey, read]
  | cons hop hops ih =>
      cases hop with
      | field key name =>
          cases data with
          | leaf a => cases h
          | array values => cases h
          | object map =>
              obtain ⟨u, hu, h⟩ : ∃ u, map.lookup key = some u ∧ byKey u hops = some v :=
                Option.bind_eq_some_iff.mp h
              rw [applyAliasesToValue_object]
              show (List.lookup key _).bind _ = _
              -- an added key is never one that was there
              rw [lookup_map, lookup_kept hu]
              exact ih h
      | element i =>
          cases data with
          | leaf a => cases h
          | object map => cases h
          | array values =>
              obtain ⟨u, hu, h⟩ : ∃ u, values[i]? = some u ∧ byKey u hops = some v :=
                Option.bind_eq_some_iff.mp h
              rw [applyAliasesToValue_array]
              show ((values.map _)[i]?).bind _ = _
              rw [List.getElem?_map, hu]
              exact ih h

/-- A path is followed by its keys in the response where it is followed by its names in the
answer. -/
theorem read_applied {aliases : List (String × String)} {hops : List Hop} {data w : Value α}
    (halias : ∀ key name, .field key name ∈ hops → key ≠ name →
      (key, name) ∈ aliases ∧ Means aliases key name)
    (hclear : Clear data hops) (hw : byName data hops = some w) :
    byKey (applyAliasesToValue aliases data) hops = some (applyAliasesToValue aliases w) := by
  induction hops generalizing data with
  | nil =>
      obtain rfl : data = w := by simpa [byName, read] using hw
      simp [byKey, read]
  | cons hop hops ih =>
      have halias' : ∀ key name, .field key name ∈ hops → key ≠ name →
          (key, name) ∈ aliases ∧ Means aliases key name :=
        fun key name h => halias key name (List.mem_cons_of_mem _ h)
      cases hop with
      | field key name =>
          -- a hop reads only the kind of value it belongs to
          cases data with
          | leaf a => cases hw
          | array values => cases hw
          | object map =>
              obtain ⟨hkey, hnext⟩ := hclear map rfl
              obtain ⟨v, hv, hw⟩ : ∃ v, map.lookup name = some v ∧ byName v hops = some w :=
                Option.bind_eq_some_iff.mp hw
              have hadd : (addAliases aliases map).lookup key = some v := by
                -- a field without an alias stays, one with an alias is added under it
                by_cases hk : key = name
                · subst hk
                  exact lookup_kept hv
                · obtain ⟨hmem, hmeans⟩ := halias key name List.mem_cons_self hk
                  exact lookup_aliased hmem hmeans hv (.inl (hkey hk))
              rw [applyAliasesToValue_object]
              show (List.lookup key _).bind _ = _
              rw [lookup_map, hadd]
              exact ih halias' (hnext v hv) hw
      | element i =>
          cases data with
          | leaf a => cases hw
          | object map => cases hw
          | array values =>
              obtain ⟨v, hv, hw⟩ : ∃ v, values[i]? = some v ∧ byName v hops = some w :=
                Option.bind_eq_some_iff.mp hw
              rw [applyAliasesToValue_array]
              show ((values.map _)[i]?).bind _ = _
              rw [List.getElem?_map, hv]
              exact ih halias' (hclear values v rfl hv) hw

/-- The step by a field that is selected, under its alias if it has one. -/
def hop (aliased : Option Name) (name : Name) : Hop :=
  .field (String.ofList (aliased.getD name).text) (String.ofList name.text)

/-- The selections lead to this path: through a field and the places of its lists, through a
fragment that stands there, or through one of the document that is spread there. -/
inductive Selects (doc : Document) : List Selection → List Hop → Prop
  | field {ss : List Selection} (aliased : Option Name) (name : Name) (arguments : Option Group)
      (ds : List Directive) (sub : List Selection) (places : List Nat)
      (hmem : .field aliased name arguments ds sub ∈ ss) :
      Selects doc ss (hop aliased name :: places.map .element)
  | nested {ss : List Selection} {hops : List Hop} (aliased : Option Name) (name : Name)
      (arguments : Option Group) (ds : List Directive) (sub : List Selection) (places : List Nat)
      (hmem : .field aliased name arguments ds sub ∈ ss) (hsub : Selects doc sub hops) :
      Selects doc ss (hop aliased name :: (places.map .element ++ hops))
  | inline {ss : List Selection} {hops : List Hop} (on : Option Name) (ds : List Directive)
      (sub : List Selection) (hmem : .inline on ds sub ∈ ss) (hsub : Selects doc sub hops) :
      Selects doc ss hops
  | spread {ss : List Selection} {hops : List Hop} (fragment on : Name) (ds ds' : List Directive)
      (sub : List Selection) (hmem : .spread fragment ds ∈ ss)
      (hdoc : .fragment fragment on ds' sub ∈ doc) (hsub : Selects doc sub hops) :
      Selects doc ss hops

/-- Each alias of the document means one field, none is the name of the type, and there are not too
many. -/
structure Unambiguous (doc : Document) : Prop where
  means : ∀ p ∈ doc.aliases, ∀ q ∈ doc.aliases, p.1 = q.1 → p.2 = q.2
  typename : ∀ p ∈ doc.aliases, p.1.text ≠ "__typename".toList
  few : (renamed doc).length ≤ maxAliases

theorem ofList_text {a b : Name} (h : String.ofList a.text = String.ofList b.text) : a = b :=
  Name.text_inj.mp (String.ofList_injective h)

theorem mem_aliases {doc : Document} {d : Definition} (hd : d ∈ doc) {p : Name × Name}
    (hp : p ∈ selectionAliases d.selections) : p ∈ doc.aliases :=
  List.mem_flatMap.mpr ⟨d, hd, hp⟩

/-- A step under another key is by an alias of the document. -/
theorem Selects.aliases {doc : Document} {ss : List Selection} {hops : List Hop}
    (h : Selects doc ss hops) (hss : ∀ p ∈ selectionAliases ss, p ∈ doc.aliases) {key name : String}
    (hmem : .field key name ∈ hops) (hne : key ≠ name) :
    ∃ p ∈ doc.aliases, texts p = (key, name) := by
  -- a field's own hop has its alias among the selection's
  have here : ∀ {aliased name'}, (∀ p ∈ aliasOf aliased name', p ∈ doc.aliases) →
      Hop.field key name = hop aliased name' → ∃ p ∈ doc.aliases, texts p = (key, name) := by
    intro aliased name' hsub heq
    obtain ⟨rfl, rfl⟩ := Hop.field.inj heq
    cases aliased with
    | none => exact absurd rfl hne
    | some a => exact ⟨(a, name'), hsub _ List.mem_cons_self, rfl⟩
  -- the places in a list are no fields
  have nowhere : ∀ {places : List Nat}, Hop.field key name ∉ places.map Hop.element := by
    intro places hin
    obtain ⟨i, -, hi⟩ := List.mem_map.mp hin
    cases hi
  -- the aliases of a part are aliases of the whole document
  induction h with
  | field aliased name' arguments ds sub places hsel =>
      rcases List.mem_cons.mp hmem with heq | hin
      · refine here (fun p hp => hss p (mem_selectionAliases hsel ?_)) heq
        rw [Selection.aliases]
        exact List.mem_append_left _ hp
      · exact absurd hin nowhere
  | nested aliased name' arguments ds sub places hsel hsub ih =>
      rcases List.mem_cons.mp hmem with heq | hin
      · refine here (fun p hp => hss p (mem_selectionAliases hsel ?_)) heq
        rw [Selection.aliases]
        exact List.mem_append_left _ hp
      · rcases List.mem_append.mp hin with hin | hin
        · exact absurd hin nowhere
        · refine ih (fun p hp => hss p (mem_selectionAliases hsel ?_)) hin
          rw [Selection.aliases]
          exact List.mem_append_right _ hp
  | inline on ds sub hsel hsub ih =>
      refine ih (fun p hp => hss p (mem_selectionAliases hsel ?_)) hmem
      rw [Selection.aliases]
      exact hp
  | spread fragment on ds ds' sub hsel hdoc hsub ih =>
      exact ih (fun p hp => mem_aliases hdoc hp) hmem

/-- **What a document selects is in the response** under the keys that the document asks for, as the
resolver answered it, and so is everything else of the answer under its own. -/
theorem selected_readable {doc : Document} {ls : List Lexeme} (htokens : tokensOf ls = doc.tokens)
    (hr : Readable ls) (hu : Unambiguous doc) {d : Definition} (hd : d ∈ doc) {hops : List Hop}
    (hs : Selects doc d.selections hops) {data w : Value α} (hclear : Clear data hops)
    (hw : byName data hops = some w) :
    byKey (applyQueryAliases data (String.ofList (textOf ls))) hops =
      some (applyQueryAliases w (String.ofList (textOf ls))) ∧
    ∀ path v, byKey data path = some v →
      byKey (applyQueryAliases data (String.ofList (textOf ls))) path =
        some (applyQueryAliases v (String.ofList (textOf ls))) := by
  have hcollected : collectAliases (String.ofList (textOf ls)) = renamed doc := by
    rw [collectAliases_textOf htokens hr.legible, collect_aliases, List.take_of_length_le hu.few]
  refine ⟨read_applied (fun key name hmem hne => ?_) hclear hw, fun path v hv => answer_kept hv⟩
  obtain ⟨⟨a, f⟩, hp, heq⟩ := hs.aliases (fun p hp => mem_aliases hd hp) hmem hne
  obtain ⟨rfl, rfl⟩ := Prod.mk.inj heq
  have hren : renames (a, f) = true :=
    decide_eq_true ⟨hu.typename _ hp, fun haf => hne (by rw [show a = f from haf])⟩
  rw [hcollected]
  have hlisted : (a, f) ∈ doc.aliases.filter renames := List.mem_filter.mpr ⟨hp, hren⟩
  refine ⟨List.mem_eraseDups.mpr (List.mem_map.mpr ⟨(a, f), hlisted, rfl⟩), ?_⟩
  intro field hfield
  obtain ⟨⟨a', f'⟩, hq, heq'⟩ := List.mem_map.mp (List.mem_eraseDups.mp hfield)
  obtain ⟨ha, rfl⟩ := Prod.mk.inj heq'
  have haa : a' = a := ofList_text ha
  rw [hu.means _ (List.mem_filter.mp hq).1 _ hp haa]

/-- `e` is read where the resolver answered `f`, and `b` where it answered `b`. -/
theorem selected_readable_field :
    byKey (applyQueryAliases (.object [("b", .leaf 1), ("f", .leaf 2)])
        (String.ofList (textOf Sample.lexemes))) [.field "e" "f"] =
      some (applyQueryAliases (.leaf 2) (String.ofList (textOf Sample.lexemes))) ∧
    byKey (applyQueryAliases (.object [("b", .leaf 1), ("f", .leaf 2)])
        (String.ofList (textOf Sample.lexemes))) [.field "b" "b"] =
      some (applyQueryAliases (.leaf 1) (String.ofList (textOf Sample.lexemes))) := by
  have hclear : Clear (.object [("b", .leaf 1), ("f", .leaf 2)] : Value Nat) [.field "e" "f"] := by
    intro map hmap
    cases hmap
    exact ⟨fun _ => rfl, fun w _ => trivial⟩
  have hread := selected_readable
    (show tokensOf Sample.lexemes = Document.tokens Sample.document from rfl)
    ⟨by decide, by decide, by decide⟩ ⟨by decide, by decide, by decide⟩ List.mem_cons_self
    (.field (some (Sample.name 'e')) (Sample.name 'f') none [] [] []
      (by simp [Definition.selections])) hclear rfl
  exact ⟨hread.1, hread.2 [.field "b" "b"] (.leaf 1) rfl⟩

end OpenSsp.Aliases
