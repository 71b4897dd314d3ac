/-
OpenSsp/Lib/History.lean

What a program can know from its own history, and how knowledge survives the calls it
makes.

* `Since q e h`: `e` is in `h`, and everything newer satisfies `q`.  With `q` true
  this is membership; with `q` "does not touch x" it says that `e` is still up to date
  about `x` as far as the program itself is concerned.
* `Extends q h h'`: `h'` is `h` plus events that satisfy `q`: the footprint of a
  function.

`Act.Spec P q x R h` puts the two together: run after `h`, the action `x` obeys the
contract `P`, adds only events satisfying `q` however it ends, and a result satisfies
`R`.

Main results: `Since.after` (what a footprint does not touch stays known) and one rule
for each way of building an action (`Spec.bind`, `Spec.ask`, `Spec.attempt`,
`Spec.bracket`, `Spec.forEach`).
-/
import OpenSsp.Lib.Prog

namespace Interleave

variable {I : Interface} {α β ε : Type}

/-! ### Knowledge and footprints -/

/-- `e` is in the history, and everything newer satisfies `q`. -/
def Since (q : Event I → Prop) (e : Event I) (h : History I) : Prop :=
  ∃ newer older, h = newer ++ e :: older ∧ ∀ x ∈ newer, q x

/-- The history grew by events that satisfy `q`. -/
def Extends (q : Event I → Prop) (h h' : History I) : Prop :=
  ∃ newer, h' = newer ++ h ∧ ∀ x ∈ newer, q x

variable {p q : Event I → Prop} {e x : Event I} {h h₁ h₂ h₃ : History I}

namespace Extends

theorem refl (h : History I) : Extends q h h := ⟨[], rfl, by simp⟩

/-- Growth is transitive; the newer part is put in front. -/
theorem trans (h₁₂ : Extends q h₁ h₂) (h₂₃ : Extends q h₂ h₃) : Extends q h₁ h₃ := by
  obtain ⟨a, rfl, ha⟩ := h₁₂
  obtain ⟨b, rfl, hb⟩ := h₂₃
  refine ⟨b ++ a, by simp, fun x hx => ?_⟩
  rcases List.mem_append.mp hx with hx | hx
  · exact hb x hx
  · exact ha x hx

/-- It grows by one event. -/
theorem cons (h₁₂ : Extends q h₁ h₂) (hx : q x) : Extends q h₁ (x :: h₂) := by
  obtain ⟨a, rfl, ha⟩ := h₁₂
  refine ⟨x :: a, rfl, fun y hy => ?_⟩
  rcases List.mem_cons.mp hy with rfl | hy
  · exact hx
  · exact ha y hy

/-- By a single event from the start. -/
theorem one (hx : q x) : Extends q h (x :: h) := (refl h).cons hx

/-- A weaker condition on the events. -/
theorem mono (h₁₂ : Extends p h₁ h₂) (hpq : ∀ x, p x → q x) : Extends q h₁ h₂ := by
  obtain ⟨a, rfl, ha⟩ := h₁₂
  exact ⟨a, rfl, fun x hx => hpq x (ha x hx)⟩

/-- What was there is still there. -/
theorem mem (h₁₂ : Extends q h₁ h₂) (he : e ∈ h₁) : e ∈ h₂ := by
  obtain ⟨a, rfl, -⟩ := h₁₂
  exact List.mem_append_right a he

end Extends

namespace Since

theorem mem (hs : Since q e h) : e ∈ h := by
  obtain ⟨a, b, rfl, -⟩ := hs
  simp

/-- The newest event is since itself. -/
theorem here : Since q e (e :: h) := ⟨[], h, rfl, by simp⟩

/-- It is pushed back by an event that satisfies the condition. -/
theorem cons (hs : Since q e h) (hx : q x) : Since q e (x :: h) := by
  obtain ⟨a, b, rfl, ha⟩ := hs
  refine ⟨x :: a, b, rfl, fun y hy => ?_⟩
  rcases List.mem_cons.mp hy with rfl | hy
  · exact hx
  · exact ha y hy

/-- What a footprint does not touch stays known. -/
theorem after (hs : Since q e h₁) (h₁₂ : Extends q h₁ h₂) : Since q e h₂ := by
  obtain ⟨a, b, rfl, ha⟩ := hs
  obtain ⟨c, rfl, hc⟩ := h₁₂
  refine ⟨c ++ a, b, by simp, fun y hy => ?_⟩
  rcases List.mem_append.mp hy with hy | hy
  · exact hc y hy
  · exact ha y hy

/-- A weaker condition on what came after. -/
theorem mono (hs : Since p e h) (hpq : ∀ x, p x → q x) : Since q e h := by
  obtain ⟨a, b, rfl, ha⟩ := hs
  exact ⟨a, b, rfl, fun x hx => hpq x (ha x hx)⟩

/-- Knowledge after one more event: the event itself, or older and untouched. -/
theorem cons_iff : Since q e (x :: h) ↔ x = e ∨ (q x ∧ Since q e h) := by
  constructor
  · rintro ⟨a, b, hab, ha⟩
    cases a with
    | nil => exact .inl (List.cons.inj hab).1
    | cons y a =>
        obtain ⟨rfl, rfl⟩ := List.cons.inj hab
        exact .inr ⟨ha x (by simp), a, b, rfl, fun z hz => ha z (by simp [hz])⟩
  · rintro (rfl | ⟨hx, hs⟩)
    · exact here
    · exact hs.cons hx

/-- Nothing has happened in the empty history. -/
theorem nil : ¬ Since q e [] := by
  rintro ⟨a, b, hab, -⟩
  simp at hab

end Since

/-! ### Specifications of actions -/

/-- The action obeys the contract, its footprint is `q`, and a result satisfies `R`. -/
structure Act.Spec (P : History I → I.Call → Prop) (q : Event I → Prop) (x : Act I ε α)
    (R : α → History I → Prop) (h : History I) : Prop where
  wp : Act.wp P x (fun a h' => Extends q h h' ∧ R a h') (fun _ h' => Extends q h h') h

namespace Act.Spec

variable {P : History I → I.Call → Prop} {R S : α → History I → Prop}

/-- The condition on events and the result are weakened together. -/
theorem mono {act : Act I ε α} (hx : Spec P p act R h) (hpq : ∀ x, p x → q x)
    (hRS : ∀ a h', Extends p h h' → R a h' → S a h') : Spec P q act S h :=
  ⟨Act.wp_mono hx.wp (fun a h' ⟨he, hr⟩ => ⟨he.mono hpq, hRS a h' he hr⟩)
    fun _ _ he => he.mono hpq⟩

/-- Forget what is known about the result. -/
theorem weaken {act : Act I ε α} (hx : Spec P p act R h) (hpq : ∀ x, p x → q x) :
    Spec P q act (fun _ _ => True) h := hx.mono hpq fun _ _ _ _ => trivial

/-- What obeys a contract obeys every weaker one. -/
theorem contract {P' : History I → I.Call → Prop} {act : Act I ε α} (hx : Spec P q act R h)
    (hP : ∀ h c, P h c → P' h c) : Spec P' q act R h := ⟨Prog.wp_contract hP hx.wp⟩

/-- A value leaves the history. -/
theorem pure {a : α} (ha : R a h) : Spec P q (Pure.pure a : Act I ε α) R h :=
  ⟨(Act.wp_pure a).mpr ⟨.refl h, ha⟩⟩

/-- An error has no result to speak of. -/
theorem throw {e : ε} : Spec P q (MonadExcept.throw e : Act I ε α) R h :=
  ⟨(Act.wp_throw e).mpr (.refl h)⟩

/-- The second part begins with the history that the first one leaves. -/
theorem bind {act : Act I ε α} {f : α → Act I ε β} {T : β → History I → Prop}
    (hx : Spec P q act R h)
    (hf : ∀ a h', Extends q h h' → R a h' → Spec P q (f a) T h') :
    Spec P q (act >>= f) T h := by
  refine ⟨(Act.wp_bind act f).mpr (Act.wp_mono hx.wp ?_ fun _ _ he => he)⟩
  rintro a h' ⟨he, hr⟩
  exact Act.wp_mono (hf a h' he hr).wp (fun b h'' ⟨he', ht⟩ => ⟨he.trans he', ht⟩)
    fun _ h'' he' => he.trans he'

/-- A function of the result needs no event. -/
theorem map {act : Act I ε α} {f : α → β} {T : β → History I → Prop}
    (hx : Spec P q act R h) (hT : ∀ a h', Extends q h h' → R a h' → T (f a) h') :
    Spec P q (f <$> act) T h := by
  rw [map_eq_pure_bind f act]
  exact hx.bind fun a h' he hr => pure (hT a h' he hr)

/-- The result is forgotten. -/
theorem discard {act : Act I ε α} (hx : Spec P q act R h) :
    Spec P q (Functor.discard act) (fun _ _ => True) h :=
  show Spec P q ((fun _ => ()) <$> act) _ h from hx.map fun _ _ _ _ => trivial

/-- One call is allowed by the contract, and its event is the newest one. -/
theorem ask {c : I.Call} {conv : I.Reply c → Except ε α} (hc : P h c)
    (hq : ∀ r, q ⟨c, r⟩) (hR : ∀ r a, conv r = .ok a → R a (⟨c, r⟩ :: h)) :
    Spec P q (Act.ask c conv) R h := by
  refine ⟨(Act.wp_ask c conv).mpr ⟨hc, fun r => ?_⟩⟩
  rcases hr : conv r with e | a
  · exact .one (hq r)
  · exact ⟨.one (hq r), hR r a hr⟩

/-- The same for a call that cannot fail. -/
theorem tell {c : I.Call} {R : I.Reply c → History I → Prop} (hc : P h c)
    (hq : ∀ r, q ⟨c, r⟩) (hR : ∀ r, R r (⟨c, r⟩ :: h)) :
    Spec P q (Act.tell c : Act I ε _) R h :=
  ⟨(Act.wp_tell c).mpr ⟨hc, fun r => ⟨.one (hq r), hR r⟩⟩⟩

/-- The exact rules: what the history is afterwards. -/
theorem ask_eq {c : I.Call} {conv : I.Reply c → Except ε α} (hc : P h c) (hq : ∀ r, q ⟨c, r⟩) :
    Spec P q (Act.ask c conv) (fun a h' => ∃ r, conv r = .ok a ∧ h' = ⟨c, r⟩ :: h) h :=
  ask hc hq fun r _ hr => ⟨r, hr, rfl⟩

/-- With the reply itself as result. -/
theorem tell_eq {c : I.Call} (hc : P h c) (hq : ∀ r, q ⟨c, r⟩) :
    Spec P q (Act.tell c : Act I ε _) (fun r h' => h' = ⟨c, r⟩ :: h) h := tell hc hq fun _ => rfl

/-- What the outcome of an attempt says: a value satisfies `R`. -/
theorem attempt {act : Act I ε α} (hx : Spec P q act R h) :
    Spec P q (Act.attempt act)
      (fun r h' => ∀ a, r = .ok a → R a h') h := by
  refine ⟨(Act.wp_attempt act).mpr (Act.wp_mono hx.wp ?_ ?_)⟩
  · rintro a h' ⟨he, hr⟩
    refine ⟨he, ?_⟩
    rintro b ⟨⟩
    exact hr
  · intro e h' he
    refine ⟨he, ?_⟩
    rintro b ⟨⟩

/-- A pure function that fails ends the action. -/
theorem ofExcept {r : Except ε α} (hR : ∀ a, r = .ok a → R a h) :
    Spec P q (Act.ofExcept r) R h := by
  rcases r with e | a
  · exact throw
  · exact pure (hR a rfl)

/-- Its value, and the history as it was. -/
theorem ofExcept_eq {r : Except ε α} :
    Spec P q (Act.ofExcept r) (fun a h' => r = .ok a ∧ h' = h) h := ofExcept fun _ ha => ⟨ha, rfl⟩

/-- A check that ends the function with an error. -/
theorem guard {c : Prop} [Decidable c] {e : ε} {k : Unit → Act I ε α}
    (hk : ¬ c → Spec P q (k ()) R h) :
    Spec P q (if c then (MonadExcept.throw e : Act I ε Unit) >>= k else k ()) R h := by
  by_cases hc : c
  · rw [if_pos hc]
    exact bind (R := fun _ _ => False) throw fun _ _ _ hf => hf.elim
  · rw [if_neg hc]
    exact hk hc

/-- Each branch has the condition at its disposal. -/
theorem ite {c : Prop} [Decidable c] {x y : Act I ε α} (hx : c → Spec P q x R h)
    (hy : ¬ c → Spec P q y R h) : Spec P q (if c then x else y) R h := by
  by_cases hc : c
  · rw [if_pos hc]
    exact hx hc
  · rw [if_neg hc]
    exact hy hc

/-- The text of an error plays no part. -/
theorem mapErr {f : ε → ε} {act : Act I ε α} (hx : Spec P q act R h) :
    Spec P q (Act.mapErr f act) R h := by
  refine bind hx.attempt fun r h' _ hr => ?_
  rcases r with e | a
  · exact throw
  · exact pure (hr a rfl)

/-- What the body establishes and the last action keeps holds after the bracket. -/
theorem bracket {take give : Act I ε Unit} {body : Act I ε α} {T : Unit → History I → Prop}
    (htake : Spec P q take T h)
    (hbody : ∀ h', Extends q h h' → T () h' → Spec P q body R h')
    (hgive : ∀ h', Extends q h h' →
      Spec P q give (fun _ h'' => ∀ a, R a h' → R a h'') h') :
    Spec P q (Act.bracket take give body) R h := by
  refine bind htake fun _ h₁ he₁ ht => ?_
  refine bind (hbody h₁ he₁ ht).attempt fun r h₂ he₂ hr => ?_
  refine bind (hgive h₂ (he₁.trans he₂)) fun _ h₃ _ hg => ?_
  exact ofExcept fun a ha => hg a (hr a ha)

/-- Loop rule: what the body needs is known at the start and stays known. -/
theorem forEach {body : α → Act I ε Unit} {as : List α} {K : α → History I → Prop}
    (hbody : ∀ a ∈ as, ∀ h', Extends q h h' → K a h' →
      Spec P q (body a) (fun _ _ => True) h')
    (hK : ∀ a ∈ as, ∀ h', Extends q h h' → K a h') :
    Spec P q (Act.forEach body as) (fun _ _ => True) h := by
  induction as generalizing h with
  | nil => exact pure trivial
  | cons a as ih =>
      refine bind (hbody a (by simp) h (.refl h) (hK a (by simp) h (.refl h)))
        fun _ h' he _ => ih ?_ ?_
      · exact fun b hb h'' he' hk => hbody b (by simp [hb]) h'' (he.trans he') hk
      · exact fun b hb h'' he' => hK b (by simp [hb]) h'' (he.trans he')

/-- Search rule: what the body finds out when it has no result is found out for every element, and
what it finds out about its result for the result of the search. -/
theorem firstSome {body : α → Act I ε (Option β)} {as : List α} {K : α → History I → Prop}
    {S : β → History I → Prop}
    (hbody : ∀ a ∈ as, ∀ h', Spec P q (body a)
      (fun r h'' => (r = none → K a h'') ∧ ∀ b, r = some b → S b h'') h')
    (hK : ∀ a h₁ h₂, Extends q h₁ h₂ → K a h₁ → K a h₂) :
    Spec P q (Act.firstSome body as)
      (fun r h' => (r = none → ∀ a ∈ as, K a h') ∧ ∀ b, r = some b → S b h') h := by
  induction as generalizing h with
  | nil => exact pure ⟨fun _ _ hmem => (nomatch hmem), nofun⟩
  | cons a as ih =>
      refine bind (hbody a List.mem_cons_self h) fun r h₁ _ ⟨ha, hb⟩ => ?_
      rcases r with - | b
      · refine mono (ih fun b hb => hbody b (List.mem_cons_of_mem _ hb)) (fun _ => id) ?_
        rintro r h₂ he ⟨hrest, hsome⟩
        refine ⟨fun hr b hb => ?_, hsome⟩
        rcases List.mem_cons.mp hb with rfl | hb
        · exact hK b h₁ h₂ he (ha rfl)
        · exact hrest hr b hb
      · exact pure ⟨nofun, hb⟩

end Act.Spec

end Interleave
