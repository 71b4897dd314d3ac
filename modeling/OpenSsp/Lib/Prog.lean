/-
OpenSsp/Lib/Prog.lean

Programs that talk to the outside one call at a time, and a logic of *what a
program has already seen when it makes a call*.

A program over an `Interface` is a tree: it either returns or makes a call and
continues with whatever reply comes back (`Prog`).  The `History` of a running
program is the list of its own past calls with their replies, newest first.

`p.wp P Q h` says: started after `h`, every call `p` makes is allowed by the
contract `P` *given the history at that moment*, and when `p` returns `a` with
history `h'`, `Q a h'` holds.  Nothing is assumed about the replies, so the rules
below need no state and no frame conditions; what the replies say about the state
of the world is added where programs run concurrently (`Lib/Machine.lean`).

Main results: `wp_bind`, `wp_mono`, `wp_grows` and their counterparts for
programs that can fail (`Act.wp_bind`, `Act.wp_attempt`).
-/
import Mathlib.Data.List.Basic
import Mathlib.Tactic.Basic

namespace Interleave

/-- The calls a program can make and the type of the reply to each. -/
structure Interface where
  Call : Type
  Reply : Call → Type

/-- One call together with the reply it got. -/
structure Event (I : Interface) where
  call : I.Call
  reply : I.Reply call

/-- What one program has seen so far, newest first. -/
abbrev History (I : Interface) := List (Event I)

/-- A program: a result, or a call and what to do with the reply. -/
inductive Prog (I : Interface) (α : Type) where
  | ret (a : α)
  | call (c : I.Call) (k : I.Reply c → Prog I α)

variable {I : Interface} {α β ε : Type}

namespace Prog

/-- The second program takes over where the first one ends. -/
def bind : Prog I α → (α → Prog I β) → Prog I β
  | ret a, f => f a
  | call c k, f => call c fun r => (k r).bind f

instance : Monad (Prog I) where
  pure := ret
  bind := bind

/-- Make one call and return its reply. -/
def perform (c : I.Call) : Prog I (I.Reply c) := call c ret

/-- The call a program is about to make. -/
def next : Prog I α → Option I.Call
  | ret _ => none
  | call c _ => some c

@[simp] theorem pure_eq (a : α) : (pure a : Prog I α) = ret a := rfl

@[simp] theorem ret_bind (a : α) (f : α → Prog I β) : (ret a >>= f) = f a := rfl

@[simp] theorem call_bind (c : I.Call) (k : I.Reply c → Prog I α) (f : α → Prog I β) :
    (call c k >>= f) = call c fun r => k r >>= f := rfl

/-- To end with the result changes nothing. -/
theorem bind_ret (p : Prog I α) : (p >>= ret) = p := by
  induction p with
  | ret a => rfl
  | call c k ih => exact congrArg (call c) (funext ih)

/-- Sequences can be regrouped; by induction on the first program. -/
theorem bind_assoc {γ : Type} (p : Prog I α) (f : α → Prog I β) (g : β → Prog I γ) :
    (p >>= f >>= g) = (p >>= fun a => f a >>= g) := by
  induction p with
  | ret a => rfl
  | call c k ih => exact congrArg (call c) (funext ih)

instance : LawfulMonad (Prog I) :=
  LawfulMonad.mk' (Prog I) bind_ret (fun _ _ => rfl) bind_assoc

/-! ### Contracts on calls -/

/-- Every call of the program obeys the contract `P` at the history it is made
with, and the result obeys `Q`. -/
def wp (P : History I → I.Call → Prop) :
    Prog I α → (α → History I → Prop) → History I → Prop
  | ret a, Q, h => Q a h
  | call c k, Q, h => P h c ∧ ∀ r, (k r).wp P Q (⟨c, r⟩ :: h)

variable {P : History I → I.Call → Prop}

@[simp] theorem wp_ret (a : α) (Q : α → History I → Prop) (h : History I) :
    (ret a).wp P Q h ↔ Q a h := Iff.rfl

@[simp] theorem wp_call (c : I.Call) (k : I.Reply c → Prog I α)
    (Q : α → History I → Prop) (h : History I) :
    (call c k).wp P Q h ↔ P h c ∧ ∀ r, (k r).wp P Q (⟨c, r⟩ :: h) := Iff.rfl

@[simp] theorem wp_perform (c : I.Call) (Q : I.Reply c → History I → Prop)
    (h : History I) :
    (perform c).wp P Q h ↔ P h c ∧ ∀ r, Q r (⟨c, r⟩ :: h) := Iff.rfl

/-- The precondition of a sequence is that of its first part for the precondition of the rest. -/
theorem wp_bind (p : Prog I α) (f : α → Prog I β) (Q : β → History I → Prop)
    (h : History I) :
    (p >>= f).wp P Q h ↔ p.wp P (fun a h' => (f a).wp P Q h') h := by
  induction p generalizing h with
  | ret a => rfl
  | call c k ih =>
      rw [call_bind, wp_call, wp_call]
      exact and_congr_right fun _ => forall_congr' fun r => ih r _

/-- A result that is dropped leaves the condition on the history. -/
theorem wp_discard (p : Prog I α) (Q : Unit → History I → Prop) (h : History I) :
    (discard p).wp P Q h ↔ p.wp P (fun _ h' => Q () h') h := wp_bind p _ Q h

/-- Consequence: a weaker postcondition holds as well. -/
theorem wp_mono {p : Prog I α} {Q R : α → History I → Prop} {h : History I}
    (hp : p.wp P Q h) (hQR : ∀ a h', Q a h' → R a h') : p.wp P R h := by
  induction p generalizing h with
  | ret a => exact hQR a h hp
  | call c k ih => exact ⟨hp.1, fun r => ih r (hp.2 r)⟩

/-- A program that obeys a contract obeys every weaker one. -/
theorem wp_contract {P' : History I → I.Call → Prop} (hP : ∀ h c, P h c → P' h c)
    {p : Prog I α} {Q : α → History I → Prop} {h : History I} (hp : p.wp P Q h) : p.wp P' Q h := by
  induction p generalizing h with
  | ret a => exact hp
  | call c k ih => exact ⟨hP h c hp.1, fun r => ih r (hp.2 r)⟩

/-- A contract that allows every call says nothing about the program. -/
theorem wp_true (p : Prog I α) (h : History I) : p.wp (fun _ _ => True) (fun _ _ => True) h := by
  induction p generalizing h with
  | ret a => trivial
  | call c k ih => exact ⟨trivial, fun r => ih r _⟩

/-- A program only adds to its history. -/
theorem wp_grows {p : Prog I α} {Q : α → History I → Prop} {h : History I}
    (hp : p.wp P Q h) : p.wp P (fun a h' => Q a h' ∧ h <:+ h') h := by
  induction p generalizing h with
  | ret a => exact ⟨hp, List.suffix_refl h⟩
  | call c k ih =>
      refine ⟨hp.1, fun r => ?_⟩
      refine wp_mono (ih r (hp.2 r)) fun a h' hq => ⟨hq.1, ?_⟩
      exact (List.suffix_cons _ _).trans hq.2

/-! ### What is left of a program -/

/-- After its calls `h` the program is `q`. -/
inductive After (p : Prog I α) : History I → Prog I α → Prop
  | start : After p [] p
  | reply {h : History I} {c : I.Call} {k : I.Reply c → Prog I α} (hp : After p h (call c k))
      (r : I.Reply c) : After p (⟨c, r⟩ :: h) (k r)

namespace After

variable {p q : Prog I α} {h h₀ : History I}

/-- What is left obeys what the whole program does. -/
theorem wp (hq : p.After h q) {Q : α → History I → Prop} (hp : p.wp P Q h₀) :
    q.wp P Q (h ++ h₀) := by
  induction hq with
  | start => exact hp
  | reply _ r ih => exact ih.2 r

/-- Steps of a program follow one another. -/
theorem trans (hq : p.After h q) {h' : History I} {r : Prog I α} (hr : q.After h' r) :
    p.After (h' ++ h) r := by
  induction hr with
  | start => exact hq
  | reply _ a ih => exact ih.reply a

/-- What comes after a program is carried along while it runs. -/
theorem bind (hq : p.After h q) (f : α → Prog I β) : (p >>= f).After h (q >>= f) := by
  induction hq with
  | start => exact .start
  | reply _ r ih => exact ih.reply r

/-- What is left of a program whose result goes through `f` at the end. -/
theorem of_bind {f : α → Prog I β} {g : α → β} (hf : ∀ a, f a = ret (g a)) {u : Prog I β}
    (hu : (p >>= f).After h u) : ∃ q, p.After h q ∧ u = q >>= f := by
  induction hu with
  | start => exact ⟨p, .start, rfl⟩
  | reply _ r ih =>
      obtain ⟨q, hq, he⟩ := ih
      rcases q with a | ⟨c, k⟩
      · rw [ret_bind, hf] at he
        cases he
      · obtain ⟨rfl, he⟩ := Prog.call.inj he
        obtain rfl := eq_of_heq he
        exact ⟨k r, hq.reply r, rfl⟩

/-- A program that has come to its end with `b` came to its own end first. -/
theorem of_bind_ret {f : α → Prog I β} {g : α → β} (hf : ∀ a, f a = ret (g a)) {b : β}
    (hu : (p >>= f).After h (ret b)) : ∃ a, p.After h (ret a) ∧ b = g a := by
  obtain ⟨q, hq, he⟩ := of_bind hf hu
  rcases q with a | ⟨c, k⟩
  · rw [ret_bind, hf] at he
    exact ⟨a, hq, Prog.ret.inj he⟩
  · cases he

end After

end Prog

/-! ### Programs that can fail -/

/-- A program that returns a value or an error. -/
abbrev Act (I : Interface) (ε α : Type) := ExceptT ε (Prog I) α

namespace Act

/-- Make a call whose reply is itself a value or an error. -/
def ask (c : I.Call) (conv : I.Reply c → Except ε α) : Act I ε α :=
  ExceptT.mk (Prog.call c fun r => .ret (conv r))

/-- Make a call that cannot fail. -/
def tell (c : I.Call) : Act I ε (I.Reply c) :=
  ExceptT.mk (Prog.call c fun r => .ret (.ok r))

/-- Run an action and hand its outcome back as a value. -/
def attempt (x : Act I ε α) : Act I ε (Except ε α) :=
  ExceptT.mk (x.run >>= fun r => Prog.ret (.ok r))

/-- `?` on a result that is already there. -/
def ofExcept : Except ε α → Act I ε α
  | .ok a => pure a
  | .error e => throw e

/-- `map_err` -/
def mapErr (f : ε → ε) (x : Act I ε α) : Act I ε α := do
  match ← attempt x with
  | .ok a => return a
  | .error e => throw (f e)

/-- Run `body` between two actions; the second runs on every way out. -/
def bracket (take give : Act I ε Unit) (body : Act I ε α) : Act I ε α := do
  take
  let r ← attempt body
  give
  ofExcept r

/-- Run the body for every element, stopping at the first error. -/
def forEach (body : α → Act I ε Unit) : List α → Act I ε Unit
  | [] => pure ()
  | a :: as => do
      body a
      forEach body as

/-- Run the body for the elements until it gives a value. -/
def firstSome (body : α → Act I ε (Option β)) : List α → Act I ε (Option β)
  | [] => pure none
  | a :: as => do
      match ← body a with
      | some b => return some b
      | none => firstSome body as

/-! ### Where an action has got to -/

section after

variable {x : Act I ε α} {f : α → Act I ε β} {a : α} {e : ε} {r : Except ε α} {h k : History I}

/-- One call, one event, and the converted reply. -/
theorem after_ask (c : I.Call) (conv : I.Reply c → Except ε α) (r : I.Reply c) :
    (ask c conv).run.After [⟨c, r⟩] (.ret (conv r)) :=
  .reply (p := (ask c conv).run) (k := fun r => .ret (conv r)) .start r

/-- The same without conversion. -/
theorem after_tell (c : I.Call) (r : I.Reply c) :
    (tell c : Act I ε _).run.After [⟨c, r⟩] (.ret (.ok r)) :=
  .reply (p := (tell c : Act I ε _).run) (k := fun r => .ret (.ok r)) .start r

/-- After a result the next action begins. -/
theorem after_bind {q : Prog I (Except ε β)} (hx : x.run.After h (.ret (.ok a)))
    (hf : (f a).run.After k q) : (x >>= f).run.After (k ++ h) q :=
  (hx.bind (ExceptT.bindCont f)).trans hf

/-- After an error nothing more is done. -/
theorem after_bind_error (hx : x.run.After h (.ret (.error e))) :
    (x >>= f).run.After h (.ret (.error e)) :=
  hx.bind (ExceptT.bindCont f)

/-- An attempt ends as the action does, with the outcome as its value. -/
theorem after_attempt (hx : x.run.After h (.ret r)) : (attempt x).run.After h (.ret (.ok r)) :=
  hx.bind fun r => Prog.ret (Except.ok (ε := ε) r)

/-- A pure function makes no event. -/
theorem after_ofExcept (r : Except ε α) : (ofExcept r : Act I ε α).run.After [] (.ret r) := by
  rcases r with e | a
  · exact .start
  · exact .start

/-- The outcome of a bracket is that of its body. -/
theorem after_bracket {take give : Act I ε Unit} {h₁ h₂ : History I}
    (htake : take.run.After h₁ (.ret (.ok ()))) (hx : x.run.After h (.ret r))
    (hgive : give.run.After h₂ (.ret (.ok ()))) :
    (bracket take give x).run.After (h₂ ++ (h ++ h₁)) (.ret r) := by
  have hend := after_bind (f := fun _ => ofExcept r) hgive (after_ofExcept r)
  have hbody := after_bind (f := fun r => give >>= fun _ => ofExcept r) (after_attempt hx) hend
  have hall := after_bind
    (f := fun _ => attempt x >>= fun r => give >>= fun _ => ofExcept r) htake hbody
  rwa [List.nil_append, List.append_assoc] at hall

end after

/-- The contract logic for actions: `Q` speaks about results, `E` about errors. -/
def wp (P : History I → I.Call → Prop) (x : Act I ε α)
    (Q : α → History I → Prop) (E : ε → History I → Prop) (h : History I) : Prop :=
  Prog.wp P x.run (fun r h' => match r with
    | .ok a => Q a h'
    | .error e => E e h') h

variable {P : History I → I.Call → Prop} {Q : α → History I → Prop}
  {E : ε → History I → Prop} {h : History I}

@[simp] theorem wp_pure (a : α) : wp P (pure a : Act I ε α) Q E h ↔ Q a h := Iff.rfl

@[simp] theorem wp_throw (e : ε) : wp P (throw e : Act I ε α) Q E h ↔ E e h := Iff.rfl

@[simp] theorem wp_ask (c : I.Call) (conv : I.Reply c → Except ε α) :
    wp P (ask c conv) Q E h ↔
      P h c ∧ ∀ r, match conv r with
        | .ok a => Q a (⟨c, r⟩ :: h)
        | .error e => E e (⟨c, r⟩ :: h) := Iff.rfl

@[simp] theorem wp_tell (c : I.Call) {Q : I.Reply c → History I → Prop} :
    wp P (tell c : Act I ε _) Q E h ↔ P h c ∧ ∀ r, Q r (⟨c, r⟩ :: h) := Iff.rfl

@[simp] theorem wp_bind (x : Act I ε α) (f : α → Act I ε β)
    {Q : β → History I → Prop} :
    wp P (x >>= f) Q E h ↔ wp P x (fun a h' => wp P (f a) Q E h') E h := by
  show Prog.wp P (x.run >>= ExceptT.bindCont f) _ h ↔ _
  rw [Prog.wp_bind]
  unfold wp
  constructor
  · intro hx
    refine Prog.wp_mono hx fun r h' hr => ?_
    rcases r with e | a
    · exact hr
    · exact hr
  · intro hx
    refine Prog.wp_mono hx fun r h' hr => ?_
    rcases r with e | a
    · exact hr
    · exact hr

@[simp] theorem wp_attempt (x : Act I ε α) {Q : Except ε α → History I → Prop} :
    wp P (attempt x) Q E h ↔
      wp P x (fun a h' => Q (.ok a) h') (fun e h' => Q (.error e) h') h := by
  show Prog.wp P (x.run >>= fun r => Prog.ret (Except.ok (ε := ε) r)) _ h ↔ _
  rw [Prog.wp_bind]
  constructor
  · intro hx
    refine Prog.wp_mono hx fun r h' hr => ?_
    rcases r with e | a
    · exact hr
    · exact hr
  · intro hx
    refine Prog.wp_mono hx fun r h' hr => ?_
    rcases r with e | a
    · exact hr
    · exact hr

/-- Consequence, for results and errors at once. -/
theorem wp_mono {x : Act I ε α} {R : α → History I → Prop} {F : ε → History I → Prop}
    (hx : wp P x Q E h) (hQR : ∀ a h', Q a h' → R a h')
    (hEF : ∀ e h', E e h' → F e h') : wp P x R F h := by
  refine Prog.wp_mono hx fun r h' hr => ?_
  rcases r with e | a
  · exact hEF e h' hr
  · exact hQR a h' hr

/-- Of an action nothing is known but that its history grows. -/
theorem wp_any (x : Act I ε α) (h : History I) :
    wp (fun _ _ => True) x (fun _ h' => h <:+ h') (fun _ h' => h <:+ h') h := by
  apply Prog.wp_mono (Prog.wp_grows (Prog.wp_true x.run h))
  rintro (e | a) h' ⟨-, hgrows⟩
  · exact hgrows
  · exact hgrows

/-- An action only adds to its history, whether it succeeds or fails. -/
theorem wp_grows {x : Act I ε α} (hx : wp P x Q E h) :
    wp P x (fun a h' => Q a h' ∧ h <:+ h') (fun e h' => E e h' ∧ h <:+ h') h := by
  refine Prog.wp_mono (Prog.wp_grows hx) fun r h' hr => ?_
  rcases r with e | a
  · exact hr
  · exact hr

end Act

end Interleave
