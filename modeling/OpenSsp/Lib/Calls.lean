/-
OpenSsp/Lib/Calls.lean

Which calls a program can make, whatever the replies.

* `Prog.Calls C p`: every call of `p` satisfies `C`;
* `Prog.Apart A B p`: no run of `p` makes both a call of `A` and one of `B`;
* `Prog.Follows A E p`: each call of `A` that `p` makes comes right after an event that `E` relates
  to it;
* `Act.EndsWith c e B x`: when the call `c` fails with `e`, so does `x`, and it makes no call
  of `B`.

Main results: `Prog.After.bind_cases`, one rule for each way of building a program, and
`Act.Calls.footprint`, which takes such a bound on the calls to the contract logic.
-/
import OpenSsp.Lib.History

namespace Interleave

variable {I : Interface} {α β ε : Type} {C : I.Call → Prop} {h : History I}

namespace Prog

/-- What is left of a sequence: a rest of the first program, or of the second one. -/
theorem After.bind_cases {p : Prog I α} {f : α → Prog I β} {u : Prog I β}
    (hu : (p >>= f).After h u) :
    (∃ q, p.After h q ∧ u = q >>= f) ∨
      ∃ a h₁ h₂, p.After h₁ (ret a) ∧ (f a).After h₂ u ∧ h = h₂ ++ h₁ := by
  induction hu with
  | start => exact .inl ⟨p, .start, rfl⟩
  | @reply h c k hp r ih =>
      rcases ih with ⟨q, hq, he⟩ | ⟨a, h₁, h₂, hp₁, hf, rfl⟩
      · rcases q with a | ⟨c', k'⟩
        · rw [ret_bind] at he
          refine .inr ⟨a, h, [⟨c, r⟩], hq, ?_, rfl⟩
          rw [← he]
          exact After.start.reply r
        · obtain ⟨rfl, he⟩ := Prog.call.inj he
          obtain rfl := eq_of_heq he
          exact .inl ⟨k' r, hq.reply r, rfl⟩
      · exact .inr ⟨a, h₁, ⟨c, r⟩ :: h₂, hp₁, hf.reply r, rfl⟩

/-- A sequence that has come to its end: its first program did, and then the second one. -/
theorem After.bind_ret {p : Prog I α} {f : α → Prog I β} {b : β}
    (hu : (p >>= f).After h (ret b)) :
    ∃ a h₁ h₂, p.After h₁ (ret a) ∧ (f a).After h₂ (ret b) ∧ h = h₂ ++ h₁ := by
  rcases hu.bind_cases with ⟨q, hq, he⟩ | hsplit
  · rcases q with a | ⟨c, k⟩
    · rw [ret_bind] at he
      exact ⟨a, h, [], hq, he ▸ .start, rfl⟩
    · cases he
  · exact hsplit

/-- A program that has ended makes no call. -/
theorem After.of_ret {a : α} {u : Prog I α} (hu : (ret a).After h u) : h = [] ∧ u = ret a := by
  induction hu with
  | start => exact ⟨rfl, rfl⟩
  | reply _ r ih => cases ih.2

/-- A program that begins with a call has made it, or nothing. -/
theorem After.of_call {c : I.Call} {k : I.Reply c → Prog I α} {u : Prog I α}
    (hu : (call c k).After h u) :
    (h = [] ∧ u = call c k) ∨ ∃ r h', h = h' ++ [⟨c, r⟩] ∧ (k r).After h' u := by
  induction hu with
  | start => exact .inl ⟨rfl, rfl⟩
  | @reply h c' k' _ r ih =>
      rcases ih with ⟨rfl, he⟩ | ⟨r', h', rfl, hu⟩
      · obtain ⟨rfl, he⟩ := Prog.call.inj he
        obtain rfl := eq_of_heq he
        exact .inr ⟨r, [], rfl, .start⟩
      · exact .inr ⟨r', ⟨c', r⟩ :: h', rfl, hu.reply r⟩

/-- Every call the program can make satisfies `C`. -/
inductive Calls (C : I.Call → Prop) : Prog I α → Prop
  | ret (a : α) : Calls C (ret a)
  | call {c : I.Call} {k : I.Reply c → Prog I α} (hc : C c) (hk : ∀ r, Calls C (k r)) :
      Calls C (call c k)

namespace Calls

variable {p : Prog I α} {f : α → Prog I β}

/-- The calls of a sequence are those of its parts. -/
theorem bind (hp : p.Calls C) (hf : ∀ a, (f a).Calls C) : (p >>= f).Calls C := by
  induction hp with
  | ret a => exact hf a
  | call hc _ ih => exact .call hc ih

/-- A wider class of calls. -/
theorem mono {C' : I.Call → Prop} (hp : p.Calls C) (hC : ∀ c, C c → C' c) : p.Calls C' := by
  induction hp with
  | ret a => exact .ret a
  | call hc _ ih => exact .call (hC _ hc) ih

/-- What is left of a program makes calls of the class, as it has so far. -/
theorem rest {q : Prog I α} (hp : p.Calls C) (hq : p.After h q) :
    q.Calls C ∧ ∀ x ∈ h, C x.call := by
  induction hq with
  | start => exact ⟨hp, nofun⟩
  | reply _ r ih =>
      obtain ⟨hleft, hmade⟩ := ih
      rcases hleft with - | ⟨hc, hk⟩
      refine ⟨hk r, fun x hx => ?_⟩
      rcases List.mem_cons.mp hx with rfl | hx
      · exact hc
      · exact hmade x hx

/-- The calls that have been made. -/
theorem made {q : Prog I α} (hp : p.Calls C) (hq : p.After h q) : ∀ x ∈ h, C x.call :=
  (hp.rest hq).2

end Calls

/-- No run makes both a call of `A` and one of `B`. -/
def Apart (A B : I.Call → Prop) (p : Prog I α) : Prop :=
  ∀ h q, p.After h q → ∀ x ∈ h, A x.call → ∀ y ∈ h, ¬ B y.call

namespace Apart

variable {A B : I.Call → Prop} {p : Prog I α} {f : α → Prog I β}

/-- A program without the first kind of call keeps both kinds apart. -/
theorem of_left (hp : p.Calls fun c => ¬ A c) : p.Apart A B :=
  fun _ _ hq x hx hA => absurd hA (hp.made hq x hx)

/-- So does one without the second. -/
theorem of_right (hp : p.Calls fun c => ¬ B c) : p.Apart A B :=
  fun _ _ hq _ _ _ y hy => hp.made hq y hy

/-- Neither call is made first. -/
theorem bind_of_left (hp : p.Calls fun c => ¬ A c ∧ ¬ B c) (hf : ∀ a, (f a).Apart A B) :
    (p >>= f).Apart A B := by
  intro h q hq x hx hA y hy
  rcases After.bind_cases hq with ⟨q', hq', -⟩ | ⟨a, h₁, h₂, hp₁, hf₂, rfl⟩
  · exact (hp.made hq' y hy).2
  · rcases List.mem_append.mp hy with hy | hy
    · rcases List.mem_append.mp hx with hx | hx
      · exact hf a h₂ q hf₂ x hx hA y hy
      · exact absurd hA (hp.made hp₁ x hx).1
    · exact (hp.made hp₁ y hy).2

/-- Neither call is made last. -/
theorem bind_of_right (hp : p.Apart A B) (hf : ∀ a, (f a).Calls fun c => ¬ A c ∧ ¬ B c) :
    (p >>= f).Apart A B := by
  intro h q hq x hx hA y hy
  rcases After.bind_cases hq with ⟨q', hq', -⟩ | ⟨a, h₁, h₂, hp₁, hf₂, rfl⟩
  · exact hp h q' hq' x hx hA y hy
  · rcases List.mem_append.mp hy with hy | hy
    · exact ((hf a).made hf₂ y hy).2
    · rcases List.mem_append.mp hx with hx | hx
      · exact absurd hA ((hf a).made hf₂ x hx).1
      · exact hp h₁ _ hp₁ x hx hA y hy

end Apart

/-- The last event before each call of `A` that the program makes is one of `E`. -/
def Follows (A : I.Call → Prop) (E : Event I → I.Call → Prop) (p : Prog I α) : Prop :=
  ∀ h q c, p.After h q → q.next = some c → A c → ∃ x older, h = x :: older ∧ E x c

namespace Follows

variable {A : I.Call → Prop} {E : Event I → I.Call → Prop} {p : Prog I α} {f : α → Prog I β}

/-- Nothing needs to follow calls that are never made. -/
theorem of_calls (hp : p.Calls fun c => ¬ A c) : p.Follows A E := by
  intro h q c hq hnext hA
  rcases q with a | ⟨c', k⟩
  · cases hnext
  · obtain rfl := Option.some.inj hnext
    rcases (hp.rest hq).1 with - | ⟨hc, -⟩
    exact absurd hA hc

/-- The parts of a sequence follow the order when each does. -/
theorem bind (hp : p.Follows A E) (hf : ∀ a, (f a).Follows A E) : (p >>= f).Follows A E := by
  intro h u c hu hnext hA
  rcases After.bind_cases hu with ⟨q, hq, rfl⟩ | ⟨a, h₁, h₂, hp₁, hf₂, rfl⟩
  · rcases q with a | ⟨c', k⟩
    · -- the second program does not begin with such a call
      obtain ⟨x, older, hnil, -⟩ := hf a [] (f a) c .start hnext hA
      cases hnil
    · exact hp h _ c hq hnext hA
  · obtain ⟨x, older, rfl, hE⟩ := hf a h₂ u c hf₂ hnext hA
    exact ⟨x, older ++ h₁, rfl, hE⟩

/-- A first call, and the one that some of its replies lead to. -/
theorem call {c : I.Call} {k : I.Reply c → Prog I α} (hc : ¬ A c)
    (hk : ∀ r, (k r).Follows A E ∨
      ∃ c' k', k r = .call c' k' ∧ E ⟨c, r⟩ c' ∧ ∀ r', (k' r').Follows A E) :
    (Prog.call c k).Follows A E := by
  intro h u c₁ hu hnext hA
  rcases After.of_call hu with ⟨-, rfl⟩ | ⟨r, h₁, rfl, hrest⟩
  · obtain rfl := Option.some.inj hnext
    exact absurd hA hc
  · rcases hk r with hfollows | ⟨c', k', he, hE, hfollows⟩
    · obtain ⟨x, older, rfl, hE⟩ := hfollows h₁ u c₁ hrest hnext hA
      exact ⟨x, older ++ [⟨c, r⟩], rfl, hE⟩
    · rw [he] at hrest
      rcases After.of_call hrest with ⟨rfl, rfl⟩ | ⟨r', h₂, rfl, hrest'⟩
      · obtain rfl := Option.some.inj hnext
        exact ⟨⟨c, r⟩, [], rfl, hE⟩
      · obtain ⟨x, older, rfl, hE⟩ := hfollows r' h₂ u c₁ hrest' hnext hA
        exact ⟨x, _, List.append_assoc .., hE⟩

end Follows

end Prog

namespace Act

/-- Every call the action can make satisfies `C`. -/
def Calls (C : I.Call → Prop) (x : Act I ε α) : Prop := x.run.Calls C

namespace Calls

variable {x : Act I ε α} {f : α → Act I ε β}

/-- A value takes no call. -/
theorem pure {a : α} : Calls C (Pure.pure a : Act I ε α) := .ret _

theorem throw {e : ε} : Calls C (MonadExcept.throw e : Act I ε α) := .ret _

/-- Nor does the evaluation of a pure function. -/
theorem ofExcept {r : Except ε α} : Calls C (Act.ofExcept r : Act I ε α) := by
  rcases r with e | a
  · exact throw
  · exact pure

/-- One call of the class. -/
theorem ask {c : I.Call} {conv : I.Reply c → Except ε α} (hc : C c) :
    Calls C (Act.ask c conv) := .call hc fun _ => .ret _

theorem tell {c : I.Call} (hc : C c) : Calls C (Act.tell c : Act I ε (I.Reply c)) :=
  .call hc fun _ => .ret _

/-- A wider class of calls. -/
theorem mono {C' : I.Call → Prop} (hx : Calls C x) (hC : ∀ c, C c → C' c) : Calls C' x :=
  Prog.Calls.mono hx hC

/-- One action after another. -/
theorem bind (hx : Calls C x) (hf : ∀ a, Calls C (f a)) : Calls C (x >>= f) := by
  apply Prog.Calls.bind (f := ExceptT.bindCont f) hx
  intro r
  rcases r with e | a
  · exact .ret _
  · exact hf a

/-- An error that is caught hides no call. -/
theorem attempt (hx : Calls C x) : Calls C (Act.attempt x) := Prog.Calls.bind hx fun _ => .ret _

theorem mapErr {g : ε → ε} (hx : Calls C x) : Calls C (Act.mapErr g x) := by
  apply bind hx.attempt
  intro r
  rcases r with e | a
  · exact throw
  · exact pure

/-- Both branches count. -/
theorem ite {c : Prop} [Decidable c] {x y : Act I ε α} (hx : Calls C x) (hy : Calls C y) :
    Calls C (if c then x else y) := by
  split
  · exact hx
  · exact hy

/-- A check that ends the function with an error. -/
theorem guard {c : Prop} [Decidable c] {e : ε} {k : Unit → Act I ε α} (hk : Calls C (k ())) :
    Calls C (if c then (MonadExcept.throw e : Act I ε Unit) >>= k else k ()) := by
  split
  · exact throw.bind fun _ => hk
  · exact hk

/-- The brackets count with the body. -/
theorem bracket {take give : Act I ε Unit} (htake : Calls C take) (hgive : Calls C give)
    (hx : Calls C x) : Calls C (Act.bracket take give x) :=
  bind htake fun _ => bind hx.attempt fun _ => bind hgive fun _ => ofExcept

/-- By induction on the list. -/
theorem forEach {body : α → Act I ε Unit} (hbody : ∀ a, Calls C (body a)) (as : List α) :
    Calls C (Act.forEach body as) := by
  induction as with
  | nil => exact pure
  | cons a as ih => exact bind (hbody a) fun _ => ih

/-- The search may stop early; it makes no other calls for that. -/
theorem firstSome {body : α → Act I ε (Option β)} (hbody : ∀ a, Calls C (body a))
    (as : List α) : Calls C (Act.firstSome body as) := by
  induction as with
  | nil => exact pure
  | cons a as ih =>
      apply bind (hbody a)
      intro r
      rcases r with - | b
      · exact ih
      · exact pure

/-- A contract that allows these calls at any time is obeyed, and no other call is made. -/
theorem footprint {P : History I → I.Call → Prop} (hx : Calls C x) (hP : ∀ h c, C c → P h c)
    (h : History I) : Spec P (fun e => C e.call) x (fun _ _ => True) h := by
  have hwp : ∀ {p : Prog I (Except ε α)} (h₀ : History I), p.Calls C →
      p.wp P (fun _ h' => Extends (fun e => C e.call) h₀ h') h₀ := by
    intro p h₀ hp
    induction hp generalizing h₀ with
    | ret a => exact .refl h₀
    | call hc _ ih =>
        refine ⟨hP _ _ hc, fun r => Prog.wp_mono (ih r _) fun _ h' hgrows => ?_⟩
        exact (Extends.one hc).trans hgrows
  refine ⟨Prog.wp_mono (hwp h hx) ?_⟩
  rintro (e | a) h' hgrows
  · exact hgrows
  · exact ⟨hgrows, trivial⟩

/-- Calls that are always allowed meet every contract. -/
theorem spec {P : History I → I.Call → Prop} (hx : Calls C x) (hP : ∀ h c, C c → P h c)
    (h : History I) : Spec P (fun _ => True) x (fun _ _ => True) h :=
  (hx.footprint hP h).weaken fun _ _ => trivial

/-- What the action finds out by itself it finds out after any history, and a contract that allows
its calls at any time is obeyed. -/
theorem spec_after {P : History I → I.Call → Prop} {R : α → History I → Prop}
    (hx : Calls C x) (hP : ∀ h c, C c → P h c)
    (hR : Spec (fun _ _ => True) (fun _ => True) x R []) (h : History I) :
    Spec P (fun e => C e.call) x
      (fun a h' => ∃ new, h' = new ++ h ∧ (∀ e ∈ new, C e.call) ∧ R a new) h := by
  -- a run after `h` is a run from nothing, with `h` below its history
  have hwp : ∀ {p : Prog I (Except ε α)} (new : History I), p.Calls C →
      p.wp (fun _ _ => True) (fun r h' => ∀ a, r = .ok a → R a h') new →
      p.wp P (fun r h' => ∃ newer, h' = newer ++ (new ++ h) ∧ (∀ e ∈ newer, C e.call) ∧
        ∀ a, r = .ok a → R a (newer ++ new)) (new ++ h) := by
    intro p new hp
    induction hp generalizing new with
    | ret r => exact fun hr => ⟨[], rfl, nofun, hr⟩
    | @call c k hc _ ih =>
        intro hrest
        refine ⟨hP _ c hc, fun r => Prog.wp_mono (ih r (⟨c, r⟩ :: new) (hrest.2 r)) ?_⟩
        rintro r' h' ⟨newer, rfl, hcalls, hr'⟩
        refine ⟨newer ++ [⟨c, r⟩], by simp, ?_, by simpa using hr'⟩
        intro e he
        rcases List.mem_append.mp he with he | he
        · exact hcalls e he
        · obtain rfl := List.mem_singleton.mp he
          exact hc
  have hstart : Prog.wp (fun _ _ => True) x.run (fun r h' => ∀ a, r = .ok a → R a h') [] := by
    refine Prog.wp_mono hR.wp ?_
    rintro (e | b) h' hb a ha
    · cases ha
    · obtain rfl := Except.ok.inj ha
      exact hb.2
  refine ⟨Prog.wp_mono (hwp [] hx hstart) ?_⟩
  rintro (e | a) h' ⟨newer, rfl, hcalls, hr⟩
  · exact ⟨newer, rfl, hcalls⟩
  · refine ⟨⟨newer, rfl, hcalls⟩, newer, rfl, hcalls, ?_⟩
    have hresult := hr a rfl
    rwa [List.append_nil] at hresult

end Calls

/-- No run makes both a call of `A` and one of `B`. -/
def Apart (A B : I.Call → Prop) (x : Act I ε α) : Prop := x.run.Apart A B

namespace Apart

variable {A B : I.Call → Prop} {x : Act I ε α} {f : α → Act I ε β}

theorem of_left (hx : Calls (fun c => ¬ A c) x) : Apart A B x := Prog.Apart.of_left hx

theorem of_right (hx : Calls (fun c => ¬ B c) x) : Apart A B x := Prog.Apart.of_right hx

/-- The first part makes neither kind, and the rest decides. -/
theorem bind_of_left (hx : Calls (fun c => ¬ A c ∧ ¬ B c) x) (hf : ∀ a, Apart A B (f a)) :
    Apart A B (x >>= f) := by
  apply Prog.Apart.bind_of_left (f := ExceptT.bindCont f) hx
  intro r
  rcases r with e | a
  · exact Prog.Apart.of_left (.ret _)
  · exact hf a

/-- The last part makes neither kind. -/
theorem bind_of_right (hx : Apart A B x) (hf : ∀ a, Calls (fun c => ¬ A c ∧ ¬ B c) (f a)) :
    Apart A B (x >>= f) := by
  apply Prog.Apart.bind_of_right (f := ExceptT.bindCont f) hx
  intro r
  rcases r with e | a
  · exact .ret _
  · exact hf a

/-- Brackets that make neither kind leave their body as it is. -/
theorem bracket {take give : Act I ε Unit} (htake : Calls (fun c => ¬ A c ∧ ¬ B c) take)
    (hgive : Calls (fun c => ¬ A c ∧ ¬ B c) give) (hx : Apart A B x) :
    Apart A B (Act.bracket take give x) := by
  apply bind_of_left htake
  intro _
  apply bind_of_right
  · exact Prog.Apart.bind_of_right hx fun _ => .ret _
  · exact fun r => hgive.bind fun _ => Calls.ofExcept

end Apart

/-- The last event before each call of `A` that the action makes is one of `E`. -/
def Follows (A : I.Call → Prop) (E : Event I → I.Call → Prop) (x : Act I ε α) : Prop :=
  x.run.Follows A E

namespace Follows

variable {A : I.Call → Prop} {E : Event I → I.Call → Prop} {x : Act I ε α} {f : α → Act I ε β}

theorem of_calls (hx : Calls (fun c => ¬ A c) x) : Follows A E x := Prog.Follows.of_calls hx

/-- Each part keeps the order by itself. -/
theorem bind (hx : Follows A E x) (hf : ∀ a, Follows A E (f a)) : Follows A E (x >>= f) := by
  apply Prog.Follows.bind (f := ExceptT.bindCont f) hx
  intro r
  rcases r with e | a
  · exact Prog.Follows.of_calls (.ret _)
  · exact hf a

theorem ite {c : Prop} [Decidable c] {y : Act I ε α} (hx : Follows A E x) (hy : Follows A E y) :
    Follows A E (if c then x else y) := by
  split
  · exact hx
  · exact hy

/-- Brackets without the call add nothing to be followed. -/
theorem bracket {take give : Act I ε Unit} (htake : Calls (fun c => ¬ A c) take)
    (hgive : Calls (fun c => ¬ A c) give) (hx : Follows A E x) :
    Follows A E (Act.bracket take give x) := by
  apply bind (of_calls htake)
  intro _
  apply bind
  · exact Prog.Follows.bind hx fun _ => Prog.Follows.of_calls (.ret _)
  · exact fun r => of_calls (hgive.bind fun _ => Calls.ofExcept)

end Follows

/-- When the call replies `failed`, the action ends with the error `e`, and makes no call of `B`. -/
def EndsWith (B : I.Call → Prop) (failed : Event I) (e : ε) (x : Act I ε α) : Prop :=
  ∀ h r, x.run.After h (.ret r) → failed ∈ h → r = .error e ∧ ∀ y ∈ h, ¬ B y.call

namespace EndsWith

variable {B : I.Call → Prop} {failed : Event I} {e : ε} {x : Act I ε α} {f : α → Act I ε β}

/-- Without the call there is nothing to show. -/
theorem of_calls (hx : Calls (fun c => c ≠ failed.call) x) : EndsWith B failed e x :=
  fun _ _ hr hfailed => absurd rfl (Prog.Calls.made hx hr failed hfailed)

/-- The calls that come first are neither the failed one nor of the class. -/
theorem bind (hx : Calls (fun c => c ≠ failed.call ∧ ¬ B c) x)
    (hf : ∀ a, EndsWith B failed e (f a)) : EndsWith B failed e (x >>= f) := by
  intro h r hr hfailed
  obtain ⟨r', h₁, h₂, hx₁, hf₂, rfl⟩ := Prog.After.bind_ret (f := ExceptT.bindCont f) hr
  have hmade := Prog.Calls.made hx hx₁
  have hlater : failed ∈ h₂ := by
    rcases List.mem_append.mp hfailed with hfailed | hfailed
    · exact hfailed
    · exact absurd rfl (hmade failed hfailed).1
  rcases r' with e' | a
  · obtain ⟨rfl, -⟩ := Prog.After.of_ret hf₂
    cases hlater
  · obtain ⟨hend, hnone⟩ := hf a h₂ r hf₂ hlater
    refine ⟨hend, fun y hy => ?_⟩
    rcases List.mem_append.mp hy with hy | hy
    · exact hnone y hy
    · exact (hmade y hy).2

/-- A check that fails ends the action before anything is called. -/
theorem guard {c : Prop} [Decidable c] {e' : ε} {k : Unit → Act I ε α}
    (hk : EndsWith B failed e (k ())) :
    EndsWith B failed e (if c then (MonadExcept.throw e' : Act I ε Unit) >>= k else k ()) := by
  split
  · exact of_calls (.ret _)
  · exact hk

/-- The call itself: after its failure nothing more is done. -/
theorem ask_bind {c : I.Call} {conv : I.Reply c → Except ε α} {r : I.Reply c}
    (hr : conv r = .error e) (hB : ¬ B c) (hf : ∀ a, Calls (fun c' => c' ≠ c) (f a)) :
    EndsWith B ⟨c, r⟩ e (Act.ask c conv >>= f) := by
  intro h r' hr' hfailed
  rcases Prog.After.of_call hr' with ⟨-, he⟩ | ⟨r₁, h', rfl, hrest⟩
  · cases he
  · change (ExceptT.bindCont f (conv r₁)).After h' _ at hrest
    rcases List.mem_append.mp hfailed with hfailed | hfailed
    · -- the rest does not make the call
      rcases hconv : conv r₁ with e' | a
      · rw [hconv] at hrest
        obtain ⟨rfl, -⟩ := Prog.After.of_ret hrest
        cases hfailed
      · rw [hconv] at hrest
        exact absurd rfl (Prog.Calls.made (hf a) hrest _ hfailed)
    · obtain ⟨-, he⟩ := Event.mk.inj (List.mem_singleton.mp hfailed)
      obtain rfl := eq_of_heq he
      rw [hr] at hrest
      obtain ⟨rfl, he⟩ := Prog.After.of_ret hrest
      refine ⟨Prog.ret.inj he, fun y hy => ?_⟩
      rw [List.mem_singleton.mp hy]
      exact hB

/-- The outcome of a bracket is that of its body. -/
theorem bracket {take give : Act I ε Unit} (htake : Calls (fun c => c ≠ failed.call ∧ ¬ B c) take)
    (hgive : Calls (fun c => c ≠ failed.call ∧ ¬ B c) give)
    (hend : ∀ h r, give.run.After h (.ret r) → r = .ok ())
    (hx : EndsWith B failed e x) : EndsWith B failed e (Act.bracket take give x) := by
  apply bind htake
  intro _ h r hr hfailed
  obtain ⟨r₁, h₁, h₂, hattempt, hrest, rfl⟩ := Prog.After.bind_ret
    (f := ExceptT.bindCont fun r => give >>= fun _ => Act.ofExcept r) hr
  obtain ⟨r₀, h₀, h₀', hx₀, hret, rfl⟩ := Prog.After.bind_ret hattempt
  obtain ⟨rfl, he⟩ := Prog.After.of_ret hret
  obtain rfl := Prog.ret.inj he
  obtain ⟨g, h₃, h₄, hgive₃, hlast, rfl⟩ := Prog.After.bind_ret
    (f := ExceptT.bindCont fun _ => Act.ofExcept r₀) hrest
  obtain rfl := hend h₃ g hgive₃
  have hof : (Act.ofExcept r₀ : Act I ε α).run = .ret r₀ := by
    rcases r₀ with e' | a
    · rfl
    · rfl
  change (Act.ofExcept r₀ : Act I ε α).run.After h₄ _ at hlast
  rw [hof] at hlast
  obtain ⟨rfl, he⟩ := Prog.After.of_ret hlast
  have hmade := Prog.Calls.made hgive hgive₃
  rw [List.nil_append, List.nil_append] at hfailed ⊢
  have hbody : failed ∈ h₀ := by
    rcases List.mem_append.mp hfailed with hfailed | hfailed
    · exact absurd rfl (hmade failed hfailed).1
    · exact hfailed
  obtain ⟨hr₀, hnone⟩ := hx h₀ r₀ hx₀ hbody
  refine ⟨(Prog.ret.inj he).trans hr₀, fun y hy => ?_⟩
  rcases List.mem_append.mp hy with hy | hy
  · exact (hmade y hy).2
  · exact hnone y hy

end EndsWith

/-! ### What an action that has come to its end did -/

section ended

variable {x : Act I ε α} {f : α → Act I ε β} {a b : β} {c : I.Call}

/-- A sequence that has ended has ended its first part before. -/
theorem ended_bind (hu : (x >>= f).run.After h (.ret (.ok b))) :
    ∃ a h₁ h₂, x.run.After h₁ (.ret (.ok a)) ∧ (f a).run.After h₂ (.ret (.ok b)) ∧
      h = h₂ ++ h₁ := by
  obtain ⟨r, h₁, h₂, hx, hf, rfl⟩ := Prog.After.bind_ret (f := ExceptT.bindCont f) hu
  cases r with
  | ok a => exact ⟨a, h₁, h₂, hx, hf, rfl⟩
  | error e => cases (Prog.After.of_ret hf).2

/-- What was caught has ended, with its result as a value. -/
theorem ended_attempt {r : Except ε α} (hu : (attempt x).run.After h (.ret (.ok r))) :
    x.run.After h (.ret r) := by
  obtain ⟨r', hx, he⟩ := Prog.After.of_bind_ret (fun _ => rfl) hu
  obtain rfl := Except.ok.inj he
  exact hx

/-- One call has one event. -/
theorem ended_ask {conv : I.Reply c → Except ε α} {o : Except ε α}
    (hu : (ask c conv).run.After h (.ret o)) : ∃ r, h = [⟨c, r⟩] ∧ conv r = o := by
  obtain ⟨-, he⟩ | ⟨r, h', rfl, hr⟩ := Prog.After.of_call hu
  · cases he
  · obtain ⟨rfl, he⟩ := Prog.After.of_ret hr
    exact ⟨r, rfl, (Prog.ret.inj he).symm⟩

/-- A value ends at once. -/
theorem ended_pure (hu : (pure a : Act I ε β).run.After h (.ret (.ok b))) : h = [] ∧ a = b := by
  obtain ⟨rfl, he⟩ := Prog.After.of_ret hu
  exact ⟨rfl, (Except.ok.inj (Prog.ret.inj he)).symm⟩

end ended

end Act

end Interleave
