/-
OpenSsp/Lib/Sum.lean

Two machines side by side.

`Interface.sum` has the calls of two interfaces, and `Machine.sum` performs each of them on the
world of its own machine.  A program of one interface runs there as it is (`Prog.inl`); what it has
called is then read off the longer history (`Prog.wp_inl`), because `Config.calls`, the calls of one
program in the trace, is the history of the program while it lives.

Main results: `Prog.wp_inl`, `Machine.perform_inl`, `Machine.perform_inr` and `Reach.history_eq`.
-/
import OpenSsp.Lib.Machine

namespace Interleave

variable {I J : Interface} {α : Type}

/-! ### Calls and programs -/

/-- The calls of both interfaces. -/
@[reducible] def Interface.sum (I J : Interface) : Interface where
  Call := I.Call ⊕ J.Call
  Reply := Sum.elim I.Reply J.Reply

@[reducible] def Event.inl (e : Event I) : Event (I.sum J) := ⟨.inl e.call, e.reply⟩

@[reducible] def Event.inr (e : Event J) : Event (I.sum J) := ⟨.inr e.call, e.reply⟩

namespace Prog

/-- A program that makes calls of the first interface only. -/
def inl : Prog I α → Prog (I.sum J) α
  | ret a => ret a
  | call c k => call (.inl c) fun r => (k r).inl

/-- A call of the second interface. -/
def inr (c : J.Call) : Prog (I.sum J) (J.Reply c) := call (.inr c) ret

/-- What a program has done in the sum it has done by itself. -/
theorem wp_inl {P : History (I.sum J) → (I.sum J).Call → Prop} (hP : ∀ h c, P h (.inl c))
    (p : Prog I α) (h : History (I.sum J)) :
    (p.inl (J := J)).wp P
      (fun a h' => ∃ run, p.After run (ret a) ∧ h' = run.map Event.inl ++ h) h := by
  -- `q` is what is left of `p` after the calls `run`
  suffices hleft : ∀ (q : Prog I α) (run : History I), p.After run q →
      (q.inl (J := J)).wp P
        (fun a h' => ∃ run, p.After run (ret a) ∧ h' = run.map Event.inl ++ h)
        (run.map Event.inl ++ h) from hleft p [] .start
  intro q
  induction q with
  | ret a => exact fun run hq => ⟨run, hq, rfl⟩
  | call c k ih =>
      intro run hq
      refine ⟨hP _ c, fun r => ?_⟩
      exact ih r (⟨c, r⟩ :: run) (hq.reply r)

end Prog

/-! ### Machines -/

namespace Machine

/-- Both machines, and programs that call both. -/
def sum (M : Machine I) (N : Machine J) (Request : Type)
    (handler : Request → Prog (I.sum J) Unit) : Machine (I.sum J) where
  World := M.World × N.World
  Choice := M.Choice ⊕ N.Choice
  Outside := M.Outside ⊕ N.Outside
  Request := Request
  init := (M.init, N.init)
  handler := handler
  perform t c ch w :=
    match c, ch with
    | .inl c, .inl ch => (M.perform t c ch w.1).map fun x => (x.1, (x.2, w.2))
    | .inr c, .inr ch => (N.perform t c ch w.2).map fun x => (x.1, (w.1, x.2))
    | _, _ => none
  outside o w :=
    match o with
    | .inl o => (M.outside o w.1).map fun w₁ => (w₁, w.2)
    | .inr o => (N.outside o w.2).map fun w₂ => (w.1, w₂)
  cancel t w := (M.cancel t w.1, N.cancel t w.2)
  crash w := (M.crash w.1, N.crash w.2)

variable {M : Machine I} {N : Machine J} {Request : Type}
  {handler : Request → Prog (I.sum J) Unit} {t : Nat} {w w' : M.World × N.World}

theorem perform_inl {c : I.Call} {ch : M.Choice ⊕ N.Choice} {r : I.Reply c}
    (h : (M.sum N Request handler).perform t (.inl c) ch w = some (r, w')) :
    ∃ ch', M.perform t c ch' w.1 = some (r, w'.1) ∧ w'.2 = w.2 := by
  cases ch with
  | inl ch =>
      obtain ⟨⟨r', w₁⟩, hp, he⟩ := Option.map_eq_some_iff.mp h
      obtain ⟨rfl, rfl⟩ := Prod.mk.inj he
      exact ⟨ch, hp, rfl⟩
  | inr ch => cases h

theorem perform_inr {c : J.Call} {ch : M.Choice ⊕ N.Choice} {r : J.Reply c}
    (h : (M.sum N Request handler).perform t (.inr c) ch w = some (r, w')) :
    ∃ ch', N.perform t c ch' w.2 = some (r, w'.2) ∧ w'.1 = w.1 := by
  cases ch with
  | inl ch => cases h
  | inr ch =>
      obtain ⟨⟨r', w₂⟩, hp, he⟩ := Option.map_eq_some_iff.mp h
      obtain ⟨rfl, rfl⟩ := Prod.mk.inj he
      exact ⟨ch, hp, rfl⟩

theorem outside_sum {o : M.Outside ⊕ N.Outside}
    (h : (M.sum N Request handler).outside o w = some w') :
    w'.2 = w.2 ∨ ∃ o', N.outside o' w.2 = some w'.2 := by
  cases o with
  | inl o =>
      obtain ⟨w₁, -, rfl⟩ := Option.map_eq_some_iff.mp h
      exact .inl rfl
  | inr o =>
      obtain ⟨w₂, ho, rfl⟩ := Option.map_eq_some_iff.mp h
      exact .inr ⟨o, ho⟩

end Machine

/-! ### The calls of one program -/

section calls

variable {M : Machine I}

/-- The part of the trace that is program `t`'s. -/
def Config.calls (s : Config M) (t : Nat) : History I :=
  s.trace.filterMap fun x => if x.1 = t then some x.2 else none

open Config

theorem Config.calls_record (s : Config M) (t u : Nat) (w : M.World) (h : History I) (e : Event I)
    (p : Prog I Unit) :
    (s.record t w h e p).calls u = if t = u then e :: s.calls u else s.calls u := by
  show ((t, e) :: s.trace).filterMap _ = _
  rw [List.filterMap_cons]
  split
  · next hne =>
      split at hne
      · cases hne
      · next htu => rw [if_neg htu, Config.calls]
  · next x hx =>
      split at hx
      · next htu =>
          obtain rfl := Option.some.inj hx
          rw [if_pos htu, Config.calls]
      · cases hx

/-- Nothing that was called is forgotten. -/
theorem Config.calls_grow {s s' : Config M} {m : Move M} (h : s.step m = some s') (t : Nat) :
    s.calls t <:+ s'.calls t := by
  rcases step_cases h with ⟨r, -, rfl⟩ | ⟨u, ch, c, k, hist, r, w, -, -, -, rfl⟩ |
    ⟨u, th, -, -, rfl⟩ | ⟨-, rfl⟩ | ⟨o, w, -, -, rfl⟩
  · exact List.suffix_refl _
  · rw [calls_record]
    split
    · exact List.suffix_cons _ _
    · exact List.suffix_refl _
  · exact List.suffix_refl _
  · exact List.suffix_refl _
  · exact List.suffix_refl _

/-- A live program knows its calls, in their order. -/
theorem Reach.history_eq {ok : Config M → Move M → Prop} {s : Config M} (hs : Reach ok s) :
    ∀ t th, s.thread t = some th → th.history = s.calls t := by
  refine hs.invariant (J := fun s => ∀ t th, s.thread t = some th → th.history = s.calls t) ?_ ?_
  · intro t th h
    simp [Config.start, thread] at h
  · intro s s' m hr ih _ h u th hu
    rcases step_cases h with ⟨r, -, rfl⟩ | ⟨t, ch, c, k, hist, r, w, -, hth, -, rfl⟩ |
      ⟨t, th', -, -, rfl⟩ | ⟨-, rfl⟩ | ⟨o, w, -, -, rfl⟩
    · show th.history = s.calls u
      rcases hs : s.thread u with - | th'
      · -- a new program, whose number nobody has had
        rcases thread_spawn hu with h' | rfl
        · exact ih u th h'
        · symm
          refine List.filterMap_eq_nil_iff.mpr fun x hx => ?_
          refine if_neg fun hxu => ?_
          have hlt : u < s.threads.length := by
            rw [← hxu]
            exact hr.trace_lt x.1 x.2 hx
          have hget := thread_some_lt hu
          simp only [spawn, List.getElem?_append_left hlt] at hget
          simp [thread, hget] at hs
      · have hlt := (List.getElem?_eq_some_iff.mp (thread_some_lt hs)).1
        have hget := thread_some_lt hu
        simp only [spawn, List.getElem?_append_left hlt] at hget
        exact ih u th (by simp [thread, hget])
    · rw [calls_record]
      rcases thread_record hu with ⟨rfl, rfl⟩ | ⟨hut, h'⟩
      · rw [if_pos rfl, ← ih u _ hth]
      · rw [if_neg fun htu => hut htu.symm]
        exact ih u th h'
    · exact ih u th (thread_drop hu).2
    · rw [thread_restart] at hu
      cases hu
    · exact ih u th hu

end calls

end Interleave
