/-
OpenSsp/Lib/Refine.lean

Machines that carry out each call of another machine by a small program of their own.

An `Implementation` gives, for each call of one interface, a program over another interface; the
programs of one thread share a state.  `program` puts them in the place of the calls.  A
`Refinement` of machines asks that a call takes effect, as the coarse machine sees it, with the last
step of its program.  Then every run of the fine machine is, with its worlds seen as coarse ones, a
run of the coarse machine: what holds in all runs there holds here.

Main results: `Refinement.reach`, `Refinement.later` and `Implementation.wp_program`.
-/
import OpenSsp.Lib.Machine

namespace Interleave

variable {I J : Interface} {α β : Type}

/-- Each call of `I` as a program over `J`, which keeps a state. -/
structure Implementation (I J : Interface) where
  State : Type
  start : State
  carry : (c : I.Call) → State → Prog J (I.Reply c × State)

namespace Implementation

variable (f : Implementation I J)

/-- The program with its calls carried out, from the state `σ` on. -/
def program : Prog I α → f.State → Prog J α
  | .ret a, _ => .ret a
  | .call c k, σ => f.carry c σ >>= fun x => program (k x.1) x.2

@[simp] theorem program_ret (a : α) (σ : f.State) : f.program (.ret a) σ = .ret a := rfl

/-- A call is carried out by a program of the lower machine, and then the rest is. -/
theorem program_call (c : I.Call) (k : I.Reply c → Prog I α) (σ : f.State) :
    f.program (.call c k) σ = f.carry c σ >>= fun x => f.program (k x.1) x.2 := rfl

/-- What the states have to do with the calls that were made, coarse and fine ones, carries
contracts over. -/
theorem wp_program {P : History I → I.Call → Prop} {P' : History J → J.Call → Prop}
    {Inv : f.State → History I → History J → Prop}
    (hcarry : ∀ c σ h h', P h c → Inv σ h h' →
      (f.carry c σ).wp P' (fun x h₁ => Inv x.2 (⟨c, x.1⟩ :: h) h₁) h')
    {p : Prog I α} {h : History I} (hp : p.wp P (fun _ _ => True) h) {σ : f.State}
    {h' : History J} (hσ : Inv σ h h') : (f.program p σ).wp P' (fun _ _ => True) h' := by
  induction p generalizing σ h h' with
  | ret a => trivial
  | call c k ih =>
      rw [program_call, Prog.wp_bind]
      exact Prog.wp_mono (hcarry c σ h h' hp.1 hσ) fun x h₁ hx => ih x.1 (hp.2 x.1) hx

/-- `q` is what is left of carrying out `p`: the program of its first call has calls to make. -/
inductive At : Prog I α → Prog J α → Prop
  | ret (a : α) : At (.ret a) (.ret a)
  | within {c : I.Call} {k : I.Reply c → Prog I α} {σ : f.State} {h : History J} {d : J.Call}
      {kd : J.Reply d → Prog J (I.Reply c × f.State)} (hu : (f.carry c σ).After h (.call d kd)) :
      At (.call c k) (.call d kd >>= fun x => f.program (k x.1) x.2)

/-- A call of the lower program belongs to one call of the upper one that is being carried out. -/
theorem At.call_inv {f : Implementation I J} {p : Prog I α} {q : Prog J α} (hat : f.At p q)
    {d : J.Call} {kq : J.Reply d → Prog J α} (hq : q = .call d kq) :
    ∃ c k σ h kd, p = .call c k ∧ (f.carry c σ).After h (.call d kd) ∧
      ∀ r, kq r = kd r >>= fun x => f.program (k x.1) x.2 := by
  rcases hat with a | ⟨hu⟩
  · cases hq
  · rename_i c k σ h d' kd
    obtain ⟨rfl, hk⟩ := Prog.call.inj hq
    obtain rfl := eq_of_heq hk
    exact ⟨c, k, σ, h, kd, rfl, hu, fun r => rfl⟩

end Implementation

/-! ### Threads -/

namespace Config

variable {M : Machine I}

/-- A live program has a number. -/
theorem thread_lt {s : Config M} {t : Nat} {th : Thread I} (h : s.thread t = some th) :
    t < s.threads.length := (List.getElem?_eq_some_iff.mp (thread_some_lt h)).1

/-- One entry of the programs is set. -/
theorem thread_of_set {s s' : Config M} {t : Nat} {o : Option (Thread I)}
    (hs : s'.threads = s.threads.set t o) (ht : t < s.threads.length) (u : Nat) :
    s'.thread u = if t = u then o else s.thread u := by
  unfold thread
  rw [hs, List.getElem?_set]
  split
  · rfl
  · rfl

/-- What is live after a call was made. -/
theorem thread_record_eq {s : Config M} {t : Nat} {th : Thread I} (ht : s.thread t = some th)
    (w : M.World) (h : History I) (e : Event I) (p : Prog I Unit) (u : Nat) :
    (s.record t w h e p).thread u = if t = u then some ⟨p, e :: h⟩ else s.thread u :=
  thread_of_set rfl (thread_lt ht) u

/-- After one is dropped. -/
theorem thread_drop_eq {s : Config M} {t : Nat} {th : Thread I} (ht : s.thread t = some th) (u : Nat) :
    (s.drop t).thread u = if t = u then none else s.thread u := thread_of_set rfl (thread_lt ht) u

/-- After one is started, at the end of the list. -/
theorem thread_spawn_eq (s : Config M) (p : Prog I Unit) (u : Nat) :
    (s.spawn p).thread u = if u = s.threads.length then some ⟨p, []⟩ else s.thread u := by
  show ((s.threads ++ [some ⟨p, []⟩])[u]?).join = if u = s.threads.length then _ else _
  split
  · rename_i hu
    rw [hu, List.getElem?_concat_length, Option.join_some]
  · rename_i hu
    rw [List.getElem?_append]
    split
    · rfl
    · rw [List.getElem?_eq_none (by simp; omega)]
      show none = (s.threads[u]?).join
      rw [List.getElem?_eq_none (by omega)]
      rfl

end Config

/-! ### Refinement -/

/-- The machine `N` carries out the programs of `M`.  Before its last step the program of a call
leaves the world as it is for `M`; with the last step, or at once if there is none, the call takes
place. -/
structure Refinement (M : Machine I) (N : Machine J) (f : Implementation I J) where
  world : N.World → M.World
  request : N.Request → M.Request
  init : world N.init = M.init
  handler : ∀ r, N.handler r = f.program (M.handler (request r)) f.start
  inner : ∀ {c σ h d k}, (f.carry c σ).After h (.call d k) → ∀ {t ch w r w'},
    N.perform t d ch w = some (r, w') → (∀ x, k r ≠ .ret x) → world w' = world w
  last : ∀ {c σ h d k}, (f.carry c σ).After h (.call d k) → ∀ {t ch w r w' x},
    N.perform t d ch w = some (r, w') → k r = .ret x →
    ∃ ch', M.perform t c ch' (world w) = some (x.1, world w')
  none : ∀ {c σ x}, f.carry c σ = .ret x → ∀ t w,
    ∃ ch', M.perform t c ch' (world w) = some (x.1, world w)
  outside : ∀ {o w w'}, N.outside o w = some w' →
    world w' = world w ∨ ∃ o', M.outside o' (world w) = some (world w')
  cancel : ∀ t w, world (N.cancel t w) = M.cancel t (world w)
  crash : ∀ w, world (N.crash w) = M.crash (world w)

namespace Refinement

variable {M : Machine I} {N : Machine J} {f : Implementation I J} (R : Refinement M N f)

/-- A thread of `N` carries out the thread of `M`. -/
def Carried (f : Implementation I J) : Option (Thread I) → Option (Thread J) → Prop
  | .none, .none => True
  | some th, some th' => f.At th.prog th'.prog
  | _, _ => False

/-- `s'` is `s`, in more detail. -/
structure Sim (s : Config M) (s' : Config N) : Prop where
  world : s.world = R.world s'.world
  length : s.threads.length = s'.threads.length
  threads : ∀ t, Carried f (s.thread t) (s'.thread t)

/-- The coarse thread makes the calls that need no step of the fine one. -/
theorem settle {s : Config M} {t : Nat} {h : History I} {p : Prog I Unit} {σ : f.State} {w : N.World}
    (hw : s.world = R.world w) (hth : s.thread t = some ⟨p, h⟩) :
    ∃ s₁ p₁ h₁, Later anyMove s s₁ ∧ s₁.world = s.world ∧ s₁.threads.length = s.threads.length ∧
      (∀ u, s₁.thread u = if t = u then some ⟨p₁, h₁⟩ else s.thread u) ∧
      f.At p₁ (f.program p σ) := by
  induction p generalizing s h σ with
  | ret a =>
      refine ⟨s, .ret a, h, .refl, rfl, rfl, fun u => ?_, .ret a⟩
      split
      · rename_i hu
        rw [← hu, hth]
      · rfl
  | call c k ih =>
      rcases hc : f.carry c σ with x | ⟨d, kd⟩
      · -- the call takes place at once
        obtain ⟨ch, hp⟩ := R.none hc t w
        rw [← hw] at hp
        have hstep := Config.step_run hth hp
        have hrec := Config.thread_record_eq hth s.world h ⟨c, x.1⟩ (k x.1)
        obtain ⟨s₁, p₁, h₁, hl, hw₁, hlen, hths, hat⟩ :=
          ih x.1 (s := s.record t s.world h ⟨c, x.1⟩ (k x.1)) (σ := x.2) hw
            (by rw [hrec, if_pos rfl])
        refine ⟨s₁, p₁, h₁, (Later.refl.step trivial hstep).trans hl, hw₁, ?_, fun u => ?_, ?_⟩
        · rw [hlen]
          exact List.length_set
        · rw [hths, hrec]
          split <;> rfl
        · rw [f.program_call, hc]
          exact hat
      · refine ⟨s, .call c k, h, .refl, rfl, rfl, fun u => ?_, ?_⟩
        · split
          · rename_i hu
            rw [← hu, hth]
          · rfl
        · rw [f.program_call, hc]
          refine .within (σ := σ) (h := []) ?_
          rw [← hc]
          exact .start

/-- A live program of the lower machine carries out a live one of the upper. -/
theorem carried_some {s : Config M} {s' : Config N} (hsim : R.Sim s s') {t : Nat} {th' : Thread J}
    (h : s'.thread t = some th') : ∃ th, s.thread t = some th ∧ f.At th.prog th'.prog := by
  have hc := hsim.threads t
  rw [h] at hc
  cases hth : s.thread t with
  | none => rw [hth] at hc; exact hc.elim
  | some th => rw [hth] at hc; exact ⟨th, rfl, hc⟩

/-- Each move of the fine machine is some moves of the coarse one. -/
theorem step {s : Config M} {s₁ s₂ : Config N} {m : Move N} (hsim : R.Sim s s₁)
    (hst : s₁.step m = some s₂) : ∃ s', Later anyMove s s' ∧ R.Sim s' s₂ := by
  rcases Config.step_cases hst with ⟨r, -, rfl⟩ | ⟨t, ch, d, k, hist, r, w, -, hth, hp, rfl⟩ |
    ⟨t, th, -, hth, rfl⟩ | ⟨-, rfl⟩ | ⟨o, w, -, ho, rfl⟩
  · -- a new program
    have hnew := s.thread_spawn_eq (M.handler (R.request r))
    have hnew' := s₁.thread_spawn_eq (N.handler r)
    obtain ⟨s', p, h, hl, hw, hlen, hths, hat⟩ := R.settle (s := s.spawn (M.handler (R.request r)))
      (t := s.threads.length) (σ := f.start) (w := s₁.world) hsim.world
      (by rw [hnew, if_pos rfl])
    refine ⟨s', (Later.refl.step (m := .spawn (R.request r)) trivial rfl).trans hl,
      hw.trans hsim.world, ?_, fun u => ?_⟩
    · rw [hlen]
      simp [Config.spawn, hsim.length]
    · rw [hths, hnew, hnew', ← hsim.length, R.handler]
      by_cases hu : s.threads.length = u
      · rw [if_pos hu, if_pos hu.symm]
        exact hat
      · rw [if_neg hu, if_neg (Ne.symm hu), if_neg (Ne.symm hu)]
        exact hsim.threads u
  · -- the next step of the program of a call
    obtain ⟨⟨p, h⟩, hths, hat⟩ := R.carried_some hsim hth
    obtain ⟨c, k₀, σ, h', kd, rfl, hu, hk⟩ := hat.call_inv rfl
    have hset := Config.thread_record_eq hth w hist ⟨d, r⟩ (k r)
    rcases hkr : kd r with x | ⟨d', kd'⟩
    · -- the last one: the call takes place
      obtain ⟨ch', hp'⟩ := R.last hu hp hkr
      rw [← hsim.world] at hp'
      have hset' := Config.thread_record_eq hths (R.world w) h ⟨c, x.1⟩ (k₀ x.1)
      obtain ⟨s', p, h₁, hl, hw, hlen, hths', hat'⟩ := R.settle
        (s := s.record t (R.world w) h ⟨c, x.1⟩ (k₀ x.1)) (t := t) (σ := x.2) (w := w) rfl
        (by rw [hset', if_pos rfl])
      refine ⟨s', (Later.refl.step (m := .run t ch') trivial (Config.step_run hths hp')).trans hl,
        hw, ?_, fun u => ?_⟩
      · rw [hlen]
        simp [Config.record, hsim.length]
      · rw [hths', hset, hset', hk, hkr]
        by_cases hu : t = u
        · rw [if_pos hu, if_pos hu]
          exact hat'
        · rw [if_neg hu, if_neg hu, if_neg hu]
          exact hsim.threads u
    · -- one before: nothing has happened yet
      have hworld : R.world w = R.world s₁.world := R.inner hu hp fun x hx => by
        rw [hkr] at hx
        cases hx
      refine ⟨s, .refl, hsim.world.trans hworld.symm, ?_, fun u => ?_⟩
      · simp [Config.record, hsim.length]
      · rw [hset, hk, hkr]
        by_cases hut : t = u
        · rw [if_pos hut, ← hut, hths]
          refine .within (σ := σ) (h := ⟨d, r⟩ :: h') ?_
          rw [← hkr]
          exact hu.reply r
        · rw [if_neg hut]
          exact hsim.threads u
  · obtain ⟨th₀, hths, -⟩ := R.carried_some hsim hth
    have hstep : s.step (.cancel t) = some (s.drop t) := by
      show (s.thread t).map _ = _
      rw [hths]
      rfl
    refine ⟨s.drop t, Later.refl.step trivial hstep, ?_, ?_, fun u => ?_⟩
    · show M.cancel t s.world = R.world (N.cancel t s₁.world)
      rw [R.cancel, hsim.world]
    · simp [Config.drop, hsim.length]
    · rw [Config.thread_drop_eq hths, Config.thread_drop_eq hth]
      by_cases hu : t = u
      · rw [if_pos hu, if_pos hu]
        trivial
      · rw [if_neg hu, if_neg hu]
        exact hsim.threads u
  · refine ⟨s.restart, Later.refl.step (m := .crash) trivial rfl, ?_, ?_, fun u => ?_⟩
    · show M.crash s.world = R.world (N.crash s₁.world)
      rw [R.crash, hsim.world]
    · simp [Config.restart, hsim.length]
    · rw [Config.thread_restart, Config.thread_restart]
      trivial
  · rcases R.outside ho with hsame | ⟨o', ho'⟩
    · exact ⟨s, .refl, hsim.world.trans hsame.symm, hsim.length, hsim.threads⟩
    · have hstep : s.step (.outside o') = some { s with world := R.world w } := by
        show (M.outside o' s.world).map _ = _
        rw [hsim.world, ho']
        rfl
      exact ⟨_, Later.refl.step trivial hstep, rfl, hsim.length, hsim.threads⟩

/-- At the start there are no programs, and the worlds are related. -/
theorem sim_start : R.Sim (Config.start M) (Config.start N) :=
  ⟨R.init.symm, rfl, fun _ => trivial⟩

/-- Later moves of the fine machine are later moves of the coarse one. -/
theorem later {s : Config M} {s₁ s₂ : Config N} (hsim : R.Sim s s₁) (hl : Later anyMove s₁ s₂) :
    ∃ s', Later anyMove s s' ∧ R.Sim s' s₂ := by
  induction hl with
  | refl => exact ⟨s, .refl, hsim⟩
  | step _ _ hst ih =>
      obtain ⟨s', hl, hsim'⟩ := ih
      obtain ⟨s'', hl', hsim''⟩ := R.step hsim' hst
      exact ⟨s'', hl.trans hl', hsim''⟩

/-- **Every run of the fine machine is a run of the coarse one**, with the same worlds as far as the
coarse machine sees them. -/
theorem reach {s : Config N} (hs : Reach anyMove s) :
    ∃ s', Reach anyMove s' ∧ R.Sim s' s := by
  induction hs with
  | start => exact ⟨Config.start M, .start, R.sim_start⟩
  | step _ _ hst ih =>
      obtain ⟨s', hs', hsim⟩ := ih
      obtain ⟨s'', hl, hsim'⟩ := R.step hsim hst
      exact ⟨s'', hs'.later hl, hsim'⟩

end Refinement

end Interleave
