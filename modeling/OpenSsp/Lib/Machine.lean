/-
OpenSsp/Lib/Machine.lean

Machines: any number of programs (`Prog`) running concurrently over one world.

A `Machine` says how a call changes the world.  Whatever is not determined by the
world (which reply a remote party gives, what is lost on the way) is a `Choice`, so
that a step is a function of the configuration and a `Move`, and a run is a list of
moves.  Besides calls the moves are: a request starting a new program, a program
being dropped at an await point (`cancel`), the process restarting (`crash`), and
the outside changing by itself (`outside`).

`Reach ok M s` says that a run reaches `s` in which every move is allowed by `ok`.
These rules cover the properties of runs:

* `Reach.invariant` for properties of whole configurations,
* `Reach.threads_know` for what every live program knows of the world,
* `Reach.happened` for what a past event says about the world from then on,
* `Reach.kept` for what a program has learned and holds a guard on since,
* `Reach.same_program` for two events of one program,
* `Reach.once_each` for events that happen at most once.

`Reach.justified` connects runs to the contract logic: when every program a request
can start obeys the contract `P`, every call ever made obeys it.
-/
import OpenSsp.Lib.Prog

namespace Interleave

/-- How calls, the outside, and losing a program or the process change the world. -/
structure Machine (I : Interface) where
  World : Type
  Choice : Type
  Outside : Type
  Request : Type
  init : World
  handler : Request → Prog I Unit
  perform : Nat → (c : I.Call) → Choice → World → Option (I.Reply c × World)
  outside : Outside → World → Option World
  cancel : Nat → World → World
  crash : World → World

/-- A live program with its own history. -/
structure Thread (I : Interface) where
  prog : Prog I Unit
  history : History I

variable {I : Interface}

/-- The world, the programs (dead ones keep their place), and everything that was
ever called, newest first. -/
structure Config (M : Machine I) where
  world : M.World
  threads : List (Option (Thread I))
  trace : List (Nat × Event I)

/-- What can happen next: a request comes in, a program makes its next call, one is abandoned,
everything stops, or the world changes by itself. -/
inductive Move (M : Machine I) where
  | spawn (r : M.Request)
  | run (t : Nat) (ch : M.Choice)
  | cancel (t : Nat)
  | crash
  | outside (o : M.Outside)

/-- Program `t` makes its next calls, with these choices. -/
def Move.runs {M : Machine I} (t : Nat) (chs : List M.Choice) : List (Move M) := chs.map (.run t)

namespace Config

variable {M : Machine I}

/-- The world at first, without programs and events. -/
def start (M : Machine I) : Config M := ⟨M.init, [], []⟩

/-- Program `t`, if it is live. -/
def thread (s : Config M) (t : Nat) : Option (Thread I) := (s.threads[t]?).join

/-- The call program `t` makes next. -/
def next (s : Config M) (t : Nat) : Option I.Call := (s.thread t).bind fun th => th.prog.next

/-- A new program is live, with nothing behind it. -/
def spawn (s : Config M) (p : Prog I Unit) : Config M :=
  { s with threads := s.threads ++ [some ⟨p, []⟩] }

/-- An abandoned program keeps its number. -/
def drop (s : Config M) (t : Nat) : Config M :=
  { s with world := M.cancel t s.world, threads := s.threads.set t none }

/-- After a crash no program is live; the numbers go on. -/
def restart (s : Config M) : Config M :=
  { s with world := M.crash s.world, threads := s.threads.map fun _ => none }

/-- Program `t` has got the reply `r` to `c` and goes on with `p`. -/
def record (s : Config M) (t : Nat) (w : M.World) (h : History I) (e : Event I)
    (p : Prog I Unit) : Config M :=
  { world := w, threads := s.threads.set t (some ⟨p, e :: h⟩), trace := (t, e) :: s.trace }

/-- One move; `none` when the move is not possible. -/
def step (s : Config M) : Move M → Option (Config M)
  | .spawn r => some (s.spawn (M.handler r))
  | .run t ch =>
      match s.thread t with
      | some ⟨.call c k, h⟩ =>
          (M.perform t c ch s.world).map fun rw => s.record t rw.2 h ⟨c, rw.1⟩ (k rw.1)
      | _ => none
  | .cancel t => (s.thread t).map fun _ => s.drop t
  | .crash => some s.restart
  | .outside o => (M.outside o s.world).map fun w => { s with world := w }

/-- A call that can be performed is one step. -/
theorem step_run {s : Config M} {t : Nat} {ch : M.Choice} {c : I.Call} {k : I.Reply c → Prog I Unit}
    {h : History I} {r : I.Reply c} {w : M.World} (hth : s.thread t = some ⟨.call c k, h⟩)
    (hp : M.perform t c ch s.world = some (r, w)) :
    s.step (.run t ch) = some (s.record t w h ⟨c, r⟩ (k r)) := by
  simp only [step, hth, hp, Option.map_some]

/-- Everything a move can do. -/
theorem step_cases {s s' : Config M} {m : Move M} (h : s.step m = some s') :
    (∃ r, m = .spawn r ∧ s' = s.spawn (M.handler r)) ∨
    (∃ t ch c k hist r w, m = .run t ch ∧ s.thread t = some ⟨.call c k, hist⟩ ∧
      M.perform t c ch s.world = some (r, w) ∧ s' = s.record t w hist ⟨c, r⟩ (k r)) ∨
    (∃ t th, m = .cancel t ∧ s.thread t = some th ∧ s' = s.drop t) ∨
    (m = .crash ∧ s' = s.restart) ∨
    (∃ o w, m = .outside o ∧ M.outside o s.world = some w ∧ s' = { s with world := w }) := by
  cases m with
  | spawn r => exact .inl ⟨r, rfl, (Option.some.inj h).symm⟩
  | run t ch =>
      right; left
      rcases hth : s.thread t with - | ⟨p, hist⟩
      · simp [step, hth] at h
      · rcases p with u | ⟨c, k⟩
        · simp [step, hth] at h
        · simp only [step, hth, Option.map_eq_some_iff] at h
          obtain ⟨⟨r, w⟩, hp, hs⟩ := h
          exact ⟨t, ch, c, k, hist, r, w, rfl, hth, hp, hs.symm⟩
  | cancel t =>
      right; right; left
      simp only [step, Option.map_eq_some_iff] at h
      obtain ⟨th, hth, hs⟩ := h
      exact ⟨t, th, rfl, hth, hs.symm⟩
  | crash => exact .inr (.inr (.inr (.inl ⟨rfl, (Option.some.inj h).symm⟩)))
  | outside o =>
      right; right; right; right
      simp only [step, Option.map_eq_some_iff] at h
      obtain ⟨w, hw, hs⟩ := h
      exact ⟨o, w, rfl, hw, hs.symm⟩

/-- A move adds to the trace. -/
theorem trace_grows {s s' : Config M} {m : Move M} (h : s.step m = some s') {x : Nat × Event I}
    (hx : x ∈ s.trace) : x ∈ s'.trace := by
  rcases step_cases h with ⟨r, -, rfl⟩ | ⟨t, ch, c, k, hist, r, w, -, -, -, rfl⟩ |
    ⟨t, th, -, -, rfl⟩ | ⟨-, rfl⟩ | ⟨o, w, -, -, rfl⟩
  · exact hx
  · exact List.mem_cons_of_mem _ hx
  · exact hx
  · exact hx
  · exact hx

/-! ### Which programs are live after a move -/

/-- A live program has a number that was given. -/
theorem thread_some_lt {s : Config M} {t : Nat} {th : Thread I} (h : s.thread t = some th) :
    s.threads[t]? = some (some th) := by
  unfold thread at h
  rcases hx : s.threads[t]? with - | o
  · simp [hx] at h
  · simp only [hx, Option.join_some] at h
    rw [h]

/-- A live program was live before, or is the new one. -/
theorem thread_spawn {s : Config M} {p : Prog I Unit} {u : Nat} {th : Thread I}
    (h : (s.spawn p).thread u = some th) : s.thread u = some th ∨ th = ⟨p, []⟩ := by
  have h' := thread_some_lt h
  simp only [spawn, List.getElem?_append] at h'
  split at h'
  · left
    simp [thread, h']
  · right
    rcases hu : u - s.threads.length with - | n
    · simpa [hu, eq_comm] using h'
    · simp [hu] at h'

/-- After one entry is set, a live program is the entry or was live before. -/
theorem thread_set {s : Config M} {ts : List (Option (Thread I))} {t u : Nat}
    {o : Option (Thread I)} {th : Thread I} (hts : ts = s.threads.set t o)
    (h : ts[u]? = some (some th)) : (u = t ∧ o = some th) ∨ (u ≠ t ∧ s.thread u = some th) := by
  subst hts
  by_cases hut : u = t
  · subst hut
    left
    rw [List.getElem?_set] at h
    split at h
    · split at h
      · exact ⟨rfl, Option.some.inj h⟩
      · simp at h
    · exact absurd rfl ‹_›
  · right
    rw [List.getElem?_set_ne (fun e => hut e.symm)] at h
    exact ⟨hut, by simp [thread, h]⟩

/-- What is still live was not abandoned. -/
theorem thread_drop {s : Config M} {t u : Nat} {th : Thread I}
    (h : (s.drop t).thread u = some th) : u ≠ t ∧ s.thread u = some th := by
  rcases thread_set rfl (thread_some_lt h) with ⟨-, h'⟩ | h'
  · simp at h'
  · exact h'

/-- No program survives a restart. -/
theorem thread_restart {s : Config M} {u : Nat} : s.restart.thread u = none := by
  simp only [thread, restart, List.getElem?_map]
  cases s.threads[u]? <;> rfl

/-- The program that made a call goes on; every other one is as it was. -/
theorem thread_record {s : Config M} {t u : Nat} {w : M.World} {hist : History I}
    {e : Event I} {p : Prog I Unit} {th : Thread I}
    (h : (s.record t w hist e p).thread u = some th) :
    (u = t ∧ th = ⟨p, e :: hist⟩) ∨ (u ≠ t ∧ s.thread u = some th) := by
  rcases thread_set rfl (thread_some_lt h) with ⟨hut, h'⟩ | h'
  · exact .inl ⟨hut, (Option.some.inj h').symm⟩
  · exact .inr h'

end Config

open Config

variable {M : Machine I} {ok : Config M → Move M → Prop}

/-- The configurations of runs whose moves are all allowed by `ok`. -/
inductive Reach (ok : Config M → Move M → Prop) : Config M → Prop
  | start : Reach ok (Config.start M)
  | step {s s' : Config M} {m : Move M} (hs : Reach ok s) (hm : ok s m)
      (h : s.step m = some s') : Reach ok s'

/-- A run of allowed moves leads from `s` to the other configuration. -/
inductive Later (ok : Config M → Move M → Prop) (s : Config M) : Config M → Prop
  | refl : Later ok s s
  | step {s₁ s₂ : Config M} {m : Move M} (hs : Later ok s s₁) (hm : ok s₁ m)
      (h : s₁.step m = some s₂) : Later ok s s₂

/-- Later points of a run can be put together. -/
theorem Later.trans {s s₁ s₂ : Config M} (h : Later ok s s₁) (h' : Later ok s₁ s₂) :
    Later ok s s₂ := by
  induction h' with
  | refl => exact h
  | step _ hm hst ih => exact ih.step hm hst

/-- The same run under a weaker condition on its moves. -/
theorem Later.weaken {ok' : Config M → Move M → Prop} {s s' : Config M} (h : Later ok s s')
    (hok : ∀ s m, ok s m → ok' s m) : Later ok' s s' := by
  induction h with
  | refl => exact .refl
  | step _ hm hst ih => exact ih.step (hok _ _ hm) hst

/-- Every move is allowed. -/
def anyMove (_ : Config M) (_ : Move M) : Prop := True

/-- The call of `e` as program `t` made it, knowing `h`: `s` before it, `s'` after it. -/
structure Moment (ok : Config M → Move M → Prop) (t : Nat) (e : Event I) (h : History I)
    (s s' : Config M) : Prop where
  reach : Reach ok s
  made : ∃ ch k, s.thread t = some ⟨.call e.call k, h⟩ ∧ ok s (.run t ch) ∧
    M.perform t e.call ch s.world = some (e.reply, s'.world) ∧
    s' = s.record t s'.world h e (k e.reply)

/-- That call is a move. -/
theorem Moment.step {t : Nat} {e : Event I} {h : History I} {s s' : Config M}
    (hm : Moment ok t e h s s') : ∃ ch, ok s (.run t ch) ∧ s.step (.run t ch) = some s' := by
  obtain ⟨ch, k, hth, hok, hp, hs'⟩ := hm.made
  refine ⟨ch, hok, ?_⟩
  rw [Config.step_run hth hp]
  exact congrArg some hs'.symm

/-- The run goes on with that call, which is in the trace then. -/
theorem Moment.after {t : Nat} {e : Event I} {h : History I} {s s' : Config M}
    (hm : Moment ok t e h s s') : Reach ok s' ∧ (t, e) ∈ s'.trace := by
  obtain ⟨ch, hok, hstep⟩ := hm.step
  obtain ⟨_, k, -, -, -, hs'⟩ := hm.made
  constructor
  · exact .step hm.reach hok hstep
  · rw [hs']
    exact List.mem_cons_self

namespace Reach

/-- A run is one under a weaker condition too. -/
theorem weaken {ok' : Config M → Move M → Prop} {s : Config M} (hs : Reach ok s)
    (h : ∀ s m, ok s m → ok' s m) : Reach ok' s := by
  induction hs with
  | start => exact .start
  | step _ hm hst ih => exact .step ih (h _ _ hm) hst

/-- Induction over a run. -/
theorem invariant {J : Config M → Prop} (h0 : J (Config.start M))
    (hstep : ∀ s s' m, Reach ok s → J s → ok s m → s.step m = some s' → J s')
    {s : Config M} (hs : Reach ok s) : J s := by
  induction hs with
  | start => exact h0
  | step hs hm h ih => exact hstep _ _ _ hs ih hm h

/-! ### Two points of one run -/

/-- What comes later in a run is reached by it. -/
theorem later {s s' : Config M} (hs : Reach ok s) (h : Later ok s s') : Reach ok s' := by
  induction h with
  | refl => exact hs
  | step _ hm hst ih => exact .step ih hm hst

/-- What every move of a run preserves is preserved up to every later point. -/
theorem preserved {J : Config M → Prop} {s s' : Config M} (hs : Reach ok s) (h : Later ok s s')
    (hstep : ∀ a b m, Reach ok a → ok a m → a.step m = some b → J a → J b) (hJ : J s) : J s' := by
  induction h with
  | refl => exact hJ
  | step hl hm hst ih => exact hstep _ _ _ (hs.later hl) hm hst ih

/-! ### Runs of a list of moves -/

/-- Make the moves in order; `none` when one is impossible or not allowed. -/
def runMoves (allowed : Config M → Move M → Bool) : List (Move M) → Config M → Option (Config M)
  | [], s => some s
  | m :: ms, s => if allowed s m then (s.step m).bind (runMoves allowed ms) else none

/-- Moves that are possible and allowed lead to a later point. -/
theorem later_of_runMoves {allowed : Config M → Move M → Bool}
    (hok : ∀ s m, allowed s m = true → ok s m) {ms : List (Move M)} {s₀ s s' : Config M}
    (hs : Later ok s₀ s) (h : runMoves allowed ms s = some s') : Later ok s₀ s' := by
  induction ms generalizing s with
  | nil =>
      obtain rfl := Option.some.inj h
      exact hs
  | cons m ms ih =>
      simp only [runMoves] at h
      split at h
      · next hm =>
          obtain ⟨s₁, hs₁, h⟩ := Option.bind_eq_some_iff.mp h
          exact ih (.step hs (hok _ _ hm) hs₁) h
      · simp at h

/-- From the start they make a run. -/
theorem of_runMoves {allowed : Config M → Move M → Bool}
    (hok : ∀ s m, allowed s m = true → ok s m) {ms : List (Move M)} {s s' : Config M}
    (hs : Reach ok s) (h : runMoves allowed ms s = some s') : Reach ok s' :=
  hs.later (later_of_runMoves hok .refl h)

/-- A run of allowed moves ends in a configuration with the property that is tested. -/
theorem exists_of_runMoves {allowed : Config M → Move M → Bool}
    (hok : ∀ s m, allowed s m = true → ok s m) {ms : List (Move M)} {p : Config M → Bool}
    (h : (runMoves allowed ms (Config.start M)).any p = true) : ∃ s, Reach ok s ∧ p s = true := by
  obtain ⟨s, hs, hp⟩ := Option.any_eq_true _ _ |>.mp h
  exact ⟨s, of_runMoves hok .start hs, hp⟩

/-- Any moves that are possible make a run. -/
theorem exists_of_moves (ms : List (Move M)) (p : Config M → Bool)
    (h : (runMoves (fun _ _ => true) ms (Config.start M)).any p = true) :
    ∃ s : Config M, Reach anyMove s ∧ p s = true :=
  exists_of_runMoves (fun _ _ _ => trivial) h

/-- The end of a run that is kept, with what is tested of it. -/
structure Run (ok : Config M → Move M → Prop) (p : Config M → Bool) where
  last : Config M
  reach : Reach ok last
  shows : p last = true

/-- Allowed moves make a run, when the test of their end is evaluated. -/
def Run.of {p : Config M → Bool} (allowed : Config M → Move M → Bool)
    (hok : ∀ s m, allowed s m = true → ok s m) (ms : List (Move M))
    (h : (runMoves allowed ms (Config.start M)).any p = true) : Run ok p :=
  match hs : runMoves allowed ms (Config.start M), h with
  | some s, hp => ⟨s, of_runMoves hok .start hs, hp⟩

/-- Any moves that are possible make one. -/
def Run.ofMoves {p : Config M → Bool} (ms : List (Move M))
    (h : (runMoves (fun _ _ => true) ms (Config.start M)).any p = true) : Run anyMove p :=
  .of (fun _ _ => true) (fun _ _ _ => trivial) ms h

/-- The same for two points of one run. -/
theorem exists_later_of_runMoves {allowed : Config M → Move M → Bool}
    (hok : ∀ s m, allowed s m = true → ok s m) (ms ms' : List (Move M)) (p p' : Config M → Bool)
    (h : (runMoves allowed ms (Config.start M)).any
      (fun s => p s && (runMoves allowed ms' s).any p') = true) :
    ∃ s s', Reach ok s ∧ Later ok s s' ∧ p s = true ∧ p' s' = true := by
  obtain ⟨s, hs, hp⟩ := Option.any_eq_true _ _ |>.mp h
  obtain ⟨hp, hp'⟩ := Bool.and_eq_true_iff.mp hp
  obtain ⟨s', hs', hp'⟩ := Option.any_eq_true _ _ |>.mp hp'
  exact ⟨s, s', of_runMoves hok .start hs, later_of_runMoves hok .refl hs', hp, hp'⟩

/-- Two points of a run that are kept. -/
structure LongRun (ok : Config M → Move M → Prop) (p p' : Config M → Bool) where
  middle : Config M
  last : Config M
  reach : Reach ok middle
  later : Later ok middle last
  shows : p middle = true
  shows_last : p' last = true

/-- Two lists of moves make it, when both tests are evaluated. -/
def LongRun.of {p p' : Config M → Bool} (allowed : Config M → Move M → Bool)
    (hok : ∀ s m, allowed s m = true → ok s m) (ms ms' : List (Move M))
    (h : (runMoves allowed ms (Config.start M)).any
      (fun s => p s && (runMoves allowed ms' s).any p') = true) : LongRun ok p p' :=
  match hs : runMoves allowed ms (Config.start M), h with
  | some s, h =>
      have hboth := Bool.and_eq_true_iff.mp h
      match hs' : runMoves allowed ms' s, hboth.2 with
      | some s', hp' =>
          ⟨s, s', of_runMoves hok .start hs, later_of_runMoves hok .refl hs', hboth.1, hp'⟩

/-! ### Contracts hold along runs -/

/-- When every program a request can start obeys `P` and ends with `Q`, so does what is left of
every live program. -/
theorem threads_end {P : History I → I.Call → Prop} {Q : Unit → History I → Prop}
    (hP : ∀ r, (M.handler r).wp P Q []) {s : Config M} (hs : Reach ok s) :
    ∀ t th, s.thread t = some th → th.prog.wp P Q th.history := by
  refine invariant (J := fun s => ∀ t th, s.thread t = some th → th.prog.wp P Q th.history)
    ?_ ?_ hs
  · intro t th h
    simp [Config.start, thread] at h
  · intro s s' m _ ih _ h u th hu
    rcases step_cases h with ⟨r, -, rfl⟩ | ⟨t, ch, c, k, hist, r, w, -, hth, -, rfl⟩ |
      ⟨t, th', -, -, rfl⟩ | ⟨-, rfl⟩ | ⟨o, w, -, -, rfl⟩
    · rcases thread_spawn hu with h' | rfl
      · exact ih u th h'
      · exact hP r
    · rcases thread_record hu with ⟨-, rfl⟩ | ⟨-, h'⟩
      · exact (ih t _ hth).2 r
      · exact ih u th h'
    · exact ih u th (thread_drop hu).2
    · rw [thread_restart] at hu
      exact absurd hu (by simp)
    · exact ih u th hu

/-- The postcondition is of no interest here. -/
theorem threads_wp {P : History I → I.Call → Prop}
    (hP : ∀ r, (M.handler r).wp P (fun _ _ => True) []) {s : Config M} (hs : Reach ok s) :
    ∀ t th, s.thread t = some th → th.prog.wp P (fun _ _ => True) th.history := threads_end hP hs

/-- The program a request started is, at every later point of the run, what is left of that
request after the calls in its history. -/
theorem spawned_after {r : M.Request} {s s' : Config M} (h : Later ok (s.spawn (M.handler r)) s') :
    ∀ th, s'.thread s.threads.length = some th → (M.handler r).After th.history th.prog := by
  suffices hlive : s.threads.length < s'.threads.length ∧
      ∀ th, s'.thread s.threads.length = some th → (M.handler r).After th.history th.prog from
    hlive.2
  induction h with
  | refl =>
      refine ⟨by simp [spawn], fun th hth => ?_⟩
      have hget := thread_some_lt hth
      simp only [spawn, List.getElem?_concat_length, Option.some.injEq] at hget
      rw [← hget]
      exact .start
  | step _ _ hst ih =>
      obtain ⟨hlt, ih⟩ := ih
      rcases step_cases hst with ⟨r', -, rfl⟩ | ⟨t, ch, c, k, hist, a, w, -, hth, -, rfl⟩ |
        ⟨t, th', -, -, rfl⟩ | ⟨-, rfl⟩ | ⟨o, w, -, -, rfl⟩
      · refine ⟨by simp only [spawn, List.length_append]; omega, fun th hth => ih th ?_⟩
        have hget := thread_some_lt hth
        simp only [spawn, List.getElem?_append_left hlt] at hget
        simp [thread, hget]
      · refine ⟨by simpa [record] using hlt, fun th hth' => ?_⟩
        rcases thread_record hth' with ⟨rfl, rfl⟩ | ⟨-, h'⟩
        · exact (ih _ hth).reply a
        · exact ih th h'
      · exact ⟨by simpa [drop] using hlt, fun th hth => ih th (thread_drop hth).2⟩
      · refine ⟨by simpa [restart] using hlt, fun th hth => ?_⟩
        rw [thread_restart] at hth
        exact absurd hth (by simp)
      · exact ⟨hlt, ih⟩

/-- So it obeys the contract of that one request. -/
theorem spawned_wp {P : History I → I.Call → Prop} {r : M.Request}
    (hP : (M.handler r).wp P (fun _ _ => True) []) {s s' : Config M}
    (h : Later ok (s.spawn (M.handler r)) s') (th : Thread I)
    (hth : s'.thread s.threads.length = some th) : th.prog.wp P (fun _ _ => True) th.history := by
  have hleft := (spawned_after h th hth).wp hP
  rwa [List.append_nil] at hleft

/-- Every call a live program is about to make obeys the contract. -/
theorem justified {P : History I → I.Call → Prop}
    (hP : ∀ r, (M.handler r).wp P (fun _ _ => True) []) {s : Config M} (hs : Reach ok s)
    {t : Nat} {c : I.Call} {k : I.Reply c → Prog I Unit} {hist : History I}
    (h : s.thread t = some ⟨.call c k, hist⟩) : P hist c :=
  (threads_wp hP hs t _ h).1

/-! ### Looking back along a run -/

/-- A program's history is its part of the trace. -/
theorem history_mem {s : Config M} (hs : Reach ok s) :
    ∀ t th, s.thread t = some th → ∀ e ∈ th.history, (t, e) ∈ s.trace := by
  refine invariant (J := fun s => ∀ t th, s.thread t = some th →
    ∀ e ∈ th.history, (t, e) ∈ s.trace) ?_ ?_ hs
  · intro t th h
    simp [Config.start, thread] at h
  · intro s s' m _ ih _ h u th hu e he
    rcases step_cases h with ⟨r, -, rfl⟩ | ⟨t, ch, c, k, hist, r, w, -, hth, -, rfl⟩ |
      ⟨t, th', -, -, rfl⟩ | ⟨-, rfl⟩ | ⟨o, w, -, -, rfl⟩
    · rcases thread_spawn hu with h' | rfl
      · exact ih u th h' e he
      · simp at he
    · rcases thread_record hu with ⟨rfl, rfl⟩ | ⟨-, h'⟩
      · rcases List.mem_cons.mp he with rfl | he
        · exact List.mem_cons_self
        · exact List.mem_cons_of_mem _ (ih u _ hth e he)
      · exact List.mem_cons_of_mem _ (ih u th h' e he)
    · exact ih u th (thread_drop hu).2 e he
    · rw [thread_restart] at hu
      exact absurd hu (by simp)
    · exact ih u th hu e he

/-- Whoever made a call has a number already. -/
theorem trace_lt {s : Config M} (hs : Reach ok s) :
    ∀ t e, (t, e) ∈ s.trace → t < s.threads.length := by
  refine invariant (J := fun s => ∀ t e, (t, e) ∈ s.trace → t < s.threads.length) ?_ ?_ hs
  · simp [Config.start]
  · intro s s' m _ hlt _ h u e he
    rcases step_cases h with ⟨r, -, rfl⟩ | ⟨t, ch, c, k, hist, r, w, -, hth, -, rfl⟩ |
      ⟨t, th, -, -, rfl⟩ | ⟨-, rfl⟩ | ⟨o, w, -, -, rfl⟩
    · have := hlt u e he
      simp only [spawn, List.length_append]
      omega
    · simp only [record, List.length_set]
      rcases List.mem_cons.mp he with he | he
      · obtain ⟨rfl, -⟩ := Prod.mk.inj he
        exact (List.getElem?_eq_some_iff.mp (thread_some_lt hth)).1
      · exact hlt u e he
    · simp only [drop, List.length_set]
      exact hlt u e he
    · simp only [restart, List.length_map]
      exact hlt u e he
    · exact hlt u e he

/-- A live program knows everything it has ever called. -/
theorem history_complete {s : Config M} (hs : Reach ok s) {t : Nat} {th : Thread I}
    (hth : s.thread t = some th) {e : Event I} (he : (t, e) ∈ s.trace) : e ∈ th.history := by
  refine invariant (J := fun s => ∀ t th, s.thread t = some th → ∀ e, (t, e) ∈ s.trace →
    e ∈ th.history) ?_ ?_ hs t th hth e he
  · simp [Config.start]
  · intro s s' m hs hall _ h u th hu e he
    rcases step_cases h with ⟨r, -, rfl⟩ | ⟨t, ch, c, k, hist, r, w, -, hth, -, rfl⟩ |
      ⟨t, th, -, -, rfl⟩ | ⟨-, rfl⟩ | ⟨o, w, -, -, rfl⟩
    · rcases thread_spawn hu with h' | rfl
      · exact hall u th h' e he
      · -- the new program has a number of its own
        have hget := thread_some_lt hu
        simp only [spawn, List.getElem?_append_left (hs.trace_lt u e he)] at hget
        have hu' : s.thread u = some ⟨M.handler r, []⟩ := by simp [thread, hget]
        exact hall u _ hu' e he
    · rcases thread_record hu with ⟨rfl, rfl⟩ | ⟨hut, h'⟩
      · rcases List.mem_cons.mp he with he | he
        · obtain ⟨-, rfl⟩ := Prod.mk.inj he
          exact List.mem_cons_self
        · exact List.mem_cons_of_mem _ (hall u _ hth e he)
      · rcases List.mem_cons.mp he with he | he
        · exact absurd (Prod.mk.inj he).1 hut
        · exact hall u th h' e he
    · exact hall u _ (thread_drop hu).2 e he
    · rw [thread_restart] at hu
      exact absurd hu (by simp)
    · exact hall u th hu e he

/-- Of two events of one program, one was known when the other was made. -/
theorem same_program {s : Config M} (hs : Reach ok s) {t : Nat} {e e' : Event I}
    (he : (t, e) ∈ s.trace) (he' : (t, e') ∈ s.trace) : e = e' ∨
    (∃ h s₀ s₁, Moment ok t e h s₀ s₁ ∧ e' ∈ h) ∨ ∃ h s₀ s₁, Moment ok t e' h s₀ s₁ ∧ e ∈ h := by
  refine invariant (J := fun s => (t, e) ∈ s.trace → (t, e') ∈ s.trace → e = e' ∨
    (∃ h s₀ s₁, Moment ok t e h s₀ s₁ ∧ e' ∈ h) ∨
    ∃ h s₀ s₁, Moment ok t e' h s₀ s₁ ∧ e ∈ h) ?_ ?_ hs he he'
  · intro h
    simp [Config.start] at h
  · intro s s' m hr ih hm h he he'
    rcases step_cases h with ⟨r, -, rfl⟩ | ⟨u, ch, c, k, hist, r, w, rfl, hth, hp, rfl⟩ |
      ⟨u, th', -, -, rfl⟩ | ⟨-, rfl⟩ | ⟨o, w, -, -, rfl⟩
    · exact ih he he'
    · rcases List.mem_cons.mp he with h₁ | h₁
      · obtain ⟨rfl, rfl⟩ := Prod.mk.inj h₁
        rcases List.mem_cons.mp he' with h₂ | h₂
        · exact .inl (Prod.mk.inj h₂).2.symm
        · exact .inr (.inl ⟨hist, s, s.record t w hist ⟨c, r⟩ (k r),
            ⟨hr, ch, k, hth, hm, hp, rfl⟩, history_complete hr hth h₂⟩)
      · rcases List.mem_cons.mp he' with h₂ | h₂
        · obtain ⟨rfl, rfl⟩ := Prod.mk.inj h₂
          exact .inr (.inr ⟨hist, s, s.record t w hist ⟨c, r⟩ (k r),
            ⟨hr, ch, k, hth, hm, hp, rfl⟩, history_complete hr hth h₁⟩)
        · exact ih h₁ h₂
    · exact ih he he'
    · exact ih he he'
    · exact ih he he'

/-- Every event has its moment, and what relates the worlds along a run relates the
world after it to the present one. -/
theorem happened {G : M.World → M.World → Prop} (hrefl : ∀ w, G w w)
    (htrans : ∀ a b c, G a b → G b c → G a c)
    (hG : ∀ s s' m, Reach ok s → ok s m → s.step m = some s' → G s.world s'.world)
    {s : Config M} (hs : Reach ok s) :
    ∀ t e, (t, e) ∈ s.trace → ∃ h s₀ s₁, Moment ok t e h s₀ s₁ ∧ G s₁.world s.world := by
  refine invariant (J := fun s => ∀ t e, (t, e) ∈ s.trace →
    ∃ h s₀ s₁, Moment ok t e h s₀ s₁ ∧ G s₁.world s.world) ?_ ?_ hs
  · intro t e h
    simp [Config.start] at h
  · intro s s' m hr ih hm hst u e he
    -- an older event: one more step is in between
    have hold : (u, e) ∈ s.trace →
        ∃ h s₀ s₁, Moment ok u e h s₀ s₁ ∧ G s₁.world s'.world := by
      intro hu
      obtain ⟨h, s₀, s₁, hmo, hw⟩ := ih u e hu
      exact ⟨h, s₀, s₁, hmo, htrans _ _ _ hw (hG s s' m hr hm hst)⟩
    rcases step_cases hst with ⟨r, -, rfl⟩ | ⟨t, ch, c, k, hist, r, w, rfl, hth, hp, rfl⟩ |
      ⟨t, th', -, -, rfl⟩ | ⟨-, rfl⟩ | ⟨o, w, -, -, rfl⟩
    · exact hold he
    · rcases List.mem_cons.mp he with h' | h'
      · obtain ⟨rfl, rfl⟩ := Prod.mk.inj h'
        exact ⟨hist, s, _, ⟨hr, ch, k, hth, hm, hp, rfl⟩, hrefl _⟩
      · exact hold h'
    · exact hold he
    · exact hold he
    · exact hold he

/-- What is in the trace was there before, or was made on the way. -/
theorem made_later {s s' : Config M} (hs : Reach ok s) (hl : Later ok s s') {t : Nat} {e : Event I}
    (he : (t, e) ∈ s'.trace) : (t, e) ∈ s.trace ∨
      ∃ h s₁ s₂, Later ok s s₁ ∧ Moment ok t e h s₁ s₂ ∧ Later ok s₂ s' := by
  induction hl with
  | refl => exact .inl he
  | @step s₁ s₂ m hl hm hst ih =>
      have hold : (t, e) ∈ s₁.trace → (t, e) ∈ s.trace ∨
          ∃ h s₃ s₄, Later ok s s₃ ∧ Moment ok t e h s₃ s₄ ∧ Later ok s₄ s₂ := by
        intro he
        rcases ih he with hbefore | ⟨h, s₃, s₄, h₃, hmo, h₄⟩
        · exact .inl hbefore
        · exact .inr ⟨h, s₃, s₄, h₃, hmo, h₄.step hm hst⟩
      rcases step_cases hst with ⟨r, -, rfl⟩ | ⟨u, ch, c, k, hist, r, w, rfl, hth, hp, rfl⟩ |
        ⟨u, th', -, -, rfl⟩ | ⟨-, rfl⟩ | ⟨o, w, -, -, rfl⟩
      · exact hold he
      · rcases List.mem_cons.mp he with hnew | he
        · obtain ⟨rfl, rfl⟩ := Prod.mk.inj hnew
          exact .inr ⟨hist, s₁, _, hl, ⟨hs.later hl, ch, k, hth, hm, hp, rfl⟩, .refl⟩
        · exact hold he
      · exact hold he
      · exact hold he
      · exact hold he

/-- The calls of a new program are made after it was started. -/
theorem spawned_made {r : M.Request} {s s' : Config M} (hs : Reach anyMove s)
    (hl : Later anyMove (s.spawn (M.handler r)) s') {e : Event I}
    (he : (s.threads.length, e) ∈ s'.trace) : ∃ h s₁ s₂,
      Later anyMove (s.spawn (M.handler r)) s₁ ∧ Moment anyMove s.threads.length e h s₁ s₂ ∧
        Later anyMove s₂ s' := by
  have hspawn : Reach anyMove (s.spawn (M.handler r)) := .step hs trivial (m := .spawn r) rfl
  rcases hspawn.made_later hl he with hold | hnew
  · exact absurd (hs.trace_lt _ _ hold) (Nat.lt_irrefl _)
  · exact hnew

/-- A program made each of its calls knowing earlier events of its own part of the trace. -/
theorem knew {s : Config M} (hs : Reach ok s) : ∀ t e, (t, e) ∈ s.trace →
    ∃ h s₀ s₁, Moment ok t e h s₀ s₁ ∧ ∀ x ∈ h, (t, x) ∈ s.trace := by
  refine invariant (J := fun s => ∀ t e, (t, e) ∈ s.trace →
    ∃ h s₀ s₁, Moment ok t e h s₀ s₁ ∧ ∀ x ∈ h, (t, x) ∈ s.trace) ?_ ?_ hs
  · intro t e h
    simp [Config.start] at h
  · intro s s' m hr ih hm hst u e he
    have hold : (u, e) ∈ s.trace →
        ∃ h s₀ s₁, Moment ok u e h s₀ s₁ ∧ ∀ x ∈ h, (u, x) ∈ s'.trace := by
      intro hu
      obtain ⟨h, s₀, s₁, hmo, hall⟩ := ih u e hu
      exact ⟨h, s₀, s₁, hmo, fun x hx => trace_grows hst (hall x hx)⟩
    rcases step_cases hst with ⟨r, -, rfl⟩ | ⟨t, ch, c, k, hist, r, w, rfl, hth, hp, rfl⟩ |
      ⟨t, th', -, -, rfl⟩ | ⟨-, rfl⟩ | ⟨o, w, -, -, rfl⟩
    · exact hold he
    · rcases List.mem_cons.mp he with h' | h'
      · obtain ⟨rfl, rfl⟩ := Prod.mk.inj h'
        refine ⟨hist, s, s.record u w hist ⟨c, r⟩ (k r), ⟨hr, ch, k, hth, hm, hp, rfl⟩, ?_⟩
        intro x hx
        exact List.mem_cons_of_mem _ (history_mem hr u _ hth x hx)
      · exact hold h'
    · exact hold he
    · exact hold he
    · exact hold he

/-- Knowledge under a guard.  The program has `e` in its history and holds what `H`
stands for since then.  Its own newer events (`q`) and, while it holds `H`, everybody
else's steps respect `G`; so `G` relates the moment of `e` to the present. -/
theorem kept {q : Event I → Prop} {H : History I → Prop} {G : M.World → M.World → Prop}
    (hrefl : ∀ w, G w w) (htrans : ∀ a b c, G a b → G b c → G a c)
    (hkeep : ∀ x h, H h → q x → H (x :: h))
    (hown : ∀ s t ch c k h r w, Reach ok s → s.thread t = some ⟨.call c k, h⟩ →
      ok s (.run t ch) → M.perform t c ch s.world = some (r, w) → q ⟨c, r⟩ → G s.world w)
    (hrest : ∀ s s' m t th, Reach ok s → ok s m → s.step m = some s' →
      (∀ ch, m ≠ .run t ch) → s.thread t = some th → H th.history → G s.world s'.world)
    {s : Config M} (hs : Reach ok s) : ∀ t th, s.thread t = some th →
    ∀ newer e older, th.history = newer ++ e :: older → (∀ x ∈ newer, q x) → H (e :: older) →
    ∃ s₀ s₁, Moment ok t e older s₀ s₁ ∧ G s₁.world s.world := by
  refine invariant (J := fun s => ∀ t th, s.thread t = some th →
    ∀ newer e older, th.history = newer ++ e :: older → (∀ x ∈ newer, q x) → H (e :: older) →
    ∃ s₀ s₁, Moment ok t e older s₀ s₁ ∧ G s₁.world s.world) ?_ ?_ hs
  · intro t th h
    simp [Config.start, thread] at h
  · intro s s' m hr ih hm hst u th hu newer e older hh hq hH
    have hguard : H th.history := by
      rw [hh]
      clear hh
      induction newer with
      | nil => exact hH
      | cons x newer ihn =>
          exact hkeep x _ (ihn fun y hy => hq y (by simp [hy])) (hq x (by simp))
    -- somebody else's step, or the outside's
    have hold : (∀ ch, m ≠ .run u ch) → s.thread u = some th →
        ∃ s₀ s₁, Moment ok u e older s₀ s₁ ∧ G s₁.world s'.world := by
      intro hne h'
      obtain ⟨s₀, s₁, hmo, hw⟩ := ih u th h' newer e older hh hq hH
      exact ⟨s₀, s₁, hmo, htrans _ _ _ hw (hrest s s' m u th hr hm hst hne h' hguard)⟩
    rcases step_cases hst with ⟨r, rfl, rfl⟩ | ⟨t, ch, c, k, hist, r, w, rfl, hth, hp, rfl⟩ |
      ⟨t, th', rfl, -, rfl⟩ | ⟨rfl, rfl⟩ | ⟨o, w, rfl, -, rfl⟩
    · rcases thread_spawn hu with h' | rfl
      · exact hold (by simp) h'
      · simp at hh
    · rcases thread_record hu with ⟨rfl, rfl⟩ | ⟨hut, h'⟩
      · -- the program's own step: its newest event is `e`, or one more of `newer`
        cases newer with
        | nil =>
            obtain ⟨rfl, rfl⟩ := List.cons.inj hh
            exact ⟨s, _, ⟨hr, ch, k, hth, hm, hp, rfl⟩, hrefl _⟩
        | cons x newer =>
            obtain ⟨rfl, rfl⟩ := List.cons.inj hh
            obtain ⟨s₀, s₁, hmo, hw⟩ := ih u _ hth newer e older rfl
              (fun y hy => hq y (by simp [hy])) hH
            exact ⟨s₀, s₁, hmo, htrans _ _ _ hw
              (hown s u ch c k _ r w hr hth hm hp (hq _ (by simp)))⟩
      · refine hold (fun ch' he => ?_) h'
        injection he with he
        exact hut he.symm
    · exact hold (by simp) (thread_drop hu).2
    · rw [thread_restart] at hu
      exact absurd hu (by simp)
    · exact hold (by simp) hu

/-- A program made each of its calls knowing what it had seen before. -/
theorem recalled {s : Config M} (hs : Reach ok s) {t : Nat} {th : Thread I}
    (hth : s.thread t = some th) {newer older : History I} {e : Event I}
    (hh : th.history = newer ++ e :: older) : ∃ s₀ s₁, Moment ok t e older s₀ s₁ := by
  obtain ⟨s₀, s₁, hm, -⟩ := hs.kept (q := fun _ => True) (H := fun _ => True)
    (G := fun _ _ => True) (fun _ => trivial) (fun _ _ _ _ _ => trivial) (fun _ _ _ _ => trivial)
    (fun _ _ _ _ _ _ _ _ _ _ _ _ _ => trivial) (fun _ _ _ _ _ _ _ _ _ _ _ => trivial)
    t th hth newer e older hh (fun _ _ => trivial) trivial
  exact ⟨s₀, s₁, hm⟩

/-! ### Events that happen once -/

/-- Two members of a list of at most one are the same. -/
theorem eq_of_length_le_one {α : Type} {l : List α} {a b : α} (h : l.length ≤ 1) (ha : a ∈ l)
    (hb : b ∈ l) : a = b := by
  match l, h with
  | [], _ => simp at ha
  | [x], _ => rw [List.mem_singleton.mp ha, List.mem_singleton.mp hb]

/-- When events of the kind `A` happen at most once, and each event of the kind `C`
follows one of them at once in its own program, then the kind `C` happens at most once
as well. -/
theorem once_each {A C : Event I → Bool} (hAC : ∀ e, A e = true → C e = false)
    (hA : ∀ s, Reach ok s → (s.trace.filter fun x => A x.2).length ≤ 1)
    (hC : ∀ s t ch c k h r w, Reach ok s → s.thread t = some ⟨.call c k, h⟩ →
      ok s (.run t ch) → M.perform t c ch s.world = some (r, w) → C ⟨c, r⟩ = true →
      ∃ a older, h = a :: older ∧ A a = true)
    {s : Config M} (hs : Reach ok s) : (s.trace.filter fun x => C x.2).length ≤ 1 := by
  -- while a program still has its `A` event on top, no `C` event has happened
  suffices h : (s.trace.filter fun x => C x.2).length ≤ 1 ∧
      ((s.trace.filter fun x => A x.2) = [] → (s.trace.filter fun x => C x.2) = []) ∧
      ∀ t th a older, s.thread t = some th → th.history = a :: older → A a = true →
        (s.trace.filter fun x => C x.2) = [] from h.1
  refine invariant (J := fun s => (s.trace.filter fun x => C x.2).length ≤ 1 ∧
      ((s.trace.filter fun x => A x.2) = [] → (s.trace.filter fun x => C x.2) = []) ∧
      ∀ t th a older, s.thread t = some th → th.history = a :: older → A a = true →
        (s.trace.filter fun x => C x.2) = []) ?_ ?_ hs
  · exact ⟨by simp [Config.start], fun _ => rfl, fun _ _ _ _ _ _ _ => rfl⟩
  · rintro s s' m hr ⟨hlen, hnone, hlive⟩ hm hst
    rcases step_cases hst with ⟨r, -, rfl⟩ | ⟨t, ch, c, k, hist, r, w, rfl, hth, hp, rfl⟩ |
      ⟨t, th', -, -, rfl⟩ | ⟨-, rfl⟩ | ⟨o, w, -, -, rfl⟩
    · refine ⟨hlen, hnone, fun u th a older hu hh ha => ?_⟩
      rcases thread_spawn hu with h' | rfl
      · exact hlive u th a older h' hh ha
      · simp at hh
    · by_cases hCe : C ⟨c, r⟩ = true
      · -- a `C` event: it uses up the `A` event of its program, the only one there is
        obtain ⟨a, older, rfl, ha⟩ := hC s t ch c k hist r w hr hth hm hp hCe
        have hempty := hlive t _ a older hth rfl ha
        have hmem : (t, a) ∈ s.trace := history_mem hr t _ hth a (by simp)
        have hAe : A ⟨c, r⟩ ≠ true := fun h => by simp [hAC _ h] at hCe
        refine ⟨by simp [record, hCe, hempty], fun h => ?_, fun u th a' older' hu hh ha' => ?_⟩
        · have hin : (t, a) ∈ ((t, ⟨c, r⟩) :: s.trace).filter fun x => A x.2 :=
            List.mem_filter.mpr ⟨by simp [hmem], ha⟩
          simp only [record] at h
          rw [h] at hin
          simp at hin
        · exfalso
          rcases thread_record hu with ⟨rfl, rfl⟩ | ⟨hut, h'⟩
          · obtain ⟨rfl, -⟩ := List.cons.inj hh
            exact hAe ha'
          · have hmem' : (u, a') ∈ s.trace := history_mem hr u th h' a' (by simp [hh])
            have h1 := hA s hr
            have hin : (t, a) ∈ s.trace.filter fun x => A x.2 := List.mem_filter.mpr ⟨hmem, ha⟩
            have hin' : (u, a') ∈ s.trace.filter fun x => A x.2 :=
              List.mem_filter.mpr ⟨hmem', ha'⟩
            have heq := eq_of_length_le_one h1 hin hin'
            exact hut (Prod.mk.inj heq).1.symm
      · refine ⟨by simpa [record, hCe] using hlen, fun h => ?_, fun u th a older hu hh ha => ?_⟩
        · have h' : (s.trace.filter fun x => A x.2) = [] := by
            simp only [record] at h
            rw [List.filter_cons] at h
            split at h
            · simp at h
            · exact h
          simpa [record, hCe] using hnone h'
        · rcases thread_record hu with ⟨rfl, rfl⟩ | ⟨hut, h'⟩
          · -- a new `A` event is the first of its kind
            obtain ⟨rfl, rfl⟩ := List.cons.inj hh
            have h1 := hA _ (.step hr hm hst)
            have hA' : (s.trace.filter fun x => A x.2) = [] := by
              simp only [record] at h1
              simpa [List.filter_cons, ha] using h1
            simpa [record, hCe] using hnone hA'
          · simpa [record, hCe] using hlive u th a older h' hh ha
    · exact ⟨hlen, hnone, fun u th a older hu => hlive u th a older (thread_drop hu).2⟩
    · refine ⟨hlen, hnone, fun u th a older hu => ?_⟩
      rw [thread_restart] at hu
      exact absurd hu (by simp)
    · exact ⟨hlen, hnone, fun u th a older hu => hlive u th a older hu⟩

/-- What every live program knows: `φ t h w` relates program `t`'s history to the
world.  It is enough that a new program knows it vacuously, that a program's own
call establishes it, and that nobody else breaks it. -/
theorem threads_know {φ : Nat → History I → M.World → Prop}
    (hnil : ∀ t w, φ t [] w)
    (hown : ∀ s t ch c k hist r w, Reach ok s → s.thread t = some ⟨.call c k, hist⟩ →
      ok s (.run t ch) → M.perform t c ch s.world = some (r, w) → φ t hist s.world →
      φ t (⟨c, r⟩ :: hist) w)
    (hother : ∀ s u th t ch c k hist r w, Reach ok s →
      s.thread u = some th → u ≠ t → s.thread t = some ⟨.call c k, hist⟩ →
      ok s (.run t ch) → M.perform t c ch s.world = some (r, w) →
      (∀ v th', s.thread v = some th' → φ v th'.history s.world) → φ u th.history w)
    (hcancel : ∀ s u th t, Reach ok s → s.thread u = some th → u ≠ t →
      φ u th.history s.world → φ u th.history (M.cancel t s.world))
    (hout : ∀ s u th o w, Reach ok s → s.thread u = some th →
      M.outside o s.world = some w → φ u th.history s.world → φ u th.history w)
    {s : Config M} (hs : Reach ok s) :
    ∀ t th, s.thread t = some th → φ t th.history s.world := by
  refine invariant (J := fun s => ∀ t th, s.thread t = some th →
    φ t th.history s.world) ?_ ?_ hs
  · intro t th h
    simp [Config.start, thread] at h
  · intro s s' m hr ih hm h u th hu
    rcases step_cases h with ⟨r, -, rfl⟩ | ⟨t, ch, c, k, hist, r, w, rfl, hth, hp, rfl⟩ |
      ⟨t, th', -, -, rfl⟩ | ⟨-, rfl⟩ | ⟨o, w, -, ho, rfl⟩
    · rcases thread_spawn hu with h' | rfl
      · exact ih u th h'
      · exact hnil u _
    · -- the program that was stepped, or another one that saw the world change
      rcases thread_record hu with ⟨rfl, rfl⟩ | ⟨hut, h'⟩
      · exact hown s u ch c k hist r w hr hth hm hp (ih u _ hth)
      · exact hother s u th t ch c k hist r w hr h' hut hth hm hp ih
    · obtain ⟨hut, h'⟩ := thread_drop hu
      exact hcancel s u th t hr h' hut (ih u th h')
    · rw [thread_restart] at hu
      exact absurd hu (by simp)
    · exact hout s u th o w hr hu ho (ih u th hu)

end Reach

end Interleave
