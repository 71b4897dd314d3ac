/-
OpenSsp/Lib/DurableQueue.lean

A queue of events that outlives the process, and the one program that works it off.

The queue is in memory and on disk; the copy in memory is what the program sees, and after a crash
the one on disk is.  The program looks at the first event (`next`), works on it (`turn`), and only
when that says so removes it (`handled`), which can fail between the two copies.  It runs beside the
programs of any machine, whose calls `turn` makes.

Main results: `stays_until_done` (an event on disk stays there until the work on it has been done to
its end, whatever crashes), `done_in_order` and `removed_for_good`.
-/
import OpenSsp.Lib.Sum
import OpenSsp.Lib.Guard

namespace Interleave.DurableQueue

variable {I : Interface} {E : Type}

/-! ### The queue -/

/-- Events with their numbers, in the order in which they arrived. -/
structure Queue (E : Type) where
  /-- The program that works off the queue since the process started. -/
  consumer : Option Nat
  memory : List (Nat × E)
  stored : List (Nat × E)
  arrived : Nat

/-- What a consumer asks of its queue. -/
inductive Call where
  /-- Become the consumer, unless there is one. -/
  | begin
  /-- Look at the first event. -/
  | next
  /-- Remove the first event. -/
  | handled

@[reducible] def Call.Reply (E : Type) : Call → Type
  | begin => Bool
  | next => Nat × E
  | handled => Bool

@[reducible] def Api (E : Type) : Interface := ⟨Call, Call.Reply E⟩

inductive Choice where
  | done
  /-- What a removal came to: in memory, on disk, and what the caller is told of a whole one. -/
  | removal (removed saved reported : Bool)

structure Arrival (E : Type) where
  event : E
  saved : Bool

/-- One call of one task: the first to begin is the consumer. -/
def perform (t : Nat) (c : Call) (ch : Choice) (q : Queue E) : Option (c.Reply E × Queue E) :=
  match c, ch with
  | .begin, .done => some (match q.consumer with
      | none => (true, { q with consumer := some t })
      | some _ => (false, q))
  | .next, .done => q.memory.head?.map fun x => (x, q)
  | .handled, .removal removed saved reported =>
      let memory := if removed then q.memory.tail else q.memory
      some (removed && saved && reported,
        { q with memory := memory, stored := if saved then memory else q.stored })
  | _, _ => none

/-- A new event is the last in memory; the disk may miss it. -/
def arrive (a : Arrival E) (q : Queue E) : Queue E :=
  let memory := q.memory ++ [(q.arrived, a.event)]
  { q with memory := memory, stored := if a.saved then memory else q.stored,
           arrived := q.arrived + 1 }

/-- After a restart the queue is what was stored. -/
def restart (q : Queue E) : Queue E := { q with consumer := none, memory := q.stored }

/-- The queue by itself. -/
def queue (E : Type) : Machine (Api E) where
  World := Queue E
  Choice := Choice
  Outside := Arrival E
  Request := Empty
  init := ⟨none, [], [], 0⟩
  handler := fun r => nomatch r
  perform := perform
  outside a q := some (arrive a q)
  cancel _ q := q
  crash := restart

section perform

variable {t : Nat} {ch : Choice} {q q' : Queue E}

/-- The copies of the queue are the same. -/
def SameEvents (q q' : Queue E) : Prop :=
  q'.memory = q.memory ∧ q'.stored = q.stored ∧ q'.arrived = q.arrived

/-- There is one consumer. -/
theorem perform_begin {b : Bool} (h : perform t .begin ch q = some (b, q')) :
    SameEvents q q' ∧
      ((b = true ∧ q.consumer = none ∧ q'.consumer = some t) ∨
        (b = false ∧ q'.consumer = q.consumer)) := by
  cases ch with
  | done =>
      have h : (match q.consumer with
        | none => (true, { q with consumer := some t })
        | some _ => (false, q)) = (b, q') := Option.some.inj h
      split at h
      · next hnone =>
          obtain ⟨rfl, rfl⟩ := Prod.mk.inj h
          exact ⟨⟨rfl, rfl, rfl⟩, .inl ⟨rfl, hnone, rfl⟩⟩
      · obtain ⟨rfl, rfl⟩ := Prod.mk.inj h
        exact ⟨⟨rfl, rfl, rfl⟩, .inr ⟨rfl, rfl⟩⟩
  | removal => cases h

/-- The next event is the first in memory. -/
theorem perform_next {x : Nat × E} (h : perform t .next ch q = some (x, q')) :
    q.memory.head? = some x ∧ q' = q := by
  cases ch with
  | done =>
      obtain ⟨x', hx, he⟩ := Option.map_eq_some_iff.mp h
      obtain ⟨rfl, rfl⟩ := Prod.mk.inj he
      exact ⟨hx, rfl⟩
  | removal => cases h

/-- A handled event leaves the memory, and the disk once it is written. -/
theorem perform_handled {b : Bool} (h : perform t .handled ch q = some (b, q')) :
    q'.consumer = q.consumer ∧ q'.arrived = q.arrived ∧
      (q'.memory = q.memory.tail ∨ q'.memory = q.memory) ∧
      (q'.stored = q'.memory ∨ q'.stored = q.stored) := by
  cases ch with
  | done => cases h
  | removal removed saved reported =>
      obtain ⟨-, rfl⟩ := Prod.mk.inj (Option.some.inj h)
      refine ⟨rfl, rfl, ?_, ?_⟩
      · cases removed
        · exact .inr rfl
        · exact .inl rfl
      · cases saved
        · exact .inr rfl
        · exact .inl rfl

/-- A removal that is reported has been made in both copies. -/
theorem perform_removed (h : perform t .handled ch q = some (true, q')) :
    q'.arrived = q.arrived ∧ q'.memory = q.memory.tail ∧ q'.stored = q.memory.tail := by
  cases ch with
  | done => cases h
  | removal removed saved reported =>
      obtain ⟨hr, rfl⟩ := Prod.mk.inj (Option.some.inj h)
      obtain ⟨hr, -⟩ := Bool.and_eq_true_iff.mp hr
      obtain ⟨rfl, rfl⟩ := Bool.and_eq_true_iff.mp hr
      exact ⟨rfl, rfl, rfl⟩

/-- The consumer stays. -/
theorem perform_consumer {c : Call} {r : c.Reply E} {u : Nat}
    (h : perform t c ch q = some (r, q')) (hu : q.consumer = some u) : q'.consumer = some u := by
  cases c with
  | begin =>
      obtain ⟨-, ⟨-, hnone, -⟩ | ⟨-, hsame⟩⟩ := perform_begin h
      · rw [hnone] at hu
        cases hu
      · rw [hsame, hu]
  | next =>
      obtain ⟨-, rfl⟩ := perform_next h
      exact hu
  | handled => rw [(perform_handled h).1, hu]

end perform

/-! ### The consumer -/

variable (turn : E → Prog I Bool)

/-- Work off `n` events.  An event stays the first until the work on it ends with `true`. -/
def consume : Nat → Prog (I.sum (Api E)) Unit
  | 0 => .ret ()
  | n + 1 => do
      let x : Nat × E ← Prog.inr (J := Api E) .next
      let finished ← (turn x.2).inl
      if finished then
        let _ ← Prog.inr (J := Api E) .handled
        consume n
      else
        consume n

/-- A program that works off so many events, if it is the first to begin. -/
def consumer (n : Nat) : Prog (I.sum (Api E)) Unit := do
  let first : Bool ← Prog.inr (J := Api E) .begin
  if first then consume turn n else pure ()

/-- The programs of `M`, and consumers that are started at any time. -/
def system (M : Machine I) : Machine (I.sum (Api E)) :=
  M.sum (queue E) (M.Request ⊕ Nat) fun
    | .inl r => (M.handler r).inl
    | .inr n => consumer turn n

/-- The task is the consumer. -/
abbrev began : Event (I.sum (Api E)) := ⟨.inr .begin, true⟩

/-- The event a turn begins with. -/
abbrev looked (x : Nat × E) : Event (I.sum (Api E)) := ⟨.inr .next, x⟩

/-- A removal that is reported to have been made. -/
abbrev removed : Event (I.sum (Api E)) := ⟨.inr .handled, true⟩

/-- The program looked at `x` and has done the work on it since. -/
inductive Worked (x : Nat × E) : History (I.sum (Api E)) → Prop
  | mk {run : History I} {older : History (I.sum (Api E))} (hrun : (turn x.2).After run (.ret true))
      (hbegan : began ∈ older) : Worked x (run.map Event.inl ++ looked x :: older)

/-- What is known when a call is made: the queue is the consumer's, and it removes an event only
after the work on it. -/
def Careful (h : History (I.sum (Api E))) : (I.sum (Api E)).Call → Prop
  | .inl _ => True
  | .inr .begin => True
  | .inr .next => began ∈ h
  | .inr .handled => ∃ x, Worked turn x h

/-- Who has worked has begun. -/
theorem Worked.began {turn : E → Prog I Bool} {x : Nat × E} {h : History (I.sum (Api E))}
    (hw : Worked turn x h) : began ∈ h := by
  obtain ⟨-, hb⟩ := hw
  exact List.mem_append_right _ (List.mem_cons_of_mem _ hb)

/-- The loop acknowledges only what a turn has handled. -/
theorem consume_careful (n : Nat) {h : History (I.sum (Api E))} (hb : began ∈ h) :
    (consume turn n).wp (Careful turn) (fun _ _ => True) h := by
  induction n generalizing h with
  | zero => trivial
  | succ n ih =>
      refine ⟨hb, fun x => ?_⟩
      show Prog.wp _ ((turn x.2).inl >>= _) _ _
      rw [Prog.wp_bind]
      refine Prog.wp_mono (Prog.wp_inl (fun _ _ => trivial) _ _) ?_
      rintro finished h' ⟨run, hrun, rfl⟩
      have hb' : began ∈ run.map Event.inl ++ looked x :: h :=
        List.mem_append_right _ (List.mem_cons_of_mem _ hb)
      cases finished with
      | false => exact ih hb'
      | true => exact ⟨⟨x, hrun, hb⟩, fun r => ih (List.mem_cons_of_mem _ hb')⟩

/-- Every program of the system does. -/
theorem handler_careful (M : Machine I) (r : M.Request ⊕ Nat) :
    ((system turn M).handler r).wp (Careful turn) (fun _ _ => True) [] := by
  cases r with
  | inl r => exact Prog.wp_mono (Prog.wp_inl (fun _ _ => trivial) _ _) fun _ _ _ => trivial
  | inr n =>
      refine ⟨trivial, fun first => ?_⟩
      cases first with
      | false => trivial
      | true => exact consume_careful turn n List.mem_cons_self

/-! ### What the consumer knows -/

section runs

variable {turn} {M : Machine I} {ok : Config (system turn M) → Move (system turn M) → Prop}
  {s s' : Config (system turn M)} {t u : Nat} {th th' : Thread (I.sum (Api E))}

/-- Who has become the consumer is. -/
theorem consumer_of_began (hs : Reach ok s) (hth : s.thread t = some th)
    (hb : began ∈ th.history) : s.world.2.consumer = some t := by
  refine hs.threads_know (φ := fun t h (w : M.World × Queue E) => began ∈ h →
    w.2.consumer = some t) ?_ ?_ ?_ ?_ ?_ t th hth hb
  · intro t w h
    cases h
  · intro s t ch c k h r w hr hth _ hp ih hb
    rcases c with c | c
    · obtain ⟨-, -, hq⟩ := Machine.perform_inl hp
      rw [hq]
      refine ih ((List.mem_cons.mp hb).resolve_left fun he => ?_)
      cases congrArg Event.call he
    · obtain ⟨ch', hp, -⟩ := Machine.perform_inr hp
      rcases List.mem_cons.mp hb with he | hb
      · cases he
        obtain ⟨-, ⟨-, -, h⟩ | ⟨h, -⟩⟩ := perform_begin hp
        · exact h
        · cases h
      · exact perform_consumer hp (ih hb)
  · intro s u th t ch c k h r w _ hu _ _ _ hp ih hb
    rcases c with c | c
    · obtain ⟨-, -, hq⟩ := Machine.perform_inl hp
      rw [hq]
      exact ih u th hu hb
    · obtain ⟨ch', hp, -⟩ := Machine.perform_inr hp
      exact perform_consumer hp (ih u th hu hb)
  · exact fun s u th t _ _ _ ih hb => ih hb
  · intro s u th o w _ _ ho ih hb
    rcases Machine.outside_sum ho with hq | ⟨a, hq⟩
    · rw [hq]
      exact ih hb
    · rw [← Option.some.inj hq]
      exact ih hb

/-- Two tasks that have begun are one. -/
theorem consumer_unique (hs : Reach ok s) (hth : s.thread t = some th) (hu : s.thread u = some th')
    (hb : began ∈ th.history) (hb' : began ∈ th'.history) : t = u := by
  have ht := consumer_of_began hs hth hb
  rw [consumer_of_began hs hu hb'] at ht
  exact (Option.some.inj ht).symm

/-- A call of another program than the consumer leaves the events alone. -/
theorem events_kept (hs : Reach ok s) {ch : (system turn M).Choice} {c : (I.sum (Api E)).Call}
    {k : (I.sum (Api E)).Reply c → Prog (I.sum (Api E)) Unit} {h : History (I.sum (Api E))}
    {r : (I.sum (Api E)).Reply c} {w : M.World × Queue E} (hth : s.thread t = some ⟨.call c k, h⟩)
    (hp : (system turn M).perform t c ch s.world = some (r, w)) :
    SameEvents s.world.2 w.2 ∨ c = .inr .handled ∧ ∃ x, Worked turn x h := by
  rcases c with c | c
  · obtain ⟨-, -, hq⟩ := Machine.perform_inl hp
    rw [hq]
    exact .inl ⟨rfl, rfl, rfl⟩
  · obtain ⟨ch', hp, -⟩ := Machine.perform_inr hp
    cases c with
    | begin => exact .inl (perform_begin hp).1
    | next =>
        rw [(perform_next hp).2]
        exact .inl ⟨rfl, rfl, rfl⟩
    | handled => exact .inr ⟨rfl, hs.justified (handler_careful turn M) hth⟩

/-- The event that the consumer looked at is the first one while it works on it. -/
theorem first_of_looked (hs : Reach ok s) (hth : s.thread t = some th) {x : Nat × E}
    {run : History I} {older : History (I.sum (Api E))}
    (hh : th.history = run.map Event.inl ++ looked x :: older) (hb : began ∈ older) :
    s.world.2.memory.head? = some x := by
  refine hs.threads_know (φ := fun _ h (w : M.World × Queue E) => ∀ x (run : History I) older,
    h = run.map Event.inl ++ looked x :: older → began ∈ older → w.2.memory.head? = some x)
    ?_ ?_ ?_ ?_ ?_ t th hth x run older hh hb
  · intro t w x run older h
    cases run <;> cases h
  · intro s t ch c k h r w hr hth _ hp ih x run older hh hb
    cases run with
    | nil =>
        obtain ⟨he, rfl⟩ := List.cons.inj hh
        cases he
        obtain ⟨ch', hp, -⟩ := Machine.perform_inr hp
        obtain ⟨hx, hq⟩ := perform_next hp
        rw [hq]
        exact hx
    | cons e run =>
        obtain ⟨he, hrest⟩ := List.cons.inj hh
        cases he
        obtain ⟨-, -, hq⟩ := Machine.perform_inl hp
        rw [hq]
        exact ih x run older hrest hb
  · intro s u th t ch c k h r w hr hu hut hth _ hp ih x run older hh hb
    rcases events_kept hr hth hp with ⟨hm, -, -⟩ | ⟨-, y, hw⟩
    · rw [hm]
      exact ih u th hu x run older hh hb
    · -- only the consumer removes events
      have hbu : began ∈ th.history := by
        rw [hh]
        exact List.mem_append_right _ (List.mem_cons_of_mem _ hb)
      exact absurd (consumer_unique hr hu hth hbu hw.began) hut
  · exact fun s u th t _ _ _ ih => ih
  · intro s u th o w _ _ ho ih x run older hh hb
    have hx := ih x run older hh hb
    rcases Machine.outside_sum ho with hq | ⟨a, hq⟩
    · rw [hq]
      exact hx
    · rw [← Option.some.inj hq]
      show (s.world.2.memory ++ _).head? = some x
      rw [List.head?_append, hx]
      rfl

/-! ### No event is lost -/

/-- Some program looked at `x` and then did the work on it to its end. -/
def Done (s : Config (system turn M)) (x : Nat × E) : Prop :=
  ∃ t run, (turn x.2).After run (.ret true) ∧ run.map Event.inl ++ [looked x] <:+: s.calls t

/-- What is done stays done. -/
theorem Done.step {m : Move (system turn M)} (h : s.step m = some s') {x : Nat × E}
    (hd : Done s x) : Done s' x := by
  obtain ⟨t, run, hrun, hcalls⟩ := hd
  exact ⟨t, run, hrun, hcalls.trans (Config.calls_grow h t).isInfix⟩

/-- The consumer removes what it has worked on. -/
theorem done_of_worked (hs : Reach ok s) (hth : s.thread t = some th) {x : Nat × E}
    (hw : Worked turn x th.history) : Done s x ∧ s.world.2.memory.head? = some x := by
  generalize hh : th.history = h at hw
  obtain ⟨hrun, hb⟩ := hw
  rename_i run older
  refine ⟨⟨t, run, hrun, ?_⟩, first_of_looked hs hth hh hb⟩
  rw [← hs.history_eq t th hth, hh]
  refine List.IsPrefix.isInfix ⟨older, ?_⟩
  rw [List.append_assoc]
  rfl

/-- A removal is of the event that was worked on. -/
theorem worked_of_removal {b : Bool} {h : History (I.sum (Api E))}
    (hm : Moment ok t ⟨.inr .handled, b⟩ h s s') : ∃ x, Worked turn x h := by
  obtain ⟨ch, k, hth, -⟩ := hm.made
  exact hm.reach.justified (handler_careful turn M) hth

/-- What a step does to the events: those that go from memory are done, and the disk keeps its
events or gets those in memory. -/
theorem step_events {m : Move (system turn M)} (hs : Reach ok s) (h : s.step m = some s') :
    ((∀ x ∈ s.world.2.memory, x ∈ s'.world.2.memory ∨ Done s' x) ∨
      s'.world.2.memory = s'.world.2.stored) ∧
    (s'.world.2.stored = s'.world.2.memory ∧
      (∀ x ∈ s.world.2.memory, x ∈ s'.world.2.memory ∨ Done s' x) ∨
      s'.world.2.stored = s.world.2.stored) := by
  rcases Config.step_cases h with ⟨r, -, rfl⟩ | ⟨t, ch, c, k, hist, r, w, -, hth, hp, rfl⟩ |
    ⟨t, th', -, -, rfl⟩ | ⟨-, rfl⟩ | ⟨o, w, -, ho, rfl⟩
  · exact ⟨.inl fun x hx => .inl hx, .inr rfl⟩
  · rcases events_kept hs hth hp with ⟨hm, hst, -⟩ | ⟨rfl, x, hw⟩
    · refine ⟨.inl fun x hx => .inl ?_, .inr hst⟩
      show x ∈ w.2.memory
      rwa [hm]
    · obtain ⟨hdone, hx⟩ := done_of_worked hs hth hw
      obtain ⟨ch', hp, -⟩ := Machine.perform_inr hp
      obtain ⟨-, -, hm, hst⟩ := perform_handled hp
      have hgone : ∀ y ∈ s.world.2.memory, y ∈ w.2.memory ∨
          Done (s.record t w hist ⟨.inr .handled, r⟩ (k r)) y := by
        intro y hy
        rcases hm with hm | hm
        · -- the first event goes, and that is the one
          obtain ⟨rest, hrest⟩ := List.head?_eq_some_iff.mp hx
          rw [hrest] at hy
          rcases List.mem_cons.mp hy with rfl | hy
          · exact .inr (hdone.step h)
          · rw [hm, hrest]
            exact .inl hy
        · rw [hm]
          exact .inl hy
      exact ⟨.inl hgone, hst.imp (fun he => ⟨he, hgone⟩) id⟩
  · exact ⟨.inl fun x hx => .inl hx, .inr rfl⟩
  · exact ⟨.inr rfl, .inr rfl⟩
  · rcases Machine.outside_sum ho with hq | ⟨a, hq⟩
    · show ((∀ x ∈ s.world.2.memory, x ∈ w.2.memory ∨ _) ∨ w.2.memory = w.2.stored) ∧
        (w.2.stored = w.2.memory ∧ _ ∨ w.2.stored = s.world.2.stored)
      rw [hq]
      exact ⟨.inl fun x hx => .inl hx, .inr rfl⟩
    · have hkept : ∀ x ∈ s.world.2.memory, x ∈ w.2.memory := by
        intro x hx
        rw [← Option.some.inj hq]
        exact List.mem_append_left _ hx
      refine ⟨.inl fun x hx => .inl (hkept x hx), ?_⟩
      show w.2.stored = w.2.memory ∧ _ ∨ w.2.stored = s.world.2.stored
      rw [← Option.some.inj hq]
      rcases a with ⟨e, _ | _⟩
      · exact .inr rfl
      · exact .inl ⟨rfl, fun x hx => .inl (List.mem_append_left _ hx)⟩

/-- Everything on disk is in memory too, or done. -/
theorem stored_in_memory (hs : Reach ok s) :
    ∀ x ∈ s.world.2.stored, x ∈ s.world.2.memory ∨ Done s x := by
  refine hs.invariant (J := fun s : Config (system turn M) => ∀ x ∈ s.world.2.stored, x ∈ s.world.2.memory ∨ Done s x)
    ?_ ?_
  · intro x hx
    cases hx
  · intro s s' m hr ih _ h x hx
    obtain ⟨hmem, ⟨hst, -⟩ | hst⟩ := step_events hr h
    · rw [hst] at hx
      exact .inl hx
    · rcases hmem with hmem | hmem
      · rw [hst] at hx
        rcases ih x hx with hx | hx
        · exact hmem x hx
        · exact .inr (hx.step h)
      · rw [hmem]
        exact .inl hx

/-- **No event is lost.**  What is on disk stays there, through every crash, until some program has
done the work on it to its end. -/
theorem stays_until_done (hs : Reach ok s) (hl : Later ok s s') {x : Nat × E}
    (hx : x ∈ s.world.2.stored) : x ∈ s'.world.2.stored ∨ Done s' x := by
  have hstart : (x ∈ s.world.2.memory ∨ Done s x) ∧ (x ∈ s.world.2.stored ∨ Done s x) :=
    ⟨stored_in_memory hs x hx, .inl hx⟩
  refine (hs.preserved (J := fun s : Config (system turn M) => (x ∈ s.world.2.memory ∨ Done s x) ∧
    (x ∈ s.world.2.stored ∨ Done s x)) hl ?_ hstart).2
  rintro a b m ha _ h ⟨hmem, hst⟩
  obtain ⟨hm, hs'⟩ := step_events ha h
  have hst' : x ∈ b.world.2.stored ∨ Done b x := by
    rcases hs' with ⟨he, hgone⟩ | he
    · rw [he]
      rcases hmem with hmem | hd
      · exact hgone x hmem
      · exact .inr (hd.step h)
    · rw [he]
      exact hst.imp_right (Done.step h)
  refine ⟨?_, hst'⟩
  rcases hm with hm | hm
  · rcases hmem with hmem | hd
    · exact hm x hmem
    · exact .inr (hd.step h)
  · rw [hm]
    exact hst'

/-! ### The order of the events -/

/-- The numbers go up, and stay below the next one. -/
def Ascending (n : Nat) (xs : List (Nat × E)) : Prop :=
  xs.Pairwise (fun x y => x.1 < y.1) ∧ ∀ x ∈ xs, x.1 < n

/-- Without its first event the queue is still in order. -/
theorem Ascending.tail {n : Nat} {xs : List (Nat × E)} (h : Ascending n xs) :
    Ascending n xs.tail :=
  ⟨h.1.tail, fun x hx => h.2 x (List.mem_of_mem_tail hx)⟩

/-- A higher bound. -/
theorem Ascending.grow {n : Nat} {xs : List (Nat × E)} (h : Ascending n xs) :
    Ascending (n + 1) xs := ⟨h.1, fun x hx => Nat.lt_succ_of_lt (h.2 x hx)⟩

/-- The new event is the last. -/
theorem Ascending.concat {n : Nat} {xs : List (Nat × E)} (h : Ascending n xs) (e : E) :
    Ascending (n + 1) (xs ++ [(n, e)]) := by
  constructor
  · refine List.pairwise_append.mpr ⟨h.1, List.pairwise_singleton _ _, fun x hx y hy => ?_⟩
    rw [List.mem_singleton.mp hy]
    exact h.2 x hx
  · intro x hx
    rcases List.mem_append.mp hx with hx | hx
    · exact Nat.lt_succ_of_lt (h.2 x hx)
    · rw [List.mem_singleton.mp hx]
      exact Nat.lt_succ_self n

/-- Memory and disk are in the order of arrival, in every state. -/
theorem ascending (hs : Reach ok s) : Ascending s.world.2.arrived s.world.2.memory ∧
    Ascending s.world.2.arrived s.world.2.stored := by
  -- induction over the run: both copies are suffixes of what has arrived
  refine hs.invariant (J := fun s : Config (system turn M) => Ascending s.world.2.arrived s.world.2.memory ∧
    Ascending s.world.2.arrived s.world.2.stored) ?_ ?_
  · exact ⟨⟨.nil, fun x hx => nomatch hx⟩, ⟨.nil, fun x hx => nomatch hx⟩⟩
  · rintro s s' m hr ⟨hm, hst⟩ _ h
    rcases Config.step_cases h with ⟨r, -, rfl⟩ | ⟨t, ch, c, k, hist, r, w, -, hth, hp, rfl⟩ |
      ⟨t, th', -, -, rfl⟩ | ⟨-, rfl⟩ | ⟨o, w, -, ho, rfl⟩
    · exact ⟨hm, hst⟩
    · show Ascending w.2.arrived w.2.memory ∧ Ascending w.2.arrived w.2.stored
      -- a call removes the first event or leaves both copies
      rcases events_kept hr hth hp with ⟨hm', hst', ha⟩ | ⟨rfl, x, -⟩
      · rw [hm', hst', ha]
        exact ⟨hm, hst⟩
      · obtain ⟨ch', hp, -⟩ := Machine.perform_inr hp
        obtain ⟨-, ha, hm', hst'⟩ := perform_handled hp
        have hmem : Ascending w.2.arrived w.2.memory := by
          rw [ha]
          rcases hm' with hm' | hm'
          · rw [hm']
            exact hm.tail
          · rw [hm']
            exact hm
        refine ⟨hmem, ?_⟩
        rcases hst' with hst' | hst'
        · rw [hst']
          exact hmem
        · rw [hst', ha]
          exact hst
    · exact ⟨hm, hst⟩
    · exact ⟨hst, hst⟩
    · show Ascending w.2.arrived w.2.memory ∧ Ascending w.2.arrived w.2.stored
      rcases Machine.outside_sum ho with hq | ⟨⟨e, saved⟩, hq⟩
      · rw [hq]
        exact ⟨hm, hst⟩
      · rw [← Option.some.inj hq]
        -- a new event goes to the end; the disk keeps its old copy when the write fails
        cases saved with
        | false => exact ⟨hm.concat e, hst.grow⟩
        | true => exact ⟨hm.concat e, hm.concat e⟩

/-- **Events are worked on in the order of their arrival.**  When the consumer looks at `x`, every
earlier event on disk is done. -/
theorem done_in_order {h : History (I.sum (Api E))} {x y : Nat × E}
    (hm : Moment ok t (looked x) h s s') (hy : y ∈ s.world.2.stored) (hlt : y.1 < x.1) :
    Done s y := by
  obtain ⟨ch, k, -, -, hp, -⟩ := hm.made
  obtain ⟨ch', hp, -⟩ := Machine.perform_inr hp
  obtain ⟨rest, hrest⟩ := List.head?_eq_some_iff.mp (perform_next hp).1
  refine (stored_in_memory hm.reach y hy).resolve_left fun hmem => ?_
  have hup := (ascending hm.reach).1.1
  rw [hrest] at hmem hup
  rcases List.mem_cons.mp hmem with rfl | hmem
  · exact Nat.lt_irrefl _ hlt
  · exact Nat.lt_asymm hlt ((List.pairwise_cons.mp hup).1 y hmem)

/-- The event has arrived, and is in neither copy. -/
def Gone (x : Nat × E) (q : Queue E) : Prop :=
  x.1 < q.arrived ∧ x ∉ q.memory ∧ x ∉ q.stored

/-- An event that is gone does not come back when another is removed. -/
theorem Gone.tail {x : Nat × E} {q q' : Queue E} (hg : Gone x q) (ha : q'.arrived = q.arrived)
    (hm : q'.memory = q.memory.tail ∨ q'.memory = q.memory)
    (hst : q'.stored = q'.memory ∨ q'.stored = q.stored) : Gone x q' := by
  obtain ⟨hlt, hxm, hxs⟩ := hg
  have hxm' : x ∉ q'.memory := by
    rcases hm with hm | hm
    · rw [hm]
      exact fun hx => hxm (List.mem_of_mem_tail hx)
    · rwa [hm]
  refine ⟨ha ▸ hlt, hxm', ?_⟩
  rcases hst with hst | hst
  · rwa [hst]
  · rwa [hst]

/-- Nor when a new one arrives. -/
theorem Gone.arrive {x : Nat × E} {q : Queue E} (hg : Gone x q) (a : Arrival E) :
    Gone x (arrive a q) := by
  obtain ⟨hlt, hxm, hxs⟩ := hg
  have hxm' : x ∉ q.memory ++ [(q.arrived, a.event)] := by
    intro hx
    rcases List.mem_append.mp hx with hx | hx
    · exact hxm hx
    · -- a new event has a number of its own
      rw [List.mem_singleton.mp hx] at hlt
      exact Nat.lt_irrefl _ hlt
  refine ⟨Nat.lt_succ_of_lt hlt, hxm', ?_⟩
  show x ∉ if a.saved then _ else _
  split
  · exact hxm'
  · exact hxs

/-- Nor in any step of the system. -/
theorem Gone.step {m : Move (system turn M)} (hs : Reach ok s) (h : s.step m = some s')
    {x : Nat × E} (hg : Gone x s.world.2) : Gone x s'.world.2 := by
  rcases Config.step_cases h with ⟨r, -, rfl⟩ | ⟨t, ch, c, k, hist, r, w, -, hth, hp, rfl⟩ |
    ⟨t, th', -, -, rfl⟩ | ⟨-, rfl⟩ | ⟨o, w, -, ho, rfl⟩
  · exact hg
  · show Gone x w.2
    rcases events_kept hs hth hp with ⟨hm, hst, ha⟩ | ⟨rfl, -⟩
    · exact hg.tail ha (.inr hm) (.inr hst)
    · obtain ⟨ch', hp, -⟩ := Machine.perform_inr hp
      obtain ⟨-, ha, hm, hst⟩ := perform_handled hp
      exact hg.tail ha hm hst
  · exact hg
  · exact ⟨hg.1, hg.2.2, hg.2.2⟩
  · show Gone x w.2
    rcases Machine.outside_sum ho with hq | ⟨a, hq⟩
    · rw [hq]
      exact hg
    · rw [← Option.some.inj hq]
      exact hg.arrive a

/-- **A removed event does not come back.**  Once the removal of `x` has been reported, `x` is in
neither copy. -/
theorem removed_for_good {h : History (I.sum (Api E))} {x : Nat × E} {s₀ s₁ : Config (system turn M)}
    (hm : Moment ok t removed h s₀ s₁) (hw : Worked turn x h) (hl : Later ok s₁ s) :
    Gone x s.world.2 := by
  refine hm.after.1.preserved hl (fun a b m ha _ h hg => Gone.step ha h hg) ?_
  obtain ⟨ch, k, hth, -, hp, -⟩ := hm.made
  obtain ⟨ch', hp, -⟩ := Machine.perform_inr hp
  obtain ⟨ha, hmem, hst⟩ := perform_removed hp
  obtain ⟨rest, hrest⟩ := List.head?_eq_some_iff.mp (done_of_worked hm.reach hth hw).2
  obtain ⟨hup, hlt⟩ := (ascending hm.reach).1
  rw [hrest] at hup hlt hmem hst
  have hx : x ∉ rest := fun hx => Nat.lt_irrefl _ ((List.pairwise_cons.mp hup).1 x hx)
  refine ⟨ha ▸ hlt x List.mem_cons_self, ?_, ?_⟩
  · rw [hmem]
    exact hx
  · rw [hst]
    exact hx

end runs

end Interleave.DurableQueue
