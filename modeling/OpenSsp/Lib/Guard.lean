/-
OpenSsp/Lib/Guard.lean

Programs that exclude each other with guards.

A machine has `Guards` over a set of locks when its worlds record who owns each lock:
taking a lock makes the caller its owner, and the owner stays until it gives the lock
away, is dropped, or the process restarts.  What a program holds is read off its own
history (`Guards.Held`).  `Mutexes` is the plain way to record the owners, and
`Guards.ofMutexes` the guards of a machine that does.

Main results: `Guards.Held.owner` and `Guards.Held.unique` (two live programs never hold
one lock), and `Guards.learned_at`: what the holder of a lock has learned about something
that only holders change is still true, as long as it has not touched it itself.
-/
import OpenSsp.Lib.History
import OpenSsp.Lib.Machine

namespace Interleave

variable {I : Interface} {M : Machine I} {L : Type}

/-! ### Mutexes -/

/-- Who owns each lock. -/
structure Mutexes (L : Type) where
  owner : L → Option Nat

namespace Mutexes

variable {L : Type} [DecidableEq L] {t u : Nat} {l m : L} {ls ls' : Mutexes L}

def free : Mutexes L := ⟨fun _ => none⟩

def take (t : Nat) (l : L) (ls : Mutexes L) : Option (Mutexes L) :=
  if ls.owner l = none then some ⟨Function.update ls.owner l (some t)⟩ else none

def release (t : Nat) (l : L) (ls : Mutexes L) : Mutexes L :=
  if ls.owner l = some t then ⟨Function.update ls.owner l none⟩ else ls

/-- Drop every guard program `t` holds. -/
def drop (t : Nat) (ls : Mutexes L) : Mutexes L :=
  ⟨fun l => if ls.owner l = some t then none else ls.owner l⟩

theorem owner_take (h : take t l ls = some ls') (m : L) :
    ls.owner l = none ∧ ls'.owner m = if m = l then some t else ls.owner m := by
  unfold take at h
  split at h
  · next hfree =>
      obtain rfl := Option.some.inj h
      exact ⟨hfree, Function.update_apply ..⟩
  · simp at h

/-- A lock keeps its owner when another lock or another program is concerned. -/
theorem owner_release (h : ls.owner m = some u) (hne : u ≠ t ∨ m ≠ l) :
    (ls.release t l).owner m = some u := by
  unfold release
  split
  · next hl =>
      have hml : m ≠ l := by
        rintro rfl
        rw [hl] at h
        rcases hne with hne | hne
        · exact hne (Option.some.inj h).symm
        · exact hne rfl
      exact (Function.update_of_ne hml ..).trans h
  · exact h

omit [DecidableEq L] in
theorem owner_drop (h : ls.owner l = some u) (hne : u ≠ t) : (ls.drop t).owner l = some u := by
  simp [drop, h, hne]

end Mutexes

/-! ### Guards -/

/-- How calls move the locks `L` of a machine. -/
structure Guards (M : Machine I) (L : Type) where
  owner : M.World → L → Option Nat
  Takes : L → Event I → Prop
  Gives : L → I.Call → Prop
  take : ∀ {t c ch w r w' l}, M.perform t c ch w = some (r, w') → Takes l ⟨c, r⟩ →
    owner w' l = some t
  own : ∀ {t c ch w r w' l}, M.perform t c ch w = some (r, w') → ¬ Gives l c →
    owner w l = some t → owner w' l = some t
  others : ∀ {t c ch w r w' l u}, M.perform t c ch w = some (r, w') → u ≠ t →
    owner w l = some u → owner w' l = some u
  cancel : ∀ {t w l u}, u ≠ t → owner w l = some u → owner (M.cancel t w) l = some u
  outside : ∀ {o w w' l u}, M.outside o w = some w' → owner w l = some u →
    owner w' l = some u

namespace Guards

/-- The guards of a machine whose worlds carry mutexes, which two calls move. -/
def ofMutexes [DecidableEq L] (locks : M.World → Mutexes L) (lock unlock : L → I.Call)
    (hlock : ∀ l m, lock l = lock m → l = m)
    (hcall : ∀ {t c ch w r w'}, M.perform t c ch w = some (r, w') →
      (∃ l, c = lock l ∧ (locks w).take t l = some (locks w')) ∨
      (∃ l, c = unlock l ∧ locks w' = (locks w).release t l) ∨
      ((∀ l, c ≠ lock l) ∧ locks w' = locks w))
    (hcancel : ∀ t w, locks (M.cancel t w) = (locks w).drop t)
    (houtside : ∀ {o w w'}, M.outside o w = some w' → locks w' = locks w)
    (hunlock : ∀ l m, lock l ≠ unlock m) : Guards M L where
  owner w := (locks w).owner
  Takes l e := e.call = lock l
  Gives l c := c = unlock l
  take {t c ch w r w' l} hp he := by
    obtain rfl : c = lock l := he
    rcases hcall hp with ⟨m, hm, ht⟩ | ⟨m, hm, -⟩ | ⟨hne, -⟩
    · obtain rfl := hlock _ _ hm
      rw [(Mutexes.owner_take ht l).2, if_pos rfl]
    · exact absurd hm (hunlock l m)
    · exact absurd rfl (hne l)
  own {t c ch w r w' l} hp hne ho := by
    rcases hcall hp with ⟨m, -, ht⟩ | ⟨m, rfl, he⟩ | ⟨-, he⟩
    · obtain ⟨hfree, hm⟩ := Mutexes.owner_take ht l
      rw [hm]
      split
      · rfl
      · exact ho
    · rw [he]
      exact Mutexes.owner_release ho (.inr fun h => hne (h ▸ rfl))
    · rw [he]
      exact ho
  others {t c ch w r w' l u} hp hut ho := by
    rcases hcall hp with ⟨m, -, ht⟩ | ⟨m, rfl, he⟩ | ⟨-, he⟩
    · obtain ⟨hfree, hm⟩ := Mutexes.owner_take ht l
      have hlm : l ≠ m := by
        rintro rfl
        rw [hfree] at ho
        simp at ho
      rw [hm, if_neg hlm, ho]
    · rw [he]
      exact Mutexes.owner_release ho (.inl hut)
    · rw [he]
      exact ho
  cancel {t w l u} hut ho := by
    rw [hcancel]
    exact Mutexes.owner_drop ho hut
  outside ho h := by
    rw [houtside ho]
    exact h

variable {G : Guards M L} {l : L} {h : History I} {x : Event I}
  {ok : Config M → Move M → Prop} {s : Config M}

/-- The program has taken the lock and not given it away. -/
def Held (G : Guards M L) (l : L) (h : History I) : Prop :=
  ∃ e, G.Takes l e ∧ Since (fun x => ¬ G.Gives l x.call) e h

theorem Held.here {e : Event I} (he : G.Takes l e) : G.Held l (e :: h) := ⟨e, he, .here⟩

theorem Held.cons (hh : G.Held l h) (hx : ¬ G.Gives l x.call) : G.Held l (x :: h) := by
  obtain ⟨e, he, hs⟩ := hh
  exact ⟨e, he, hs.cons hx⟩

theorem Held.after {q : Event I → Prop} {h' : History I} (hh : G.Held l h)
    (hq : ∀ x, q x → ¬ G.Gives l x.call) (he : Extends q h h') : G.Held l h' := by
  obtain ⟨e, ht, hs⟩ := hh
  exact ⟨e, ht, hs.after (he.mono hq)⟩

/-- A lock that none of the newer calls has taken was held before them. -/
theorem Held.before {newer : History I} (hh : G.Held l (newer ++ h))
    (hn : ∀ x ∈ newer, ¬ G.Takes l x) : G.Held l h := by
  induction newer with
  | nil => exact hh
  | cons x newer ih =>
      obtain ⟨e, he, hs⟩ := hh
      rcases Since.cons_iff.mp hs with rfl | ⟨-, hs⟩
      · exact absurd he (hn _ List.mem_cons_self)
      · exact ih ⟨e, he, hs⟩ fun y hy => hn y (List.mem_cons_of_mem _ hy)

/-- A program that holds a lock owns it. -/
theorem Held.owner (hs : Reach ok s) {t : Nat} {th : Thread I} (hth : s.thread t = some th)
    (hh : G.Held l th.history) : G.owner s.world l = some t := by
  refine hs.threads_know (φ := fun t h w => G.Held l h → G.owner w l = some t) ?_ ?_ ?_ ?_ ?_
    t th hth hh
  · rintro t w ⟨e, -, hs⟩
    exact absurd hs Since.nil
  · rintro s t ch c k hist r w _ _ _ hp ih ⟨e, he, hs⟩
    rcases Since.cons_iff.mp hs with rfl | ⟨hne, hs⟩
    · exact G.take hp he
    · exact G.own hp hne (ih ⟨e, he, hs⟩)
  · intro s u th t ch c k hist r w _ hu hut _ _ hp ih hh
    exact G.others hp hut (ih u th hu hh)
  · exact fun s u th t _ _ hut ih hh => G.cancel hut (ih hh)
  · exact fun s u th o w _ _ ho ih hh => G.outside ho (ih hh)

/-- Two live programs do not hold one lock. -/
theorem Held.unique (hs : Reach ok s) {t u : Nat} {th th' : Thread I}
    (hth : s.thread t = some th) (hu : s.thread u = some th') (hh : G.Held l th.history)
    (hh' : G.Held l th'.history) : t = u := by
  have ht := hh.owner hs hth
  rw [hh'.owner hs hu] at ht
  exact (Option.some.inj ht).symm

/-- **Knowledge under a lock.**  `S` relates the worlds between which what `e` says stays
true.  The program's own newer calls respect `S`, and so does every call of a program
that does not hold the lock. -/
theorem learned_at {S : M.World → M.World → Prop} {q : Event I → Prop} (hrefl : ∀ w, S w w)
    (htrans : ∀ a b c, S a b → S b c → S a c)
    (hq : ∀ x, q x → ¬ G.Takes l x ∧ ¬ G.Gives l x.call)
    (hcall : ∀ s t ch c k h r w, Reach ok s → s.thread t = some ⟨.call c k, h⟩ →
      ok s (.run t ch) → M.perform t c ch s.world = some (r, w) →
      q ⟨c, r⟩ ∨ ¬ G.Held l h → S s.world w)
    (hcancel : ∀ t w, S w (M.cancel t w)) (hcrash : ∀ w, S w (M.crash w))
    (hout : ∀ o w w', M.outside o w = some w' → S w w')
    (hs : Reach ok s) {t : Nat} {th : Thread I} (hth : s.thread t = some th)
    (hh : G.Held l th.history) {newer older : History I} {e : Event I}
    (hnew : th.history = newer ++ e :: older) (hquiet : ∀ x ∈ newer, q x) :
    ∃ s₀ s₁, Moment ok t e older s₀ s₁ ∧ S s₁.world s.world := by
  have hheld : G.Held l (e :: older) := by
    rw [hnew] at hh
    exact hh.before fun x hx => (hq x (hquiet x hx)).1
  refine hs.kept (q := q) (H := G.Held l) hrefl htrans
    (fun x h hH hx => hH.cons (hq x hx).2) ?_ ?_ t th hth newer e older hnew hquiet hheld
  · exact fun s t ch c k h r w hr hth hm hp hx => hcall s t ch c k h r w hr hth hm hp (.inl hx)
  · intro s s' m t th hr hm hst hne hth hH
    rcases Config.step_cases hst with ⟨r, -, rfl⟩ | ⟨u, ch, c, k, hist, r, w, rfl, hu, hp, rfl⟩ |
      ⟨u, th', -, -, rfl⟩ | ⟨-, rfl⟩ | ⟨o, w, -, ho, rfl⟩
    · exact hrefl _
    · -- another program that held the lock would be this one
      refine hcall s u ch c k hist r w hr hu hm hp (.inr fun hH' => ?_)
      obtain rfl := hH.unique hr hth hu hH'
      exact hne ch rfl
    · exact hcancel u _
    · exact hcrash _
    · exact hout o _ w ho

theorem learned {S : M.World → M.World → Prop} {q : Event I → Prop} (hrefl : ∀ w, S w w)
    (htrans : ∀ a b c, S a b → S b c → S a c)
    (hq : ∀ x, q x → ¬ G.Takes l x ∧ ¬ G.Gives l x.call)
    (hcall : ∀ s t ch c k h r w, Reach ok s → s.thread t = some ⟨.call c k, h⟩ →
      ok s (.run t ch) → M.perform t c ch s.world = some (r, w) →
      q ⟨c, r⟩ ∨ ¬ G.Held l h → S s.world w)
    (hcancel : ∀ t w, S w (M.cancel t w)) (hcrash : ∀ w, S w (M.crash w))
    (hout : ∀ o w w', M.outside o w = some w' → S w w')
    (hs : Reach ok s) {t : Nat} {th : Thread I} (hth : s.thread t = some th)
    (hh : G.Held l th.history) {e : Event I} (he : Since q e th.history) :
    ∃ older s₀ s₁, Moment ok t e older s₀ s₁ ∧ S s₁.world s.world := by
  obtain ⟨newer, older, hnew, hquiet⟩ := he
  exact ⟨older, learned_at hrefl htrans hq hcall hcancel hcrash hout hs hth hh hnew hquiet⟩

end Guards

end Interleave
