/-
OpenSsp/Lib/LockOrder.lean

Locks taken in one order.

Every lock of a machine has a rank.  A program that asks for a lock only while all locks it
holds have a smaller rank, and that has given everything back at its end, is `Ordered`.
When all programs of a machine are, the one that waits for the lock of the highest rank
waits for a program that can go on, so some program always can (`ready`).  And since every
program ends, a run of the programs alone, with any replies, ends with all of them finished
and every lock free (`all_finish`).

`Act.Nests` is the property that composes: an action takes locks of rank `k` or more and
leaves what was held before it.

Main results: `LockOrder.ready`, `LockOrder.goes_on` and `LockOrder.all_finish`.
-/
import OpenSsp.Lib.Guard
import OpenSsp.Lib.Calls
import Mathlib.Logic.Hydra

namespace Interleave

variable {I : Interface} {M : Machine I} {L : Type} {α β ε : Type}

/-! ### Runs of programs end -/

/-- `p` is what `q` goes on with after its next call. -/
def Prog.Rest (p q : Prog I Unit) : Prop := ∃ c k r, q = .call c k ∧ p = k r

/-- A program gets shorter with each call, since its tree is well-founded. -/
theorem Prog.rest_wf : WellFounded (Prog.Rest (I := I)) := by
  refine ⟨fun p => ?_⟩
  induction p with
  | ret a =>
      refine ⟨_, ?_⟩
      rintro q ⟨c, k, r, h, -⟩
      cases h
  | call c k ih =>
      refine ⟨_, ?_⟩
      rintro q ⟨c', k', r, h, rfl⟩
      cases h
      exact ih r

namespace Config

/-- What the programs have left to do; a dead one has nothing. -/
def progs (s : Config M) : List (Prog I Unit) :=
  s.threads.map fun o => (o.map Thread.prog).getD (.ret ())

/-- `s'` is `s` after a call of one of its programs. -/
def Ran (s' s : Config M) : Prop := ∃ t ch, s.step (.run t ch) = some s'

/-- A call puts the rest of one program in the place of that program. -/
theorem Ran.cut {s s' : Config M} (h : s'.Ran s) :
    Relation.CutExpand Prog.Rest (s'.progs : Multiset (Prog I Unit)) s.progs := by
  obtain ⟨t, ch, hst⟩ := h
  rcases step_cases hst with ⟨r, he, -⟩ | ⟨t', ch', c, k, hist, r, w, he, hth, hp, rfl⟩ |
    ⟨t', th, he, -, -⟩ | ⟨he, -⟩ | ⟨o, w, he, -, -⟩
  · cases he
  · have ht := thread_some_lt hth
    have hlt : t' < s.progs.length := by
      rw [progs, List.length_map]
      exact (List.getElem?_eq_some_iff.mp ht).1
    have hget : s.progs[t'] = .call c k := by
      simp [progs, (List.getElem?_eq_some_iff.mp ht).2]
    have hset : (s.record t' w hist ⟨c, r⟩ (k r)).progs = s.progs.set t' (k r) := by
      simp [progs, record, List.map_set]
    have hold : s.progs.Perm (.call c k :: s.progs.eraseIdx t') := by
      rw [← hget]
      exact (List.getElem_cons_eraseIdx_perm hlt).symm
    have hnew := List.set_perm_cons_eraseIdx hlt (k r)
    rw [hset, Multiset.coe_eq_coe.mpr hold, Multiset.coe_eq_coe.mpr hnew, ← Multiset.cons_coe,
      ← Multiset.cons_coe, ← Multiset.singleton_add, ← Multiset.singleton_add]
    refine Relation.cutExpand_add_right _ |>.mpr ?_
    refine Relation.cutExpand_singleton fun q hq => ?_
    rw [Multiset.mem_singleton.mp hq]
    exact ⟨c, k, r, rfl, rfl⟩
  · cases he
  · cases he
  · cases he

/-- No run consists of calls of programs for ever. -/
theorem ran_wf : WellFounded (Ran (M := M)) :=
  Subrelation.wf (fun h => Ran.cut h)
    (InvImage.wf (fun s : Config M => (s.progs : Multiset (Prog I Unit)))
      (Prog.rest_wf.cutExpand))

/-- Every live program has come to its end. -/
def Finished (s : Config M) : Prop := ∀ t, s.next t = none

/-- A program that is about to make a call is live. -/
theorem next_eq_some {s : Config M} {t : Nat} {c : I.Call} (h : s.next t = some c) :
    ∃ k hist, s.thread t = some ⟨.call c k, hist⟩ := by
  unfold next at h
  obtain ⟨⟨p, hist⟩, hth, hp⟩ := Option.bind_eq_some_iff.mp h
  cases p with
  | ret a => cases hp
  | call c' k =>
      obtain rfl := Option.some.inj hp
      exact ⟨k, hist, hth⟩

/-- The call it is about to make is the first of what is left of it. -/
theorem next_of_thread {s : Config M} {t : Nat} {c : I.Call} {k : I.Reply c → Prog I Unit}
    {hist : History I} (h : s.thread t = some ⟨.call c k, hist⟩) : s.next t = some c := by
  rw [next, h]
  rfl

end Config

/-! ### The order -/

/-- Ranks of the locks, at most `top`, and that locks change hands by the calls of `G` alone. -/
structure LockOrder (G : Guards M L) where
  rank : L → Nat
  top : Nat
  rank_le : ∀ l, rank l ≤ top
  /-- The call waits while somebody has the lock. -/
  Waits : L → I.Call → Prop
  waits : ∀ {l e}, G.Takes l e → Waits l e.call
  fresh : ∀ l, G.owner M.init l = none
  taken : ∀ {t c ch w r w' l u}, M.perform t c ch w = some (r, w') → G.owner w' l = some u →
    G.owner w l = some u ∨ (u = t ∧ G.Takes l ⟨c, r⟩)
  given : ∀ {t c ch w r w' l}, M.perform t c ch w = some (r, w') → G.Gives l c →
    G.owner w' l ≠ some t
  dropped : ∀ {t w l u}, G.owner (M.cancel t w) l = some u → G.owner w l = some u ∧ u ≠ t
  crashed : ∀ w l, G.owner (M.crash w) l = none
  outside : ∀ {o w w' l u}, M.outside o w = some w' → G.owner w' l = some u →
    G.owner w l = some u

namespace LockOrder

section mutexes

variable [DecidableEq L] {t u : Nat} {l m : L} {ls : Mutexes L}

/-- What is owned after a lock is given back was owned before. -/
theorem owner_of_release (h : (ls.release t l).owner m = some u) : ls.owner m = some u := by
  unfold Mutexes.release at h
  split at h
  · have h : Function.update ls.owner l none m = some u := h
    rw [Function.update_apply] at h
    split at h
    · cases h
    · exact h
  · exact h

/-- After a release the lock is not held by the one who released it. -/
theorem owner_release_ne (t : Nat) (l : L) (ls : Mutexes L) :
    (ls.release t l).owner l ≠ some t := by
  unfold Mutexes.release
  split
  · show Function.update ls.owner l none l ≠ some t
    rw [Function.update_self]
    exact fun h => nomatch h
  · assumption

omit [DecidableEq L] in
/-- Dropping a program frees its locks and no others. -/
theorem owner_of_drop (h : (ls.drop t).owner l = some u) : ls.owner l = some u ∧ u ≠ t := by
  have h : (if ls.owner l = some t then none else ls.owner l) = some u := h
  split at h
  · cases h
  · next hne => exact ⟨h, fun hut => hne (hut ▸ h)⟩

/-- The worlds carry mutexes, which two calls move, and `G` reads off them who has a lock. -/
structure Mutexed (G : Guards M L) (locks : M.World → Mutexes L) (lock unlock : L → I.Call) :
    Prop where
  owner : ∀ w, G.owner w = (locks w).owner
  takes : ∀ l e, G.Takes l e ↔ e.call = lock l
  gives : ∀ l c, G.Gives l c ↔ c = unlock l
  init : locks M.init = .free
  call : ∀ {t c ch w r w'}, M.perform t c ch w = some (r, w') →
    (∃ l, c = lock l ∧ (locks w).take t l = some (locks w')) ∨
    (∃ l, c = unlock l ∧ locks w' = (locks w).release t l) ∨
    ((∀ l, c ≠ lock l) ∧ locks w' = locks w)
  give : ∀ {t l ch w r w'}, M.perform t (unlock l) ch w = some (r, w') →
    locks w' = (locks w).release t l
  cancel : ∀ t w, locks (M.cancel t w) = (locks w).drop t
  crash : ∀ w, locks (M.crash w) = .free
  outside : ∀ {o w w'}, M.outside o w = some w' → locks w' = locks w

variable {G : Guards M L} {locks : M.World → Mutexes L} {lock unlock : L → I.Call}

/-- Any ranks are an order of mutexes. -/
def ofMutexes (H : Mutexed G locks lock unlock) (rank : L → Nat) (top : Nat)
    (hrank : ∀ l, rank l ≤ top) : LockOrder G where
  rank := rank
  top := top
  rank_le := hrank
  Waits l c := c = lock l
  waits he := (H.takes _ _).mp he
  fresh l := by
    rw [H.owner, H.init]
    rfl
  taken {t c ch w r w' l u} hp ho := by
    rw [H.owner] at ho ⊢
    rcases H.call hp with ⟨m, rfl, ht⟩ | ⟨m, rfl, he⟩ | ⟨-, he⟩
    · obtain ⟨-, hm⟩ := Mutexes.owner_take ht l
      rw [hm] at ho
      split at ho
      · next hlm =>
          exact .inr ⟨(Option.some.inj ho).symm, (H.takes _ _).mpr (congrArg lock hlm.symm)⟩
      · exact .inl ho
    · rw [he] at ho
      exact .inl (owner_of_release ho)
    · rw [he] at ho
      exact .inl ho
  given {t c ch w r w' l} hp hg := by
    obtain rfl := (H.gives _ _).mp hg
    rw [H.owner, H.give hp]
    exact owner_release_ne t l _
  dropped {t w l u} h := by
    rw [H.owner, H.cancel] at h
    rw [H.owner]
    exact owner_of_drop h
  crashed w l := by
    rw [H.owner, H.crash]
    rfl
  outside {o w w' l u} ho h := by
    rw [H.owner, H.outside ho] at h
    rw [H.owner]
    exact h

end mutexes

variable {G : Guards M L} (O : LockOrder G) {ok : Config M → Move M → Prop} {s : Config M}

/-- A lock is asked for while only locks of smaller rank are held. -/
def Above (h : History I) (c : I.Call) : Prop :=
  ∀ l, O.Waits l c → ∀ m, G.Held m h → O.rank m < O.rank l

/-- The program respects the order and has given every lock back at its end. -/
def Ordered (p : Prog I Unit) : Prop := p.wp O.Above (fun _ h => ∀ m, ¬ G.Held m h) []

/-- Nobody has a lock that the call waits for. -/
def Free (s : Config M) (c : I.Call) : Prop := ∀ l, O.Waits l c → G.owner s.world l = none

/-- The owner of a lock is a live program that holds it. -/
theorem holder (O : LockOrder G) (hs : Reach ok s) {l : L} {u : Nat} (hl : G.owner s.world l = some u) :
    ∃ th, s.thread u = some th ∧ G.Held l th.history := by
  refine hs.invariant (J := fun s => ∀ l u, G.owner s.world l = some u →
    ∃ th, s.thread u = some th ∧ G.Held l th.history) ?_ ?_ l u hl
  · intro l u h
    exact absurd h (by rw [show (Config.start M).world = M.init from rfl, O.fresh]; simp)
  · intro s s' m _ ih _ hst l u h
    rcases Config.step_cases hst with ⟨r, -, rfl⟩ | ⟨t, ch, c, k, hist, r, w, -, hth, hp, rfl⟩ |
      ⟨t, th, -, hth, rfl⟩ | ⟨-, rfl⟩ | ⟨o, w, -, ho, rfl⟩
    · -- a new program owns nothing
      obtain ⟨th, hu, hh⟩ := ih l u h
      refine ⟨th, ?_, hh⟩
      have hlt : u < s.threads.length :=
        (List.getElem?_eq_some_iff.mp (Config.thread_some_lt hu)).1
      rw [← hu]
      simp [Config.thread, Config.spawn, List.getElem?_append_left hlt]
    · have hlt := (List.getElem?_eq_some_iff.mp (Config.thread_some_lt hth)).1
      have hset : (s.record t w hist ⟨c, r⟩ (k r)).thread t = some ⟨k r, ⟨c, r⟩ :: hist⟩ := by
        simp [Config.thread, Config.record, hlt]
      rcases O.taken hp h with hold | ⟨rfl, htake⟩
      · obtain ⟨th, hu, hh⟩ := ih l u hold
        by_cases hut : u = t
        · -- the caller owned it before, and has not given it away
          subst hut
          rw [hth] at hu
          cases hu
          exact ⟨_, hset, hh.cons fun hg => O.given hp hg h⟩
        · refine ⟨th, ?_, hh⟩
          rw [← hu]
          simp [Config.thread, Config.record, List.getElem?_set_ne (Ne.symm hut)]
      · exact ⟨_, hset, .here htake⟩
    · obtain ⟨hold, hut⟩ := O.dropped h
      obtain ⟨th', hu, hh⟩ := ih l u hold
      refine ⟨th', ?_, hh⟩
      rw [← hu]
      simp [Config.thread, Config.drop, List.getElem?_set_ne (Ne.symm hut)]
    · exact absurd h (by rw [show s.restart.world = M.crash s.world from rfl, O.crashed]; simp)
    · exact ih l u (O.outside ho h)

section ordered

variable (hord : ∀ r, O.Ordered (M.handler r))
include hord

/-- **No deadlock.**  When a program has not come to its end, then some program is not waiting:
of the locks somebody waits for, take one of the highest rank.  Its owner goes on, or waits
for a lock of a rank higher still. -/
theorem ready (hs : Reach ok s) {t : Nat} {c : I.Call} (hn : s.next t = some c) :
    ∃ u c', s.next u = some c' ∧ O.Free s c' := by
  by_contra hnone
  have hstuck : ∀ u c', s.next u = some c' → ∃ l v, O.Waits l c' ∧ G.owner s.world l = some v := by
    intro u c' hu
    by_contra hfree
    refine hnone ⟨u, c', hu, fun l hl => ?_⟩
    rcases ho : G.owner s.world l with - | v
    · rfl
    · exact absurd ⟨l, v, hl, ho⟩ hfree
  have hclimb : ∀ n l v, O.top - O.rank l < n → G.owner s.world l = some v → False := by
    intro n
    induction n with
    | zero => exact fun l v h => absurd h (Nat.not_lt_zero _)
    | succ n ih =>
        intro l v hlt hv
        obtain ⟨⟨p, hist⟩, hth, hh⟩ := O.holder hs hv
        have hwp := hs.threads_end hord v _ hth
        cases p with
        | ret a => exact hwp l hh
        | call c' k =>
            obtain ⟨l', v', hw, hv'⟩ := hstuck v c' (Config.next_of_thread hth)
            have hrank := hwp.1 l' hw l hh
            have hle := O.rank_le l'
            exact ih l' v' (by omega) hv'
  obtain ⟨l, v, -, hv⟩ := hstuck t c hn
  exact hclimb _ l v (Nat.lt_succ_self _) hv

/-- At the end of all programs every lock is free. -/
theorem free_of_finished (hs : Reach ok s) (hfin : s.Finished) (l : L) :
    G.owner s.world l = none := by
  rcases ho : G.owner s.world l with - | v
  · rfl
  · obtain ⟨⟨p, hist⟩, hth, hh⟩ := O.holder hs ho
    have hwp := hs.threads_end hord v _ hth
    cases p with
    | ret a => exact absurd hh (hwp l)
    | call c k =>
        have hnone := hfin v
        rw [Config.next_of_thread hth] at hnone
        cases hnone

end ordered

/-! ### Running the programs to their ends -/

/-- A reply for every call that does not wait. -/
structure Answers where
  choice : Config M → Nat → M.Choice
  possible : ∀ {s t c}, Reach anyMove s → s.next t = some c → O.Free s c →
    (M.perform t c (choice s t) s.world).isSome = true

/-- The moves in which some program gets the reply to its next call. -/
def Answers.moves {O : LockOrder G} (A : O.Answers) (s : Config M) (m : Move M) : Prop :=
  ∃ t, m = .run t (A.choice s t)

/-- A call that does not wait is answered with one of the choices that are always possible. -/
theorem Answers.steps {O : LockOrder G} (A : O.Answers) {t : Nat} {c : I.Call}
    (hs : Reach anyMove s) (hn : s.next t = some c) (hfree : O.Free s c) :
    ∃ s', s.step (.run t (A.choice s t)) = some s' := by
  obtain ⟨k, hist, hth⟩ := Config.next_eq_some hn
  obtain ⟨⟨r, w⟩, hp⟩ := Option.isSome_iff_exists.mp (A.possible hs hn hfree)
  exact ⟨_, Config.step_run hth hp⟩

/-- Whatever the replies are, some program goes on as long as one is not at its end. -/
theorem goes_on (hord : ∀ r, O.Ordered (M.handler r)) (A : O.Answers) (hs : Reach anyMove s)
    (hfin : ¬ s.Finished) : ∃ u s', s.step (.run u (A.choice s u)) = some s' := by
  obtain ⟨t, ht⟩ := not_forall.mp hfin
  obtain ⟨c, hc⟩ := Option.ne_none_iff_exists'.mp ht
  obtain ⟨u, c', hu, hfree⟩ := O.ready hord hs hc
  exact ⟨u, A.steps hs hu hfree⟩

/-- **The programs finish.**  From every point of a run the programs alone can go on until each of
them has come to its end. -/
theorem all_finish (hord : ∀ r, O.Ordered (M.handler r)) (A : O.Answers)
    (hs : Reach anyMove s) : ∃ s', Later A.moves s s' ∧ s'.Finished := by
  induction s using Config.ran_wf.induction with
  | h s ih =>
      by_cases hfin : s.Finished
      · exact ⟨s, .refl, hfin⟩
      · obtain ⟨u, s₁, hst⟩ := O.goes_on hord A hs hfin
        obtain ⟨s', hl, hfin'⟩ := ih s₁ ⟨u, _, hst⟩ (hs.step trivial hst)
        exact ⟨s', (Later.refl.step ⟨u, rfl⟩ hst).trans hl, hfin'⟩

end LockOrder

/-! ### Actions that respect the order -/

namespace Act

variable {G : Guards M L} {O : LockOrder G} {j k : Nat} {x : Act I ε α} {f : α → Act I ε β}

/-- Called with locks below rank `k` held, the action takes locks of rank `k` or more, in order,
and holds nothing new at its end. -/
structure Nests (O : LockOrder G) (k : Nat) (x : Act I ε α) : Prop where
  wp : ∀ h, (∀ m, G.Held m h → O.rank m < k) →
    x.run.wp O.Above (fun _ h' => ∀ m, G.Held m h' → G.Held m h) h

namespace Nests

/-- An action that may start with lower locks held may start with higher ones too. -/
theorem mono (hx : Nests O k x) (hjk : j ≤ k) : Nests O j x :=
  ⟨fun h hh => hx.wp h fun m hm => Nat.lt_of_lt_of_le (hh m hm) hjk⟩

/-- An action that waits for no lock. -/
theorem of_calls (hx : Calls (fun c => ∀ l, ¬ O.Waits l c) x) : Nests O k x := by
  refine ⟨fun h _ => ?_⟩
  have hspec := hx.footprint (P := O.Above) (fun h c hc l hl => absurd hl (hc l)) h
  refine Prog.wp_mono hspec.wp fun r h' hr m hm => ?_
  have hgrows : Extends (fun e => ∀ l, ¬ O.Waits l e.call) h h' := by
    rcases r with e | a
    · exact hr
    · exact hr.1
  obtain ⟨newer, rfl, hnew⟩ := hgrows
  exact hm.before fun e he htake => hnew e he m (O.waits htake)

/-- A value waits for nothing. -/
theorem pure {a : α} : Nests O k (Pure.pure a : Act I ε α) := of_calls .pure

theorem throw {e : ε} : Nests O k (MonadExcept.throw e : Act I ε α) := of_calls .throw

/-- Nor does a pure function. -/
theorem ofExcept {r : Except ε α} : Nests O k (Act.ofExcept r : Act I ε α) := of_calls .ofExcept

/-- A call that never waits can be made with any locks held. -/
theorem ask {c : I.Call} {conv : I.Reply c → Except ε α} (hc : ∀ l, ¬ O.Waits l c) :
    Nests O k (Act.ask c conv) := of_calls (.ask hc)

theorem tell {c : I.Call} (hc : ∀ l, ¬ O.Waits l c) :
    Nests O k (Act.tell c : Act I ε (I.Reply c)) := of_calls (.tell hc)

/-- The second part starts with the locks that the first one did. -/
theorem bind (hx : Nests O k x) (hf : ∀ a, Nests O k (f a)) : Nests O k (x >>= f) := by
  refine ⟨fun h hh => ?_⟩
  show Prog.wp O.Above (x.run >>= ExceptT.bindCont f) _ h
  rw [Prog.wp_bind]
  refine Prog.wp_mono (hx.wp h hh) fun r h₁ h₁held => ?_
  rcases r with e | a
  · exact h₁held
  · refine Prog.wp_mono ((hf a).wp h₁ fun m hm => hh m (h₁held m hm)) fun r h₂ h₂held m hm => ?_
    exact h₁held m (h₂held m hm)

/-- A caught error gives back no lock, as all are given back already. -/
theorem attempt (hx : Nests O k x) : Nests O k (Act.attempt x) := by
  refine ⟨fun h hh => ?_⟩
  show Prog.wp O.Above (x.run >>= fun r => Prog.ret (Except.ok r)) _ h
  rw [Prog.wp_bind]
  exact Prog.wp_mono (hx.wp h hh) fun _ _ hr => hr

theorem mapErr {g : ε → ε} (hx : Nests O k x) : Nests O k (Act.mapErr g x) := by
  apply bind hx.attempt
  intro r
  rcases r with e | a
  · exact throw
  · exact pure

/-- Both branches keep the order. -/
theorem ite {c : Prop} [Decidable c] {x y : Act I ε α} (hx : Nests O k x) (hy : Nests O k y) :
    Nests O k (if c then x else y) := by
  split
  · exact hx
  · exact hy

/-- A check that ends the function with an error. -/
theorem guard {c : Prop} [Decidable c] {e : ε} {f : Unit → Act I ε α} (hf : Nests O k (f ())) :
    Nests O k (if c then (MonadExcept.throw e : Act I ε Unit) >>= f else f ()) :=
  ite (throw.bind fun _ => hf) hf

/-- By induction on the list: every round begins with the same locks. -/
theorem forEach {body : α → Act I ε Unit} (hbody : ∀ a, Nests O k (body a)) (as : List α) :
    Nests O k (Act.forEach body as) := by
  induction as with
  | nil => exact pure
  | cons a as ih => exact bind (hbody a) fun _ => ih

/-- The same for a search that may stop early. -/
theorem firstSome {body : α → Act I ε (Option β)} (hbody : ∀ a, Nests O k (body a))
    (as : List α) : Nests O k (Act.firstSome body as) := by
  induction as with
  | nil => exact pure
  | cons a as ih =>
      apply bind (hbody a)
      intro r
      rcases r with - | b
      · exact ih
      · exact pure

/-- The body of a bracket on `l` takes locks above `l`. -/
theorem bracket {l : L} {c c' : I.Call} {conv : I.Reply c → Except ε Unit}
    {conv' : I.Reply c' → Except ε Unit} (hl : k ≤ O.rank l)
    (htake : ∀ m, O.Waits m c → m = l) (hfail : ∀ r e m, conv r = .error e → ¬ G.Takes m ⟨c, r⟩)
    (hgive : G.Gives l c') (hquiet : ∀ m, ¬ O.Waits m c') (hx : Nests O (O.rank l + 1) x) :
    Nests O k (Act.bracket (Act.ask c conv) (Act.ask c' conv') x) := by
  refine ⟨fun h hh => ?_⟩
  have hbelow : ∀ m, G.Held m h → O.rank m < O.rank l :=
    fun m hm => Nat.lt_of_lt_of_le (hh m hm) hl
  -- what is held after one more call
  have hheld : ∀ {m e h}, G.Held m (e :: h) → G.Takes m e ∨ (¬ G.Gives m e.call ∧ G.Held m h) := by
    rintro m e h ⟨e', he', hs⟩
    rcases Since.cons_iff.mp hs with rfl | ⟨hne, hs⟩
    · exact .inl he'
    · exact .inr ⟨hne, e', he', hs⟩
  refine ⟨fun l' hl' m hm => ?_, fun r => ?_⟩
  · rw [htake l' hl']
    exact hbelow m hm
  show Prog.wp O.Above (ExceptT.bindCont _ (conv r)) _ _
  rcases hr : conv r with e | u
  · -- the lock was not taken
    intro m hm
    rcases hheld hm with ht | ⟨-, hm⟩
    · exact absurd ht (hfail r e m hr)
    · exact hm
  · show Prog.wp O.Above (Act.attempt x >>= fun r => Act.ask c' conv' >>= fun _ => Act.ofExcept r).run
      _ (⟨c, r⟩ :: h)
    have hbody : ∀ m, G.Held m (⟨c, r⟩ :: h) → m = l ∨ G.Held m h := by
      intro m hm
      rcases hheld hm with ht | ⟨-, hm⟩
      · exact .inl (htake m (O.waits ht))
      · exact .inr hm
    have hlt : ∀ m, G.Held m (⟨c, r⟩ :: h) → O.rank m < O.rank l + 1 := by
      intro m hm
      rcases hbody m hm with rfl | hm
      · exact Nat.lt_succ_self _
      · exact Nat.lt_succ_of_lt (hbelow m hm)
    show Prog.wp O.Above ((x.run >>= fun r => Prog.ret (.ok r)) >>=
      ExceptT.bindCont fun r => Act.ask c' conv' >>= fun _ => Act.ofExcept r) _ _
    rw [Prog.wp_bind, Prog.wp_bind]
    refine Prog.wp_mono (hx.wp _ hlt) fun r₁ h₁ h₁held => ?_
    -- the lock is given back whatever the outcome is
    have hend : ∀ r', ∀ m, G.Held m (⟨c', r'⟩ :: h₁) → G.Held m h := by
      intro r' m hm
      rcases hheld hm with ht | ⟨hne, hm⟩
      · exact absurd (O.waits ht) (hquiet m)
      · rcases hbody m (h₁held m hm) with rfl | hm
        · exact absurd hgive hne
        · exact hm
    refine ⟨fun l' hl' => absurd hl' (hquiet l'), fun r' => ?_⟩
    show Prog.wp O.Above (ExceptT.bindCont _ (conv' r')) _ _
    rcases conv' r' with e | u
    · exact hend r'
    · rcases r₁ with e | a
      · exact hend r'
      · exact hend r'

/-- The result plays no part. -/
theorem discard (hx : Nests O k x) : Nests O k (Functor.discard x) :=
  bind (f := fun _ => Pure.pure ()) hx fun _ => pure

/-- A program that runs an action, whatever its outcome. -/
theorem ordered (hx : Nests O 0 x) : O.Ordered (Functor.discard x.run) := by
  -- nothing is held at the beginning
  have hnone : ∀ m, ¬ G.Held m [] := fun m ⟨e, _, hs⟩ => absurd hs Since.nil
  show Prog.wp _ _ _ _
  rw [Prog.wp_discard]
  refine Prog.wp_mono (hx.wp [] fun m hm => absurd hm (hnone m)) fun _ h hh m hm => ?_
  exact hnone m (hh m hm)

end Nests

end Act

end Interleave
