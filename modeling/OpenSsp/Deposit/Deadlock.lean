/-
OpenSsp/Deposit/Deadlock.lean

Claims of static deposits never wait for each other for ever.

A claim, and each step of the two workers, runs under the lock of the deposits and takes the
lock of the wallet's liquidity inside it, never the other way round.  So in every reachable
state some program can go on, whatever the Bitcoin node and the operators answer, and the
programs can go on until all of them have ended and both locks are free.

Main result: `deposits_never_deadlocked`.
-/
import OpenSsp.Lib.LockOrder
import OpenSsp.Deposit.Record
import OpenSsp.Deposit.Finality

namespace OpenSsp.Deposit

open Interleave Bitcoin

variable {L : Library} {C : Service L}

/-! ### The order of the locks -/

/-- The order in which the locks are taken. -/
def Lock.rank : Lock → Nat
  | deposits => 0
  | liquidity => 1

theorem Lock.rank_le (l : Lock) : l.rank ≤ 1 := by
  cases l
  · exact Nat.zero_le 1
  · exact Nat.le_refl 1

/-- The calls that take or give back a lock. -/
def Call.locks : Call L → Bool
  | .lock _ => true
  | _ => false

/-- A lock is given back by its own task. -/
theorem perform_unlock {t : Nat} {l : Lock} {ch : Choice} {w w' : World L} {r : Unit}
    (h : perform t (.unlock l) ch w = some (r, w')) : w'.locks = w.locks.release t l := by
  cases ch with
  | done =>
      obtain ⟨-, rfl⟩ := Prod.mk.inj (Option.some.inj h)
      rfl
  | _ => cases h

/-- The world's locks are mutexes, as the general result needs them. -/
theorem mutexed (C : Service L) :
    LockOrder.Mutexed (guards C) (fun w : World L => w.locks) .lock .unlock where
  owner _ := rfl
  takes _ _ := .rfl
  gives _ _ := .rfl
  init := rfl
  call h := perform_locks h
  give h := perform_unlock h
  cancel _ _ := rfl
  crash _ := rfl
  outside {_ w w'} h := by
    obtain rfl : w' = _ := (Option.some.inj h).symm
    rfl

/-- Deposits before liquidity. -/
def lockOrder (C : Service L) : LockOrder (guards C) :=
  .ofMutexes (mutexed C) Lock.rank 1 Lock.rank_le

/-- What a function takes inside the locks below `k` is in the order. -/
abbrev Nests (C : Service L) (k : Nat) {α : Type} (act : Ssp L α) : Prop :=
  Act.Nests (lockOrder C) k act

namespace Nests

variable {α : Type} {k : Nat} {act : Ssp L α}

/-- What takes no lock is nested anywhere. -/
theorem of_within (hact : Within 4 act) : Nests C k act := by
  refine .of_calls (Act.Calls.mono hact fun c hc l hl => ?_)
  obtain rfl : c = .lock l := hl
  simp [Call.level] at hc

/-- A call that is no lock's nests anywhere. -/
theorem ask {c : Call L} {conv : c.Reply → Except String α} (hc : c.locks = false) :
    Nests C k (Act.ask (I := Api L) c conv) := by
  refine Act.Nests.ask fun l hl => ?_
  obtain rfl : c = .lock l := hl
  cases hc

/-- A section under a lock of a higher rank. -/
theorem locked {l : Lock} (hl : k ≤ l.rank) (hact : Nests C (l.rank + 1) act) :
    Nests C k (Deposit.locked l act) := by
  refine Act.Nests.bracket (l := l) hl ?_ ?_ rfl (fun m h => nomatch h) hact
  · intro m hm
    have hm : Call.lock (L := L) l = .lock m := hm
    injection hm with hm
    exact hm.symm
  · exact fun r e m hr => nomatch hr

end Nests

/-! ### Handlers -/

/-- Every request of the service is in the order. -/
theorem handler_ordered (C : Service L) (r : Request) :
    (lockOrder C).Ordered ((machine C).handler r) := by
  have hboth : ∀ {α : Type} {act : Ssp L α}, Nests C 2 act →
      Nests C 0 (locked .deposits (locked .liquidity act)) := by
    intro α act hact
    exact Nests.locked (l := .deposits) (Nat.zero_le _) (Nests.locked (l := .liquidity) le_rfl hact)
  cases r with
  | quote owner input =>
      apply Act.Nests.ordered
      apply Act.Nests.ofExcept.bind
      intro _
      apply Act.Nests.ofExcept.bind
      intro point
      have hquote : Within 4 (quoteOutput C owner point.1 point.2) := quoteOutput_within (by omega) ..
      exact Nests.locked (Nat.zero_le _) (.of_within hquote)
  | claim owner input =>
      apply Act.Nests.ordered
      apply Act.Nests.ofExcept.bind
      intro _
      apply Act.Nests.ofExcept.bind
      exact fun point => hboth (.of_within (claimOutput_within le_rfl ..))
  | pass =>
      apply Act.Nests.ordered
      apply Nests.locked (l := .deposits) (Nat.zero_le _)
      apply (Act.Nests.attempt (Nests.ask rfl)).bind
      rintro (e | records)
      · exact .pure
      · -- each claim of the pass takes the liquidity lock anew
        have hrecover : ∀ record, Within 4 (recover C record) := recover_within (by omega)
        exact Act.Nests.forEach (fun record =>
          Nests.locked (l := .liquidity) le_rfl (.of_within (hrecover record))) records
  | instantQuote owner input =>
      apply Act.Nests.ordered
      apply Act.Nests.ofExcept.bind
      intro _
      apply Act.Nests.ofExcept.bind
      intro point
      have hquote : Within 4 (instantQuoteOutput C owner point.1 point.2) :=
        instantQuoteOutput_within (by omega) ..
      exact Nests.locked (Nat.zero_le _) (.of_within hquote)
  | instantClaim owner input =>
      apply Act.Nests.ordered
      apply Act.Nests.ofExcept.bind
      exact fun quoteId => hboth (.of_within (instantClaimQuote_within le_rfl ..))
  | instantPass =>
      apply Act.Nests.ordered
      apply (Act.Nests.attempt (Nests.ask rfl)).bind
      rintro (e | records)
      · exact .pure
      · have hrecover : ∀ record, Within 4 (recoverInstantClaim C record) :=
          recoverInstantClaim_within (by omega)
        exact .forEach (fun record => hboth (.of_within (hrecover record))) _

/-! ### The result -/

/-- In every reachable state some program can go on unless all of them have ended, whatever the
replies are; and the programs can go on until all have ended, when both locks are free. -/
theorem deposits_never_deadlocked {s : Config (machine C)} (hs : Reach anyMove s)
    (A : (lockOrder C).Answers) :
    (¬ s.Finished → ∃ t s', s.step (.run t (A.choice s t)) = some s') ∧
    ∃ s', Later A.moves s s' ∧ s'.Finished ∧ ∀ l, s'.world.locks.owner l = none := by
  refine ⟨(lockOrder C).goes_on (handler_ordered C) A hs, ?_⟩
  obtain ⟨s', hl, hfin⟩ := (lockOrder C).all_finish (handler_ordered C) A hs
  have hs' : Reach anyMove s' := hs.later (hl.weaken fun _ _ _ => trivial)
  exact ⟨s', hl, hfin, fun l => (lockOrder C).free_of_finished (handler_ordered C) hs' hfin l⟩

/-- Every remote call fails. -/
def Call.unanswered : Call L → Choice
  | .lock _ => .done
  | .unlock _ => .done
  | .now => .done
  | .newUuid => .uuid (Uuid.fill 0)
  | .db _ => .done
  | _ => .fail "unavailable"

/-- In the sample every call can be answered. -/
def unanswered (C : Service L) : (lockOrder C).Answers where
  choice s t := ((s.next t).map Call.unanswered).getD .done
  possible {s t c} _ hn hfree := by
    rw [hn]
    cases c with
    | lock l =>
        have hl : s.world.locks.owner l = none := hfree l rfl
        have htake : (s.world.locks.take t l).isSome = true := by
          rw [Mutexes.take, if_pos hl]
          rfl
        exact Option.isSome_map.trans htake
    | _ => rfl

/-- Does program 1 wait for the lock of the deposits that program 0 has? -/
def passWaits (s : Config (machine C)) : Bool :=
  s.world.locks.owner .deposits == some 0 && match s.next 1 with
    | some (.lock .deposits) => true
    | _ => false

theorem deposits_never_deadlocked_waiting : ∃ s : Config (machine .sample), Reach anyMove s ∧
    passWaits s = true ∧
    (¬ s.Finished → ∃ t s', s.step (.run t ((unanswered .sample).choice s t)) = some s') ∧
    ∃ s', Later (unanswered .sample).moves s s' ∧ s'.Finished ∧
      ∀ l, s'.world.locks.owner l = none := by
  obtain ⟨s, hs, hp⟩ := Reach.exists_of_moves
    ([.spawn .pass, .spawn .pass, .run 0 .done] : List (Move (machine .sample))) passWaits
    (by decide)
  exact ⟨s, hs, hp, deposits_never_deadlocked hs (unanswered .sample)⟩

end OpenSsp.Deposit
