/-
OpenSsp/Coop/Deadlock.lean

Cooperative exits never wait for each other for ever.

Requests, completions, fee bumps and the worker run under the lock of the exits; the claim of
a withdrawal's transfer takes the lock of the wallet's liquidity inside it.

Main result: `exits_never_deadlocked`.
-/
import OpenSsp.Lib.LockOrder
import OpenSsp.Coop.Run

namespace OpenSsp.Coop

open Interleave Bitcoin

variable {L : Library} {C : Service L} {k : Nat}

/-! ### The order of the locks -/

/-- The order in which the locks are taken. -/
def Lock.rank : Lock → Nat
  | exits => 0
  | liquidity => 1

theorem Lock.rank_le (l : Lock) : l.rank ≤ 1 := by
  cases l
  · exact Nat.zero_le 1
  · exact Nat.le_refl 1

/-- The calls that take or give back a lock. -/
def Call.locks : Call L → Bool
  | .lock _ => true
  | _ => false

/-- A lock is given back by its own task. -/
theorem perform_unlock {t : Nat} {l : Lock} {ch : Choice L} {w w' : World L} {r : Unit}
    (h : perform t (.unlock l) ch w = some (r, w')) : w'.locks = w.locks.release t l := by
  cases ch with
  | done =>
      obtain ⟨-, rfl⟩ := Prod.mk.inj (Option.some.inj h)
      rfl
  | _ => cases h

/-- The world's locks are mutexes, as the general result needs them. -/
theorem mutexed (C : Service L) :
    LockOrder.Mutexed (guards C) (fun w : World L => w.locks) .lock .unlock where
  owner _ := rfl
  takes _ _ := .rfl
  gives _ _ := .rfl
  init := rfl
  call h := perform_locks h
  give h := perform_unlock h
  cancel _ _ := rfl
  crash _ := rfl
  outside h := (outside_frame h).2.2.1

/-- Exits before liquidity. -/
def lockOrder (C : Service L) : LockOrder (guards C) :=
  .ofMutexes (mutexed C) Lock.rank 1 Lock.rank_le

/-- What a function takes inside the locks below `k` is in the order. -/
abbrev Nests (C : Service L) (k : Nat) {α : Type} (act : Ssp L α) : Prop :=
  Act.Nests (lockOrder C) k act

namespace Nests

variable {α : Type} {act : Ssp L α}

/-- What takes no lock is nested anywhere. -/
theorem of_within (hact : Within 2 act) : Nests C k act := by
  refine .of_calls (Act.Calls.mono hact fun c hc l hl => ?_)
  obtain rfl : c = .lock l := hl
  simp [Call.level] at hc

/-- A call that is no lock's nests anywhere. -/
theorem ask {c : Call L} {conv : c.Reply → Except String α} (hc : c.locks = false) :
    Nests C k (Act.ask (I := Api L) c conv) := by
  refine Act.Nests.ask fun l hl => ?_
  obtain rfl : c = .lock l := hl
  cases hc

theorem tell {c : Call L} (hc : c.locks = false) : Nests C k (Coop.tell c) := by
  refine Act.Nests.tell fun l hl => ?_
  obtain rfl : c = .lock l := hl
  cases hc

/-- A section under a lock of a higher rank. -/
theorem locked {l : Lock} (hl : k ≤ l.rank) (hact : Nests C (l.rank + 1) act) :
    Nests C k (Coop.locked l act) := by
  refine Act.Nests.bracket (l := l) hl ?_ ?_ rfl (fun m h => nomatch h) hact
  · intro m hm
    have hm : Call.lock (L := L) l = .lock m := hm
    injection hm with hm
    exact hm.symm
  · exact fun r e m hr => nomatch hr

end Nests

/-! ### Payouts -/

/-- `claim` takes the lock of liquidity alone. -/
theorem claim_nests (hk : k ≤ 1) (record : ExitRecord L) : Nests C k (claim C record) := by
  apply Nests.locked (l := .liquidity) hk
  apply Act.Nests.ofExcept.bind
  exact fun id => Nests.of_within (claimTransfer_within id)

/-- `advance` may claim, and takes no other lock. -/
theorem advance_nests (hk : k ≤ 1) (record : ExitRecord L) : Nests C k (advance C record) := by
  apply Act.Nests.ite .pure
  apply Act.Nests.ofExcept.bind
  intro exit
  apply (Nests.of_within (sign_within (by omega) exit record)).bind
  intro record
  apply (Act.Nests.attempt (Nests.ask rfl)).bind
  intro observed
  apply Act.Nests.guard
  apply Act.Nests.ite (Nests.of_within (broadcast_within le_rfl record))
  apply (Nests.ask rfl).bind
  intro _
  apply (claim_nests hk _).bind
  intro _
  exact (Nests.ask rfl).bind fun _ => .pure

/-! ### Fee bumps and the worker -/

/-- `bump_fee` takes the lock of exits alone. -/
theorem bumpFee_nests (id : String) (feeRate maxFeeSats : Nat) :
    Nests C 0 (bumpFee (L := L) id feeRate maxFeeSats) := by
  unfold bumpFee
  apply Act.Nests.guard
  apply Nests.locked (l := .exits) (Nat.zero_le _)
  apply (Nests.ask rfl).bind
  intro record
  apply Act.Nests.guard
  apply Act.Nests.ofExcept.bind
  intro raw
  apply Act.Nests.ofExcept.bind
  intro parent
  apply (Nests.ask rfl).bind
  intro observed
  apply Act.Nests.guard
  apply (Nests.ask rfl).bind
  rintro (- | ⟨raw, previous⟩)
  · exact Nests.of_within (newBump_within le_rfl ..)
  · exact Nests.of_within (rebroadcast_within le_rfl ..)

/-- The worker's round of one exit holds the lock of exits already. -/
theorem reconcile_nests (hk : k ≤ 1) (record : ExitRecord L) :
    Nests C k (reconcile C record) := by
  have hadvance : Nests C k (do
      let _ ← Act.attempt (advance C record)
      return ()) := (advance_nests hk record).attempt.bind fun _ => .pure
  apply (Nests.of_within (overdue_within record)).bind
  intro overdue
  apply Act.Nests.ite _ hadvance
  apply (Nests.of_within (transferExists_within record.transferId)).attempt.bind
  rintro (e | _ | _)
  · exact .pure
  · exact (Act.Nests.attempt (Nests.ask rfl)).bind fun _ => .pure
  · exact hadvance

/-! ### Handlers -/

/-- Every request of the service is in the order. -/
theorem handler_ordered (C : Service L) (r : Request) :
    (lockOrder C).Ordered ((machine C).handler r) := by
  cases r with
  | quote owner ids address => exact (Nests.of_within (quote_within owner ids address)).ordered
  | request owner input =>
      apply Act.Nests.ordered
      apply Act.Nests.ofExcept.bind
      intro key
      apply Nests.locked (l := .exits) (Nat.zero_le _)
      apply (Nests.ask rfl).bind
      rintro (- | record)
      · exact Nests.of_within (requestNew_within le_rfl owner input key)
      · exact .guard (Nests.of_within (response_within record))
  | complete owner transferId id =>
      apply Act.Nests.ordered
      apply Nests.locked (l := .exits) (Nat.zero_le _)
      apply (Nests.ask rfl).bind
      intro found
      apply Act.Nests.ofExcept.bind
      intro record
      apply Act.Nests.guard
      apply Act.Nests.guard
      exact (advance_nests le_rfl record).bind fun record => Nests.of_within (response_within record)
  | get id owner =>
      apply Act.Nests.ordered
      apply (Nests.ask rfl).bind
      rintro (- | record)
      · exact .pure
      · exact (Nests.of_within (response_within record)).bind fun _ => .pure
  | bumpFee id feeRate maxFeeSats => exact (bumpFee_nests id feeRate maxFeeSats).ordered
  | pass =>
      apply Act.Nests.ordered
      apply Nests.locked (l := .exits) (Nat.zero_le _)
      apply (Act.Nests.attempt (Nests.ask rfl)).bind
      rintro (e | records)
      · exact .pure
      · exact Act.Nests.forEach (reconcile_nests le_rfl) records

/-! ### The result -/

/-- In every reachable state some program can go on unless all of them have ended, whatever the
replies are; and the programs can go on until all have ended, when both locks are free. -/
theorem exits_never_deadlocked {s : Config (machine C)} (hs : Reach anyMove s)
    (A : (lockOrder C).Answers) :
    (¬ s.Finished → ∃ t s', s.step (.run t (A.choice s t)) = some s') ∧
    ∃ s', Later A.moves s s' ∧ s'.Finished ∧ ∀ l, s'.world.locks.owner l = none := by
  refine ⟨(lockOrder C).goes_on (handler_ordered C) A hs, ?_⟩
  obtain ⟨s', hl, hfin⟩ := (lockOrder C).all_finish (handler_ordered C) A hs
  have hs' : Reach anyMove s' := hs.later (hl.weaken fun _ _ _ => trivial)
  exact ⟨s', hl, hfin, fun l => (lockOrder C).free_of_finished (handler_ordered C) hs' hfin l⟩

/-- Every remote call fails. -/
def Call.unanswered : Call L → Choice L
  | .lock _ => .done
  | .unlock _ => .done
  | .now => .done
  | .newUuid => .uuid (Uuid.fill 0)
  | .db _ => .done
  | _ => .fail "unavailable"

/-- In the sample every call can be answered. -/
def unanswered (C : Service L) : (lockOrder C).Answers where
  choice s t := ((s.next t).map Call.unanswered).getD .done
  possible {s t c} _ hn hfree := by
    rw [hn]
    cases c with
    | lock l =>
        have hl : s.world.locks.owner l = none := hfree l rfl
        have htake : (s.world.locks.take t l).isSome = true := by
          rw [Mutexes.take, if_pos hl]
          rfl
        exact Option.isSome_map.trans htake
    | _ => rfl

/-- Does program 1 wait for the lock of the exits that program 0 has? -/
def passWaits (s : Config (machine C)) : Bool :=
  s.world.locks.owner .exits == some 0 && match s.next 1 with
    | some (.lock .exits) => true
    | _ => false

theorem exits_never_deadlocked_waiting : ∃ s : Config (machine .sample), Reach anyMove s ∧
    passWaits s = true ∧
    (¬ s.Finished → ∃ t s', s.step (.run t ((unanswered .sample).choice s t)) = some s') ∧
    ∃ s', Later (unanswered .sample).moves s s' ∧ s'.Finished ∧
      ∀ l, s'.world.locks.owner l = none := by
  obtain ⟨s, hs, hp⟩ := Reach.exists_of_moves
    ([.spawn .pass, .spawn .pass, .run 0 .done] : List (Move (machine .sample))) passWaits
    (by decide)
  exact ⟨s, hs, hp, exits_never_deadlocked hs (unanswered .sample)⟩

end OpenSsp.Coop
