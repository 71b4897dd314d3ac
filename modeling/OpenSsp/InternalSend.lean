/-
OpenSsp/InternalSend.lean

Sends whose invoice this SSP has issued itself, and when they are marked as failed.

`process_internal_send` marks a send in one place only, right after its reservation has
failed (`processInternalSend_marks`).  The tables refuse a reservation only while it does not
stand; a fault of the store hides whether it does.  So the send of a payout is marked exactly
when such a fault hits the reservation again after the payout.

Main result: `internal_sends_fail_unpaid`.
-/
import OpenSsp.ReceiveLiquidity
import OpenSsp.RouteCap

namespace OpenSsp

open Interleave

variable {D : Deployment} {ok : Config (machine D) → Move (machine D) → Prop}

/-! ### Where a local send is marked -/

def Call.marksFailed : Call → Bool
  | .db (.setPayment _ .failed) => true
  | _ => false

/-- The reservation of the send has failed. -/
@[reducible] def refusal (send : LightningSend) (e : String) : Event Api :=
  ⟨Call.db (.reserveInternalSend send), Except.error e⟩

/-- The reservation of the send has failed, and the next call marks that send. -/
structure RefusedMark (send : LightningSend) (x : Event Api) (c : Call) : Prop where
  refused : ∃ e, x = refusal send e
  marks : c = .db (.setPayment send.requestId .failed)

theorem Spark.unmarked_of_ofSpark (c : Call) (h : c.ofSpark = true) :
    without Call.marksFailed c := by
  cases c with
  | db q =>
      cases q with
      | quoteForHash => exact without_of rfl
      | _ => cases h
  | _ => exact without_of rfl

namespace Spark

variable {C : Call → Prop} (hC : ∀ c : Call, c.ofSpark = true → C c)

include hC

theorem findHtlc_calls (transferId hash : String) : Act.Calls C (findHtlc transferId hash) :=
  (Act.Calls.ask (hC _ rfl)).bind fun _ => Act.Calls.pure

theorem verifyLightningSend_calls (owner outbound hash : String) (amountSats : Nat) :
    Act.Calls C (verifyLightningSend D owner outbound hash amountSats) := by
  unfold verifyLightningSend
  apply (findHtlc_calls hC _ _).bind
  intro found
  apply Act.Calls.ofExcept.bind
  intro request
  apply Act.Calls.ofExcept.bind
  intro transfer
  apply Act.Calls.guard
  apply Act.Calls.ofExcept.bind
  intro sender
  exact (Act.Calls.tell (hC _ rfl)).bind fun _ => Act.Calls.ofExcept

theorem settleLightningSend_calls (outbound hash preimage : String) :
    Act.Calls C (settleLightningSend outbound hash preimage) := by
  unfold settleLightningSend
  apply Act.Calls.ofExcept.bind
  intro preimage
  apply Act.Calls.guard
  apply (findHtlc_calls hC _ _).bind
  intro found
  apply Act.Calls.ofExcept.bind
  intro request
  apply Act.Calls.ite Act.Calls.pure
  apply Act.Calls.guard
  apply (Act.Calls.ask (hC _ rfl)).bind
  intro transfer
  apply Act.Calls.guard
  exact Act.Calls.ite Act.Calls.throw Act.Calls.pure

end Spark

namespace Ldk

/-- What follows the reservation marks nothing. -/
theorem settleReserved_calls (send : LightningSend) :
    Act.Calls (without Call.marksFailed) (do
      let receive ← Ssp.ofExcept (okOr "local receive missing"
        (← Ssp.db (.lightningReceiveForHash send.expectedId)))
      let preimage ← match receive.preimage with
        | some preimage => pure preimage
        | none => do
            verifySender D send
            let swap ← swapReceive D false receive.receiver send.expectedId receive.invoice
              receive.amountSats
            Ssp.ofExcept (validatePreimage send.expectedId swap.preimage)
            Ssp.db (.commitLightningReceiveSwap send.expectedId swap.transferId swap.preimage
              receive.requestId receive.owner)
            pure swap.preimage
      Ssp.ofExcept (validatePreimage send.expectedId preimage)
      settleSender send preimage
      Ssp.db (.finishInternalSend send) : Ssp Unit) := by
  have hspark := Spark.unmarked_of_ofSpark
  apply (Act.Calls.ask (without_of rfl)).bind
  intro row
  apply Act.Calls.ofExcept.bind
  intro receive
  -- with its preimage stored already, or after the swap, the send is settled and finished
  have hrest : ∀ preimage, Act.Calls (without Call.marksFailed) (do
      Ssp.ofExcept (validatePreimage send.expectedId preimage)
      settleSender send preimage
      Ssp.db (.finishInternalSend send) : Ssp Unit) := by
    intro preimage
    apply Act.Calls.ofExcept.bind
    intro _
    apply (Spark.settleLightningSend_calls hspark _ _ _).bind
    exact fun _ => Act.Calls.ask (without_of rfl)
  -- the receiver has not been paid out yet
  rcases receive.preimage with - | preimage
  · have hverify : Act.Calls (without Call.marksFailed) (verifySender D send) :=
      (Spark.verifyLightningSend_calls hspark _ _ _ _).bind fun _ => Act.Calls.pure
    apply hverify.bind
    intro _
    apply (Spark.swapForLightningReceive_calls hspark _ _ _ _ _ _).bind
    intro swap
    apply Act.Calls.ofExcept.bind
    intro _
    apply (Act.Calls.ask (without_of rfl)).bind
    exact fun _ => Act.Calls.pure.bind hrest
  · exact Act.Calls.pure.bind hrest

/-- **Where a local send is marked as failed.** -/
theorem processInternalSend_marks (send : LightningSend) :
    Act.Follows (fun c : Call => c.marksFailed = true) (RefusedMark send)
      (processInternalSend D send) := by
  have hquiet : ∀ c : Call, c.marksFailed = false → ¬ c.marksFailed = true := fun _ => without_of
  apply Act.Follows.bracket (Act.Calls.ask (hquiet _ rfl)) (Act.Calls.tell (hquiet _ rfl))
  apply Act.Follows.bind (.of_calls (Act.Calls.tell (hquiet _ rfl)))
  intro _
  apply Act.Follows.bind (.of_calls (Act.Calls.ask (hquiet _ rfl)))
  intro status
  apply Act.Follows.ite (.of_calls Act.Calls.pure)
  apply Prog.Follows.call (hquiet _ rfl)
  intro r
  rcases r with e | ⟨⟩
  · -- the reservation has failed
    refine .inr ⟨_, _, rfl, ⟨⟨e, rfl⟩, rfl⟩, fun r => ?_⟩
    rcases r with e' | ⟨⟩
    · exact .of_calls (.ret _)
    · exact .of_calls (.ret _)
  · exact .inl (.of_calls (settleReserved_calls send))

end Ldk

/-! ### Runs -/

/-- Program `t` is at that place: it marks the send next. -/
def MarksFailed (s : Config (machine D)) (t : Nat) (send : LightningSend) : Prop :=
  ∃ c k x older, s.thread t = some ⟨.call c k, x :: older⟩ ∧ RefusedMark send x c

/-- Has the event paid the receiver of `hash`, or may it have done so?  An operator call counts
whatever its reply, and so does a payout that is recorded. -/
def paysReceiver (hash : String) : Event Api → Bool
  | ⟨.spark (.initiatePreimageSwapV3 r), _⟩ => r.paymentHash.text == hash
  | ⟨.db (.commitLightningReceiveSwap key ..), .ok _⟩ => key == hash
  | _ => false

/-- Has the event reserved the receive for the send? -/
def reservesFor (send : LightningSend) : Event Api → Bool
  | ⟨.db (.reserveInternalSend a), .ok _⟩ =>
      a.requestId == send.requestId && a.expectedId == send.expectedId
  | _ => false

/-- Has the receiver been paid, or may he have been, under the reservation of the send?  The
newest event of a trace is its first. -/
def paidUnder (send : LightningSend) : List (Nat × Event Api) → Bool
  | [] => false
  | x :: older =>
      (paysReceiver send.expectedId x.2 && older.any fun y => reservesFor send y.2) ||
        paidUnder send older

/-- No fault of the store hits a reservation under which the receiver may have been paid. -/
def sparesReservations (s : Config (machine D)) (m : Move (machine D)) : Prop :=
  ∀ t e send, m = .run t (.fail e) → s.next t = some (.db (.reserveInternalSend send)) →
    paidUnder send s.trace = false

theorem paidUnder_cons {send : LightningSend} {x : Nat × Event Api}
    {older : List (Nat × Event Api)} (h : paidUnder send (x :: older) = true) :
    (paysReceiver send.expectedId x.2 = true ∧ ∃ y ∈ older, reservesFor send y.2 = true) ∨
      paidUnder send older = true := by
  rw [paidUnder, Bool.or_eq_true, Bool.and_eq_true, List.any_eq_true] at h
  exact h

/-- A payment to the receiver comes after a reservation. -/
theorem reserved_of_paidUnder {send : LightningSend} {trace : List (Nat × Event Api)}
    (h : paidUnder send trace = true) : ∃ y ∈ trace, reservesFor send y.2 = true := by
  induction trace with
  | nil => cases h
  | cons x older ih =>
      rcases paidUnder_cons h with ⟨-, y, hy, hres⟩ | h
      · exact ⟨y, List.mem_cons_of_mem _ hy, hres⟩
      · obtain ⟨y, hy, hres⟩ := ih h
        exact ⟨y, List.mem_cons_of_mem _ hy, hres⟩

theorem reservesFor_eq {send : LightningSend} {x : Event Api} (h : reservesFor send x = true) :
    ∃ a, x = dbEvent (.reserveInternalSend a) () ∧ a.requestId = send.requestId ∧
      a.expectedId = send.expectedId := by
  unfold reservesFor at h
  split at h
  · next a _ =>
      rw [Bool.and_eq_true, beq_iff_eq, beq_iff_eq] at h
      exact ⟨a, rfl, h⟩
  · cases h

/-- Whoever pays the receiver holds the receive lock. -/
theorem paysReceiver_part {hash : String} {x : Event Api} (h : paysReceiver hash x = true) :
    ∃ p, x.call.part = some p := by
  unfold paysReceiver at h
  split at h
  · exact ⟨.swaps, rfl⟩
  · exact ⟨.payout, rfl⟩
  · cases h

/-- The tables do not refuse a reservation that stands. -/
theorem Db.reserveInternalSend_again {db : Db} {send : LightningSend} (now : Nat)
    (h : db.internalSend send.expectedId = some send.requestId) :
    db.reserveInternalSend send now = .ok ((), db) := by
  unfold Db.reserveInternalSend
  rw [h]
  exact if_pos rfl

section run

variable {s : Config (machine D)} {send : LightningSend}

/-- A reservation in the trace still stands. -/
theorem reservation_stands (hs : Reach ok s) {y : Nat × Event Api} (hy : y ∈ s.trace)
    (h : reservesFor send y.2 = true) :
    s.world.db.internalSend send.expectedId = some send.requestId := by
  obtain ⟨t, x⟩ := y
  obtain ⟨a, rfl, hid, hexpected⟩ := reservesFor_eq h
  obtain ⟨older, s₀, s₁, hm, hg⟩ := reach_happened hs hy
  obtain ⟨db', hrun, hw⟩ := moment_db hm
  rw [← hid, ← hexpected]
  apply Db.reserveInternalSend_stands hrun
  have hdb : s₁.world.db = db' := by rw [hw]
  exact hdb ▸ hg.db

/-- When the reservation fails, and the store is not at fault under a payment, there is none. -/
theorem refused_unpaid (hs : Reach sparesReservations s) {t : Nat} {ch : Choice}
    {k : Api.Reply (Call.db (.reserveInternalSend send)) → Prog Api Unit} {older : History Api}
    (hth : s.thread t = some ⟨.call (.db (.reserveInternalSend send)) k, older⟩)
    (hok : sparesReservations s (.run t ch)) {e : String} {w : World}
    (hp : perform D t (.db (.reserveInternalSend send)) ch s.world = some (.error e, w)) :
    paidUnder send s.trace = false := by
  rcases hpaid : paidUnder send s.trace with - | -
  · rfl
  obtain ⟨y, hy, hres⟩ := reserved_of_paidUnder hpaid
  have hstands := reservation_stands hs hy hres
  rcases perform_db_error hp with ⟨-, hrun⟩ | ⟨e', rfl⟩
  · -- the tables would have answered
    have hrun' := Db.reserveInternalSend_again s.world.now hstands
    cases hrun.symm.trans hrun'
  · have hnext : s.next t = some (.db (.reserveInternalSend send)) := by
      rw [Config.next, hth]
      rfl
    rw [← hpaid, hok t e' send rfl hnext]

/-- The program whose reservation has failed holds the receive lock. -/
theorem refused_holds (hs : Reach ok s) {t : Nat} {th : Thread Api} (hth : s.thread t = some th)
    {e : String} {older : History Api}
    (hh : th.history = refusal send e :: older) :
    Holds .receive th.history := by
  have hhead : th.history = [] ++ refusal send e :: older := hh
  obtain ⟨s₀, s₁, hm, -⟩ := reach_knows hs hth hhead
  obtain ⟨ch, k, hth₀, -⟩ := hm.made
  have hj : Holds .receive older ∧ KnownSend older send := reach_justified hm.reach hth₀
  rw [hh]
  exact hj.1.cons nofun

/-- While it does, nobody else pays the receiver. -/
theorem marked_unpaid (hs : Reach sparesReservations s) :
    ∀ t p e older, s.thread t = some ⟨p, refusal send e :: older⟩ →
      paidUnder send s.trace = false := by
  refine hs.invariant (J := fun s => ∀ t p e older,
    s.thread t = some ⟨p, refusal send e :: older⟩ →
      paidUnder send s.trace = false) ?_ ?_
  · intro t p e older hth
    simp [Config.start, Config.thread] at hth
  · intro s s' m hr ih hok hst t p e older hth
    rcases Config.step_cases hst with ⟨r, -, rfl⟩ | ⟨u, ch, c, k, hist, r, w, rfl, hu, hp, rfl⟩ |
      ⟨u, th, -, -, rfl⟩ | ⟨-, rfl⟩ | ⟨o, w, -, -, rfl⟩
    · rcases Config.thread_spawn hth with hth | hnew
      · exact ih t p e older hth
      · cases hnew
    · rcases Config.thread_record hth with ⟨rfl, hthread⟩ | ⟨htu, hth⟩
      · -- its own reservation has just failed
        obtain ⟨-, hevents⟩ := Thread.mk.inj hthread
        obtain ⟨hevent, -⟩ := List.cons.inj hevents
        obtain ⟨rfl, hr'⟩ := Event.mk.inj hevent
        obtain rfl := eq_of_heq hr'.symm
        have hunpaid : paidUnder send s.trace = false := refused_unpaid hr hu hok hp
        exact hunpaid
      · rcases hpaid : paidUnder send (s.record u w hist ⟨c, r⟩ (k r)).trace with - | -
        · rfl
        rcases paidUnder_cons hpaid with ⟨hpays, -⟩ | hpaid
        · -- whoever pays the receiver holds the lock as well
          obtain ⟨part, hpart⟩ := paysReceiver_part hpays
          have hholds := justified_holds (reach_justified hr hu) hpart
          have hholds' := refused_holds hr hth rfl
          exact absurd (Guards.Held.unique hr hth hu (held_iff.mpr hholds')
            (held_iff.mpr hholds)) htu
        · rw [ih t p e older hth] at hpaid
          cases hpaid
    · exact ih t p e older (Config.thread_drop hth).2
    · rw [Config.thread_restart] at hth
      cases hth
    · exact ih t p e older hth

end run

/-- **Local sends fail unpaid.**  A local send is marked as failed right after its reservation
has failed, and, when no fault of the store hits a reservation under which the receiver may
have been paid, only while he has not been. -/
theorem internal_sends_fail_unpaid (D : Deployment) (s : Config (machine D))
    (hs : Reach sparesReservations s) :
    (∀ send : LightningSend, Act.Follows (fun c : Call => c.marksFailed = true) (RefusedMark send)
      (Ldk.processInternalSend D send)) ∧
    ∀ t send, MarksFailed s t send → paidUnder send s.trace = false := by
  refine ⟨Ldk.processInternalSend_marks, fun t send hmarks => ?_⟩
  obtain ⟨c, k, x, older, hth, ⟨e, rfl⟩, -⟩ := hmarks
  exact marked_unpaid hs t _ e older hth

namespace Sample

/-- The transfer with which `alice` funds the payment of her own invoice. -/
def localFunding : PreimageRequest :=
  { funding 172800 with paymentHash := (Bytes32.parse hash).getD (Bytes32.fill 0) }

def verifyLocal : List Choice := [.htlcs [localFunding], .time SystemTime.epoch]

/-- She requests the payment, up to the reservation. -/
def sendLocal : List (Move (machine .sample)) :=
  createReceive ++ .spawn (.lightningSend "alice" ⟨"lnssp" ++ hash, none, (uuid 7).print, ""⟩) ::
  calls 1 ([.done, .done, .done] ++ verifyLocal ++ [.uuid (uuid 2), .done, .done, .done, .done,
    .done])

/-- The receive is reserved and paid out, and the process stops. -/
def payLocal : List (Move (machine .sample)) :=
  sendLocal ++ calls 1 ([.done, .done] ++ verifyLocal ++ [.done, .done, .done, .done, .htlcs [],
    .done, .done, .swap (Bytes32.parse preimage) payout, .done, .done, .done]) ++ [.crash]

/-- The send is taken up again, and the store fails at the reservation. -/
def retryLocal : List (Move (machine .sample)) :=
  .spawn (.reconcileRequest (uuid 2).print) ::
  calls 2 [.done, .done, .done, .done, .done, .fail "disk I/O error"]

/-- Does program `t` mark a send as failed next?  And may its receiver have been paid? -/
def marks (t : Nat) (paid : Bool) (s : Config (machine .sample)) : Bool :=
  match s.thread t with
  | some ⟨.call (.db (.setPayment id .failed)) _,
      ⟨.db (.reserveInternalSend send), .error _⟩ :: _⟩ =>
      id == send.requestId && paidUnder send s.trace == paid
  | _ => false

theorem of_marks {t : Nat} {paid : Bool} {s : Config (machine .sample)}
    (h : marks t paid s = true) :
    ∃ send, MarksFailed s t send ∧ paidUnder send s.trace = paid := by
  unfold marks at h
  split at h
  · next id k send e older hth =>
      rw [Bool.and_eq_true, beq_iff_eq, beq_iff_eq] at h
      obtain ⟨rfl, hpaid⟩ := h
      exact ⟨send, ⟨_, k, _, older, hth, ⟨e, rfl⟩, rfl⟩, hpaid⟩
  · cases h

def spares (s : Config (machine .sample)) : Move (machine .sample) → Bool
  | .run t (.fail _) => match s.next t with
      | some (.db (.reserveInternalSend send)) => !paidUnder send s.trace
      | _ => true
  | _ => true

theorem of_spares {s : Config (machine .sample)} {m : Move (machine .sample)}
    (h : spares s m = true) : sparesReservations s m := by
  rintro t e send rfl hnext
  simpa [spares, hnext] using h

def refusedFirst : Reach.Run sparesReservations (marks 1 false) :=
  .of spares (fun _ _ => of_spares) (sendLocal ++ calls 1 [.fail "disk I/O error"])
    (by decide +kernel)

def refusedAgain : Reach.Run anyMove (marks 2 true) :=
  .ofMoves (payLocal ++ retryLocal) (by decide +kernel)

end Sample

/-- The store fails at the first reservation: nobody has been paid. -/
theorem internal_sends_fail_unpaid_first : ∃ (s : Config (machine .sample)) (send : LightningSend),
    Reach sparesReservations s ∧ MarksFailed s 1 send ∧ paidUnder send s.trace = false := by
  obtain ⟨s, hs, hp⟩ := Sample.refusedFirst
  obtain ⟨send, hmarks, -⟩ := Sample.of_marks hp
  exact ⟨s, send, hs, hmarks, (internal_sends_fail_unpaid .sample s hs).2 1 send hmarks⟩

/-- The store fails at the reservation again after the payout: the send is marked as failed
although its receiver has been paid. -/
theorem internal_send_failed_after_payout :
    ¬ ∀ (D : Deployment) (s : Config (machine D)), Reach anyMove s →
      ∀ t send, MarksFailed s t send → paidUnder send s.trace = false := by
  intro h
  obtain ⟨s, hs, hp⟩ := Sample.refusedAgain
  obtain ⟨send, hmarks, hpaid⟩ := Sample.of_marks hp
  rw [h .sample s hs 2 send hmarks] at hpaid
  cases hpaid

end OpenSsp
