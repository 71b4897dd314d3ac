/-
OpenSsp/EmbeddedEvents.lean

The event loop of the embedded node (`run_embedded_events`).

`ldk_node` keeps its events in a queue on disk until they are acknowledged.  The loop looks at the
first event, maps it to an event of the backend, stores the reason of a failed payment, applies the
event and acknowledges it; what cannot be mapped or stored stays in the queue.  Here that loop runs
beside all programs of the service.

Main result: `events_handled`.
-/
import OpenSsp.Lib.DurableQueue
import OpenSsp.Lib.Calls
import OpenSsp.World

namespace OpenSsp.Embedded

open Interleave

/-! ### Events of the node -/

inductive PaymentFailureReason where
  | recipientRejected
  | userAbandoned
  | retriesExhausted
  | paymentExpired
  | routeNotFound
  | unexpectedError
  | unknownRequiredFeatures
  | invoiceRequestExpired
  | invoiceRequestRejected
  | blindedPathCreationFailed
deriving DecidableEq

/-- `ldk_node::Event`; the ones the program does not use are `other`. -/
inductive NodeEvent where
  | paymentSuccessful (paymentId : Bytes32)
  | paymentFailed (paymentId : Bytes32) (reason : Option PaymentFailureReason)
  | paymentClaimable (paymentId paymentHash : Bytes32) (claimableAmountMsat : Nat)
  | paymentReceived (paymentId : Bytes32)
  | other
deriving DecidableEq

/-- The generated client's name of each reason, `as_str_name`. -/
abbrev ReasonNames := PaymentFailureReason → String

/-! ### The loop -/

variable (D : Deployment) (asStrName : ReasonNames)

/-- The payment of an event, as the node has it now. -/
def eventPayment (id : Bytes32) : Ssp Payment := do
  match ← Ssp.ldk (.getPaymentDetails id.text) with
  | some payment => return payment
  | none => throw ("LDK event payment " ++ id.text ++ " missing from store")

def mapEvent : NodeEvent → Ssp (Option LnEvent)
  | .paymentSuccessful paymentId => do
      let payment ← eventPayment paymentId
      return some (.outboundSucceeded payment)
  | .paymentFailed paymentId reason =>
      return some (.outboundFailed paymentId.text (reason.map asStrName))
  | .paymentClaimable paymentId paymentHash claimableAmountMsat =>
      return some (.inboundClaimable
        ⟨paymentId.text, paymentHash.text, some claimableAmountMsat⟩)
  | .paymentReceived paymentId => do
      let payment ← eventPayment paymentId
      match bolt11Hash payment, bolt12OfferIds payment with
      | some hash, _ => return some (.inboundReceived paymentId.text hash)
      | none, some (offerId, paymentHash) =>
          return some (.inboundBolt12Received offerId paymentHash (bolt12Preimage payment)
            payment.amountMsat)
      | none, none => return none
  | .other => return none

/-- The reason of a failed payment is in its event only. -/
def recordFailure : LnEvent → Ssp Unit
  | .outboundFailed paymentId reason => Ssp.db (.recordLightningFailure paymentId reason)
  | _ => pure ()

def handleMapped (event : LnEvent) : Ssp Bool := do
  match ← Act.attempt (recordFailure event) with
  | .ok () =>
      Ldk.applyLnEvent D event
      return true
  | .error _ => return false

/-- The body of the loop up to the acknowledgement: is there to be one? -/
def handleEvent (event : NodeEvent) : Ssp Bool := do
  match ← Act.attempt (mapEvent asStrName event) with
  | .ok (some event) => handleMapped D event
  | .ok none => return true
  | .error _ => return false

/-- One turn of the loop. -/
def turn (event : NodeEvent) : Prog Api Bool :=
  (handleEvent D asStrName event).run >>= fun r => .ret (r.toOption.getD false)

/-- The service with an embedded node. -/
abbrev service : Machine (Api.sum (DurableQueue.Api NodeEvent)) :=
  DurableQueue.system (turn D asStrName) (machine D)

/-! ### What was done for an event -/

/-- The calls from the look at an event on, when the event is to be acknowledged. -/
inductive Handled (event : NodeEvent) : History Api → Prop
  /-- Nothing is to be done for the event. -/
  | skipped {mapped : History Api} (hmap : (mapEvent asStrName event).run.After mapped
      (.ret (.ok none))) : Handled event mapped
  /-- The event is mapped, a reason is stored, and the event is applied to the end. -/
  | applied {e : LnEvent} {mapped recorded rest : History Api}
      (hmap : (mapEvent asStrName event).run.After mapped (.ret (.ok (some e))))
      (hrecord : ∀ paymentId reason, e = .outboundFailed paymentId reason →
        recorded = [⟨.db (.recordLightningFailure paymentId reason), .ok ()⟩])
      (happly : (Ldk.applyLnEvent D e).run.After rest (.ret (.ok ()))) :
      Handled event (rest ++ (recorded ++ mapped))

variable {D : Deployment} {asStrName : ReasonNames}

theorem discard_bind {α β : Type} (x : Ssp α) (f : α → Ssp β) :
    discard (x >>= f) = x >>= fun a => discard (f a) := by
  show (x >>= f) >>= (fun _ => pure ()) = x >>= fun a => f a >>= fun _ => pure ()
  exact bind_assoc x f _

theorem discard_true (x : Ssp Unit) : discard (x >>= fun _ => pure true) = x := by
  rw [discard_bind]
  exact bind_pure x

/-- The event request of the service does with an event what the loop does. -/
theorem eventPump_eq (D : Deployment) :
    Ldk.eventPump D true = (do
      match ← Ssp.tell .nextEvent with
      | none => pure ()
      | some event => discard (handleMapped D event)) := by
  unfold Ldk.eventPump
  refine congrArg _ (funext fun event => ?_)
  rcases event with - | event
  · rfl
  · cases event with
    | outboundFailed paymentId reason =>
        show Act.attempt (recordFailure (.outboundFailed paymentId reason)) >>= _ =
          discard (Act.attempt (recordFailure (.outboundFailed paymentId reason)) >>= _)
        rw [discard_bind]
        refine bind_congr fun recorded => ?_
        rcases recorded with e | ⟨⟩
        · rfl
        · exact (discard_true _).symm
    | outboundSucceeded payment => exact (discard_true _).symm
    | inboundClaimable payment => exact (discard_true _).symm
    | inboundReceived paymentId paymentHash => exact (discard_true _).symm
    | inboundBolt12Received offerId paymentHash preimage amountMsat => exact (discard_true _).symm

/-- The reason is stored, and nothing else is done. -/
theorem recordFailure_ended {e : LnEvent} {h : History Api}
    (hu : (recordFailure e).run.After h (.ret (.ok ()))) {paymentId : String}
    {reason : Option String} (he : e = .outboundFailed paymentId reason) :
    h = [⟨.db (.recordLightningFailure paymentId reason), .ok ()⟩] := by
  subst he
  unfold recordFailure Ssp.db at hu
  obtain ⟨r, rfl, hr⟩ := Act.ended_ask hu
  obtain rfl : r = .ok () := hr
  rfl

/-- An event is acknowledged only when it has been handled. -/
theorem turn_handled {event : NodeEvent} {run : History Api}
    (hu : (turn D asStrName event).After run (.ret true)) : Handled D asStrName event run := by
  obtain ⟨r, hr, he⟩ := Prog.After.of_bind_ret (fun _ => rfl) hu
  rcases r with e | _ | _
  · cases he
  · cases he
  · obtain ⟨mapped, h₁, h₂, hmap, hrest, rfl⟩ := Act.ended_bind hr
    have hmap := Act.ended_attempt hmap
    rcases mapped with e | _ | e
    · cases (Act.ended_pure hrest).2
    · obtain ⟨rfl, -⟩ := Act.ended_pure hrest
      exact .skipped hmap
    · obtain ⟨recorded, h₃, h₄, hrecord, hrest, rfl⟩ := Act.ended_bind hrest
      have hrecord := Act.ended_attempt hrecord
      rcases recorded with error | ⟨⟩
      · cases (Act.ended_pure hrest).2
      · obtain ⟨u, h₅, h₆, happly, hlast, rfl⟩ := Act.ended_bind hrest
        obtain ⟨rfl, -⟩ := Act.ended_pure hlast
        rw [List.nil_append, List.append_assoc]
        exact .applied hmap (fun _ _ => recordFailure_ended hrecord) happly

/-! ### Runs -/

/-- Some program looked at the event with this number and then handled it. -/
def HandledIn (s : Config (service D asStrName)) (x : Nat × NodeEvent) : Prop :=
  ∃ t run, Handled D asStrName x.2 run ∧
    run.map Event.inl ++ [DurableQueue.looked x] <:+: s.calls t

theorem handled_of_done {s : Config (service D asStrName)} {x : Nat × NodeEvent}
    (hd : DurableQueue.Done s x) : HandledIn s x := by
  obtain ⟨t, run, hrun, hcalls⟩ := hd
  exact ⟨t, run, turn_handled hrun, hcalls⟩

/-- No event of the node is lost, none overtakes another, and an acknowledged one does not come back.
An event on disk stays there, whatever crashes, until some program has mapped it, has stored the
reason if it is a failure, and has applied it to the end; when an event is looked at, the earlier
ones on disk have been handled; what an acknowledgement removes is the event handled just before. -/
theorem events_handled {s : Config (service D asStrName)} (hs : Reach anyMove s) :
    (∀ x s', Later anyMove s s' → x ∈ s.world.2.stored →
      x ∈ s'.world.2.stored ∨ HandledIn s' x) ∧
    (∀ x y t h s', Moment anyMove t (DurableQueue.looked y) h s s' → x ∈ s.world.2.stored →
      x.1 < y.1 → HandledIn s x) ∧
    ∀ t h s₁, Moment anyMove t DurableQueue.removed h s s₁ → ∃ x run older,
      h = run.map Event.inl ++ DurableQueue.looked x :: older ∧ Handled D asStrName x.2 run ∧
        ∀ s', Later anyMove s₁ s' → x ∉ s'.world.2.memory ∧ x ∉ s'.world.2.stored := by
  refine ⟨fun x s' hl hx => ?_, fun x y t h s' hm hx hlt => ?_, fun t h s₁ hm => ?_⟩
  · exact (DurableQueue.stays_until_done hs hl hx).imp_right handled_of_done
  · exact handled_of_done (DurableQueue.done_in_order hm hx hlt)
  · obtain ⟨x, hw⟩ := DurableQueue.worked_of_removal hm
    have hgone : ∀ s', Later anyMove s₁ s' → DurableQueue.Gone x s'.world.2 :=
      fun s' hl => DurableQueue.removed_for_good hm hw hl
    obtain ⟨hrun, -⟩ := hw
    exact ⟨x, _, _, rfl, turn_handled hrun, fun s' hl => (hgone s' hl).2⟩

/-! ### A failed payment is handled -/

abbrev sampleService := service .sample fun _ => "ROUTE_NOT_FOUND"

def sampleEvent : Nat × NodeEvent := (0, .paymentFailed (.fill 1) (some .routeNotFound))

def onDisk (s : Config sampleService) : Bool := s.world.2.stored.contains sampleEvent

/-- The event arrives and is looked at, and its reason is stored; then the process crashes. -/
def untilCrash : List (Move sampleService) :=
  [.outside (.inr ⟨sampleEvent.2, true⟩), .spawn (.inr 1), .run 0 (.inr .done),
    .run 0 (.inr .done), .run 0 (.inl .done), .crash]

/-- The next process handles it. -/
def afterCrash : List (Move sampleService) :=
  [.spawn (.inr 1), .run 1 (.inr .done), .run 1 (.inr .done), .run 1 (.inl .done),
    .run 1 (.inl .done), .run 1 (.inr (.removal true true true))]

theorem events_handled_failed : ∃ s s' : Config sampleService, Reach anyMove s ∧
    Later anyMove s s' ∧ onDisk s = true ∧ onDisk s' = false ∧ HandledIn s' sampleEvent := by
  have hany : ∀ (s : Config sampleService) m, (fun _ _ => true) s m = true → anyMove s m :=
    fun _ _ _ => trivial
  obtain ⟨s, s', hs, hl, hon, hoff⟩ := Reach.exists_later_of_runMoves hany untilCrash afterCrash
    onDisk (fun s => !onDisk s) (by decide)
  have hoff : onDisk s' = false := by
    rw [← Bool.not_eq_true']
    exact hoff
  have hin : sampleEvent ∈ s.world.2.stored := List.contains_iff_mem.mp hon
  refine ⟨s, s', hs, hl, hon, hoff, ?_⟩
  refine ((events_handled hs).1 sampleEvent s' hl hin).resolve_left fun hmem => ?_
  rw [onDisk, List.contains_iff_mem.mpr hmem] at hoff
  cases hoff

end OpenSsp.Embedded
