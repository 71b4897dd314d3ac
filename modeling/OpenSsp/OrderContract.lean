/-
OpenSsp/OrderContract.lean

In which order the functions of `Ldk.lean` look and write: the contract `Ordered`, a second
one beside `Justified`.

* A status is written to a receive that was read as unfinished under the receive lock, or
  that is reserved for a local payer whose send was (`OpenRow`).
* A local payer reserves and finishes after its send was read as unfinished under that lock
  (`PayerReady`, `PayerTurn`).
* A payment is bound to a send whose invoice was looked up and is not of this SSP (`Remote`).

Main result: `reach_ordered`.
-/
import OpenSsp.InternalSend

namespace OpenSsp

open Interleave

/-! ### Kinds of calls -/

/-- `TRANSFER_COMPLETED` and `HTLC_FAILED`. -/
def ReceiveStatus.final : ReceiveStatus → Bool
  | transferCompleted => true
  | htlcFailed => true
  | _ => false

/-- Does the call take or give the receive lock, or can it decide how a send or a receive
ends? -/
def Call.decides : Call → Bool
  | .acquire .receive _ => true
  | .release .receive => true
  | .db (.reserveInternalSend _) => true
  | .db (.finishInternalSend _) => true
  | .db (.setPayment ..) => true
  | .db (.setReceiveStatus _ status) => status.final
  | .db (.failExternalReceive ..) => true
  | .db (.commitBolt12Receive ..) => true
  | _ => false

def Calm (e : Event Api) : Prop := e.call.decides = false

/-! ### What the calls come after -/

/-- The receive was read as unfinished and without a local payer. -/
structure OpenRead (h : History Api) (hash : String) : Prop where
  holds : Holds .receive h
  free : Since Calm (dbEvent (.internalSend hash) none) h
  read : ∃ r : LightningReceive, r.status.final = false ∧
    Since Calm (dbEvent (.lightningReceiveForHash hash) (some r)) h

/-- The send is local and was read as unfinished, and the lock is held. -/
structure PayerReady (h : History Api) (send : LightningSend) : Prop where
  holds : Holds .receive h
  isLocal : Local h send
  read : ∃ status older, (∀ st, status = some st → st.final = false) ∧
    h = dbEvent (.paymentStatus send.requestId) status :: older

/-- It has been reserved right after that. -/
structure PayerTurn (h : History Api) (send : LightningSend) : Prop where
  holds : Holds .receive h
  reserved : ∃ older, PayerReady older send ∧
    Extends Calm (dbEvent (.reserveInternalSend send) () :: older) h

inductive OpenRow (h : History Api) (hash : String) : Prop
  | read (hr : OpenRead h hash)
  | reserved (send : LightningSend) (ht : PayerTurn h send) (hhash : send.expectedId = hash)

/-- The invoice of a known send is not one of this SSP's own. -/
def Remote (h : History Api) (send : LightningSend) : Prop :=
  ∃ newer older, KnownSend older send ∧
    h = newer ++ dbEvent (.lightningReceiveHashForInvoice send.invoice) none :: older

/-- Calls and what they come after. -/
def Ordered (h : History Api) : Call → Prop
  | .db (.bindLightningPayment requestId _) => ∃ send, send.requestId = requestId ∧ Remote h send
  | .db (.setPayment id .failed) => FailedPayment h id ∨ Holds .receive h
  | .db (.reserveInternalSend send) => PayerReady h send
  | .db (.finishInternalSend send) => PayerTurn h send
  | .db (.setReceiveStatus hash status) => status = .invoiceCreated ∨ OpenRead h hash ∨
      (status = .transferCompleted ∧ Holds .receive h ∧
        Since Calm (dbEvent (.internalSend hash) none) h)
  | .db (.failExternalReceive ..) => Holds .receive h
  | .db (.commitLightningReceiveSwap hash ..) => OpenRow h hash
  | .db (.markReceiveClaimSubmitted hash) => OpenRow h hash
  | _ => True

/-- The contract allows the call at any time. -/
def Free (c : Call) : Prop := ∀ h, Ordered h c

/-- The call is free and decides nothing. -/
def Plain (c : Call) : Prop := Free c ∧ c.decides = false

section after

variable {h h' : History Api}

/-- To give the receive lock back is no calm call. -/
theorem Calm.keeps_lock {e : Event Api} (he : Calm e) : e.call ≠ Call.release .receive := by
  intro hc
  rw [Calm, hc] at he
  cases he

/-- A held lock is held on as long as the calls are calm. -/
theorem Holds.calm (hh : Holds .receive h) (he : Extends Calm h h') : Holds .receive h' := by
  obtain ⟨b, hb⟩ := hh
  exact ⟨b, hb.after (he.mono fun _ => Calm.keeps_lock)⟩

/-- What was read under the lock stands while nothing that decides happens. -/
theorem OpenRead.after {hash : String} (hr : OpenRead h hash) (he : Extends Calm h h') :
    OpenRead h' hash where
  holds := hr.holds.calm he
  free := hr.free.after he
  read := by
    obtain ⟨r, hopen, hread⟩ := hr.read
    exact ⟨r, hopen, hread.after he⟩

/-- So does the turn of a payer. -/
theorem PayerTurn.after {send : LightningSend} (ht : PayerTurn h send) (he : Extends Calm h h') :
    PayerTurn h' send where
  holds := ht.holds.calm he
  reserved := by
    obtain ⟨older, hready, hchain⟩ := ht.reserved
    exact ⟨older, hready, hchain.trans he⟩

/-- Either way to an open row survives calm calls. -/
theorem OpenRow.after {hash : String} (hr : OpenRow h hash) (he : Extends Calm h h') :
    OpenRow h' hash := by
  cases hr with
  | read hr => exact .read (hr.after he)
  | reserved send ht hhash => exact .reserved send (ht.after he) hhash

/-- That an invoice is not an own one is a fact about the past, and stays. -/
theorem Remote.after {q : Event Api → Prop} {send : LightningSend} (hr : Remote h send)
    (he : Extends q h h') : Remote h' send := by
  obtain ⟨newer, older, hk, rfl⟩ := hr
  obtain ⟨new, rfl, -⟩ := he
  exact ⟨new ++ newer, older, hk, by simp⟩

/-- The route cap plays no part. -/
theorem Remote.refreshed {send : LightningSend} (hr : Remote h send) (cltv : Option Nat) :
    Remote h { send with maxRouteCltv := cltv } := by
  obtain ⟨newer, older, hk, hh⟩ := hr
  exact ⟨newer, older, hk.refreshed cltv, hh⟩

end after

/-! ### Rules -/

/-- The action keeps the order, its footprint is `q`, and a result satisfies `R`. -/
abbrev Orders {α : Type} (q : Event Api → Prop) (x : Ssp α) (R : α → History Api → Prop)
    (h : History Api) : Prop := Act.Spec Ordered q x R h

namespace Orders

variable {α : Type} {x : Ssp α} {q : Event Api → Prop} {h : History Api}
  {R : α → History Api → Prop}

/-- One query that the order allows is the newest event afterwards. -/
theorem db_eq (c : Query) (hc : Ordered h (.db c)) (hq : ∀ r, q ⟨.db c, r⟩) :
    Orders q (Ssp.db c) (fun a h' => h' = dbEvent c a :: h) h := by
  refine Act.Spec.ask hc hq fun r a hr => ?_
  obtain rfl : r = .ok a := hr
  rfl

/-- The same for one call of the node. -/
theorem ldk_eq (c : LdkCall) (hc : Ordered h (.ldk c)) :
    Orders anyEvent (Ssp.ldk c) (fun a h' => h' = ldkEvent c a :: h) h := by
  refine Act.Spec.ask hc (fun _ => trivial) fun r a hr => ?_
  obtain rfl : r = .ok a := hr
  rfl

/-- Whether the method succeeds or not. -/
theorem db_attempt (c : Query) (hc : Ordered h (.db c)) :
    Orders anyEvent (Act.attempt (Ssp.db c)) (fun r h' => h' = ⟨Call.db c, r⟩ :: h) h :=
  Act.Spec.tell (I := Api) (c := Call.db c) hc (fun _ => trivial) fun _ => rfl

/-- A query, when nothing is to be said of its answer. -/
theorem db_any {c : Query} (hc : Ordered h (.db c)) :
    Orders anyEvent (Ssp.db c) (fun _ _ => True) h :=
  Act.Spec.ask hc (fun _ => trivial) fun _ _ _ => trivial

/-- A function that makes free calls only. -/
theorem free (hx : Act.Calls Free x) : Orders anyEvent x (fun _ _ => True) h :=
  hx.spec (fun h _ hc => hc h) h

/-- A function that makes plain calls only leaves calm knowledge alone. -/
theorem calm (hx : Act.Calls Plain x) : Orders anyEvent x (fun _ h' => Extends Calm h h') h :=
  (hx.footprint (fun h _ hc => hc.1 h) h).mono (fun _ _ => trivial)
    fun _ _ he _ => he.mono fun _ hp => hp.2

/-- The body of a locked action is examined with the lock as its newest event. -/
theorem locked {l : Lock}
    (hx : Orders anyEvent x (fun _ _ => True) (⟨Call.acquire l false, Except.ok ()⟩ :: h)) :
    Orders anyEvent (Ssp.locked l false x) (fun _ _ => True) h := by
  have hfree : ∀ h, Ordered h (.acquire l false) ∧ Ordered h (.release l) :=
    fun _ => ⟨trivial, trivial⟩
  refine Act.Spec.bracket (Act.Spec.ask (I := Api) (c := Call.acquire l false) (hfree h).1
    (fun _ => trivial) (R := fun _ h' => h' = ⟨Call.acquire l false, Except.ok ()⟩ :: h) ?_) ?_
    fun h' _ => ?_
  · rintro r ⟨⟩ hr
    obtain rfl : r = .ok () := hr
    rfl
  · rintro h' - rfl
    exact hx
  · exact Act.Spec.tell (I := Api) (c := Call.release l) (hfree h').2 (fun _ => trivial)
      fun _ _ _ => trivial

/-- The body starts with the receive lock. -/
theorem guarded (hx : Holds .receive (⟨Call.acquire .receive false, Except.ok ()⟩ :: h) →
      Orders anyEvent x (fun _ _ => True) (⟨Call.acquire .receive false, Except.ok ()⟩ :: h)) :
    Orders anyEvent (Ssp.locked .receive false x) (fun _ _ => True) h :=
  locked (hx ⟨false, .here⟩)

end Orders

/-! ### Calls that the contract leaves alone -/

namespace Spark

variable {D : Deployment}

/-- No call of the Spark layer decides how a send or a receive ends. -/
theorem plain_of_ofSpark (c : Call) (h : c.ofSpark = true) : Plain c := by
  cases c with
  | db q =>
      cases q with
      | quoteForHash => exact ⟨fun _ => trivial, rfl⟩
      | _ => cases h
  | mark m =>
      cases m with
      | swapReceive => exact ⟨fun _ => trivial, rfl⟩
      | _ => cases h
  | spark => exact ⟨fun _ => trivial, rfl⟩
  | systemTime => exact ⟨fun _ => trivial, rfl⟩
  | acquire l =>
      cases l with
      | liquidity => exact ⟨fun _ => trivial, rfl⟩
      | _ => cases h
  | release l =>
      cases l with
      | liquidity => exact ⟨fun _ => trivial, rfl⟩
      | _ => cases h
  | _ => cases h

/-- This is so of every call of an operator. -/
theorem plain_spark (c : SparkCall) : Act.Calls Plain (Ssp.spark c) :=
  Act.Calls.ask ⟨fun _ => trivial, rfl⟩

/-- The liquidity lock decides nothing either. -/
theorem plain_locked {α : Type} {x : Ssp α} (hx : Act.Calls Plain x) :
    Act.Calls Plain (Ssp.locked .liquidity false x) := by
  apply Act.Calls.bracket
  · exact Act.Calls.ask ⟨fun _ => trivial, rfl⟩
  · exact Act.Calls.tell ⟨fun _ => trivial, rfl⟩
  · exact hx

/-- Polling decides what one look decides: nothing. -/
theorem plain_pollLoop {α : Type} {look : Ssp (Option α)} {e : String} {n : Nat}
    (hlook : Act.Calls Plain look) : Act.Calls Plain (pollLoop look e n) := by
  induction n with
  | zero =>
      apply hlook.attempt.bind
      rintro (e' | - | a)
      · exact Act.Calls.throw
      · exact Act.Calls.throw
      · exact Act.Calls.pure
  | succ n ih =>
      apply hlook.attempt.bind
      rintro (e' | - | a)
      · exact ih
      · exact ih
      · exact Act.Calls.pure

/-- Waiting for a transfer is polling. -/
theorem plain_waitForCompletedTransfer (id : Uuid) :
    Act.Calls Plain (waitForCompletedTransfer id) := by
  apply (Act.Calls.tell ⟨fun _ => trivial, rfl⟩).bind
  intro n
  apply plain_pollLoop
  apply (plain_spark .sync).attempt.bind
  intro _
  exact (plain_spark (.getTransfer id)).bind fun _ => Act.Calls.pure

theorem plain_verifyBolt12Send (owner outbound : String) (amountSats : Nat) :
    Act.Calls Plain (verifyBolt12Send D owner outbound amountSats) := by
  apply Act.Calls.ofExcept.bind
  intro transferId
  apply (plain_waitForCompletedTransfer transferId).bind
  intro transfer
  apply Act.Calls.ofExcept.bind
  intro ownerKey
  apply Act.Calls.ofExcept.bind
  intro _
  exact Act.Calls.ite Act.Calls.throw Act.Calls.pure

/-- A refund changes transfers, and no status of a send. -/
theorem plain_refundBolt12Send (owner outbound : String) (amountSats : Nat) :
    Act.Calls Plain (refundBolt12Send D owner outbound amountSats) := by
  apply (Act.Calls.tell ⟨fun _ => trivial, rfl⟩).bind
  intro _
  apply plain_locked
  apply (plain_spark .sync).bind
  intro _
  apply Act.Calls.ofExcept.bind
  intro ownerKey
  apply (plain_spark (.getTransfer (refundTransferId outbound))).bind
  intro found
  have hrest : ∀ transfer : Transfer, Act.Calls Plain (do
      Ssp.ofExcept (validateTransfer transfer D.identity ownerKey amountSats)
      return transfer.id.print : Ssp String) :=
    fun transfer => Act.Calls.ofExcept.bind fun _ => Act.Calls.pure
  rcases found with - | transfer
  · exact (plain_spark _).mapErr.bind hrest
  · exact Act.Calls.pure.bind hrest

/-- The payout of a receive is left to the caller to record. -/
theorem plain_settleLightningReceive (owner hash : String) (amountSats : Nat) :
    Act.Calls Plain (settleLightningReceive D owner hash amountSats) := by
  apply plain_locked
  apply (plain_spark .sync).bind
  intro _
  apply (receiveTransferId_calls (fun _ => ⟨fun _ => trivial, rfl⟩) hash).bind
  intro transferId
  apply Act.Calls.ofExcept.bind
  intro ownerKey
  apply (plain_spark (.getTransfer transferId)).bind
  intro found
  have hrest : ∀ transfer : Transfer, Act.Calls Plain (do
      Ssp.ofExcept (validateTransfer transfer D.identity ownerKey amountSats)
      return transfer.id.print : Ssp String) :=
    fun transfer => Act.Calls.ofExcept.bind fun _ => Act.Calls.pure
  rcases found with - | transfer
  · apply (plain_spark _).bind
    intro _
    exact (plain_spark _).mapErr.bind hrest
  · exact Act.Calls.pure.bind hrest

/-- A counter transfer is no affair of sends and receives. -/
theorem plain_createCounterTransfer (primaryId : Uuid) (ownerKey : PublicKey)
    (adaptorPubkey : String) (targets : List Nat) (receivedTotalSats targetTotal : Nat)
    (counterId : Uuid) : Act.Calls Plain (createCounterTransfer D primaryId ownerKey adaptorPubkey
      targets receivedTotalSats targetTotal counterId) := by
  apply (plain_spark .sync).bind
  intro _
  apply Act.Calls.ofExcept.bind
  intro adaptor
  apply (plain_spark _).bind
  intro _
  exact (plain_spark _).mapErr

theorem plain_fillSwap (owner outbound adaptorPubkey : String) (targets : List Nat)
    (receivedTotalSats payoutTotalSats : Nat) : Act.Calls Plain (fillSwap D owner outbound
      adaptorPubkey targets receivedTotalSats payoutTotalSats) := by
  apply (Act.Calls.tell ⟨fun _ => trivial, rfl⟩).bind
  intro _
  apply Act.Calls.guard
  apply Act.Calls.guard
  apply Act.Calls.ofExcept.bind
  intro targetTotal
  apply Act.Calls.guard
  apply Act.Calls.ofExcept.bind
  intro primaryId
  have hwait : Act.Calls Plain (waitForTransfer primaryId) := by
    apply (Act.Calls.tell ⟨fun _ => trivial, rfl⟩).bind
    exact fun n => plain_pollLoop (plain_spark (.getTransfer primaryId))
  apply hwait.bind
  intro primary
  apply Act.Calls.ofExcept.bind
  intro ownerKey
  apply Act.Calls.ofExcept.bind
  intro _
  apply Act.Calls.ofExcept.bind
  intro _
  apply plain_locked
  apply (plain_spark (.getTransfer primaryId)).bind
  intro found
  apply Act.Calls.ofExcept.bind
  intro primary
  apply Act.Calls.ofExcept.bind
  intro _
  apply (plain_spark (.getTransfer (counterTransferId outbound))).bind
  intro counter
  -- what follows is the same for a counter transfer found and one just made
  have hrest : ∀ counter : Transfer, Act.Calls Plain (do
      Ssp.ofExcept (validateTransfer counter D.identity ownerKey receivedTotalSats)
      let leaves ← Ssp.ofExcept (counter.leaves.mapM swapLeafResponse)
      if leaves = [] then throw "counter transfer has no leaves"
      return { transferId := counter.id.print, leaves := leaves,
               expiresAt := counter.expiryTime } : Ssp SwapFill) := by
    intro counter
    apply Act.Calls.ofExcept.bind
    intro _
    apply Act.Calls.ofExcept.bind
    intro leaves
    exact Act.Calls.guard Act.Calls.pure
  rcases counter with - | counter
  · apply Act.Calls.ofExcept.bind
    intro _
    exact (plain_createCounterTransfer ..).bind hrest
  · exact Act.Calls.pure.bind hrest

end Spark

namespace Ldk

variable {D : Deployment} {h : History Api}

theorem plain_verifyLightningSendFunding (owner outbound invoice : String) (amount : Option Nat) :
    Act.Calls Plain (verifyLightningSendFunding D owner outbound invoice amount) := by
  unfold verifyLightningSendFunding
  apply Act.Calls.ite
  · apply Act.Calls.ofExcept.bind
    intro amountSats
    apply Act.Calls.guard
    exact (Spark.plain_verifyBolt12Send owner outbound amountSats).bind fun _ => Act.Calls.pure
  · apply Act.Calls.ofExcept.bind
    intro decoded
    have hrest : ∀ amountMsat, Act.Calls Plain (do
        let rounded ← Ssp.ofExcept (okOr "invoice amount is too large"
          (checkedAdd amountMsat 999))
        let totalSats := rounded / 1000
        if totalSats = 0 then throw "Lightning send amount must be positive"
        return some (← Spark.verifyLightningSend D owner outbound decoded.paymentHash.text
          totalSats) : Ssp (Option Nat)) := by
      intro amountMsat
      apply Act.Calls.ofExcept.bind
      intro rounded
      apply Act.Calls.guard
      exact (Spark.verifyLightningSend_calls Spark.plain_of_ofSpark _ _ _ _).bind
        fun _ => Act.Calls.pure
    rcases decoded.amountMilliSatoshis with - | value
    · apply Act.Calls.ofExcept.bind
      intro amountSats
      exact Act.Calls.ofExcept.bind hrest
    · exact Act.Calls.guard (Act.Calls.pure.bind hrest)

/-- A prepared intent is unbound. -/
theorem prepareSend_orders (owner transfer invoice : String) (amount : Option Nat) :
    Orders anyEvent (prepareSend D owner transfer invoice amount)
      (fun send _ => send.paymentId = none ∧ send.status = .prepared) h := by
  have hdecode : Act.Calls Free (decodeSend D invoice amount) := by
    unfold decodeSend
    apply Act.Calls.ite
    · apply (Act.Calls.ask fun _ => trivial).bind
      intro offerId
      exact Act.Calls.ofExcept.bind fun _ => Act.Calls.pure
    · apply Act.Calls.ofExcept.bind
      intro decoded
      apply Act.Calls.guard
      apply (Act.Calls.tell fun _ => trivial).bind
      intro now
      apply Act.Calls.guard
      exact Act.Calls.ofExcept.bind fun _ => Act.Calls.pure
  unfold prepareSend
  apply Act.Spec.guard
  intro _
  refine Act.Spec.bind (Orders.free hdecode) fun decoded h₁ _ _ => ?_
  refine Act.Spec.bind (Orders.free Act.Calls.ofExcept) fun _ h₂ _ _ => ?_
  refine Act.Spec.bind (Orders.free ((plain_verifyLightningSendFunding _ _ _ _).mono
    fun _ hc => hc.1)) fun cltv h₃ _ _ => ?_
  refine Act.Spec.bind (Orders.free (Act.Calls.tell fun _ => trivial)) fun id h₄ _ _ => ?_
  exact Act.Spec.pure ⟨rfl, rfl⟩

/-! ### Submission and lookup -/

/-- A submission is an allowed call at any time, though it is not plain. -/
theorem free_submit (send : LightningSend) : Act.Calls Free (submit send) := by
  apply Act.Calls.ofExcept.bind
  exact fun _ => Act.Calls.ask fun _ => trivial

/-- Searching the pages of the node writes nothing. -/
theorem free_lookupPages (send : LightningSend) (n : Nat) (token : Option String)
    (found : Option Payment) : Act.Calls Free (lookupPages D send n token found) := by
  induction n generalizing token found with
  | zero => exact Act.Calls.throw
  | succ n ih =>
      apply (Act.Calls.ask fun _ => trivial).bind
      intro page
      apply Act.Calls.ofExcept.bind
      intro found
      rcases page.2 with - | token
      · exact Act.Calls.pure
      · exact ih (some token) found

theorem free_lookup (send : LightningSend) : Act.Calls Free (lookup D send) := by
  unfold lookup
  rcases lookupId send with - | id
  · exact free_lookupPages send 100 none none
  · apply (Act.Calls.ask fun _ => trivial).bind
    rintro (- | payment)
    · exact Act.Calls.pure
    · exact Act.Calls.ofExcept.bind fun _ => Act.Calls.pure

/-- A recovered payment is bound to a send that is known to be remote. -/
theorem recoverSubmission_orders {send : LightningSend} (hr : Remote h send) :
    Orders anyEvent (recoverSubmission D send) (fun _ _ => True) h := by
  refine Act.Spec.bind (Orders.free (free_lookup send)) fun o h₁ he₁ _ => ?_
  rcases o with - | payment
  · exact Act.Spec.pure trivial
  · refine Act.Spec.bind Act.Spec.ofExcept_eq ?_
    rintro _ _ - ⟨-, rfl⟩
    refine Act.Spec.bind (Orders.db_any ⟨send, rfl, hr.after he₁⟩) fun _ _ _ _ => ?_
    exact Act.Spec.pure trivial

/-- A missing payment is submitted again only for a remote send. -/
theorem retryMissingBolt11_orders {send : LightningSend} (hr : Remote h send) :
    Orders anyEvent (retryMissingBolt11 D send) (fun _ _ => True) h := by
  unfold retryMissingBolt11
  apply Act.Spec.guard
  intro _
  refine Act.Spec.bind (Orders.free (free_submit send)).attempt fun r h₁ he₁ _ => ?_
  rcases r with e | id
  · refine Act.Spec.bind (recoverSubmission_orders (hr.after he₁)) fun o h₂ _ _ => ?_
    exact Act.Spec.ite (fun _ => Orders.db_any trivial) fun _ => Act.Spec.pure trivial
  · exact Orders.db_any ⟨send, rfl, hr.after he₁⟩

/-- The first submission binds its payment under the same condition. -/
theorem submitDurableSend_orders {send : LightningSend} (hr : Remote h send) :
    Orders anyEvent (submitDurableSend send) (fun _ _ => True) h := by
  refine Act.Spec.bind (Orders.db_eq (.beginLightningSubmission send.requestId) trivial
    fun _ => trivial) ?_
  rintro begun _ he₁ rfl
  apply Act.Spec.ite
  · rintro rfl
    refine Act.Spec.bind (Orders.free (free_submit send)).attempt fun r h₂ he₂ _ => ?_
    rcases r with e | id
    · exact Orders.db_any trivial
    · exact Orders.db_any ⟨send, rfl, (hr.after he₁).after he₂⟩
  · exact fun _ => Act.Spec.pure trivial

/-! ### Receives -/

/-- Failing a held payment at the node decides nothing in the tables. -/
theorem plain_failReceive (paymentId : String) (delays : List Nat) :
    Act.Calls Plain ((failReceive paymentId).retryBounded delays) :=
  Ssp.retryBounded_calls (failReceive_calls (fun _ => ⟨fun _ => trivial, rfl⟩) paymentId)
    ⟨fun _ => trivial, rfl⟩ delays

/-- The status is written to the row that was read as open. -/
theorem failUnfundedReceive_orders {payment : ClaimableReceive} {delays : List Nat}
    (hr : OpenRead h payment.paymentHash) :
    Orders anyEvent (failUnfundedReceive payment delays) (fun _ _ => True) h := by
  refine Act.Spec.bind (Orders.calm (plain_failReceive _ _).attempt) fun r h₁ _ hcalm => ?_
  rcases r with e | ⟨⟩
  · exact Act.Spec.pure trivial
  · refine Act.Spec.bind (Orders.db_any ?_).attempt fun _ _ _ _ => Act.Spec.pure trivial
    exact .inr (.inl (hr.after hcalm))

/-- The payout of a receive that was read as unfinished leaves that reading alone. -/
theorem fundReceive_orders {payment : ClaimableReceive} {r : LightningReceive}
    {delays : List Nat} (hr : OpenRead h payment.paymentHash) :
    Orders anyEvent (fundReceive D payment r delays)
      (fun _ h' => OpenRead h' payment.paymentHash) h := by
  have hswap : Act.Calls Plain (Act.attempt (Ssp.retryBounded
      (swapReceive D true r.receiver payment.paymentHash r.invoice r.amountSats) delays)) :=
    (Ssp.retryBounded_calls (Spark.swapForLightningReceive_calls Spark.plain_of_ofSpark _ _ _ _ _ _)
      ⟨fun _ => trivial, rfl⟩ delays).attempt
  refine Act.Spec.bind (Orders.calm hswap) fun o h₁ _ he₁ => ?_
  have hr₁ := hr.after he₁
  rcases o with e | swap
  · refine Act.Spec.bind (Orders.calm (Act.Calls.tell ⟨fun _ => trivial, rfl⟩))
      fun _ h₂ _ he₂ => ?_
    have hr₂ := hr₁.after he₂
    refine Act.Spec.bind (Orders.db_eq (.setReceiveStatus payment.paymentHash
      .transferCreationFailed) (.inr (.inl hr₂)) fun _ => trivial) ?_
    rintro _ _ - rfl
    apply Act.Spec.ite
    · intro _
      exact Act.Spec.bind (failUnfundedReceive_orders (hr₂.after (.one rfl)))
        fun _ _ _ _ => Act.Spec.throw
    · exact fun _ => Act.Spec.throw
  · dsimp only
    rcases validatePreimage payment.paymentHash swap.preimage with e | ⟨⟩
    · exact Act.Spec.bind (Orders.db_any (.inr (.inl hr₁))) fun _ _ _ _ => Act.Spec.throw
    · refine Act.Spec.bind (Orders.db_eq (.commitLightningReceiveSwap payment.paymentHash
        swap.transferId swap.preimage r.requestId r.owner) (.read hr₁) fun _ => trivial) ?_
      rintro _ _ - rfl
      exact Act.Spec.pure (hr₁.after (.one rfl))

/-- What follows the payout. -/
theorem claimStored_orders {payment : ClaimableReceive} {r : LightningReceive} {actualMsat : Nat}
    {preimage : Option String} {delays : List Nat} (hr : OpenRead h payment.paymentHash) :
    Orders anyEvent (do
      if r.claimSubmitted then return true
      let preimage ← Ssp.ofExcept (okOr "committed Spark receive has no preimage" preimage)
      Ssp.ofExcept (validatePreimage payment.paymentHash preimage)
      Ssp.retryBounded (claimReceive payment.paymentId actualMsat preimage) delays
      Ssp.db (.markReceiveClaimSubmitted payment.paymentHash)
      return true : Ssp Bool) (fun _ _ => True) h := by
  apply Act.Spec.ite
  · exact fun _ => Act.Spec.pure trivial
  · intro _
    refine Act.Spec.bind Act.Spec.ofExcept_eq ?_
    rintro preimage _ - ⟨-, rfl⟩
    refine Act.Spec.bind Act.Spec.ofExcept_eq ?_
    rintro _ _ - ⟨-, rfl⟩
    have hclaim : Act.Calls Plain
        ((claimReceive payment.paymentId actualMsat preimage).retryBounded delays) :=
      Ssp.retryBounded_calls (Act.Calls.ask ⟨fun _ => trivial, rfl⟩).mapErr
        ⟨fun _ => trivial, rfl⟩ delays
    refine Act.Spec.bind (Orders.calm hclaim) fun _ h₁ _ he₁ => ?_
    exact Act.Spec.bind (Orders.db_any (.read (hr.after he₁))) fun _ _ _ _ => Act.Spec.pure trivial

theorem failReceive_orders {β : Type} {paymentId : String} {delays : List Nat} {b : β} :
    Orders anyEvent (Ssp.retryBounded (failReceive paymentId) delays >>= fun _ => pure b)
      (fun _ _ => True) h :=
  Act.Spec.bind (Orders.calm (plain_failReceive paymentId delays))
    fun _ _ _ _ => Act.Spec.pure trivial

/-- Everything that is written here is written under the receive lock, after the row was read as
open and without a local payer. -/
theorem processStandardReceive_orders (payment : ClaimableReceive) (delays : List Nat) :
    Orders anyEvent (processStandardReceive D payment delays) (fun _ _ => True) h := by
  apply Orders.guarded
  intro hholds
  refine Act.Spec.bind (Orders.calm (Act.Calls.tell ⟨fun _ => trivial, rfl⟩))
    fun _ h₁ _ he₁ => ?_
  replace hholds := hholds.calm he₁
  refine Act.Spec.bind (Orders.db_eq (.internalSend payment.paymentHash) trivial
    fun _ => trivial) ?_
  rintro payer _ - rfl
  apply Act.Spec.ite
  · exact fun _ => failReceive_orders
  · intro hfree
    obtain rfl : payer = none := by simpa using hfree
    refine Act.Spec.bind (Orders.db_eq (.lightningReceiveForHash payment.paymentHash) trivial
      fun _ => trivial) ?_
    rintro row _ - rfl
    rcases row with - | r
    · exact failReceive_orders
    refine Act.Spec.bind (Orders.calm (Act.Calls.tell ⟨fun _ => trivial, rfl⟩))
      fun _ h₂ _ he₂ => ?_
    apply Act.Spec.ite
    · exact fun _ => failReceive_orders
    · intro haccepts
      apply Act.Spec.ite
      · exact fun _ => Act.Spec.pure trivial
      · intro hopen
        -- the attempt does not compete, and the receive is not completed
        have hfinal : r.status.final = false := by
          have hfailed : r.status ≠ .htlcFailed := by
            intro hst
            simp [rejectsAttempt, hst] at haccepts
          cases hst : r.status <;> simp_all [ReceiveStatus.final]
        have hholds₂ : Holds .receive (dbEvent (.lightningReceiveForHash payment.paymentHash)
            (some r) :: dbEvent (.internalSend payment.paymentHash) none :: h₁) :=
          .cons (.cons hholds nofun) nofun
        have hr : OpenRead h₂ payment.paymentHash :=
          OpenRead.after ⟨hholds₂, Since.here.cons (by rfl), r, hfinal, .here⟩ he₂
        refine Act.Spec.bind Act.Spec.ofExcept_eq ?_
        rintro expected _ - ⟨-, rfl⟩
        refine Act.Spec.bind Act.Spec.ofExcept_eq ?_
        rintro actual _ - ⟨-, rfl⟩
        refine Act.Spec.bind (Orders.db_eq (.markReceiveClaimable payment.paymentHash
          payment.paymentId actual) trivial fun _ => trivial) ?_
        rintro ⟨⟩ _ - rfl
        replace hr := hr.after (.one (x := dbEvent (.markReceiveClaimable payment.paymentHash
          payment.paymentId actual) ()) rfl)
        apply Act.Spec.ite
        · intro _
          exact Act.Spec.bind (failUnfundedReceive_orders hr) fun _ _ _ _ => Act.Spec.throw
        · intro _
          apply Act.Spec.ite
          · intro _
            exact Act.Spec.bind (fundReceive_orders hr) fun _ _ _ hr => claimStored_orders hr
          · intro _
            exact claimStored_orders hr

/-- Settle a local send: it is read as unfinished, reserved, paid and finished under one
guard. -/
theorem processInternalSend_orders {send : LightningSend} (hl : Local h send) :
    Orders anyEvent (processInternalSend D send) (fun _ _ => True) h := by
  apply Orders.guarded
  intro hholds
  refine Act.Spec.bind (Orders.calm (Act.Calls.tell ⟨fun _ => trivial, rfl⟩))
    fun _ h₁ _ he₁ => ?_
  replace hholds := hholds.calm he₁
  have hl₁ : Local h₁ send := (hl.after (.one (q := anyEvent) trivial)).after he₁
  refine Act.Spec.bind (Orders.db_eq (.paymentStatus send.requestId) trivial fun _ => trivial) ?_
  rintro status _ - rfl
  apply Act.Spec.ite
  · exact fun _ => Act.Spec.pure trivial
  · intro hopen
    have hready : PayerReady (dbEvent (.paymentStatus send.requestId) status :: h₁) send := by
      refine ⟨hholds.calm (.one rfl), hl₁.after (.one (q := anyEvent) trivial), status, h₁, ?_, rfl⟩
      rintro st rfl
      cases st with
      | succeeded => exact absurd (.inl rfl) hopen
      | failed => exact absurd (.inr rfl) hopen
      | _ => rfl
    refine Act.Spec.bind (Orders.db_attempt (.reserveInternalSend send) hready) ?_
    rintro result _ - rfl
    rcases result with e | ⟨⟩
    · -- the lock is still held
      refine Act.Spec.bind (Orders.db_any (c := .setPayment send.requestId .failed)
        (.inr (hready.holds.cons nofun))) fun _ _ _ _ => Act.Spec.throw
    · have hturn : PayerTurn (dbEvent (.reserveInternalSend send) () ::
          dbEvent (.paymentStatus send.requestId) status :: h₁) send :=
        ⟨hready.holds.cons nofun, _, hready, .refl _⟩
      refine Act.Spec.bind (Orders.db_eq (.lightningReceiveForHash send.expectedId) trivial
        fun _ => trivial) ?_
      rintro row _ - rfl
      replace hturn := hturn.after (.one (x := dbEvent (.lightningReceiveForHash send.expectedId)
        row) rfl)
      refine Act.Spec.bind Act.Spec.ofExcept_eq ?_
      rintro r _ - ⟨-, rfl⟩
      -- both branches settle with the preimage they have
      have hsettle : ∀ preimage h', PayerTurn h' send → Orders anyEvent (do
          Ssp.ofExcept (validatePreimage send.expectedId preimage)
          settleSender send preimage
          Ssp.db (.finishInternalSend send) : Ssp Unit) (fun _ _ => True) h' := by
        intro preimage h' hturn
        refine Act.Spec.bind Act.Spec.ofExcept_eq ?_
        rintro _ _ - ⟨-, rfl⟩
        refine Act.Spec.bind (Orders.calm (Spark.settleLightningSend_calls Spark.plain_of_ofSpark
          _ _ _)) fun _ h₃ _ he₃ => ?_
        exact Orders.db_any (c := .finishInternalSend send) (hturn.after he₃)
      rcases r.preimage with - | preimage
      · have hverify : Act.Calls Plain (verifySender D send) :=
          (Spark.verifyLightningSend_calls Spark.plain_of_ofSpark _ _ _ _).bind
            fun _ => Act.Calls.pure
        refine Act.Spec.bind (Orders.calm hverify) fun _ h₃ _ he₃ => ?_
        refine Act.Spec.bind (Orders.calm (Spark.swapForLightningReceive_calls
          Spark.plain_of_ofSpark _ _ _ _ _ _)) fun swap h₄ _ he₄ => ?_
        refine Act.Spec.bind Act.Spec.ofExcept_eq ?_
        rintro _ _ - ⟨-, rfl⟩
        have hturn₄ := (hturn.after he₃).after he₄
        refine Act.Spec.bind (Orders.db_eq (.commitLightningReceiveSwap send.expectedId
          swap.transferId swap.preimage r.requestId r.owner) (.reserved send hturn₄ rfl)
          fun _ => trivial) ?_
        rintro _ _ - rfl
        exact hsettle swap.preimage _ (hturn₄.after (.one rfl))
      · exact hsettle preimage _ hturn

/-! ### Driving sends -/

/-- The send that comes back differs in its route cap alone. -/
theorem refreshRouteCltv_orders (send : LightningSend) :
    Orders anyEvent (refreshRouteCltv D send)
      (fun send' _ => ∃ cltv, send' = { send with maxRouteCltv := cltv }) h := by
  refine Act.Spec.bind (Orders.calm (plain_verifyLightningSendFunding _ _ _ _))
    fun cltv h₁ _ _ => ?_
  apply Act.Spec.ite
  · intro _
    refine Act.Spec.bind (Orders.db_eq (.setLightningSendRouteCltv send.requestId cltv) trivial
      fun _ => trivial) ?_
    rintro _ _ - rfl
    exact Act.Spec.pure ⟨cltv, rfl⟩
  · exact fun _ => Act.Spec.pure ⟨cltv, rfl⟩

/-- An own invoice makes the send a local one, and every other makes it remote. -/
theorem submitSend_orders {send : LightningSend} (hk : KnownSend h send) :
    Orders anyEvent (submitSend D send) (fun _ _ => True) h := by
  refine Act.Spec.bind (Orders.db_eq (.lightningReceiveHashForInvoice send.invoice) trivial
    fun _ => trivial) ?_
  rintro found _ - rfl
  apply Act.Spec.ite
  · intro hfound
    obtain ⟨hash, rfl⟩ := Option.isSome_iff_exists.mp hfound
    exact processInternalSend_orders ⟨hash, List.mem_cons_self⟩
  · intro hfound
    obtain rfl : found = none := by simpa using hfound
    have hremote : Remote (dbEvent (.lightningReceiveHashForInvoice send.invoice) none :: h) send :=
      ⟨[], h, hk, rfl⟩
    apply Act.Spec.ite
    · exact fun _ => Act.Spec.pure trivial
    · intro _
      refine Act.Spec.bind (refreshRouteCltv_orders send) ?_
      rintro _ h₁ he₁ ⟨cltv, rfl⟩
      exact submitDurableSend_orders ((hremote.after he₁).refreshed cltv)

/-! ### Outcomes of sends -/

/-- To settle a payment that succeeded is allowed at any time. -/
theorem free_settleSucceededPayment (payment : Payment) :
    Act.Calls Free (settleSucceededPayment D payment) := by
  apply (Act.Calls.ask fun _ => trivial).bind
  intro found
  apply Act.Calls.ofExcept.bind
  intro send
  apply Act.Calls.ofExcept.bind
  intro _
  have hset : Act.Calls Free (Ssp.db (.setPayment payment.paymentId .succeeded)) :=
    Act.Calls.ask fun _ => trivial
  rcases payment.kind with - | ⟨hash, preimage, fee⟩ | ⟨offerId, hash, preimage, note⟩ | -
  · exact Act.Calls.throw.bind fun _ => hset
  · apply Act.Calls.ofExcept.bind
    intro preimage
    exact ((Spark.settleLightningSend_calls Spark.plain_of_ofSpark _ _ _).mono
      fun _ hc => hc.1).bind fun _ => hset
  · apply Act.Calls.guard
    apply Act.Calls.ofExcept.bind
    intro hash
    apply Act.Calls.ofExcept.bind
    intro preimage
    apply Act.Calls.ofExcept.bind
    intro _
    exact (Act.Calls.ask fun _ => trivial).bind fun _ => hset
  · exact Act.Calls.throw.bind fun _ => hset

/-- A send fails for a payment that the node has reported failed. -/
theorem failManagedPayment_orders {id : String} {reason : Option String}
    (hp : FailedPayment h id) :
    Orders anyEvent (failManagedPayment D id reason) (fun _ _ => True) h := by
  refine Act.Spec.bind (Orders.db_any (c := .lightningSendForPayment id) trivial)
    fun found h₁ he₁ _ => ?_
  rcases found with - | send
  · exact Act.Spec.pure trivial
  apply Act.Spec.ite
  · exact fun _ => Act.Spec.pure trivial
  intro _
  refine Act.Spec.bind (Orders.db_any trivial) fun _ h₂ he₂ _ => ?_
  apply Act.Spec.ite
  · exact fun _ => Act.Spec.pure trivial
  intro _
  have hp₂ := hp.after (he₁.trans he₂)
  apply Act.Spec.ite
  · intro _
    refine Act.Spec.bind (Orders.db_any (c := .setPayment id .refunding) trivial)
      fun _ h₃ he₃ _ => ?_
    refine Act.Spec.bind (Orders.free ((Spark.plain_refundBolt12Send _ _ _).mono
      fun _ hc => hc.1)) fun _ h₄ he₄ _ => ?_
    exact Orders.db_any (c := .setPayment id .failed) (.inl (hp₂.after (he₃.trans he₄)))
  · exact fun _ => Orders.db_any (c := .setPayment id .failed) (.inl hp₂)

/-- The payment is looked up before its status counts. -/
theorem observeCached_orders (id cached : String) :
    Orders anyEvent (observeCached D id cached) (fun _ _ => True) h := by
  refine Act.Spec.bind (Orders.ldk_eq (.getPaymentDetails id) trivial).attempt
    fun o h₁ _ ho => ?_
  rcases o with e | - | payment
  · exact Act.Spec.pure trivial
  · exact Act.Spec.pure trivial
  have hknown : KnownPayment h₁ payment := .asked id (ho _ rfl ▸ List.mem_cons_self)
  rcases hs : payment.status with - | - | -
  · simp only [hs]
    exact Act.Spec.pure trivial
  · simp only [hs]
    apply Act.Spec.ite
    · exact fun _ => Act.Spec.pure trivial
    intro _
    refine Act.Spec.bind (Orders.free (free_settleSucceededPayment payment)).attempt
      fun r h₂ _ _ => ?_
    rcases r with e | ⟨⟩
    · exact Act.Spec.bind (Orders.db_any (c := .setPayment id .settling) trivial).attempt
        fun _ _ _ _ => Act.Spec.pure trivial
    · exact Act.Spec.pure trivial
  · simp only [hs]
    refine Act.Spec.bind (failManagedPayment_orders (.known payment hknown rfl hs)).attempt
      fun r h₂ _ _ => ?_
    rcases r with e | ⟨⟩
    · exact Act.Spec.pure trivial
    · exact Act.Spec.pure trivial

theorem observePayment_orders (id : String) :
    Orders anyEvent (observePayment D id) (fun _ _ => True) h := by
  rw [observePayment_eq]
  exact Act.Spec.bind (Orders.db_any (c := .paymentStatus id) trivial).attempt
    fun r h₁ _ _ => observeCached_orders id (cachedText r)

/-- Recovery tries what was bound first, then what the node knows, then a new submission. -/
theorem recoverSend_orders {send : LightningSend} (hk : KnownSend h send) :
    Orders anyEvent (recoverSend D send) (fun _ _ => True) h := by
  unfold recoverSend
  apply Act.Spec.ite
  · exact fun _ => Act.Spec.pure trivial
  intro _
  refine Act.Spec.bind (Orders.db_eq (.lightningReceiveHashForInvoice send.invoice) trivial
    fun _ => trivial) ?_
  rintro found _ he rfl
  apply Act.Spec.ite
  · intro hfound
    obtain ⟨hash, rfl⟩ := Option.isSome_iff_exists.mp hfound
    exact processInternalSend_orders ⟨hash, List.mem_cons_self⟩
  · intro hfound
    obtain rfl : found = none := by simpa using hfound
    have hremote : Remote (dbEvent (.lightningReceiveHashForInvoice send.invoice) none :: h) send :=
      ⟨[], h, hk, rfl⟩
    apply Act.Spec.ite
    · exact fun _ => submitSend_orders (hk.after he)
    intro _
    refine Act.Spec.bind (recoverSubmission_orders hremote) fun o h₁ he₁ _ => ?_
    rcases o with - | payment
    · apply Act.Spec.ite
      · intro _
        refine Act.Spec.bind (refreshRouteCltv_orders send) ?_
        rintro _ h₂ he₂ ⟨cltv, rfl⟩
        exact retryMissingBolt11_orders (((hremote.after he₁).after he₂).refreshed cltv)
      · exact fun _ => Orders.db_any trivial
    · exact Act.Spec.bind (observePayment_orders payment.paymentId) fun _ _ _ _ =>
        Act.Spec.pure trivial

/-! ### Outcomes of receives -/

/-- An offer payment has a row of its own, which no send reserves. -/
theorem free_finishBolt12Receive (offerId hash : String) (preimage : Option String)
    (amount : Option Nat) : Act.Calls Free (finishBolt12Receive D offerId hash preimage amount) := by
  apply Act.Calls.bracket (Act.Calls.ask fun _ => trivial) (Act.Calls.tell fun _ => trivial)
  apply (Act.Calls.tell fun _ => trivial).bind
  intro _
  apply (Act.Calls.ask fun _ => trivial).bind
  intro found
  rcases found with - | receive
  · exact Act.Calls.pure
  apply Act.Calls.ite Act.Calls.pure
  apply Act.Calls.ofExcept.bind
  intro expectedMsat
  apply Act.Calls.guard
  apply Act.Calls.ofExcept.bind
  intro preimage
  apply Act.Calls.ofExcept.bind
  intro _
  apply (Act.Calls.ask fun _ => trivial).bind
  intro _
  apply (Act.Calls.ask fun _ => trivial).bind
  intro _
  apply ((Spark.plain_settleLightningReceive _ _ _).mono fun _ hc => hc.1).bind
  exact fun transferId => Act.Calls.ask fun _ => trivial

/-- A receive is finished under the lock, and not when a local payer has reserved it. -/
theorem finishReceivedPayment_orders (id hash : String) :
    Orders anyEvent (finishReceivedPayment id hash) (fun _ _ => True) h := by
  apply Orders.guarded
  intro hholds
  refine Act.Spec.bind (Orders.calm (Act.Calls.tell ⟨fun _ => trivial, rfl⟩))
    fun _ h₁ _ he₁ => ?_
  replace hholds := hholds.calm he₁
  refine Act.Spec.bind (Orders.db_eq (.internalSend hash) trivial fun _ => trivial) ?_
  rintro payer _ - rfl
  apply Act.Spec.ite
  · exact fun _ => Act.Spec.pure trivial
  intro hfree
  -- the look-up has answered, so no internal send has the receive
  obtain rfl : payer = none := by simpa using hfree
  have hholds₁ : Holds .receive (dbEvent (.internalSend hash) none :: h₁) := .cons hholds nofun
  -- the two ways to a transfer id end in the same two writes
  have hfinish : ∀ (transferId requestId owner : String) h',
      Extends Calm (dbEvent (.internalSend hash) none :: h₁) h' → Orders anyEvent (do
      Ssp.db (.insertTransfer transferId requestId .lightningReceive .transferCompleted owner)
      Ssp.db (.setReceiveStatus hash .transferCompleted)
      return true : Ssp Bool) (fun _ _ => True) h' := by
    intro transferId requestId owner h' he
    refine Act.Spec.bind (Orders.db_eq (.insertTransfer transferId requestId .lightningReceive
      .transferCompleted owner) trivial fun _ => trivial) ?_
    rintro _ _ - rfl
    refine Act.Spec.bind (Orders.db_any (.inr (.inr ⟨rfl, ?_, ?_⟩))) fun _ _ _ _ =>
      Act.Spec.pure trivial
    · exact (hholds₁.calm he).calm (.one rfl)
    · exact .cons (.after .here he) rfl
  refine Act.Spec.bind (Orders.db_eq (.lightningReceiveForHash hash) trivial fun _ => trivial) ?_
  rintro found _ - rfl
  rcases found with - | r
  · exact Act.Spec.pure trivial
  apply Act.Spec.guard
  intro _
  rcases r.transferId with - | transferId
  · refine Act.Spec.bind (Orders.db_eq (.transferForRequest r.requestId r.owner) trivial
      fun _ => trivial) ?_
    rintro found _ - rfl
    refine Act.Spec.bind Act.Spec.ofExcept_eq ?_
    rintro transferId _ - ⟨-, rfl⟩
    exact hfinish transferId _ _ _ (.cons (.one rfl) rfl)
  · exact hfinish transferId _ _ _ (.one rfl)

/-! ### Reconciliation -/

/-- A known send is recovered; whatever fails is left for the next pass. -/
theorem reconcileSend_orders {send : LightningSend} (hk : KnownSend h send) :
    Orders anyEvent (reconcileSend D send) (fun _ _ => True) h := by
  refine Act.Spec.bind (recoverSend_orders hk).attempt fun r h₁ _ _ => ?_
  rcases r with e | ⟨⟩
  · exact Orders.db_any trivial
  · exact Act.Spec.pure trivial

theorem isManagedOutbound_orders (id : String) :
    Orders anyEvent (isManagedOutbound id) (fun _ _ => True) h :=
  Act.Spec.bind (Orders.db_any (c := .lightningSendForPayment id) trivial)
    fun _ _ _ _ => Act.Spec.pure trivial

/-- The payment was listed by the node, with the status that is applied. -/
theorem reconcileOutbound_orders {payment : Payment} (hp : KnownPayment h payment) :
    Orders anyEvent (reconcileOutbound D payment) (fun _ _ => True) h := by
  refine Act.Spec.bind (isManagedOutbound_orders payment.paymentId) fun b h₁ he₁ _ => ?_
  apply Act.Spec.ite
  · intro _
    rcases hs : payment.status with - | - | -
    · exact Orders.db_any (c := .setPayment payment.paymentId .pending) trivial
    · refine Act.Spec.bind (Orders.free (free_settleSucceededPayment payment)).attempt
        fun r h₂ _ _ => ?_
      rcases r with e | ⟨⟩
      · exact Orders.db_any (c := .setPayment payment.paymentId .settling) trivial
      · exact Act.Spec.pure trivial
    · exact failManagedPayment_orders (.known payment (hp.after he₁) rfl hs)
  · exact fun _ => Act.Spec.pure trivial

theorem reconcileInbound_orders (payment : Payment) (hash : String) :
    Orders anyEvent (reconcileInbound D payment hash) (fun _ _ => True) h := by
  refine Act.Spec.bind (Orders.db_any (c := .lightningReceiveForHash hash) trivial)
    fun found h₁ _ _ => ?_
  apply Act.Spec.ite
  · exact fun _ => Act.Spec.pure trivial
  intro _
  rcases payment.status with - | - | -
  · exact Act.Spec.bind (processStandardReceive_orders _ _).attempt
      fun _ _ _ _ => Act.Spec.pure trivial
  · exact Act.Spec.bind (finishReceivedPayment_orders payment.paymentId hash).attempt
      fun _ _ _ _ => Act.Spec.pure trivial
  · apply Orders.guarded
    intro hholds
    refine Act.Spec.bind (Orders.calm (Act.Calls.tell ⟨fun _ => trivial, rfl⟩))
      fun _ h₂ _ he₂ => ?_
    exact Orders.db_any (c := .failExternalReceive hash payment.paymentId) (hholds.calm he₂)

theorem reconcilePayment_orders {payment : Payment} (hp : KnownPayment h payment) :
    Orders anyEvent (reconcilePayment D payment) (fun _ _ => True) h := by
  unfold reconcilePayment
  apply Act.Spec.ite
  · exact fun _ => reconcileOutbound_orders hp
  intro _
  rcases bolt12OfferIds payment with - | ⟨offerId, hash⟩
  · rcases bolt11Hash payment with - | hash
    · exact Act.Spec.pure trivial
    · exact reconcileInbound_orders payment hash
  · apply Act.Spec.ite
    · intro _
      exact Act.Spec.bind (Orders.free (free_finishBolt12Receive _ _ _ _)).attempt
        fun _ _ _ _ => Act.Spec.pure trivial
    · exact fun _ => Act.Spec.pure trivial

/-- By induction on the bound: each page is followed by the next. -/
theorem reconcilePages_orders (n : Nat) (token : Option String) :
    Orders anyEvent (reconcilePages D n token) (fun _ _ => True) h := by
  induction n generalizing h token with
  | zero => exact Act.Spec.throw
  | succ n ih =>
      refine Act.Spec.bind (Orders.ldk_eq (.listPayments token) trivial) ?_
      rintro page _ - rfl
      refine Act.Spec.bind (Act.Spec.forEach (K := fun p h => KnownPayment h p)
        (fun p _ h' _ hp => reconcilePayment_orders hp) fun p hp h' he =>
          .listed token page (he.mem List.mem_cons_self) hp) fun _ h₂ _ _ => ?_
      rcases page.2 with - | token'
      · exact Act.Spec.pure trivial
      · exact ih (some token')

/-- The sweep fails a receive that it has read again under the lock. -/
theorem expireReceive_orders (hash : String) :
    Orders anyEvent (expireReceive hash) (fun _ _ => True) h := by
  apply Orders.guarded
  intro hholds
  refine Act.Spec.bind (Orders.db_eq (.lightningReceiveForHash hash) trivial fun _ => trivial) ?_
  rintro found h₁ - hh₁
  rcases found with - | r
  · exact Act.Spec.pure trivial
  refine Act.Spec.bind (Orders.db_eq (.internalSend hash) trivial fun _ => trivial) ?_
  rintro payer _ - rfl
  apply Act.Spec.ite
  · exact fun _ => Act.Spec.pure trivial
  intro hfree
  obtain rfl : payer = none := by simpa using hfree
  apply Act.Spec.ite
  · exact fun _ => Act.Spec.pure trivial
  intro _
  apply Act.Spec.ite
  · exact fun _ => Act.Spec.pure trivial
  intro hopen
  have hfinal : r.status.final = false := by
    push Not at hopen
    cases hst : r.status <;> simp_all [ReceiveStatus.final]
  -- read under the lock, and the receive is still open
  have hr : OpenRead (dbEvent (.internalSend hash) none :: h₁) hash := by
    subst hh₁
    exact ⟨.cons (.cons hholds nofun) nofun, .here, r, hfinal, Since.here.cons (by rfl)⟩
  refine Act.Spec.bind (Orders.db_eq (.transferForRequest r.requestId r.owner) trivial
    fun _ => trivial) ?_
  rintro stored _ - rfl
  apply Act.Spec.ite
  · exact fun _ => Act.Spec.pure trivial
  intro _
  refine Act.Spec.bind (Orders.calm (Act.Calls.tell ⟨fun _ => trivial, rfl⟩))
    fun _ h₂ _ he₂ => ?_
  have hr₂ := (hr.after (.one (x := dbEvent (.transferForRequest r.requestId r.owner) stored)
    rfl)).after he₂
  -- without an HTLC the row is failed at once, else only after the node has failed it
  rcases r.paymentId with - | id
  · exact Orders.db_any (c := .setReceiveStatus hash .htlcFailed) (.inr (.inl hr₂))
  · refine Act.Spec.bind (Orders.calm (plain_failReceive id _).attempt) fun o h₃ _ he₃ => ?_
    rcases o with e | ⟨⟩
    · exact Act.Spec.pure trivial
    · exact Orders.db_any (c := .setReceiveStatus hash .htlcFailed) (.inr (.inl (hr₂.after he₃)))

theorem reconcilePayments_orders : Orders anyEvent (reconcilePayments D) (fun _ _ => True) h := by
  refine Act.Spec.bind (Orders.db_eq .unresolvedLightningSends trivial fun _ => trivial) ?_
  rintro sends _ - rfl
  refine Act.Spec.bind (Act.Spec.forEach (K := fun send h => KnownSend h send)
    (fun send _ h' _ hk => reconcileSend_orders hk) fun send hsend h' he =>
      .listed sends send (he.mem List.mem_cons_self) hsend (.refl send)) fun _ h₂ _ _ => ?_
  refine Act.Spec.bind (reconcilePages_orders 100 none) fun _ h₃ _ _ => ?_
  refine Act.Spec.bind (Orders.free (Act.Calls.tell fun _ => trivial)) fun now h₄ _ _ => ?_
  refine Act.Spec.bind (Orders.db_any (c := .expiredReceiveHashes now) trivial)
    fun hashes h₅ _ _ => ?_
  exact Act.Spec.forEach (K := fun _ _ => True) (fun hash _ h' _ _ => expireReceive_orders hash)
    fun _ _ _ _ => trivial

/-! ### Client queries, invoices, events -/

theorem reconcileRequest_orders (id : String) :
    Orders anyEvent (reconcileRequest D id) (fun _ _ => True) h := by
  refine Act.Spec.bind (Orders.db_eq (.lightningSendForPayment id) trivial fun _ => trivial) ?_
  rintro found _ - rfl
  refine Act.Spec.bind Act.Spec.ofExcept_eq ?_
  rintro send _ - ⟨ho, rfl⟩
  obtain rfl := okOr_eq_ok.mp ho
  refine Act.Spec.bind (recoverSend_orders (.read id send List.mem_cons_self (.refl send)))
    fun _ h₂ _ _ => ?_
  exact Act.Spec.bind (Orders.db_any (c := .paymentStatus send.requestId) trivial)
    fun _ _ _ _ => Act.Spec.pure trivial

/-- A poll looks at the bound payment before it answers. -/
theorem pollCached_orders (id cached : String) :
    Orders anyEvent (pollCached D id cached) (fun _ _ => True) h := by
  refine Act.Spec.bind (Orders.db_attempt (.lightningSendForPayment id) trivial) ?_
  rintro found _ - rfl
  rcases found with e | - | send
  · exact Act.Spec.pure trivial
  · exact Act.Spec.pure trivial
  refine Act.Spec.bind (recoverSend_orders (.read id send List.mem_cons_self
    (.refl send))).attempt fun _ h₃ _ _ => ?_
  refine Act.Spec.bind (Orders.db_any (c := .paymentStatus send.requestId) trivial).attempt
    fun r h₄ _ _ => ?_
  rcases r with e | status
  · exact Act.Spec.pure trivial
  · exact Act.Spec.pure trivial

theorem paymentStatus_orders (id : String) :
    Orders anyEvent (paymentStatus D id) (fun _ _ => True) h := by
  rw [paymentStatus_eq]
  exact Act.Spec.bind (Orders.db_any (c := .paymentStatus id) trivial).attempt
    fun r h₁ _ _ => pollCached_orders id (cachedText r)

theorem plain_createInvoice (amount : Nat) (hash memo : String) (expiry : Nat) :
    Act.Calls Plain (createInvoice D amount hash memo expiry) := by
  apply Act.Calls.ofExcept.bind
  intro amountMsat
  apply (Ssp.retryBounded_calls (Act.Calls.ask ⟨fun _ => trivial, rfl⟩)
    ⟨fun _ => trivial, rfl⟩ receiveRetryDelays).bind
  intro invoice
  exact Act.Calls.ofExcept.bind fun _ => Act.Calls.pure

/-- Each event of the stream is the evidence of what is written for it. -/
theorem applyLnEvent_orders {event : LnEvent} (hm : streamEvent event ∈ h) :
    Orders anyEvent (applyLnEvent D event) (fun _ _ => True) h := by
  cases event with
  | outboundSucceeded payment =>
      refine Act.Spec.bind (isManagedOutbound_orders payment.paymentId).attempt fun b h₁ _ _ => ?_
      rcases b with e | - | -
      · exact Act.Spec.pure trivial
      · exact Act.Spec.pure trivial
      · refine Act.Spec.bind (Orders.free (free_settleSucceededPayment payment)).attempt
          fun r h₂ _ _ => ?_
        rcases r with e | ⟨⟩
        · exact Act.Spec.bind (Orders.db_any (c := .setPayment payment.paymentId .settling)
            trivial).attempt fun _ _ _ _ => Act.Spec.pure trivial
        · exact Act.Spec.pure trivial
  | outboundFailed id reason =>
      refine Act.Spec.bind (isManagedOutbound_orders id).attempt fun b h₁ he₁ _ => ?_
      rcases b with e | - | -
      · exact Act.Spec.pure trivial
      · exact Act.Spec.pure trivial
      · exact Act.Spec.bind (failManagedPayment_orders (.event reason (he₁.mem hm))).attempt
          fun _ _ _ _ => Act.Spec.pure trivial
  | inboundClaimable payment =>
      exact Act.Spec.bind (processStandardReceive_orders _ _).attempt
        fun _ _ _ _ => Act.Spec.pure trivial
  | inboundReceived id hash =>
      exact Act.Spec.bind (finishReceivedPayment_orders id hash).attempt
        fun _ _ _ _ => Act.Spec.pure trivial
  | inboundBolt12Received offerId hash preimage amount =>
      exact Act.Spec.bind (Orders.free (free_finishBolt12Receive _ _ _ _)).attempt
        fun _ _ _ _ => Act.Spec.pure trivial

/-- One event is applied and acknowledged before the next is taken. -/
theorem eventPump_orders (embedded : Bool) :
    Orders anyEvent (eventPump D embedded) (fun _ _ => True) h := by
  refine Act.Spec.bind (Act.Spec.tell (I := Api) (c := .nextEvent)
    (R := fun o h' => ∀ e, o = some e → streamEvent e ∈ h') trivial (fun _ => trivial)
    fun o e he => he ▸ List.mem_cons_self) fun o h₁ _ ho => ?_
  rcases o with - | event
  · exact Act.Spec.pure trivial
  have hm := ho event rfl
  dsimp only
  split
  · next id reason =>
    refine Act.Spec.bind (Orders.db_any (c := .recordLightningFailure id reason) trivial).attempt
      fun r h₂ he₂ _ => ?_
    rcases r with e | ⟨⟩
    · exact Act.Spec.pure trivial
    · exact applyLnEvent_orders (he₂.mem hm)
  · exact applyLnEvent_orders hm

end Ldk

namespace Graphql

variable {D : Deployment} {h : History Api}

/-- A stored request decides nothing. -/
theorem free_storeRequest (owner : String) (now : Nat) (payload : RequestPayload) :
    Act.Calls Free (storeRequest owner now payload) := by
  have hinsert : Act.Calls Free (do
      let id ← Ssp.tell .newUuid
      Ssp.db (.insertRequest id.print owner now payload)
      return id.print : Ssp String) := by
    apply (Act.Calls.tell fun _ => trivial).bind
    intro id
    exact (Act.Calls.ask fun _ => trivial).bind fun _ => Act.Calls.pure
  have hsized : Act.Calls Free (do
      if ← Ssp.tell (.oversized payload) then throw "request payload is too large"
      let id ← Ssp.tell .newUuid
      Ssp.db (.insertRequest id.print owner now payload)
      return id.print : Ssp String) := by
    apply (Act.Calls.tell fun _ => trivial).bind
    intro tooLarge
    exact Act.Calls.guard hinsert
  cases payload with
  | leavesSwap p => exact hinsert
  | _ => exact hsized

theorem sendResponseFromRecord_orders (record : RequestRow) :
    Orders anyEvent (sendResponseFromRecord D record) (fun _ _ => True) h := by
  refine Act.Spec.bind (Orders.db_any (c := .requestUpdatedAt record.id) trivial)
    fun _ h₁ _ _ => ?_
  refine Act.Spec.bind (Ldk.paymentStatus_orders _) fun status h₂ _ _ => ?_
  split
  · exact Act.Spec.pure trivial
  · exact Act.Spec.pure trivial
  · exact Act.Spec.pure trivial

/-- A stored send is known from then on, and is submitted at once. -/
theorem requestLightningSend_orders (owner : String) (input : SendInput) :
    Orders anyEvent (requestLightningSend D owner input) (fun _ _ => True) h := by
  unfold requestLightningSend
  apply Act.Spec.guard
  intro _
  apply Act.Spec.guard
  intro _
  apply Orders.locked
  refine Act.Spec.bind (Orders.db_any (c := .findByIdempotency owner _) trivial)
    fun found h₁ _ _ => ?_
  rcases found with - | record
  · refine Act.Spec.bind (Ldk.prepareSend_orders _ _ _ _) fun send h₂ _ hfresh => ?_
    refine Act.Spec.bind (Orders.db_eq (.prepareLightningSend send _ D.networkName) trivial
      fun _ => trivial) ?_
    rintro record _ - rfl
    exact Act.Spec.bind (Ldk.submitSend_orders (.prepared send _ D.networkName record
      List.mem_cons_self hfresh (.refl send))) fun _ _ _ _ => sendResponseFromRecord_orders record
  · apply Act.Spec.guard
    intro _
    refine Act.Spec.bind (Orders.db_eq (.lightningSendForPayment record.id) trivial
      fun _ => trivial) ?_
    rintro found _ - rfl
    rcases found with - | send
    · exact sendResponseFromRecord_orders record
    · exact Act.Spec.bind (Ldk.submitSend_orders (.read record.id send List.mem_cons_self
        (.refl send))) fun _ _ _ _ => sendResponseFromRecord_orders record

theorem free_requestLightningReceive (owner : String) (input : ReceiveInput) :
    Act.Calls Free (requestLightningReceive D owner input) := by
  apply (Act.Calls.tell fun _ => trivial).bind
  intro now
  apply Act.Calls.ofExcept.bind
  intro _
  apply Act.Calls.ofExcept.bind
  intro _
  apply Act.Calls.guard
  apply (Act.Calls.ask fun _ => trivial).bind
  intro found
  apply Act.Calls.guard
  apply Act.Calls.ofExcept.bind
  intro receiver
  apply (Act.Calls.ask fun _ => trivial).bind
  intro quote
  apply Act.Calls.ofExcept.bind
  intro expiry
  apply ((Ldk.plain_createInvoice _ _ _ _).mono fun _ hc => hc.1).mapErr.bind
  intro invoice
  apply (free_storeRequest owner now _).bind
  intro id
  exact (Act.Calls.ask fun _ => .inl rfl).bind fun _ => Act.Calls.pure

theorem free_requestBolt12Receive (owner : String) (input : ReceiveInput) :
    Act.Calls Free (requestBolt12Receive D owner input) := by
  apply (Act.Calls.tell fun _ => trivial).bind
  intro now
  apply Act.Calls.ofExcept.bind
  intro _
  apply Act.Calls.ofExcept.bind
  intro _
  apply Act.Calls.ofExcept.bind
  intro receiver
  apply Act.Calls.ofExcept.bind
  intro expiry
  have hoffer : Act.Calls Free (Ldk.createBolt12Offer input.amountSats input.memo expiry) := by
    apply Act.Calls.ofExcept.bind
    intro amountMsat
    exact (Act.Calls.ask fun _ => trivial).mapErr.bind fun _ => Act.Calls.pure
  apply hoffer.bind
  intro offer
  apply (free_storeRequest owner now _).bind
  intro id
  exact (Act.Calls.ask fun _ => .inl rfl).bind fun _ => Act.Calls.pure

theorem free_requestSwap (owner : String) (input : SwapInput) :
    Act.Calls Free (requestSwap D owner input) := by
  apply (Act.Calls.tell fun _ => trivial).bind
  intro now
  apply Act.Calls.guard
  apply Act.Calls.guard
  apply Act.Calls.guard
  apply Act.Calls.guard
  apply Act.Calls.guard
  apply Act.Calls.guard
  apply Act.Calls.ofExcept.bind
  intro target
  apply Act.Calls.guard
  apply Act.Calls.guard
  apply ((Spark.plain_fillSwap _ _ _ _ _ _).mono fun _ hc => hc.1).bind
  intro fill
  apply (free_storeRequest owner now _).bind
  intro id
  apply (Act.Calls.ask fun _ => trivial).bind
  intro _
  apply (Act.Calls.ask fun _ => trivial).bind
  intro _
  exact (Act.Calls.ask fun _ => trivial).bind fun _ => Act.Calls.pure

end Graphql

/-- Another service enters its rows. -/
theorem free_storeRecord (service : Service) (owner transferId : String) :
    Act.Calls Free (service.storeRecord owner transferId) := by
  apply (Act.Calls.tell fun _ => trivial).bind
  intro now
  apply (Act.Calls.tell fun _ => trivial).bind
  exact fun _ => Act.Calls.ask fun _ => trivial

/-! ### Every program of the machine -/

variable {D : Deployment}

/-- Every request keeps the order; one case for each kind. -/
theorem Request.act_orders (r : Request) {h : History Api} :
    Orders anyEvent (r.act D) (fun _ _ => True) h := by
  cases r with
  | lightningSend owner input => exact (Graphql.requestLightningSend_orders owner input).discard
  | lightningReceive owner input =>
      exact (Orders.free (Graphql.free_requestLightningReceive owner input)).discard
  | bolt12Receive owner input =>
      exact (Orders.free (Graphql.free_requestBolt12Receive owner input)).discard
  | swap owner input => exact (Orders.free (Graphql.free_requestSwap owner input)).discard
  | paymentStatus id => exact (Ldk.paymentStatus_orders id).discard
  | reconcileRequest id => exact (Ldk.reconcileRequest_orders id).discard
  | storeRecord service owner transferId =>
      exact Orders.free (free_storeRecord service owner transferId)
  | storeTransfer requestId => exact Orders.free (Act.Calls.ask fun _ => trivial)
  | storeSuccess requestId => exact Orders.free (Act.Calls.ask fun _ => trivial)
  | event embedded => exact Ldk.eventPump_orders embedded
  | reconcile => exact Ldk.reconcilePayments_orders

/-- The same of the program that a request starts. -/
theorem Request.handler_ordered (r : Request) :
    (r.handler D).wp Ordered (fun _ _ => True) [] := by
  rw [Request.handler, Prog.wp_discard]
  exact Prog.wp_mono (r.act_orders (D := D)).wp fun _ _ _ => trivial

/-- **Every call of every run is in order.** -/
theorem reach_ordered {ok : Config (machine D) → Move (machine D) → Prop}
    {s : Config (machine D)} (hs : Reach ok s) {t : Nat} {c : Call}
    {k : Api.Reply c → Prog Api Unit} {hist : History Api}
    (h : s.thread t = some ⟨.call c k, hist⟩) : Ordered hist c :=
  hs.justified Request.handler_ordered h

end OpenSsp
