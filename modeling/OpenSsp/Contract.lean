/-
OpenSsp/Contract.lean

What every call of the program is based on: the contract `Justified`, which says for
each call that moves money or progress which earlier answers in the caller's own history
justify it.

Two kinds of knowledge appear.  A plain `e ∈ h` is knowledge that cannot expire (an
intent was read, a preimage was seen).  `Since (Quiet p) e h` is knowledge about a part
`p` of the world that only the holder of the receive lock changes: it is up to date as
long as the program itself has neither touched `p` nor let the lock go.

The contract speaks about the program alone.  What the answers mean for the world, and
that other programs cannot spoil the second kind of knowledge, is shown in
`Knowledge.lean`.
-/
import OpenSsp.Lib.History
import OpenSsp.World

namespace OpenSsp

open Interleave

/-! ### Events -/

/-- A database method succeeded. -/
@[reducible] def dbEvent (q : Query) (a : q.Out) : Event Api := ⟨Call.db q, Except.ok a⟩

/-- A successful call of the node. -/
@[reducible] def ldkEvent (c : LdkCall) (a : c.Out) : Event Api := ⟨Call.ldk c, Except.ok a⟩

/-- A successful call of the operators. -/
@[reducible] def sparkEvent (c : SparkCall) (a : c.Out) : Event Api := ⟨Call.spark c, Except.ok a⟩

/-- A mark in the history. -/
@[reducible] def markEvent (m : Mark) : Event Api := ⟨Call.mark m, ()⟩

/-- An event the node's stream has brought. -/
@[reducible] def streamEvent (e : LnEvent) : Event Api := ⟨Call.nextEvent, some e⟩

/-- The program holds the guard of `l`. -/
def Holds (l : Lock) (h : History Api) : Prop :=
  ∃ b, Since (fun x : Event Api => x.call ≠ Call.release l) ⟨Call.acquire l b, Except.ok ()⟩ h

/-! ### The parts of the world under the receive lock -/

/-- What the lock of receives protects. -/
inductive Part where
  /-- The backend attempt bound to a receive, and its amount. -/
  | bound
  /-- The stored payout of a receive: its transfer and its preimage. -/
  | payout
  /-- The internal payer of a receive. -/
  | reservation
  /-- The receive swaps that have reached the operators. -/
  | swaps
deriving DecidableEq

/-- The part a call can change. -/
def Call.part : Call → Option Part
  | .db (.markReceiveClaimable ..) => some .bound
  | .db (.commitLightningReceiveSwap ..) => some .payout
  | .db (.commitBolt12Receive ..) => some .payout
  | .db (.reserveInternalSend ..) => some .reservation
  | .spark (.initiatePreimageSwapV3 ..) => some .swaps
  | _ => none

/-- Does the call take or give away the receive lock, or begin a piece of work? -/
def Call.handlesGuard : Call → Bool
  | .acquire .receive _ => true
  | .release .receive => true
  | .mark (.attempt ..) => true
  | .mark (.internal _) => true
  | .mark (.payOffer ..) => true
  | .mark (.expired ..) => true
  | .mark (.refund ..) => true
  | .db (.insertRequest ..) => true
  | _ => false

/-- The call may change that part. -/
def Call.touches (c : Call) (p : Part) : Bool := c.handlesGuard || c.part == some p

/-- The event leaves that part as it was. -/
def Quiet (p : Part) (e : Event Api) : Prop := e.call.touches p = false

/-- The footprint of a function that changes at most the parts `ps`. -/
def Keeps (ps : List Part) (e : Event Api) : Prop := ∀ p, p ∉ ps → Quiet p e

/-- The program is in the piece of work that `e` began. -/
def Latest (h : History Api) (e : Event Api) : Prop :=
  Since (fun x : Event Api => x.call.handlesGuard = false) e h

/-- No restriction. -/
def anyEvent (_ : Event Api) : Prop := True

/-- An event that keeps all but some parts is quiet about the others. -/
theorem Keeps.quiet {ps : List Part} {p : Part} {e : Event Api} (hp : p ∉ ps) :
    Keeps ps e → Quiet p e := fun h => h p hp

/-- Fewer parts left open, more kept. -/
theorem Keeps.mono {ps qs : List Part} {e : Event Api} (hpq : ps ⊆ qs) (h : Keeps ps e) :
    Keeps qs e := fun p hp => h p fun hmem => hp (hpq hmem)

/-- Every call of a function that touches nothing also leaves more alone. -/
theorem Keeps.widen {ps : List Part} (e : Event Api) (h : Keeps [] e) : Keeps ps e :=
  h.mono (List.nil_subset ps)

/-- A quiet event gives no guard away. -/
theorem Quiet.keeps_lock {p : Part} {e : Event Api} (h : Quiet p e) :
    e.call ≠ Call.release .receive := by
  intro he
  simp [Quiet, he, Call.touches, Call.handlesGuard] at h

theorem Quiet.keeps_work {p : Part} {e : Event Api} (h : Quiet p e) :
    e.call.handlesGuard = false := by
  simp only [Quiet, Call.touches, Bool.or_eq_false_iff] at h
  exact h.1

theorem Latest.after {p : Part} {h h' : History Api} {e : Event Api} (hl : Latest h e)
    (he : Extends (Quiet p) h h') : Latest h' e := Since.after hl (he.mono fun _ => Quiet.keeps_work)

/-- A program is in one piece of work at a time. -/
theorem Latest.unique {h : History Api} {e e' : Event Api} (hl : Latest h e) (hl' : Latest h e')
    (he : e.call.handlesGuard = true) (he' : e'.call.handlesGuard = true) : e = e' := by
  induction h with
  | nil => exact absurd hl Since.nil
  | cons x h ih =>
      rcases Since.cons_iff.mp hl with rfl | ⟨hx, hl⟩
      · rcases Since.cons_iff.mp hl' with h | ⟨hx, -⟩
        · exact h
        · exact absurd (he.symm.trans hx) (by decide)
      · rcases Since.cons_iff.mp hl' with rfl | ⟨-, hl'⟩
        · exact absurd (he'.symm.trans hx) (by decide)
        · exact ih hl hl'

theorem Holds.after {p : Part} {h h' : History Api} (hh : Holds .receive h)
    (he : Extends (Quiet p) h h') : Holds .receive h' := by
  obtain ⟨b, hb⟩ := hh
  exact ⟨b, hb.after (he.mono fun _ => Quiet.keeps_lock)⟩

theorem Holds.cons {l : Lock} {x : Event Api} {h : History Api} (hh : Holds l h)
    (hx : x.call ≠ Call.release l) : Holds l (x :: h) := hh.imp fun _ hb => hb.cons hx

/-! ### Knowledge about sends -/

/-- Two readings that agree on everything but the route CLTV cap. -/
def LightningSend.SameReading (a b : LightningSend) : Prop :=
  a = { b with maxRouteCltv := a.maxRouteCltv }

theorem LightningSend.SameReading.refl (a : LightningSend) : a.SameReading a := rfl

theorem LightningSend.SameReading.same {a b : LightningSend} (h : a.SameReading b) :
    a.SameIntent b := by
  unfold SameReading at h
  rw [h]
  exact ⟨rfl, rfl, rfl, rfl, rfl, rfl, rfl, rfl⟩

/-- The program has read the intent, or has written it. -/
inductive KnownSend (h : History Api) (send : LightningSend) : Prop
  | read (id : String) (a : LightningSend)
      (mem : dbEvent (.lightningSendForPayment id) (some a) ∈ h) (same : a.SameReading send)
  | listed (as : List LightningSend) (a : LightningSend)
      (mem : dbEvent .unresolvedLightningSends as ∈ h) (mem' : a ∈ as)
      (same : a.SameReading send)
  | prepared (a : LightningSend) (key network : String) (row : RequestRow)
      (mem : dbEvent (.prepareLightningSend a key network) row ∈ h)
      (fresh : a.paymentId = none ∧ a.status = .prepared) (same : a.SameReading send)

theorem KnownSend.after {h h' : History Api} {q : Event Api → Prop} {send : LightningSend}
    (hk : KnownSend h send) (he : Extends q h h') : KnownSend h' send := by
  cases hk with
  | read id a mem same => exact .read id a (he.mem mem) same
  | listed as a mem mem' same => exact .listed as a (he.mem mem) mem' same
  | prepared a key network row mem fresh same =>
      exact .prepared a key network row (he.mem mem) fresh same

/-- The invoice of the send is one of this SSP's own BOLT11 invoices. -/
def Local (h : History Api) (send : LightningSend) : Prop :=
  ∃ hash, dbEvent (.lightningReceiveHashForInvoice send.invoice) (some hash) ∈ h

/-- A transfer that funds a BOLT11 send of `amount` sats. -/
structure FundsBolt11 (D : Deployment) (owner outbound hash : String) (amount : Nat)
    (items : List PreimageRequest) (q : PreimageRequest) (t : Transfer) : Prop where
  mem : q ∈ items
  hash : q.paymentHash.text = lowercase hash
  transfer : q.transfer = some t
  id : t.id.print = outbound
  key : ∃ key now cap, D.parsePublicKey (lowercase owner) = .ok key ∧
    validateLightningSendTransfer D t key D.identity amount q.paymentHash now = .ok cap

/-- The operators' answer `items` shows a transfer that funds a BOLT11 send, and the check of it
at time `now` leaves a route `cap` blocks. -/
structure VerifiedHtlc (D : Deployment) (owner outbound hash : String) (amount : Nat)
    (items : List PreimageRequest) (q : PreimageRequest) (t : Transfer) (now : SystemTime)
    (cap : Nat) : Prop where
  mem : q ∈ items
  hash : q.paymentHash.text = lowercase hash
  transfer : q.transfer = some t
  id : t.id.print = outbound
  waiting : q.status = .waitingForPreimage ∧ q.preimage = none
  key : ∃ key, D.parsePublicKey (lowercase owner) = .ok key ∧
    validateLightningSendTransfer D t key D.identity amount q.paymentHash now = .ok cap

theorem VerifiedHtlc.funds {D : Deployment} {owner outbound hash : String} {amount : Nat}
    {items : List PreimageRequest} {q : PreimageRequest} {t : Transfer} {now : SystemTime}
    {cap : Nat} (hv : VerifiedHtlc D owner outbound hash amount items q t now cap) :
    FundsBolt11 D owner outbound hash amount items q t where
  mem := hv.mem
  hash := hv.hash
  transfer := hv.transfer
  id := hv.id
  key := hv.key.imp fun _ hk => ⟨now, cap, hk⟩

/-- A transfer that prepays a BOLT12 send of `amount` sats. -/
structure FundsBolt12 (D : Deployment) (owner outbound : String) (amount : Nat) (u : Uuid)
    (t : Transfer) : Prop where
  id : Uuid.parse outbound = some u
  completed : t.status = .completed
  standard : t.transferType = .transfer
  key : ∃ key, D.parsePublicKey owner = .ok key ∧
    validateTransfer t key D.identity amount = .ok ()

/-- What a prepared intent is based on. -/
inductive Funded (D : Deployment) (h : History Api) (send : LightningSend) : Prop
  | bolt11 (i : Bolt11Invoice) (items : List PreimageRequest) (q : PreimageRequest)
      (t : Transfer) (uuid : Uuid)
      (kind : send.kind = .bolt11) (invoice : D.parseInvoice send.invoice = .ok i)
      (identity : send.expectedId = i.paymentHash.text)
      (mem : sparkEvent (.queryHtlc send.outboundTransferId
        (lowercase send.expectedId) .receiver) items ∈ h)
      (funds : ∃ amount, FundsBolt11 D send.owner send.outboundTransferId send.expectedId
        amount items q t)
      (fresh : send.requestId = uuid.print ∧ send.paymentId = none ∧ send.status = .prepared)
  | bolt12 (u : Uuid) (t : Transfer) (uuid : Uuid)
      (kind : send.kind = .bolt12) (offer : isOffer send.invoice = true)
      (identity : ldkEvent (.offerId send.invoice) send.expectedId ∈ h)
      (mem : sparkEvent (.getTransfer u) (some t) ∈ h)
      (funds : FundsBolt12 D send.owner send.outboundTransferId send.amountSats u t)
      (fresh : send.requestId = uuid.print ∧ send.paymentId = none ∧ send.status = .prepared)

/-- The intent was made for this input. -/
structure LightningSend.Requests (send : LightningSend) (owner transfer invoice : String)
    (amount : Option Nat) : Prop where
  owner : send.owner = owner
  transfer : send.outboundTransferId = transfer
  invoice : send.invoice = invoice
  amount : send.amountOverride = amount

/-- The row said that the send is claimed for submission and not bound to a payment. -/
def ShowsSubmitting (send : LightningSend) : Prop :=
  send.status = .submitting ∧ send.paymentId = none

/-- The event shows that the send `id` is claimed for submission and unbound. -/
inductive Arms (id : String) : Event Api → Prop
  | begun : Arms id (dbEvent (.beginLightningSubmission id) true)
  | read (key : String) (a : LightningSend) (hid : a.requestId = id) (ha : ShowsSubmitting a) :
      Arms id (dbEvent (.lightningSendForPayment key) (some a))
  | listed (as : List LightningSend) (a : LightningSend) (mem : a ∈ as)
      (hid : a.requestId = id) (ha : ShowsSubmitting a) :
      Arms id (dbEvent .unresolvedLightningSends as)

/-- A call on the tables. -/
def OnTables (e : Event Api) : Prop := ∃ q, e.call = .db q

/-- The sats that the funding of a BOLT11 send is compared with. -/
def fundingSats (i : Bolt11Invoice) (amountOverride : Option Nat) : Option Nat :=
  (i.amountMilliSatoshis.or (amountOverride.map (· * 1000))).map fun msat => (msat + 999) / 1000

/-- The funding of a BOLT11 send was verified and allows the route cap `cltv`: the operators
were asked, then the clock was read, and only the tables have been touched since. -/
inductive RouteChecked (D : Deployment) (h : History Api) (send : LightningSend) : Prop
  | verified (i : Bolt11Invoice) (amount cap : Nat) (items : List PreimageRequest)
      (q : PreimageRequest) (t : Transfer) (now : SystemTime) (older : History Api)
      (invoice : D.parseInvoice send.invoice = .ok i)
      (sats : fundingSats i send.amountOverride = some amount)
      (htlc : VerifiedHtlc D send.owner send.outboundTransferId i.paymentHash.text amount items
        q t now cap)
      (cltv : send.maxRouteCltv = some cap)
      (chain : Extends OnTables (⟨Call.systemTime, now⟩ :: sparkEvent (.queryHtlc
        send.outboundTransferId (lowercase i.paymentHash.text) .receiver) items :: older) h)

theorem RouteChecked.after {D : Deployment} {h h' : History Api} {send : LightningSend}
    (hr : RouteChecked D h send) (he : Extends OnTables h h') : RouteChecked D h' send := by
  cases hr with
  | verified i amount cap items q t now older invoice sats htlc cltv chain =>
      exact .verified i amount cap items q t now older invoice sats htlc cltv (chain.trans he)

/-- A submission follows a successful claim at once; only BOLT11 is ever resubmitted, and
only after a look at a row that was claimed and unbound.  Whatever is not an offer has its
funding verified first. -/
structure SubmitGround (D : Deployment) (h : History Api) (send : LightningSend) : Prop where
  known : KnownSend h send
  route : isOffer send.invoice = false → RouteChecked D h send
  armed : ∃ e ∈ h, Arms send.requestId e
  once : send.kind = .bolt12 →
    ∃ older, h = dbEvent (.beginLightningSubmission send.requestId) true :: older

/-! ### Knowledge about payments -/

/-- LDK has answered with this snapshot. -/
inductive KnownPayment (h : History Api) (p : Payment) : Prop
  | asked (id : String) (mem : ldkEvent (.getPaymentDetails id) (some p) ∈ h)
  | listed (token : Option String) (page : List Payment × Option String)
      (mem : ldkEvent (.listPayments token) page ∈ h) (mem' : p ∈ page.1)

inductive SucceededPayment (h : History Api) (p : Payment) : Prop
  | known (hp : KnownPayment h p) (hs : p.status = .succeeded)
  | event (mem : streamEvent (.outboundSucceeded p) ∈ h)

inductive FailedPayment (h : History Api) (id : String) : Prop
  | known (p : Payment) (hp : KnownPayment h p) (hid : p.paymentId = id)
      (hs : p.status = .failed)
  | event (reason : Option String) (mem : streamEvent (.outboundFailed id reason) ∈ h)

/-- LDK has reported this claimable payment. -/
inductive ReportedReceive (h : History Api) (p : ClaimableReceive) : Prop
  | notified (mem : streamEvent (.inboundClaimable p) ∈ h)
  | listed (x : Payment) (hx : KnownPayment h x) (hd : x.direction = .inbound)
      (hid : x.paymentId = p.paymentId) (hhash : bolt11Hash x = some p.paymentHash)
      (hamount : bolt11ClaimableAmount x = p.amountMsat)

/-- LDK has an inbound attempt `paymentId` to pay `hash`. -/
def KnownAttempt (h : History Api) (paymentId hash : String) : Prop :=
  ∃ p, ReportedReceive h p ∧ p.paymentId = paymentId ∧ p.paymentHash = hash

/-- LDK has reported a payment of an offer. -/
inductive ReportedOffer (h : History Api) (offerId hash : String) (preimage : Option String)
    (amount : Option Nat) : Prop
  | event (mem : streamEvent (.inboundBolt12Received offerId hash preimage amount) ∈ h)
  | listed (x : Payment) (hx : KnownPayment h x) (hs : x.status = .succeeded)
      (hids : bolt12OfferIds x = some (offerId, hash)) (hp : bolt12Preimage x = preimage)
      (hamount : x.amountMsat = amount)

theorem KnownPayment.after {h h' : History Api} {q : Event Api → Prop} {p : Payment}
    (hk : KnownPayment h p) (he : Extends q h h') : KnownPayment h' p := by
  cases hk with
  | asked id mem => exact .asked id (he.mem mem)
  | listed token page mem mem' => exact .listed token page (he.mem mem) mem'

theorem ReportedReceive.after {h h' : History Api} {q : Event Api → Prop} {p : ClaimableReceive}
    (hr : ReportedReceive h p) (he : Extends q h h') : ReportedReceive h' p := by
  cases hr with
  | notified mem => exact .notified (he.mem mem)
  | listed x hx hd hid hhash hamount => exact .listed x (hx.after he) hd hid hhash hamount

theorem ReportedOffer.after {h h' : History Api} {q : Event Api → Prop} {offerId hash : String}
    {preimage : Option String} {amount : Option Nat}
    (hr : ReportedOffer h offerId hash preimage amount) (he : Extends q h h') :
    ReportedOffer h' offerId hash preimage amount := by
  cases hr with
  | event mem => exact .event (he.mem mem)
  | listed x hx hs hids hp hamount => exact .listed x (hx.after he) hs hids hp hamount

/-- The payment is bound as the submission's own answer, or as one that passed the
checks against a reading of the intent. -/
inductive BindGround (D : Deployment) (h : History Api) (requestId paymentId : String) : Prop
  | submitted (send : LightningSend) (amountMsat : Option Nat)
      (mem : ldkEvent (.submit send amountMsat) paymentId ∈ h)
      (hid : send.requestId = requestId) (known : KnownSend h send)
  | recovered (send : LightningSend) (p : Payment) (known : KnownSend h send)
      (hp : KnownPayment h p) (valid : validateSendPayment D send p = .ok ())
      (hid : send.requestId = requestId) (hpid : p.paymentId = paymentId)

/-! ### Outcomes of sends -/

/-- The operators have the preimage of the HTLC that funds a send. -/
inductive SettledFunding (h : History Api) (outbound hash : String) : Prop
  | shared (items : List PreimageRequest) (q : PreimageRequest) (t : Transfer) (p : Bytes32)
      (mem : sparkEvent (.queryHtlc outbound (lowercase hash) .receiver) items ∈ h)
      (mem' : q ∈ items) (hhash : q.paymentHash.text = lowercase hash)
      (hs : q.status = .preimageShared) (hp : q.preimage = some p)
      (ht : q.transfer = some t) (hid : t.id.print = outbound)
      (committed : fundingTransferCommitted t.status = true)
  | claimed (p : Bytes32) (t : Transfer) (mem : sparkEvent (.claimHtlc p) t ∈ h)
      (hhash : p.computeHash.text = lowercase hash) (hid : t.id.print = outbound)
      (committed : fundingTransferCommitted t.status = true)

/-- A prepayment went back to its owner. -/
def Refunded (D : Deployment) (h : History Api) (owner outbound : String) (amount : Nat) : Prop :=
  ∃ key t, D.parsePublicKey owner = .ok key ∧ validateTransfer t D.identity key amount = .ok () ∧
    (sparkEvent (.getTransfer (refundTransferId outbound)) (some t) ∈ h ∨
      sparkEvent (.transfer amount key (refundTransferId outbound)) t ∈ h)

/-- The proof of a BOLT12 send was recorded after the send was known. -/
def ProofRecorded (h : History Api) (send : LightningSend) : Prop :=
  ∃ newer older hash preimage, KnownSend older send ∧
    h = newer ++ dbEvent (.recordLightningProof send.requestId hash preimage) () :: older

/-- A send succeeds with its LDK payment, after its HTLC was settled (BOLT11) or its
proof was recorded (BOLT12). -/
structure SuccessGround (D : Deployment) (h : History Api) (id : String) (p : Payment)
    (send : LightningSend) : Prop where
  succeeded : SucceededPayment h p
  hid : p.paymentId = id
  read : dbEvent (.lightningSendForPayment id) (some send) ∈ h
  valid : validateSendPayment D send p = .ok ()
  bolt11 : ∀ hash preimage fee, p.kind = some (.bolt11 hash preimage fee) →
    SettledFunding h send.outboundTransferId hash
  bolt12 : send.kind = .bolt12 → ProofRecorded h send

/-- A send fails with its LDK payment, after its refund if it was prepaid; or because
its local invoice cannot be paid. -/
inductive FailureGround (D : Deployment) (h : History Api) (id : String) : Prop
  | payment (send : LightningSend) (failed : FailedPayment h id)
      (read : dbEvent (.lightningSendForPayment id) (some send) ∈ h)
      (refunded : send.kind = .bolt12 →
        Refunded D h send.owner send.outboundTransferId send.amountSats)
  | internal (send : LightningSend) (known : KnownSend h send) (hl : Local h send)
      (hid : send.requestId = id)

/-- What has to be known before a send takes a final status. -/
def StatusGround (D : Deployment) (h : History Api) (id : String) : SendStatus → Prop
  | .succeeded => ∃ p send, SuccessGround D h id p send
  | .failed => FailureGround D h id
  | .prepared => False
  | .submitting => False
  | _ => True

/-! ### Receives -/

/-- A payout is backed by a claimable attempt of exactly the amount, or by the internal
reservation of a sender whose funding was verified under the same guard. -/
inductive Backed (D : Deployment) (h : History Api) (hash : String) (amount : Nat) : Prop
  | attempt (paymentId : String) (msat : Nat) (hm : checkedMul amount 1000 = some msat)
      (claimable : Since (Quiet .bound)
        (dbEvent (.markReceiveClaimable hash paymentId msat) ()) h)
  | reservation (send : LightningSend) (known : KnownSend h send)
      (reserved : Since (Quiet .bound) (dbEvent (.reserveInternalSend send) ()) h)
      (hhash : send.expectedId = hash)
      (items : List PreimageRequest) (q : PreimageRequest) (t : Transfer)
      (verified : Since (Quiet .bound) (sparkEvent (.queryHtlc send.outboundTransferId
        (lowercase send.expectedId) .receiver) items) h)
      (funds : FundsBolt11 D send.owner send.outboundTransferId send.expectedId
        send.amountSats items q t)

/-- A backed receive stays backed while nothing but swaps is asked for. -/
theorem Backed.after {D : Deployment} {h h' : History Api} {hash : String} {amount : Nat}
    (hb : Backed D h hash amount) (he : Extends (Keeps [.swaps]) h h') :
    Backed D h' hash amount := by
  have hq : Extends (Quiet .bound) h h' := he.mono fun _ => Keeps.quiet (by decide)
  cases hb with
  | attempt paymentId msat hm claimable =>
      exact .attempt paymentId msat hm (claimable.after hq)
  | reservation send known reserved hhash items q t verified funds =>
      exact .reservation send (known.after he) (reserved.after hq) hhash items q t
        (verified.after hq) funds

/-- The operators have reported this transfer to a program that pays a receive out.  Lookups
and transfers serve other work as well, so these are the ones of the work on an offer. -/
inductive ReportedTransfer (h : History Api) (t : Transfer) : Prop
  | found (id : Uuid) (offerId hash : String) (newer older : History Api)
      (split : h = newer ++ sparkEvent (.getTransfer id) (some t) :: older)
      (work : Latest older (markEvent (.payOffer offerId hash)))
  | made (amount : Nat) (receiver : PublicKey) (id : Uuid) (offerId hash : String)
      (newer older : History Api)
      (split : h = newer ++ sparkEvent (.transfer amount receiver id) t :: older)
      (work : Latest older (markEvent (.payOffer offerId hash)))
  | htlc (outbound hash : String) (items : List PreimageRequest) (q : PreimageRequest)
      (mem : sparkEvent (.queryHtlc outbound hash .sender) items ∈ h)
      (mem' : q ∈ items) (ht : q.transfer = some t)
  | swapped (r : ReceiveSwapRequest) (preimage : Option Bytes32)
      (mem : sparkEvent (.initiatePreimageSwapV3 r) (preimage, some t) ∈ h)

theorem ReportedTransfer.after {h h' : History Api} {q : Event Api → Prop} {t : Transfer}
    (hr : ReportedTransfer h t) (he : Extends q h h') : ReportedTransfer h' t := by
  cases hr with
  | found id offerId hash newer older split work =>
      obtain ⟨last, rfl, -⟩ := he
      exact .found id offerId hash (last ++ newer) older (by rw [split, List.append_assoc]) work
  | made amount receiver id offerId hash newer older split work =>
      obtain ⟨last, rfl, -⟩ := he
      exact .made amount receiver id offerId hash (last ++ newer) older
        (by rw [split, List.append_assoc]) work
  | htlc outbound hash items q mem mem' ht =>
      exact .htlc outbound hash items q (he.mem mem) mem' ht
  | swapped r preimage mem => exact .swapped r preimage (he.mem mem)

/-- The payout of a receive, as far as the program checks it: the operators have reported a
transfer of the SSP to the receiver.  Its status is not looked at. -/
structure Executed (D : Deployment) (h : History Api) (transferId receiver : String)
    (amount : Nat) : Prop where
  executed : ∃ key t, D.parsePublicKey receiver = .ok key ∧ ReportedTransfer h t ∧
    t.id.print = transferId ∧ t.senderId = D.identity ∧ t.receiverId = key ∧
    t.totalValueSat = amount

/-- An executed transfer stays executed. -/
theorem Executed.after {D : Deployment} {h h' : History Api} {q : Event Api → Prop}
    {transferId receiver : String} {amount : Nat} (hx : Executed D h transferId receiver amount)
    (he : Extends q h h') : Executed D h' transferId receiver amount := by
  obtain ⟨key, t, hkey, ht, hx⟩ := hx
  exact ⟨key, t, hkey, ht.after he, hx⟩

/-- For whom a program writes to the row of a receive.  A backend attempt writes when it is
bound to the receive, or when no other attempt and no local payer is; a local payer when
the receive is reserved for it. -/
inductive WriteGround (h : History Api) (hash : String) : Prop
  | bound (id : String) (msat : Nat) (work : Latest h (markEvent (.attempt id hash)))
      (holds : Holds .receive h)
      (bound : Since (Quiet .bound) (dbEvent (.markReceiveClaimable hash id msat) ()) h)
      (free : Since (Quiet .reservation) (dbEvent (.internalSend hash) none) h)
  | unclaimed (id : String) (r : LightningReceive)
      (work : Latest h (markEvent (.attempt id hash))) (holds : Holds .receive h)
      (read : Since (Quiet .bound) (dbEvent (.lightningReceiveForHash hash) (some r)) h)
      (own : r.paymentId = none ∨ r.paymentId = some id)
      (free : Since (Quiet .reservation) (dbEvent (.internalSend hash) none) h)
  | reserved (send : LightningSend) (work : Latest h (markEvent (.internal send)))
      (hhash : send.expectedId = hash) (reserved : dbEvent (.reserveInternalSend send) () ∈ h)
  | expired (r : LightningReceive) (work : Latest h (markEvent (.expired hash r)))
  | created (id owner : String) (created : Nat) (p : ReceivePayload)
      (hhash : p.paymentHash = hash)
      (work : Latest h (dbEvent (.insertRequest id owner created (.lightningReceive p)) ()))

/-- The grounds of a write outlast the swap and the payout that follow it. -/
theorem WriteGround.after {h h' : History Api} {hash : String} (hw : WriteGround h hash)
    (he : Extends (Keeps [.swaps, .payout]) h h') : WriteGround h' hash := by
  have hb : Extends (Quiet .bound) h h' := he.mono fun _ => Keeps.quiet (by decide)
  have hr : Extends (Quiet .reservation) h h' := he.mono fun _ => Keeps.quiet (by decide)
  cases hw with
  | bound id msat work holds bound free =>
      exact .bound id msat (work.after hb) (holds.after hb) (bound.after hb) (free.after hr)
  | unclaimed id r work holds read own free =>
      exact .unclaimed id r (work.after hb) (holds.after hb) (read.after hb) own (free.after hr)
  | reserved send work hhash reserved =>
      exact .reserved send (work.after hb) hhash (he.mem reserved)
  | expired r work => exact .expired r (work.after hb)
  | created id owner created p hhash work =>
      exact .created id owner created p hhash (work.after hb)

/-- A receive is completed with the transfer of its row, or one stored for its request. -/
def RecordedTransfer (h : History Api) (r : LightningReceive) (transferId : String) : Prop :=
  r.transferId = some transferId ∨
    dbEvent (.transferForRequest r.requestId r.owner) (some transferId) ∈ h

/-- The notified amount is compared with the amount of the receive, and differs. -/
def wrongAmount (p : ClaimableReceive) (r : LightningReceive) : Bool :=
  match p.amountMsat, checkedMul r.amountSats 1000 with
  | some actual, some expected => actual != expected
  | _, _ => false

/-- Why a receive is marked failed. -/
inductive FailedWrite (h : History Api) (hash : String) : Prop
  | expired (r : LightningReceive) (holds : Holds .receive h)
      (mark : Since (Quiet .payout) (markEvent (.expired hash r)) h)
  | attempt (p : ClaimableReceive) (r : LightningReceive) (hhash : p.paymentHash = hash)
      (holds : Holds .receive h) (mark : Since (Quiet .payout) (markEvent (.claimable p r)) h)
      (accepts : Ldk.rejectsAttempt r p.paymentId = false) (hopen : r.status ≠ .transferCompleted)
      (why : wrongAmount p r = true ∨ r.transferId = none ∨ r.preimage = none)

theorem FailedWrite.after {h h' : History Api} {hash : String} (hf : FailedWrite h hash)
    (he : Extends (Keeps [.swaps]) h h') : FailedWrite h' hash := by
  have hq : Extends (Quiet .payout) h h' := he.mono fun _ => Keeps.quiet (by decide)
  cases hf with
  | expired r holds mark => exact .expired r (holds.after hq) (mark.after hq)
  | attempt p r hhash holds mark accepts hopen why =>
      exact .attempt p r hhash (holds.after hq) (mark.after hq) accepts hopen why

/-- What has to be known before a receive takes a status. -/
def ReceiveStatusGround (h : History Api) (hash : String) : ReceiveStatus → Prop
  | .transferCompleted => ∃ r transferId,
      dbEvent (.lightningReceiveForHash hash) (some r) ∈ h ∧ RecordedTransfer h r transferId
  | .htlcFailed => FailedWrite h hash
  | _ => True

/-- The row of a receive without a stored preimage, as last read under the guard. -/
structure UnpaidRow (h : History Api) (hash : String) (r : LightningReceive) : Prop where
  read : Since (Quiet .payout) (dbEvent (.lightningReceiveForHash hash) (some r)) h
  unpaid : r.transferId = none ∨ r.preimage = none

/-- The quote of the receive `b`, read after the row of the receive. -/
def QuoteRead (h : History Api) (hash : String) (r : LightningReceive) (b : Bytes32)
    (quote : Option String) : Prop :=
  ∃ newer older, h = newer ++ dbEvent (.quoteForHash b.text) quote :: older ∧
    dbEvent (.lightningReceiveForHash hash) (some r) ∈ older

/-- What has to be known before the SSP pays a receiver. -/
structure PayoutGround (D : Deployment) (h : History Api) (id : Uuid)
    (receiver hash invoice : String) (amount : Nat) (r : LightningReceive) : Prop where
  holds : Holds .receive h
  row : UnpaidRow h hash r
  receiver_eq : receiver = r.receiver
  invoice_eq : invoice = r.invoice
  amount_eq : amount = r.amountSats
  backed : Backed D h hash amount
  quoted : ∃ b quote, Bytes32.parse hash = some b ∧ QuoteRead h hash r b quote ∧
    Spark.receiveTransferIdOf b.text quote = .ok id

/-- The operators are asked for exactly what the payout function was called with. -/
structure SwapGround (D : Deployment) (h : History Api) (r : ReceiveSwapRequest)
    (receiver hash : String) : Prop where
  holds : Holds .receive h
  payout : markEvent (.swapReceive r.transferId receiver hash r.invoice r.amountSats) ∈ h
  hash_eq : Bytes32.parse hash = some r.paymentHash
  receiver_eq : D.parsePublicKey receiver = .ok r.receiver

/-- An attempt is claimed for exactly the amount of its receive, after the payout was
stored with a preimage that fits. -/
structure ClaimGround (h : History Api) (paymentId : String) (msat : Nat)
    (preimage hash : String) (r : LightningReceive) : Prop where
  read : dbEvent (.lightningReceiveForHash hash) (some r) ∈ h
  bound : dbEvent (.markReceiveClaimable hash paymentId msat) () ∈ h
  amount : checkedMul r.amountSats 1000 = some msat
  valid : validatePreimage hash preimage = .ok ()
  stored : (r.transferId ≠ none ∧ r.preimage = some preimage) ∨
    ∃ transferId, dbEvent (.commitLightningReceiveSwap hash transferId preimage
      r.requestId r.owner) () ∈ h

/-- Why an attempt is failed. -/
inductive FailGround (h : History Api) (id : String) : Prop
  | reserved (hash payer : String) (attempt : KnownAttempt h id hash)
      (read : dbEvent (.internalSend hash) (some payer) ∈ h)
  | unknown (hash : String) (attempt : KnownAttempt h id hash) (holds : Holds .receive h)
      (read : Since (Quiet .bound) (dbEvent (.lightningReceiveForHash hash) none) h)
  | rejected (p : ClaimableReceive) (r : LightningReceive) (hid : p.paymentId = id)
      (attempt : KnownAttempt h id p.paymentHash) (holds : Holds .receive h)
      (read : Since (Quiet .bound)
        (dbEvent (.lightningReceiveForHash p.paymentHash) (some r)) h)
      (mark : Since (Quiet .swaps) (markEvent (.claimable p r)) h)
      (rejects : Ldk.rejectsAttempt r id = true)
  | wrongAmount (p : ClaimableReceive) (r : LightningReceive) (hid : p.paymentId = id)
      (attempt : KnownAttempt h id p.paymentHash) (holds : Holds .receive h)
      (mark : Since (Quiet .swaps) (markEvent (.claimable p r)) h)
      (accepts : Ldk.rejectsAttempt r id = false) (hopen : r.status ≠ .transferCompleted)
      (differs : wrongAmount p r = true)
  | swapFailed (hash e : String) (attempt : KnownAttempt h id hash) (holds : Holds .receive h)
      (mark : Since (Quiet .swaps) (markEvent (.swapFailed hash e)) h)
      (definitive : isDefinitiveSwapFailure e = true)
  | expired (hash : String) (r : LightningReceive) (holds : Holds .receive h)
      (mark : Since (Quiet .swaps) (markEvent (.expired hash r)) h)
      (hid : r.paymentId = some id)

/-- An offer has been paid: one payment of at least its amount was reported, with a preimage
that fits. -/
structure OfferPaid (h : History Api) (offerId hash : String) (r : LightningReceive) : Prop where
  holds : Holds .receive h
  work : Latest h (markEvent (.payOffer offerId hash))
  read : dbEvent (.lightningReceiveForHash offerId) (some r) ∈ h
  paid : ∃ preimage amount msat, ReportedOffer h offerId hash (some preimage) (some amount) ∧
    validatePreimage hash preimage = .ok () ∧ checkedMul r.amountSats 1000 = some msat ∧
    msat ≤ amount

/-- It is paid out after it was bound to the hash of that payment. -/
structure OfferGround (h : History Api) (offerId hash : String) (r : LightningReceive) : Prop where
  paid : OfferPaid h offerId hash r
  bound : dbEvent (.bindBolt12Receive offerId hash) () ∈ h

/-- A paid offer stays paid while nobody writes the parts under the lock. -/
theorem OfferPaid.after {h h' : History Api} {offerId hash : String} {r : LightningReceive}
    (hg : OfferPaid h offerId hash r) (he : Extends (Keeps []) h h') :
    OfferPaid h' offerId hash r where
  holds := hg.holds.after (p := .bound) (he.mono fun _ => Keeps.quiet (by decide))
  work := hg.work.after (p := .bound) (he.mono fun _ => Keeps.quiet (by decide))
  read := he.mem hg.read
  paid := by
    obtain ⟨preimage, amount, msat, hr, hp⟩ := hg.paid
    exact ⟨preimage, amount, msat, hr.after he, hp⟩

/-- So do the grounds of an offer's payout. -/
theorem OfferGround.after {h h' : History Api} {offerId hash : String} {r : LightningReceive}
    (hg : OfferGround h offerId hash r) (he : Extends (Keeps []) h h') :
    OfferGround h' offerId hash r := ⟨hg.paid.after he, he.mem hg.bound⟩

/-! ### Swaps -/

/-- A counter transfer answers a primary that was found to pay this SSP in full. -/
structure CounterGround (D : Deployment) (h : History Api) (primary id : Uuid)
    (receiver : PublicKey) (text : String) (t : Transfer) : Prop where
  mark : markEvent (.fillSwap text) ∈ h
  primary_eq : Uuid.parse text = some primary
  id_eq : id = counterTransferId text
  read : sparkEvent (.getTransfer primary) (some t) ∈ h
  claimable : validateSwapPrimaryClaimable t.status = .ok ()
  paid : ∃ total, validateTransfer t receiver D.identity total = .ok ()

/-- A transfer out of the wallet is the refund of a prepayment, or pays a BOLT12
receive. -/
inductive TransferGround (D : Deployment) (h : History Api) (amount : Nat)
    (receiver : PublicKey) (id : Uuid) : Prop
  | refund (owner outbound : String) (mark : Latest h (markEvent (.refund owner outbound amount)))
      (key : D.parsePublicKey owner = .ok receiver) (hid : id = refundTransferId outbound)
  | receive (offerId hash : String) (r : LightningReceive) (quote : Option String)
      (ground : OfferGround h offerId hash r) (key : D.parsePublicKey r.receiver = .ok receiver)
      (amount_eq : amount = r.amountSats)
      (quoted : ∃ newer older, h = newer ++ dbEvent (.quoteForHash hash) quote :: older ∧
        dbEvent (.bindBolt12Receive offerId hash) () ∈ older)
      (hid : Spark.receiveTransferIdOf hash quote = .ok id)

/-! ### The contract -/

/-- What a stored request promises about its receive. -/
def StoresSound (D : Deployment) : RequestPayload → Prop
  | .lightningReceive p => (∃ s, p.paymentHash = lowercase s) ∧
      (p.paymentKind = .bolt11 → ∃ i, D.parseInvoice p.invoice = .ok i)
  | _ => True

/-- The function calls that properties speak about. -/
def MarkGround (D : Deployment) (h : History Api) : Mark → Prop
  | .claimable p r => Holds .receive h ∧ KnownAttempt h p.paymentId p.paymentHash ∧
      Since (Quiet .reservation) (dbEvent (.internalSend p.paymentHash) none) h ∧
      Since (Quiet .bound) (dbEvent (.lightningReceiveForHash p.paymentHash) (some r)) h ∧
      Since (Quiet .payout) (dbEvent (.lightningReceiveForHash p.paymentHash) (some r)) h
  | .expired hash r => Holds .receive h ∧ r.transferId = none ∧
      Since (Quiet .bound) (dbEvent (.lightningReceiveForHash hash) (some r)) h ∧
      Since (Quiet .payout) (dbEvent (.lightningReceiveForHash hash) (some r)) h
  | .swapFailed _ _ => Holds .receive h
  | .swapReceive id receiver hash invoice amount =>
      ∃ r, PayoutGround D h id receiver hash invoice amount r
  | .refund owner outbound amount => ∃ id send, FailedPayment h id ∧
      dbEvent (.lightningSendForPayment id) (some send) ∈ h ∧ send.kind = .bolt12 ∧
      send.owner = owner ∧ send.outboundTransferId = outbound ∧ send.amountSats = amount
  | _ => True

/-- Every call and what it is based on. -/
def Justified (D : Deployment) (h : History Api) : Call → Prop
  | .db (.insertRequest _ _ _ payload) => StoresSound D payload
  | .db (.prepareLightningSend send key _) => Funded D h send ∧ key ≠ ""
  | .db (.bindLightningPayment requestId paymentId) => BindGround D h requestId paymentId
  | .db (.recordLightningProof _ hash preimage) => validatePreimage hash preimage = .ok ()
  | .db (.setPayment id status) => StatusGround D h id status
  | .db (.markReceiveClaimable hash paymentId msat) => Holds .receive h ∧
      (∃ p, ReportedReceive h p ∧ p.paymentId = paymentId ∧ p.paymentHash = hash ∧
        p.amountMsat = some msat) ∧
      Since (Quiet .reservation) (dbEvent (.internalSend hash) none) h ∧
      Latest h (markEvent (.attempt paymentId hash)) ∧
      ∃ r, dbEvent (.lightningReceiveForHash hash) (some r) ∈ h
  | .db (.commitLightningReceiveSwap hash transferId preimage requestId owner) =>
      Holds .receive h ∧ validatePreimage hash preimage = .ok () ∧ WriteGround h hash ∧
      ∃ r, dbEvent (.lightningReceiveForHash hash) (some r) ∈ h ∧ requestId = r.requestId ∧
        owner = r.owner ∧ Executed D h transferId r.receiver r.amountSats
  | .db (.markReceiveClaimSubmitted hash) => WriteGround h hash
  | .db (.setReceiveStatus hash status) => WriteGround h hash ∧ ReceiveStatusGround h hash status
  | .db (.failExternalReceive hash paymentId) => Latest h (markEvent (.attempt paymentId hash))
  | .db (.insertTransfer transferId requestId kind _ owner) =>
      (kind = .lightningReceive ∧ ∃ hash r,
        dbEvent (.lightningReceiveForHash hash) (some r) ∈ h ∧ requestId = r.requestId ∧
        owner = r.owner ∧ RecordedTransfer h r transferId) ∨
      (kind ≠ .lightningReceive ∧ ∃ o created p,
        dbEvent (.insertRequest requestId o created (.leavesSwap p)) () ∈ h)
  | .db (.bindBolt12Receive offerId hash) => ∃ r, OfferPaid h offerId hash r
  | .db (.commitBolt12Receive offerId hash transferId requestId owner) =>
      ∃ r, OfferGround h offerId hash r ∧ requestId = r.requestId ∧ owner = r.owner ∧
        Executed D h transferId r.receiver r.amountSats
  | .db (.reserveInternalSend send) => Holds .receive h ∧ KnownSend h send
  | .db (.finishInternalSend send) => KnownSend h send ∧ Local h send ∧
      SettledFunding h send.outboundTransferId send.expectedId ∧
      WriteGround h send.expectedId
  | .ldk (.submit send _) => SubmitGround D h send
  | .ldk (.claimForId paymentId msat preimage) =>
      ∃ hash r, ClaimGround h paymentId msat preimage hash r
  | .ldk (.failForId id) => FailGround h id
  | .spark (.transfer amount receiver id) => TransferGround D h amount receiver id
  | .spark (.transferSwapCounter _ receiver primary _ id) =>
      ∃ text t, CounterGround D h primary id receiver text t
  | .spark (.initiatePreimageSwapV3 r) => ∃ receiver hash, SwapGround D h r receiver hash
  | .mark m => MarkGround D h m
  | _ => True

end OpenSsp
