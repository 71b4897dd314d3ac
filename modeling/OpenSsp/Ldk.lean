/-
OpenSsp/Ldk.lean

Lightning settlement (`ldk.rs`): submitting, recovering and settling sends, paying
receives from external HTLCs and from sends of the same SSP, and the reconciliation
pass.  Each function makes the calls of its source in the source's order.

Logging, delays and the reconnect loop of the event stream are left out; so are the
route parameters other than the CLTV cap, which travel inside the intent.
-/
import OpenSsp.Spark

namespace OpenSsp

open Interleave

def SendStatus.text : SendStatus → String
  | prepared => "PREPARED"
  | submitting => "SUBMITTING"
  | pending => "PENDING"
  | settling => "SETTLING"
  | refunding => "REFUNDING"
  | succeeded => "SUCCEEDED"
  | failed => "FAILED"

/-- The text `Db::payment_status` answers. -/
def statusText (status : Option SendStatus) : String := (status.map SendStatus.text).getD "UNKNOWN"

/-- `send.amount_override.map(sats_to_msats).transpose()` -/
def submittedMsat (send : LightningSend) : Except String (Option Nat) :=
  match send.amountOverride with
  | some amount => (satsToMsats amount).map some
  | none => .ok none

namespace Ldk

variable (D : Deployment)

/-! ### Submission and lookup -/

/-- `bolt11_send` or `bolt12_send`, by the kind of the send. -/
def submit (send : LightningSend) : Ssp String := do
  let amountMsat ← Ssp.ofExcept (submittedMsat send)
  Ssp.ldk (.submit send amountMsat)

/-- One payment of a page: at most one may match the intent. -/
def scanPayment (send : LightningSend) (found : Option Payment) (payment : Payment) :
    Except String (Option Payment) :=
  match validateSendPayment D send payment with
  | .ok () =>
      if found.isSome then .error "multiple LDK payments match one intent" else .ok (some payment)
  | .error _ => .ok found

/-- The page loop of `lookup`; of all the payments that are listed at most one may match. -/
def lookupPages (send : LightningSend) : Nat → Option String → Option Payment →
    Ssp (Option Payment)
  | 0, _, _ => throw "LDK lookup exceeded 100 pages"
  | n + 1, pageToken, found => do
      let page ← Ssp.ldk (.listPayments pageToken)
      let found ← Ssp.ofExcept (page.1.foldlM (scanPayment D send) found)
      match page.2 with
      | none => return found
      | some token => lookupPages send n (some token) found

/-- The id under which LDK keeps the payment: the bound one, else the hash of a BOLT11
invoice. -/
def lookupId (send : LightningSend) : Option String :=
  match send.paymentId with
  | some id => some id
  | none => if send.kind = .bolt11 then some send.expectedId else none

/-- The payment of a send, by the id the node has for it, else among all it lists. -/
def lookup (send : LightningSend) : Ssp (Option Payment) := do
  match lookupId send with
  | some id =>
      match ← Ssp.ldk (.getPaymentDetails id) with
      | none => return none
      | some payment =>
          Ssp.ofExcept (validateSendPayment D send payment)
          return some payment
  | none => lookupPages D send 100 none none

/-- A payment the node has for the send is bound to it. -/
def recoverSubmission (send : LightningSend) : Ssp (Option Payment) := do
  match ← lookup D send with
  | none => return none
  | some payment =>
      Ssp.ofExcept (validateSendPayment D send payment)
      Ssp.db (.bindLightningPayment send.requestId payment.paymentId)
      return some payment

/-- A submission that was lost is made once more: a BOLT11 payment has its hash as id. -/
def retryMissingBolt11 (send : LightningSend) : Ssp Unit := do
  if send.kind ≠ .bolt11 ∨ send.status ≠ .submitting ∨ send.paymentId.isSome then
    throw "payment needs backend reconciliation; automatic resubmission is unavailable"
  match ← Act.attempt (submit send) with
  | .ok id => Ssp.db (.bindLightningPayment send.requestId id)
  | .error error =>
      if (← recoverSubmission D send).isNone then
        Ssp.db (.lightningSubmissionError send.requestId error)

/-- A send is submitted by the one caller that takes it on. -/
def submitDurableSend (send : LightningSend) : Ssp Unit := do
  if ← Ssp.db (.beginLightningSubmission send.requestId) then
    match ← Act.attempt (submit send) with
    | .ok id => Ssp.db (.bindLightningPayment send.requestId id)
    | .error error => Ssp.db (.lightningSubmissionError send.requestId error)

/-! ### Receives -/

/-- Milliseconds between the attempts of `retry_bounded`. -/
def receiveRetryDelays : List Nat := [100, 250, 500, 1000]

/-- The SSP's swap with the receiver, under a bound when the caller has one. -/
def swapReceive (bounded : Bool) (owner paymentHash invoice : String) (amountSats : Nat) :
    Ssp LightningReceiveSwap :=
  Spark.swapForLightningReceive D bounded owner paymentHash invoice amountSats 0

/-- The node claims the HTLC with its preimage. -/
def claimReceive (paymentId : String) (amountMsat : Nat) (preimage : String) : Ssp Unit :=
  Ssp.mapErr (fun e => s!"claim Lightning receive {paymentId}: {e}")
    (Ssp.ldk (.claimForId paymentId amountMsat preimage))

/-- The node fails the HTLC. -/
def failReceive (paymentId : String) : Ssp Unit :=
  Ssp.mapErr (fun e => s!"fail Lightning receive {paymentId}: {e}")
    (Ssp.ldk (.failForId paymentId))

/-- A receive without a payout is failed at the node, then in its row. -/
def failUnfundedReceive (payment : ClaimableReceive) (delays : List Nat) : Ssp Unit := do
  match ← Act.attempt (Ssp.retryBounded (failReceive payment.paymentId) delays) with
  | .ok () =>
      let _ ← Act.attempt (Ssp.db (.setReceiveStatus payment.paymentHash .htlcFailed))
  | .error _ => pure ()

/-- The Spark payout of a claimable receive whose row has none yet; answers the
committed preimage. -/
def fundReceive (payment : ClaimableReceive) (receive : LightningReceive) (delays : List Nat) :
    Ssp (Option String) := do
  let paymentHash := payment.paymentHash
  match ← Act.attempt (Ssp.retryBounded
      (swapReceive D true receive.receiver paymentHash receive.invoice receive.amountSats)
      delays) with
  | .error error =>
      Ssp.mark (.swapFailed paymentHash error)
      Ssp.db (.setReceiveStatus paymentHash .transferCreationFailed)
      -- a connection error can hide a successful operator commit
      if isDefinitiveSwapFailure error then failUnfundedReceive payment delays
      throw s!"Spark receive swap failed: {error}"
  | .ok swap =>
      match validatePreimage paymentHash swap.preimage with
      | .error error =>
          Ssp.db (.setReceiveStatus paymentHash .preimageRecoveryFailed)
          throw error
      | .ok () =>
          Ssp.db (.commitLightningReceiveSwap paymentHash swap.transferId swap.preimage
            receive.requestId receive.owner)
          return some swap.preimage

/-- Does the notified attempt compete with the receive's own state? -/
def rejectsAttempt (receive : LightningReceive) (paymentId : String) : Bool :=
  receive.paymentId.any (· != paymentId) || receive.status == .htlcFailed ||
    (receive.status == .transferCompleted && receive.paymentId != some paymentId)

/-- Process one claimable receive under the lock the event stream and the reconciler
share.  The database checkpoint separates the operator commit from the LDK claim. -/
def processStandardReceive (payment : ClaimableReceive) (delays : List Nat) : Ssp Bool :=
  Ssp.locked .receive false do
    let paymentHash := payment.paymentHash
    let paymentId := payment.paymentId
    Ssp.mark (.attempt paymentId paymentHash)
    if (← Ssp.db (.internalSend paymentHash)).isSome then
      Ssp.retryBounded (failReceive paymentId) delays
      return true
    match ← Ssp.db (.lightningReceiveForHash paymentHash) with
    | none =>
        Ssp.retryBounded (failReceive paymentId) delays
        return false
    | some receive =>
        Ssp.mark (.claimable payment receive)
        if rejectsAttempt receive paymentId then
          Ssp.retryBounded (failReceive paymentId) delays
          return true
        if receive.status = .transferCompleted then return true
        let expectedMsat ← Ssp.ofExcept
          (okOr "Lightning receive amount is too large" (checkedMul receive.amountSats 1000))
        let actualMsat ← Ssp.ofExcept
          (okOr "claimable Lightning payment has no amount" payment.amountMsat)
        Ssp.db (.markReceiveClaimable paymentHash paymentId actualMsat)
        if actualMsat ≠ expectedMsat then
          failUnfundedReceive payment delays
          throw s!"claimable amount is {actualMsat} msat; expected {expectedMsat} msat"
        let preimage ← if receive.transferId.isNone ∨ receive.preimage.isNone then
            fundReceive D payment receive delays
          else pure receive.preimage
        if receive.claimSubmitted then return true
        let preimage ← Ssp.ofExcept (okOr "committed Spark receive has no preimage" preimage)
        Ssp.ofExcept (validatePreimage paymentHash preimage)
        Ssp.retryBounded (claimReceive paymentId actualMsat preimage) delays
        Ssp.db (.markReceiveClaimSubmitted paymentHash)
        return true

/-- The funding of a send, as the operators have it now. -/
def verifySender (send : LightningSend) : Ssp Unit := do
  let _ ← Spark.verifyLightningSend D send.owner send.outboundTransferId send.expectedId
    send.amountSats

/-- The SSP takes the funding of a send with the payment's preimage. -/
def settleSender (send : LightningSend) (preimage : String) : Ssp Unit :=
  Spark.settleLightningSend send.outboundTransferId send.expectedId preimage

/-- Settle a send whose invoice this SSP issued, without a Lightning payment. -/
def processInternalSend (send : LightningSend) : Ssp Unit :=
  Ssp.locked .receive false do
    Ssp.mark (.internal send)
    let status := statusText (← Ssp.db (.paymentStatus send.requestId))
    if status = "SUCCEEDED" ∨ status = "FAILED" then return ()
    match ← Act.attempt (Ssp.db (.reserveInternalSend send)) with
    | .error error =>
        -- no operator call was made: the sender's transfer returns by its own expiry
        Ssp.db (.setPayment send.requestId .failed)
        throw error
    | .ok () =>
        let receive ← Ssp.ofExcept (okOr "local receive missing"
          (← Ssp.db (.lightningReceiveForHash send.expectedId)))
        let preimage ← match receive.preimage with
          | some preimage => pure preimage
          | none => do
              verifySender D send
              let swap ← swapReceive D false receive.receiver send.expectedId receive.invoice
                receive.amountSats
              Ssp.ofExcept (validatePreimage send.expectedId swap.preimage)
              Ssp.db (.commitLightningReceiveSwap send.expectedId swap.transferId swap.preimage
                receive.requestId receive.owner)
              pure swap.preimage
        Ssp.ofExcept (validatePreimage send.expectedId preimage)
        settleSender send preimage
        Ssp.db (.finishInternalSend send)

/-! ### Preparing and driving sends -/

/-- Verify the Spark funding for a send. -/
def verifyLightningSendFunding (owner outboundTransferId invoice : String)
    (amountSats : Option Nat) : Ssp (Option Nat) := do
  if isOffer invoice then
    let amountSats ← Ssp.ofExcept (okOr "BOLT12 sends require amount_sats" amountSats)
    if amountSats = 0 then throw "Lightning send amount must be positive"
    Spark.verifyBolt12Send D owner outboundTransferId amountSats
    return none
  let decoded ← Ssp.ofExcept ((D.parseInvoice invoice).mapError fun e => s!"decode invoice: {e}")
  let amountMsat ← match decoded.amountMilliSatoshis with
    | some value =>
        if amountSats.isSome then throw "amount_sats is only valid for zero-amount invoices"
        pure value
    | none => do
        let amountSats ← Ssp.ofExcept (okOr "zero-amount invoice needs amount_sats" amountSats)
        Ssp.ofExcept (satsToMsats amountSats)
  let rounded ← Ssp.ofExcept (okOr "invoice amount is too large" (checkedAdd amountMsat 999))
  let totalSats := rounded / 1000
  if totalSats = 0 then throw "Lightning send amount must be positive"
  return some (← Spark.verifyLightningSend D owner outboundTransferId decoded.paymentHash.text
    totalSats)

/-- What the invoice or offer says the send is: its kind, identity and amount. -/
def decodeSend (invoice : String) (amount : Option Nat) : Ssp (SendKind × String × Nat) := do
  if isOffer invoice then
    let offerId ← Ssp.ldk (.offerId invoice)
    let total ← Ssp.ofExcept (okOr "BOLT12 sends require amount_sats" amount)
    return (.bolt12, offerId, total)
  let decoded ← Ssp.ofExcept (D.parseInvoice invoice)
  if ¬ sendNetworkMatches decoded.network D.invoiceNetwork then
    throw "Lightning invoice network mismatch"
  if decoded.expiresAt < (← Ssp.tell .now) then throw "Lightning invoice expired"
  let sats ← Ssp.ofExcept (okOr "zero-amount invoice needs amount_sats"
    ((decoded.amountMilliSatoshis.map fun a => (a + 999) / 1000).or amount))
  return (.bolt11, decoded.paymentHash.text, sats)

/-- The checks of a new send: its invoice, its amount and the transfer that funds it. -/
def prepareSend (owner transfer invoice : String) (amount : Option Nat) : Ssp LightningSend := do
  if (Uuid.parse transfer).isNone then throw "invalid Spark funding transfer ID"
  let (kind, expectedId, total) ← decodeSend D invoice amount
  let _ ← Ssp.ofExcept (satsToMsats total)
  let maxRouteCltv ← verifyLightningSendFunding D owner transfer invoice amount
  let id ← Ssp.tell .newUuid
  return { requestId := id.print, owner := owner, outboundTransferId := transfer,
           invoice := invoice, amountSats := total, amountOverride := amount, kind := kind,
           expectedId := expectedId, maxRouteCltv := maxRouteCltv, paymentId := none,
           status := .prepared }

/-- Re-verify a send's Spark funding and return the intent with the route CLTV cap that
funding allows at this moment. -/
def refreshRouteCltv (send : LightningSend) : Ssp LightningSend := do
  let maxRouteCltv ← verifyLightningSendFunding D send.owner send.outboundTransferId
    send.invoice send.amountOverride
  if maxRouteCltv ≠ send.maxRouteCltv then
    Ssp.db (.setLightningSendRouteCltv send.requestId maxRouteCltv)
  return { send with maxRouteCltv := maxRouteCltv }

/-- An invoice of this service is paid inside, any other is submitted. -/
def submitSend (send : LightningSend) : Ssp Unit := do
  if (← Ssp.db (.lightningReceiveHashForInvoice send.invoice)).isSome then
    processInternalSend D send
  else if send.status ≠ .prepared then return ()
  else
    let send ← refreshRouteCltv D send
    submitDurableSend send

/-! ### Outcomes of sends -/

/-- The proof of a payment settles its funding before the send ends. -/
def settleSucceededPayment (payment : Payment) : Ssp Unit := do
  let send ← Ssp.ofExcept
    (okOr s!"no Lightning send request for payment {payment.paymentId}"
      (← Ssp.db (.lightningSendForPayment payment.paymentId)))
  Ssp.ofExcept (validateSendPayment D send payment)
  match payment.kind with
  | none => throw s!"payment {payment.paymentId} has no payment kind"
  | some (.bolt11 hash preimage _) =>
      let preimage ← Ssp.ofExcept
        (okOr s!"payment {payment.paymentId} succeeded without a preimage" preimage)
      Spark.settleLightningSend send.outboundTransferId hash preimage
  | some (.bolt12Offer _ hash preimage _) =>
      if send.kind ≠ .bolt12 then
        throw s!"payment {payment.paymentId} has an unexpected payment kind"
      let hash ← Ssp.ofExcept
        (okOr s!"payment {payment.paymentId} succeeded without a hash" hash)
      let preimage ← Ssp.ofExcept
        (okOr s!"payment {payment.paymentId} succeeded without a preimage" preimage)
      Ssp.ofExcept (validatePreimage hash preimage)
      Ssp.db (.recordLightningProof send.requestId hash preimage)
  | some .other => throw s!"payment {payment.paymentId} has an unexpected payment kind"
  Ssp.db (.setPayment payment.paymentId .succeeded)

/-- An offer's funding is returned before its send ends. -/
def failManagedPayment (paymentId : String) (reason : Option String) : Ssp Unit := do
  match ← Ssp.db (.lightningSendForPayment paymentId) with
  | none => return ()
  | some send =>
      if send.status = .succeeded then return ()
      Ssp.db (.recordLightningFailure paymentId reason)
      if send.status = .failed then return ()
      if send.kind = .bolt12 then
        Ssp.db (.setPayment paymentId .refunding)
        let _ ← Spark.refundBolt12Send D send.owner send.outboundTransferId send.amountSats
      Ssp.db (.setPayment paymentId .failed)

/-- Ask LDK for a payment and settle or fail the send it belongs to; never an error. -/
def observePayment (paymentId : String) : Ssp String := do
  let cached ← match ← Act.attempt (Ssp.db (.paymentStatus paymentId)) with
    | .ok status => pure (statusText status)
    | .error _ => pure ""
  match ← Act.attempt (Ssp.ldk (.getPaymentDetails paymentId)) with
  | .ok (some payment) =>
      match payment.status with
      | .succeeded =>
          if cached = "SUCCEEDED" then return cached
          match ← Act.attempt (settleSucceededPayment D payment) with
          | .ok () => return "SUCCEEDED"
          | .error _ =>
              let _ ← Act.attempt (Ssp.db (.setPayment paymentId .settling))
              return "SETTLING"
      | .failed =>
          match ← Act.attempt (failManagedPayment D payment.paymentId none) with
          | .ok () => return "FAILED"
          | .error _ => return "REFUNDING"
      | .pending => return if cached = "" ∨ cached = "UNKNOWN" then "PENDING" else cached
  | _ => return cached

/-- One round of a send that is not final. -/
def recoverSend (send : LightningSend) : Ssp Unit := do
  if send.status = .succeeded ∨ send.status = .failed then return ()
  if (← Ssp.db (.lightningReceiveHashForInvoice send.invoice)).isSome then
    processInternalSend D send
  else if send.status = .prepared then submitSend D send
  else
    match ← recoverSubmission D send with
    | some payment =>
        let _ ← observePayment D payment.paymentId
    | none =>
        if send.kind = .bolt11 ∧ send.status = .submitting ∧ send.paymentId.isNone then
          let send ← refreshRouteCltv D send
          retryMissingBolt11 D send
        else
          Ssp.db (.lightningSubmissionError send.requestId "LDK has no matching payment; inspect the backend and its event log. This intent will not be resubmitted without an idempotent backend contract.")

/-! ### Outcomes of receives -/

/-- How `{:?}` prints an optional amount. -/
def debugOption : Option Nat → String
  | some n => s!"Some({n})"
  | none => "None"

/-- A paid offer is bound to its hash, paid out and committed, all under the lock. -/
def finishBolt12Receive (offerId paymentHash : String) (preimage : Option String)
    (amountMsat : Option Nat) : Ssp Unit :=
  Ssp.locked .receive false do
    Ssp.mark (.payOffer offerId paymentHash)
    match ← Ssp.db (.lightningReceiveForHash offerId) with
    | none => return ()
    | some receive =>
        if receive.status = .transferCompleted then return ()
        let expectedMsat ← Ssp.ofExcept
          (okOr "BOLT12 receive amount is too large" (checkedMul receive.amountSats 1000))
        if ¬ amountMsat.any (fun amount => expectedMsat ≤ amount) then
          throw s!"BOLT12 receive has {debugOption amountMsat} msat; expected at least {expectedMsat}"
        let preimage ← Ssp.ofExcept
          (okOr "BOLT12 receive succeeded without a preimage" preimage)
        Ssp.ofExcept (validatePreimage paymentHash preimage)
        Ssp.db (.bindBolt12Receive offerId paymentHash)
        Ssp.db (.recordLightningProof receive.requestId paymentHash preimage)
        let transferId ← Spark.settleLightningReceive D receive.receiver paymentHash
          receive.amountSats
        Ssp.db (.commitBolt12Receive offerId paymentHash transferId receive.requestId
          receive.owner)

/-- Whether the payment belongs to a send. -/
def isManagedOutbound (paymentId : String) : Ssp Bool := do
  return (← Ssp.db (.lightningSendForPayment paymentId)).isSome

/-- A received payment ends its receive, when it is the one that was bound. -/
def finishReceivedPayment (paymentId paymentHash : String) : Ssp Bool :=
  Ssp.locked .receive false do
    Ssp.mark (.attempt paymentId paymentHash)
    if (← Ssp.db (.internalSend paymentHash)).isSome then return true
    match ← Ssp.db (.lightningReceiveForHash paymentHash) with
    | none => return false
    | some receive =>
        if receive.paymentId.any (· != paymentId) then
          throw "received payment does not match the bound backend ID"
        let transferId ← match receive.transferId with
          | some id => pure id
          | none => do
              let found ← Ssp.db (.transferForRequest receive.requestId receive.owner)
              Ssp.ofExcept (okOr "Lightning settled before its Spark transfer" found)
        Ssp.db (.insertTransfer transferId receive.requestId .lightningReceive
          .transferCompleted receive.owner)
        Ssp.db (.setReceiveStatus paymentHash .transferCompleted)
        return true

/-- A claimable HTLC, with the delays of the worker. -/
def processInboundClaimable (payment : ClaimableReceive) : Ssp Bool :=
  processStandardReceive D payment receiveRetryDelays

/-! ### Reconciliation -/

/-- One round of a send; its error is kept beside it. -/
def reconcileSend (send : LightningSend) : Ssp Unit := do
  match ← Act.attempt (recoverSend D send) with
  | .ok () => pure ()
  | .error error => Ssp.db (.lightningSubmissionError send.requestId error)

/-- A listed outbound payment. -/
def reconcileOutbound (payment : Payment) : Ssp Unit := do
  if ← isManagedOutbound payment.paymentId then
    match payment.status with
    | .succeeded =>
        match ← Act.attempt (settleSucceededPayment D payment) with
        | .ok () => pure ()
        | .error _ => Ssp.db (.setPayment payment.paymentId .settling)
    | .failed => failManagedPayment D payment.paymentId none
    | .pending => Ssp.db (.setPayment payment.paymentId .pending)

/-- A listed inbound payment. -/
def reconcileInbound (payment : Payment) (paymentHash : String) : Ssp Unit := do
  if (← Ssp.db (.lightningReceiveForHash paymentHash)).isNone then return ()
  match payment.status with
  | .succeeded =>
      let _ ← Act.attempt (finishReceivedPayment payment.paymentId paymentHash)
  | .failed =>
      Ssp.locked .receive false do
        Ssp.mark (.attempt payment.paymentId paymentHash)
        Ssp.db (.failExternalReceive paymentHash payment.paymentId)
  | .pending =>
      let _ ← Act.attempt (processInboundClaimable D
        { paymentId := payment.paymentId, paymentHash := paymentHash,
          amountMsat := bolt11ClaimableAmount payment })

/-- A listed payment. -/
def reconcilePayment (payment : Payment) : Ssp Unit := do
  if payment.direction = .outbound then reconcileOutbound D payment
  else
    match bolt12OfferIds payment with
    | some (offerId, paymentHash) =>
        if payment.status = .succeeded then
          let _ ← Act.attempt (finishBolt12Receive D offerId paymentHash
            (bolt12Preimage payment) payment.amountMsat)
    | none =>
        match bolt11Hash payment with
        | some paymentHash => reconcileInbound D payment paymentHash
        | none => pure ()

/-- The page loop of `reconcile_payments`, with its bound of 100 pages. -/
def reconcilePages : Nat → Option String → Ssp Unit
  | 0, _ => throw "ldk payment reconciliation exceeded 100 pages"
  | n + 1, pageToken => do
      let page ← Ssp.ldk (.listPayments pageToken)
      Act.forEach (reconcilePayment D) page.1
      match page.2 with
      | none => pure ()
      | some token => reconcilePages n (some token)

/-- Expire one receive of the sweep's list, rechecked under the lock because the list
can be stale. -/
def expireReceive (paymentHash : String) : Ssp Unit :=
  Ssp.locked .receive false do
    match ← Ssp.db (.lightningReceiveForHash paymentHash) with
    | none => return ()
    | some receive =>
        if (← Ssp.db (.internalSend paymentHash)).isSome then return ()
        if receive.transferId.isSome then return ()
        if receive.status = .transferCompleted ∨ receive.status = .htlcFailed then return ()
        if (← Ssp.db (.transferForRequest receive.requestId receive.owner)).isSome then return ()
        Ssp.mark (.expired paymentHash receive)
        match receive.paymentId with
        | some id =>
            match ← Act.attempt (Ssp.retryBounded (failReceive id) receiveRetryDelays) with
            | .ok () => Ssp.db (.setReceiveStatus paymentHash .htlcFailed)
            | .error _ => pure ()
        | none => Ssp.db (.setReceiveStatus paymentHash .htlcFailed)

/-- One pass: the sends that are not final, what the node lists, and the receives whose time is
over. -/
def reconcilePayments : Ssp Unit := do
  let sends ← Ssp.db .unresolvedLightningSends
  Act.forEach (reconcileSend D) sends
  reconcilePages D 100 none
  let now ← Ssp.tell .now
  let hashes ← Ssp.db (.expiredReceiveHashes now)
  Act.forEach expireReceive hashes

/-! ### Client queries, invoices, events -/

/-- The status of a send, after one more round of it. -/
def reconcileRequest (id : String) : Ssp String := do
  let send ← Ssp.ofExcept (okOr "Lightning send request not found"
    (← Ssp.db (.lightningSendForPayment id)))
  recoverSend D send
  return statusText (← Ssp.db (.paymentStatus send.requestId))

/-- A client's status poll; never an error. -/
def paymentStatus (paymentId : String) : Ssp String := do
  let cached ← match ← Act.attempt (Ssp.db (.paymentStatus paymentId)) with
    | .ok status => pure (statusText status)
    | .error _ => pure ""
  match ← Act.attempt (Ssp.db (.lightningSendForPayment paymentId)) with
  | .ok (some send) =>
      let _ ← Act.attempt (recoverSend D send)
      match ← Act.attempt (Ssp.db (.paymentStatus send.requestId)) with
      | .ok status => return statusText status
      | .error _ => return cached
  | _ => return cached

/-- An invoice of the node, checked against what it was asked for. -/
def createInvoice (amountSats : Nat) (paymentHash memo : String) (expirySecs : Nat) :
    Ssp String := do
  let amountMsat ← Ssp.ofExcept (satsToMsats amountSats)
  let invoice ← Ssp.retryBounded
    (Ssp.ldk (.receiveForHash amountMsat paymentHash memo expirySecs)) receiveRetryDelays
  Ssp.ofExcept (validateCreatedInvoice D invoice paymentHash amountSats)
  return invoice

/-- The offer and its id, in lower case. -/
def createBolt12Offer (amountSats : Nat) (memo : String) (expirySecs : Nat) :
    Ssp (String × String) := do
  let amountMsat ← Ssp.ofExcept (satsToMsats amountSats)
  let response ← Ssp.mapErr (fun e => s!"create BOLT12 offer: {e}")
    (Ssp.ldk (.bolt12Receive amountMsat memo expirySecs))
  return (response.1, lowercase response.2)

/-- Apply one event; errors are logged and dropped. -/
def applyLnEvent : LnEvent → Ssp Unit
  | .outboundSucceeded payment => do
      match ← Act.attempt (isManagedOutbound payment.paymentId) with
      | .ok true =>
          match ← Act.attempt (settleSucceededPayment D payment) with
          | .ok () => pure ()
          | .error _ =>
              let _ ← Act.attempt (Ssp.db (.setPayment payment.paymentId .settling))
      | _ => pure ()
  | .outboundFailed paymentId reason => do
      match ← Act.attempt (isManagedOutbound paymentId) with
      | .ok true =>
          let _ ← Act.attempt (failManagedPayment D paymentId reason)
      | _ => pure ()
  | .inboundClaimable payment => do
      let _ ← Act.attempt (processInboundClaimable D payment)
  | .inboundReceived paymentId paymentHash => do
      let _ ← Act.attempt (finishReceivedPayment paymentId paymentHash)
  | .inboundBolt12Received offerId paymentHash preimage amountMsat => do
      let _ ← Act.attempt (finishBolt12Receive D offerId paymentHash preimage amountMsat)

/-- One turn of the event pump.  The embedded node stores a failure reason before it
applies the event, and keeps the event when that fails. -/
def eventPump (embedded : Bool) : Ssp Unit := do
  match ← Ssp.tell .nextEvent with
  | none => pure ()
  | some event =>
      match embedded, event with
      | true, .outboundFailed paymentId reason =>
          match ← Act.attempt (Ssp.db (.recordLightningFailure paymentId reason)) with
          | .ok () => applyLnEvent D event
          | .error _ => pure ()
      | _, _ => applyLnEvent D event

end Ldk

end OpenSsp
