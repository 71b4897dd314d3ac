/-
OpenSsp/Graphql.lean

The request handlers that reach settlement (`graphql.rs`): `RequestLightningSend`,
`RequestLightningReceive`, `RequestBolt12Receive`, `RequestSwap`, the client's status
polls, and the two background tasks, all collected in `Request`.

The session owner is part of the request: authentication is a separate matter.  Of a
response only what the handler computes is kept, not its JSON shape.
-/
import OpenSsp.Ldk

namespace OpenSsp

open Interleave

namespace Graphql

variable (D : Deployment)

/-! ### Input checks -/

def validateSats (amount : Nat) : Except String Unit := do
  if amount = 0 then throw "amount_sats must be positive"
  let _ ← okOr "amount_sats is too large" (checkedMul amount 1000)

def validateNetwork (requested : String) : Except String Unit :=
  if requested = "" ∨ requested = D.networkName then .ok ()
  else .error s!"network mismatch: configured {D.networkName}, requested {requested}"

/-- The receiver a request names, in the canonical form of its key. -/
def requestedReceiver (owner requested : String) : Except String String :=
  if requested = "" then .ok owner
  else match D.parsePublicKey requested with
    | .ok key => .ok key.serialized
    | .error _ => .error "receiver_identity_pubkey must be a compressed public key"

def isHex (s : String) : Bool := s.toList.all fun c => (hexValue c).isSome

/-- `expiry_secs`, a day by default. -/
def expirySecs (requested : Option Nat) : Except String Nat := do
  let expiry := requested.getD 86400
  if 2 ^ 32 ≤ expiry then throw "expiry_secs is out of range"
  if expiry = 0 then throw "expiry_secs must be positive"
  return expiry

/-- Insert a user-request row and return its id.  Swap payloads hold operator data and
have no size limit. -/
def storeRequest (owner : String) (now : Nat) (payload : RequestPayload) : Ssp String := do
  match payload with
  | .leavesSwap _ => pure ()
  | _ => if ← Ssp.tell (.oversized payload) then throw "request payload is too large"
  let id ← Ssp.tell .newUuid
  Ssp.db (.insertRequest id.print owner now payload)
  return id.print

/-! ### Sends -/

/-- The request id and the status a send request reports. -/
def sendResponseFromRecord (record : RequestRow) : Ssp (String × String) := do
  Ssp.db (.requestUpdatedAt record.id)
  let paymentId := match record.payload with
    | .lightningSend p => p.paymentId
    | _ => ""
  match ← Ldk.paymentStatus D paymentId with
  | "SUCCEEDED" => return (record.id, "LIGHTNING_PAYMENT_SUCCEEDED")
  | "FAILED" => return (record.id, "LIGHTNING_PAYMENT_FAILED")
  | _ => return (record.id, "LIGHTNING_PAYMENT_INITIATED")

structure SendInput where
  encodedInvoice : String
  amountSats : Option Nat
  userOutboundTransferExternalId : String
  idempotencyKey : String
deriving DecidableEq

/-- Does a stored request answer this input? -/
def samePayment (record : RequestRow) (input : SendInput) : Bool :=
  match record.payload with
  | .lightningSend p => p.encodedInvoice == input.encodedInvoice &&
      p.userOutboundTransferExternalId == input.userOutboundTransferExternalId &&
      p.amountSats == input.amountSats
  | _ => false

def requestLightningSend (owner : String) (input : SendInput) : Ssp (String × String) := do
  if input.encodedInvoice = "" then throw "encoded_invoice is required"
  if input.userOutboundTransferExternalId = "" then
    throw "user_outbound_transfer_external_id is required"
  let idem := if input.idempotencyKey = "" then input.userOutboundTransferExternalId
    else input.idempotencyKey
  Ssp.locked .send false do
    match ← Ssp.db (.findByIdempotency owner idem) with
    | some record =>
        if ¬ samePayment record input then
          throw "idempotency key was already used for another payment"
        match ← Ssp.db (.lightningSendForPayment record.id) with
        | some send => Ldk.submitSend D send
        | none => pure ()
        sendResponseFromRecord D record
    | none =>
        let send ← Ldk.prepareSend D owner input.userOutboundTransferExternalId
          input.encodedInvoice input.amountSats
        let record ← Ssp.db (.prepareLightningSend send idem D.networkName)
        Ldk.submitSend D send
        sendResponseFromRecord D record

/-! ### Receives -/

structure ReceiveInput where
  amountSats : Nat
  network : String
  paymentHash : String
  receiverIdentityPubkey : String
  memo : String
  expirySecs : Option Nat
  committedQuote : Option String
deriving DecidableEq

def requestLightningReceive (owner : String) (input : ReceiveInput) : Ssp String := do
  let now ← Ssp.tell .now
  Ssp.ofExcept (validateSats input.amountSats)
  Ssp.ofExcept (validateNetwork D input.network)
  let hash := lowercase input.paymentHash
  if hash.length ≠ 64 ∨ ¬ isHex hash then throw "payment_hash must be 32 bytes hex"
  if (← Ssp.db (.lightningReceiveForHash hash)).isSome then
    throw "payment_hash already has a Lightning receive request"
  let receiver ← Ssp.ofExcept (requestedReceiver D owner input.receiverIdentityPubkey)
  let quoteTransferId ← Ssp.validateQuote owner receiver hash input.amountSats
    input.committedQuote
  let expiry ← Ssp.ofExcept (expirySecs input.expirySecs)
  let invoice ← Ssp.mapErr (fun e => s!"ldk create_invoice: {e}")
    (Ldk.createInvoice D input.amountSats hash input.memo expiry)
  let id ← storeRequest owner now (.lightningReceive
    { amountSats := input.amountSats, paymentHash := hash, paymentKind := .bolt11,
      invoice := invoice, expirySecs := expiry, receiverIdentityPubkey := receiver,
      quoteTransferId := quoteTransferId })
  Ssp.db (.setReceiveStatus hash .invoiceCreated)
  return id

def requestBolt12Receive (owner : String) (input : ReceiveInput) : Ssp String := do
  let now ← Ssp.tell .now
  Ssp.ofExcept (validateSats input.amountSats)
  Ssp.ofExcept (validateNetwork D input.network)
  let receiver ← Ssp.ofExcept (requestedReceiver D owner input.receiverIdentityPubkey)
  let expiry ← Ssp.ofExcept (expirySecs input.expirySecs)
  let (offer, offerId) ← Ldk.createBolt12Offer input.amountSats input.memo expiry
  let id ← storeRequest owner now (.lightningReceive
    { amountSats := input.amountSats, paymentHash := offerId, paymentKind := .bolt12,
      invoice := offer, expirySecs := expiry, receiverIdentityPubkey := receiver,
      quoteTransferId := none })
  Ssp.db (.setReceiveStatus offerId .invoiceCreated)
  return id

/-! ### Swaps -/

structure SwapInput where
  totalAmountSats : Nat
  userOutboundTransferExternalId : String
  adaptorPubkey : String
  targetAmountSats : List Nat
deriving DecidableEq

def maxSwapTargets : Nat := 32

def requestSwap (owner : String) (input : SwapInput) : Ssp String := do
  let now ← Ssp.tell .now
  let total := input.totalAmountSats
  if total = 0 then throw "swap total must be positive"
  if D.identity.serialized ≠ "" ∧ owner = D.identity.serialized then
    throw "NEEDS_TOPUP: SSP ladder depleted, top up liquidity"
  if 0 < D.maxSwapTotalSats ∧ D.maxSwapTotalSats < total then
    throw s!"swap total {total} exceeds operator cap {D.maxSwapTotalSats}"
  let extId := input.userOutboundTransferExternalId
  if extId = "" then throw "user_outbound_transfer_external_id is required"
  if input.adaptorPubkey.length ≠ 66 ∨ ¬ isHex input.adaptorPubkey then
    throw "adaptor_pubkey must be a compressed public key"
  if maxSwapTargets < input.targetAmountSats.length then
    throw s!"target_amount_sats accepts at most {maxSwapTargets} targets"
  let target ← Ssp.ofExcept (Spark.checkedSum "target amount overflow" input.targetAmountSats)
  if total < D.feeFlatSatsSwap then throw "swap fee exceeds total"
  let payoutTotal := total - D.feeFlatSatsSwap
  if payoutTotal < target then throw "target amounts plus fee exceed swap total"
  let fill ← Spark.fillSwap D owner extId input.adaptorPubkey input.targetAmountSats total
    payoutTotal
  let id ← storeRequest owner now (.leavesSwap
    { totalAmountSats := total, targetAmountSats := target, feeSats := D.feeFlatSatsSwap,
      inboundTransferSparkId := fill.transferId, outboundTransferSparkId := extId })
  Ssp.db (.insertTransfer fill.transferId id .counterSwap .created owner)
  Ssp.db (.insertTransfer extId id .transfer .created owner)
  Ssp.db (.requestUpdatedAt id)
  return id

end Graphql

/-! ### Withdrawals and deposit claims

These services have tables and calls of their own (`Coop.machine`, `Deposit.machine`).  Here
is what they write to the shared tables, without the checks that come first, so that it can
happen at any time. -/

/-- A withdrawal or a claim is stored, with its request. -/
def Service.storeRecord (service : Service) (owner transferId : String) : Ssp Unit := do
  let now ← Ssp.tell .now
  let id ← Ssp.tell .newUuid
  Ssp.db (.insertRequest id.print owner now (.service ⟨service, transferId⟩))

/-- Its transfer is entered: by `advance`, as often as the record is taken up, or together with
the update of a claim. -/
def Service.storeTransfer (requestId : String) : Ssp Unit := Ssp.db (.enterTransfer requestId)

/-- A withdrawal has succeeded. -/
def Service.storeSuccess (requestId : String) : Ssp Unit := Ssp.db (.completeTransfer requestId)

/-! ### Everything that can start -/

inductive Request where
  | lightningSend (owner : String) (input : Graphql.SendInput)
  | lightningReceive (owner : String) (input : Graphql.ReceiveInput)
  | bolt12Receive (owner : String) (input : Graphql.ReceiveInput)
  | swap (owner : String) (input : Graphql.SwapInput)
  /-- A client asks for the status of one of its sends. -/
  | paymentStatus (paymentId : String)
  /-- An operator command asks for one send to be recovered. -/
  | reconcileRequest (id : String)
  /-- A client's withdrawal or deposit claim is stored. -/
  | storeRecord (service : Service) (owner transferId : String)
  /-- The service of a withdrawal or a claim takes it up. -/
  | storeTransfer (requestId : String)
  | storeSuccess (requestId : String)
  /-- One event of the LDK stream. -/
  | event (embedded : Bool)
  /-- One pass of the reconciler. -/
  | reconcile
deriving DecidableEq

/-- The program a request runs; its outcome goes back to the client or to the log. -/
def Request.act (D : Deployment) : Request → Ssp Unit
  | lightningSend owner input => discard (Graphql.requestLightningSend D owner input)
  | lightningReceive owner input => discard (Graphql.requestLightningReceive D owner input)
  | bolt12Receive owner input => discard (Graphql.requestBolt12Receive D owner input)
  | swap owner input => discard (Graphql.requestSwap D owner input)
  | paymentStatus id => discard (Ldk.paymentStatus D id)
  | reconcileRequest id => discard (Ldk.reconcileRequest D id)
  | storeRecord service owner transferId => service.storeRecord owner transferId
  | storeTransfer requestId => Service.storeTransfer requestId
  | storeSuccess requestId => Service.storeSuccess requestId
  | event embedded => Ldk.eventPump D embedded
  | reconcile => Ldk.reconcilePayments D

def Request.handler (D : Deployment) (r : Request) : Prog Api Unit :=
  discard (r.act D).run

end OpenSsp
