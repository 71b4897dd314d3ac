/-
OpenSsp/Db.lean

The tables the settlement code shares and its statements, one function for each `Db`
method (`db.rs`, `lightning_store.rs`, `internal_payments.rs`):

* `requests`, `lightning_sends`, `lightning_receives`, `receive_payments`,
  `receive_quote_uses`, `transfers`, `payments`, `internal_payments`.

A method returns its result with the new tables, or an error; a transaction that
fails leaves no tables behind, so nothing it wrote survives.  Primary keys are part of
the tables (`Table`); the other constraints are the checks written out below:
`requests(owner, idempotency_key)`, `lightning_sends.outbound_transfer_id`,
`lightning_sends.payment_id`, `lightning_sends.expected_id` of BOLT11 sends,
`lightning_receives.request_id`, `receive_quote_uses.quote_id` and
`internal_payments.send_id`.

A database starts empty: rows migrated from older releases are not modelled.
-/
import OpenSsp.Lib.Table
import OpenSsp.Transfer
import Mathlib.Data.List.Sort

namespace OpenSsp

open Interleave

/-! ### Rows -/

/-- The JSON payload of a send request. -/
structure SendPayload where
  encodedInvoice : String
  amountSats : Option Nat
  totalAmountSats : Nat
  idempotencyKey : String
  paymentKind : SendKind
  offerId : Option String
  paymentId : String
  network : String
  userOutboundTransferExternalId : String
deriving DecidableEq

/-- The JSON payload of a receive request; `paymentHash` is the offer id for BOLT12. -/
structure ReceivePayload where
  amountSats : Nat
  paymentHash : String
  paymentKind : SendKind
  invoice : String
  expirySecs : Nat
  receiverIdentityPubkey : String
  quoteTransferId : Option String
deriving DecidableEq

/-- The JSON payload of a swap request. -/
structure SwapPayload where
  totalAmountSats : Nat
  targetAmountSats : Nat
  feeSats : Nat
  inboundTransferSparkId : String
  outboundTransferSparkId : String
deriving DecidableEq

/-- The services that enter requests and transfers of their own: withdrawals
(`coop_exit.rs`) and the two kinds of deposit claims. -/
inductive Service where
  | coopExit
  | staticDeposit
  | instantDeposit
deriving DecidableEq

/-- What the record of a withdrawal or a claim says about its transfer.  A withdrawal's id
is the client's choice, a claim's is drawn by the service. -/
structure ServicePayload where
  service : Service
  transferId : String
deriving DecidableEq

/-- The payload of a request, by its kind. -/
inductive RequestPayload where
  | lightningSend (p : SendPayload)
  | lightningReceive (p : ReceivePayload)
  | leavesSwap (p : SwapPayload)
  /-- The record itself is in a table of the service. -/
  | service (p : ServicePayload)
deriving DecidableEq

/-- A row of `requests`.  `proof` holds the payload keys `settled_payment_hash` and
`payment_preimage` that `record_lightning_proof` adds. -/
structure RequestRow where
  id : String
  owner : String
  createdAt : Nat
  payload : RequestPayload
  idempotencyKey : Option String
  proof : Option (String × String)

structure SendRow where
  intent : LightningSend
  lastError : Option String

def SendRow.requestId (r : SendRow) : String := r.intent.requestId

structure ReceiveRow where
  hash : String
  requestId : String
  owner : String
  receiver : String
  amountSats : Nat
  invoice : String
  expiresAt : Nat
  kind : SendKind
  settledPaymentHash : Option String

structure ReceivePaymentRow where
  hash : String
  status : ReceiveStatus
  transferId : Option String
  preimage : Option String
  claimableAmountMsat : Option Nat
  claimSubmitted : Bool
  paymentId : Option String

structure QuoteUseRow where
  quoteId : String
  paymentHash : String

inductive TransferKind where
  | preimageSwap
  | bolt12Funding
  | lightningReceive
  | counterSwap
  | transfer
  | cooperativeExit
  | claimStaticDeposit
  | claimInstantStaticDeposit
deriving DecidableEq

inductive TransferRowStatus where
  | pending
  | created
  | transferCreated
  | transferCompleted
  | completed
deriving DecidableEq

structure TransferRow where
  sparkId : String
  requestId : String
  kind : TransferKind
  status : TransferRowStatus
  owner : String

/-- The row a service enters for its request. -/
def ServicePayload.row (p : ServicePayload) (requestId owner : String) : TransferRow :=
  match p.service with
  | .coopExit => ⟨p.transferId, requestId, .cooperativeExit, .pending, owner⟩
  | .staticDeposit => ⟨p.transferId, requestId, .claimStaticDeposit, .completed, owner⟩
  | .instantDeposit => ⟨p.transferId, requestId, .claimInstantStaticDeposit, .completed, owner⟩

/-- The row of a service's payload is about its transfer. -/
theorem ServicePayload.row_sparkId (p : ServicePayload) (requestId owner : String) :
    (p.row requestId owner).sparkId = p.transferId := by
  unfold row
  split <;> rfl

/-- The row of a service's payload is of its request. -/
theorem ServicePayload.row_requestId (p : ServicePayload) (requestId owner : String) :
    (p.row requestId owner).requestId = requestId := by
  unfold row
  split <;> rfl

/-- A payment the node has reported. -/
structure PaymentRow where
  id : String
  status : SendStatus

/-- An internal payment: one hash, and the send that pays it. -/
structure InternalPaymentRow where
  hash : String
  sendId : String

structure Db where
  requests : Table RequestRow.id
  sends : Table SendRow.requestId
  receives : Table ReceiveRow.hash
  receivePayments : Table ReceivePaymentRow.hash
  quoteUses : Table QuoteUseRow.paymentHash
  transfers : Table TransferRow.sparkId
  payments : Table PaymentRow.id
  internalPayments : Table InternalPaymentRow.hash

namespace Db

def empty : Db :=
  ⟨.empty, .empty, .empty, .empty, .empty, .empty, .empty, .empty⟩

/-! ### Row updates -/

/-- `request_id=?1 OR payment_id=?1` -/
def sendHasId (id : String) (r : SendRow) : Bool :=
  r.intent.requestId == id || r.intent.paymentId == some id

def setSendStatus (status : SendStatus) (r : SendRow) : SendRow :=
  { r with intent := { r.intent with status := status } }

/-- A receive that no statement has touched yet. -/
def freshReceivePayment (hash : String) (status : ReceiveStatus) : ReceivePaymentRow :=
  { hash := hash, status := status, transferId := none, preimage := none,
    claimableAmountMsat := none, claimSubmitted := false, paymentId := none }

/-- What `LEFT JOIN receive_payments` sees for a receive. -/
def receivePayment (db : Db) (hash : String) : ReceivePaymentRow :=
  (db.receivePayments.get hash).getD (freshReceivePayment hash .invoiceCreated)

/-! ### Requests -/

/-- `INSERT INTO requests` with its unique index on owner and idempotency key. -/
def addRequest (row : RequestRow) (db : Db) : Except String Db := do
  if row.idempotencyKey ≠ none ∧ row.idempotencyKey ≠ some "" ∧
      db.requests.rows.any (fun r => r.owner == row.owner && r.idempotencyKey == row.idempotencyKey)
    then throw "UNIQUE constraint failed: requests.owner, requests.idempotency_key"
  let requests ← okOr "UNIQUE constraint failed: requests.id" (db.requests.insert row)
  return { db with requests := requests }

/-- The conversion of a receive payload into its rows (`index_request`). -/
def indexReceive (id owner : String) (created : Nat) (p : ReceivePayload) (db : Db) :
    Except String Db := do
  let quoteUses ← match p.quoteTransferId with
    | none => pure db.quoteUses
    | some quoteId =>
        if db.quoteUses.rows.any (·.quoteId == quoteId) then
          throw "UNIQUE constraint failed: receive_quote_uses.quote_id"
        okOr "UNIQUE constraint failed: receive_quote_uses.payment_hash"
          (db.quoteUses.insert { quoteId := quoteId, paymentHash := p.paymentHash })
  if p.amountSats = 0 then throw "receive amount_sats is missing or not positive"
  if db.receives.rows.any (·.requestId == id) then
    throw "UNIQUE constraint failed: lightning_receives.request_id"
  let receives ← okOr "UNIQUE constraint failed: lightning_receives.hash" (db.receives.insert
    { hash := p.paymentHash, requestId := id, owner := owner,
      receiver := p.receiverIdentityPubkey, amountSats := p.amountSats, invoice := p.invoice,
      expiresAt := created + p.expirySecs, kind := p.paymentKind, settledPaymentHash := none })
  return { db with quoteUses := quoteUses, receives := receives }

/-- `insert_request`, for the kinds this model creates through it. -/
def insertRequest (id owner : String) (created : Nat) (payload : RequestPayload)
    (db : Db) : Except String (Unit × Db) := do
  let db ← db.addRequest { id := id, owner := owner, createdAt := created, payload := payload,
                           idempotencyKey := none, proof := none }
  match payload with
  | .lightningReceive p => return ((), ← db.indexReceive id owner created p)
  | _ => return ((), db)

/-- The owner's request of a key; the empty key names none. -/
def findByIdempotency (owner key : String) (db : Db) : Option RequestRow :=
  if key = "" then none
  else db.requests.rows.find? fun r => r.owner == owner && r.idempotencyKey == some key

/-- `request_updated_at`: the handlers only need the row to be there. -/
def requestUpdatedAt (id : String) (db : Db) : Except String Unit :=
  if (db.requests.get id).isSome then .ok () else .error "Query returned no rows"

/-! ### Sends -/

/-- A request, its send and its transfer in one transaction; a key in use answers with the stored
request. -/
def prepareLightningSend (send : LightningSend) (key network : String) (now : Nat) (db : Db) :
    Except String (RequestRow × Db) := do
  let row : RequestRow :=
    { id := send.requestId, owner := send.owner, createdAt := now,
      payload := .lightningSend
        { encodedInvoice := send.invoice, amountSats := send.amountOverride,
          totalAmountSats := send.amountSats, idempotencyKey := key, paymentKind := send.kind,
          offerId := if send.kind = .bolt12 then some send.expectedId else none,
          paymentId := send.requestId, network := network,
          userOutboundTransferExternalId := send.outboundTransferId },
      idempotencyKey := some key, proof := none }
  let db ← db.addRequest row
  if db.sends.rows.any (·.intent.outboundTransferId == send.outboundTransferId) then
    throw "UNIQUE constraint failed: lightning_sends.outbound_transfer_id"
  if send.kind = .bolt11 ∧ send.expectedId ≠ "" ∧ db.sends.rows.any (fun r =>
      r.intent.kind == .bolt11 && r.intent.expectedId == send.expectedId) then
    throw "UNIQUE constraint failed: lightning_sends.expected_id"
  let sends ← okOr "UNIQUE constraint failed: lightning_sends.request_id" (db.sends.insert
    { intent := { send with paymentId := none, status := .prepared }, lastError := none })
  let transfers ← okOr "UNIQUE constraint failed: transfers.spark_id" (db.transfers.insert
    { sparkId := send.outboundTransferId, requestId := send.requestId,
      kind := match send.kind with
        | .bolt11 => .preimageSwap
        | .bolt12 => .bolt12Funding,
      status := .pending, owner := send.owner })
  return (row, { db with sends := sends, transfers := transfers })

/-- The send of a payment. -/
def lightningSendForPayment (id : String) (db : Db) : Option LightningSend :=
  (db.sends.rows.find? (sendHasId id)).map (·.intent)

/-- What the route of a send may lock up, as it was last read off the operators. -/
def setLightningSendRouteCltv (requestId : String) (cltv : Option Nat) (db : Db) : Unit × Db :=
  let sends := db.sends.update (fun r => r.intent.requestId == requestId)
    fun r => { r with intent := { r.intent with maxRouteCltv := cltv } }
  ((), { db with sends := sends })

/-- The sends that are not final, in the order of their ids, a thousand at most. -/
def unresolvedLightningSends (db : Db) : List LightningSend :=
  (((db.sends.rows.map (·.intent)).filter fun s => !s.status.final).insertionSort
    fun a b => a.requestId ≤ b.requestId).take 1000

/-- Of all the tasks that see a send prepared one takes it on. -/
def beginLightningSubmission (id : String) (db : Db) : Bool × Db :=
  let p (r : SendRow) : Bool := r.intent.requestId == id && r.intent.status == .prepared
  (db.sends.count p == 1, { db with sends := db.sends.update p (setSendStatus .submitting) })

/-- `status IN ('SUBMITTING','PREPARED')` -/
def unsubmitted (status : SendStatus) : Bool := status == .submitting || status == .prepared

def bindSend (paymentId : String) (r : SendRow) : SendRow :=
  { intent := { r.intent with
      paymentId := some paymentId,
      status := if unsubmitted r.intent.status then .pending else r.intent.status },
    lastError := if unsubmitted r.intent.status then none else r.lastError }

/-- A payment belongs to one send, and a send to one payment. -/
def bindLightningPayment (id paymentId : String) (db : Db) : Except String (Unit × Db) := do
  let p (r : SendRow) : Bool := r.intent.requestId == id &&
    (r.intent.paymentId == none || r.intent.paymentId == some paymentId)
  if db.sends.count p ≠ 1 then throw "Query is not read-only"
  if db.sends.rows.any (fun r => r.intent.paymentId == some paymentId && r.intent.requestId != id)
    then throw "UNIQUE constraint failed: lightning_sends.payment_id"
  return ((), { db with sends := db.sends.update p (bindSend paymentId) })

/-- An error is kept beside the send, the first one only. -/
def lightningSubmissionError (id error : String) (db : Db) : Unit × Db :=
  let p (r : SendRow) : Bool := r.intent.requestId == id &&
    (r.intent.status == .prepared || r.intent.status == .submitting || r.intent.status == .pending)
  let sends := db.sends.update p fun r => { r with lastError := some (r.lastError.getD error) }
  ((), { db with sends := sends })

/-- The preimage that proves the payment, beside the request. -/
def recordLightningProof (requestId hash preimage : String) (db : Db) : Unit × Db :=
  let requests := db.requests.update (fun r => r.id == requestId)
    fun r => { r with proof := some (hash, preimage) }
  ((), { db with requests := requests })

/-- The reason of a failure; without one the error that is already there. -/
def failSend (reason : Option String) (r : SendRow) : SendRow :=
  let known := r.lastError.getD "Backend reported FAILED without a reason"
  { r with lastError := some (reason.getD known) }

/-- The reason the node gives, at every send of the id. -/
def recordLightningFailure (id : String) (reason : Option String) (db : Db) : Unit × Db :=
  ((), { db with sends := db.sends.update (sendHasId id) (failSend reason) })

/-- `set_payment`: final statuses of sends stay; `payments` takes every status. -/
def setPayment (id : String) (status : SendStatus) (db : Db) : Unit × Db :=
  let sends := db.sends.update (fun r => sendHasId id r && !r.intent.status.final)
    (setSendStatus status)
  let payments := db.payments.upsert { id := id, status := status }
    fun r => { r with status := status }
  ((), { db with sends := sends, payments := payments })

/-- `payment_status`; `none` is the program's `UNKNOWN`. -/
def paymentStatus (id : String) (db : Db) : Option SendStatus :=
  match db.sends.rows.find? (sendHasId id) with
  | some r => some r.intent.status
  | none => (db.payments.get id).map (·.status)

/-! ### Receives -/

/-- The receive of a hash, with what is known of its payment. -/
def lightningReceiveForHash (hash : String) (db : Db) : Option LightningReceive :=
  (db.receives.get hash).map fun r =>
    let p := db.receivePayment hash
    { requestId := r.requestId, owner := r.owner, receiver := r.receiver,
      amountSats := r.amountSats, invoice := r.invoice, status := p.status,
      transferId := p.transferId, preimage := p.preimage, claimSubmitted := p.claimSubmitted,
      paymentId := p.paymentId }

/-- The hash of a BOLT11 invoice the service has issued. -/
def lightningReceiveHashForInvoice (invoice : String) (db : Db) : Option String :=
  (db.receives.rows.find? fun r => r.invoice == invoice && r.kind == .bolt11).map (·.hash)

/-- The claimable payment of a receive; one that is over or paid out keeps its status. -/
def claimReceivePayment (paymentId : String) (amountMsat : Nat) (r : ReceivePaymentRow) :
    ReceivePaymentRow :=
  { r with
    status := if r.status = .transferCompleted ∨ r.status = .htlcFailed ∨ r.transferId ≠ none then
      r.status else .htlcReceived
    claimableAmountMsat := some amountMsat
    paymentId := some paymentId }

/-- Bind an HTLC attempt to a receive, once: a second backend id is refused. -/
def markReceiveClaimable (hash paymentId : String) (amountMsat : Nat) (db : Db) :
    Except String (Unit × Db) := do
  if 2 ^ 63 ≤ amountMsat then throw "claimable amount is too large for storage"
  let bound := (db.receivePayment hash).paymentId
  if bound ≠ none ∧ bound ≠ some paymentId then throw "Query is not read-only"
  let receivePayments := db.receivePayments.upsert
    (claimReceivePayment paymentId amountMsat (freshReceivePayment hash .htlcReceived))
    (claimReceivePayment paymentId amountMsat)
  return ((), { db with receivePayments := receivePayments })

/-- The transfers row of a receive: inserted, or refreshed by the same request. -/
def upsertReceiveTransfer (transferId requestId owner : String) (db : Db) : Except String Db :=
  match db.transfers.get transferId with
  | none =>
      let row : TransferRow :=
        { sparkId := transferId, requestId := requestId, kind := .lightningReceive,
          status := .transferCreated, owner := owner }
      .ok { db with transfers := db.transfers.upsert row fun r => r }
  | some r =>
      let transfers := db.transfers.update (fun r => r.sparkId == transferId)
        fun r => { r with status := .transferCreated }
      if r.owner = owner ∧ r.requestId = requestId then .ok { db with transfers := transfers }
      else .error "Query is not read-only"

/-- The receive whose swap has been committed. -/
def settleReceivePayment (transferId preimage : String) (r : ReceivePaymentRow) :
    ReceivePaymentRow :=
  { r with
    status := .preimageRecovered
    transferId := some transferId
    preimage := some preimage }

/-- Persist the operator result and its transfers row together. -/
def commitLightningReceiveSwap (hash transferId preimage requestId owner : String) (db : Db) :
    Except String (Unit × Db) := do
  let db ← db.upsertReceiveTransfer transferId requestId owner
  let receivePayments := db.receivePayments.upsert
    (settleReceivePayment transferId preimage (freshReceivePayment hash .preimageRecovered))
    (settleReceivePayment transferId preimage)
  return ((), { db with receivePayments := receivePayments })

/-- Only a receive with its payout and its preimage can be claimed. -/
def markReceiveClaimSubmitted (hash : String) (db : Db) : Except String (Unit × Db) :=
  let p (r : ReceivePaymentRow) : Bool := r.hash == hash && r.transferId.isSome && r.preimage.isSome
  let receivePayments := db.receivePayments.update p fun r =>
    { r with claimSubmitted := true, status := .preimageRecovered }
  if db.receivePayments.count p = 1 then .ok ((), { db with receivePayments := receivePayments })
  else .error "Query returned no rows"

def transferForRequest (requestId owner : String) (db : Db) : Option String :=
  (db.transfers.rows.find? fun r => r.requestId == requestId && r.owner == owner).map (·.sparkId)

/-- A transfer keeps its owner; another one's is refused. -/
def insertTransfer (sparkId requestId : String) (kind : TransferKind) (status : TransferRowStatus)
    (owner : String) (db : Db) : Except String (Unit × Db) :=
  match db.transfers.get sparkId with
  | none =>
      let row : TransferRow :=
        { sparkId := sparkId, requestId := requestId, kind := kind, status := status,
          owner := owner }
      .ok ((), { db with transfers := db.transfers.upsert row fun r => r })
  | some r =>
      let transfers := db.transfers.update (fun r => r.sparkId == sparkId)
        fun r => { r with status := status }
      if r.owner = owner then .ok ((), { db with transfers := transfers })
      else .error "transfer id belongs to another owner"

/-- A service enters the transfer of its request: `advance` of a withdrawal calls
`insert_transfer`, the updates of a claim have `ON CONFLICT(spark_id) DO NOTHING`. -/
def enterTransfer (requestId : String) (db : Db) : Except String (Unit × Db) :=
  match db.requests.get requestId with
  | none => .error "Query returned no rows"
  | some r => match r.payload with
    | .service p =>
        let row := p.row requestId r.owner
        if p.service = .coopExit then
          db.insertTransfer row.sparkId row.requestId row.kind row.status row.owner
        else .ok ((), { db with transfers := db.transfers.upsert row fun r => r })
    | _ => .error "Query returned no rows"

/-- The update with which a withdrawal has succeeded completes its transfer
(`update_coop_exit`). -/
def completeTransfer (requestId : String) (db : Db) : Except String (Unit × Db) :=
  match db.requests.get requestId with
  | none => .error "Query returned no rows"
  | some r => match r.payload with
    | .service ⟨.coopExit, _⟩ =>
        let transfers := db.transfers.update
          (fun x => x.requestId == requestId && x.owner == r.owner)
          fun x => { x with status := .completed }
        .ok ((), { db with transfers := transfers })
    | _ => .error "Query returned no rows"

/-- A receive the sweep may expire: unfinished, out of time, and without a transfer. -/
def expirable (now : Nat) (db : Db) (r : ReceiveRow) : Bool :=
  let p := db.receivePayment r.hash
  r.kind == .bolt11 && decide (r.expiresAt ≤ now) && p.status != .transferCompleted &&
    p.status != .htlcFailed && p.transferId == none &&
    !db.transfers.rows.any fun t => t.requestId == r.requestId && t.kind == .lightningReceive

/-- The receives a sweep may expire, a thousand at most. -/
def expiredReceiveHashes (now : Nat) (db : Db) : List String :=
  (((db.receives.rows.filter (expirable now db)).map (·.hash)).insertionSort (· ≤ ·)).take 1000

/-- The status of a receive, whatever it was. -/
def setReceiveStatus (hash : String) (status : ReceiveStatus) (db : Db) : Unit × Db :=
  let receivePayments := db.receivePayments.upsert (freshReceivePayment hash status)
    fun r => { r with status := status }
  ((), { db with receivePayments := receivePayments })

/-- The receive fails with this payment, unless another one or an internal send has it. -/
def failExternalReceive (hash paymentId : String) (db : Db) : Unit × Db :=
  let p (r : ReceivePaymentRow) : Bool := r.hash == hash &&
    (r.paymentId == none || r.paymentId == some paymentId) &&
    r.status != .transferCompleted && (db.internalPayments.get hash).isNone
  let receivePayments := db.receivePayments.update p fun r => { r with status := .htlcFailed }
  ((), { db with receivePayments := receivePayments })

/-- Bind one invoice to a single-credit offer before any Spark payout. -/
def bindBolt12Receive (offerId hash : String) (db : Db) : Except String (Unit × Db) :=
  let p (r : ReceiveRow) : Bool := r.hash == offerId &&
    (r.settledPaymentHash == none || r.settledPaymentHash == some hash)
  let receives := db.receives.update p fun r => { r with settledPaymentHash := some hash }
  if db.receives.count p = 1 then .ok ((), { db with receives := receives })
  else .error "Query is not read-only"

/-- The receive of an offer, paid out by its transfer. -/
def completeReceivePayment (transferId : String) (r : ReceivePaymentRow) : ReceivePaymentRow :=
  { r with status := .transferCompleted, transferId := some transferId, claimSubmitted := true }

/-- The payout of an offer: its transfer, its receive and the hash that paid it. -/
def commitBolt12Receive (offerId paymentHash transferId requestId owner : String) (db : Db) :
    Unit × Db :=
  let row : TransferRow :=
    { sparkId := transferId, requestId := requestId, kind := .lightningReceive,
      status := .transferCompleted, owner := owner }
  let transfers := db.transfers.upsert row fun r => { r with status := .transferCompleted }
  let receivePayments := db.receivePayments.upsert
    (completeReceivePayment transferId (freshReceivePayment offerId .transferCompleted))
    (completeReceivePayment transferId)
  let receives := db.receives.update
    (fun r => r.requestId == requestId && r.owner == owner && r.hash == offerId)
    fun r => { r with settledPaymentHash := some paymentHash }
  ((), { db with transfers := transfers, receivePayments := receivePayments, receives := receives })

/-- The quote a receive was created from, if any (`receive_transfer_id`). -/
def quoteForHash (hash : String) (db : Db) : Option String :=
  (db.quoteUses.get hash).map (·.quoteId)

/-! ### Internal payments -/

/-- The send that pays a hash internally. -/
def internalSend (hash : String) (db : Db) : Option String :=
  (db.internalPayments.get hash).map (·.sendId)

/-- Reserve a receive for a local payer.  The condition on `receive_payments` also
excludes a claimable HTLC recorded before. -/
def reserveInternalSend (send : LightningSend) (now : Nat) (db : Db) :
    Except String (Unit × Db) := do
  match db.internalSend send.expectedId with
  | some existing =>
      if existing = send.requestId then return ((), db)
      else throw "local invoice already has a payer"
  | none =>
      let p := db.receivePayment send.expectedId
      let matching := (db.receives.get send.expectedId).any fun l =>
        l.invoice == send.invoice && l.amountSats == send.amountSats &&
          decide (now < l.expiresAt) && p.status == .invoiceCreated &&
          p.claimableAmountMsat == none && p.transferId == none
      if ¬ matching then throw "local invoice is expired or already in progress"
      if db.internalPayments.rows.any (·.sendId == send.requestId) then
        throw "UNIQUE constraint failed: internal_payments.send_id"
      let internalPayments ← okOr "UNIQUE constraint failed: internal_payments.hash"
        (db.internalPayments.insert { hash := send.expectedId, sendId := send.requestId })
      let byId (r : SendRow) : Bool := r.intent.requestId == send.requestId
      if db.sends.count byId ≠ 1 then throw "send intent is missing"
      let sends := db.sends.update byId (setSendStatus .settling)
      return ((), { db with internalPayments := internalPayments, sends := sends })

/-- Every row is created by the checkpoints before, so a count other than one means
that the settlement is incomplete; the transaction rolls back as a unit. -/
def finishInternalSend (send : LightningSend) (db : Db) : Except String (Unit × Db) := do
  let byId (r : SendRow) : Bool := r.intent.requestId == send.requestId
  let byHash (r : ReceivePaymentRow) : Bool := r.hash == send.expectedId
  let byRequest (r : TransferRow) : Bool :=
    (db.receives.get send.expectedId).any fun l => r.requestId == l.requestId
  if db.sends.count byId ≠ 1 ∨ db.receivePayments.count byHash ≠ 1 ∨
      db.transfers.count byRequest ≠ 1 then throw "internal settlement rows are incomplete"
  let sends := db.sends.update byId fun r => { setSendStatus .succeeded r with lastError := none }
  let receivePayments := db.receivePayments.update byHash fun r =>
    { r with status := .transferCompleted }
  let transfers := db.transfers.update byRequest fun r => { r with status := .transferCompleted }
  return ((), { db with sends := sends, receivePayments := receivePayments, transfers := transfers })

end Db

end OpenSsp
