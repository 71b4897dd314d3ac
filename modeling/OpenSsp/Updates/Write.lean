/-
OpenSsp/Updates/Write.lean

The writes of the program to requests and their details: one function for each method that writes,
on the tables with their triggers, and `Write`, all of them.  A method is a transaction: it fails as
a whole, and its tables are gone.

Of the claims of deposits only the ids are kept.
-/
import OpenSsp.Updates.Db

namespace OpenSsp

def SendKind.asStr : SendKind → String
  | .bolt11 => "BOLT11"
  | .bolt12 => "BOLT12"

namespace Updates

open Interleave

/-- The kinds that are stored by `insert_request`. -/
inductive RequestKind where
  | lightningReceive
  | leavesSwap
deriving DecidableEq

def RequestKind.text : RequestKind → String
  | .lightningReceive => "LIGHTNING_RECEIVE"
  | .leavesSwap => "LEAVES_SWAP"

/-- A fixed deposit's claim, as far as its rows show it. -/
structure DepositClaim where
  id : String
  owner : String
  network : String
  txid : String
  vout : Nat
  credit : Nat
  fee : Nat
  transferId : String
  signedSpend : Option String
  status : String
  phase : String

/-- An instant deposit's claim, as far as its rows show it. -/
structure InstantClaim where
  id : String
  owner : String
  network : String
  txid : String
  vout : Nat
  credit : Nat
  fee : Nat
  transferId : String
  phase : String

/-- `Some(value)` or `None` in `json!` -/
def nullable (value : Option Value) : Value := value.getD .null

def sendPayload (send : LightningSend) (key network : String) : Payload :=
  [("encoded_invoice", .string send.invoice),
    ("amount_sats", nullable (send.amountOverride.map .number)),
    ("total_amount_sats", .number send.amountSats),
    ("idempotency_key", .string key),
    ("payment_kind", .string send.kind.asStr),
    ("offer_id", if send.kind = .bolt12 then .string send.expectedId else .null),
    ("payment_id", .string send.requestId),
    ("network", .string network),
    ("user_outbound_transfer_external_id", .string send.outboundTransferId)]

def depositPayload (r : DepositClaim) : Payload :=
  [("network", .string r.network), ("transaction_id", .string r.txid),
    ("output_index", .number r.vout), ("credit_amount_sats", .number r.credit),
    ("deposit_amount_sats", .number (r.credit + r.fee)), ("max_fee_sats", .number r.fee),
    ("status", .string "IN_PROGRESS"), ("phase", .string r.phase),
    ("transfer_spark_id", .string r.transferId)]

def instantPayload (r : InstantClaim) : Payload :=
  [("network", .string r.network), ("instant", .bool true), ("transaction_id", .string r.txid),
    ("output_index", .number r.vout), ("credit_amount_sats", .number r.credit),
    ("deposit_amount_sats", .number (r.credit + r.fee)), ("max_fee_sats", .number r.fee),
    ("status", .string (if r.phase = "CREATED" then "IN_PROGRESS" else "SUCCEEDED")),
    ("phase", .string (if r.phase = "RECOVERY_PREPARED" then "TRANSFER_COMPLETED" else r.phase)),
    ("transfer_spark_id", if r.phase = "CREATED" then .null else .string r.transferId)]

namespace Db

/-! ### Requests -/

/-- `INSERT INTO receive_quote_uses`, for a receive of a quote. -/
def insertQuoteUse (quoteId : Option String) (hash : String)
    (quoteUses : Table QuoteUseRow.paymentHash) : Except String (Table QuoteUseRow.paymentHash) :=
  match quoteId with
  | none => .ok quoteUses
  | some quoteId => do
      if quoteUses.rows.any (·.quoteId == quoteId) then
        throw "UNIQUE constraint failed: receive_quote_uses.quote_id"
      okOr "UNIQUE constraint failed: receive_quote_uses.payment_hash"
        (quoteUses.insert { quoteId := quoteId, paymentHash := hash })

/-- The row of a receive, from its payload. -/
def receiveRow (id owner : String) (expiresAt amount : Nat) (p : Payload) : ReceiveRow where
  hash := p.text "payment_hash"
  requestId := id
  owner := owner
  receiver := (p.field "receiver_identity_pubkey").asStr.getD owner
  amountSats := amount
  invoice := p.text "invoice"
  expiresAt := expiresAt
  kind := if p.field "payment_kind" = .string "BOLT12" then .bolt12 else .bolt11
  settledPaymentHash := (p.field "settled_payment_hash").asStr

/-- `index_request`, for a receive. -/
def indexReceive (id owner : String) (expiresAt : Nat) (p : Payload) (db : Db) :
    Except String Db := do
  let quoteUses ← insertQuoteUse (p.field "quote_transfer_id").asStr (p.text "payment_hash")
    db.quoteUses
  let amount ← okOr "receive amount_sats is missing or not positive"
    ((p.field "amount_sats").asU64.filter fun n => 0 < n)
  if db.receives.rows.any (·.requestId == id) then
    throw "UNIQUE constraint failed: lightning_receives.request_id"
  let receives ← okOr "UNIQUE constraint failed: lightning_receives.hash"
    (db.receives.insert (receiveRow id owner expiresAt amount p))
  return { db with quoteUses := quoteUses, receives := receives }

/-- `insert_request`; `expiresAt` is what `index_request` makes of the creation time. -/
def insertRequest (kind : RequestKind) (id owner createdAt : String) (expiresAt : Nat)
    (payload : Payload) (key : Option String) (db : Db) : Except String Db := do
  let db ← db.insertRequestRow ⟨id, kind.text, owner, createdAt, payload, key⟩
  match kind with
  | .lightningReceive => db.indexReceive id owner expiresAt payload
  | .leavesSwap => return db

/-- Is the request a withdrawal or a claim of an old release, and without a claim? -/
def compatRequest (olderThan : String) (depositClaims : List String) (r : RequestRow) : Bool :=
  decide (r.createdAt < olderThan) &&
    ["COOP_EXIT", "CLAIM_STATIC_DEPOSIT", "CLAIM_INSTANT_STATIC_DEPOSIT"].contains r.kind &&
    !depositClaims.contains r.id

/-- Old requests of the compatibility layer go, and their transfers and times with them. -/
def pruneCompatRequests (olderThan : String) (db : Db) : Db :=
  let transfers := db.transfers.delete fun t =>
    t.kind == "COOP_EXIT" && (db.requests.get t.requestId).isNone
  let old := compatRequest olderThan db.depositClaims
  -- with `request_deleted`
  let updates := db.updates.delete fun u => db.requests.rows.any fun r => r.id == u.id && old r
  { db with transfers := transfers, requests := db.requests.delete old, updates := updates }

/-! ### Sends -/

def prepareLightningSend (now : String) (send : LightningSend) (key network createdAt : String)
    (db : Db) : Except String Db := do
  let db ← db.insertRequestRow ⟨send.requestId, "LIGHTNING_SEND", send.owner, createdAt,
    sendPayload send key network, some key⟩
  let db ← db.insertSend now
    { intent := { send with paymentId := none, status := .prepared }, lastError := none }
  okOr "UNIQUE constraint failed: transfers.spark_id" (db.insertTransferRow now
    { sparkId := send.outboundTransferId, requestId := send.requestId,
      kind := match send.kind with
        | .bolt11 => "PREIMAGE_SWAP"
        | .bolt12 => "BOLT12_FUNDING",
      status := "PENDING", owner := send.owner })

def setLightningSendRouteCltv (now requestId : String) (cltv : Option Nat) (db : Db) : Db :=
  db.updateSends now (fun r => r.intent.requestId == requestId)
    (fun r => { r with intent := { r.intent with maxRouteCltv := cltv } })
    (Table.same_key SendRow.requestId)

def beginLightningSubmission (now id : String) (db : Db) : Db :=
  db.updateSends now (fun r => r.intent.requestId == id && r.intent.status == .prepared)
    (OpenSsp.Db.setSendStatus .submitting) (Table.same_key SendRow.requestId)

def bindLightningPayment (now id paymentId : String) (db : Db) : Except String Db := do
  let p (r : SendRow) : Bool := r.intent.requestId == id &&
    (r.intent.paymentId == none || r.intent.paymentId == some paymentId)
  if db.sends.count p ≠ 1 then throw "Query is not read-only"
  if db.sends.rows.any (fun r => r.intent.paymentId == some paymentId && r.intent.requestId != id)
    then throw "UNIQUE constraint failed: lightning_sends.payment_id"
  return db.updateSends now p (OpenSsp.Db.bindSend paymentId) (Table.same_key SendRow.requestId)

/-- The first error of a send is kept. -/
def lightningSubmissionError (now id error : String) (db : Db) : Db :=
  db.updateSends now (fun r => r.intent.requestId == id &&
      (r.intent.status == .prepared || r.intent.status == .submitting ||
        r.intent.status == .pending))
    (fun r => { r with lastError := some (r.lastError.getD error) })
    (Table.same_key SendRow.requestId)

def recordLightningProof (now requestId hash preimage : String) (db : Db) : Db :=
  db.updatePayload now (fun r => r.id == requestId) fun p =>
    (p.set "settled_payment_hash" (.string hash)).set "payment_preimage" (.string preimage)

def recordLightningFailure (now id : String) (reason : Option String) (db : Db) : Db :=
  db.updateSends now (OpenSsp.Db.sendHasId id) (OpenSsp.Db.failSend reason)
    (Table.same_key SendRow.requestId)

/-- The status of a payment; final sends stay. -/
def setPayment (now id : String) (status : SendStatus) (db : Db) : Db :=
  let db := db.updateSends now (fun r => OpenSsp.Db.sendHasId id r && !r.intent.status.final)
    (OpenSsp.Db.setSendStatus status) (Table.same_key SendRow.requestId)
  let payments := db.payments.upsert { id := id, status := status }
    (fun r => { r with status := status }) (Table.same_key PaymentRow.id)
  { db with payments := payments }

/-! ### Receives -/

/-- A receive takes the payment that can be claimed. -/
def markReceiveClaimable (now hash paymentId : String) (amountMsat : Nat) (db : Db) :
    Except String Db := do
  if 2 ^ 63 ≤ amountMsat then throw "claimable amount is too large for storage"
  let bound := (db.receivePayments.get hash).bind (·.paymentId)
  if bound ≠ none ∧ bound ≠ some paymentId then throw "Query is not read-only"
  return db.upsertReceivePayment now
    (OpenSsp.Db.claimReceivePayment paymentId amountMsat
      (OpenSsp.Db.freshReceivePayment hash .htlcReceived))
    (OpenSsp.Db.claimReceivePayment paymentId amountMsat)
    (Table.same_key ReceivePaymentRow.hash)

/-- The transfers row of a receive: inserted, or refreshed by the same request. -/
def upsertReceiveTransfer (now transferId requestId owner : String) (db : Db) :
    Except String Db :=
  match db.insertTransferRow now
      { sparkId := transferId, requestId := requestId, kind := "LIGHTNING_RECEIVE",
        status := "TRANSFER_CREATED", owner := owner } with
  | some db => .ok db
  | none =>
      let p (r : TransferRow) : Bool :=
        r.sparkId == transferId && r.owner == owner && r.requestId == requestId
      if db.transfers.count p = 1 then .ok (db.updateTransfers now p "TRANSFER_CREATED")
      else .error "Query is not read-only"

def commitLightningReceiveSwap (now hash transferId preimage requestId owner : String) (db : Db) :
    Except String Db := do
  let db ← db.upsertReceiveTransfer now transferId requestId owner
  return db.upsertReceivePayment now
    (OpenSsp.Db.settleReceivePayment transferId preimage
      (OpenSsp.Db.freshReceivePayment hash .preimageRecovered))
    (OpenSsp.Db.settleReceivePayment transferId preimage)
    (Table.same_key ReceivePaymentRow.hash)

def markReceiveClaimSubmitted (now hash : String) (db : Db) : Except String Db :=
  let p (r : ReceivePaymentRow) : Bool := r.hash == hash && r.transferId.isSome && r.preimage.isSome
  if db.receivePayments.count p = 1 then .ok (db.updateReceivePayments now p
    (fun r => { r with claimSubmitted := true, status := .preimageRecovered })
    (Table.same_key ReceivePaymentRow.hash))
  else .error "Query returned no rows"

def setReceiveStatus (now hash : String) (status : ReceiveStatus) (db : Db) : Db :=
  db.upsertReceivePayment now (OpenSsp.Db.freshReceivePayment hash status)
    (fun r => { r with status := status }) (Table.same_key ReceivePaymentRow.hash)

/-- A receive fails with its payment. -/
def failExternalReceive (now hash paymentId : String) (db : Db) : Db :=
  db.updateReceivePayments now (fun r => r.hash == hash &&
      (r.paymentId == none || r.paymentId == some paymentId) &&
      r.status != .transferCompleted && (db.internalPayments.get hash).isNone)
    (fun r => { r with status := .htlcFailed }) (Table.same_key ReceivePaymentRow.hash)

/-- `UPDATE lightning_receives SET settled_payment_hash=…`; no trigger is on this table. -/
def settleReceives (p : ReceiveRow → Bool) (hash : String) (db : Db) : Db :=
  let receives := db.receives.update p (fun r => { r with settledPaymentHash := some hash })
    (Table.same_key ReceiveRow.hash)
  { db with receives := receives }

/-- An offer takes the hash that pays it. -/
def bindBolt12Receive (offerId hash : String) (db : Db) : Except String Db :=
  let p (r : ReceiveRow) : Bool := r.hash == offerId &&
    (r.settledPaymentHash == none || r.settledPaymentHash == some hash)
  if db.receives.count p = 1 then .ok (db.settleReceives p hash)
  else .error "Query is not read-only"

def commitBolt12Receive (now offerId paymentHash transferId requestId owner : String) (db : Db) :
    Db :=
  let db := (db.insertTransferRow now
      { sparkId := transferId, requestId := requestId, kind := "LIGHTNING_RECEIVE",
        status := "TRANSFER_COMPLETED", owner := owner }).getD
    (db.updateTransfers now (·.sparkId == transferId) "TRANSFER_COMPLETED")
  let db := db.upsertReceivePayment now
    (OpenSsp.Db.completeReceivePayment transferId
      (OpenSsp.Db.freshReceivePayment offerId .transferCompleted))
    (OpenSsp.Db.completeReceivePayment transferId) (Table.same_key ReceivePaymentRow.hash)
  db.settleReceives (fun r => r.requestId == requestId && r.owner == owner && r.hash == offerId)
    paymentHash

/-- A transfer, or the new status of one that is the owner's. -/
def insertTransfer (now sparkId requestId kind status owner : String) (db : Db) :
    Except String Db :=
  match db.insertTransferRow now
      { sparkId := sparkId, requestId := requestId, kind := kind, status := status,
        owner := owner } with
  | some db => .ok db
  | none =>
      let p (r : TransferRow) : Bool := r.sparkId == sparkId && r.owner == owner
      if db.transfers.count p = 1 then .ok (db.updateTransfers now p status)
      else .error "transfer id belongs to another owner"

/-! ### Internal payments -/

/-- A receive takes an internal payer. -/
def reserveInternalSend (now : String) (seconds : Nat) (send : LightningSend) (db : Db) :
    Except String Db :=
  match db.internalPayments.get send.expectedId with
  | some r => if r.sendId = send.requestId then .ok db else .error "local invoice already has a payer"
  | none => do
      let open_ := (db.receives.get send.expectedId).any fun l =>
        let p := (db.receivePayments.get l.hash).getD
          (OpenSsp.Db.freshReceivePayment l.hash .invoiceCreated)
        l.invoice == send.invoice && l.amountSats == send.amountSats &&
          decide (seconds < l.expiresAt) && p.status == .invoiceCreated &&
          p.claimableAmountMsat == none && p.transferId == none
      if ¬ open_ then throw "local invoice is expired or already in progress"
      if db.internalPayments.rows.any (·.sendId == send.requestId) then
        throw "UNIQUE constraint failed: internal_payments.send_id"
      let internalPayments ← okOr "UNIQUE constraint failed: internal_payments.hash"
        (db.internalPayments.insert { hash := send.expectedId, sendId := send.requestId })
      let p (r : SendRow) : Bool := r.intent.requestId == send.requestId
      if db.sends.count p ≠ 1 then throw "send intent is missing"
      return { db.updateSends now p (OpenSsp.Db.setSendStatus .settling)
          (Table.same_key SendRow.requestId) with
        internalPayments := internalPayments }

/-- Both sides of an internal payment end together. -/
def finishInternalSend (now : String) (send : LightningSend) (db : Db) : Except String Db :=
  let p (r : SendRow) : Bool := r.intent.requestId == send.requestId
  let q (r : ReceivePaymentRow) : Bool := r.hash == send.expectedId
  let t (r : TransferRow) : Bool := db.requestOfHash send.expectedId == some r.requestId
  if db.sends.count p ≠ 1 ∨ db.receivePayments.count q ≠ 1 ∨ db.transfers.count t ≠ 1 then
    .error "internal settlement rows are incomplete"
  else
    let db := db.updateSends now p
      (fun r => { OpenSsp.Db.setSendStatus .succeeded r with lastError := none })
      (Table.same_key SendRow.requestId)
    let db := db.updateReceivePayments now q (fun r => { r with status := .transferCompleted })
      (Table.same_key ReceivePaymentRow.hash)
    .ok (db.updateTransfers now t "TRANSFER_COMPLETED")

/-! ### Withdrawals, deposits and swaps -/

/-- A new exit with its request. -/
def insertCoopExit (now : String) (record : ExitRecord) (db : Db) : Except String Db := do
  let db ← db.insertExit now record
  db.insertRequestRow ⟨record.id, "COOP_EXIT_V2", record.owner, record.createdAt,
    [("total_amount_sats", .number record.totalAmountSats)], none⟩

/-- An exit's progress; a success completes its transfers. -/
def updateCoopExit (now : String) (record : ExitRecord) (db : Db) : Db :=
  let db := db.updateExits now record
  if record.status = "SUCCEEDED" then
    db.updateTransfers now (fun r => r.requestId == record.id && r.owner == record.owner)
      "COMPLETED"
  else db

/-- `INSERT INTO transfers … ON CONFLICT(spark_id) DO NOTHING` -/
def insertTransferOnce (now : String) (row : TransferRow) (db : Db) : Db :=
  (db.insertTransferRow now row).getD db

/-- A new fixed claim with its request. -/
def insertDepositClaim (r : DepositClaim) (createdAt : String) (db : Db) : Except String Db := do
  let db ← db.insertRequestRow ⟨r.id, "CLAIM_STATIC_DEPOSIT", r.owner, createdAt,
    depositPayload r, none⟩
  return { db with depositClaims := r.id :: db.depositClaims }

/-- A fixed claim's progress, with its transfer once there is a recovery. -/
def saveDepositClaim (now : String) (r : DepositClaim) (db : Db) : Db :=
  let db := db.updatePayload now (fun q => q.id == r.id) fun p =>
    (p.set "status" (.string r.status)).set "phase" (.string r.phase)
  if r.signedSpend.isSome then
    db.insertTransferOnce now
      { sparkId := r.transferId, requestId := r.id, kind := "CLAIM_STATIC_DEPOSIT",
        status := "COMPLETED", owner := r.owner }
  else db

/-- A new instant claim with its request. -/
def insertInstantClaim (r : InstantClaim) (createdAt : String) (db : Db) : Except String Db := do
  let db ← db.insertRequestRow ⟨r.id, "CLAIM_INSTANT_STATIC_DEPOSIT_V2", r.owner, createdAt,
    instantPayload r, none⟩
  return { db with instantClaims := r.id :: db.instantClaims }

/-- An instant claim's progress, with its transfer once it is sent. -/
def saveInstantClaim (now : String) (r : InstantClaim) (db : Db) : Db :=
  let db := db.updatePayload now (fun q => q.id == r.id) fun _ => instantPayload r
  if r.phase ≠ "CREATED" then
    db.insertTransferOnce now
      { sparkId := r.transferId, requestId := r.id, kind := "CLAIM_INSTANT_STATIC_DEPOSIT",
        status := "COMPLETED", owner := r.owner }
  else db

/-- What a read of a swap saves whose refund data is missing. -/
def saveSwapLeaves (now id : String) (leaves : List SwapLeaf) (expiresAt : Option String)
    (db : Db) : Db :=
  db.updatePayload now (fun r => r.id == id) fun p =>
    (p.set "swap_leaves" (.leaves leaves)).set "expires_at" (nullable (expiresAt.map .string))

/-- What the worker saves of a swap that is settled. -/
def completeSwap (now id : String) (db : Db) : Db :=
  db.updatePayload now (fun r => r.id == id) fun p => p.set "status" (.string "SUCCEEDED")

end Db

/-! ### All writes -/

/-- The methods that write, with what they are given. -/
inductive Write where
  | insertRequest (kind : RequestKind) (id owner createdAt : String) (expiresAt : Nat)
      (payload : Payload) (key : Option String)
  | pruneCompatRequests (olderThan : String)
  | prepareLightningSend (send : LightningSend) (key network createdAt : String)
  | setLightningSendRouteCltv (requestId : String) (cltv : Option Nat)
  | beginLightningSubmission (id : String)
  | bindLightningPayment (id paymentId : String)
  | lightningSubmissionError (id error : String)
  | recordLightningProof (requestId hash preimage : String)
  | recordLightningFailure (id : String) (reason : Option String)
  | setPayment (id : String) (status : SendStatus)
  | markReceiveClaimable (hash paymentId : String) (amountMsat : Nat)
  | commitLightningReceiveSwap (hash transferId preimage requestId owner : String)
  | markReceiveClaimSubmitted (hash : String)
  | setReceiveStatus (hash : String) (status : ReceiveStatus)
  | failExternalReceive (hash paymentId : String)
  | bindBolt12Receive (offerId hash : String)
  | commitBolt12Receive (offerId paymentHash transferId requestId owner : String)
  | insertTransfer (sparkId requestId kind status owner : String)
  | reserveInternalSend (seconds : Nat) (send : LightningSend)
  | finishInternalSend (send : LightningSend)
  | insertCoopExit (record : ExitRecord)
  | updateCoopExit (record : ExitRecord)
  | insertDepositClaim (r : DepositClaim) (createdAt : String)
  | saveDepositClaim (r : DepositClaim)
  | insertInstantClaim (r : InstantClaim) (createdAt : String)
  | saveInstantClaim (r : InstantClaim)
  | saveSwapLeaves (id : String) (leaves : List SwapLeaf) (expiresAt : Option String)
  | completeSwap (id : String)

namespace Write

/-- The write itself, at a time. -/
def exec (now : String) : Write → Db → Except String Db
  | insertRequest kind id owner createdAt expiresAt payload key, db =>
      db.insertRequest kind id owner createdAt expiresAt payload key
  | pruneCompatRequests olderThan, db => .ok (db.pruneCompatRequests olderThan)
  | prepareLightningSend send key network createdAt, db =>
      db.prepareLightningSend now send key network createdAt
  | setLightningSendRouteCltv id cltv, db => .ok (db.setLightningSendRouteCltv now id cltv)
  | beginLightningSubmission id, db => .ok (db.beginLightningSubmission now id)
  | bindLightningPayment id paymentId, db => db.bindLightningPayment now id paymentId
  | lightningSubmissionError id error, db => .ok (db.lightningSubmissionError now id error)
  | recordLightningProof id hash preimage, db => .ok (db.recordLightningProof now id hash preimage)
  | recordLightningFailure id reason, db => .ok (db.recordLightningFailure now id reason)
  | setPayment id status, db => .ok (db.setPayment now id status)
  | markReceiveClaimable hash paymentId amountMsat, db =>
      db.markReceiveClaimable now hash paymentId amountMsat
  | commitLightningReceiveSwap hash transferId preimage requestId owner, db =>
      db.commitLightningReceiveSwap now hash transferId preimage requestId owner
  | markReceiveClaimSubmitted hash, db => db.markReceiveClaimSubmitted now hash
  | setReceiveStatus hash status, db => .ok (db.setReceiveStatus now hash status)
  | failExternalReceive hash paymentId, db => .ok (db.failExternalReceive now hash paymentId)
  | bindBolt12Receive offerId hash, db => db.bindBolt12Receive offerId hash
  | commitBolt12Receive offerId paymentHash transferId requestId owner, db =>
      .ok (db.commitBolt12Receive now offerId paymentHash transferId requestId owner)
  | insertTransfer sparkId requestId kind status owner, db =>
      db.insertTransfer now sparkId requestId kind status owner
  | reserveInternalSend seconds send, db => db.reserveInternalSend now seconds send
  | finishInternalSend send, db => db.finishInternalSend now send
  | insertCoopExit record, db => db.insertCoopExit now record
  | updateCoopExit record, db => .ok (db.updateCoopExit now record)
  | insertDepositClaim r createdAt, db => db.insertDepositClaim r createdAt
  | saveDepositClaim r, db => .ok (db.saveDepositClaim now r)
  | insertInstantClaim r createdAt, db => db.insertInstantClaim r createdAt
  | saveInstantClaim r, db => .ok (db.saveInstantClaim now r)
  | saveSwapLeaves id leaves expiresAt, db => .ok (db.saveSwapLeaves now id leaves expiresAt)
  | completeSwap id, db => .ok (db.completeSwap now id)

/-- What the program gives to a write: a request of a send has a UUID, a payment id of the Lightning
backend is thirty-two bytes in hexadecimal digits, and an instant claim that is saved is one that
was inserted. -/
def Issued (db : Db) : Write → Prop
  | prepareLightningSend send _ _ _ => ∃ id : Uuid, send.requestId = id.print
  | bindLightningPayment _ paymentId => paymentId.length = 64
  | saveInstantClaim r => r.id ∈ db.instantClaims
  | _ => True

end Write

end Updates

end OpenSsp
