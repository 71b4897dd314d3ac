/-
OpenSsp/Updates/Response.lean

What a client is told of a request (`user_request_union` in `graphql.rs`), and what the program
saves of one: its payload, and of the rows of its details the columns that the triggers watch.

A response is the list of its fields, those of objects in it under their paths; amounts in satoshis
stand for the objects that show them.  `updated_at` is apart.
-/
import OpenSsp.Updates.Write

namespace OpenSsp

def ReceiveStatus.asStr : ReceiveStatus → String
  | .invoiceCreated => "INVOICE_CREATED"
  | .htlcReceived => "HTLC_RECEIVED"
  | .htlcFailed => "HTLC_FAILED"
  | .transferCreated => "TRANSFER_CREATED"
  | .transferCompleted => "TRANSFER_COMPLETED"
  | .transferCreationFailed => "TRANSFER_CREATION_FAILED"
  | .preimageRecovered => "PAYMENT_PREIMAGE_RECOVERED"
  | .preimageRecoveryFailed => "PAYMENT_PREIMAGE_RECOVERING_FAILED"
  | .lightningReceived => "LIGHTNING_PAYMENT_RECEIVED"

namespace Updates

open Interleave

/-- A JSON object, as its fields. -/
abbrev Response := List (String × Value)

/-- What a response is made with besides the tables. -/
structure Config where
  network : String
  /-- Is the service of withdrawals configured? -/
  coopExit : Bool
  /-- The id of a transaction in hexadecimal digits. -/
  txid : String → Option String
  /-- The leaves and the expiry of a swap transfer, from the operators. -/
  swapDetails : String → Except String (List SwapLeaf × Option String)

namespace Db

/-! ### Queries -/

/-- `payment_status`; `none` is the program's `UNKNOWN`. -/
def paymentStatus (id : String) (db : Db) : Option SendStatus :=
  match db.sends.rows.find? (OpenSsp.Db.sendHasId id) with
  | some r => some r.intent.status
  | none => (db.payments.get id).map (·.status)

/-- The error of a send, shown only for one that failed. -/
def lightningFailureReason (id : String) (db : Db) : Option String :=
  (db.sends.rows.find? (OpenSsp.Db.sendHasId id)).bind (·.lastError)

/-- The status of a receive; a hash without a row has just been created. -/
def receiveStatus (hash : String) (db : Db) : ReceiveStatus :=
  ((db.receivePayments.get hash).map (·.status)).getD .invoiceCreated

/-- The preimage of `lightning_receive_for_hash`. -/
def receivePreimage (hash : String) (db : Db) : Option String :=
  (db.receives.get hash).bind fun r => (db.receivePayments.get r.hash).bind (·.preimage)

/-- The row that was inserted first. -/
def transferForRequest (requestId owner : String) (db : Db) : Option String :=
  ((db.transfers.rows.filter fun r => r.requestId == requestId && r.owner == owner).getLast?).map
    (·.sparkId)

def coopExit (id owner : String) (db : Db) : Option ExitRecord :=
  (db.exits.rows.find? fun r => r.id == id && r.owner == owner).map (·.data)

end Db

/-! ### Responses -/

/-- The fields of a `CoopExitRequest`. -/
def exitResponse (cfg : Config) (r : ExitRecord) : Option Response :=
  (cfg.txid r.rawExit).map fun txid =>
    [("__typename", .string "CoopExitRequest"), ("id", .string r.id),
      ("created_at", .string r.createdAt), ("expires_at", .string r.expiresAt),
      ("withdrawal_address", .string r.address), ("fee", .number r.userFee),
      ("l1_broadcast_fee", .number r.feeSats), ("fee_quote", .string r.quote),
      ("exit_speed", .string r.speed), ("status", .string r.status),
      ("raw_connector_transaction", .string r.rawConnector),
      ("raw_coop_exit_transaction", .string r.rawExit), ("coop_exit_txid", .string txid),
      ("transfer_spark_id", .string r.transferId), ("transfer", .null)]

/-- A send's status as a client sees it. -/
def clientStatus : Option SendStatus → String
  | some .succeeded => "LIGHTNING_PAYMENT_SUCCEEDED"
  | some .failed => "LIGHTNING_PAYMENT_FAILED"
  | _ => "LIGHTNING_PAYMENT_INITIATED"

/-- The fields of a `LightningSendRequest`. -/
def sendResponse (r : RequestRow) (net status : String) (failureReason : Option String) :
    Response :=
  let p := r.payload
  [("__typename", .string "LightningSendRequest"), ("id", .string r.id),
    ("created_at", .string r.createdAt), ("network", .string net),
    ("encoded_invoice", p.field "encoded_invoice"), ("fee", .number 0),
    ("idempotency_key", p.field "idempotency_key"), ("status", .string status),
    ("failure_reason", nullable (failureReason.map .string)),
    ("payment_kind", p.field "payment_kind"), ("payment_preimage", p.field "payment_preimage"),
    ("payment_hash", p.field "settled_payment_hash"), ("offer_id", p.field "offer_id")]

/-- Is the invoice of the receive an offer? -/
def isOfferReceive (p : Payload) : Bool :=
  (p.field "invoice").asStr.any fun s => s.startsWith "lno1"

/-- The fields of a `LightningReceiveRequest`. -/
def receiveResponse (r : RequestRow) (net status : String) (preimage transfer : Option String) :
    Response :=
  let p := r.payload
  let amount := (p.field "amount_sats").asU64.getD 0
  [("__typename", .string "LightningReceiveRequest"), ("id", .string r.id),
    ("created_at", .string r.createdAt), ("network", .string net),
    ("invoice.encoded_invoice", p.field "invoice"), ("invoice.bitcoin_network", .string net),
    ("invoice.payment_hash", if isOfferReceive p then
      (p.get "settled_payment_hash").getD (.string "") else p.field "payment_hash"),
    ("invoice.offer_id", if isOfferReceive p then p.field "payment_hash" else .null),
    ("invoice.amount", .number amount), ("invoice.created_at", .string r.createdAt),
    ("invoice.expires_at", (p.get "invoice_expires_at").getD (.string r.createdAt)),
    ("invoice.memo", .null), ("status", .string status),
    ("transfer.spark_id", nullable (transfer.map .string)),
    ("transfer.total_amount", nullable (transfer.map fun _ => .number amount)),
    ("payment_preimage",
      nullable ((preimage.or (p.field "payment_preimage").asStr).map .string)),
    ("receiver_identity_public_key",
      (p.get "receiver_identity_pubkey").getD (.string r.owner))]

/-- Does a stored swap lack the refund of a leaf? -/
def missingRefunds (p : Payload) : Bool :=
  match p.field "swap_leaves" with
  | .leaves ls => ls.isEmpty || ls.any fun l => l.rawUnsignedRefundTransaction == ""
  | _ => true

/-- The fields of a `LeavesSwapRequest`. -/
def swapResponse (r : RequestRow) (net : String) (leaves expiresAt : Value) : Response :=
  let p := r.payload
  let total := (p.field "total_amount_sats").asU64.getD 0
  [("__typename", .string "LeavesSwapRequest"), ("id", .string r.id),
    ("created_at", .string r.createdAt), ("network", .string net),
    ("status", (p.get "status").getD (.string "CREATED")), ("total_amount", .number total),
    ("target_amount", .number ((p.field "target_amount_sats").asU64.getD 0)),
    ("fee", .number ((p.field "fee_sats").asU64.getD 0)),
    ("inbound_transfer.spark_id", .string (p.text "inbound_transfer_spark_id")),
    ("swap_leaves", leaves), ("expires_at", expiresAt)]

/-- The fields of a `ClaimStaticDeposit`. -/
def depositResponse (r : RequestRow) (net : String) : Except String Response :=
  let p := r.payload
  match (p.field "credit_amount_sats").asU64, (p.field "deposit_amount_sats").asU64,
      (p.field "max_fee_sats").asU64 with
  | some credit, some deposit, some maxFee => .ok
      [("__typename", .string "ClaimStaticDeposit"), ("id", .string r.id),
        ("created_at", .string r.createdAt), ("network", .string net),
        ("credit_amount", .number credit), ("deposit_amount", .number deposit),
        ("max_fee", .number maxFee),
        ("status", (p.get "phase").getD (.string
          (if p.field "status" = .string "SUCCEEDED" then "SPEND_TX_BROADCAST" else "CREATED"))),
        ("transaction_id", p.field "transaction_id"), ("output_index", p.field "output_index"),
        ("bitcoin_network", .string net), ("transfer_spark_id", p.field "transfer_spark_id")]
  | _, _, _ => .error s!"legacy deposit {r.id} has no settlement amounts"

/-- `user_request_union`; `none` is `null`. -/
def userRequestUnion (cfg : Config) (db : Db) (r : RequestRow) : Except String (Option Response) :=
  let p := r.payload
  let net := (p.field "network").asStr.getD cfg.network
  if r.kind = "COOP_EXIT_V2" then
    .ok (if cfg.coopExit then (db.coopExit r.id r.owner).bind (exitResponse cfg) else none)
  else if r.kind = "LIGHTNING_SEND" then
    .ok (some (sendResponse r net (clientStatus (db.paymentStatus (p.text "payment_id")))
      (db.lightningFailureReason r.id)))
  else if r.kind = "LIGHTNING_RECEIVE" then
    let hash := p.text "payment_hash"
    .ok (some (receiveResponse r net (db.receiveStatus hash).asStr (db.receivePreimage hash)
      (db.transferForRequest r.id r.owner)))
  else if r.kind = "LEAVES_SWAP" then
    if missingRefunds p then
      -- the read saves what the operators say
      match (p.field "inbound_transfer_spark_id").asStr with
      | none => .error "legacy swap has no transfer ID"
      | some transferId => (cfg.swapDetails transferId).map fun d =>
          some (swapResponse r net (.leaves d.1) (nullable (d.2.map .string)))
    else .ok (some (swapResponse r net (p.field "swap_leaves") (p.field "expires_at")))
  else if r.kind = "COOP_EXIT" ∨ r.kind = "CLAIM_INSTANT_STATIC_DEPOSIT" then
    .error s!"legacy request {r.id} has no settlement record; its transaction and fee data are unavailable"
  else if r.kind = "CLAIM_STATIC_DEPOSIT" ∨ r.kind = "CLAIM_INSTANT_STATIC_DEPOSIT_V2" then
    (depositResponse r net).map some
  else .ok none

/-! ### What is saved -/

/-- A part of what is saved of a request. -/
inductive Part where
  | payload
  | send
  | receive
  | exit
  | transfers
deriving DecidableEq

/-- The places a response is read from. -/
inductive Cell where
  | payload (ps : List Payload)
  | send (ss : List (SendStatus × Option String))
  | receive (ps : List (String × ReceiveStatus × Option String × Option String))
  | exit (xs : List (String × ExitRecord))
  | transfers (ts : List (String × String × String))
deriving DecidableEq

/-- What a response reads of a receive's payment. -/
def receiveKeep (r : ReceivePaymentRow) : String × ReceiveStatus × Option String × Option String :=
  (r.hash, Db.receiveWatch r)

/-- What a response reads of an exit. -/
def exitKeep (r : ExitRow) : String × ExitRecord := (r.owner, r.data)

/-- What a response reads of a transfer. -/
def transferKeep (r : TransferRow) : String × String × String := (r.sparkId, r.owner, r.status)

namespace Db

/-- What the tables say of a request: what the triggers watch, in the rows of the request. -/
def saved (db : Db) (id : String) : Part → Cell
  | .payload => .payload (column (fun r => some r.id) RequestRow.payload db.requests.rows id)
  | .send => .send (column (fun r => some r.requestId) sendWatch db.sends.rows id)
  | .receive => .receive
      (column (fun r => db.requestOfHash r.hash) receiveKeep db.receivePayments.rows id)
  | .exit => .exit (column (fun r => some r.id) exitKeep db.exits.rows id)
  | .transfers => .transfers
      (column (fun r => some r.requestId) transferKeep db.transfers.rows id)

/-- The time a request was updated at. -/
def updatedAt (db : Db) (id : String) : Option String := (db.updates.get id).map (·.updatedAt)

end Db

end Updates

end OpenSsp
