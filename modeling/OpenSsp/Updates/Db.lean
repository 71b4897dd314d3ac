/-
OpenSsp/Updates/Db.lean

The tables of a request and its details with the triggers that keep `updated_at`
(`request_updates.rs`), and the statements that write to them (`db.rs`, `lightning_store.rs`,
`internal_payments.rs`, `coop_exit.rs`, `static_deposits.rs`, `instant_deposits.rs`, `spark.rs`,
`graphql.rs`).

The rows of sends and receives and what the statements do to a row are those of `OpenSsp.Db`.  A
payload is JSON text here, as a list of its keys: a trigger compares payloads as a whole.  `now` is
the time that the triggers of a statement write.

A database starts empty: rows migrated from older releases are not modelled.
-/
import OpenSsp.Db
import OpenSsp.Lib.Trigger
import OpenSsp.Lib.Uuid

namespace OpenSsp.Updates

open Interleave

/-! ### Payloads -/

/-- A leaf of a swap, as a client sees it. -/
structure SwapLeaf where
  leafId : String
  rawUnsignedRefundTransaction : String
  adaptorSignedSignature : String
deriving DecidableEq

inductive Value where
  | null
  | bool (b : Bool)
  | number (n : Nat)
  | string (s : String)
  | leaves (ls : List SwapLeaf)
deriving DecidableEq

namespace Value

/-- `as_str` -/
def asStr : Value → Option String
  | string s => some s
  | _ => none

/-- `as_u64` -/
def asU64 : Value → Option Nat
  | number n => some n
  | _ => none

end Value

/-- The keys of a JSON object, in order. -/
abbrev Payload := List (String × Value)

namespace Payload

def get (p : Payload) (key : String) : Option Value := (p.find? fun e => e.1 == key).map (·.2)

/-- `p[key]` -/
def field (p : Payload) (key : String) : Value := (p.get key).getD .null

/-- `json_set(payload,'$.key',value)` -/
def set (p : Payload) (key : String) (value : Value) : Payload :=
  if p.any fun e => e.1 == key then p.map fun e => if e.1 == key then (key, value) else e
  else p ++ [(key, value)]

/-- `p[key].as_str().unwrap_or("")` -/
def text (p : Payload) (key : String) : String := (p.field key).asStr.getD ""

end Payload

/-! ### Rows -/

structure RequestRow where
  id : String
  kind : String
  owner : String
  createdAt : String
  payload : Payload
  idempotencyKey : Option String

structure UpdateRow where
  id : String
  updatedAt : String

structure TransferRow where
  sparkId : String
  requestId : String
  kind : String
  status : String
  owner : String

/-- The record of a withdrawal. -/
structure ExitRecord where
  id : String
  owner : String
  transferId : String
  idempotencyKey : String
  /-- The quote, as a client sees it. -/
  quote : String
  address : String
  userFee : Nat
  totalAmountSats : Nat
  speed : String
  feeSats : Nat
  createdAt : String
  expiresAt : String
  rawExit : String
  rawConnector : String
  signedExit : Option String
  status : String
deriving DecidableEq

structure ExitRow where
  id : String
  owner : String
  transferId : String
  idem : String
  status : String
  data : ExitRecord

structure Db where
  requests : Table RequestRow.id
  updates : Table UpdateRow.id
  sends : Table SendRow.requestId
  receives : Table ReceiveRow.hash
  receivePayments : Table ReceivePaymentRow.hash
  quoteUses : Table QuoteUseRow.paymentHash
  exits : Table ExitRow.id
  transfers : Table TransferRow.sparkId
  payments : Table PaymentRow.id
  internalPayments : Table InternalPaymentRow.hash
  /-- The ids of `deposit_claims`. -/
  depositClaims : List String
  /-- The ids of `instant_claims`. -/
  instantClaims : List String

namespace Db

def empty : Db where
  requests := .empty
  updates := .empty
  sends := .empty
  receives := .empty
  receivePayments := .empty
  quoteUses := .empty
  exits := .empty
  transfers := .empty
  payments := .empty
  internalPayments := .empty
  depositClaims := []
  instantClaims := []

/-! ### Triggers -/

/-- `UPDATE request_updates SET updated_at=strftime(…,'now') WHERE id=…`, for each of the ids. -/
def touch (now : String) (ids : List String) (db : Db) : Db :=
  let updates := db.updates.update (fun u => ids.contains u.id)
    fun u => { u with updatedAt := now }
  { db with updates := updates }

/-- `(SELECT request_id FROM lightning_receives WHERE hash=NEW.hash)` -/
def requestOfHash (db : Db) (hash : String) : Option String :=
  (db.receives.get hash).map (·.requestId)

def sendWatch (r : SendRow) : SendStatus × Option String := (r.intent.status, r.intent.paymentId)

def receiveWatch (r : ReceivePaymentRow) : ReceiveStatus × Option String × Option String :=
  (r.status, r.transferId, r.preimage)

/-- `UPDATE requests SET payload=…`, with `request_changed`. -/
def updatePayload (now : String) (p : RequestRow → Bool) (f : Payload → Payload) (db : Db) : Db :=
  let g (r : RequestRow) : RequestRow := { r with payload := f r.payload }
  touch now (changed (fun r => some r.id) RequestRow.payload p g db.requests.rows)
    { db with requests := db.requests.update p g }

/-- `INSERT INTO requests`, with `request_created`. -/
def insertRequestRow (row : RequestRow) (db : Db) : Except String Db := do
  if row.idempotencyKey ≠ none ∧ row.idempotencyKey ≠ some "" ∧
      db.requests.rows.any (fun r => r.owner == row.owner && r.idempotencyKey == row.idempotencyKey)
    then throw "UNIQUE constraint failed: requests.owner, requests.idempotency_key"
  let requests ← okOr "UNIQUE constraint failed: requests.id" (db.requests.insert row)
  let updates ← okOr "UNIQUE constraint failed: request_updates.id"
    (db.updates.insert { id := row.id, updatedAt := row.createdAt })
  return { db with requests := requests, updates := updates }

/-- `UPDATE lightning_sends`, with `lightning_sends_changed`. -/
def updateSends (now : String) (p : SendRow → Bool) (f : SendRow → SendRow)
    (hf : ∀ r, (f r).requestId = r.requestId) (db : Db) : Db :=
  touch now (changed (fun r => some r.requestId) sendWatch p f db.sends.rows)
    { db with sends := db.sends.update p f hf }

/-- `INSERT INTO lightning_sends`, with `lightning_sends_created`. -/
def insertSend (now : String) (row : SendRow) (db : Db) : Except String Db := do
  if db.sends.rows.any (·.intent.outboundTransferId == row.intent.outboundTransferId) then
    throw "UNIQUE constraint failed: lightning_sends.outbound_transfer_id"
  if row.intent.kind = .bolt11 ∧ row.intent.expectedId ≠ "" ∧ db.sends.rows.any (fun r =>
      r.intent.kind == .bolt11 && r.intent.expectedId == row.intent.expectedId) then
    throw "UNIQUE constraint failed: lightning_sends.expected_id"
  let sends ← okOr "UNIQUE constraint failed: lightning_sends.request_id" (db.sends.insert row)
  return touch now [row.requestId] { db with sends := sends }

/-- `UPDATE receive_payments`, with `receive_payments_changed`. -/
def updateReceivePayments (now : String) (p : ReceivePaymentRow → Bool)
    (f : ReceivePaymentRow → ReceivePaymentRow) (hf : ∀ r, (f r).hash = r.hash) (db : Db) : Db :=
  touch now (changed (fun r => db.requestOfHash r.hash) receiveWatch p f db.receivePayments.rows)
    { db with receivePayments := db.receivePayments.update p f hf }

/-- `INSERT INTO receive_payments … ON CONFLICT(hash) DO UPDATE`, with the trigger of what it does:
`receive_payments_created` or `receive_payments_changed`. -/
def upsertReceivePayment (now : String) (row : ReceivePaymentRow)
    (f : ReceivePaymentRow → ReceivePaymentRow) (hf : ∀ r, (f r).hash = r.hash) (db : Db) : Db :=
  match db.receivePayments.insert row with
  | some receivePayments =>
      touch now (db.requestOfHash row.hash).toList { db with receivePayments := receivePayments }
  | none => db.updateReceivePayments now (fun r => r.hash == row.hash) f hf

/-- `UPDATE transfers SET status=…`, with `transfers_changed`. -/
def updateTransfers (now : String) (p : TransferRow → Bool) (status : String) (db : Db) : Db :=
  let f (r : TransferRow) : TransferRow := { r with status := status }
  touch now (changed (fun r => some r.requestId) TransferRow.status p f db.transfers.rows)
    { db with transfers := db.transfers.update p f }

/-- `INSERT INTO transfers`, with `transfers_created`; `none` when the id is taken. -/
def insertTransferRow (now : String) (row : TransferRow) (db : Db) : Option Db :=
  (db.transfers.insert row).map fun transfers =>
    touch now [row.requestId] { db with transfers := transfers }

/-- `UPDATE coop_exits SET status=?2,data=?3 WHERE id=?1`, with `coop_exits_changed`. -/
def updateExits (now : String) (record : ExitRecord) (db : Db) : Db :=
  let f (r : ExitRow) : ExitRow := { r with status := record.status, data := record }
  let p (r : ExitRow) : Bool := r.id == record.id
  touch now (changed (fun r => some r.id) ExitRow.data p f db.exits.rows)
    { db with exits := db.exits.update p f }

/-- `INSERT INTO coop_exits`, with `coop_exits_created`. -/
def insertExit (now : String) (record : ExitRecord) (db : Db) : Except String Db := do
  if db.exits.rows.any (fun r => r.transferId == record.transferId) then
    throw "UNIQUE constraint failed: coop_exits.transfer_id"
  if db.exits.rows.any (fun r => r.owner == record.owner && r.idem == record.idempotencyKey) then
    throw "UNIQUE constraint failed: coop_exits.owner, coop_exits.idem"
  let exits ← okOr "UNIQUE constraint failed: coop_exits.id" (db.exits.insert
    { id := record.id, owner := record.owner, transferId := record.transferId,
      idem := record.idempotencyKey, status := record.status, data := record })
  return touch now [record.id] { db with exits := exits }

end Db

end OpenSsp.Updates
