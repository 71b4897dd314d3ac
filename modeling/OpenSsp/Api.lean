/-
OpenSsp/Api.lean

The calls the program makes: database methods (`Query`), LDK, the Spark SDK and
operators, the in-process locks, and the system.  Every remote call can fail with a
text; which failures also take effect is said where the calls are executed
(`World.lean`).

`mark` has no effect at all.  It records in the trace that a function of the source was
entered and with which arguments, so that properties can speak of function calls as
well as of RPCs.

The Spark liquidity functions (`ensure_exact_liquidity`, `ensure_denominated_liquidity`,
leaf selection and `prepare_transfer_request`) are calls here: they move no value to
another party and touch none of the tables modelled in `Db.lean`.
-/
import OpenSsp.Db
import OpenSsp.Lib.Machine

namespace OpenSsp

open Interleave

/-! ### Database methods -/

inductive Query where
  | insertRequest (id owner : String) (created : Nat) (payload : RequestPayload)
  | findByIdempotency (owner key : String)
  | requestUpdatedAt (id : String)
  | prepareLightningSend (send : LightningSend) (key network : String)
  | lightningSendForPayment (id : String)
  | setLightningSendRouteCltv (requestId : String) (cltv : Option Nat)
  | unresolvedLightningSends
  | beginLightningSubmission (id : String)
  | bindLightningPayment (id paymentId : String)
  | lightningSubmissionError (id error : String)
  | recordLightningProof (requestId hash preimage : String)
  | recordLightningFailure (id : String) (reason : Option String)
  | setPayment (id : String) (status : SendStatus)
  | paymentStatus (id : String)
  | lightningReceiveForHash (hash : String)
  | lightningReceiveHashForInvoice (invoice : String)
  | markReceiveClaimable (hash paymentId : String) (amountMsat : Nat)
  | commitLightningReceiveSwap (hash transferId preimage requestId owner : String)
  | markReceiveClaimSubmitted (hash : String)
  | transferForRequest (requestId owner : String)
  | insertTransfer (sparkId requestId : String) (kind : TransferKind)
      (status : TransferRowStatus) (owner : String)
  | enterTransfer (requestId : String)
  | completeTransfer (requestId : String)
  | expiredReceiveHashes (now : Nat)
  | setReceiveStatus (hash : String) (status : ReceiveStatus)
  | failExternalReceive (hash paymentId : String)
  | bindBolt12Receive (offerId hash : String)
  | commitBolt12Receive (offerId paymentHash transferId requestId owner : String)
  | quoteForHash (hash : String)
  | internalSend (hash : String)
  | reserveInternalSend (send : LightningSend)
  | finishInternalSend (send : LightningSend)

namespace Query

@[reducible] def Out : Query → Type
  | findByIdempotency .. => Option RequestRow
  | prepareLightningSend .. => RequestRow
  | lightningSendForPayment .. => Option LightningSend
  | unresolvedLightningSends => List LightningSend
  | beginLightningSubmission .. => Bool
  | paymentStatus .. => Option SendStatus
  | lightningReceiveForHash .. => Option LightningReceive
  | lightningReceiveHashForInvoice .. => Option String
  | transferForRequest .. => Option String
  | expiredReceiveHashes .. => List String
  | quoteForHash .. => Option String
  | internalSend .. => Option String
  | _ => Unit

/-- Run a method on the tables at time `now`. -/
def run (now : Nat) (db : Db) : (q : Query) → Except String (q.Out × Db)
  | insertRequest id owner created payload => db.insertRequest id owner created payload
  | findByIdempotency owner key => .ok (db.findByIdempotency owner key, db)
  | requestUpdatedAt id => (db.requestUpdatedAt id).map fun u => (u, db)
  | prepareLightningSend send key network => db.prepareLightningSend send key network now
  | lightningSendForPayment id => .ok (db.lightningSendForPayment id, db)
  | setLightningSendRouteCltv requestId cltv => .ok (db.setLightningSendRouteCltv requestId cltv)
  | unresolvedLightningSends => .ok (db.unresolvedLightningSends, db)
  | beginLightningSubmission id => .ok (db.beginLightningSubmission id)
  | bindLightningPayment id paymentId => db.bindLightningPayment id paymentId
  | lightningSubmissionError id error => .ok (db.lightningSubmissionError id error)
  | recordLightningProof requestId hash preimage =>
      .ok (db.recordLightningProof requestId hash preimage)
  | recordLightningFailure id reason => .ok (db.recordLightningFailure id reason)
  | setPayment id status => .ok (db.setPayment id status)
  | paymentStatus id => .ok (db.paymentStatus id, db)
  | lightningReceiveForHash hash => .ok (db.lightningReceiveForHash hash, db)
  | lightningReceiveHashForInvoice invoice => .ok (db.lightningReceiveHashForInvoice invoice, db)
  | markReceiveClaimable hash paymentId amount => db.markReceiveClaimable hash paymentId amount
  | commitLightningReceiveSwap hash transferId preimage requestId owner =>
      db.commitLightningReceiveSwap hash transferId preimage requestId owner
  | markReceiveClaimSubmitted hash => db.markReceiveClaimSubmitted hash
  | transferForRequest requestId owner => .ok (db.transferForRequest requestId owner, db)
  | insertTransfer sparkId requestId kind status owner =>
      db.insertTransfer sparkId requestId kind status owner
  | enterTransfer requestId => db.enterTransfer requestId
  | completeTransfer requestId => db.completeTransfer requestId
  | expiredReceiveHashes now => .ok (db.expiredReceiveHashes now, db)
  | setReceiveStatus hash status => .ok (db.setReceiveStatus hash status)
  | failExternalReceive hash paymentId => .ok (db.failExternalReceive hash paymentId)
  | bindBolt12Receive offerId hash => db.bindBolt12Receive offerId hash
  | commitBolt12Receive offerId paymentHash transferId requestId owner =>
      .ok (db.commitBolt12Receive offerId paymentHash transferId requestId owner)
  | quoteForHash hash => .ok (db.quoteForHash hash, db)
  | internalSend hash => .ok (db.internalSend hash, db)
  | reserveInternalSend send => db.reserveInternalSend send now
  | finishInternalSend send => db.finishInternalSend send

end Query

/-! ### Remote calls -/

inductive LdkCall where
  | submit (send : LightningSend) (amountMsat : Option Nat)
  | getPaymentDetails (paymentId : String)
  | listPayments (pageToken : Option String)
  | claimForId (paymentId : String) (amountMsat : Nat) (preimage : String)
  | failForId (paymentId : String)
  | receiveForHash (amountMsat : Nat) (paymentHash memo : String) (expirySecs : Nat)
  | bolt12Receive (amountMsat : Nat) (memo : String) (expirySecs : Nat)
  | offerId (offer : String)

@[reducible] def LdkCall.Out : LdkCall → Type
  | submit .. => String
  | getPaymentDetails .. => Option Payment
  | listPayments .. => List Payment × Option String
  | claimForId .. => Unit
  | failForId .. => Unit
  | receiveForHash .. => String
  | bolt12Receive .. => String × String
  | offerId .. => String

/-- `InitiatePreimageSwapV3(REASON_RECEIVE)` with the transfer it carries. -/
structure ReceiveSwapRequest where
  paymentHash : Bytes32
  transferId : Uuid
  receiver : PublicKey
  invoice : String
  amountSats : Nat
deriving DecidableEq

/-- The role in which the SSP asks for preimage requests. -/
inductive PreimageRequestRole where
  | sender
  | receiver
deriving DecidableEq

inductive SparkCall where
  | sync
  | getTransfer (id : Uuid)
  | queryHtlc (transferId paymentHash : String) (role : PreimageRequestRole)
  | claimHtlc (preimage : Bytes32)
  | transfer (amountSats : Nat) (receiver : PublicKey) (id : Uuid)
  | transferSwapCounter (amounts : List Nat) (receiver : PublicKey) (primary : Uuid)
      (adaptor : PublicKey) (id : Uuid)
  | ensureExactLiquidity (amountSats : Nat)
  | ensureDenominatedLiquidity (amounts : List Nat)
  | prepareTransferRequest (id : Uuid) (receiver : PublicKey) (amountSats : Nat)
  | initiatePreimageSwapV3 (request : ReceiveSwapRequest)

@[reducible] def SparkCall.Out : SparkCall → Type
  | getTransfer .. => Option Transfer
  | queryHtlc .. => List PreimageRequest
  | claimHtlc .. => Transfer
  | transfer .. => Transfer
  | transferSwapCounter .. => Transfer
  | initiatePreimageSwapV3 .. => Option Bytes32 × Option Transfer
  | _ => Unit

/-! ### Locks, system, marks -/

inductive Lock where
  | send
  | receive
  | liquidity
deriving DecidableEq

/-- Functions whose calls properties speak about. -/
inductive Mark where
  /-- A backend attempt is applied to a receive: `process_standard_receive`,
  `finish_received_payment`, or the failure the reconciler found. -/
  | attempt (paymentId paymentHash : String)
  /-- `process_internal_send` -/
  | internal (send : LightningSend)
  /-- `finish_bolt12_receive` -/
  | payOffer (offerId paymentHash : String)
  /-- `process_standard_receive` has read the row of a notified attempt. -/
  | claimable (payment : ClaimableReceive) (receive : LightningReceive)
  /-- The expiry sweep is about to fail this receive. -/
  | expired (hash : String) (receive : LightningReceive)
  /-- All attempts of a receive swap are over, the last with this error. -/
  | swapFailed (hash error : String)
  /-- `swap_for_lightning_receive` with its derived transfer id. -/
  | swapReceive (transferId : Uuid) (receiver hash invoice : String) (amountSats : Nat)
  /-- `refund_bolt12_send` -/
  | refund (owner outboundTransferId : String) (amountSats : Nat)
  /-- `fill_swap` -/
  | fillSwap (outboundTransferId : String)

/-- What the service asks of the outside. -/
inductive Call where
  | db (q : Query)
  | ldk (c : LdkCall)
  | spark (c : SparkCall)
  /-- `bounded`: an enclosing timeout can give up waiting. -/
  | acquire (l : Lock) (bounded : Bool)
  | release (l : Lock)
  | now
  /-- `SystemTime::now()` -/
  | systemTime
  | newUuid
  /-- How many more times a poll loop goes round before its deadline. -/
  | polls
  /-- Has the timeout around the operation that just ended fired? -/
  | timedOut
  /-- Is the serialized payload over `MAX_REQUEST_PAYLOAD_BYTES`? -/
  | oversized (payload : RequestPayload)
  /-- `quotes::validate`, answering the quote's transfer id. -/
  | validateQuote (owner receiver hash : String) (amountSats : Nat) (quote : Option String)
  /-- `stream.next_message` of the event pump. -/
  | nextEvent
  | mark (m : Mark)

@[reducible] def Call.Reply : Call → Type
  | .db q => Except String q.Out
  | .ldk c => Except String c.Out
  | .spark c => Except String c.Out
  | .acquire .. => Except String Unit
  | .release _ => Unit
  | .now => Nat
  | .systemTime => SystemTime
  | .newUuid => Uuid
  | .polls => Nat
  | .timedOut => Bool
  | .oversized _ => Bool
  | .validateQuote .. => Except String (Option String)
  | .nextEvent => Option LnEvent
  | .mark _ => Unit

/-- The interface of the program. -/
@[reducible] def Api : Interface := ⟨Call, Call.Reply⟩

/-- A function of the source: it can call, and fail with a text. -/
abbrev Ssp (α : Type) := Act Api String α

namespace Ssp

/-- Make a call that answers with a value. -/
def tell (c : Call) : Ssp c.Reply := Act.tell (I := Api) c

def db (q : Query) : Ssp q.Out := Act.ask (I := Api) (Call.db q) id

def ldk (c : LdkCall) : Ssp c.Out := Act.ask (I := Api) (Call.ldk c) id

def spark (c : SparkCall) : Ssp c.Out := Act.ask (I := Api) (Call.spark c) id

/-- A lock, waited for at most so long when `bounded`. -/
def acquire (l : Lock) (bounded : Bool) : Ssp Unit := Act.ask (I := Api) (Call.acquire l bounded) id

/-- The quote of a receive, checked against its terms. -/
def validateQuote (owner receiver hash : String) (amountSats : Nat) (quote : Option String) :
    Ssp (Option String) :=
  Act.ask (I := Api) (Call.validateQuote owner receiver hash amountSats quote) id

/-- A mark for the history; the program does nothing. -/
def mark (m : Mark) : Ssp Unit := tell (.mark m)

/-- `?` on a pure result. -/
def ofExcept {α : Type} (r : Except String α) : Ssp α := Act.ofExcept r

/-- `map_err` -/
def mapErr {α : Type} (f : String → String) (x : Ssp α) : Ssp α := Act.mapErr f x

/-- Run `body` with the guard of `l`; the guard is dropped on every way out. -/
def locked {α : Type} (l : Lock) (bounded : Bool) (body : Ssp α) : Ssp α :=
  Act.bracket (acquire l bounded) (tell (.release l)) body

/-- `tokio::time::timeout`.  Dropping the operation at an await point is the awaited
call failing, with or without effect, the rest of the operation passing the failure
on, and the deadline hiding the outcome. -/
def timeout {α : Type} (operation : Ssp α) : Ssp α := do
  let r ← Act.attempt operation
  if ← tell .timedOut then throw "receive operation timed out"
  ofExcept r

/-- `retry_bounded`: one attempt, and one more after each delay. -/
def retryBounded {α : Type} (operation : Ssp α) : List Nat → Ssp α
  | [] => timeout operation
  | _ :: delays => do
      match ← Act.attempt (timeout operation) with
      | .ok value => return value
      | .error _ => retryBounded operation delays

end Ssp

end OpenSsp
