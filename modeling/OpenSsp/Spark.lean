/-
OpenSsp/Spark.lean

The Spark side of settlement (`spark.rs`): verifying what funds a send, settling and
refunding it, paying a receive, and answering a swap.  Each function makes the calls of
its source in the source's order; waiting loops go round as often as the deadline
allows (`Call.polls`).

The claim of a swap's primary, which `fill_swap` starts in the background, is not
modelled: it moves the primary to the SSP and writes no table.
-/
import OpenSsp.Api

namespace OpenSsp

open Interleave

namespace Spark

variable (D : Deployment)

def liquidityError (error : String) : String :=
  if contains error "available balance" || contains error "Insufficient" ||
      contains error "Target amounts" then "NEEDS_TOPUP: " ++ error
  else error

/-! ### Looking transfers up -/

/-- The request that `find_htlc` picks: matching hash, and a transfer whose canonical
id text is the given text. -/
def matchesHtlc (transferId paymentHash : String) (request : PreimageRequest) : Bool :=
  request.paymentHash.text == lowercase paymentHash &&
    request.transfer.any fun transfer => transfer.id.print == transferId

def findHtlc (transferId paymentHash : String) : Ssp (Option PreimageRequest) := do
  let items ← Ssp.spark (.queryHtlc transferId (lowercase paymentHash) .receiver)
  return items.find? (matchesHtlc transferId paymentHash)

def findTransfer (id : Uuid) : Ssp (Option Transfer) := Ssp.spark (.getTransfer id)

/-- Look until there is an answer or the deadline has passed, then give up with `e`. -/
def pollLoop {α : Type} (look : Ssp (Option α)) (e : String) : Nat → Ssp α
  | 0 => do
      match ← Act.attempt look with
      | .ok (some a) => return a
      | _ => throw e
  | n + 1 => do
      match ← Act.attempt look with
      | .ok (some a) => return a
      | _ => pollLoop look e n

def waitForTransfer (id : Uuid) : Ssp Transfer := do
  let n ← Ssp.tell .polls
  pollLoop (findTransfer id) "outbound swap transfer was not found for the SSP" n

def waitForCompletedTransfer (id : Uuid) : Ssp Transfer := do
  let n ← Ssp.tell .polls
  let look : Ssp (Option Transfer) := do
    let _ ← Act.attempt (Ssp.spark .sync)
    return (← findTransfer id).filter fun transfer => transfer.status = .completed
  pollLoop look "BOLT12 funding transfer is not complete" n

/-! ### Funding of sends -/

/-- Verify the preimage-swap transfer that funds a BOLT11 send and return the most
total CLTV, in blocks, the Lightning route may take. -/
def verifyLightningSend (owner outboundTransferId paymentHash : String) (amountSats : Nat) :
    Ssp Nat := do
  let request ← Ssp.ofExcept
    (okOr "matching preimage swap was not found" (← findHtlc outboundTransferId paymentHash))
  let transfer ← Ssp.ofExcept (okOr "preimage swap has no transfer" request.transfer)
  if request.status ≠ .waitingForPreimage ∨ request.preimage.isSome then
    throw "preimage swap is not waiting for payment"
  let sender ← Ssp.ofExcept ((D.parsePublicKey (lowercase owner)).mapError
    fun e => s!"invalid session owner key: {e}")
  let now ← Ssp.tell .systemTime
  Ssp.ofExcept (validateLightningSendTransfer D transfer sender D.identity amountSats
    request.paymentHash now)

/-- Verify an unconditional Spark transfer that prepays a BOLT12 send. -/
def verifyBolt12Send (owner outboundTransferId : String) (amountSats : Nat) : Ssp Unit := do
  let transferId ← Ssp.ofExcept (TransferId.parse outboundTransferId)
  let transfer ← waitForCompletedTransfer transferId
  let ownerKey ← Ssp.ofExcept (D.parsePublicKey owner)
  Ssp.ofExcept (validateTransfer transfer ownerKey D.identity amountSats)
  if transfer.transferType ≠ .transfer then
    throw "BOLT12 funding must be a standard Spark transfer"

/-- Return prepaid BOLT12 funding after a terminal Lightning failure.  The derived id
makes retries idempotent. -/
def refundBolt12Send (owner outboundTransferId : String) (amountSats : Nat) : Ssp String := do
  Ssp.mark (.refund owner outboundTransferId amountSats)
  Ssp.locked .liquidity false do
    Ssp.spark .sync
    let ownerKey ← Ssp.ofExcept (D.parsePublicKey owner)
    let refundId := refundTransferId outboundTransferId
    let transfer ← match ← findTransfer refundId with
      | some transfer => pure transfer
      | none => Ssp.mapErr liquidityError (Ssp.spark (.transfer amountSats ownerKey refundId))
    Ssp.ofExcept (validateTransfer transfer D.identity ownerKey amountSats)
    return transfer.id.print

/-- Reveal a preimage to the operators, unless they have it already. -/
def settleLightningSend (outboundTransferId paymentHash preimageHex : String) : Ssp Unit := do
  let preimage ← Ssp.ofExcept (okOr "invalid preimage" (Bytes32.parse preimageHex))
  if preimage.computeHash.text ≠ lowercase paymentHash then
    throw "preimage does not match the payment hash"
  let request ← Ssp.ofExcept
    (okOr "matching preimage swap was not found" (← findHtlc outboundTransferId paymentHash))
  if request.status = .preimageShared ∧ request.preimage.isSome ∧
      request.transfer.any (fun transfer => fundingTransferCommitted transfer.status) then
    return ()
  if request.status = .returned then throw "preimage swap can no longer be settled"
  let transfer ← Ssp.spark (.claimHtlc preimage)
  if transfer.id.print ≠ outboundTransferId then
    throw "settled transfer id does not match the funded transfer"
  if ¬ fundingTransferCommitted transfer.status then throw "sender funding has not committed"

/-! ### Paying receives -/

/-- The transfer id of a receive: its quote's, else derived from the payment hash. -/
def receiveTransferIdOf (hash : String) : Option String → Except String Uuid
  | some quoteId => (TransferId.parse quoteId).mapError fun e => s!"invalid quoted transfer ID: {e}"
  | none => paymentTransferId hash

def receiveTransferId (hash : String) : Ssp Uuid := do
  Ssp.ofExcept (receiveTransferIdOf hash (← Ssp.db (.quoteForHash hash)))

def settleLightningReceive (owner paymentHash : String) (amountSats : Nat) : Ssp String :=
  Ssp.locked .liquidity false do
    Ssp.spark .sync
    let transferId ← receiveTransferId paymentHash
    let ownerKey ← Ssp.ofExcept (D.parsePublicKey owner)
    let transfer ← match ← findTransfer transferId with
      | some transfer => pure transfer
      | none => do
          Ssp.spark (.ensureExactLiquidity amountSats)
          Ssp.mapErr liquidityError (Ssp.spark (.transfer amountSats ownerKey transferId))
    Ssp.ofExcept (validateTransfer transfer D.identity ownerKey amountSats)
    return transfer.id.print

/-- The operators' record of a receive swap that an earlier attempt committed. -/
def recoverLightningReceiveSwap (transferId : Uuid) (paymentHash : Bytes32)
    (receiver : PublicKey) (amountSats : Nat) : Ssp (Option LightningReceiveSwap) := do
  let items ← Ssp.mapErr (fun e => s!"recover receive swap: {e}")
    (Ssp.spark (.queryHtlc transferId.print paymentHash.text .sender))
  match items.find? fun request => request.paymentHash == paymentHash &&
      request.transfer.any fun transfer => transfer.id == transferId with
  | none => return none
  | some request =>
      match request.preimage with
      | none => return none
      | some preimage =>
          let transfer ← Ssp.ofExcept
            (okOr "recovered receive swap has no transfer" request.transfer)
          let swap ← Ssp.ofExcept (validateLightningReceiveSwap transfer preimage paymentHash
            transferId D.identity receiver amountSats)
          return some swap

/-- Atomically transfer SSP leaves and redeem the operator-held preimage shares. -/
def swapForLightningReceive (bounded : Bool) (owner paymentHash invoice : String)
    (amountSats feeSats : Nat) : Ssp LightningReceiveSwap := do
  if feeSats ≠ 0 then throw "Spark receive swaps do not support a fee"
  let bytes ← Ssp.ofExcept (okOr "decode Lightning payment hash" (hexDecode paymentHash))
  let hash ← Ssp.ofExcept (okOr "Lightning payment hash" (Bytes32.ofBytes bytes))
  let ownerKey ← Ssp.ofExcept (D.parsePublicKey owner)
  let transferId ← receiveTransferId hash.text
  Ssp.mark (.swapReceive transferId owner paymentHash invoice amountSats)
  Ssp.locked .liquidity bounded do
    Ssp.spark .sync
    if let some recovered ← recoverLightningReceiveSwap D transferId hash ownerKey amountSats then
      return recovered
    Ssp.spark (.ensureExactLiquidity amountSats)
    Ssp.mapErr liquidityError (Ssp.spark (.prepareTransferRequest transferId ownerKey amountSats))
    let response ← Ssp.mapErr (fun e => s!"InitiatePreimageSwapV3(REASON_RECEIVE): {e}")
      (Ssp.spark (.initiatePreimageSwapV3
        { paymentHash := hash, transferId := transferId, receiver := ownerKey,
          invoice := invoice, amountSats := amountSats }))
    let preimage ← Ssp.ofExcept
      (okOr "operator response did not contain a 32-byte preimage" response.1)
    let transfer ← Ssp.ofExcept
      (okOr "operator receive swap did not return a transfer" response.2)
    let result ← Ssp.ofExcept (validateLightningReceiveSwap transfer preimage hash transferId
      D.identity ownerKey amountSats)
    -- the committed result stands even if refreshing the wallet's cache fails
    let _ ← Act.attempt (Ssp.spark .sync)
    return result

/-! ### Swaps -/

structure SwapFill where
  transferId : String
  leaves : List SwapLeaf
  expiresAt : Option Nat

def createCounterTransfer (primaryId : Uuid) (ownerKey : PublicKey) (adaptorPubkey : String)
    (targets : List Nat) (receivedTotalSats targetTotal : Nat) (counterId : Uuid) :
    Ssp Transfer := do
  Ssp.spark .sync
  let adaptor ← Ssp.ofExcept (D.parsePublicKey adaptorPubkey)
  let change := receivedTotalSats - targetTotal
  let amounts := if 0 < change then targets ++ [change] else targets
  Ssp.spark (.ensureDenominatedLiquidity amounts)
  Ssp.mapErr liquidityError
    (Ssp.spark (.transferSwapCounter amounts ownerKey primaryId adaptor counterId))

/-- `try_fold` with `checked_add`. -/
def checkedSum (e : String) : List Nat → Except String Nat
  | values => values.foldlM (fun sum value => okOr e (checkedAdd sum value)) 0

def fillSwap (owner outboundTransferId adaptorPubkey : String) (targets : List Nat)
    (receivedTotalSats payoutTotalSats : Nat) : Ssp SwapFill := do
  Ssp.mark (.fillSwap outboundTransferId)
  if targets = [] ∨ 0 ∈ targets then throw "swap targets must be positive"
  if payoutTotalSats ≠ receivedTotalSats then
    throw "Swap V3 fees are not supported by the operator protocol"
  let targetTotal ← Ssp.ofExcept (checkedSum "swap target total overflow" targets)
  if payoutTotalSats < targetTotal then throw "swap targets exceed the payout"
  let primaryId ← Ssp.ofExcept (TransferId.parse outboundTransferId)
  let primary ← waitForTransfer primaryId
  let ownerKey ← Ssp.ofExcept (D.parsePublicKey owner)
  Ssp.ofExcept (validateTransfer primary ownerKey D.identity receivedTotalSats)
  Ssp.ofExcept (validateSwapPrimaryClaimable primary.status)
  Ssp.locked .liquidity false do
    let primary ← Ssp.ofExcept (okOr "outbound swap transfer was not found for the SSP"
      (← findTransfer primaryId))
    Ssp.ofExcept (validateTransfer primary ownerKey D.identity receivedTotalSats)
    let counterId := counterTransferId outboundTransferId
    let counter ← match ← findTransfer counterId with
      | some counter => pure counter
      | none => do
          Ssp.ofExcept (validateSwapPrimaryClaimable primary.status)
          createCounterTransfer D primaryId ownerKey adaptorPubkey targets receivedTotalSats
            targetTotal counterId
    Ssp.ofExcept (validateTransfer counter D.identity ownerKey receivedTotalSats)
    let leaves ← Ssp.ofExcept (counter.leaves.mapM swapLeafResponse)
    if leaves = [] then throw "counter transfer has no leaves"
    return { transferId := counter.id.print, leaves := leaves, expiresAt := counter.expiryTime }

end Spark

end OpenSsp
