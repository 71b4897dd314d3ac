/-
OpenSsp/Transfer.lean

Spark transfers as the SDK reports them, the program's checks on them, and the
transfer ids it derives (`spark.rs`, pure functions).  The SDK's two views of a
transfer (`WalletTransfer` and `SparkTransfer`) are one record here.

A transfer id is a `Uuid`; its text form is the canonical one, and every spelling a
UUID parser accepts denotes the same id.

Main results: `validateTransfer_ok`, `validateLightningSendTransfer_ok` and
`validateLightningReceiveSwap_ok`, what a transfer that passes looks like.  The derived
ids depend on the spelling of the text they are given.
-/
import OpenSsp.Lightning
import Mathlib.Data.List.ReduceOption

namespace OpenSsp

open Interleave

inductive TransferStatus where
  | senderInitiated
  | senderInitiatedCoordinator
  | senderKeyTweakPending
  | senderKeyTweaked
  | receiverKeyTweaked
  | receiverKeyTweakLocked
  | receiverKeyTweakApplied
  | receiverRefundSigned
  | completed
  | expired
  | returned
deriving DecidableEq, Repr

/-- The transfer types the program compares with; the SDK has more. -/
inductive TransferType where
  | transfer
  | preimageSwap
  | cooperativeExit
  | other (name : String)
deriving DecidableEq

/-- An input of a transaction, as far as a check reads it. -/
structure TxIn where
  sequence : Nat
  witness : List (List UInt8)
deriving DecidableEq

/-- The parts of a refund transaction the program reads. -/
structure Transaction where
  inputs : List TxIn
  outputScripts : List Script
deriving DecidableEq

/-- `TransferLeaf` with what the program reads of its tree node. -/
structure TransferLeaf where
  id : String
  value : Nat
  refundTx : Option Transaction
  intermediateRefundTx : Transaction
  intermediateDirectRefundTx : Option Transaction
  intermediateDirectFromCpfpRefundTx : Option Transaction
deriving DecidableEq

structure Transfer where
  id : Uuid
  senderId : PublicKey
  receiverId : PublicKey
  totalValueSat : Nat
  transferType : TransferType
  status : TransferStatus
  expiryTime : Option Nat
  leaves : List TransferLeaf
deriving DecidableEq

inductive PreimageRequestStatus where
  | waitingForPreimage
  | preimageShared
  | returned
deriving DecidableEq

/-- `PreimageRequestWithTransfer` -/
structure PreimageRequest where
  paymentHash : Bytes32
  status : PreimageRequestStatus
  preimage : Option Bytes32
  transfer : Option Transfer
deriving DecidableEq

/-- The outcome of a swap: its transfer and the receiver's preimage. -/
structure LightningReceiveSwap where
  transferId : String
  preimage : String
deriving DecidableEq

/-- The status as it stands in an error. -/
def TransferStatus.text (s : TransferStatus) : String := (repr s).pretty

/-- `TransferId::from_str` -/
def TransferId.parse (s : String) : Except String Uuid := okOr "invalid transfer id" (Uuid.parse s)

/-! ### Checks -/

/-- The statuses behind the point where the sender has given its leaves away. -/
def fundingTransferCommitted : TransferStatus → Bool
  | .senderKeyTweaked => true
  | .receiverKeyTweaked => true
  | .receiverKeyTweakLocked => true
  | .receiverKeyTweakApplied => true
  | .receiverRefundSigned => true
  | .completed => true
  | _ => false

/-- Sender, receiver and value are the expected ones. -/
def validateTransfer (transfer : Transfer) (sender receiver : PublicKey) (totalSats : Nat) :
    Except String Unit := do
  if transfer.senderId ≠ sender then throw "transfer sender does not match"
  if transfer.receiverId ≠ receiver then throw "transfer receiver does not match"
  if transfer.totalValueSat ≠ totalSats then
    throw s!"transfer has {transfer.totalValueSat} sats; expected {totalSats}"

/-- A dead primary can never fund a swap; every other state is left to the
coordinator. -/
def validateSwapPrimaryClaimable (status : TransferStatus) : Except String Unit :=
  if status = .expired ∨ status = .returned then
    throw s!"outbound swap transfer is {status.text} and can no longer fund a swap"
  else pure ()

/-- The least time a refund must leave the SSP, in blocks. -/
def minClaimableRefundTimelock : Nat := 200

/-- The most a route may lock up, in blocks. -/
def maxRouteCltvBlocks : Nat := 1008

/-- `Duration::from_secs`; a duration is a number of nanoseconds. -/
def fromSecs (secs : Nat) : Nat := secs * 10 ^ 9

/-- `Duration::as_secs` -/
def asSecs (duration : Nat) : Nat := duration / 10 ^ 9

/-- Thirty minutes. -/
def slowBlockInterval : Nat := fromSecs (30 * 60)

/-- One day. -/
def preimageRevealMargin : Nat := fromSecs (24 * 60 * 60)

/-- `SystemTime`: nanoseconds since the epoch, of which the whole seconds are an `i64`. -/
structure SystemTime where
  nanos : Int
  lower : -(fromSecs (2 ^ 63) : Int) ≤ nanos
  upper : nanos < fromSecs (2 ^ 63)
deriving DecidableEq

namespace SystemTime

/-- The time `duration` after the epoch. -/
def after (duration : Nat) (h : duration < fromSecs (2 ^ 63)) : SystemTime :=
  ⟨duration, by omega, by exact_mod_cast h⟩

theorem epoch_representable : 0 < fromSecs (2 ^ 63) := by decide

/-- `UNIX_EPOCH` -/
def epoch : SystemTime := after 0 epoch_representable

/-- `UNIX_EPOCH.checked_add` -/
def epochCheckedAdd (duration : Nat) : Option SystemTime :=
  if h : duration < fromSecs (2 ^ 63) then some (after duration h) else none

/-- `duration_since(..).ok()` -/
def durationSince (t earlier : SystemTime) : Option Nat :=
  if earlier.nanos ≤ t.nanos then some (t.nanos - earlier.nanos).toNat else none

end SystemTime

/-- The refund cannot come before the SSP has claimed. -/
def refundTimelockSurvivesClaim (refundTx : Option Transaction) : Bool :=
  match refundTx.bind fun tx => tx.inputs.head? with
  | some input => minClaimableRefundTimelock ≤ input.sequence % 2 ^ 16
  | none => false

/-- Bound the route CLTV so that the payment resolves before the sender's transfer
expires; a transfer without an expiry keeps the full cap. -/
def routeCltvWithinExpiry (cap : Nat) (expiryTime : Option Nat) (now : SystemTime) :
    Except String Nat :=
  match (expiryTime.filter fun secs => 0 < secs).bind fun secs =>
      SystemTime.epochCheckedAdd (fromSecs secs) with
  | none => .ok cap
  | some expiry =>
      let time := (expiry.durationSince now).bind fun lifetime =>
        checkedSub lifetime preimageRevealMargin
      let blocks := (time.map fun time => asSecs time / asSecs slowBlockInterval).getD 0
      match min cap (min blocks (2 ^ 32 - 1)) with
      | 0 => .error "preimage swap transfer expires before a Lightning payment could resolve"
      | cap => .ok cap

/-- The refunds of one leaf that are present. -/
def TransferLeaf.refunds (leaf : TransferLeaf) : List Transaction :=
  [some leaf.intermediateRefundTx, leaf.intermediateDirectRefundTx,
    leaf.intermediateDirectFromCpfpRefundTx].reduceOption

/-- A refund pays the expected script and is timed well. -/
def validateRefund (leaf : TransferLeaf) (expected : Script) (refund : Transaction) :
    Except String Unit := do
  let output ← okOr s!"leaf {leaf.id} refund has no output" refund.outputScripts.head?
  if output ≠ expected then
    throw s!"leaf {leaf.id} refund does not pay the expected Lightning HTLC; refusing to pay"

/-- All refunds of a leaf, and what it costs to claim it. -/
def validateLeaf (expected : Script) (leaf : TransferLeaf) : Except String Unit := do
  if ¬ refundTimelockSurvivesClaim leaf.refundTx then
    throw s!"leaf {leaf.id} refund timelock is under {minClaimableRefundTimelock} blocks and must be renewed before it can be sent"
  leaf.refunds.forM (validateRefund leaf expected)

/-- Check that a preimage-swap transfer really pays the SSP for this invoice. -/
def validateLightningSendTransfer (D : Deployment) (transfer : Transfer)
    (sender receiver : PublicKey) (amountSats : Nat) (paymentHash : Bytes32)
    (now : SystemTime) : Except String Nat := do
  if transfer.transferType ≠ .preimageSwap then throw "send funding is not a preimage swap"
  if transfer.senderId ≠ sender then
    throw "preimage swap sender does not match session owner"
  if transfer.receiverId ≠ receiver then
    throw "preimage swap receiver does not match the SSP"
  if transfer.totalValueSat ≠ amountSats then
    throw s!"preimage swap has {transfer.totalValueSat} sats; expected {amountSats}"
  if transfer.status ≠ .senderKeyTweakPending ∧ transfer.status ≠ .senderInitiatedCoordinator then
    throw s!"preimage swap transfer is {transfer.status.text}, not waiting on the SSP"
  if transfer.leaves = [] then throw "preimage swap transfer has no leaves"
  let expected ← D.htlcScript paymentHash receiver sender
  transfer.leaves.forM (validateLeaf expected)
  routeCltvWithinExpiry maxRouteCltvBlocks transfer.expiryTime now

/-- The transfer, its preimage and its leaves belong to the receive. -/
def validateLightningReceiveSwap (transfer : Transfer) (preimage : Bytes32)
    (paymentHash : Bytes32) (transferId : Uuid) (sender receiver : PublicKey)
    (invoiceAmountSats : Nat) : Except String LightningReceiveSwap := do
  if preimage.computeHash ≠ paymentHash then
    throw "operator preimage does not match the Lightning payment hash"
  if transfer.id ≠ transferId ∨ transfer.senderId ≠ sender ∨ transfer.receiverId ≠ receiver ∨
      transfer.transferType ≠ .preimageSwap then
    throw "operator receive swap returned a mismatched transfer"
  if transfer.totalValueSat ≠ invoiceAmountSats then
    throw s!"operator receive swap transferred {transfer.totalValueSat} sats; invoice requires exactly {invoiceAmountSats}"
  return { transferId := transfer.id.print, preimage := preimage.text }

/-- A leaf, as the answer to a swap lists it. -/
structure SwapLeaf where
  leafId : String
  adaptorSignedSignature : String
deriving DecidableEq

/-- The leaf of an answer, with all its refunds. -/
def swapLeafResponse (leaf : TransferLeaf) : Except String SwapLeaf := do
  let input ← okOr "swap refund has no input" leaf.intermediateRefundTx.inputs.head?
  let signature ← okOr "swap refund has no 64-byte adaptor signature"
    (input.witness.head?.filter fun s => s.length == 64)
  return { leafId := leaf.id, adaptorSignedSignature := hexEncode signature }

/-! ### Derived ids -/

/-- Stamp sixteen bytes as a version 4 UUID. -/
def deterministicTransferId (source : List UInt8) : Except String Uuid :=
  okOr "transfer id source must be 16 bytes" (Uuid.ofBytes
    ((source.set 6 ((source.getD 6 0 &&& 0x0f) ||| 0x40)).set 8
      ((source.getD 8 0 &&& 0x3f) ||| 0x80)))

/-- The id that a hash is paid out under. -/
def paymentTransferId (paymentHash : String) : Except String Uuid := do
  let bytes ← okOr "invalid hex" (hexDecode paymentHash)
  if bytes.length ≠ 32 then throw "payment hash must be 32 bytes"
  deterministicTransferId (bytes.take 16)

def utf8 (s : String) : List UInt8 := s.toUTF8.data.toList

/-- The id of the transfer that answers `primaryId`: a hash of its *text*. -/
def counterTransferId (primaryId : String) : Uuid :=
  let digest := sha256 (utf8 ("swap-counter:" ++ primaryId))
  ⟨((digest.take 16).set 6 ((digest.getD 6 0 &&& 0x0f) ||| 0x40)).set 8
    ((digest.getD 8 0 &&& 0x3f) ||| 0x80), by simp [digest]⟩

/-- The id under which the prepayment `outboundTransferId` is given back. -/
def refundTransferId (outboundTransferId : String) : Uuid :=
  counterTransferId ("bolt12-refund:" ++ outboundTransferId)

/-- One transfer, two spellings, two ids: the id hashes the text. -/
example : TransferId.parse "550E8400-E29B-41D4-A716-446655440000" =
      TransferId.parse "550e8400-e29b-41d4-a716-446655440000" ∧
    counterTransferId "550E8400-E29B-41D4-A716-446655440000" ≠
      counterTransferId "550e8400-e29b-41d4-a716-446655440000" := by
  decide +kernel

/-! ### What the checks establish -/

theorem validateTransfer_ok {transfer : Transfer} {sender receiver : PublicKey} {total : Nat}
    (h : validateTransfer transfer sender receiver total = .ok ()) :
    transfer.senderId = sender ∧ transfer.receiverId = receiver ∧
      transfer.totalValueSat = total := by
  unfold validateTransfer at h
  by_cases hs : transfer.senderId = sender
  · by_cases hr : transfer.receiverId = receiver
    · by_cases ht : transfer.totalValueSat = total
      · exact ⟨hs, hr, ht⟩
      · simp [hs, hr, ht, throw, throwThe, MonadExceptOf.throw] at h
    · simp [hs, hr, bind, Except.bind, throw, throwThe, MonadExceptOf.throw] at h
  · simp [hs, bind, Except.bind, throw, throwThe, MonadExceptOf.throw] at h

theorem validateLightningSendTransfer_ok {D : Deployment} {transfer : Transfer}
    {sender receiver : PublicKey} {amount cap : Nat} {hash : Bytes32} {now : SystemTime}
    (h : validateLightningSendTransfer D transfer sender receiver amount hash now = .ok cap) :
    transfer.transferType = .preimageSwap ∧ transfer.senderId = sender ∧
      transfer.receiverId = receiver ∧ transfer.totalValueSat = amount := by
  unfold validateLightningSendTransfer at h
  by_cases ht : transfer.transferType = .preimageSwap
  · by_cases hs : transfer.senderId = sender
    · by_cases hr : transfer.receiverId = receiver
      · by_cases ha : transfer.totalValueSat = amount
        · exact ⟨ht, hs, hr, ha⟩
        · simp [ht, hs, hr, ha, bind, Except.bind, throw, throwThe, MonadExceptOf.throw] at h
      · simp [ht, hs, hr, bind, Except.bind, throw, throwThe, MonadExceptOf.throw] at h
    · simp [ht, hs, bind, Except.bind, throw, throwThe, MonadExceptOf.throw] at h
  · simp [ht, bind, Except.bind, throw, throwThe, MonadExceptOf.throw] at h

theorem validateLightningReceiveSwap_ok {transfer : Transfer} {preimage hash : Bytes32}
    {id : Uuid} {sender receiver : PublicKey} {amount : Nat} {swap : LightningReceiveSwap}
    (h : validateLightningReceiveSwap transfer preimage hash id sender receiver amount = .ok swap) :
    preimage.computeHash = hash ∧ transfer.id = id ∧
      validateTransfer transfer sender receiver amount = .ok () ∧
      swap = { transferId := transfer.id.print, preimage := preimage.text } := by
  unfold validateLightningReceiveSwap at h
  by_cases hp : preimage.computeHash = hash
  · by_cases ht : transfer.id ≠ id ∨ transfer.senderId ≠ sender ∨ transfer.receiverId ≠ receiver ∨
      transfer.transferType ≠ .preimageSwap
    · simp [hp, ht, bind, Except.bind, throw, throwThe, MonadExceptOf.throw] at h
    · by_cases ha : transfer.totalValueSat = amount
      · simp only [hp, ht, ha, ne_eq, not_true_eq_false, if_false, bind, Except.bind, pure,
          Except.pure, Except.ok.injEq] at h
        push Not at ht
        obtain ⟨hid, hs, hr, -⟩ := ht
        exact ⟨hp, hid, by simp [validateTransfer, hs, hr, ha, pure, Except.pure], h.symm⟩
      · simp [hp, ht, ha, bind, Except.bind, throw, throwThe, MonadExceptOf.throw] at h
  · simp [hp, bind, Except.bind, throw, throwThe, MonadExceptOf.throw] at h

end OpenSsp
