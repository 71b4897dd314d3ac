/-
OpenSsp/Coop/Exit.lean

Cooperative exits (`coop_exit.rs`, and the operator side of them in `spark.rs`): a withdrawal
reserves a coin of the SSP's Bitcoin wallet and fixes the payout transaction; when the user's
conditional Spark transfer is verified the payout is signed, stored and broadcast; when it is
confirmed the user's leaves are claimed.  A request that is not completed in time expires.

Requests, completions, fee bumps and the worker run under one lock; the claim takes the
liquidity lock as well.  The operators keep reporting a transfer they have reported once
(`World.reported`).  The calls that sign and broadcast name the exit they are made for; the
wallet sees the transaction alone.
-/
import OpenSsp.Lib.Guard
import OpenSsp.Transfer
import OpenSsp.Coop.Db
import Mathlib.Data.Fin.VecNotation

namespace OpenSsp.Coop

open Interleave Bitcoin

/-! ### Transfers -/

/-- A leaf of a transfer, with the refunds that return it to its sender. -/
structure SparkTransferLeaf where
  id : String
  value : Nat
  intermediateRefundTx : Bitcoin.Transaction
  intermediateDirectRefundTx : Option Bitcoin.Transaction
  intermediateDirectFromCpfpRefundTx : Option Bitcoin.Transaction

structure SparkTransfer where
  id : Uuid
  senderIdentityPublicKey : PublicKey
  receiverIdentityPublicKey : PublicKey
  transferType : TransferType
  status : TransferStatus
  totalValue : Nat
  leaves : List SparkTransferLeaf

/-- A leaf of the user as the operators report it; `available` when its status is. -/
structure Node where
  ownerIdentityPublicKey : PublicKey
  sameNetwork : Bool
  available : Bool
  value : Nat

/-- The input of a withdrawal's request. -/
structure ExitInput where
  leafExternalIds : List String
  withdrawalAddress : String
  exitSpeed : String
  withdrawAll : Bool
  feeLeafExternalIds : Option (List String)
  feeQuoteId : Option String
  idempotencyKey : Option String
  userOutboundTransferExternalId : Option String
deriving DecidableEq

/-- The configured service, with the third-party code it calls. -/
structure Service (L : Library) where
  identity : PublicKey
  parsePublicKey : String → Except String PublicKey
  regtest : Bool
  userFee : Nat
  /-- The digest of a request's JSON, in hexadecimal. -/
  fingerprint : ExitInput → String

/-! ### Checks and transactions -/

/-- The value of each output of the connector, in satoshis. -/
def connectorSats : Nat := 330

/-- How long a quote is good for, and how long an exit waits for its transfer. -/
def quoteSeconds : Nat := 300

/-- The most leaves of one exit. -/
def maxLeaves : Nat := 100

/-- The value of the leaves; more than all the coins there can be is refused. -/
def total (leaves : List ExitLeaf) : Except String Nat :=
  leaves.foldlM (fun sum leaf =>
    okOr "withdrawal amount is out of range"
      ((checkedAdd sum leaf.value).filter (· ≤ 2100000000000000))) 0

/-- The leaves of an exit are between one and a hundred, each named once and in one spelling. -/
def validateIds (ids : List String) : Except String Unit :=
  if ids = [] ∨ maxLeaves < ids.length then .error "withdrawal requires 1 to 100 leaves"
  else
    let rec check (seen : List String) : List String → Except String Unit
      | [] => .ok ()
      | id :: ids =>
          match Uuid.parse id with
          | none => .error "invalid leaf UUID"
          | some parsed =>
              if parsed.print ≠ id ∨ id ∈ seen then
                .error "leaf IDs must be distinct canonical UUIDs"
              else check (id :: seen) ids
    check [] ids

/-- The three speeds, as the quote orders them. -/
def speedIndex (speed : String) : Except String (Fin 3) :=
  if speed = "FAST" then .ok 0
  else if speed = "MEDIUM" then .ok 1
  else if speed = "SLOW" then .ok 2
  else .error "invalid exit_speed"

variable {L : Library}

/-- Refunds of a leaf that have to spend its connector output. -/
def SparkTransferLeaf.refunds (leaf : SparkTransferLeaf) : List Bitcoin.Transaction :=
  leaf.intermediateRefundTx ::
    leaf.intermediateDirectRefundTx.toList ++ leaf.intermediateDirectFromCpfpRefundTx.toList

/-- The check of one recorded leaf; answers the connector outputs used so far. -/
def validateExitLeaf (transfer : SparkTransfer) (connectorId : Txid) (leafCount : Nat)
    (usedOutputs : List OutPoint) (expected : ExitLeaf) : Except String (List OutPoint) := do
  let leafMatches := transfer.leaves.filter (·.id == expected.id)
  let leaf ← okOr "withdrawal transfer has different leaves" leafMatches.head?
  if 1 < leafMatches.length ∨ leaf.value ≠ expected.value then
    throw "withdrawal transfer has duplicate or changed leaves"
  let connectorInput ← okOr "withdrawal refund has no connector input"
    leaf.intermediateRefundTx.input[1]?
  let connectorOutput := connectorInput.previousOutput
  if connectorOutput.txid ≠ connectorId ∨ leafCount ≤ connectorOutput.vout.toNat ∨
      connectorOutput ∈ usedOutputs then
    throw "withdrawal connector outputs must be distinct and cover the leaves"
  if leaf.refunds.any fun refund => refund.input.length != 2 ||
      (refund.input[1]?).map (·.previousOutput) != some connectorOutput then
    throw "withdrawal refund does not bind the expected connector output"
  if leaf.intermediateDirectFromCpfpRefundTx = none then
    throw "withdrawal transfer is missing its direct refund"
  return connectorOutput :: usedOutputs

/-- The user's transfer pays this exit: it is locked, and each of its leaves can be refunded only
together with an output of the connector. -/
def validateCoopExitTransfer (C : Service L) (transfer : SparkTransfer) (record : ExitRecord L) :
    Except String Unit := do
  let sender ← C.parsePublicKey record.owner
  if transfer.id.print ≠ record.transferId ∨ transfer.senderIdentityPublicKey ≠ sender ∨
      transfer.receiverIdentityPublicKey ≠ C.identity ∨
      transfer.transferType ≠ .cooperativeExit then
    throw "withdrawal transfer identity or type mismatch"
  if transfer.status ≠ .senderKeyTweakPending then
    throw s!"withdrawal transfer is not locked: {transfer.status.text}"
  let value ← okOr "withdrawal value overflow"
    (record.leaves.foldlM (fun sum leaf => checkedAdd sum leaf.value) 0)
  if transfer.totalValue ≠ value ∨ transfer.leaves.length ≠ record.leaves.length then
    throw "withdrawal transfer value or leaf count mismatch"
  let connector ← L.deserializeHex record.rawConnector
  discard (record.leaves.foldlM
    (validateExitLeaf transfer (L.computeTxid connector) record.leaves.length) [])

/-- The signed transaction is the payout, and every input has a witness. -/
def validateSignedExit (unsigned : Bitcoin.Transaction) (raw : L.Raw) : Except String Unit := do
  let signed ← L.deserializeHex raw
  if L.computeTxid signed ≠ L.computeTxid unsigned ∨ signed.input.any (·.witness.isEmpty) then
    throw "Bitcoin signing changed the payout transaction or omitted a witness"

/-- A child that spends the change and raises the fee of the package. -/
def cpfpTransaction (L : Library) (parent : Bitcoin.Transaction)
    (parentFee rate maxFee : Nat) (destination : Script) :
    Except String (Bitcoin.Transaction × Nat) := do
  let change ← okOr "withdrawal has no SSP change" parent.output[2]?
  if ¬ (isP2tr change.scriptPubkey || isP2wpkh change.scriptPubkey) then
    throw "fee bump needs SegWit SSP change"
  let child (value : UInt64) : Bitcoin.Transaction :=
    transaction [⟨L.computeTxid parent, 2⟩] [⟨value, destination⟩]
  -- an upper bound for a P2WPKH witness
  let vbytes := L.vsize (child change.value) + 28
  let packageFee ← okOr "fee overflow" (checkedMul rate (L.vsize parent + vbytes))
  let ownFee ← okOr "fee overflow" (checkedMul rate vbytes)
  let fee := max (packageFee - parentFee) ownFee
  if maxFee < fee then throw "fee bump exceeds max_fee_sats"
  if change.value.toNat < fee then throw "SSP change cannot fund the fee bump"
  let value := change.value.toNat - fee
  if value < L.minimalNonDust destination then throw "fee bump leaves a dust output"
  return (child (UInt64.ofNat value), fee)

/-- A coin as `listunspent` reports it. -/
structure Coin where
  spendable : Bool
  safe : Bool
  amount : Except String UInt64
  script : Except String Script
  outpoint : Except String OutPoint

/-- The coins that can fund a withdrawal, with their values. -/
def candidates (reserved : List OutPoint) (needed : Nat) :
    List Coin → Except String (List (Nat × OutPoint))
  | [] => .ok []
  | coin :: coins => do
      if ¬ (coin.spendable && coin.safe) then candidates reserved needed coins
      else do
        let amount ← coin.amount
        let value := amount.toNat
        let script ← coin.script
        if ¬ (isP2tr script || isP2wpkh script) ∨ value < needed then
          candidates reserved needed coins
        else do
          let outpoint ← coin.outpoint
          let others ← candidates reserved needed coins
          return if outpoint ∈ reserved then others else (value, outpoint) :: others

/-- The smallest coin, and of equal ones the first in the order of outpoints. -/
def selectCoin (coins : List (Nat × OutPoint)) : Option (Nat × OutPoint) :=
  (coins.mergeSort fun a b => a.1 < b.1 || a.1 == b.1 && a.2.le b.2).head?

/-! ### Calls -/

inductive Lock where
  | exits
  | liquidity
deriving DecidableEq

/-- The reply of `signrawtransactionwithwallet`. -/
structure SignReply (L : Library) where
  complete : Bool
  hex : Option L.Raw

/-- What the service asks of the outside: its tables, the operators and bitcoind. -/
inductive Call (L : Library) where
  | lock (l : Lock)
  | unlock (l : Lock)
  | now
  | newUuid
  | db (q : Query L)
  | queryNodes (ids : List String)
  | queryTransfer (id : Uuid)
  | getTransfer (id : Uuid)
  | processTransfer (id : Uuid)
  /-- `estimatesmartfee`: the rate, if there is one. -/
  | estimateFee (blocks : Nat)
  | listUnspent
  | getRawChangeAddress
  | signPayout (id : String) (raw : L.Raw)
  | signBump (id : String) (child : Bitcoin.Transaction)
  | sendPayout (id : String) (raw : Option L.Raw)
  | sendBump (id : String) (raw : L.Raw)
  /-- `gettransaction`: the confirmations, if they are an integer. -/
  | getTransaction (txid : Txid)
  /-- `gettxout`: is the output unspent? -/
  | getTxOut (outpoint : OutPoint)

@[reducible] def Call.Reply : Call L → Type
  | lock _ => Unit
  | unlock _ => Unit
  | now => Nat
  | newUuid => Uuid
  | db q => Except String q.Out
  | queryNodes _ => Except String (List (String × Node))
  | queryTransfer _ => Except String (Option SparkTransfer)
  | getTransfer _ => Except String (Option SparkTransfer)
  | processTransfer _ => Except String Unit
  | estimateFee _ => Except String (Option (Except String Nat))
  | listUnspent => Except String (List Coin)
  | getRawChangeAddress => Except String (Option String)
  | signPayout .. => Except String (SignReply L)
  | signBump .. => Except String (SignReply L)
  | sendPayout .. => Except String Unit
  | sendBump .. => Except String Unit
  | getTransaction _ => Except String (Option Int)
  | getTxOut _ => Except String Bool

@[reducible] def Api (L : Library) : Interface := ⟨Call L, Call.Reply⟩

/-- A function of the source: it can call, and fail with a text. -/
abbrev Ssp (L : Library) (α : Type) := Act (Api L) String α

def tell (c : Call L) : Ssp L c.Reply := Act.tell (I := Api L) c

/-- A query of the tables. -/
def db (q : Query L) : Ssp L q.Out := Act.ask (I := Api L) (.db q) id

/-- Run `body` with the guard of a lock. -/
def locked {α : Type} (l : Lock) (body : Ssp L α) : Ssp L α :=
  Act.bracket (tell (.lock l)) (tell (.unlock l)) body

/-- The operators' nodes of the given ids. -/
def queryNodes (ids : List String) : Ssp L (List (String × Node)) :=
  Act.ask (I := Api L) (.queryNodes ids) id

/-- A transfer as the wallet's own query sees it. -/
def queryTransfer (transfer : Uuid) : Ssp L (Option SparkTransfer) :=
  Act.ask (I := Api L) (.queryTransfer transfer) id

/-- A transfer as the SSP's SDK sees it. -/
def getTransfer (transfer : Uuid) : Ssp L (Option SparkTransfer) :=
  Act.ask (I := Api L) (.getTransfer transfer) id

/-- The claim of a transfer's leaves. -/
def processTransfer (transfer : Uuid) : Ssp L Unit :=
  Act.ask (I := Api L) (.processTransfer transfer) id

def estimateFee (blocks : Nat) : Ssp L (Option (Except String Nat)) :=
  Act.ask (I := Api L) (.estimateFee blocks) id

def listUnspent : Ssp L (List Coin) := Act.ask (I := Api L) .listUnspent id

def getRawChangeAddress : Ssp L (Option String) := Act.ask (I := Api L) .getRawChangeAddress id

/-- The signature of a payout by the SSP's wallet. -/
def signPayout (exit : String) (raw : L.Raw) : Ssp L (SignReply L) :=
  Act.ask (I := Api L) (.signPayout exit raw) id

def signBump (exit : String) (child : Bitcoin.Transaction) : Ssp L (SignReply L) :=
  Act.ask (I := Api L) (.signBump exit child) id

def sendPayout (exit : String) (raw : Option L.Raw) : Ssp L Unit :=
  Act.ask (I := Api L) (.sendPayout exit raw) id

def sendBump (exit : String) (raw : L.Raw) : Ssp L Unit :=
  Act.ask (I := Api L) (.sendBump exit raw) id

def getTransaction (txid : Txid) : Ssp L (Option Int) :=
  Act.ask (I := Api L) (.getTransaction txid) id

/-- Whether an output is still unspent. -/
def getTxOut (outpoint : OutPoint) : Ssp L Bool := Act.ask (I := Api L) (.getTxOut outpoint) id

/-- A fresh address of the wallet, as a script. -/
def walletAddress : Ssp L Address := do
  let text ← getRawChangeAddress
  Act.ofExcept (okOr "Bitcoin returned no address" text >>= L.parseAddress)

/-! ### The operator side -/

variable (C : Service L)

/-- One leaf of the user, as the operators report it. -/
def exitLeaf (nodes : List (String × Node)) (owner : PublicKey) (id : String) :
    Except String ExitLeaf := do
  let node ← okOr "withdrawal leaf unavailable; the operator must permit this SSP to read the leaf"
    (nodes.lookup id)
  if node.ownerIdentityPublicKey ≠ owner ∨ ¬ node.sameNetwork then
    throw "withdrawal leaf owner or network mismatch"
  if ¬ node.available ∨ node.value = 0 then throw "withdrawal leaf is not available"
  return ⟨id, node.value⟩

/-- The leaves of a request, each the owner's and available, with the values the operators report.
-/
def leaves (owner : String) (ids : List String) : Ssp L (List ExitLeaf) := do
  let nodes ← queryNodes ids
  let owner ← Act.ofExcept (C.parsePublicKey owner)
  Act.ofExcept (ids.mapM (exitLeaf nodes owner))

/-- Whether the operators know the transfer of an exit. -/
def transferExists (id : String) : Ssp L Bool := do
  let id ← Act.ofExcept (TransferId.parse id)
  let transfer ← queryTransfer id
  return transfer.isSome

/-- The transfer that pays for an exit, as the operators have it now. -/
def verify (record : ExitRecord L) : Ssp L Unit := do
  let id ← Act.ofExcept (TransferId.parse record.transferId)
  let transfer ← queryTransfer id
  let transfer ← Act.ofExcept
    (okOr "conditional withdrawal transfer is not available yet" transfer)
  Act.ofExcept (validateCoopExitTransfer C transfer record)

/-- A transfer that is not complete is processed. -/
def processUnlessCompleted (id : Uuid) (transfer : SparkTransfer) : Ssp L Unit :=
  if transfer.status = .completed then return () else processTransfer id

/-- The SSP takes the leaves of the transfer, and sees it completed. -/
def claimTransfer (id : Uuid) : Ssp L Unit := do
  let transfer ← getTransfer id
  let transfer ← Act.ofExcept (okOr "withdrawal Spark transfer not found" transfer)
  if transfer.transferType ≠ .cooperativeExit ∨
      transfer.receiverIdentityPublicKey ≠ C.identity then
    throw "withdrawal transfer is not addressed to this SSP"
  processUnlessCompleted id transfer
  let transfer ← getTransfer id
  let transfer ← Act.ofExcept (okOr "withdrawal Spark transfer disappeared" transfer)
  if transfer.status ≠ .completed then throw "withdrawal Spark claim is pending"

/-- The claim of an exit's transfer, under the lock of liquidity. -/
def claim (record : ExitRecord L) : Ssp L Unit :=
  locked .liquidity do
    let id ← Act.ofExcept (TransferId.parse record.transferId)
    claimTransfer C id

/-! ### Quotes -/

/-- The node's estimate in whole satoshis for a virtual byte, at least one. -/
def feeRate (blocks : Nat) : Ssp L Nat := do
  match ← estimateFee blocks with
  | some value => do
      let sats ← Act.ofExcept value
      return max ((sats + 999) / 1000) 1
  | none => if C.regtest then return 1 else throw "Bitcoin fee estimate unavailable"

/-- `quote`: the fee of each speed for a payout to the address. -/
def quote (owner : String) (leafExternalIds : List String) (withdrawalAddress : String) :
    Ssp L ExitQuote := do
  Act.ofExcept (validateIds leafExternalIds)
  let address ← Act.ofExcept (L.parseAddress withdrawalAddress)
  let leaves ← leaves C owner leafExternalIds
  let fast ← feeRate C 2
  let medium ← feeRate C 6
  let slow ← feeRate C 12
  -- one native-SegWit input, payout, connector funding, and change
  let vbytes := 11 + 69 + 2 * 43 + 8 + 1 + address.scriptPubkey.length
  let fee (rate : Nat) := okOr "withdrawal fee overflow" (checkedMul vbytes rate)
  let fees ← Act.ofExcept (do return ![← fee fast, ← fee medium, ← fee slow])
  let id ← tell .newUuid
  let createdAt ← tell .now
  let expiresAt ← tell .now
  let quote : ExitQuote :=
    { id := id.print, owner, address := address.text, leaves, createdAt,
      expiresAt := expiresAt + quoteSeconds, userFee := C.userFee,
      rates := ![fast, medium, slow], fees }
  db (.saveCoopQuote quote)
  return quote

/-! ### Requests -/

/-- The answer of a request, without its display fields. -/
structure ExitResponse (L : Library) where
  record : ExitRecord L
  coopExitTxid : Txid

/-- The answer for an exit, with the txid of its payout. -/
def response (record : ExitRecord L) : Ssp L (ExitResponse L) := do
  db (.requestUpdatedAt record.id)
  let exit ← Act.ofExcept (L.deserializeHex record.rawExit)
  return ⟨record, L.computeTxid exit⟩

/-- What a request names once its texts are checked. -/
structure ExitKey where
  speed : Fin 3
  transferId : String
  key : String

/-- The checks that need no call; without a key of its own a request has its transfer's. -/
def checkRequest (request : ExitInput) : Except String ExitKey := do
  validateIds request.leafExternalIds
  let speed ← speedIndex request.exitSpeed
  let transferId ← okOr "user_outbound_transfer_external_id is required"
    request.userOutboundTransferExternalId
  let parsed ← okOr "invalid transfer UUID" (Uuid.parse transferId)
  if parsed.print ≠ transferId then throw "transfer ID must be a canonical UUID"
  let key := (request.idempotencyKey.filter (· ≠ "")).getD transferId
  if 200 < key.utf8ByteSize then throw "idempotency_key is too long"
  return { speed, transferId, key }

/-- The payout, and the leaves that pay it with its fees. -/
def withdrawalAmount (request : ExitInput) (quote : ExitQuote) (speed : Fin 3)
    (leaves : List ExitLeaf) (owner : String) : Ssp L (Nat × List ExitLeaf) := do
  let fees ← Act.ofExcept
    (okOr "withdrawal fee overflow" (checkedAdd quote.userFee (quote.fees speed)))
  let amount ← Act.ofExcept (total leaves)
  let feeIds := request.feeLeafExternalIds.getD []
  if request.withdrawAll then
    if feeIds ≠ [] then throw "withdraw_all cannot include fee leaves"
    else if amount < fees then throw "withdrawal amount does not cover fees"
    else return (amount - fees, leaves)
  else do
    Act.ofExcept (validateIds feeIds)
    let feeLeaves ← Coop.leaves C owner feeIds
    let feeTotal ← Act.ofExcept (total feeLeaves)
    if feeTotal ≠ fees then throw "fee leaves must exactly cover the quoted fees"
    let leaves := leaves ++ feeLeaves
    Act.ofExcept (validateIds (leaves.map (·.id)))
    return (amount, leaves)

/-- The quote a request names, or a new one. -/
def quoteFor (owner : String) (request : ExitInput) : Ssp L ExitQuote :=
  match request.feeQuoteId with
  | some id => do
      let found ← db (.coopQuote id owner)
      Act.ofExcept (okOr "withdrawal quote not found" found)
  | none => quote C owner request.leafExternalIds request.withdrawalAddress

/-- The outputs of the connector, each to a fresh address. -/
def connectorOutputs : Nat → Ssp L (List TxOut)
  | 0 => return []
  | n + 1 => do
      let address ← walletAddress
      let outputs ← connectorOutputs n
      return ⟨UInt64.ofNat connectorSats, address.scriptPubkey⟩ :: outputs

/-- The smallest coin that is not reserved and covers the withdrawal. -/
def fund (reserved : List OutPoint) (needed : Nat) : Ssp L (Nat × OutPoint) := do
  let unspent ← listUnspent
  let coins ← Act.ofExcept (candidates reserved needed unspent)
  Act.ofExcept (okOr
    ("withdrawal needs one unreserved confirmed SegWit UTXO large enough for payout, fees, " ++
      "and connector funding") (selectCoin coins))

/-- A withdrawal of leaves that belong to the owner, for a quote that is still valid. -/
def reserve (owner : String) (request : ExitInput) (key : ExitKey) (quote : ExitQuote)
    (address : Address) (payout : Nat) (leaves : List ExitLeaf) : Ssp L (ExitResponse L) := do
  let reserved ← db .coopReservedInputs
  let fee := quote.fees key.speed
  let intermediate := connectorSats * (leaves.length + 1)
  let needed ← Act.ofExcept (okOr "withdrawal amount overflow"
    ((checkedAdd payout fee).bind fun v => checkedAdd v (intermediate + connectorSats)))
  let coin ← fund reserved needed
  let intermediateAddress ← walletAddress
  let changeAddress ← walletAddress
  let exit := transaction [coin.2]
    [⟨UInt64.ofNat payout, address.scriptPubkey⟩,
      ⟨UInt64.ofNat intermediate, intermediateAddress.scriptPubkey⟩,
      ⟨UInt64.ofNat (coin.1 - payout - intermediate - fee), changeAddress.scriptPubkey⟩]
  let outputs ← connectorOutputs (leaves.length + 1)
  let connector := transaction [⟨L.computeTxid exit, 1⟩] outputs
  let id ← tell .newUuid
  let createdAt ← tell .now
  let expiresAt ← tell .now
  let record : ExitRecord L :=
    { id := id.print, owner, transferId := key.transferId, idempotencyKey := key.key,
      fingerprint := C.fingerprint request, quote, leaves, speed := request.exitSpeed,
      payoutSats := payout, feeSats := fee, createdAt, expiresAt := expiresAt + quoteSeconds,
      rawExit := L.serializeHex exit, rawConnector := L.serializeHex connector,
      signedExit := none, status := .initiated }
  db (.insertCoopExit record coin.2)
  response record

def requestNew (owner : String) (request : ExitInput) (key : ExitKey) :
    Ssp L (ExitResponse L) := do
  let pending ← db (.coopExitPendingForOwner owner)
  if pending then throw "complete the pending withdrawal before requesting another"
  let quote ← quoteFor C owner request
  let address ← Act.ofExcept (L.parseAddress request.withdrawalAddress)
  let now ← tell .now
  if quote.expiresAt ≤ now ∨ quote.address ≠ address.text then
    throw "withdrawal quote expired or does not match the address"
  let leaves ← leaves C owner request.leafExternalIds
  let amount ← withdrawalAmount C request quote key.speed leaves owner
  if amount.1 < L.minimalNonDust address.scriptPubkey then
    throw "withdrawal payout is below the address dust limit"
  reserve C owner request key quote address amount.1 amount.2

/-- `request`: the same key and transfer with the same input is answered with the same exit. -/
def request (owner : String) (request : ExitInput) : Ssp L (ExitResponse L) := do
  let key ← Act.ofExcept (checkRequest request)
  locked .exits do
    match ← db (.coopExitByKey owner key.key key.transferId) with
    | some record =>
        if record.fingerprint ≠ C.fingerprint request then
          throw "withdrawal key or transfer ID was already used for another request"
        response record
    | none => requestNew C owner request key

/-! ### Payouts -/

/-- The payout is signed once the user's transfer is verified. -/
def sign (exit : Bitcoin.Transaction) (record : ExitRecord L) : Ssp L (ExitRecord L) :=
  if record.signedExit.isSome then return record
  else do
    verify C record
    db (.insertTransfer record.transferId record.id "COOPERATIVE_EXIT" "PENDING" record.owner)
    let signed ← signPayout record.id record.rawExit
    if ¬ signed.complete then throw "Bitcoin wallet could not sign the withdrawal"
    let raw ← Act.ofExcept (okOr "Bitcoin returned no signed transaction" signed.hex)
    Act.ofExcept (validateSignedExit exit raw)
    let record := { record with signedExit := some raw, status := .inboundTransferChecked }
    db (.updateCoopExit record)
    return record

/-- The same durable transaction is broadcast again until it is confirmed. -/
def broadcast (record : ExitRecord L) : Ssp L (ExitRecord L) := do
  sendPayout record.id record.signedExit
  let record := { record with status := .txBroadcasted }
  db (.updateCoopExit record)
  match ← db (.coopExitBump record.id) with
  | some (raw, _) => do
      sendBump record.id raw
      return record
  | none => return record

/-- The payout is confirmed: the SSP claims the transfer that paid for it. -/
def settle (record : ExitRecord L) : Ssp L (ExitRecord L) := do
  let record := { record with status := .onChainTxConfirmed }
  db (.updateCoopExit record)
  claim C record
  let record := { record with status := .succeeded }
  db (.updateCoopExit record)
  return record

/-- One round of an exit that is not over: sign, look for a confirmation, then broadcast or settle.
-/
def advance (record : ExitRecord L) : Ssp L (ExitRecord L) :=
  if record.status.terminal then return record
  else do
    let exit ← Act.ofExcept (L.deserializeHex record.rawExit)
    let record ← sign C exit record
    let observed ← Act.attempt (getTransaction (L.computeTxid exit))
    let confirmations := (observed.toOption.bind id).getD 0
    if confirmations < 0 then
      throw "withdrawal transaction is conflicted; input reservation retained"
    if confirmations = 0 then broadcast record else settle C record

/-- `complete`: the wallet has sent its transfer. -/
def complete (owner transferId : String) (coopExitRequestId : Option String) :
    Ssp L (ExitResponse L) :=
  locked .exits do
    let found ← db (.coopExitByKey owner "" transferId)
    let record ← Act.ofExcept (okOr "withdrawal request not found" found)
    if coopExitRequestId.any (· ≠ record.id) then
      throw "withdrawal request ID does not match the transfer"
    if record.status = .expired then throw "withdrawal request expired"
    let record ← advance C record
    response record

/-- `get`: an exit, for its owner. -/
def get (id owner : String) : Ssp L (Option (ExitResponse L)) := do
  match ← db (.coopExit id owner) with
  | some record => do
      let answer ← response record
      return some answer
  | none => return none

/-! ### Fee bumps -/

/-- The answer to a fee bump. -/
structure BumpResponse where
  txid : Txid
  feeSats : Nat
  parentTxid : Txid

/-- Broadcast the bump that is there again. -/
def rebroadcast (id : String) (parent : Bitcoin.Transaction) (raw : L.Raw)
    (previousRate feeRate maxFeeSats : Nat) : Ssp L BumpResponse := do
  if previousRate ≠ feeRate then
    throw "a fee bump already exists; retry with its original fee_rate"
  let child ← Act.ofExcept (L.deserializeHex raw)
  let change ← Act.ofExcept (okOr "withdrawal has no SSP change" parent.output[2]?)
  let payout ← Act.ofExcept (okOr "fee bump has no payout output" child.output.head?)
  if change.value < payout.value then throw "fee bump output exceeds the parent change"
  let fee := change.value.toNat - payout.value.toNat
  if maxFeeSats < fee then throw "stored fee bump exceeds max_fee_sats"
  sendBump id raw
  return ⟨L.computeTxid child, fee, L.computeTxid parent⟩

/-- The first bump of an exit spends the payout's change. -/
def newBump (record : ExitRecord L) (parent : Bitcoin.Transaction)
    (feeRate maxFeeSats : Nat) : Ssp L BumpResponse := do
  let unspent ← getTxOut ⟨L.computeTxid parent, 2⟩
  if ¬ unspent then throw "withdrawal change is not available for a fee bump"
  let destination ← walletAddress
  let bump ← Act.ofExcept
    (cpfpTransaction L parent record.feeSats feeRate maxFeeSats destination.scriptPubkey)
  let signed ← signBump record.id bump.1
  if ¬ signed.complete then throw "Bitcoin wallet could not sign fee bump"
  let raw ← Act.ofExcept (okOr "Bitcoin returned no fee bump transaction" signed.hex)
  Act.ofExcept (validateSignedExit bump.1 raw)
  db (.insertCoopExitBump record.id raw feeRate)
  sendBump record.id raw
  return ⟨L.computeTxid bump.1, bump.2, L.computeTxid parent⟩

/-- `bump_fee`: only for a payout that is broadcast and unconfirmed. -/
def bumpFee (id : String) (feeRate maxFeeSats : Nat) : Ssp L BumpResponse := do
  if ¬ (1 ≤ feeRate ∧ feeRate ≤ 10000) ∨ maxFeeSats = 0 then
    throw "fee_rate must be 1 to 10000 sat/vB and max_fee_sats must be positive"
  locked .exits do
    let record ← db (.coopExitById id)
    if record.status ≠ .txBroadcasted then
      throw "only an unconfirmed broadcast withdrawal can be bumped"
    let raw ← Act.ofExcept (okOr "withdrawal is unsigned" record.signedExit)
    let parent ← Act.ofExcept (L.deserializeHex raw)
    let observed ← getTransaction (L.computeTxid parent)
    if observed ≠ some 0 then throw "withdrawal is confirmed or conflicted"
    match ← db (.coopExitBump id) with
    | some (raw, previousRate) => rebroadcast id parent raw previousRate feeRate maxFeeSats
    | none => newBump record parent feeRate maxFeeSats

/-! ### The worker -/

/-- An exit that is not signed expires with its quote. -/
def overdue (record : ExitRecord L) : Ssp L Bool :=
  if record.signedExit.isSome then return false
  else do
    let now ← tell .now
    return record.expiresAt ≤ now

/-- An exit that nobody has paid in time expires; the others are advanced. -/
def reconcile (record : ExitRecord L) : Ssp L Unit := do
  if ← overdue record then
    match ← Act.attempt (transferExists record.transferId) with
    | .ok false =>
        let _ ← Act.attempt (db (.updateCoopExit { record with status := .expired }))
        return ()
    | .error _ => return ()
    | .ok true =>
        let _ ← Act.attempt (advance C record)
        return ()
  else do
    let _ ← Act.attempt (advance C record)
    return ()

/-- One pass of the worker. -/
def pass : Ssp L Unit :=
  locked .exits do
    match ← Act.attempt (db .pendingCoopExits) with
    | .ok records => Act.forEach (reconcile C) records
    | .error _ => return ()

/-- The requests of wallets and the passes of the worker. -/
inductive Request where
  | quote (owner : String) (leafExternalIds : List String) (withdrawalAddress : String)
  | request (owner : String) (input : ExitInput)
  | complete (owner transferId : String) (coopExitRequestId : Option String)
  | get (id owner : String)
  | bumpFee (id : String) (feeRate maxFeeSats : Nat)
  | pass
deriving DecidableEq

/-- The program of a request; its answer is not looked at. -/
def Request.handler : Request → Prog (Api L) Unit
  | quote owner leafExternalIds withdrawalAddress =>
      discard (Coop.quote C owner leafExternalIds withdrawalAddress).run
  | request owner input => discard (Coop.request C owner input).run
  | complete owner transferId coopExitRequestId =>
      discard (Coop.complete C owner transferId coopExitRequestId).run
  | get id owner => discard (Coop.get (L := L) id owner).run
  | bumpFee id feeRate maxFeeSats => discard (Coop.bumpFee (L := L) id feeRate maxFeeSats).run
  | pass => discard (Coop.pass C).run

/-! ### The machine -/

structure World (L : Library) where
  db : Db L
  locks : Mutexes Lock
  now : Nat
  /-- The transfers the operators have reported. -/
  reported : List Uuid
  /-- The exits the wallet was asked to sign a payout for. -/
  signed : List String

inductive Choice (L : Library) where
  /-- As asked. -/
  | done
  /-- The call fails; a remote party may have acted all the same. -/
  | fail (e : String)
  | uuid (id : Uuid)
  | nodes (nodes : List (String × Node))
  | transfer (t : Option SparkTransfer)
  | estimate (rate : Option (Except String Nat))
  | unspent (coins : List Coin)
  | address (text : Option String)
  | sign (reply : SignReply L)
  | confirmations (n : Option Int)
  | available (b : Bool)

def perform (t : Nat) (c : Call L) (ch : Choice L) (w : World L) :
    Option (c.Reply × World L) :=
  match c, ch with
  | .lock l, .done => (w.locks.take t l).map fun locks => ((), { w with locks })
  | .unlock l, .done => some ((), { w with locks := w.locks.release t l })
  | .now, .done => some (w.now, w)
  | .newUuid, .uuid id => some (id, w)
  | .db q, .done =>
      let (r, db) := q.run w.now w.db
      some (r, { w with db })
  | .db _, .fail e => some (.error e, w)
  | .queryNodes _, .nodes nodes => some (.ok nodes, w)
  | .queryNodes _, .fail e => some (.error e, w)
  | .queryTransfer id, .transfer none => if id ∈ w.reported then none else some (.ok none, w)
  | .queryTransfer id, .transfer (some transfer) =>
      some (.ok (some transfer), { w with reported := id :: w.reported })
  | .queryTransfer _, .fail e => some (.error e, w)
  | .getTransfer _, .transfer transfer => some (.ok transfer, w)
  | .getTransfer _, .fail e => some (.error e, w)
  | .processTransfer _, .done => some (.ok (), w)
  | .processTransfer _, .fail e => some (.error e, w)
  | .estimateFee _, .estimate rate => some (.ok rate, w)
  | .estimateFee _, .fail e => some (.error e, w)
  | .listUnspent, .unspent coins => some (.ok coins, w)
  | .listUnspent, .fail e => some (.error e, w)
  | .getRawChangeAddress, .address text => some (.ok text, w)
  | .getRawChangeAddress, .fail e => some (.error e, w)
  | .signPayout id _, .sign reply => some (.ok reply, { w with signed := id :: w.signed })
  | .signPayout id _, .fail e => some (.error e, { w with signed := id :: w.signed })
  | .signBump .., .sign reply => some (.ok reply, w)
  | .signBump .., .fail e => some (.error e, w)
  | .sendPayout .., .done => some (.ok (), w)
  | .sendPayout .., .fail e => some (.error e, w)
  | .sendBump .., .done => some (.ok (), w)
  | .sendBump .., .fail e => some (.error e, w)
  | .getTransaction _, .confirmations n => some (.ok n, w)
  | .getTransaction _, .fail e => some (.error e, w)
  | .getTxOut _, .available b => some (.ok b, w)
  | .getTxOut _, .fail e => some (.error e, w)
  | _, _ => none

inductive Outside where
  | tick (n : Nat)
  /-- Other parts of the program write the tables they share with exits. -/
  | others (requests : Table RequestRow.id) (transfers : Table TransferRow.sparkId)

def outside (o : Outside) (w : World L) : Option (World L) :=
  match o with
  | .tick n => some { w with now := w.now + n }
  | .others requests transfers => some { w with db := { w.db with requests, transfers } }

def machine : Machine (Api L) where
  World := World L
  Choice := Choice L
  Outside := Outside
  Request := Request
  init := ⟨.empty, .free, 0, [], []⟩
  handler := Request.handler C
  perform := perform
  outside := outside
  cancel t w := { w with locks := w.locks.drop t }
  crash w := { w with locks := .free }

end OpenSsp.Coop
