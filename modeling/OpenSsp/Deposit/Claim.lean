/-
OpenSsp/Deposit/Claim.lean

Static deposits (`static_deposits.rs`, `instant_deposits.rs`, and the operator side of them in
`spark.rs`): a deposit is quoted, claimed with a Spark transfer to the user, and recovered by a
Bitcoin transaction that spends the deposited output.  A fixed claim waits until the deposit is
confirmed; an instant one is paid before, and looks for a replacement of an output that is gone.

Quotes, claims and the workers run under one lock; what pays takes the liquidity lock as well.  The
calls that observe and broadcast a recovery transaction name the claim they are made for; the node
sees the transaction alone.  What the node, the operators and the wallet reply is arbitrary.
-/
import OpenSsp.Lib.Guard
import OpenSsp.Lib.Calls
import OpenSsp.Transfer
import OpenSsp.Deposit.Db

namespace OpenSsp.Deposit

open Interleave Bitcoin

/-! ### Inputs and replies -/

/-- An output of the chain, as a request names it. -/
structure OutputInput where
  network : Option String
  transactionId : Option String
  outputIndex : Option Nat

/-- The input of a fixed claim. -/
structure ClaimInput extends OutputInput where
  quoteSignature : Option String
  creditAmountSats : Option Nat
  requestType : Option String
  encryptedDepositSecretKey : Option String
  signature : Option String

/-- The input of a claim of an instant quote. -/
structure InstantClaimInput where
  staticDepositQuoteId : Option String
  privateKeyShare : Option String
  encryptedPrivateKeyShare : Option String
  signature : Option String

/-- The reply of `gettxout`; the script is its text in hexadecimal. -/
structure Coin where
  confirmations : Option Nat
  value : Except String Nat
  script : Option String

/-- An output of a block's transaction, as the node prints it. -/
structure BlockOutput where
  script : Option String
  value : Except String Nat
  n : Option Nat

/-- A transaction of a block, as `getblock` lists it. -/
structure BlockTx where
  txid : Option String
  vout : Option (List BlockOutput)

/-- A static deposit address of a wallet, as the operators list it. -/
structure DepositAddress where
  depositAddress : String
  userSigningPublicKey : List UInt8
  verifyingPublicKey : List UInt8

/-- A signing nonce of the SSP: its commitment, and its secret as it is stored. -/
structure Nonce where
  commitments : List UInt8
  noncesCiphertext : List UInt8

/-- A transfer as the operators report it in their answers for deposits. -/
structure DepositTransfer where
  id : String
  senderIdentityPublicKey : List UInt8
  receiverIdentityPublicKey : List UInt8
  totalValue : Nat

/-- The operators' reply: the transfer, and their shares of the recovery's signature. -/
structure SwapReply where
  transfer : Option DepositTransfer
  spendTxSigningResult : Option (List UInt8)

/-- The configured service, with the third-party code and the signing key it uses. -/
structure Service (L : Library) where
  identity : List UInt8
  network : String
  instantLimit : Nat
  instantMaxDeposit : Nat
  parsePublicKey : String → Except String PublicKey
  parseTxid : String → Option Txid
  printTxid : Txid → String
  hexBytes : String → Except String (List UInt8)
  scriptFromHex : String → Except String Script
  addressFromScript : Network → Script → Except String String
  /-- The signature of a quote: network, output, owner, credit and expiry. -/
  signDepositQuote : String → String → UInt32 → String → Nat → Nat → String
  /-- The signature of an instant quote, with its id and the value of the output. -/
  signInstantQuote : String → String → String → String → UInt32 → Nat → Nat → Nat → String
  validateStaticAuthorization : DepositQuote → String → String → Except String Unit
  instantAuthorization : DepositQuote → Option String → Option String → String →
    Except String String

variable {L : Library}

/-! ### Calls -/

inductive Lock where
  | deposits
  | liquidity
deriving DecidableEq

/-- Which claim a call is made for. -/
inductive ClaimRef where
  | fixed (id : String)
  | instant (id : String)
deriving DecidableEq

/-- What the service asks of the outside: its tables, bitcoind and the operators. -/
inductive Call (L : Library) where
  | lock (l : Lock)
  | unlock (l : Lock)
  | now
  | newUuid
  | db (q : Query L)
  /-- At most 20 pending instant claims in random order. -/
  | sampleInstants
  | getTxOut (txid : String) (vout : Nat)
  /-- `getmempoolentry`: the number of ancestors. -/
  | getMempoolEntry (txid : String)
  | estimateFee
  | getBlockCount
  | getBlockHash (height : Nat)
  | getBlock (hash : String)
  | getRawChangeAddress
  /-- `gettransaction`: the confirmations, if they are an integer. -/
  | getTransaction (claim : ClaimRef) (txid : Txid)
  | sendRecovery (claim : ClaimRef) (raw : L.Raw)
  | queryStaticDepositAddresses (owner : PublicKey) (address : String)
  | selectLeaves (credit : Nat)
  | prepareTransfer (transferId : Uuid) (leaves : List String) (owner : PublicKey)
  | newNonce
  | initiateSwap (request : SwapRequest L)
  | recoverInstant (utxo : Option Utxo) (job : SigningJob L) (transferId : String)
  | reserveInstant (quote : DepositQuote) (request : SwapRequest L)
  /-- The own share of the signature, and the aggregation of both. -/
  | signRecovery (plan : StaticPlan L) (spend : Bitcoin.Transaction) (result : List UInt8)

@[reducible] def Call.Reply : Call L → Type
  | lock _ => Unit
  | unlock _ => Unit
  | now => Nat
  | newUuid => Uuid
  | db q => Except String q.Out
  | sampleInstants => Except String (List (InstantClaim L))
  | getTxOut .. => Except String (Option Coin)
  | getMempoolEntry _ => Except String (Option Nat)
  | estimateFee => Except String (Option (Except String Nat))
  | getBlockCount => Except String (Option Nat)
  | getBlockHash _ => Except String String
  | getBlock _ => Except String (Option (List BlockTx))
  | getRawChangeAddress => Except String (Option String)
  | getTransaction .. => Except String (Option Int)
  | sendRecovery .. => Except String Unit
  | queryStaticDepositAddresses .. => Except String (List DepositAddress)
  | selectLeaves _ => Except String (List String)
  | prepareTransfer .. => Except String (List UInt8)
  | newNonce => Except String Nonce
  | initiateSwap _ => Except String SwapReply
  | recoverInstant .. => Except String SwapReply
  | reserveInstant .. => Except String (Option DepositTransfer)
  | signRecovery .. => Except String (List UInt8)

@[reducible] def Api (L : Library) : Interface := ⟨Call L, Call.Reply⟩

/-- A function of the source: it can call, and fail with a text. -/
abbrev Ssp (L : Library) (α : Type) := Act (Api L) String α

def tell (c : Call L) : Ssp L c.Reply := Act.tell (I := Api L) c

/-- A query of the tables; its error is the caller's. -/
def db (q : Query L) : Ssp L q.Out := Act.ask (I := Api L) (.db q) id

/-- Run `body` with the guard of a lock. -/
def locked {α : Type} (l : Lock) (body : Ssp L α) : Ssp L α :=
  Act.bracket (tell (.lock l)) (tell (.unlock l)) body

/-- The order in which a pass takes the instant claims is sampled. -/
def sampleInstants : Ssp L (List (InstantClaim L)) := Act.ask (I := Api L) .sampleInstants id

def getTxOut (txid : String) (vout : Nat) : Ssp L (Option Coin) :=
  Act.ask (I := Api L) (.getTxOut txid vout) id

def getMempoolEntry (txid : String) : Ssp L (Option Nat) :=
  Act.ask (I := Api L) (.getMempoolEntry txid) id

def estimateFee : Ssp L (Option (Except String Nat)) := Act.ask (I := Api L) .estimateFee id

def getBlockCount : Ssp L Nat :=
  Act.ask (I := Api L) .getBlockCount fun r => r >>= okOr "Bitcoin height unavailable"

def getBlockHash (height : Nat) : Ssp L String := Act.ask (I := Api L) (.getBlockHash height) id

/-- The block itself, unless the node has pruned it. -/
def getBlock (hash : String) : Ssp L (Option (List BlockTx)) :=
  Act.ask (I := Api L) (.getBlock hash) id

def bitcoinChangeAddress : Ssp L Address :=
  Act.ask (I := Api L) .getRawChangeAddress fun r =>
    r >>= okOr "Bitcoin returned no recovery address" >>= L.parseAddress

def getTransaction (claim : ClaimRef) (txid : Txid) : Ssp L (Option Int) :=
  Act.ask (I := Api L) (.getTransaction claim txid) id

/-- The broadcast of a recovery, for the claim it belongs to. -/
def sendRecovery (claim : ClaimRef) (raw : L.Raw) : Ssp L Unit :=
  Act.ask (I := Api L) (.sendRecovery claim raw) id

def queryStaticDepositAddresses (owner : PublicKey) (address : String) :
    Ssp L (List DepositAddress) :=
  Act.ask (I := Api L) (.queryStaticDepositAddresses owner address) id

/-- The SSP's leaves for a credit. -/
def selectLeaves (credit : Nat) : Ssp L (List String) :=
  Act.ask (I := Api L) (.selectLeaves credit) id

/-- The transfer of the credit, prepared and not yet sent. -/
def prepareTransfer (transferId : Uuid) (leaves : List String) (owner : PublicKey) :
    Ssp L (List UInt8) :=
  Act.ask (I := Api L) (.prepareTransfer transferId leaves owner) id

/-- A nonce for the recovery's signature. -/
def newNonce : Ssp L Nonce := Act.ask (I := Api L) .newNonce id

/-- `initiate_static_deposit_utxo_swap`. -/
def initiateSwap (request : SwapRequest L) : Ssp L SwapReply :=
  Act.ask (I := Api L) (.initiateSwap request) id

/-- The recovery of an instant claim, whose transfer exists already. -/
def recoverInstant (utxo : Option Utxo) (job : SigningJob L) (transferId : String) :
    Ssp L SwapReply :=
  Act.ask (I := Api L) (.recoverInstant utxo job transferId) id

/-- The transfer of an instant credit, before the output is confirmed. -/
def reserveInstant (quote : DepositQuote) (request : SwapRequest L) :
    Ssp L (Option DepositTransfer) :=
  Act.ask (I := Api L) (.reserveInstant quote request) id

/-- The signature of the recovery, from both sides' shares. -/
def signRecovery (plan : StaticPlan L) (spend : Bitcoin.Transaction) (result : List UInt8) :
    Ssp L (List UInt8) :=
  Act.ask (I := Api L) (.signRecovery plan spend result) id

variable (C : Service L)

/-! ### Checks -/

/-- A request that names a network has to name this one. -/
def validateNetwork (input : OutputInput) : Except String Unit :=
  if input.network.any (· ≠ C.network) then .error "static deposit network mismatch" else .ok ()

/-- The configured network; every unknown name is taken as regtest. -/
def bitcoinNetwork : Network :=
  if C.network = "MAINNET" then .bitcoin
  else if C.network = "TESTNET" then .testnet
  else if C.network = "SIGNET" then .signet
  else .regtest

/-- The output a request names; its txid is printed again, so that one output has one text. -/
def outpoint (input : OutputInput) : Except String (String × UInt32) := do
  let text ← okOr "transaction_id required" input.transactionId
  let txid ← okOr "invalid transaction ID" (C.parseTxid text)
  let index ← okOr "output_index required" input.outputIndex
  if 2 ^ 32 ≤ index then throw "invalid output index"
  return (C.printTxid txid, UInt32.ofNat index)

/-- One input, and the credit to the SSP's own address. -/
def recoveryTransaction (outpoint : OutPoint) (credit : Nat) (destination : Script) :
    Bitcoin.Transaction :=
  transaction [outpoint] [⟨UInt64.ofNat credit, destination⟩]

/-- The same output script, as the node writes it. -/
def sameScript (script : Option String) (prev : TxOut) : Bool :=
  script == some (hexEncode prev.scriptPubkey)

/-! ### The operator side -/

/-- The one address of the wallet that the output pays. -/
def staticDepositAddress (owner address : String) : Ssp L DepositAddress := do
  let owner ← Act.ofExcept (C.parsePublicKey owner)
  let addresses ← queryStaticDepositAddresses owner address
  match addresses with
  | [found] =>
      if found.depositAddress ≠ address then
        throw "static deposit address does not belong to the session wallet"
      return found
  | _ => throw "static deposit address does not belong to the session wallet"

/-- The plan of a claim: the transfer of its credit and the unsigned recovery, in one request. -/
def prepareStaticClaim (quote : DepositQuote) (encrypted signature transferId : String)
    (spend : Bitcoin.Transaction) : Ssp L (StaticPlan L) := do
  let leaves ← selectLeaves quote.credit
  let owner ← Act.ofExcept (C.parsePublicKey quote.owner)
  let id ← Act.ofExcept (TransferId.parse transferId)
  let transfer ← prepareTransfer id leaves owner
  let nonce ← newNonce
  let txid ← Act.ofExcept (C.hexBytes quote.txid)
  let sspSignature ← Act.ofExcept (C.hexBytes quote.signature)
  let userSignature ← Act.ofExcept (C.hexBytes signature)
  let signingPublicKey ← Act.ofExcept (C.hexBytes quote.signingKey)
  let encryptedKey ← Act.ofExcept (C.hexBytes encrypted)
  let job : SigningJob L :=
    { signingPublicKey, rawTx := L.serializeHex spend,
      signingNonceCommitment := nonce.commitments }
  let request : SwapRequest L :=
    { onChainUtxo := some ⟨txid, quote.vout⟩, sspSignature, userSignature, transfer,
      spendTxSigningJob := some job, confirmationThreshold := some 3 }
  return { request, nonceCiphertext := nonce.noncesCiphertext, encryptedKey,
           prevOutput := quote.prevOutput }

/-- The operators' answer is about the transfer of this claim. -/
def checkTransfer (quote : DepositQuote) (transferId error : String) (transfer : DepositTransfer) :
    Except String Unit := do
  if transfer.id ≠ transferId then throw error
  let owner ← C.hexBytes quote.owner
  if transfer.receiverIdentityPublicKey ≠ owner ∨
      transfer.senderIdentityPublicKey ≠ C.identity then
    throw error

/-- The operators sign the recovery; with a fixed claim they also make the transfer. -/
def requestSigning (plan : StaticPlan L) (job : SigningJob L) (transferId : String)
    (instant : Bool) : Ssp L SwapReply :=
  if instant then recoverInstant plan.request.onChainUtxo job transferId
  else initiateSwap plan.request

/-- Ask the operators for a claim's transfer and signature; the answer has to be about this claim.
-/
def submitStaticClaim (quote : DepositQuote) (transferId : String) (plan : StaticPlan L)
    (instant : Bool) : Ssp L Bitcoin.Transaction := do
  let job ← Act.ofExcept (okOr "deposit plan lacks signing job" plan.request.spendTxSigningJob)
  let response ← requestSigning plan job transferId instant
  let transfer ← Act.ofExcept
    (okOr "operator returned no static deposit transfer" response.transfer)
  Act.ofExcept
    (checkTransfer C quote transferId "operator returned a different deposit transfer" transfer)
  let result ← Act.ofExcept
    (okOr "operator returned no deposit signing result" response.spendTxSigningResult)
  let spend ← Act.ofExcept (L.deserializeHex job.rawTx)
  let signature ← signRecovery plan spend result
  if ¬ isP2tr plan.prevOutput.scriptPubkey then throw "static deposit is not Taproot"
  match spend.input with
  | [] => throw "deposit recovery has no input"
  | first :: others =>
      return { spend with
        input := { first with witness := first.witness ++ [signature] } :: others }

/-- Ask the operators for an instant claim's transfer. -/
def submitInstantReserve (quote : DepositQuote) (transferId : String) (plan : StaticPlan L) :
    Ssp L Unit := do
  let reply ← reserveInstant quote plan.request
  let transfer ← Act.ofExcept (okOr "operator returned no instant deposit transfer" reply)
  if transfer.totalValue ≠ quote.credit then
    throw "operator returned a different instant deposit transfer"
  Act.ofExcept (checkTransfer C quote transferId
    "operator returned a different instant deposit transfer" transfer)

/-! ### Fixed deposits -/

/-- The node's estimate in whole satoshis for a virtual byte, at least one. -/
def feeRate : Ssp L Nat := do
  match ← estimateFee with
  | some value => do
      let sats ← Act.ofExcept value
      return max ((sats + 999) / 1000) 1
  | none =>
      if bitcoinNetwork C = .regtest then return 1 else throw "Bitcoin fee estimate unavailable"

/-- A quote of the output's value less the fee of its recovery, good for five minutes. -/
def newQuote (owner txid : String) (vout : UInt32) (value : Nat) (script : Script)
    (address : String) (deposit : DepositAddress) : Ssp L DepositQuote := do
  let rate ← feeRate C
  -- one Taproot input and one native SegWit recovery output
  let fee ← Act.ofExcept (okOr "deposit fee overflow" (checkedMul 99 rate))
  let credit ← Act.ofExcept (okOr "static deposit is too small after the recovery fee"
    ((checkedSub value fee).filter (330 ≤ ·)))
  let now ← tell .now
  let expires := now + 300
  let quote : DepositQuote :=
    { txid, vout, owner, network := C.network, credit, fee,
      signature := C.signDepositQuote C.network txid vout owner credit expires, expires, address,
      signingKey := hexEncode deposit.userSigningPublicKey,
      verifyingKey := hexEncode deposit.verifyingPublicKey,
      prevOutput := ⟨UInt64.ofNat value, script⟩ }
  db (.saveQuote quote)
  return quote

/-- The quote of the claim that exists, else one that is still good, else a new one. -/
def quoteOutput (owner txid : String) (vout : UInt32) : Ssp L DepositQuote := do
  match ← db (.depositClaim txid vout) with
  | some claimed =>
      if claimed.quote.owner ≠ owner then throw "deposit belongs to another wallet"
      return claimed.quote
  | none => do
      let found ← getTxOut txid vout.toNat
      let coin ← Act.ofExcept
        (okOr "static deposit needs an unspent output with 3 confirmations"
          (found.filter fun coin => 3 ≤ coin.confirmations.getD 0))
      let value ← Act.ofExcept coin.value
      let hex ← Act.ofExcept (okOr "Bitcoin returned no output script" coin.script)
      let script ← Act.ofExcept (C.scriptFromHex hex)
      let address ← Act.ofExcept (okOr "unsupported static deposit script"
        (C.addressFromScript (bitcoinNetwork C) script).toOption)
      let deposit ← staticDepositAddress C owner address
      match ← db (.depositQuote txid vout owner) with
      | some old => return old
      | none => newQuote C owner txid vout value script address deposit

/-- `quote`: the table and the chain are read under the lock of deposits. -/
def quote (owner : String) (input : OutputInput) : Ssp L DepositQuote := do
  Act.ofExcept (validateNetwork C input)
  let point ← Act.ofExcept (outpoint C input)
  locked .deposits (quoteOutput C owner point.1 point.2)

/-- The recovery transaction of a claim that has none is made with the operators. -/
def signSpend (record : DepositClaim L) : Ssp L (DepositClaim L) :=
  if record.signedSpend.isSome then return record
  else do
    let raw ← submitStaticClaim C record.quote record.transferId record.plan false
    let record :=
      { record with signedSpend := some (L.serializeHex raw), phase := .spendTxCreated }
    db (.saveClaim record)
    return record

/-- One round of a fixed claim: sign what is not signed, look for a confirmation, else send again.
-/
def advance (record : DepositClaim L) : Ssp L (DepositClaim L) :=
  if record.phase = .spendTxConfirmed then return record
  else do
    let record ← signSpend C record
    let raw ← Act.ofExcept (okOr "deposit has no recovery transaction" record.signedSpend)
    let tx ← Act.ofExcept (L.deserializeHex raw)
    -- a confirmed recovery may be rejected as already in chain on rebroadcast
    let observed ← Act.attempt (getTransaction (.fixed record.id) (L.computeTxid tx))
    let confirmed := decide (0 < (observed.toOption.bind id).getD 0)
    if confirmed then
      let record := { record with status := .succeeded, phase := .spendTxConfirmed }
      db (.saveClaim record)
      return record
    else do
      sendRecovery (.fixed record.id) raw
      let record := { record with status := .succeeded, phase := .spendTxBroadcast }
      db (.saveClaim record)
      return record

/-- The claim of an output that nobody has claimed, against a stored quote. -/
def newClaim (owner txid : String) (vout : UInt32) (input : ClaimInput) : Ssp L String := do
  let found ← db (.depositQuote txid vout owner)
  let quote ← Act.ofExcept (okOr "Query returned no rows" found)
  if input.quoteSignature ≠ some quote.signature ∨ input.creditAmountSats ≠ some quote.credit ∨
      input.requestType ≠ some "FIXED_AMOUNT" then
    throw "static claim does not match its fixed-amount quote"
  let encrypted ← Act.ofExcept
    (okOr "encrypted_deposit_secret_key required" input.encryptedDepositSecretKey)
  let signature ← Act.ofExcept (okOr "user signature required" input.signature)
  Act.ofExcept (C.validateStaticAuthorization quote encrypted signature)
  -- the chain is checked again right before a payout is prepared
  let coin ← getTxOut txid vout.toNat
  if ¬ coin.any fun coin => 3 ≤ coin.confirmations.getD 0 then
    throw "deposit is spent or no longer confirmed"
  let destination ← bitcoinChangeAddress
  let parsed ← Act.ofExcept (okOr "invalid txid" (C.parseTxid txid))
  let spend := recoveryTransaction ⟨parsed, vout⟩ quote.credit destination.scriptPubkey
  let transfer ← tell .newUuid
  let transferId := transfer.print
  let plan ← prepareStaticClaim C quote encrypted signature transferId spend
  let id ← tell .newUuid
  let record : DepositClaim L :=
    { id := id.print, quote, transferId, plan, signedSpend := none, status := .inProgress,
      phase := .created }
  db (.insertClaim record)
  let record ← advance C record
  return record.transferId

/-- The claim of an output: its own resumed, or a new one. -/
def claimOutput (owner txid : String) (vout : UInt32) (input : ClaimInput) : Ssp L String := do
  match ← db (.ownDepositClaim txid vout owner) with
  | some record =>
      if input.quoteSignature ≠ some record.quote.signature then
        throw "claim quote signature mismatch"
      let record ← advance C record
      return record.transferId
  | none => newClaim C owner txid vout input

/-- `claim`: nothing between the look-up and the insert can claim the output. -/
def claim (owner : String) (input : ClaimInput) : Ssp L String := do
  Act.ofExcept (validateNetwork C input.toOutputInput)
  let point ← Act.ofExcept (outpoint C input.toOutputInput)
  locked .deposits (locked .liquidity (claimOutput C owner point.1 point.2 input))

/-- A claim that cannot be advanced now keeps the error. -/
def recover (record : DepositClaim L) : Ssp L Unit := do
  match ← Act.attempt (advance C record) with
  | .ok _ => return ()
  | .error e =>
      let _ ← Act.attempt (db (.claimError record.id e))
      return ()

/-- One pass of the worker of fixed claims (`run`). -/
def pass : Ssp L Unit :=
  locked .deposits do
    match ← Act.attempt (db .pendingClaims) with
    | .ok records => Act.forEach (fun record => locked .liquidity (recover C record)) records
    | .error _ => return ()

/-! ### Instant deposits -/

/-- An unconfirmed output must spend confirmed inputs. -/
def checkAncestors (txid : String) (coin : Coin) : Ssp L Unit :=
  if coin.confirmations = some 0 then do
    let ancestors ← getMempoolEntry txid
    if ancestors ≠ some 1 then throw "instant deposit must spend confirmed inputs"
  else return ()

/-- An instant quote, within the limits on what may be outstanding. -/
def newInstantQuote (owner txid : String) (vout : UInt32) (value : Nat) (script : Script)
    (address : String) (metadata : DepositAddress) : Ssp L InstantQuote := do
  let rate ← feeRate C
  let fee ← Act.ofExcept (okOr "instant deposit fee overflow" (checkedMul 99 rate))
  let credit ← Act.ofExcept (okOr "instant deposit is too small after the recovery fee"
    ((checkedSub value fee).filter (330 ≤ ·)))
  let outstanding ← db .instantOutstanding
  Act.ofExcept (checkExposure value credit outstanding C.instantMaxDeposit C.instantLimit)
  let height ← getBlockCount
  let uuid ← tell .newUuid
  let id := uuid.print
  let now ← tell .now
  let expires := now + 300
  let quote : InstantQuote :=
    { id, height,
      deposit :=
        { txid, vout, owner, network := C.network, credit, fee,
          signature := C.signInstantQuote id C.network owner txid vout value credit expires,
          expires, address, signingKey := hexEncode metadata.userSigningPublicKey,
          verifyingKey := hexEncode metadata.verifyingPublicKey,
          prevOutput := ⟨UInt64.ofNat value, script⟩ } }
  db (.saveInstantQuote quote)
  return quote

/-- The quote of the claim that exists, else one that is still good, else a new one. -/
def instantQuoteOutput (owner txid : String) (vout : UInt32) :
    Ssp L (InstantQuote × Option (InstantClaim L)) := do
  match ← db (.instantClaimFor txid vout owner) with
  | some record => return (record.quote, some record)
  | none => do
      Act.ofExcept (checkExposure 0 0 0 C.instantMaxDeposit C.instantLimit)
      let found ← getTxOut txid vout.toNat
      let coin ← Act.ofExcept (okOr "instant deposit output is spent or unknown" found)
      let value ← Act.ofExcept coin.value
      Act.ofExcept (checkExposure value 0 0 C.instantMaxDeposit C.instantLimit)
      checkAncestors txid coin
      let hex ← Act.ofExcept (okOr "deposit has no script" coin.script)
      let script ← Act.ofExcept (C.scriptFromHex hex)
      let address ← Act.ofExcept (C.addressFromScript (bitcoinNetwork C) script)
      let metadata ← staticDepositAddress C owner address
      let claimed ← db (.depositClaimed txid vout)
      if claimed then throw "deposit already has a confirmed claim"
      match ← db (.instantQuote txid vout owner) with
      | some old => return (old, none)
      | none => do
          let quote ← newInstantQuote C owner txid vout value script address metadata
          return (quote, none)

/-- `instant_quote`, under the lock of deposits. -/
def instantQuote (owner : String) (input : OutputInput) :
    Ssp L (InstantQuote × Option (InstantClaim L)) := do
  Act.ofExcept (validateNetwork C input)
  let point ← Act.ofExcept (outpoint C input)
  locked .deposits (instantQuoteOutput C owner point.1 point.2)

/-- An output of a block that pays the same script the same amount and is unspent. -/
def matchOutput (q : DepositQuote) (tx : BlockTx) (output : BlockOutput) :
    Ssp L (Option OutPoint) :=
  if ¬ sameScript output.script q.prevOutput then return none
  else do
    let value ← Act.ofExcept output.value
    if value ≠ q.credit + q.fee then return none
    else do
      let txid ← Act.ofExcept (okOr "Bitcoin transaction has no ID" tx.txid)
      let vout ← Act.ofExcept (okOr "Bitcoin output has no index" output.n)
      match ← getTxOut txid vout with
      | none => return none
      | some _ => do
          let parsed ← Act.ofExcept (okOr "invalid replacement txid" (C.parseTxid txid))
          return some ⟨parsed, UInt32.ofNat vout⟩

/-- The first output of a transaction that takes the deposit's place. -/
def searchTx (q : DepositQuote) (tx : BlockTx) : Ssp L (Option OutPoint) := do
  let outputs ← Act.ofExcept (okOr "Bitcoin transaction has no outputs" tx.vout)
  Act.firstSome (matchOutput C q tx) outputs

/-- The first such output of a block. -/
def searchBlock (q : DepositQuote) (height : Nat) : Ssp L (Option OutPoint) := do
  let hash ← getBlockHash height
  let block ← getBlock hash
  let txs ← Act.ofExcept (okOr "Bitcoin block has no transactions" block)
  Act.firstSome (searchTx C q) txs

/-- The blocks a pass searches from `scanHeight`: at most 21, up to the tip. -/
def scanRange (scanHeight tip : Nat) : Nat × Nat :=
  let start := min scanHeight tip
  (start, min (start + 20) tip)

/-- Where the next pass begins: after the tip six blocks are searched again. -/
def nextScanHeight (last tip : Nat) : Nat := if last = tip then tip - 6 else last + 1

/-- The original output can be replaced: search for one with the same script and amount. -/
def searchReplacement (r : InstantClaim L) : Ssp L (Option OutPoint × InstantClaim L) := do
  let q := r.quote.deposit
  let tip ← getBlockCount
  let range := scanRange r.scanHeight tip
  let heights := List.range' range.1 (range.2 + 1 - range.1)
  match ← Act.firstSome (searchBlock C q) heights with
  | some point => return (some point, r)
  | none => do
      let r := { r with scanHeight := nextScanHeight range.2 tip }
      db (.saveInstant r)
      return (none, r)

/-- Where the deposit is: at its quoted output when that is confirmed, else where a replacement is.
-/
def confirmedInstantOutpoint (r : InstantClaim L) : Ssp L (Option OutPoint × InstantClaim L) := do
  let q := r.quote.deposit
  match ← getTxOut q.txid q.vout.toNat with
  | some coin =>
      if 0 < coin.confirmations.getD 0 then do
        let txid ← Act.ofExcept (okOr "invalid txid" (C.parseTxid q.txid))
        return (some ⟨txid, q.vout⟩, r)
      else return (none, r)
  | none => searchReplacement C r

/-- The payout of a new claim. -/
def payInstant (r : InstantClaim L) : Ssp L (InstantClaim L) :=
  if r.phase = .created then do
    submitInstantReserve C r.quote.deposit r.transferId r.plan
    let r := { r with phase := .transferCompleted }
    db (.saveInstant r)
    return r
  else return r

/-- The plan spends this output: it is fixed before anything is signed. -/
def freezeOutpoint (point : OutPoint) (request : SwapRequest L) :
    Except String (SwapRequest L) := do
  let job ← okOr "instant recovery has no signing job" request.spendTxSigningJob
  let spend ← L.deserializeHex job.rawTx
  let input := spend.input.modifyHead fun i => { i with previousOutput := point }
  let coin ← okOr "instant recovery has no UTXO" request.onChainUtxo
  let txid ← C.hexBytes (C.printTxid point.txid)
  return { request with
    spendTxSigningJob := some { job with rawTx := L.serializeHex { spend with input } },
    onChainUtxo := some { coin with txid, vout := point.vout } }

/-- `none` while the deposit is not confirmed. -/
def prepareRecovery (r : InstantClaim L) : Ssp L (Option (InstantClaim L)) :=
  if r.phase = .transferCompleted then do
    match ← confirmedInstantOutpoint C r with
    | (none, _) => return none
    | (some point, r) => do
        let request ← Act.ofExcept (freezeOutpoint C point r.plan.request)
        let r := { r with plan := { r.plan with request }, phase := .recoveryPrepared }
        db (.saveInstant r)
        return some r
  else return some r

/-- The recovery is signed once; later rounds use what is stored. -/
def signInstantSpend (r : InstantClaim L) : Ssp L (InstantClaim L) :=
  if r.signedSpend.isSome then return r
  else do
    let spend ← submitStaticClaim C r.quote.deposit r.transferId r.plan true
    let r := { r with signedSpend := some (L.serializeHex spend), phase := .spendTxCreated }
    db (.saveInstant r)
    return r

/-- A recovery with a confirmation is not sent again. -/
def broadcastUnseen (r : InstantClaim L) (raw : L.Raw) (confirmations : Int) : Ssp L Unit :=
  if confirmations ≤ 0 then sendRecovery (.instant r.id) raw else return ()

/-- Send the recovery; at three confirmations the claim is done. -/
def settleInstant (r : InstantClaim L) : Ssp L Unit := do
  let raw ← Act.ofExcept (okOr "instant recovery has no signed transaction" r.signedSpend)
  let spend ← Act.ofExcept (L.deserializeHex raw)
  let observed ← Act.attempt (getTransaction (.instant r.id) (L.computeTxid spend))
  let confirmations := (observed.toOption.bind id).getD 0
  broadcastUnseen r raw confirmations
  db (.saveInstant { r with
    phase := if 3 ≤ confirmations then .spendTxConfirmed else .spendTxBroadcast })

/-- One round of an instant claim; it can stop after each phase and be resumed. -/
def advanceInstant (r : InstantClaim L) : Ssp L Unit :=
  if r.phase = .spendTxConfirmed then return ()
  else do
    let r ← payInstant C r
    match ← prepareRecovery C r with
    | none => return ()
    | some r => do
        let r ← signInstantSpend C r
        settleInstant r

/-- The claim of a quote that nobody has claimed; everything quoted is checked again. -/
def newInstantClaim (owner quoteId : String) (input : InstantClaimInput) : Ssp L String := do
  let quote ← db (.instantQuoteById quoteId owner)
  let q := quote.deposit
  let outstanding ← db .instantOutstanding
  Act.ofExcept
    (checkExposure (q.credit + q.fee) q.credit outstanding C.instantMaxDeposit C.instantLimit)
  let signature ← Act.ofExcept (okOr "instant deposit signature required" input.signature)
  let encrypted ← Act.ofExcept
    (C.instantAuthorization q input.privateKeyShare input.encryptedPrivateKeyShare signature)
  -- the exact output is checked again before the first advance
  let found ← getTxOut q.txid q.vout.toNat
  let coin ← Act.ofExcept
    (okOr "quoted deposit output is spent or changed; request a new quote" found)
  let value ← Act.ofExcept coin.value
  if value ≠ q.credit + q.fee ∨ ¬ sameScript coin.script q.prevOutput then
    throw "quoted deposit output is spent or changed; request a new quote"
  checkAncestors q.txid coin
  let busy ← db (.instantBusy owner q)
  if busy then throw "wallet or deposit already has a pending claim"
  let destination ← bitcoinChangeAddress
  let parsed ← Act.ofExcept (okOr "invalid txid" (C.parseTxid q.txid))
  let spend := recoveryTransaction ⟨parsed, q.vout⟩ q.credit destination.scriptPubkey
  let transfer ← tell .newUuid
  let transferId := transfer.print
  let plan ← prepareStaticClaim C q encrypted signature transferId spend
  let id ← tell .newUuid
  let record : InstantClaim L :=
    { id := id.print, scanHeight := quote.height - 6, quote, transferId, plan, phase := .created,
      signedSpend := none }
  db (.insertInstant record C.instantMaxDeposit C.instantLimit)
  advanceInstant C record
  return record.id

/-- The claim of a quote: its own resumed, or a new one. -/
def instantClaimQuote (owner quoteId : String) (input : InstantClaimInput) : Ssp L String := do
  match ← db (.instantClaimForQuote quoteId owner) with
  | some record => do
      advanceInstant C record
      return record.id
  | none => newInstantClaim C owner quoteId input

/-- `instant_claim`: the leaves of the credit are taken under the lock of liquidity. -/
def instantClaim (owner : String) (input : InstantClaimInput) : Ssp L String := do
  let quoteId ← Act.ofExcept
    (okOr "static_deposit_quote_id required" input.staticDepositQuoteId)
  locked .deposits (locked .liquidity (instantClaimQuote C owner quoteId input))

/-- A foreground retry may have advanced the row since the rows were read. -/
def recoverInstantClaim (record : InstantClaim L) : Ssp L Unit := do
  match ← Act.attempt (db (.instantById record.id)) with
  | .error _ => return ()
  | .ok current =>
      match ← Act.attempt (advanceInstant C current) with
      | .ok _ => return ()
      | .error e =>
          let _ ← Act.attempt (db (.instantError current.id e))
          return ()

/-- One pass of the worker of instant claims (`run_instant`). -/
def instantPass : Ssp L Unit := do
  match ← Act.attempt sampleInstants with
  | .ok records =>
      Act.forEach
        (fun record => locked .deposits (locked .liquidity (recoverInstantClaim C record))) records
  | .error _ => return ()

/-- The requests of wallets and the passes of the workers. -/
inductive Request where
  | quote (owner : String) (input : OutputInput)
  | claim (owner : String) (input : ClaimInput)
  | pass
  | instantQuote (owner : String) (input : OutputInput)
  | instantClaim (owner : String) (input : InstantClaimInput)
  | instantPass

/-- The program of a request; its answer is not looked at. -/
def Request.handler : Request → Prog (Api L) Unit
  | quote owner input => discard (Deposit.quote C owner input).run
  | claim owner input => discard (Deposit.claim C owner input).run
  | pass => discard (Deposit.pass C).run
  | instantQuote owner input => discard (Deposit.instantQuote C owner input).run
  | instantClaim owner input => discard (Deposit.instantClaim C owner input).run
  | instantPass => discard (Deposit.instantPass C).run

/-! ### The machine -/

structure World (L : Library) where
  db : Db L
  locks : Mutexes Lock
  now : Nat

inductive Choice where
  /-- As asked. -/
  | done
  /-- The call fails; a remote party may have acted all the same. -/
  | fail (e : String)
  | uuid (id : Uuid)
  | sample (ids : List String)
  | coin (coin : Option Coin)
  | number (n : Option Nat)
  | estimate (rate : Option (Except String Nat))
  | hash (hash : String)
  | block (txs : Option (List BlockTx))
  | address (text : Option String)
  | confirmations (n : Option Int)
  | addresses (addresses : List DepositAddress)
  | leaves (ids : List String)
  | bytes (b : List UInt8)
  | nonce (n : Nonce)
  | swap (reply : SwapReply)

/-- One call of one task: the tables answer for themselves, the outside as it was chosen. -/
def perform (t : Nat) (c : Call L) (ch : Choice) (w : World L) : Option (c.Reply × World L) :=
  match c, ch with
  | .lock l, .done => (w.locks.take t l).map fun locks => ((), { w with locks })
  | .unlock l, .done => some ((), { w with locks := w.locks.release t l })
  | .now, .done => some (w.now, w)
  | .newUuid, .uuid id => some (id, w)
  | .db q, .done =>
      let (r, db) := q.run w.now w.db
      some (r, { w with db })
  | .db _, .fail e => some (.error e, w)
  | .sampleInstants, .sample ids =>
      (w.db.instantSample ids).map fun records => (.ok records, w)
  | .sampleInstants, .fail e => some (.error e, w)
  | .getTxOut .., .coin coin => some (.ok coin, w)
  | .getTxOut .., .fail e => some (.error e, w)
  | .getMempoolEntry _, .number n => some (.ok n, w)
  | .getMempoolEntry _, .fail e => some (.error e, w)
  | .estimateFee, .estimate rate => some (.ok rate, w)
  | .estimateFee, .fail e => some (.error e, w)
  | .getBlockCount, .number n => some (.ok n, w)
  | .getBlockCount, .fail e => some (.error e, w)
  | .getBlockHash _, .hash hash => some (.ok hash, w)
  | .getBlockHash _, .fail e => some (.error e, w)
  | .getBlock _, .block txs => some (.ok txs, w)
  | .getBlock _, .fail e => some (.error e, w)
  | .getRawChangeAddress, .address address => some (.ok address, w)
  | .getRawChangeAddress, .fail e => some (.error e, w)
  | .getTransaction .., .confirmations n => some (.ok n, w)
  | .getTransaction .., .fail e => some (.error e, w)
  | .sendRecovery .., .done => some (.ok (), w)
  | .sendRecovery .., .fail e => some (.error e, w)
  | .queryStaticDepositAddresses .., .addresses addresses => some (.ok addresses, w)
  | .queryStaticDepositAddresses .., .fail e => some (.error e, w)
  | .selectLeaves _, .leaves ids => some (.ok ids, w)
  | .selectLeaves _, .fail e => some (.error e, w)
  | .prepareTransfer .., .bytes b => some (.ok b, w)
  | .prepareTransfer .., .fail e => some (.error e, w)
  | .newNonce, .nonce n => some (.ok n, w)
  | .newNonce, .fail e => some (.error e, w)
  | .initiateSwap _, .swap reply => some (.ok reply, w)
  | .initiateSwap _, .fail e => some (.error e, w)
  | .recoverInstant .., .swap reply => some (.ok reply, w)
  | .recoverInstant .., .fail e => some (.error e, w)
  | .reserveInstant .., .swap reply => some (.ok reply.transfer, w)
  | .reserveInstant .., .fail e => some (.error e, w)
  | .signRecovery .., .bytes b => some (.ok b, w)
  | .signRecovery .., .fail e => some (.error e, w)
  | _, _ => none

/-- Time passes. -/
def tick (n : Nat) (w : World L) : Option (World L) := some { w with now := w.now + n }

def machine : Machine (Api L) where
  World := World L
  Choice := Choice
  Outside := Nat
  Request := Request
  init := ⟨.empty, .free, 0⟩
  handler := Request.handler C
  perform := perform
  outside := tick
  cancel t w := { w with locks := w.locks.drop t }
  crash w := { w with locks := .free }

end OpenSsp.Deposit
