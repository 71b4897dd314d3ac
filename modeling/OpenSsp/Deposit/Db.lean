/-
OpenSsp/Deposit/Db.lean

The tables of static deposits (`static_deposits.rs`, `instant_deposits.rs`): quotes and claims of
fixed deposits, quotes and claims of instant ones, and the rows of `requests` and `transfers` that a
claim writes.

A table of claims is a list of rows with the proof of its constraints (`DepositTable`,
`InstantTable`), so that a write is either a table again or fails.  The two kinds of claim exclude
each other: an insert of one looks at the table of the other.

Main results: what the statements that write claims do to the rows (`Db.insertClaim_ok`,
`Db.saveClaim_ok`, `Db.insertInstant_ok`, `Db.saveInstant_ok`) and `Query.run_frame`: the others
leave both tables of claims alone, but for the text of an error.
-/
import OpenSsp.Lib.Table
import OpenSsp.Bitcoin

namespace OpenSsp.Deposit

open Interleave Bitcoin

/-! ### Records -/

/-- What a fixed claim is quoted: the output, its owner, the credit and the fee of the recovery. -/
structure DepositQuote where
  txid : String
  vout : UInt32
  owner : String
  network : String
  credit : Nat
  fee : Nat
  signature : String
  expires : Nat
  address : String
  signingKey : String
  verifyingKey : String
  prevOutput : TxOut

/-- The output a swap is about. -/
structure Utxo where
  txid : List UInt8
  vout : UInt32
deriving DecidableEq

/-- The recovery, with what the operators need to sign it. -/
structure SigningJob (L : Library) where
  signingPublicKey : List UInt8
  rawTx : L.Raw
  signingNonceCommitment : List UInt8

/-- The operator request of a claim; the prepared transfer stays in its encoded form. -/
structure SwapRequest (L : Library) where
  onChainUtxo : Option Utxo
  sspSignature : List UInt8
  userSignature : List UInt8
  transfer : List UInt8
  spendTxSigningJob : Option (SigningJob L)
  confirmationThreshold : Option Nat

/-- What a claim was planned as: the request to the operators and the secrets that belong to it. -/
structure StaticPlan (L : Library) where
  request : SwapRequest L
  nonceCiphertext : List UInt8
  encryptedKey : List UInt8
  prevOutput : TxOut

/-- How far a claim has come; the phases are in this order. -/
inductive Phase where
  | created
  | transferCompleted
  | recoveryPrepared
  | spendTxCreated
  | spendTxBroadcast
  | spendTxConfirmed
deriving DecidableEq

/-- The status a claim's request shows. -/
inductive DepositStatus where
  | inProgress
  | succeeded
deriving DecidableEq

/-- A fixed claim. -/
structure DepositClaim (L : Library) where
  id : String
  quote : DepositQuote
  transferId : String
  plan : StaticPlan L
  signedSpend : Option L.Raw
  status : DepositStatus
  phase : Phase

/-- A quote with its id and the height of the chain when it was made. -/
structure InstantQuote where
  id : String
  deposit : DepositQuote
  height : Nat

/-- An instant claim; `scan_height` is where the next search for a replacement begins. -/
structure InstantClaim (L : Library) where
  id : String
  quote : InstantQuote
  transferId : String
  plan : StaticPlan L
  phase : Phase
  signedSpend : Option L.Raw
  scanHeight : Nat

variable {L : Library}

/-! ### Rows -/

/-- A row of `deposit_claims`; `data` is the record as JSON. -/
structure DepositRow (L : Library) where
  id : String
  txid : String
  vout : UInt32
  owner : String
  status : DepositStatus
  data : DepositClaim L
  lastError : Option String

/-- A row of `instant_claims`. -/
structure InstantRow (L : Library) where
  id : String
  quoteId : String
  txid : String
  vout : UInt32
  owner : String
  address : String
  value : Nat
  credit : Nat
  phase : Phase
  data : InstantClaim L
  lastError : Option String

/-- What a deposit's request says; `transferSparkId` is `null` before the payout. -/
structure DepositPayload where
  network : String
  instant : Bool
  transactionId : String
  outputIndex : UInt32
  creditAmountSats : Nat
  depositAmountSats : Nat
  maxFeeSats : Nat
  status : DepositStatus
  phase : Phase
  transferSparkId : Option String

/-- The row of `user_requests` that belongs to a claim. -/
structure RequestRow where
  id : String
  kind : String
  owner : String
  createdAt : Nat
  payload : DepositPayload

/-- The row of `spark_transfers` that belongs to a claim. -/
structure TransferRow where
  sparkId : String
  requestId : String
  kind : String
  status : String
  owner : String

/-- The worker still has work with it. -/
def DepositRow.tracked (r : DepositRow L) : Bool := r.data.phase ≠ .spendTxConfirmed

@[inherit_doc DepositRow.tracked]
def InstantRow.tracked (r : InstantRow L) : Bool := r.phase ≠ .spendTxConfirmed

/-- `UPDATE deposit_claims SET status=?2,data=?3,last_error=NULL WHERE id=?1` -/
def DepositRow.save (record : DepositClaim L) (r : DepositRow L) : DepositRow L :=
  { r with status := record.status, data := record, lastError := none }

/-- `UPDATE instant_claims SET phase=?2,data=?3,last_error=NULL WHERE id=?1` -/
def InstantRow.save (record : InstantClaim L) (r : InstantRow L) : InstantRow L :=
  { r with phase := record.phase, data := record, lastError := none }

/-! ### Tables -/

/-- The constraints of `deposit_claims`. -/
def DepositRow.Valid (rows : List (DepositRow L)) : Prop :=
  (rows.map fun r => r.id).Nodup ∧ (rows.map fun r => (r.txid, r.vout)).Nodup

/-- The constraints of `instant_claims`; the last two are the partial indices on pending claims. -/
def InstantRow.Valid (rows : List (InstantRow L)) : Prop :=
  (rows.map fun r => r.id).Nodup ∧ (rows.map fun r => r.quoteId).Nodup ∧
    (rows.map fun r => (r.txid, r.vout)).Nodup ∧
    ((rows.filter InstantRow.tracked).map fun r => (r.address, r.value)).Nodup ∧
    ((rows.filter InstantRow.tracked).map fun r => r.owner).Nodup

instance : DecidablePred (DepositRow.Valid (L := L)) := fun _ => inferInstanceAs (Decidable (_ ∧ _))

instance : DecidablePred (InstantRow.Valid (L := L)) := fun _ => inferInstanceAs (Decidable (_ ∧ _))

/-- The rows of `deposit_claims`. -/
abbrev DepositTable (L : Library) := {rows : List (DepositRow L) // DepositRow.Valid rows}

/-- The rows of `instant_claims`. -/
abbrev InstantTable (L : Library) := {rows : List (InstantRow L) // InstantRow.Valid rows}

/-- Write the rows, unless a constraint forbids it. -/
def store {ρ : Type} (valid : List ρ → Prop) [DecidablePred valid] (rows : List ρ) :
    Except String {rows // valid rows} :=
  if h : valid rows then .ok ⟨rows, h⟩ else .error "UNIQUE constraint failed"

/-- A stored table has the rows it was given. -/
theorem store_ok {ρ : Type} {valid : List ρ → Prop} [DecidablePred valid] {rows : List ρ}
    {t : {rows // valid rows}} (h : store valid rows = .ok t) : t.val = rows := by
  unfold store at h
  split at h
  · obtain rfl := Except.ok.inj h
    rfl
  · cases h

structure Db (L : Library) where
  quotes : Table fun q : DepositQuote => (q.txid, q.vout)
  claims : DepositTable L
  instantQuotes : Table InstantQuote.id
  instants : InstantTable L
  requests : Table RequestRow.id
  transfers : Table TransferRow.sparkId

/-! ### Statements -/

/-- What is outstanding may not go beyond the limit, nor one deposit beyond its own; zero switches
the feature off. -/
def checkExposure (value credit outstanding maxDeposit limit : Nat) : Except String Unit :=
  if limit = 0 ∨ maxDeposit = 0 then
    .error ("instant deposits are disabled; configure SSP_INSTANT_MAX_OUTSTANDING_SATS and " ++
      "SSP_INSTANT_MAX_DEPOSIT_SATS")
  else if maxDeposit < value then .error "instant deposit exceeds the per-deposit limit"
  else if (checkedAdd outstanding credit).all (limit < ·) then
    .error "instant deposit exposure limit reached"
  else .ok ()

/-- The payload of an instant claim's request: a prepared recovery is not shown yet. -/
def instantPayload (r : InstantClaim L) : DepositPayload :=
  let q := r.quote.deposit
  { network := q.network, instant := true, transactionId := q.txid, outputIndex := q.vout,
    creditAmountSats := q.credit, depositAmountSats := q.credit + q.fee, maxFeeSats := q.fee,
    status := if r.phase = .created then .inProgress else .succeeded,
    phase := if r.phase = .recoveryPrepared then .transferCompleted else r.phase,
    transferSparkId := if r.phase = .created then none else some r.transferId }

namespace Db

def empty : Db L :=
  ⟨.empty, ⟨[], by simp [DepositRow.Valid]⟩, .empty, ⟨[], by simp [InstantRow.Valid]⟩, .empty,
    .empty⟩

/-- `INSERT … ON CONFLICT(spark_id) DO NOTHING` -/
def insertTransfer (row : TransferRow) (db : Db L) : Table TransferRow.sparkId :=
  (db.transfers.insert row).getD db.transfers

/-- The claim of an output. -/
def depositClaim (txid : String) (vout : UInt32) (db : Db L) : Option (DepositClaim L) :=
  (db.claims.val.find? fun r => r.txid == txid && r.vout == vout).map (·.data)

/-- The claim of an output, if it is the owner's. -/
def ownDepositClaim (txid : String) (vout : UInt32) (owner : String) (db : Db L) :
    Option (DepositClaim L) :=
  (db.claims.val.find? fun r => r.txid == txid && r.vout == vout && r.owner == owner).map (·.data)

/-- The owner's quote of an output, while it is good. -/
def depositQuote (txid : String) (vout : UInt32) (owner : String) (now : Nat) (db : Db L) :
    Option DepositQuote :=
  (db.quotes.get (txid, vout)).filter fun q => q.owner == owner && now < q.expires

/-- Old quotes go first; a quote of the same output is replaced. -/
def saveQuote (quote : DepositQuote) (now : Nat) (db : Db L) : Except String (Db L) :=
  let quotes := db.quotes.delete fun q => q.expires ≤ now
  if 100 ≤ quotes.count (·.owner == quote.owner) then .error "static deposit quote limit reached"
  else
    -- a quote for the same output is replaced
    let replaced := quotes.map (fun q =>
      if (q.txid, q.vout) = (quote.txid, quote.vout) then quote else q) fun q => by
        split
        · next hkey => exact hkey.symm
        · rfl
    .ok { db with quotes := (quotes.insert quote).getD replaced }

/-- An instant claim has reserved the output, or is waiting for one like it. -/
def reservedForInstant (quote : DepositQuote) (db : Db L) : Bool :=
  db.instants.val.any fun r => r.txid == quote.txid && r.vout == quote.vout ||
    r.address == quote.address && r.value == quote.credit + quote.fee && r.tracked

/-- A fixed claim has reserved the output, or is waiting for the payout of one like it. -/
def reservedForFixed (quote : DepositQuote) (db : Db L) : Bool :=
  db.claims.val.any fun r => r.txid == quote.txid && r.vout == quote.vout ||
    r.data.quote.address == quote.address &&
      r.data.quote.credit + r.data.quote.fee == quote.credit + quote.fee && r.status ≠ .succeeded

/-- A fixed claim and its request, in one transaction; an output an instant claim has reserved is
refused. -/
def insertClaim (record : DepositClaim L) (now : Nat) (db : Db L) : Except String (Db L) := do
  let quote := record.quote
  if db.reservedForInstant quote then throw "deposit already reserved for an instant claim"
  let row : DepositRow L :=
    { id := record.id, txid := quote.txid, vout := quote.vout, owner := quote.owner,
      status := record.status, data := record, lastError := none }
  let claims ← store DepositRow.Valid (row :: db.claims.val)
  let requests ← okOr "UNIQUE constraint failed: requests.id" (db.requests.insert
    { id := record.id, kind := "CLAIM_STATIC_DEPOSIT", owner := quote.owner, createdAt := now,
      payload :=
        { network := quote.network, instant := false, transactionId := quote.txid,
          outputIndex := quote.vout, creditAmountSats := quote.credit,
          depositAmountSats := quote.credit + quote.fee, maxFeeSats := quote.fee,
          status := .inProgress, phase := record.phase,
          transferSparkId := some record.transferId } })
  return { db with claims, requests }

/-- The claim and its request; with a signed recovery its transfer is entered as completed. -/
def saveClaim (record : DepositClaim L) (db : Db L) : Except String (Db L) := do
  let claims ← store DepositRow.Valid (db.claims.val.map fun r =>
    if r.id = record.id then r.save record else r)
  let requests := db.requests.update (·.id == record.id) fun r =>
    { r with payload := { r.payload with status := record.status, phase := record.phase } }
  let transfers := if record.signedSpend.isSome then
      db.insertTransfer ⟨record.transferId, record.id, "CLAIM_STATIC_DEPOSIT", "COMPLETED",
        record.quote.owner⟩
    else db.transfers
  return { db with claims, requests, transfers }

/-- Rows are kept newest first. -/
def pendingClaims (db : Db L) : List (DepositClaim L) :=
  ((db.claims.val.filter DepositRow.tracked).reverse.take 100).map (·.data)

def claimError (id error : String) (db : Db L) : Except String (Db L) := do
  let claims ← store DepositRow.Valid (db.claims.val.map fun r =>
    if r.id = id then { r with lastError := some error } else r)
  return { db with claims }

/-- The instant claim of an output, if it is the owner's. -/
def instantClaimFor (txid : String) (vout : UInt32) (owner : String) (db : Db L) :
    Option (InstantClaim L) :=
  (db.instants.val.find? fun r => r.txid == txid && r.vout == vout && r.owner == owner).map (·.data)

/-- Whether a claim of either kind has taken the output. -/
def depositClaimed (txid : String) (vout : UInt32) (db : Db L) : Bool :=
  db.claims.val.any fun r => r.txid == txid && r.vout == vout

/-- The latest quote. -/
def instantQuote (txid : String) (vout : UInt32) (owner : String) (now : Nat) (db : Db L) :
    Option InstantQuote :=
  db.instantQuotes.rows.find? fun q => q.deposit.txid == txid && q.deposit.vout == vout &&
    q.deposit.owner == owner && now < q.deposit.expires

/-- Old quotes go first, except those a claim was made from. -/
def saveInstantQuote (quote : InstantQuote) (now : Nat) (db : Db L) : Except String (Db L) := do
  let claimed := db.instants.val.map (·.quoteId)
  let quotes := db.instantQuotes.delete fun q => q.deposit.expires ≤ now && !claimed.contains q.id
  if 100 ≤ quotes.count fun q => q.deposit.owner == quote.deposit.owner && !claimed.contains q.id
  then throw "instant quote limit reached"
  let instantQuotes ← okOr "UNIQUE constraint failed: instant_quotes.id" (quotes.insert quote)
  return { db with instantQuotes }

/-- The credits of the claims that are not yet recovered. -/
def instantOutstanding (db : Db L) : Nat :=
  ((db.instants.val.filter InstantRow.tracked).map (·.credit)).sum

/-- The owner's claim of a quote. -/
def instantClaimForQuote (quoteId owner : String) (db : Db L) : Option (InstantClaim L) :=
  (db.instants.val.find? fun r => r.quoteId == quoteId && r.owner == owner).map (·.data)

/-- The owner's quote of that id, while it is good. -/
def instantQuoteById (id owner : String) (now : Nat) (db : Db L) : Option InstantQuote :=
  (db.instantQuotes.get id).filter fun q => q.deposit.owner == owner && now < q.deposit.expires

/-- A pending claim of the same owner, or of an output like it, or any fixed claim of the output. -/
def instantBusy (owner : String) (q : DepositQuote) (db : Db L) : Bool :=
  (db.instants.val.any fun r => (r.owner == owner ||
    r.address == q.address && r.value == q.credit + q.fee) && r.tracked) ||
    db.depositClaimed q.txid q.vout

/-- The limits are checked in the transaction that adds to what is outstanding. -/
def insertInstant (record : InstantClaim L) (maxDeposit limit now : Nat) (db : Db L) :
    Except String (Db L) := do
  let q := record.quote.deposit
  -- checked again in the write transaction
  checkExposure (q.credit + q.fee) q.credit db.instantOutstanding maxDeposit limit
  if db.reservedForFixed q then throw "deposit already reserved for a confirmed claim"
  let row : InstantRow L :=
    { id := record.id, quoteId := record.quote.id, txid := q.txid, vout := q.vout,
      owner := q.owner, address := q.address, value := q.credit + q.fee, credit := q.credit,
      phase := record.phase, data := record, lastError := none }
  let instants ← store InstantRow.Valid (row :: db.instants.val)
  let requests ← okOr "UNIQUE constraint failed: requests.id" (db.requests.insert
    { id := record.id, kind := "CLAIM_INSTANT_STATIC_DEPOSIT_V2", owner := q.owner,
      createdAt := now, payload := instantPayload record })
  return { db with instants, requests }

/-- The claim and its request; once the transfer exists it is entered as completed. -/
def saveInstant (record : InstantClaim L) (db : Db L) : Except String (Db L) := do
  let instants ← store InstantRow.Valid (db.instants.val.map fun r =>
    if r.id = record.id then r.save record else r)
  let requests := db.requests.update (·.id == record.id) fun r =>
    { r with payload := instantPayload record }
  let transfers := if record.phase ≠ .created then
      db.insertTransfer ⟨record.transferId, record.id, "CLAIM_INSTANT_STATIC_DEPOSIT", "COMPLETED",
        record.quote.deposit.owner⟩
    else db.transfers
  return { db with instants, requests, transfers }

def instantById (id : String) (db : Db L) : Option (InstantClaim L) :=
  (db.instants.val.find? (·.id == id)).map (·.data)

def instantError (id error : String) (db : Db L) : Except String (Db L) := do
  let instants ← store InstantRow.Valid (db.instants.val.map fun r =>
    if r.id = id then { r with lastError := some error } else r)
  return { db with instants }

/-- What a query in random order for at most 20 pending claims can find. -/
def instantSample (ids : List String) (db : Db L) : Option (List (InstantClaim L)) :=
  let pending := db.instants.val.filter InstantRow.tracked
  let sample := ids.filterMap fun id => pending.find? (·.id == id)
  if ids.Nodup ∧ sample.length = ids.length ∧ ids.length = min 20 pending.length then
    some (sample.map (·.data))
  else none

end Db

inductive Query (L : Library) where
  | depositClaim (txid : String) (vout : UInt32)
  | ownDepositClaim (txid : String) (vout : UInt32) (owner : String)
  | depositQuote (txid : String) (vout : UInt32) (owner : String)
  | saveQuote (quote : DepositQuote)
  | insertClaim (record : DepositClaim L)
  | saveClaim (record : DepositClaim L)
  | pendingClaims
  | claimError (id error : String)
  | instantClaimFor (txid : String) (vout : UInt32) (owner : String)
  | depositClaimed (txid : String) (vout : UInt32)
  | instantQuote (txid : String) (vout : UInt32) (owner : String)
  | saveInstantQuote (quote : InstantQuote)
  | instantOutstanding
  | instantClaimForQuote (quoteId owner : String)
  | instantQuoteById (id owner : String)
  | instantBusy (owner : String) (q : DepositQuote)
  | insertInstant (record : InstantClaim L) (maxDeposit limit : Nat)
  | saveInstant (record : InstantClaim L)
  | instantById (id : String)
  | instantError (id error : String)

@[reducible] def Query.Out : Query L → Type
  | depositClaim .. => Option (DepositClaim L)
  | ownDepositClaim .. => Option (DepositClaim L)
  | depositQuote .. => Option DepositQuote
  | pendingClaims => List (DepositClaim L)
  | instantClaimFor .. => Option (InstantClaim L)
  | depositClaimed .. => Bool
  | instantQuote .. => Option InstantQuote
  | instantOutstanding => Nat
  | instantClaimForQuote .. => Option (InstantClaim L)
  | instantQuoteById .. => InstantQuote
  | instantBusy .. => Bool
  | instantById _ => InstantClaim L
  | _ => Unit

/-- A statement that writes all or nothing. -/
def transact (r : Except String (Db L)) (db : Db L) : Except String Unit × Db L :=
  match r with
  | .ok db => (.ok (), db)
  | .error e => (.error e, db)

def Query.run (now : Nat) (db : Db L) : (q : Query L) → Except String q.Out × Db L
  | depositClaim txid vout => (.ok (db.depositClaim txid vout), db)
  | ownDepositClaim txid vout owner => (.ok (db.ownDepositClaim txid vout owner), db)
  | depositQuote txid vout owner => (.ok (db.depositQuote txid vout owner now), db)
  | saveQuote quote => transact (db.saveQuote quote now) db
  | insertClaim record => transact (db.insertClaim record now) db
  | saveClaim record => transact (db.saveClaim record) db
  | pendingClaims => (.ok db.pendingClaims, db)
  | claimError id error => transact (db.claimError id error) db
  | instantClaimFor txid vout owner => (.ok (db.instantClaimFor txid vout owner), db)
  | depositClaimed txid vout => (.ok (db.depositClaimed txid vout), db)
  | instantQuote txid vout owner => (.ok (db.instantQuote txid vout owner now), db)
  | saveInstantQuote quote => transact (db.saveInstantQuote quote now) db
  | instantOutstanding => (.ok db.instantOutstanding, db)
  | instantClaimForQuote quoteId owner => (.ok (db.instantClaimForQuote quoteId owner), db)
  | instantQuoteById id owner =>
      (okOr "Query returned no rows" (db.instantQuoteById id owner now), db)
  | instantBusy owner q => (.ok (db.instantBusy owner q), db)
  | insertInstant record maxDeposit limit =>
      transact (db.insertInstant record maxDeposit limit now) db
  | saveInstant record => transact (db.saveInstant record) db
  | instantById id => (okOr "Query returned no rows" (db.instantById id), db)
  | instantError id error => transact (db.instantError id error) db

/-! ### What the writing statements do -/

/-- What an inserted fixed claim adds. -/
theorem Db.insertClaim_ok {record : DepositClaim L} {now : Nat} {db db' : Db L}
    (h : db.insertClaim record now = .ok db') :
    db'.claims.val = ⟨record.id, record.quote.txid, record.quote.vout, record.quote.owner,
      record.status, record, none⟩ :: db.claims.val ∧ db'.instants = db.instants := by
  unfold insertClaim at h
  dsimp only at h
  split at h
  · cases h
  · obtain ⟨claims, hclaims, h⟩ := bind_ok h
    obtain ⟨requests, -, h⟩ := bind_ok h
    obtain rfl := Except.ok.inj h
    exact ⟨store_ok hclaims, rfl⟩

/-- An update writes the row of the claim, and no other. -/
theorem Db.saveClaim_ok {record : DepositClaim L} {db db' : Db L}
    (h : db.saveClaim record = .ok db') :
    (∀ row' ∈ db'.claims.val, ∃ row ∈ db.claims.val,
      row.id = record.id ∧ row' = row.save record ∨ row.id ≠ record.id ∧ row' = row) ∧
      db'.instants = db.instants := by
  obtain ⟨claims, hclaims, h⟩ := bind_ok h
  obtain rfl := Except.ok.inj h
  refine ⟨fun row' hrow' => ?_, rfl⟩
  have hrow' : row' ∈ claims.val := hrow'
  rw [store_ok hclaims] at hrow'
  obtain ⟨row, hrow, rfl⟩ := List.mem_map.mp hrow'
  by_cases hid : row.id = record.id
  · exact ⟨row, hrow, .inl ⟨hid, if_pos hid⟩⟩
  · exact ⟨row, hrow, .inr ⟨hid, if_neg hid⟩⟩

/-- What an inserted instant claim adds. -/
theorem Db.insertInstant_ok {record : InstantClaim L} {maxDeposit limit now : Nat} {db db' : Db L}
    (h : db.insertInstant record maxDeposit limit now = .ok db') :
    db'.instants.val = ⟨record.id, record.quote.id, record.quote.deposit.txid,
      record.quote.deposit.vout, record.quote.deposit.owner, record.quote.deposit.address,
      record.quote.deposit.credit + record.quote.deposit.fee, record.quote.deposit.credit,
      record.phase, record, none⟩ :: db.instants.val ∧ db'.claims = db.claims := by
  obtain ⟨-, -, h⟩ := bind_ok h
  dsimp only at h
  split at h
  · cases h
  · obtain ⟨instants, hinstants, h⟩ := bind_ok h
    obtain ⟨requests, -, h⟩ := bind_ok h
    obtain rfl := Except.ok.inj h
    exact ⟨store_ok hinstants, rfl⟩

@[inherit_doc Db.saveClaim_ok]
theorem Db.saveInstant_ok {record : InstantClaim L} {db db' : Db L}
    (h : db.saveInstant record = .ok db') :
    (∀ row' ∈ db'.instants.val, ∃ row ∈ db.instants.val,
      row.id = record.id ∧ row' = row.save record ∨ row.id ≠ record.id ∧ row' = row) ∧
      db'.claims = db.claims := by
  obtain ⟨instants, hinstants, h⟩ := bind_ok h
  obtain rfl := Except.ok.inj h
  refine ⟨fun row' hrow' => ?_, rfl⟩
  have hrow' : row' ∈ instants.val := hrow'
  rw [store_ok hinstants] at hrow'
  obtain ⟨row, hrow, rfl⟩ := List.mem_map.mp hrow'
  by_cases hid : row.id = record.id
  · exact ⟨row, hrow, .inl ⟨hid, if_pos hid⟩⟩
  · exact ⟨row, hrow, .inr ⟨hid, if_neg hid⟩⟩

/-- The rows of claims are the same, but for the texts of errors. -/
structure SameClaims (db db' : Db L) : Prop where
  claims : ∀ row' ∈ db'.claims.val, ∃ row ∈ db.claims.val,
    row'.id = row.id ∧ row'.data = row.data
  instants : ∀ row' ∈ db'.instants.val, ∃ row ∈ db.instants.val,
    row'.id = row.id ∧ row'.phase = row.phase ∧ row'.data = row.data

namespace SameClaims

/-- Tables with the same rows have the same claims. -/
theorem of_eq {db db' : Db L} (hclaims : db'.claims = db.claims)
    (hinstants : db'.instants = db.instants) : SameClaims db db' where
  claims row hrow := ⟨row, hclaims ▸ hrow, rfl, rfl⟩
  instants row hrow := ⟨row, hinstants ▸ hrow, rfl, rfl, rfl⟩

theorem refl (db : Db L) : SameClaims db db := of_eq rfl rfl

/-- A failed transaction changes no claim. -/
theorem transact {r : Except String (Db L)} {db : Db L}
    (h : ∀ db', r = .ok db' → SameClaims db db') : SameClaims db (transact r db).2 := by
  rcases r with e | db'
  · exact refl db
  · exact h db' rfl

/-- An error's text changes no claim. -/
theorem claimError {id error : String} {db db' : Db L} (h : db.claimError id error = .ok db') :
    SameClaims db db' := by
  obtain ⟨claims, hclaims, h⟩ := bind_ok h
  obtain rfl := Except.ok.inj h
  refine ⟨fun row' hrow' => ?_, (refl db).instants⟩
  have hrow' : row' ∈ claims.val := hrow'
  rw [store_ok hclaims] at hrow'
  obtain ⟨row, hrow, rfl⟩ := List.mem_map.mp hrow'
  refine ⟨row, hrow, ?_⟩
  split
  · exact ⟨rfl, rfl⟩
  · exact ⟨rfl, rfl⟩

/-- Neither for the instant ones. -/
theorem instantError {id error : String} {db db' : Db L} (h : db.instantError id error = .ok db') :
    SameClaims db db' := by
  obtain ⟨instants, hinstants, h⟩ := bind_ok h
  obtain rfl := Except.ok.inj h
  refine ⟨(refl db).claims, fun row' hrow' => ?_⟩
  have hrow' : row' ∈ instants.val := hrow'
  rw [store_ok hinstants] at hrow'
  obtain ⟨row, hrow, rfl⟩ := List.mem_map.mp hrow'
  refine ⟨row, hrow, ?_⟩
  split
  · exact ⟨rfl, rfl, rfl⟩
  · exact ⟨rfl, rfl, rfl⟩

/-- A quote is no claim. -/
theorem saveQuote {quote : DepositQuote} {now : Nat} {db db' : Db L}
    (h : db.saveQuote quote now = .ok db') : SameClaims db db' := by
  unfold Db.saveQuote at h
  dsimp only at h
  split at h
  · cases h
  · obtain rfl := Except.ok.inj h
    exact of_eq rfl rfl

/-- Neither is an instant quote. -/
theorem saveInstantQuote {quote : InstantQuote} {now : Nat} {db db' : Db L}
    (h : db.saveInstantQuote quote now = .ok db') : SameClaims db db' := by
  unfold Db.saveInstantQuote at h
  dsimp only at h
  split at h
  · cases h
  · obtain ⟨quotes, -, h⟩ := bind_ok h
    obtain rfl := Except.ok.inj h
    exact of_eq rfl rfl

end SameClaims

/-- The statement writes the record of a claim. -/
def Query.WritesClaim : Query L → Prop
  | insertClaim _ => True
  | saveClaim _ => True
  | insertInstant .. => True
  | saveInstant _ => True
  | _ => False

/-- A method that writes no claim leaves them all. -/
theorem Query.run_frame {q : Query L} {now : Nat} {db : Db L} (hq : ¬ q.WritesClaim) :
    SameClaims db (q.run now db).2 := by
  cases q with
  | saveQuote quote => exact .transact fun _ h => .saveQuote h
  | saveInstantQuote quote => exact .transact fun _ h => .saveInstantQuote h
  | claimError id error => exact .transact fun _ h => .claimError h
  | instantError id error => exact .transact fun _ h => .instantError h
  | insertClaim record => exact absurd trivial hq
  | saveClaim record => exact absurd trivial hq
  | insertInstant record maxDeposit limit => exact absurd trivial hq
  | saveInstant record => exact absurd trivial hq
  | _ => exact .refl db

end OpenSsp.Deposit
