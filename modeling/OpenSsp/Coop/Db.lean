/-
OpenSsp/Coop/Db.lean

The tables of cooperative exits (`coop_exit.rs`): quotes, exits, the outpoints an exit reserves,
and fee bumps; and the rows of `requests` and `transfers` an exit writes.

The id is the primary key of `coop_exits`, and `transfer_id` and `(owner, idem)` are unique
(`ExitTable`); an outpoint is reserved once.  A transaction that fails leaves the tables as
they were.

Main results: `Db.insertCoopExit_ok`, what an insert adds, `Db.mem_updateCoopExit`, what an update
writes, and `Query.run_frame`: only these two write exits or reservations.
-/
import OpenSsp.Lib.Table
import OpenSsp.Bitcoin

namespace OpenSsp.Coop

open Interleave Bitcoin

/-- A leaf of an exit and its value. -/
structure ExitLeaf where
  id : String
  value : Nat
deriving DecidableEq

/-- A quote: what a payout to the address costs at each speed. -/
structure ExitQuote where
  id : String
  owner : String
  address : String
  leaves : List ExitLeaf
  createdAt : Nat
  expiresAt : Nat
  userFee : Nat
  rates : Fin 3 → Nat
  fees : Fin 3 → Nat

inductive ExitStatus where
  | initiated
  | inboundTransferChecked
  | txBroadcasted
  | onChainTxConfirmed
  | succeeded
  | expired
deriving DecidableEq

/-- `SUCCEEDED` or `EXPIRED` -/
def ExitStatus.terminal : ExitStatus → Bool
  | succeeded => true
  | expired => true
  | _ => false

/-- An exit: what was asked for, and the transactions that were made for it. -/
structure ExitRecord (L : Library) where
  id : String
  owner : String
  transferId : String
  idempotencyKey : String
  fingerprint : String
  quote : ExitQuote
  leaves : List ExitLeaf
  speed : String
  payoutSats : Nat
  feeSats : Nat
  createdAt : Nat
  expiresAt : Nat
  rawExit : L.Raw
  rawConnector : L.Raw
  signedExit : Option L.Raw
  status : ExitStatus

/-! ### Rows -/

/-- A row of `coop_exits`; `data` is the record as JSON. -/
structure ExitRow (L : Library) where
  id : String
  owner : String
  transferId : String
  idem : String
  status : ExitStatus
  data : ExitRecord L

/-- A coin of the wallet that an exit has reserved. -/
structure InputRow where
  outpoint : OutPoint
  requestId : String
deriving DecidableEq

structure BumpRow (L : Library) where
  requestId : String
  raw : L.Raw
  feeRate : Nat

structure RequestRow where
  id : String
  kind : String
  owner : String
  createdAt : Nat
  totalAmountSats : Nat

structure TransferRow where
  sparkId : String
  requestId : String
  kind : String
  status : String
  owner : String

variable {L : Library}

/-- `coop_exits` -/
structure ExitTable (L : Library) extends Table fun r : ExitRow L => r.id where
  transfers : (rows.map fun r => r.transferId).Nodup
  keys : (rows.map fun r => (r.owner, r.idem)).Nodup

namespace ExitTable

def empty : ExitTable L := ⟨.empty, List.nodup_nil, List.nodup_nil⟩

/-- A new exit, unless its id, its transfer or its key is in use. -/
def insert (t : ExitTable L) (r : ExitRow L) : Option (ExitTable L) :=
  if h : r.id ∈ t.rows.map (·.id) ∨ r.transferId ∈ t.rows.map (·.transferId) ∨
      (r.owner, r.idem) ∈ t.rows.map fun r => (r.owner, r.idem)
  then none
  else some ⟨⟨r :: t.rows, List.nodup_cons.mpr ⟨fun hr => h (.inl hr), t.nodup⟩⟩,
    List.nodup_cons.mpr ⟨fun hr => h (.inr (.inl hr)), t.transfers⟩,
    List.nodup_cons.mpr ⟨fun hr => h (.inr (.inr hr)), t.keys⟩⟩

/-- `UPDATE coop_exits SET status=?2,data=?3 WHERE id=?1` -/
def set (t : ExitTable L) (record : ExitRecord L) : ExitTable L :=
  let f (r : ExitRow L) : ExitRow L := { r with status := record.status, data := record }
  ⟨t.toTable.update (·.id == record.id) f, by
    rw [Table.update, Table.map_column (f := f) (g := fun r => r.transferId) fun _ => rfl]
    exact t.transfers, by
    rw [Table.update, Table.map_column (f := f) (g := fun r => (r.owner, r.idem)) fun _ => rfl]
    exact t.keys⟩

theorem insert_eq_some {t t' : ExitTable L} {r : ExitRow L} (h : t.insert r = some t') :
    t'.rows = r :: t.rows := by
  unfold insert at h
  split at h
  · simp at h
  · obtain rfl := Option.some.inj h
    rfl

end ExitTable

structure Db (L : Library) where
  quotes : Table ExitQuote.id
  exits : ExitTable L
  inputs : Table InputRow.outpoint
  bumps : Table (BumpRow.requestId (L := L))
  requests : Table RequestRow.id
  transfers : Table TransferRow.sparkId

/-! ### Statements -/

/-- `INSERT` with its error. -/
def insertRow {κ ρ : Type} [DecidableEq κ] {key : ρ → κ} (constraint : String) (t : Table key)
    (r : ρ) : Except String (Table key) :=
  okOr ("UNIQUE constraint failed: " ++ constraint) (t.insert r)

namespace Db

def empty : Db L := ⟨.empty, .empty, .empty, .empty, .empty, .empty⟩

/-- The quotes that are kept when a new one is saved: those that have not expired, of the owner's
own the 19 that expire last. -/
def keptQuotes (owner : String) (now : Nat) (quotes : List ExitQuote) : List String :=
  let live := quotes.filter fun q => now < q.expiresAt
  let own := (live.filter (·.owner == owner)).mergeSort fun a b => b.expiresAt ≤ a.expiresAt
  ((live.filter (·.owner != owner)) ++ own.take 19).map (·.id)

/-- Before a quote is stored, old ones go and all but the owner's nineteen newest. -/
def saveCoopQuote (quote : ExitQuote) (now : Nat) (db : Db L) : Except String Unit × Db L :=
  let kept := keptQuotes quote.owner now db.quotes.rows
  let quotes := db.quotes.delete fun q => !kept.contains q.id
  match quotes.insert quote with
  | some quotes => (.ok (), { db with quotes })
  | none => (.error "UNIQUE constraint failed: coop_exit_quotes.id", { db with quotes })

def coopQuote (id owner : String) (db : Db L) : Option ExitQuote :=
  (db.quotes.get id).filter (·.owner == owner)

/-- Rows are kept newest first; a query without an order finds the oldest one. -/
def coopExitByKey (owner key transfer : String) (db : Db L) : Option (ExitRecord L) :=
  (db.exits.rows.reverse.find? fun r =>
    r.owner == owner && (r.idem == key || r.transferId == transfer)).map (·.data)

def coopExit (id owner : String) (db : Db L) : Option (ExitRecord L) :=
  (db.exits.rows.find? fun r => r.id == id && r.owner == owner).map (·.data)

def coopExitById (id : String) (db : Db L) : Option (ExitRecord L) :=
  (db.exits.rows.find? (·.id == id)).map (·.data)

/-- Whether the owner has an exit that is not over. -/
def coopExitPendingForOwner (owner : String) (db : Db L) : Bool :=
  db.exits.rows.any fun r => r.owner == owner && !r.status.terminal

/-- The coins that exits have reserved. -/
def coopReservedInputs (db : Db L) : List OutPoint := db.inputs.rows.map (·.outpoint)

/-- The exit, its request and its coin, in one transaction. -/
def insertCoopExit (record : ExitRecord L) (outpoint : OutPoint) (db : Db L) :
    Except String (Db L) := do
  let exit ← L.deserializeHex record.rawExit
  let txid := L.computeTxid exit
  let exits ← okOr "UNIQUE constraint failed: coop_exits" (db.exits.insert
    { id := record.id, owner := record.owner, transferId := record.transferId,
      idem := record.idempotencyKey, status := record.status, data := record })
  let reserve := insertRow "coop_exit_inputs.outpoint"
  let inputs ← reserve db.inputs ⟨outpoint, record.id⟩
  -- the connector funding stays reserved until the Spark transfer is recovered
  let inputs ← reserve inputs ⟨⟨txid, 1⟩, record.id⟩
  -- the change stays available for a fee bump
  let inputs ← reserve inputs ⟨⟨txid, 2⟩, record.id⟩
  let requests ← insertRow "requests.id" db.requests
    { id := record.id, kind := "COOP_EXIT_V2", owner := record.owner,
      createdAt := record.createdAt, totalAmountSats := (record.leaves.map (·.value)).sum }
  return { db with exits, inputs, requests }

/-- The exit's new state; when it is over its coins are free again, and a success completes its
transfer. -/
def updateCoopExit (record : ExitRecord L) (db : Db L) : Db L where
  quotes := db.quotes
  exits := db.exits.set record
  inputs :=
    if record.status.terminal then db.inputs.delete (·.requestId == record.id) else db.inputs
  bumps := db.bumps
  requests := db.requests
  transfers :=
    if record.status = .succeeded then
      db.transfers.update (fun r => r.requestId == record.id && r.owner == record.owner)
        fun r => { r with status := "COMPLETED" }
    else db.transfers

/-- The exits that are not over, oldest first. -/
def pendingCoopExits (db : Db L) : List (ExitRecord L) :=
  ((db.exits.rows.filter fun r => !r.status.terminal).map (·.data)).reverse

/-- The bump of an exit, with its rate. -/
def coopExitBump (id : String) (db : Db L) : Option (L.Raw × Nat) :=
  (db.bumps.get id).map fun r => (r.raw, r.feeRate)

/-- The one bump of an exit. -/
def insertCoopExitBump (id : String) (raw : L.Raw) (feeRate : Nat) (db : Db L) :
    Except String (Db L) := do
  let bumps ← insertRow "coop_exit_bumps.request_id" db.bumps ⟨id, raw, feeRate⟩
  return { db with bumps }

/-- A transfer that is there keeps its row, unless it is somebody else's. -/
def insertTransfer (sparkId requestId kind status owner : String) (db : Db L) :
    Except String (Db L) :=
  match db.transfers.get sparkId with
  | some r =>
      if r.owner = owner then
        let transfers := db.transfers.update (·.sparkId == sparkId) fun r => { r with status }
        .ok { db with transfers }
      else .error "transfer id belongs to another owner"
  | none =>
      let row : TransferRow := { sparkId, requestId, kind, status, owner }
      .ok { db with transfers := (db.transfers.insert row).getD db.transfers }

end Db

inductive Query (L : Library) where
  | saveCoopQuote (quote : ExitQuote)
  | coopQuote (id owner : String)
  | coopExitByKey (owner key transfer : String)
  | coopExit (id owner : String)
  | coopExitById (id : String)
  | coopExitPendingForOwner (owner : String)
  | coopReservedInputs
  | insertCoopExit (record : ExitRecord L) (outpoint : OutPoint)
  | updateCoopExit (record : ExitRecord L)
  | pendingCoopExits
  | coopExitBump (id : String)
  | insertCoopExitBump (id : String) (raw : L.Raw) (feeRate : Nat)
  | insertTransfer (sparkId requestId kind status owner : String)
  | requestUpdatedAt (id : String)

@[reducible] def Query.Out : Query L → Type
  | coopQuote .. => Option ExitQuote
  | coopExitByKey .. => Option (ExitRecord L)
  | coopExit .. => Option (ExitRecord L)
  | coopExitById _ => ExitRecord L
  | coopExitPendingForOwner _ => Bool
  | coopReservedInputs => List OutPoint
  | pendingCoopExits => List (ExitRecord L)
  | coopExitBump _ => Option (L.Raw × Nat)
  | _ => Unit

/-- A statement that writes all or nothing. -/
def transact (r : Except String (Db L)) (db : Db L) : Except String Unit × Db L :=
  match r with
  | .ok db => (.ok (), db)
  | .error e => (.error e, db)

def Query.run (now : Nat) (db : Db L) : (q : Query L) → Except String q.Out × Db L
  | saveCoopQuote quote => db.saveCoopQuote quote now
  | coopQuote id owner => (.ok (db.coopQuote id owner), db)
  | coopExitByKey owner key transfer => (.ok (db.coopExitByKey owner key transfer), db)
  | coopExit id owner => (.ok (db.coopExit id owner), db)
  | coopExitById id => (okOr "Query returned no rows" (db.coopExitById id), db)
  | coopExitPendingForOwner owner => (.ok (db.coopExitPendingForOwner owner), db)
  | coopReservedInputs => (.ok db.coopReservedInputs, db)
  | insertCoopExit record outpoint => transact (db.insertCoopExit record outpoint) db
  | updateCoopExit record => (.ok (), db.updateCoopExit record)
  | pendingCoopExits => (.ok db.pendingCoopExits, db)
  | coopExitBump id => (.ok (db.coopExitBump id), db)
  | insertCoopExitBump id raw feeRate => transact (db.insertCoopExitBump id raw feeRate) db
  | insertTransfer sparkId requestId kind status owner =>
      transact (db.insertTransfer sparkId requestId kind status owner) db
  | requestUpdatedAt id =>
      (if (db.requests.get id).isSome then .ok () else .error "Query returned no rows", db)

/-! ### What the writing statements do -/

theorem insertRow_ok {κ ρ : Type} [DecidableEq κ] {key : ρ → κ} {constraint : String}
    {t t' : Table key} {r : ρ} (h : insertRow constraint t r = .ok t') : t'.rows = r :: t.rows :=
  (Table.insert_eq_some (okOr_eq_ok.mp h)).2

/-- An insert that succeeds adds the exit with its three reservations. -/
theorem Db.insertCoopExit_ok {record : ExitRecord L} {outpoint : OutPoint} {db db' : Db L}
    (h : db.insertCoopExit record outpoint = .ok db') :
    ∃ exit, L.deserializeHex record.rawExit = .ok exit ∧
      db'.exits.rows = ⟨record.id, record.owner, record.transferId, record.idempotencyKey,
        record.status, record⟩ :: db.exits.rows ∧
      db'.inputs.rows = ⟨⟨L.computeTxid exit, 2⟩, record.id⟩ ::
        ⟨⟨L.computeTxid exit, 1⟩, record.id⟩ :: ⟨outpoint, record.id⟩ :: db.inputs.rows := by
  unfold insertCoopExit at h
  obtain ⟨exit, hexit, h⟩ := bind_ok h
  obtain ⟨exits, hexits, h⟩ := bind_ok h
  obtain ⟨inputs₁, h₁, h⟩ := bind_ok h
  obtain ⟨inputs₂, h₂, h⟩ := bind_ok h
  obtain ⟨inputs₃, h₃, h⟩ := bind_ok h
  obtain ⟨requests, -, h⟩ := bind_ok h
  obtain rfl := Except.ok.inj h
  refine ⟨exit, hexit, ExitTable.insert_eq_some (okOr_eq_ok.mp hexits), ?_⟩
  rw [insertRow_ok h₃, insertRow_ok h₂, insertRow_ok h₁]

/-- An update writes the row of the exit, and no other. -/
theorem Db.mem_updateCoopExit {record : ExitRecord L} {db : Db L} {row' : ExitRow L} :
    row' ∈ (db.updateCoopExit record).exits.rows ↔ ∃ row ∈ db.exits.rows,
      row.id = record.id ∧ row' = { row with status := record.status, data := record } ∨
      row.id ≠ record.id ∧ row' = row := by
  rw [updateCoopExit, ExitTable.set, Table.mem_update]
  refine exists_congr fun row => and_congr_right fun _ => ?_
  by_cases hid : row.id = record.id
  · rw [if_pos (by simpa using hid)]
    constructor
    · exact fun h => .inl ⟨hid, h.symm⟩
    · rintro (⟨-, h⟩ | ⟨hne, -⟩)
      · exact h.symm
      · exact absurd hid hne
  · rw [if_neg (by simpa using hid)]
    constructor
    · exact fun h => .inr ⟨hid, h.symm⟩
    · rintro (⟨h, -⟩ | ⟨-, h⟩)
      · exact absurd h hid
      · exact h.symm

theorem transact_frame {r : Except String (Db L)} {db : Db L}
    (h : ∀ db', r = .ok db' → db'.exits = db.exits ∧ db'.inputs = db.inputs) :
    (transact r db).2.exits = db.exits ∧ (transact r db).2.inputs = db.inputs := by
  rcases r with e | db'
  · exact ⟨rfl, rfl⟩
  · exact h db' rfl

/-- The exit a statement writes. -/
def Query.saves : Query L → Option String
  | insertCoopExit record _ => some record.id
  | updateCoopExit record => some record.id
  | _ => none

/-- The other statements write neither exits nor reservations. -/
theorem Query.run_frame {q : Query L} {now : Nat} {db : Db L} (hq : q.saves = none) :
    (q.run now db).2.exits = db.exits ∧ (q.run now db).2.inputs = db.inputs := by
  cases q with
  | saveCoopQuote quote =>
      simp only [run, Db.saveCoopQuote]
      split <;> exact ⟨rfl, rfl⟩
  | insertCoopExitBump id raw feeRate =>
      have hframe : ∀ db', db.insertCoopExitBump id raw feeRate = .ok db' →
          db'.exits = db.exits ∧ db'.inputs = db.inputs := by
        intro db' h
        obtain ⟨bumps, -, h⟩ := bind_ok h
        obtain rfl := Except.ok.inj h
        exact ⟨rfl, rfl⟩
      show (transact _ db).2.exits = _ ∧ (transact _ db).2.inputs = _
      exact transact_frame hframe
  | insertTransfer sparkId requestId kind status owner =>
      have hframe : ∀ db', db.insertTransfer sparkId requestId kind status owner = .ok db' →
          db'.exits = db.exits ∧ db'.inputs = db.inputs := by
        intro db' h
        unfold Db.insertTransfer at h
        split at h
        · split at h
          · obtain rfl := Except.ok.inj h
            exact ⟨rfl, rfl⟩
          · simp at h
        · obtain rfl := Except.ok.inj h
          exact ⟨rfl, rfl⟩
      show (transact _ db).2.exits = _ ∧ (transact _ db).2.inputs = _
      exact transact_frame hframe
  | insertCoopExit record outpoint => simp [saves] at hq
  | updateCoopExit record => simp [saves] at hq
  | _ => exact ⟨rfl, rfl⟩

end OpenSsp.Coop
