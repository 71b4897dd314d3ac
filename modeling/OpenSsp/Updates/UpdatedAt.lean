/-
OpenSsp/Updates/UpdatedAt.lean

When `updated_at` of a request is rewritten.

After any sequence of writes, what is saved of a request decides its response, but for the reason
of a failure (`response_congr`): a lookup by payment id or by hash finds the details of the request
itself (`Inv`).  A write rewrites `updated_at` exactly when it changes what is saved of the request
(`updatedAt_exact`), and so do the writes of a pass.

What is saved may change while the response does not: a send that is handed to the backend stays
initiated for its client (`updatedAt_not_visible`).
-/
import OpenSsp.Updates.Invariant

namespace OpenSsp.Updates

open Interleave

/-! ### Runs -/

/-- Transactions, one after the other, each at its time. -/
inductive Run : Db → List (String × Write) → Db → Prop where
  | nil {db : Db} : Run db [] db
  | cons {db db₁ db₂ : Db} {now : String} {w : Write} {ws : List (String × Write)}
      (issued : w.Issued db) (exec : w.exec now db = .ok db₁) (rest : Run db₁ ws db₂) :
      Run db ((now, w) :: ws) db₂

/-- A run of writes keeps the invariant. -/
theorem Run.inv {db db' : Db} {ws : List (String × Write)} (h : Run db ws db') (hinv : Inv db) :
    Inv db' := by
  induction h with
  | nil => exact hinv
  | cons hissued hexec _ ih => exact ih (Write.exec_next hinv hissued hexec).inv

/-! ### Lookups -/

section lookups

variable {db db' : Db} {id : String}

/-- The payload is one of the saved parts. -/
theorem payload_of_saved {r r' : RequestRow} (hr : r ∈ db.requests.rows)
    (hr' : r' ∈ db'.requests.rows) (hid : r'.id = r.id)
    (h : db'.saved r.id .payload = db.saved r.id .payload) : r'.payload = r.payload := by
  have hget : db.requests.get r.id = some r := Table.mem_iff_get.mp hr
  have hget' : db'.requests.get r.id = some r' := hid ▸ Table.mem_iff_get.mp hr'
  simp only [Db.saved, Cell.payload.injEq, column_key, hget, hget'] at h
  exact (List.cons.inj h).1

/-- A request's id is no payment id. -/
theorem find_sendHasId (hinv : Inv db) (hlength : id.length = 36) :
    db.sends.rows.find? (OpenSsp.Db.sendHasId id) = db.sends.get id := by
  apply List.find?_congr
  intro s hs
  have hpayment : (s.intent.paymentId == some id) = false := by
    rw [beq_eq_false_iff_ne]
    intro hpayment
    have hbound := hinv.bound s hs id hpayment
    omega
  rw [OpenSsp.Db.sendHasId, hpayment, Bool.or_false]
  rfl

/-- The status of a send is read off a saved part. -/
theorem paymentStatus_of_saved (hinv : Inv db) (hinv' : Inv db') (hlength : id.length = 36)
    (hsend : (db.sends.get id).isSome) (h : db'.saved id .send = db.saved id .send) :
    db'.paymentStatus id = db.paymentStatus id := by
  obtain ⟨s, hs⟩ := Option.isSome_iff_exists.mp hsend
  simp only [Db.saved, Cell.send.injEq, column_key, hs] at h
  rcases hs' : db'.sends.get id with - | s'
  · rw [hs'] at h
    cases h
  · rw [hs'] at h
    have hstatus : s'.intent.status = s.intent.status :=
      congrArg Prod.fst (List.cons.inj h).1
    simp only [Db.paymentStatus, find_sendHasId hinv hlength, find_sendHasId hinv' hlength, hs, hs',
      hstatus]

/-- The payment of a receive, as far as it is watched, read back from its request. -/
theorem receivePayment_of_saved {hash : String} (hhash : db.requestOfHash hash = some id)
    (hhash' : db'.requestOfHash hash = some id) (h : db'.saved id .receive = db.saved id .receive) :
    (db'.receivePayments.get hash).map receiveKeep =
      (db.receivePayments.get hash).map receiveKeep := by
  have hread : ∀ {db : Db}, db.requestOfHash hash = some id →
      (column (fun r : ReceivePaymentRow => db.requestOfHash r.hash) receiveKeep
        db.receivePayments.rows id).find? (fun k => k.1 == hash) =
      (db.receivePayments.get hash).map receiveKeep := by
    intro db hhash
    rw [find?_column]
    congr 1
    apply List.find?_congr
    intro r _
    show (_ && (r.hash == hash)) = decide (r.hash = hash)
    by_cases hr : r.hash = hash
    · rw [hr, hhash, beq_self_eq_true, beq_self_eq_true, decide_eq_true rfl]
      rfl
    · rw [beq_eq_false_iff_ne.mpr hr, Bool.and_false, decide_eq_false hr]
  simp only [Db.saved, Cell.receive.injEq] at h
  rw [← hread hhash', ← hread hhash, h]

/-- The status of a receive is read off a saved part. -/
theorem receiveStatus_of_saved {hash : String} (hhash : db.requestOfHash hash = some id)
    (hhash' : db'.requestOfHash hash = some id) (h : db'.saved id .receive = db.saved id .receive) :
    db'.receiveStatus hash = db.receiveStatus hash := by
  have hrow := congrArg (Option.map fun k => k.2.1) (receivePayment_of_saved hhash hhash' h)
  rw [Option.map_map, Option.map_map] at hrow
  exact congrArg (fun status => Option.getD status _) hrow

/-- So is its preimage. -/
theorem receivePreimage_of_saved {hash : String} (hhash : db.requestOfHash hash = some id)
    (hhash' : db'.requestOfHash hash = some id) (h : db'.saved id .receive = db.saved id .receive) :
    db'.receivePreimage hash = db.receivePreimage hash := by
  have hread : ∀ {db : Db}, db.requestOfHash hash = some id →
      db.receivePreimage hash = ((db.receivePayments.get hash).map receiveKeep).bind (·.2.2.2) := by
    intro db hhash
    obtain ⟨l, hl, -⟩ := Option.map_eq_some_iff.mp hhash
    rw [Db.receivePreimage, hl, Option.bind_some, Table.key_of_get hl, Option.bind_map]
    rfl
  rw [hread hhash', hread hhash, receivePayment_of_saved hhash hhash' h]

/-- So is its transfer. -/
theorem transferForRequest_of_saved (owner : String)
    (h : db'.saved id .transfers = db.saved id .transfers) :
    db'.transferForRequest id owner = db.transferForRequest id owner := by
  have hread : ∀ db : Db, db.transferForRequest id owner =
      (((column (fun r => some r.requestId) transferKeep db.transfers.rows id).filter
        fun k => k.2.1 == owner).getLast?).map (·.1) := by
    intro db
    rw [filter_column, List.getLast?_map, Option.map_map]
    rfl
  simp only [Db.saved, Cell.transfers.injEq] at h
  rw [hread, hread, h]

/-- So is an exit. -/
theorem coopExit_of_saved (owner : String) (h : db'.saved id .exit = db.saved id .exit) :
    db'.coopExit id owner = db.coopExit id owner := by
  have hread : ∀ db : Db, db.coopExit id owner =
      ((column (fun r : ExitRow => some r.id) exitKeep db.exits.rows id).find?
        fun k => k.1 == owner).map (·.2) := by
    intro db
    rw [find?_column, Option.map_map]
    rfl
  simp only [Db.saved, Cell.exit.injEq] at h
  rw [hread, hread, h]

end lookups

/-! ### Responses -/

/-- A response without the reason of a failure. -/
def withoutFailureReason (res : Response) : Response := res.filter fun e => e.1 != "failure_reason"

/-- What a client is told of a request, but for the reason of a failure. -/
def visible (cfg : Config) (db : Db) (r : RequestRow) : Except String (Option Response) :=
  (userRequestUnion cfg db r).map (Option.map withoutFailureReason)

/-- A response reads no other column of the request's row. -/
theorem userRequestUnion_row (cfg : Config) (db : Db) {r r' : RequestRow} (hsame : SameRequest r r')
    (hpayload : r'.payload = r.payload) :
    userRequestUnion cfg db r' = userRequestUnion cfg db r := by
  obtain ⟨hid, hkind, howner, hcreated, -⟩ := hsame
  obtain ⟨id, kind, owner, createdAt, payload, key⟩ := r
  obtain ⟨id', kind', owner', createdAt', payload', key'⟩ := r'
  obtain rfl := hid
  obtain rfl := hkind
  obtain rfl := howner
  obtain rfl := hcreated
  obtain rfl := hpayload
  rfl

/-- What is saved of a request decides what a client is told of it. -/
theorem visible_of_saved (cfg : Config) {db db' : Db} (hinv : Inv db) (hnext : Next db db')
    {r r' : RequestRow} (hr : r ∈ db.requests.rows) (hr' : r' ∈ db'.requests.rows)
    (hid : r'.id = r.id) (h : db'.saved r.id = db.saved r.id) :
    visible cfg db' r' = visible cfg db r := by
  have hsame := hnext.same r hr r' hr' hid
  have hpayload := payload_of_saved hr hr' hid (congrFun h _)
  have hdetails := hinv.details r hr
  have hdetails' := hnext.inv.details r' hr'
  unfold visible
  rw [userRequestUnion_row cfg db' hsame hpayload]
  unfold userRequestUnion
  dsimp only
  split
  · rw [coopExit_of_saved r.owner (congrFun h _)]
  split
  · next hkind =>
      obtain ⟨hpayment, hlength, hsend⟩ := hdetails.send hkind
      rw [hpayment, paymentStatus_of_saved hinv hnext.inv hlength hsend (congrFun h _)]
      rfl
  split
  · next hkind =>
      have hreceive := hdetails.receive hkind
      have hreceive' := hdetails'.receive (hsame.kind.trans hkind)
      rw [hpayload, hid] at hreceive'
      rw [receiveStatus_of_saved hreceive hreceive' (congrFun h _),
        receivePreimage_of_saved hreceive hreceive' (congrFun h _),
        transferForRequest_of_saved r.owner (congrFun h _)]
  -- the other kinds are shown from their payload
  · rfl

/-! ### `updated_at` -/

/-- What is saved of a request says that it is there. -/
theorem requests_get_of_saved {db db' : Db} {id : String} (hget : (db.requests.get id).isSome)
    (h : db'.saved id = db.saved id) : (db'.requests.get id).isSome := by
  obtain ⟨r, hr⟩ := Option.isSome_iff_exists.mp hget
  have hpayload := congrFun h .payload
  simp only [Db.saved, Cell.payload.injEq, column_key, hr] at hpayload
  rcases hr' : db'.requests.get id with - | r'
  · rw [hr'] at hpayload
    cases hpayload
  · rfl

/-- One write of a sequence. -/
theorem Write.exec_updatedAt {now : String} {w : Write} {db db' : Db} {id : String} (hinv : Inv db)
    (hget : (db.requests.get id).isSome) (hget' : (db'.requests.get id).isSome)
    (hexec : w.exec now db = .ok db') :
    (db'.saved id ≠ db.saved id → db'.updatedAt id = some now) ∧
      (db'.saved id = db.saved id → db'.updatedAt id = db.updatedAt id) := by
  obtain ⟨r, hr⟩ := Option.isSome_iff_exists.mp hget
  have htracked : (db.updatedAt id).isSome := by
    rw [← Table.key_of_get hr]
    exact hinv.tracked r (Table.mem_of_get hr)
  obtain ⟨parts, hwrites⟩ := Write.exec_writes htracked hget' hexec
  exact ⟨hwrites.touched, hwrites.untouched⟩

/-- The writes of a pass that leave what is saved of a request leave its `updated_at`. -/
theorem Run.updatedAt {db db' : Db} {pass : List (String × Write)} {id : String}
    (hrun : Run db pass db') (hinv : Inv db) (hget : (db.requests.get id).isSome)
    (hsaved : ∀ first rest db₁, pass = first ++ rest → Run db first db₁ →
      db₁.saved id = db.saved id) : db'.updatedAt id = db.updatedAt id := by
  induction hrun with
  | nil => rfl
  | cons hissued hexec hrest ih =>
      have hfirst := hsaved [_] _ _ rfl (.cons hissued hexec .nil)
      have hget₁ := requests_get_of_saved hget hfirst
      rw [← (Write.exec_updatedAt hinv hget hget₁ hexec).2 hfirst]
      apply ih (Write.exec_next hinv hissued hexec).inv hget₁
      intro first rest db₁ hsplit hrun₁
      rw [hfirst]
      exact hsaved (_ :: first) rest db₁ (congrArg (_ :: ·) hsplit) (.cons hissued hexec hrun₁)

/-- After any sequence of writes, a write rewrites `updated_at` of a request exactly when it changes
what is saved of it, every change of the response is such a change, the reason of a failure apart,
and a pass whose writes leave what is saved leaves `updated_at`. -/
theorem updatedAt_exact {history : List (String × Write)} {db : Db}
    (hrun : Run .empty history db) {r : RequestRow} (hr : r ∈ db.requests.rows) :
    (∀ (now : String) (w : Write) (db' : Db), w.Issued db → w.exec now db = .ok db' →
      ∀ r' ∈ db'.requests.rows, r'.id = r.id →
        (db'.saved r.id ≠ db.saved r.id → db'.updatedAt r.id = some now) ∧
        (db'.saved r.id = db.saved r.id → db'.updatedAt r.id = db.updatedAt r.id) ∧
        ∀ cfg, visible cfg db' r' ≠ visible cfg db r → db'.saved r.id ≠ db.saved r.id) ∧
    ∀ (pass : List (String × Write)) (db' : Db), Run db pass db' →
      (∀ first rest db₁, pass = first ++ rest → Run db first db₁ →
        db₁.saved r.id = db.saved r.id) → db'.updatedAt r.id = db.updatedAt r.id := by
  have hinv : Inv db := hrun.inv .empty
  have hget : (db.requests.get r.id).isSome := by
    rw [Table.mem_iff_get.mp hr]
    rfl
  constructor
  · intro now w db' hissued hexec r' hr' hid
    have hnext := Write.exec_next hinv hissued hexec
    have hget' : (db'.requests.get r.id).isSome := by
      rw [← hid, Table.mem_iff_get.mp hr']
      rfl
    obtain ⟨htouched, huntouched⟩ := Write.exec_updatedAt hinv hget hget' hexec
    refine ⟨htouched, huntouched, fun cfg hvisible hsaved => hvisible ?_⟩
    exact visible_of_saved cfg hinv hnext hr hr' hid hsaved
  · intro pass db' hpass hsaved
    exact hpass.updatedAt hinv hget hsaved

namespace Sample

def sendId : Uuid := Uuid.fill 1

def send : LightningSend where
  requestId := sendId.print
  owner := "alice"
  outboundTransferId := (Uuid.fill 2).print
  invoice := "lnbcrt10n1"
  amountSats := 1
  amountOverride := none
  kind := .bolt11
  expectedId := "hash"
  maxRouteCltv := none
  paymentId := none
  status := .prepared

def prepare : Write := .prepareLightningSend send "key" "REGTEST" "2026-01-01T00:00:00Z"

def begin : Write := .beginLightningSubmission send.requestId

def sendRow (status : SendStatus) : SendRow :=
  { intent := { send with status := status }, lastError := none }

def requestRow : RequestRow :=
  ⟨send.requestId, "LIGHTNING_SEND", "alice", "2026-01-01T00:00:00Z",
    sendPayload send "key" "REGTEST", some "key"⟩

def transferRow : TransferRow :=
  ⟨send.outboundTransferId, send.requestId, "PREIMAGE_SWAP", "PENDING", "alice"⟩

/-- The send with its request and its transfer. -/
def stored (status : SendStatus) (updatedAt : String) : Db where
  requests := ⟨[requestRow], List.nodup_singleton _⟩
  updates := ⟨[⟨send.requestId, updatedAt⟩], List.nodup_singleton _⟩
  sends := ⟨[sendRow status], List.nodup_singleton _⟩
  receives := .empty
  receivePayments := .empty
  quoteUses := .empty
  exits := .empty
  transfers := ⟨[transferRow], List.nodup_singleton _⟩
  payments := .empty
  internalPayments := .empty
  depositClaims := []
  instantClaims := []

/-- What preparing it writes. -/
theorem prepare_exec : prepare.exec "t0" .empty = .ok (stored .prepared "t0") := by
  rfl

/-- What submitting it writes. -/
theorem begin_exec :
    begin.exec "t1" (stored .prepared "t0") = .ok (stored .submitting "t1") := by
  rfl

/-- The run of the first write. -/
theorem prepare_run : Run .empty [("t0", prepare)] (stored .prepared "t0") :=
  .cons ⟨sendId, rfl⟩ prepare_exec .nil

/-- The second write changes a saved part. -/
theorem begin_saved : (stored .submitting "t1").saved send.requestId ≠
    (stored .prepared "t0").saved send.requestId := by
  intro hsaved
  have hsend := congrFun hsaved .send
  revert hsend
  decide

end Sample

/-- The submission of a stored send is noted. -/
theorem updatedAt_exact_submission :
    (Sample.stored .submitting "t1").updatedAt Sample.send.requestId = some "t1" := by
  have hexact := updatedAt_exact Sample.prepare_run (r := Sample.requestRow) List.mem_cons_self
  exact (hexact.1 "t1" Sample.begin _ trivial Sample.begin_exec Sample.requestRow
    List.mem_cons_self rfl).1 Sample.begin_saved

/-- `updated_at` is not rewritten for changes of the response alone: a send is initiated for its
client before and after it is handed to the backend. -/
theorem updatedAt_not_visible :
    ¬ ∀ (history : List (String × Write)) (now : String) (w : Write) (db db' : Db),
      Run .empty history db → w.Issued db → w.exec now db = .ok db' →
      ∀ r ∈ db.requests.rows, ∀ r' ∈ db'.requests.rows, r'.id = r.id →
        (db'.updatedAt r.id ≠ db.updatedAt r.id ↔
          ∃ cfg, userRequestUnion cfg db' r' ≠ userRequestUnion cfg db r) := by
  intro hall
  have hiff := hall _ "t1" Sample.begin _ _ Sample.prepare_run trivial Sample.begin_exec
    Sample.requestRow List.mem_cons_self Sample.requestRow List.mem_cons_self rfl
  obtain ⟨cfg, hcfg⟩ := hiff.mp (by decide)
  exact hcfg rfl

end OpenSsp.Updates
