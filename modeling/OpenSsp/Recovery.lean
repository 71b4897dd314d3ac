/-
OpenSsp/Recovery.lean

The background workers that settle what a request has left unfinished: the first loop of
`reconcile_payments` (`ldk.rs`) for Lightning sends, `StaticDepositService::run`
(`static_deposits.rs`) for fixed deposit claims, `run_swap_history` and
`recover_incomplete_splits` (`spark.rs`) for swaps and leaf splits.

A pass is written over any monad with the processing of one record as a parameter.  In the
monad of the programs it is the loop that `Ldk` and `LeafSplit` run
(`reconcilePayments_eq`, `recoverSplit_eq`); over the tables alone, with any processing at
all, it shows which records a pass gets to.

Main result: `recovery_covers_iff`.  Each query has an order and a limit and no rotation, and
the split worker stops at the first split that fails, so what is behind the limit, or behind
a stuck split, is never processed.
-/
import OpenSsp.Lib.Sweep
import OpenSsp.Ldk
import OpenSsp.LeafSplit

namespace OpenSsp.Recovery

open Interleave LeafSplit

/-! ### Tables -/

/-- What the worker reads of a fixed deposit claim. -/
structure DepositClaim where
  id : String
  phase : String
deriving DecidableEq

structure DepositRow where
  rowid : Nat
  claim : DepositClaim
  lastError : Option String

def DepositRow.id (r : DepositRow) : String := r.claim.id

/-- What the worker reads of a request. -/
structure StoredRequest where
  rowid : Nat
  id : String
  kind : String
  outboundTransferSparkId : Option String
  status : Option String

/-- The four tables the recovery workers read. -/
structure Db where
  lightning : OpenSsp.Db
  claims : Table DepositRow.id
  requests : Table StoredRequest.id
  leafSplits : LeafSplit.Db

namespace Db

/-- `unfinished_claims`: the rows a pass lists, with the order it lists them in. -/
def unfinishedClaims (db : Db) : List (Nat × DepositClaim) :=
  (db.claims.rows.map fun r => (r.rowid, r.claim)).filter fun c =>
    c.2.phase != "SPEND_TX_CONFIRMED"

/-- `ORDER BY rowid LIMIT 100` -/
def pendingClaims (db : Db) : List DepositClaim :=
  ((db.unfinishedClaims.mergeSort fun a b => a.1 ≤ b.1).take 100).map (·.2)

/-- `set_last_error` of a claim. -/
def setLastError (id error : String) (db : Db) : Db :=
  let claims := db.claims.update (fun r => r.id == id)
    fun r => { r with lastError := some error }
  { db with claims }

/-- `unfinished_swaps`. -/
def unfinishedSwaps (db : Db) : List StoredRequest :=
  db.requests.rows.filter fun r => r.kind == "LEAVES_SWAP" && r.outboundTransferSparkId.isSome &&
    r.status.getD "" != "SUCCEEDED"

/-- `LIMIT 1000`; the table is scanned in the order of its rows. -/
def pendingSwaps (db : Db) : List (String × String) :=
  ((db.unfinishedSwaps.mergeSort fun a b => a.rowid ≤ b.rowid).take 1000).map fun r =>
    (r.id, r.outboundTransferSparkId.getD "")

/-- `set_succeeded` of a swap. -/
def setSucceeded (id : String) (db : Db) : Db :=
  let requests := db.requests.update (fun r => r.id == id)
    fun r => { r with status := some "SUCCEEDED" }
  { db with requests }

end Db

/-! ### Passes -/

section

variable {m : Type → Type} [Monad m]

/-- The first loop of `reconcile_payments`. -/
def recoverSends (submissionError : String → String → m (Except String Unit))
    (recoverSend : LightningSend → m (Except String Unit)) (sends : List LightningSend) :
    ExceptT String m Unit :=
  sends.forM (attend recoverSend fun send error => submissionError send.requestId error)

/-- One pass of `StaticDepositService::run`; the error of `setLastError` is ignored. -/
def staticDepositsPass (setLastError : String → String → m Unit)
    (advance : DepositClaim → m (Except String Unit)) (records : List DepositClaim) : m Unit :=
  discard (records.forM (attend advance fun record error =>
    Except.ok <$> setLastError record.id error)).run

/-- What `run_swap_history` does about one swap; every error waits for the next pass. -/
def swapHistoryStep (findTransfer : Uuid → m (Except String (Option Transfer)))
    (processTransfer : Transfer → m (Except String Unit)) (setSucceeded : String → m Unit)
    (row : String × String) : m Unit :=
  match TransferId.parse row.2 with
  | .error _ => pure ()
  | .ok primary => do
      match ← findTransfer primary with
      | .ok (some transfer) =>
          if transfer.status = .completed then setSucceeded row.1
          else if transfer.status = .senderKeyTweaked ∨ transfer.status = .receiverKeyTweaked ∨
              transfer.status = .receiverRefundSigned then
            discard (processTransfer transfer)
      | _ => pure ()

/-- One pass of `run_swap_history`. -/
def swapHistoryPass (step : String × String → m Unit) (pending : List (String × String)) : m Unit :=
  discard (pending.forM fun row => (ExceptT.mk (Except.ok <$> step row) : ExceptT String m Unit)).run

/-- What `recover_incomplete_splits` does about one split. -/
def splitStep (resume : SparkSplitOperation → Option TreeNode → m (Except String Unit))
    (available : List TreeNode) (operation : SparkSplitOperation) : m (Except String Unit) :=
  let parent := available.find? (·.id == operation.parentNodeId)
  if operation.status = .draft ∧ parent = none then return .ok ()
  else resume operation parent

/-- The loop of `recover_incomplete_splits`: an error ends it. -/
def recoverSplits (step : SparkSplitOperation → m (Except String Unit))
    (operations : List SparkSplitOperation) : ExceptT String m Unit :=
  operations.forM fun operation => ExceptT.mk (step operation)

end

/-! ### The programs' loops -/

/-- The source's `for` over a list, in the monad of the general pass. -/
theorem forEach_eq {I : Interface} {ε ρ : Type} (body : ρ → Act I ε Unit) (rs : List ρ) :
    Act.forEach body rs = rs.forM body := by
  induction rs with
  | nil => rfl
  | cons r rs ih =>
      show (body r >>= fun _ => Act.forEach body rs) = body r >>= fun _ => rs.forM body
      rw [ih]

/-- A reconciled send is the general attended step. -/
theorem reconcileSend_eq (D : Deployment) : Ldk.reconcileSend D = attend
    (fun send => (Ldk.recoverSend D send).run)
    fun send error => (Ssp.db (.lightningSubmissionError send.requestId error)).run := by
  funext send
  show ((Ldk.recoverSend D send).run >>= fun r => Prog.ret (Except.ok r)) >>= ExceptT.bindCont _ =
    (Ldk.recoverSend D send).run >>= _
  rw [bind_assoc]
  apply congrArg
  funext r
  rcases r with e | u
  · rfl
  · rfl

/-- The sends' pass in the general form. -/
theorem reconcilePayments_eq (D : Deployment) : Ldk.reconcilePayments D = (do
    let sends ← Ssp.db .unresolvedLightningSends
    recoverSends (fun id error => (Ssp.db (.lightningSubmissionError id error)).run)
      (fun send => (Ldk.recoverSend D send).run) sends
    Ldk.reconcilePages D 100 none
    let now ← Ssp.tell .now
    let hashes ← Ssp.db (.expiredReceiveHashes now)
    Act.forEach Ldk.expireReceive hashes) := by
  have hloop : ∀ sends, Act.forEach (Ldk.reconcileSend D) sends = recoverSends
      (fun id error => (Ssp.db (.lightningSubmissionError id error)).run)
      (fun send => (Ldk.recoverSend D send).run) sends := by
    intro sends
    rw [forEach_eq, reconcileSend_eq]
    rfl
  simp only [Ldk.reconcilePayments, hloop]

/-- The splits' pass in the general form. -/
theorem recoverSplit_eq (S : Sdk) (rounds : Nat) (available : List TreeNode)
    (operations : List SparkSplitOperation) :
    Act.forEach (recoverSplit S rounds available) operations =
      recoverSplits (splitStep (fun operation parent =>
        (resumeLeafSplit S rounds operation parent).run) available) operations := by
  have hstep : recoverSplit S rounds available = fun operation => ExceptT.mk (splitStep
      (fun operation parent => (resumeLeafSplit S rounds operation parent).run) available
      operation) := rfl
  rw [forEach_eq, hstep]
  rfl

/-! ### Passes over the tables -/

/-- What recovering a send does to the tables, and whether it fails. -/
abbrev SendOutside := LightningSend → StateM Db (Except String Unit)

/-- What advancing a claim does to the tables, and whether it fails. -/
abbrev ClaimOutside := DepositClaim → StateM Db (Except String Unit)

/-- The wallet, as the swap worker sees it. -/
structure SwapOutside where
  findTransfer : Uuid → StateM Db (Except String (Option Transfer))
  processTransfer : Transfer → StateM Db (Except String Unit)

/-- The wallet's leaves, and what resuming a split does to the tables. -/
structure SplitOutside where
  available : Db → List TreeNode
  resume : SparkSplitOperation → Option TreeNode → StateM Db (Except String Unit)

namespace Db

/-- The sends that are still to be resolved. -/
def unresolvedSends (db : Db) : List String :=
  ((db.lightning.sends.rows.map (·.intent)).filter fun s => !s.status.final).map (·.requestId)

/-- The claims that are still to be resolved. -/
def unresolvedClaims (db : Db) : List String := db.unfinishedClaims.map (·.2.id)

/-- The swaps that are still to be resolved. -/
def unresolvedSwaps (db : Db) : List String := db.unfinishedSwaps.map (·.id)

/-- The splits that are still to be resolved. -/
def unresolvedSplits (db : Db) : List String :=
  (db.leafSplits.splits.rows.filter (·.status != .completed)).map (·.operationId)

/-- A submission error, written to the row and otherwise lost. -/
def submissionError (id error : String) : StateM Db (Except String Unit) := fun db =>
  (.ok (), { db with lightning := (db.lightning.lightningSubmissionError id error).2 })

end Db

/-- The sends a pass gets to, and the tables after it. -/
def sendsPass (recoverSend : SendOutside) (db : Db) : List String × Db :=
  swept (·.requestId) (recoverSends (fun id error => quietly (Db.submissionError id error))
    (noting recoverSend) db.lightning.unresolvedLightningSends).run db

/-- One pass over the claims: whom it reached, and the database after it. -/
def claimsPass (advance : ClaimOutside) (db : Db) : List String × Db :=
  swept (·.id) (staticDepositsPass (fun id error => quietly fun db => ((), db.setLastError id error))
    (noting advance) db.pendingClaims) db

/-- One pass over the swaps. -/
def swapsPass (o : SwapOutside) (db : Db) : List String × Db :=
  swept (·.1) (swapHistoryPass (noting (swapHistoryStep o.findTransfer o.processTransfer
    fun id db => ((), db.setSucceeded id))) db.pendingSwaps) db

/-- One pass over the splits. -/
def splitsPass (splitService : Bool) (o : SplitOutside) (db : Db) : List String × Db :=
  if splitService then
    swept (·.operationId) (recoverSplits (noting (splitStep o.resume (o.available db)))
      db.leafSplits.incompleteSparkSplits).run db
  else ([], db)

/-! ### Lightning sends -/

namespace Db

/-- The unresolved sends in the order of the query. -/
def sendOrder (db : Db) : List String :=
  (((db.lightning.sends.rows.map (·.intent)).filter fun s => !s.status.final).insertionSort
    fun a b => a.requestId ≤ b.requestId).map (·.requestId)

/-- A send is one row. -/
theorem unresolvedSends_nodup (db : Db) : db.unresolvedSends.Nodup := by
  have hids : ((db.lightning.sends.rows.map (·.intent)).map (·.requestId)).Nodup := by
    rw [List.map_map]
    exact db.lightning.sends.nodup
  exact hids.sublist (List.filter_sublist.map _)

/-- The order of the sends' query is an order of all of them. -/
theorem sendOrder_perm (db : Db) : db.sendOrder.Perm db.unresolvedSends :=
  (List.perm_insertionSort _ _).map _

/-- The error of a send has a column of its own. -/
theorem submissionError_intents (id error : String) (db : Db) :
    (db.lightning.lightningSubmissionError id error).2.sends.rows.map (·.intent) =
      db.lightning.sends.rows.map (·.intent) :=
  Table.map_column (f := fun r : SendRow => { r with lastError := some (r.lastError.getD error) })
    (fun _ => rfl) _ _

end Db

/-- A pass reaches the first thousand in that order. -/
theorem sendsPass_fst (o : SendOutside) (db : Db) :
    (sendsPass o db).1 = db.sendOrder.take 1000 := by
  have hseen : (sendsPass o db).1 = db.lightning.unresolvedLightningSends.map (·.requestId) := by
    apply swept_forM
    apply goesOn_attend
    intro send e db' seen
    exact ⟨_, rfl⟩
  rw [hseen, Db.sendOrder, ← List.map_take]
  rfl

/-- A send whose recovery fails and changes nothing. -/
def stuckSend : SendOutside := fun _ db => (.error "stuck", db)

/-- When every send stays stuck the next pass lists them in the same order. -/
theorem sendsPass_stuck (db : Db) : (sendsPass stuckSend db).2.sendOrder = db.sendOrder := by
  have hrows : (sendsPass stuckSend db).2.lightning.sends.rows.map (·.intent) =
      db.lightning.sends.rows.map (·.intent) := by
    refine forM_keeps (J := fun s : Db × List LightningSend =>
      s.1.lightning.sends.rows.map (·.intent) = db.lightning.sends.rows.map (·.intent)) ?_
      db.lightning.unresolvedLightningSends (db, []) rfl
    rintro send ⟨db', seen⟩ hdb'
    exact (Db.submissionError_intents send.requestId "stuck" db').trans hdb'
  rw [Db.sendOrder, hrows, Db.sendOrder]

/-- Every send is reached in the end exactly when a thousand hold them all. -/
theorem sends_covered_iff (db : Db) :
    Covers Db.unresolvedSends sendsPass db ↔ db.unresolvedSends.length ≤ 1000 :=
  covers_iff Db.unresolvedSends_nodup Db.sendOrder_perm
    (fun o db => by rw [sendsPass_fst]; exact List.Subset.refl _) stuckSend
    (fun db => by rw [sendsPass_fst]; exact List.Subset.refl _) sendsPass_stuck db

/-! ### Fixed deposit claims -/

namespace Db

/-- The order of the claims' query. -/
def claimOrder (db : Db) : List String :=
  (db.unfinishedClaims.mergeSort fun a b => a.1 ≤ b.1).map (·.2.id)

/-- A claim is one row. -/
theorem unresolvedClaims_nodup (db : Db) : db.unresolvedClaims.Nodup := by
  have hids : ((db.claims.rows.map fun r => (r.rowid, r.claim)).map (·.2.id)).Nodup := by
    rw [List.map_map]
    exact db.claims.nodup
  exact hids.sublist (List.filter_sublist.map _)

/-- The order of the claims' query is an order of all of them. -/
theorem claimOrder_perm (db : Db) : db.claimOrder.Perm db.unresolvedClaims :=
  (List.mergeSort_perm _ _).map _

/-- The error's text is no part of the claim. -/
theorem setLastError_claims (id error : String) (db : Db) :
    ((db.setLastError id error).claims.rows.map fun r => (r.rowid, r.claim)) =
      db.claims.rows.map fun r => (r.rowid, r.claim) :=
  Table.map_column (f := fun r : DepositRow => { r with lastError := some error })
    (fun _ => rfl) _ _

end Db

/-- A pass reaches the first hundred in that order. -/
theorem claimsPass_fst (o : ClaimOutside) (db : Db) :
    (claimsPass o db).1 = db.claimOrder.take 100 := by
  have hseen : (claimsPass o db).1 = db.pendingClaims.map (·.id) := by
    apply swept_forM (ε := String)
    apply goesOn_attend
    intro claim e db' seen
    exact ⟨_, rfl⟩
  rw [hseen, Db.claimOrder, Db.pendingClaims, List.map_map, ← List.map_take]
  rfl

/-- An outside world in which no claim gets on. -/
def stuckClaim : ClaimOutside := fun _ db => (.error "stuck", db)

/-- There the next pass lists the claims in the same order. -/
theorem claimsPass_stuck (db : Db) : (claimsPass stuckClaim db).2.claimOrder = db.claimOrder := by
  have hrows : (claimsPass stuckClaim db).2.claims.rows.map (fun r => (r.rowid, r.claim)) =
      db.claims.rows.map fun r => (r.rowid, r.claim) := by
    refine forM_keeps (J := fun s : Db × List DepositClaim =>
      s.1.claims.rows.map (fun r => (r.rowid, r.claim)) =
        db.claims.rows.map fun r => (r.rowid, r.claim)) ?_ db.pendingClaims (db, []) rfl
    rintro claim ⟨db', seen⟩ hdb'
    exact (Db.setLastError_claims claim.id "stuck" db').trans hdb'
  rw [Db.claimOrder, Db.unfinishedClaims, hrows, Db.claimOrder, Db.unfinishedClaims]

/-- Every claim is reached in the end exactly when a hundred hold them all. -/
theorem claims_covered_iff (db : Db) :
    Covers Db.unresolvedClaims claimsPass db ↔ db.unresolvedClaims.length ≤ 100 :=
  covers_iff Db.unresolvedClaims_nodup Db.claimOrder_perm
    (fun o db => by rw [claimsPass_fst]; exact List.Subset.refl _) stuckClaim
    (fun db => by rw [claimsPass_fst]; exact List.Subset.refl _) claimsPass_stuck db

/-! ### Swaps -/

namespace Db

/-- The order of the swaps' query. -/
def swapOrder (db : Db) : List String :=
  (db.unfinishedSwaps.mergeSort fun a b => a.rowid ≤ b.rowid).map (·.id)

/-- A swap is one row. -/
theorem unresolvedSwaps_nodup (db : Db) : db.unresolvedSwaps.Nodup :=
  db.requests.nodup.sublist (List.filter_sublist.map _)

/-- The order of the swaps' query is an order of all of them. -/
theorem swapOrder_perm (db : Db) : db.swapOrder.Perm db.unresolvedSwaps :=
  (List.mergeSort_perm _ _).map _

end Db

/-- A pass reaches the first thousand in that order. -/
theorem swapsPass_fst (o : SwapOutside) (db : Db) :
    (swapsPass o db).1 = db.swapOrder.take 1000 := by
  have hseen : (swapsPass o db).1 = db.pendingSwaps.map (·.1) := by
    apply swept_forM (ε := String)
    intro row db' seen
    exact ⟨_, rfl⟩
  rw [hseen, Db.swapOrder, Db.pendingSwaps, List.map_map, ← List.map_take]
  rfl

/-- A wallet that does not answer. -/
def stuckSwap : SwapOutside where
  findTransfer _ db := (.error "stuck", db)
  processTransfer _ db := (.error "stuck", db)

/-- When every swap stays stuck the next pass lists them in the same order. -/
theorem swapsPass_stuck (db : Db) : (swapsPass stuckSwap db).2.swapOrder = db.swapOrder := by
  have hdb : (swapsPass stuckSwap db).2 = db := by
    refine forM_keeps (J := fun s : Db × List (String × String) => s.1 = db) ?_ db.pendingSwaps
      (db, []) rfl
    rintro row ⟨db', seen⟩ hdb'
    have hstep : (swapHistoryStep stuckSwap.findTransfer stuckSwap.processTransfer
        (fun id db => ((), Db.setSucceeded id db)) row db').2 = db' := by
      unfold swapHistoryStep
      rcases TransferId.parse row.2 with e | primary
      · rfl
      · rfl
    exact hstep.trans hdb'
  rw [hdb]

/-- Every swap is reached in the end exactly when a thousand hold them all. -/
theorem swaps_covered_iff (db : Db) :
    Covers Db.unresolvedSwaps swapsPass db ↔ db.unresolvedSwaps.length ≤ 1000 :=
  covers_iff Db.unresolvedSwaps_nodup Db.swapOrder_perm
    (fun o db => by rw [swapsPass_fst]; exact List.Subset.refl _) stuckSwap
    (fun db => by rw [swapsPass_fst]; exact List.Subset.refl _) swapsPass_stuck db

/-! ### Leaf splits -/

namespace Db

/-- The order of the splits' query. -/
def splitOrder (db : Db) : List String :=
  ((db.leafSplits.splits.rows.filter (·.status != .completed)).mergeSort fun a b =>
    a.createdAt < b.createdAt ||
      a.createdAt == b.createdAt && a.operationId ≤ b.operationId).map (·.operationId)

/-- A split is one row. -/
theorem unresolvedSplits_nodup (db : Db) : db.unresolvedSplits.Nodup :=
  db.leafSplits.splits.nodup.sublist (List.filter_sublist.map _)

/-- The order of the splits' query is an order of all of them. -/
theorem splitOrder_perm (db : Db) : db.splitOrder.Perm db.unresolvedSplits :=
  (List.mergeSort_perm _ _).map _

/-- The query's own limit is a thousand. -/
theorem incompleteSparkSplits_ids (db : Db) :
    db.leafSplits.incompleteSparkSplits.map (·.operationId) = db.splitOrder.take 1000 := by
  rw [LeafSplit.Db.incompleteSparkSplits, List.map_map, splitOrder, ← List.map_take]
  rfl

end Db

/-- How many splits a pass is sure to get to. -/
def splitCapacity (splitService : Bool) : Nat := if splitService then 1 else 0

/-- Without a split service only the first of them is tried. -/
theorem splitOrder_take (db : Db) :
    db.splitOrder.take 1 = (db.leafSplits.incompleteSparkSplits.take 1).map (·.operationId) := by
  rw [List.map_take, Db.incompleteSparkSplits_ids, List.take_take]
  rfl

/-- Whatever happens outside, a pass reaches the first of the order up to its capacity. -/
theorem splitsPass_most (splitService : Bool) (o : SplitOutside) (db : Db) :
    db.splitOrder.take (splitCapacity splitService) ⊆ (splitsPass splitService o db).1 := by
  cases splitService with
  | false => exact List.nil_subset _
  | true =>
      have hnotes : Notes fun operation => ExceptT.mk
          (noting (splitStep o.resume (o.available db)) operation) := fun r s seen => ⟨_, _, rfl⟩
      rw [splitsPass, if_pos rfl, splitCapacity, if_pos rfl, splitOrder_take, recoverSplits, swept]
      rcases db.leafSplits.incompleteSparkSplits with - | ⟨operation, operations⟩
      · exact List.nil_subset _
      · obtain ⟨x, db', more, h⟩ := forM_first hnotes operation operations db []
        rw [h]
        intro id hid
        rw [List.mem_singleton.mp hid]
        exact List.mem_cons_self

/-- Every parent is there, and every split fails. -/
def stuckSplit : SplitOutside where
  available db := db.leafSplits.incompleteSparkSplits.map fun operation =>
    { id := operation.parentNodeId, value := operation.parentValueSats, signingKeyshare := "" }
  resume _ _ db := (.error "stuck", db)

/-- When every split stays stuck a pass reaches no more than that. -/
theorem splitsPass_stuck (splitService : Bool) (db : Db) :
    splitsPass splitService stuckSplit db =
      (db.splitOrder.take (splitCapacity splitService), db) := by
  cases splitService with
  | false => rfl
  | true =>
      rw [splitsPass, if_pos rfl, splitCapacity, if_pos rfl, splitOrder_take, recoverSplits]
      have hfails : ∀ operation ∈ db.leafSplits.incompleteSparkSplits, ∀ s,
          splitStep stuckSplit.resume (stuckSplit.available db) operation s = (.error "stuck", s) := by
        intro operation hmem s
        have hparent : ((stuckSplit.available db).find?
            (·.id == operation.parentNodeId)).isSome := by
          rw [List.find?_isSome]
          exact ⟨_, List.mem_map_of_mem hmem, beq_self_eq_true _⟩
        unfold splitStep
        rw [if_neg]
        · rfl
        · rintro ⟨-, hnone⟩
          rw [hnone] at hparent
          cases hparent
      rcases hops : db.leafSplits.incompleteSparkSplits with - | ⟨operation, operations⟩
      · rfl
      · have hfirst := hfails operation (by rw [hops]; exact List.mem_cons_self) db
        have hrun : (ExceptT.mk (noting (splitStep stuckSplit.resume (stuckSplit.available db))
            operation)).run (db, []) = (.error "stuck", (db, [operation])) := by
          show noting (splitStep stuckSplit.resume (stuckSplit.available db)) operation (db, []) = _
          rw [noting_apply hfirst]
          rfl
        rw [swept, forM_cons_run, hrun]
        rfl

/-- Every split is reached in the end exactly when the capacity holds them all. -/
theorem splits_covered_iff (splitService : Bool) (db : Db) :
    Covers Db.unresolvedSplits (splitsPass splitService) db ↔
      db.unresolvedSplits.length ≤ splitCapacity splitService :=
  covers_iff Db.unresolvedSplits_nodup Db.splitOrder_perm (splitsPass_most splitService) stuckSplit
    (fun db => by rw [splitsPass_stuck]; exact List.Subset.refl _)
    (fun db => by rw [splitsPass_stuck]) db

/-! ### Coverage -/

/-- Repeated passes of every worker cover the store. -/
structure RecoveryCovers (splitService : Bool) (db : Db) : Prop where
  sends : Covers Db.unresolvedSends sendsPass db
  claims : Covers Db.unresolvedClaims claimsPass db
  swaps : Covers Db.unresolvedSwaps swapsPass db
  splits : Covers Db.unresolvedSplits (splitsPass splitService) db

/-- **Recovery covers a store** exactly when its unresolved records fit into one batch of each
worker, and, as the split worker stops at a failing split, at most one split is incomplete. -/
theorem recovery_covers_iff (splitService : Bool) (db : Db) :
    RecoveryCovers splitService db ↔
      db.unresolvedSends.length ≤ 1000 ∧ db.unresolvedClaims.length ≤ 100 ∧
      db.unresolvedSwaps.length ≤ 1000 ∧
      db.unresolvedSplits.length ≤ splitCapacity splitService := by
  rw [← sends_covered_iff, ← claims_covered_iff, ← swaps_covered_iff, ← splits_covered_iff]
  constructor
  · intro h
    exact ⟨h.sends, h.claims, h.swaps, h.splits⟩
  · rintro ⟨hsends, hclaims, hswaps, hsplits⟩
    exact ⟨hsends, hclaims, hswaps, hsplits⟩

namespace Sample

/-- A request id of the sample, by its last byte. -/
def uuid (n : Nat) : String := Uuid.print (Uuid.ending (UInt8.ofNat n))

/-- Different bytes, different ids. -/
theorem uuid_inj {m n : Nat} (hm : m < 256) (hn : n < 256) (h : uuid m = uuid n) : m = n := by
  have hbytes := congrArg Uuid.bytes (Uuid.print_injective h)
  have hlast := congrArg UInt8.toNat (List.cons.inj (List.append_cancel_left hbytes)).1
  rwa [UInt8.toNat_ofNat_of_lt' hm, UInt8.toNat_ofNat_of_lt' hn] at hlast

/-- A claim whose recovery transaction waits for its confirmation. -/
def claim (n : Nat) : DepositRow := ⟨n, ⟨uuid n, "SPEND_TX_BROADCAST"⟩, none⟩

/-- The 101 claims of the sample are different rows. -/
theorem claims_nodup : (((List.range 101).map claim).map DepositRow.id).Nodup := by
  rw [List.map_map]
  refine List.Nodup.map_on ?_ List.nodup_range
  intro m hm n hn h
  have hm := List.mem_range.mp hm
  have hn := List.mem_range.mp hn
  exact uuid_inj (by omega) (by omega) h

def split (n : Nat) : SplitRow where
  operationId := splitOperationId (uuid n)
  parentNodeId := uuid n
  parentValueSats := 1000
  childValuesSats := [400, 600]
  plan := []
  status := .prepared
  childNodeIds := []
  lastError := none
  createdAt := n

/-- The store with 101 unfinished claims and two incomplete splits. -/
def backlog : Db where
  lightning := .empty
  claims := ⟨(List.range 101).map claim, claims_nodup⟩
  requests := .empty
  leafSplits := { LeafSplit.Db.empty with
    splits := ⟨⟨[split 0, split 1], by decide +kernel⟩, by decide +kernel⟩ }

end Sample

/-- The 101st claim and the second split are never processed while the others stay. -/
theorem recovery_misses : ¬ RecoveryCovers true Sample.backlog ∧
    ¬ Covers Db.unresolvedClaims claimsPass Sample.backlog ∧
    ¬ Covers Db.unresolvedSplits (splitsPass true) Sample.backlog := by
  have hclaims : ¬ Covers Db.unresolvedClaims claimsPass Sample.backlog := by
    rw [claims_covered_iff]
    decide +kernel
  have hsplits : ¬ Covers Db.unresolvedSplits (splitsPass true) Sample.backlog := by
    rw [splits_covered_iff]
    decide +kernel
  exact ⟨fun h => hclaims h.claims, hclaims, hsplits⟩

end OpenSsp.Recovery
