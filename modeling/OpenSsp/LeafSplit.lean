/-
OpenSsp/LeafSplit.lean

Leaf splits (`spark.rs`): a payment that the whole leaves of the wallet cannot serve splits
one leaf first.  A split goes through DRAFT, PREPARED, SUBMITTING, SUBMITTED and COMPLETED,
each stage durable before the next; a split that was interrupted is resumed from the status
that was durable, by whichever caller comes next.  Everything runs under the liquidity lock.

The SDK's stage objects and their JSON codecs are parameters.  Its key store callbacks can
come at any time, and are moves of the outside.

`rounds` bounds the resume loop, which has no bound in the source: a loop that is not over
by then makes the call `exhausted`.
-/
import OpenSsp.Lib.Guard
import OpenSsp.LeafPlan
import OpenSsp.SplitDb
import OpenSsp.Spark

namespace OpenSsp.LeafSplit

open Interleave

/-- The SDK and the configuration. -/
structure Sdk where
  Draft : Type
  Plan : Type
  Submitted : Type
  encodeDraft : Draft → Except String (List UInt8)
  decodeDraft : List UInt8 → Except String Draft
  encodePlan : Plan → Except String (List UInt8)
  decodePlan : List UInt8 → Except String Plan
  encodeSubmitted : Submitted → Except String (List UInt8)
  decodeSubmitted : List UInt8 → Except String Submitted
  /-- Does `select_leaves_by_exact_amounts` succeed? -/
  selectsExactly : List TreeNode → List Nat → Bool
  minimumSplitChildSats : Nat
  /-- Are the operator hosts configured? -/
  splitService : Bool

inductive Lock where
  | liquidity
deriving DecidableEq

/-- The leaves a wallet has: those it can use, and those that are missing operators. -/
structure WalletLeaves where
  available : List WalletLeaf
  availableMissingFromOperators : List WalletLeaf

/-! ### Calls -/

/-- What splitting asks of the outside: its tables and the operators. -/
inductive Call (S : Sdk) where
  | lock (l : Lock)
  | unlock (l : Lock)
  | db (q : Query)
  | sync
  | listLeaves
  | draftSplit (operationId : String) (parent : TreeNode) (childValues : List Nat)
  | prepareSplit (draft : S.Draft) (parent : TreeNode)
  /-- The operators see the plan; the id says which operation it is submitted for. -/
  | submitSplit (operationId : String) (plan : S.Plan)
  | finalizeSplit (submitted : S.Submitted)
  /-- The resume loop has used up its rounds. -/
  | exhausted

@[reducible] def Call.Reply {S : Sdk} : Call S → Type
  | lock _ => Unit
  | unlock _ => Unit
  | db q => Except String q.Out
  | sync => Except String Unit
  | listLeaves => Except String WalletLeaves
  | draftSplit .. => Except String S.Draft
  | prepareSplit .. => Except String S.Plan
  | submitSplit .. => Except String S.Submitted
  | finalizeSplit _ => Except String (List String)
  | exhausted => Unit

@[reducible] def Api (S : Sdk) : Interface := ⟨Call S, Call.Reply⟩

/-- A function of the source: it can call, and fail with a text. -/
abbrev Ssp (S : Sdk) (α : Type) := Act (Api S) String α

variable {S : Sdk}

def tell (c : Call S) : Ssp S c.Reply := Act.tell (I := Api S) c

def db (q : Query) : Ssp S q.Out := Act.ask (I := Api S) (.db q) id

def sync : Ssp S Unit := Act.ask (I := Api S) .sync id

def listLeaves : Ssp S WalletLeaves := Act.ask (I := Api S) .listLeaves id

/-- The transactions of a split, before the operators have seen them. -/
def draftSplit (operationId : String) (parent : TreeNode) (childValues : List Nat) :
    Ssp S S.Draft :=
  Act.ask (I := Api S) (.draftSplit operationId parent childValues) id

/-- The plan of a split, with fresh keys. -/
def prepareSplit (draft : S.Draft) (parent : TreeNode) : Ssp S S.Plan :=
  Act.ask (I := Api S) (.prepareSplit draft parent) id

def submitSplit (operationId : String) (plan : S.Plan) : Ssp S S.Submitted :=
  Act.ask (I := Api S) (.submitSplit operationId plan) id

/-- The last step of a split, which answers with the new leaves. -/
def finalizeSplit (submitted : S.Submitted) : Ssp S (List String) :=
  Act.ask (I := Api S) (.finalizeSplit submitted) id

/-- Run `body` with the guard of the liquidity lock. -/
def locked {α : Type} (body : Ssp S α) : Ssp S α :=
  Act.bracket (tell (.lock .liquidity)) (tell (.unlock .liquidity)) body

/-! ### Splitting -/

/-- The id of a split is made from its parent's. -/
def splitOperationId (parentId : String) : String :=
  let digest := sha256 (utf8 ("leaf-split:" ++ parentId))
  Uuid.print ⟨((digest.take 16).set 6 ((digest.getD 6 0 &&& 0x0f) ||| 0x40)).set 8
    ((digest.getD 8 0 &&& 0x3f) ||| 0x80), by simp [digest]⟩

variable (S)

/-- One round of the resume loop; answers whether the operation is complete. -/
def resumeRound (operation : SparkSplitOperation) (parent : Option TreeNode) : Ssp S Bool :=
  match operation.status with
  | .draft => do
      let parent ← Act.ofExcept (okOr
        "cannot resume a draft split because its parent is unavailable" parent)
      let draft ← Act.ofExcept (S.decodeDraft operation.plan)
      let plan ← prepareSplit draft parent
      let encoded ← Act.ofExcept (S.encodePlan plan)
      db (.savePreparedSparkSplit operation.operationId encoded)
      return false
  | .prepared | .submitting => do
      let plan ← Act.ofExcept (S.decodePlan operation.plan)
      db (.markSparkSplitSubmitting operation.operationId)
      let submitted ← submitSplit operation.operationId plan
      let encoded ← Act.ofExcept (S.encodeSubmitted submitted)
      db (.saveSubmittedSparkSplit operation.operationId encoded)
      return false
  | .submitted => do
      let submitted ← Act.ofExcept (S.decodeSubmitted operation.plan)
      let children ← finalizeSplit submitted
      if children.length ≠ operation.childValuesSats.length then
        throw "finalized split returned an unexpected child count"
      db (.markSparkSplitCompleted operation.operationId)
      return false
  | .completed => return true

/-- One checkpoint after the other, until the split is completed. -/
def resumeLoop (parent : Option TreeNode) : Nat → SparkSplitOperation → Ssp S Unit
  | 0, _ => tell .exhausted
  | rounds + 1, operation => do
      if ← resumeRound S operation parent then return ()
      let again ← db (.sparkSplitForParent operation.parentNodeId)
      let operation ← Act.ofExcept (okOr "Spark split checkpoint disappeared" again)
      resumeLoop parent rounds operation

variable (rounds : Nat)

/-- A split goes on where it was left; its error is kept beside it. -/
def resumeLeafSplit (operation : SparkSplitOperation) (parent : Option TreeNode) :
    Ssp S Unit := do
  if ¬ S.splitService then throw "just-in-time splitting is disabled"
  match ← Act.attempt (resumeLoop S parent rounds operation) with
  | .ok _ => return ()
  | .error error =>
      let _ ← Act.attempt (db (S := S) (.recordSparkSplitError operation.operationId error))
      throw error

/-- The operation of a parent, drafted now if there is none. -/
def findOrDraft (parent : TreeNode) (childValues : List Nat) : Ssp S SparkSplitOperation := do
  let operationId := splitOperationId parent.id
  match ← db (.sparkSplitForParent parent.id) with
  | some operation => return operation
  | none =>
      let draft ← draftSplit operationId parent childValues
      let plan ← Act.ofExcept (S.encodeDraft draft)
      db (.getOrInsertSparkSplit
        { operationId, parentNodeId := parent.id, parentValueSats := parent.value,
          childValuesSats := childValues, plan, status := .draft, childNodeIds := [],
          lastError := none })

/-- A leaf is split into the values; a split of it that is stored already has to be the same. -/
def executeLeafSplit (parent : TreeNode) (childValues : List Nat) : Ssp S Unit := do
  if ¬ S.splitService then
    throw (Spark.liquidityError
      "just-in-time splitting is disabled; configure SSP_OPERATOR_HOSTS")
  let operation ← findOrDraft S parent childValues
  if operation.parentNodeId ≠ parent.id ∨ operation.parentValueSats ≠ parent.value ∨
      operation.childValuesSats ≠ childValues then
    throw "persisted split does not match the requested parent and values"
  resumeLeafSplit S rounds operation (some parent)

/-- Finish one checkpoint that an earlier caller has left. -/
def recoverSplit (available : List TreeNode) (operation : SparkSplitOperation) : Ssp S Unit :=
  let parent := available.find? (·.id == operation.parentNodeId)
  -- a draft waits until its parent is available
  if operation.status = .draft ∧ parent = none then return ()
  else resumeLeafSplit S rounds operation parent

/-- The splits that were left are resumed; without operator hosts there are none. -/
def recoverIncompleteSplits : Ssp S Unit :=
  if ¬ S.splitService then return ()
  else do
    let operations ← db .incompleteSparkSplits
    if operations = [] then return ()
    else do
      sync
      let leaves ← listLeaves
      let available ← Act.ofExcept ((leaves.available ++ leaves.availableMissingFromOperators).mapM
        walletLeafToTreeNode)
      Act.forEach (recoverSplit S rounds available) operations
      sync

/-- Smaller leaves first. -/
def sortLeaves (leaves : List TreeNode) : List TreeNode :=
  leaves.mergeSort fun a b => a.value < b.value || a.value == b.value && a.id ≤ b.id

/-- Split until the leaves serve the request, at most so many times. -/
def splitUntil (serves : List TreeNode → Bool)
    (plan : List TreeNode → Except String (TreeNode × List Nat)) (exceeded : String) :
    Nat → Ssp S Unit
  | 0 => throw exceeded
  | tries + 1 => do
      let leaves ← listLeaves
      let available ← Act.ofExcept (leaves.available.mapM walletLeafToTreeNode)
      let available := sortLeaves available
      if serves available then return ()
      else do
        let split ← Act.ofExcept (plan available)
        executeLeafSplit S rounds split.1 split.2
        sync
        splitUntil serves plan exceeded tries

/-- The wallet gets leaves for an amount, in 32 rounds at most. -/
def ensureExactLiquidity (amountSats : Nat) : Ssp S Unit := do
  recoverIncompleteSplits S rounds
  splitUntil S rounds (fun available => S.selectsExactly available [amountSats])
    (fun available =>
      match planJustInTimeSplit available amountSats S.minimumSplitChildSats with
      | some plan => .ok (plan.parent, [plan.neededSats, plan.changeSats])
      | none => .error (Spark.liquidityError
          ("amount cannot be represented by available leaves without creating a child below " ++
            "the configured split floor")))
    "leaf split reconciliation exceeded its progress limit" 32

/-- The wallet gets leaves for every one of the amounts, in 32 rounds at most. -/
def ensureDenominatedLiquidity (amounts : List Nat) : Ssp S Unit := do
  recoverIncompleteSplits S rounds
  splitUntil S rounds (fun available => S.selectsExactly available amounts)
    (fun available =>
      match planDenominationSplit available amounts S.minimumSplitChildSats with
      | some (parent, neededSats, changeSats) => .ok (parent, [neededSats, changeSats])
      | none => .error (Spark.liquidityError
          ("swap denominations cannot be produced without creating a child below the " ++
            "configured split floor")))
    "denomination split reconciliation exceeded its progress limit" 32

/-- What other parts of the program ask for. -/
inductive Request where
  | ensureExactLiquidity (amountSats : Nat)
  | ensureDenominatedLiquidity (amounts : List Nat)
  | recoverIncompleteSplits
deriving DecidableEq

def Request.act : Request → Ssp S Unit
  | ensureExactLiquidity amountSats => LeafSplit.ensureExactLiquidity S rounds amountSats
  | ensureDenominatedLiquidity amounts => LeafSplit.ensureDenominatedLiquidity S rounds amounts
  | recoverIncompleteSplits => LeafSplit.recoverIncompleteSplits S rounds

/-- Every caller holds the liquidity lock. -/
def Request.handler (r : Request) : Prog (Api S) Unit := discard (locked (r.act S rounds)).run

/-! ### The machine -/

/-- The tables, the wallet, the lock and the time. -/
structure World where
  db : Db
  locks : Mutexes Lock
  now : Nat

inductive Choice (S : Sdk) where
  /-- As asked. -/
  | done
  /-- The call fails; a remote party may have acted all the same. -/
  | fail (e : String)
  | leaves (l : WalletLeaves)
  | draft (d : S.Draft)
  | plan (p : S.Plan)
  | submitted (s : S.Submitted)
  | children (ids : List String)

def perform (t : Nat) (c : Call S) (ch : Choice S) (w : World) : Option (c.Reply × World) :=
  match c, ch with
  | .lock l, .done => (w.locks.take t l).map fun locks => ((), { w with locks })
  | .unlock l, .done => some ((), { w with locks := w.locks.release t l })
  | .db q, .done =>
      match q.run w.now w.db with
      | .ok (out, db) => some (.ok out, { w with db })
      | .error e => some (.error e, w)
  | .db _, .fail e => some (.error e, w)
  | .sync, .done => some (.ok (), w)
  | .sync, .fail e => some (.error e, w)
  | .listLeaves, .leaves l => some (.ok l, w)
  | .listLeaves, .fail e => some (.error e, w)
  | .draftSplit .., .draft d => some (.ok d, w)
  | .draftSplit .., .fail e => some (.error e, w)
  | .prepareSplit .., .plan p => some (.ok p, w)
  | .prepareSplit .., .fail e => some (.error e, w)
  | .submitSplit .., .submitted s => some (.ok s, w)
  | .submitSplit .., .fail e => some (.error e, w)
  | .finalizeSplit _, .children ids => some (.ok ids, w)
  | .finalizeSplit _, .fail e => some (.error e, w)
  | .exhausted, .done => some ((), w)
  | _, _ => none

inductive Outside where
  | tick (n : Nat)
  | putPendingSplitKeys (operationId parentNodeId : String) (encryptedKeys : List (List UInt8))
  | bindPendingSplitKeys (operationId : String) (nodeIds : List String)

def outside (o : Outside) (w : World) : Option World :=
  match o with
  | .tick n => some { w with now := w.now + n }
  | .putPendingSplitKeys operationId parentNodeId encryptedKeys =>
      (w.db.putPendingSparkSplitKeys operationId parentNodeId encryptedKeys).toOption.map
        fun db => { w with db }
  | .bindPendingSplitKeys operationId nodeIds =>
      (w.db.bindPendingSparkSplitKeys operationId nodeIds).toOption.map fun db => { w with db }

def machine : Machine (Api S) where
  World := World
  Choice := Choice S
  Outside := Outside
  Request := Request
  init := ⟨.empty, .free, 0⟩
  handler := Request.handler S rounds
  perform := perform S
  outside := outside
  cancel t w := { w with locks := w.locks.drop t }
  crash w := { w with locks := .free }

end OpenSsp.LeafSplit
