/-
OpenSsp/SplitDb.lean

The split checkpoints of `db.rs`: one row for each leaf split, and the child keys of a split,
pending until the children have ids.

The operation id is the primary key of `spark_split_operations` and the parent leaf is
unique; both are part of the table (`SplitTable`).  Statuses are the ones its `CHECK` admits.

Main results: `Query.rows_step`, everything a statement can do to the rows, and `Query.saved`,
what it has saved when it succeeds.
-/
import Mathlib.Data.List.Sort
import OpenSsp.Lib.Table
import OpenSsp.Deployment

namespace OpenSsp.LeafSplit

open Interleave

inductive SplitStatus where
  | draft
  | prepared
  | submitting
  | submitted
  | completed
deriving DecidableEq

/-- The place of a status in the order DRAFT, PREPARED, SUBMITTING, SUBMITTED, COMPLETED. -/
def SplitStatus.rank : SplitStatus → Nat
  | draft => 0
  | prepared => 1
  | submitting => 2
  | submitted => 3
  | completed => 4

/-- A split: its parent, the values of its children and the checkpoints reached. -/
structure SparkSplitOperation where
  operationId : String
  parentNodeId : String
  parentValueSats : Nat
  childValuesSats : List Nat
  plan : List UInt8
  status : SplitStatus
  childNodeIds : List String
  lastError : Option String
deriving DecidableEq

/-- A row of the splits, with the times of its writes. -/
structure SplitRow extends SparkSplitOperation where
  createdAt : Nat
deriving DecidableEq

/-- A row of the keys that wait for their split's leaves. -/
structure PendingKeysRow where
  operationId : String
  parentNodeId : String
  encryptedKeys : List (List UInt8)
deriving DecidableEq

/-- A row of the keys a leaf is signed with instead of its derived one. -/
structure KeyOverrideRow where
  nodeId : String
  operationId : String
  keyMaterial : List UInt8
deriving DecidableEq

/-- `spark_split_operations` -/
structure SplitTable extends Table fun r : SplitRow => r.operationId where
  parents : (rows.map fun r => r.parentNodeId).Nodup

structure Db where
  splits : SplitTable
  pendingKeys : Table PendingKeysRow.operationId
  overrides : Table KeyOverrideRow.nodeId

namespace SplitTable

def empty : SplitTable := ⟨.empty, List.nodup_nil⟩

/-- `INSERT`: `none` when the id or the parent is taken. -/
def insert (t : SplitTable) (r : SplitRow) : Option SplitTable :=
  if h : r.operationId ∈ t.rows.map (·.operationId) ∨ r.parentNodeId ∈ t.rows.map (·.parentNodeId)
  then none
  else some ⟨⟨r :: t.rows, List.nodup_cons.mpr ⟨fun hr => h (.inl hr), t.nodup⟩⟩,
    List.nodup_cons.mpr ⟨fun hr => h (.inr hr), t.parents⟩⟩

/-- `UPDATE … WHERE p`: `f` changes neither the id nor the parent. -/
def update (t : SplitTable) (p : SplitRow → Bool) (f : SplitRow → SplitRow)
    (hid : ∀ r, (f r).operationId = r.operationId := by intro; rfl)
    (hparent : ∀ r, (f r).parentNodeId = r.parentNodeId := by intro; rfl) : SplitTable :=
  ⟨t.toTable.update p f hid, by
    show ((t.rows.map fun r => if p r then f r else r).map fun r => r.parentNodeId).Nodup
    rw [Table.map_column hparent]
    exact t.parents⟩

theorem get_update (t : SplitTable) (p : SplitRow → Bool) (f : SplitRow → SplitRow)
    (hid : ∀ r, (f r).operationId = r.operationId)
    (hparent : ∀ r, (f r).parentNodeId = r.parentNodeId) (operationId : String) :
    (t.update p f hid hparent).get operationId =
      (t.get operationId).map fun r => if p r then f r else r :=
  Table.get_update t.toTable p f hid operationId

/-- The split of a parent leaf. -/
def forParent (t : SplitTable) (parentNodeId : String) : Option SplitRow :=
  t.rows.find? (·.parentNodeId == parentNodeId)

theorem mem_forParent {t : SplitTable} {parentNodeId : String} {r : SplitRow}
    (h : t.forParent parentNodeId = some r) : r ∈ t.rows ∧ r.parentNodeId = parentNodeId :=
  ⟨List.mem_of_find?_eq_some h, by simpa using List.find?_some h⟩

theorem eq_of_parent {t : SplitTable} {r r' : SplitRow} (hr : r ∈ t.rows) (hr' : r' ∈ t.rows)
    (h : r.parentNodeId = r'.parentNodeId) : r = r' :=
  List.inj_on_of_nodup_map t.parents hr hr' h

theorem mem_insert {t t' : SplitTable} {r : SplitRow} (h : t.insert r = some t') :
    t'.rows = r :: t.rows := by
  unfold insert at h
  split at h
  · simp at h
  · obtain rfl := Option.some.inj h
    rfl

end SplitTable

/-! ### Statements -/

namespace Db

def empty : Db := ⟨.empty, .empty, .empty⟩

/-- The row of an operation. -/
def withId (operationId : String) (r : SplitRow) : Bool := r.operationId == operationId

/-- `get_or_insert_spark_split`: the row that was there first wins. -/
def getOrInsertSparkSplit (candidate : SparkSplitOperation) (now : Nat) (db : Db) :
    Except String (SparkSplitOperation × Db) := do
  let splits := (db.splits.insert ⟨candidate, now⟩).getD db.splits
  let row ← okOr "Query returned no rows" (splits.forParent candidate.parentNodeId)
  return (row.toSparkSplitOperation, { db with splits })

/-- The split of a parent leaf, as an operation. -/
def sparkSplitForParent (parentNodeId : String) (db : Db) : Option SparkSplitOperation :=
  (db.splits.forParent parentNodeId).map (·.toSparkSplitOperation)

/-- The splits that are not completed, oldest first, a thousand at most. -/
def incompleteSparkSplits (db : Db) : List SparkSplitOperation :=
  (((db.splits.rows.filter (·.status != .completed)).mergeSort fun a b =>
    a.createdAt < b.createdAt ||
      a.createdAt == b.createdAt && a.operationId ≤ b.operationId).take 1000).map
    (·.toSparkSplitOperation)

/-- `UPDATE` of the operation when its status is one of these. -/
def advance (operationId : String) (statuses : List SplitStatus) (f : SplitRow → SplitRow)
    (hid : ∀ r, (f r).operationId = r.operationId := by intro; rfl)
    (hparent : ∀ r, (f r).parentNodeId = r.parentNodeId := by intro; rfl) (db : Db) : Option Db :=
  let p (r : SplitRow) : Bool := withId operationId r && statuses.contains r.status
  if db.splits.count p = 1 then some { db with splits := db.splits.update p f hid hparent }
  else none

/-- A draft takes its plan; a plan can be replaced until it is submitted. -/
def savePreparedSparkSplit (operationId : String) (plan : List UInt8) (db : Db) :
    Except String Db :=
  okOr "Query is not read-only" (db.advance operationId [.draft, .prepared] fun r =>
    { r with plan, status := .prepared, lastError := none })

/-- From here on the operators may have seen the plan. -/
def markSparkSplitSubmitting (operationId : String) (db : Db) : Except String Db :=
  match db.advance operationId [.prepared] fun r =>
      { r with status := .submitting, lastError := none } with
  | some db => .ok db
  | none =>
      -- a retry finds the operation further on
      match db.splits.get operationId with
      | none => .error "Query returned no rows"
      | some r =>
          if r.status ≠ .submitting ∧ r.status ≠ .submitted ∧ r.status ≠ .completed then
            .error "Query is not read-only"
          else .ok db

/-- What the operators have answered takes the plan's place. -/
def saveSubmittedSparkSplit (operationId : String) (submitted : List UInt8) (db : Db) :
    Except String Db :=
  okOr "Query is not read-only" (db.advance operationId [.submitting, .submitted] fun r =>
    { r with plan := submitted, status := .submitted, lastError := none })

/-- The error of the last try; a completed split keeps none. -/
def recordSparkSplitError (operationId error : String) (db : Db) : Db :=
  let p (r : SplitRow) : Bool := withId operationId r && r.status != .completed
  { db with splits := db.splits.update p fun r => { r with lastError := some error } }

/-- Only an operation whose children have ids is complete. -/
def markSparkSplitCompleted (operationId : String) (db : Db) : Except String Db :=
  let p (r : SplitRow) : Bool :=
    withId operationId r && [SplitStatus.submitted, .completed].contains r.status &&
      r.childNodeIds != []
  let f (r : SplitRow) : SplitRow := { r with status := .completed, lastError := none }
  if db.splits.count p = 1 then .ok { db with splits := db.splits.update p f }
  else .error "Query is not read-only"

/-- The keys of a split are stored once. -/
def putPendingSparkSplitKeys (operationId parentNodeId : String)
    (encryptedKeys : List (List UInt8)) (db : Db) : Except String Db :=
  if encryptedKeys = [] ∨ [] ∈ encryptedKeys then
    .error "pending Spark split keys must be non-empty"
  else
    let row : PendingKeysRow := { operationId, parentNodeId, encryptedKeys }
    let pendingKeys := (db.pendingKeys.insert row).getD db.pendingKeys
    if pendingKeys.get operationId = some row then .ok { db with pendingKeys }
    else .error "Query is not read-only"

/-- The children have got their ids: their keys become the keys of these leaves. -/
def bindPendingSparkSplitKeys (operationId : String) (nodeIds : List String) (db : Db) :
    Except String Db := do
  if nodeIds = [] ∨ "" ∈ nodeIds then throw "split child node IDs must be non-empty"
  let operation ← okOr "Query returned no rows" (db.splits.get operationId)
  if operation.childValuesSats.length ≠ nodeIds.length then throw "Query is not read-only"
  match db.pendingKeys.get operationId with
  | none => if operation.childNodeIds = nodeIds then .ok db else .error "Query is not read-only"
  | some pending =>
      if pending.encryptedKeys.length ≠ nodeIds.length then throw "Query is not read-only"
      let overrides := (nodeIds.zip pending.encryptedKeys).foldl (fun overrides key =>
        overrides.upsert ⟨key.1, operationId, key.2⟩
          fun r => { r with operationId, keyMaterial := key.2 }) db.overrides
      let splits := db.splits.update (withId operationId) fun r =>
        { r with childNodeIds := nodeIds, lastError := none }
      let pendingKeys := db.pendingKeys.delete (·.operationId == operationId)
      return { splits, pendingKeys, overrides }

/-- The children and their keys at once. -/
def completeSparkSplit (operationId : String) (overrides : List (String × List UInt8)) (db : Db) :
    Except String Db := do
  let operation ← okOr "Query returned no rows" (db.splits.get operationId)
  if overrides.length ≠ operation.childValuesSats.length ∨
      overrides.any fun item => item.1 == "" || item.2 == [] then throw "Query is not read-only"
  let keys := overrides.foldl (fun overrides key =>
    overrides.upsert ⟨key.1, operationId, key.2⟩
      fun r => { r with operationId, keyMaterial := key.2 }) db.overrides
  let splits := db.splits.update (withId operationId) fun r =>
    { r with status := .completed, childNodeIds := overrides.map (·.1), lastError := none }
  let pendingKeys := db.pendingKeys.delete (·.operationId == operationId)
  return { splits, pendingKeys, overrides := keys }

/-- The key of a leaf that has one of its own. -/
def sparkLeafKeyOverride (nodeId : String) (db : Db) : Option (List UInt8) :=
  (db.overrides.get nodeId).map (·.keyMaterial)

/-- Leaves that a transfer brings back have their usual keys again. -/
def retireSparkLeafKeys (nodeIds : List String) (db : Db) : Db :=
  { db with overrides := nodeIds.foldl (fun overrides nodeId =>
      overrides.delete (·.nodeId == nodeId)) db.overrides }

end Db

inductive Query where
  | getOrInsertSparkSplit (candidate : SparkSplitOperation)
  | sparkSplitForParent (parentNodeId : String)
  | incompleteSparkSplits
  | savePreparedSparkSplit (operationId : String) (plan : List UInt8)
  | markSparkSplitSubmitting (operationId : String)
  | saveSubmittedSparkSplit (operationId : String) (submitted : List UInt8)
  | recordSparkSplitError (operationId error : String)
  | markSparkSplitCompleted (operationId : String)

@[reducible] def Query.Out : Query → Type
  | getOrInsertSparkSplit _ => SparkSplitOperation
  | sparkSplitForParent _ => Option SparkSplitOperation
  | incompleteSparkSplits => List SparkSplitOperation
  | _ => Unit

def Query.run (now : Nat) (db : Db) : (q : Query) → Except String (q.Out × Db)
  | getOrInsertSparkSplit candidate => db.getOrInsertSparkSplit candidate now
  | sparkSplitForParent parentNodeId => .ok (db.sparkSplitForParent parentNodeId, db)
  | incompleteSparkSplits => .ok (db.incompleteSparkSplits, db)
  | savePreparedSparkSplit operationId plan =>
      (db.savePreparedSparkSplit operationId plan).map ((), ·)
  | markSparkSplitSubmitting operationId => (db.markSparkSplitSubmitting operationId).map ((), ·)
  | saveSubmittedSparkSplit operationId submitted =>
      (db.saveSubmittedSparkSplit operationId submitted).map ((), ·)
  | recordSparkSplitError operationId error =>
      .ok ((), db.recordSparkSplitError operationId error)
  | markSparkSplitCompleted operationId => (db.markSparkSplitCompleted operationId).map ((), ·)

/-! ### What a statement can do to a row -/

/-- The part of a row that nothing changes. -/
structure SplitRow.Same (r r' : SplitRow) : Prop where
  operationId : r'.operationId = r.operationId
  parentNodeId : r'.parentNodeId = r.parentNodeId
  parentValueSats : r'.parentValueSats = r.parentValueSats
  childValuesSats : r'.childValuesSats = r.childValuesSats

theorem SplitRow.Same.refl (r : SplitRow) : r.Same r := ⟨rfl, rfl, rfl, rfl⟩

theorem SplitRow.Same.trans {a b c : SplitRow} (h : a.Same b) (h' : b.Same c) : a.Same c :=
  ⟨h'.operationId.trans h.operationId, h'.parentNodeId.trans h.parentNodeId,
    h'.parentValueSats.trans h.parentValueSats, h'.childValuesSats.trans h.childValuesSats⟩

/-- How one statement moves a row: only along the statuses, and the plan with them. -/
inductive RowStep (q : Query) (r r' : SplitRow) : Prop
  | quiet (plan : r'.plan = r.plan) (status : r'.status = r.status)
      (children : r'.childNodeIds = r.childNodeIds)
  | prepared (hq : q = .savePreparedSparkSplit r.operationId r'.plan)
      (old : r.status = .draft ∨ r.status = .prepared) (status : r'.status = .prepared)
      (children : r'.childNodeIds = r.childNodeIds)
  | submitting (hq : q = .markSparkSplitSubmitting r.operationId) (old : r.status = .prepared)
      (status : r'.status = .submitting) (plan : r'.plan = r.plan)
      (children : r'.childNodeIds = r.childNodeIds)
  | submitted (hq : q = .saveSubmittedSparkSplit r.operationId r'.plan)
      (old : r.status = .submitting ∨ r.status = .submitted) (status : r'.status = .submitted)
      (children : r'.childNodeIds = r.childNodeIds)
  | completed (hq : q = .markSparkSplitCompleted r.operationId)
      (old : r.status = .submitted ∨ r.status = .completed) (status : r'.status = .completed)
      (plan : r'.plan = r.plan) (children : r'.childNodeIds = r.childNodeIds)
      (bound : r.childNodeIds ≠ [])

theorem Db.advance_eq_some {operationId : String} {statuses : List SplitStatus}
    {f : SplitRow → SplitRow} {hid : ∀ r, (f r).operationId = r.operationId}
    {hparent : ∀ r, (f r).parentNodeId = r.parentNodeId} {db db' : Db}
    (h : db.advance operationId statuses f hid hparent = some db') :
    db'.splits.rows = db.splits.rows.map (fun r =>
      if withId operationId r && statuses.contains r.status then f r else r) ∧
    ∃ r ∈ db.splits.rows, r.operationId = operationId ∧ r.status ∈ statuses := by
  dsimp only [advance] at h
  split at h
  · next hcount =>
      obtain rfl := Option.some.inj h
      refine ⟨rfl, ?_⟩
      obtain ⟨r, hr, hp⟩ := Table.count_pos (t := db.splits.toTable)
        (by rw [hcount]; exact Nat.one_pos)
      simp only [withId, Bool.and_eq_true, beq_iff_eq, List.contains_iff_mem] at hp
      exact ⟨r, hr, hp⟩
  · simp at h

theorem Db.markCompleted_eq_ok {operationId : String} {db db' : Db}
    (h : db.markSparkSplitCompleted operationId = .ok db') :
    db'.splits.rows = db.splits.rows.map (fun r =>
      if withId operationId r && [SplitStatus.submitted, .completed].contains r.status &&
        r.childNodeIds != [] then { r with status := .completed, lastError := none } else r) ∧
    ∃ r ∈ db.splits.rows, (withId operationId r &&
      [SplitStatus.submitted, .completed].contains r.status && r.childNodeIds != []) = true := by
  dsimp only [markSparkSplitCompleted] at h
  split at h
  · next hcount =>
      obtain rfl := Except.ok.inj h
      refine ⟨rfl, ?_⟩
      exact Table.count_pos (t := db.splits.toTable) (by rw [hcount]; exact Nat.one_pos)
  · simp at h

/-- A conditional update moves rows as it says. -/
theorem moved_if {q : Query} {rows : List SplitRow} {p : SplitRow → Bool}
    {f : SplitRow → SplitRow} (hsame : ∀ r : SplitRow, r.Same (f r))
    (hstep : ∀ r ∈ rows, p r = true → RowStep q r (f r)) :
    ∀ r ∈ rows, r.Same (if p r then f r else r) ∧ RowStep q r (if p r then f r else r) := by
  intro r hr
  by_cases hp : p r = true
  · rw [if_pos hp]
    exact ⟨hsame r, hstep r hr hp⟩
  · rw [if_neg hp]
    exact ⟨.refl r, .quiet rfl rfl rfl⟩

/-- A statement moves every row by a step, or inserts one. -/
theorem Query.rows_step {q : Query} {now : Nat} {db db' : Db} {out : q.Out}
    (h : q.run now db = .ok (out, db')) :
    (∃ f, db'.splits.rows = db.splits.rows.map f ∧
      ∀ r ∈ db.splits.rows, r.Same (f r) ∧ RowStep q r (f r)) ∨
    ∃ candidate, q = .getOrInsertSparkSplit candidate ∧
      db'.splits.rows = ⟨candidate, now⟩ :: db.splits.rows := by
  -- nothing has changed
  have hid : (∃ f, db.splits.rows = db.splits.rows.map f ∧
      ∀ r ∈ db.splits.rows, r.Same (f r) ∧ RowStep q r (f r)) :=
    ⟨id, (List.map_id _).symm, fun r _ => ⟨.refl r, .quiet rfl rfl rfl⟩⟩
  cases q with
  | getOrInsertSparkSplit candidate =>
      obtain ⟨row, hrow, h⟩ := bind_ok h
      obtain ⟨-, rfl⟩ := Prod.mk.inj (Except.ok.inj h)
      rcases hins : db.splits.insert ⟨candidate, now⟩ with - | splits
      · exact .inl hid
      · exact .inr ⟨candidate, rfl, SplitTable.mem_insert hins⟩
  | sparkSplitForParent parentNodeId =>
      obtain ⟨-, rfl⟩ := Prod.mk.inj (Except.ok.inj h)
      exact .inl hid
  | incompleteSparkSplits =>
      obtain ⟨-, rfl⟩ := Prod.mk.inj (Except.ok.inj h)
      exact .inl hid
  | savePreparedSparkSplit operationId plan =>
      obtain ⟨db₁, hsave, h⟩ := map_ok h
      obtain ⟨-, rfl⟩ := Prod.mk.inj h
      obtain ⟨hrows, -⟩ := Db.advance_eq_some (okOr_eq_ok.mp hsave)
      refine .inl ⟨_, hrows, moved_if (fun _ => ⟨rfl, rfl, rfl, rfl⟩) fun r _ hp => ?_⟩
      obtain ⟨rfl, hold⟩ := by simpa [Db.withId] using hp
      exact .prepared rfl hold rfl rfl
  | markSparkSplitSubmitting operationId =>
      obtain ⟨db₁, hmark, h⟩ := map_ok h
      obtain ⟨-, rfl⟩ := Prod.mk.inj h
      simp only [Db.markSparkSplitSubmitting] at hmark
      split at hmark
      · next db₂ hadv =>
          obtain rfl := Except.ok.inj hmark
          obtain ⟨hrows, -⟩ := Db.advance_eq_some hadv
          refine .inl ⟨_, hrows, moved_if (fun _ => ⟨rfl, rfl, rfl, rfl⟩) fun r _ hp => ?_⟩
          obtain ⟨rfl, hold⟩ := by simpa [Db.withId] using hp
          exact .submitting rfl hold rfl rfl rfl
      · split at hmark
        · simp at hmark
        · split at hmark
          · simp at hmark
          · obtain rfl := Except.ok.inj hmark
            exact .inl hid
  | saveSubmittedSparkSplit operationId submitted =>
      obtain ⟨db₁, hsave, h⟩ := map_ok h
      obtain ⟨-, rfl⟩ := Prod.mk.inj h
      obtain ⟨hrows, -⟩ := Db.advance_eq_some (okOr_eq_ok.mp hsave)
      refine .inl ⟨_, hrows, moved_if (fun _ => ⟨rfl, rfl, rfl, rfl⟩) fun r _ hp => ?_⟩
      obtain ⟨rfl, hold⟩ := by simpa [Db.withId] using hp
      exact .submitted rfl hold rfl rfl
  | recordSparkSplitError operationId error =>
      obtain ⟨-, rfl⟩ := Prod.mk.inj (Except.ok.inj h)
      exact .inl ⟨_, rfl, moved_if (fun _ => ⟨rfl, rfl, rfl, rfl⟩) fun _ _ _ => .quiet rfl rfl rfl⟩
  | markSparkSplitCompleted operationId =>
      obtain ⟨db₁, hmark, h⟩ := map_ok h
      obtain ⟨-, rfl⟩ := Prod.mk.inj h
      obtain ⟨hrows, -⟩ := Db.markCompleted_eq_ok hmark
      refine .inl ⟨_, hrows, moved_if (fun _ => ⟨rfl, rfl, rfl, rfl⟩) fun r _ hp => ?_⟩
      obtain ⟨⟨rfl, hold⟩, hbound⟩ := by simpa [Db.withId] using hp
      exact .completed rfl hold rfl rfl rfl hbound

/-- The stages the loop goes through; a plan that is prepared is ready to be submitted, be it
marked so or not. -/
def SplitStatus.stage : SplitStatus → Nat
  | draft => 0
  | prepared => 1
  | submitting => 1
  | submitted => 2
  | completed => 3

theorem SplitStatus.stage_le {a b : SplitStatus} (h : a.rank ≤ b.rank) : a.stage ≤ b.stage := by
  cases a <;> cases b <;> first | decide | simp [rank] at h

/-- The operation and the stage a statement saves. -/
def Query.saves : Query → Option (String × Nat)
  | savePreparedSparkSplit operationId _ => some (operationId, 1)
  | saveSubmittedSparkSplit operationId _ => some (operationId, 2)
  | markSparkSplitCompleted operationId => some (operationId, 3)
  | _ => none

/-- A row is changed by a map; the image of a row of the table. -/
theorem mem_map_if {rows : List SplitRow} {p : SplitRow → Bool} {f : SplitRow → SplitRow}
    {r : SplitRow} (hr : r ∈ rows) (hp : p r = true) :
    f r ∈ rows.map fun r => if p r then f r else r :=
  List.mem_map.mpr ⟨r, hr, by rw [if_pos hp]⟩

/-- What a statement saves is there afterwards. -/
theorem Query.saved {q : Query} {now : Nat} {db db' : Db} {out : q.Out} {operationId : String}
    {n : Nat} (hq : q.saves = some (operationId, n)) (h : q.run now db = .ok (out, db')) :
    ∃ r ∈ db'.splits.rows, r.operationId = operationId ∧ n ≤ r.status.stage := by
  cases q with
  | savePreparedSparkSplit id plan =>
      obtain ⟨rfl, rfl⟩ := Prod.mk.inj (Option.some.inj hq)
      obtain ⟨db₁, hsave, h⟩ := map_ok h
      obtain ⟨-, rfl⟩ := Prod.mk.inj h
      obtain ⟨hrows, r, hr, hid, hst⟩ := Db.advance_eq_some (okOr_eq_ok.mp hsave)
      rw [hrows]
      exact ⟨_, mem_map_if hr (by simpa [Db.withId, hid] using hst), hid, Nat.le_refl _⟩
  | saveSubmittedSparkSplit id submitted =>
      obtain ⟨rfl, rfl⟩ := Prod.mk.inj (Option.some.inj hq)
      obtain ⟨db₁, hsave, h⟩ := map_ok h
      obtain ⟨-, rfl⟩ := Prod.mk.inj h
      obtain ⟨hrows, r, hr, hid, hst⟩ := Db.advance_eq_some (okOr_eq_ok.mp hsave)
      rw [hrows]
      exact ⟨_, mem_map_if hr (by simpa [Db.withId, hid] using hst), hid, Nat.le_refl _⟩
  | markSparkSplitCompleted id =>
      obtain ⟨rfl, rfl⟩ := Prod.mk.inj (Option.some.inj hq)
      obtain ⟨db₁, hmark, h⟩ := map_ok h
      obtain ⟨-, rfl⟩ := Prod.mk.inj h
      obtain ⟨hrows, r, hr, hp⟩ := Db.markCompleted_eq_ok hmark
      rw [hrows]
      have hp' := hp
      simp only [Db.withId, Bool.and_eq_true, beq_iff_eq] at hp'
      exact ⟨_, mem_map_if hr hp, hp'.1.1, Nat.le_refl _⟩
  | _ => simp [saves] at hq

/-- An operation that is marked is submitting, or further on. -/
theorem Db.marked {operationId : String} {db db' : Db}
    (h : db.markSparkSplitSubmitting operationId = .ok db') :
    ∃ r ∈ db'.splits.rows, r.operationId = operationId ∧ 2 ≤ r.status.rank := by
  simp only [markSparkSplitSubmitting] at h
  split at h
  · next db₂ hadv =>
      obtain rfl := Except.ok.inj h
      obtain ⟨hrows, r, hr, hid, hst⟩ := advance_eq_some hadv
      rw [hrows]
      exact ⟨_, mem_map_if hr (by simpa [withId, hid] using hst), hid, Nat.le_refl _⟩
  · split at h
    · simp at h
    · next r hget =>
        split at h
        · simp at h
        · next hst =>
            obtain rfl := Except.ok.inj h
            refine ⟨r, Table.mem_of_get hget, Table.key_of_get (t := db.splits.toTable) hget, ?_⟩
            rcases hs : r.status <;> simp [hs, SplitStatus.rank] at hst ⊢

end OpenSsp.LeafSplit
