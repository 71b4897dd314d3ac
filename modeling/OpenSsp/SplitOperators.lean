/-
OpenSsp/SplitOperators.lean

A leaf split with operators that do what they are asked.

`Operators` answer every call of a split: the SDK's stage objects carry the split they were made
for, and finalizing one puts its children, under new ids, in the place of the parent.  The signer
stores the children's keys before the split is submitted and binds them when they have
their ids.  A wallet is idle when no split is in flight.

Main result: `executeLeafSplit_eval`.
-/
import OpenSsp.Lib.Eval
import OpenSsp.LeafSplit
import OpenSsp.SplitKeys

namespace OpenSsp.LeafSplit

open Interleave

/-- What a split is asked to do. -/
structure SplitIntent where
  operationId : String
  parent : TreeNode
  childValues : List Nat

/-- The operators and an SDK that does what it is asked. -/
structure Operators (S : Sdk) where
  draft : SplitIntent → S.Draft
  plan : S.Draft → TreeNode → S.Plan
  submitted : S.Plan → S.Submitted
  /-- The split that is planned, and the one that is submitted. -/
  planned : S.Draft → SplitIntent
  split : S.Submitted → SplitIntent
  /-- The keys that the signer makes for the children. -/
  encryptedKeys : SplitIntent → List (List UInt8)
  /-- The ids that the operators give to new leaves, in order. -/
  nodeId : Nat → String
  signingKeyshare : Nat → String
  planned_draft : ∀ i, planned (draft i) = i
  split_submitted : ∀ i, split (submitted (plan (draft i) i.parent)) = i
  keys_length : ∀ i, (encryptedKeys i).length = i.childValues.length
  keys_nonempty : ∀ i, [] ∉ encryptedKeys i
  draft_decodes : ∀ d, ∃ b, S.encodeDraft d = .ok b ∧ S.decodeDraft b = .ok d
  plan_decodes : ∀ p, ∃ b, S.encodePlan p = .ok b ∧ S.decodePlan b = .ok p
  submitted_decodes : ∀ s, ∃ b, S.encodeSubmitted s = .ok b ∧ S.decodeSubmitted b = .ok s

/-- The leaves of the wallet, how many leaves the operators have named, and the tables. -/
structure Wallet where
  leaves : List WalletLeaf
  issued : Nat
  now : Nat
  db : Db

variable {S : Sdk}

namespace Operators

/-- The leaves of these values, under the next ids. -/
def children (o : Operators S) (issued : Nat) (values : List Nat) : List WalletLeaf :=
  values.mapIdx fun i value =>
    { id := o.nodeId (issued + i), value, signingKeyshare := some (o.signingKeyshare (issued + i)) }

/-- The children take the place of their parent, and have their keys. -/
def finalize (o : Operators S) (i : SplitIntent) (w : Wallet) : List String × Wallet :=
  let children := o.children w.issued i.childValues
  let nodeIds := children.map (·.id)
  (nodeIds,
    { w with
      leaves := w.leaves.filter (·.id != i.parent.id) ++ children
      issued := w.issued + i.childValues.length
      db := (Statement.bindPendingSparkSplitKeys i.operationId nodeIds).step w.db })

/-- Every call succeeds. -/
def answer (o : Operators S) : Environment (Api S) Wallet
  | .lock _, w => ((), w)
  | .unlock _, w => ((), w)
  | .db q, w =>
      match q.run w.now w.db with
      | .ok (out, db) => (.ok out, { w with db })
      | .error e => (.error e, w)
  | .sync, w => (.ok (), w)
  | .listLeaves, w => (.ok { available := w.leaves, availableMissingFromOperators := [] }, w)
  | .draftSplit operationId parent childValues, w =>
      (.ok (o.draft { operationId, parent, childValues }), w)
  | .prepareSplit draft parent, w =>
      let i := o.planned draft
      let keys : PendingKeysRow :=
        { operationId := i.operationId, parentNodeId := i.parent.id,
          encryptedKeys := o.encryptedKeys i }
      (.ok (o.plan draft parent),
        { w with db := (Statement.putPendingSparkSplitKeys keys).step w.db })
  | .submitSplit _ plan, w => (.ok (o.submitted plan), w)
  | .finalizeSplit submitted, w =>
      let finalized := o.finalize (o.split submitted) w
      (.ok finalized.1, finalized.2)
  | .exhausted, w => ((), w)

end Operators

variable {o : Operators S} {w w' : Wallet} {now : Nat} {db db' : Db} {r : SplitRow}
  {rows : List SplitRow}

/-- The machine's world next to a wallet. -/
def Wallet.world (w : Wallet) (locks : Mutexes Lock) : World := ⟨w.db, locks, w.now⟩

/-- The signer has stored or bound its keys, or does nothing. -/
theorem step_outside (s : Statement) (w : Wallet) (locks : Mutexes Lock) (o' : Outside)
    (ho : outside o' (w.world locks) = (s.run w.db).toOption.map fun db => ⟨db, locks, w.now⟩) :
    (⟨s.step w.db, locks, w.now⟩ : World) = w.world locks ∨
      outside o' (w.world locks) = some ⟨s.step w.db, locks, w.now⟩ := by
  rw [ho]
  rcases hrun : s.run w.db with e | db
  · left
    rw [Statement.step, hrun]
    rfl
  · right
    rw [Statement.step_of_ok hrun]
    rfl

/-- Every answer is one that the machine can give, after at most one move of the signer. -/
theorem Operators.performed (o : Operators S) {c : Call S} (hlock : ∀ l, c ≠ .lock l)
    (hunlock : ∀ l, c ≠ .unlock l) (t : Nat) (w : Wallet) (locks : Mutexes Lock) :
    ∃ ch world, (world = w.world locks ∨ ∃ o', outside o' (w.world locks) = some world) ∧
      perform S t c ch world = some ((o.answer c w).1, (o.answer c w).2.world locks) := by
  cases c with
  | lock l => exact absurd rfl (hlock l)
  | unlock l => exact absurd rfl (hunlock l)
  | db q =>
      refine ⟨.done, w.world locks, .inl rfl, ?_⟩
      simp only [perform, answer, Wallet.world]
      rcases q.run w.now w.db with e | ⟨out, db⟩
      · rfl
      · rfl
  | sync => exact ⟨.done, _, .inl rfl, rfl⟩
  | listLeaves => exact ⟨.leaves _, _, .inl rfl, rfl⟩
  | draftSplit operationId parent childValues => exact ⟨.draft _, _, .inl rfl, rfl⟩
  | prepareSplit draft parent =>
      let keys : PendingKeysRow :=
        { operationId := (o.planned draft).operationId, parentNodeId := (o.planned draft).parent.id,
          encryptedKeys := o.encryptedKeys (o.planned draft) }
      let put : Outside :=
        .putPendingSplitKeys keys.operationId keys.parentNodeId keys.encryptedKeys
      have hput := step_outside (.putPendingSparkSplitKeys keys) w locks put rfl
      exact ⟨.plan _, _, hput.imp_right fun h => ⟨put, h⟩, rfl⟩
  | submitSplit operationId plan => exact ⟨.submitted _, _, .inl rfl, rfl⟩
  | finalizeSplit submitted =>
      let i := o.split submitted
      let nodeIds := (o.children w.issued i.childValues).map (·.id)
      let bind : Outside := .bindPendingSplitKeys i.operationId nodeIds
      have hbind := step_outside (.bindPendingSparkSplitKeys i.operationId nodeIds) w locks bind rfl
      exact ⟨.children _, _, hbind.imp_right fun h => ⟨bind, h⟩, rfl⟩
  | exhausted => exact ⟨.done, _, .inl rfl, rfl⟩

/-! ### Statements on the newest operation -/

/-- The other rows have other ids and parents. -/
theorem head_unique {t : SplitTable} (h : t.rows = r :: rows) {r' : SplitRow} (hr' : r' ∈ rows) :
    r'.operationId ≠ r.operationId ∧ r'.parentNodeId ≠ r.parentNodeId := by
  have hids := t.nodup
  have hparents := t.parents
  rw [h, List.map_cons, List.nodup_cons] at hids hparents
  constructor
  · intro he
    exact hids.1 (List.mem_map.mpr ⟨r', hr', he⟩)
  · intro he
    exact hparents.1 (List.mem_map.mpr ⟨r', hr', he⟩)

/-- An update of one operation, when it is the newest one. -/
theorem map_head {t : SplitTable} (h : t.rows = r :: rows) (p : SplitRow → Bool)
    (f : SplitRow → SplitRow) :
    t.rows.map (fun x => if Db.withId r.operationId x && p x then f x else x) =
      (if p r then f r else r) :: rows := by
  have hrest : rows.map (fun x => if Db.withId r.operationId x && p x then f x else x) = rows := by
    apply (List.map_congr_left fun x hx => ?_).trans (List.map_id' rows)
    have hid : Db.withId r.operationId x = false := by
      simpa [Db.withId] using (head_unique h hx).1
    rw [hid, Bool.false_and, if_neg Bool.false_ne_true]
  rw [h, List.map_cons, hrest]
  simp [Db.withId]

theorem count_head {t : SplitTable} (h : t.rows = r :: rows) {p : SplitRow → Bool}
    (hp : p r = true) :
    t.toTable.count (fun x => Db.withId r.operationId x && p x) = 1 := by
  have hrest : rows.countP (fun x => Db.withId r.operationId x && p x) = 0 := by
    apply List.countP_eq_zero.mpr
    intro x hx
    simp [Db.withId, (head_unique h hx).1]
  rw [Table.count, h, List.countP_cons, hrest]
  simp [Db.withId, hp]

theorem forParent_head {t : SplitTable} (h : t.rows = r :: rows) :
    t.forParent r.parentNodeId = some r := by
  rw [SplitTable.forParent, h, List.find?_cons_of_pos]
  simp

theorem get_head {t : SplitTable} (h : t.rows = r :: rows) : t.get r.operationId = some r := by
  rw [Table.get, h, List.find?_cons_of_pos]
  simp

/-- An operation that has one of these statuses is advanced. -/
theorem advance_head (h : db.splits.rows = r :: rows) {statuses : List SplitStatus}
    (hstatus : r.status ∈ statuses) (f : SplitRow → SplitRow)
    {hid : ∀ r, (f r).operationId = r.operationId}
    {hparent : ∀ r, (f r).parentNodeId = r.parentNodeId} :
    ∃ db', db.advance r.operationId statuses f hid hparent = some db' ∧
      db'.splits.rows = f r :: rows ∧ db'.pendingKeys = db.pendingKeys := by
  have hcontains : statuses.contains r.status = true := List.contains_iff_mem.mpr hstatus
  have hcount := count_head (p := fun x => statuses.contains x.status) h hcontains
  refine ⟨_, if_pos hcount, ?_, rfl⟩
  apply (map_head h (fun x => statuses.contains x.status) f).trans
  rw [if_pos hcontains]

theorem markCompleted_head (h : db.splits.rows = r :: rows) (hstatus : r.status = .submitted)
    (hbound : r.childNodeIds ≠ []) :
    ∃ db', db.markSparkSplitCompleted r.operationId = .ok db' ∧
      db'.splits.rows = { r with status := .completed, lastError := none } :: rows ∧
      db'.pendingKeys = db.pendingKeys := by
  let p (x : SplitRow) : Bool :=
    [SplitStatus.submitted, .completed].contains x.status && x.childNodeIds != []
  have hp : p r = true := by simp [p, hstatus, hbound]
  have hassoc : ∀ x : SplitRow, (Db.withId r.operationId x &&
      [SplitStatus.submitted, .completed].contains x.status && x.childNodeIds != []) =
        (Db.withId r.operationId x && p x) := fun x => Bool.and_assoc ..
  have hcount := count_head h hp
  refine ⟨_, if_pos (by simpa only [hassoc] using hcount), ?_, rfl⟩
  show db.splits.rows.map _ = _
  simp only [hassoc]
  rw [map_head h p fun r => { r with status := .completed, lastError := none }, if_pos hp]

theorem putPending_empty (h : db.pendingKeys.rows = []) (keys : PendingKeysRow)
    (hne : keys.encryptedKeys ≠ []) (hkeys : [] ∉ keys.encryptedKeys) :
    ((Statement.putPendingSparkSplitKeys keys).step db).splits = db.splits ∧
      ((Statement.putPendingSparkSplitKeys keys).step db).pendingKeys.rows = [keys] := by
  rcases hins : db.pendingKeys.insert keys with - | inserted
  · obtain ⟨keys', hget⟩ := Table.insert_eq_none hins
    have hmem := Table.mem_of_get hget
    rw [h] at hmem
    cases hmem
  · have hrun : (Statement.putPendingSparkSplitKeys keys).run db =
        .ok { db with pendingKeys := inserted } := by
      show db.putPendingSparkSplitKeys keys.operationId keys.parentNodeId keys.encryptedKeys = _
      rw [Db.putPendingSparkSplitKeys, if_neg (by simp [hne, hkeys])]
      simp only [hins, Option.getD_some]
      rw [Table.get_insert hins, if_pos rfl, if_pos rfl]
    rw [Statement.step_of_ok hrun]
    refine ⟨rfl, ?_⟩
    show inserted.rows = [keys]
    rw [(Table.insert_eq_some hins).2, h]

/-! ### One split -/

/-- The keys of a split, as they are pending. -/
def Operators.pending (o : Operators S) (i : SplitIntent) : PendingKeysRow where
  operationId := i.operationId
  parentNodeId := i.parent.id
  encryptedKeys := o.encryptedKeys i

/-- A split that began in `w₀` has got to the checkpoint `r`. -/
structure Checkpoint (o : Operators S) (w₀ : Wallet) (i : SplitIntent) (r : SplitRow)
    (w : Wallet) : Prop where
  rows : w.db.splits.rows = r :: w₀.db.splits.rows
  operationId : r.operationId = i.operationId
  parentNodeId : r.parentNodeId = i.parent.id
  childValuesSats : r.childValuesSats = i.childValues
  stage : match r.status with
    | .draft => S.decodeDraft r.plan = .ok (o.draft i) ∧ w.db.pendingKeys.rows = [] ∧
        w.leaves = w₀.leaves ∧ w.issued = w₀.issued
    | .prepared => S.decodePlan r.plan = .ok (o.plan (o.draft i) i.parent) ∧
        w.db.pendingKeys.rows = [o.pending i] ∧ w.leaves = w₀.leaves ∧ w.issued = w₀.issued
    | .submitting => False
    | .submitted =>
        S.decodeSubmitted r.plan = .ok (o.submitted (o.plan (o.draft i) i.parent)) ∧
        w.db.pendingKeys.rows = [o.pending i] ∧ w.leaves = w₀.leaves ∧ w.issued = w₀.issued
    | .completed => w.db.pendingKeys.rows = [] ∧
        w.leaves = w₀.leaves.filter (·.id != i.parent.id) ++ o.children w₀.issued i.childValues ∧
        w.issued = w₀.issued + i.childValues.length

theorem eval_db {q : Query} {out : q.Out} (h : q.run w.now w.db = .ok (out, db')) :
    Act.eval o.answer (LeafSplit.db (S := S) q) w = (.ok out, { w with db := db' }) := by
  show ((o.answer (.db q) w).1, (o.answer (.db q) w).2) = _
  simp only [Operators.answer, h]

theorem eval_sync : Act.eval o.answer (sync : Ssp S Unit) w = (.ok (), w) := rfl

theorem eval_listLeaves : Act.eval o.answer (listLeaves : Ssp S WalletLeaves) w =
    (.ok { available := w.leaves, availableMissingFromOperators := [] }, w) := rfl

theorem eval_submitSplit (operationId : String) (plan : S.Plan) :
    Act.eval o.answer (submitSplit operationId plan) w = (.ok (o.submitted plan), w) := rfl

theorem eval_finalizeSplit (submitted : S.Submitted) :
    Act.eval o.answer (finalizeSplit submitted) w =
      (.ok (o.finalize (o.split submitted) w).1, (o.finalize (o.split submitted) w).2) := rfl

variable {i : SplitIntent} {w₀ : Wallet}

theorem children_ids (issued : Nat) (values : List Nat) :
    (o.children issued values).map (·.id) =
      (List.range values.length).map fun k => o.nodeId (issued + k) := by
  apply List.ext_getElem
  · simp [Operators.children]
  · simp [Operators.children]

/-- Finalizing a split that has been submitted binds the keys of the children. -/
theorem Checkpoint.finalize (h : Checkpoint o w₀ i r w) (hstatus : r.status = .submitted)
    (hvalues : i.childValues ≠ [])
    (hnamed : "" ∉ (o.children w₀.issued i.childValues).map (·.id)) :
    (o.finalize i w).1 = (o.children w₀.issued i.childValues).map (·.id) ∧
      (o.finalize i w).2.db.splits.rows =
        { r with childNodeIds := (o.children w₀.issued i.childValues).map (·.id),
                 lastError := none } :: w₀.db.splits.rows ∧
      (o.finalize i w).2.db.pendingKeys.rows = [] ∧
      (o.finalize i w).2.leaves =
        w₀.leaves.filter (·.id != i.parent.id) ++ o.children w₀.issued i.childValues ∧
      (o.finalize i w).2.issued = w₀.issued + i.childValues.length := by
  have hstage := h.stage
  rw [hstatus] at hstage
  obtain ⟨-, hkeys, hleaves, hissued⟩ := hstage
  -- the keys that wait are the ones this split has stored
  have hpending : w.db.pendingKeys.get r.operationId = some (o.pending i) := by
    rw [h.operationId, show i.operationId = (o.pending i).operationId from rfl,
      ← Table.mem_iff_get, hkeys]
    exact List.mem_singleton_self _
  have hlen : ((o.children w₀.issued i.childValues).map (·.id)).length = i.childValues.length := by
    simp [Operators.children]
  -- so the operators' answer has one leaf for each key, and the keys are bound
  have hadmits : Admits w.db r.operationId ((o.children w₀.issued i.childValues).map (·.id)) := by
    refine ⟨?_, hnamed, r, get_head h.rows, h.childValuesSats ▸ hlen.symm, ?_⟩
    · simpa [Operators.children] using hvalues
    · rw [hpending, hlen]
      exact o.keys_length i
  have hok := bindPendingSparkSplitKeys_ok.mpr ⟨hadmits, rfl⟩
  rw [hpending] at hok
  have hstep := Statement.step_of_ok
    (s := .bindPendingSparkSplitKeys r.operationId _) hok
  -- what completes the operation is the statement that binds the keys
  have hfinalize : (o.finalize i w).2.db = w.db.bound r.operationId
      ((o.children w₀.issued i.childValues).map (·.id)) (o.encryptedKeys i) := by
    rw [← hissued, h.operationId] at hstep
    rw [← hissued, h.operationId]
    exact hstep
  refine ⟨?_, ?_, ?_, ?_, ?_⟩
  · show (o.children w.issued i.childValues).map (·.id) = _
    rw [hissued]
  · rw [hfinalize]
    have hhead := map_head h.rows (fun _ => true) fun r =>
      { r with childNodeIds := (o.children w₀.issued i.childValues).map (·.id), lastError := none }
    simp only [Bool.and_true] at hhead
    exact hhead
  · rw [hfinalize]
    show w.db.pendingKeys.rows.filter _ = []
    rw [hkeys]
    simp [Operators.pending, h.operationId]
  · show w.leaves.filter _ ++ o.children w.issued i.childValues = _
    rw [hissued, hleaves]
  · show w.issued + _ = _
    rw [hissued]

/-- A drafted split is prepared. -/
theorem Checkpoint.prepare (h : Checkpoint o w₀ i r w) (hstatus : r.status = .draft)
    (hvalues : i.childValues ≠ []) :
    ∃ r' w', Act.eval o.answer (resumeRound S r.toSparkSplitOperation (some i.parent)) w =
        (.ok false, w') ∧ Checkpoint o w₀ i r' w' ∧ r'.status = .prepared := by
  have hstage := h.stage
  rw [hstatus] at hstage
  obtain ⟨hdecode, hkeys, hleaves, hissued⟩ := hstage
  obtain ⟨encoded, hencode, hagain⟩ := o.plan_decodes (o.plan (o.draft i) i.parent)
  -- as many keys as values, so there are some to wait
  have hne : o.encryptedKeys i ≠ [] := by
    intro he
    have hlen := o.keys_length i
    rw [he] at hlen
    exact hvalues (List.eq_nil_of_length_eq_zero hlen.symm)
  obtain ⟨hsplits, hpending⟩ := putPending_empty hkeys (o.pending i) hne (o.keys_nonempty i)
  -- the row is still the draft, so the statement finds it
  obtain ⟨db', hsave, hrows', hkeys'⟩ := advance_head (hsplits ▸ h.rows)
    (show r.status ∈ [SplitStatus.draft, .prepared] by simp [hstatus])
    fun r => { r with plan := encoded, status := .prepared, lastError := none }
  -- the keys are stored before the plan is
  have hprepare : Act.eval o.answer (prepareSplit (o.draft i) i.parent) w =
      (.ok (o.plan (o.draft i) i.parent),
        { w with db := (Statement.putPendingSparkSplitKeys (o.pending i)).step w.db }) := by
    show ((o.answer (.prepareSplit (o.draft i) i.parent) w).1, _) = _
    simp only [Operators.answer, o.planned_draft]
    rfl
  have hrun : (Query.savePreparedSparkSplit r.operationId encoded).run w.now
      ((Statement.putPendingSparkSplitKeys (o.pending i)).step w.db) = .ok ((), db') := by
    show (Db.savePreparedSparkSplit ..).map _ = _
    rw [Db.savePreparedSparkSplit, hsave]
    rfl
  refine ⟨_, { w with db := db' }, ?_, ⟨hrows', h.operationId, h.parentNodeId, h.childValuesSats,
    hagain, hkeys' ▸ hpending, hleaves, hissued⟩, rfl⟩
  rw [resumeRound]
  simp only [hstatus, hdecode, okOr]
  rw [Act.eval_bind_ok (Act.eval_ofExcept _), Act.eval_bind_ok (Act.eval_ofExcept _),
    Act.eval_bind_ok hprepare, hencode, Act.eval_bind_ok (Act.eval_ofExcept _),
    Act.eval_bind_ok (eval_db hrun)]
  rfl

/-- A prepared split is submitted. -/
theorem Checkpoint.submit (h : Checkpoint o w₀ i r w) (hstatus : r.status = .prepared) :
    ∃ r' w', Act.eval o.answer (resumeRound S r.toSparkSplitOperation (some i.parent)) w =
        (.ok false, w') ∧ Checkpoint o w₀ i r' w' ∧ r'.status = .submitted := by
  have hstage := h.stage
  rw [hstatus] at hstage
  obtain ⟨hdecode, hkeys, hleaves, hissued⟩ := hstage
  obtain ⟨encoded, hencode, hagain⟩ :=
    o.submitted_decodes (o.submitted (o.plan (o.draft i) i.parent))
  obtain ⟨db₁, hmark, hrows₁, hkeys₁⟩ := advance_head h.rows
    (show r.status ∈ [SplitStatus.prepared] by simp [hstatus])
    fun r => { r with status := .submitting, lastError := none }
  obtain ⟨db₂, hsave, hrows₂, hkeys₂⟩ := advance_head hrows₁
    (show SplitStatus.submitting ∈ [SplitStatus.submitting, .submitted] by simp)
    fun r => { r with plan := encoded, status := .submitted, lastError := none }
  have hrun₁ : (Query.markSparkSplitSubmitting r.operationId).run w.now w.db = .ok ((), db₁) := by
    show (Db.markSparkSplitSubmitting ..).map _ = _
    rw [Db.markSparkSplitSubmitting, hmark]
    rfl
  have hrun₂ : (Query.saveSubmittedSparkSplit r.operationId encoded).run w.now db₁ =
      .ok ((), db₂) := by
    show (Db.saveSubmittedSparkSplit ..).map _ = _
    rw [Db.saveSubmittedSparkSplit, hsave]
    rfl
  refine ⟨_, { w with db := db₂ }, ?_, ⟨hrows₂, h.operationId, h.parentNodeId, h.childValuesSats,
    hagain, (hkeys₂.trans hkeys₁) ▸ hkeys, hleaves, hissued⟩, rfl⟩
  rw [resumeRound]
  simp only [hstatus, hdecode]
  rw [Act.eval_bind_ok (Act.eval_ofExcept _), Act.eval_bind_ok (eval_db hrun₁),
    Act.eval_bind_ok (eval_submitSplit _ _), hencode, Act.eval_bind_ok (Act.eval_ofExcept _),
    Act.eval_bind_ok (eval_db hrun₂)]
  rfl

/-- A submitted split is completed. -/
theorem Checkpoint.complete (h : Checkpoint o w₀ i r w) (hstatus : r.status = .submitted)
    (hvalues : i.childValues ≠ [])
    (hnamed : "" ∉ (o.children w₀.issued i.childValues).map (·.id)) :
    ∃ r' w', Act.eval o.answer (resumeRound S r.toSparkSplitOperation (some i.parent)) w =
        (.ok false, w') ∧ Checkpoint o w₀ i r' w' ∧ r'.status = .completed := by
  obtain ⟨hids, hrows, hkeys, hleaves, hissued⟩ := h.finalize hstatus hvalues hnamed
  have hstage := h.stage
  rw [hstatus] at hstage
  obtain ⟨hdecode, -, -, -⟩ := hstage
  have hlen : (o.finalize i w).1.length = r.childValuesSats.length := by
    rw [hids, h.childValuesSats]
    simp [Operators.children]
  have hbound : (o.children w₀.issued i.childValues).map (·.id) ≠ [] := by
    simpa [Operators.children] using hvalues
  obtain ⟨db', hmark, hrows', hkeys'⟩ := markCompleted_head hrows hstatus hbound
  have hrun : (Query.markSparkSplitCompleted r.operationId).run (o.finalize i w).2.now
      (o.finalize i w).2.db = .ok ((), db') := by
    show (Db.markSparkSplitCompleted ..).map _ = _
    rw [hmark]
    rfl
  refine ⟨_, { (o.finalize i w).2 with db := db' }, ?_, ⟨hrows', h.operationId, h.parentNodeId,
    h.childValuesSats, hkeys' ▸ hkeys, hleaves, hissued⟩, rfl⟩
  rw [resumeRound]
  simp only [hstatus, hdecode]
  rw [Act.eval_bind_ok (Act.eval_ofExcept _), Act.eval_bind_ok (eval_finalizeSplit _),
    o.split_submitted, if_neg (by simp [hlen]), Act.eval_bind_ok (eval_db hrun)]
  rfl

/-- A round of the resume loop takes a split to a later checkpoint. -/
theorem Checkpoint.round (h : Checkpoint o w₀ i r w) (hopen : r.status ≠ .completed)
    (hvalues : i.childValues ≠ [])
    (hnamed : "" ∉ (o.children w₀.issued i.childValues).map (·.id)) :
    ∃ r' w', Act.eval o.answer (resumeRound S r.toSparkSplitOperation (some i.parent)) w =
        (.ok false, w') ∧ Checkpoint o w₀ i r' w' ∧ r.status.stage < r'.status.stage := by
  have hstage := h.stage
  rcases hstatus : r.status <;> rw [hstatus] at hstage hopen
  · obtain ⟨r', w', heval, h', hr'⟩ := h.prepare hstatus hvalues
    exact ⟨r', w', heval, h', by rw [hr']; decide⟩
  · obtain ⟨r', w', heval, h', hr'⟩ := h.submit hstatus
    exact ⟨r', w', heval, h', by rw [hr']; decide⟩
  · exact hstage.elim
  · obtain ⟨r', w', heval, h', hr'⟩ := h.complete hstatus hvalues hnamed
    exact ⟨r', w', heval, h', by rw [hr']; decide⟩
  · exact absurd rfl hopen

/-- The resume loop completes a split. -/
theorem Checkpoint.resume (hvalues : i.childValues ≠ [])
    (hnamed : "" ∉ (o.children w₀.issued i.childValues).map (·.id)) {rounds : Nat} :
    ∀ {r : SplitRow} {w : Wallet}, Checkpoint o w₀ i r w →
      SplitStatus.completed.stage < r.status.stage + rounds →
      ∃ r' w', Act.eval o.answer (resumeLoop S (some i.parent) rounds r.toSparkSplitOperation) w =
        (.ok (), w') ∧ Checkpoint o w₀ i r' w' ∧ r'.status = .completed := by
  induction rounds with
  | zero =>
      intro r w h hlt
      exact absurd (SplitStatus.stage_le (a := r.status) (b := .completed)
        (by cases r.status <;> decide)) (Nat.not_le.mpr hlt)
  | succ rounds ih =>
      intro r w h hlt
      rw [resumeLoop]
      -- a round that finds the split completed is the last one
      by_cases hdone : r.status = .completed
      · refine ⟨r, w, ?_, h, hdone⟩
        have hround : Act.eval o.answer
            (resumeRound S r.toSparkSplitOperation (some i.parent)) w = (.ok true, w) := by
          rw [resumeRound]
          simp only [hdone]
          rfl
        rw [Act.eval_bind_ok hround]
        rfl
      · obtain ⟨r', w', hround, h', hstage⟩ := h.round hdone hvalues hnamed
        obtain ⟨r'', w'', heval, h'', hdone''⟩ := ih h' (by omega)
        refine ⟨r'', w'', ?_, h'', hdone''⟩
        -- the loop reads the row again, and finds the one the round has written
        have hfind : (Query.sparkSplitForParent r.parentNodeId).run w'.now w'.db =
            .ok (some r'.toSparkSplitOperation, w'.db) := by
          show Except.ok (Option.map _ (w'.db.splits.forParent r.parentNodeId), w'.db) = _
          rw [h.parentNodeId, ← h'.parentNodeId, forParent_head h'.rows]
          rfl
        rw [Act.eval_bind_ok hround, if_neg Bool.false_ne_true, Act.eval_bind_ok (eval_db hfind),
          okOr, Act.eval_bind_ok (Act.eval_ofExcept _)]
        exact heval

/-! ### Idle wallets -/

/-- The leaves that are there, and the next ones to be named. -/
def Wallet.ids (o : Operators S) (w : Wallet) (n : Nat) : List String :=
  w.leaves.map (·.id) ++ (List.range n).map fun k => o.nodeId (w.issued + k)

/-- No split is in flight, and the next `n` leaves have ids of their own. -/
structure Wallet.Idle (o : Operators S) (w : Wallet) (n : Nat) : Prop where
  completed : ∀ r ∈ w.db.splits.rows, r.status = .completed
  noKeys : w.db.pendingKeys.rows = []
  keyshares : ∀ leaf ∈ w.leaves, leaf.signingKeyshare ≠ none
  named : "" ∉ w.ids o n
  distinct : ((w.ids o n).map splitOperationId).Nodup
  fresh : ∀ id ∈ w.ids o n, ∀ r ∈ w.db.splits.rows,
    r.parentNodeId ≠ id ∧ r.operationId ≠ splitOperationId id

variable {parent : TreeNode} {childValues : List Nat} {n : Nat}

/-- The wallet after a split. -/
structure SplitInto (o : Operators S) (parent : TreeNode) (childValues : List Nat)
    (w w' : Wallet) : Prop where
  leaves : w'.leaves = w.leaves.filter (·.id != parent.id) ++ o.children w.issued childValues
  issued : w'.issued = w.issued + childValues.length

/-- The ids that are left after a split. -/
theorem SplitInto.ids (h : SplitInto o parent childValues w w') :
    w'.ids o n = (w.leaves.filter (·.id != parent.id)).map (·.id) ++
      (List.range (childValues.length + n)).map fun k => o.nodeId (w.issued + k) := by
  rw [Wallet.ids, h.leaves, h.issued, List.map_append, children_ids, List.append_assoc,
    List.range_add, List.map_append, List.map_map]
  congr 2
  apply List.map_congr_left
  intro k _
  show o.nodeId (w.issued + childValues.length + k) = o.nodeId (w.issued + (childValues.length + k))
  rw [Nat.add_assoc]

theorem SplitInto.idle (h : SplitInto o parent childValues w w')
    (hidle : w.Idle o (childValues.length + n)) (hparent : parent.id ∈ w.leaves.map (·.id))
    (hrows : w'.db.splits.rows = r :: w.db.splits.rows) (hr : r.status = .completed)
    (hid : r.operationId = splitOperationId parent.id) (hpid : r.parentNodeId = parent.id)
    (hkeys : w'.db.pendingKeys.rows = []) : w'.Idle o n := by
  have hsub : (w'.ids o n).Sublist (w.ids o (childValues.length + n)) := by
    rw [h.ids]
    exact (List.filter_sublist.map _).append (List.Sublist.refl _)
  have hmem : parent.id ∈ w.ids o (childValues.length + n) := List.mem_append_left _ hparent
  -- the parent has gone
  have hgone : parent.id ∉ w'.ids o n := by
    rw [h.ids, List.mem_append]
    rintro (hleaf | hname)
    · obtain ⟨leaf, hleaf, he⟩ := List.mem_map.mp hleaf
      simpa [he] using (List.mem_filter.mp hleaf).2
    · have hnodup := (List.Nodup.of_map _ hidle.distinct)
      exact (List.nodup_append.mp hnodup).2.2 _ hparent _ hname rfl
  refine ⟨?_, hkeys, ?_, fun hempty => hidle.named (hsub.subset hempty),
    hidle.distinct.sublist (hsub.map _), ?_⟩
  · rw [hrows]
    rintro x (- | ⟨-, hx⟩)
    · exact hr
    · exact hidle.completed x hx
  · rw [h.leaves]
    intro leaf hleaf
    rcases List.mem_append.mp hleaf with hold | hnew
    · exact hidle.keyshares leaf (List.mem_filter.mp hold).1
    · obtain ⟨k, hk, rfl⟩ := List.mem_mapIdx.mp hnew
      simp
  · rw [hrows]
    rintro id hmem' x (- | ⟨-, hx⟩)
    · have hne : id ≠ parent.id := fun he => hgone (he ▸ hmem')
      refine ⟨hpid ▸ hne.symm, fun he => hne ?_⟩
      rw [hid] at he
      exact List.inj_on_of_nodup_map hidle.distinct (hsub.subset hmem') hmem he.symm
    · exact hidle.fresh id (hsub.subset hmem') x hx

/-- A leaf that is not being split is drafted. -/
theorem findOrDraft_eval (childValues : List Nat) (hidle : w.Idle o n)
    (hparent : parent.id ∈ w.leaves.map (·.id)) :
    ∃ r w', Act.eval o.answer (findOrDraft S parent childValues) w =
        (.ok r.toSparkSplitOperation, w') ∧
      Checkpoint o w ⟨splitOperationId parent.id, parent, childValues⟩ r w' ∧
      r.status = .draft ∧ r.parentValueSats = parent.value := by
  have hmem : parent.id ∈ w.ids o n := List.mem_append_left _ hparent
  let i : SplitIntent := ⟨splitOperationId parent.id, parent, childValues⟩
  obtain ⟨encoded, hencode, hdecode⟩ := o.draft_decodes (o.draft i)
  let candidate : SparkSplitOperation :=
    { operationId := splitOperationId parent.id, parentNodeId := parent.id,
      parentValueSats := parent.value, childValuesSats := childValues, plan := encoded,
      status := .draft, childNodeIds := [], lastError := none }
  have hnone : w.db.splits.forParent parent.id = none := by
    apply List.find?_eq_none.mpr
    intro r hr
    simpa using (hidle.fresh _ hmem r hr).1
  have hfind : (Query.sparkSplitForParent parent.id).run w.now w.db = .ok (none, w.db) := by
    show Except.ok (Option.map _ (w.db.splits.forParent parent.id), w.db) = _
    rw [hnone]
    rfl
  -- neither the id nor the parent is taken
  obtain ⟨splits, hinsert⟩ : ∃ splits, w.db.splits.insert ⟨candidate, w.now⟩ = some splits := by
    refine ⟨_, dif_neg ?_⟩
    rintro (hid | hpid)
    · obtain ⟨r, hr, he⟩ := List.mem_map.mp hid
      exact (hidle.fresh _ hmem r hr).2 he
    · obtain ⟨r, hr, he⟩ := List.mem_map.mp hpid
      exact (hidle.fresh _ hmem r hr).1 he
  have hrows : splits.rows = ⟨candidate, w.now⟩ :: w.db.splits.rows := SplitTable.mem_insert hinsert
  have hrun : (Query.getOrInsertSparkSplit candidate).run w.now w.db =
      .ok (candidate, { w.db with splits }) := by
    show w.db.getOrInsertSparkSplit candidate w.now = _
    rw [Db.getOrInsertSparkSplit, hinsert, Option.getD_some, forParent_head hrows]
    rfl
  have hdraft : Act.eval o.answer (draftSplit (splitOperationId parent.id) parent childValues) w =
      (.ok (o.draft i), w) := rfl
  refine ⟨⟨candidate, w.now⟩, { w with db := { w.db with splits } }, ?_,
    ⟨hrows, rfl, rfl, rfl, hdecode, hidle.noKeys, rfl, rfl⟩, rfl, rfl⟩
  rw [findOrDraft]
  simp only
  rw [Act.eval_bind_ok (eval_db hfind)]
  simp only
  rw [Act.eval_bind_ok hdraft, hencode, Act.eval_bind_ok (Act.eval_ofExcept _)]
  exact eval_db hrun

/-- A leaf of an idle wallet is split as asked, and the wallet is idle again. -/
theorem executeLeafSplit_eval {rounds : Nat} (hservice : S.splitService = true)
    (hrounds : 4 ≤ rounds) (hvalues : childValues ≠ [])
    (hidle : w.Idle o (childValues.length + n)) (hparent : parent.id ∈ w.leaves.map (·.id)) :
    ∃ w', Act.eval o.answer (executeLeafSplit S rounds parent childValues) w = (.ok (), w') ∧
      SplitInto o parent childValues w w' ∧ w'.Idle o n := by
  have hnamed : "" ∉ (o.children w.issued childValues).map (·.id) := by
    intro hempty
    apply hidle.named
    rw [children_ids] at hempty
    obtain ⟨k, hk, he⟩ := List.mem_map.mp hempty
    rw [List.mem_range] at hk
    exact List.mem_append_right _ (List.mem_map.mpr ⟨k, List.mem_range.mpr (by omega), he⟩)
  obtain ⟨r, w₁, hfind, hdraft, hstatus, hvalue⟩ :=
    findOrDraft_eval childValues hidle hparent
  have hstage : SplitStatus.completed.stage < r.status.stage + rounds := by
    rw [hstatus]
    show 3 < 0 + rounds
    omega
  obtain ⟨r', w', hresume, hdone, hcompleted⟩ := hdraft.resume hvalues hnamed hstage
  have hfinal := hdone.stage
  rw [hcompleted] at hfinal
  obtain ⟨hkeys, hleaves, hissued⟩ := hfinal
  have hsplit : SplitInto o parent childValues w w' := ⟨hleaves, hissued⟩
  refine ⟨w', ?_, hsplit, hsplit.idle hidle hparent hdone.rows hcompleted hdone.operationId
    hdone.parentNodeId hkeys⟩
  have hattempt : Act.eval o.answer
      (Act.attempt (resumeLoop S (some parent) rounds r.toSparkSplitOperation)) w₁ =
        (.ok (.ok ()), w') := by
    rw [Act.eval_attempt, hresume]
  rw [executeLeafSplit, if_neg (by simp [hservice]), Act.eval_bind_ok hfind, if_neg ?_,
    resumeLeafSplit, if_neg (by simp [hservice]), Act.eval_bind_ok hattempt]
  · rfl
  · simp [hdraft.parentNodeId, hdraft.childValuesSats, hvalue]

end OpenSsp.LeafSplit
