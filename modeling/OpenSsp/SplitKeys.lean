/-
OpenSsp/SplitKeys.lean

The private keys of split children (`db.rs`): pending under the operation that made them, and
moved to the leaves once these have ids.

* Binding loses no key exactly when each id has no key yet, or already the one it gets
  (`bindPendingSparkSplitKeys_safe`).
* An operation's keys are written once as long as its pending keys are there; once they are bound
  nothing remembers them, and other ones are accepted (`pending_keys_write_once`).
-/
import OpenSsp.SplitDb

namespace OpenSsp.LeafSplit

open Interleave

variable {db db' : Db} {operationId : String} {nodeIds : List String}

/-! ### Moving keys to leaves -/

/-- One key becomes the key of a leaf. -/
def bindKey (operationId : String) (overrides : Table KeyOverrideRow.nodeId)
    (key : String × List UInt8) : Table KeyOverrideRow.nodeId :=
  overrides.upsert ⟨key.1, operationId, key.2⟩
    (fun r => { r with operationId, keyMaterial := key.2 }) (Table.same_key KeyOverrideRow.nodeId)

theorem get_bindKey {overrides : Table KeyOverrideRow.nodeId} {key : String × List UInt8}
    {nodeId : String} : (bindKey operationId overrides key).get nodeId =
      if key.1 = nodeId then some ⟨nodeId, operationId, key.2⟩ else overrides.get nodeId := by
  rw [bindKey, Table.get_upsert]
  by_cases hid : key.1 = nodeId
  · rw [if_pos hid, if_pos hid]
    rcases hget : overrides.get nodeId with - | row
    · rw [← hid]
      rfl
    · show some (KeyOverrideRow.mk row.nodeId operationId key.2) = _
      rw [Table.key_of_get hget]
  · rw [if_neg hid, if_neg hid]

/-- A leaf has the key of one of its entries, or the one it had before. -/
theorem get_foldl_bindKey (operationId : String) (keys : List (String × List UInt8))
    (nodeId : String) :
    ∀ overrides : Table KeyOverrideRow.nodeId,
      (∃ key ∈ keys, key.1 = nodeId ∧ (keys.foldl (bindKey operationId) overrides).get nodeId =
        some ⟨nodeId, operationId, key.2⟩) ∨
      (∀ key ∈ keys, key.1 ≠ nodeId) ∧
        (keys.foldl (bindKey operationId) overrides).get nodeId = overrides.get nodeId := by
  induction keys with
  | nil => exact fun overrides => .inr ⟨by simp, rfl⟩
  | cons key keys ih =>
      intro overrides
      rw [List.foldl_cons]
      rcases ih (bindKey operationId overrides key) with ⟨k, hk, hid, hget⟩ | ⟨hnone, hget⟩
      · exact .inl ⟨k, List.mem_cons_of_mem _ hk, hid, hget⟩
      · rw [hget, get_bindKey]
        by_cases hid : key.1 = nodeId
        · exact .inl ⟨key, List.mem_cons_self, hid, by rw [if_pos hid]⟩
        · refine .inr ⟨fun k hk => ?_, by rw [if_neg hid]⟩
          rcases List.mem_cons.mp hk with rfl | hk
          · exact hid
          · exact hnone k hk

/-- The call is accepted: the operation is there with a child for each id, and with as many pending
keys, or with these ids already. -/
structure Admits (db : Db) (operationId : String) (nodeIds : List String) : Prop where
  nonempty : nodeIds ≠ []
  named : "" ∉ nodeIds
  operation : ∃ operation, db.splits.get operationId = some operation ∧
    operation.childValuesSats.length = nodeIds.length ∧
    match db.pendingKeys.get operationId with
    | none => operation.childNodeIds = nodeIds
    | some pending => pending.encryptedKeys.length = nodeIds.length

theorem SplitRow.same_id (r : SplitRow) : r.operationId = r.operationId := rfl

theorem SplitRow.same_parent (r : SplitRow) : r.parentNodeId = r.parentNodeId := rfl

/-- The store once the pending keys are bound. -/
def Db.bound (db : Db) (operationId : String) (nodeIds : List String)
    (encryptedKeys : List (List UInt8)) : Db where
  splits := db.splits.update (Db.withId operationId)
    (fun r => { r with childNodeIds := nodeIds, lastError := none }) SplitRow.same_id SplitRow.same_parent
  pendingKeys := db.pendingKeys.delete (·.operationId == operationId)
  overrides := (nodeIds.zip encryptedKeys).foldl (bindKey operationId) db.overrides

theorem bindPendingSparkSplitKeys_ok :
    db.bindPendingSparkSplitKeys operationId nodeIds = .ok db' ↔
      Admits db operationId nodeIds ∧ db' = match db.pendingKeys.get operationId with
        | none => db
        | some pending => db.bound operationId nodeIds pending.encryptedKeys := by
  unfold Db.bindPendingSparkSplitKeys
  simp only [guard_eq_ok, bind_eq_ok, okOr_eq_ok]
  -- a retry finds no pending keys, and compares with the bound ones
  rcases hpending : db.pendingKeys.get operationId with - | pending
  · simp only
    constructor
    · rintro ⟨hids, operation, hoperation, hlen, h⟩
      push Not at hids hlen
      split at h
      · next hbound =>
          obtain rfl := Except.ok.inj h
          refine ⟨⟨hids.1, hids.2, operation, hoperation, hlen, ?_⟩, rfl⟩
          rw [hpending]
          exact hbound
      · cases h
    · rintro ⟨⟨hne, hnamed, operation, hoperation, hlen, hbound⟩, rfl⟩
      rw [hpending] at hbound
      exact ⟨by simp [hne, hnamed], operation, hoperation, by simp [hlen], by rw [if_pos hbound]⟩
  · simp only [guard_eq_ok]
    constructor
    · rintro ⟨hids, operation, hoperation, hlen, hkeys, h⟩
      push Not at hids hlen hkeys
      obtain rfl := Except.ok.inj h
      refine ⟨⟨hids.1, hids.2, operation, hoperation, hlen, ?_⟩, rfl⟩
      rw [hpending]
      exact hkeys
    · rintro ⟨⟨hne, hnamed, operation, hoperation, hlen, hkeys⟩, rfl⟩
      rw [hpending] at hkeys
      exact ⟨by simp [hne, hnamed], operation, hoperation, by simp [hlen], by simp [hkeys], rfl⟩

/-! ### Statements -/

/-- The statements that move keys, and the other ones on the same tables. -/
inductive Statement where
  | putPendingSparkSplitKeys (keys : PendingKeysRow)
  | bindPendingSparkSplitKeys (operationId : String) (nodeIds : List String)
  | completeSparkSplit (operationId : String) (overrides : List (String × List UInt8))
  | retireSparkLeafKeys (nodeIds : List String)
  | query (now : Nat) (q : Query)

def Statement.run (db : Db) : Statement → Except String Db
  | putPendingSparkSplitKeys keys =>
      db.putPendingSparkSplitKeys keys.operationId keys.parentNodeId keys.encryptedKeys
  | bindPendingSparkSplitKeys operationId nodeIds =>
      db.bindPendingSparkSplitKeys operationId nodeIds
  | completeSparkSplit operationId overrides => db.completeSparkSplit operationId overrides
  | retireSparkLeafKeys nodeIds => .ok (db.retireSparkLeafKeys nodeIds)
  | query now q => (q.run now db).map (·.2)

/-- The store after a statement: one that fails is rolled back. -/
def Statement.step (s : Statement) (db : Db) : Db :=
  match s.run db with
  | .ok db' => db'
  | .error _ => db

theorem Statement.step_of_ok {s : Statement} (h : s.run db = .ok db') : s.step db = db' := by
  unfold step
  rw [h]

/-! ### No key is lost -/

/-- The call loses no key: what it stores under an id is the key that belongs there, what was
stored stays, and calling it again changes nothing. -/
structure BindsSafely (db : Db) (operationId : String) (nodeIds : List String) : Prop where
  /-- Each child has its key; if there were no pending ones, one of this operation. -/
  resolvable : ∀ db', db.bindPendingSparkSplitKeys operationId nodeIds = .ok db' →
    ∀ (i : Nat) nodeId, nodeIds[i]? = some nodeId →
      match db.pendingKeys.get operationId with
      | some pending => ∃ key, pending.encryptedKeys[i]? = some key ∧
          db'.sparkLeafKeyOverride nodeId = some key
      | none => ∃ row, db'.overrides.get nodeId = some row ∧ row.operationId = operationId
  /-- Keys that are stored stay. -/
  kept : ∀ db', db.bindPendingSparkSplitKeys operationId nodeIds = .ok db' →
    ∀ nodeId row, db.overrides.get nodeId = some row → db'.overrides.get nodeId = some row
  /-- So do the pending keys of the other operations. -/
  others : ∀ db', db.bindPendingSparkSplitKeys operationId nodeIds = .ok db' →
    ∀ other ≠ operationId, db'.pendingKeys.get other = db.pendingKeys.get other
  again : ∀ db', db.bindPendingSparkSplitKeys operationId nodeIds = .ok db' →
    db'.bindPendingSparkSplitKeys operationId nodeIds = .ok db'
  unchanged : ∀ e, db.bindPendingSparkSplitKeys operationId nodeIds = .error e →
    (Statement.bindPendingSparkSplitKeys operationId nodeIds).step db = db

/-- Each id has no key yet, or already the one it gets. -/
def Unclaimed (db : Db) (operationId : String) (nodeIds : List String) : Prop :=
  match db.pendingKeys.get operationId with
  | some pending => ∀ key ∈ nodeIds.zip pending.encryptedKeys,
      (∀ other ∈ nodeIds.zip pending.encryptedKeys, other.1 = key.1 → other.2 = key.2) ∧
      ∀ row, db.overrides.get key.1 = some row → row = ⟨key.1, operationId, key.2⟩
  | none => ∀ nodeId ∈ nodeIds,
      ∃ row, db.overrides.get nodeId = some row ∧ row.operationId = operationId

section Bound

variable {pending : PendingKeysRow}

/-- Every entry's key is there after binding, when equal ids get equal keys. -/
theorem get_bound {key : String × List UInt8}
    (hkey : key ∈ nodeIds.zip pending.encryptedKeys)
    (hsame : ∀ other ∈ nodeIds.zip pending.encryptedKeys, other.1 = key.1 → other.2 = key.2) :
    (db.bound operationId nodeIds pending.encryptedKeys).overrides.get key.1 =
      some ⟨key.1, operationId, key.2⟩ := by
  rcases get_foldl_bindKey operationId (nodeIds.zip pending.encryptedKeys) key.1
    db.overrides with ⟨other, hother, hid, hget⟩ | ⟨hnone, -⟩
  · rw [hsame other hother hid] at hget
    exact hget
  · exact absurd rfl (hnone key hkey)

/-- After binding, the same call is admitted and finds nothing to do. -/
theorem Admits.again (h : Admits db operationId nodeIds) (keys : List (List UInt8)) :
    (db.bound operationId nodeIds keys).bindPendingSparkSplitKeys operationId nodeIds =
      .ok (db.bound operationId nodeIds keys) := by
  obtain ⟨hne, hnamed, operation, hoperation, hlen, -⟩ := h
  have hpending : (db.bound operationId nodeIds keys).pendingKeys.get operationId = none :=
    Table.get_delete _ _ fun r hr => by simpa using hr
  have hbound : (db.bound operationId nodeIds keys).splits.get operationId =
      some { operation with childNodeIds := nodeIds, lastError := none } := by
    have hkey := Table.key_of_get hoperation
    rw [Db.bound, SplitTable.get_update, hoperation, Option.map_some,
      if_pos (by simpa [Db.withId] using hkey)]
  apply bindPendingSparkSplitKeys_ok.mpr
  rw [hpending]
  refine ⟨⟨hne, hnamed, _, hbound, hlen, ?_⟩, rfl⟩
  rw [hpending]

/-- A safe call finds each id free for its key. -/
theorem BindsSafely.unclaimed (h : BindsSafely db operationId nodeIds)
    (hadmits : Admits db operationId nodeIds) : Unclaimed db operationId nodeIds := by
  have hok := bindPendingSparkSplitKeys_ok.mpr ⟨hadmits, rfl⟩
  have hresolvable := h.resolvable _ hok
  have hkept := h.kept _ hok
  unfold Unclaimed
  rcases hpending : db.pendingKeys.get operationId with - | pending
  · rw [hpending] at hresolvable
    intro nodeId hid
    obtain ⟨i, hi⟩ := List.mem_iff_getElem?.mp hid
    exact hresolvable i nodeId hi
  · rw [hpending] at hresolvable hkept
    -- the key of an entry is the one its id resolves to
    have hentry : ∀ key ∈ nodeIds.zip pending.encryptedKeys,
        (db.bound operationId nodeIds pending.encryptedKeys).sparkLeafKeyOverride key.1 =
          some key.2 := by
      intro key hkey
      obtain ⟨i, hi⟩ := List.mem_iff_getElem?.mp hkey
      obtain ⟨hid, hval⟩ := List.getElem?_zip_eq_some.mp hi
      obtain ⟨k, hk, hres⟩ := hresolvable i key.1 hid
      obtain rfl := Option.some.inj (hval.symm.trans hk)
      exact hres
    have hsame : ∀ key ∈ nodeIds.zip pending.encryptedKeys,
        ∀ other ∈ nodeIds.zip pending.encryptedKeys, other.1 = key.1 → other.2 = key.2 := by
      intro key hkey other hother hid
      have hres := hentry other hother
      rw [hid, hentry key hkey] at hres
      exact (Option.some.inj hres).symm
    intro key hkey
    refine ⟨hsame key hkey, fun row hrow => ?_⟩
    have hstays := hkept key.1 row hrow
    rw [get_bound hkey (hsame key hkey)] at hstays
    exact (Option.some.inj hstays).symm

theorem Unclaimed.bindsSafely (h : Unclaimed db operationId nodeIds)
    (hadmits : Admits db operationId nodeIds) : BindsSafely db operationId nodeIds := by
  have hok := bindPendingSparkSplitKeys_ok.mpr ⟨hadmits, rfl⟩
  have hrefuse : ∀ e, db.bindPendingSparkSplitKeys operationId nodeIds ≠ .error e := by
    intro e he
    rw [he] at hok
    cases hok
  unfold Unclaimed at h
  rcases hpending : db.pendingKeys.get operationId with - | pending
  · rw [hpending] at h hok
    refine ⟨?_, ?_, ?_, ?_, fun e he => absurd he (hrefuse e)⟩ <;> intro db' h' <;>
      obtain rfl := Except.ok.inj (hok.symm.trans h')
    · intro i nodeId hi
      rw [hpending]
      exact h nodeId (List.mem_of_getElem? hi)
    · exact fun nodeId row hrow => hrow
    · exact fun other _ => rfl
    · exact hok
  · rw [hpending] at h hok
    refine ⟨?_, ?_, ?_, ?_, fun e he => absurd he (hrefuse e)⟩ <;> intro db' h' <;>
      obtain rfl := Except.ok.inj (hok.symm.trans h')
    · -- as many keys as ids: the entry of an id is there
      intro i nodeId hi
      rw [hpending]
      obtain ⟨-, -, operation, -, -, hlen⟩ := hadmits
      rw [hpending] at hlen
      have hlt : i < pending.encryptedKeys.length := by
        rw [show pending.encryptedKeys.length = nodeIds.length from hlen]
        exact (List.getElem?_eq_some_iff.mp hi).1
      have hkey : (nodeId, pending.encryptedKeys[i]) ∈ nodeIds.zip pending.encryptedKeys :=
        List.mem_of_getElem?
          (List.getElem?_zip_eq_some.mpr ⟨hi, List.getElem?_eq_getElem hlt⟩)
      refine ⟨pending.encryptedKeys[i], List.getElem?_eq_getElem hlt, ?_⟩
      rw [Db.sparkLeafKeyOverride, get_bound hkey (h _ hkey).1]
      rfl
    · intro nodeId row hrow
      rcases get_foldl_bindKey operationId (nodeIds.zip pending.encryptedKeys)
        nodeId db.overrides with ⟨key, hkey, rfl, hget⟩ | ⟨-, hget⟩
      · rw [(h key hkey).2 row hrow]
        exact hget
      · exact hget.trans hrow
    · exact fun other hother => Table.get_delete_of _ _ fun r hr => by simpa [hr] using hother
    · exact hadmits.again _

end Bound

/-- Binding is safe exactly when the call is refused or each id is free for the key it gets. -/
theorem bindPendingSparkSplitKeys_safe (db : Db) (operationId : String) (nodeIds : List String) :
    BindsSafely db operationId nodeIds ↔
      (Admits db operationId nodeIds → Unclaimed db operationId nodeIds) := by
  constructor
  · exact BindsSafely.unclaimed
  · intro h
    by_cases hadmits : Admits db operationId nodeIds
    · exact (h hadmits).bindsSafely hadmits
    · have hrefuse : ∀ db', db.bindPendingSparkSplitKeys operationId nodeIds ≠ .ok db' :=
        fun db' hok => hadmits (bindPendingSparkSplitKeys_ok.mp hok).1
      refine ⟨fun db' hok => absurd hok (hrefuse db'), fun db' hok => absurd hok (hrefuse db'),
        fun db' hok => absurd hok (hrefuse db'), fun db' hok => absurd hok (hrefuse db'), ?_⟩
      intro e he
      show (match db.bindPendingSparkSplitKeys operationId nodeIds with
        | .ok db' => db' | .error _ => db) = db
      rw [he]

/-- A split in two, and its keys. -/
def twoKeys : SparkSplitOperation × PendingKeysRow where
  fst := { operationId := "op", parentNodeId := "leaf", parentValueSats := 3,
           childValuesSats := [1, 2], plan := [], status := .draft, childNodeIds := [],
           lastError := none }
  snd := { operationId := "op", parentNodeId := "leaf", encryptedKeys := [[1], [2]] }

/-- The store once the split is there and its keys are pending. -/
def twoKeysPending : Db :=
  (Statement.putPendingSparkSplitKeys twoKeys.2).step
    ((Statement.query 0 (.getOrInsertSparkSplit twoKeys.1)).step .empty)

/-- Both children get the same id, and the first key is gone. -/
theorem bindPendingSparkSplitKeys_loses :
    ¬ ∀ db operationId nodeIds, BindsSafely db operationId nodeIds := by
  intro h
  have hpending : twoKeysPending.pendingKeys.get "op" = some twoKeys.2 := by decide +kernel
  have hbind : ((twoKeysPending.bindPendingSparkSplitKeys "op" ["n", "n"]).toOption.map
      (·.sparkLeafKeyOverride "n")) = some (some [2]) := by decide +kernel
  rcases hok : twoKeysPending.bindPendingSparkSplitKeys "op" ["n", "n"] with e | db'
  · rw [hok] at hbind
    cases hbind
  · rw [hok] at hbind
    have hlost := (h twoKeysPending "op" ["n", "n"]).resolvable db' hok 0 "n" rfl
    rw [hpending] at hlost
    obtain ⟨key, hkey, hget⟩ := hlost
    rw [← Option.some.inj hkey] at hget
    have hlast : db'.sparkLeafKeyOverride "n" = some [2] := Option.some.inj hbind
    rw [hlast] at hget
    cases hget

/-! ### Writing keys once -/

/-- The children of an operation have got their ids. -/
def Spent (db : Db) (operationId : String) : Prop :=
  ∃ r ∈ db.splits.rows, r.operationId = operationId ∧
    (r.status = .completed ∨ r.childNodeIds ≠ [])

instance : Decidable (Spent db operationId) :=
  inferInstanceAs (Decidable (∃ r ∈ db.splits.rows, r.operationId = operationId ∧
    (r.status = .completed ∨ r.childNodeIds ≠ [])))

/-- An update leaves the children of an operation where they are, or gives it some. -/
theorem Spent.update (h : Spent db operationId) {p : SplitRow → Bool} {f : SplitRow → SplitRow}
    (hrows : db'.splits.rows = db.splits.rows.map fun r => if p r then f r else r)
    (hf : ∀ r, (f r).operationId = r.operationId ∧
      ((f r).status = .completed ∨ (f r).childNodeIds ≠ [])) :
    Spent db' operationId := by
  obtain ⟨r, hr, hid, hspent⟩ := h
  rw [Spent, hrows]
  refine ⟨_, List.mem_map_of_mem hr, ?_⟩
  by_cases hp : p r = true
  · rw [if_pos hp]
    exact ⟨(hf r).1.trans hid, (hf r).2⟩
  · rw [if_neg hp]
    exact ⟨hid, hspent⟩

/-- An update of the operation itself gives it children. -/
theorem Spent.of_update {operation : SplitRow}
    (hoperation : db.splits.get operationId = some operation) {f : SplitRow → SplitRow}
    (hrows : db'.splits.rows =
      db.splits.rows.map fun r => if Db.withId operationId r then f r else r)
    (hf : ∀ r, (f r).operationId = r.operationId ∧
      ((f r).status = .completed ∨ (f r).childNodeIds ≠ [])) :
    Spent db' operationId := by
  have hid := Table.key_of_get hoperation
  rw [Spent, hrows]
  refine ⟨_, List.mem_map_of_mem (Table.mem_of_get hoperation), ?_⟩
  rw [if_pos (by simpa [Db.withId] using hid)]
  exact ⟨(hf operation).1.trans hid, (hf operation).2⟩

theorem putPendingSparkSplitKeys_ok {keys : PendingKeysRow}
    (h : (Statement.putPendingSparkSplitKeys keys).run db = .ok db') :
    db'.splits = db.splits ∧ db'.pendingKeys.get keys.operationId = some keys ∧
      ∀ operationId, keys.operationId ≠ operationId ∨ db.pendingKeys.get operationId ≠ none →
        db'.pendingKeys.get operationId = db.pendingKeys.get operationId := by
  simp only [Statement.run, Db.putPendingSparkSplitKeys] at h
  split at h
  · cases h
  · split at h
    · next hget =>
        obtain rfl := Except.ok.inj h
        refine ⟨rfl, hget, fun operationId hold => ?_⟩
        show ((db.pendingKeys.insert keys).getD db.pendingKeys).get operationId = _
        rcases hins : db.pendingKeys.insert keys with - | inserted
        · rfl
        · rw [Option.getD_some, Table.get_insert hins]
          rcases hold with hother | hold
          · rw [if_neg hother]
          · by_cases hid : keys.operationId = operationId
            · rw [← hid, (Table.insert_eq_some hins).1] at hold
              exact absurd rfl hold
            · rw [if_neg hid]
    · cases h

theorem Query.pendingKeys {q : Query} {now : Nat} {out : q.Out}
    (h : q.run now db = .ok (out, db')) : db'.pendingKeys = db.pendingKeys := by
  -- the three checkpoints share one statement
  have hadvance : ∀ {operationId statuses f hid hparent} {db db' : Db},
      db.advance operationId statuses f hid hparent = some db' →
        db'.pendingKeys = db.pendingKeys := by
    intro _ _ _ _ _ db db' h
    dsimp only [Db.advance] at h
    split at h
    · obtain rfl := Option.some.inj h
      rfl
    · cases h
  cases q with
  | getOrInsertSparkSplit candidate =>
      obtain ⟨row, -, h⟩ := bind_ok h
      obtain ⟨-, rfl⟩ := Prod.mk.inj (Except.ok.inj h)
      rfl
  | sparkSplitForParent parentNodeId =>
      obtain ⟨-, rfl⟩ := Prod.mk.inj (Except.ok.inj h)
      rfl
  | incompleteSparkSplits =>
      obtain ⟨-, rfl⟩ := Prod.mk.inj (Except.ok.inj h)
      rfl
  | savePreparedSparkSplit operationId plan =>
      obtain ⟨db₁, hsave, h⟩ := map_ok h
      obtain ⟨-, rfl⟩ := Prod.mk.inj h
      exact hadvance (okOr_eq_ok.mp hsave)
  -- the retry of a checkpoint writes nothing
  | markSparkSplitSubmitting operationId =>
      obtain ⟨db₁, hmark, h⟩ := map_ok h
      obtain ⟨-, rfl⟩ := Prod.mk.inj h
      simp only [Db.markSparkSplitSubmitting] at hmark
      split at hmark
      · next hadv =>
          obtain rfl := Except.ok.inj hmark
          exact hadvance hadv
      · split at hmark
        · cases hmark
        · split at hmark
          · cases hmark
          · obtain rfl := Except.ok.inj hmark
            rfl
  | saveSubmittedSparkSplit operationId submitted =>
      obtain ⟨db₁, hsave, h⟩ := map_ok h
      obtain ⟨-, rfl⟩ := Prod.mk.inj h
      exact hadvance (okOr_eq_ok.mp hsave)
  | recordSparkSplitError operationId error =>
      obtain ⟨-, rfl⟩ := Prod.mk.inj (Except.ok.inj h)
      rfl
  | markSparkSplitCompleted operationId =>
      obtain ⟨db₁, hmark, h⟩ := map_ok h
      obtain ⟨-, rfl⟩ := Prod.mk.inj h
      dsimp only [Db.markSparkSplitCompleted] at hmark
      split at hmark
      · obtain rfl := Except.ok.inj hmark
        rfl
      · cases hmark

/-- Only binding and completing an operation take its pending keys, and both leave it children. -/
theorem Statement.pendingKeys {s : Statement} (hs : ∀ keys, s ≠ .putPendingSparkSplitKeys keys)
    (h : s.run db = .ok db') :
    db'.pendingKeys = db.pendingKeys ∨
      ∃ operationId, db'.pendingKeys = db.pendingKeys.delete (·.operationId == operationId) ∧
        Spent db' operationId := by
  cases s with
  | putPendingSparkSplitKeys keys => exact absurd rfl (hs keys)
  | bindPendingSparkSplitKeys operationId nodeIds =>
      obtain ⟨⟨hne, -, operation, hoperation, -, -⟩, rfl⟩ := bindPendingSparkSplitKeys_ok.mp h
      split
      · exact .inl rfl
      · exact .inr ⟨operationId, rfl, .of_update hoperation rfl fun _ => ⟨rfl, .inr hne⟩⟩
  | completeSparkSplit operationId overrides =>
      simp only [run, Db.completeSparkSplit, bind_eq_ok, okOr_eq_ok, guard_eq_ok] at h
      obtain ⟨operation, hoperation, -, h⟩ := h
      obtain rfl := Except.ok.inj h
      exact .inr ⟨operationId, rfl, .of_update hoperation rfl fun _ => ⟨rfl, .inl rfl⟩⟩
  | retireSparkLeafKeys nodeIds =>
      obtain rfl := Except.ok.inj h
      exact .inl rfl
  | query now q =>
      obtain ⟨⟨out, db₁⟩, hrun, rfl⟩ := map_ok h
      exact .inl (Query.pendingKeys hrun)

/-- Children stay. -/
theorem Spent.step {s : Statement} (hspent : Spent db operationId) (h : s.run db = .ok db') :
    Spent db' operationId := by
  cases s with
  | putPendingSparkSplitKeys keys =>
      rw [Spent, (putPendingSparkSplitKeys_ok h).1]
      exact hspent
  | bindPendingSparkSplitKeys id nodeIds =>
      obtain ⟨⟨hne, -, -, -, -, -⟩, rfl⟩ := bindPendingSparkSplitKeys_ok.mp h
      split
      · exact hspent
      · exact hspent.update rfl fun _ => ⟨rfl, .inr hne⟩
  | completeSparkSplit id overrides =>
      simp only [Statement.run, Db.completeSparkSplit, bind_eq_ok, okOr_eq_ok, guard_eq_ok] at h
      obtain ⟨operation, hoperation, -, h⟩ := h
      obtain rfl := Except.ok.inj h
      exact hspent.update rfl fun _ => ⟨rfl, .inl rfl⟩
  | retireSparkLeafKeys nodeIds =>
      obtain rfl := Except.ok.inj h
      exact hspent
  | query now q =>
      obtain ⟨⟨out, db₁⟩, hrun, rfl⟩ := map_ok h
      obtain ⟨r, hr, hid, hchildren⟩ := hspent
      rcases Query.rows_step hrun with ⟨f, hrows, hf⟩ | ⟨candidate, -, hrows⟩
      · obtain ⟨hsame, hmove⟩ := hf r hr
        refine ⟨f r, by rw [hrows]; exact List.mem_map_of_mem hr, hsame.operationId.trans hid, ?_⟩
        -- of the stages only the last leaves children, and no stage takes them away
        cases hmove with
        | quiet _ status children => rwa [status, children]
        | prepared _ old _ children =>
            rw [children]
            exact .inr (hchildren.resolve_left (by rcases old with h | h <;> simp [h]))
        | submitting _ old _ _ children =>
            rw [children]
            exact .inr (hchildren.resolve_left (by simp [old]))
        | submitted _ old _ children =>
            rw [children]
            exact .inr (hchildren.resolve_left (by rcases old with h | h <;> simp [h]))
        | completed _ _ status => exact .inl status
      · exact ⟨r, by rw [hrows]; exact List.mem_cons_of_mem _ hr, hid, hchildren⟩

/-- An operation has had its keys: they are pending, or have been moved to the children. -/
def HasHad (db : Db) (keys : PendingKeysRow) : Prop :=
  db.pendingKeys.get keys.operationId = some keys ∨
    db.pendingKeys.get keys.operationId = none ∧ Spent db keys.operationId

/-- Keys that are put in time are the ones the operation has had. -/
theorem HasHad.put {keys keys' : PendingKeysRow} (hhad : HasHad db keys)
    (hput : db.pendingKeys.get keys'.operationId ≠ none ∨ ¬ Spent db keys'.operationId)
    (h : (Statement.putPendingSparkSplitKeys keys').run db = .ok db') :
    HasHad db' keys ∧ (keys'.operationId = keys.operationId → keys' = keys) := by
  obtain ⟨hsplits, hnow, hother⟩ := putPendingSparkSplitKeys_ok h
  by_cases hid : keys'.operationId = keys.operationId
  · rw [hid] at hput hnow
    -- the keys are pending still
    have hpending : db.pendingKeys.get keys.operationId = some keys := by
      refine hhad.resolve_right fun hmoved => ?_
      rcases hput with hold | hfree
      · exact hold hmoved.1
      · exact hfree hmoved.2
    have hstays := (hother keys.operationId (.inr (by simp [hpending]))).trans hpending
    exact ⟨.inl hstays, fun _ => Option.some.inj (hnow.symm.trans hstays)⟩
  · refine ⟨?_, fun he => absurd he hid⟩
    rw [HasHad, hother _ (.inl hid), Spent, hsplits]
    exact hhad

theorem HasHad.step {s : Statement} {keys : PendingKeysRow} (hhad : HasHad db keys)
    (hs : ∀ keys, s ≠ .putPendingSparkSplitKeys keys) (h : s.run db = .ok db') :
    HasHad db' keys := by
  rcases Statement.pendingKeys hs h with hsame | ⟨operationId, hdelete, hspent⟩
  · rw [HasHad, hsame]
    exact hhad.imp_right fun hmoved => ⟨hmoved.1, hmoved.2.step h⟩
  · by_cases hid : keys.operationId = operationId
    · refine .inr ⟨?_, hid ▸ hspent⟩
      rw [hdelete]
      exact Table.get_delete _ _ fun r hr => by simpa [hr] using hid
    · rw [HasHad, hdelete, Table.get_delete_of _ _ fun r hr => by simpa [hr] using hid]
      exact hhad.imp_right fun hmoved => ⟨hmoved.1, hmoved.2.step h⟩

/-! ### Runs -/

/-- The keys that the statements of a run put, of those that succeed. -/
inductive Puts : Db → List Statement → PendingKeysRow → Prop
  | here {db db' : Db} {rest : List Statement} {keys : PendingKeysRow}
      (h : (Statement.putPendingSparkSplitKeys keys).run db = .ok db') :
      Puts db (.putPendingSparkSplitKeys keys :: rest) keys
  | later {db : Db} {s : Statement} {rest : List Statement} {keys : PendingKeysRow}
      (h : Puts (s.step db) rest keys) : Puts db (s :: rest) keys

theorem Puts.of_isOk {rest : List Statement} {keys : PendingKeysRow}
    (h : ((Statement.putPendingSparkSplitKeys keys).run db).isOk = true) :
    Puts db (.putPendingSparkSplitKeys keys :: rest) keys := by
  rcases hrun : (Statement.putPendingSparkSplitKeys keys).run db with e | db'
  · rw [hrun] at h
    cases h
  · exact .here hrun

/-- Keys are put only for an operation whose keys are pending, or whose children have no ids. -/
def PutsInTime (db : Db) : List Statement → Prop
  | [] => True
  | s :: rest =>
      (∀ keys, s = .putPendingSparkSplitKeys keys →
        db.pendingKeys.get keys.operationId ≠ none ∨ ¬ Spent db keys.operationId) ∧
      PutsInTime (s.step db) rest

/-- Once an operation has had its keys, no others are put for it. -/
theorem HasHad.run {keys keys' : PendingKeysRow} {db : Db} {statements : List Statement}
    (hput : Puts db statements keys') (hhad : HasHad db keys) (htime : PutsInTime db statements)
    (hid : keys'.operationId = keys.operationId) : keys' = keys := by
  induction hput with
  | here h => exact (hhad.put (htime.1 _ rfl) h).2 hid
  | @later db s rest keys' hrest ih =>
      apply ih ?_ htime.2 hid
      rcases hrun : s.run db with e | db'
      · rw [Statement.step, hrun]
        exact hhad
      · rw [Statement.step_of_ok hrun]
        by_cases hs : ∃ keys, s = .putPendingSparkSplitKeys keys
        · obtain ⟨put, rfl⟩ := hs
          exact (hhad.put (htime.1 _ rfl) hrun).1
        · exact hhad.step (fun put h => hs ⟨put, h⟩) hrun

/-- In every run whose keys are put in time, an operation's keys are written once. -/
theorem pending_keys_write_once (db : Db) (statements : List Statement)
    (htime : PutsInTime db statements) (keys keys' : PendingKeysRow)
    (h : Puts db statements keys) (h' : Puts db statements keys')
    (hid : keys.operationId = keys'.operationId) : keys = keys' := by
  induction h with
  | @here db db' rest keys hrun =>
      cases h' with
      | here => rfl
      | later hrest =>
          rw [Statement.step_of_ok hrun] at hrest
          have hhad : HasHad db' keys := .inl (putPendingSparkSplitKeys_ok hrun).2.1
          have htime' := htime.2
          rw [Statement.step_of_ok hrun] at htime'
          exact (hhad.run hrest htime' hid.symm).symm
  | @later db s rest keys hrest ih =>
      cases h' with
      | here hrun =>
          rw [Statement.step_of_ok hrun] at hrest
          have hhad : HasHad _ keys' := .inl (putPendingSparkSplitKeys_ok hrun).2.1
          have htime' := htime.2
          rw [Statement.step_of_ok hrun] at htime'
          exact hhad.run hrest htime' hid
      | later hrest' => exact ih htime.2 hrest' hid

/-- The keys are put, put once more and bound. -/
def keysBound : List Statement :=
  [.query 0 (.getOrInsertSparkSplit twoKeys.1), .putPendingSparkSplitKeys twoKeys.2,
    .putPendingSparkSplitKeys twoKeys.2, .bindPendingSparkSplitKeys "op" ["a", "b"]]

theorem pending_keys_write_once_bound : PutsInTime .empty keysBound ∧
    ∀ keys, Puts .empty keysBound keys → keys.operationId = "op" → keys = twoKeys.2 := by
  have htime : PutsInTime .empty keysBound := by
    refine ⟨nofun, ?_, ?_, nofun, trivial⟩ <;> intro keys hk <;> cases hk
    · exact .inr (by decide +kernel)
    · exact .inl (by decide +kernel)
  have hput : Puts .empty keysBound twoKeys.2 := .later (.of_isOk (by decide +kernel))
  exact ⟨htime, fun keys h hid => pending_keys_write_once .empty keysBound htime _ _ h hput hid⟩

/-- Once the keys are bound, other keys are accepted. -/
theorem pending_keys_rewritten :
    ¬ ∀ (db : Db) (statements : List Statement) (keys keys' : PendingKeysRow),
      Puts db statements keys → Puts db statements keys' →
        keys.operationId = keys'.operationId → keys = keys' := by
  intro h
  let rekeyed : PendingKeysRow := { twoKeys.2 with encryptedKeys := [[3], [4]] }
  let run : List Statement :=
    [.query 0 (.getOrInsertSparkSplit twoKeys.1), .putPendingSparkSplitKeys twoKeys.2,
      .bindPendingSparkSplitKeys "op" ["a", "b"], .putPendingSparkSplitKeys rekeyed]
  have hfirst : Puts .empty run twoKeys.2 := .later (.of_isOk (by decide +kernel))
  have hsecond : Puts .empty run rekeyed := .later (.later (.later (.of_isOk (by decide +kernel))))
  exact absurd (h _ run _ _ hfirst hsecond rfl) (by decide)

end OpenSsp.LeafSplit
