/-
OpenSsp/Updates/Touch.lean

What a write does to `updated_at` (`Writes`): the time of the write is there when the write changes
what is saved of the request, and otherwise the old one.

Each statement writes to one part of what is saved, and its triggers note its requests.  A method is
statements on different parts, so nothing that one of them changes is changed back.

Main results: `Writes.trans`, one lemma for each statement, and `exec_writes` for all writes.
-/
import OpenSsp.Updates.Response

namespace OpenSsp.Updates

open Interleave

/-! ### Rewrites -/

namespace Db

/-- The triggers write only the time of the update. -/
@[simp] theorem saved_touch (now : String) (ids : List String) (db : Db) :
    (db.touch now ids).saved = db.saved := by
  funext id c
  cases c <;> rfl

/-- A touched request gets the time of the statement, any other keeps its own. -/
theorem updatedAt_touch (now : String) (ids : List String) (db : Db) (id : String) :
    (db.touch now ids).updatedAt id =
      (db.updatedAt id).map fun t => if id ∈ ids then now else t := by
  rw [updatedAt, touch, Table.get_update, updatedAt, Option.map_map, Option.map_map]
  rcases h : db.updates.get id with - | u
  · rfl
  · have hid : u.id = id := Table.key_of_get h
    rw [Option.map_some, Option.map_some]
    congr 1
    show (if ids.contains u.id = true then _ else u).updatedAt = if id ∈ ids then now else u.updatedAt
    rw [hid]
    by_cases hmem : id ∈ ids
    · rw [if_pos (List.contains_iff_mem.mpr hmem), if_pos hmem]
    · rw [if_neg (fun h => hmem (List.contains_iff_mem.mp h)), if_neg hmem]

end Db

/-- A write from `db` to `db'` at `now` changes only the parts `parts` of the request `id`, and
rewrites its `updated_at` exactly when it changes one. -/
structure Writes (parts : List Part) (now id : String) (db db' : Db) : Prop where
  tracked : (db'.updatedAt id).isSome
  frame : ∀ c, c ∉ parts → db'.saved id c = db.saved id c
  touched : db'.saved id ≠ db.saved id → db'.updatedAt id = some now
  untouched : db'.saved id = db.saved id → db'.updatedAt id = db.updatedAt id

namespace Writes

variable {parts parts' : List Part} {now id : String} {db db₁ db₂ : Db}

/-- A statement that leaves the response alone writes nothing of it. -/
theorem same (htracked : (db.updatedAt id).isSome) (hsaved : db₁.saved id = db.saved id)
    (hupdated : db₁.updatedAt id = db.updatedAt id) : Writes parts now id db db₁ where
  tracked := by
    rw [hupdated]
    exact htracked
  frame c _ := congrFun hsaved c
  touched h := absurd hsaved h
  untouched _ := hupdated

/-- A statement on one part notes the requests whose part it changes. -/
theorem of_touch {c : Part} {ids : List String} (htracked : (db.updatedAt id).isSome)
    (hupdates : db₁.updates = db.updates)
    (hframe : ∀ c', c' ≠ c → db₁.saved id c' = db.saved id c')
    (hiff : db₁.saved id c = db.saved id c ↔ id ∉ ids) :
    Writes [c] now id db (db₁.touch now ids) := by
  have hupdated : (db₁.touch now ids).updatedAt id =
      (db.updatedAt id).map fun t => if id ∈ ids then now else t := by
    rw [Db.updatedAt_touch, Db.updatedAt, hupdates, Db.updatedAt]
  obtain ⟨t, ht⟩ := Option.isSome_iff_exists.mp htracked
  rw [ht, Option.map_some] at hupdated
  constructor
  · rw [hupdated]
    rfl
  · intro c' hc'
    rw [Db.saved_touch]
    exact hframe c' (by simpa using hc')
  · intro hne
    rw [Db.saved_touch] at hne
    have hmem : id ∈ ids := by
      by_contra hnot
      apply hne
      funext c'
      by_cases hc : c' = c
      · subst hc
        exact hiff.mpr hnot
      · exact hframe c' hc
    rw [hupdated, if_pos hmem]
  · intro hsame
    rw [Db.saved_touch] at hsame
    rw [hupdated, if_neg (hiff.mp (congrFun hsame c)), ht]

/-- Statements on different parts, one after the other. -/
theorem trans (h : Writes parts now id db db₁) (h' : Writes parts' now id db₁ db₂)
    (hdisjoint : ∀ c ∈ parts, c ∉ parts') : Writes (parts ++ parts') now id db db₂ := by
  constructor
  · exact h'.tracked
  · intro c hc
    rw [List.mem_append, not_or] at hc
    rw [h'.frame c hc.2, h.frame c hc.1]
  · intro hne
    by_cases hsecond : db₂.saved id = db₁.saved id
    · rw [h'.untouched hsecond]
      apply h.touched
      rwa [hsecond] at hne
    · exact h'.touched hsecond
  · intro hsame
    -- a part that the second changes is one that the first left alone, and would differ at the end
    have hfirst : db₁.saved id = db.saved id := by
      funext c
      by_cases hc : c ∈ parts
      · rw [← h'.frame c (hdisjoint c hc)]
        exact congrFun hsame c
      · exact h.frame c hc
    have hsecond : db₂.saved id = db₁.saved id := hsame.trans hfirst.symm
    rw [h'.untouched hsecond, h.untouched hfirst]

/-- A statement may be charged with more than it writes. -/
theorem weaken (h : Writes parts now id db db₁) (hsub : ∀ c ∈ parts, c ∈ parts') :
    Writes parts' now id db db₁ :=
  ⟨h.tracked, fun c hc => h.frame c fun hmem => hc (hsub c hmem), h.touched, h.untouched⟩

end Writes

/-! ### Statements -/

namespace Db

variable {now id : String} {db db' : Db}

/-- An update of payloads writes that part alone. -/
theorem updatePayload_writes (ht : (db.updatedAt id).isSome) (p : RequestRow → Bool)
    (f : Payload → Payload) : Writes [.payload] now id db (db.updatePayload now p f) := by
  apply Writes.of_touch ht
  · rfl
  · intro c hc
    cases c with
    | payload => exact absurd rfl hc
    | _ => rfl
  · show Cell.payload _ = Cell.payload _ ↔ _
    rw [Cell.payload.injEq]
    apply column_update_iff
    · exact fun _ => rfl
    · exact fun _ _ => Iff.rfl

/-- An update of `lightning_sends` writes that part alone. -/
theorem updateSends_writes (ht : (db.updatedAt id).isSome) (p : SendRow → Bool)
    (f : SendRow → SendRow) (hf : ∀ r, (f r).requestId = r.requestId) :
    Writes [.send] now id db (db.updateSends now p f hf) := by
  apply Writes.of_touch ht
  · rfl
  · intro c hc
    cases c with
    | send => exact absurd rfl hc
    | _ => rfl
  · show Cell.send _ = Cell.send _ ↔ _
    rw [Cell.send.injEq]
    exact column_update_iff (fun r => congrArg some (hf r)) fun _ _ => Iff.rfl

/-- An update of `lightning_receive_payments` writes that part alone. -/
theorem updateReceivePayments_writes (ht : (db.updatedAt id).isSome)
    (p : ReceivePaymentRow → Bool) (f : ReceivePaymentRow → ReceivePaymentRow)
    (hf : ∀ r, (f r).hash = r.hash) :
    Writes [.receive] now id db (db.updateReceivePayments now p f hf) := by
  apply Writes.of_touch ht
  · rfl
  · intro c hc
    cases c with
    | receive => exact absurd rfl hc
    | _ => rfl
  · show Cell.receive _ = Cell.receive _ ↔ _
    rw [Cell.receive.injEq]
    apply column_update_iff
    · intro r
      show db.requestOfHash (f r).hash = db.requestOfHash r.hash
      rw [hf]
    · intro r _
      show ((f r).hash, receiveWatch (f r)) = (r.hash, receiveWatch r) ↔ _
      rw [hf, Prod.mk.injEq, and_iff_right rfl]

/-- An update of `spark_transfers` writes that part alone. -/
theorem updateTransfers_writes (ht : (db.updatedAt id).isSome) (p : TransferRow → Bool)
    (status : String) : Writes [.transfers] now id db (db.updateTransfers now p status) := by
  apply Writes.of_touch ht
  · rfl
  · intro c hc
    cases c with
    | transfers => exact absurd rfl hc
    | _ => rfl
  · show Cell.transfers _ = Cell.transfers _ ↔ _
    rw [Cell.transfers.injEq]
    apply column_update_iff
    · exact fun _ => rfl
    intro r _
    show (r.sparkId, r.owner, status) = (r.sparkId, r.owner, r.status) ↔ status = r.status
    rw [Prod.mk.injEq, Prod.mk.injEq, and_iff_right rfl, and_iff_right rfl]

/-- An update of `coop_exits` writes that part alone. -/
theorem updateExits_writes (ht : (db.updatedAt id).isSome) (record : ExitRecord) :
    Writes [.exit] now id db (db.updateExits now record) := by
  apply Writes.of_touch ht
  · rfl
  · intro c hc
    cases c with
    | exit => exact absurd rfl hc
    | _ => rfl
  · show Cell.exit _ = Cell.exit _ ↔ _
    rw [Cell.exit.injEq]
    apply column_update_iff
    · exact fun _ => rfl
    intro r _
    show (r.owner, record) = (r.owner, r.data) ↔ record = r.data
    rw [Prod.mk.injEq, and_iff_right rfl]

/-- A new send belongs to a request that had none. -/
theorem insertSend_writes {row : SendRow} (ht : (db.updatedAt id).isSome)
    (h : db.insertSend now row = .ok db') : Writes [.send] now id db db' := by
  unfold insertSend at h
  obtain ⟨-, h⟩ := guard_ok h
  obtain ⟨-, h⟩ := guard_ok h
  obtain ⟨sends, hinsert, h⟩ := bind_ok h
  obtain rfl := Except.ok.inj h
  have hrows := (Table.insert_eq_some (okOr_eq_ok.mp hinsert)).2
  apply Writes.of_touch ht
  · rfl
  · intro c hc
    cases c with
    | send => exact absurd rfl hc
    | _ => rfl
  · show Cell.send (column _ _ sends.rows id) = Cell.send _ ↔ _
    rw [Cell.send.injEq, hrows]
    apply column_insert_iff.trans
    simp [eq_comm]

/-- A new transfer joins its request's list. -/
theorem insertTransferRow_writes {row : TransferRow} (ht : (db.updatedAt id).isSome)
    (h : db.insertTransferRow now row = some db') : Writes [.transfers] now id db db' := by
  unfold insertTransferRow at h
  obtain ⟨transfers, hinsert, rfl⟩ := Option.map_eq_some_iff.mp h
  apply Writes.of_touch ht
  · rfl
  · intro c hc
    cases c with
    | transfers => exact absurd rfl hc
    | _ => rfl
  · show Cell.transfers (column _ _ transfers.rows id) = Cell.transfers _ ↔ _
    rw [Cell.transfers.injEq, (Table.insert_eq_some hinsert).2]
    apply column_insert_iff.trans
    simp [eq_comm]

/-- A new exit belongs to a request that had none. -/
theorem insertExit_writes {record : ExitRecord} (ht : (db.updatedAt id).isSome)
    (h : db.insertExit now record = .ok db') : Writes [.exit] now id db db' := by
  unfold insertExit at h
  obtain ⟨-, h⟩ := guard_ok h
  obtain ⟨-, h⟩ := guard_ok h
  obtain ⟨exits, hinsert, h⟩ := bind_ok h
  obtain rfl := Except.ok.inj h
  have hrows := (Table.insert_eq_some (okOr_eq_ok.mp hinsert)).2
  apply Writes.of_touch ht
  · rfl
  · intro c hc
    cases c with
    | exit => exact absurd rfl hc
    | _ => rfl
  · show Cell.exit (column _ _ exits.rows id) = Cell.exit _ ↔ _
    rw [Cell.exit.injEq, hrows]
    apply column_insert_iff.trans
    simp [eq_comm]

/-- An upsert of a receive payment is the insert or the update. -/
theorem upsertReceivePayment_writes (ht : (db.updatedAt id).isSome) (row : ReceivePaymentRow)
    (f : ReceivePaymentRow → ReceivePaymentRow) (hf : ∀ r, (f r).hash = r.hash) :
    Writes [.receive] now id db (db.upsertReceivePayment now row f hf) := by
  unfold upsertReceivePayment
  rcases hinsert : db.receivePayments.insert row with - | receivePayments
  · exact updateReceivePayments_writes ht _ f hf
  · apply Writes.of_touch ht
    · rfl
    · intro c hc
      cases c with
      | receive => exact absurd rfl hc
      | _ => rfl
    · show Cell.receive (column _ _ receivePayments.rows id) = Cell.receive _ ↔ _
      rw [Cell.receive.injEq, (Table.insert_eq_some hinsert).2]
      apply column_insert_iff.trans
      rw [Option.mem_toList]
      rfl

/-- What a successful insert of a request did to the two tables it writes. -/
theorem insertRequestRow_ok {row : RequestRow} (h : db.insertRequestRow row = .ok db') :
    ∃ requests updates, db.requests.insert row = some requests ∧
      db.updates.insert { id := row.id, updatedAt := row.createdAt } = some updates ∧
      db' = { db with requests := requests, updates := updates } := by
  unfold insertRequestRow at h
  obtain ⟨-, h⟩ := guard_ok h
  obtain ⟨requests, hrequests, h⟩ := bind_ok h
  obtain ⟨updates, hupdates, h⟩ := bind_ok h
  exact ⟨requests, updates, okOr_eq_ok.mp hrequests, okOr_eq_ok.mp hupdates,
    (Except.ok.inj h).symm⟩

/-- A new request is none of those that are there. -/
theorem insertRequestRow_writes (now : String) {row : RequestRow} (ht : (db.updatedAt id).isSome)
    (h : db.insertRequestRow row = .ok db') :
    row.id ≠ id ∧ Writes [] now id db db' := by
  obtain ⟨requests, updates, hrequests, hupdates, rfl⟩ := insertRequestRow_ok h
  have hne : row.id ≠ id := by
    rintro rfl
    have hnone : db.updates.get row.id = none := (Table.insert_eq_some hupdates).1
    rw [updatedAt, hnone] at ht
    cases ht
  refine ⟨hne, .same ht ?_ ?_⟩
  · funext c
    cases c with
    | payload =>
        show Cell.payload (column _ _ requests.rows id) = Cell.payload _
        rw [Cell.payload.injEq, (Table.insert_eq_some hrequests).2]
        apply column_insert_iff.mpr
        simpa using hne
    | _ => rfl
  · show (updates.get id).map _ = _
    rw [Table.get_insert hupdates, if_neg hne]
    rfl

theorem indexReceive_ok {new owner : String} {expiresAt : Nat} {p : Payload}
    (h : db.indexReceive new owner expiresAt p = .ok db') : ∃ quoteUses amount receives,
      db.receives.insert (receiveRow new owner expiresAt amount p) = some receives ∧
      db' = { db with quoteUses := quoteUses, receives := receives } := by
  unfold indexReceive at h
  obtain ⟨quoteUses, -, h⟩ := bind_ok h
  obtain ⟨amount, -, h⟩ := bind_ok h
  obtain ⟨-, h⟩ := guard_ok h
  obtain ⟨receives, hinsert, h⟩ := bind_ok h
  exact ⟨quoteUses, amount, receives, okOr_eq_ok.mp hinsert, (Except.ok.inj h).symm⟩

/-- A new receive may have a payment already, but its request is new as well. -/
theorem indexReceive_writes {new owner : String} {expiresAt : Nat} {p : Payload} (hne : new ≠ id)
    (ht : (db.updatedAt id).isSome) (h : db.indexReceive new owner expiresAt p = .ok db') :
    Writes [] now id db db' := by
  obtain ⟨quoteUses, amount, receives, hinsert, rfl⟩ := indexReceive_ok h
  have howner : ∀ hash, (((receives.get hash).map (·.requestId)) == some id) =
      (db.requestOfHash hash == some id) := by
    intro hash
    rw [Table.get_insert hinsert]
    split
    · next hhash =>
        have hnone : db.receives.get hash = none := by
          rw [← hhash]
          exact (Table.insert_eq_some hinsert).1
        rw [requestOfHash, hnone]
        simpa [receiveRow] using hne
    · rfl
  apply Writes.same ht
  · funext c
    cases c with
    | receive =>
        show Cell.receive ((db.receivePayments.rows.filter fun r =>
          (receives.get r.hash).map (·.requestId) == some id).map receiveKeep) = _
        simp only [howner]
        rfl
    | _ => rfl
  · rfl

/-- Settling changes no hash, so every hash keeps its request. -/
@[simp] theorem requestOfHash_settleReceives (p : ReceiveRow → Bool) (hash h : String) :
    (db.settleReceives p hash).requestOfHash h = db.requestOfHash h := by
  show ((db.receives.update p _).get h).map _ = _
  rw [Table.get_update, Option.map_map, requestOfHash]
  congr 1
  funext r
  show (if p r then _ else r).requestId = r.requestId
  split <;> rfl

/-- Whether an invoice is settled is no part of the response. -/
theorem settleReceives_writes (ht : (db.updatedAt id).isSome) (p : ReceiveRow → Bool)
    (hash : String) : Writes [] now id db (db.settleReceives p hash) := by
  apply Writes.same ht
  · funext c
    cases c with
    | receive =>
        show Cell.receive (column (fun r : ReceivePaymentRow =>
          (db.settleReceives p hash).requestOfHash r.hash) _ _ _) = _
        simp only [requestOfHash_settleReceives]
        rfl
    | _ => rfl
  · rfl

/-- A pruned request takes its time with it; the others keep theirs. -/
theorem get_updates_pruneCompatRequests {olderThan : String} {r : RequestRow}
    (hr : r ∈ db.requests.rows) (hold : compatRequest olderThan db.depositClaims r = false) :
    (db.pruneCompatRequests olderThan).updates.get r.id = db.updates.get r.id := by
  apply Table.get_delete_of
  intro u hu
  rw [List.any_eq_false]
  intro r' hr' hdeleted
  rw [Bool.and_eq_true, beq_iff_eq, hu] at hdeleted
  rw [Table.eq_of_key hr' hr hdeleted.1] at hdeleted
  exact Bool.false_ne_true (hold.symm.trans hdeleted.2)

/-- Rows of a request that is kept are kept. -/
theorem pruneCompatRequests_writes {olderThan : String} (ht : (db.updatedAt id).isSome)
    (hkept : ((db.pruneCompatRequests olderThan).requests.get id).isSome) :
    Writes [] now id db (db.pruneCompatRequests olderThan) := by
  obtain ⟨r, hget⟩ := Option.isSome_iff_exists.mp hkept
  obtain ⟨hr, hold⟩ := Table.mem_delete.mp (Table.mem_of_get hget)
  have hid : r.id = id := Table.key_of_get hget
  subst hid
  apply Writes.same ht
  · funext c
    cases c with
    | payload =>
        show Cell.payload _ = Cell.payload _
        rw [Cell.payload.injEq]
        apply column_delete
        intro r' hr' howner
        rw [Table.eq_of_key hr' hr (Option.some.inj howner)]
        exact hold
    | transfers =>
        show Cell.transfers _ = Cell.transfers _
        rw [Cell.transfers.injEq]
        apply column_delete
        intro t _ howner
        -- the request of the row is there before the requests are deleted
        rw [Option.some.inj howner, Table.mem_iff_get.mp hr, Option.isNone_some, Bool.and_false]
    | _ => rfl
  · rw [updatedAt, get_updates_pruneCompatRequests hr hold, updatedAt]

/-- The swap's transfer is written to the list of transfers. -/
theorem upsertReceiveTransfer_writes {transferId requestId owner : String}
    (ht : (db.updatedAt id).isSome)
    (h : db.upsertReceiveTransfer now transferId requestId owner = .ok db') :
    Writes [.transfers] now id db db' := by
  unfold upsertReceiveTransfer at h
  split at h
  · next hinsert =>
      obtain rfl := Except.ok.inj h
      exact insertTransferRow_writes ht hinsert
  · dsimp only at h
    split at h
    · obtain rfl := Except.ok.inj h
      exact updateTransfers_writes ht _ _
    · cases h

/-- `insert_transfer` writes the list of transfers. -/
theorem insertTransfer_writes {sparkId requestId kind status owner : String}
    (ht : (db.updatedAt id).isSome)
    (h : db.insertTransfer now sparkId requestId kind status owner = .ok db') :
    Writes [.transfers] now id db db' := by
  unfold insertTransfer at h
  split at h
  · next hinsert =>
      obtain rfl := Except.ok.inj h
      exact insertTransferRow_writes ht hinsert
  · dsimp only at h
    split at h
    · obtain rfl := Except.ok.inj h
      exact updateTransfers_writes ht _ _
    · cases h

/-- `INSERT OR IGNORE` writes the list or nothing. -/
theorem insertTransferOnce_writes (ht : (db.updatedAt id).isSome) (row : TransferRow) :
    Writes [.transfers] now id db (db.insertTransferOnce now row) := by
  unfold insertTransferOnce
  rcases h : db.insertTransferRow now row with - | db'
  · exact .same ht rfl rfl
  · exact insertTransferRow_writes ht h

/-! ### Methods -/

/-- A new request writes no part of another's response. -/
theorem insertRequest_writes {kind : RequestKind} {new owner createdAt : String} {expiresAt : Nat}
    {payload : Payload} {key : Option String} (ht : (db.updatedAt id).isSome)
    (h : db.insertRequest kind new owner createdAt expiresAt payload key = .ok db') :
    Writes [] now id db db' := by
  unfold insertRequest at h
  obtain ⟨db₁, hrow, h⟩ := bind_ok h
  obtain ⟨hne, hfirst⟩ := insertRequestRow_writes now ht hrow
  cases kind with
  | lightningReceive =>
      exact hfirst.trans (indexReceive_writes hne hfirst.tracked h) (by simp)
  | leavesSwap =>
      obtain rfl := Except.ok.inj h
      exact hfirst

/-- Preparing a send writes the send and its transfer. -/
theorem prepareLightningSend_writes {send : LightningSend} {key network createdAt : String}
    (ht : (db.updatedAt id).isSome)
    (h : db.prepareLightningSend now send key network createdAt = .ok db') :
    Writes [.send, .transfers] now id db db' := by
  unfold prepareLightningSend at h
  obtain ⟨db₁, hrow, h⟩ := bind_ok h
  obtain ⟨db₂, hsend, h⟩ := bind_ok h
  obtain ⟨-, hfirst⟩ := insertRequestRow_writes now ht hrow
  have hsecond := insertSend_writes hfirst.tracked hsend
  have hthird := insertTransferRow_writes hsecond.tracked (okOr_eq_ok.mp h)
  exact (hfirst.trans hsecond (by simp)).trans hthird (by simp)

/-- Binding a payment writes the send. -/
theorem bindLightningPayment_writes {send paymentId : String} (ht : (db.updatedAt id).isSome)
    (h : db.bindLightningPayment now send paymentId = .ok db') :
    Writes [.send] now id db db' := by
  unfold bindLightningPayment at h
  obtain ⟨-, h⟩ := guard_ok h
  obtain ⟨-, h⟩ := guard_ok h
  obtain rfl := Except.ok.inj h
  exact updateSends_writes ht _ _ _

/-- A payment's status is written to the send. -/
theorem setPayment_writes (ht : (db.updatedAt id).isSome) (send : String) (status : SendStatus) :
    Writes [.send] now id db (db.setPayment now send status) := by
  have hsend : Writes [.send] now id db (db.updateSends now _ _ _) := updateSends_writes ht
    (fun r => OpenSsp.Db.sendHasId send r && !r.intent.status.final)
    (OpenSsp.Db.setSendStatus status) fun _ => rfl
  have hpayments : Writes [] now id _ (db.setPayment now send status) :=
    .same hsend.tracked (by funext c; cases c <;> rfl) rfl
  exact (hsend.trans hpayments (by simp)).weaken (by simp)

/-- A claimable invoice is written to the receive. -/
theorem markReceiveClaimable_writes {hash paymentId : String} {amountMsat : Nat}
    (ht : (db.updatedAt id).isSome)
    (h : db.markReceiveClaimable now hash paymentId amountMsat = .ok db') :
    Writes [.receive] now id db db' := by
  unfold markReceiveClaimable at h
  obtain ⟨-, h⟩ := guard_ok h
  obtain ⟨-, h⟩ := guard_ok h
  obtain rfl := Except.ok.inj h
  exact upsertReceivePayment_writes ht _ _ _

/-- The committed swap writes its transfer and the receive. -/
theorem commitLightningReceiveSwap_writes {hash transferId preimage requestId owner : String}
    (ht : (db.updatedAt id).isSome)
    (h : db.commitLightningReceiveSwap now hash transferId preimage requestId owner = .ok db') :
    Writes [.transfers, .receive] now id db db' := by
  unfold commitLightningReceiveSwap at h
  obtain ⟨db₁, htransfer, h⟩ := bind_ok h
  obtain rfl := Except.ok.inj h
  have hfirst := upsertReceiveTransfer_writes ht htransfer
  exact hfirst.trans (upsertReceivePayment_writes hfirst.tracked _ _ _) (by simp)

/-- Submitting a claim writes the receive. -/
theorem markReceiveClaimSubmitted_writes {hash : String} (ht : (db.updatedAt id).isSome)
    (h : db.markReceiveClaimSubmitted now hash = .ok db') : Writes [.receive] now id db db' := by
  unfold markReceiveClaimSubmitted at h
  dsimp only at h
  split at h
  · obtain rfl := Except.ok.inj h
    exact updateReceivePayments_writes ht _ _ _
  · cases h

/-- An offer's binding is outside every response. -/
theorem bindBolt12Receive_writes {offerId hash : String} (ht : (db.updatedAt id).isSome)
    (h : db.bindBolt12Receive offerId hash = .ok db') : Writes [] now id db db' := by
  unfold bindBolt12Receive at h
  dsimp only at h
  split at h
  · obtain rfl := Except.ok.inj h
    exact settleReceives_writes ht _ _
  · cases h

/-- Committing an offer's receive writes the transfer and the receive. -/
theorem commitBolt12Receive_writes (ht : (db.updatedAt id).isSome)
    (offerId paymentHash transferId requestId owner : String) :
    Writes [.transfers, .receive] now id db
      (db.commitBolt12Receive now offerId paymentHash transferId requestId owner) := by
  unfold commitBolt12Receive
  have hfirst : Writes [.transfers] now id db ((db.insertTransferRow now
      { sparkId := transferId, requestId := requestId, kind := "LIGHTNING_RECEIVE",
        status := "TRANSFER_COMPLETED", owner := owner }).getD
      (db.updateTransfers now (·.sparkId == transferId) "TRANSFER_COMPLETED")) := by
    cases h : db.insertTransferRow now
      { sparkId := transferId, requestId := requestId, kind := "LIGHTNING_RECEIVE",
        status := "TRANSFER_COMPLETED", owner := owner } with
    | none => exact updateTransfers_writes ht _ _
    | some db' => exact insertTransferRow_writes ht h
  have hsecond := hfirst.trans (upsertReceivePayment_writes hfirst.tracked
    (OpenSsp.Db.completeReceivePayment transferId
      (OpenSsp.Db.freshReceivePayment offerId .transferCompleted))
    (OpenSsp.Db.completeReceivePayment transferId) fun _ => rfl) (by simp)
  exact (hsecond.trans (settleReceives_writes hsecond.tracked _ _) (by simp)).weaken (by simp)

/-- Reserving an internal send writes the send. -/
theorem reserveInternalSend_writes {seconds : Nat} {send : LightningSend}
    (ht : (db.updatedAt id).isSome) (h : db.reserveInternalSend now seconds send = .ok db') :
    Writes [.send] now id db db' := by
  unfold reserveInternalSend at h
  split at h
  · split at h
    · obtain rfl := Except.ok.inj h
      exact .same ht rfl rfl
    · cases h
  · obtain ⟨-, h⟩ := guard_ok h
    obtain ⟨-, h⟩ := guard_ok h
    obtain ⟨internalPayments, -, h⟩ := bind_ok h
    obtain ⟨-, h⟩ := guard_ok h
    obtain rfl := Except.ok.inj h
    have hsend : Writes [.send] now id db (db.updateSends now _ _ _) := updateSends_writes ht
      (fun r => r.intent.requestId == send.requestId) (OpenSsp.Db.setSendStatus .settling)
      fun _ => rfl
    have hinternal : Writes [] now id _ { db.updateSends now _ _ _ with
        internalPayments := internalPayments } :=
      .same hsend.tracked (by funext c; cases c <;> rfl) rfl
    exact (hsend.trans hinternal (by simp)).weaken (by simp)

/-- Finishing an internal send writes both sides and the transfers. -/
theorem finishInternalSend_writes {send : LightningSend} (ht : (db.updatedAt id).isSome)
    (h : db.finishInternalSend now send = .ok db') :
    Writes [.send, .receive, .transfers] now id db db' := by
  unfold finishInternalSend at h
  dsimp only at h
  split at h
  · cases h
  · obtain rfl := Except.ok.inj h
    have hfirst : Writes [.send] now id db (db.updateSends now _ _ _) := updateSends_writes ht
      (fun r => r.intent.requestId == send.requestId)
      (fun r => { OpenSsp.Db.setSendStatus .succeeded r with lastError := none }) fun _ => rfl
    have hsecond := hfirst.trans (updateReceivePayments_writes hfirst.tracked
      (fun r => r.hash == send.expectedId) (fun r => { r with status := .transferCompleted })
      fun _ => rfl) (by simp)
    exact hsecond.trans (updateTransfers_writes hsecond.tracked _ _) (by simp)

/-- A new exit writes the exit. -/
theorem insertCoopExit_writes {record : ExitRecord} (ht : (db.updatedAt id).isSome)
    (h : db.insertCoopExit now record = .ok db') : Writes [.exit] now id db db' := by
  unfold insertCoopExit at h
  obtain ⟨db₁, hexit, h⟩ := bind_ok h
  have hfirst := insertExit_writes ht hexit
  obtain ⟨-, hsecond⟩ := insertRequestRow_writes now hfirst.tracked h
  exact (hfirst.trans hsecond (by simp)).weaken (by simp)

/-- An exit's progress writes the exit and its transfers. -/
theorem updateCoopExit_writes (ht : (db.updatedAt id).isSome) (record : ExitRecord) :
    Writes [.exit, .transfers] now id db (db.updateCoopExit now record) := by
  have hfirst : Writes [.exit] now id db (db.updateExits now record) := updateExits_writes ht record
  unfold updateCoopExit
  split
  · exact hfirst.trans (updateTransfers_writes hfirst.tracked _ _) (by simp)
  · exact hfirst.weaken (by simp)

/-- A new fixed claim is outside the response until it is saved. -/
theorem insertDepositClaim_writes {r : DepositClaim} {createdAt : String}
    (ht : (db.updatedAt id).isSome) (h : db.insertDepositClaim r createdAt = .ok db') :
    Writes [] now id db db' := by
  unfold insertDepositClaim at h
  obtain ⟨db₁, hrow, h⟩ := bind_ok h
  obtain ⟨-, hfirst⟩ := insertRequestRow_writes now ht hrow
  obtain rfl := Except.ok.inj h
  exact hfirst.trans (.same hfirst.tracked (by funext c; cases c <;> rfl) rfl) fun _ _ => by simp

/-- A fixed claim's progress writes the payload and the transfers. -/
theorem saveDepositClaim_writes (ht : (db.updatedAt id).isSome) (r : DepositClaim) :
    Writes [.payload, .transfers] now id db (db.saveDepositClaim now r) := by
  have hfirst : Writes [.payload] now id db (db.updatePayload now (fun q => q.id == r.id) fun p =>
    (p.set "status" (.string r.status)).set "phase" (.string r.phase)) :=
    updatePayload_writes ht _ _
  unfold saveDepositClaim
  split
  · exact hfirst.trans (insertTransferOnce_writes hfirst.tracked _) (by simp)
  · exact hfirst.weaken (by simp)

/-- A new instant claim is outside the response until it is saved. -/
theorem insertInstantClaim_writes {r : InstantClaim} {createdAt : String}
    (ht : (db.updatedAt id).isSome) (h : db.insertInstantClaim r createdAt = .ok db') :
    Writes [] now id db db' := by
  unfold insertInstantClaim at h
  obtain ⟨db₁, hrow, h⟩ := bind_ok h
  obtain ⟨-, hfirst⟩ := insertRequestRow_writes now ht hrow
  obtain rfl := Except.ok.inj h
  exact hfirst.trans (.same hfirst.tracked (by funext c; cases c <;> rfl) rfl) fun _ _ => by simp

/-- An instant claim's progress writes the payload and the transfers. -/
theorem saveInstantClaim_writes (ht : (db.updatedAt id).isSome) (r : InstantClaim) :
    Writes [.payload, .transfers] now id db (db.saveInstantClaim now r) := by
  have hfirst : Writes [.payload] now id db
      (db.updatePayload now (fun q => q.id == r.id) fun _ => instantPayload r) :=
    updatePayload_writes ht _ _
  unfold saveInstantClaim
  split
  · exact hfirst.trans (insertTransferOnce_writes hfirst.tracked _) (by simp)
  · exact hfirst.weaken (by simp)

end Db

/-- Whatever the program writes, a request that is there before and after has its `updated_at`
rewritten exactly when what is saved of it changes. -/
theorem Write.exec_writes {now id : String} {w : Write} {db db' : Db}
    (ht : (db.updatedAt id).isSome) (hkept : (db'.requests.get id).isSome)
    (h : w.exec now db = .ok db') : ∃ parts, Writes parts now id db db' := by
  cases w with
  | insertRequest => exact ⟨_, Db.insertRequest_writes ht h⟩
  | prepareLightningSend => exact ⟨_, Db.prepareLightningSend_writes ht h⟩
  | bindLightningPayment => exact ⟨_, Db.bindLightningPayment_writes ht h⟩
  | markReceiveClaimable => exact ⟨_, Db.markReceiveClaimable_writes ht h⟩
  | commitLightningReceiveSwap => exact ⟨_, Db.commitLightningReceiveSwap_writes ht h⟩
  | markReceiveClaimSubmitted => exact ⟨_, Db.markReceiveClaimSubmitted_writes ht h⟩
  | bindBolt12Receive => exact ⟨_, Db.bindBolt12Receive_writes ht h⟩
  | insertTransfer => exact ⟨_, Db.insertTransfer_writes ht h⟩
  | reserveInternalSend => exact ⟨_, Db.reserveInternalSend_writes ht h⟩
  | finishInternalSend => exact ⟨_, Db.finishInternalSend_writes ht h⟩
  | insertCoopExit => exact ⟨_, Db.insertCoopExit_writes ht h⟩
  | insertDepositClaim => exact ⟨_, Db.insertDepositClaim_writes ht h⟩
  | insertInstantClaim => exact ⟨_, Db.insertInstantClaim_writes ht h⟩
  | pruneCompatRequests =>
      obtain rfl := Except.ok.inj h
      exact ⟨_, Db.pruneCompatRequests_writes ht hkept⟩
  | setPayment =>
      obtain rfl := Except.ok.inj h
      exact ⟨_, Db.setPayment_writes ht _ _⟩
  | commitBolt12Receive =>
      obtain rfl := Except.ok.inj h
      exact ⟨_, Db.commitBolt12Receive_writes ht _ _ _ _ _⟩
  | updateCoopExit =>
      obtain rfl := Except.ok.inj h
      exact ⟨_, Db.updateCoopExit_writes ht _⟩
  | saveDepositClaim =>
      obtain rfl := Except.ok.inj h
      exact ⟨_, Db.saveDepositClaim_writes ht _⟩
  | saveInstantClaim =>
      obtain rfl := Except.ok.inj h
      exact ⟨_, Db.saveInstantClaim_writes ht _⟩
  -- the others are one statement
  | setLightningSendRouteCltv | beginLightningSubmission | lightningSubmissionError
  | recordLightningFailure =>
      obtain rfl := Except.ok.inj h
      exact ⟨_, Db.updateSends_writes ht _ _ _⟩
  | recordLightningProof | saveSwapLeaves | completeSwap =>
      obtain rfl := Except.ok.inj h
      exact ⟨_, Db.updatePayload_writes ht _ _⟩
  | setReceiveStatus =>
      obtain rfl := Except.ok.inj h
      exact ⟨_, Db.upsertReceivePayment_writes ht _ _ _⟩
  | failExternalReceive =>
      obtain rfl := Except.ok.inj h
      exact ⟨_, Db.updateReceivePayments_writes ht _ _ _⟩

end OpenSsp.Updates
