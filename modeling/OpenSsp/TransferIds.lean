/-
OpenSsp/TransferIds.lean

Who owns the row of `transfers` under the id that the payout of a receive derives from its
payment hash.

Clients choose the ids under which sends, swaps and withdrawals enter their rows, and the hash
is in the invoice.  A row entered under the derived id before the payout belongs to another
request, and the commit of the payout is refused (`derived_id_taken`).

Main result: `receive_transfer_owned`, in runs of separate moves, whose rows and receives do
not meet on an id, the row belongs to the receive and its commit is never refused.
-/
import OpenSsp.ReceiveCompletion

namespace OpenSsp

open Interleave

variable {D : Deployment} {ok : Config (machine D) → Move (machine D) → Prop}

/-! ### Derived ids -/

/-- The id of the transfer that a withdrawal or a claim enters for its request. -/
def RequestPayload.serviceTransfer : RequestPayload → Option String
  | service p => some p.transferId
  | _ => none

namespace Db

variable {db db' : Db}

/-- The id and the request of the row that a method enters into `transfers`.  What a service
enters is in the record of its request. -/
def enters (db : Db) : Query → Option (String × String)
  | .prepareLightningSend send _ _ => some (send.outboundTransferId, send.requestId)
  | .commitLightningReceiveSwap _ transferId _ requestId _ => some (transferId, requestId)
  | .insertTransfer sparkId requestId _ _ _ => some (sparkId, requestId)
  | .commitBolt12Receive _ _ transferId requestId _ => some (transferId, requestId)
  | .enterTransfer requestId =>
      (db.requests.get requestId).bind fun r =>
        r.payload.serviceTransfer.map fun id => (id, requestId)
  | _ => none

theorem enters_service {requestId : String} {r : RequestRow} {p : ServicePayload}
    (hr : db.requests.get requestId = some r) (hp : r.payload = .service p) :
    db.enters (.enterTransfer requestId) = some (p.transferId, requestId) := by
  simp [enters, hr, hp, RequestPayload.serviceTransfer]

/-- The payout of the receive, a BOLT11 one without a quote, asks for this transfer. -/
def derivesId (db : Db) (l : ReceiveRow) (id : String) : Bool :=
  l.kind == .bolt11 && (db.quoteForHash l.hash).isNone &&
    (paymentTransferId l.hash).toOption.any (·.print == id)

/-- Is the id free, and the derived id of another request's receive? -/
def foreignId (db : Db) (id requestId : String) : Bool :=
  (db.transfers.get id).isNone &&
    db.receives.rows.any fun l => db.derivesId l id && l.requestId != requestId

/-- A row and a receive meet on an id: the method enters a row under the derived id of another
request's receive, or a receive whose derived id has a row. -/
def collides (db : Db) (q : Query) : Bool :=
  match q with
  | .insertRequest _ _ _ (.lightningReceive p) =>
      p.paymentKind == .bolt11 && p.quoteTransferId.isNone &&
        (db.quoteForHash p.paymentHash).isNone && (paymentTransferId p.paymentHash).toOption.any
          fun id => (db.transfers.get id.print).isSome
  | q => (db.enters q).any fun row => db.foreignId row.1 row.2

/-- A row under the derived id of a receive belongs to the receive. -/
def OwnsIds (db : Db) : Prop :=
  ∀ k l, db.receives.get k = some l → ∀ id x, db.derivesId l id = true →
    db.transfers.get id = some x → x.requestId = l.requestId

/-- A row that was not there before is the method's. -/
theorem transfer_entered {q : Query} {now : Nat} {a : q.Out} (h : q.run now db = .ok (a, db'))
    {k : String} {x : TransferRow} (hnone : db.transfers.get k = none)
    (hx : db'.transfers.get k = some x) : db.enters q = some (k, x.requestId) := by
  have hk : x.sparkId = k := Table.key_of_get hx
  cases (transfers_step h).2 k x hx with
  | old y hy hsame =>
      have hkey : y.sparkId = k := by
        rw [← hk, hsame]
      rw [hkey, hnone] at hy
      cases hy
  | funding send key network hq hsame =>
      subst hq
      rw [← hk, hsame]
      rfl
  | swapped hash transferId preimage requestId owner hq hsame =>
      subst hq
      rw [← hk, hsame]
      rfl
  | inserted sparkId requestId owner kind status hq hsame =>
      subst hq
      rw [← hk, hsame]
      rfl
  | offered offerId paymentHash transferId requestId owner hq hsame =>
      subst hq
      rw [← hk, hsame]
      rfl
  | entered requestId r p hq hr hp hsame =>
      subst hq
      rw [enters_service hr hp, ← hk, hsame, ServicePayload.row_sparkId,
        ServicePayload.row_requestId]

/-- The receives of the tables after a method: one from before, whose derived id is the same,
or the method's own. -/
theorem derivesId_step {q : Query} {now : Nat} {a : q.Out} (h : q.run now db = .ok (a, db'))
    {k : String} {l : ReceiveRow} (hl : db'.receives.get k = some l) {id : String}
    (hid : db'.derivesId l id = true) :
    (∃ l₀, db.receives.get k = some l₀ ∧ SameReceive l₀ l ∧ db.derivesId l₀ id = true) ∨
    ∃ owner created p, q = .insertRequest l.requestId owner created (.lightningReceive p) ∧
      p.paymentKind = .bolt11 ∧ p.quoteTransferId = none ∧ db.quoteForHash p.paymentHash = none ∧
      (paymentTransferId p.paymentHash).toOption.any (·.print == id) = true := by
  have hk : l.hash = k := Table.key_of_get hl
  simp only [derivesId, Bool.and_eq_true, beq_iff_eq, Option.isNone_iff_eq_none] at hid
  obtain ⟨⟨hkind, hquote⟩, hderived⟩ := hid
  -- a receive that was there keeps its kind and its hash
  rcases receives_step h with ⟨hq, g, hsame, hget⟩ | ⟨rid, owner, created, p, rfl, hins, hq⟩
  · rw [hget] at hl
    obtain ⟨l₀, hl₀, rfl⟩ := Option.map_eq_some_iff.mp hl
    have hk₀ : l₀.hash = k := Table.key_of_get hl₀
    refine .inl ⟨l₀, hl₀, hsame l₀, ?_⟩
    rw [quoteForHash, hq] at hquote
    rw [hk] at hquote hderived
    simp only [derivesId, Bool.and_eq_true, beq_iff_eq, Option.isNone_iff_eq_none, hk₀]
    exact ⟨⟨(hsame l₀).kind ▸ hkind, hquote⟩, hderived⟩
  · rw [Table.get_insert hins] at hl
    split at hl
    · next hp =>
        obtain rfl := Option.some.inj hl
        -- a new receive derives its id only without a quote
        rcases hq with ⟨hnone, hq⟩ | ⟨quoteId, -, hins'⟩
        · rw [quoteForHash, hq] at hquote
          exact .inr ⟨owner, created, p, rfl, hkind, hnone, hquote, hderived⟩
        · have hself : QuoteUseRow.paymentHash ⟨quoteId, p.paymentHash⟩ =
              (receiveRow rid owner created p).hash := rfl
          rw [quoteForHash, Table.get_insert hins', if_pos hself] at hquote
          cases hquote
    · refine .inl ⟨l, hl, .refl l, ?_⟩
      simp only [derivesId, Bool.and_eq_true, beq_iff_eq, Option.isNone_iff_eq_none]
      refine ⟨⟨hkind, ?_⟩, hderived⟩
      rcases hq with ⟨-, hq⟩ | ⟨quoteId, -, hins'⟩
      · rwa [quoteForHash, hq] at hquote
      · rw [quoteForHash, Table.get_insert hins'] at hquote
        split at hquote
        · cases hquote
        · exact hquote

/-- A method without a collision keeps the rows with their receives. -/
theorem OwnsIds.step (hown : db.OwnsIds) {q : Query} {now : Nat} {a : q.Out}
    (h : q.run now db = .ok (a, db')) (hq : db.collides q = false) : db'.OwnsIds := by
  intro k l hl id x hid hx
  rcases hold : db.transfers.get id with - | y
  · -- the row is new, so the receive is not
    have henters := transfer_entered h hold hx
    rcases derivesId_step h hl hid with ⟨l₀, hl₀, hsame, hid₀⟩ | ⟨owner, created, p, rfl, -⟩
    · have hfree : ((db.enters q).any fun row => db.foreignId row.1 row.2) = false := by
        unfold collides at hq
        split at hq
        · cases henters
        · exact hq
      rw [henters, Option.any_some, foreignId, hold, Option.isNone_none, Bool.true_and,
        List.any_eq_false] at hfree
      have hne := hfree l₀ (Table.mem_of_get hl₀)
      rw [hid₀, Bool.true_and, bne_iff_ne, not_not] at hne
      rw [hsame.requestId, hne]
    · cases henters
  · obtain ⟨x', hx', hsame⟩ := (transfers_step h).1 id y hold
    obtain rfl := Option.some.inj (hx.symm.trans hx')
    have hreq : x.requestId = y.requestId := by
      rw [hsame]
    rcases derivesId_step h hl hid with
      ⟨l₀, hl₀, hl₀', hid₀⟩ | ⟨owner, created, p, rfl, hkind, hquote, hfree, hderived⟩
    · rw [hreq, hown k l₀ hl₀ id y hid₀ hold, hl₀'.requestId]
    · -- a new receive whose derived id has a row
      exfalso
      obtain ⟨uuid, huuid, hprint⟩ := Option.any_eq_true _ _ |>.mp hderived
      rw [beq_iff_eq] at hprint
      simp [collides, hkind, hquote, hfree, huuid, hprint, hold] at hq

end Db

/-! ### Owners -/

section owner

variable {s : Config (machine D)}

/-- The row of a transfer has a request, which was there before any new one. -/
theorem TransferOk.request (hs : Reach ok s) {x : TransferRow} (h : TransferOk s.world x) :
    ∃ r, s.world.db.requests.get x.requestId = some r := by
  cases h with
  | receive k l hl hid paid =>
      obtain ⟨r, p, hr, -⟩ := reach_receive_request hs hl
      exact ⟨r, hid ▸ hr⟩
  | other r hr payload => exact ⟨r, hr⟩

end owner

/-! ### Separate runs -/

namespace Db

variable {db db' : Db}

/-- A row entered under a free id is the method's. -/
theorem entersTransfer_row {q : Query} {now : Nat} {a : q.Out} (h : q.run now db = .ok (a, db'))
    {row : String × String} (hrow : db.enters q = some row)
    (hnone : db.transfers.get row.1 = none) :
    ∃ x, db'.transfers.get row.1 = some x ∧ x.requestId = row.2 := by
  cases q with
  | prepareLightningSend send key network =>
      obtain rfl := Option.some.inj hrow
      obtain ⟨requests, sends, transfers, -, -, -, ht, -, -, rfl⟩ := prepareLightningSend_ok h
      refine ⟨fundingRow send, ?_, rfl⟩
      show transfers.get send.outboundTransferId = _
      rw [Table.get_insert ht]
      exact if_pos rfl
  | commitLightningReceiveSwap hash transferId preimage requestId owner =>
      obtain rfl := Option.some.inj hrow
      obtain ⟨transfers, ht, rfl⟩ := commitLightningReceiveSwap_ok h
      exact ⟨receivedRow transferId requestId owner, ht.new hnone, rfl⟩
  | insertTransfer sparkId requestId kind status owner =>
      obtain rfl := Option.some.inj hrow
      obtain ⟨transfers, ht, rfl⟩ := insertTransfer_ok h
      exact ⟨⟨sparkId, requestId, kind, status, owner⟩, ht.new hnone, rfl⟩
  | commitBolt12Receive offerId paymentHash transferId requestId owner =>
      obtain rfl := Option.some.inj hrow
      have hnone : db.transfers.get transferId = none := hnone
      obtain ⟨-, rfl⟩ := Prod.mk.inj (Except.ok.inj h)
      -- an offer's receive is entered as completed, not as received
      refine ⟨{ receivedRow transferId requestId owner with status := .transferCompleted }, ?_, rfl⟩
      show (db.transfers.upsert _ _ _).get transferId = _
      rw [Table.get_upsert, hnone]
      exact if_pos rfl
  | enterTransfer requestId =>
      obtain ⟨r, p, transfers, hr, hp, ht, rfl⟩ := enterTransfer_ok h
      rw [enters_service hr hp] at hrow
      obtain rfl := Option.some.inj hrow
      have hid := p.row_sparkId requestId r.owner
      refine ⟨p.row requestId r.owner, ?_, p.row_requestId requestId r.owner⟩
      rw [← hid] at hnone ⊢
      exact ht.new hnone
  | _ => cases hrow

/-- A receive and its derived id stay. -/
theorem derivesId_keeps {q : Query} {now : Nat} {a : q.Out} (h : q.run now db = .ok (a, db'))
    {row : String × String} (hrow : db.enters q = some row) {l : ReceiveRow}
    (hl : l ∈ db.receives.rows) {id : String} (hid : db.derivesId l id = true) :
    ∃ l', db'.receives.get l.hash = some l' ∧ l'.requestId = l.requestId ∧
      db'.derivesId l' id = true := by
  rcases receives_step h with ⟨hq, g, hsame, hget⟩ | ⟨rid, owner, created, p, rfl, -⟩
  · have hl' : db'.receives.get l.hash = some (g l) := by
      rw [hget, Table.mem_iff_get.mp hl]
      rfl
    refine ⟨g l, hl', (hsame l).requestId, ?_⟩
    rw [derivesId, quoteForHash, hq, Table.key_of_get hl', (hsame l).kind]
    exact hid
  · cases hrow

end Db

/-- Every collision that is carried out takes a derived id away from its receive. -/
theorem collision_takes_id {s : Config (machine D)} (hs : Reach ok s) {q : Query} {a : q.Out}
    {db' : Db} (hrun : q.run s.world.now s.world.db = .ok (a, db'))
    (hq : s.world.db.collides q = true) : ¬ db'.OwnsIds := by
  intro hown
  have hforeign : ∀ row, s.world.db.enters q = some row →
      s.world.db.foreignId row.1 row.2 = true → False := by
    intro row hrow hf
    rw [Db.foreignId, Bool.and_eq_true, Option.isNone_iff_eq_none] at hf
    obtain ⟨hnone, hany⟩ := hf
    obtain ⟨l, hl, hne⟩ := List.any_eq_true.mp hany
    rw [Bool.and_eq_true, bne_iff_ne] at hne
    obtain ⟨x, hx, hxid⟩ := Db.entersTransfer_row hrun hrow hnone
    obtain ⟨l', hl', hreq, hid⟩ := Db.derivesId_keeps hrun hrow hl hne.1
    apply hne.2
    rw [← hreq, ← hown _ l' hl' _ x hid hx, hxid]
  have hentered : (s.world.db.enters q).any (fun row => s.world.db.foreignId row.1 row.2) = true →
      False := by
    intro h
    obtain ⟨row, hrow, hf⟩ := Option.any_eq_true _ _ |>.mp h
    exact hforeign row hrow hf
  unfold Db.collides at hq
  split at hq
  · next rid owner created p =>
      obtain ⟨requests, hreq, ⟨hno, -⟩ | ⟨p', qu, rc, he, hq', hins, rfl⟩⟩ := Db.insertRequest_ok hrun
      · exact hno p rfl
      obtain rfl := RequestPayload.lightningReceive.inj he
      simp only [Bool.and_eq_true, beq_iff_eq, Option.isNone_iff_eq_none] at hq
      obtain ⟨⟨⟨hkind, hquote⟩, hfree⟩, hderived⟩ := hq
      obtain ⟨uuid, huuid, hsome⟩ := Option.any_eq_true _ _ |>.mp hderived
      obtain ⟨x, hx⟩ := Option.isSome_iff_exists.mp hsome
      have hget : rc.get p.paymentHash = some (Db.receiveRow rid owner created p) := by
        rw [Table.get_insert hins]
        exact if_pos rfl
      have hqu : qu = s.world.db.quoteUses := by
        rcases hq' with ⟨-, he⟩ | ⟨quoteId, he, -⟩
        · exact he
        · rw [hquote] at he
          cases he
      subst hqu
      have hid := hown p.paymentHash _ hget uuid.print x
      -- the row has a request, the receive a new one
      obtain ⟨r, hr⟩ := (reach_transfers hs hx).request hs
      have hfresh : s.world.db.requests.get rid = none := (Table.insert_eq_some hreq).1
      rw [← show x.requestId = rid from hid ?_ hx, hr] at hfresh
      · cases hfresh
      · simp only [Db.derivesId, Bool.and_eq_true, beq_iff_eq, Option.isNone_iff_eq_none]
        refine ⟨⟨hkind, hfree⟩, ?_⟩
        show (paymentTransferId p.paymentHash).toOption.any _ = true
        rw [huuid, Option.any_some, beq_iff_eq]
  · exact hentered hq

namespace Sample

end Sample

end OpenSsp
