/-
OpenSsp/DbSteps.lean

What one database method can do to each table, said once: an inversion lemma for every
method that can fail, and for every table the list of all changes a method can make to
it (`SendStep`, `ReceiveStep`, …) with the theorem that nothing else happens
(`sends_step`, `receives_step`, …).
-/
import OpenSsp.Contract

namespace OpenSsp

open Interleave

/-! ### Which method writes which table -/

inductive DbTable where
  | requests
  | sends
  | receives
  | receivePayments
  | quoteUses
  | transfers
  | payments
  | internalPayments
deriving DecidableEq

/-- The tables a method can write. -/
def Query.writes : Query → List DbTable
  | insertRequest .. => [.requests, .receives, .quoteUses]
  | prepareLightningSend .. => [.requests, .sends, .transfers]
  | setLightningSendRouteCltv .. => [.sends]
  | beginLightningSubmission .. => [.sends]
  | bindLightningPayment .. => [.sends]
  | lightningSubmissionError .. => [.sends]
  | recordLightningProof .. => [.requests]
  | recordLightningFailure .. => [.sends]
  | setPayment .. => [.sends, .payments]
  | markReceiveClaimable .. => [.receivePayments]
  | commitLightningReceiveSwap .. => [.transfers, .receivePayments]
  | markReceiveClaimSubmitted .. => [.receivePayments]
  | insertTransfer .. => [.transfers]
  | enterTransfer .. => [.transfers]
  | completeTransfer .. => [.transfers]
  | setReceiveStatus .. => [.receivePayments]
  | failExternalReceive .. => [.receivePayments]
  | bindBolt12Receive .. => [.receives]
  | commitBolt12Receive .. => [.transfers, .receivePayments, .receives]
  | reserveInternalSend .. => [.internalPayments, .sends]
  | finishInternalSend .. => [.sends, .receivePayments, .transfers]
  | _ => []

/-- The receive whose rows a method can change. -/
def Query.receiveKey : Query → Option String
  | .insertRequest _ _ _ (.lightningReceive p) => some p.paymentHash
  | .markReceiveClaimable hash .. => some hash
  | .commitLightningReceiveSwap hash .. => some hash
  | .markReceiveClaimSubmitted hash => some hash
  | .setReceiveStatus hash _ => some hash
  | .failExternalReceive hash _ => some hash
  | .bindBolt12Receive offerId _ => some offerId
  | .commitBolt12Receive offerId .. => some offerId
  | .finishInternalSend send => some send.expectedId
  | _ => none

namespace Db

variable {db db' : Db}

/-! ### Methods that can fail -/

theorem addRequest_ok {row : RequestRow} (h : db.addRequest row = .ok db') :
    ∃ requests, db.requests.insert row = some requests ∧
      db' = { db with requests := requests } := by
  unfold addRequest at h
  obtain ⟨-, h⟩ := guard_ok h
  obtain ⟨requests, hr, h⟩ := bind_ok h
  exact ⟨requests, okOr_eq_ok.mp hr, (Except.ok.inj h).symm⟩

/-- The unique index: no old row has the owner and the key of the new one. -/
theorem addRequest_fresh {row : RequestRow} (h : db.addRequest row = .ok db') {key : String}
    (hkey : row.idempotencyKey = some key) (hne : key ≠ "") :
    ∀ y ∈ db.requests.rows, y.owner = row.owner → y.idempotencyKey ≠ some key := by
  intro y hy howner hy'
  unfold addRequest at h
  obtain ⟨hfree, -⟩ := guard_ok h
  refine hfree ⟨by simp [hkey], by simpa [hkey] using hne, List.any_eq_true.mpr ⟨y, hy, ?_⟩⟩
  simp [howner, hy', hkey]

/-- The row of `requests` that `insert_request` writes. -/
def requestRow (id owner : String) (created : Nat) (payload : RequestPayload) : RequestRow :=
  { id := id, owner := owner, createdAt := created, payload := payload, idempotencyKey := none,
    proof := none }

/-- The row of `lightning_receives` that comes with it. -/
def receiveRow (id owner : String) (created : Nat) (p : ReceivePayload) : ReceiveRow :=
  { hash := p.paymentHash, requestId := id, owner := owner,
    receiver := p.receiverIdentityPubkey, amountSats := p.amountSats, invoice := p.invoice,
    expiresAt := created + p.expirySecs, kind := p.paymentKind, settledPaymentHash := none }

/-- The quote of a receive, if it has one, is entered for its hash. -/
def EntersQuote (p : ReceivePayload) (t t' : Table QuoteUseRow.paymentHash) : Prop :=
  (p.quoteTransferId = none ∧ t' = t) ∨
    ∃ quoteId, p.quoteTransferId = some quoteId ∧ t.insert ⟨quoteId, p.paymentHash⟩ = some t'

theorem EntersQuote.get_of_ne {p : ReceivePayload} {t t' : Table QuoteUseRow.paymentHash}
    (h : EntersQuote p t t') {k : String} (hk : k ≠ p.paymentHash) : t'.get k = t.get k := by
  rcases h with ⟨-, rfl⟩ | ⟨quoteId, -, hins⟩
  · rfl
  · rw [Table.get_insert hins, if_neg (fun e => hk e.symm)]

theorem indexReceive_ok {id owner : String} {created : Nat} {p : ReceivePayload}
    (h : db.indexReceive id owner created p = .ok db') :
    ∃ quoteUses receives, EntersQuote p db.quoteUses quoteUses ∧
      db.receives.insert (receiveRow id owner created p) = some receives ∧
      db' = { db with quoteUses := quoteUses, receives := receives } := by
  -- the rest of the function, once the quote has been entered
  have hrest : ∀ quoteUses : Table QuoteUseRow.paymentHash, EntersQuote p db.quoteUses quoteUses →
      (do
        if p.amountSats = 0 then throw "receive amount_sats is missing or not positive"
        if db.receives.rows.any (·.requestId == id) then
          throw "UNIQUE constraint failed: lightning_receives.request_id"
        let receives ← okOr "UNIQUE constraint failed: lightning_receives.hash" (db.receives.insert
          (receiveRow id owner created p))
        return { db with quoteUses := quoteUses, receives := receives } : Except String Db)
        = .ok db' →
      ∃ quoteUses receives, EntersQuote p db.quoteUses quoteUses ∧
        db.receives.insert (receiveRow id owner created p) = some receives ∧
        db' = { db with quoteUses := quoteUses, receives := receives } := by
    intro quoteUses hq h
    obtain ⟨-, h⟩ := guard_ok h
    obtain ⟨-, h⟩ := guard_ok h
    obtain ⟨receives, hr, h⟩ := bind_ok h
    exact ⟨quoteUses, receives, hq, okOr_eq_ok.mp hr, (Except.ok.inj h).symm⟩
  unfold indexReceive at h
  rcases hq : p.quoteTransferId with - | quoteId
  · simp only [hq] at h
    exact hrest db.quoteUses (.inl ⟨hq, rfl⟩) h
  · simp only [hq] at h
    obtain ⟨-, h⟩ := guard_ok h
    obtain ⟨quoteUses, hins, h⟩ := bind_ok h
    exact hrest quoteUses (.inr ⟨quoteId, hq, okOr_eq_ok.mp hins⟩) h

theorem insertRequest_ok {id owner : String} {created : Nat} {payload : RequestPayload}
    {u : Unit} (h : db.insertRequest id owner created payload = .ok (u, db')) :
    ∃ requests, db.requests.insert (requestRow id owner created payload) = some requests ∧
      (((∀ p, payload ≠ .lightningReceive p) ∧ db' = { db with requests := requests }) ∨
        ∃ p quoteUses receives, payload = .lightningReceive p ∧
          EntersQuote p db.quoteUses quoteUses ∧
          db.receives.insert (receiveRow id owner created p) = some receives ∧
          db' = { db with requests := requests, quoteUses := quoteUses, receives := receives }) := by
  obtain ⟨db₁, hadd, h⟩ := bind_ok h
  obtain ⟨requests, hins, rfl⟩ := addRequest_ok hadd
  refine ⟨requests, hins, ?_⟩
  cases payload with
  | lightningReceive p =>
      right
      obtain ⟨db₂, hidx, h⟩ := bind_ok h
      obtain ⟨quoteUses, receives, hq, hr, rfl⟩ := indexReceive_ok hidx
      exact ⟨p, quoteUses, receives, rfl, hq, hr, (Prod.mk.inj (Except.ok.inj h)).2.symm⟩
  | _ => exact .inl ⟨by simp, (Prod.mk.inj (Except.ok.inj h)).2.symm⟩

/-- The row of `lightning_sends` that a prepared intent gets. -/
def preparedRow (send : LightningSend) : SendRow :=
  ⟨{ send with paymentId := none, status := .prepared }, none⟩

/-- The row of `transfers` that keeps its funding for it. -/
def fundingRow (send : LightningSend) : TransferRow :=
  { sparkId := send.outboundTransferId, requestId := send.requestId,
    kind := match send.kind with
      | .bolt11 => .preimageSwap
      | .bolt12 => .bolt12Funding,
    status := .pending, owner := send.owner }

theorem prepareLightningSend_ok {send : LightningSend} {key network : String} {now : Nat}
    {row : RequestRow} (h : db.prepareLightningSend send key network now = .ok (row, db')) :
    ∃ requests sends transfers, (row.proof = none ∧ row.id = send.requestId ∧
        ∃ p, row.payload = .lightningSend p) ∧
      db.requests.insert row = some requests ∧
      db.sends.insert (preparedRow send) = some sends ∧
      db.transfers.insert (fundingRow send) = some transfers ∧
      (∀ r ∈ db.sends.rows, r.intent.outboundTransferId ≠ send.outboundTransferId) ∧
      (send.kind = .bolt11 → send.expectedId ≠ "" → ∀ r ∈ db.sends.rows,
        r.intent.kind = .bolt11 → r.intent.expectedId ≠ send.expectedId) ∧
      db' = { db with requests := requests, sends := sends, transfers := transfers } := by
  obtain ⟨db₁, hadd, h⟩ := bind_ok h
  obtain ⟨requests, hins, rfl⟩ := addRequest_ok hadd
  obtain ⟨hout, h⟩ := guard_ok h
  obtain ⟨hexp, h⟩ := guard_ok h
  obtain ⟨sends, hs, h⟩ := bind_ok h
  obtain ⟨transfers, ht, h⟩ := bind_ok h
  obtain ⟨rfl, rfl⟩ := Prod.mk.inj (Except.ok.inj h)
  refine ⟨requests, sends, transfers, ⟨rfl, rfl, _, rfl⟩, hins, okOr_eq_ok.mp hs, okOr_eq_ok.mp ht,
    ?_, ?_, rfl⟩
  · intro r hr heq
    exact hout (List.any_eq_true.mpr ⟨r, hr, by simpa using heq⟩)
  · intro hk he r hr hrk heq
    exact hexp ⟨hk, he, List.any_eq_true.mpr ⟨r, hr, by simp [hrk, heq]⟩⟩

theorem bindLightningPayment_ok {id paymentId : String} {u : Unit}
    (h : db.bindLightningPayment id paymentId = .ok (u, db')) :
    (∀ r ∈ db.sends.rows, r.intent.paymentId = some paymentId → r.intent.requestId = id) ∧
      db' = { db with
        sends := db.sends.update (fun r => r.intent.requestId == id &&
          (r.intent.paymentId == none || r.intent.paymentId == some paymentId))
          (bindSend paymentId) } := by
  unfold bindLightningPayment at h
  obtain ⟨-, h⟩ := guard_ok h
  obtain ⟨hu, h⟩ := guard_ok h
  refine ⟨fun r hr hp => ?_, (Prod.mk.inj (Except.ok.inj h)).2.symm⟩
  by_contra hne
  exact hu (List.any_eq_true.mpr ⟨r, hr, by simp [hp, hne]⟩)

theorem markReceiveClaimable_ok {hash paymentId : String} {amount : Nat} {u : Unit}
    (h : db.markReceiveClaimable hash paymentId amount = .ok (u, db')) :
    ((db.receivePayment hash).paymentId = none ∨
        (db.receivePayment hash).paymentId = some paymentId) ∧
      db' = { db with
        receivePayments := db.receivePayments.upsert
          (claimReceivePayment paymentId amount (freshReceivePayment hash .htlcReceived))
          (claimReceivePayment paymentId amount) } := by
  unfold markReceiveClaimable at h
  obtain ⟨-, h⟩ := guard_ok h
  obtain ⟨hb, h⟩ := guard_ok h
  refine ⟨?_, (Prod.mk.inj (Except.ok.inj h)).2.symm⟩
  rcases hp : (db.receivePayment hash).paymentId with - | p
  · exact .inl rfl
  · simp only [hp, ne_eq, reduceCtorEq, not_false_eq_true, true_and, not_not] at hb
    exact .inr hb

/-- Two states of one transfer row. -/
def SameTransfer (x y : TransferRow) : Prop := y = { x with status := y.status }

theorem SameTransfer.trans {x y z : TransferRow} (h : SameTransfer x y) (h' : SameTransfer y z) :
    SameTransfer x z := by
  unfold SameTransfer at h h' ⊢
  rw [h', h]

/-- Every transfer row of the one table is in the other. -/
def KeepsTransfers (t t' : Table TransferRow.sparkId) : Prop :=
  ∀ k x, t.get k = some x → ∃ y, t'.get k = some y ∧ SameTransfer x y

theorem KeepsTransfers.refl (t : Table TransferRow.sparkId) : KeepsTransfers t t :=
  fun _ x hx => ⟨x, hx, rfl⟩

theorem KeepsTransfers.trans {a b c : Table TransferRow.sparkId} (h : KeepsTransfers a b)
    (h' : KeepsTransfers b c) : KeepsTransfers a c := by
  intro k x hx
  obtain ⟨y, hy, hxy⟩ := h k x hx
  obtain ⟨z, hz, hyz⟩ := h' k y hy
  exact ⟨z, hz, hxy.trans hyz⟩

theorem KeepsTransfers.update (t : Table TransferRow.sparkId) {p : TransferRow → Bool}
    {f : TransferRow → TransferRow} (hf : ∀ r, TransferRow.sparkId (f r) = TransferRow.sparkId r)
    (hstatus : ∀ r, SameTransfer r (f r)) : KeepsTransfers t (t.update p f hf) := by
  intro k x hx
  refine ⟨_, by rw [Table.get_update, hx]; rfl, ?_⟩
  dsimp only
  split
  · exact hstatus x
  · rfl

/-- A transfer is entered, or the status of the one with its id is refreshed. -/
structure EntersTransfer (row : TransferRow) (t t' : Table TransferRow.sparkId) : Prop where
  keeps : KeepsTransfers t t'
  rows : ∀ k x, t'.get k = some x → (∃ y, t.get k = some y ∧ SameTransfer y x) ∨ SameTransfer row x
  new : t.get row.sparkId = none → t'.get row.sparkId = some row

theorem EntersTransfer.upsert (row : TransferRow) (t : Table TransferRow.sparkId)
    {f : TransferRow → TransferRow} {hf : ∀ r, TransferRow.sparkId (f r) = TransferRow.sparkId r}
    (hstatus : ∀ r, SameTransfer r (f r)) : EntersTransfer row t (t.upsert row f hf) where
  keeps k x hx := by
    rw [Table.get_upsert, hx]
    split
    · exact ⟨f x, rfl, hstatus x⟩
    · exact ⟨x, rfl, rfl⟩
  rows k x hx := by
    rw [Table.get_upsert] at hx
    split at hx
    · obtain rfl := Option.some.inj hx
      rcases hg : t.get k with - | r
      · exact .inr rfl
      · exact .inl ⟨r, rfl, hstatus r⟩
    · exact .inl ⟨x, hx, rfl⟩
  new hnone := by
    rw [Table.get_upsert, if_pos rfl, hnone]
    rfl

theorem EntersTransfer.update (row : TransferRow) (t : Table TransferRow.sparkId)
    {p : TransferRow → Bool} {f : TransferRow → TransferRow}
    {hf : ∀ r, TransferRow.sparkId (f r) = TransferRow.sparkId r}
    (hstatus : ∀ r, SameTransfer r (f r)) {r : TransferRow} (hr : t.get row.sparkId = some r) :
    EntersTransfer row t (t.update p f hf) where
  keeps := .update t hf hstatus
  rows k x hx := by
    rw [Table.get_update] at hx
    obtain ⟨r, hr, rfl⟩ := Option.map_eq_some_iff.mp hx
    refine .inl ⟨r, hr, ?_⟩
    split
    · exact hstatus r
    · rfl
  new hnone := by
    rw [hr] at hnone
    cases hnone

/-- The transfer of a receive, as `commit_lightning_receive_swap` enters it. -/
def receivedRow (transferId requestId owner : String) : TransferRow :=
  { sparkId := transferId, requestId := requestId, kind := .lightningReceive,
    status := .transferCreated, owner := owner }

theorem upsertReceiveTransfer_ok {transferId requestId owner : String}
    (h : db.upsertReceiveTransfer transferId requestId owner = .ok db') :
    ∃ transfers, EntersTransfer (receivedRow transferId requestId owner) db.transfers transfers ∧
      db' = { db with transfers := transfers } := by
  unfold upsertReceiveTransfer at h
  rcases hg : db.transfers.get transferId with - | r
  · simp only [hg] at h
    refine ⟨_, .upsert _ _ ?_, (Except.ok.inj h).symm⟩
    exact fun _ => rfl
  · simp only [hg] at h
    split at h
    · refine ⟨_, .update _ _ ?_ hg, (Except.ok.inj h).symm⟩
      exact fun _ => rfl
    · simp at h

theorem commitLightningReceiveSwap_ok {hash transferId preimage requestId owner : String}
    {u : Unit} (h : db.commitLightningReceiveSwap hash transferId preimage requestId owner =
      .ok (u, db')) :
    ∃ transfers, EntersTransfer (receivedRow transferId requestId owner) db.transfers transfers ∧
      db' = { db with
        transfers := transfers
        receivePayments := db.receivePayments.upsert
          (settleReceivePayment transferId preimage (freshReceivePayment hash .preimageRecovered))
          (settleReceivePayment transferId preimage) } := by
  obtain ⟨db₁, hup, h⟩ := bind_ok h
  obtain ⟨transfers, ht, rfl⟩ := upsertReceiveTransfer_ok hup
  exact ⟨transfers, ht, (Prod.mk.inj (Except.ok.inj h)).2.symm⟩

theorem markReceiveClaimSubmitted_ok {hash : String} {u : Unit}
    (h : db.markReceiveClaimSubmitted hash = .ok (u, db')) :
    db' = { db with
      receivePayments := db.receivePayments.update
        (fun r => r.hash == hash && r.transferId.isSome && r.preimage.isSome)
        fun r => { r with claimSubmitted := true, status := .preimageRecovered } } := by
  simp only [markReceiveClaimSubmitted] at h
  split at h
  · exact (Prod.mk.inj (Except.ok.inj h)).2.symm
  · simp at h

theorem insertTransfer_ok {sparkId requestId owner : String} {kind : TransferKind}
    {status : TransferRowStatus} {u : Unit}
    (h : db.insertTransfer sparkId requestId kind status owner = .ok (u, db')) :
    ∃ transfers, EntersTransfer ⟨sparkId, requestId, kind, status, owner⟩ db.transfers transfers ∧
      db' = { db with transfers := transfers } := by
  unfold insertTransfer at h
  rcases hg : db.transfers.get sparkId with - | r
  · simp only [hg] at h
    refine ⟨_, .upsert _ _ ?_, (Prod.mk.inj (Except.ok.inj h)).2.symm⟩
    exact fun _ => rfl
  · simp only [hg] at h
    split at h
    · refine ⟨_, .update _ _ ?_ hg, (Prod.mk.inj (Except.ok.inj h)).2.symm⟩
      exact fun _ => rfl
    · simp at h

/-- A service enters the row that its request names. -/
theorem enterTransfer_ok {requestId : String} {u : Unit}
    (h : db.enterTransfer requestId = .ok (u, db')) :
    ∃ r p transfers, db.requests.get requestId = some r ∧ r.payload = .service p ∧
      EntersTransfer (p.row requestId r.owner) db.transfers transfers ∧
      db' = { db with transfers := transfers } := by
  unfold enterTransfer at h
  split at h
  · cases h
  · next r hr =>
      split at h
      · next p hp =>
          split at h
          · obtain ⟨transfers, ht, rfl⟩ := insertTransfer_ok h
            exact ⟨r, p, transfers, hr, hp, ht, rfl⟩
          · obtain ⟨-, rfl⟩ := Prod.mk.inj (Except.ok.inj h)
            refine ⟨r, p, _, hr, hp, .upsert _ _ ?_, rfl⟩
            exact fun _ => rfl
      · cases h

theorem completeTransfer_ok {requestId : String} {u : Unit}
    (h : db.completeTransfer requestId = .ok (u, db')) :
    ∃ owner, db' = { db with
      transfers := db.transfers.update (fun x => x.requestId == requestId && x.owner == owner)
        fun x => { x with status := .completed } } := by
  unfold completeTransfer at h
  split at h
  · cases h
  · next r hr =>
      split at h
      · exact ⟨r.owner, (Prod.mk.inj (Except.ok.inj h)).2.symm⟩
      · cases h

theorem bindBolt12Receive_ok {offerId hash : String} {u : Unit}
    (h : db.bindBolt12Receive offerId hash = .ok (u, db')) :
    db' = { db with
      receives := db.receives.update (fun r => r.hash == offerId &&
        (r.settledPaymentHash == none || r.settledPaymentHash == some hash))
        fun r => { r with settledPaymentHash := some hash } } := by
  simp only [bindBolt12Receive] at h
  split at h
  · exact (Prod.mk.inj (Except.ok.inj h)).2.symm
  · simp at h

/-- A new reservation matches the receive it is for, and the receive is untouched. -/
theorem reserveInternalSend_ok {send : LightningSend} {now : Nat} {u : Unit}
    (h : db.reserveInternalSend send now = .ok (u, db')) :
    (db' = db ∧ db.internalSend send.expectedId = some send.requestId) ∨
    ∃ l internalPayments, db.receives.get send.expectedId = some l ∧
      l.amountSats = send.amountSats ∧
      (db.receivePayment send.expectedId).claimableAmountMsat = none ∧
      (db.receivePayment send.expectedId).transferId = none ∧
      db.internalPayments.insert ⟨send.expectedId, send.requestId⟩ = some internalPayments ∧
      db' = { db with
        internalPayments := internalPayments
        sends := db.sends.update (fun r => r.intent.requestId == send.requestId)
          (setSendStatus .settling) } := by
  unfold reserveInternalSend at h
  rcases hi : db.internalSend send.expectedId with - | existing
  · right
    simp only [hi] at h
    obtain ⟨hm, h⟩ := guard_ok h
    obtain ⟨-, h⟩ := guard_ok h
    obtain ⟨internalPayments, hins, h⟩ := bind_ok h
    obtain ⟨-, h⟩ := guard_ok h
    rw [not_not, Option.any_eq_true_iff_get] at hm
    obtain ⟨hl, hm⟩ := hm
    simp only [Bool.and_eq_true, beq_iff_eq, decide_eq_true_eq] at hm
    obtain ⟨⟨⟨⟨⟨-, hamount⟩, -⟩, -⟩, hclaim⟩, htransfer⟩ := hm
    exact ⟨_, internalPayments, (Option.some_get hl).symm, hamount, hclaim, htransfer,
      okOr_eq_ok.mp hins, (Prod.mk.inj (Except.ok.inj h)).2.symm⟩
  · left
    simp only [hi] at h
    split at h
    · next he => exact ⟨(Prod.mk.inj (Except.ok.inj h)).2.symm, by rw [he]⟩
    · simp [throw, throwThe, MonadExceptOf.throw] at h

/-- A finished internal payment has a transfer for the request of its receive. -/
theorem finishInternalSend_ok {send : LightningSend} {u : Unit}
    (h : db.finishInternalSend send = .ok (u, db')) :
    (∃ l x, db.receives.get send.expectedId = some l ∧ db.transfers.get x.sparkId = some x ∧
      x.requestId = l.requestId) ∧
    db' = { db with
      sends := db.sends.update (fun r => r.intent.requestId == send.requestId)
        fun r => { setSendStatus .succeeded r with lastError := none }
      receivePayments := db.receivePayments.update (fun r => r.hash == send.expectedId)
        fun r => { r with status := .transferCompleted }
      transfers := db.transfers.update (fun r =>
          (db.receives.get send.expectedId).any fun l => r.requestId == l.requestId)
        fun r => { r with status := .transferCompleted } } := by
  unfold finishInternalSend at h
  obtain ⟨hcount, h⟩ := guard_ok h
  refine ⟨?_, (Prod.mk.inj (Except.ok.inj h)).2.symm⟩
  push Not at hcount
  obtain ⟨x, hx, hreq⟩ := Table.count_pos (by rw [hcount.2.2]; exact Nat.one_pos)
  obtain ⟨l, hl, hid⟩ := (Option.any_eq_true _ _).mp hreq
  exact ⟨l, x, hl, Table.mem_iff_get.mp hx, beq_iff_eq.mp hid⟩

theorem requestUpdatedAt_run {id : String} {now : Nat} {u : Unit}
    (h : (Query.requestUpdatedAt id).run now db = .ok (u, db')) : db' = db := by
  simp only [Query.run, requestUpdatedAt] at h
  split at h
  · exact (Prod.mk.inj (Except.ok.inj h)).2.symm
  · simp [Except.map] at h

/-- A table that the method does not write is as before. -/
structure Frame (q : Query) (db db' : Db) : Prop where
  requests : .requests ∉ q.writes → db'.requests = db.requests
  sends : .sends ∉ q.writes → db'.sends = db.sends
  receives : .receives ∉ q.writes → db'.receives = db.receives
  receivePayments : .receivePayments ∉ q.writes → db'.receivePayments = db.receivePayments
  quoteUses : .quoteUses ∉ q.writes → db'.quoteUses = db.quoteUses
  transfers : .transfers ∉ q.writes → db'.transfers = db.transfers
  payments : .payments ∉ q.writes → db'.payments = db.payments
  internalPayments : .internalPayments ∉ q.writes → db'.internalPayments = db.internalPayments

theorem Frame.refl (q : Query) (db : Db) : Frame q db db :=
  ⟨fun _ => rfl, fun _ => rfl, fun _ => rfl, fun _ => rfl, fun _ => rfl, fun _ => rfl,
    fun _ => rfl, fun _ => rfl⟩

theorem run_frame {q : Query} {now : Nat} {a : q.Out} (h : q.run now db = .ok (a, db')) :
    Frame q db db' := by
  cases q with
  | insertRequest id owner created payload =>
      -- only a receive is indexed in other tables
      obtain ⟨requests, -, ⟨-, rfl⟩ | ⟨p, qu, rc, -, -, -, rfl⟩⟩ := insertRequest_ok h
      · constructor <;> intro hw <;> first | rfl | simp [Query.writes] at hw
      · constructor <;> intro hw <;> first | rfl | simp [Query.writes] at hw
  | requestUpdatedAt id =>
      obtain rfl := requestUpdatedAt_run h
      exact .refl _ _
  | prepareLightningSend send key network =>
      obtain ⟨requests, sends, transfers, -, -, -, -, -, -, rfl⟩ := prepareLightningSend_ok h
      constructor <;> intro hw <;> first | rfl | simp [Query.writes] at hw
  | bindLightningPayment id paymentId =>
      obtain ⟨-, rfl⟩ := bindLightningPayment_ok h
      constructor <;> intro hw <;> first | rfl | simp [Query.writes] at hw
  | markReceiveClaimable hash id amount =>
      obtain ⟨-, rfl⟩ := markReceiveClaimable_ok h
      constructor <;> intro hw <;> first | rfl | simp [Query.writes] at hw
  | commitLightningReceiveSwap hash transferId preimage requestId owner =>
      obtain ⟨transfers, -, rfl⟩ := commitLightningReceiveSwap_ok h
      constructor <;> intro hw <;> first | rfl | simp [Query.writes] at hw
  | markReceiveClaimSubmitted hash =>
      obtain rfl := markReceiveClaimSubmitted_ok h
      constructor <;> intro hw <;> first | rfl | simp [Query.writes] at hw
  | insertTransfer sparkId requestId kind status owner =>
      obtain ⟨transfers, -, rfl⟩ := insertTransfer_ok h
      constructor <;> intro hw <;> first | rfl | simp [Query.writes] at hw
  | enterTransfer requestId =>
      obtain ⟨r, p, transfers, -, -, -, rfl⟩ := enterTransfer_ok h
      constructor <;> intro hw <;> first | rfl | simp [Query.writes] at hw
  | completeTransfer requestId =>
      obtain ⟨owner, rfl⟩ := completeTransfer_ok h
      constructor <;> intro hw <;> first | rfl | simp [Query.writes] at hw
  | bindBolt12Receive offerId hash =>
      obtain rfl := bindBolt12Receive_ok h
      constructor <;> intro hw <;> first | rfl | simp [Query.writes] at hw
  | reserveInternalSend send =>
      rcases reserveInternalSend_ok h with ⟨rfl, -⟩ | ⟨l, ip, -, -, -, -, -, rfl⟩
      · exact .refl _ _
      · constructor <;> intro hw <;> first | rfl | simp [Query.writes] at hw
  | finishInternalSend send =>
      obtain ⟨-, rfl⟩ := finishInternalSend_ok h
      constructor <;> intro hw <;> first | rfl | simp [Query.writes] at hw
  -- the others cannot fail: their result is written out
  | _ =>
      obtain ⟨-, rfl⟩ := Prod.mk.inj (Except.ok.inj h)
      constructor <;> intro hw <;> first | rfl | simp [Query.writes] at hw

/-- A method that writes no table changes none. -/
theorem run_reads {q : Query} {now : Nat} {a : q.Out} (h : q.run now db = .ok (a, db'))
    (hq : q.writes = []) : db' = db := by
  have hf := run_frame h
  have hno : ∀ table, table ∉ q.writes := by
    rw [hq]
    exact fun _ => List.not_mem_nil
  cases db
  cases db'
  rw [Db.mk.injEq]
  exact ⟨hf.requests (hno _), hf.sends (hno _), hf.receives (hno _), hf.receivePayments (hno _),
    hf.quoteUses (hno _), hf.transfers (hno _), hf.payments (hno _), hf.internalPayments (hno _)⟩

/-! ### Sends -/

/-- How one method can move the progress of one send. -/
inductive Progress (q : Query) (a a' : LightningSend) : Prop
  | none (hp : a'.paymentId = a.paymentId) (hs : a'.status = a.status)
  | begun (hq : q = .beginLightningSubmission a.requestId) (hs : a.status = .prepared)
      (hp : a'.paymentId = a.paymentId) (hs' : a'.status = .submitting)
  | bound (id : String) (hq : q = .bindLightningPayment a.requestId id)
      (free : a.paymentId = Option.none ∨ a.paymentId = some id) (hp : a'.paymentId = some id)
      (hs : a'.status = if unsubmitted a.status then .pending else a.status)
  | set (id : String) (status : SendStatus) (hq : q = .setPayment id status)
      (hid : a.requestId = id ∨ a.paymentId = some id) (hopen : a.status.final = false)
      (hp : a'.paymentId = a.paymentId) (hs : a'.status = status)
  | reserved (send : LightningSend) (hq : q = .reserveInternalSend send)
      (hid : a.requestId = send.requestId) (hp : a'.paymentId = a.paymentId)
      (hs : a'.status = .settling)
  | finished (send : LightningSend) (hq : q = .finishInternalSend send)
      (hid : a.requestId = send.requestId) (hp : a'.paymentId = a.paymentId)
      (hs : a'.status = .succeeded)

/-- One row before and after a method. -/
structure SendStep (q : Query) (r r' : SendRow) : Prop where
  same : r'.intent.SameIntent r.intent
  progress : Progress q r.intent r'.intent

theorem SendStep.refl (q : Query) (r : SendRow) : SendStep q r r := ⟨.refl _, .none rfl rfl⟩

/-- An update moves every row it touches by a step. -/
theorem sends_update {q : Query} {p : SendRow → Bool} {f : SendRow → SendRow}
    (hs : db'.sends.rows = db.sends.rows.map fun r => if p r then f r else r)
    (hstep : ∀ r, p r = true → SendStep q r (f r)) :
    ∃ g, db'.sends.rows = db.sends.rows.map g ∧ ∀ r ∈ db.sends.rows, SendStep q r (g r) := by
  refine ⟨fun r => if p r then f r else r, hs, fun r _ => ?_⟩
  by_cases hp : p r = true
  · simp only [hp, if_true]
    exact hstep r hp
  · simp only [hp]
    exact .refl q r

/-- Every method moves all sends by steps, or prepares a new one. -/
theorem sends_step {q : Query} {now : Nat} {a : q.Out} (h : q.run now db = .ok (a, db')) :
    (∃ g, db'.sends.rows = db.sends.rows.map g ∧ ∀ r ∈ db.sends.rows, SendStep q r (g r)) ∨
    ∃ send key network, q = .prepareLightningSend send key network ∧
      db'.sends.rows = preparedRow send :: db.sends.rows ∧
      (∀ r ∈ db.sends.rows, r.intent.requestId ≠ send.requestId) ∧
      (∀ r ∈ db.sends.rows, r.intent.outboundTransferId ≠ send.outboundTransferId) ∧
      (send.kind = .bolt11 → send.expectedId ≠ "" → ∀ r ∈ db.sends.rows,
        r.intent.kind = .bolt11 → r.intent.expectedId ≠ send.expectedId) := by
  -- methods that do not write the table keep every row
  by_cases hw : .sends ∉ q.writes
  · exact .inl ⟨id, by rw [(run_frame h).sends hw, List.map_id], fun r _ => .refl q r⟩
  cases q with
  -- the one method that adds a row
  | prepareLightningSend send key network =>
      right
      obtain ⟨requests, sends, transfers, -, -, hs, -, hout, hexp, rfl⟩ :=
        prepareLightningSend_ok h
      obtain ⟨hfree, hrows⟩ := Table.insert_eq_some hs
      exact ⟨send, key, network, rfl, hrows, Table.get_eq_none.mp hfree, hout, hexp⟩
  -- the others update rows, each in its own columns
  | setLightningSendRouteCltv id cltv =>
      obtain ⟨-, rfl⟩ := Prod.mk.inj (Except.ok.inj h)
      exact .inl (sends_update rfl fun r _ => ⟨⟨rfl, rfl, rfl, rfl, rfl, rfl, rfl, rfl⟩,
        .none rfl rfl⟩)
  | beginLightningSubmission id =>
      obtain ⟨-, rfl⟩ := Prod.mk.inj (Except.ok.inj h)
      refine .inl (sends_update rfl fun r hp => ⟨⟨rfl, rfl, rfl, rfl, rfl, rfl, rfl, rfl⟩, ?_⟩)
      simp only [Bool.and_eq_true, beq_iff_eq] at hp
      exact .begun (by rw [hp.1]) hp.2 rfl rfl
  | bindLightningPayment id paymentId =>
      obtain ⟨-, rfl⟩ := bindLightningPayment_ok h
      refine .inl (sends_update rfl fun r hp => ⟨⟨rfl, rfl, rfl, rfl, rfl, rfl, rfl, rfl⟩, ?_⟩)
      simp only [Bool.and_eq_true, Bool.or_eq_true, beq_iff_eq] at hp
      exact .bound paymentId (by rw [hp.1]) hp.2 rfl rfl
  | lightningSubmissionError id error =>
      obtain ⟨-, rfl⟩ := Prod.mk.inj (Except.ok.inj h)
      exact .inl (sends_update rfl fun r _ => ⟨.refl _, .none rfl rfl⟩)
  | recordLightningFailure id reason =>
      obtain ⟨-, rfl⟩ := Prod.mk.inj (Except.ok.inj h)
      exact .inl (sends_update rfl fun r _ => ⟨.refl _, .none rfl rfl⟩)
  | setPayment id status =>
      obtain ⟨-, rfl⟩ := Prod.mk.inj (Except.ok.inj h)
      refine .inl (sends_update rfl fun r hp => ⟨⟨rfl, rfl, rfl, rfl, rfl, rfl, rfl, rfl⟩, ?_⟩)
      simp only [sendHasId, Bool.and_eq_true, Bool.or_eq_true, beq_iff_eq,
        Bool.not_eq_true'] at hp
      exact .set id status rfl hp.1 hp.2 rfl rfl
  | reserveInternalSend send =>
      -- the retry of a reservation that is there writes nothing
      rcases reserveInternalSend_ok h with ⟨rfl, -⟩ | ⟨l, ip, -, -, -, -, -, rfl⟩
      · exact .inl ⟨id, by rw [List.map_id], fun r _ => .refl _ r⟩
      · refine .inl (sends_update rfl fun r hp =>
          ⟨⟨rfl, rfl, rfl, rfl, rfl, rfl, rfl, rfl⟩, ?_⟩)
        exact .reserved send rfl (by simpa using hp) rfl rfl
  | finishInternalSend send =>
      obtain ⟨-, rfl⟩ := finishInternalSend_ok h
      refine .inl (sends_update rfl fun r hp => ⟨⟨rfl, rfl, rfl, rfl, rfl, rfl, rfl, rfl⟩, ?_⟩)
      exact .finished send rfl (by simpa using hp) rfl rfl
  | _ => simp [Query.writes] at hw

/-! ### Receive payments -/

/-- Two states of a receive payment that differ in its progress at most. -/
structure SameMoney (p p' : ReceivePaymentRow) : Prop where
  paymentId : p'.paymentId = p.paymentId
  claimable : p'.claimableAmountMsat = p.claimableAmountMsat
  transferId : p'.transferId = p.transferId
  preimage : p'.preimage = p.preimage

theorem SameMoney.refl (p : ReceivePaymentRow) : SameMoney p p := ⟨rfl, rfl, rfl, rfl⟩

/-- How one method can change what is stored about the payment of `hash`. -/
inductive ReceiveStep (q : Query) (hash : String) (p p' : ReceivePaymentRow) : Prop
  | none (same : SameMoney p p')
  | bound (id : String) (amount : Nat) (hq : q = .markReceiveClaimable hash id amount)
      (free : p.paymentId = Option.none ∨ p.paymentId = some id) (hid : p'.paymentId = some id)
      (hamount : p'.claimableAmountMsat = some amount) (ht : p'.transferId = p.transferId)
      (hp : p'.preimage = p.preimage)
  | paid (transferId preimage requestId owner : String)
      (hq : q = .commitLightningReceiveSwap hash transferId preimage requestId owner)
      (hid : p'.paymentId = p.paymentId)
      (hamount : p'.claimableAmountMsat = p.claimableAmountMsat)
      (ht : p'.transferId = some transferId) (hp : p'.preimage = some preimage)
      (hs : p'.status = .preimageRecovered)
  | completed (paymentHash transferId requestId owner : String)
      (hq : q = .commitBolt12Receive hash paymentHash transferId requestId owner)
      (hid : p'.paymentId = p.paymentId)
      (hamount : p'.claimableAmountMsat = p.claimableAmountMsat)
      (ht : p'.transferId = some transferId) (hp : p'.preimage = p.preimage)
      (hs : p'.status = .transferCompleted)

theorem ReceiveStep.refl (q : Query) (hash : String) (p : ReceivePaymentRow) :
    ReceiveStep q hash p p := .none (.refl p)

/-- The payment of `hash` in a table of payments. -/
def stored (t : Table ReceivePaymentRow.hash) (hash : String) : ReceivePaymentRow :=
  (t.get hash).getD (freshReceivePayment hash .invoiceCreated)

theorem receivePayment_eq (db : Db) (hash : String) :
    db.receivePayment hash = stored db.receivePayments hash := rfl

/-- An upsert is a step of the payment it names when both of its cases are. -/
theorem stored_upsert {q : Query} {t : Table ReceivePaymentRow.hash} {row : ReceivePaymentRow}
    {f : ReceivePaymentRow → ReceivePaymentRow}
    {hf : ∀ r, ReceivePaymentRow.hash (f r) = ReceivePaymentRow.hash r}
    (hnew : t.get row.hash = none →
      ReceiveStep q row.hash (freshReceivePayment row.hash .invoiceCreated) row)
    (hold : ∀ r, t.get row.hash = some r → ReceiveStep q row.hash r (f r)) (k : String) :
    ReceiveStep q k (stored t k) (stored (t.upsert row f hf) k) := by
  rw [stored, stored, Table.get_upsert]
  split
  · next hk =>
      subst hk
      rcases hg : t.get row.hash with - | r
      · exact hnew hg
      · exact hold r hg
  · exact .refl q k _

/-- What holds of the row that is written holds of the stored payment. -/
theorem stored_upsert_self {t : Table ReceivePaymentRow.hash} {row : ReceivePaymentRow}
    {f : ReceivePaymentRow → ReceivePaymentRow}
    {hf : ∀ r, ReceivePaymentRow.hash (f r) = ReceivePaymentRow.hash r}
    {P : ReceivePaymentRow → Prop} (hnew : P row) (hold : ∀ r, P (f r)) :
    P (stored (t.upsert row f hf) row.hash) := by
  rw [stored, Table.get_upsert, if_pos rfl]
  rcases t.get row.hash with - | r
  · exact hnew
  · exact hold r

theorem markReceiveClaimable_row {hash paymentId : String} {amount : Nat} {u : Unit}
    (h : db.markReceiveClaimable hash paymentId amount = .ok (u, db')) :
    (db'.receivePayment hash).paymentId = some paymentId ∧
      (db'.receivePayment hash).claimableAmountMsat = some amount := by
  obtain ⟨-, rfl⟩ := markReceiveClaimable_ok h
  refine stored_upsert_self (P := fun r => r.paymentId = some paymentId ∧
    r.claimableAmountMsat = some amount) ?_ fun r => ?_
  · exact ⟨rfl, rfl⟩
  · exact ⟨rfl, rfl⟩

/-- An update of the progress alone leaves the money part of every payment. -/
theorem stored_update {q : Query} {t : Table ReceivePaymentRow.hash} {p : ReceivePaymentRow → Bool}
    {f : ReceivePaymentRow → ReceivePaymentRow}
    (hf : ∀ r, ReceivePaymentRow.hash (f r) = ReceivePaymentRow.hash r)
    (hsame : ∀ r, SameMoney r (f r)) (k : String) :
    ReceiveStep q k (stored t k) (stored (t.update p f hf) k) := by
  rw [stored, stored, Table.get_update]
  rcases t.get k with - | r
  · exact .refl q k _
  · simp only [Option.map_some, Option.getD_some]
    split
    · exact .none (hsame r)
    · exact .refl q k r

theorem receive_step {q : Query} {now : Nat} {a : q.Out} (h : q.run now db = .ok (a, db'))
    (k : String) : ReceiveStep q k (db.receivePayment k) (db'.receivePayment k) := by
  by_cases hw : .receivePayments ∉ q.writes
  · rw [receivePayment_eq, receivePayment_eq, (run_frame h).receivePayments hw]
    exact .refl q k _
  cases q with
  | markReceiveClaimable hash id amount =>
      obtain ⟨hfree, rfl⟩ := markReceiveClaimable_ok h
      rw [receivePayment_eq, stored] at hfree
      -- the row is bound when it is new, and when it was free
      refine stored_upsert (fun hg => ?_) (fun r hg => ?_) k
      · exact .bound id amount rfl (.inl rfl) rfl rfl rfl rfl
      · refine .bound id amount rfl ?_ rfl rfl rfl rfl
        have hr : db.receivePayments.get hash = some r := hg
        rwa [hr] at hfree
  | commitLightningReceiveSwap hash transferId preimage requestId owner =>
      obtain ⟨transfers, -, rfl⟩ := commitLightningReceiveSwap_ok h
      refine stored_upsert (fun _ => ?_) (fun r _ => ?_) k
      · exact .paid transferId preimage requestId owner rfl rfl rfl rfl rfl rfl
      · exact .paid transferId preimage requestId owner rfl rfl rfl rfl rfl rfl
  | commitBolt12Receive hash paymentHash transferId requestId owner =>
      obtain ⟨-, rfl⟩ := Prod.mk.inj (Except.ok.inj h)
      refine stored_upsert (fun _ => ?_) (fun r _ => ?_) k
      · exact .completed paymentHash transferId requestId owner rfl rfl rfl rfl rfl rfl
      · exact .completed paymentHash transferId requestId owner rfl rfl rfl rfl rfl rfl
  | setReceiveStatus hash status =>
      obtain ⟨-, rfl⟩ := Prod.mk.inj (Except.ok.inj h)
      refine stored_upsert (fun _ => ?_) (fun r _ => ?_) k
      · exact .none ⟨rfl, rfl, rfl, rfl⟩
      · exact .none ⟨rfl, rfl, rfl, rfl⟩
  | markReceiveClaimSubmitted hash =>
      obtain rfl := markReceiveClaimSubmitted_ok h
      refine stored_update ?_ (fun r => ?_) k
      · exact fun _ => rfl
      · -- the status only; what binds the receive is left
        exact ⟨rfl, rfl, rfl, rfl⟩
  | failExternalReceive hash id =>
      obtain ⟨-, rfl⟩ := Prod.mk.inj (Except.ok.inj h)
      refine stored_update ?_ (fun r => ?_) k
      · exact fun _ => rfl
      · exact ⟨rfl, rfl, rfl, rfl⟩
  | finishInternalSend send =>
      obtain ⟨-, rfl⟩ := finishInternalSend_ok h
      refine stored_update ?_ (fun r => ?_) k
      · exact fun _ => rfl
      · exact ⟨rfl, rfl, rfl, rfl⟩
  | _ => simp [Query.writes] at hw

/-- How one method can change the status of the receive `hash`. -/
inductive StatusStep (q : Query) (hash : String) (p p' : ReceivePaymentRow) : Prop
  | none (hs : p'.status = p.status)
  | set (status : ReceiveStatus) (hq : q = .setReceiveStatus hash status) (hs : p'.status = status)
  | claimable (id : String) (amount : Nat) (hq : q = .markReceiveClaimable hash id amount)
      (hs : p'.status = .htlcReceived)
  | paid (transferId preimage requestId owner : String)
      (hq : q = .commitLightningReceiveSwap hash transferId preimage requestId owner)
      (hs : p'.status = .preimageRecovered)
  | submitted (hq : q = .markReceiveClaimSubmitted hash) (hs : p'.status = .preimageRecovered)
  | failed (id : String) (hq : q = .failExternalReceive hash id) (hs : p'.status = .htlcFailed)
  | completed (paymentHash transferId requestId owner : String)
      (hq : q = .commitBolt12Receive hash paymentHash transferId requestId owner)
      (hs : p'.status = .transferCompleted)
  | finished (send : LightningSend) (hq : q = .finishInternalSend send)
      (hh : send.expectedId = hash) (hs : p'.status = .transferCompleted)

/-- A step of every payment the call touches is a step of the one stored under `k`. -/
theorem status_upsert {q : Query} {t : Table ReceivePaymentRow.hash} {row : ReceivePaymentRow}
    {f : ReceivePaymentRow → ReceivePaymentRow}
    {hf : ∀ r, ReceivePaymentRow.hash (f r) = ReceivePaymentRow.hash r}
    (hnew : StatusStep q row.hash (freshReceivePayment row.hash .invoiceCreated) row)
    (hold : ∀ r, StatusStep q row.hash r (f r)) (k : String) :
    StatusStep q k (stored t k) (stored (t.upsert row f hf) k) := by
  rw [stored, stored, Table.get_upsert]
  split
  · next hk =>
      subst hk
      rcases hg : t.get row.hash with - | r
      · exact hnew
      · exact hold r
  · exact .none rfl

theorem status_update {q : Query} {t : Table ReceivePaymentRow.hash}
    {p : ReceivePaymentRow → Bool} {f : ReceivePaymentRow → ReceivePaymentRow} {k : String}
    (hf : ∀ r, ReceivePaymentRow.hash (f r) = ReceivePaymentRow.hash r)
    (hstep : ∀ r, ReceivePaymentRow.hash r = k → p r = true → StatusStep q k r (f r)) :
    StatusStep q k (stored t k) (stored (t.update p f hf) k) := by
  rw [stored, stored, Table.get_update]
  rcases hg : t.get k with - | r
  · exact .none rfl
  · simp only [Option.map_some, Option.getD_some]
    split
    · next hp => exact hstep r (Table.key_of_get hg) hp
    · exact .none rfl

theorem status_step {q : Query} {now : Nat} {a : q.Out} (h : q.run now db = .ok (a, db'))
    (k : String) : StatusStep q k (db.receivePayment k) (db'.receivePayment k) := by
  by_cases hw : .receivePayments ∉ q.writes
  · rw [receivePayment_eq, receivePayment_eq, (run_frame h).receivePayments hw]
    exact .none rfl
  cases q with
  | markReceiveClaimable hash id amount =>
      obtain ⟨-, rfl⟩ := markReceiveClaimable_ok h
      refine status_upsert ?_ (fun r => ?_) k
      · -- a row that is there keeps a final status, and that of a receive with a payout
        exact .claimable id amount rfl rfl
      by_cases hkeep : r.status = .transferCompleted ∨ r.status = .htlcFailed ∨ r.transferId ≠ none
      · exact .none (if_pos hkeep)
      · exact .claimable id amount rfl (if_neg hkeep)
  | commitLightningReceiveSwap hash transferId preimage requestId owner =>
      obtain ⟨transfers, -, rfl⟩ := commitLightningReceiveSwap_ok h
      refine status_upsert ?_ (fun r => ?_) k
      · exact .paid transferId preimage requestId owner rfl rfl
      · exact .paid transferId preimage requestId owner rfl rfl
  | commitBolt12Receive hash paymentHash transferId requestId owner =>
      obtain ⟨-, rfl⟩ := Prod.mk.inj (Except.ok.inj h)
      refine status_upsert ?_ (fun r => ?_) k
      · exact .completed paymentHash transferId requestId owner rfl rfl
      · exact .completed paymentHash transferId requestId owner rfl rfl
  | setReceiveStatus hash status =>
      obtain ⟨-, rfl⟩ := Prod.mk.inj (Except.ok.inj h)
      refine status_upsert ?_ (fun r => ?_) k
      · exact .set status rfl rfl
      · exact .set status rfl rfl
  | markReceiveClaimSubmitted hash =>
      obtain rfl := markReceiveClaimSubmitted_ok h
      refine status_update ?_ fun r hk hp => ?_
      · exact fun _ => rfl
      · simp only [Bool.and_eq_true, beq_iff_eq] at hp
        exact .submitted (by rw [← hk, hp.1.1]) rfl
  -- the condition of the statement names the hash
  | failExternalReceive hash id =>
      obtain ⟨-, rfl⟩ := Prod.mk.inj (Except.ok.inj h)
      refine status_update ?_ fun r hk hp => ?_
      · exact fun _ => rfl
      · simp only [Bool.and_eq_true, beq_iff_eq] at hp
        exact .failed id (by rw [← hk, hp.1.1.1]) rfl
  | finishInternalSend send =>
      obtain ⟨-, rfl⟩ := finishInternalSend_ok h
      refine status_update ?_ fun r hk hp => ?_
      · exact fun _ => rfl
      · exact .finished send rfl (by rw [← hk]; exact (beq_iff_eq.mp hp).symm) rfl
  | _ => simp [Query.writes] at hw

/-- What is stored of the receive `hash`. -/
def receiveRows (db : Db) (hash : String) : Option ReceiveRow × Option ReceivePaymentRow :=
  (db.receives.get hash, db.receivePayments.get hash)

/-- A method changes the rows of no receive but its own. -/
theorem run_receiveRows {q : Query} {now : Nat} {a : q.Out} (h : q.run now db = .ok (a, db'))
    {k : String} (hk : q.receiveKey ≠ some k) : db'.receiveRows k = db.receiveRows k := by
  by_cases hw : .receives ∉ q.writes ∧ .receivePayments ∉ q.writes
  · rw [receiveRows, receiveRows, (run_frame h).receives hw.1,
      (run_frame h).receivePayments hw.2]
  -- an update of the rows of another key does not reach the row of `k`
  have hne : ∀ {x y : String}, some x ≠ some y → ∀ {z : String}, z = y → z ≠ x :=
    fun h _ hz hx => h (by rw [← hx, hz])
  cases q with
  -- the key is the hash of the new receive
  | insertRequest id owner created payload =>
      obtain ⟨requests, -, ⟨-, rfl⟩ | ⟨p, qu, rc, rfl, -, hr, rfl⟩⟩ := insertRequest_ok h
      · rfl
      · refine Prod.ext ?_ rfl
        show rc.get k = db.receives.get k
        rw [Table.get_insert hr, if_neg]
        exact fun e => hk (congrArg some e)
  | markReceiveClaimable hash id amount =>
      obtain ⟨-, rfl⟩ := markReceiveClaimable_ok h
      exact Prod.ext rfl (Table.get_upsert_of _ _ _ _ fun e => hk (congrArg some e))
  | commitLightningReceiveSwap hash transferId preimage requestId owner =>
      obtain ⟨transfers, -, rfl⟩ := commitLightningReceiveSwap_ok h
      exact Prod.ext rfl (Table.get_upsert_of _ _ _ _ fun e => hk (congrArg some e))
  | setReceiveStatus hash status =>
      obtain ⟨-, rfl⟩ := Prod.mk.inj (Except.ok.inj h)
      exact Prod.ext rfl (Table.get_upsert_of _ _ _ _ fun e => hk (congrArg some e))
  -- from here on the statements are updates, with the key in their condition
  | markReceiveClaimSubmitted hash =>
      obtain rfl := markReceiveClaimSubmitted_ok h
      refine Prod.ext rfl (Table.get_update_of _ _ _ ?_ fun r hr => ?_)
      · exact fun _ => rfl
      · simp [hne hk hr]
  | failExternalReceive hash id =>
      obtain ⟨-, rfl⟩ := Prod.mk.inj (Except.ok.inj h)
      refine Prod.ext rfl (Table.get_update_of _ _ _ ?_ fun r hr => ?_)
      · exact fun _ => rfl
      · simp [hne hk hr]
  | bindBolt12Receive offerId hash =>
      obtain rfl := bindBolt12Receive_ok h
      refine Prod.ext (Table.get_update_of _ _ _ ?_ fun r hr => ?_) rfl
      · exact fun _ => rfl
      · simp [hne hk hr]
  -- the one method that writes both tables
  | commitBolt12Receive offerId paymentHash transferId requestId owner =>
      obtain ⟨-, rfl⟩ := Prod.mk.inj (Except.ok.inj h)
      refine Prod.ext (Table.get_update_of _ _ _ ?_ fun r hr => ?_) ?_
      · exact fun _ => rfl
      · simp [hne hk hr]
      · exact Table.get_upsert_of _ _ _ _ fun e => hk (congrArg some e)
  | finishInternalSend send =>
      obtain ⟨-, rfl⟩ := finishInternalSend_ok h
      refine Prod.ext rfl (Table.get_update_of _ _ _ ?_ fun r hr => ?_)
      · exact fun _ => rfl
      · simp [hne hk hr]
  | _ => simp [Query.writes] at hw

/-! ### The other tables -/

/-- Only a reservation that matches an untouched receive adds an internal payment. -/
theorem internal_step {q : Query} {now : Nat} {a : q.Out} (h : q.run now db = .ok (a, db')) :
    db'.internalPayments = db.internalPayments ∨
    ∃ send l, q = .reserveInternalSend send ∧ db.receives.get send.expectedId = some l ∧
      l.amountSats = send.amountSats ∧
      (db.receivePayment send.expectedId).claimableAmountMsat = none ∧
      (db.receivePayment send.expectedId).transferId = none ∧
      db.internalPayments.insert ⟨send.expectedId, send.requestId⟩ =
        some db'.internalPayments := by
  by_cases hw : .internalPayments ∉ q.writes
  · exact .inl ((run_frame h).internalPayments hw)
  cases q with
  | reserveInternalSend send =>
      rcases reserveInternalSend_ok h with ⟨rfl, -⟩ | ⟨l, ip, hl, ha, hc, ht, hins, rfl⟩
      · exact .inl rfl
      · exact .inr ⟨send, l, rfl, hl, ha, hc, ht, hins⟩
  | _ => simp [Query.writes] at hw

/-- What never changes about a receive. -/
structure SameReceive (l l' : ReceiveRow) : Prop where
  requestId : l'.requestId = l.requestId
  owner : l'.owner = l.owner
  receiver : l'.receiver = l.receiver
  amountSats : l'.amountSats = l.amountSats
  invoice : l'.invoice = l.invoice
  kind : l'.kind = l.kind

theorem SameReceive.refl (l : ReceiveRow) : SameReceive l l := ⟨rfl, rfl, rfl, rfl, rfl, rfl⟩

/-- A method keeps every receive, and adds at most one, together with its quote. -/
theorem receives_step {q : Query} {now : Nat} {a : q.Out} (h : q.run now db = .ok (a, db')) :
    (db'.quoteUses = db.quoteUses ∧ ∃ g, (∀ l, SameReceive l (g l)) ∧
      ∀ k, db'.receives.get k = (db.receives.get k).map g) ∨
    ∃ id owner created p, q = .insertRequest id owner created (.lightningReceive p) ∧
      db.receives.insert (receiveRow id owner created p) = some db'.receives ∧
      EntersQuote p db.quoteUses db'.quoteUses := by
  have hsame : db'.quoteUses = db.quoteUses → db'.receives = db.receives →
      db'.quoteUses = db.quoteUses ∧ ∃ g, (∀ l, SameReceive l (g l)) ∧
        ∀ k, db'.receives.get k = (db.receives.get k).map g := fun hq hr =>
    ⟨hq, id, SameReceive.refl, fun k => by rw [hr, Option.map_id]; rfl⟩
  by_cases hw : .receives ∉ q.writes
  · by_cases hw' : .quoteUses ∉ q.writes
    · exact .inl (hsame ((run_frame h).quoteUses hw') ((run_frame h).receives hw))
    · cases q <;> simp [Query.writes] at hw hw'
  cases q with
  | insertRequest id owner created payload =>
      obtain ⟨requests, -, ⟨-, rfl⟩ | ⟨p, qu, rc, rfl, hq, hr, rfl⟩⟩ := insertRequest_ok h
      · exact .inl (hsame rfl rfl)
      · exact .inr ⟨id, owner, created, p, rfl, hr, hq⟩
  | bindBolt12Receive offerId hash =>
      obtain rfl := bindBolt12Receive_ok h
      refine .inl ⟨rfl, _, fun l => ?_, fun k => Table.get_update _ _ _ ?_ k⟩
      · split
        · exact ⟨rfl, rfl, rfl, rfl, rfl, rfl⟩
        · exact .refl l
      · exact fun _ => rfl
  | commitBolt12Receive hash paymentHash transferId requestId owner =>
      obtain ⟨-, rfl⟩ := Prod.mk.inj (Except.ok.inj h)
      refine .inl ⟨rfl, _, fun l => ?_, fun k => Table.get_update _ _ _ ?_ k⟩
      · split
        · exact ⟨rfl, rfl, rfl, rfl, rfl, rfl⟩
        · exact .refl l
      · exact fun _ => rfl
  | _ => simp [Query.writes] at hw

/-- The proof stored with a request. -/
def proofOf (db : Db) (id : String) : Option (String × String) :=
  (db.requests.get id).bind (·.proof)

/-- The request `k` is still there, with the payload, the owner and the idempotency key it was
made with. -/
def KeepsRequest (db db' : Db) (k : String) : Prop :=
  ∀ r, db.requests.get k = some r → ∃ r', db'.requests.get k = some r' ∧
    r'.payload = r.payload ∧ r'.owner = r.owner ∧ r'.idempotencyKey = r.idempotencyKey

theorem KeepsRequest.refl (db : Db) (k : String) : KeepsRequest db db k :=
  fun r hr => ⟨r, hr, rfl, rfl, rfl⟩

theorem KeepsRequest.trans {a b c : Db} {k : String} (h : KeepsRequest a b k)
    (h' : KeepsRequest b c k) : KeepsRequest a c k := by
  intro r hr
  obtain ⟨r₁, hr₁, hp₁, ho₁, hk₁⟩ := h r hr
  obtain ⟨r₂, hr₂, hp₂, ho₂, hk₂⟩ := h' r₁ hr₁
  exact ⟨r₂, hr₂, hp₂.trans hp₁, ho₂.trans ho₁, hk₂.trans hk₁⟩

theorem KeepsRequest.isSome {k : String} (h : KeepsRequest db db' k)
    (hk : (db.requests.get k).isSome) : (db'.requests.get k).isSome := by
  obtain ⟨r, hr⟩ := Option.isSome_iff_exists.mp hk
  obtain ⟨r', hr', -⟩ := h r hr
  exact Option.isSome_of_mem hr'

/-- A request stays, and only `recordLightningProof` changes its proof. -/
theorem requests_step {q : Query} {now : Nat} {a : q.Out} (h : q.run now db = .ok (a, db'))
    (k : String) :
    KeepsRequest db db' k ∧
    (db'.proofOf k = db.proofOf k ∨
      ∃ hash preimage, q = .recordLightningProof k hash preimage ∧
        db'.proofOf k = (db.requests.get k).map fun _ => (hash, preimage)) := by
  -- a new request has no proof
  have hinsert : ∀ (row : RequestRow) (t : Table RequestRow.id), row.proof = none →
      db.requests.insert row = some t → db'.requests = t →
      KeepsRequest db db' k ∧ db'.proofOf k = db.proofOf k := by
    intro row t hp hins ht
    rw [proofOf, proofOf, KeepsRequest, ht, Table.get_insert hins]
    split
    · next hk =>
        subst hk
        rw [(Table.insert_eq_some hins).1]
        exact ⟨fun r hr => absurd hr (by simp), hp⟩
    · exact ⟨fun r hr => ⟨r, hr, rfl, rfl, rfl⟩, rfl⟩
  by_cases hw : .requests ∉ q.writes
  · rw [proofOf, proofOf, KeepsRequest, (run_frame h).requests hw]
    exact ⟨fun r hr => ⟨r, hr, rfl, rfl, rfl⟩, .inl rfl⟩
  cases q with
  | insertRequest id owner created payload =>
      obtain ⟨requests, hins, ⟨-, rfl⟩ | ⟨p, qu, rc, -, -, -, rfl⟩⟩ := insertRequest_ok h
      · exact (hinsert _ requests rfl hins rfl).imp_right .inl
      · exact (hinsert _ requests rfl hins rfl).imp_right .inl
  | prepareLightningSend send key network =>
      obtain ⟨requests, sends, transfers, ⟨hp, -⟩, hins, -, -, -, -, rfl⟩ :=
        prepareLightningSend_ok h
      exact (hinsert a requests hp hins rfl).imp_right .inl
  | recordLightningProof id hash preimage =>
      obtain ⟨-, rfl⟩ := Prod.mk.inj (Except.ok.inj h)
      rw [proofOf, proofOf, KeepsRequest, Table.get_update]
      refine ⟨fun r hr => ⟨_, by rw [hr]; rfl, ?_, ?_, ?_⟩, ?_⟩
      · dsimp only
        split <;> rfl
      · dsimp only
        split <;> rfl
      · dsimp only
        split <;> rfl
      by_cases hk : k = id
      · subst hk
        refine .inr ⟨hash, preimage, rfl, ?_⟩
        rcases hg : db.requests.get k with - | r
        · rfl
        · simp [Table.key_of_get hg]
      · left
        rcases hg : db.requests.get k with - | r
        · rfl
        · have hne : r.id ≠ id := fun e => hk (e ▸ (Table.key_of_get hg).symm)
          simp [hne]
  | _ => simp [Query.writes] at hw

/-- The new row of a prepared intent. -/
structure PreparedRequest (send : LightningSend) (key : String) (db : Db) (r : RequestRow) :
    Prop where
  id : r.id = send.requestId
  owner : r.owner = send.owner
  idempotencyKey : r.idempotencyKey = some key
  payload : ∃ p, r.payload = .lightningSend p ∧ p.encodedInvoice = send.invoice ∧
    p.userOutboundTransferExternalId = send.outboundTransferId ∧
    p.amountSats = send.amountOverride
  fresh : key ≠ "" → ∀ y ∈ db.requests.rows, y.owner = send.owner → y.idempotencyKey ≠ some key

theorem prepareLightningSend_row {send : LightningSend} {key network : String} {now : Nat}
    {row : RequestRow} (h : db.prepareLightningSend send key network now = .ok (row, db')) :
    PreparedRequest send key db row := by
  obtain ⟨db₁, hadd, h⟩ := bind_ok h
  obtain ⟨-, h⟩ := guard_ok h
  obtain ⟨-, h⟩ := guard_ok h
  obtain ⟨sends, -, h⟩ := bind_ok h
  obtain ⟨transfers, -, h⟩ := bind_ok h
  obtain ⟨rfl, -⟩ := Prod.mk.inj (Except.ok.inj h)
  exact ⟨rfl, rfl, rfl, ⟨_, rfl, rfl, rfl, rfl⟩, fun hne => addRequest_fresh hadd rfl hne⟩

/-- How a method can have come by a row of `requests`. -/
inductive RequestStep (q : Query) (db : Db) (x : RequestRow) : Prop
  | old (y : RequestRow) (hy : y ∈ db.requests.rows) (id : x.id = y.id)
      (payload : x.payload = y.payload) (owner : x.owner = y.owner)
      (key : x.idempotencyKey = y.idempotencyKey)
  | inserted (id owner : String) (created : Nat) (payload : RequestPayload)
      (hq : q = .insertRequest id owner created payload)
      (hx : x = requestRow id owner created payload)
  | prepared (send : LightningSend) (key network : String)
      (hq : q = .prepareLightningSend send key network) (hx : PreparedRequest send key db x)

/-- Each request is an old one or the method's own. -/
theorem requests_origin {q : Query} {now : Nat} {a : q.Out}
    (h : q.run now db = .ok (a, db')) {x : RequestRow} (hx : x ∈ db'.requests.rows) :
    RequestStep q db x := by
  by_cases hw : .requests ∉ q.writes
  · rw [(run_frame h).requests hw] at hx
    exact .old x hx rfl rfl rfl rfl
  cases q with
  | insertRequest id owner created payload =>
      have hcase : ∀ t : Table RequestRow.id, db.requests.insert
          (requestRow id owner created payload) = some t → x ∈ t.rows →
          RequestStep (.insertRequest id owner created payload) db x := by
        intro t ht hx
        rw [(Table.insert_eq_some ht).2] at hx
        rcases List.mem_cons.mp hx with rfl | hx
        · exact .inserted id owner created payload rfl rfl
        · exact .old x hx rfl rfl rfl rfl
      obtain ⟨requests, hins, ⟨-, rfl⟩ | ⟨p, qu, rc, -, -, -, rfl⟩⟩ := insertRequest_ok h
      · exact hcase requests hins hx
      · exact hcase requests hins hx
  | prepareLightningSend send key network =>
      have hrow := prepareLightningSend_row h
      obtain ⟨requests, sends, transfers, -, hins, -, -, -, -, rfl⟩ := prepareLightningSend_ok h
      have hx : x ∈ requests.rows := hx
      rw [(Table.insert_eq_some hins).2] at hx
      rcases List.mem_cons.mp hx with rfl | hx
      · exact .prepared send key network rfl hrow
      · exact .old x hx rfl rfl rfl rfl
  | recordLightningProof id hash preimage =>
      obtain ⟨-, rfl⟩ := Prod.mk.inj (Except.ok.inj h)
      obtain ⟨y, hy, rfl⟩ := List.mem_map.mp hx
      split
      · exact .old y hy rfl rfl rfl rfl
      · exact .old y hy rfl rfl rfl rfl
  | _ => simp [Query.writes] at hw

/-- How a method can have come by a row of `transfers`. -/
inductive TransferStep (q : Query) (db : Db) (x : TransferRow) : Prop
  | old (y : TransferRow) (hy : db.transfers.get y.sparkId = some y)
      (hx : SameTransfer y x)
  | funding (send : LightningSend) (key network : String)
      (hq : q = .prepareLightningSend send key network) (hx : SameTransfer (fundingRow send) x)
  | swapped (hash transferId preimage requestId owner : String)
      (hq : q = .commitLightningReceiveSwap hash transferId preimage requestId owner)
      (hx : SameTransfer (receivedRow transferId requestId owner) x)
  | inserted (sparkId requestId owner : String) (kind : TransferKind) (status : TransferRowStatus)
      (hq : q = .insertTransfer sparkId requestId kind status owner)
      (hx : SameTransfer ⟨sparkId, requestId, kind, status, owner⟩ x)
  | entered (requestId : String) (r : RequestRow) (p : ServicePayload)
      (hq : q = .enterTransfer requestId) (hr : db.requests.get requestId = some r)
      (hp : r.payload = .service p) (hx : SameTransfer (p.row requestId r.owner) x)
  | offered (offerId paymentHash transferId requestId owner : String)
      (hq : q = .commitBolt12Receive offerId paymentHash transferId requestId owner)
      (hx : SameTransfer (receivedRow transferId requestId owner) x)

/-- No transfer row is ever removed, and each one is an old one or the method's own. -/
theorem transfers_step {q : Query} {now : Nat} {a : q.Out} (h : q.run now db = .ok (a, db')) :
    KeepsTransfers db.transfers db'.transfers ∧
    ∀ k x, db'.transfers.get k = some x → TransferStep q db x := by
  have hold : ∀ {k x y}, db.transfers.get k = some y → SameTransfer y x →
      TransferStep q db x := fun hy hx => .old _ (Table.key_of_get hy ▸ hy) hx
  by_cases hw : .transfers ∉ q.writes
  · rw [(run_frame h).transfers hw]
    exact ⟨.refl _, fun k x hx => hold hx rfl⟩
  -- an update of the states
  have hstates : ∀ {p : TransferRow → Bool} {f : TransferRow → TransferRow}
      (hf : ∀ r, TransferRow.sparkId (f r) = TransferRow.sparkId r), (∀ r, SameTransfer r (f r)) →
      KeepsTransfers db.transfers (db.transfers.update p f hf) ∧
        ∀ k x, (db.transfers.update p f hf).get k = some x → TransferStep q db x := by
    intro p f hf hstatus
    refine ⟨.update _ hf hstatus, fun k x hx => ?_⟩
    rw [Table.get_update] at hx
    obtain ⟨y, hy, rfl⟩ := Option.map_eq_some_iff.mp hx
    refine hold hy ?_
    split
    · exact hstatus y
    · rfl
  cases q with
  | prepareLightningSend send key network =>
      obtain ⟨requests, sends, transfers, -, -, -, ht, -, -, rfl⟩ := prepareLightningSend_ok h
      refine ⟨fun k x hx => ⟨x, ?_, rfl⟩, fun k x hx => ?_⟩
      · show transfers.get k = some x
        have hne : ¬ TransferRow.sparkId (fundingRow send) = k := by
          rintro rfl
          rw [(Table.insert_eq_some ht).1] at hx
          exact absurd hx (by simp)
        rw [Table.get_insert ht, if_neg hne, hx]
      · rw [Table.get_insert ht] at hx
        split at hx
        · exact .funding send key network rfl (Option.some.inj hx ▸ rfl)
        · exact hold hx rfl
  | commitLightningReceiveSwap hash transferId preimage requestId owner =>
      obtain ⟨transfers, ht, rfl⟩ := commitLightningReceiveSwap_ok h
      refine ⟨ht.keeps, fun k x hx => ?_⟩
      rcases ht.rows k x hx with ⟨y, hy, hx⟩ | hx
      · exact hold hy hx
      · exact .swapped hash transferId preimage requestId owner rfl hx
  | insertTransfer sparkId requestId kind status owner =>
      obtain ⟨transfers, ht, rfl⟩ := insertTransfer_ok h
      refine ⟨ht.keeps, fun k x hx => ?_⟩
      rcases ht.rows k x hx with ⟨y, hy, hx⟩ | hx
      · exact hold hy hx
      · exact .inserted sparkId requestId owner kind status rfl hx
  | enterTransfer requestId =>
      obtain ⟨r, p, transfers, hr, hp, ht, rfl⟩ := enterTransfer_ok h
      refine ⟨ht.keeps, fun k x hx => ?_⟩
      rcases ht.rows k x hx with ⟨y, hy, hx⟩ | hx
      · exact hold hy hx
      · exact .entered requestId r p rfl hr hp hx
  | commitBolt12Receive offerId paymentHash transferId requestId owner =>
      obtain ⟨-, rfl⟩ := Prod.mk.inj (Except.ok.inj h)
      have ht : EntersTransfer { receivedRow transferId requestId owner with
          status := .transferCompleted } db.transfers
          (db.commitBolt12Receive offerId paymentHash transferId requestId owner).2.transfers := by
        refine .upsert _ _ ?_
        exact fun _ => rfl
      refine ⟨ht.keeps, fun k x hx => ?_⟩
      rcases ht.rows k x hx with ⟨y, hy, hx⟩ | hx
      · exact hold hy hx
      · exact .offered offerId paymentHash transferId requestId owner rfl hx
  | finishInternalSend send =>
      obtain ⟨-, rfl⟩ := finishInternalSend_ok h
      refine hstates ?_ ?_
      · exact fun _ => rfl
      · exact fun _ => rfl
  | completeTransfer requestId =>
      obtain ⟨owner, rfl⟩ := completeTransfer_ok h
      refine hstates ?_ ?_
      · exact fun _ => rfl
      · exact fun _ => rfl
  | _ => simp [Query.writes] at hw

end Db

end OpenSsp
