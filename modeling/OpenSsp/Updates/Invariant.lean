/-
OpenSsp/Updates/Invariant.lean

What holds of the tables of requests after every sequence of writes (`Inv`): a request has its
`updated_at`; the payload of a send names the send of its own request, and that of a receive a
receive of its own; a payment id of a send is no request's id.

`Keeps` says what a write leaves: it is reflexive and transitive, every statement but the insertion
of a request has it, and what has it keeps the invariant.

Main results: `Keeps.inv`, `Inv.insert` and `Write.exec_inv`, and from them `Run.inv`.
-/
import OpenSsp.Updates.Touch

namespace OpenSsp.Updates

open Interleave

/-! ### Payloads -/

/-- Setting one key leaves the others. -/
theorem Payload.get_set_of_ne {p : Payload} {key key' : String} {value : Value} (h : key' ≠ key) :
    (p.set key value).get key' = p.get key' := by
  have hkey : ((fun e : String × Value => e.1 == key') ∘
      fun e => if e.1 == key then (key, value) else e) = fun e => e.1 == key' := by
    funext e
    show ((if e.1 == key then (key, value) else e).1 == key') = (e.1 == key')
    split
    · next he => rw [beq_iff_eq.mp he]
    · rfl
  have hvalue : ∀ e : String × Value, e.1 = key' →
      (if e.1 == key then (key, value) else e).2 = e.2 := by
    intro e he
    rw [if_neg]
    rw [beq_iff_eq, he]
    exact h
  unfold set
  split
  · rw [get, List.find?_map, hkey, get, Option.map_map]
    apply Option.map_congr
    intro e hfind
    have he := List.find?_some hfind
    exact hvalue e (beq_iff_eq.mp he)
  · rw [get, List.find?_append, get]
    have hnone : [(key, value)].find? (fun e => e.1 == key') = none := by
      rw [List.find?_eq_none]
      intro e he
      rw [List.mem_singleton.mp he, beq_iff_eq]
      exact h.symm
    rw [hnone, Option.or_none]

/-- Setting one key leaves the texts of the others. -/
theorem Payload.text_set_of_ne {p : Payload} {key key' : String} {value : Value} (h : key' ≠ key) :
    (p.set key value).text key' = p.text key' := by
  rw [text, field, get_set_of_ne h, text, field]

/-- The keys under which a payload names its details. -/
def detailKeys : List String := ["payment_id", "payment_hash"]

/-- A text that a request's details are found by is under none of the keys that progress sets. -/
theorem Payload.text_set {p : Payload} {key key' : String} {value : Value}
    (hkey' : key' ∈ detailKeys) (hkey : key ∉ detailKeys) :
    (p.set key value).text key' = p.text key' := by
  apply text_set_of_ne
  rintro rfl
  exact hkey hkey'

/-! ### The invariant -/

/-- The kind of a claim whose payload is replaced. -/
def instantKind : String := "CLAIM_INSTANT_STATIC_DEPOSIT_V2"

/-- What a request stays while its payload changes. -/
structure SameRequest (r r' : RequestRow) : Prop where
  id : r'.id = r.id
  kind : r'.kind = r.kind
  owner : r'.owner = r.owner
  createdAt : r'.createdAt = r.createdAt
  names : r.kind ≠ instantKind → ∀ key ∈ detailKeys,
    r'.payload.text key = r.payload.text key

theorem SameRequest.refl (r : RequestRow) : SameRequest r r :=
  ⟨rfl, rfl, rfl, rfl, fun _ _ _ => rfl⟩

theorem SameRequest.trans {r₁ r₂ r₃ : RequestRow} (h : SameRequest r₁ r₂)
    (h' : SameRequest r₂ r₃) : SameRequest r₁ r₃ where
  id := h'.id.trans h.id
  kind := h'.kind.trans h.kind
  owner := h'.owner.trans h.owner
  createdAt := h'.createdAt.trans h.createdAt
  names hkind key hkey :=
    (h'.names (by rwa [h.kind]) key hkey).trans (h.names hkind key hkey)

/-- The details of a request are there. -/
structure HasDetails (db : Db) (r : RequestRow) : Prop where
  send : r.kind = "LIGHTNING_SEND" → r.payload.text "payment_id" = r.id ∧ r.id.length = 36 ∧
    (db.sends.get r.id).isSome
  receive : r.kind = "LIGHTNING_RECEIVE" →
    db.requestOfHash (r.payload.text "payment_hash") = some r.id

/-- A request of another kind has no details that its response needs. -/
theorem HasDetails.other {db : Db} {r : RequestRow} (hsend : r.kind ≠ "LIGHTNING_SEND")
    (hreceive : r.kind ≠ "LIGHTNING_RECEIVE") : HasDetails db r where
  send hkind := absurd hkind hsend
  receive hkind := absurd hkind hreceive

/-- What holds of the tables between any two statements: every request has a time, and every request
whose response reads another table has its row there. -/
structure Inv (db : Db) : Prop where
  tracked : ∀ r ∈ db.requests.rows, (db.updatedAt r.id).isSome
  details : ∀ r ∈ db.requests.rows, HasDetails db r
  /-- A payment id is longer than a request's. -/
  bound : ∀ s ∈ db.sends.rows, ∀ p, s.intent.paymentId = some p → p.length = 64
  instant : ∀ id ∈ db.instantClaims, ∃ r ∈ db.requests.rows, r.id = id ∧ r.kind = instantKind

theorem Inv.empty : Inv .empty := by
  constructor <;> intro _ h <;> cases h

/-- What a write without a new request keeps. -/
structure Keeps (db db' : Db) : Prop where
  requests : ∀ r' ∈ db'.requests.rows, ∃ r ∈ db.requests.rows, SameRequest r r'
  instant : ∀ r ∈ db.requests.rows, r.kind = instantKind → ∃ r' ∈ db'.requests.rows, r'.id = r.id
  claims : db'.instantClaims = db.instantClaims
  tracked : ∀ r' ∈ db'.requests.rows, (db.updatedAt r'.id).isSome → (db'.updatedAt r'.id).isSome
  sends : ∀ id, (db.sends.get id).isSome → (db'.sends.get id).isSome
  bound : ∀ s' ∈ db'.sends.rows, ∀ p, s'.intent.paymentId = some p →
    (∃ s ∈ db.sends.rows, s.intent.paymentId = some p) ∨ p.length = 64
  receives : ∀ hash id, db.requestOfHash hash = some id → db'.requestOfHash hash = some id

namespace Keeps

variable {db db₁ db₂ : Db}

theorem trans (h : Keeps db db₁) (h' : Keeps db₁ db₂) : Keeps db db₂ where
  requests r₂ hr₂ := by
    obtain ⟨r₁, hr₁, hsame₁⟩ := h'.requests r₂ hr₂
    obtain ⟨r, hr, hsame⟩ := h.requests r₁ hr₁
    exact ⟨r, hr, hsame.trans hsame₁⟩
  instant r hr hkind := by
    obtain ⟨r₁, hr₁, hid₁⟩ := h.instant r hr hkind
    obtain ⟨r₀, hr₀, hsame⟩ := h.requests r₁ hr₁
    have hrow : r₀ = r := Table.eq_of_key hr₀ hr (hsame.id.symm.trans hid₁)
    subst hrow
    obtain ⟨r₂, hr₂, hid₂⟩ := h'.instant r₁ hr₁ (hsame.kind.trans hkind)
    exact ⟨r₂, hr₂, hid₂.trans hid₁⟩
  claims := h'.claims.trans h.claims
  tracked r₂ hr₂ ht := by
    obtain ⟨r₁, hr₁, hsame⟩ := h'.requests r₂ hr₂
    apply h'.tracked r₂ hr₂
    rw [hsame.id] at ht ⊢
    exact h.tracked r₁ hr₁ ht
  sends id hid := h'.sends id (h.sends id hid)
  bound s₂ hs₂ p hp := by
    rcases h'.bound s₂ hs₂ p hp with ⟨s₁, hs₁, hp₁⟩ | hlength
    · exact h.bound s₁ hs₁ p hp₁
    · exact .inr hlength
  receives hash id hid := h'.receives hash id (h.receives hash id hid)

/-- Statements on other tables. -/
theorem of_eq (hrequests : db₁.requests = db.requests) (hupdates : db₁.updates = db.updates)
    (hsends : db₁.sends = db.sends) (hreceives : db₁.receives = db.receives)
    (hclaims : db₁.instantClaims = db.instantClaims) : Keeps db db₁ where
  requests r hr := ⟨r, hrequests ▸ hr, .refl r⟩
  instant r hr _ := ⟨r, hrequests ▸ hr, rfl⟩
  claims := hclaims
  tracked _ _ ht := by
    rw [Db.updatedAt, hupdates]
    exact ht
  sends _ hid := by
    rw [hsends]
    exact hid
  bound s hs p hp := .inl ⟨s, hsends ▸ hs, hp⟩
  receives hash id hid := by
    rw [Db.requestOfHash, hreceives]
    exact hid

theorem refl (db : Db) : Keeps db db := of_eq rfl rfl rfl rfl rfl

/-- Touching a row keeps it. -/
theorem touch (h : Keeps db db₁) (now : String) (ids : List String) :
    Keeps db (db₁.touch now ids) where
  requests := h.requests
  instant := h.instant
  claims := h.claims
  tracked r hr ht := by
    rw [Db.updatedAt_touch, Option.isSome_map]
    exact h.tracked r hr ht
  sends := h.sends
  bound := h.bound
  receives := h.receives

/-- A request that is there before and after is the same. -/
theorem same (h : Keeps db db₁) {r r' : RequestRow} (hr : r ∈ db.requests.rows)
    (hr' : r' ∈ db₁.requests.rows) (hid : r'.id = r.id) : SameRequest r r' := by
  obtain ⟨r₀, hr₀, hsame⟩ := h.requests r' hr'
  have hrow : r₀ = r := Table.eq_of_key hr₀ hr (hsame.id.symm.trans hid)
  rwa [hrow] at hsame

/-- A request's details stay while the rows behind them do. -/
theorem hasDetails (h : Keeps db db₁) {r r' : RequestRow} (hsame : SameRequest r r')
    (hdetails : HasDetails db r) : HasDetails db₁ r' where
  send hkind := by
    rw [hsame.kind] at hkind
    obtain ⟨hpayment, hlength, hsend⟩ := hdetails.send hkind
    rw [hsame.id, hsame.names (by rw [hkind]; decide) _ (by decide)]
    exact ⟨hpayment, hlength, h.sends r.id hsend⟩
  receive hkind := by
    rw [hsame.kind] at hkind
    rw [hsame.id, hsame.names (by rw [hkind]; decide) _ (by decide)]
    exact h.receives _ _ (hdetails.receive hkind)

/-- Statements that keep the rows keep the invariant. -/
theorem inv (h : Keeps db db₁) (hinv : Inv db) : Inv db₁ where
  tracked r' hr' := by
    obtain ⟨r, hr, hsame⟩ := h.requests r' hr'
    apply h.tracked r' hr'
    rw [hsame.id]
    exact hinv.tracked r hr
  details r' hr' := by
    obtain ⟨r, hr, hsame⟩ := h.requests r' hr'
    exact h.hasDetails hsame (hinv.details r hr)
  bound s' hs' p hp := by
    rcases h.bound s' hs' p hp with ⟨s, hs, hp'⟩ | hlength
    · exact hinv.bound s hs p hp'
    · exact hlength
  instant id hid := by
    rw [h.claims] at hid
    obtain ⟨r, hr, hrid, hkind⟩ := hinv.instant id hid
    obtain ⟨r', hr', hid'⟩ := h.instant r hr hkind
    refine ⟨r', hr', hid'.trans hrid, ?_⟩
    rw [(h.same hr hr' hid').kind]
    exact hkind

end Keeps

/-! ### Statements -/

namespace Db

variable {now : String} {db db' : Db}

/-- A payload update that leaves the details' keys keeps the rows. -/
theorem updatePayload_keeps {p : RequestRow → Bool} {f : Payload → Payload}
    (hf : ∀ r ∈ db.requests.rows, p r = true → r.kind ≠ instantKind →
      ∀ key ∈ detailKeys, (f r.payload).text key = r.payload.text key) :
    Keeps db (db.updatePayload now p f) := by
  apply Keeps.touch
  let g (r : RequestRow) : RequestRow := { r with payload := f r.payload }
  constructor
  · intro r' hr'
    have hmem : r' ∈ (db.requests.update p g).rows := hr'
    obtain ⟨r, hr, rfl⟩ := Table.mem_update.mp hmem
    refine ⟨r, hr, ?_⟩
    split
    · next hp => exact ⟨rfl, rfl, rfl, rfl, hf r hr hp⟩
    · exact .refl r
  · intro r hr _
    have hmem : (if p r then g r else r) ∈ (db.requests.update p g).rows :=
      Table.mem_update.mpr ⟨r, hr, rfl⟩
    refine ⟨_, hmem, ?_⟩
    split <;> rfl
  · rfl
  · exact fun _ _ ht => ht
  · exact fun _ hid => hid
  · exact fun s hs _ hp => .inl ⟨s, hs, hp⟩
  · exact fun _ _ hid => hid

/-- A send may take a payment id only of the length the node gives one. -/
theorem updateSends_keeps {p : SendRow → Bool} {f : SendRow → SendRow}
    {hf : ∀ r, (f r).requestId = r.requestId}
    (hbound : ∀ r id, (f r).intent.paymentId = some id →
      r.intent.paymentId = some id ∨ id.length = 64) :
    Keeps db (db.updateSends now p f hf) := by
  apply Keeps.touch
  constructor
  · exact fun r hr => ⟨r, hr, .refl r⟩
  · exact fun r hr _ => ⟨r, hr, rfl⟩
  · rfl
  · exact fun _ _ ht => ht
  · intro id hid
    show ((db.sends.update p f hf).get id).isSome
    rw [Table.get_update, Option.isSome_map]
    exact hid
  · intro s' hs' id hid
    have hmem : s' ∈ (db.sends.update p f hf).rows := hs'
    obtain ⟨s, hs, rfl⟩ := Table.mem_update.mp hmem
    split at hid
    · rcases hbound s id hid with hold | hlength
      · exact .inl ⟨s, hs, hold⟩
      · exact .inr hlength
    · exact .inl ⟨s, hs, hid⟩
  · exact fun _ _ hid => hid

/-- An update of a send that leaves its payment id. -/
theorem updateSends_keeps_of_eq {p : SendRow → Bool} {f : SendRow → SendRow}
    {hf : ∀ r, (f r).requestId = r.requestId}
    (hpayment : ∀ r, (f r).intent.paymentId = r.intent.paymentId) :
    Keeps db (db.updateSends now p f hf) :=
  updateSends_keeps fun r _ hid => .inl ((hpayment r).symm.trans hid)

/-- A new send is there afterwards and has no payment yet. -/
theorem insertSend_keeps {row : SendRow} (hpayment : row.intent.paymentId = none)
    (h : db.insertSend now row = .ok db') :
    Keeps db db' ∧ (db'.sends.get row.requestId).isSome := by
  unfold insertSend at h
  obtain ⟨-, h⟩ := guard_ok h
  obtain ⟨-, h⟩ := guard_ok h
  obtain ⟨sends, hinsert, h⟩ := bind_ok h
  obtain rfl := Except.ok.inj h
  rw [okOr_eq_ok] at hinsert
  constructor
  · apply Keeps.touch
    constructor
    · exact fun r hr => ⟨r, hr, .refl r⟩
    · exact fun r hr _ => ⟨r, hr, rfl⟩
    · rfl
    · exact fun _ _ ht => ht
    · intro id hid
      show (sends.get id).isSome
      rw [Table.get_insert hinsert]
      split
      · rfl
      · exact hid
    · -- the new send has no payment id, so it names no payment
      intro s hs id hid
      have hs : s ∈ sends.rows := hs
      rw [(Table.insert_eq_some hinsert).2] at hs
      rcases List.mem_cons.mp hs with rfl | hs
      · rw [hpayment] at hid
        cases hid
      · exact .inl ⟨s, hs, hid⟩
    · exact fun _ _ hid => hid
  · show (sends.get row.requestId).isSome
    rw [Table.get_insert hinsert, if_pos rfl]
    rfl

/-- An update of receive payments removes none. -/
theorem updateReceivePayments_keeps (p : ReceivePaymentRow → Bool)
    (f : ReceivePaymentRow → ReceivePaymentRow) (hf : ∀ r, (f r).hash = r.hash) :
    Keeps db (db.updateReceivePayments now p f hf) := by
  apply Keeps.touch
  exact .of_eq rfl rfl rfl rfl rfl

/-- An upsert of a receive payment removes none. -/
theorem upsertReceivePayment_keeps (row : ReceivePaymentRow)
    (f : ReceivePaymentRow → ReceivePaymentRow) (hf : ∀ r, (f r).hash = r.hash) :
    Keeps db (db.upsertReceivePayment now row f hf) := by
  unfold upsertReceivePayment
  split
  · apply Keeps.touch
    exact .of_eq rfl rfl rfl rfl rfl
  · exact updateReceivePayments_keeps _ f hf

/-- A change of status removes no transfer. -/
theorem updateTransfers_keeps (p : TransferRow → Bool) (status : String) :
    Keeps db (db.updateTransfers now p status) := by
  apply Keeps.touch
  exact .of_eq rfl rfl rfl rfl rfl

/-- A new transfer removes none. -/
theorem insertTransferRow_keeps {row : TransferRow} (h : db.insertTransferRow now row = some db') :
    Keeps db db' := by
  obtain ⟨transfers, -, rfl⟩ := Option.map_eq_some_iff.mp h
  apply Keeps.touch
  exact .of_eq rfl rfl rfl rfl rfl

/-- An ignored insert removes none. -/
theorem insertTransferOnce_keeps (row : TransferRow) :
    Keeps db (db.insertTransferOnce now row) := by
  unfold insertTransferOnce
  rcases h : db.insertTransferRow now row with - | db'
  · exact .refl db
  · exact insertTransferRow_keeps h

/-- An update of exits removes none. -/
theorem updateExits_keeps (record : ExitRecord) : Keeps db (db.updateExits now record) := by
  apply Keeps.touch
  exact .of_eq rfl rfl rfl rfl rfl

/-- A new exit leaves the requests as they were. -/
theorem insertExit_keeps {record : ExitRecord} (h : db.insertExit now record = .ok db') :
    Keeps db db' ∧ db'.requests = db.requests := by
  unfold insertExit at h
  obtain ⟨-, h⟩ := guard_ok h
  obtain ⟨-, h⟩ := guard_ok h
  obtain ⟨exits, -, h⟩ := bind_ok h
  obtain rfl := Except.ok.inj h
  constructor
  · apply Keeps.touch
    exact .of_eq rfl rfl rfl rfl rfl
  · rfl

/-- Settling removes no receive. -/
theorem settleReceives_keeps (p : ReceiveRow → Bool) (hash : String) :
    Keeps db (db.settleReceives p hash) := by
  constructor
  · exact fun r hr => ⟨r, hr, .refl r⟩
  · exact fun r hr _ => ⟨r, hr, rfl⟩
  · rfl
  · exact fun _ _ ht => ht
  · exact fun _ hid => hid
  · exact fun s hs _ hp => .inl ⟨s, hs, hp⟩
  · intro h id hid
    rw [requestOfHash_settleReceives]
    exact hid

/-- An indexed receive is found under its payment hash. -/
theorem indexReceive_keeps {id owner : String} {expiresAt : Nat} {p : Payload}
    (h : db.indexReceive id owner expiresAt p = .ok db') :
    Keeps db db' ∧ db'.requestOfHash (p.text "payment_hash") = some id := by
  obtain ⟨quoteUses, amount, receives, hinsert, rfl⟩ := indexReceive_ok h
  have hget : ∀ hash, receives.get hash = if p.text "payment_hash" = hash then
      some (receiveRow id owner expiresAt amount p) else db.receives.get hash :=
    Table.get_insert hinsert
  constructor
  · constructor
    · exact fun r hr => ⟨r, hr, .refl r⟩
    · exact fun r hr _ => ⟨r, hr, rfl⟩
    · rfl
    · exact fun _ _ ht => ht
    · exact fun _ hid => hid
    · exact fun s hs _ hp => .inl ⟨s, hs, hp⟩
    · intro hash other hother
      show (receives.get hash).map _ = _
      rw [hget, if_neg]
      · exact hother
      · rintro rfl
        have hnone : db.receives.get (p.text "payment_hash") = none :=
          (Table.insert_eq_some hinsert).1
        rw [requestOfHash, hnone] at hother
        cases hother
  · show (receives.get _).map _ = _
    rw [hget, if_pos rfl]
    rfl

/-- Claims that are replaced are not deleted. -/
theorem pruneCompatRequests_keeps (olderThan : String) :
    Keeps db (db.pruneCompatRequests olderThan) := by
  constructor
  · intro r hr
    exact ⟨r, (Table.mem_delete.mp hr).1, .refl r⟩
  · intro r hr hkind
    refine ⟨r, Table.mem_delete.mpr ⟨hr, ?_⟩, rfl⟩
    have hkept : ["COOP_EXIT", "CLAIM_STATIC_DEPOSIT", "CLAIM_INSTANT_STATIC_DEPOSIT"].contains
        r.kind = false := by
      rw [hkind]
      decide
    show (_ && _ && _) = false
    rw [hkept, Bool.and_false, Bool.false_and]
  · rfl
  · intro r hr ht
    obtain ⟨hr, hold⟩ := Table.mem_delete.mp hr
    have hupdates : (db.pruneCompatRequests olderThan).updates.get r.id = db.updates.get r.id :=
      get_updates_pruneCompatRequests hr hold
    rw [updatedAt, hupdates]
    exact ht
  · exact fun _ hid => hid
  · exact fun s hs _ hp => .inl ⟨s, hs, hp⟩
  · exact fun _ _ hid => hid

end Db

/-! ### Writes -/

/-- The invariant holds after a write, and a request that was there is the same. -/
structure Next (db db' : Db) : Prop where
  inv : Inv db'
  same : ∀ r ∈ db.requests.rows, ∀ r' ∈ db'.requests.rows, r'.id = r.id → SameRequest r r'

variable {now : String} {db db₁ db₂ db' : Db}

/-- Statements that keep every row are a step of the tables. -/
theorem Keeps.next (h : Keeps db db') (hinv : Inv db) : Next db db' :=
  ⟨h.inv hinv, fun _ hr _ hr' hid => h.same hr hr' hid⟩

/-- A transaction that inserts a request has to insert its details. -/
theorem Next.insert {row : RequestRow} (hinv : Inv db) (h : db.insertRequestRow row = .ok db₁)
    (hkeeps : Keeps db₁ db₂) (hdetails : HasDetails db₂ row) : Next db db₂ := by
  obtain ⟨requests, updates, hrequests, hupdates, rfl⟩ := Db.insertRequestRow_ok h
  have hnew : ∀ r ∈ db.requests.rows, r.id ≠ row.id :=
    Table.get_eq_none.mp (Table.insert_eq_some hrequests).1
  have hold : ∀ r' ∈ db₂.requests.rows, ∃ r, (r = row ∨ r ∈ db.requests.rows) ∧ SameRequest r r' := by
    intro r' hr'
    obtain ⟨r, hr, hsame⟩ := hkeeps.requests r' hr'
    have hr : r ∈ requests.rows := hr
    rw [(Table.insert_eq_some hrequests).2] at hr
    exact ⟨r, List.mem_cons.mp hr, hsame⟩
  have htracked : ∀ id, (db.updatedAt id).isSome ∨ id = row.id →
      ((updates.get id).map (·.updatedAt)).isSome := by
    intro id hid
    rw [Table.get_insert hupdates]
    split
    · rfl
    · next hne =>
        rcases hid with ht | rfl
        · exact ht
        · exact absurd rfl hne
  constructor
  · constructor
    · intro r' hr'
      obtain ⟨r, hr, hsame⟩ := hold r' hr'
      apply hkeeps.tracked r' hr'
      apply htracked
      rcases hr with rfl | hr
      · exact .inr hsame.id
      · rw [hsame.id]
        exact .inl (hinv.tracked r hr)
    · intro r' hr'
      obtain ⟨r, hr, hsame⟩ := hold r' hr'
      rcases hr with rfl | hr
      · exact (Keeps.refl db₂).hasDetails hsame hdetails
      · -- the details of the other requests are in tables that the insertion leaves
        exact hkeeps.hasDetails hsame ⟨(hinv.details r hr).send, (hinv.details r hr).receive⟩
    · intro s' hs' p hp
      rcases hkeeps.bound s' hs' p hp with ⟨s, hs, hp'⟩ | hlength
      · exact hinv.bound s hs p hp'
      · exact hlength
    · intro id hid
      rw [hkeeps.claims] at hid
      obtain ⟨r, hr, hrid, hkind⟩ := hinv.instant id hid
      have hr₁ : r ∈ requests.rows := by
        rw [(Table.insert_eq_some hrequests).2]
        exact List.mem_cons_of_mem _ hr
      obtain ⟨r', hr', hid'⟩ := hkeeps.instant r hr₁ hkind
      refine ⟨r', hr', hid'.trans hrid, ?_⟩
      rw [(hkeeps.same hr₁ hr' hid').kind]
      exact hkind
  · intro r hr r' hr' hid
    apply hkeeps.same _ hr' hid
    show r ∈ requests.rows
    rw [(Table.insert_eq_some hrequests).2]
    exact List.mem_cons_of_mem _ hr

namespace Db

/-- A new request comes with its time and, for a receive, with its index. -/
theorem insertRequest_next {kind : RequestKind} {id owner createdAt : String} {expiresAt : Nat}
    {payload : Payload} {key : Option String} (hinv : Inv db)
    (h : db.insertRequest kind id owner createdAt expiresAt payload key = .ok db') :
    Next db db' := by
  unfold insertRequest at h
  obtain ⟨db₁, hrow, h⟩ := bind_ok h
  cases kind with
  | lightningReceive =>
      obtain ⟨hkeeps, hreceive⟩ := indexReceive_keeps h
      apply Next.insert hinv hrow hkeeps
      constructor
      · intro hkind
        have hkind : "LIGHTNING_RECEIVE" = "LIGHTNING_SEND" := hkind
        exact absurd hkind (by decide)
      · exact fun _ => hreceive
  | leavesSwap =>
      obtain rfl := Except.ok.inj h
      apply Next.insert hinv hrow (.refl _)
      apply HasDetails.other
      · show "LEAVES_SWAP" ≠ _
        decide
      · show "LEAVES_SWAP" ≠ _
        decide

/-- A prepared send comes with its request and its row. -/
theorem prepareLightningSend_next {send : LightningSend} {key network createdAt : String}
    (hinv : Inv db) (hid : ∃ id : Uuid, send.requestId = id.print)
    (h : db.prepareLightningSend now send key network createdAt = .ok db') : Next db db' := by
  unfold prepareLightningSend at h
  obtain ⟨db₁, hrow, h⟩ := bind_ok h
  obtain ⟨db₂, hsend, h⟩ := bind_ok h
  obtain ⟨hfirst, hget⟩ := insertSend_keeps (by rfl) hsend
  have hsecond := insertTransferRow_keeps (okOr_eq_ok.mp h)
  apply Next.insert hinv hrow (hfirst.trans hsecond)
  constructor
  · intro _
    refine ⟨rfl, ?_, hsecond.sends _ hget⟩
    obtain ⟨id, hid⟩ := hid
    show send.requestId.length = 36
    rw [hid, Uuid.print_length]
  · intro hkind
    exact absurd hkind (by show "LIGHTNING_SEND" ≠ _; decide)

/-- A new exit comes with its request. -/
theorem insertCoopExit_next {record : ExitRecord} (hinv : Inv db)
    (h : db.insertCoopExit now record = .ok db') : Next db db' := by
  unfold insertCoopExit at h
  obtain ⟨db₁, hexit, h⟩ := bind_ok h
  obtain ⟨hkeeps, hrequests⟩ := insertExit_keeps hexit
  have hnext : Next db₁ db' := by
    apply Next.insert (hkeeps.inv hinv) h (.refl _)
    apply HasDetails.other
    · show "COOP_EXIT_V2" ≠ _
      decide
    · show "COOP_EXIT_V2" ≠ _
      decide
  refine ⟨hnext.inv, ?_⟩
  rw [← hrequests]
  exact hnext.same

/-- A new fixed claim comes with its request. -/
theorem insertDepositClaim_next {r : DepositClaim} {createdAt : String} (hinv : Inv db)
    (h : db.insertDepositClaim r createdAt = .ok db') : Next db db' := by
  unfold insertDepositClaim at h
  obtain ⟨db₁, hrow, h⟩ := bind_ok h
  obtain rfl := Except.ok.inj h
  have hkeeps : Keeps db₁ { db₁ with depositClaims := r.id :: db₁.depositClaims } :=
    .of_eq rfl rfl rfl rfl rfl
  apply Next.insert hinv hrow hkeeps
  apply HasDetails.other
  · show "CLAIM_STATIC_DEPOSIT" ≠ _
    decide
  · show "CLAIM_STATIC_DEPOSIT" ≠ _
    decide

/-- A new instant claim comes with its request. -/
theorem insertInstantClaim_next {r : InstantClaim} {createdAt : String} (hinv : Inv db)
    (h : db.insertInstantClaim r createdAt = .ok db') : Next db db' := by
  unfold insertInstantClaim at h
  obtain ⟨db₁, hrow, h⟩ := bind_ok h
  obtain rfl := Except.ok.inj h
  have hnext : Next db db₁ := by
    apply Next.insert hinv hrow (.refl _)
    apply HasDetails.other
    · show instantKind ≠ _
      decide
    · show instantKind ≠ _
      decide
  obtain ⟨requests, updates, hrequests, -, rfl⟩ := insertRequestRow_ok hrow
  refine ⟨⟨hnext.inv.tracked, fun r' hr' => ?_, hnext.inv.bound, ?_⟩, hnext.same⟩
  · exact ⟨(hnext.inv.details r' hr').send, (hnext.inv.details r' hr').receive⟩
  · intro id hid
    rcases List.mem_cons.mp hid with rfl | hid
    · have hmem : RequestRow.mk r.id instantKind r.owner createdAt (instantPayload r) none ∈
          requests.rows := by
        rw [(Table.insert_eq_some hrequests).2]
        exact List.mem_cons_self
      exact ⟨_, hmem, rfl, rfl⟩
    · exact hnext.inv.instant id hid

/-- The upsert of the swap's transfer keeps the rows. -/
theorem upsertReceiveTransfer_keeps {transferId requestId owner : String}
    (h : db.upsertReceiveTransfer now transferId requestId owner = .ok db') : Keeps db db' := by
  unfold upsertReceiveTransfer at h
  split at h
  · next hinsert =>
      obtain rfl := Except.ok.inj h
      exact insertTransferRow_keeps hinsert
  · dsimp only at h
    split at h
    · obtain rfl := Except.ok.inj h
      exact updateTransfers_keeps _ _
    · cases h

/-- `insert_transfer` keeps the rows. -/
theorem insertTransfer_keeps {sparkId requestId kind status owner : String}
    (h : db.insertTransfer now sparkId requestId kind status owner = .ok db') : Keeps db db' := by
  unfold insertTransfer at h
  split at h
  · next hinsert =>
      obtain rfl := Except.ok.inj h
      exact insertTransferRow_keeps hinsert
  · dsimp only at h
    split at h
    · obtain rfl := Except.ok.inj h
      exact updateTransfers_keeps _ _
    · cases h

/-- Committing an offer's receive keeps the rows. -/
theorem commitBolt12Receive_keeps (offerId paymentHash transferId requestId owner : String) :
    Keeps db (db.commitBolt12Receive now offerId paymentHash transferId requestId owner) := by
  have hfirst : Keeps db ((db.insertTransferRow now
      { sparkId := transferId, requestId := requestId, kind := "LIGHTNING_RECEIVE",
        status := "TRANSFER_COMPLETED", owner := owner }).getD
      (db.updateTransfers now (·.sparkId == transferId) "TRANSFER_COMPLETED")) := by
    cases h : db.insertTransferRow now
      { sparkId := transferId, requestId := requestId, kind := "LIGHTNING_RECEIVE",
        status := "TRANSFER_COMPLETED", owner := owner } with
    | none => exact updateTransfers_keeps _ _
    | some db' => exact insertTransferRow_keeps h
  unfold commitBolt12Receive
  exact (hfirst.trans (upsertReceivePayment_keeps _ _ _)).trans (settleReceives_keeps _ _)

/-- Reserving an internal send keeps the rows. -/
theorem reserveInternalSend_keeps {seconds : Nat} {send : LightningSend}
    (h : db.reserveInternalSend now seconds send = .ok db') : Keeps db db' := by
  unfold reserveInternalSend at h
  split at h
  · split at h
    · obtain rfl := Except.ok.inj h
      exact .refl db
    · cases h
  · obtain ⟨-, h⟩ := guard_ok h
    obtain ⟨-, h⟩ := guard_ok h
    obtain ⟨internalPayments, -, h⟩ := bind_ok h
    obtain ⟨-, h⟩ := guard_ok h
    obtain rfl := Except.ok.inj h
    have hsend : Keeps db (db.updateSends now (fun r => r.intent.requestId == send.requestId)
        (OpenSsp.Db.setSendStatus .settling) fun _ => rfl) :=
      updateSends_keeps_of_eq fun _ => rfl
    apply hsend.trans
    exact .of_eq rfl rfl rfl rfl rfl

/-- Finishing an internal send keeps the rows. -/
theorem finishInternalSend_keeps {send : LightningSend}
    (h : db.finishInternalSend now send = .ok db') : Keeps db db' := by
  unfold finishInternalSend at h
  dsimp only at h
  split at h
  · cases h
  · obtain rfl := Except.ok.inj h
    have hfirst : Keeps db (db.updateSends now (fun r => r.intent.requestId == send.requestId)
        (fun r => { OpenSsp.Db.setSendStatus .succeeded r with lastError := none }) fun _ => rfl) :=
      updateSends_keeps_of_eq fun _ => rfl
    exact (hfirst.trans (updateReceivePayments_keeps _ _ _)).trans (updateTransfers_keeps _ _)

/-- An exit's progress keeps the rows. -/
theorem updateCoopExit_keeps (record : ExitRecord) : Keeps db (db.updateCoopExit now record) := by
  unfold updateCoopExit
  dsimp only
  split
  · exact (updateExits_keeps record).trans (updateTransfers_keeps _ _)
  · exact updateExits_keeps record

/-- A fixed claim's progress keeps the rows. -/
theorem saveDepositClaim_keeps {r : DepositClaim} : Keeps db (db.saveDepositClaim now r) := by
  have hfirst : Keeps db (db.updatePayload now (fun q => q.id == r.id) fun p =>
      (p.set "status" (.string r.status)).set "phase" (.string r.phase)) := by
    apply updatePayload_keeps
    intro q _ _ _ key hkey
    rw [Payload.text_set hkey (by decide), Payload.text_set hkey (by decide)]
  unfold saveDepositClaim
  split
  · exact hfirst.trans (insertTransferOnce_keeps _)
  · exact hfirst

/-- The payload that is replaced names no details. -/
theorem saveInstantClaim_keeps {r : InstantClaim} (hinv : Inv db) (hid : r.id ∈ db.instantClaims) :
    Keeps db (db.saveInstantClaim now r) := by
  have hfirst : Keeps db (db.updatePayload now (fun q => q.id == r.id) fun _ => instantPayload r) := by
    apply updatePayload_keeps
    intro q hq hp hkind
    obtain ⟨q', hq', hid', hkind'⟩ := hinv.instant r.id hid
    have hrow : q = q' := Table.eq_of_key hq hq' ((beq_iff_eq.mp hp).trans hid'.symm)
    exact absurd (hrow ▸ hkind') hkind
  unfold saveInstantClaim
  split
  · exact hfirst.trans (insertTransferOnce_keeps _)
  · exact hfirst

end Db

/-- Every write of the service, under an id it has issued, is a step of the tables. -/
theorem Write.exec_next {w : Write} (hinv : Inv db) (hissued : w.Issued db)
    (h : w.exec now db = .ok db') : Next db db' := by
  cases w with
  | insertRequest => exact Db.insertRequest_next hinv h
  | prepareLightningSend => exact Db.prepareLightningSend_next hinv hissued h
  | insertCoopExit => exact Db.insertCoopExit_next hinv h
  | insertDepositClaim => exact Db.insertDepositClaim_next hinv h
  | insertInstantClaim => exact Db.insertInstantClaim_next hinv h
  | pruneCompatRequests =>
      obtain rfl := Except.ok.inj h
      exact (Db.pruneCompatRequests_keeps _).next hinv
  -- the one write that gives a send a payment id, and the node's ids are hashes
  | bindLightningPayment id paymentId =>
      have h : db.bindLightningPayment now id paymentId = .ok db' := h
      unfold Db.bindLightningPayment at h
      obtain ⟨-, h⟩ := guard_ok h
      obtain ⟨-, h⟩ := guard_ok h
      obtain rfl := Except.ok.inj h
      apply Keeps.next _ hinv
      apply Db.updateSends_keeps
      intro r id hid
      exact .inr (Option.some.inj hid ▸ hissued)
  -- it writes the send and the table of payments, which no response reads
  | setPayment id status =>
      obtain rfl := Except.ok.inj h
      apply Keeps.next _ hinv
      have hsend : Keeps db (db.updateSends now
          (fun r => OpenSsp.Db.sendHasId id r && !r.intent.status.final)
          (OpenSsp.Db.setSendStatus status) fun _ => rfl) :=
        Db.updateSends_keeps_of_eq fun _ => rfl
      apply hsend.trans
      exact .of_eq rfl rfl rfl rfl rfl
  | setLightningSendRouteCltv | beginLightningSubmission | lightningSubmissionError
  | recordLightningFailure =>
      obtain rfl := Except.ok.inj h
      apply Keeps.next _ hinv
      exact Db.updateSends_keeps_of_eq fun _ => rfl
  -- these set keys of the payload that find no other row
  | recordLightningProof | saveSwapLeaves =>
      obtain rfl := Except.ok.inj h
      apply Keeps.next _ hinv
      apply Db.updatePayload_keeps
      intro r _ _ _ key hkey
      rw [Payload.text_set hkey (by decide), Payload.text_set hkey (by decide)]
  | completeSwap =>
      obtain rfl := Except.ok.inj h
      apply Keeps.next _ hinv
      apply Db.updatePayload_keeps
      intro r _ _ _ key hkey
      rw [Payload.text_set hkey (by decide)]
  | saveDepositClaim r =>
      obtain rfl := Except.ok.inj h
      exact Db.saveDepositClaim_keeps.next hinv
  | saveInstantClaim r =>
      obtain rfl := Except.ok.inj h
      exact (Db.saveInstantClaim_keeps hinv hissued).next hinv
  | markReceiveClaimable hash paymentId amountMsat =>
      have h : db.markReceiveClaimable now hash paymentId amountMsat = .ok db' := h
      unfold Db.markReceiveClaimable at h
      obtain ⟨-, h⟩ := guard_ok h
      obtain ⟨-, h⟩ := guard_ok h
      obtain rfl := Except.ok.inj h
      exact (Db.upsertReceivePayment_keeps _ _ _).next hinv
  -- two statements, one after the other
  | commitLightningReceiveSwap =>
      obtain ⟨db₁, htransfer, h⟩ := bind_ok h
      obtain rfl := Except.ok.inj h
      apply Keeps.next _ hinv
      exact (Db.upsertReceiveTransfer_keeps htransfer).trans (Db.upsertReceivePayment_keeps _ _ _)
  | markReceiveClaimSubmitted hash =>
      have h : db.markReceiveClaimSubmitted now hash = .ok db' := h
      unfold Db.markReceiveClaimSubmitted at h
      dsimp only at h
      split at h
      · obtain rfl := Except.ok.inj h
        exact (Db.updateReceivePayments_keeps _ _ _).next hinv
      · cases h
  | setReceiveStatus =>
      obtain rfl := Except.ok.inj h
      exact (Db.upsertReceivePayment_keeps _ _ _).next hinv
  | failExternalReceive =>
      obtain rfl := Except.ok.inj h
      exact (Db.updateReceivePayments_keeps _ _ _).next hinv
  | bindBolt12Receive offerId hash =>
      have h : db.bindBolt12Receive offerId hash = .ok db' := h
      unfold Db.bindBolt12Receive at h
      dsimp only at h
      split at h
      · obtain rfl := Except.ok.inj h
        exact (Db.settleReceives_keeps _ _).next hinv
      · cases h
  | commitBolt12Receive =>
      obtain rfl := Except.ok.inj h
      exact (Db.commitBolt12Receive_keeps _ _ _ _ _).next hinv
  | insertTransfer => exact (Db.insertTransfer_keeps h).next hinv
  | reserveInternalSend => exact (Db.reserveInternalSend_keeps h).next hinv
  | finishInternalSend => exact (Db.finishInternalSend_keeps h).next hinv
  | updateCoopExit record =>
      obtain rfl := Except.ok.inj h
      exact (Db.updateCoopExit_keeps record).next hinv

end OpenSsp.Updates
