/-
OpenSsp/SendInvariant.lean

What holds of the tables in every reachable state: the receives, and the sends.

* `ReceiveBase`: a receive is keyed by lower-case text and has an invoice of its kind.
* `SendBase`: a send has a request of its own, the identity its invoice or offer gives
  it, and a transfer to the SSP that pays for it.
* `SendOk`: the payment it is bound to was made for it, and its final status is backed by
  what happened to the user's money.

Each method of the tables is treated once, by the step lemmas of `DbSteps`; whatever
else happens only adds evidence (`reach_tables`).
-/
import OpenSsp.Knowledge

namespace OpenSsp

open Interleave

variable {D : Deployment} {ok : Config (machine D) → Move (machine D) → Prop}

/-! ### Invariants of the tables -/

/-- A move leaves the tables alone, or is a method that succeeds. -/
theorem step_tables {s s' : Config (machine D)} {m : Move (machine D)} (hst : s.step m = some s') :
    s'.world.db = s.world.db ∨ ∃ t ch q k hist a db', m = .run t ch ∧
      s.thread t = some ⟨.call (.db q) k, hist⟩ ∧
      q.run s.world.now s.world.db = .ok (a, db') ∧ s'.world = { s.world with db := db' } := by
  rcases Config.step_cases hst with ⟨r, -, rfl⟩ |
    ⟨t, ch, c, k, hist, r, w, rfl, hth, hp, rfl⟩ | ⟨t, th, -, -, rfl⟩ | ⟨-, rfl⟩ |
    ⟨o, w, -, ho, rfl⟩
  · exact .inl rfl
  · have hp : perform D t c ch s.world = some (r, w) := hp
    by_cases hc : ∃ q, c = .db q
    · obtain ⟨q, rfl⟩ := hc
      rcases perform_db hp with ⟨a, db', hrun, -, rfl⟩ | ⟨e, -, rfl⟩
      · exact .inr ⟨t, ch, q, k, hist, a, db', rfl, hth, hrun, rfl⟩
      · exact .inl rfl
    · exact .inl (perform_tables hp fun q hq => hc ⟨q, hq⟩)
  · exact .inl rfl
  · exact .inl rfl
  · exact .inl (outside_tables ho).1

/-- Induction over a run for what the tables and growing evidence say: it is enough to
look at the methods of the tables. -/
theorem reach_tables_allowed {J : World → Prop} (h0 : J .init)
    (hgrow : ∀ w w' : World, w'.db = w.db → w.Grows w' → J w → J w')
    (hquery : ∀ (s : Config (machine D)) t ch q k hist a db', Reach ok s →
      s.thread t = some ⟨.call (.db q) k, hist⟩ → ok s (.run t ch) →
      q.run s.world.now s.world.db = .ok (a, db') →
      s.world.Grows { s.world with db := db' } → J s.world → J { s.world with db := db' })
    {s : Config (machine D)} (hs : Reach ok s) : J s.world := by
  refine hs.invariant (J := fun s => J s.world) h0 ?_
  intro s s' m hr ih hm hst
  have hg := reach_grows hr hst
  rcases step_tables hst with hdb | ⟨t, ch, q, k, hist, a, db', rfl, hth, hrun, hw⟩
  · exact hgrow s.world s'.world hdb hg ih
  · rw [hw] at hg ⊢
    exact hquery s t ch q k hist a db' hr hth hm hrun hg ih

/-- The same in runs of any moves. -/
theorem reach_tables {J : World → Prop} (h0 : J .init)
    (hgrow : ∀ w w' : World, w'.db = w.db → w.Grows w' → J w → J w')
    (hquery : ∀ (s : Config (machine D)) t q k hist a db', Reach ok s →
      s.thread t = some ⟨.call (.db q) k, hist⟩ →
      q.run s.world.now s.world.db = .ok (a, db') →
      s.world.Grows { s.world with db := db' } → J s.world → J { s.world with db := db' })
    {s : Config (machine D)} (hs : Reach ok s) : J s.world :=
  reach_tables_allowed h0 hgrow
    (fun s t _ q k hist a db' hr hth _ => hquery s t q k hist a db' hr hth) hs

theorem reach_unique {s : Config (machine D)} (hs : Reach ok s) : s.world.db.Unique := by
  refine reach_tables (J := fun w => w.db.Unique) Db.Unique.empty ?_ ?_ hs
  · intro w w' hdb _ hu
    rw [hdb]
    exact hu
  · intro s t q k hist a db' _ _ hrun _ hu
    exact Db.run_unique hrun hu

/-! ### Receives -/

/-- A receive is keyed by lower-case text, and BOLT11 ones have a BOLT11 invoice. -/
structure ReceiveBase (D : Deployment) (k : String) (l : ReceiveRow) : Prop where
  key : ∃ x, k = lowercase x
  invoice : l.kind = .bolt11 → ∃ i, D.parseInvoice l.invoice = .ok i

theorem reach_receives {s : Config (machine D)} (hs : Reach ok s) {k : String} {l : ReceiveRow}
    (h : s.world.db.receives.get k = some l) : ReceiveBase D k l := by
  refine reach_tables (J := fun w => ∀ k l, w.db.receives.get k = some l → ReceiveBase D k l)
    ?_ ?_ ?_ hs k l h
  · intro k l h
    simp [World.init, Db.empty] at h
  · intro w w' hdb _ ih k l h
    exact ih k l (hdb ▸ h)
  · intro s t q cont hist a db' hr hth hrun _ ih k l h
    rcases Db.receives_step hrun with ⟨-, g, hsame, hget⟩ |
      ⟨id, owner, created, p, rfl, hins, -⟩
    · rw [hget] at h
      obtain ⟨l₀, hl₀, rfl⟩ := Option.map_eq_some_iff.mp h
      obtain ⟨hkey, hinv⟩ := ih k l₀ hl₀
      refine ⟨hkey, fun hkind => ?_⟩
      rw [(hsame l₀).invoice]
      exact hinv ((hsame l₀).kind ▸ hkind)
    · -- the payload of a new receive was checked before it was stored
      obtain ⟨hkey, hinv⟩ : StoresSound D (.lightningReceive p) := reach_justified hr hth
      rw [Table.get_insert hins] at h
      split at h
      · next hrow =>
          obtain rfl := Option.some.inj h
          exact ⟨hrow ▸ hkey, hinv⟩
      · exact ih k l h

/-- The canonical text of a receive's hash is its key. -/
theorem reach_key_text {s : Config (machine D)} (hs : Reach ok s) {k : String} {l : ReceiveRow}
    (h : s.world.db.receives.get k = some l) {b : Bytes32} (hb : Bytes32.parse k = some b) :
    b.text = k := by
  obtain ⟨x, rfl⟩ := (reach_receives hs h).key
  rw [Bytes32.text_of_parse hb, lowercase_lowercase]

/-! ### What a send is -/

structure SendBase (D : Deployment) (w : World) (a : LightningSend) : Prop where
  requestId : a.requestId.length = 36
  request : (w.db.requests.get a.requestId).isSome
  bolt11 : a.kind = .bolt11 → ∃ i, D.parseInvoice a.invoice = .ok i ∧
    a.expectedId = i.paymentHash.text
  bolt12 : a.kind = .bolt12 → isOffer a.invoice = true ∧ D.offerId a.invoice = .ok a.expectedId
  funded : w.spark.Funds D a

theorem Operators.Funds.congr {s : Operators} {a a' : LightningSend} (h : s.Funds D a)
    (hs : a'.SameIntent a) : s.Funds D a' := by
  cases h with
  | bolt11 kind t mem id type =>
      exact .bolt11 (hs.kind.trans kind) t mem (id.trans hs.outboundTransferId.symm) type
  | bolt12 kind t mem id type completed key owner sender receiver amount =>
      exact .bolt12 (hs.kind.trans kind) t mem (by rw [hs.outboundTransferId, id]) type completed
        key (by rw [hs.owner, owner]) sender receiver (amount.trans hs.amountSats.symm)

theorem SendBase.grows {w w' : World} {a a' : LightningSend} (h : SendBase D w a)
    (hs : a'.SameIntent a) (hg : w.Grows w') : SendBase D w' a' where
  requestId := by rw [hs.requestId, h.requestId]
  request := by
    rw [hs.requestId]
    exact (hg.db.requests _).isSome h.request
  bolt11 hk := by
    rw [hs.invoice, hs.expectedId]
    exact h.bolt11 (hs.kind ▸ hk)
  bolt12 hk := by
    rw [hs.invoice, hs.expectedId]
    exact h.bolt12 (hs.kind ▸ hk)
  funded := (h.funded.congr hs).grows hg.spark

/-- The hash of a BOLT11 send is the text of thirty-two bytes. -/
theorem SendBase.expectedId_ne {w : World} {a : LightningSend} (h : SendBase D w a)
    (hk : a.kind = .bolt11) : a.expectedId ≠ "" := by
  obtain ⟨i, -, hi⟩ := h.bolt11 hk
  intro he
  have hl := i.paymentHash.text_length
  rw [← hi, he] at hl
  simp at hl

/-- A prepared intent is sound when it is written. -/
theorem Funded.base {s : Config (machine D)} (hs : Reach ok s) {t : Nat} {th : Thread Api}
    (hth : s.thread t = some th) {send : LightningSend} (hk : Funded D th.history send)
    {w : World} (hg : s.world.Grows w) (hreq : (w.db.requests.get send.requestId).isSome) :
    SendBase D w send := by
  have hfunds := (hk.funds hs hth).grows hg.spark
  cases hk with
  | bolt11 i items q x uuid kind invoice identity mem funds fresh =>
      refine ⟨by rw [fresh.1, uuid.print_length], hreq, fun _ => ⟨i, invoice, identity⟩,
        fun hk => ?_, hfunds⟩
      exact absurd (kind.symm.trans hk) (by simp)
  | bolt12 u x uuid kind offer identity mem funds fresh =>
      refine ⟨by rw [fresh.1, uuid.print_length], hreq, fun hk => ?_, fun _ => ⟨offer, ?_⟩, hfunds⟩
      · exact absurd (kind.symm.trans hk) (by simp)
      · obtain ⟨seen, ha, -⟩ := ldk_fact hs hth identity
        exact ha

theorem reach_base {s : Config (machine D)} (hs : Reach ok s) :
    ∀ r ∈ s.world.db.sends.rows, SendBase D s.world r.intent := by
  refine reach_tables (J := fun w => ∀ r ∈ w.db.sends.rows, SendBase D w r.intent) ?_ ?_ ?_ hs
  · intro r hr
    simp [World.init, Db.empty, Table.empty] at hr
  · intro w w' hdb hg ih r hr
    exact (ih r (hdb ▸ hr)).grows (.refl _) hg
  · intro s t q k hist a db' hr hth hrun hg ih x hx
    rcases Db.sends_step hrun with ⟨g, hrows, hstep⟩ | ⟨send, key, network, rfl, hrows, -⟩
    · obtain ⟨r, hr', rfl⟩ := List.mem_map.mp (hrows ▸ hx)
      exact (ih r hr').grows (hstep r hr').same hg
    · rcases List.mem_cons.mp (hrows ▸ hx) with rfl | hx
      · -- the new row
        obtain ⟨requests, sends, transfers, ⟨-, hid, -⟩, hins, -, -, -, -, rfl⟩ :=
          Db.prepareLightningSend_ok hrun
        have hreq : (requests.get send.requestId).isSome := by
          rw [Table.get_insert hins, if_pos hid]
          rfl
        obtain ⟨hfund, -⟩ : Funded D hist send ∧ key ≠ "" := reach_justified hr hth
        exact (hfund.base hr hth hg hreq).grows ⟨rfl, rfl, rfl, rfl, rfl, rfl, rfl, rfl⟩ (.refl _)
      · exact (ih x hx).grows (.refl _) hg

/-! ### What happened to a send -/

/-- The payment was made for the intent. -/
structure LightningSend.Expects (a : LightningSend) (p : Payment) : Prop where
  direction : p.direction = .outbound
  identity : p.kind.map PaymentKind.identity = some (match a.kind with
    | .bolt11 => .bolt11 a.expectedId none none
    | .bolt12 => .bolt12Offer a.expectedId none none (some a.payerNote))

namespace LightningSend.Expects

variable {a b : LightningSend} {p q : Payment}

theorem congr (h : a.Expects p) (hs : b.SameIntent a) : b.Expects p := by
  refine ⟨h.direction, ?_⟩
  rw [h.identity, hs.kind, hs.expectedId, LightningSend.payerNote, LightningSend.payerNote,
    hs.requestId]

theorem agree (h : a.Expects p) (hpq : p.Agree q) : a.Expects q :=
  ⟨hpq.direction ▸ h.direction, hpq.identity ▸ h.identity⟩

/-- A validated payment is the one already bound, or was made for the intent. -/
theorem of_validate (h : validateSendPayment D a p = .ok ()) :
    a.paymentId = some p.paymentId ∨ a.Expects p := by
  by_cases hid : a.paymentId = some p.paymentId
  · exact .inl hid
  right
  obtain ⟨msat, -, hd, -, hi⟩ := validateSendPayment_ok h
  refine ⟨hd, ?_⟩
  have hknown : (a.paymentId == some p.paymentId) = false := by simpa using hid
  rcases hk : a.kind with - | -
  · rcases hp : p.kind with - | ⟨hash, preimage, fee⟩ | ⟨o, hash, preimage, note⟩ | -
    · simp [identityMatches, hk, hp] at hi
    · have hh : hash = a.expectedId := by simpa [identityMatches, hk, hp, hknown] using hi
      rw [hh]
      rfl
    · simp [identityMatches, hk, hp] at hi
    · simp [identityMatches, hk, hp] at hi
  · rcases hp : p.kind with - | ⟨hash, preimage, fee⟩ | ⟨o, hash, preimage, note⟩ | -
    · simp [identityMatches, hk, hp] at hi
    · simp [identityMatches, hk, hp] at hi
    · obtain ⟨ho, hn⟩ : o = a.expectedId ∧ note = some a.payerNote := by
        simpa [identityMatches, hk, hp, hknown] using hi
      rw [ho, hn]
      rfl
    · simp [identityMatches, hk, hp] at hi

/-- The payment LDK answers a submission with was made for the intent. -/
theorem of_answers {w : World} (hb : SendBase D w a) (h : answersIntent D a p = true) :
    a.Expects p := by
  simp only [answersIntent, Bool.and_eq_true, beq_iff_eq] at h
  obtain ⟨hd, h⟩ := h
  refine ⟨hd, ?_⟩
  rcases hk : a.kind with - | -
  · obtain ⟨i, hi, he⟩ := hb.bolt11 hk
    simp only [hk, hi, Except.toOption, Option.any_some, beq_iff_eq] at h
    rw [h, he]
  · obtain ⟨-, ho⟩ := hb.bolt12 hk
    simp only [hk, ho, Except.toOption, Option.any_some, beq_iff_eq] at h
    exact h

end LightningSend.Expects

/-- What `SUCCEEDED` stands for: the user's HTLC was claimed, or the payment's proof was
recorded and LDK has paid. -/
def LightningSend.Paid (w : World) (a : LightningSend) : Prop :=
  match a.kind with
  | .bolt11 => w.spark.Settled a.outboundTransferId a.expectedId
  | .bolt12 => (w.db.proofOf a.requestId).isSome ∧
      ∃ p ∈ w.ldk.seen, a.paymentId = some p.paymentId ∧ p.status = .succeeded

/-- Binding and final status of a send are backed by the outside. -/
structure SendOk (D : Deployment) (w : World) (a : LightningSend) : Prop where
  bound : ∀ id, a.paymentId = some id → ∃ p ∈ w.ldk.seen, p.paymentId = id ∧ a.Expects p
  succeeded : a.status = .succeeded → a.Paid w
  failed : a.status = .failed → a.kind = .bolt12 →
    w.spark.Refunded D a.owner a.outboundTransferId a.amountSats

theorem LightningSend.Paid.grows {w w' : World} {a a' : LightningSend} (h : a.Paid w)
    (hs : a'.SameIntent a) (hp : ∀ id, a.paymentId = some id → a'.paymentId = some id)
    (hg : w.Grows w') : a'.Paid w' := by
  unfold LightningSend.Paid at h ⊢
  rw [hs.kind, hs.outboundTransferId, hs.expectedId, hs.requestId]
  rcases hk : a.kind with - | -
  · rw [hk] at h
    exact Operators.Settled.grows h hg.spark
  · rw [hk] at h
    obtain ⟨hproof, p, hmem, hid, hst⟩ := h
    exact ⟨hg.db.proofs _ hproof, p, hg.ldk p hmem, hp _ hid, hst⟩

theorem SendOk.grows {w w' : World} {a : LightningSend} (h : SendOk D w a) (hg : w.Grows w') :
    SendOk D w' a where
  bound id hid := by
    obtain ⟨p, hp, hx⟩ := h.bound id hid
    exact ⟨p, hg.ldk p hp, hx⟩
  succeeded hst := (h.succeeded hst).grows (.refl a) (fun _ h => h) hg
  failed hst hk := (h.failed hst hk).grows hg.spark

section query

variable {s : Config (machine D)} {t : Nat} {th : Thread Api}

/-- The row of an intent the program knows. -/
theorem known_row (hs : Reach ok s) (hth : s.thread t = some th) {send : LightningSend}
    (hk : KnownSend th.history send) {r : SendRow} (hr : r ∈ s.world.db.sends.rows)
    (hid : send.requestId = r.intent.requestId) : send.Continues r.intent := by
  obtain ⟨r', hr', hc⟩ := hk.row hs hth
  obtain rfl := Db.send_eq hr' hr (hc.same.requestId.trans hid)
  exact hc

/-- The row of an intent the program has read by the id of a payment. -/
theorem read_row (hs : Reach ok s) (hth : s.thread t = some th) {id : String}
    {send : LightningSend} (hread : dbEvent (.lightningSendForPayment id) (some send) ∈ th.history)
    (hlen : id.length = 64) : ∃ r ∈ s.world.db.sends.rows, send.Continues r.intent ∧
      send.paymentId = some id := by
  obtain ⟨s₀, db', -, hrun, hg⟩ := db_fact hs hth hread
  obtain ⟨ha, rfl⟩ := Prod.mk.inj (Except.ok.inj hrun)
  obtain ⟨r, hr, rfl, hid⟩ := Db.lightningSendForPayment_mem ha
  obtain ⟨r', hr', hc⟩ := hg.sends r hr
  refine ⟨r', hr', hc, ?_⟩
  rcases hid with hid | hid
  · -- request ids are shorter than payment ids
    have h36 := (reach_base hs r' hr').requestId
    rw [hc.same.requestId, hid, hlen] at h36
    exact absurd h36 (by decide)
  · exact hid

/-- A payment id is never the request id of a send. -/
theorem bound_of_id (hs : Reach ok s) {r : SendRow} (hr : r ∈ s.world.db.sends.rows)
    {id : String} (hlen : id.length = 64)
    (hid : r.intent.requestId = id ∨ r.intent.paymentId = some id) :
    r.intent.paymentId = some id := by
  rcases hid with hid | hid
  · have h36 := (reach_base hs r hr).requestId
    rw [hid, hlen] at h36
    exact absurd h36 (by decide)
  · exact hid

/-- The send a payment id leads to is the one bound to it. -/
theorem read_eq (hs : Reach ok s) (hth : s.thread t = some th) {id : String}
    {send : LightningSend} (hread : dbEvent (.lightningSendForPayment id) (some send) ∈ th.history)
    (hlen : id.length = 64) {r : SendRow} (hr : r ∈ s.world.db.sends.rows)
    (hid : r.intent.requestId = id ∨ r.intent.paymentId = some id) :
    send.Continues r.intent ∧ r.intent.paymentId = some id := by
  obtain ⟨r', hr', hc, hsend⟩ := read_row hs hth hread hlen
  have hbound := bound_of_id hs hr hlen hid
  obtain rfl := (reach_unique hs).payment r' hr' r hr id (hc.paymentId id hsend) hbound
  exact ⟨hc, hbound⟩

/-- A local invoice is a BOLT11 invoice, so the send is a BOLT11 send. -/
theorem Local.bolt11 (hs : Reach ok s) (hth : s.thread t = some th) {send : LightningSend}
    (hl : Local th.history send) {w : World} (hb : SendBase D w send) : send.kind = .bolt11 := by
  obtain ⟨hash, hmem⟩ := hl
  obtain ⟨s₀, db', hs₀, hrun, -⟩ := db_fact hs hth hmem
  obtain ⟨ha, rfl⟩ := Prod.mk.inj (Except.ok.inj hrun)
  obtain ⟨l, hl, rfl⟩ := Option.map_eq_some_iff.mp ha
  have hx := List.find?_some hl
  simp only [Bool.and_eq_true, beq_iff_eq] at hx
  have hget := Table.mem_iff_get.mp (List.mem_of_find?_eq_some hl)
  obtain ⟨i, hi⟩ := (reach_receives hs₀ hget).invoice hx.2
  rcases hk : send.kind with - | -
  · rfl
  · have hoffer := (hb.bolt12 hk).1
    rw [← hx.1, D.invoice_not_offer _ i hi] at hoffer
    exact absurd hoffer (by decide)

/-- A recorded proof is still there. -/
theorem ProofRecorded.proof (hs : Reach ok s) (hth : s.thread t = some th)
    {send : LightningSend} (hp : ProofRecorded th.history send) :
    (s.world.db.proofOf send.requestId).isSome := by
  obtain ⟨newer, older, hash, preimage, hk, hh⟩ := hp
  obtain ⟨s₀, s₁, hm, hg⟩ := reach_knows hs hth hh
  obtain ⟨db', hrun, hw⟩ := moment_db hm
  obtain ⟨ch, k, hth₀, -⟩ := hm.made
  -- the send's request was there when the proof was recorded
  obtain ⟨r, hr, hc⟩ := hk.row hm.reach hth₀
  have hreq := (reach_base hm.reach r hr).request
  rw [hc.same.requestId] at hreq
  refine hg.db.proofs _ ?_
  rw [hw]
  obtain ⟨-, rfl⟩ := Prod.mk.inj (Except.ok.inj hrun)
  obtain ⟨x, hx⟩ := Option.isSome_iff_exists.mp hreq
  simp [Db.proofOf, Table.get_update, hx, Table.key_of_get hx]

/-- What a send is being bound to was made for it. -/
theorem BindGround.expects (hs : Reach ok s) (hth : s.thread t = some th) {r : SendRow}
    (hr : r ∈ s.world.db.sends.rows) (hok : SendOk D s.world r.intent) {id : String}
    (hb : BindGround D th.history r.intent.requestId id) :
    ∃ p ∈ s.world.ldk.seen, p.paymentId = id ∧ r.intent.Expects p := by
  cases hb with
  | submitted send amountMsat mem hid known =>
      obtain ⟨seen, ⟨p, hp, hpid, hans⟩, hsub⟩ := ldk_fact hs hth mem
      have hc := known_row hs hth known hr hid
      have hbase := (reach_base hs r hr).grows hc.same.symm (.refl _)
      exact ⟨p, hsub p hp, hpid, (LightningSend.Expects.of_answers hbase hans).congr hc.same⟩
  | recovered send p known hp valid hid hpid =>
      have hc := known_row hs hth known hr hid
      rcases LightningSend.Expects.of_validate valid with hbound | hx
      · rw [← hpid]
        exact hok.bound _ (hc.paymentId _ hbound)
      · exact ⟨p, hp.seen hs hth, hpid, hx.congr hc.same⟩

theorem SuccessGround.paid (hs : Reach ok s) (hth : s.thread t = some th) {id : String}
    {p : Payment} {send : LightningSend} (hg : SuccessGround D th.history id p send) {r : SendRow}
    (hr : r ∈ s.world.db.sends.rows)
    (hid : r.intent.requestId = id ∨ r.intent.paymentId = some id) : r.intent.Paid s.world := by
  obtain ⟨hseen, hst⟩ := hg.succeeded.seen hs hth
  have hlen : id.length = 64 := hg.hid ▸ s.world.ldk.ids p hseen
  obtain ⟨hc, hbound⟩ := read_eq hs hth hg.read hlen hr hid
  have hbase := (reach_base hs r hr).grows hc.same.symm (.refl _)
  unfold LightningSend.Paid
  rcases hk : r.intent.kind with - | -
  · have hk' : send.kind = .bolt11 := hc.same.kind ▸ hk
    obtain ⟨preimage, fee, hkind⟩ := validateSendPayment_bolt11 hg.valid hk'
      (hbase.expectedId_ne hk')
    have hsettled := (hg.bolt11 _ preimage fee hkind).settled hs hth
    rw [← hc.same.outboundTransferId, ← hc.same.expectedId] at hsettled
    exact hsettled
  · have hk' : send.kind = .bolt12 := hc.same.kind ▸ hk
    have hproof := (hg.bolt12 hk').proof hs hth
    rw [← hc.same.requestId] at hproof
    exact ⟨hproof, p, hseen, by rw [hbound, hg.hid], hst⟩

/-- An internal payment is settled before it is finished. -/
theorem internal_paid (hs : Reach ok s) (hth : s.thread t = some th) {send : LightningSend}
    (hk : KnownSend th.history send) (hl : Local th.history send)
    (hf : SettledFunding th.history send.outboundTransferId send.expectedId) {r : SendRow}
    (hr : r ∈ s.world.db.sends.rows) (hid : r.intent.requestId = send.requestId) :
    r.intent.Paid s.world := by
  have hc := known_row hs hth hk hr hid.symm
  have hbase := (reach_base hs r hr).grows hc.same.symm (.refl _)
  have h11 := hl.bolt11 hs hth hbase
  unfold LightningSend.Paid
  rw [hc.same.kind, h11, hc.same.outboundTransferId, hc.same.expectedId]
  exact hf.settled hs hth

theorem FailureGround.refunded (hs : Reach ok s) (hth : s.thread t = some th) {id : String}
    (hg : FailureGround D th.history id) {r : SendRow} (hr : r ∈ s.world.db.sends.rows)
    (hok : SendOk D s.world r.intent)
    (hid : r.intent.requestId = id ∨ r.intent.paymentId = some id) (hk : r.intent.kind = .bolt12) :
    s.world.spark.Refunded D r.intent.owner r.intent.outboundTransferId r.intent.amountSats := by
  cases hg with
  | payment send failed read refunded =>
      obtain ⟨p, hp, hpid, -⟩ := failed.seen hs hth
      have hlen : id.length = 64 := hpid ▸ s.world.ldk.ids p hp
      obtain ⟨hc, -⟩ := read_eq hs hth read hlen hr hid
      have href := (refunded (hc.same.kind ▸ hk)).refunded hs hth
      rwa [hc.same.owner, hc.same.outboundTransferId, hc.same.amountSats]
  | internal send known hl hsend =>
      -- a local invoice: the send it fails is a BOLT11 send, and `r` is not
      exfalso
      obtain ⟨r', hr', hc⟩ := known.row hs hth
      have hbase := (reach_base hs r' hr').grows hc.same.symm (.refl _)
      have h36 := hbase.requestId
      have hrid : r.intent.requestId = id := by
        rcases hid with hid | hid
        · exact hid
        · obtain ⟨p, hp, hpid, -⟩ := hok.bound id hid
          have hlen := s.world.ldk.ids p hp
          rw [hpid, ← hsend, h36] at hlen
          exact absurd hlen (by decide)
      obtain rfl := Db.send_eq hr' hr (by rw [hc.same.requestId, hsend, hrid])
      rw [hc.same.kind, hl.bolt11 hs hth hbase] at hk
      exact absurd hk (by decide)

/-- One method keeps what is known about a send. -/
theorem sendOk_step (hs : Reach ok s) {q : Query} {k : Api.Reply (Call.db q) → Prog Api Unit}
    {hist : History Api} (hth : s.thread t = some ⟨.call (.db q) k, hist⟩) {r r' : SendRow}
    (hr : r ∈ s.world.db.sends.rows) (hok : SendOk D s.world r.intent)
    (hstep : Db.SendStep q r r') : SendOk D s.world r'.intent := by
  have hj := reach_justified hs hth
  have hc := hstep.progress.continues hstep.same (justified_unprepares hj)
  have hsame := hstep.same
  -- a status that stays is backed as before
  have hpaid : r.intent.status = .succeeded → r'.intent.Paid s.world := fun h =>
    (hok.succeeded h).grows hsame hc.paymentId (.refl _)
  have hrefunded : r.intent.status = .failed → r'.intent.kind = .bolt12 →
      s.world.spark.Refunded D r'.intent.owner r'.intent.outboundTransferId
        r'.intent.amountSats := by
    intro h hk
    rw [hsame.owner, hsame.outboundTransferId, hsame.amountSats]
    exact hok.failed h (hsame.kind ▸ hk)
  have hbound : ∀ id, r'.intent.paymentId = r.intent.paymentId → r'.intent.paymentId = some id →
      ∃ p ∈ s.world.ldk.seen, p.paymentId = id ∧ r'.intent.Expects p := by
    intro id hp hid
    obtain ⟨p, hmem, hpid, hx⟩ := hok.bound id (hp ▸ hid)
    exact ⟨p, hmem, hpid, hx.congr hsame⟩
  cases hstep.progress with
  | none hp hst =>
      exact ⟨fun id => hbound id hp, fun h => hpaid (hst ▸ h), fun h => hrefunded (hst ▸ h)⟩
  | begun hq hst hp hst' =>
      refine ⟨fun id => hbound id hp, fun h => ?_, fun h => ?_⟩
      · exact absurd (hst'.symm.trans h) (by decide)
      · exact absurd (hst'.symm.trans h) (by decide)
  | bound id hq free hp hst =>
      subst hq
      refine ⟨fun id' hid' => ?_, fun h => ?_, fun h => ?_⟩
      · obtain rfl : id = id' := Option.some.inj (hp.symm.trans hid')
        obtain ⟨p, hmem, hpid, hx⟩ := BindGround.expects hs hth hr hok hj
        exact ⟨p, hmem, hpid, hx.congr hsame⟩
      · rw [hst] at h
        split at h
        · exact absurd h (by decide)
        · exact hpaid h
      · rw [hst] at h
        split at h
        · exact absurd h (by decide)
        · exact hrefunded h
  | set id status hq hid hopen hp hst =>
      subst hq
      refine ⟨fun id => hbound id hp, fun h => ?_, fun h hk => ?_⟩
      · obtain rfl : status = .succeeded := hst.symm.trans h
        obtain ⟨p, send, hg⟩ : ∃ p send, SuccessGround D hist id p send := hj
        exact (hg.paid hs hth hr hid).grows hsame hc.paymentId (.refl _)
      · obtain rfl : status = .failed := hst.symm.trans h
        have hg : FailureGround D hist id := hj
        rw [hsame.owner, hsame.outboundTransferId, hsame.amountSats]
        exact hg.refunded hs hth hr hok hid (hsame.kind ▸ hk)
  | reserved send hq hid hp hst =>
      refine ⟨fun id => hbound id hp, fun h => ?_, fun h => ?_⟩
      · exact absurd (hst.symm.trans h) (by decide)
      · exact absurd (hst.symm.trans h) (by decide)
  | finished send hq hid hp hst =>
      subst hq
      obtain ⟨hk, hl, hf, -⟩ := hj
      refine ⟨fun id => hbound id hp, fun _ => ?_, fun h => ?_⟩
      · exact (internal_paid hs hth hk hl hf hr hid).grows hsame hc.paymentId (.refl _)
      · exact absurd (hst.symm.trans h) (by decide)

end query

/-- **In every reachable state a send's binding and final status are backed.** -/
theorem reach_sends {s : Config (machine D)} (hs : Reach ok s) :
    ∀ r ∈ s.world.db.sends.rows, SendOk D s.world r.intent := by
  refine reach_tables (J := fun w => ∀ r ∈ w.db.sends.rows, SendOk D w r.intent) ?_ ?_ ?_ hs
  · intro r hr
    simp [World.init, Db.empty, Table.empty] at hr
  · intro w w' hdb hg ih r hr
    exact (ih r (hdb ▸ hr)).grows hg
  · intro s t q k hist a db' hr hth hrun hg ih x hx
    rcases Db.sends_step hrun with ⟨g, hrows, hstep⟩ | ⟨send, key, network, rfl, hrows, -⟩
    · obtain ⟨r, hr', rfl⟩ := List.mem_map.mp (hrows ▸ hx)
      exact (sendOk_step hr hth hr' (ih r hr') (hstep r hr')).grows hg
    · rcases List.mem_cons.mp (hrows ▸ hx) with rfl | hx
      · -- a prepared send is unbound and open
        exact ⟨fun id hid => by simp [Db.preparedRow] at hid,
          fun h => by simp [Db.preparedRow] at h, fun h => by simp [Db.preparedRow] at h⟩
      · exact (ih x hx).grows hg

end OpenSsp
