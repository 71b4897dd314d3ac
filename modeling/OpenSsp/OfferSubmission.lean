/-
OpenSsp/OfferSubmission.lean

A BOLT12 send is submitted once, and found again by its note.

LDK gives a payment of an offer a random id, so a lost answer cannot be repeated.  The store
hands out the claim that precedes a submission once (`claims_once`), and a submission follows
its claim at once (`SubmitGround.once`).  A payment that recovery binds carries the request id
of its send in the payer note, and request ids are unique (`recovered_pays`,
`validated_unique`).

Main result: `offer_sends_recovered`.
-/
import OpenSsp.ReceivePayout

namespace OpenSsp

open Interleave

variable {D : Deployment} {ok : Config (machine D) → Move (machine D) → Prop}

/-! ### Claims and submissions -/

/-- The store hands out the claim to submit the send `id`. -/
def claimsSend (id : String) (e : Event Api) : Bool :=
  match e with
  | ⟨.db (.beginLightningSubmission k), .ok true⟩ => k == id
  | _ => false

/-- LDK is asked to pay the offer of the send `id`, whatever it answers. -/
def submitsOffer (id : String) (e : Event Api) : Bool :=
  match e.call with
  | .ldk (.submit send _) => send.requestId == id && send.kind == .bolt12
  | _ => false

theorem claimsSend_iff {id : String} {e : Event Api} :
    claimsSend id e = true ↔ e = dbEvent (.beginLightningSubmission id) true := by
  constructor
  · intro h
    unfold claimsSend at h
    split at h
    · obtain rfl := eq_of_beq h
      rfl
    · cases h
  · rintro rfl
    exact beq_self_eq_true id

theorem submitsOffer_eq {id : String} {c : Call} {r : c.Reply}
    (h : submitsOffer id ⟨c, r⟩ = true) : ∃ (send : LightningSend) (amountMsat : Option Nat),
      c = .ldk (.submit send amountMsat) ∧ send.requestId = id ∧ send.kind = .bolt12 := by
  unfold submitsOffer at h
  split at h
  · next send amountMsat hc =>
      rw [Bool.and_eq_true, beq_iff_eq, beq_iff_eq] at h
      exact ⟨send, amountMsat, hc, h⟩
  · cases h

/-- A claim turns the row of the send from `PREPARED` to `SUBMITTING`. -/
theorem Db.beginLightningSubmission_true {db db' : Db} {id : String}
    (h : db.beginLightningSubmission id = (true, db')) :
    (∃ r ∈ db.sends.rows, r.intent.requestId = id ∧ r.intent.status = .prepared) ∧
    ∃ r ∈ db'.sends.rows, r.intent.requestId = id ∧ r.intent.status ≠ .prepared := by
  obtain ⟨hcount, rfl⟩ := Prod.mk.inj h
  rw [beq_iff_eq] at hcount
  obtain ⟨r, hr, hp⟩ := Table.count_pos (Nat.lt_of_lt_of_eq Nat.zero_lt_one hcount.symm)
  have hp' := hp
  simp only [Bool.and_eq_true, beq_iff_eq] at hp'
  constructor
  · exact ⟨r, hr, hp'⟩
  · refine ⟨setSendStatus .submitting r, ?_, hp'.1, by simp [setSendStatus]⟩
    refine List.mem_map.mpr ⟨r, hr, ?_⟩
    exact if_pos hp

/-- A send is claimed at most once. -/
theorem claims_once {s : Config (machine D)} (hs : Reach ok s) (id : String) :
    (s.trace.filter fun x => claimsSend id x.2).length ≤ 1 := by
  refine hs.invariant (J := fun s => (s.trace.filter fun x => claimsSend id x.2).length ≤ 1)
    (Nat.zero_le 1) ?_
  intro s s' m hr ih hm hst
  rcases Config.step_cases hst with ⟨r, -, rfl⟩ | ⟨t, ch, c, k, hist, r, w, rfl, hth, hp, rfl⟩ |
    ⟨t, th, -, -, rfl⟩ | ⟨-, rfl⟩ | ⟨o, w, -, -, rfl⟩
  · exact ih
  · by_cases hc : claimsSend id ⟨c, r⟩ = true
    · -- the row was `PREPARED`, so nobody has claimed it before
      have hnone : (s.trace.filter fun x => claimsSend id x.2) = [] := by
        rw [List.filter_eq_nil_iff]
        rintro ⟨u, e⟩ hmem he
        obtain rfl := claimsSend_iff.mp he
        obtain ⟨h₀, s₀, s₁, hmo, hg⟩ := reach_happened hr hmem
        obtain ⟨db₁, hrun₁, hw₁⟩ := moment_db hmo
        obtain ⟨-, r₁, hr₁, hid₁, hst₁⟩ :=
          Db.beginLightningSubmission_true (Except.ok.inj hrun₁)
        obtain ⟨r₂, hr₂, hc₂⟩ := hg.db.sends r₁ (by rw [hw₁]; exact hr₁)
        have hnow : Moment ok t (dbEvent (.beginLightningSubmission id) true) hist s
            (s.record t w hist ⟨c, r⟩ (k r)) := by
          have hev := claimsSend_iff.mp hc
          obtain ⟨rfl, hr'⟩ := Event.mk.inj hev
          obtain rfl := eq_of_heq hr'
          exact ⟨hr, ch, k, hth, hm, hp, rfl⟩
        obtain ⟨db₂, hrun₂, -⟩ := moment_db hnow
        obtain ⟨⟨r₃, hr₃, hid₃, hst₃⟩, -⟩ :=
          Db.beginLightningSubmission_true (Except.ok.inj hrun₂)
        obtain rfl := Db.send_eq hr₂ hr₃ (hc₂.same.requestId.trans (hid₁.trans hid₃.symm))
        exact hc₂.claimed hst₁ hst₃
      simp [Config.record, hc, hnone]
    · simpa [Config.record, hc] using ih
  · exact ih
  · exact ih
  · exact ih

/-- A BOLT12 send is submitted at most once. -/
theorem submitted_once {s : Config (machine D)} (hs : Reach ok s) (id : String) :
    (s.trace.filter fun x => submitsOffer id x.2).length ≤ 1 := by
  refine Reach.once_each (A := claimsSend id) (C := submitsOffer id) ?_ ?_ ?_ hs
  · intro e he
    rw [claimsSend_iff.mp he]
    rfl
  · intro s hs
    exact claims_once hs id
  · intro s t ch c k h r w hr hth _ _ hc
    obtain ⟨send, amountMsat, rfl, hid, hk⟩ := submitsOffer_eq hc
    have hg : SubmitGround D h send := reach_justified hr hth
    obtain ⟨older, rfl⟩ := hg.once hk
    exact ⟨_, older, rfl, claimsSend_iff.mpr (by rw [hid])⟩

/-! ### Recovered payments -/

/-- The payment pays the offer of the intent: outbound, with its note and its amount. -/
structure LightningSend.PaidBy (a : LightningSend) (p : Payment) : Prop where
  direction : p.direction = .outbound
  kind : ∃ hash preimage,
    p.kind = some (.bolt12Offer a.expectedId hash preimage (some a.payerNote))
  amount : p.amountMsat = some (a.amountSats * 1000)

/-- What an offer must cost: nothing but the intent says it. -/
theorem expectedMsat_offer {a : LightningSend} {msat : Nat} (ho : isOffer a.invoice = true)
    (h : expectedMsat D a = .ok msat) : msat = a.amountSats * 1000 := by
  have hnone : (D.parseInvoice a.invoice).toOption = none := by
    rcases hi : D.parseInvoice a.invoice with e | i
    · rfl
    · rw [D.invoice_not_offer _ i hi] at ho
      cases ho
  unfold expectedMsat at h
  rw [hnone] at h
  unfold checkedMul at h
  simp only [Option.bind_none] at h
  split at h
  · exact (Except.ok.inj h).symm
  · cases h

/-- A payment that passes the checks of an unbound BOLT12 intent pays it. -/
theorem LightningSend.PaidBy.of_validate {a : LightningSend} {p : Payment}
    (h : validateSendPayment D a p = .ok ()) (hk : a.kind = .bolt12)
    (ho : isOffer a.invoice = true) (hfree : a.paymentId = none) : a.PaidBy p := by
  obtain ⟨msat, hmsat, hd, hamount, hi⟩ := validateSendPayment_ok h
  refine ⟨hd, ?_, by rw [hamount, expectedMsat_offer ho hmsat]⟩
  rcases hp : p.kind with - | kind
  · simp [identityMatches, hk, hp] at hi
  · cases kind with
    | bolt11 => simp [identityMatches, hk, hp] at hi
    | bolt12Offer offerId hash preimage note =>
        obtain ⟨rfl, rfl⟩ : offerId = a.expectedId ∧ note = some a.payerNote := by
          simpa [identityMatches, hk, hp, hfree] using hi
        exact ⟨hash, preimage, rfl⟩
    | other => simp [identityMatches, hk, hp] at hi

section run

variable {s : Config (machine D)}

/-- A payment is bound to an unbound BOLT12 send as the answer of its submission, or because it
pays the send. -/
theorem recovered_pays (hs : Reach ok s) {t : Nat} {th : Thread Api} (hth : s.thread t = some th)
    {requestId paymentId : String} (hnext : th.prog.next = some
      (.db (.bindLightningPayment requestId paymentId))) {r : SendRow}
    (hr : r ∈ s.world.db.sends.rows) (hid : r.intent.requestId = requestId)
    (hk : r.intent.kind = .bolt12) (hfree : r.intent.paymentId = none) :
    (∃ (send : LightningSend) (amountMsat : Option Nat), send.requestId = requestId ∧
      ldkEvent (.submit send amountMsat) paymentId ∈ th.history) ∨
    ∃ p ∈ s.world.ldk.seen, p.paymentId = paymentId ∧ r.intent.PaidBy p := by
  obtain ⟨prog, h⟩ := th
  rcases prog with u | ⟨c, cont⟩
  · cases hnext
  obtain rfl := Option.some.inj hnext
  have hg : BindGround D h requestId paymentId := reach_justified hs hth
  cases hg with
  | submitted send amountMsat mem hsend known => exact .inl ⟨send, amountMsat, hsend, mem⟩
  | recovered send p known hp valid hsend hpid =>
      right
      have hc := known_row hs hth known hr (hsend.trans hid.symm)
      have hsame := hc.same
      -- a reading of the send from before it was bound
      have hunbound : send.paymentId = none := by
        rcases hb : send.paymentId with - | id
        · rfl
        · rw [hc.paymentId id hb] at hfree
          cases hfree
      have hoffer : isOffer send.invoice = true := by
        rw [← hsame.invoice]
        exact ((reach_base hs r hr).bolt12 hk).1
      obtain ⟨hd, hkind, hamount⟩ :=
        LightningSend.PaidBy.of_validate valid (hsame.kind ▸ hk) hoffer hunbound
      refine ⟨p, hp.seen hs hth, hpid, hd, ?_, by rw [hsame.amountSats]; exact hamount⟩
      unfold LightningSend.payerNote
      rw [hsame.expectedId, hsame.requestId]
      exact hkind

/-- A payment the node knows passes the checks of a send only if it was made for it. -/
theorem validated_expects (hs : Reach anyMove s) {r : SendRow} (hr : r ∈ s.world.db.sends.rows)
    {p : Payment} (hp : p ∈ s.world.ldk.seen) (hv : validateSendPayment D r.intent p = .ok ()) :
    r.intent.Expects p := by
  rcases LightningSend.Expects.of_validate hv with hbound | hexpects
  · obtain ⟨q, hq, hqid, hexpects⟩ := (reach_sends hs r hr).bound _ hbound
    exact hexpects.agree (s.world.ldk.agree q hq p hp hqid)
  · exact hexpects

/-- A payment the node knows passes the checks of one send only. -/
theorem validated_unique (hs : Reach anyMove s) {r r' : SendRow}
    (hr : r ∈ s.world.db.sends.rows) (hr' : r' ∈ s.world.db.sends.rows) {p : Payment}
    (hp : p ∈ s.world.ldk.seen) (hv : validateSendPayment D r.intent p = .ok ())
    (hv' : validateSendPayment D r'.intent p = .ok ()) : r = r' := by
  have h := (validated_expects hs hr hp hv).identity
  rw [(validated_expects hs hr' hp hv').identity] at h
  rcases hk : r.intent.kind with - | -
  · rcases hk' : r'.intent.kind with - | -
    · -- two BOLT11 sends of one hash
      simp only [hk, hk', Option.some.injEq, PaymentKind.bolt11.injEq, and_true] at h
      obtain ⟨i, -, he⟩ := (reach_base hs r hr).bolt11 hk
      refine (reach_unique hs).expected r hr r' hr' hk hk' ?_ h.symm
      intro hempty
      have hlen := i.paymentHash.text_length
      rw [← he, hempty] at hlen
      exact absurd hlen (by decide)
    · simp [hk, hk'] at h
  · rcases hk' : r'.intent.kind with - | -
    · simp [hk, hk'] at h
    · -- two BOLT12 sends of one note
      simp only [hk, hk', Option.some.injEq, PaymentKind.bolt12Offer.injEq, true_and] at h
      exact (Db.send_eq hr' hr (payerNote_injective h.2)).symm

end run

/-- **BOLT12 sends.**  A send is submitted at most once; what recovery binds to it pays it; and
no payment passes the checks of two sends. -/
theorem offer_sends_recovered {s : Config (machine D)} (hs : Reach anyMove s) :
    (∀ id, (s.trace.filter fun x => submitsOffer id x.2).length ≤ 1) ∧
    (∀ t th requestId paymentId, s.thread t = some th →
      th.prog.next = some (.db (.bindLightningPayment requestId paymentId)) →
      ∀ r ∈ s.world.db.sends.rows, r.intent.requestId = requestId → r.intent.kind = .bolt12 →
      r.intent.paymentId = none →
        (∃ (send : LightningSend) (amountMsat : Option Nat), send.requestId = requestId ∧
          ldkEvent (.submit send amountMsat) paymentId ∈ th.history) ∨
        ∃ p ∈ s.world.ldk.seen, p.paymentId = paymentId ∧ r.intent.PaidBy p) ∧
    ∀ r ∈ s.world.db.sends.rows, ∀ r' ∈ s.world.db.sends.rows, ∀ p ∈ s.world.ldk.seen,
      validateSendPayment D r.intent p = .ok () → validateSendPayment D r'.intent p = .ok () →
      r = r' := by
  refine ⟨submitted_once hs, ?_, ?_⟩
  · intro t th requestId paymentId hth hnext r hr hid hk hfree
    exact recovered_pays hs hth hnext hr hid hk hfree
  · intro r hr r' hr' p hp hv hv'
    exact validated_unique hs hr hr' hp hv hv'

/-! ### A lost answer -/

namespace Sample

/-- The transfer with which `alice` prepays a send. -/
def prepaid : Transfer where
  id := uuid 7
  senderId := ⟨"alice"⟩
  receiverId := ⟨"ssp"⟩
  totalValueSat := 1
  transferType := .transfer
  status := .completed
  expiryTime := none
  leaves := []

/-- She pays an offer, and the answer of LDK is lost. -/
def sendOffer : List (Move (machine .sample)) :=
  let verify : List Choice := [.number 0, .done, .transfer (some prepaid)]
  .spawn (.lightningSend "alice" ⟨"lno1x", some 1, (uuid 7).print, ""⟩) ::
  calls 0 ([.done, .done, .done] ++ verify ++ [.uuid (uuid 1), .done, .done] ++ verify ++
    [.done, .fail "connection reset", .done])

/-- What LDK made of it. -/
def paymentOfOffer : Payment :=
  let note := "open-ssp:" ++ (uuid 1).print
  ⟨attemptId 'c', some (.bolt12Offer "lno1x" none none (some note)), some 1000, .outbound, .pending⟩

/-- After a restart the payment is found again. -/
def recoverOffer : List (Move (machine .sample)) :=
  sendOffer ++ .crash :: .spawn (.reconcileRequest (uuid 1).print) ::
  calls 1 [.done, .done, .page [paymentOfOffer] none]

/-- Is program 1, which has submitted nothing itself, about to bind the payment? -/
def bindsOffer (s : Config (machine .sample)) : Bool :=
  match s.thread 1 with
  | some ⟨.call (.db (.bindLightningPayment id paymentId)) _, h⟩ =>
      paymentId == attemptId 'c' &&
      (h.all fun e => match e.call with | .ldk (.submit ..) => false | _ => true) &&
      s.world.db.sends.rows.any fun r => r.intent.requestId == id && r.intent.kind == .bolt12 &&
        r.intent.paymentId == none
  | _ => false

end Sample

theorem offer_sends_recovered_lost_reply : ∃ (s : Config (machine .sample)) (r : SendRow),
    Reach anyMove s ∧ r ∈ s.world.db.sends.rows ∧ r.intent.paymentId = none ∧
      (s.next 1) = some (.db (.bindLightningPayment r.intent.requestId (Sample.attemptId 'c'))) ∧
      ∃ p ∈ s.world.ldk.seen, p.paymentId = Sample.attemptId 'c' ∧ r.intent.PaidBy p := by
  obtain ⟨s, hs, hp⟩ := Reach.exists_of_moves Sample.recoverOffer Sample.bindsOffer
    (by decide +kernel)
  unfold Sample.bindsOffer at hp
  split at hp
  · next id paymentId k h hth =>
      simp only [Bool.and_eq_true, List.any_eq_true, List.all_eq_true, beq_iff_eq] at hp
      obtain ⟨⟨rfl, hquiet⟩, r, hr, ⟨rfl, hk⟩, hfree⟩ := hp
      refine ⟨s, r, hs, hr, hfree, by simp [Config.next, hth, Prog.next], ?_⟩
      rcases (offer_sends_recovered hs).2.1 1 _ _ _ hth rfl r hr rfl hk hfree with
        ⟨send, amountMsat, -, hmem⟩ | hpaid
      · cases hquiet _ hmem
      · exact hpaid
  · cases hp

end OpenSsp
