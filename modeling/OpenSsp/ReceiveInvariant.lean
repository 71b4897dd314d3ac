/-
OpenSsp/ReceiveInvariant.lean

What holds of a receive and its payment in every reachable state.

* `PaymentOk`: a stored preimage fits the hash and comes with a payout, and an attempt
  is bound only to a receive it was made for.
* `ReservationOk`: a reserved receive has no attempt, and the reserved send pays the
  same hash and amount.
* `reach_swapped`: the operators are asked for a receive swap only after the receive has
  an attempt or an internal payer.
-/
import OpenSsp.SendInvariant

namespace OpenSsp

open Interleave

variable {D : Deployment} {ok : Config (machine D) → Move (machine D) → Prop}

/-! ### Stored proofs -/

theorem reach_proofs {s : Config (machine D)} (hs : Reach ok s) {k hash preimage : String}
    (h : s.world.db.proofOf k = some (hash, preimage)) : IsPreimage hash preimage := by
  refine reach_tables (J := fun w => ∀ k hash preimage,
    w.db.proofOf k = some (hash, preimage) → IsPreimage hash preimage) ?_ ?_ ?_ hs k hash preimage h
  · intro k hash preimage h
    simp [World.init, Db.empty, Db.proofOf] at h
  · intro w w' hdb _ ih k hash preimage h
    exact ih k hash preimage (hdb ▸ h)
  · intro s t q cont hist a db' hr hth hrun _ ih k hash preimage h
    rcases (Db.requests_step hrun k).2 with hsame | ⟨hash', preimage', rfl, hnew⟩
    · exact ih k hash preimage (hsame ▸ h)
    · have hj : validatePreimage hash' preimage' = .ok () := reach_justified hr hth
      have hp := hnew.symm.trans h
      obtain ⟨x, -, hx⟩ := Option.map_eq_some_iff.mp hp
      obtain ⟨rfl, rfl⟩ := Prod.mk.inj hx
      exact isPreimage_of_validatePreimage hj

/-! ### Payments of receives -/

structure PaymentOk (w : World) (k : String) : Prop where
  preimage : ∀ p, (w.db.receivePayment k).preimage = some p → IsPreimage k p
  payout : (w.db.receivePayment k).preimage.isSome → (w.db.receivePayment k).transferId.isSome
  bound : ∀ id, (w.db.receivePayment k).paymentId = some id →
    (w.db.receives.get k).isSome ∧ (w.db.receivePayment k).claimableAmountMsat.isSome ∧
    w.ldk.hasAttempt id k = true

theorem hasAttempt_grows {n n' : LdkNode} (h : ∀ p ∈ n.seen, p ∈ n'.seen) {id hash : String}
    (ha : n.hasAttempt id hash = true) : n'.hasAttempt id hash = true := by
  obtain ⟨p, hp, hx⟩ := List.any_eq_true.mp ha
  exact List.any_eq_true.mpr ⟨p, h p hp, hx⟩

theorem Db.Grows.receives_isSome {db db' : Db} (h : db.Grows db') {k : String}
    (hk : (db.receives.get k).isSome) : (db'.receives.get k).isSome := by
  obtain ⟨l, hl⟩ := Option.isSome_iff_exists.mp hk
  obtain ⟨l', hl', -⟩ := h.receives k l hl
  exact Option.isSome_of_mem hl'

/-- A payment that the step leaves alone is as sound as before. -/
theorem PaymentOk.grows {w w' : World} {k : String} (h : PaymentOk w k)
    (hp : Db.SameMoney (w.db.receivePayment k) (w'.db.receivePayment k)) (hg : w.Grows w') :
    PaymentOk w' k where
  preimage p hpre := h.preimage p (hp.preimage ▸ hpre)
  payout hpre := by
    rw [hp.transferId]
    exact h.payout (hp.preimage ▸ hpre)
  bound id hid := by
    obtain ⟨hl, hc, ha⟩ := h.bound id (hp.paymentId ▸ hid)
    exact ⟨hg.db.receives_isSome hl, hp.claimable ▸ hc, hasAttempt_grows hg.ldk ha⟩

/-- A program that has read the row of a receive knows that the receive is there. -/
theorem read_receive {s : Config (machine D)} (hs : Reach ok s) {t : Nat} {th : Thread Api}
    (hth : s.thread t = some th) {hash : String} {r : LightningReceive}
    (hread : dbEvent (.lightningReceiveForHash hash) (some r) ∈ th.history) :
    ∃ l, s.world.db.receives.get hash = some l ∧ r.requestId = l.requestId ∧ r.owner = l.owner ∧
      r.receiver = l.receiver ∧ r.amountSats = l.amountSats ∧ r.invoice = l.invoice := by
  obtain ⟨s₀, db', -, hrun, hg⟩ := db_fact hs hth hread
  obtain ⟨ha, rfl⟩ := Prod.mk.inj (Except.ok.inj hrun)
  obtain ⟨l, hl, rfl⟩ := Option.map_eq_some_iff.mp ha
  obtain ⟨l', hl', hsame, -⟩ := hg.receives hash l hl
  exact ⟨l', hl', hsame.requestId.symm, hsame.owner.symm, hsame.receiver.symm,
    hsame.amountSats.symm, hsame.invoice.symm⟩

theorem reach_payments {s : Config (machine D)} (hs : Reach ok s) (k : String) :
    PaymentOk s.world k := by
  refine reach_tables (J := fun w => ∀ k, PaymentOk w k) ?_ ?_ ?_ hs k
  · intro k
    constructor <;> simp [World.init, Db.empty, Db.receivePayment, Db.freshReceivePayment]
  · intro w w' hdb hg ih k
    exact (ih k).grows (by rw [hdb]; exact .refl _) hg
  · intro s t q cont hist a db' hr hth hrun hg ih k
    have hj := reach_justified hr hth
    -- a step of the table leaves the receive, binds a payment, or stores a payout
    cases Db.receive_step hrun k with
    | none same => exact (ih k).grows same hg
    | bound id amount hq free hid hamount ht hp =>
        subst hq
        -- the node has announced the payment that is bound
        obtain ⟨-, ⟨x, hrep, hxid, hxhash, -⟩, -, -, r, hread⟩ := hj
        have hattempt : KnownAttempt hist id k := ⟨x, hrep, hxid, hxhash⟩
        obtain ⟨l, hl, -⟩ := read_receive hr hth hread
        refine ⟨fun p hpre => (ih k).preimage p (hp ▸ hpre), fun hpre => ?_, fun id' hid' => ?_⟩
        · show (db'.receivePayment k).transferId.isSome
          rw [ht]
          exact (ih k).payout (hp ▸ hpre)
        · obtain rfl : id = id' := Option.some.inj (hid.symm.trans hid')
          refine ⟨hg.db.receives_isSome (Option.isSome_of_mem hl), ?_, hattempt.seen hr hth⟩
          show (db'.receivePayment k).claimableAmountMsat.isSome
          rw [hamount]
          rfl
    | paid transferId preimage requestId owner hq hid hamount ht hp =>
        subst hq
        -- the preimage was checked before it was stored
        obtain ⟨-, hvalid, -⟩ := hj
        refine ⟨fun p hpre => ?_, fun _ => ?_, fun id' hid' => ?_⟩
        · obtain rfl : preimage = p := Option.some.inj (hp.symm.trans hpre)
          exact isPreimage_of_validatePreimage hvalid
        · show (db'.receivePayment k).transferId.isSome
          rw [ht]
          rfl
        · obtain ⟨hl, hc, ha⟩ := (ih k).bound id' (hid.symm.trans hid')
          refine ⟨hg.db.receives_isSome hl, ?_, ha⟩
          show (db'.receivePayment k).claimableAmountMsat.isSome
          rwa [hamount]
    | completed paymentHash transferId requestId owner hq hid hamount ht hp =>
        refine ⟨fun p hpre => (ih k).preimage p (hp ▸ hpre), fun _ => ?_, fun id' hid' => ?_⟩
        · show (db'.receivePayment k).transferId.isSome
          rw [ht]
          rfl
        · obtain ⟨hl, hc, ha⟩ := (ih k).bound id' (hid.symm.trans hid')
          refine ⟨hg.db.receives_isSome hl, ?_, ha⟩
          show (db'.receivePayment k).claimableAmountMsat.isSome
          rwa [hamount]

/-! ### What the holder of the guard knows of a receive -/

section kept

variable {s : Config (machine D)} {t : Nat} {th : Thread Api} {hash : String}

/-- A method that succeeded under the guard, and the part it told about. -/
theorem db_kept (hs : Reach ok s) (hth : s.thread t = some th) (hh : Holds .receive th.history)
    {p : Part} {q : Query} {a : q.Out} (he : Since (Quiet p) (dbEvent q a) th.history) :
    ∃ (w : World) (db' : Db), q.run w.now w.db = .ok (a, db') ∧
      p.Same { w with db := db' } s.world := by
  obtain ⟨older, s₀, s₁, hm, hsame, -⟩ := reach_kept hs hth hh he
  obtain ⟨db', hrun, hw⟩ := moment_db hm
  exact ⟨s₀.world, db', hrun, hw ▸ hsame⟩

theorem kept_internal (hs : Reach ok s) (hth : s.thread t = some th)
    (hh : Holds .receive th.history) {payer : Option String}
    (he : Since (Quiet .reservation) (dbEvent (.internalSend hash) payer) th.history) :
    s.world.db.internalSend hash = payer := by
  obtain ⟨w, db', hrun, hsame⟩ := db_kept hs hth hh he
  obtain ⟨ha, rfl⟩ := Prod.mk.inj (Except.ok.inj hrun)
  have hint : s.world.db.internalPayments = w.db.internalPayments := hsame
  rw [← ha, Db.internalSend, hint, Db.internalSend]

theorem kept_claimable (hs : Reach ok s) (hth : s.thread t = some th)
    (hh : Holds .receive th.history) {id : String} {msat : Nat}
    (he : Since (Quiet .bound) (dbEvent (.markReceiveClaimable hash id msat) ()) th.history) :
    (s.world.db.receivePayment hash).paymentId = some id ∧
      (s.world.db.receivePayment hash).claimableAmountMsat = some msat := by
  obtain ⟨w, db', hrun, hsame⟩ := db_kept hs hth hh he
  obtain ⟨hid, hamount⟩ := hsame hash
  obtain ⟨hid', hamount'⟩ := Db.markReceiveClaimable_row hrun
  exact ⟨hid.trans hid', hamount.trans hamount'⟩

theorem kept_bound (hs : Reach ok s) (hth : s.thread t = some th)
    (hh : Holds .receive th.history) {r : LightningReceive}
    (he : Since (Quiet .bound) (dbEvent (.lightningReceiveForHash hash) (some r)) th.history) :
    (s.world.db.receivePayment hash).paymentId = r.paymentId := by
  obtain ⟨w, db', hrun, hsame⟩ := db_kept hs hth hh he
  obtain ⟨ha, rfl⟩ := Prod.mk.inj (Except.ok.inj hrun)
  obtain ⟨l, -, rfl⟩ := Option.map_eq_some_iff.mp ha
  exact (hsame hash).1

theorem kept_payout (hs : Reach ok s) (hth : s.thread t = some th)
    (hh : Holds .receive th.history) {r : LightningReceive}
    (he : Since (Quiet .payout) (dbEvent (.lightningReceiveForHash hash) (some r)) th.history) :
    (s.world.db.receivePayment hash).preimage = r.preimage ∧
      (s.world.db.receivePayment hash).transferId = r.transferId := by
  obtain ⟨w, db', hrun, hsame⟩ := db_kept hs hth hh he
  obtain ⟨ha, rfl⟩ := Prod.mk.inj (Except.ok.inj hrun)
  obtain ⟨l, -, rfl⟩ := Option.map_eq_some_iff.mp ha
  exact hsame hash

end kept

/-! ### Reservations -/

/-- A reserved receive has no backend attempt, and its payer owes the same amount. -/
structure ReservationOk (w : World) (k sendId : String) : Prop where
  unbound : (w.db.receivePayment k).paymentId = none
  payer : ∃ l, w.db.receives.get k = some l ∧ ∃ x ∈ w.db.sends.rows,
    x.intent.requestId = sendId ∧ x.intent.expectedId = k ∧ l.amountSats = x.intent.amountSats

/-- The payer stays. -/
theorem payer_grows {w w' : World} {k sendId : String} (hg : w.Grows w')
    (h : ∃ l, w.db.receives.get k = some l ∧ ∃ x ∈ w.db.sends.rows,
      x.intent.requestId = sendId ∧ x.intent.expectedId = k ∧
      l.amountSats = x.intent.amountSats) :
    ∃ l, w'.db.receives.get k = some l ∧ ∃ x ∈ w'.db.sends.rows,
      x.intent.requestId = sendId ∧ x.intent.expectedId = k ∧
      l.amountSats = x.intent.amountSats := by
  obtain ⟨l, hl, x, hx, hid, he, ha⟩ := h
  obtain ⟨l', hl', hsame, -⟩ := hg.db.receives k l hl
  obtain ⟨x', hx', hc⟩ := hg.db.sends x hx
  exact ⟨l', hl', x', hx', hc.same.requestId.trans hid, hc.same.expectedId.trans he,
    by rw [hsame.amountSats, ha, hc.same.amountSats]⟩

theorem reach_reservations {s : Config (machine D)} (hs : Reach ok s) {k : String}
    {r : InternalPaymentRow} (h : s.world.db.internalPayments.get k = some r) :
    ReservationOk s.world k r.sendId := by
  refine reach_tables (J := fun w => ∀ k r, w.db.internalPayments.get k = some r →
    ReservationOk w k r.sendId) ?_ ?_ ?_ hs k r h
  · intro k r h
    simp [World.init, Db.empty] at h
  · intro w w' hdb hg ih k r h
    obtain ⟨hu, hp⟩ := ih k r (hdb ▸ h)
    exact ⟨hdb ▸ hu, payer_grows hg hp⟩
  · intro s t q cont hist a db' hr hth hrun hg ih k r h
    have hj := reach_justified hr hth
    -- a reservation from before: no attempt is being bound to it
    have hold : s.world.db.internalPayments.get k = some r →
        ReservationOk { s.world with db := db' } k r.sendId := by
      intro hk
      obtain ⟨hu, hp⟩ := ih k r hk
      refine ⟨?_, payer_grows hg hp⟩
      show (db'.receivePayment k).paymentId = none
      cases Db.receive_step hrun k with
      | none same => rw [same.paymentId, hu]
      | bound id amount hq free hid hamount ht hpre =>
          subst hq
          obtain ⟨hholds, -, hnone, -⟩ := hj
          have hfree := kept_internal hr hth hholds hnone
          simp [Db.internalSend, hk] at hfree
      | paid transferId preimage requestId owner hq hid => rw [hid, hu]
      | completed paymentHash transferId requestId owner hq hid => rw [hid, hu]
    rcases Db.internal_step hrun with hsame | ⟨send, l, rfl, hl, ha, hclaim, -, hins⟩
    · exact hold (hsame ▸ h)
    · rw [Table.get_insert hins] at h
      split at h
      · next hk =>
          -- the new reservation
          obtain rfl := Option.some.inj h
          obtain rfl : send.expectedId = k := hk
          obtain ⟨-, hknown⟩ := hj
          obtain ⟨x, hx, hc⟩ := hknown.row hr hth
          refine ⟨?_, payer_grows hg ⟨l, hl, x, hx, hc.same.requestId, hc.same.expectedId,
            ha.trans hc.same.amountSats.symm⟩⟩
          have hunbound : (s.world.db.receivePayment send.expectedId).paymentId = none := by
            rcases hp : (s.world.db.receivePayment send.expectedId).paymentId with - | id
            · rfl
            · have hsome := ((reach_payments hr send.expectedId).bound id hp).2.1
              rw [hclaim] at hsome
              exact absurd hsome (by simp)
          show (db'.receivePayment send.expectedId).paymentId = none
          cases Db.receive_step hrun send.expectedId with
          | none same => rw [same.paymentId, hunbound]
          | bound _ _ hq => simp at hq
          | paid _ _ _ _ hq => simp at hq
          | completed _ _ _ _ hq => simp at hq
      · exact hold h

end OpenSsp
