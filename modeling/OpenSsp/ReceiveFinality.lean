/-
OpenSsp/ReceiveFinality.lean

A receive that is `TRANSFER_COMPLETED` or `HTLC_FAILED` stays so.

Three writers do not look at the status they overwrite: the second step of a receive
request, `finish_received_payment`, and `commit_bolt12_receive`.  In runs in which none of
them meets a final status the others keep every one (`final_receives_stay`): they read the
receive as unfinished under the receive lock, and only under that lock a receive is finished.

* `reach_steady`: what the holder of the lock has learned while it stays calm is still so;
* `OpenRow.unfinished`: a receive that was read as unfinished is unfinished when it is
  written;
* `receive_resurrected`: a run in which the request's second step overwrites a final status.
-/
import OpenSsp.OrderContract
import OpenSsp.ReceiveFailure

namespace OpenSsp

open Interleave

variable {D : Deployment} {ok : Config (machine D) → Move (machine D) → Prop}

/-! ### What the tables do -/

namespace Db

variable {db db' : Db} {now : Nat}

theorem final_upsert {t : Table ReceivePaymentRow.hash} {row : ReceivePaymentRow}
    {f : ReceivePaymentRow → ReceivePaymentRow}
    {hf : ∀ r, ReceivePaymentRow.hash (f r) = ReceivePaymentRow.hash r}
    (hkeep : ∀ r, r.status.final = true → (f r).status = r.status) {k : String}
    (hfinal : (stored t k).status.final = true) :
    (stored (t.upsert row f hf) k).status = (stored t k).status := by
  rw [stored] at hfinal
  rw [stored, stored, Table.get_upsert]
  split
  · next hk =>
      subst hk
      rcases hg : t.get row.hash with - | r
      · rw [hg] at hfinal
        cases hfinal
      · rw [hg] at hfinal
        exact hkeep r hfinal
  · rfl

/-- A claimable attempt does not move a final status. -/
theorem markReceiveClaimable_final {hash id : String} {amount : Nat} {u : Unit}
    (h : db.markReceiveClaimable hash id amount = .ok (u, db')) {k : String}
    (hfinal : (db.receivePayment k).status.final = true) :
    (db'.receivePayment k).status = (db.receivePayment k).status := by
  obtain ⟨-, rfl⟩ := markReceiveClaimable_ok h
  rw [receivePayment_eq] at hfinal
  rw [receivePayment_eq, receivePayment_eq]
  refine final_upsert (fun r hr => if_pos ?_) hfinal
  cases hst : r.status <;> simp_all [ReceiveStatus.final]

/-- A method that decides nothing finishes no receive. -/
theorem status_calm {q : Query} {a : q.Out} (h : q.run now db = .ok (a, db'))
    (hq : (Call.db q).decides = false) {k : String}
    (hopen : (db.receivePayment k).status.final = false) :
    (db'.receivePayment k).status.final = false := by
  cases status_step h k with
  | none hs => rw [hs, hopen]
  | set status heq hs =>
      subst heq
      rw [hs]
      exact hq
  | claimable id amount heq hs => rw [hs]; rfl
  | paid transferId preimage requestId owner heq hs => rw [hs]; rfl
  | submitted heq hs => rw [hs]; rfl
  | failed id heq hs =>
      subst heq
      cases hq
  | completed paymentHash transferId requestId owner heq hs =>
      subst heq
      cases hq
  | finished send heq hh hs =>
      subst heq
      cases hq

/-- A receive is reserved while it is untouched, and for a send that has no other. -/
theorem reserveInternalSend_new {send : LightningSend} {u : Unit}
    (h : db.reserveInternalSend send now = .ok (u, db'))
    (hnew : db.internalSend send.expectedId = none) :
    (db.receivePayment send.expectedId).status = .invoiceCreated ∧
      ∀ r ∈ db.internalPayments.rows, r.sendId ≠ send.requestId := by
  unfold reserveInternalSend at h
  simp only [hnew] at h
  obtain ⟨hm, h⟩ := guard_ok h
  obtain ⟨hfree, -⟩ := guard_ok h
  rw [not_not, Option.any_eq_true_iff_get] at hm
  obtain ⟨_, hm⟩ := hm
  simp only [Bool.and_eq_true, beq_iff_eq] at hm
  refine ⟨hm.1.1.2, fun r hr he => hfree ?_⟩
  exact List.any_eq_true.mpr ⟨r, hr, beq_iff_eq.mpr he⟩

/-- The send of the row has succeeded. -/
def Succeeded (db : Db) (id : String) : Prop :=
  ∃ r ∈ db.sends.rows, r.intent.requestId = id ∧ r.intent.status = .succeeded

/-- It stays so unless the send is reserved once more. -/
theorem Succeeded.stays {id : String} (hs : db.Succeeded id) {q : Query} {a : q.Out}
    (h : q.run now db = .ok (a, db'))
    (hq : ∀ send, q = .reserveInternalSend send → send.requestId ≠ id) : db'.Succeeded id := by
  obtain ⟨r, hr, hid, hst⟩ := hs
  rcases sends_step h with ⟨g, hrows, hstep⟩ | ⟨send, key, network, -, hrows, -⟩
  · refine ⟨g r, hrows ▸ List.mem_map_of_mem hr, (hstep r hr).same.requestId.trans hid, ?_⟩
    cases (hstep r hr).progress with
    | none hp hs => rw [hs, hst]
    | begun heq hs hp hs' =>
        rw [hst] at hs
        cases hs
    | bound id' heq free hp hs =>
        rw [hs, hst]
        rfl
    | set id' status heq hid' hopen hp hs =>
        rw [hst] at hopen
        cases hopen
    | reserved send heq hid' hp hs => exact absurd (hid'.symm.trans hid) (hq send heq)
    | finished send heq hid' hp hs => exact hs
  · exact ⟨r, hrows ▸ List.mem_cons_of_mem _ hr, hid, hst⟩

end Db

/-! ### What the holder of the lock knows -/

/-- No receive has been reserved, and none that was unfinished is finished. -/
def Steady (w w' : World) : Prop :=
  w'.db.internalPayments = w.db.internalPayments ∧
    ∀ k, (w.db.receivePayment k).status.final = false →
      (w'.db.receivePayment k).status.final = false

theorem Steady.refl (w : World) : Steady w w := ⟨rfl, fun _ h => h⟩

theorem Steady.trans (a b c : World) (h : Steady a b) (h' : Steady b c) : Steady a c :=
  ⟨h'.1.trans h.1, fun k hk => h'.2 k (h.2 k hk)⟩

theorem Steady.of_db {w w' : World} (h : w'.db = w.db) : Steady w w' := by
  rw [Steady, h]
  exact ⟨rfl, fun _ hk => hk⟩

/-- A call that decides nothing. -/
theorem perform_steady {t : Nat} {c : Call} {ch : Choice} {w w' : World} {r : c.Reply}
    (h : perform D t c ch w = some (r, w')) (hc : c.decides = false) : Steady w w' := by
  by_cases hdb : ∃ q, c = .db q
  · obtain ⟨q, rfl⟩ := hdb
    rcases perform_db h with ⟨a, db', hrun, -, rfl⟩ | ⟨e, -, rfl⟩
    · refine ⟨?_, fun k hopen => Db.status_calm hrun hc hopen⟩
      rcases Db.internal_step hrun with hsame | ⟨send, l, rfl, -⟩
      · exact hsame
      · cases hc
    · exact .refl _
  · exact .of_db (perform_tables h fun q hq => hdb ⟨q, hq⟩)

/-- Without the lock nothing is decided but the status of a send. -/
theorem unheld_steady {h : History Api} {t : Nat} {c : Call} {ch : Choice} {w w' : World}
    {r : c.Reply} (hp : perform D t c ch w = some (r, w')) (hj : Justified D h c)
    (ho : Ordered h c) (hh : ¬ Holds .receive h) : Steady w w' := by
  rcases hc : c.decides with - | -
  · exact perform_steady hp hc
  by_cases hdb : ∃ q, c = .db q
  · obtain ⟨q, rfl⟩ := hdb
    rcases perform_db hp with ⟨a, db', hrun, -, rfl⟩ | ⟨e, -, rfl⟩
    · cases q with
      | reserveInternalSend send => exact absurd hj.1 hh
      | finishInternalSend send => exact absurd (PayerTurn.holds ho) hh
      | setPayment id status =>
          have hrows := Db.run_frame hrun
          refine ⟨hrows.internalPayments (by simp [Query.writes]), fun k hopen => ?_⟩
          rw [Db.receivePayment, hrows.receivePayments (by simp [Query.writes])]
          exact hopen
      | setReceiveStatus hash status =>
          rcases ho with rfl | hr | ⟨-, hholds, -⟩
          · cases hc
          · exact absurd hr.holds hh
          · exact absurd hholds hh
      | failExternalReceive hash id => exact absurd ho hh
      | commitBolt12Receive offerId hash transferId requestId owner =>
          obtain ⟨x, hg, -⟩ := hj
          exact absurd hg.paid.holds hh
      | _ => cases hc
    · exact .refl _
  · exact .of_db (perform_tables hp fun q hq => hdb ⟨q, hq⟩)

/-- The holder of the receive lock stays calm: what its own calm calls respect, and every call
of a program without the lock, relates the moment of `e` to the present. -/
theorem reach_calm {S : World → World → Prop} (hrefl : ∀ w, S w w)
    (htrans : ∀ a b c, S a b → S b c → S a c) (hsame : ∀ w w' : World, w'.db = w.db → S w w')
    (hcall : ∀ (s : Config (machine D)) t ch c k h r w, Reach ok s →
      s.thread t = some ⟨.call c k, h⟩ → perform D t c ch s.world = some (r, w) →
      c.decides = false ∨ ¬ Holds .receive h → S s.world w)
    {s : Config (machine D)} (hs : Reach ok s) {t : Nat} {th : Thread Api}
    (hth : s.thread t = some th) (hh : Holds .receive th.history) {e : Event Api}
    {older : History Api} (he : Extends Calm (e :: older) th.history) :
    ∃ s₀ s₁, Moment ok t e older s₀ s₁ ∧ S s₁.world s.world := by
  obtain ⟨newer, hnew, hcalm⟩ := he
  refine (guards D).learned_at (S := S) (q := Calm) hrefl htrans ?_ ?_
    (fun _ _ => hsame _ _ rfl) (fun _ => hsame _ _ rfl) ?_ hs hth (held_iff.mpr hh) hnew hcalm
  · intro x hx
    refine ⟨?_, hx.keeps_lock⟩
    rintro ⟨b, rfl⟩
    cases hx
  · intro s t ch c k h r w hr hth _ hp hx
    refine hcall s t ch c k h r w hr hth hp ?_
    rcases hx with hx | hx
    · exact .inl hx
    · exact .inr fun hholds => hx (held_iff.mpr hholds)
  · exact fun o w w' ho => hsame w w' (outside_tables ho).1

/-- What the holder of the lock has learned while it stays calm. -/
theorem reach_steady {s : Config (machine D)} (hs : Reach ok s) {t : Nat} {th : Thread Api}
    (hth : s.thread t = some th) (hh : Holds .receive th.history) {e : Event Api}
    {older : History Api} (he : Extends Calm (e :: older) th.history) :
    ∃ s₀ s₁, Moment ok t e older s₀ s₁ ∧ Steady s₁.world s.world := by
  refine reach_calm Steady.refl Steady.trans (fun _ _ => .of_db) ?_ hs hth hh he
  intro s t ch c k h r w hr hth hp hc
  rcases hc with hc | hc
  · exact perform_steady (D := D) hp hc
  · exact unheld_steady (D := D) hp (reach_justified hr hth) (reach_ordered hr hth) hc

/-- The answer of a method since when the holder of the lock has stayed calm. -/
theorem db_steady {s : Config (machine D)} (hs : Reach ok s) {t : Nat} {th : Thread Api}
    (hth : s.thread t = some th) (hh : Holds .receive th.history) {q : Query} {a : q.Out}
    (he : Since Calm (dbEvent q a) th.history) :
    ∃ (w : World) (db' : Db), q.run w.now w.db = .ok (a, db') ∧
      Steady { w with db := db' } s.world := by
  obtain ⟨newer, older, hnew, hcalm⟩ := he
  obtain ⟨s₀, s₁, hm, hsteady⟩ := reach_steady hs hth hh ⟨newer, hnew, hcalm⟩
  obtain ⟨db', hrun, hw⟩ := moment_db hm
  exact ⟨s₀.world, db', hrun, hw ▸ hsteady⟩

/-- A receive that had no local payer has none yet. -/
theorem free_kept {s : Config (machine D)} (hs : Reach ok s) {t : Nat} {th : Thread Api}
    (hth : s.thread t = some th) (hh : Holds .receive th.history) {k : String}
    (he : Since Calm (dbEvent (.internalSend k) none) th.history) :
    s.world.db.internalSend k = none := by
  obtain ⟨w, db', hrun, hsteady⟩ := db_steady hs hth hh he
  obtain ⟨ha, rfl⟩ := Prod.mk.inj (Except.ok.inj hrun)
  rw [Db.internalSend, hsteady.1]
  exact ha

/-! ### Runs in which the three writers meet no final status -/

/-- The second step of a receive request finds an unfinished receive.  A received payment finds
a receive that has not failed, and if it was for an offer one without a local payer. -/
def settlesOpenMove (s : Config (machine D)) : Move (machine D) → Bool
  | .run t _ => match s.next t with
      | some (.db (.setReceiveStatus k .invoiceCreated)) => !(s.world.db.receivePayment k).status.final
      | some (.db (.setReceiveStatus k .transferCompleted)) =>
          (s.world.db.receivePayment k).status != .htlcFailed
      | some (.db (.commitBolt12Receive k ..)) =>
          (s.world.db.receivePayment k).status != .htlcFailed && (s.world.db.internalSend k).isNone
      | _ => true
  | _ => true

def settlesOpen (s : Config (machine D)) (m : Move (machine D)) : Prop := settlesOpenMove s m = true

theorem ReceiveStatus.completed_of_final {status : ReceiveStatus} (h : status.final = true)
    (hne : status ≠ .htlcFailed) : status = .transferCompleted := by
  cases status with
  | transferCompleted => rfl
  | htlcFailed => exact absurd rfl hne
  | _ => cases h

section settlesOpen

variable {s : Config (machine D)} {t : Nat} {th : Thread Api} {k : String}

/-- The request's second step. -/
theorem settlesOpen.created {ch : Choice} {c : Api.Reply (Call.db (.setReceiveStatus k
      .invoiceCreated)) → Prog Api Unit} {hist : History Api}
    (hm : settlesOpen s (.run t ch)) (hth : s.thread t = some ⟨.call _ c, hist⟩) :
    (s.world.db.receivePayment k).status.final = false := by
  simpa [settlesOpen, settlesOpenMove, Config.next, hth, Prog.next] using hm

/-- A received payment. -/
theorem settlesOpen.received {ch : Choice} {c : Api.Reply (Call.db (.setReceiveStatus k
      .transferCompleted)) → Prog Api Unit} {hist : History Api}
    (hm : settlesOpen s (.run t ch)) (hth : s.thread t = some ⟨.call _ c, hist⟩) :
    (s.world.db.receivePayment k).status ≠ .htlcFailed := by
  simpa [settlesOpen, settlesOpenMove, Config.next, hth, Prog.next] using hm

/-- A received payment for an offer. -/
theorem settlesOpen.offer {ch : Choice} {hash transferId requestId owner : String}
    {c : Api.Reply (Call.db (.commitBolt12Receive k hash transferId requestId owner)) →
      Prog Api Unit} {hist : History Api}
    (hm : settlesOpen s (.run t ch)) (hth : s.thread t = some ⟨.call _ c, hist⟩) :
    (s.world.db.receivePayment k).status ≠ .htlcFailed ∧ s.world.db.internalSend k = none := by
  simpa [settlesOpen, settlesOpenMove, Config.next, hth, Prog.next] using hm

/-- A receive that was read as unfinished is unfinished, and has no local payer. -/
theorem OpenRead.kept (hs : Reach ok s) (hth : s.thread t = some th)
    (ho : OpenRead th.history k) : (s.world.db.receivePayment k).status.final = false ∧
      s.world.db.internalSend k = none := by
  constructor
  · obtain ⟨r, hopen, hread⟩ := ho.read
    obtain ⟨w, db', hrun, hsteady⟩ := db_steady hs hth ho.holds hread
    obtain ⟨ha, rfl⟩ := Prod.mk.inj (Except.ok.inj hrun)
    obtain ⟨l, -, rfl⟩ := Option.map_eq_some_iff.mp ha
    exact hsteady.2 k hopen
  · exact free_kept hs hth ho.holds ho.free

/-! ### Reserved receives -/

/-- A receive with a local payer has not failed, and is completed only with the payer's
send. -/
structure ReservedOpen (db : Db) (k sendId : String) : Prop where
  unfailed : (db.receivePayment k).status ≠ .htlcFailed
  paid : (db.receivePayment k).status = .transferCompleted → db.Succeeded sendId

/-- A finished internal send has succeeded. -/
theorem Db.finishInternalSend_succeeded {db db' : Db} {send : LightningSend} {u : Unit}
    (h : db.finishInternalSend send = .ok (u, db')) : db'.Succeeded send.requestId := by
  have hcount : db.sends.count (fun r => r.intent.requestId == send.requestId) = 1 := by
    unfold Db.finishInternalSend at h
    obtain ⟨hc, -⟩ := guard_ok h
    push Not at hc
    exact hc.1
  obtain ⟨r, hr, hid⟩ := Table.count_pos (by rw [hcount]; exact Nat.one_pos)
  obtain ⟨-, rfl⟩ := Db.finishInternalSend_ok h
  refine ⟨{ setSendStatus .succeeded r with lastError := none }, ?_, beq_iff_eq.mp hid, rfl⟩
  refine List.mem_map.mpr ⟨r, hr, ?_⟩
  rw [if_pos hid]

/-- The sends of reserved receives are not reserved once more. -/
theorem Db.Succeeded.reserved {db db' : Db} {now : Nat} {id k : String} (hs : db.Succeeded id)
    (hk : db.internalSend k = some id) {q : Query} {a : q.Out}
    (h : q.run now db = .ok (a, db')) : db'.Succeeded id := by
  by_cases hq : ∀ send, q = .reserveInternalSend send → send.requestId ≠ id
  · exact hs.stays h hq
  push Not at hq
  obtain ⟨send, rfl, rfl⟩ := hq
  rcases hnew : db.internalSend send.expectedId with - | payer
  · obtain ⟨r, hr, hid⟩ := Option.map_eq_some_iff.mp hk
    exact absurd hid ((Db.reserveInternalSend_new h hnew).2 r (Table.mem_of_get hr))
  · rcases Db.reserveInternalSend_ok h with ⟨rfl, -⟩ | ⟨l, ip, -, -, -, -, hins, -⟩
    · exact hs
    · -- the receive already has a payer
      obtain ⟨r, hr, -⟩ := Option.map_eq_some_iff.mp hnew
      rw [(Table.insert_eq_some hins).1] at hr
      cases hr

theorem ReservedOpen.of_open {db : Db} {k sendId : String}
    (h : (db.receivePayment k).status.final = false) : ReservedOpen db k sendId where
  unfailed hf := by simp [hf, ReceiveStatus.final] at h
  paid hc := by simp [hc, ReceiveStatus.final] at h

/-- A local payer was there before, or comes with a reservation. -/
theorem Db.internalSend_step {db db' : Db} {now : Nat} {q : Query} {a : q.Out}
    (h : q.run now db = .ok (a, db')) {k sendId : String}
    (hk : db'.internalSend k = some sendId) :
    db.internalSend k = some sendId ∨
      db.internalSend k = none ∧ ∃ send, q = .reserveInternalSend send ∧ send.expectedId = k := by
  rcases Db.internal_step h with hsame | ⟨send, l, rfl, -, -, -, -, hins⟩
  · left
    rw [Db.internalSend, ← hsame]
    exact hk
  · rw [Db.internalSend, Table.get_insert hins] at hk
    split at hk
    · next hkey =>
        obtain rfl : send.expectedId = k := hkey
        right
        refine ⟨?_, send, rfl, rfl⟩
        rw [Db.internalSend, (Table.insert_eq_some hins).1]
        rfl
    · exact .inl hk

/-- A method keeps a reserved receive as it should be. -/
theorem ReservedOpen.step (hr : Reach settlesOpen s) {ch : Choice} {q : Query}
    {c : Api.Reply (Call.db q) → Prog Api Unit} {hist : History Api}
    (hth : s.thread t = some ⟨.call (.db q) c, hist⟩) (hm : settlesOpen s (.run t ch)) {a : q.Out}
    {db' : Db} (hrun : q.run s.world.now s.world.db = .ok (a, db')) {sendId : String}
    (hk : s.world.db.internalSend k = some sendId) (h : ReservedOpen s.world.db k sendId) :
    ReservedOpen db' k sendId := by
  have ho := reach_ordered hr hth
  have hstays : s.world.db.Succeeded sendId → db'.Succeeded sendId := fun hp => hp.reserved hk hrun
  have hopen : ∀ {status : ReceiveStatus}, (db'.receivePayment k).status = status →
      status.final = false → ReservedOpen db' k sendId := fun hs hf => .of_open (hs ▸ hf)
  cases Db.status_step hrun k with
  | none hs => exact ⟨hs ▸ h.unfailed, fun hc => hstays (h.paid (hs ▸ hc))⟩
  | claimable id amount hq hs => exact hopen hs rfl
  | paid transferId preimage requestId owner hq hs => exact hopen hs rfl
  | submitted hq hs => exact hopen hs rfl
  | set status hq hs =>
      subst hq
      rcases ho with rfl | hread | ⟨-, hholds, hfree⟩
      · exact hopen hs rfl
      · have hnone := (hread.kept hr hth).2
        rw [hnone] at hk
        cases hk
      · have hnone := free_kept hr hth hholds hfree
        rw [hnone] at hk
        cases hk
  | failed id hq hs =>
      -- a reserved receive is left alone
      subst hq
      obtain ⟨-, rfl⟩ := Prod.mk.inj (Except.ok.inj hrun)
      have hsafe : s.world.db.failsExternal k id = false := by
        obtain ⟨r, hrow, -⟩ := Option.map_eq_some_iff.mp hk
        simp [Db.failsExternal, hrow]
      have hrow := Db.failExternalReceive_row s.world.db k id
      rw [hsafe, if_neg Bool.false_ne_true] at hrow
      exact absurd (hrow ▸ hs) h.unfailed
  | completed paymentHash transferId requestId owner hq hs =>
      subst hq
      rw [(hm.offer hth).2] at hk
      cases hk
  | finished send hq hh hs =>
      subst hq
      subst hh
      obtain ⟨older, -, hchain⟩ := PayerTurn.reserved ho
      have hstands := reserved_stands hr hth (hchain.mem List.mem_cons_self)
      obtain rfl : send.requestId = sendId := Option.some.inj (hstands.symm.trans hk)
      exact ⟨by simp [hs], fun _ => Db.finishInternalSend_succeeded hrun⟩

theorem reach_reservedOpen (hs : Reach settlesOpen s) {sendId : String}
    (hk : s.world.db.internalSend k = some sendId) : ReservedOpen s.world.db k sendId := by
  refine reach_tables_allowed (J := fun w => ∀ k sendId, w.db.internalSend k = some sendId →
    ReservedOpen w.db k sendId) ?_ ?_ ?_ hs k sendId hk
  · intro k sendId h
    simp [World.init, Db.empty, Db.internalSend] at h
  · intro w w' hdb _ ih k sendId h
    rw [hdb] at h ⊢
    exact ih k sendId h
  · intro s t ch q c hist a db' hr hth hm hrun _ ih k sendId h
    rcases Db.internalSend_step hrun h with hold | ⟨hnone, send, rfl, rfl⟩
    · exact (ih k sendId hold).step hr hth hm hrun hold
    · -- a new reservation is for an untouched receive
      apply ReservedOpen.of_open
      show (db'.receivePayment send.expectedId).status.final = false
      rw [Db.receivePayment, (Db.run_frame hrun).receivePayments (by simp [Query.writes])]
      show (s.world.db.receivePayment send.expectedId).status.final = false
      rw [(Db.reserveInternalSend_new hrun hnone).1]
      rfl

/-- A poll by request id tells the status of that send. -/
theorem paymentStatus_row (hs : Reach ok s) {r : SendRow} (hr : r ∈ s.world.db.sends.rows) :
    s.world.db.paymentStatus r.intent.requestId = some r.intent.status := by
  unfold Db.paymentStatus
  rcases hfind : s.world.db.sends.rows.find? (Db.sendHasId r.intent.requestId) with - | x
  · have hno := List.find?_eq_none.mp hfind r hr
    simp [Db.sendHasId] at hno
  · have hx := List.mem_of_find?_eq_some hfind
    have hp := List.find?_some hfind
    simp only [Db.sendHasId, Bool.or_eq_true, beq_iff_eq] at hp
    have hxr : x = r := by
      rcases hp with hp | hp
      · exact Db.send_eq hx hr hp
      · -- payment ids are longer than request ids
        obtain ⟨p, hp, hpid, -⟩ := (reach_sends hs x hx).bound _ hp
        have h64 := s.world.ldk.ids p hp
        have h36 := (reach_base hs r hr).requestId
        rw [← hpid, h64] at h36
        exact absurd h36 (by decide)
    rw [hxr]

theorem Db.Succeeded.read (hs : Reach ok s) {id : String} (h : s.world.db.Succeeded id) :
    s.world.db.paymentStatus id = some .succeeded := by
  obtain ⟨r, hr, rfl, hst⟩ := h
  rw [← hst]
  exact paymentStatus_row hs hr

/-- Between the poll and the reservation nothing is decided: a receive that is reserved
already is open. -/
theorem PayerReady.unfinished (hs : Reach settlesOpen s) (hth : s.thread t = some th)
    {send : LightningSend} (hready : PayerReady th.history send)
    (hk : s.world.db.internalSend send.expectedId = some send.requestId) :
    (s.world.db.receivePayment send.expectedId).status.final = false := by
  obtain ⟨status, older, hopen, hhist⟩ := hready.read
  have hlast : Extends Calm (dbEvent (.paymentStatus send.requestId) status :: older)
      th.history := hhist ▸ Extends.refl _
  obtain ⟨s₀, s₁, hm, hsteady⟩ := reach_steady hs hth hready.holds hlast
  apply hsteady.2
  have hr₁ := hm.after.1
  obtain ⟨db', hrun, hw⟩ := moment_db hm
  obtain ⟨ha, rfl⟩ := Prod.mk.inj (Except.ok.inj hrun)
  have hk₁ : s₁.world.db.internalSend send.expectedId = some send.requestId := by
    rw [Db.internalSend, ← hsteady.1]
    exact hk
  obtain ⟨hunfailed, hpaid⟩ := reach_reservedOpen hr₁ hk₁
  rw [← Bool.not_eq_true]
  intro hfinal
  have hread := (hpaid (ReceiveStatus.completed_of_final hfinal hunfailed)).read hr₁
  rw [hw] at hread
  have hend := hopen .succeeded (ha ▸ hread)
  cases hend

/-- The holder of the lock that has seen the payer's send open finds the receive open. -/
theorem PayerTurn.unfinished (hs : Reach settlesOpen s) (hth : s.thread t = some th)
    {send : LightningSend} (ht : PayerTurn th.history send) :
    (s.world.db.receivePayment send.expectedId).status.final = false := by
  obtain ⟨older, hready, hchain⟩ := ht.reserved
  obtain ⟨s₀, s₁, hm, hsteady⟩ := reach_steady hs hth ht.holds hchain
  apply hsteady.2
  obtain ⟨db', hrun, hw⟩ := moment_db hm
  have hsame : (s₁.world.db.receivePayment send.expectedId).status =
      (s₀.world.db.receivePayment send.expectedId).status := by
    rw [hw]
    show (db'.receivePayment send.expectedId).status = _
    rw [Db.receivePayment, (Db.run_frame hrun).receivePayments (by simp [Query.writes]),
      Db.receivePayment]
  rw [hsame]
  rcases hi : s₀.world.db.internalSend send.expectedId with - | payer
  · rw [(Db.reserveInternalSend_new hrun hi).1]
    rfl
  · obtain ⟨ch, c, hth₀, -⟩ := hm.made
    refine hready.unfinished hm.reach hth₀ ?_
    rcases Db.reserveInternalSend_ok hrun with ⟨-, he⟩ | ⟨l, ip, -, -, -, -, hins, -⟩
    · exact he
    · obtain ⟨r, hr, -⟩ := Option.map_eq_some_iff.mp hi
      rw [(Table.insert_eq_some hins).1] at hr
      cases hr

/-- **What was read as unfinished is unfinished when it is written.** -/
theorem OpenRow.unfinished (hs : Reach settlesOpen s) (hth : s.thread t = some th)
    (ho : OpenRow th.history k) : (s.world.db.receivePayment k).status.final = false := by
  cases ho with
  | read hr => exact (hr.kept hs hth).1
  | reserved send ht hhash => exact hhash ▸ ht.unfinished hs hth

/-- A method leaves a final status alone. -/
theorem final_step (hs : Reach settlesOpen s) {ch : Choice} {q : Query}
    {c : Api.Reply (Call.db q) → Prog Api Unit} {hist : History Api}
    (hth : s.thread t = some ⟨.call (.db q) c, hist⟩) (hm : settlesOpen s (.run t ch)) {a : q.Out}
    {db' : Db} (hrun : q.run s.world.now s.world.db = .ok (a, db'))
    (hfinal : (s.world.db.receivePayment k).status.final = true) :
    (db'.receivePayment k).status = (s.world.db.receivePayment k).status := by
  have ho := reach_ordered hs hth
  have hnot : (s.world.db.receivePayment k).status.final ≠ false := by simp [hfinal]
  have hcompleted := ReceiveStatus.completed_of_final hfinal
  cases Db.status_step hrun k with
  | none hs' => exact hs'
  | claimable id amount hq hs' =>
      subst hq
      exact Db.markReceiveClaimable_final hrun hfinal
  | paid transferId preimage requestId owner hq hs' =>
      subst hq
      exact absurd (OpenRow.unfinished hs hth ho) hnot
  | submitted hq hs' =>
      subst hq
      exact absurd (OpenRow.unfinished hs hth ho) hnot
  | set status hq hs' =>
      subst hq
      rcases ho with rfl | hread | ⟨rfl, -, -⟩
      · exact absurd (hm.created hth) hnot
      · exact absurd (hread.kept hs hth).1 hnot
      · rw [hs', hcompleted (hm.received hth)]
  | failed id hq hs' =>
      -- a completed receive is left alone
      subst hq
      obtain ⟨-, rfl⟩ := Prod.mk.inj (Except.ok.inj hrun)
      show ((s.world.db.failExternalReceive k id).2.receivePayment k).status = _
      rw [Db.failExternalReceive_row]
      split
      · next hf =>
          obtain ⟨r, hr, hc⟩ := (Option.any_eq_true _ _).mp hf
          have hst : (s.world.db.receivePayment k).status ≠ .transferCompleted := by
            rw [Db.receivePayment, hr]
            simp only [Bool.and_eq_true, bne_iff_ne] at hc
            exact hc.1.2
          by_contra hne
          exact hst (hcompleted fun h => hne h.symm)
      · rfl
  | completed paymentHash transferId requestId owner hq hs' =>
      subst hq
      rw [hs', hcompleted (hm.offer hth).1]
  | finished send hq hh hs' =>
      subst hq
      subst hh
      obtain ⟨older, -, hchain⟩ := PayerTurn.reserved ho
      have hk := reserved_stands hs hth (hchain.mem List.mem_cons_self)
      rw [hs', hcompleted (reach_reservedOpen hs hk).unfailed]

end settlesOpen

/-- **A finished receive stays as it is.**  In runs in which the three writers meet no final
status of another kind, a receive that is `TRANSFER_COMPLETED` or `HTLC_FAILED` is so for
ever. -/
theorem final_receives_stay (D : Deployment) (s s' : Config (machine D)) (hs : Reach settlesOpen s)
    (hl : Later settlesOpen s s') (k : String)
    (hfinal : (s.world.db.receivePayment k).status.final = true) :
    (s'.world.db.receivePayment k).status = (s.world.db.receivePayment k).status := by
  refine hs.preserved (J := fun x => (x.world.db.receivePayment k).status =
    (s.world.db.receivePayment k).status) hl ?_ rfl
  intro a b m ha hm hst hJ
  rcases step_tables hst with hdb | ⟨t, ch, q, c, hist, r, db', rfl, hth, hrun, hw⟩
  · rw [hdb]
    exact hJ
  · rw [hw]
    exact (final_step ha hth hm hrun (hJ ▸ hfinal)).trans hJ

namespace Sample

/-- The first attempt is settled, and the receive completed. -/
def completeFirst : List (Move (machine .sample)) :=
  payFirst ++ calls 1 [.done, .flag false, .done, .done] ++ .spawn (.event false) :: calls 2
    [.event (some (.inboundReceived (attemptId 'a') hash)), .done, .done, .done, .done, .done, .done]

/-- A request stores a receive that expires within a second, and before it sets the status a
reconciliation pass marks the receive failed. -/
def expireStored : List (Move (machine .sample)) :=
  .spawn (.lightningReceive "alice" ⟨1, "", hash, "", "", some 1, none⟩) ::
  calls 0 [.done, .done, .quote none, .text ("lnssp" ++ hash), .flag false, .flag false,
    .uuid (uuid 1), .done] ++
  .outside (.tick 1) :: .spawn .reconcile :: calls 1
    [.done, .page [] none, .done, .done, .done, .done, .done, .done, .done, .done]

def settled (status : ReceiveStatus) (s : Config (machine .sample)) : Bool :=
  (s.world.db.receivePayment hash).status == status

/-- After the receive is completed, a day passes and a pass is made. -/
def passedDay : Reach.LongRun settlesOpen
    (fun s => s.world.now == 0 && settled .transferCompleted s)
    fun s => decide (86400 ≤ s.world.now) :=
  .of settlesOpenMove (fun _ _ h => h) completeFirst
    (.crash :: .outside (.tick 86400) :: .spawn .reconcile ::
      calls 3 [.done, .page [] none, .done, .done]) (by decide +kernel)

def revived : Reach.LongRun anyMove (settled .htlcFailed) (settled .invoiceCreated) :=
  .of (fun _ _ => true) (fun _ _ _ => trivial) expireStored (calls 0 [.done]) (by decide +kernel)

end Sample

/-- The receive that was completed is so after it has expired and a pass has seen it. -/
theorem final_receives_stay_completed : ∃ s s' : Config (machine .sample), Reach settlesOpen s ∧
    Later settlesOpen s s' ∧ s.world.now + 86400 ≤ s'.world.now ∧
    (s.world.db.receivePayment Sample.hash).status.final = true ∧
    (s'.world.db.receivePayment Sample.hash).status =
      (s.world.db.receivePayment Sample.hash).status := by
  obtain ⟨s, s', hs, hl, hp, hp'⟩ := Sample.passedDay
  simp only [Bool.and_eq_true, beq_iff_eq] at hp
  have hfinal : (s.world.db.receivePayment Sample.hash).status.final = true := by
    rw [beq_iff_eq.mp hp.2]
    rfl
  refine ⟨s, s', hs, hl, ?_, hfinal, final_receives_stay .sample s s' hs hl Sample.hash hfinal⟩
  rw [hp.1]
  exact of_decide_eq_true hp'

/-- **The second step of a request revives an expired receive.** -/
theorem receive_resurrected : ∃ s s' : Config (machine .sample), Reach anyMove s ∧
    Later anyMove s s' ∧ (s.world.db.receivePayment Sample.hash).status = .htlcFailed ∧
    (s'.world.db.receivePayment Sample.hash).status = .invoiceCreated := by
  obtain ⟨s, s', hs, hl, hp, hp'⟩ := Sample.revived
  exact ⟨s, s', hs, hl, beq_iff_eq.mp hp, beq_iff_eq.mp hp'⟩

end OpenSsp
