/-
OpenSsp/SendFinality.lean

A send that is `SUCCEEDED` or `FAILED` stays so (`final_sends_stay`), in runs in which no
receive is stored after a send of its own invoice.

`reserve_internal_send` and `finish_internal_send` do not look at the status they overwrite.
Only local sends reach them, and those are polled first, under the receive lock.

* `reach_bound`: a send that is bound to a payment has an invoice of someone else;
* `reach_moved`: a send that was open under the receive lock is open, or bound, as long as the
  holder of the lock stays calm.
-/
import OpenSsp.ReceiveFinality
import OpenSsp.SendOutcome

namespace OpenSsp

open Interleave

variable {D : Deployment} {ok : Config (machine D) → Move (machine D) → Prop}

/-! ### Invoices of others -/

/-- A BOLT11 receive is stored before its invoice is sent. -/
def storesFirstMove (s : Config (machine D)) : Move (machine D) → Bool
  | .run t _ => match s.next t with
      | some (.db (.insertRequest _ _ _ (.lightningReceive p))) =>
          p.paymentKind != .bolt11 || s.world.db.sends.rows.all (·.intent.invoice != p.invoice)
      | _ => true
  | _ => true

def storesFirst (s : Config (machine D)) (m : Move (machine D)) : Prop := storesFirstMove s m = true

/-- The invoice has been sent, and it is not the one of a receive. -/
structure Db.Foreign (db : Db) (invoice : String) : Prop where
  sent : ∃ r ∈ db.sends.rows, r.intent.invoice = invoice
  unissued : ∀ k l, db.receives.get k = some l → l.kind = .bolt11 → l.invoice ≠ invoice

section storesFirst

variable {s s' : Config (machine D)} {t : Nat} {th : Thread Api}

theorem storesFirst.stored {ch : Choice} {id owner : String} {created : Nat} {p : ReceivePayload}
    {c : Api.Reply (Call.db (.insertRequest id owner created (.lightningReceive p))) →
      Prog Api Unit} {hist : History Api}
    (hm : storesFirst s (.run t ch)) (hth : s.thread t = some ⟨.call _ c, hist⟩)
    (hk : p.paymentKind = .bolt11) : ∀ r ∈ s.world.db.sends.rows, r.intent.invoice ≠ p.invoice := by
  simpa [storesFirst, storesFirstMove, Config.next, hth, Prog.next, hk] using hm

theorem foreign_step (hs : Reach storesFirst s) {m : Move (machine D)} (hm : storesFirst s m)
    (hst : s.step m = some s') {invoice : String} (h : s.world.db.Foreign invoice) :
    s'.world.db.Foreign invoice := by
  have hg := reach_grows hs hst
  refine ⟨?_, fun k l hl hkind => ?_⟩
  · obtain ⟨r, hr, rfl⟩ := h.sent
    obtain ⟨r', hr', hc⟩ := hg.db.sends r hr
    exact ⟨r', hr', hc.same.invoice⟩
  rcases step_tables hst with hdb | ⟨t, ch, q, c, hist, a, db', rfl, hth, hrun, hw⟩
  · exact h.unissued k l (hdb ▸ hl) hkind
  rw [hw] at hl
  rcases Db.receives_step hrun with ⟨-, g, hsame, hget⟩ | ⟨id, owner, created, p, rfl, hins, -⟩
  · obtain ⟨l₀, hl₀, rfl⟩ := Option.map_eq_some_iff.mp ((hget k).symm.trans hl)
    rw [(hsame l₀).invoice]
    exact h.unissued k l₀ hl₀ ((hsame l₀).kind ▸ hkind)
  · have hl : db'.receives.get k = some l := hl
    rw [Table.get_insert hins] at hl
    split at hl
    · -- the new receive
      obtain rfl := Option.some.inj hl
      obtain ⟨r, hr, rfl⟩ := h.sent
      exact (hm.stored hth hkind r hr).symm
    · exact h.unissued k l hl hkind

theorem Remote.known {h : History Api} {send : LightningSend} (hr : Remote h send) :
    KnownSend h send := by
  obtain ⟨newer, older, hknown, rfl⟩ := hr
  have hext : Extends anyEvent older (newer ++
      dbEvent (.lightningReceiveHashForInvoice send.invoice) none :: older) :=
    ⟨newer ++ [dbEvent (.lightningReceiveHashForInvoice send.invoice) none], by simp,
      fun _ _ => trivial⟩
  exact hknown.after hext

/-- An invoice that was looked up in vain. -/
theorem Remote.foreign (hs : Reach storesFirst s) (hth : s.thread t = some th)
    {send : LightningSend} (hr : Remote th.history send) : s.world.db.Foreign send.invoice := by
  obtain ⟨newer, older, hknown, hhist⟩ := hr
  obtain ⟨s₀, s₁, hm, hkept⟩ := hs.kept (q := anyEvent) (H := fun _ => True)
    (G := fun w w' : World => w.db.Foreign send.invoice → w'.db.Foreign send.invoice)
    (fun _ h => h) (fun _ _ _ h h' hf => h' (h hf)) (fun _ _ _ _ => trivial)
    (fun s t ch c k h r w hr hth hok hp _ => foreign_step hr hok (Config.step_run hth hp))
    (fun s s' m t th hr hok hst _ _ _ => foreign_step hr hok hst)
    t th hth newer _ older hhist (fun _ _ => trivial) trivial
  apply hkept
  obtain ⟨ch, c, hth₀, -⟩ := hm.made
  obtain ⟨r, hr, hc⟩ := hknown.row hm.reach hth₀
  obtain ⟨db', hrun, hw⟩ := moment_db hm
  obtain ⟨ha, rfl⟩ := Prod.mk.inj (Except.ok.inj hrun)
  rw [hw]
  refine ⟨⟨r, hr, hc.same.invoice⟩, fun k l hl hkind hinv => ?_⟩
  have hnone := List.find?_eq_none.mp (Option.map_eq_none_iff.mp ha) l (Table.mem_of_get hl)
  simp [hkind, hinv] at hnone

/-- **A bound send has an invoice of someone else.** -/
theorem reach_bound (hs : Reach storesFirst s) : ∀ r ∈ s.world.db.sends.rows,
    r.intent.paymentId ≠ none → s.world.db.Foreign r.intent.invoice := by
  refine hs.invariant (J := fun s : Config (machine D) => ∀ r ∈ s.world.db.sends.rows,
    r.intent.paymentId ≠ none → s.world.db.Foreign r.intent.invoice) ?_ ?_
  · intro r hr
    simp [machine, Config.start, World.init, Db.empty, Table.empty] at hr
  · intro s s' m hr ih hm hst x hx hbound
    have hstep : ∀ {i}, s.world.db.Foreign i → s'.world.db.Foreign i := foreign_step hr hm hst
    rcases step_tables hst with hdb | ⟨t, ch, q, c, hist, a, db', rfl, hth, hrun, hw⟩
    · exact hstep (ih x (hdb ▸ hx) hbound)
    have hx : x ∈ db'.sends.rows := by
      rw [hw] at hx
      exact hx
    rcases Db.sends_step hrun with ⟨g, hrows, hg⟩ | ⟨send, key, network, -, hrows, -⟩
    · obtain ⟨r, hrow, rfl⟩ := List.mem_map.mp (hrows ▸ hx)
      have hsame := (hg r hrow).same
      rw [hsame.invoice]
      apply hstep
      have hold : (g r).intent.paymentId = r.intent.paymentId →
          s.world.db.Foreign r.intent.invoice := fun h => ih r hrow (h ▸ hbound)
      cases (hg r hrow).progress with
      | none hp hs => exact hold hp
      | begun heq hs hp hs' => exact hold hp
      | set id status heq hid hopen hp hs => exact hold hp
      | reserved send heq hid hp hs => exact hold hp
      | finished send heq hid hp hs => exact hold hp
      | bound id heq free hp hs =>
          -- the invoice was looked up before
          subst heq
          obtain ⟨send, hid, hremote⟩ := reach_ordered hr hth
          have hc := known_row hr hth hremote.known hrow hid
          rw [hc.same.invoice]
          exact hremote.foreign hr hth
    · rcases List.mem_cons.mp (hrows ▸ hx) with rfl | hx
      · exact absurd rfl hbound
      · exact hstep (ih x hx hbound)

/-- A local send is bound to no payment. -/
theorem Local.unbound (hs : Reach storesFirst s) (hth : s.thread t = some th)
    {send : LightningSend} (hl : Local th.history send) (hk : KnownSend th.history send)
    {r : SendRow} (hr : r ∈ s.world.db.sends.rows) (hid : r.intent.requestId = send.requestId) :
    r.intent.paymentId = none := by
  by_contra hbound
  have hforeign := reach_bound hs r hr hbound
  obtain ⟨hash, hmem⟩ := hl
  obtain ⟨s₀, db', -, hrun, hg⟩ := db_fact hs hth hmem
  obtain ⟨ha, rfl⟩ := Prod.mk.inj (Except.ok.inj hrun)
  obtain ⟨l, hl, -⟩ := Option.map_eq_some_iff.mp ha
  have hx := List.find?_some hl
  simp only [Bool.and_eq_true, beq_iff_eq] at hx
  obtain ⟨l', hl', hsame, -⟩ := hg.receives l.hash l
    (Table.mem_iff_get.mp (List.mem_of_find?_eq_some hl))
  apply hforeign.unissued l.hash l' hl' (hsame.kind.trans hx.2)
  rw [hsame.invoice, hx.1]
  exact (known_row hs hth hk hr hid.symm).same.invoice.symm

end storesFirst

/-! ### Open sends -/

/-- The send is not over. -/
def Db.OpenSend (db : Db) (id : String) : Prop :=
  ∀ r ∈ db.sends.rows, r.intent.requestId = id → r.intent.status.final = false

/-- The send is bound to a payment. -/
def Db.BoundSend (db : Db) (id : String) : Prop :=
  ∃ r ∈ db.sends.rows, r.intent.requestId = id ∧ r.intent.paymentId ≠ none

/-- An open send is still open, or has been bound since. -/
structure Moved (id : String) (w w' : World) : Prop where
  opened : w.db.OpenSend id → w'.db.OpenSend id ∨ w'.db.BoundSend id
  bound : w.db.BoundSend id → w'.db.BoundSend id

namespace Moved

variable {id : String}

theorem refl (w : World) : Moved id w w := ⟨.inl, fun h => h⟩

theorem trans (a b c : World) (h : Moved id a b) (h' : Moved id b c) : Moved id a c where
  opened ha := by
    rcases h.opened ha with hb | hb
    · exact h'.opened hb
    · exact .inr (h'.bound hb)
  bound ha := h'.bound (h.bound ha)

theorem of_db {w w' : World} (h : w'.db = w.db) : Moved id w w' := by
  constructor
  · rw [h]
    exact .inl
  · rw [h]
    exact fun hb => hb

end Moved

theorem Db.Grows.boundSend {db db' : Db} (hg : db.Grows db') {id : String}
    (h : db.BoundSend id) : db'.BoundSend id := by
  obtain ⟨r, hr, hid, hbound⟩ := h
  obtain ⟨payment, hp⟩ := Option.ne_none_iff_exists'.mp hbound
  obtain ⟨r', hr', hc⟩ := hg.sends r hr
  refine ⟨r', hr', hc.same.requestId.trans hid, ?_⟩
  rw [hc.paymentId payment hp]
  exact Option.some_ne_none payment

/-- How the row of an open send can end: one writer after the other. -/
theorem Db.Progress.openSend {q : Query} {a a' : LightningSend} (h : Db.Progress q a a')
    (hopen : a.status.final = false) : a'.status.final = false ∨
      (∃ id status, q = .setPayment id status ∧ status.final = true ∧
        (a.requestId = id ∨ a.paymentId = some id)) ∨ ∃ send, q = .finishInternalSend send := by
  cases h with
  | none hp hs => exact .inl (hs ▸ hopen)
  | begun hq hs hp hs' => exact .inl (by rw [hs']; rfl)
  | bound id hq free hp hs =>
      left
      rw [hs]
      split
      · rfl
      · exact hopen
  | reserved send hq hid hp hs => exact .inl (by rw [hs]; rfl)
  | finished send hq hid hp hs => exact .inr (.inr ⟨send, hq⟩)
  | set id status hq hid ho hp hs =>
      rcases hf : status.final with - | -
      · exact .inl (hs ▸ hf)
      · exact .inr (.inl ⟨id, status, hq, hf, hid⟩)

section moved

variable {s : Config (machine D)} {t : Nat} {th : Thread Api}

/-- Only a payment that succeeds or fails ends a send without the receive lock. -/
theorem StatusGround.bound (hs : Reach ok s) (hth : s.thread t = some th) {id : String}
    {status : SendStatus} (hf : status.final = true) (hg : StatusGround D th.history id status)
    (ho : Ordered th.history (.db (.setPayment id status))) (hh : ¬ Holds .receive th.history)
    {r : SendRow} (hr : r ∈ s.world.db.sends.rows)
    (hid : r.intent.requestId = id ∨ r.intent.paymentId = some id) :
    r.intent.paymentId = some id := by
  have hlen : id.length = 64 := by
    cases status with
    | succeeded =>
        obtain ⟨p, send, hsuccess⟩ := hg
        exact hsuccess.hid ▸ s.world.ldk.ids p (hsuccess.succeeded.seen hs hth).1
    | failed =>
        rcases ho with hfailed | hholds
        · obtain ⟨p, hp, hpid, -⟩ := FailedPayment.seen hs hth hfailed
          exact hpid ▸ s.world.ldk.ids p hp
        · exact absurd hholds hh
    | _ => cases hf
  exact bound_of_id hs hr hlen hid

/-- A calm call, or one without the receive lock. -/
theorem perform_moved (hs : Reach ok s) {c : Call} {k : c.Reply → Prog Api Unit}
    {hist : History Api} (hth : s.thread t = some ⟨.call c k, hist⟩) {ch : Choice} {w : World}
    {b : c.Reply} (hp : perform D t c ch s.world = some (b, w))
    (hc : c.decides = false ∨ ¬ Holds .receive hist) (id : String) : Moved id s.world w := by
  by_cases hdb : ∃ q, c = .db q
  swap
  · exact .of_db (perform_tables hp fun q hq => hdb ⟨q, hq⟩)
  obtain ⟨q, rfl⟩ := hdb
  have hg : s.world.Grows w := perform_grows hp fun q' hq' => by
    rw [← Call.db.inj hq']
    exact justified_unprepares (reach_justified hs hth)
  refine ⟨fun hopen => ?_, fun hbound => hg.db.boundSend hbound⟩
  rcases perform_db hp with ⟨a, db', hrun, -, rfl⟩ | ⟨e, -, rfl⟩
  swap
  · exact .inl hopen
  by_cases hbound : db'.BoundSend id
  · exact .inr hbound
  left
  intro x hx hid
  have hx : x ∈ db'.sends.rows := hx
  rcases Db.sends_step hrun with ⟨g, hrows, hstep⟩ | ⟨send, key, network, -, hrows, -⟩
  swap
  · rcases List.mem_cons.mp (hrows ▸ hx) with rfl | hx
    · rfl
    · exact hopen x hx hid
  obtain ⟨r, hr, rfl⟩ := List.mem_map.mp (hrows ▸ hx)
  have hold := hopen r hr ((hstep r hr).same.requestId.symm.trans hid)
  have ho := reach_ordered hs hth
  rcases (hstep r hr).progress.openSend hold with h | ⟨id', status, rfl, hf, hrid⟩ | ⟨send, rfl⟩
  · exact h
  · rcases hc with hc | hh
    · cases hc
    · -- the send is bound before already
      have hb := StatusGround.bound hs hth hf (reach_justified hs hth) ho hh hr hrid
      have : s.world.db.BoundSend id :=
        ⟨r, hr, (hstep r hr).same.requestId.symm.trans hid, by simp [hb]⟩
      exact absurd (hg.db.boundSend this) hbound
  · rcases hc with hc | hh
    · cases hc
    · exact absurd (PayerTurn.holds ho) hh

/-- **What the holder of the receive lock knows of a send while it stays calm.** -/
theorem reach_moved (hs : Reach ok s) (hth : s.thread t = some th)
    (hh : Holds .receive th.history) {e : Event Api} {older : History Api}
    (he : Extends Calm (e :: older) th.history) (id : String) :
    ∃ s₀ s₁, Moment ok t e older s₀ s₁ ∧ Moved id s₁.world s.world := by
  refine reach_calm Moved.refl Moved.trans (fun _ _ => .of_db) ?_ hs hth hh he
  intro s t ch c k h r w hr hth hp hc
  exact perform_moved hr hth hp hc id

end moved

/-! ### Sends that are over -/

section final

variable {s s' : Config (machine D)} {t : Nat} {th : Thread Api}

/-- A local send that was open under the receive lock is open. -/
theorem Moved.openSend (hs : Reach storesFirst s) (hth : s.thread t = some th)
    {send : LightningSend} (hl : Local th.history send) (hk : KnownSend th.history send) {w : World}
    (hm : Moved send.requestId w s.world) (h : w.db.OpenSend send.requestId) :
    s.world.db.OpenSend send.requestId := by
  rcases hm.opened h with hopen | ⟨r, hr, hid, hbound⟩
  · exact hopen
  · exact absurd (hl.unbound hs hth hk hr hid) hbound

/-- Who reserves has just seen the send open. -/
theorem PayerReady.openSend (hs : Reach storesFirst s) (hth : s.thread t = some th)
    {send : LightningSend} (hready : PayerReady th.history send)
    (hk : KnownSend th.history send) : s.world.db.OpenSend send.requestId := by
  obtain ⟨status, older, hopen, hhist⟩ := hready.read
  have hlast : Extends Calm (dbEvent (.paymentStatus send.requestId) status :: older)
      th.history := hhist ▸ Extends.refl _
  obtain ⟨s₀, s₁, hm, hmoved⟩ := reach_moved hs hth hready.holds hlast send.requestId
  refine hmoved.openSend hs hth hready.isLocal hk ?_
  have hr₁ := hm.after.1
  obtain ⟨db', hrun, hw⟩ := moment_db hm
  obtain ⟨ha, rfl⟩ := Prod.mk.inj (Except.ok.inj hrun)
  intro r hr hid
  have hread := paymentStatus_row hr₁ hr
  rw [hid, hw] at hread
  exact hopen r.intent.status (ha ▸ hread)

/-- Who finishes has reserved an open send. -/
theorem PayerTurn.openSend (hs : Reach storesFirst s) (hth : s.thread t = some th)
    {send : LightningSend} (ht : PayerTurn th.history send) (hl : Local th.history send)
    (hk : KnownSend th.history send) : s.world.db.OpenSend send.requestId := by
  obtain ⟨older, hready, hchain⟩ := ht.reserved
  obtain ⟨s₀, s₁, hm, hmoved⟩ := reach_moved hs hth ht.holds hchain send.requestId
  refine hmoved.openSend hs hth hl hk ?_
  obtain ⟨ch, c, hth₀, -⟩ := hm.made
  obtain ⟨-, hknown⟩ : Holds .receive older ∧ KnownSend older send := reach_justified hm.reach hth₀
  have hopen := hready.openSend hm.reach hth₀ hknown
  -- the reservation leaves it open
  obtain ⟨db', hrun, hw⟩ := moment_db hm
  rw [hw]
  intro x hx hid
  have hx : x ∈ db'.sends.rows := hx
  rcases Db.sends_step hrun with ⟨g, hrows, hstep⟩ | ⟨_, _, _, heq, -⟩
  · obtain ⟨r, hr, rfl⟩ := List.mem_map.mp (hrows ▸ hx)
    have hold := hopen r hr ((hstep r hr).same.requestId.symm.trans hid)
    rcases (hstep r hr).progress.openSend hold with h | ⟨_, _, heq, -⟩ | ⟨_, heq⟩
    · exact h
    · cases heq
    · cases heq
  · cases heq

theorem Db.open_of_unsubmitted {status : SendStatus} (h : Db.unsubmitted status = true) :
    status.final = false := by
  cases status with
  | succeeded => cases h
  | failed => cases h
  | _ => rfl

/-- A method leaves the status of a send that is over alone. -/
theorem finalSend_step (hs : Reach storesFirst s) {q : Query}
    {c : Api.Reply (Call.db q) → Prog Api Unit} {hist : History Api}
    (hth : s.thread t = some ⟨.call (.db q) c, hist⟩) {a b : LightningSend}
    (hrow : ∃ r ∈ s.world.db.sends.rows, r.intent = a) (h : Db.Progress q a b)
    (hfinal : a.status.final = true) : b.status = a.status := by
  obtain ⟨r, hr, rfl⟩ := hrow
  have hj := reach_justified hs hth
  have ho := reach_ordered hs hth
  cases h with
  | none hp hst => exact hst
  | begun hq hst hp hst' =>
      rw [hst] at hfinal
      cases hfinal
  | bound id hq free hp hst =>
      rw [hst]
      split
      · next hun => exact absurd ((Db.open_of_unsubmitted hun).symm.trans hfinal) nofun
      · rfl
  | set id status hq hid hopen hp hst => exact absurd (hopen.symm.trans hfinal) nofun
  | reserved send hq hid hp hst =>
      subst hq
      have hopen := PayerReady.openSend hs hth ho hj.2 r hr hid
      exact absurd (hopen.symm.trans hfinal) nofun
  | finished send hq hid hp hst =>
      subst hq
      have hopen := PayerTurn.openSend hs hth ho hj.2.1 hj.1 r hr hid
      exact absurd (hopen.symm.trans hfinal) nofun

/-- The row of the request, with the status. -/
def Db.SendIs (db : Db) (id : String) (status : SendStatus) : Prop :=
  ∃ r ∈ db.sends.rows, r.intent.requestId = id ∧ r.intent.status = status

theorem sendIs_step (hs : Reach storesFirst s) {m : Move (machine D)} (hst : s.step m = some s')
    {id : String} {status : SendStatus} (hfinal : status.final = true)
    (h : s.world.db.SendIs id status) : s'.world.db.SendIs id status := by
  rcases step_tables hst with hdb | ⟨t, ch, q, c, hist, a, db', rfl, hth, hrun, hw⟩
  · rw [hdb]
    exact h
  rw [hw]
  obtain ⟨r, hr, hid, rfl⟩ := h
  rcases Db.sends_step hrun with ⟨g, hrows, hstep⟩ | ⟨send, key, network, -, hrows, -⟩
  · refine ⟨g r, ?_, (hstep r hr).same.requestId.trans hid,
      finalSend_step hs hth ⟨r, hr, rfl⟩ (hstep r hr).progress hfinal⟩
    show g r ∈ db'.sends.rows
    rw [hrows]
    exact List.mem_map_of_mem hr
  · refine ⟨r, ?_, hid, rfl⟩
    show r ∈ db'.sends.rows
    rw [hrows]
    exact List.mem_cons_of_mem _ hr

end final

/-- **A send that is over stays as it is.**  In runs in which no receive is stored after a send
of its own invoice, a send that is `SUCCEEDED` or `FAILED` is so for ever. -/
theorem final_sends_stay (D : Deployment) (s s' : Config (machine D)) (hs : Reach storesFirst s)
    (hl : Later storesFirst s s') (r : SendRow) (hr : r ∈ s.world.db.sends.rows)
    (hfinal : r.intent.status.final = true) :
    ∀ r' ∈ s'.world.db.sends.rows, r'.intent.requestId = r.intent.requestId →
      r'.intent.status = r.intent.status := by
  have hstays : s'.world.db.SendIs r.intent.requestId r.intent.status :=
    hs.preserved
      (J := fun x : Config (machine D) => x.world.db.SendIs r.intent.requestId r.intent.status)
      hl (fun a b m ha _ hst h => sendIs_step ha hst hfinal h) ⟨r, hr, rfl, rfl⟩
  obtain ⟨x, hx, hid, hst⟩ := hstays
  intro r' hr' hid'
  rw [Db.send_eq hr' hx (hid'.trans hid.symm), hst]

/-- A local send succeeds; then the process restarts, the send is polled and a pass is made. -/
def Sample.polledLocal : Reach.LongRun storesFirst
    (fun s => succeeded s && decide (s.trace.length = 38)) fun s => decide (s.trace.length = 45) :=
  .of storesFirstMove (fun _ _ h => h) settleLocal
    (.crash :: .spawn (.paymentStatus (uuid 2).print) :: calls 2 [.done, .done, .done] ++
      .spawn .reconcile :: calls 3 [.done, .page [] none, .done, .done]) (by decide +kernel)

/-- A local send has succeeded, and is so after a restart, a poll and a pass. -/
theorem final_sends_stay_local : ∃ (s s' : Config (machine .sample)) (r : SendRow),
    Reach storesFirst s ∧ Later storesFirst s s' ∧ s.trace.length < s'.trace.length ∧
    r ∈ s.world.db.sends.rows ∧ r.intent.status = .succeeded ∧
    ∀ r' ∈ s'.world.db.sends.rows, r'.intent.requestId = r.intent.requestId →
      r'.intent.status = r.intent.status := by
  obtain ⟨s, s', hs, hl, hp, hp'⟩ := Sample.polledLocal
  simp only [Bool.and_eq_true, decide_eq_true_eq] at hp hp'
  obtain ⟨r, hr, hst⟩ := List.any_eq_true.mp hp.1
  rw [beq_iff_eq] at hst
  refine ⟨s, s', r, hs, hl, by omega, hr, hst, ?_⟩
  exact final_sends_stay .sample s s' hs hl r hr (by rw [hst]; rfl)

end OpenSsp
