/-
OpenSsp/Resubmission.lean

What the row of a send says while the send is submitted.

A program submits after it has seen the row `SUBMITTING` and without a payment, or has just
claimed it.  Between that look and the submission others can bind the send or end it: the
retry of a missing payment does not look again.

* `reach_looks`: a send that was seen so is so until it is moved on, and never afterwards;
* `submitted_once_claimed`: at a submission the row is `SUBMITTING` and unbound exactly when
  nobody has moved the send on since the program's own look;
* `bound_send_submitted`: two programs recover one send, and the second submits it after the
  first has bound it.
-/
import OpenSsp.RouteCap
import OpenSsp.SendFinality

namespace OpenSsp

open Interleave

variable {D : Deployment} {ok : Config (machine D) → Move (machine D) → Prop}

/-! ### Rows -/

namespace Db

/-- The row of the send is `SUBMITTING` and has no payment. -/
def AwaitsSubmission (db : Db) (id : String) : Prop :=
  ∃ r ∈ db.sends.rows, r.intent.requestId = id ∧ ShowsSubmitting r.intent

/-- The send is bound to a payment, or further than its submission. -/
def MovedOn (db : Db) (id : String) : Prop :=
  ∃ r ∈ db.sends.rows, r.intent.requestId = id ∧
    (r.intent.paymentId ≠ none ∨ unsubmitted r.intent.status = false)

variable {db db' : Db} {now : Nat} {id : String}

theorem AwaitsSubmission.not_movedOn (h : db.AwaitsSubmission id) : ¬ db.MovedOn id := by
  rintro ⟨x, hx, hxid, hmoved⟩
  obtain ⟨r, hr, hrid, hst, hpay⟩ := h
  obtain rfl := send_eq hx hr (hxid.trans hrid.symm)
  rcases hmoved with hbound | hsub
  · exact hbound hpay
  · rw [hst] at hsub
    cases hsub

/-- Every row of a table goes on, and what it was. -/
theorem sends_kept {q : Query} {a : q.Out} (h : q.run now db = .ok (a, db')) {r : SendRow}
    (hr : r ∈ db.sends.rows) : ∃ r' ∈ db'.sends.rows, SendStep q r r' := by
  rcases sends_step h with ⟨g, hrows, hstep⟩ | ⟨send, key, network, -, hrows, -⟩
  · exact ⟨g r, hrows ▸ List.mem_map_of_mem hr, hstep r hr⟩
  · exact ⟨r, hrows ▸ List.mem_cons_of_mem _ hr, .refl q r⟩

end Db

/-! ### What moves a send on -/

/-- The method binds the send or sets its status. -/
inductive MovesSend (id : String) : Query → Prop
  | bound (paymentId : String) : MovesSend id (.bindLightningPayment id paymentId)
  | set (status : SendStatus) : MovesSend id (.setPayment id status)
  | reserved (send : LightningSend) (hid : send.requestId = id) :
      MovesSend id (.reserveInternalSend send)
  | finished (send : LightningSend) (hid : send.requestId = id) :
      MovesSend id (.finishInternalSend send)

section step

variable {s : Config (machine D)} {t : Nat} {q : Query} {c : Api.Reply (Call.db q) → Prog Api Unit}
  {hist : History Api} {a : q.Out} {db' : Db} {id : String}

/-- The program sets no status that a send has before its submission. -/
theorem StatusGround.submitted {h : History Api} {status : SendStatus}
    (hg : StatusGround D h id status) : Db.unsubmitted status = false := by
  cases status with
  | prepared => exact hg.elim
  | submitting => exact hg.elim
  | _ => rfl

/-- What is further on stays so. -/
theorem movedOn_step (hs : Reach ok s) (hth : s.thread t = some ⟨.call (.db q) c, hist⟩)
    (hrun : q.run s.world.now s.world.db = .ok (a, db')) (h : s.world.db.MovedOn id) :
    db'.MovedOn id := by
  obtain ⟨r, hr, hid, hmoved⟩ := h
  obtain ⟨r', hr', hstep⟩ := Db.sends_kept hrun hr
  refine ⟨r', hr', hstep.same.requestId.trans hid, ?_⟩
  have hj := reach_justified hs hth
  cases hstep.progress with
  | none hp hst => rwa [hp, hst]
  | begun hq hst hp hst' =>
      left
      rw [hp]
      rcases hmoved with hbound | hsub
      · exact hbound
      · rw [hst] at hsub
        cases hsub
  | bound payment hq free hp hst => exact .inl (by simp [hp])
  | set key status hq hkey hopen hp hst =>
      subst hq
      rw [hst]
      exact .inr (StatusGround.submitted hj)
  | reserved send hq hsend hp hst => exact .inr (by rw [hst]; rfl)
  | finished send hq hsend hp hst => exact .inr (by rw [hst]; rfl)

/-- Without a move a send that awaits its submission goes on to do so. -/
theorem Db.AwaitsSubmission.step {db : Db} {now : Nat} (h : db.AwaitsSubmission id)
    (hrun : q.run now db = .ok (a, db')) (hq : ¬ MovesSend id q) :
    db'.AwaitsSubmission id := by
  obtain ⟨r, hr, rfl, hst, hpay⟩ := h
  obtain ⟨r', hr', hstep⟩ := Db.sends_kept hrun hr
  refine ⟨r', hr', hstep.same.requestId, ?_⟩
  cases hstep.progress with
  | none hp hs' => exact ⟨hs'.trans hst, hp.trans hpay⟩
  | begun heq hprepared hp hs' =>
      rw [hst] at hprepared
      cases hprepared
  | bound payment heq free hp hs' =>
      subst heq
      exact absurd (.bound payment) hq
  | set key status heq hkey hopen hp hs' =>
      subst heq
      rcases hkey with hkey | hkey
      · subst hkey
        exact absurd (.set status) hq
      · rw [hpay] at hkey
        cases hkey
  | reserved send heq hsend hp hs' =>
      subst heq
      exact absurd (.reserved send hsend.symm) hq
  | finished send heq hsend hp hs' =>
      subst heq
      exact absurd (.finished send hsend.symm) hq

end step

/-! ### Invariants -/

section invariants

variable {s s' : Config (machine D)} {t : Nat} {id : String}

/-- A send that has not been claimed is not bound. -/
theorem reach_prepared (hs : Reach ok s) : ∀ r ∈ s.world.db.sends.rows,
    r.intent.status = .prepared → r.intent.paymentId = none := by
  refine reach_tables (J := fun w => ∀ r ∈ w.db.sends.rows,
    r.intent.status = .prepared → r.intent.paymentId = none) ?_ ?_ ?_ hs
  · intro r hr
    simp [World.init, Db.empty, Table.empty] at hr
  · intro w w' hdb _ ih r hr
    exact ih r (hdb ▸ hr)
  · intro s t q k hist a db' hr hth hrun _ ih x hx hst
    have hx : x ∈ db'.sends.rows := hx
    -- a new send has no payment
    rcases Db.sends_step hrun with ⟨g, hrows, hstep⟩ | ⟨send, key, network, -, hrows, -⟩
    swap
    · rcases List.mem_cons.mp (hrows ▸ hx) with rfl | hx
      · rfl
      · exact ih x hx hst
    obtain ⟨r, hrow, rfl⟩ := List.mem_map.mp (hrows ▸ hx)
    -- of the steps of a row those that bring a payment leave another status
    cases (hstep r hrow).progress with
    | none hp hs => rw [hp, ih r hrow (hs ▸ hst)]
    | begun heq hs hp hs' =>
        rw [hs'] at hst
        cases hst
    | bound payment heq free hp hs =>
        rw [hs] at hst
        split at hst
        · cases hst
        · next hsub =>
            rw [hst] at hsub
            exact absurd rfl hsub
    | set key status heq hkey hopen hp hs =>
        subst heq
        -- nobody sets the status of a send that was not submitted
        have hsub := StatusGround.submitted (reach_justified hr hth)
        rw [← hs, hst] at hsub
        cases hsub
    | reserved send heq hsend hp hs =>
        rw [hs] at hst
        cases hst
    | finished send heq hsend hp hs =>
        rw [hs] at hst
        cases hst

/-- A send that is reserved for a receive is further than its submission. -/
theorem reach_payer_moved (hs : Reach ok s) {k : String}
    (hk : s.world.db.internalSend k = some id) : s.world.db.MovedOn id := by
  refine reach_tables (J := fun w => ∀ k id, w.db.internalSend k = some id → w.db.MovedOn id)
    ?_ ?_ ?_ hs k id hk
  · intro k id h
    simp [World.init, Db.empty, Db.internalSend] at h
  · intro w w' hdb _ ih k id h
    rw [hdb] at h ⊢
    exact ih k id h
  · intro s t q c hist a db' hr hth hrun _ ih k id h
    rcases Db.internalSend_step hrun h with hold | ⟨hnone, send, rfl, rfl⟩
    · exact movedOn_step hr hth hrun (ih k id hold)
    -- a new reservation settles the send
    obtain ⟨-, hknown⟩ : Holds .receive hist ∧ KnownSend hist send := reach_justified hr hth
    obtain ⟨r, hrow, hc⟩ := hknown.row hr hth
    rcases Db.reserveInternalSend_ok hrun with ⟨-, hi⟩ | ⟨l, ip, -, -, -, -, hins, rfl⟩
    · have he := hnone.symm.trans hi
      cases he
    · have hstands := Db.reserveInternalSend_stands hrun (.refl _)
      obtain rfl := Option.some.inj (hstands.symm.trans h)
      refine ⟨Db.setSendStatus .settling r, ?_, hc.same.requestId, .inr rfl⟩
      refine List.mem_map.mpr ⟨r, hrow, ?_⟩
      rw [if_pos (beq_iff_eq.mpr hc.same.requestId)]

/-- A move takes the send further. -/
theorem moves_step (hs : Reach ok s) {q : Query} {c : Api.Reply (Call.db q) → Prog Api Unit}
    {hist : History Api} (hth : s.thread t = some ⟨.call (.db q) c, hist⟩) {a : q.Out} {db' : Db}
    (hrun : q.run s.world.now s.world.db = .ok (a, db')) (h : s.world.db.AwaitsSubmission id)
    (hq : MovesSend id q) : db'.MovedOn id := by
  have hj := reach_justified hs hth
  obtain ⟨r, hr, hid, hst, hpay⟩ := h
  cases hq with
  | bound payment =>
      obtain ⟨-, rfl⟩ := Db.bindLightningPayment_ok hrun
      refine ⟨Db.bindSend payment r, ?_, hid, .inl (Option.some_ne_none _)⟩
      refine List.mem_map.mpr ⟨r, hr, if_pos ?_⟩
      simp [hid, hpay]
  | set status =>
      obtain ⟨-, rfl⟩ := Prod.mk.inj (Except.ok.inj hrun)
      refine ⟨Db.setSendStatus status r, ?_, hid, .inr (StatusGround.submitted hj)⟩
      refine List.mem_map.mpr ⟨r, hr, if_pos ?_⟩
      simp [Db.sendHasId, hid, hst, SendStatus.final]
  | reserved send hsend =>
      have hstands := Db.reserveInternalSend_stands hrun (.refl db')
      rcases Db.internalSend_step hrun hstands with hold | ⟨hnone, -⟩
      · -- it was reserved before, so it did not await its submission
        have hmoved := reach_payer_moved hs hold
        rw [hsend] at hmoved
        exact absurd hmoved (Db.AwaitsSubmission.not_movedOn ⟨r, hr, hid, hst, hpay⟩)
      · rcases Db.reserveInternalSend_ok hrun with ⟨-, hi⟩ | ⟨l, ip, -, -, -, -, hins, rfl⟩
        · have he := hnone.symm.trans hi
          cases he
        · refine ⟨Db.setSendStatus .settling r, ?_, hid, .inr rfl⟩
          refine List.mem_map.mpr ⟨r, hr, if_pos ?_⟩
          simp [hid, hsend]
  | finished send hsend =>
      obtain ⟨-, rfl⟩ := Db.finishInternalSend_ok hrun
      refine ⟨{ Db.setSendStatus .succeeded r with lastError := none }, ?_, hid, .inr rfl⟩
      refine List.mem_map.mpr ⟨r, hr, if_pos ?_⟩
      simp [hid, hsend]

/-- What a program sees when it looks. -/
theorem arms_awaits (hs : Reach ok s) {q : Query} {a : q.Out} {db' : Db}
    (hrun : q.run s.world.now s.world.db = .ok (a, db')) (he : Arms id (dbEvent q a)) :
    db'.AwaitsSubmission id := by
  cases he with
  | begun =>
      obtain ⟨hcount, rfl⟩ := Prod.mk.inj (Except.ok.inj hrun)
      obtain ⟨r, hr, hp⟩ := Table.count_pos (by rw [beq_iff_eq.mp hcount]; exact Nat.one_pos)
      simp only [Bool.and_eq_true, beq_iff_eq] at hp
      refine ⟨Db.setSendStatus .submitting r, ?_, hp.1, rfl, reach_prepared hs r hr hp.2⟩
      refine List.mem_map.mpr ⟨r, hr, if_pos ?_⟩
      simp [hp.1, hp.2]
  | read key x hid hx =>
      obtain ⟨ha, rfl⟩ := Prod.mk.inj (Except.ok.inj hrun)
      obtain ⟨r, hr, rfl, -⟩ := Db.lightningSendForPayment_mem ha
      exact ⟨r, hr, hid, hx⟩
  | listed xs x hmem hid hx =>
      obtain ⟨rfl, rfl⟩ := Prod.mk.inj (Except.ok.inj hrun)
      have hall := (List.perm_insertionSort _ _).mem_iff.mp (List.mem_of_mem_take hmem)
      obtain ⟨r, hr, rfl⟩ := List.mem_map.mp (List.mem_filter.mp hall).1
      exact ⟨r, hr, hid, hx⟩

end invariants

/-! ### Looks and moves -/

/-- Some event of the list moves the send on. -/
def AnyMoves (id : String) (trace : List (Nat × Event Api)) : Prop :=
  ∃ u q a, (u, dbEvent q a) ∈ trace ∧ MovesSend id q

/-- Since a look of program `t` somebody has moved the send on. -/
def Overtaken (t : Nat) (id : String) (trace : List (Nat × Event Api)) : Prop :=
  ∃ newer e older, trace = newer ++ (t, e) :: older ∧ Arms id e ∧ AnyMoves id newer

/-- What a send is, given what has happened since a look at it. -/
inductive AfterLook (db : Db) (id : String) (newer : List (Nat × Event Api)) : Prop
  | awaits (hnone : ¬ AnyMoves id newer) (h : db.AwaitsSubmission id)
  | moved (hsome : AnyMoves id newer) (h : db.MovedOn id)

section looks

variable {s s' : Config (machine D)} {t : Nat} {id : String} {newer : List (Nat × Event Api)}

theorem anyMoves_cons {x : Nat × Event Api} : AnyMoves id (x :: newer) ↔
    (∃ q a, x.2 = dbEvent q a ∧ MovesSend id q) ∨ AnyMoves id newer := by
  constructor
  · rintro ⟨u, q, a, hmem, hq⟩
    rcases List.mem_cons.mp hmem with rfl | hmem
    · exact .inl ⟨q, a, rfl, hq⟩
    · exact .inr ⟨u, q, a, hmem, hq⟩
  · rintro (⟨q, a, hx, hq⟩ | ⟨u, q, a, hmem, hq⟩)
    · exact ⟨x.1, q, a, hx ▸ List.mem_cons_self, hq⟩
    · exact ⟨u, q, a, List.mem_cons_of_mem _ hmem, hq⟩

/-- A call that is no method of the tables, or fails. -/
theorem AfterLook.quiet {db : Db} (h : AfterLook db id newer) {x : Nat × Event Api}
    (hx : ∀ q a, x.2 ≠ dbEvent q a) : AfterLook db id (x :: newer) := by
  have hno : ¬ ∃ q a, x.2 = dbEvent q a ∧ MovesSend id q := by
    rintro ⟨q, a, he, -⟩
    exact hx q a he
  cases h with
  | awaits hnone h => exact .awaits (by rw [anyMoves_cons]; exact fun hs => hs.elim hno hnone) h
  | moved hsome h => exact .moved (anyMoves_cons.mpr (.inr hsome)) h

/-- A method. -/
theorem AfterLook.method (hs : Reach ok s) {q : Query} {c : Api.Reply (Call.db q) → Prog Api Unit}
    {hist : History Api} (hth : s.thread t = some ⟨.call (.db q) c, hist⟩) {a : q.Out} {db' : Db}
    (hrun : q.run s.world.now s.world.db = .ok (a, db'))
    (h : AfterLook s.world.db id newer) : AfterLook db' id ((t, dbEvent q a) :: newer) := by
  cases h with
  | moved hsome h =>
      exact .moved (anyMoves_cons.mpr (.inr hsome)) (movedOn_step hs hth hrun h)
  | awaits hnone h =>
      by_cases hq : MovesSend id q
      · exact .moved (anyMoves_cons.mpr (.inl ⟨q, a, rfl, hq⟩)) (moves_step hs hth hrun h hq)
      · refine .awaits ?_ (h.step hrun hq)
        rw [anyMoves_cons]
        rintro (⟨q', a', he, hq'⟩ | hsome)
        · obtain rfl : q = q' := Call.db.inj (congrArg Event.call he)
          exact hq hq'
        · exact hnone hsome

/-- A call. -/
theorem AfterLook.call (hs : Reach ok s) {c : Call} {k : c.Reply → Prog Api Unit}
    {hist : History Api} (hth : s.thread t = some ⟨.call c k, hist⟩) {ch : Choice} {r : c.Reply}
    {w : World} (hp : perform D t c ch s.world = some (r, w))
    (h : AfterLook s.world.db id newer) : AfterLook w.db id ((t, ⟨c, r⟩) :: newer) := by
  by_cases hdb : ∃ q, c = .db q
  · obtain ⟨q, rfl⟩ := hdb
    rcases perform_db hp with ⟨a, db', hrun, rfl, rfl⟩ | ⟨e, rfl, rfl⟩
    · exact h.method hs hth hrun
    · refine h.quiet fun q' a' he => ?_
      obtain rfl : q = q' := Call.db.inj (congrArg Event.call he)
      cases he
  · rw [perform_tables hp fun q hq => hdb ⟨q, hq⟩]
    exact h.quiet fun q a he => hdb ⟨q, congrArg Event.call he⟩

/-- A look. -/
theorem AfterLook.look (hs : Reach ok s) {c : Call} {ch : Choice} {r : c.Reply} {w : World}
    (hp : perform D t c ch s.world = some (r, w)) (he : Arms id (⟨c, r⟩ : Event Api)) :
    AfterLook w.db id [] := by
  have hnone : ¬ AnyMoves id [] := by
    rintro ⟨u, q, a, hmem, -⟩
    cases hmem
  obtain ⟨q, a, hqa⟩ : ∃ q a, (⟨c, r⟩ : Event Api) = dbEvent q a := by
    cases he with
    | begun => exact ⟨_, _, rfl⟩
    | read key x hid hx => exact ⟨_, _, rfl⟩
    | listed xs x hmem hid hx => exact ⟨_, _, rfl⟩
  obtain rfl : c = .db q := congrArg Event.call hqa
  rcases perform_db hp with ⟨b, db', hrun, rfl, rfl⟩ | ⟨e, rfl, rfl⟩
  · exact .awaits hnone (arms_awaits hs hrun he)
  · cases hqa

/-- **Every look stays true until somebody moves the send on, and then never again.** -/
theorem reach_looks (hs : Reach ok s) {e : Event Api} {older : List (Nat × Event Api)}
    (htrace : s.trace = newer ++ (t, e) :: older) (he : Arms id e) :
    AfterLook s.world.db id newer := by
  refine hs.invariant (J := fun s : Config (machine D) => ∀ newer t e older,
    s.trace = newer ++ (t, e) :: older → Arms id e → AfterLook s.world.db id newer) ?_ ?_
    newer t e older htrace he
  · intro newer t e older h
    simp [Config.start] at h
  · intro s s' m hr ih hm hst newer t e older htrace he
    rcases Config.step_cases hst with ⟨r, -, rfl⟩ |
      ⟨u, ch, c, k, hist, r, w, -, hth, hp, rfl⟩ | ⟨u, th, -, -, rfl⟩ | ⟨-, rfl⟩ |
      ⟨o, w, -, ho, rfl⟩
    · exact ih newer t e older htrace he
    · have hp : perform D u c ch s.world = some (r, w) := hp
      have htrace : (u, (⟨c, r⟩ : Event Api)) :: s.trace = newer ++ (t, e) :: older := htrace
      show AfterLook w.db id newer
      -- the look itself, or a call after it
      cases newer with
      | nil =>
          obtain ⟨hx, -⟩ := List.cons.inj htrace
          obtain ⟨rfl, rfl⟩ := Prod.mk.inj hx
          exact AfterLook.look hr hp he
      | cons x newer =>
          obtain ⟨rfl, hrest⟩ := List.cons.inj htrace
          exact (ih newer t e older hrest he).call hr hth hp
    · exact ih newer t e older htrace he
    · exact ih newer t e older htrace he
    · have hdb : w.db = s.world.db := (outside_tables ho).1
      show AfterLook w.db id newer
      rw [hdb]
      exact ih newer t e older htrace he

end looks

/-- **What is submitted.**  When a program submits a send, the row is `SUBMITTING` and without a
payment exactly when nobody has bound the send, or set its status, since the program saw it
so or claimed it. -/
theorem submitted_once_claimed (D : Deployment) (s : Config (machine D)) (hs : Reach anyMove s)
    (t : Nat) (send : LightningSend) (amountMsat : Option Nat)
    (hnext : s.next t = some (.ldk (.submit send amountMsat))) :
    s.world.db.AwaitsSubmission send.requestId ↔ ¬ Overtaken t send.requestId s.trace := by
  constructor
  · rintro hawaits ⟨newer, e, older, htrace, he, hmoves⟩
    cases reach_looks hs htrace he with
    | awaits hnone h => exact hnone hmoves
    | moved hsome h => exact hawaits.not_movedOn h
  · intro hnot
    obtain ⟨⟨_ | ⟨c, k⟩, hist⟩, hth, hc⟩ := Option.bind_eq_some_iff.mp hnext
    · cases hc
    obtain rfl := Option.some.inj hc
    have hj : SubmitGround D hist send := reach_justified hs hth
    obtain ⟨e, hmem, he⟩ := hj.armed
    obtain ⟨newer, older, htrace⟩ := List.append_of_mem (hs.history_mem t _ hth e hmem)
    cases reach_looks hs htrace he with
    | awaits hnone h => exact h
    | moved hsome h => exact absurd ⟨newer, e, older, htrace, he, hsome⟩ hnot

namespace Sample

/-- LDK's record of the payment of the sample send. -/
def remotePayment : Payment :=
  ⟨attemptId '0', some (.bolt11 (Bytes32.text (Bytes32.fill 0)) none none), some 1000,
    .outbound, .pending⟩

/-- Program `t` takes the sample send up again, and LDK does not know its payment. -/
def recoverUpTo (t : Nat) : List (Move (machine .sample)) :=
  .spawn (.reconcileRequest (uuid 1).print) :: calls t [.done, .done, .payment none,
    .htlcs [funding 172800], .time SystemTime.epoch]

/-- The process stops before the submission.  Two polls take the send up, and the first one
submits it. -/
def race : List (Move (machine .sample)) :=
  sendUpTo 172800 SystemTime.epoch ++ .crash :: recoverUpTo 1 ++ recoverUpTo 2 ++
    calls 1 [.payment (some remotePayment), .done]

/-- Program `t` submits a send next, and the rows are as expected. -/
def submits (t : Nat) (p : LightningSend → Bool) (s : Config (machine .sample)) : Bool :=
  match s.next t with
  | some (.ldk (.submit send _)) => s.world.db.sends.rows.any fun r =>
      r.intent.requestId == send.requestId && p r.intent
  | _ => false

theorem of_submits {t : Nat} {p : LightningSend → Bool} {s : Config (machine .sample)}
    (h : submits t p s = true) :
    ∃ send amountMsat, s.next t = some (.ldk (.submit send amountMsat)) ∧
      ∃ r ∈ s.world.db.sends.rows, r.intent.requestId = send.requestId ∧ p r.intent = true := by
  unfold submits at h
  split at h
  · next send amountMsat hnext =>
      obtain ⟨r, hr, hp⟩ := List.any_eq_true.mp h
      rw [Bool.and_eq_true, beq_iff_eq] at hp
      exact ⟨send, amountMsat, hnext, r, hr, hp⟩
  · cases h

def submittedFirst : Reach.Run anyMove
    (submits 0 fun a => a.status == .submitting && a.paymentId == none) :=
  .ofMoves (sendUpTo 172800 SystemTime.epoch) (by decide +kernel)

def submittedBound : Reach.Run anyMove
    (submits 2 fun a => a.status == .pending && a.paymentId == some (attemptId '0')) :=
  .ofMoves race (by decide +kernel)

end Sample

/-- The first submission: nobody has moved the send. -/
theorem submitted_once_claimed_first : ∃ (s : Config (machine .sample)) (send : LightningSend)
    (amountMsat : Option Nat), Reach anyMove s ∧
      s.next 0 = some (.ldk (.submit send amountMsat)) ∧
      s.world.db.AwaitsSubmission send.requestId ∧ ¬ Overtaken 0 send.requestId s.trace := by
  obtain ⟨s, hs, hp⟩ := Sample.submittedFirst
  obtain ⟨send, amountMsat, hnext, r, hr, hid, hrow⟩ := Sample.of_submits hp
  rw [Bool.and_eq_true, beq_iff_eq, beq_iff_eq] at hrow
  have hawaits : s.world.db.AwaitsSubmission send.requestId := ⟨r, hr, hid, hrow⟩
  exact ⟨s, send, amountMsat, hs, hnext, hawaits,
    (submitted_once_claimed .sample s hs 0 send amountMsat hnext).mp hawaits⟩

/-- **A send is submitted after it has been bound.** -/
theorem bound_send_submitted :
    ¬ ∀ (D : Deployment) (s : Config (machine D)), Reach anyMove s → ∀ t send amountMsat,
      s.next t = some (.ldk (.submit send amountMsat)) →
      s.world.db.AwaitsSubmission send.requestId := by
  intro h
  obtain ⟨s, hs, hp⟩ := Sample.submittedBound
  obtain ⟨send, amountMsat, hnext, r, hr, hid, hrow⟩ := Sample.of_submits hp
  rw [Bool.and_eq_true, beq_iff_eq, beq_iff_eq] at hrow
  refine (h .sample s hs 2 send amountMsat hnext).not_movedOn ⟨r, hr, hid, .inl ?_⟩
  rw [hrow.2]
  exact Option.some_ne_none _

end OpenSsp
