/-
OpenSsp/FailureReason.lean

The stored reason of a failed send, which clients read as its failure reason.

Submission errors, recorded failures and the binding of a payment all write `last_error`, each
under its own guard.  A bound send is neither `PREPARED` nor `SUBMITTING` (`bound_submitted`), so
binding it again clears nothing; the others keep a reason that is there.  What is stored is the
reason of the newest failure that carried one (`reason_kept`).

Main result: `failure_reasons_survive`.
-/
import OpenSsp.RouteCap

namespace OpenSsp

open Interleave

variable {D : Deployment} {ok : Config (machine D) → Move (machine D) → Prop}

/-! ### One method -/

/-- The method records a failure of the send with the reason. -/
def Query.Records (q : Query) (a : LightningSend) (reason : String) : Prop :=
  ∃ id, q = .recordLightningFailure id (some reason) ∧ (a.requestId = id ∨ a.paymentId = some id)

/-- The method settles the send within the SSP. -/
def Query.SettlesInternally (q : Query) (a : LightningSend) : Prop :=
  ∃ send, q = .finishInternalSend send ∧ a.requestId = send.requestId

/-- What a method does to the stored reason of one send. -/
structure ReasonStep (q : Query) (r r' : SendRow) : Prop where
  written : ∀ reason, q.Records r.intent reason → r'.lastError = some reason
  kept : ∀ reason, r.lastError = some reason → Db.unsubmitted r.intent.status = false →
    ¬ q.SettlesInternally r.intent → (∀ reason', ¬ q.Records r.intent reason') →
    r'.lastError = some reason

namespace Db

variable {db db' : Db}

/-- A method other than `record_lightning_failure` that keeps the reason. -/
theorem keepsReason {q : Query} {r r' : SendRow}
    (hq : ∀ id reason, q ≠ .recordLightningFailure id reason)
    (h : ∀ reason, r.lastError = some reason → Db.unsubmitted r.intent.status = false →
      ¬ q.SettlesInternally r.intent → r'.lastError = some reason) : ReasonStep q r r' where
  written reason hrec := by
    obtain ⟨id, he, -⟩ := hrec
    exact absurd he (hq id _)
  kept reason hr hs hint _ := h reason hr hs hint

/-- A row that a conditional update leaves alone, or moves by `f`. -/
theorem reasons_update {q : Query} {p : SendRow → Bool} {f : SendRow → SendRow}
    (hs : db'.sends.rows = db.sends.rows.map fun r => if p r then f r else r)
    (hmoved : ∀ r, p r = true → ReasonStep q r (f r))
    (hleft : ∀ r, p r = false → ReasonStep q r r) :
    ∃ g, db'.sends.rows = db.sends.rows.map g ∧ ∀ r ∈ db.sends.rows, ReasonStep q r (g r) := by
  refine ⟨fun r => if p r then f r else r, hs, fun r _ => ?_⟩
  rcases hp : p r with - | -
  · have hstep := hleft r hp
    simpa only [hp, Bool.false_eq_true, if_false] using hstep
  · have hstep := hmoved r hp
    simpa only [hp, if_true] using hstep

/-- The method that records a failure. -/
theorem reasons_recordLightningFailure {id : String} {reason : Option String} {now : Nat} {a : Unit}
    (h : (Query.recordLightningFailure id reason).run now db = .ok (a, db')) :
    ∃ g, db'.sends.rows = db.sends.rows.map g ∧
      ∀ r ∈ db.sends.rows, ReasonStep (.recordLightningFailure id reason) r (g r) := by
  obtain ⟨-, rfl⟩ := Prod.mk.inj (Except.ok.inj h)
  refine reasons_update rfl (fun r hp => ⟨?_, ?_⟩) fun r hp => ⟨?_, ?_⟩
  · rintro reason' ⟨id', he, -⟩
    obtain ⟨-, rfl⟩ := Query.recordLightningFailure.inj he
    rfl
  · intro reason' hr _ _ hnone
    rcases reason with - | reason
    · -- a failure without a reason
      show some (r.lastError.getD _) = some reason'
      rw [hr]
      rfl
    · simp only [sendHasId, Bool.or_eq_true, beq_iff_eq] at hp
      exact absurd ⟨id, rfl, hp⟩ (hnone reason)
  · rintro reason' ⟨id', he, hid⟩
    obtain ⟨rfl, -⟩ := Query.recordLightningFailure.inj he
    simp only [sendHasId, Bool.or_eq_false_iff, beq_eq_false_iff_ne] at hp
    exact absurd hid (not_or.mpr hp)
  · exact fun reason' hr _ _ _ => hr

theorem reasons_step {q : Query} {now : Nat} {a : q.Out} (h : q.run now db = .ok (a, db'))
    (hq : ∀ send key network, q ≠ .prepareLightningSend send key network) :
    ∃ g, db'.sends.rows = db.sends.rows.map g ∧ ∀ r ∈ db.sends.rows, ReasonStep q r (g r) := by
  by_cases hrecords : ∃ id reason, q = .recordLightningFailure id reason
  · obtain ⟨id, reason, rfl⟩ := hrecords
    exact reasons_recordLightningFailure h
  have hother : ∀ id reason, q ≠ .recordLightningFailure id reason :=
    fun id reason he => hrecords ⟨id, reason, he⟩
  -- a row that stays as it is, under any method that records no failure
  have hsame : ∀ r : SendRow, ReasonStep q r r := fun r => keepsReason hother fun _ hr _ _ => hr
  by_cases hw : .sends ∉ q.writes
  · exact ⟨id, by rw [(run_frame h).sends hw, List.map_id], fun r _ => hsame r⟩
  cases q with
  | prepareLightningSend send key network => exact absurd rfl (hq send key network)
  | setLightningSendRouteCltv id cltv =>
      obtain ⟨-, rfl⟩ := Prod.mk.inj (Except.ok.inj h)
      exact reasons_update rfl (fun r _ => keepsReason hother fun _ hr _ _ => hr) fun r _ => hsame r
  | beginLightningSubmission id =>
      obtain ⟨-, rfl⟩ := Prod.mk.inj (Except.ok.inj h)
      exact reasons_update rfl (fun r _ => keepsReason hother fun _ hr _ _ => hr) fun r _ => hsame r
  | bindLightningPayment id paymentId =>
      obtain ⟨-, rfl⟩ := bindLightningPayment_ok h
      refine reasons_update rfl (fun r _ => keepsReason hother fun reason hr hs _ => ?_)
        fun r _ => hsame r
      -- only an unsubmitted send is cleared
      show (if unsubmitted r.intent.status then none else r.lastError) = some reason
      rw [hs, ← hr]
      rfl
  | lightningSubmissionError id error =>
      obtain ⟨-, rfl⟩ := Prod.mk.inj (Except.ok.inj h)
      refine reasons_update rfl (fun r _ => keepsReason hother fun reason hr _ _ => ?_)
        fun r _ => hsame r
      show some (r.lastError.getD error) = some reason
      rw [hr]
      rfl
  | recordLightningFailure id reason => exact absurd rfl (hother id reason)
  | setPayment id status =>
      obtain ⟨-, rfl⟩ := Prod.mk.inj (Except.ok.inj h)
      exact reasons_update rfl (fun r _ => keepsReason hother fun _ hr _ _ => hr) fun r _ => hsame r
  | reserveInternalSend send =>
      rcases reserveInternalSend_ok h with ⟨rfl, -⟩ | ⟨l, ip, -, -, -, -, -, rfl⟩
      · exact ⟨id, by rw [List.map_id], fun r _ => hsame r⟩
      · exact reasons_update rfl (fun r _ => keepsReason hother fun _ hr _ _ => hr)
          fun r _ => hsame r
  | finishInternalSend send =>
      obtain ⟨-, rfl⟩ := finishInternalSend_ok h
      refine reasons_update rfl (fun r hp => keepsReason hother fun _ _ _ hint => ?_)
        fun r _ => hsame r
      exact absurd ⟨send, rfl, by simpa using hp⟩ hint
  | _ => simp [Query.writes] at hw

/-- Every method moves the reasons of all sends by steps, or prepares a new send. -/
theorem sends_reasons {q : Query} {now : Nat} {a : q.Out} (h : q.run now db = .ok (a, db')) :
    (∃ g, db'.sends.rows = db.sends.rows.map g ∧
      ∀ r ∈ db.sends.rows, SendStep q r (g r) ∧ ReasonStep q r (g r)) ∨
    ∃ send key network, q = .prepareLightningSend send key network ∧
      db'.sends.rows = preparedRow send :: db.sends.rows ∧
      ∀ r ∈ db.sends.rows, r.intent.requestId ≠ send.requestId := by
  by_cases hq : ∃ send key network, q = .prepareLightningSend send key network
  · obtain ⟨send, key, network, rfl⟩ := hq
    obtain ⟨requests, sends, transfers, -, -, hins, -, -, -, rfl⟩ := prepareLightningSend_ok h
    obtain ⟨hfree, hrows⟩ := Table.insert_eq_some hins
    exact .inr ⟨send, key, network, rfl, hrows, Table.get_eq_none.mp hfree⟩
  · rcases sends_step h with ⟨g, hrows, hstep⟩ | ⟨send, key, network, he, -⟩
    · have hno : ∀ send key network, q ≠ .prepareLightningSend send key network :=
        fun send key network he => hq ⟨send, key, network, he⟩
      obtain ⟨g', hrows', hreason⟩ := reasons_step h hno
      have hsame : ∀ r ∈ db.sends.rows, g' r = g r :=
        List.map_inj_left.mp (hrows'.symm.trans hrows)
      exact .inl ⟨g, hrows, fun r hr => ⟨hstep r hr, hsame r hr ▸ hreason r hr⟩⟩
    · exact absurd ⟨send, key, network, he⟩ hq

/-- A send that has been bound is there. -/
theorem bindLightningPayment_row {id paymentId : String} {u : Unit}
    (h : db.bindLightningPayment id paymentId = .ok (u, db')) :
    ∃ r ∈ db'.sends.rows, r.intent.requestId = id ∧ r.intent.paymentId = some paymentId := by
  obtain ⟨-, rfl⟩ := bindLightningPayment_ok h
  unfold bindLightningPayment at h
  obtain ⟨hcount, -⟩ := guard_ok h
  obtain ⟨r, hr, hp⟩ := Table.count_pos (Nat.pos_of_ne_zero fun he => by rw [he] at hcount; omega)
  refine ⟨bindSend paymentId r, List.mem_map.mpr ⟨r, hr, if_pos hp⟩, ?_, rfl⟩
  simp only [Bool.and_eq_true, beq_iff_eq] at hp
  exact hp.1

end Db

/-! ### The history of a send -/

/-- The reason that the event records for the send, if it does. -/
def reasonFor (a : LightningSend) : Event Api → Option String
  | ⟨.db (.recordLightningFailure id (some reason)), .ok _⟩ =>
      if a.requestId = id ∨ a.paymentId = some id then some reason else none
  | _ => none

/-- Does the event bind the send to its payment? -/
def bindsSend (a : LightningSend) : Event Api → Bool
  | ⟨.db (.bindLightningPayment id paymentId), .ok _⟩ =>
      a.requestId == id && a.paymentId == some paymentId
  | _ => false

/-- The newest reason recorded for the send since it was bound to its payment.  The newest event
of a trace is its first. -/
def recordedReason (a : LightningSend) : List (Nat × Event Api) → Option String
  | [] => none
  | x :: older =>
      match reasonFor a x.2 with
      | some reason => if older.any fun y => bindsSend a y.2 then some reason else
          recordedReason a older
      | none => recordedReason a older

/-- The SSP has settled the send by itself, as a payment of one of its own invoices. -/
def SettledInternally (s : Config (machine D)) (a : LightningSend) : Prop :=
  ∃ t send, (t, dbEvent (.finishInternalSend send) ()) ∈ s.trace ∧ a.requestId = send.requestId

section history

variable {a : LightningSend} {x : Nat × Event Api} {older : List (Nat × Event Api)}
  {reason : String}

theorem reasonFor_eq {e : Event Api} (h : reasonFor a e = some reason) :
    ∃ id, e = dbEvent (.recordLightningFailure id (some reason)) () ∧
      (a.requestId = id ∨ a.paymentId = some id) := by
  unfold reasonFor at h
  split at h
  · next id reason' _ =>
      split at h
      · next hid =>
          obtain rfl := Option.some.inj h
          exact ⟨id, rfl, hid⟩
      · cases h
  · cases h

theorem bindsSend_eq {e : Event Api} (h : bindsSend a e = true) :
    ∃ paymentId, e = dbEvent (.bindLightningPayment a.requestId paymentId) () ∧
      a.paymentId = some paymentId := by
  unfold bindsSend at h
  split at h
  · next id paymentId _ =>
      rw [Bool.and_eq_true, beq_iff_eq, beq_iff_eq] at h
      obtain ⟨rfl, hid⟩ := h
      exact ⟨paymentId, rfl, hid⟩
  · cases h

theorem recordedReason_cons (h : recordedReason a (x :: older) = some reason) :
    reasonFor a x.2 = some reason ∨ recordedReason a older = some reason := by
  unfold recordedReason at h
  split at h
  · next hx =>
      split at h
      · exact .inl (hx.trans h)
      · exact .inr h
  · exact .inr h

/-- A recorded reason comes after the binding. -/
theorem bound_of_recorded (h : recordedReason a older = some reason) :
    ∃ y ∈ older, bindsSend a y.2 = true := by
  induction older with
  | nil => cases h
  | cons x older ih =>
      unfold recordedReason at h
      split at h
      · split at h
        · next hany =>
            obtain ⟨y, hy, hb⟩ := List.any_eq_true.mp hany
            exact ⟨y, List.mem_cons_of_mem _ hy, hb⟩
        · obtain ⟨y, hy, hb⟩ := ih h
          exact ⟨y, List.mem_cons_of_mem _ hy, hb⟩
      · obtain ⟨y, hy, hb⟩ := ih h
        exact ⟨y, List.mem_cons_of_mem _ hy, hb⟩

/-- Only the ids of the send matter. -/
theorem recordedReason_congr {b : LightningSend} (hr : b.requestId = a.requestId)
    (hp : b.paymentId = a.paymentId) : recordedReason b older = recordedReason a older := by
  have hreason : reasonFor b = reasonFor a := by
    funext e
    unfold reasonFor
    rw [hr, hp]
  have hbinds : bindsSend b = bindsSend a := by
    funext e
    unfold bindsSend
    rw [hr, hp]
  induction older with
  | nil => rfl
  | cons x older ih => rw [recordedReason, recordedReason, hreason, hbinds, ih]

end history

section run

variable {s : Config (machine D)}

/-- A bound send has been submitted. -/
theorem bound_submitted (hs : Reach ok s) : ∀ r ∈ s.world.db.sends.rows,
    r.intent.paymentId ≠ none → Db.unsubmitted r.intent.status = false := by
  refine reach_tables (J := fun w => ∀ r ∈ w.db.sends.rows, r.intent.paymentId ≠ none →
    Db.unsubmitted r.intent.status = false) ?_ ?_ ?_ hs
  · intro r hr
    simp [World.init, Db.empty, Table.empty] at hr
  · intro w w' hdb _ ih r hr
    exact ih r (hdb ▸ hr)
  · intro s t q k hist a db' hr hth hrun _ ih x hx hbound
    rcases Db.sends_step hrun with ⟨g, hrows, hstep⟩ | ⟨send, key, network, -, hrows, -⟩
    · obtain ⟨r, hr', rfl⟩ := List.mem_map.mp (hrows ▸ hx)
      cases (hstep r hr').progress with
      | none hp hs => rw [hs, ih r hr' (hp ▸ hbound)]
      | begun hq hs hp hs' =>
          -- an unbound one
          have hsubmitted := ih r hr' (hp ▸ hbound)
          rw [hs] at hsubmitted
          cases hsubmitted
      | bound id hq free hp hs =>
          rw [hs]
          split
          · rfl
          · next hst => simpa using hst
      | set id status hq hid hopen hp hs =>
          subst hq
          have hground : StatusGround D hist id status := reach_justified hr hth
          rw [hs]
          cases status with
          | prepared => exact hground.elim
          | submitting => exact hground.elim
          | _ => rfl
      | reserved send hq hid hp hs => rw [hs]; rfl
      | finished send hq hid hp hs => rw [hs]; rfl
    · rcases List.mem_cons.mp (hrows ▸ hx) with rfl | hx
      · exact absurd rfl hbound
      · exact ih x hx hbound

/-- A send the trace has bound is bound. -/
theorem bound_row (hs : Reach ok s) {a : LightningSend} {y : Nat × Event Api} (hy : y ∈ s.trace)
    (h : bindsSend a y.2 = true) : ∃ r ∈ s.world.db.sends.rows,
      r.intent.requestId = a.requestId ∧ r.intent.paymentId = a.paymentId ∧
      a.paymentId ≠ none := by
  obtain ⟨t, e⟩ := y
  obtain ⟨paymentId, rfl, hid⟩ := bindsSend_eq h
  obtain ⟨older, s₀, s₁, hm, hg⟩ := reach_happened hs hy
  obtain ⟨db', hrun, hw⟩ := moment_db hm
  obtain ⟨r₀, hr₀, hreq, hpay⟩ := Db.bindLightningPayment_row hrun
  have hdb : s₁.world.db = db' := by rw [hw]
  obtain ⟨r, hr, hc⟩ := hg.db.sends r₀ (hdb ▸ hr₀)
  refine ⟨r, hr, hc.same.requestId.trans hreq, ?_, ?_⟩
  · rw [hid]
    exact hc.paymentId _ hpay
  · simp [hid]

/-- A recorded failure leaves the binding of a send alone. -/
theorem Db.SendStep.records_paymentId {q : Query} {r r' : SendRow} (h : Db.SendStep q r r')
    {id : String} {reason : Option String} (hq : q = .recordLightningFailure id reason) :
    r'.intent.paymentId = r.intent.paymentId := by
  subst hq
  cases h.progress with
  | none hp hs => exact hp
  | begun hq hs hp hs' => exact hp
  | bound id hq free hp hs => cases hq
  | set id status hq hid hopen hp hs => exact hp
  | reserved send hq hid hp hs => exact hp
  | finished send hq hid hp hs => exact hp

/-- One method, for a send that was there before. -/
theorem reason_kept_step (hs : Reach ok s) {t : Nat} {q : Query} {a : q.Out} {r r' : SendRow}
    (hr : r ∈ s.world.db.sends.rows) (hstep : Db.SendStep q r r') (hreason : ReasonStep q r r')
    (hint : ¬ q.SettlesInternally r.intent)
    (ih : ∀ reason, recordedReason r.intent s.trace = some reason → r.lastError = some reason)
    {reason : String}
    (h : recordedReason r'.intent ((t, dbEvent q a) :: s.trace) = some reason) :
    r'.lastError = some reason := by
  -- what is known of older reasons
  have holder : recordedReason r'.intent s.trace = some reason →
      (∀ reason', ¬ q.Records r.intent reason') → r'.lastError = some reason := by
    intro h hnone
    obtain ⟨y, hy, hb⟩ := bound_of_recorded h
    obtain ⟨r₁, hr₁, hid, hpay, hne⟩ := bound_row hs hy hb
    obtain rfl := Db.send_eq hr₁ hr (hid.trans hstep.same.requestId)
    rw [recordedReason_congr hstep.same.requestId hpay.symm] at h
    exact hreason.kept reason (ih reason h) (bound_submitted hs r₁ hr (hpay ▸ hne)) hint hnone
  by_cases hrec : ∃ reason', q.Records r.intent reason'
  · -- the newest event records a reason
    obtain ⟨reason', id, rfl, hid⟩ := hrec
    have hpay := hstep.records_paymentId rfl
    have hnew : reasonFor r'.intent (dbEvent (.recordLightningFailure id (some reason')) a) =
        some reason' := by
      show (if r'.intent.requestId = id ∨ r'.intent.paymentId = some id then _ else _) = _
      rw [hstep.same.requestId, hpay, if_pos hid]
    unfold recordedReason at h
    simp only [hnew] at h
    split at h
    · obtain rfl := Option.some.inj h
      exact hreason.written reason' ⟨id, rfl, hid⟩
    · next hany =>
        obtain ⟨y, hy, hb⟩ := bound_of_recorded h
        exact absurd (List.any_eq_true.mpr ⟨y, hy, hb⟩) hany
  · rcases recordedReason_cons h with hnew | h
    · obtain ⟨id, he, hid⟩ := reasonFor_eq hnew
      obtain rfl := Call.db.inj (Event.mk.inj he).1
      rw [hstep.same.requestId, hstep.records_paymentId rfl] at hid
      exact absurd ⟨reason, id, rfl, hid⟩ hrec
    · exact holder h fun reason' hrecords => hrec ⟨reason', hrecords⟩

/-- An event of another kind records no reason. -/
theorem recordedReason_other {a : LightningSend} {x : Nat × Event Api}
    {older : List (Nat × Event Api)} {reason : String}
    (hx : ∀ id reason, x.2 ≠ dbEvent (.recordLightningFailure id (some reason)) ())
    (h : recordedReason a (x :: older) = some reason) : recordedReason a older = some reason := by
  rcases recordedReason_cons h with h | h
  · obtain ⟨id, he, -⟩ := reasonFor_eq h
    exact absurd he (hx id reason)
  · exact h

/-- What is stored for a send is the newest reason that was recorded for it. -/
theorem reason_kept (hs : Reach ok s) : ∀ r ∈ s.world.db.sends.rows,
    ¬ SettledInternally s r.intent → ∀ reason, recordedReason r.intent s.trace = some reason →
      r.lastError = some reason := by
  refine hs.invariant (J := fun s : Config (machine D) => ∀ r ∈ s.world.db.sends.rows,
    ¬ SettledInternally s r.intent → ∀ reason, recordedReason r.intent s.trace = some reason → r.lastError = some reason) ?_ ?_
  · intro r hr
    simp [Config.start, machine, World.init, Db.empty, Table.empty] at hr
  · intro s s' m hr ih hm hst
    rcases Config.step_cases hst with ⟨r, -, rfl⟩ | ⟨t, ch, c, k, hist, r, w, rfl, hth, hp, rfl⟩ |
      ⟨t, th, -, -, rfl⟩ | ⟨-, rfl⟩ | ⟨o, w, -, ho, rfl⟩
    · exact ih
    · have hp : perform D t c ch s.world = some (r, w) := hp
      -- a call that records nothing and changes no table
      have hquiet : w.db = s.world.db → (∀ id reason, (⟨c, r⟩ : Event Api) ≠
            dbEvent (.recordLightningFailure id (some reason)) ()) →
          ∀ x ∈ w.db.sends.rows, ¬ SettledInternally (s.record t w hist ⟨c, r⟩ (k r)) x.intent →
            ∀ reason, recordedReason x.intent ((t, ⟨c, r⟩) :: s.trace) = some reason →
              x.lastError = some reason := by
        intro hdb hx x hmem hint reason h
        refine ih x (hdb ▸ hmem) (fun hold => hint ?_) reason (recordedReason_other hx h)
        obtain ⟨u, send, he, hid⟩ := hold
        exact ⟨u, send, List.mem_cons_of_mem _ he, hid⟩
      by_cases hc : ∃ q, c = .db q
      · obtain ⟨q, rfl⟩ := hc
        rcases perform_db hp with ⟨a, db', hrun, rfl, rfl⟩ | ⟨e, rfl, rfl⟩
        · intro x hx hint reason h
          have hint' : ∀ b : LightningSend, b.requestId = x.intent.requestId →
              ¬ SettledInternally s b := by
            rintro b hb ⟨u, send, he, hid⟩
            exact hint ⟨u, send, List.mem_cons_of_mem _ he, hb ▸ hid⟩
          rcases Db.sends_reasons hrun with ⟨g, hrows, hstep⟩ | ⟨send, key, network, rfl, hrows, hfree⟩
          · obtain ⟨y, hy, rfl⟩ := List.mem_map.mp (hrows ▸ hx)
            obtain ⟨hsend, hreason⟩ := hstep y hy
            have hid := hsend.same.requestId
            refine reason_kept_step hr hy hsend hreason ?_ (ih y hy (hint' _ hid.symm)) h
            rintro ⟨send, rfl, hsettles⟩
            exact hint ⟨t, send, List.mem_cons_self, hid.trans hsettles⟩
          · have h' := recordedReason_other (fun _ _ he => by cases (Event.mk.inj he).1) h
            rcases List.mem_cons.mp (hrows ▸ hx) with rfl | hx
            · -- a new send has never been bound
              obtain ⟨y, hy, hb⟩ := bound_of_recorded h'
              obtain ⟨r, hr, hid, -⟩ := bound_row hr hy hb
              exact absurd hid (hfree r hr)
            · exact ih x hx (hint' _ rfl) reason h'
        · exact hquiet rfl fun _ _ he => by cases he
      · exact hquiet (perform_tables hp fun q hq => hc ⟨q, hq⟩) fun id reason he =>
          hc ⟨_, (Event.mk.inj he).1⟩
    · exact ih
    · exact ih
    · rw [(outside_tables ho).1]
      exact ih

/-- What the SSP settles by itself is one of its own invoices. -/
theorem internal_of_settled (hs : Reach ok s) {r : SendRow} (hr : r ∈ s.world.db.sends.rows)
    (h : SettledInternally s r.intent) :
    s.world.db.lightningReceiveHashForInvoice r.intent.invoice ≠ none := by
  obtain ⟨t, send, he, hid⟩ := h
  obtain ⟨older, s₀, s₁, hm, hg⟩ := reach_happened hs he
  obtain ⟨hknown, ⟨hash, hlocal⟩, -⟩ : KnownSend older send ∧ Local older send ∧ _ :=
    moment_justified hm
  obtain ⟨ch, k, hth, -⟩ := hm.made
  have hg₀ : s₀.world.Grows s.world := World.Grows.trans _ _ _ (moment_grows hm) hg
  -- the send is the row, and the invoice was that of a receive
  obtain ⟨r₀, hr₀, hc₀⟩ := hknown.row hm.reach hth
  obtain ⟨r', hr', hc⟩ := hg₀.db.sends r₀ hr₀
  have hc' := hc₀.trans hc
  obtain rfl := Db.send_eq hr' hr (hc'.same.requestId.trans hid.symm)
  obtain ⟨s₂, db', -, hrun, hgrows⟩ := db_fact hm.reach hth hlocal
  obtain ⟨ha, rfl⟩ := Prod.mk.inj (Except.ok.inj hrun)
  obtain ⟨l, hl, rfl⟩ := Option.map_eq_some_iff.mp ha
  have hfound := List.find?_some hl
  simp only [Bool.and_eq_true, beq_iff_eq] at hfound
  have hget := Table.mem_iff_get.mp (List.mem_of_find?_eq_some hl)
  obtain ⟨l₁, hget₁, hsame₁, -⟩ := hgrows.receives _ l hget
  obtain ⟨l₂, hget₂, hsame₂, -⟩ := hg₀.db.receives _ l₁ hget₁
  have hsame := hsame₁.trans hsame₂
  intro hnone
  have hno := List.find?_eq_none.mp (Option.map_eq_none_iff.mp hnone) l₂ (Table.mem_of_get hget₂)
  simp only [hsame.invoice, hsame.kind, hfound.1, hfound.2, hc'.same.invoice, beq_self_eq_true,
    Bool.and_self, not_true_eq_false] at hno

end run

/-- **Failure reasons survive.**  In every run the stored reason of a send is the newest one that
was recorded for its bound payment, unless the SSP has settled the send by itself; and it does
that only for its own invoices. -/
theorem failure_reasons_survive {s : Config (machine D)} (hs : Reach anyMove s) :
    ∀ r ∈ s.world.db.sends.rows,
      (¬ SettledInternally s r.intent → ∀ reason,
        recordedReason r.intent s.trace = some reason → r.lastError = some reason) ∧
      (s.world.db.lightningReceiveHashForInvoice r.intent.invoice = none →
        ¬ SettledInternally s r.intent) :=
  fun r hr => ⟨reason_kept hs r hr, fun hnone h => internal_of_settled hs hr h hnone⟩

namespace Sample

/-- The payment LDK makes for the send. -/
def routed (status : PaymentStatus) : Payment :=
  let hash := Bytes32.text (Bytes32.fill 0)
  ⟨attemptId 'c', some (.bolt11 hash none none), some 1000, .outbound, status⟩

/-- The payment of a send fails; its event carries a reason, and a later one does not. -/
def failRouted : List (Move (machine .sample)) :=
  sendUpTo 172800 SystemTime.epoch ++
  calls 0 [.payment (some (routed .pending)), .done] ++
  .outside (.payment (routed .failed)) :: .spawn (.event false) ::
  calls 1 [.event (some (.outboundFailed (attemptId 'c') (some "NO_ROUTE"))), .done, .done, .done,
    .done] ++
  .spawn (.event false) ::
  calls 2 [.event (some (.outboundFailed (attemptId 'c') none)), .done, .done, .done]

def keepsReason (s : Config (machine .sample)) : Bool :=
  s.world.db.sends.rows.any fun r =>
    s.world.db.lightningReceiveHashForInvoice r.intent.invoice == none &&
      recordedReason r.intent s.trace == some "NO_ROUTE" && r.intent.status == .failed

def failedRouted : Reach.Run anyMove keepsReason := .ofMoves failRouted (by decide +kernel)

end Sample

theorem failure_reasons_survive_route : ∃ (s : Config (machine .sample)) (r : SendRow),
    Reach anyMove s ∧ r ∈ s.world.db.sends.rows ∧ r.intent.status = .failed ∧
      r.lastError = some "NO_ROUTE" := by
  obtain ⟨s, hs, hp⟩ := Sample.failedRouted
  obtain ⟨r, hr, hrow⟩ := List.any_eq_true.mp hp
  simp only [Bool.and_eq_true, beq_iff_eq] at hrow
  obtain ⟨⟨hnone, hreason⟩, hst⟩ := hrow
  obtain ⟨hkept, hinternal⟩ := failure_reasons_survive hs r hr
  exact ⟨s, r, hs, hr, hst, hkept (hinternal hnone) _ hreason⟩

end OpenSsp
