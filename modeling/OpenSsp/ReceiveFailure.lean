/-
OpenSsp/ReceiveFailure.lean

When a receive fails: the attempt LDK is told to fail, and the row that is marked failed.

Neither is safe in every run.  Three of the places that fail an attempt do not ask
whether the payout may have reached the operators, and two of the places that mark a row
failed do not ask whether it was paid out.  `cautious` and `respectful` say what has to be
true where these places start.

Main results:

* `committed_receive_kept`: in runs of cautious moves the bound attempt of a receive whose
  payout the operators have executed is never failed.
* `paid_receive_not_failed`: in runs of respectful moves no paid receive is marked failed.
-/
import OpenSsp.ReceivePayout

namespace OpenSsp

open Interleave

variable {D : Deployment}

/-! ### Failing attempts -/

/-- A payout of the receive `hash` may have reached the operators. -/
def Operators.requested (s : Operators) (hash : String) : Bool :=
  s.requestedSwaps.any fun r => r.paymentHash.text == hash

/-- Where a payout may have reached the operators, a notification of the bound attempt
leads to no failure, the sweep stays away from a bound receive, and an attempt to pay out
does not end in an error that is taken for definitive. -/
def Mark.cautious (s : Operators) : Mark → Bool
  | .claimable p r => !s.requested p.paymentHash || r.paymentId != some p.paymentId ||
      r.status == .transferCompleted || (r.status != .htlcFailed && !wrongAmount p r)
  | .expired hash r => !s.requested hash || r.paymentId == none
  | .swapFailed hash e => !s.requested hash || !isDefinitiveSwapFailure e
  | _ => true

def cautiousMove (s : Config (machine D)) : Move (machine D) → Bool
  | .run t _ => match s.next t with
      | some (.mark m) => m.cautious s.world.spark
      | _ => true
  | _ => true

def cautious (s : Config (machine D)) (m : Move (machine D)) : Prop := cautiousMove s m = true

section cautious

variable {s : Config (machine D)} {t : Nat} {th : Thread Api} {hash id : String}

/-- A payout that may have reached the operators was backed when it started. -/
theorem requested_taken {ok : Config (machine D) → Move (machine D) → Prop} (hs : Reach ok s)
    (hr : s.world.spark.requested hash = true) :
    (s.world.db.receivePayment hash).paymentId.isSome ∨ (s.world.db.internalSend hash).isSome := by
  obtain ⟨r, hr, hhash⟩ := List.any_eq_true.mp hr
  obtain ⟨u, receiver, key, hm, hk, -⟩ := reach_requested hs hr
  have hpay := reach_payout hs hm
  obtain ⟨l, hl, -⟩ := hpay.row
  obtain rfl : key = hash := by
    rw [← reach_key_text hs hl hk]
    exact beq_iff_eq.mp hhash
  exact hpay.taken

/-- What a program knew and what was allowed when it made its mark, the part it has not
touched since. -/
theorem kept_mark {ok : Config (machine D) → Move (machine D) → Prop} (hs : Reach ok s)
    (hth : s.thread t = some th) (hh : Holds .receive th.history) {p : Part} {m : Mark}
    (he : Since (Quiet p) (markEvent m) th.history) :
    ∃ (s₀ : Config (machine D)) (th₀ : Thread Api) (ch : Choice), Reach ok s₀ ∧
      s₀.thread t = some th₀ ∧ th₀.prog.next = some (.mark m) ∧ ok s₀ (.run t ch) ∧
      MarkGround D th₀.history m ∧ p.Same s₀.world s.world ∧ World.Grows s₀.world s.world := by
  obtain ⟨h, s₀, s₁, hmo, hsame, hgrow⟩ := reach_kept hs hth hh he
  obtain ⟨ch, k, hth₀, hok, hp, -⟩ := hmo.made
  have hw : s₁.world = s₀.world := perform_mark (D := D) hp
  rw [hw] at hsame hgrow
  exact ⟨s₀, _, ch, hmo.reach, hth₀, rfl, hok, moment_justified hmo, hsame, hgrow⟩

/-- A mark that was cautious still is when no payout was asked for since. -/
theorem kept_cautious (hs : Reach cautious s) (hth : s.thread t = some th)
    (hh : Holds .receive th.history) {m : Mark}
    (he : Since (Quiet .swaps) (markEvent m) th.history) : m.cautious s.world.spark = true := by
  obtain ⟨s₀, th₀, ch, -, hth₀, hnext, hok, -, hsame, -⟩ := kept_mark hs hth hh he
  have hc : m.cautious s₀.world.spark = true := by
    simpa [cautious, cautiousMove, Config.next, hth₀, hnext] using hok
  have hswaps : s.world.spark.requestedSwaps = s₀.world.spark.requestedSwaps := hsame
  have hreq : ∀ k, s.world.spark.requested k = s₀.world.spark.requested k := fun k => by
    rw [Operators.requested, hswaps, Operators.requested]
  cases m with
  | claimable p r => simpa only [Mark.cautious, hreq] using hc
  | expired key r => simpa only [Mark.cautious, hreq] using hc
  | swapFailed key e => simpa only [Mark.cautious, hreq] using hc
  | _ => rfl

/-- An attempt that is failed is not the bound attempt of a receive whose payout may have
reached the operators. -/
theorem FailGround.unrequested (hs : Reach cautious s) (hth : s.thread t = some th)
    (hg : FailGround th.history id) (hid : (s.world.db.receivePayment hash).paymentId = some id) :
    s.world.spark.requested hash = false := by
  rcases hreq : s.world.spark.requested hash with - | -
  · rfl
  exfalso
  -- an attempt is made for one hash
  have hseen : ∀ key, s.world.ldk.hasAttempt id key = true → key = hash := by
    intro key hk
    obtain ⟨p, hp, hx⟩ := List.any_eq_true.mp hk
    obtain ⟨q, hq, hy⟩ := List.any_eq_true.mp ((reach_payments hs hash).bound id hid).2.2
    simp only [Bool.and_eq_true, beq_iff_eq] at hx hy
    have ha := (s.world.ldk.agree p hp q hq (hx.1.1.trans hy.1.1.symm)).identity
    rw [hx.2, hy.2] at ha
    simpa using ha
  have hone : ∀ key, KnownAttempt th.history id key → key = hash := fun key hk =>
    hseen key (hk.seen hs hth)
  cases hg with
  | reserved key payer attempt read =>
      obtain rfl := hone key attempt
      obtain ⟨s₀, db', -, hrun, hgrow⟩ := db_fact hs hth read
      obtain ⟨ha, rfl⟩ := Prod.mk.inj (Except.ok.inj hrun)
      obtain ⟨r, hr, -⟩ := Option.map_eq_some_iff.mp ha
      rw [(reach_reservations hs (hgrow.internal _ r hr)).unbound] at hid
      exact absurd hid (by simp)
  | unknown key attempt holds read =>
      obtain rfl := hone key attempt
      obtain ⟨h, s₀, s₁, hm, hsame, -⟩ := reach_kept hs hth holds read
      obtain ⟨db', hrun, hw⟩ := moment_db hm
      obtain ⟨ha, rfl⟩ := Prod.mk.inj (Except.ok.inj hrun)
      rw [(hsame key).1, hw] at hid
      have hthere := ((reach_payments hm.reach key).bound id hid).1
      rw [Option.map_eq_none_iff.mp ha] at hthere
      exact absurd hthere (by simp)
  | rejected p r hpid attempt holds read mark rejects =>
      obtain rfl := hone _ attempt
      have hr := (kept_bound hs hth holds read).symm.trans hid
      have hc := kept_cautious hs hth holds mark
      have hst : r.status = .htlcFailed := by
        by_contra hne
        simp [Ldk.rejectsAttempt, hr, hne] at rejects
      simp [Mark.cautious, hreq, hpid, hr, hst] at hc
  | wrongAmount p r hpid attempt holds mark accepts hopen differs =>
      obtain rfl := hone _ attempt
      have hc := kept_cautious hs hth holds mark
      obtain ⟨s₀, th₀, ch, hs₀, hth₀, -, -, ⟨hholds₀, -, hfree, hread, -⟩, hsame, -⟩ :=
        kept_mark hs hth holds mark
      -- the row was bound already, or nothing could have been asked for
      have hr : r.paymentId = some id := by
        have hreq₀ : s₀.world.spark.requested p.paymentHash = true := by
          have hswaps : s.world.spark.requestedSwaps = s₀.world.spark.requestedSwaps := hsame
          rw [Operators.requested, ← hswaps]
          exact hreq
        rcases requested_taken hs₀ hreq₀ with ht | ht
        · rw [kept_bound hs₀ hth₀ hholds₀ hread] at ht
          obtain ⟨x, hx⟩ := Option.isSome_iff_exists.mp ht
          simp only [Ldk.rejectsAttempt, hx, Option.any_some, Bool.or_eq_false_iff] at accepts
          rw [hx, (bne_eq_false_iff_eq.mp accepts.1.1)]
        · rw [kept_internal hs₀ hth₀ hholds₀ hfree] at ht
          exact absurd ht (by simp)
      simp [Mark.cautious, hreq, hpid, hr, hopen, differs] at hc
  | swapFailed key e attempt holds mark definitive =>
      obtain rfl := hone key attempt
      have hc := kept_cautious hs hth holds mark
      simp [Mark.cautious, hreq, definitive] at hc
  | expired key r holds mark hrid =>
      have hc := kept_cautious hs hth holds mark
      obtain ⟨s₀, th₀, ch, hs₀, hth₀, -, -, ⟨hholds₀, -, hread, -⟩, -, hgrow⟩ :=
        kept_mark hs hth holds mark
      -- the attempt was bound to the receive of the sweep
      have hkey : (s₀.world.db.receivePayment key).paymentId = some id :=
        (kept_bound hs₀ hth₀ hholds₀ hread).trans hrid
      obtain rfl := hseen key ((reach_payments hs key).bound id (hgrow.db.bound key id hkey)).2.2
      simp [Mark.cautious, hreq, hrid] at hc

end cautious

/-- **A receive that was paid out is not failed.**  In runs of cautious moves, once the
operators have executed the payout of a receive, the attempt bound to it is never failed. -/
theorem committed_receive_kept {s : Config (machine D)} (hs : Reach cautious s) {t : Nat}
    {hash id : String} {r : ReceiveSwapRequest}
    (hid : (s.world.db.receivePayment hash).paymentId = some id)
    (hr : r ∈ s.world.spark.committedSwaps) (hhash : r.paymentHash.text = hash) :
    s.next t ≠ some (.ldk (.failForId id)) := by
  intro hnext
  obtain ⟨⟨prog, hist⟩, hth, hc⟩ := Option.bind_eq_some_iff.mp hnext
  rcases prog with u | ⟨c, k⟩
  · simp [Prog.next] at hc
  obtain rfl := Option.some.inj hc
  have hg : FailGround hist id := reach_justified hs hth
  have hreq : s.world.spark.requested hash = true :=
    List.any_eq_true.mpr ⟨r, s.world.spark.committed_requested r hr, by simp [hhash]⟩
  rw [hg.unrequested hs hth hid] at hreq
  exact absurd hreq (by simp)

/-- Is program `t` about to fail the attempt `id`? -/
def Sample.fails (t : Nat) (id : String) (s : Config (machine .sample)) : Bool :=
  match s.next t with
  | some (.ldk (.failForId x)) => x == id
  | _ => false

theorem Sample.next_of_fails {t : Nat} {id : String} {s : Config (machine .sample)}
    (h : Sample.fails t id s = true) : s.next t = some (.ldk (.failForId id)) := by
  unfold Sample.fails at h
  split at h
  · next x hx => rw [hx, beq_iff_eq.mp h]
  · simp at h

/-- Have the operators executed a payout of the sample receive? -/
def Sample.committed (s : Config (machine .sample)) : Bool :=
  s.world.spark.committedSwaps.any fun r => r.paymentHash.text == Sample.hash

/-- Has the first attempt been paid out, and does program 2 fail the attempt with this id? -/
def Sample.failsAfterPayout (id : String) (s : Config (machine .sample)) : Bool :=
  Sample.committed s && (s.world.db.receivePayment Sample.hash).paymentId ==
    some (Sample.attemptId 'a') && Sample.fails 2 id s

theorem Sample.of_failsAfterPayout {id : String} {s : Config (machine .sample)}
    (h : Sample.failsAfterPayout id s = true) :
    (∃ r ∈ s.world.spark.committedSwaps, r.paymentHash.text = Sample.hash) ∧
    (s.world.db.receivePayment Sample.hash).paymentId = some (Sample.attemptId 'a') ∧
    s.next 2 = some (.ldk (.failForId id)) := by
  obtain ⟨h, hf⟩ := Bool.and_eq_true_iff.mp h
  obtain ⟨hc, hid⟩ := Bool.and_eq_true_iff.mp h
  obtain ⟨r, hr, hhash⟩ := List.any_eq_true.mp hc
  exact ⟨⟨r, hr, beq_iff_eq.mp hhash⟩, beq_iff_eq.mp hid, Sample.next_of_fails hf⟩

/-- The process stops after the payout, and the node reports another attempt. -/
def Sample.rivalFailed : Reach.Run (M := machine .sample) cautious
    (Sample.failsAfterPayout (Sample.attemptId 'b')) :=
  .of cautiousMove (fun _ _ h => h)
    (Sample.payFirst ++ .crash :: Sample.notify 2 'b' 1000) (by decide +kernel)

/-- The process stops before it hears of the payout, and looks at the invoice after its expiry. -/
def Sample.boundSwept : Reach.Run (M := machine .sample) anyMove
    (Sample.failsAfterPayout (Sample.attemptId 'a')) :=
  .ofMoves (Sample.bindFirst ++ Sample.calls 1 [.done, .done, .done, .done, .htlcs [], .done, .done,
      .swap (Bytes32.parse Sample.preimage) Sample.payout] ++
      [.crash, .outside (.tick 86400), .spawn .reconcile] ++
      Sample.calls 2 [.done, .page [] none, .done, .done, .done, .done, .done, .done, .done])
    (by decide +kernel)

/-- After the payout a rival attempt is failed, and the bound one is not. -/
theorem committed_receive_kept_rival : ∃ s : Config (machine .sample), Reach cautious s ∧
    (s.world.db.receivePayment Sample.hash).paymentId = some (Sample.attemptId 'a') ∧
    s.next 2 = some (.ldk (.failForId (Sample.attemptId 'b'))) ∧
    s.next 2 ≠ some (.ldk (.failForId (Sample.attemptId 'a'))) := by
  obtain ⟨s, hs, hp⟩ := Sample.rivalFailed
  obtain ⟨⟨r, hr, hhash⟩, hid, hf⟩ := Sample.of_failsAfterPayout hp
  exact ⟨s, hs, hid, hf, committed_receive_kept hs hid hr hhash⟩

/-- The sweep fails the bound attempt after the process has lost the operators' reply. -/
theorem committed_receive_swept : ∃ s : Config (machine .sample), Reach anyMove s ∧
    (s.world.db.receivePayment Sample.hash).paymentId = some (Sample.attemptId 'a') ∧
    (∃ r ∈ s.world.spark.committedSwaps, r.paymentHash.text = Sample.hash) ∧
    s.next 2 = some (.ldk (.failForId (Sample.attemptId 'a'))) := by
  obtain ⟨s, hs, hp⟩ := Sample.boundSwept
  obtain ⟨hpaid, hid, hf⟩ := Sample.of_failsAfterPayout hp
  exact ⟨s, hs, hid, hpaid, hf⟩

/-! ### Marking receives failed -/

/-- Does `fail_external_receive` find the row of the receive? -/
def Db.failsExternal (db : Db) (hash id : String) : Bool :=
  (db.receivePayments.get hash).any fun r =>
    (r.paymentId == none || r.paymentId == some id) && r.status != .transferCompleted &&
      (db.internalPayments.get hash).isNone

/-- A failed attempt is applied to an unpaid row, and a notification for a paid one that is
still open reports the amount of the receive. -/
def respectfulMove (s : Config (machine D)) : Move (machine D) → Bool
  | .run t _ => match s.next t with
      | some (.db (.failExternalReceive hash id)) =>
          !s.world.db.failsExternal hash id || (s.world.db.receivePayment hash).transferId == none
      | some (.mark (.claimable p r)) => r.transferId == none ||
          Ldk.rejectsAttempt r p.paymentId || r.status == .transferCompleted ||
          (!wrongAmount p r && r.preimage.isSome)
      | _ => true
  | _ => true

def respectful (s : Config (machine D)) (m : Move (machine D)) : Prop := respectfulMove s m = true

theorem Db.failExternalReceive_row (db : Db) (hash id : String) :
    (db.failExternalReceive hash id).2.receivePayment hash =
      if db.failsExternal hash id then { db.receivePayment hash with status := .htlcFailed }
      else db.receivePayment hash := by
  rw [Db.receivePayment, Db.failExternalReceive, Table.get_update, Db.failsExternal,
    Db.receivePayment]
  rcases hg : db.receivePayments.get hash with - | r
  · rfl
  · have hkey := Table.key_of_get hg
    simp only [Option.map_some, Option.getD_some, hkey, beq_self_eq_true, Bool.true_and,
      Option.any_some]

section respectful

variable {s : Config (machine D)} {t : Nat} {th : Thread Api} {hash : String}

/-- Only the row of an unpaid receive is marked failed. -/
theorem FailedWrite.unpaid (hs : Reach respectful s) (hth : s.thread t = some th)
    (hf : FailedWrite th.history hash) : (s.world.db.receivePayment hash).transferId = none := by
  cases hf with
  | expired r holds mark =>
      obtain ⟨s₀, th₀, ch, hs₀, hth₀, -, -, ⟨hholds₀, hnone, -, hread⟩, hsame, -⟩ :=
        kept_mark hs hth holds mark
      rw [(hsame hash).2, (kept_payout hs₀ hth₀ hholds₀ hread).2, hnone]
  | attempt p r hhash holds mark accepts hopen why =>
      subst hhash
      obtain ⟨s₀, th₀, ch, hs₀, hth₀, hnext, hok, ⟨hholds₀, -, -, -, hread⟩, hsame, -⟩ :=
        kept_mark hs hth holds mark
      rw [(hsame p.paymentHash).2, (kept_payout hs₀ hth₀ hholds₀ hread).2]
      have hc : r.transferId = none ∨ wrongAmount p r = false ∧ r.preimage.isSome := by
        simpa [respectful, respectfulMove, Config.next, hth₀, hnext, accepts, hopen] using hok
      rcases hc with hc | ⟨hamount, hpre⟩
      · exact hc
      · rcases why with hw | hw | hw
        · exact absurd (hamount.symm.trans hw) (by simp)
        · exact hw
        · rw [hw] at hpre
          exact absurd hpre (by simp)

end respectful

/-- **A paid receive is not marked failed.**  In runs of respectful moves no row has both a
transfer and the status `HTLC_FAILED`. -/
theorem paid_receive_not_failed {s : Config (machine D)} (hs : Reach respectful s) (k : String)
    (ht : (s.world.db.receivePayment k).transferId.isSome) :
    (s.world.db.receivePayment k).status ≠ .htlcFailed := by
  refine reach_tables_allowed (J := fun w => ∀ k, (w.db.receivePayment k).transferId.isSome →
    (w.db.receivePayment k).status ≠ .htlcFailed) ?_ ?_ ?_ hs k ht
  · intro k h
    simp [World.init, Db.empty, Db.receivePayment, Db.freshReceivePayment] at h
  · intro w w' hdb _ ih k h
    rw [hdb] at h ⊢
    exact ih k h
  · intro s t ch q cont hist a db' hr hth hok hrun _ ih k h
    have hj := reach_justified hr hth
    -- induction over the run; the steps that pay a receive set another status
    cases Db.receive_step hrun k with
    | paid transferId preimage requestId owner hq hid hamount ht hp hst => simp [hst]
    | completed paymentHash transferId requestId owner hq hid hamount ht hp hst => simp [hst]
    | bound id amount hq free hid hamount ht hp =>
        subst hq
        -- the step has bound a payment, so the payout was there before it
        have hold : (s.world.db.receivePayment k).transferId.isSome := ht ▸ h
        cases Db.status_step hrun k with
        | none hs => rw [hs]; exact ih k hold
        | claimable id amount hq hs => simp [hs]
        | set _ hq => simp at hq
        | paid _ _ _ _ hq => simp at hq
        | submitted hq => simp at hq
        | failed _ hq => simp at hq
        | completed _ _ _ _ hq => simp at hq
        | finished _ hq => simp at hq
    | none same =>
        have hold : (s.world.db.receivePayment k).transferId.isSome := same.transferId ▸ h
        cases Db.status_step hrun k with
        | none hs => rw [hs]; exact ih k hold
        | claimable id amount hq hs => simp [hs]
        | paid transferId preimage requestId owner hq hs => simp [hs]
        | submitted hq hs => simp [hs]
        | completed paymentHash transferId requestId owner hq hs => simp [hs]
        | finished send hq hh hs => simp [hs]
        | set status hq hs =>
            subst hq
            rw [hs]
            rintro rfl
            -- who writes the failure has just seen that there is no payout
            have hnone := FailedWrite.unpaid hr hth hj.2
            rw [hnone] at hold
            exact absurd hold (by simp)
        | failed id hq hs =>
            subst hq
            obtain ⟨-, rfl⟩ := Prod.mk.inj (Except.ok.inj hrun)
            -- the one write without that look; here the condition on the run is used
            have hc : s.world.db.failsExternal k id = false ∨
                (s.world.db.receivePayment k).transferId = none := by
              simpa [respectful, respectfulMove, Config.next, hth, Prog.next] using hok
            rcases hc with hc | hc
            · have hrow := Db.failExternalReceive_row s.world.db k id
              rw [hc, if_neg (by simp)] at hrow
              exact fun hf => ih k hold (hrow ▸ hf)
            · rw [hc] at hold
              exact absurd hold (by simp)

/-- A reconciliation pass of program `t` that applies the failure of an attempt. -/
def Sample.applyFailure (t : Nat) (c : Char) : List (Move (machine .sample)) :=
  .outside (.payment (Sample.attempt c 1000 .failed)) :: .spawn .reconcile ::
  Sample.calls t [.done, .page [Sample.attempt c 1000 .failed] none, .done, .done, .done, .done]

/-- After the payout the node reports that a rival attempt has failed. -/
def Sample.rivalReported : Reach.Run respectful fun s : Config (machine .sample) =>
    (s.world.db.receivePayment Sample.hash).transferId.isSome :=
  .of respectfulMove (fun _ _ h => h)
    (Sample.payFirst ++ .crash :: Sample.applyFailure 2 'b') (by decide +kernel)

/-- It reports that the bound attempt has. -/
def Sample.boundReported : Reach.Run anyMove fun s : Config (machine .sample) =>
    (s.world.db.receivePayment Sample.hash).transferId.isSome &&
      (s.world.db.receivePayment Sample.hash).status == .htlcFailed :=
  .ofMoves (Sample.payFirst ++ .crash :: Sample.applyFailure 2 'a') (by decide +kernel)

/-- The failure of a rival attempt leaves the paid receive alone. -/
theorem paid_receive_not_failed_rival : ∃ s : Config (machine .sample), Reach respectful s ∧
    (s.world.db.receivePayment Sample.hash).transferId.isSome ∧
    (s.world.db.receivePayment Sample.hash).status ≠ .htlcFailed := by
  obtain ⟨s, hs, hp⟩ := Sample.rivalReported
  exact ⟨s, hs, hp, paid_receive_not_failed hs Sample.hash hp⟩

/-- A late failure of the bound attempt marks the paid receive failed. -/
theorem paid_receive_failed_late : ∃ s : Config (machine .sample), Reach anyMove s ∧
    (s.world.db.receivePayment Sample.hash).transferId.isSome ∧
    (s.world.db.receivePayment Sample.hash).status = .htlcFailed := by
  obtain ⟨s, hs, hp⟩ := Sample.boundReported
  simp only [Bool.and_eq_true, beq_iff_eq] at hp
  exact ⟨s, hs, hp⟩

end OpenSsp
