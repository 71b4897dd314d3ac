/-
OpenSsp/RouteCap.lean

Every BOLT11 submission carries the route cap that the funding of its send has left.

The contract of a submission (`SubmitGround`) says that the funding was verified in the same
chain of calls, whatever started it: a client's request, its retry, or a recovery pass after a
restart.  What the cap is worth then follows from the arithmetic of `SendFunding.lean`.

An expiry of `2 ^ 63` seconds or more is no time a clock can show, and the program treats it
as no expiry at all.  The cap is then the full one, which is within such an expiry unless the
clock itself is about to run out.

Main results: `submissions_capped`, and `submission_outlives_expiry` for what happens at the
very end of the clock.
-/
import OpenSsp.SendFunding
import OpenSsp.ReceivePayout

namespace OpenSsp

open Interleave

variable {D : Deployment}

/-! ### What the cap promises -/

/-- `c` is the largest cap that fits every expiry that `bounds` picks. -/
structure RouteBounded (bounds : Nat → Prop) (expiryTime : Option Nat) (now : SystemTime)
    (c : Nat) : Prop where
  pos : 1 ≤ c
  le : c ≤ maxRouteCltvBlocks
  fits : ∀ secs, expiryTime = some secs → bounds secs → RouteFits secs now c
  largest : ∀ secs, expiryTime = some secs → bounds secs →
    ∀ d, c < d → d ≤ maxRouteCltvBlocks → ¬ RouteFits secs now d

/-- An expiry that is set, and that either the clock can show or is further away than the
longest route. -/
def Bounds (now : SystemTime) (secs : Nat) : Prop :=
  0 < secs ∧ (secs < 2 ^ 63 ∨ RouteFits (2 ^ 63) now maxRouteCltvBlocks)

theorem RouteFits.mono {secs secs' c : Nat} {now : SystemTime} (h : RouteFits secs now c)
    (hle : secs ≤ secs') : RouteFits secs' now c :=
  Int.le_trans h (Int.ofNat_le.mpr (Nat.mul_le_mul_right _ hle))

/-- The cap of an accepted transfer is the largest that fits. -/
theorem routeBounded_of_ok {expiryTime : Option Nat} {now : SystemTime} {c : Nat}
    (h : routeCltvWithinExpiry maxRouteCltvBlocks expiryTime now = .ok c) :
    RouteBounded (Bounds now) expiryTime now c := by
  have hm : maxRouteCltvBlocks = 1008 := rfl
  obtain ⟨hpos, hle, hfits, hmax⟩ :=
    (routeCltvWithinExpiry_ok_iff (by omega) (by omega)).mp h
  have hbounding : ∀ secs, expiryTime = some secs → 0 < secs → secs < 2 ^ 63 →
      boundingExpiry expiryTime = some secs := by
    rintro secs rfl h0 hlt
    exact Option.filter_some_pos (decide_eq_true ⟨h0, hlt⟩)
  -- an expiry that no clock can show does not bound the route
  have hfree : ∀ secs, expiryTime = some secs → ¬ secs < 2 ^ 63 → c = maxRouteCltvBlocks := by
    rintro secs rfl hbig
    have hnone : boundingExpiry (some secs) = none :=
      Option.filter_some_neg (decide_eq_false fun hx => hbig hx.2)
    by_contra hne
    obtain ⟨secs', hs', -⟩ := hmax maxRouteCltvBlocks (by omega) (le_refl _)
    rw [hnone] at hs'
    cases hs'
  refine ⟨hpos, hle, fun secs hs hb => ?_, fun secs hs hb d hd hd' => ?_⟩
  · by_cases hlt : secs < 2 ^ 63
    · exact hfits secs (hbounding secs hs hb.1 hlt)
    · rw [hfree secs hs hlt]
      exact (hb.2.resolve_left hlt).mono (by omega)
  · by_cases hlt : secs < 2 ^ 63
    · obtain ⟨secs', hs', hno⟩ := hmax d hd hd'
      obtain rfl := Option.some.inj ((hbounding secs hs hb.1 hlt).symm.trans hs')
      exact hno
    · rw [hfree secs hs hlt] at hd
      omega

/-- A transfer that leaves room for no block at all is turned away. -/
theorem validateLightningSendTransfer_no_room {transfer : Transfer} {sender receiver : PublicKey}
    {amount : Nat} {hash : Bytes32} {now : SystemTime}
    (h : ¬ ∃ c, RouteBounded (Bounds now) transfer.expiryTime now c) :
    ∃ e, validateLightningSendTransfer D transfer sender receiver amount hash now = .error e := by
  rcases hv : validateLightningSendTransfer D transfer sender receiver amount hash now with e | c
  · exact ⟨e, rfl⟩
  · exact absurd ⟨c, routeBounded_of_ok (validateLightningSendTransfer_cap hv)⟩ h

/-- The time between two clock readings fits the type of durations. -/
theorem durationSince_lt {t earlier : SystemTime} {d : Nat} (h : t.durationSince earlier = some d) :
    asSecs d < 2 ^ 64 := by
  unfold SystemTime.durationSince at h
  split at h
  · obtain rfl := Option.some.inj h
    have := t.upper
    have := earlier.lower
    unfold asSecs fromSecs at *
    omega
  · cases h

/-! ### Submissions -/

/-- The funding was verified in the same chain of calls: the operators were asked for the HTLC
and then the clock was read, the check passed with the cap the intent carries, and only the
tables were touched since. -/
def CappedSubmission (D : Deployment) (bounds : SystemTime → Nat → Prop) (h : History Api)
    (send : LightningSend) : Prop :=
  ∃ i amount cap items q transfer now older, D.parseInvoice send.invoice = .ok i ∧
    fundingSats i send.amountOverride = some amount ∧
    VerifiedHtlc D send.owner send.outboundTransferId i.paymentHash.text amount items q transfer
      now cap ∧
    Extends OnTables (⟨Call.systemTime, now⟩ :: sparkEvent (.queryHtlc send.outboundTransferId
      (lowercase i.paymentHash.text) .receiver) items :: older) h ∧
    send.maxRouteCltv = some cap ∧ RouteBounded (bounds now) transfer.expiryTime now cap

theorem RouteChecked.capped {h : History Api} {send : LightningSend} (hr : RouteChecked D h send) :
    CappedSubmission D Bounds h send := by
  cases hr with
  | verified i amount cap items q transfer now older invoice sats htlc cltv chain =>
      obtain ⟨key, -, hv⟩ := htlc.key
      exact ⟨i, amount, cap, items, q, transfer, now, older, invoice, sats, htlc, chain, cltv,
        routeBounded_of_ok (validateLightningSendTransfer_cap hv)⟩

/-- The invoice of a BOLT11 send the program knows is not an offer. -/
theorem KnownSend.not_offer {ok : Config (machine D) → Move (machine D) → Prop}
    {s : Config (machine D)} (hs : Reach ok s) {t : Nat} {th : Thread Api}
    (hth : s.thread t = some th) {send : LightningSend} (hk : KnownSend th.history send)
    (h11 : send.kind = .bolt11) : isOffer send.invoice = false := by
  obtain ⟨r, hr, hc⟩ := hk.row hs hth
  obtain ⟨i, hi, -⟩ := (reach_base hs r hr).bolt11 (hc.same.kind.trans h11)
  rw [hc.same.invoice] at hi
  exact D.invoice_not_offer _ i hi

/-- **Submissions are capped.**  Every BOLT11 submission, in whatever run, follows a successful
verification of its funding in the same chain of calls and carries the largest route cap, of
at most 1008 blocks, that still resolves a day before the transfer expires.  Where there is
none the verification fails, and no duration on the way is out of range. -/
theorem submissions_capped {s : Config (machine D)} (hs : Reach anyMove s) :
    (∀ t send amountMsat k h, s.thread t = some ⟨.call (.ldk (.submit send amountMsat)) k, h⟩ →
      send.kind = .bolt11 → CappedSubmission D Bounds h send) ∧
    (∀ transfer sender receiver amount hash now,
      (¬ ∃ c, RouteBounded (Bounds now) transfer.expiryTime now c) →
      ∃ e, validateLightningSendTransfer D transfer sender receiver amount hash now = .error e) ∧
    ∀ (expiry now : SystemTime) d, expiry.durationSince now = some d → asSecs d < 2 ^ 64 := by
  refine ⟨fun t send amountMsat k h hth h11 => ?_, fun _ _ _ _ _ _ h =>
    validateLightningSendTransfer_no_room h, fun _ _ _ => durationSince_lt⟩
  have hg : SubmitGround D h send := reach_justified hs hth
  have hoffer : isOffer send.invoice = false := KnownSend.not_offer hs hth hg.known h11
  exact (hg.route hoffer).capped

/-! ### Two runs -/

namespace Sample

/-- The transfer that funds the send, in the answer of the operators. -/
def funding (expiry : Nat) : PreimageRequest where
  paymentHash := Bytes32.fill 0
  status := .waitingForPreimage
  preimage := none
  transfer := some
    { id := uuid 7, senderId := ⟨"alice"⟩, receiverId := ⟨"ssp"⟩, totalValueSat := 1,
      transferType := .preimageSwap, status := .senderKeyTweakPending, expiryTime := some expiry,
      leaves :=
        let refund : Transaction := { inputs := [{ sequence := 1000, witness := [] }],
                                      outputScripts := [[1]] }
        [{ id := "leaf-1", value := 1, refundTx := some refund, intermediateRefundTx := refund,
           intermediateDirectRefundTx := none, intermediateDirectFromCpfpRefundTx := none }] }

/-- A send of one satoshi, up to its submission. -/
def sendUpTo (expiry : Nat) (now : SystemTime) : List (Move (machine .sample)) :=
  let verify : List Choice := [.htlcs [funding expiry], .time now]
  .spawn (.lightningSend "alice" ⟨"lnssp" ++ Bytes32.text (Bytes32.fill 0), none,
    (uuid 7).print, ""⟩) ::
  calls 0 ([.done, .done, .done] ++ verify ++ [.uuid (uuid 1), .done, .done] ++ verify ++ [.done])

/-- Is the program about to submit a BOLT11 send with the cap `cap`, having read the clock as
`now` and seen only transfers that expire at `expiry`? -/
def submitsAt (expiry cap : Nat) (now : SystemTime) (s : Config (machine .sample)) : Bool :=
  match s.thread 0 with
  | some ⟨.call (.ldk (.submit send _)) _, h⟩ =>
      send.kind == .bolt11 && send.maxRouteCltv == some cap && h.all fun e =>
        match e with
        | ⟨.systemTime, t⟩ => t == now
        | ⟨.spark (.queryHtlc ..), .ok items⟩ =>
            items.all fun q => q.transfer.all fun t => t.expiryTime == some expiry
        | _ => true
  | _ => false

def twoDaysLeft : Reach.Run anyMove (submitsAt 172800 48 (SystemTime.after 0 (by decide))) :=
  .ofMoves (sendUpTo 172800 (SystemTime.after 0 (by decide))) (by decide +kernel)

/-- The last moment a clock can show. -/
def lastTime : SystemTime := SystemTime.after (fromSecs (2 ^ 63) - 1) (by decide)

def nanosecondLeft : Reach.Run anyMove (submitsAt (2 ^ 63) 1008 lastTime) :=
  .ofMoves (sendUpTo (2 ^ 63) lastTime) (by decide +kernel)

end Sample

/-- Two days before the expiry a payment may take a day. -/
theorem submissions_capped_two_days : ∃ (s : Config (machine .sample)) (send : LightningSend)
    (h : History Api), Reach anyMove s ∧ send.maxRouteCltv = some 48 ∧
      CappedSubmission .sample Bounds h send := by
  obtain ⟨s, hs, hp⟩ := Sample.twoDaysLeft
  unfold Sample.submitsAt at hp
  split at hp
  · next send amountMsat k h hth =>
      simp only [Bool.and_eq_true, beq_iff_eq] at hp
      exact ⟨s, send, h, hs, hp.1.2, (submissions_capped hs).1 0 send amountMsat k h hth hp.1.1⟩
  · simp at hp

/-- A nanosecond before `2 ^ 63` seconds the expiry is a nanosecond away, and the payment may
take three weeks. -/
theorem submission_outlives_expiry : ∃ (s : Config (machine .sample)) (send : LightningSend)
    (amountMsat : Option Nat) (k : Except String String → Prog Api Unit) (h : History Api),
      Reach anyMove s ∧ s.thread 0 = some ⟨.call (.ldk (.submit send amountMsat)) k, h⟩ ∧ send.kind = .bolt11 ∧
      ¬ CappedSubmission .sample (fun _ secs => 0 < secs) h send := by
  obtain ⟨s, hs, hp⟩ := Sample.nanosecondLeft
  unfold Sample.submitsAt at hp
  split at hp
  · next send amountMsat k h hth =>
      simp only [Bool.and_eq_true, beq_iff_eq, List.all_eq_true] at hp
      obtain ⟨⟨h11, hcap⟩, hseen⟩ := hp
      refine ⟨s, send, amountMsat, k, h, hs, hth, h11, ?_⟩
      rintro ⟨i, amount, cap, items, q, transfer, now, older, -, -, hv, hchain, hcap', hb⟩
      obtain rfl := Option.some.inj (hcap.symm.trans hcap')
      have hnow := hseen _ (hchain.mem List.mem_cons_self)
      have hitems := hseen _ (hchain.mem (List.mem_cons_of_mem _ List.mem_cons_self))
      simp only [beq_iff_eq, List.all_eq_true] at hnow hitems
      have hexpiry := hitems q hv.mem
      rw [hv.transfer, Option.all_some, beq_iff_eq] at hexpiry
      have hfits := hb.fits (2 ^ 63) hexpiry (Nat.pow_pos (by decide))
      rw [hnow] at hfits
      exact absurd hfits (by decide)
  · simp at hp

end OpenSsp
