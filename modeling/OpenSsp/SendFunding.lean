/-
OpenSsp/SendFunding.lean

The check that stands between the funding of a BOLT11 send and the payment the SSP
fronts for it (`validate_lightning_send_transfer`), said as a condition on its inputs.

The check compares the transfer's own total with the amount.  It never looks at the
values of the leaves, nor whether a leaf is listed twice, although it is the leaves that
the SSP claims; the check on a withdrawal's transfer does both.

Main results: `routeCltvWithinExpiry_ok_iff` (the route cap is the largest that fits),
`validateLightningSendTransfer_ok_iff` (what an accepted transfer looks like), and
`lightning_send_transfer_pays`, exactly which transfers the check is right about.
-/
import OpenSsp.Transfer

namespace OpenSsp

/-! ### The route cap -/

/-- A payment that is out for `c` slow blocks from `now` on leaves the margin to reveal its
preimage before the transfer expires. -/
def RouteFits (expiry : Nat) (now : SystemTime) (c : Nat) : Prop :=
  now.nanos + c * slowBlockInterval + preimageRevealMargin ≤ fromSecs expiry

instance (expiry : Nat) (now : SystemTime) (c : Nat) : Decidable (RouteFits expiry now c) :=
  inferInstanceAs (Decidable (_ ≤ _))

/-- The expiry that bounds the route: one that is set and that a clock can show. -/
def boundingExpiry (expiryTime : Option Nat) : Option Nat :=
  expiryTime.filter fun secs => 0 < secs ∧ secs < 2 ^ 63

/-- The blocks the clock arithmetic arrives at. -/
def routeBlocks (expiry now : SystemTime) : Nat :=
  (((expiry.durationSince now).bind fun lifetime =>
    checkedSub lifetime preimageRevealMargin).map fun time =>
      asSecs time / asSecs slowBlockInterval).getD 0

theorem fromSecs_lt {a b : Nat} : fromSecs a < fromSecs b ↔ a < b := by
  unfold fromSecs
  omega

@[simp] theorem asSecs_fromSecs (secs : Nat) : asSecs (fromSecs secs) = secs :=
  Nat.mul_div_cancel secs (Nat.pow_pos (by decide))

/-- No step of the arithmetic overflows or underflows, so it counts the blocks that fit. -/
theorem le_routeBlocks_iff {expiry now : SystemTime} {secs c : Nat}
    (he : expiry.nanos = fromSecs secs) (hc : 1 ≤ c) :
    c ≤ routeBlocks expiry now ↔ RouteFits secs now c := by
  unfold routeBlocks RouteFits SystemTime.durationSince checkedSub
  by_cases hn : now.nanos ≤ expiry.nanos
  · rw [if_pos hn]
    by_cases hl : preimageRevealMargin ≤ (expiry.nanos - now.nanos).toNat
    · rw [Option.bind_some, if_pos hl, Option.map_some, Option.getD_some]
      simp only [slowBlockInterval, preimageRevealMargin, asSecs_fromSecs] at *
      unfold asSecs fromSecs at *
      omega
    · rw [Option.bind_some, if_neg hl, Option.map_none, Option.getD_none]
      simp only [slowBlockInterval, preimageRevealMargin] at *
      unfold fromSecs at *
      omega
  · rw [if_neg hn, Option.bind_none, Option.map_none, Option.getD_none]
    have hout : (0 : Int) ≤ c * slowBlockInterval := Int.mul_nonneg (by omega) (by omega)
    omega

theorem routeCltvWithinExpiry_unbounded {cap : Nat} {expiryTime : Option Nat} {now : SystemTime}
    (h : boundingExpiry expiryTime = none) :
    routeCltvWithinExpiry cap expiryTime now = .ok cap := by
  unfold routeCltvWithinExpiry
  suffices hnone : ((expiryTime.filter fun secs => 0 < secs).bind fun secs =>
      SystemTime.epochCheckedAdd (fromSecs secs)) = none by
    rw [hnone]
  rcases expiryTime with - | secs
  · rfl
  · by_cases h0 : 0 < secs
    · have hbig : ¬ secs < 2 ^ 63 := fun hlt => by
        simp [boundingExpiry, h0] at h
        omega
      rw [Option.filter_some_pos (by simpa using h0), Option.bind_some,
        SystemTime.epochCheckedAdd, dif_neg (fromSecs_lt.not.mpr hbig)]
    · rw [Option.filter_some_neg (by simpa using h0), Option.bind_none]

theorem routeCltvWithinExpiry_bounded (cap : Nat) (now : SystemTime) {secs : Nat}
    {expiryTime : Option Nat} (h : boundingExpiry expiryTime = some secs) :
    ∃ expiry : SystemTime, expiry.nanos = fromSecs secs ∧
      routeCltvWithinExpiry cap expiryTime now =
        match min cap (min (routeBlocks expiry now) (2 ^ 32 - 1)) with
        | 0 => .error "preimage swap transfer expires before a Lightning payment could resolve"
        | cap => .ok cap := by
  obtain ⟨rfl, hpred⟩ := Option.filter_eq_some_iff.mp h
  obtain ⟨h0, hlt⟩ := of_decide_eq_true hpred
  refine ⟨SystemTime.after (fromSecs secs) (fromSecs_lt.mpr hlt), rfl, ?_⟩
  unfold routeCltvWithinExpiry
  rw [Option.filter_some_pos (by simpa using h0), Option.bind_some, SystemTime.epochCheckedAdd,
    dif_pos (fromSecs_lt.mpr hlt)]
  rfl

/-- The cap that is returned is the largest that fits, and it fails when none does. -/
theorem routeCltvWithinExpiry_ok_iff {cap c : Nat} {expiryTime : Option Nat} {now : SystemTime}
    (hcap : 1 ≤ cap) (hcap' : cap < 2 ^ 32) :
    routeCltvWithinExpiry cap expiryTime now = .ok c ↔
      1 ≤ c ∧ c ≤ cap ∧ (∀ secs ∈ boundingExpiry expiryTime, RouteFits secs now c) ∧
        ∀ d, c < d → d ≤ cap → ∃ secs ∈ boundingExpiry expiryTime, ¬ RouteFits secs now d := by
  rcases hb : boundingExpiry expiryTime with - | secs
  · rw [routeCltvWithinExpiry_unbounded hb]
    constructor
    · rintro ⟨⟩
      exact ⟨hcap, le_refl _, fun _ hs => by simp at hs, fun d hd hd' => by omega⟩
    · rintro ⟨-, hle, -, hmax⟩
      rcases Nat.lt_or_ge c cap with hlt | hge
      · obtain ⟨secs, hs, -⟩ := hmax cap hlt (le_refl _)
        simp at hs
      · rw [Nat.le_antisymm hle hge]
  · obtain ⟨expiry, he, heq⟩ := routeCltvWithinExpiry_bounded cap now hb
    rw [heq]
    have hfits : ∀ d, 1 ≤ d → (d ≤ routeBlocks expiry now ↔ RouteFits secs now d) :=
      fun d hd => le_routeBlocks_iff he hd
    simp only [Option.mem_some_iff, forall_eq', exists_eq_left']
    split
    · next h0 =>
        -- no block fits
        refine ⟨(nomatch ·), fun ⟨h1, hle, hfit, _⟩ => ?_⟩
        have := (hfits c h1).mpr hfit
        omega
    · next cap' h0 =>
        rw [Except.ok.injEq]
        constructor
        · intro hc
          subst hc
          have hpos : 1 ≤ min cap (min (routeBlocks expiry now) (2 ^ 32 - 1)) :=
            Nat.one_le_iff_ne_zero.mpr fun h => h0 h
          refine ⟨hpos, by omega, (hfits _ hpos).mp (by omega), fun d hd hd' hfit => ?_⟩
          have := (hfits d (by omega)).mpr hfit
          omega
        · rintro ⟨h1, hle, hfit, hmax⟩
          have hc := (hfits c h1).mpr hfit
          by_contra hne
          have hlt : c + 1 ≤ cap ∧ c + 1 ≤ routeBlocks expiry now := by omega
          exact hmax (c + 1) (Nat.lt_succ_self c) hlt.1 ((hfits (c + 1) (by omega)).mp hlt.2)

/-! ### An accepted transfer -/

theorem validateRefund_ok_iff {leaf : TransferLeaf} {expected : Script} {refund : Transaction} :
    validateRefund leaf expected refund = .ok () ↔
      refund.outputScripts.head? = some expected := by
  unfold validateRefund
  rw [bind_eq_ok]
  constructor
  · rintro ⟨output, ho, hc⟩
    rw [okOr_eq_ok] at ho
    rw [ho, not_not.mp (check_eq_ok.mp hc)]
  · intro h
    exact ⟨expected, okOr_eq_ok.mpr h, check_eq_ok.mpr (not_not.mpr rfl)⟩

theorem validateLeaf_ok_iff {expected : Script} {leaf : TransferLeaf} :
    validateLeaf expected leaf = .ok () ↔ refundTimelockSurvivesClaim leaf.refundTx = true ∧
      ∀ refund ∈ leaf.refunds, refund.outputScripts.head? = some expected := by
  unfold validateLeaf
  rw [guard_eq_ok, not_not, forM_eq_ok]
  simp only [validateRefund_ok_iff]

/-- What the check reads off a transfer before it lets it fund a send. -/
structure SendFunding (D : Deployment) (transfer : Transfer) (sender receiver : PublicKey)
    (amountSats : Nat) (paymentHash : Bytes32) (now : SystemTime) : Prop where
  swap : transfer.transferType = .preimageSwap
  paidBy : transfer.senderId = sender
  paidTo : transfer.receiverId = receiver
  total : transfer.totalValueSat = amountSats
  waiting : transfer.status = .senderKeyTweakPending ∨
    transfer.status = .senderInitiatedCoordinator
  leaves : transfer.leaves ≠ []
  claimable : ∀ leaf ∈ transfer.leaves, refundTimelockSurvivesClaim leaf.refundTx = true
  refunds : ∃ script, D.htlcScript paymentHash receiver sender = .ok script ∧
    ∀ leaf ∈ transfer.leaves, ∀ refund ∈ leaf.refunds,
      refund.outputScripts.head? = some script
  time : ∀ secs ∈ boundingExpiry transfer.expiryTime, RouteFits secs now 1

variable {D : Deployment} {transfer : Transfer} {sender receiver : PublicKey} {amount : Nat}
  {hash : Bytes32} {now : SystemTime}

/-- There is a route cap exactly if one block fits. -/
theorem exists_routeCltv_iff {expiryTime : Option Nat} :
    (∃ cap, routeCltvWithinExpiry maxRouteCltvBlocks expiryTime now = .ok cap) ↔
      ∀ secs ∈ boundingExpiry expiryTime, RouteFits secs now 1 := by
  rcases hb : boundingExpiry expiryTime with - | secs
  · simp [routeCltvWithinExpiry_unbounded hb]
  · obtain ⟨expiry, he, heq⟩ :=
      routeCltvWithinExpiry_bounded maxRouteCltvBlocks now hb
    simp only [Option.mem_some_iff, forall_eq']
    rw [heq, ← le_routeBlocks_iff he (le_refl 1)]
    have hm : maxRouteCltvBlocks = 1008 := rfl
    split
    · next h0 =>
        refine ⟨fun ⟨_, h⟩ => (nomatch h), fun h => ?_⟩
        omega
    · next cap h0 =>
        refine ⟨fun _ => ?_, fun _ => ⟨_, rfl⟩⟩
        by_contra hlt
        exact h0 (by omega)

theorem validateLightningSendTransfer_ok_iff :
    (∃ cap, validateLightningSendTransfer D transfer sender receiver amount hash now = .ok cap) ↔
      SendFunding D transfer sender receiver amount hash now := by
  unfold validateLightningSendTransfer
  simp only [guard_eq_ok, bind_eq_ok, forM_eq_ok, validateLeaf_ok_iff, not_not]
  constructor
  · rintro ⟨cap, hswap, hsender, hreceiver, htotal, hstatus, hleaves, script, hscript, _, hpay,
      hcap⟩
    refine ⟨hswap, hsender, hreceiver, htotal, ?_, hleaves, fun leaf hl => (hpay leaf hl).1,
      ⟨script, hscript, fun leaf hl => (hpay leaf hl).2⟩, exists_routeCltv_iff.mp ⟨cap, hcap⟩⟩
    by_contra hne
    exact hstatus ⟨fun h => hne (.inl h), fun h => hne (.inr h)⟩
  · intro h
    obtain ⟨script, hscript, hpay⟩ := h.refunds
    obtain ⟨cap, hcap⟩ := exists_routeCltv_iff.mpr h.time
    refine ⟨cap, h.swap, h.paidBy, h.paidTo, h.total, fun ⟨h1, h2⟩ => ?_, h.leaves, script,
      hscript, (), fun leaf hl => ⟨h.claimable leaf hl, hpay leaf hl⟩, hcap⟩
    rcases h.waiting with hw | hw
    · exact h1 hw
    · exact h2 hw

/-- The cap that an accepted transfer comes with. -/
theorem validateLightningSendTransfer_cap {cap : Nat}
    (h : validateLightningSendTransfer D transfer sender receiver amount hash now = .ok cap) :
    routeCltvWithinExpiry maxRouteCltvBlocks transfer.expiryTime now = .ok cap := by
  unfold validateLightningSendTransfer at h
  simp only [guard_eq_ok, bind_eq_ok] at h
  obtain ⟨-, -, -, -, -, -, script, -, _, -, hcap⟩ := h
  exact hcap

/-! ### What the SSP can claim -/

/-- Leaves listed once, worth `amountSats` together, and every refund of theirs pays the HTLC:
the SSP can claim what it is asked to pay out. -/
structure LeavesPay (D : Deployment) (transfer : Transfer) (sender receiver : PublicKey)
    (amountSats : Nat) (paymentHash : Bytes32) : Prop where
  distinct : (transfer.leaves.map (·.id)).Nodup
  value : (transfer.leaves.map (·.value)).sum = amountSats
  refunds : ∃ script, D.htlcScript paymentHash receiver sender = .ok script ∧
    ∀ leaf ∈ transfer.leaves, ∀ refund ∈ leaf.refunds,
      refund.outputScripts.head? = some script

/-- The check is right about a transfer exactly if one of the things it does look at turns the
transfer away, or the leaves are distinct and make up the total it trusts. -/
theorem lightning_send_transfer_pays :
    (∀ cap, validateLightningSendTransfer D transfer sender receiver amount hash now = .ok cap →
      LeavesPay D transfer sender receiver amount hash) ↔
      ¬ SendFunding D transfer sender receiver amount hash now ∨
        (transfer.leaves.map (·.id)).Nodup ∧
          (transfer.leaves.map (·.value)).sum = transfer.totalValueSat := by
  rw [← validateLightningSendTransfer_ok_iff]
  constructor
  · intro h
    by_cases hok : ∃ cap,
        validateLightningSendTransfer D transfer sender receiver amount hash now = .ok cap
    · right
      obtain ⟨cap, hcap⟩ := hok
      obtain ⟨-, -, -, htotal⟩ := validateLightningSendTransfer_ok hcap
      exact ⟨(h cap hcap).distinct, (h cap hcap).value.trans htotal.symm⟩
    · exact .inl hok
  · rintro (hno | ⟨hdistinct, hsum⟩) cap hcap
    · exact absurd ⟨cap, hcap⟩ hno
    · have hf := validateLightningSendTransfer_ok_iff.mp ⟨cap, hcap⟩
      exact ⟨hdistinct, hsum.trans hf.total, hf.refunds⟩

/-- One leaf of a single satoshi, in a transfer that says it is worth ten thousand. -/
def underfundedTransfer : Transfer where
  id := Interleave.Uuid.fill 0
  senderId := ⟨"alice"⟩
  receiverId := ⟨"ssp"⟩
  totalValueSat := 10000
  transferType := .preimageSwap
  status := .senderKeyTweakPending
  expiryTime := none
  leaves :=
    let refund : Transaction := { inputs := [{ sequence := 1000, witness := [] }],
                                  outputScripts := [[1]] }
    [{ id := "leaf-1", value := 1, refundTx := some refund, intermediateRefundTx := refund,
       intermediateDirectRefundTx := some refund,
       intermediateDirectFromCpfpRefundTx := some refund }]

/-- The SSP pays ten thousand satoshis for one. -/
theorem lightning_send_transfer_underfunded :
    validateLightningSendTransfer Deployment.sample underfundedTransfer ⟨"alice"⟩ ⟨"ssp"⟩ 10000
        ⟨List.replicate 32 0, rfl⟩ (SystemTime.after 0 (by decide)) = .ok 1008 ∧
      ¬ LeavesPay Deployment.sample underfundedTransfer ⟨"alice"⟩ ⟨"ssp"⟩ 10000
        ⟨List.replicate 32 0, rfl⟩ := by
  refine ⟨by rfl, fun h => ?_⟩
  have hv := h.value
  simp [underfundedTransfer] at hv

end OpenSsp
