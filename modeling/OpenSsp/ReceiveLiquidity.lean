/-
OpenSsp/ReceiveLiquidity.lean

Receives that the leaves of the wallet cannot represent.

`ensure_exact_liquidity` fails with one of two texts when the leaves do not serve the amount and no
single split makes them do so (`ensureExactLiquidity_eval`).  Neither is rewritten to
NEEDS_TOPUP, and neither is a definitive swap failure.  The swap attempt ends with that text before
any operator swap call (`swapForLightningReceive_ends`), and no pass whose swap fails with it fails
the HTLC (`processStandardReceive_holds`).

Main result: `unrepresentable_receive_held`.
-/
import OpenSsp.Lib.Calls
import OpenSsp.SwapLiquidity
import OpenSsp.Contract

namespace OpenSsp

open Interleave

/-! ### What a pass calls -/

/-- Does the call fail an HTLC, or record that it has been failed? -/
def Call.rejectsHtlc : Call → Bool
  | .ldk (.failForId _) => true
  | .db (.setReceiveStatus _ .htlcFailed) => true
  | _ => false

/-- Has the swap of the pass failed with this text? -/
def Call.swapFailed (e : String) : Call → Bool
  | .mark (.swapFailed _ e') => e' == e
  | _ => false

/-- Does the call ask for the liquidity of one amount? -/
def Call.asksLiquidity : Call → Bool
  | .spark (.ensureExactLiquidity _) => true
  | _ => false

/-- Is it the operator call that commits a receive swap? -/
def Call.commitsSwap : Call → Bool
  | .spark (.initiatePreimageSwapV3 _) => true
  | _ => false

/-- Is it a call of the functions that deal with the operators? -/
def Call.ofSpark : Call → Bool
  | .spark _ => true
  | .systemTime => true
  | .acquire .liquidity _ => true
  | .release .liquidity => true
  | .mark (.swapReceive ..) => true
  | .db (.quoteForHash _) => true
  | _ => false

/-- Not such a call. -/
def without (p : Call → Bool) (c : Call) : Prop := ¬ p c = true

/-- A call that is not of a kind is one without it. -/
theorem without_of {p : Call → Bool} {c : Call} (h : p c = false) : without p c := by
  rw [without, h]
  exact Bool.false_ne_true

variable {C : Call → Prop} {α : Type} {x : Ssp α}

namespace Ssp

/-- A time limit only adds the call that ends it. -/
theorem timeout_calls (hx : Act.Calls C x) (hC : C .timedOut) :
    Act.Calls C (Ssp.timeout x) := by
  apply hx.attempt.bind
  intro r
  apply Act.Calls.bind (Act.Calls.tell hC)
  intro out
  cases out
  · exact Act.Calls.ofExcept
  · exact Act.Calls.throw.bind fun _ => Act.Calls.ofExcept

/-- A retried action makes the calls of its tries. -/
theorem retryBounded_calls (hx : Act.Calls C x) (hC : C .timedOut) (delays : List Nat) :
    Act.Calls C (Ssp.retryBounded x delays) := by
  induction delays with
  | nil => exact timeout_calls hx hC
  | cons delay delays ih =>
      apply (timeout_calls hx hC).attempt.bind
      intro r
      rcases r with e | a
      · exact ih
      · exact Act.Calls.pure

end Ssp

/-! ### The swap of a receive -/

namespace Spark

variable (D : Deployment)

/-- Neither fails an HTLC nor marks a failed swap. -/
def neutral (e : String) (c : Call) : Prop := ¬ c.swapFailed e = true ∧ ¬ c.rejectsHtlc = true

variable {D} {e : String}

/-- A call that neither fails a swap nor rejects an HTLC is neutral. -/
theorem neutral_of {c : Call} (hswap : c.swapFailed e = false) (hhtlc : c.rejectsHtlc = false) :
    neutral e c :=
  ⟨hswap ▸ Bool.false_ne_true, hhtlc ▸ Bool.false_ne_true⟩

/-- No call of the operators rejects an HTLC. -/
theorem neutral_of_ofSpark (c : Call) (h : c.ofSpark = true) : neutral e c := by
  cases c with
  | db q =>
      cases q with
      | quoteForHash => exact neutral_of rfl rfl
      | _ => cases h
  | mark m =>
      cases m with
      | swapReceive => exact neutral_of rfl rfl
      | _ => cases h
  | spark => exact neutral_of rfl rfl
  | systemTime => exact neutral_of rfl rfl
  | acquire => exact neutral_of rfl rfl
  | release => exact neutral_of rfl rfl
  | _ => cases h

/-- The recovery of a swap asks for HTLCs only. -/
theorem recoverLightningReceiveSwap_calls (hC : ∀ id hash, C (.spark (.queryHtlc id hash .sender)))
    (transferId : Uuid) (hash : Bytes32) (receiver : PublicKey) (amountSats : Nat) :
    Act.Calls C (recoverLightningReceiveSwap D transferId hash receiver amountSats) := by
  apply (Act.Calls.ask (hC _ _)).mapErr.bind
  intro items
  split
  · exact Act.Calls.pure
  · split
    · exact Act.Calls.pure
    · exact Act.Calls.ofExcept.bind fun _ => Act.Calls.ofExcept.bind fun _ => Act.Calls.pure

/-- The transfer's id is read from the table. -/
theorem receiveTransferId_calls (hC : ∀ hash, C (.db (.quoteForHash hash))) (hash : String) :
    Act.Calls C (receiveTransferId hash) :=
  (Act.Calls.ask (hC hash)).bind fun _ => Act.Calls.ofExcept

/-- A swap attempt keeps to the calls of the Spark service. -/
theorem swapForLightningReceive_calls (hC : ∀ c : Call, c.ofSpark = true → C c) (bounded : Bool)
    (owner hash invoice : String) (amountSats feeSats : Nat) :
    Act.Calls C (swapForLightningReceive D bounded owner hash invoice amountSats feeSats) := by
  unfold swapForLightningReceive
  apply Act.Calls.guard
  apply Act.Calls.ofExcept.bind
  intro bytes
  apply Act.Calls.ofExcept.bind
  intro hash
  apply Act.Calls.ofExcept.bind
  intro ownerKey
  apply (receiveTransferId_calls (fun _ => hC _ rfl) _).bind
  intro transferId
  apply (Act.Calls.tell (hC _ rfl)).bind
  intro _
  apply Act.Calls.bracket (Act.Calls.ask (hC _ rfl)) (Act.Calls.tell (hC _ rfl))
  apply (Act.Calls.ask (hC _ rfl)).bind
  intro _
  apply (recoverLightningReceiveSwap_calls (fun _ _ => hC _ rfl) _ _ _ _).bind
  intro recovered
  rcases recovered with - | recovered
  · apply (Act.Calls.ask (hC _ rfl)).bind
    intro _
    apply (Act.Calls.ask (hC _ rfl)).mapErr.bind
    intro _
    apply (Act.Calls.ask (hC _ rfl)).mapErr.bind
    intro response
    apply Act.Calls.ofExcept.bind
    intro preimage
    apply Act.Calls.ofExcept.bind
    intro transfer
    apply Act.Calls.ofExcept.bind
    intro result
    exact (Act.Calls.ask (hC _ rfl)).attempt.bind fun _ => Act.Calls.pure
  · exact Act.Calls.pure

/-- Neither asks for this liquidity nor commits a swap. -/
def early (amountSats : Nat) (c : Call) : Prop :=
  c ≠ .spark (.ensureExactLiquidity amountSats) ∧ ¬ c.commitsSwap = true

/-- A call before the payout: no liquidity was asked for, no swap was sent. -/
theorem early_of {amountSats : Nat} {c : Call} (h : c.asksLiquidity = false)
    (hcommits : c.commitsSwap = false) : early amountSats c := by
  refine ⟨?_, hcommits ▸ Bool.false_ne_true⟩
  rintro rfl
  cases h

/-- The liquidity call of a swap fails with `e`. -/
@[reducible] def liquidityFailed (amountSats : Nat) (e : String) : Event Api :=
  ⟨.spark (.ensureExactLiquidity amountSats), .error e⟩

/-- The attempt ends with the error of its liquidity call, and commits nothing. -/
def EndsUnfunded (amountSats : Nat) (e : String) (x : Ssp α) : Prop :=
  Act.EndsWith (fun c : Call => c.commitsSwap = true) (liquidityFailed amountSats e) e x

/-- What comes before the failing part is early. -/
theorem EndsUnfunded.bind {β : Type} {amountSats : Nat} {f : α → Ssp β}
    (hx : Act.Calls (early amountSats) x) (hf : ∀ a, EndsUnfunded amountSats e (f a)) :
    EndsUnfunded amountSats e (x >>= f) := Act.EndsWith.bind hx hf

/-- A lock around an action changes nothing about where it ends. -/
theorem EndsUnfunded.locked {amountSats : Nat} {l : Lock} {bounded : Bool}
    (hx : EndsUnfunded amountSats e x) : EndsUnfunded amountSats e (Ssp.locked l bounded x) := by
  refine Act.EndsWith.bracket (Act.Calls.ask ?_) (Act.Calls.tell ?_) ?_ hx
  · exact ⟨nofun, Bool.false_ne_true⟩
  · exact ⟨nofun, Bool.false_ne_true⟩
  · intro h r hr
    rcases Prog.After.of_call hr with ⟨-, he⟩ | ⟨_, _, _, hrest⟩
    · cases he
    · exact Prog.ret.inj (Prog.After.of_ret hrest).2

/-- A failure for lack of liquidity comes before the swap. -/
theorem EndsUnfunded.liquidity {β : Type} {amountSats : Nat} {f : Unit → Ssp β}
    (hf : ∀ a, Act.Calls (without Call.asksLiquidity) (f a)) :
    EndsUnfunded amountSats e (Ssp.spark (.ensureExactLiquidity amountSats) >>= f) := by
  refine Act.EndsWith.ask_bind ?_ Bool.false_ne_true fun a => ?_
  · rfl
  · apply Prog.Calls.mono (hf a)
    rintro c hc rfl
    exact hc rfl

/-- An attempt whose liquidity fails ends with that error, before any operator swap call. -/
theorem swapForLightningReceive_ends (bounded : Bool) (owner hash invoice : String)
    (amountSats feeSats : Nat) :
    EndsUnfunded amountSats e
      (swapForLightningReceive D bounded owner hash invoice amountSats feeSats) := by
  unfold swapForLightningReceive
  apply Act.EndsWith.guard
  apply EndsUnfunded.bind Act.Calls.ofExcept
  intro bytes
  apply EndsUnfunded.bind Act.Calls.ofExcept
  intro hash
  apply EndsUnfunded.bind Act.Calls.ofExcept
  intro ownerKey
  apply EndsUnfunded.bind (receiveTransferId_calls (fun _ => early_of rfl rfl) _)
  intro transferId
  apply EndsUnfunded.bind (Act.Calls.tell (early_of rfl rfl))
  intro _
  -- all that came before is early: no liquidity was asked for
  apply EndsUnfunded.locked
  apply EndsUnfunded.bind (Act.Calls.ask (early_of rfl rfl))
  intro _
  apply EndsUnfunded.bind (recoverLightningReceiveSwap_calls (fun _ _ => early_of rfl rfl) _ _ _ _)
  intro recovered
  rcases recovered with - | recovered
  · -- if this fails nothing follows, and if not the failure is another one
    apply EndsUnfunded.liquidity
    intro _
    apply (Act.Calls.ask (without_of rfl)).mapErr.bind
    intro _
    apply (Act.Calls.ask (without_of rfl)).mapErr.bind
    intro response
    apply Act.Calls.ofExcept.bind
    intro preimage
    apply Act.Calls.ofExcept.bind
    intro transfer
    apply Act.Calls.ofExcept.bind
    intro result
    exact (Act.Calls.ask (without_of rfl)).attempt.bind fun _ => Act.Calls.pure
  · exact Act.EndsWith.of_calls Act.Calls.pure

end Spark

/-! ### A pass -/

namespace Ldk

open Spark (neutral neutral_of)

variable {D : Deployment} {e : String}

/-- Failing a receive is one call of the node. -/
theorem failReceive_calls (hC : ∀ id, C (.ldk (.failForId id))) (paymentId : String) :
    Act.Calls C (failReceive paymentId) := (Act.Calls.ask (hC paymentId)).mapErr

/-- Failing an unfunded receive: the node's call, the time limits and the row. -/
theorem failUnfundedReceive_calls (hfail : ∀ id, C (.ldk (.failForId id))) (hC : C .timedOut)
    (hrecord : ∀ hash, C (.db (.setReceiveStatus hash .htlcFailed))) (payment : ClaimableReceive)
    (delays : List Nat) : Act.Calls C (failUnfundedReceive payment delays) := by
  apply (Ssp.retryBounded_calls (failReceive_calls hfail _) hC _).attempt.bind
  intro r
  rcases r with e | _
  · exact Act.Calls.pure
  · exact (Act.Calls.ask (hrecord _)).attempt.bind fun _ => Act.Calls.pure

/-- When its swap fails with `e`, the action fails no HTLC. -/
def KeepsHtlc (e : String) (x : Ssp α) : Prop :=
  Act.Apart (fun c : Call => c.swapFailed e = true) (fun c : Call => c.rejectsHtlc = true) x

/-- Neutral calls before keep the HTLC. -/
theorem KeepsHtlc.bind {β : Type} {f : α → Ssp β} (hx : Act.Calls (neutral e) x)
    (hf : ∀ a, KeepsHtlc e (f a)) : KeepsHtlc e (x >>= f) := Act.Apart.bind_of_left hx hf

/-- Neutral calls after keep the HTLC. -/
theorem KeepsHtlc.then {β : Type} {f : α → Ssp β} (hx : KeepsHtlc e x)
    (hf : ∀ a, Act.Calls (neutral e) (f a)) : KeepsHtlc e (x >>= f) := Act.Apart.bind_of_right hx hf

/-- A lock around an action keeps the HTLC. -/
theorem KeepsHtlc.locked {l : Lock} {bounded : Bool} (hx : KeepsHtlc e x) :
    KeepsHtlc e (Ssp.locked l bounded x) := by
  refine Act.Apart.bracket (Act.Calls.ask ?_) (Act.Calls.tell ?_) hx
  · exact neutral_of rfl rfl
  · exact neutral_of rfl rfl

/-- Both branches keep the HTLC. -/
theorem KeepsHtlc.ite {c : Prop} [Decidable c] {y : Ssp α} (hx : KeepsHtlc e x)
    (hy : KeepsHtlc e y) : KeepsHtlc e (if c then x else y) := by
  split
  · exact hx
  · exact hy

/-- Without a failed swap. -/
theorem KeepsHtlc.of_swap (hx : Act.Calls (without (Call.swapFailed e)) x) : KeepsHtlc e x :=
  Act.Apart.of_left hx

/-- An action that rejects no HTLC keeps it. -/
theorem KeepsHtlc.of_htlc (hx : Act.Calls (without Call.rejectsHtlc) x) : KeepsHtlc e x :=
  Act.Apart.of_right hx

/-- A pass in which the swap fails with a text that is not definitive does not fail the HTLC. -/
theorem fundReceive_holds (hheld : isDefinitiveSwapFailure e = false) (payment : ClaimableReceive)
    (receive : LightningReceive) (delays : List Nat) :
    KeepsHtlc e (fundReceive D payment receive delays) := by
  apply KeepsHtlc.bind
  · exact (Ssp.retryBounded_calls (Spark.swapForLightningReceive_calls
      Spark.neutral_of_ofSpark _ _ _ _ _ _) (neutral_of rfl rfl) _).attempt
  · intro r
    rcases r with e' | swap
    · by_cases he : e' = e
      · -- this failure is not definitive
        subst he
        apply KeepsHtlc.of_htlc
        apply (Act.Calls.tell (without_of rfl)).bind
        intro _
        apply (Act.Calls.ask (without_of rfl)).bind
        intro _
        rw [if_neg (by simp [hheld])]
        exact Act.Calls.throw
      · apply KeepsHtlc.of_swap
        apply (Act.Calls.tell (without_of (by simp [Call.swapFailed, he]))).bind
        intro _
        apply (Act.Calls.ask (without_of rfl)).bind
        intro _
        split
        · exact (failUnfundedReceive_calls (fun _ => without_of rfl) (without_of rfl)
            (fun _ => without_of rfl) _ _).bind fun _ => Act.Calls.throw
        · exact Act.Calls.throw
    · apply KeepsHtlc.of_htlc
      simp only
      split
      · exact (Act.Calls.ask (without_of rfl)).bind fun _ => Act.Calls.throw
      · exact (Act.Calls.ask (without_of rfl)).bind fun _ => Act.Calls.pure

/-- Failing the HTLC before the swap is no failure of the swap. -/
theorem failReceive_holds {β : Type} {paymentId : String} {delays : List Nat} {b : β} :
    KeepsHtlc e (Ssp.retryBounded (failReceive paymentId) delays >>= fun _ => pure b) := by
  apply KeepsHtlc.of_swap
  exact (Ssp.retryBounded_calls (failReceive_calls (fun _ => without_of rfl) _) (without_of rfl)
    _).bind fun _ => Act.Calls.pure

/-- What follows the payout. -/
theorem claimStored_calls (payment : ClaimableReceive) (receive : LightningReceive)
    (actualMsat : Nat) (preimage : Option String) (delays : List Nat) :
    Act.Calls (neutral e) (do
      if receive.claimSubmitted then return true
      let preimage ← Ssp.ofExcept (okOr "committed Spark receive has no preimage" preimage)
      Ssp.ofExcept (validatePreimage payment.paymentHash preimage)
      Ssp.retryBounded (claimReceive payment.paymentId actualMsat preimage) delays
      Ssp.db (.markReceiveClaimSubmitted payment.paymentHash)
      return true : Ssp Bool) := by
  apply Act.Calls.ite Act.Calls.pure
  apply Act.Calls.ofExcept.bind
  intro preimage
  apply Act.Calls.ofExcept.bind
  intro _
  apply Act.Calls.bind
  · exact Ssp.retryBounded_calls (Act.Calls.ask (neutral_of rfl rfl)).mapErr (neutral_of rfl rfl) _
  · intro _
    exact (Act.Calls.ask (neutral_of rfl rfl)).bind fun _ => Act.Calls.pure

/-- A pass whose swap fails with a text that is not definitive does not fail the HTLC. -/
theorem processStandardReceive_holds (hheld : isDefinitiveSwapFailure e = false)
    (payment : ClaimableReceive) (delays : List Nat) :
    KeepsHtlc e (processStandardReceive D payment delays) := by
  apply KeepsHtlc.locked
  apply KeepsHtlc.bind (Act.Calls.tell (neutral_of rfl rfl))
  intro _
  apply KeepsHtlc.bind (Act.Calls.ask (neutral_of rfl rfl))
  intro payer
  apply KeepsHtlc.ite failReceive_holds
  apply KeepsHtlc.bind (Act.Calls.ask (neutral_of rfl rfl))
  intro row
  rcases row with - | receive
  · exact failReceive_holds
  · apply KeepsHtlc.bind (Act.Calls.tell (neutral_of rfl rfl))
    intro _
    apply KeepsHtlc.ite failReceive_holds
    apply KeepsHtlc.ite (.of_swap Act.Calls.pure)
    apply KeepsHtlc.bind Act.Calls.ofExcept
    intro expectedMsat
    apply KeepsHtlc.bind Act.Calls.ofExcept
    intro actualMsat
    apply KeepsHtlc.bind (Act.Calls.ask (neutral_of rfl rfl))
    intro _
    apply KeepsHtlc.ite
    · -- a wrong amount: the swap is not tried
      apply KeepsHtlc.of_swap
      apply Act.Calls.bind
      · exact failUnfundedReceive_calls (fun _ => without_of rfl) (without_of rfl)
          (fun _ => without_of rfl) _ _
      · exact fun _ => Act.Calls.throw
    · apply KeepsHtlc.ite
      · exact (fundReceive_holds hheld payment receive delays).then fun preimage =>
          claimStored_calls payment receive actualMsat preimage delays
      · exact KeepsHtlc.bind Act.Calls.pure fun preimage => .of_swap
          ((claimStored_calls payment receive actualMsat preimage delays).mono fun _ hc => hc.1)

end Ldk

/-! ### The liquidity of one amount -/

/-- The texts of `ensure_exact_liquidity` for an amount that the leaves cannot represent. -/
def unrepresentable : List String :=
  [Spark.liquidityError
      ("amount cannot be represented by available leaves without creating a child below " ++
        "the configured split floor"),
    Spark.liquidityError
      "just-in-time splitting is disabled; configure SSP_OPERATOR_HOSTS"]

/-- Neither text is a definitive swap failure. -/
theorem unrepresentable_held {e : String} (h : e ∈ unrepresentable) :
    isDefinitiveSwapFailure e = false := by
  have hall : unrepresentable.all (fun e => !isDefinitiveSwapFailure e) = true := by
    decide +kernel
  simpa using List.all_eq_true.mp hall e h

section Leaves

open LeafSplit

variable {S : Sdk} {rounds : Nat} {W : Type} {env : Environment (LeafSplit.Api S) W} {w w₁ : W}
  {leaves missing : List WalletLeaf} {available : List TreeNode} {amountSats : Nat}

/-- The leaves do not serve the amount, and no split is made that would. -/
structure Unserved (S : Sdk) (available : List TreeNode) (amountSats : Nat) : Prop where
  exact : S.selectsExactly (sortLeaves available) [amountSats] = false
  split : planJustInTimeSplit (sortLeaves available) amountSats S.minimumSplitChildSats = none ∨
    S.splitService = false

/-- For an amount that is not served the call fails with one of the texts. -/
theorem ensureExactLiquidity_eval
    (hrecover : Act.eval env (recoverIncompleteSplits S rounds) w = (.ok (), w₁))
    (hlist : (env .listLeaves w₁).1 =
      .ok { available := leaves, availableMissingFromOperators := missing })
    (havailable : leaves.mapM walletLeafToTreeNode = .ok available)
    (h : Unserved S available amountSats) :
    ∃ e ∈ unrepresentable,
      (Act.eval env (ensureExactLiquidity S rounds amountSats) w).1 = .error e := by
  have hleaves : Act.eval env (listLeaves : LeafSplit.Ssp S WalletLeaves) w₁ =
      (.ok { available := leaves, availableMissingFromOperators := missing },
        (env .listLeaves w₁).2) := by
    show ((env .listLeaves w₁).1, (env .listLeaves w₁).2) = _
    rw [hlist]
  rw [ensureExactLiquidity, Act.eval_bind_ok hrecover, splitUntil, Act.eval_bind_ok hleaves,
    havailable, Act.eval_bind_ok (Act.eval_ofExcept _)]
  simp only [h.exact, Bool.false_eq_true, if_false]
  -- no plan at all, or a plan that the service may not carry out
  rcases hplan : planJustInTimeSplit (sortLeaves available) amountSats S.minimumSplitChildSats
    with - | plan
  · refine ⟨_, List.mem_cons_self, ?_⟩
    rw [Act.eval_bind_error (Act.eval_ofExcept _)]
  · have hservice := h.split.resolve_left (by simp [hplan])
    refine ⟨_, List.mem_cons_of_mem _ List.mem_cons_self, ?_⟩
    have hthrow : ∀ w, Act.eval env (executeLeafSplit S rounds plan.parent
        [plan.neededSats, plan.changeSats]) w = (.error (Spark.liquidityError
          "just-in-time splitting is disabled; configure SSP_OPERATOR_HOSTS"), w) := by
      intro w
      rw [executeLeafSplit, if_pos (by simp [hservice])]
      rfl
    rw [Act.eval_bind_ok (Act.eval_ofExcept _), Act.eval_bind_error (hthrow _)]

end Leaves

/-! ### Passes over such a receive -/

/-- A receive whose liquidity fails with `e` is rejected in the same pass. -/
structure Rejected (D : Deployment) (e : String) : Prop where
  definitive : isDefinitiveSwapFailure e = true
  fails : ∀ payment delays h r, (Ldk.processStandardReceive D payment delays).run.After h (.ret r) →
    (∃ hash, markEvent (.swapFailed hash e) ∈ h) →
      ∃ x ∈ h, x.call = .ldk (.failForId payment.paymentId)
  records : ∀ payment delays h r,
    (Ldk.processStandardReceive D payment delays).run.After h (.ret r) →
    (∃ hash, markEvent (.swapFailed hash e) ∈ h) →
      ldkEvent (.failForId payment.paymentId) () ∈ h →
        ∃ x ∈ h, x.call = .db (.setReceiveStatus payment.paymentHash .htlcFailed)

/-- It is held for the reconciler: the attempt ends with the error before it commits anything,
and no pass, however far it has got, has failed the HTLC or recorded that. -/
structure Held (D : Deployment) (e : String) : Prop where
  attempt : ∀ bounded owner hash invoice amountSats feeSats h r,
    (Spark.swapForLightningReceive D bounded owner hash invoice amountSats feeSats).run.After h
      (.ret r) → Spark.liquidityFailed amountSats e ∈ h →
      r = .error e ∧ ∀ y ∈ h, ¬ y.call.commitsSwap = true
  pass : ∀ payment delays h rest,
    (Ldk.processStandardReceive D payment delays).run.After h rest →
    (∃ hash, markEvent (.swapFailed hash e) ∈ h) → ∀ y ∈ h, ¬ y.call.rejectsHtlc = true

/-- The worker holds what it does not know to have failed. -/
theorem held_of {D : Deployment} {e : String} (h : isDefinitiveSwapFailure e = false) :
    Held D e where
  attempt bounded owner hash invoice amountSats feeSats :=
    Spark.swapForLightningReceive_ends bounded owner hash invoice amountSats feeSats
  pass payment delays h' rest hrest := by
    rintro ⟨hash, hmark⟩
    apply Ldk.processStandardReceive_holds h payment delays h' rest hrest _ hmark
    simp [Call.swapFailed]

section

open LeafSplit

/-- **An amount that the leaves cannot represent.**  The liquidity call fails with a text that is
not definitive, so that the receive is held, and never rejected in the same pass. -/
theorem unrepresentable_receive_held (D : Deployment) (S : Sdk) (rounds : Nat) {W : Type}
    (env : Environment (LeafSplit.Api S) W) (w w₁ : W) (leaves missing : List WalletLeaf)
    (available : List TreeNode) (amountSats : Nat)
    (hrecover : Act.eval env (recoverIncompleteSplits S rounds) w = (.ok (), w₁))
    (hlist : (env .listLeaves w₁).1 =
      .ok { available := leaves, availableMissingFromOperators := missing })
    (havailable : leaves.mapM walletLeafToTreeNode = .ok available)
    (hunserved : Unserved S available amountSats) :
    ∃ e, (Act.eval env (ensureExactLiquidity S rounds amountSats) w).1 = .error e ∧
      ¬ Rejected D e ∧ Held D e := by
  obtain ⟨e, he, heval⟩ := ensureExactLiquidity_eval hrecover hlist havailable hunserved
  have hheld := unrepresentable_held he
  refine ⟨e, heval, fun hrejected => ?_, held_of hheld⟩
  rw [hrejected.definitive] at hheld
  cases hheld

/-- A wallet without leaves. -/
def noLeaves : Wallet where
  leaves := []
  issued := 0
  now := 0
  db := .empty

/-- The wallet without leaves has nothing to recover. -/
theorem noLeaves_idle : noLeaves.Idle (exactOperators 330) 0 :=
  ⟨nofun, rfl, nofun, nofun, List.nodup_nil, nofun⟩

/-- It cannot serve any amount. -/
theorem noLeaves_unserved : Unserved (exactSdk 330) [] 1000 where
  exact := by
    rw [sortLeaves, List.mergeSort_nil]
    rfl
  split := by
    rw [sortLeaves, List.mergeSort_nil]
    exact .inl rfl

/-- The SDK without operator hosts. -/
def hostlessSdk (floor : Nat) : Sdk := { exactSdk floor with splitService := false }

/-- Operators without configured hosts. -/
def hostlessOperators (floor : Nat) : LeafSplit.Operators (hostlessSdk floor) :=
  { exactOperators floor with }

/-- A wallet whose leaves are 700 and 500. -/
def twoLeaves : Wallet where
  leaves := [⟨"first", 700, some ""⟩, ⟨"second", 500, some ""⟩]
  issued := 0
  now := 0
  db := .empty

/-- A split of 700 for 1000 next to 500 would leave a change of 200. -/
theorem twoLeaves_unserved : Unserved (exactSdk 330)
    [⟨"first", 700, ""⟩, ⟨"second", 500, ""⟩] 1000 := by
  have hsort : sortLeaves [⟨"first", 700, ""⟩, ⟨"second", 500, ""⟩] =
      [⟨"second", 500, ""⟩, ⟨"first", 700, ""⟩] := by
    simp [sortLeaves, List.mergeSort, List.MergeSort.Internal.splitInTwo]
  constructor
  · rw [hsort]
    decide +kernel
  · rw [hsort]
    left
    simp [planJustInTimeSplit, planWithParent, List.zipIdx, exactSdk, selectExisting, checkedAdd,
      checkedSub]

/-- A leaf of 5000 could be split for 1000. -/
theorem oneLeaf_unserved : Unserved (hostlessSdk 330) [⟨"leaf", 5000, ""⟩] 1000 := by
  have hsort : sortLeaves [⟨"leaf", 5000, ""⟩] = [⟨"leaf", 5000, ""⟩] := List.mergeSort_singleton _
  constructor
  · rw [hsort]
    decide +kernel
  · exact .inr rfl

/-- A receive of 1000 satoshis is held by a wallet that no split helps, and by one that could be
split but has no operators for it. -/
theorem unrepresentable_receive_held_leaves :
    (∃ e, (Act.eval (exactOperators 330).answer (ensureExactLiquidity (exactSdk 330) 4 1000)
      twoLeaves).1 = .error e ∧ ¬ Rejected .sample e ∧ Held .sample e) ∧
    ∃ e, (Act.eval (hostlessOperators 330).answer (ensureExactLiquidity (hostlessSdk 330) 4 1000)
      (oneLeaf 5000)).1 = .error e ∧ ¬ Rejected .sample e ∧ Held .sample e := by
  have htwo : twoLeaves.Idle (exactOperators 330) 0 :=
    idle_of_empty rfl (by simp [twoLeaves]) (by decide) (by decide +kernel)
  have hone : (oneLeaf 5000).Idle (hostlessOperators 330) 0 :=
    idle_of_empty rfl (by simp [oneLeaf]) (by decide) (by decide +kernel)
  constructor
  · exact unrepresentable_receive_held .sample (exactSdk 330) 4 (exactOperators 330).answer
      twoLeaves twoLeaves twoLeaves.leaves [] _ 1000 (recoverIncompleteSplits_eval htwo) rfl rfl
      twoLeaves_unserved
  · exact unrepresentable_receive_held .sample (hostlessSdk 330) 4 (hostlessOperators 330).answer
      (oneLeaf 5000) (oneLeaf 5000) (oneLeaf 5000).leaves [] _ 1000
      (recoverIncompleteSplits_eval hone) rfl rfl oneLeaf_unserved

/-- Without leaves a receive of 1000 satoshis is not rejected. -/
theorem unrepresentable_receive_not_rejected :
    ¬ ∀ (D : Deployment) (S : Sdk) (rounds : Nat) (W : Type)
      (env : Environment (LeafSplit.Api S) W) (w w₁ : W) (leaves missing : List WalletLeaf)
      (available : List TreeNode) (amountSats : Nat),
      Act.eval env (recoverIncompleteSplits S rounds) w = (.ok (), w₁) →
      (env .listLeaves w₁).1 =
        .ok { available := leaves, availableMissingFromOperators := missing } →
      leaves.mapM walletLeafToTreeNode = .ok available → Unserved S available amountSats →
      ∀ e, (Act.eval env (ensureExactLiquidity S rounds amountSats) w).1 = .error e →
        Rejected D e := by
  intro h
  have hrecover : Act.eval (exactOperators 330).answer (recoverIncompleteSplits (exactSdk 330) 4)
      noLeaves = (.ok (), noLeaves) := recoverIncompleteSplits_eval noLeaves_idle
  have hlist : ((exactOperators 330).answer .listLeaves noLeaves).1 =
      .ok { available := [], availableMissingFromOperators := [] } := rfl
  obtain ⟨e, he, heval⟩ := ensureExactLiquidity_eval hrecover hlist rfl noLeaves_unserved
  have hrejected := h .sample (exactSdk 330) 4 Wallet (exactOperators 330).answer noLeaves noLeaves
    [] [] [] 1000 hrecover rfl rfl noLeaves_unserved e heval
  have hheld := unrepresentable_held he
  rw [hrejected.definitive] at hheld
  cases hheld

end

end OpenSsp
