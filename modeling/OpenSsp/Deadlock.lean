/-
OpenSsp/Deadlock.lean

The program never waits for itself.

Its functions take the three locks in one order: the lock of sends, the lock that the event
stream and the reconciler share, and the lock of the wallet's liquidity.  One lemma for each
function says from which of them on it takes locks; `lockOrder` turns this into what holds of
runs: in every reachable state some program can go on, whatever the node, the operators and
the store answer, and the programs can go on until all of them have ended and every lock is
free.

Main result: `never_deadlocked`.
-/
import OpenSsp.Lib.LockOrder
import OpenSsp.Knowledge

namespace OpenSsp

open Interleave

/-! ### The order of the locks -/

/-- The place of a lock in the order. -/
def Lock.rank : Lock → Nat
  | send => 0
  | receive => 1
  | liquidity => 2

section perform

variable {D : Deployment} {t : Nat} {ch : Choice} {w w' : World} {l : Lock}

/-- A lock that was not taken has not changed hands. -/
theorem perform_acquire_error {b : Bool} {e : String}
    (h : perform D t (.acquire l b) ch w = some (.error e, w')) : w' = w := by
  cases ch with
  | done =>
      simp only [perform, performSystem] at h
      split at h
      · cases (Prod.mk.inj (Option.some.inj h)).1
      · cases h
  | fail e' =>
      cases b with
      | false => simp [perform, performSystem] at h
      | true => exact (Prod.mk.inj (Option.some.inj h)).2.symm
  | _ => cases b <;> simp [perform, performSystem] at h

/-- Whether or not it was held, a lock that was given back is not the caller's. -/
theorem perform_release {r : Unit} (h : perform D t (.release l) ch w = some (r, w')) :
    w'.locks.owner l ≠ some t := by
  cases ch with
  | done =>
      obtain ⟨-, rfl⟩ := Prod.mk.inj (Option.some.inj h)
      split
      · rw [Locks.owner_set, if_pos rfl]
        exact fun h => nomatch h
      · assumption
  | _ => simp [perform, performSystem] at h

/-- The owner of a lock owned it before, or has taken it with this call. -/
theorem perform_taken {c : Call} {r : c.Reply} {u : Nat} (h : perform D t c ch w = some (r, w'))
    (ho : w'.locks.owner l = some u) :
    w.locks.owner l = some u ∨ (u = t ∧ (guards D).Takes l ⟨c, r⟩) := by
  by_cases hacq : ∃ m b, c = .acquire m b
  · obtain ⟨m, b, rfl⟩ := hacq
    rcases r with e | ⟨⟩
    · rw [perform_acquire_error h] at ho
      exact .inl ho
    · obtain ⟨-, rfl⟩ := perform_acquire h
      rw [Locks.owner_set] at ho
      split at ho
      · next hlm =>
          subst hlm
          exact .inr ⟨(Option.some.inj ho).symm, b, rfl⟩
      · exact .inl ho
  · have hstep := perform_locks h
    generalize w'.locks = ls at hstep ho
    cases hstep with
    | same => exact .inl ho
    | taken m b hm free => exact absurd ⟨m, b, hm⟩ hacq
    | released m hm mine =>
        rw [Locks.owner_set] at ho
        split at ho
        · cases ho
        · exact .inl ho

end perform

/-- The three locks in the order of `Lock.rank`, for the lock-order library. -/
def lockOrder (D : Deployment) : LockOrder (guards D) where
  rank := Lock.rank
  top := 2
  rank_le l := by cases l <;> decide
  Waits l c := ∃ b, c = Call.acquire l b
  waits := by
    rintro l e ⟨b, rfl⟩
    exact ⟨b, rfl⟩
  fresh l := by cases l <;> rfl
  taken h ho := perform_taken h ho
  given {t c ch w r w' l} hp hg := by
    obtain rfl : c = Call.release l := hg
    exact perform_release (D := D) hp
  dropped {t w l u} h := by
    have h : (w.locks.drop t).owner l = some u := h
    rw [Locks.owner_drop] at h
    split at h
    · cases h
    · next hne => exact ⟨h, fun hut => hne (by rw [h, hut])⟩
  crashed w l := by cases l <;> rfl
  outside ho h := by
    rw [← h]
    exact congrArg (Locks.owner · _) (outside_tables ho).2.symm

/-! ### From which lock on a function takes locks -/

/-- The calls that can wait for a lock. -/
def Call.acquires : Call → Bool
  | .acquire .. => true
  | _ => false

/-- The function takes locks from rank `k` on, in order. -/
abbrev Nests (D : Deployment) (k : Nat) {α : Type} (x : Ssp α) : Prop :=
  Act.Nests (lockOrder D) k x

namespace Nests

variable {D : Deployment} {α : Type} {k : Nat} {x : Ssp α}

/-- Only an `acquire` waits. -/
theorem plain {c : Call} (hc : c.acquires = false) (l : Lock) : ¬ (lockOrder D).Waits l c := by
  rintro ⟨b, rfl⟩
  cases hc

/-- A call that waits for nothing is nested anywhere. -/
theorem tell {c : Call} (hc : c.acquires = false) : Nests D k (Ssp.tell c) :=
  Act.Nests.tell (plain hc)

theorem db (q : Query) : Nests D k (Ssp.db q) := .ask (plain rfl)

theorem ldk (c : LdkCall) : Nests D k (Ssp.ldk c) := .ask (plain rfl)

theorem spark (c : SparkCall) : Nests D k (Ssp.spark c) := .ask (plain rfl)

theorem mark (m : Mark) : Nests D k (Ssp.mark m) := tell (c := .mark m) rfl

/-- A quote is checked against its row, without a lock. -/
theorem validateQuote (owner receiver hash : String) (amount : Nat) (quote : Option String) :
    Nests D k (Ssp.validateQuote owner receiver hash amount quote) :=
  .ask (plain (c := .validateQuote owner receiver hash amount quote) rfl)

theorem ofExcept {r : Except String α} : Nests D k (Ssp.ofExcept r) := Act.Nests.ofExcept

/-- A time limit calls the clock besides, and takes no lock of its own. -/
theorem timeout (hx : Nests D k x) : Nests D k (Ssp.timeout x) := by
  apply hx.attempt.bind
  intro r
  apply (tell (c := .timedOut) rfl).bind
  intro fired
  exact .guard ofExcept

/-- Between two tries of a call nothing is held. -/
theorem retryBounded (hx : Nests D k x) (delays : List Nat) : Nests D k (x.retryBounded delays) := by
  induction delays with
  | nil => exact timeout hx
  | cons d delays ih =>
      apply (timeout hx).attempt.bind
      intro r
      rcases r with e | a
      · exact ih
      · exact .pure

/-- A lock may be taken where everything inside takes higher ones only. -/
theorem locked {l : Lock} (b : Bool) (hl : k ≤ l.rank) (hx : Nests D (l.rank + 1) x) :
    Nests D k (Ssp.locked l b x) := by
  refine Act.Nests.bracket (l := l) hl ?_ ?_ rfl (plain rfl) hx
  · rintro m ⟨b', hm⟩
    cases hm
    rfl
  · rintro r e m hr ⟨b', hm⟩
    cases hm
    cases hr

end Nests

namespace Spark

variable {D : Deployment} {k : Nat}

/-- Looking for an HTLC waits for nothing. -/
theorem findHtlc_nests (transferId hash : String) : Nests D k (findHtlc transferId hash) :=
  (Nests.spark _).bind fun _ => .pure

/-- Polling takes the locks of one look, one look after the other. -/
theorem pollLoop_nests {α : Type} {look : Ssp (Option α)} (hlook : Nests D k look) (e : String)
    (n : Nat) : Nests D k (pollLoop look e n) := by
  induction n with
  | zero =>
      apply hlook.attempt.bind
      rintro (e | - | a)
      · exact .throw
      · exact .throw
      · exact .pure
  | succ n ih =>
      apply hlook.attempt.bind
      rintro (e | - | a)
      · exact ih
      · exact ih
      · exact .pure

theorem waitForTransfer_nests (id : Uuid) : Nests D k (waitForTransfer id) :=
  (Nests.tell (c := .polls) rfl).bind fun _ =>
    pollLoop_nests (Nests.spark _) _ _

theorem waitForCompletedTransfer_nests (id : Uuid) : Nests D k (waitForCompletedTransfer id) := by
  apply (Nests.tell (c := .polls) rfl).bind
  intro n
  apply pollLoop_nests
  apply (Nests.spark _).attempt.bind
  exact fun _ => (Nests.spark _).bind fun _ => .pure

/-- Verification polls, and takes no lock. -/
theorem verifyLightningSend_nests (owner outbound hash : String) (amount : Nat) :
    Nests D k (verifyLightningSend D owner outbound hash amount) := by
  apply (findHtlc_nests _ _).bind
  intro found
  apply Nests.ofExcept.bind
  intro request
  apply Nests.ofExcept.bind
  intro transfer
  apply Act.Nests.guard
  apply Nests.ofExcept.bind
  intro sender
  exact (Nests.tell (c := .systemTime) rfl).bind fun _ => Nests.ofExcept

/-- The same for the transfer of an offer payment. -/
theorem verifyBolt12Send_nests (owner outbound : String) (amount : Nat) :
    Nests D k (verifyBolt12Send D owner outbound amount) := by
  apply Nests.ofExcept.bind
  intro id
  apply (waitForCompletedTransfer_nests id).bind
  intro transfer
  apply Nests.ofExcept.bind
  intro key
  apply Nests.ofExcept.bind
  intro _
  exact .ite .throw .pure

theorem refundBolt12Send_nests (hk : k ≤ 2) (owner outbound : String) (amount : Nat) :
    Nests D k (refundBolt12Send D owner outbound amount) := by
  apply (Nests.mark _).bind
  intro _
  apply Nests.locked false hk
  apply (Nests.spark _).bind
  intro _
  apply Nests.ofExcept.bind
  intro key
  have hcheck : ∀ transfer : Transfer, Nests D 3 (do
      Ssp.ofExcept (validateTransfer transfer D.identity key amount)
      return transfer.id.print) := fun _ => Nests.ofExcept.bind fun _ => .pure
  apply (Nests.spark _).bind
  rintro (- | transfer)
  · exact (Nests.spark _).mapErr.bind hcheck
  · exact Act.Nests.pure.bind hcheck

theorem settleLightningSend_nests (outbound hash preimage : String) :
    Nests D k (settleLightningSend outbound hash preimage) := by
  apply Nests.ofExcept.bind
  intro preimage
  apply Act.Nests.guard
  apply (findHtlc_nests _ _).bind
  intro found
  apply Nests.ofExcept.bind
  intro request
  apply Act.Nests.ite .pure
  apply Act.Nests.guard
  apply (Nests.spark _).bind
  intro transfer
  apply Act.Nests.guard
  exact .ite .throw .pure

theorem receiveTransferId_nests (hash : String) : Nests D k (receiveTransferId hash) :=
  (Nests.db _).bind fun _ => Nests.ofExcept

/-- The payout of a receive selects its leaves under the liquidity lock. -/
theorem settleLightningReceive_nests (hk : k ≤ 2) (owner hash : String) (amount : Nat) :
    Nests D k (settleLightningReceive D owner hash amount) := by
  apply Nests.locked false hk
  apply (Nests.spark _).bind
  intro _
  apply (receiveTransferId_nests hash).bind
  intro id
  apply Nests.ofExcept.bind
  intro key
  have hcheck : ∀ transfer : Transfer, Nests D 3 (do
      Ssp.ofExcept (validateTransfer transfer D.identity key amount)
      return transfer.id.print) := fun _ => Nests.ofExcept.bind fun _ => .pure
  apply (Nests.spark _).bind
  rintro (- | transfer)
  · apply (Nests.spark _).bind
    exact fun _ => (Nests.spark _).mapErr.bind hcheck
  · exact Act.Nests.pure.bind hcheck

/-- A swap that was already made is found without a lock. -/
theorem recoverLightningReceiveSwap_nests (id : Uuid) (hash : Bytes32) (receiver : PublicKey)
    (amount : Nat) : Nests D k (recoverLightningReceiveSwap D id hash receiver amount) := by
  apply (Nests.spark _).mapErr.bind
  intro items
  split
  · exact .pure
  · split
    · exact .pure
    · apply Nests.ofExcept.bind
      intro transfer
      exact Nests.ofExcept.bind fun _ => .pure

/-- The preimage swap holds the liquidity lock while it selects leaves and pays with them. -/
theorem swapForLightningReceive_nests (hk : k ≤ 2) (bounded : Bool) (owner hash invoice : String)
    (amount fee : Nat) :
    Nests D k (swapForLightningReceive D bounded owner hash invoice amount fee) := by
  unfold swapForLightningReceive
  apply Act.Nests.guard
  apply Nests.ofExcept.bind
  intro bytes
  apply Nests.ofExcept.bind
  intro hash'
  apply Nests.ofExcept.bind
  intro key
  apply (receiveTransferId_nests _).bind
  intro id
  apply (Nests.mark _).bind
  intro _
  apply Nests.locked bounded hk
  apply (Nests.spark _).bind
  intro _
  apply (recoverLightningReceiveSwap_nests ..).bind
  rintro (- | recovered)
  · apply (Nests.spark _).bind
    intro _
    apply (Nests.spark _).mapErr.bind
    intro _
    apply (Nests.spark _).mapErr.bind
    intro response
    apply Nests.ofExcept.bind
    intro preimage
    apply Nests.ofExcept.bind
    intro transfer
    apply Nests.ofExcept.bind
    intro result
    exact (Nests.spark _).attempt.bind fun _ => .pure
  · exact .pure

/-- The caller holds the liquidity lock, so none is taken here. -/
theorem createCounterTransfer_nests (primary : Uuid) (key : PublicKey) (adaptor : String)
    (targets : List Nat) (total target : Nat) (id : Uuid) :
    Nests D k (createCounterTransfer D primary key adaptor targets total target id) := by
  apply (Nests.spark _).bind
  intro _
  apply Nests.ofExcept.bind
  intro adaptor
  apply (Nests.spark _).bind
  exact fun _ => (Nests.spark _).mapErr

/-- The counter transfer of a swap is made under the liquidity lock. -/
theorem fillSwap_nests (hk : k ≤ 2) (owner outbound adaptor : String) (targets : List Nat)
    (total payout : Nat) :
    Nests D k (fillSwap D owner outbound adaptor targets total payout) := by
  apply (Nests.mark _).bind
  intro _
  apply Act.Nests.guard
  apply Act.Nests.guard
  apply Nests.ofExcept.bind
  intro target
  apply Act.Nests.guard
  apply Nests.ofExcept.bind
  intro primaryId
  apply (waitForTransfer_nests primaryId).bind
  intro primary
  apply Nests.ofExcept.bind
  intro key
  apply Nests.ofExcept.bind
  intro _
  apply Nests.ofExcept.bind
  intro _
  apply Nests.locked false hk
  apply (Nests.spark _).bind
  intro found
  apply Nests.ofExcept.bind
  intro primary
  apply Nests.ofExcept.bind
  intro _
  -- what follows the counter transfer takes no more locks, whether it was found or made
  have hrest : ∀ counter : Transfer, Nests D 3 (do
      Ssp.ofExcept (validateTransfer counter D.identity key total)
      let leaves ← Ssp.ofExcept (counter.leaves.mapM swapLeafResponse)
      if leaves = [] then throw "counter transfer has no leaves"
      return { transferId := counter.id.print, leaves := leaves,
               expiresAt := counter.expiryTime : SwapFill }) := by
    intro counter
    apply Nests.ofExcept.bind
    intro _
    apply Nests.ofExcept.bind
    exact fun _ => .guard .pure
  apply (Nests.spark _).bind
  rintro (- | counter)
  · apply Nests.ofExcept.bind
    intro _
    exact (createCounterTransfer_nests ..).bind hrest
  · exact Act.Nests.pure.bind hrest

end Spark

namespace Ldk

variable {D : Deployment} {k : Nat}

theorem submit_nests (send : LightningSend) : Nests D k (submit send) :=
  Nests.ofExcept.bind fun _ => Nests.ldk _

/-- A page is asked for after the one before; the number of pages is bounded. -/
theorem lookupPages_nests (send : LightningSend) (n : Nat) (token : Option String)
    (found : Option Payment) : Nests D k (lookupPages D send n token found) := by
  induction n generalizing token found with
  | zero => exact .throw
  | succ n ih =>
      apply (Nests.ldk _).bind
      intro page
      apply Nests.ofExcept.bind
      intro found
      split
      · exact .pure
      · exact ih _ _

/-- A known payment is asked for by its id, an unknown one by pages. -/
theorem lookup_nests (send : LightningSend) : Nests D k (lookup D send) := by
  unfold lookup
  split
  · apply (Nests.ldk _).bind
    rintro (- | payment)
    · exact .pure
    · exact Nests.ofExcept.bind fun _ => .pure
  · exact lookupPages_nests ..

theorem recoverSubmission_nests (send : LightningSend) : Nests D k (recoverSubmission D send) := by
  apply (lookup_nests send).bind
  rintro (- | payment)
  · exact .pure
  · apply Nests.ofExcept.bind
    exact fun _ => (Nests.db _).bind fun _ => .pure

theorem retryMissingBolt11_nests (send : LightningSend) :
    Nests D k (retryMissingBolt11 D send) := by
  unfold retryMissingBolt11
  apply Act.Nests.guard
  apply (submit_nests send).attempt.bind
  rintro (e | id)
  · apply (recoverSubmission_nests send).bind
    exact fun _ => .ite (Nests.db _) .pure
  · exact Nests.db _

/-- The submission is one call, recorded before and after. -/
theorem submitDurableSend_nests (send : LightningSend) : Nests D k (submitDurableSend send) := by
  apply (Nests.db _).bind
  intro begun
  apply Act.Nests.ite _ .pure
  apply (submit_nests send).attempt.bind
  rintro (e | id)
  · exact Nests.db _
  · exact Nests.db _

theorem failReceive_nests (id : String) : Nests D k (failReceive id) := (Nests.ldk _).mapErr

theorem failUnfundedReceive_nests (payment : ClaimableReceive) (delays : List Nat) :
    Nests D k (failUnfundedReceive payment delays) := by
  apply ((failReceive_nests _).retryBounded delays).attempt.bind
  rintro (e | _)
  · exact .pure
  · exact (Nests.db _).attempt.bind fun _ => .pure

/-- Whether the receive is paid by a transfer or a swap, only the liquidity lock is taken. -/
theorem fundReceive_nests (hk : k ≤ 2) (payment : ClaimableReceive) (receive : LightningReceive)
    (delays : List Nat) : Nests D k (fundReceive D payment receive delays) := by
  apply ((Spark.swapForLightningReceive_nests hk ..).retryBounded delays).attempt.bind
  rintro (e | swap)
  · apply (Nests.mark _).bind
    intro _
    apply (Nests.db _).bind
    intro _
    apply Act.Nests.ite
    · exact (failUnfundedReceive_nests payment delays).bind fun _ => .throw
    · exact .throw
  · dsimp only
    split
    · exact (Nests.db _).bind fun _ => .throw
    · exact (Nests.db _).bind fun _ => .pure

/-- A receive is worked on under its lock, with the liquidity lock inside. -/
theorem processStandardReceive_nests (hk : k ≤ 1) (payment : ClaimableReceive)
    (delays : List Nat) : Nests D k (processStandardReceive D payment delays) := by
  apply Nests.locked false hk
  -- a receive is failed at the node, which takes no lock
  have hfail : Nests D 2 ((failReceive payment.paymentId).retryBounded delays) :=
    (failReceive_nests _).retryBounded delays
  apply (Nests.mark _).bind
  intro _
  apply (Nests.db _).bind
  intro internal
  apply Act.Nests.ite (hfail.bind fun _ => .pure)
  apply (Nests.db _).bind
  rintro (- | receive)
  · exact hfail.bind fun _ => .pure
  · apply (Nests.mark _).bind
    intro _
    apply Act.Nests.ite (hfail.bind fun _ => .pure)
    apply Act.Nests.ite .pure
    apply Nests.ofExcept.bind
    intro expected
    apply Nests.ofExcept.bind
    intro actual
    apply (Nests.db _).bind
    intro _
    -- nor does its claim; only the payout before it takes the lock of liquidity
    have hclaim : ∀ preimage : Option String, Nests D 2 (do
        if receive.claimSubmitted then return true
        let preimage ← Ssp.ofExcept (okOr "committed Spark receive has no preimage" preimage)
        Ssp.ofExcept (validatePreimage payment.paymentHash preimage)
        Ssp.retryBounded (claimReceive payment.paymentId actual preimage) delays
        Ssp.db (.markReceiveClaimSubmitted payment.paymentHash)
        return true) := by
      intro preimage
      apply Act.Nests.ite .pure
      apply Nests.ofExcept.bind
      intro preimage
      apply Nests.ofExcept.bind
      intro _
      apply (Nests.retryBounded (Nests.ldk _).mapErr delays).bind
      exact fun _ => (Nests.db _).bind fun _ => .pure
    apply Act.Nests.ite
    · apply (failUnfundedReceive_nests payment delays).bind
      intro _
      apply Act.Nests.throw.bind
      exact fun _ => .ite ((fundReceive_nests le_rfl ..).bind hclaim) (Act.Nests.pure.bind hclaim)
    · exact .ite ((fundReceive_nests le_rfl ..).bind hclaim) (Act.Nests.pure.bind hclaim)

/-- An internal send takes the lock of receives, since it pays one. -/
theorem processInternalSend_nests (hk : k ≤ 1) (send : LightningSend) :
    Nests D k (processInternalSend D send) := by
  apply Nests.locked false hk
  apply (Nests.mark _).bind
  intro _
  apply (Nests.db _).bind
  intro status
  apply Act.Nests.ite .pure
  apply (Nests.db _).attempt.bind
  rintro (e | _)
  · exact (Nests.db _).bind fun _ => .throw
  · apply (Nests.db _).bind
    intro found
    apply Nests.ofExcept.bind
    intro receive
    have hsettle : ∀ preimage : String, Nests D 2 (do
        Ssp.ofExcept (validatePreimage send.expectedId preimage)
        settleSender send preimage
        Ssp.db (.finishInternalSend send)) := by
      intro preimage
      apply Nests.ofExcept.bind
      intro _
      exact (Spark.settleLightningSend_nests ..).bind fun _ => Nests.db _
    rcases receive.preimage with - | preimage
    · -- the payout is still to be made
      apply ((Spark.verifyLightningSend_nests ..).bind fun _ => .pure).bind
      intro _
      apply (Spark.swapForLightningReceive_nests le_rfl ..).bind
      intro swap
      apply Nests.ofExcept.bind
      intro _
      apply (Nests.db _).bind
      exact fun _ => Act.Nests.pure.bind hsettle
    · exact Act.Nests.pure.bind hsettle

/-- The funding is verified before any lock of the send is taken. -/
theorem verifyLightningSendFunding_nests (owner outbound invoice : String) (amount : Option Nat) :
    Nests D k (verifyLightningSendFunding D owner outbound invoice amount) := by
  have hrounded : ∀ msat hash, Nests D k (do
      let rounded ← Ssp.ofExcept (okOr "invoice amount is too large" (checkedAdd msat 999))
      let totalSats := rounded / 1000
      if totalSats = 0 then throw "Lightning send amount must be positive"
      return some (← Spark.verifyLightningSend D owner outbound hash totalSats)) := by
    intro msat hash
    apply Nests.ofExcept.bind
    intro rounded
    apply Act.Nests.guard
    exact (Spark.verifyLightningSend_nests ..).bind fun _ => .pure
  unfold verifyLightningSendFunding
  apply Act.Nests.ite
  · apply Nests.ofExcept.bind
    intro sats
    apply Act.Nests.guard
    exact (Spark.verifyBolt12Send_nests ..).bind fun _ => .pure
  · apply Nests.ofExcept.bind
    intro decoded
    rcases decoded.amountMilliSatoshis with - | value
    · apply Nests.ofExcept.bind
      intro sats
      exact Nests.ofExcept.bind fun _ => hrounded _ _
    · apply Act.Nests.guard
      exact Act.Nests.pure.bind fun _ => hrounded _ _

theorem decodeSend_nests (invoice : String) (amount : Option Nat) :
    Nests D k (decodeSend D invoice amount) := by
  unfold decodeSend
  apply Act.Nests.ite
  · apply (Nests.ldk _).bind
    intro id
    exact Nests.ofExcept.bind fun _ => .pure
  · apply Nests.ofExcept.bind
    intro decoded
    apply Act.Nests.guard
    apply (Nests.tell (c := .now) rfl).bind
    intro now
    apply Act.Nests.guard
    exact Nests.ofExcept.bind fun _ => .pure

theorem prepareSend_nests (owner transfer invoice : String) (amount : Option Nat) :
    Nests D k (prepareSend D owner transfer invoice amount) := by
  unfold prepareSend
  apply Act.Nests.guard
  apply (decodeSend_nests invoice amount).bind
  rintro ⟨kind, expectedId, total⟩
  apply Nests.ofExcept.bind
  intro _
  apply (verifyLightningSendFunding_nests ..).bind
  intro cltv
  exact (Nests.tell (c := .newUuid) rfl).bind fun _ => .pure

theorem refreshRouteCltv_nests (send : LightningSend) : Nests D k (refreshRouteCltv D send) := by
  apply (verifyLightningSendFunding_nests ..).bind
  intro cltv
  exact .ite ((Nests.db _).bind fun _ => .pure) .pure

/-- A send to an own invoice is the internal one, and no other takes a lock. -/
theorem submitSend_nests (hk : k ≤ 1) (send : LightningSend) : Nests D k (submitSend D send) := by
  apply (Nests.db _).bind
  intro issued
  apply Act.Nests.ite (processInternalSend_nests hk send)
  apply Act.Nests.ite .pure
  apply (refreshRouteCltv_nests send).bind
  exact fun send => submitDurableSend_nests send

/-- A payment that succeeded takes no lock to settle. -/
theorem settleSucceededPayment_nests (payment : Payment) :
    Nests D k (settleSucceededPayment D payment) := by
  apply (Nests.db _).bind
  intro found
  apply Nests.ofExcept.bind
  intro send
  apply Nests.ofExcept.bind
  intro _
  split
  · exact .bind .throw fun _ => Nests.db _
  · apply Nests.ofExcept.bind
    intro preimage
    exact (Spark.settleLightningSend_nests ..).bind fun _ => Nests.db _
  · apply Act.Nests.guard
    apply Nests.ofExcept.bind
    intro hash
    apply Nests.ofExcept.bind
    intro preimage
    apply Nests.ofExcept.bind
    exact fun _ => (Nests.db _).bind fun _ => Nests.db _
  · exact .bind .throw fun _ => Nests.db _

/-- A failed offer payment is refunded under the liquidity lock. -/
theorem failManagedPayment_nests (hk : k ≤ 2) (id : String) (reason : Option String) :
    Nests D k (failManagedPayment D id reason) := by
  apply (Nests.db _).bind
  rintro (- | send)
  · exact .pure
  · apply Act.Nests.ite .pure
    apply (Nests.db _).bind
    intro _
    apply Act.Nests.ite .pure
    apply Act.Nests.ite
    · apply (Nests.db _).bind
      intro _
      exact (Spark.refundBolt12Send_nests hk ..).bind fun _ => Nests.db _
    · exact Nests.db _

theorem observePayment_nests (hk : k ≤ 2) (id : String) : Nests D k (observePayment D id) := by
  apply (Nests.db _).attempt.bind
  rintro (e | status)
  -- The same program follows, with or without a cached status.
  all_goals
    apply Act.Nests.pure.bind
    intro cached
    apply (Nests.ldk _).attempt.bind
    rintro (e | - | payment)
    · exact .pure
    · exact .pure
    · dsimp only
      split
      · apply Act.Nests.ite .pure
        apply (settleSucceededPayment_nests payment).attempt.bind
        rintro (e | _)
        · exact (Nests.db _).attempt.bind fun _ => .pure
        · exact .pure
      · apply (failManagedPayment_nests hk ..).attempt.bind
        rintro (e | _)
        · exact .pure
        · exact .pure
      · exact .pure

/-- What is recovered of a send is what a first submission would have done. -/
theorem recoverSend_nests (hk : k ≤ 1) (send : LightningSend) : Nests D k (recoverSend D send) := by
  unfold recoverSend
  apply Act.Nests.ite .pure
  apply (Nests.db _).bind
  intro issued
  apply Act.Nests.ite (processInternalSend_nests hk send)
  apply Act.Nests.ite (submitSend_nests hk send)
  apply (recoverSubmission_nests send).bind
  rintro (- | payment)
  · apply Act.Nests.ite
    · apply (refreshRouteCltv_nests send).bind
      exact fun send => retryMissingBolt11_nests send
    · exact Nests.db _
  · exact (observePayment_nests (hk.trans (by decide)) _).bind fun _ => .pure

/-- The offer's receive is worked on under its lock. -/
theorem finishBolt12Receive_nests (hk : k ≤ 1) (offerId hash : String) (preimage : Option String)
    (amount : Option Nat) : Nests D k (finishBolt12Receive D offerId hash preimage amount) := by
  apply Nests.locked false hk
  apply (Nests.mark _).bind
  intro _
  apply (Nests.db _).bind
  rintro (- | receive)
  · exact .pure
  · apply Act.Nests.ite .pure
    apply Nests.ofExcept.bind
    intro expected
    apply Act.Nests.guard
    apply Nests.ofExcept.bind
    intro preimage
    apply Nests.ofExcept.bind
    intro _
    apply (Nests.db _).bind
    intro _
    apply (Nests.db _).bind
    intro _
    exact (Spark.settleLightningReceive_nests le_rfl ..).bind fun _ => Nests.db _

theorem isManagedOutbound_nests (id : String) : Nests D k (isManagedOutbound id) :=
  (Nests.db _).bind fun _ => .pure

/-- A reported receive is finished under the lock of receives. -/
theorem finishReceivedPayment_nests (hk : k ≤ 1) (id hash : String) :
    Nests D k (finishReceivedPayment id hash) := by
  apply Nests.locked false hk
  apply (Nests.mark _).bind
  intro _
  apply (Nests.db _).bind
  intro internal
  apply Act.Nests.ite .pure
  apply (Nests.db _).bind
  rintro (- | receive)
  · exact .pure
  · apply Act.Nests.guard
    have hrest : ∀ transferId : String, Nests D 2 (do
        Ssp.db (.insertTransfer transferId receive.requestId .lightningReceive
          .transferCompleted receive.owner)
        Ssp.db (.setReceiveStatus hash .transferCompleted)
        return true) := fun _ => (Nests.db _).bind fun _ => (Nests.db _).bind fun _ => .pure
    rcases receive.transferId with - | transferId
    · apply (Nests.db _).bind
      intro found
      exact Nests.ofExcept.bind hrest
    · exact Act.Nests.pure.bind hrest

/-- A send is recovered as at its start; errors are swallowed. -/
theorem reconcileSend_nests (hk : k ≤ 1) (send : LightningSend) :
    Nests D k (reconcileSend D send) := by
  apply (recoverSend_nests hk send).attempt.bind
  rintro (e | _)
  · exact Nests.db _
  · exact .pure

theorem reconcileOutbound_nests (hk : k ≤ 2) (payment : Payment) :
    Nests D k (reconcileOutbound D payment) := by
  apply (isManagedOutbound_nests _).bind
  intro managed
  apply Act.Nests.ite _ .pure
  split
  · apply (settleSucceededPayment_nests payment).attempt.bind
    rintro (e | _)
    · exact Nests.db _
    · exact .pure
  · exact failManagedPayment_nests hk ..
  · exact Nests.db _

theorem reconcileInbound_nests (hk : k ≤ 1) (payment : Payment) (hash : String) :
    Nests D k (reconcileInbound D payment hash) := by
  apply (Nests.db _).bind
  intro receive
  apply Act.Nests.ite .pure
  split
  · exact (finishReceivedPayment_nests hk ..).attempt.bind fun _ => .pure
  · apply Nests.locked false hk
    exact (Nests.mark _).bind fun _ => Nests.db _
  · exact (processStandardReceive_nests hk ..).attempt.bind fun _ => .pure

theorem reconcilePayment_nests (hk : k ≤ 1) (payment : Payment) :
    Nests D k (reconcilePayment D payment) := by
  unfold reconcilePayment
  apply Act.Nests.ite (reconcileOutbound_nests (hk.trans (by decide)) payment)
  split
  · apply Act.Nests.ite _ .pure
    exact (finishBolt12Receive_nests hk ..).attempt.bind fun _ => .pure
  · split
    · exact reconcileInbound_nests hk ..
    · exact .pure

/-- One page of payments after the other, each payment on its own. -/
theorem reconcilePages_nests (hk : k ≤ 1) (n : Nat) (token : Option String) :
    Nests D k (reconcilePages D n token) := by
  induction n generalizing token with
  | zero => exact .throw
  | succ n ih =>
      apply (Nests.ldk _).bind
      intro page
      apply (Act.Nests.forEach (reconcilePayment_nests hk) _).bind
      intro _
      split
      · exact .pure
      · exact ih _

/-- Expiry looks at a receive under its lock. -/
theorem expireReceive_nests (hk : k ≤ 1) (hash : String) : Nests D k (expireReceive hash) := by
  apply Nests.locked false hk
  apply (Nests.db _).bind
  rintro (- | receive)
  · exact .pure
  · apply (Nests.db _).bind
    intro internal
    apply Act.Nests.ite .pure
    apply Act.Nests.ite .pure
    apply Act.Nests.ite .pure
    apply (Nests.db _).bind
    intro transfer
    apply Act.Nests.ite .pure
    apply (Nests.mark _).bind
    intro _
    split
    · apply ((failReceive_nests _).retryBounded _).attempt.bind
      rintro (e | _)
      · exact .pure
      · exact Nests.db _
    · exact Nests.db _

theorem reconcilePayments_nests (hk : k ≤ 1) : Nests D k (reconcilePayments D) := by
  apply (Nests.db _).bind
  intro sends
  apply (Act.Nests.forEach (reconcileSend_nests hk) _).bind
  intro _
  apply (reconcilePages_nests hk ..).bind
  intro _
  apply (Nests.tell (c := .now) rfl).bind
  intro now
  apply (Nests.db _).bind
  exact fun hashes => .forEach (expireReceive_nests hk) hashes

theorem reconcileRequest_nests (hk : k ≤ 1) (id : String) : Nests D k (reconcileRequest D id) := by
  apply (Nests.db _).bind
  intro found
  apply Nests.ofExcept.bind
  intro send
  apply (recoverSend_nests hk send).bind
  exact fun _ => (Nests.db _).bind fun _ => .pure

/-- A poll may recover the send, locks included. -/
theorem paymentStatus_nests (hk : k ≤ 1) (id : String) : Nests D k (paymentStatus D id) := by
  apply (Nests.db _).attempt.bind
  rintro (e | status)
  all_goals
    apply Act.Nests.pure.bind
    intro cached
    apply (Nests.db _).attempt.bind
    rintro (e | - | send)
    · exact .pure
    · exact .pure
    · apply (recoverSend_nests hk send).attempt.bind
      intro _
      apply (Nests.db _).attempt.bind
      rintro (e | status)
      · exact .pure
      · exact .pure

/-- Each kind of event leads to one of the functions above. -/
theorem applyLnEvent_nests (hk : k ≤ 1) (event : LnEvent) : Nests D k (applyLnEvent D event) := by
  cases event with
  | outboundSucceeded payment =>
      apply (isManagedOutbound_nests _).attempt.bind
      rintro (e | _ | _)
      · exact .pure
      · exact .pure
      · apply (settleSucceededPayment_nests payment).attempt.bind
        rintro (e | _)
        · exact (Nests.db _).attempt.bind fun _ => .pure
        · exact .pure
  | outboundFailed id reason =>
      apply (isManagedOutbound_nests _).attempt.bind
      rintro (e | _ | _)
      · exact .pure
      · exact .pure
      · exact (failManagedPayment_nests (hk.trans (by decide)) ..).attempt.bind fun _ => .pure
  | inboundClaimable payment =>
      exact (processStandardReceive_nests hk ..).attempt.bind fun _ => .pure
  | inboundReceived id hash =>
      exact (finishReceivedPayment_nests hk ..).attempt.bind fun _ => .pure
  | inboundBolt12Received offerId hash preimage amount =>
      exact (finishBolt12Receive_nests hk ..).attempt.bind fun _ => .pure

/-- One event at a time: the locks of an event are given back before the next. -/
theorem eventPump_nests (hk : k ≤ 1) (embedded : Bool) : Nests D k (eventPump D embedded) := by
  apply (Nests.tell (c := .nextEvent) rfl).bind
  rintro (- | event)
  · exact .pure
  · dsimp only
    split
    · apply (Nests.db _).attempt.bind
      rintro (e | _)
      · exact .pure
      · exact applyLnEvent_nests hk _
    · exact applyLnEvent_nests hk event

end Ldk

namespace Graphql

variable {D : Deployment} {k : Nat}

theorem storeRequest_nests (owner : String) (now : Nat) (payload : RequestPayload) :
    Nests D k (storeRequest owner now payload) := by
  have hstore : Nests D k (do
      let id ← Ssp.tell .newUuid
      Ssp.db (.insertRequest id.print owner now payload)
      return id.print) := by
    apply (Nests.tell (c := .newUuid) rfl).bind
    exact fun _ => (Nests.db _).bind fun _ => .pure
  unfold storeRequest
  split
  · exact hstore
  · apply (Nests.tell (c := .oversized payload) rfl).bind
    exact fun _ => .guard hstore

theorem sendResponseFromRecord_nests (hk : k ≤ 1) (record : RequestRow) :
    Nests D k (sendResponseFromRecord D record) := by
  apply (Nests.db _).bind
  intro _
  apply (Ldk.paymentStatus_nests hk _).bind
  intro status
  split
  · exact .pure
  · exact .pure
  · exact .pure

/-- The lock of sends comes first, and the ones of receives and liquidity inside. -/
theorem requestLightningSend_nests (owner : String) (input : SendInput) :
    Nests D 0 (requestLightningSend D owner input) := by
  unfold requestLightningSend
  apply Act.Nests.guard
  apply Act.Nests.guard
  apply Nests.locked (l := .send) false (Nat.zero_le _)
  apply (Nests.db _).bind
  rintro (- | record)
  · apply (Ldk.prepareSend_nests ..).bind
    intro send
    apply (Nests.db _).bind
    intro record
    exact (Ldk.submitSend_nests le_rfl send).bind fun _ => sendResponseFromRecord_nests le_rfl _
  · apply Act.Nests.guard
    apply (Nests.db _).bind
    rintro (- | send)
    · exact sendResponseFromRecord_nests le_rfl _
    · exact (Ldk.submitSend_nests le_rfl send).bind fun _ => sendResponseFromRecord_nests le_rfl _

theorem createInvoice_nests (amount : Nat) (hash memo : String) (expiry : Nat) :
    Nests D k (Ldk.createInvoice D amount hash memo expiry) := by
  apply Nests.ofExcept.bind
  intro msat
  apply ((Nests.ldk _).retryBounded _).bind
  intro invoice
  exact Nests.ofExcept.bind fun _ => .pure

theorem requestLightningReceive_nests (owner : String) (input : ReceiveInput) :
    Nests D k (requestLightningReceive D owner input) := by
  apply (Nests.tell (c := .now) rfl).bind
  intro now
  apply Nests.ofExcept.bind
  intro _
  apply Nests.ofExcept.bind
  intro _
  apply Act.Nests.guard
  apply (Nests.db _).bind
  intro found
  apply Act.Nests.guard
  apply Nests.ofExcept.bind
  intro receiver
  apply (Nests.validateQuote ..).bind
  intro quote
  apply Nests.ofExcept.bind
  intro expiry
  apply (createInvoice_nests ..).mapErr.bind
  intro invoice
  apply (storeRequest_nests ..).bind
  exact fun _ => (Nests.db _).bind fun _ => .pure

theorem requestBolt12Receive_nests (owner : String) (input : ReceiveInput) :
    Nests D k (requestBolt12Receive D owner input) := by
  apply (Nests.tell (c := .now) rfl).bind
  intro now
  apply Nests.ofExcept.bind
  intro _
  apply Nests.ofExcept.bind
  intro _
  apply Nests.ofExcept.bind
  intro receiver
  apply Nests.ofExcept.bind
  intro expiry
  have hoffer : Nests D k (Ldk.createBolt12Offer input.amountSats input.memo expiry) := by
    apply Nests.ofExcept.bind
    exact fun _ => (Nests.ldk _).mapErr.bind fun _ => .pure
  apply hoffer.bind
  rintro ⟨offer, offerId⟩
  apply (storeRequest_nests ..).bind
  exact fun _ => (Nests.db _).bind fun _ => .pure

/-- A swap takes the liquidity lock, after its verification. -/
theorem requestSwap_nests (hk : k ≤ 2) (owner : String) (input : SwapInput) :
    Nests D k (requestSwap D owner input) := by
  apply (Nests.tell (c := .now) rfl).bind
  intro now
  apply Act.Nests.guard
  apply Act.Nests.guard
  apply Act.Nests.guard
  apply Act.Nests.guard
  apply Act.Nests.guard
  apply Act.Nests.guard
  apply Nests.ofExcept.bind
  intro target
  apply Act.Nests.guard
  apply Act.Nests.guard
  apply (Spark.fillSwap_nests hk ..).bind
  intro fill
  apply (storeRequest_nests ..).bind
  intro id
  apply (Nests.db _).bind
  intro _
  apply (Nests.db _).bind
  exact fun _ => (Nests.db _).bind fun _ => .pure

end Graphql

theorem Service.storeRecord_nests {D : Deployment} {k : Nat} (service : Service)
    (owner transferId : String) : Nests D k (service.storeRecord owner transferId) := by
  apply (Nests.tell (c := .now) rfl).bind
  intro now
  apply (Nests.tell (c := .newUuid) rfl).bind
  exact fun _ => Nests.db _

/-- Every request starts with nothing held. -/
theorem Request.act_nests (D : Deployment) (r : Request) : Nests D 0 (r.act D) := by
  cases r with
  | lightningSend owner input => exact (Graphql.requestLightningSend_nests owner input).discard
  | lightningReceive owner input => exact (Graphql.requestLightningReceive_nests owner input).discard
  | bolt12Receive owner input => exact (Graphql.requestBolt12Receive_nests owner input).discard
  | swap owner input => exact (Graphql.requestSwap_nests (by decide) owner input).discard
  | paymentStatus id => exact (Ldk.paymentStatus_nests (by decide) id).discard
  | reconcileRequest id => exact (Ldk.reconcileRequest_nests (by decide) id).discard
  | storeRecord service owner transferId => exact service.storeRecord_nests owner transferId
  | storeTransfer requestId => exact Nests.db _
  | storeSuccess requestId => exact Nests.db _
  | event embedded => exact Ldk.eventPump_nests (by decide) embedded
  | reconcile => exact Ldk.reconcilePayments_nests (by decide)

theorem handler_ordered (D : Deployment) (r : Request) :
    (lockOrder D).Ordered ((machine D).handler r) := (r.act_nests D).ordered

/-! ### The result -/

variable {D : Deployment}

/-- A state in which no lock has an owner is the free one. -/
theorem Locks.eq_free {ls : Locks} (h : ∀ l, ls.owner l = none) : ls = free := by
  obtain ⟨a, b, c⟩ := ls
  obtain rfl : a = none := h .send
  obtain rfl : b = none := h .receive
  obtain rfl : c = none := h .liquidity
  rfl

/-- In every reachable state some program can go on unless all of them have ended, whatever the
replies are; and the programs can go on until all have ended, when every lock is free. -/
theorem never_deadlocked {s : Config (machine D)} (hs : Reach anyMove s)
    (A : (lockOrder D).Answers) :
    (¬ s.Finished → ∃ t s', s.step (.run t (A.choice s t)) = some s') ∧
    ∃ s', Later A.moves s s' ∧ s'.Finished ∧ s'.world.locks = Locks.free := by
  refine ⟨(lockOrder D).goes_on (handler_ordered D) A hs, ?_⟩
  obtain ⟨s', hl, hfin⟩ := (lockOrder D).all_finish (handler_ordered D) A hs
  have hs' : Reach anyMove s' := hs.later (hl.weaken fun _ _ _ => trivial)
  refine ⟨s', hl, hfin, Locks.eq_free fun l => ?_⟩
  exact (lockOrder D).free_of_finished (handler_ordered D) hs' hfin l

/-- Every remote call fails, and nothing happens. -/
def Call.unanswered : Call → Choice
  | .ldk _ => .fail "unavailable"
  | .spark _ => .fail "unavailable"
  | .validateQuote .. => .fail "unavailable"
  | .systemTime => .time ⟨0, by decide, by decide⟩
  | .newUuid => .uuid (Uuid.fill 0)
  | .polls => .number 0
  | .timedOut => .flag true
  | .oversized _ => .flag false
  | .nextEvent => .event none
  | _ => .done

/-- The answers that let every waiting program go on: each call fails, or times out. -/
def unanswered (D : Deployment) : (lockOrder D).Answers where
  choice s t := ((s.next t).map Call.unanswered).getD .done
  possible {s t c} _ hn hfree := by
    rw [hn]
    cases c with
    | db q => rfl
    | ldk c => rfl
    | spark c => rfl
    | acquire l b =>
        have hl : s.world.locks.owner l = none := hfree l ⟨b, rfl⟩
        show (if s.world.locks.owner l = none then some _ else none).isSome = true
        rw [if_pos hl]
        rfl
    | _ => rfl

/-- Does program 1 wait for the lock that program 0 has? -/
def sendWaits {D : Deployment} (s : Config (machine D)) : Bool :=
  s.world.locks.send == some 0 && match s.next 1 with
    | some (.acquire .send false) => true
    | _ => false

theorem never_deadlocked_waiting : ∃ s : Config (machine .sample), Reach anyMove s ∧
    sendWaits s = true ∧
    (¬ s.Finished → ∃ t s', s.step (.run t ((unanswered .sample).choice s t)) = some s') ∧
    ∃ s', Later (unanswered .sample).moves s s' ∧ s'.Finished ∧ s'.world.locks = Locks.free := by
  let send (owner : String) : Move (machine .sample) :=
    .spawn (.lightningSend owner ⟨"lno1x", some 1, "transfer", ""⟩)
  obtain ⟨s, hs, hp⟩ := Reach.exists_of_moves [send "alice", send "bob", .run 0 .done] sendWaits
    (by decide)
  exact ⟨s, hs, hp, never_deadlocked hs (unanswered .sample)⟩

end OpenSsp
