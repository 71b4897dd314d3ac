/-
OpenSsp/LdkContract.lean

The functions of `Ldk.lean` obey the contract, one lemma for each function.  The
hypotheses of a lemma are what its callers know; most functions start from a reading of
a row (`KnownSend`) or from an answer of the node (`KnownPayment`, `KnownAttempt`).

Main results: `recoverSend_meets`, `settleSucceededPayment_meets`,
`failManagedPayment_meets`, `processStandardReceive_meets`, `processInternalSend_meets`
and `reconcilePayments_meets`.
-/
import OpenSsp.SparkContract

namespace OpenSsp

open Interleave

/-! ### Knowledge survives -/

section after

variable {h h' : History Api} {q : Event Api → Prop}

/-- What was known of an attempt is known later, and so below for the other evidence. -/
theorem KnownAttempt.after {id hash : String} (ha : KnownAttempt h id hash)
    (he : Extends q h h') : KnownAttempt h' id hash := by
  obtain ⟨p, hp, hid, hhash⟩ := ha
  exact ⟨p, hp.after he, hid, hhash⟩

theorem SucceededPayment.after {p : Payment} (hp : SucceededPayment h p)
    (he : Extends q h h') : SucceededPayment h' p := by
  cases hp with
  | known hp hs => exact .known (hp.after he) hs
  | event mem => exact .event (he.mem mem)

theorem FailedPayment.after {id : String} (hp : FailedPayment h id) (he : Extends q h h') :
    FailedPayment h' id := by
  cases hp with
  | known p hp hid hs => exact .known p (hp.after he) hid hs
  | event reason mem => exact .event reason (he.mem mem)

theorem SettledFunding.after {outbound hash : String} (hs : SettledFunding h outbound hash)
    (he : Extends q h h') : SettledFunding h' outbound hash := by
  cases hs with
  | shared items r t p mem mem' hhash hs hp ht hid hc =>
      exact .shared items r t p (he.mem mem) mem' hhash hs hp ht hid hc
  | claimed p t mem hhash hid hc => exact .claimed p t (he.mem mem) hhash hid hc

theorem Local.after {send : LightningSend} (hl : Local h send) (he : Extends q h h') :
    Local h' send := hl.imp fun _ hm => he.mem hm

/-- A reading of a claimed, unbound row is a look that allows a submission. -/
theorem KnownSend.armed {send : LightningSend} (hk : KnownSend h send)
    (hs : ShowsSubmitting send) : ∃ e ∈ h, Arms send.requestId e := by
  cases hk with
  | read id a mem same =>
      refine ⟨_, mem, .read id a same.same.requestId ?_⟩
      exact ⟨by rw [same]; exact hs.1, by rw [same]; exact hs.2⟩
  | listed as a mem mem' same =>
      refine ⟨_, mem, .listed as a mem' same.same.requestId ?_⟩
      exact ⟨by rw [same]; exact hs.1, by rw [same]; exact hs.2⟩
  | prepared a key network row mem fresh same =>
      have hst : a.status = send.status := by rw [same]
      rw [fresh.2, hs.1] at hst
      exact absurd hst (by decide)

/-- A refreshed route cap makes no other send of it. -/
theorem KnownSend.refreshed {send : LightningSend} (hk : KnownSend h send) (cltv : Option Nat) :
    KnownSend h { send with maxRouteCltv := cltv } := by
  cases hk with
  | read id a mem same => exact .read id a mem same
  | listed as a mem mem' same => exact .listed as a mem mem' same
  | prepared a key network row mem fresh same =>
      exact .prepared a key network row mem fresh same

/-- Failing an attempt keeps its reason. -/
theorem FailGround.after {id : String} (hg : FailGround h id) (he : Extends (Keeps []) h h') :
    FailGround h' id := by
  have hq : ∀ p, Extends (Quiet p) h h' := fun p => he.mono fun _ => Keeps.quiet (by simp)
  cases hg with
  | reserved hash payer attempt read => exact .reserved hash payer (attempt.after he) (he.mem read)
  | unknown hash attempt holds read =>
      exact .unknown hash (attempt.after he) (holds.after (hq .bound)) (read.after (hq _))
  | rejected p r hid attempt holds read mark rejects =>
      exact .rejected p r hid (attempt.after he) (holds.after (hq .bound)) (read.after (hq _))
        (mark.after (hq _)) rejects
  | wrongAmount p r hid attempt holds mark accepts hopen differs =>
      exact .wrongAmount p r hid (attempt.after he) (holds.after (hq .bound))
        (mark.after (hq _)) accepts hopen differs
  | swapFailed hash e attempt holds mark definitive =>
      exact .swapFailed hash e (attempt.after he) (holds.after (hq .bound))
        (mark.after (hq _)) definitive
  | expired hash r holds mark hid =>
      exact .expired hash r (holds.after (hq .bound)) (mark.after (hq _)) hid

/-- The ground of a claim is evidence of the past, and stays. -/
theorem ClaimGround.after {id preimage hash : String} {msat : Nat} {r : LightningReceive}
    (hg : ClaimGround h id msat preimage hash r) (he : Extends q h h') :
    ClaimGround h' id msat preimage hash r where
  read := he.mem hg.read
  bound := he.mem hg.bound
  amount := hg.amount
  valid := hg.valid
  stored := hg.stored.imp_right fun ⟨id, hm⟩ => ⟨id, he.mem hm⟩

end after

namespace Ldk

variable {D : Deployment} {h : History Api}

/-! ### Submission and lookup -/

/-- The submission is an event that carries the send and the amount the node was told. -/
theorem submit_meets {send : LightningSend} (hg : SubmitGround D h send) :
    Meets D anyEvent (submit send)
      (fun id h' => ∃ amountMsat, ldkEvent (.submit send amountMsat) id ∈ h') h := by
  refine Act.Spec.bind Meets.ofExcept_eq ?_
  rintro amountMsat _ - ⟨-, rfl⟩
  exact Meets.ldk hg (fun _ => trivial) fun _ => ⟨amountMsat, List.mem_cons_self⟩

/-- A page adds to what was found only a payment that is valid for the send. -/
theorem foldlM_scanPayment {send : LightningSend} {ps : List Payment} {found found' : Option Payment}
    (hf : ps.foldlM (scanPayment D send) found = .ok found') :
    found' = found ∨ ∃ p ∈ ps, found' = some p ∧ validateSendPayment D send p = .ok () := by
  induction ps generalizing found with
  | nil => exact .inl (Except.ok.inj hf).symm
  | cons p ps ih =>
      rw [List.foldlM_cons] at hf
      rcases hv : validateSendPayment D send p with e | ⟨⟩
      · have hscan : scanPayment D send found p = .ok found := by simp [scanPayment, hv]
        rw [hscan] at hf
        exact (ih hf).imp_right fun ⟨p', hp', h'⟩ => ⟨p', List.mem_cons_of_mem _ hp', h'⟩
      · rcases found with - | p₀
        · have hscan : scanPayment D send none p = .ok (some p) := by simp [scanPayment, hv]
          rw [hscan] at hf
          rcases ih hf with rfl | ⟨p', hp', h'⟩
          · exact .inr ⟨p, List.mem_cons_self, rfl, hv⟩
          · exact .inr ⟨p', List.mem_cons_of_mem _ hp', h'⟩
        · have hscan : scanPayment D send (some p₀) p =
              .error "multiple LDK payments match one intent" := by simp [scanPayment, hv]
          rw [hscan] at hf
          simp [bind, Except.bind] at hf

/-- The payment found, if any, is one LDK reported and one that passes the checks. -/
def Found (D : Deployment) (send : LightningSend) (o : Option Payment) (h : History Api) : Prop :=
  ∀ p, o = some p → KnownPayment h p ∧ validateSendPayment D send p = .ok ()

/-- By induction on the bound, with what the pages before have found. -/
theorem lookupPages_meets {send : LightningSend} {n : Nat} {token : Option String}
    {found : Option Payment} (hf : Found D send found h) :
    Meets D anyEvent (lookupPages D send n token found) (Found D send) h := by
  induction n generalizing h token found with
  | zero => exact Act.Spec.throw
  | succ n ih =>
      refine Act.Spec.bind (Meets.ldk_eq (.listPayments token) trivial fun _ => trivial) ?_
      rintro page _ - rfl
      refine Act.Spec.bind Meets.ofExcept_eq ?_
      rintro found' _ - ⟨hscan, rfl⟩
      have hfound : Found D send found' (ldkEvent (.listPayments token) page :: h) := by
        intro p hp
        rcases foldlM_scanPayment hscan with rfl | ⟨p', hp', rfl, hv⟩
        · exact ⟨(hf p hp).1.after (Extends.one (q := anyEvent) trivial), (hf p hp).2⟩
        · obtain rfl := Option.some.inj hp
          exact ⟨.listed token page List.mem_cons_self hp', hv⟩
      rcases page.2 with - | token'
      · exact Act.Spec.pure hfound
      · exact ih hfound

/-- Whatever way it was found, the payment is one the node reported for the send. -/
theorem lookup_meets (send : LightningSend) :
    Meets D anyEvent (lookup D send) (Found D send) h := by
  unfold lookup
  rcases lookupId send with - | id
  · exact lookupPages_meets fun p hp => by simp at hp
  · refine Act.Spec.bind (Meets.ldk_eq (.getPaymentDetails id) trivial fun _ => trivial) ?_
    rintro o _ - rfl
    rcases o with - | p
    · exact Act.Spec.pure fun p hp => by simp at hp
    · refine Act.Spec.bind Meets.ofExcept_eq ?_
      rintro _ _ - ⟨hv, rfl⟩
      refine Act.Spec.pure fun p' hp' => ?_
      obtain rfl := Option.some.inj hp'
      exact ⟨.asked id List.mem_cons_self, hv⟩

/-- A payment that is found is bound to the send it is valid for. -/
theorem recoverSubmission_meets {send : LightningSend} (hk : KnownSend h send) :
    Meets D anyEvent (recoverSubmission D send) (fun _ _ => True) h := by
  refine Act.Spec.bind (lookup_meets send) fun o h₁ he₁ ho => ?_
  rcases o with - | p
  · exact Act.Spec.pure trivial
  · refine Act.Spec.bind Meets.ofExcept_eq ?_
    rintro _ _ - ⟨hv, rfl⟩
    refine Act.Spec.bind (Meets.db_any ?_ fun _ => trivial) fun _ _ _ _ => Act.Spec.pure trivial
    exact .recovered send p (hk.after he₁) (ho p rfl).1 hv rfl rfl

/-- A payment the node does not know is submitted again, with the cap checked. -/
theorem retryMissingBolt11_meets {send : LightningSend} (hk : KnownSend h send)
    (hr : isOffer send.invoice = false → RouteChecked D h send) :
    Meets D anyEvent (retryMissingBolt11 D send) (fun _ _ => True) h := by
  unfold retryMissingBolt11
  refine Meets.guard fun hc => ?_
  push Not at hc
  obtain ⟨hkind, hstatus, hid⟩ := hc
  have hg : SubmitGround D h send :=
    ⟨hk, hr, hk.armed ⟨hstatus, by simpa using hid⟩, fun hb => by simp [hb] at hkind⟩
  refine Act.Spec.bind (submit_meets hg).attempt fun r h₁ he₁ hr => ?_
  rcases r with e | id
  · refine Act.Spec.bind (recoverSubmission_meets (hk.after he₁)) fun o h₂ _ _ => ?_
    exact Meets.ite (fun _ => Meets.db_any trivial fun _ => trivial) fun _ => Act.Spec.pure trivial
  · obtain ⟨amountMsat, hmem⟩ := hr id rfl
    exact Meets.db_any (.submitted send amountMsat hmem rfl (hk.after he₁)) fun _ => trivial

/-- The intent is written before the submission and bound after it. -/
theorem submitDurableSend_meets {send : LightningSend} (hk : KnownSend h send)
    (hr : isOffer send.invoice = false → RouteChecked D h send) :
    Meets D anyEvent (submitDurableSend send) (fun _ _ => True) h := by
  refine Act.Spec.bind (Meets.db_eq (.beginLightningSubmission send.requestId) trivial
    fun _ => trivial) ?_
  rintro begun _ he rfl
  refine Meets.ite (fun hb => ?_) fun _ => Act.Spec.pure trivial
  subst hb
  have hg : SubmitGround D (dbEvent (.beginLightningSubmission send.requestId) true :: h) send :=
    ⟨hk.after he, fun ho => (hr ho).after (.one ⟨_, rfl⟩), ⟨_, List.mem_cons_self, .begun⟩,
      fun _ => ⟨h, rfl⟩⟩
  refine Act.Spec.bind (submit_meets hg).attempt fun r h₁ he₁ hr => ?_
  rcases r with e | id
  · exact Meets.db_any trivial fun _ => trivial
  · obtain ⟨amountMsat, hmem⟩ := hr id rfl
    exact Meets.db_any (.submitted send amountMsat hmem rfl ((hk.after he).after he₁))
      fun _ => trivial

/-! ### Receives -/

/-- An attempt is failed on the ground that it cannot be paid out. -/
theorem failReceive_meets {id : String} {delays : List Nat} (hg : FailGround h id) :
    Meets D (Keeps []) ((failReceive id).retryBounded delays) (fun _ _ => True) h := by
  refine Meets.retryBounded (fun h' he => ?_) (fun _ _ _ => rfl) fun _ _ _ _ _ => trivial
  exact Meets.mapErr (Meets.ldk (hg.after he) (fun _ _ _ => rfl) fun _ => trivial)

/-- The row is marked first, and the attempt is failed after. -/
theorem failUnfundedReceive_meets {payment : ClaimableReceive} {delays : List Nat}
    (hg : FailGround h payment.paymentId) (hw : WriteGround h payment.paymentHash)
    (hf : FailedWrite h payment.paymentHash) :
    Meets D (Keeps []) (failUnfundedReceive payment delays) (fun _ _ => True) h := by
  refine Act.Spec.bind (failReceive_meets hg).attempt fun r h₁ he₁ _ => ?_
  rcases r with e | ⟨⟩
  · exact Act.Spec.pure trivial
  · exact Act.Spec.bind (Meets.db_any (c := .setReceiveStatus payment.paymentHash .htlcFailed)
      ⟨hw.after (he₁.mono fun _ => Keeps.widen _), hf.after (he₁.mono fun _ => Keeps.widen _)⟩
      fun _ _ _ => rfl).attempt fun _ _ _ _ => Act.Spec.pure trivial

/-- A swap that comes back with a transfer has executed the payout. -/
theorem swapReceive_meets {hash : String} {r : LightningReceive} {delays : List Nat}
    (hp : Spark.Payable D h hash r) :
    Meets D (Keeps [.swaps])
      ((swapReceive D true r.receiver hash r.invoice r.amountSats).retryBounded delays)
      (fun swap h' => Executed D h' swap.transferId r.receiver r.amountSats) h := by
  refine Meets.retryBounded (fun h' he => ?_) (fun _ _ _ => rfl) ?_
  · exact Spark.swapForLightningReceive_meets (hp.after he)
  · exact fun swap x h' _ hx => hx.after (Extends.one (q := anyEvent) trivial)

/-- The payout of a claimable receive ends with a stored preimage, or in an error. -/
theorem fundReceive_meets {payment : ClaimableReceive} {r : LightningReceive} {delays : List Nat}
    (hp : Spark.Payable D h payment.paymentHash r)
    (ha : KnownAttempt h payment.paymentId payment.paymentHash)
    (hw : WriteGround h payment.paymentHash) (hf : FailedWrite h payment.paymentHash) :
    Meets D (Keeps [.swaps, .payout]) (fundReceive D payment r delays)
      (fun o h' => ∃ preimage transferId, o = some preimage ∧
        dbEvent (.commitLightningReceiveSwap payment.paymentHash transferId preimage r.requestId
          r.owner) () ∈ h') h := by
  have hq : ∀ e : Event Api, Keeps [.swaps] e → Keeps [.swaps, .payout] e :=
    fun e => Keeps.mono (by decide)
  refine Act.Spec.bind ((swapReceive_meets hp).attempt.mono hq
    fun _ _ he hr => And.intro he hr) fun o h₁ _ ho => ?_
  obtain ⟨he₁, ho⟩ := ho
  have hp₁ := hp.after he₁
  have hw₁ := hw.after (he₁.mono hq)
  -- the swap has failed: the receive is marked, and failed at the node only if the failure is
  -- definitive
  rcases o with e | swap
  · refine Act.Spec.bind (Meets.mark (m := .swapFailed payment.paymentHash e)
      (R := fun _ h' => h' = markEvent (.swapFailed payment.paymentHash e) :: h₁) hp₁.holds
      (fun _ _ => rfl) rfl) ?_
    rintro _ _ - rfl
    have he₂ : Extends (Keeps [.swaps]) h₁ (markEvent (.swapFailed payment.paymentHash e) :: h₁) :=
      .one fun _ _ => rfl
    have hw₂ := hw₁.after (he₂.mono hq)
    refine Act.Spec.bind (Meets.db_eq (.setReceiveStatus payment.paymentHash
      .transferCreationFailed) ⟨hw₂, trivial⟩ fun _ _ _ => rfl) ?_
    rintro _ _ - rfl
    have he₃ : Extends (Keeps [.swaps]) (markEvent (.swapFailed payment.paymentHash e) :: h₁)
        (dbEvent (.setReceiveStatus payment.paymentHash .transferCreationFailed) () ::
          markEvent (.swapFailed payment.paymentHash e) :: h₁) := .one fun _ _ => rfl
    refine Meets.ite (fun hd => ?_) fun _ => Act.Spec.throw
    refine Act.Spec.bind ((failUnfundedReceive_meets ?_ (hw₂.after (he₃.mono hq))
      (hf.after ((he₁.trans he₂).trans he₃))).weaken Keeps.widen) fun _ _ _ _ => Act.Spec.throw
    refine .swapFailed payment.paymentHash e (((ha.after he₁).after he₂).after he₃) ?_ ?_ hd
    · exact .cons (.cons hp₁.holds nofun) nofun
    · exact .cons .here rfl
  · dsimp only
    -- the swap was made: its preimage is checked before anything is stored
    rcases hv : validatePreimage payment.paymentHash swap.preimage with e | ⟨⟩
    · exact Act.Spec.bind (Meets.db_any ⟨hw₁, trivial⟩ fun _ _ _ => rfl)
        fun _ _ _ _ => Act.Spec.throw
    · refine Act.Spec.bind (Meets.db_eq (.commitLightningReceiveSwap payment.paymentHash
        swap.transferId swap.preimage r.requestId r.owner)
        ⟨hp₁.holds, hv, hw₁, r, hp₁.row.read.mem, rfl, rfl, ho swap rfl⟩ ?_) ?_
      · intro _ p hp
        cases p with
        | payout => simp at hp
        | bound => rfl
        | swaps => rfl
        | reservation => rfl
      · rintro _ _ - rfl
        exact Act.Spec.pure ⟨swap.preimage, swap.transferId, rfl, List.mem_cons_self⟩

/-- An attempt is claimed with the preimage, once its payout is known. -/
theorem claimReceive_meets {id hash preimage : String} {msat : Nat} {r : LightningReceive}
    {delays : List Nat} (hg : ClaimGround h id msat preimage hash r) :
    Meets D (Keeps []) ((claimReceive id msat preimage).retryBounded delays)
      (fun _ _ => True) h := by
  refine Meets.retryBounded (fun h' he => ?_) (fun _ _ _ => rfl) fun _ _ _ _ _ => trivial
  exact Meets.mapErr (Meets.ldk ⟨hash, r, hg.after he⟩ (fun _ _ _ => rfl) fun _ => trivial)

/-- The end of a standard receive: the attempt is bound, and the preimage, if there is one,
is the stored one. -/
theorem claimStored_meets {id hash : String} {msat : Nat} {r : LightningReceive}
    {preimage : Option String} {delays : List Nat}
    (hread : dbEvent (.lightningReceiveForHash hash) (some r) ∈ h)
    (hbound : dbEvent (.markReceiveClaimable hash id msat) () ∈ h)
    (hamount : checkedMul r.amountSats 1000 = some msat)
    (hstored : ∀ x, preimage = some x → (r.transferId ≠ none ∧ r.preimage = some x) ∨
      ∃ transferId, dbEvent (.commitLightningReceiveSwap hash transferId x r.requestId
        r.owner) () ∈ h) (hw : WriteGround h hash) :
    Meets D anyEvent (if r.claimSubmitted then pure true else do
      let preimage ← Ssp.ofExcept (okOr "committed Spark receive has no preimage" preimage)
      Ssp.ofExcept (validatePreimage hash preimage)
      Ssp.retryBounded (claimReceive id msat preimage) delays
      Ssp.db (.markReceiveClaimSubmitted hash)
      return true) (fun _ _ => True) h := by
  refine Meets.ite (fun _ => Act.Spec.pure trivial) fun _ => ?_
  refine Act.Spec.bind Meets.ofExcept_eq ?_
  rintro x h₁ - ⟨hx, rfl⟩
  refine Act.Spec.bind Meets.ofExcept_eq ?_
  rintro _ h₂ - ⟨hv, rfl⟩
  have hg : ClaimGround h₂ id msat x hash r :=
    ⟨hread, hbound, hamount, hv, hstored x (okOr_eq_ok.mp hx)⟩
  refine Act.Spec.bind ((claimReceive_meets hg).mono (fun _ _ => trivial)
    fun _ _ he _ => he) fun _ h₃ _ he₃ => ?_
  exact Act.Spec.bind (Meets.db_any (c := .markReceiveClaimSubmitted hash)
    (hw.after (he₃.mono fun _ => Keeps.widen _)) fun _ => trivial)
    fun _ _ _ _ => Act.Spec.pure trivial

/-- The attempt is checked, bound, paid out and claimed in this order; the cases are those of the
row that is read and of the transfers that are found. -/
theorem processStandardReceive_meets {payment : ClaimableReceive} {delays : List Nat}
    (hrep : ReportedReceive h payment) :
    Meets D anyEvent (processStandardReceive D payment delays) (fun _ _ => True) h := by
  refine Meets.locked ?_ (fun _ => trivial) (fun _ => trivial) fun _ _ _ _ _ => trivial
  obtain ⟨id, hash, amount⟩ := payment
  have hholds : Holds .receive (⟨Call.acquire .receive false, Except.ok ()⟩ :: h) :=
    ⟨false, Since.here⟩
  refine Act.Spec.bind (Meets.mark (m := .attempt id hash)
    (R := fun _ h' => h' = markEvent (.attempt id hash) :: _) trivial trivial rfl) ?_
  rintro _ _ - rfl
  have hholds₀ := hholds.cons (x := markEvent (.attempt id hash)) nofun
  replace hrep := hrep.after (.cons (.one (q := anyEvent)
    (x := ⟨Call.acquire .receive false, Except.ok ()⟩) trivial)
    (x := markEvent (.attempt id hash)) trivial)
  have ha : KnownAttempt _ id hash := ⟨_, hrep, rfl, rfl⟩
  have hwork : Latest (markEvent (.attempt id hash) ::
      ⟨Call.acquire .receive false, Except.ok ()⟩ :: h) (markEvent (.attempt id hash)) := .here
  refine Act.Spec.bind (Meets.db_eq (.internalSend hash) trivial fun _ => trivial) ?_
  rintro payer _ he₁ rfl
  refine Meets.ite (fun hp => ?_) fun hp => ?_
  · -- a local payer has the receive
    obtain ⟨payer, rfl⟩ := Option.isSome_iff_exists.mp hp
    exact Act.Spec.bind ((failReceive_meets (.reserved hash payer (ha.after he₁)
      List.mem_cons_self)).weaken fun _ _ => trivial) fun _ _ _ _ => Act.Spec.pure trivial
  obtain rfl : payer = none := by simpa using hp
  refine Act.Spec.bind (Meets.db_eq (.lightningReceiveForHash hash) trivial fun _ => trivial) ?_
  rintro row _ he₂ rfl
  have ha₂ := (ha.after he₁).after he₂
  have hholds₂ := (hholds₀.cons (x := dbEvent (.internalSend hash) none) nofun).cons
    (x := dbEvent (.lightningReceiveForHash hash) row) nofun
  have hwork₂ := (hwork.cons (x := dbEvent (.internalSend hash) none) rfl).cons
    (x := dbEvent (.lightningReceiveForHash hash) row) rfl
  rcases row with - | r
  · exact Act.Spec.bind ((failReceive_meets (.unknown hash ha₂ hholds₂ Since.here)).weaken
      fun _ _ => trivial) fun _ _ _ _ => Act.Spec.pure trivial
  refine Act.Spec.bind (Meets.mark (m := .claimable ⟨id, hash, amount⟩ r)
    (R := fun _ h' => h' = markEvent (.claimable ⟨id, hash, amount⟩ r) :: _)
    ⟨hholds₂, ha₂, .cons .here rfl, .here, .here⟩ trivial rfl) ?_
  rintro _ _ he₃ rfl
  have ha₃ := ha₂.after he₃
  have hholds₃ := hholds₂.cons (x := markEvent (.claimable ⟨id, hash, amount⟩ r)) nofun
  have hwork₃ := hwork₂.cons (x := markEvent (.claimable ⟨id, hash, amount⟩ r)) rfl
  refine Meets.ite (fun hr => ?_) fun hr => ?_
  · exact Act.Spec.bind ((failReceive_meets (.rejected ⟨id, hash, amount⟩ r rfl ha₃ hholds₃
      (.cons .here rfl) .here hr)).weaken fun _ _ => trivial)
      fun _ _ _ _ => Act.Spec.pure trivial
  refine Meets.ite (fun _ => Act.Spec.pure trivial) fun hopen => ?_
  refine Act.Spec.bind Meets.ofExcept_eq ?_
  rintro expected _ - ⟨hexp, rfl⟩
  refine Act.Spec.bind Meets.ofExcept_eq ?_
  rintro actual _ - ⟨hact, rfl⟩
  replace hexp := okOr_eq_ok.mp hexp
  replace hact : amount = some actual := okOr_eq_ok.mp hact
  refine Act.Spec.bind (Meets.db_eq (.markReceiveClaimable hash id actual)
    ⟨hholds₃, ⟨_, ((hrep.after he₁).after he₂).after he₃, rfl, rfl, hact⟩,
      .cons (.cons .here rfl) rfl, hwork₃, r,
      List.mem_cons_of_mem _ List.mem_cons_self⟩ fun _ => trivial) ?_
  rintro ⟨⟩ _ he₄ rfl
  have ha₄ := ha₃.after he₄
  have hholds₄ := hholds₃.cons (x := dbEvent (.markReceiveClaimable hash id actual) ()) nofun
  have hwrite₄ : WriteGround _ hash := .bound id actual
    (hwork₃.cons (x := dbEvent (.markReceiveClaimable hash id actual) ()) rfl) hholds₄ .here
    (.cons (.cons (.cons .here rfl) rfl) rfl)
  have hfailed : ∀ why, FailedWrite _ hash := fun why =>
    .attempt ⟨id, hash, amount⟩ r rfl hholds₄ (.cons .here rfl) (by simpa using hr) hopen why
  refine Meets.ite (fun hne => ?_) fun heq => ?_
  · have hdiffers : wrongAmount ⟨id, hash, amount⟩ r = true := by
      simpa [wrongAmount, hact, hexp] using hne
    exact Act.Spec.bind ((failUnfundedReceive_meets (.wrongAmount ⟨id, hash, amount⟩ r rfl ha₄
      hholds₄ (.cons .here rfl) (by simpa using hr) hopen hdiffers) hwrite₄
      (hfailed (.inl hdiffers))).weaken fun _ _ => trivial) fun _ _ _ _ => Act.Spec.throw
  obtain rfl : actual = expected := not_not.mp heq
  refine Meets.ite (fun hunpaid => ?_) fun hpaid => ?_
  · simp only [Option.isNone_iff_eq_none] at hunpaid
    refine Act.Spec.bind ((fundReceive_meets ⟨hholds₄, ⟨.cons (.cons .here rfl) rfl, hunpaid⟩,
      .attempt id actual hexp .here⟩ ha₄ hwrite₄ (hfailed (.inr hunpaid))).mono
      (fun _ _ => trivial) fun _ _ he ho => And.intro he ho) fun o h₅ _ ho => ?_
    obtain ⟨he₅, preimage, transferId, rfl, hm⟩ := ho
    refine claimStored_meets (he₅.mem (by simp)) (he₅.mem (by simp)) hexp (fun x hx => ?_)
      (hwrite₄.after he₅)
    obtain rfl := Option.some.inj hx
    exact .inr ⟨transferId, hm⟩
  · simp only [Option.isNone_iff_eq_none, not_or] at hpaid
    exact claimStored_meets (by simp) (by simp) hexp (fun x hx => .inl ⟨hpaid.1, hx⟩) hwrite₄

/-- Settle a local send: the guard is held throughout, the reservation is made first, and
the sender's funding is verified before the payout and settled before the send succeeds. -/
theorem processInternalSend_meets {send : LightningSend} (hk : KnownSend h send)
    (hl : Local h send) : Meets D anyEvent (processInternalSend D send) (fun _ _ => True) h := by
  refine Meets.locked ?_ (fun _ => trivial) (fun _ => trivial) fun _ _ _ _ _ => trivial
  refine Act.Spec.bind (Meets.mark (m := .internal send)
    (R := fun _ h' => h' = markEvent (.internal send) :: _) trivial trivial rfl) ?_
  rintro _ _ - rfl
  have he₀ : Extends anyEvent h
      (markEvent (.internal send) :: ⟨Call.acquire .receive false, Except.ok ()⟩ :: h) :=
    .cons (.one trivial) trivial
  have hholds : Holds .receive
      (markEvent (.internal send) :: ⟨Call.acquire .receive false, Except.ok ()⟩ :: h) :=
    ⟨false, .cons .here nofun⟩
  have hwork : Latest
      (markEvent (.internal send) :: ⟨Call.acquire .receive false, Except.ok ()⟩ :: h)
      (markEvent (.internal send)) := .here
  refine Act.Spec.bind (Meets.db_eq (.paymentStatus send.requestId) trivial fun _ => trivial) ?_
  rintro status _ he₁ rfl
  refine Meets.ite (fun _ => Act.Spec.pure trivial) fun _ => ?_
  have he₁ := he₀.trans he₁
  have hholds₁ := hholds.cons (x := dbEvent (.paymentStatus send.requestId) status) nofun
  have hwork₁ := hwork.cons (x := dbEvent (.paymentStatus send.requestId) status) rfl
  refine Act.Spec.bind (Meets.db_eq (.reserveInternalSend send)
    ⟨hholds₁, hk.after he₁⟩ fun _ => trivial).attempt fun r h₂ he₂ hr => ?_
  rcases r with e | ⟨⟩
  · refine Act.Spec.bind (Meets.db_any (c := .setPayment send.requestId .failed) ?_
      fun _ => trivial) fun _ _ _ _ => Act.Spec.throw
    exact .internal send (hk.after (he₁.trans he₂)) (hl.after (he₁.trans he₂)) rfl
  obtain rfl := hr () rfl
  refine Act.Spec.bind (Meets.db_eq (.lightningReceiveForHash send.expectedId) trivial
    fun _ => trivial) ?_
  rintro row _ he₃ rfl
  have he₃ := (he₁.trans he₂).trans he₃
  refine Act.Spec.bind Meets.ofExcept_eq ?_
  rintro r _ - ⟨hrow, rfl⟩
  obtain rfl := okOr_eq_ok.mp hrow
  have hwork₃ := (hwork₁.cons (x := dbEvent (.reserveInternalSend send) ()) rfl).cons
    (x := dbEvent (.lightningReceiveForHash send.expectedId) (some r)) rfl
  have hwrite₃ : WriteGround _ send.expectedId := .reserved send hwork₃ rfl (by simp)
  -- both branches settle with the preimage they have
  have hsettle : ∀ preimage h', Extends anyEvent h h' → WriteGround h' send.expectedId →
      Meets D anyEvent (do
      Ssp.ofExcept (validatePreimage send.expectedId preimage)
      settleSender send preimage
      Ssp.db (.finishInternalSend send)) (fun _ _ => True) h' := by
    intro preimage h' he hw
    refine Act.Spec.bind Meets.ofExcept_eq ?_
    rintro _ h₁ - ⟨-, rfl⟩
    refine Act.Spec.bind ((Spark.settleLightningSend_meets send.outboundTransferId
      send.expectedId preimage).mono (fun _ _ => trivial) fun _ _ he hs => And.intro he hs)
      fun _ h₂ he' hs => ?_
    obtain ⟨hkeeps, hs⟩ := hs
    exact Meets.db_any ⟨hk.after (he.trans he'), hl.after (he.trans he'), hs,
      hw.after (hkeeps.mono fun _ => Keeps.widen _)⟩ fun _ => trivial
  rcases hp : r.preimage with - | preimage
  · refine Act.Spec.bind (R := fun _ h' => Extends anyEvent h h' ∧
      WriteGround h' send.expectedId ∧ Spark.Payable D h' send.expectedId r) ?_
      fun _ h₄ _ hpay => ?_
    · refine Act.Spec.bind (R := fun _ h' => Extends anyEvent h h' ∧
        WriteGround h' send.expectedId ∧ Spark.Payable D h' send.expectedId r) ?_
        fun _ h₄ _ hpay => Act.Spec.pure hpay
      refine (Spark.verifyLightningSend_meets send.owner send.outboundTransferId send.expectedId
        send.amountSats).mono (fun _ _ => trivial) fun _ h₄ he₄ hv => ?_
      obtain ⟨items, q, t, now, hh₄, hverified⟩ := hv
      have hq : Spark.QueriedHtlc h₄ send.outboundTransferId send.expectedId items := by
        rw [hh₄]
        exact Spark.queriedHtlc_clock
      have hfunds := hverified.funds
      have he₄' : Extends anyEvent _ h₄ := he₄.mono fun _ _ => trivial
      have hquiet : ∀ p, Extends (Quiet p) _ h₄ := fun p =>
        he₄.mono fun _ => Keeps.quiet (by simp)
      refine ⟨he₃.trans he₄', hwrite₃.after (he₄.mono fun _ => Keeps.widen _),
        .after ?_ (hquiet .bound), ⟨.after .here (hquiet .payout), .inr hp⟩, ?_⟩
      · exact .cons (.cons hholds₁ nofun) nofun
      · have hres : Since (Quiet .bound) (dbEvent (.reserveInternalSend send) ())
            (dbEvent (.lightningReceiveForHash send.expectedId) (some r) ::
              dbEvent (.reserveInternalSend send) () ::
              dbEvent (.paymentStatus send.requestId) status :: markEvent (.internal send) ::
              ⟨Call.acquire .receive false, Except.ok ()⟩ :: h) := .cons .here rfl
        exact .reservation send ((hk.after he₃).after he₄') (hres.after (hquiet .bound)) rfl items
          q t (hq.mono fun _ => Keeps.quiet (by simp)) hfunds
    · obtain ⟨he₄, hw₄, hpay⟩ := hpay
      refine Act.Spec.bind ((Spark.swapForLightningReceive_meets hpay).mono (fun _ _ => trivial)
        fun _ _ he hx => And.intro he hx) fun swap h₅ _ hx => ?_
      obtain ⟨he₅, hx⟩ := hx
      have hpay₅ := hpay.after he₅
      have hw₅ := hw₄.after (he₅.mono fun _ => Keeps.mono (by decide))
      have he₅ := he₄.trans (he₅.mono fun _ _ => trivial)
      refine Act.Spec.bind Meets.ofExcept_eq ?_
      rintro _ h₆ - ⟨hv, rfl⟩
      refine Act.Spec.bind (Meets.db_eq (.commitLightningReceiveSwap send.expectedId
        swap.transferId swap.preimage r.requestId r.owner)
        ⟨hpay₅.holds, hv, hw₅, r, hpay₅.row.read.mem, rfl, rfl, hx⟩ fun _ => trivial) ?_
      rintro _ _ he₇ rfl
      refine hsettle swap.preimage _ (he₅.trans he₇) (hw₅.after (.one fun p hp => ?_))
      cases p with
      | payout => simp at hp
      | bound => rfl
      | swaps => rfl
      | reservation => rfl
  · exact hsettle preimage _ he₃ hwrite₃

/-! ### Preparing and driving sends -/

/-- What the funding check of a send has seen. -/
structure FundingSeen (D : Deployment) (h : History Api) (owner outbound invoice : String)
    (amount cltv : Option Nat) : Prop where
  route : ∀ send : LightningSend, send.owner = owner → send.outboundTransferId = outbound →
    send.invoice = invoice → send.amountOverride = amount → send.maxRouteCltv = cltv →
    isOffer invoice = false → RouteChecked D h send
  offer : isOffer invoice = true → ∃ sats u t, amount = some sats ∧
    sparkEvent (.getTransfer u) (some t) ∈ h ∧ FundsBolt12 D owner outbound sats u t
  invoice : ∀ i, isOffer invoice = false → D.parseInvoice invoice = .ok i →
    ∃ sats items q t,
      sparkEvent (.queryHtlc outbound (lowercase i.paymentHash.text) .receiver) items ∈ h ∧
      FundsBolt11 D owner outbound i.paymentHash.text sats items q t

/-- What is returned is the cap for a funding that was seen. -/
theorem verifyLightningSendFunding_meets (owner outbound invoice : String)
    (amount : Option Nat) :
    Meets D anyEvent (verifyLightningSendFunding D owner outbound invoice amount)
      (fun cltv h' => FundingSeen D h' owner outbound invoice amount cltv) h := by
  unfold verifyLightningSendFunding
  refine Meets.ite (fun ho => ?_) fun ho => ?_
  · refine Act.Spec.bind Meets.ofExcept_eq ?_
    rintro sats h₁ - ⟨hsats, rfl⟩
    refine Meets.guard fun _ => ?_
    refine Act.Spec.bind ((Spark.verifyBolt12Send_meets owner outbound sats).mono
      (fun _ _ => trivial) fun _ _ _ hr => hr) fun _ h₂ _ hr => ?_
    obtain ⟨u, t, hm, hf⟩ := hr
    exact Act.Spec.pure ⟨fun _ _ _ _ _ _ hno => by simp [ho] at hno,
      fun _ => ⟨sats, u, t, okOr_eq_ok.mp hsats, hm, hf⟩, fun _ hno => by simp [ho] at hno⟩
  · refine Act.Spec.bind Meets.ofExcept_eq ?_
    rintro decoded h₁ - ⟨hdec, rfl⟩
    have hparse : D.parseInvoice invoice = .ok decoded := by
      rcases hp : D.parseInvoice invoice with e | i
      · simp [hp, Except.mapError] at hdec
      · rw [hp] at hdec
        exact hdec
    -- the amount only decides what the transfer is compared with
    have hverify : ∀ (msat : Nat) h,
        decoded.amountMilliSatoshis.or (amount.map (· * 1000)) = some msat → Meets D anyEvent (do
        let rounded ← Ssp.ofExcept (okOr "invoice amount is too large" (checkedAdd msat 999))
        let totalSats := rounded / 1000
        if totalSats = 0 then throw "Lightning send amount must be positive"
        return some (← Spark.verifyLightningSend D owner outbound decoded.paymentHash.text
          totalSats)) (fun cltv h' => FundingSeen D h' owner outbound invoice amount cltv) h := by
      intro msat h hmsat
      refine Act.Spec.bind Meets.ofExcept_eq ?_
      rintro rounded h₂ - ⟨hrounded, rfl⟩
      obtain ⟨rfl, -⟩ := checkedAdd_eq_some (okOr_eq_ok.mp hrounded)
      refine Meets.guard fun _ => ?_
      refine Act.Spec.bind ((Spark.verifyLightningSend_meets owner outbound
        decoded.paymentHash.text _).mono (fun _ _ => trivial) fun _ _ _ hr => hr)
        fun cap h₃ _ hr => ?_
      obtain ⟨items, q, t, now, rfl, hv⟩ := hr
      refine Act.Spec.pure ⟨?_, fun hof => absurd hof ho, fun i _ hi => ?_⟩
      · rintro send rfl rfl rfl rfl hcltv -
        exact .verified decoded _ cap items q t now _ hparse (by rw [fundingSats, hmsat]; rfl) hv
          hcltv (.refl _)
      · obtain rfl := Except.ok.inj (hparse.symm.trans hi)
        exact ⟨_, items, q, t, List.mem_cons_of_mem _ List.mem_cons_self, hv.funds⟩
    rcases hmsats : decoded.amountMilliSatoshis with - | value
    · refine Act.Spec.bind Meets.ofExcept_eq ?_
      rintro sats h₂ - ⟨hsats, rfl⟩
      refine Act.Spec.bind Meets.ofExcept_eq ?_
      rintro msat h₃ - ⟨hmsat, rfl⟩
      obtain ⟨rfl, -⟩ := checkedMul_eq_some (okOr_eq_ok.mp hmsat)
      refine hverify _ h₃ ?_
      rw [hmsats, okOr_eq_ok.mp hsats]
      rfl
    · refine Meets.guard fun _ => ?_
      exact Act.Spec.bind (R := fun msat _ => msat = value) (Act.Spec.pure rfl)
        fun msat h₂ _ hmsat => hverify msat h₂ (by rw [hmsats, hmsat]; rfl)

/-- What decoding says about a send's identity. -/
theorem decodeSend_meets (invoice : String) (amount : Option Nat) :
    Meets D anyEvent (decodeSend D invoice amount)
      (fun r h' => (r.1 = .bolt12 ∧ isOffer invoice = true ∧
          ldkEvent (.offerId invoice) r.2.1 ∈ h' ∧ amount = some r.2.2) ∨
        (r.1 = .bolt11 ∧ isOffer invoice = false ∧
          ∃ i, D.parseInvoice invoice = .ok i ∧ r.2.1 = i.paymentHash.text)) h := by
  unfold decodeSend
  refine Meets.ite (fun ho => ?_) fun ho => ?_
  · refine Act.Spec.bind (Meets.ldk_eq (.offerId invoice) trivial fun _ => trivial) ?_
    rintro offerId _ - rfl
    refine Act.Spec.bind Meets.ofExcept_eq ?_
    rintro total _ - ⟨htotal, rfl⟩
    exact Act.Spec.pure (.inl ⟨rfl, ho, List.mem_cons_self, okOr_eq_ok.mp htotal⟩)
  · refine Act.Spec.bind Meets.ofExcept_eq ?_
    rintro decoded h₁ - ⟨hparse, rfl⟩
    refine Meets.guard fun _ => ?_
    refine Act.Spec.bind (Meets.tell_any trivial fun _ => trivial) fun now h₂ _ _ => ?_
    refine Meets.guard fun _ => ?_
    refine Act.Spec.bind Meets.ofExcept_eq ?_
    rintro sats h₃ - ⟨-, rfl⟩
    exact Act.Spec.pure (.inr ⟨rfl, by simpa using ho, decoded, hparse, rfl⟩)

/-- The intent asks for what the request does, and its funding was verified. -/
theorem prepareSend_meets (owner transfer invoice : String) (amount : Option Nat) :
    Meets D anyEvent (prepareSend D owner transfer invoice amount)
      (fun send h' => Funded D h' send ∧ send.Requests owner transfer invoice amount) h := by
  unfold prepareSend
  refine Meets.guard fun _ => ?_
  refine Act.Spec.bind (decodeSend_meets invoice amount) fun r h₁ _ hr => ?_
  obtain ⟨kind, expectedId, total⟩ := r
  refine Act.Spec.bind Meets.ofExcept_eq ?_
  rintro _ h₂ - ⟨-, rfl⟩
  refine Act.Spec.bind (verifyLightningSendFunding_meets owner transfer invoice amount)
    fun cltv h₃ he₃ hf => ?_
  refine Act.Spec.bind (Meets.tell_any trivial fun _ => trivial) fun uuid h₄ he₄ _ => ?_
  refine Act.Spec.pure ⟨?_, rfl, rfl, rfl, rfl⟩
  rcases hr with ⟨rfl, ho, hm, hamount⟩ | ⟨rfl, ho, i, hi, rfl⟩
  · obtain ⟨sats, u, t, hsats, hmem, hfunds⟩ := hf.offer ho
    obtain rfl := Option.some.inj (hamount.symm.trans hsats)
    exact .bolt12 u t uuid rfl ho ((he₃.trans he₄).mem hm) (he₄.mem hmem) hfunds
      ⟨rfl, rfl, rfl⟩
  · obtain ⟨sats, items, q, t, hmem, hfunds⟩ := hf.invoice i ho hi
    exact .bolt11 i items q t uuid rfl hi rfl (he₄.mem hmem) ⟨sats, hfunds⟩ ⟨rfl, rfl, rfl⟩

/-- The refreshed intent carries the cap that the check has just allowed. -/
theorem refreshRouteCltv_meets {send : LightningSend} (hk : KnownSend h send) :
    Meets D anyEvent (refreshRouteCltv D send) (fun send' h' => KnownSend h' send' ∧
      (isOffer send'.invoice = false → RouteChecked D h' send')) h := by
  refine Act.Spec.bind (verifyLightningSendFunding_meets send.owner send.outboundTransferId
    send.invoice send.amountOverride) fun cltv h₁ he₁ hf => ?_
  have hroute := hf.route { send with maxRouteCltv := cltv } rfl rfl rfl rfl rfl
  refine Meets.ite (fun _ => ?_) fun _ =>
    Act.Spec.pure ⟨(hk.after he₁).refreshed cltv, hroute⟩
  refine Act.Spec.bind (Meets.db_eq (.setLightningSendRouteCltv send.requestId cltv) trivial
    fun _ => trivial) ?_
  rintro _ _ he₂ rfl
  exact Act.Spec.pure ⟨(hk.after (he₁.trans he₂)).refreshed cltv,
    fun ho => (hroute ho).after (.one ⟨_, rfl⟩)⟩

/-- An own invoice is settled without the node. -/
theorem submitSend_meets {send : LightningSend} (hk : KnownSend h send) :
    Meets D anyEvent (submitSend D send) (fun _ _ => True) h := by
  refine Act.Spec.bind (Meets.db_eq (.lightningReceiveHashForInvoice send.invoice) trivial
    fun _ => trivial) ?_
  rintro o _ he rfl
  refine Meets.ite (fun hlocal => ?_) fun _ => ?_
  · obtain ⟨hash, rfl⟩ := Option.isSome_iff_exists.mp hlocal
    exact processInternalSend_meets (hk.after he) ⟨hash, List.mem_cons_self⟩
  · refine Meets.ite (fun _ => Act.Spec.pure trivial) fun _ => ?_
    exact Act.Spec.bind (refreshRouteCltv_meets (hk.after he)) fun _ _ _ ⟨hk', hr⟩ =>
      submitDurableSend_meets hk' hr

/-! ### Outcomes of sends -/

/-- The funding of a payment that succeeded is claimed. -/
theorem settleSucceededPayment_meets {payment : Payment} (hp : SucceededPayment h payment) :
    Meets D anyEvent (settleSucceededPayment D payment) (fun _ _ => True) h := by
  refine Act.Spec.bind (Meets.db_eq (.lightningSendForPayment payment.paymentId) trivial
    fun _ => trivial) ?_
  rintro o _ he₁ rfl
  refine Act.Spec.bind Meets.ofExcept_eq ?_
  rintro send h₁ - ⟨ho, rfl⟩
  obtain rfl := okOr_eq_ok.mp ho
  refine Act.Spec.bind Meets.ofExcept_eq ?_
  rintro _ h₂ - ⟨hv, rfl⟩
  -- the last step, once the money side of either kind is done
  have hset : ∀ h', Extends anyEvent
        (dbEvent (.lightningSendForPayment payment.paymentId) (some send) :: h) h' →
      (∀ hash preimage fee, payment.kind = some (.bolt11 hash preimage fee) →
        SettledFunding h' send.outboundTransferId hash) →
      (send.kind = .bolt12 → ProofRecorded h' send) →
      Meets D anyEvent (Ssp.db (.setPayment payment.paymentId .succeeded)) (fun _ _ => True) h' :=
    fun h' he h11 h12 => Meets.db_any ⟨payment, send, hp.after (he₁.trans he), rfl,
      he.mem List.mem_cons_self, hv, h11, h12⟩ fun _ => trivial
  rcases hk : payment.kind with - | ⟨hash, preimage, fee⟩ | ⟨offerId, hash, preimage, note⟩ | -
  · exact Act.Spec.bind (R := fun _ _ => False) Act.Spec.throw fun _ _ _ hf => hf.elim
  · refine Act.Spec.bind Meets.ofExcept_eq ?_
    rintro x h₃ - ⟨-, rfl⟩
    refine Act.Spec.bind ((Spark.settleLightningSend_meets send.outboundTransferId hash x).mono
      (fun _ _ => trivial) fun _ _ _ hs => hs) fun _ h₄ he₄ hs => ?_
    refine hset h₄ he₄ (fun hash' preimage' fee' hk' => ?_) fun h12 => ?_
    · rw [hk] at hk'
      simp only [Option.some.injEq, PaymentKind.bolt11.injEq] at hk'
      rw [← hk'.1]
      exact hs
    · rcases validateSendPayment_kind hv with ⟨h11, -⟩ | ⟨-, o, a, b, c, hk'⟩
      · exact absurd (h11.symm.trans h12) (by decide)
      · rw [hk] at hk'
        simp at hk'
  · refine Meets.guard fun _ => ?_
    refine Act.Spec.bind Meets.ofExcept_eq ?_
    rintro hash' h₃ - ⟨-, rfl⟩
    refine Act.Spec.bind Meets.ofExcept_eq ?_
    rintro preimage' h₄ - ⟨-, rfl⟩
    refine Act.Spec.bind Meets.ofExcept_eq ?_
    rintro _ h₅ - ⟨hvalid, rfl⟩
    refine Act.Spec.bind (Meets.db_eq (.recordLightningProof send.requestId hash' preimage')
      hvalid fun _ => trivial) ?_
    rintro _ _ he₆ rfl
    refine hset _ he₆ (fun a b c hk' => ?_) fun _ => ⟨[], _, hash', preimage',
      .read payment.paymentId send List.mem_cons_self (.refl send), rfl⟩
    rw [hk] at hk'
    simp at hk'
  · exact Act.Spec.bind (R := fun _ _ => False) Act.Spec.throw fun _ _ _ hf => hf.elim

/-- The funding of a payment that failed is given back; for an offer it is refunded. -/
theorem failManagedPayment_meets {id : String} {reason : Option String}
    (hp : FailedPayment h id) :
    Meets D anyEvent (failManagedPayment D id reason) (fun _ _ => True) h := by
  refine Act.Spec.bind (Meets.db_eq (.lightningSendForPayment id) trivial fun _ => trivial) ?_
  rintro o _ he₁ rfl
  rcases o with - | send
  · exact Act.Spec.pure trivial
  refine Meets.ite (fun _ => Act.Spec.pure trivial) fun _ => ?_
  refine Act.Spec.bind (Meets.db_any trivial fun _ => trivial) fun _ h₂ he₂ _ => ?_
  refine Meets.ite (fun _ => Act.Spec.pure trivial) fun _ => ?_
  have hread := he₂.mem (e := dbEvent (.lightningSendForPayment id) (some send))
    List.mem_cons_self
  have hp₂ := (hp.after he₁).after he₂
  refine Meets.ite (fun h12 => ?_) fun h12 => ?_
  · refine Act.Spec.bind (Meets.db_any (c := .setPayment id .refunding) trivial
      fun _ => trivial) fun _ h₃ he₃ _ => ?_
    refine Act.Spec.bind (Spark.refundBolt12Send_meets ⟨id, send, hp₂.after he₃,
      he₃.mem hread, h12, rfl, rfl, rfl⟩) fun _ h₄ he₄ hr => ?_
    exact Meets.db_any (c := .setPayment id .failed) (.payment send
      (hp₂.after (he₃.trans he₄)) ((he₃.trans he₄).mem hread) fun _ => hr) fun _ => trivial
  · exact Meets.db_any (c := .setPayment id .failed) (.payment send hp₂ hread
      fun h => absurd h h12) fun _ => trivial

/-- The text that a status poll falls back to. -/
def cachedText : Except String (Option SendStatus) → String
  | .ok status => statusText status
  | .error _ => ""

variable (D) in
/-- `observePayment` once the stored status is read. -/
def observeCached (paymentId cached : String) : Ssp String := do
  match ← Act.attempt (Ssp.ldk (.getPaymentDetails paymentId)) with
  | .ok (some payment) =>
      match payment.status with
      | .succeeded =>
          if cached = "SUCCEEDED" then return cached
          match ← Act.attempt (settleSucceededPayment D payment) with
          | .ok () => return "SUCCEEDED"
          | .error _ =>
              let _ ← Act.attempt (Ssp.db (.setPayment paymentId .settling))
              return "SETTLING"
      | .failed =>
          match ← Act.attempt (failManagedPayment D payment.paymentId none) with
          | .ok () => return "FAILED"
          | .error _ => return "REFUNDING"
      | .pending => return if cached = "" ∨ cached = "UNKNOWN" then "PENDING" else cached
  | _ => return cached

/-- Observing is reading the cached status, and then what depends on it. -/
theorem observePayment_eq (id : String) : observePayment D id =
    Act.attempt (Ssp.db (.paymentStatus id)) >>= fun r => observeCached D id (cachedText r) := by
  show (_ >>= _) = _
  congr 1
  funext r
  cases r <;> rfl

/-- The node is asked unless the status is final already. -/
theorem observeCached_meets (id cached : String) :
    Meets D anyEvent (observeCached D id cached) (fun _ _ => True) h := by
  refine Act.Spec.bind (Meets.ldk (c := .getPaymentDetails id)
    (R := fun o h' => ∀ p, o = some p → KnownPayment h' p) trivial (fun _ => trivial)
    fun o p hp => .asked id (hp ▸ List.mem_cons_self)).attempt fun o h₂ _ ho => ?_
  rcases o with e | - | payment
  · exact Act.Spec.pure trivial
  · exact Act.Spec.pure trivial
  have hknown := ho _ rfl payment rfl
  rcases hs : payment.status with - | - | -
  · simp only [hs]
    exact Act.Spec.pure trivial
  · simp only [hs]
    refine Meets.ite (fun _ => Act.Spec.pure trivial) fun _ => ?_
    refine Act.Spec.bind (settleSucceededPayment_meets (.known hknown hs)).attempt
      fun r h₃ _ _ => ?_
    rcases r with e | ⟨⟩
    · exact Act.Spec.bind (Meets.db_any (c := .setPayment id .settling) trivial
        fun _ => trivial).attempt fun _ _ _ _ => Act.Spec.pure trivial
    · exact Act.Spec.pure trivial
  · simp only [hs]
    refine Act.Spec.bind (failManagedPayment_meets (.known payment hknown rfl hs)).attempt
      fun r h₃ _ _ => ?_
    rcases r with e | ⟨⟩
    · exact Act.Spec.pure trivial
    · exact Act.Spec.pure trivial

theorem observePayment_meets (id : String) :
    Meets D anyEvent (observePayment D id) (fun _ _ => True) h := by
  rw [observePayment_eq]
  exact Act.Spec.bind (Meets.db_any (c := .paymentStatus id) trivial fun _ => trivial).attempt
    fun r h₁ _ _ => observeCached_meets id (cachedText r)

/-- A bound payment is observed, and an unbound one is looked for before it is submitted. -/
theorem recoverSend_meets {send : LightningSend} (hk : KnownSend h send) :
    Meets D anyEvent (recoverSend D send) (fun _ _ => True) h := by
  unfold recoverSend
  refine Meets.ite (fun _ => Act.Spec.pure trivial) fun _ => ?_
  refine Act.Spec.bind (Meets.db_eq (.lightningReceiveHashForInvoice send.invoice) trivial
    fun _ => trivial) ?_
  rintro o _ he₁ rfl
  have hk₁ := hk.after he₁
  refine Meets.ite (fun hlocal => ?_) fun _ => ?_
  · obtain ⟨hash, rfl⟩ := Option.isSome_iff_exists.mp hlocal
    exact processInternalSend_meets hk₁ ⟨hash, List.mem_cons_self⟩
  refine Meets.ite (fun _ => submitSend_meets hk₁) fun _ => ?_
  refine Act.Spec.bind (recoverSubmission_meets hk₁) fun o h₂ he₂ _ => ?_
  rcases o with - | payment
  · refine Meets.ite (fun _ => ?_) fun _ => Meets.db_any trivial fun _ => trivial
    exact Act.Spec.bind (refreshRouteCltv_meets (hk₁.after he₂)) fun _ _ _ ⟨hk', hr⟩ =>
      retryMissingBolt11_meets hk' hr
  · exact Act.Spec.bind (observePayment_meets payment.paymentId) fun _ _ _ _ =>
      Act.Spec.pure trivial

/-! ### Outcomes of receives -/

/-- The payment to an offer was reported with its hash, preimage and amount. -/
theorem finishBolt12Receive_meets {offerId hash : String} {preimage : Option String}
    {amount : Option Nat} (hrep : ReportedOffer h offerId hash preimage amount) :
    Meets D anyEvent (finishBolt12Receive D offerId hash preimage amount)
      (fun _ _ => True) h := by
  refine Meets.locked ?_ (fun _ => trivial) (fun _ => trivial) fun _ _ _ _ _ => trivial
  refine Act.Spec.bind (Meets.mark (m := .payOffer offerId hash)
    (R := fun _ h' => h' = markEvent (.payOffer offerId hash) :: _) trivial trivial rfl) ?_
  rintro _ _ - rfl
  refine Act.Spec.bind (Meets.db_eq (.lightningReceiveForHash offerId) trivial
    fun _ => trivial) ?_
  rintro o _ - rfl
  rcases o with - | r
  · exact Act.Spec.pure trivial
  refine Meets.ite (fun _ => Act.Spec.pure trivial) fun _ => ?_
  refine Act.Spec.bind Meets.ofExcept_eq ?_
  rintro expected _ - ⟨hexp, rfl⟩
  refine Meets.guard fun hamount => ?_
  refine Act.Spec.bind Meets.ofExcept_eq ?_
  rintro x _ - ⟨hx, rfl⟩
  refine Act.Spec.bind Meets.ofExcept_eq ?_
  rintro _ _ - ⟨hv, rfl⟩
  obtain rfl := okOr_eq_ok.mp hx
  rcases amount with - | paid
  · simp at hamount
  -- under the lock: the offer is not paid out, and the node has reported enough with its preimage
  have hpaid : OfferPaid (dbEvent (.lightningReceiveForHash offerId) (some r) ::
      markEvent (.payOffer offerId hash) :: ⟨Call.acquire .receive false, Except.ok ()⟩ :: h)
      offerId hash r := by
    refine ⟨⟨false, ?_⟩, ?_, by simp, x, paid, expected, ?_, hv, okOr_eq_ok.mp hexp, ?_⟩
    · exact .cons (.cons .here (by simp)) (by simp)
    · exact .cons .here rfl
    · exact hrep.after (q := anyEvent) (.cons (.cons (.one trivial) trivial) trivial)
    · simpa using hamount
  refine Act.Spec.bind (Meets.db_eq (.bindBolt12Receive offerId hash) ⟨r, hpaid⟩
    fun _ => trivial) ?_
  rintro _ _ - rfl
  refine Act.Spec.bind (Meets.db_eq (.recordLightningProof r.requestId hash x) hv
    fun _ => trivial) ?_
  rintro _ _ - rfl
  -- the hash is bound before the payout is asked for
  have hg : OfferGround (dbEvent (.recordLightningProof r.requestId hash x) () ::
      dbEvent (.bindBolt12Receive offerId hash) () ::
      dbEvent (.lightningReceiveForHash offerId) (some r) :: markEvent (.payOffer offerId hash) ::
      ⟨Call.acquire .receive false, Except.ok ()⟩ :: h) offerId hash r :=
    ⟨hpaid.after (.cons (.one fun _ _ => rfl) fun _ _ => rfl), by simp⟩
  refine Act.Spec.bind ((Spark.settleLightningReceive_meets hg).mono (fun _ _ => trivial)
    fun _ _ he hx => And.intro he hx) fun transferId h₇ _ hpaid => ?_
  exact Meets.db_any (c := .commitBolt12Receive offerId hash transferId r.requestId r.owner)
    ⟨r, hg.after hpaid.1, rfl, rfl, hpaid.2⟩ fun _ => trivial

theorem isManagedOutbound_meets (id : String) :
    Meets D anyEvent (isManagedOutbound id) (fun _ _ => True) h :=
  Act.Spec.bind (Meets.db_any (c := .lightningSendForPayment id) trivial fun _ => trivial)
    fun _ _ _ _ => Act.Spec.pure trivial

/-- The receive is completed for an attempt that the node has received. -/
theorem finishReceivedPayment_meets (id hash : String) :
    Meets D anyEvent (finishReceivedPayment id hash) (fun _ _ => True) h := by
  refine Meets.locked ?_ (fun _ => trivial) (fun _ => trivial) fun _ _ _ _ _ => trivial
  refine Act.Spec.bind (Meets.mark (m := .attempt id hash)
    (R := fun _ h' => h' = markEvent (.attempt id hash) :: _) trivial trivial rfl) ?_
  rintro _ _ - rfl
  refine Act.Spec.bind (Meets.db_eq (.internalSend hash) trivial fun _ => trivial) ?_
  rintro payer _ - rfl
  refine Meets.ite (fun _ => Act.Spec.pure trivial) fun hfree => ?_
  obtain rfl : payer = none := by simpa using hfree
  refine Act.Spec.bind (Meets.db_eq (.lightningReceiveForHash hash) trivial
    fun _ => trivial) ?_
  rintro o _ - rfl
  rcases o with - | r
  · exact Act.Spec.pure trivial
  refine Meets.guard fun hown => ?_
  have hown : r.paymentId = none ∨ r.paymentId = some id := by
    rcases hp : r.paymentId with - | id'
    · exact .inl rfl
    · exact .inr (by simpa [hp] using hown)
  -- the rest of the function, from a history that extends the one of the checks
  have hfinish : ∀ (transferId : String) h', Extends (Keeps [])
      (dbEvent (.lightningReceiveForHash hash) (some r) :: dbEvent (.internalSend hash) none ::
        markEvent (.attempt id hash) :: ⟨Call.acquire .receive false, Except.ok ()⟩ :: h) h' →
      RecordedTransfer h' r transferId → Meets D anyEvent (do
      Ssp.db (.insertTransfer transferId r.requestId .lightningReceive .transferCompleted r.owner)
      Ssp.db (.setReceiveStatus hash .transferCompleted)
      return true) (fun _ _ => True) h' := by
    intro transferId h' he hrec
    have hread := he.mem (e := dbEvent (.lightningReceiveForHash hash) (some r))
      List.mem_cons_self
    have hw : WriteGround h' hash := .after (.unclaimed id r (.cons (.cons .here rfl) rfl)
      ⟨false, .cons (.cons (.cons .here (by simp)) (by simp)) (by simp)⟩ .here hown
      (.cons .here rfl))
      (he.mono fun _ => Keeps.widen _)
    refine Act.Spec.bind (Meets.db_eq (.insertTransfer transferId r.requestId .lightningReceive
      .transferCompleted r.owner) (.inl ⟨rfl, hash, r, hread, rfl, rfl, hrec⟩)
      fun _ => trivial) ?_
    rintro _ _ - rfl
    refine Act.Spec.bind (Meets.db_any (c := .setReceiveStatus hash .transferCompleted)
      ⟨hw.after (.one fun _ _ => rfl), r, transferId, List.mem_cons_of_mem _ hread, ?_⟩
      fun _ => trivial) fun _ _ _ _ => Act.Spec.pure trivial
    exact hrec.imp_right (List.mem_cons_of_mem _)
  rcases ht : r.transferId with - | transferId
  · refine Act.Spec.bind (Meets.db_eq (.transferForRequest r.requestId r.owner) trivial
      fun _ => trivial) ?_
    rintro found _ - rfl
    refine Act.Spec.bind Meets.ofExcept_eq ?_
    rintro transferId h₄ - ⟨hf, rfl⟩
    obtain rfl := okOr_eq_ok.mp hf
    exact hfinish transferId _ (.one fun _ _ => rfl) (.inr List.mem_cons_self)
  · exact hfinish transferId _ (.refl _) (.inl ht)

/-- The event is the report of the attempt. -/
theorem processInboundClaimable_meets {payment : ClaimableReceive}
    (hrep : ReportedReceive h payment) :
    Meets D anyEvent (processInboundClaimable D payment) (fun _ _ => True) h :=
  processStandardReceive_meets hrep

/-! ### Reconciliation -/

/-- Recovery from the worker is the one of a request. -/
theorem reconcileSend_meets {send : LightningSend} (hk : KnownSend h send) :
    Meets D anyEvent (reconcileSend D send) (fun _ _ => True) h := by
  refine Act.Spec.bind (recoverSend_meets hk).attempt fun r h₁ _ _ => ?_
  rcases r with e | ⟨⟩
  · exact Meets.db_any trivial fun _ => trivial
  · exact Act.Spec.pure trivial

/-- A listed payment is settled or failed as an event of it would be. -/
theorem reconcileOutbound_meets {payment : Payment} (hp : KnownPayment h payment) :
    Meets D anyEvent (reconcileOutbound D payment) (fun _ _ => True) h := by
  refine Act.Spec.bind (isManagedOutbound_meets payment.paymentId) fun b h₁ he₁ _ => ?_
  refine Meets.ite (fun _ => ?_) fun _ => Act.Spec.pure trivial
  rcases hs : payment.status with - | - | -
  · exact Meets.db_any (c := .setPayment payment.paymentId .pending) trivial fun _ => trivial
  · refine Act.Spec.bind (settleSucceededPayment_meets (.known (hp.after he₁) hs)).attempt
      fun r h₂ _ _ => ?_
    rcases r with e | ⟨⟩
    · exact Meets.db_any (c := .setPayment payment.paymentId .settling) trivial fun _ => trivial
    · exact Act.Spec.pure trivial
  · exact failManagedPayment_meets (.known payment (hp.after he₁) rfl hs)

/-- A listed receive is worked on as if it were just reported. -/
theorem reconcileInbound_meets {payment : Payment} {hash : String}
    (hp : KnownPayment h payment) (hd : payment.direction = .inbound)
    (hhash : bolt11Hash payment = some hash) :
    Meets D anyEvent (reconcileInbound D payment hash) (fun _ _ => True) h := by
  refine Act.Spec.bind (Meets.db_any (c := .lightningReceiveForHash hash) trivial
    fun _ => trivial) fun o h₁ he₁ _ => ?_
  refine Meets.ite (fun _ => Act.Spec.pure trivial) fun _ => ?_
  rcases hs : payment.status with - | - | -
  · exact Act.Spec.bind (processInboundClaimable_meets
      (.listed payment (hp.after he₁) hd rfl hhash rfl)).attempt
      fun _ _ _ _ => Act.Spec.pure trivial
  · exact Act.Spec.bind (finishReceivedPayment_meets payment.paymentId hash).attempt
      fun _ _ _ _ => Act.Spec.pure trivial
  · refine Meets.locked ?_ (fun _ => trivial) (fun _ => trivial) fun _ _ _ _ _ => trivial
    refine Act.Spec.bind (Meets.mark (m := .attempt payment.paymentId hash)
      (R := fun _ h' => h' = markEvent (.attempt payment.paymentId hash) :: _)
      trivial trivial rfl) ?_
    rintro _ _ - rfl
    exact Meets.db_any (c := .failExternalReceive hash payment.paymentId) .here fun _ => trivial

/-- The direction of the payment decides. -/
theorem reconcilePayment_meets {payment : Payment} (hp : KnownPayment h payment) :
    Meets D anyEvent (reconcilePayment D payment) (fun _ _ => True) h := by
  unfold reconcilePayment
  refine Meets.ite (fun _ => reconcileOutbound_meets hp) fun hd => ?_
  have hin : payment.direction = .inbound := by
    rcases hdir : payment.direction with - | -
    · rfl
    · exact absurd hdir hd
  rcases ho : bolt12OfferIds payment with - | ⟨offerId, hash⟩
  · rcases hb : bolt11Hash payment with - | hash
    · exact Act.Spec.pure trivial
    · exact reconcileInbound_meets hp hin hb
  · refine Meets.ite (fun hs => ?_) fun _ => Act.Spec.pure trivial
    exact Act.Spec.bind (finishBolt12Receive_meets (.listed payment hp hs ho rfl rfl)).attempt
      fun _ _ _ _ => Act.Spec.pure trivial

/-- The payments of each page were listed by the node. -/
theorem reconcilePages_meets (n : Nat) (token : Option String) :
    Meets D anyEvent (reconcilePages D n token) (fun _ _ => True) h := by
  induction n generalizing h token with
  | zero => exact Act.Spec.throw
  | succ n ih =>
      refine Act.Spec.bind (Meets.ldk_eq (.listPayments token) trivial fun _ => trivial) ?_
      rintro page _ - rfl
      refine Act.Spec.bind (Act.Spec.forEach (K := fun p h => KnownPayment h p)
        (fun p _ h' _ hp => reconcilePayment_meets hp) fun p hp h' he =>
          .listed token page (he.mem List.mem_cons_self) hp) fun _ h₂ _ _ => ?_
      rcases page.2 with - | token'
      · exact Act.Spec.pure trivial
      · exact ih (some token')

/-- The held attempts of an invoice that has expired are failed. -/
theorem expireReceive_meets (hash : String) :
    Meets D anyEvent (expireReceive hash) (fun _ _ => True) h := by
  refine Meets.locked ?_ (fun _ => trivial) (fun _ => trivial) fun _ _ _ _ _ => trivial
  have hholds : Holds .receive (⟨Call.acquire .receive false, Except.ok ()⟩ :: h) :=
    ⟨false, Since.here⟩
  refine Act.Spec.bind (Meets.db_eq (.lightningReceiveForHash hash) trivial fun _ => trivial) ?_
  rintro o _ - rfl
  rcases o with - | r
  · exact Act.Spec.pure trivial
  refine Act.Spec.bind (Meets.db_eq (.internalSend hash) trivial fun _ => trivial) ?_
  rintro payer _ - rfl
  refine Meets.ite (fun _ => Act.Spec.pure trivial) fun _ => ?_
  refine Meets.ite (fun _ => Act.Spec.pure trivial) fun hunpaid => ?_
  refine Meets.ite (fun _ => Act.Spec.pure trivial) fun _ => ?_
  refine Act.Spec.bind (Meets.db_eq (.transferForRequest r.requestId r.owner) trivial
    fun _ => trivial) ?_
  rintro found _ - rfl
  refine Meets.ite (fun _ => Act.Spec.pure trivial) fun _ => ?_
  -- everything was read under the lock, and nothing has been written since
  have hholds' : Holds .receive (dbEvent (.transferForRequest r.requestId r.owner) found ::
      dbEvent (.internalSend hash) payer :: dbEvent (.lightningReceiveForHash hash) (some r) ::
      ⟨Call.acquire .receive false, Except.ok ()⟩ :: h) :=
    .cons (.cons (.cons hholds nofun) nofun) nofun
  refine Act.Spec.bind (Meets.mark (m := .expired hash r)
    (R := fun _ h' => h' = markEvent (.expired hash r) :: _)
    ⟨hholds', by simpa using hunpaid, .cons (.cons .here rfl) rfl, .cons (.cons .here rfl) rfl⟩
    trivial rfl) ?_
  rintro _ _ - rfl
  have hholds'' := hholds'.cons (x := markEvent (.expired hash r)) nofun
  -- the HTLC of a bound payment is failed at the node before the row is
  rcases hid : r.paymentId with - | id
  · exact Meets.db_any (c := .setReceiveStatus hash .htlcFailed)
      ⟨.expired r .here, .expired r hholds'' .here⟩ fun _ => trivial
  · refine Act.Spec.bind ((failReceive_meets (.expired hash r hholds'' .here
      hid)).attempt.mono (fun _ _ => trivial) fun _ _ he _ => he) fun o h₂ _ he₂ => ?_
    rcases o with e | ⟨⟩
    · exact Act.Spec.pure trivial
    · refine Meets.db_any (c := .setReceiveStatus hash .htlcFailed) ⟨?_, ?_⟩ fun _ => trivial
      · exact WriteGround.after (.expired r .here) (he₂.mono fun _ => Keeps.widen _)
      · exact FailedWrite.after (.expired r hholds'' .here) (he₂.mono fun _ => Keeps.widen _)

/-- One pass: the sends, the pages of the node, and the receives that are open. -/
theorem reconcilePayments_meets :
    Meets D anyEvent (reconcilePayments D) (fun _ _ => True) h := by
  refine Act.Spec.bind (Meets.db_eq .unresolvedLightningSends trivial fun _ => trivial) ?_
  rintro sends _ - rfl
  refine Act.Spec.bind (Act.Spec.forEach (K := fun send h => KnownSend h send)
    (fun send _ h' _ hk => reconcileSend_meets hk) fun send hsend h' he =>
      .listed sends send (he.mem List.mem_cons_self) hsend (.refl send)) fun _ h₂ _ _ => ?_
  refine Act.Spec.bind (reconcilePages_meets 100 none) fun _ h₃ _ _ => ?_
  refine Act.Spec.bind (Meets.tell_any trivial fun _ => trivial) fun now h₄ _ _ => ?_
  refine Act.Spec.bind (Meets.db_any (c := .expiredReceiveHashes now) trivial fun _ => trivial)
    fun hashes h₅ _ _ => ?_
  exact Act.Spec.forEach (K := fun _ _ => True) (fun hash _ h' _ _ => expireReceive_meets hash)
    fun _ _ _ _ => trivial

/-! ### Client queries, invoices, events -/

theorem reconcileRequest_meets (id : String) :
    Meets D anyEvent (reconcileRequest D id) (fun _ _ => True) h := by
  refine Act.Spec.bind (Meets.db_eq (.lightningSendForPayment id) trivial fun _ => trivial) ?_
  rintro o _ - rfl
  refine Act.Spec.bind Meets.ofExcept_eq ?_
  rintro send h₁ - ⟨ho, rfl⟩
  obtain rfl := okOr_eq_ok.mp ho
  refine Act.Spec.bind (recoverSend_meets (.read id send List.mem_cons_self (.refl send)))
    fun _ h₂ _ _ => ?_
  exact Act.Spec.bind (Meets.db_any (c := .paymentStatus send.requestId) trivial
    fun _ => trivial) fun _ _ _ _ => Act.Spec.pure trivial

variable (D) in
/-- `paymentStatus` once the stored status is read. -/
def pollCached (paymentId cached : String) : Ssp String := do
  match ← Act.attempt (Ssp.db (.lightningSendForPayment paymentId)) with
  | .ok (some send) =>
      let _ ← Act.attempt (recoverSend D send)
      match ← Act.attempt (Ssp.db (.paymentStatus send.requestId)) with
      | .ok status => return statusText status
      | .error _ => return cached
  | _ => return cached

/-- A poll is the reading of the cached status, and then what depends on it. -/
theorem paymentStatus_eq (id : String) : paymentStatus D id =
    Act.attempt (Ssp.db (.paymentStatus id)) >>= fun r => pollCached D id (cachedText r) := by
  show (_ >>= _) = _
  congr 1
  funext r
  cases r <;> rfl

/-- A poll observes the payment as the worker does. -/
theorem pollCached_meets (id cached : String) :
    Meets D anyEvent (pollCached D id cached) (fun _ _ => True) h := by
  refine Act.Spec.bind (Meets.db_eq (.lightningSendForPayment id) trivial
    fun _ => trivial).attempt fun o h₂ _ ho => ?_
  rcases o with e | - | send
  · exact Act.Spec.pure trivial
  · exact Act.Spec.pure trivial
  obtain rfl := ho _ rfl
  refine Act.Spec.bind (recoverSend_meets (.read id send List.mem_cons_self
    (.refl send))).attempt fun _ h₃ _ _ => ?_
  refine Act.Spec.bind (Meets.db_any (c := .paymentStatus send.requestId) trivial
    fun _ => trivial).attempt fun r h₄ _ _ => ?_
  rcases r with e | status
  · exact Act.Spec.pure trivial
  · exact Act.Spec.pure trivial

theorem paymentStatus_meets (id : String) :
    Meets D anyEvent (paymentStatus D id) (fun _ _ => True) h := by
  rw [paymentStatus_eq]
  exact Act.Spec.bind (Meets.db_any (c := .paymentStatus id) trivial fun _ => trivial).attempt
    fun r h₁ _ _ => pollCached_meets id (cachedText r)

/-- The invoice that is handed out can be parsed. -/
theorem createInvoice_meets (amount : Nat) (hash memo : String) (expiry : Nat) :
    Meets D anyEvent (createInvoice D amount hash memo expiry)
      (fun invoice _ => ∃ i, D.parseInvoice invoice = .ok i) h := by
  refine Act.Spec.bind Meets.ofExcept_eq fun msat h₁ _ _ => ?_
  refine Act.Spec.bind (Meets.retryBounded (R := fun _ _ => True) (fun h' _ =>
    Meets.ldk (c := .receiveForHash msat hash memo expiry) trivial (fun _ => trivial)
      fun _ => trivial) (fun _ => trivial) fun _ _ _ _ _ => trivial) fun invoice h₂ _ _ => ?_
  refine Act.Spec.bind Meets.ofExcept_eq ?_
  rintro _ h₃ - ⟨hv, rfl⟩
  exact Act.Spec.pure (parseInvoice_of_validateCreatedInvoice hv)

/-- The offer id of a created offer is in lower case. -/
theorem createBolt12Offer_meets (amount : Nat) (memo : String) (expiry : Nat) :
    Meets D anyEvent (createBolt12Offer amount memo expiry)
      (fun r _ => ∃ s, r.2 = lowercase s) h := by
  refine Act.Spec.bind Meets.ofExcept_eq fun msat h₁ _ _ => ?_
  refine Act.Spec.bind (Meets.mapErr (Meets.ldk (c := .bolt12Receive msat memo expiry)
    (R := fun _ _ => True) trivial (fun _ => trivial) fun _ => trivial)) fun r h₂ _ _ => ?_
  exact Act.Spec.pure ⟨r.2, rfl⟩

/-- Each event is the evidence that its function asks for. -/
theorem applyLnEvent_meets {event : LnEvent} (hm : streamEvent event ∈ h) :
    Meets D anyEvent (applyLnEvent D event) (fun _ _ => True) h := by
  rcases event with payment | ⟨id, reason⟩ | payment | ⟨id, hash⟩ | ⟨offerId, hash, preimage, amount⟩
  · refine Act.Spec.bind (isManagedOutbound_meets payment.paymentId).attempt fun b h₁ he₁ _ => ?_
    rcases b with e | - | -
    · exact Act.Spec.pure trivial
    · exact Act.Spec.pure trivial
    · refine Act.Spec.bind (settleSucceededPayment_meets (.event (he₁.mem hm))).attempt
        fun r h₂ _ _ => ?_
      rcases r with e | ⟨⟩
      · exact Act.Spec.bind (Meets.db_any (c := .setPayment payment.paymentId .settling) trivial
          fun _ => trivial).attempt fun _ _ _ _ => Act.Spec.pure trivial
      · exact Act.Spec.pure trivial
  · refine Act.Spec.bind (isManagedOutbound_meets id).attempt fun b h₁ he₁ _ => ?_
    rcases b with e | - | -
    · exact Act.Spec.pure trivial
    · exact Act.Spec.pure trivial
    · exact Act.Spec.bind (failManagedPayment_meets (.event reason (he₁.mem hm))).attempt
        fun _ _ _ _ => Act.Spec.pure trivial
  · exact Act.Spec.bind (processInboundClaimable_meets (.notified hm)).attempt
      fun _ _ _ _ => Act.Spec.pure trivial
  · exact Act.Spec.bind (finishReceivedPayment_meets id hash).attempt
      fun _ _ _ _ => Act.Spec.pure trivial
  · exact Act.Spec.bind (finishBolt12Receive_meets (.event hm)).attempt
      fun _ _ _ _ => Act.Spec.pure trivial

/-- The event was read from the stream before it is applied. -/
theorem eventPump_meets (embedded : Bool) :
    Meets D anyEvent (eventPump D embedded) (fun _ _ => True) h := by
  refine Act.Spec.bind (Meets.tell (c := .nextEvent)
    (R := fun o h' => ∀ e, o = some e → streamEvent e ∈ h') trivial (fun _ => trivial)
    fun o e he => he ▸ List.mem_cons_self) fun o h₁ _ ho => ?_
  rcases o with - | event
  · exact Act.Spec.pure trivial
  have hm := ho event rfl
  dsimp only
  split
  · next id reason =>
    refine Act.Spec.bind (Meets.db_any (c := .recordLightningFailure id reason) trivial
      fun _ => trivial).attempt fun r h₂ he₂ _ => ?_
    rcases r with e | ⟨⟩
    · exact Act.Spec.pure trivial
    · exact applyLnEvent_meets (he₂.mem hm)
  · exact applyLnEvent_meets hm

end Ldk

end OpenSsp
