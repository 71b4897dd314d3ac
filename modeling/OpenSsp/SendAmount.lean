/-
OpenSsp/SendAmount.lean

The amounts of a Lightning send: the sats its Spark funding is compared with, the sats that are
recorded, the millisatoshis LDK is told to pay and the ones a payment is expected to have.

Each is computed at its own place, from the invoice or offer and the client's amount.
`FundedAmount` is what the funding check has established about the first one, and the others
follow from it.

Main result: `send_amounts`.
-/
import OpenSsp.FailureReason
import OpenSsp.Lib.Eval

namespace OpenSsp

open Interleave

variable {D : Deployment}

/-! ### What LDK is told to pay -/

/-- The submission is the call with this amount and nothing else. -/
theorem Ldk.submit_eq_call {send : LightningSend} {submitted : Option Nat} :
    Ldk.submit send = Ssp.ldk (.submit send submitted) ↔ submittedMsat send = .ok submitted := by
  constructor
  · intro hcall
    unfold Ldk.submit at hcall
    rcases hsubmitted : submittedMsat send with e | amountMsat
    · -- no call is made at all
      rw [hsubmitted] at hcall
      cases hcall
    · rw [hsubmitted] at hcall
      injection hcall with hcall
      injection hcall with hcall
      rw [(LdkCall.submit.inj hcall).2]
  · intro hsubmitted
    unfold Ldk.submit
    rw [hsubmitted]
    rfl

/-- LDK is told to pay this amount: the call of the submission has it, or the call has none and
the invoice has it. -/
def TellsLdk (D : Deployment) (send : LightningSend) (msat : Nat) : Prop :=
  ∃ submitted, Ldk.submit send = Ssp.ldk (.submit send submitted) ∧
    submitted.or ((D.parseInvoice send.invoice).toOption.bind (·.amountMilliSatoshis)) = some msat

/-! ### The funding check -/

/-- The operators have shown a transfer that funds a send of `sats`, and LDK is to be told
`msat` for it. -/
inductive FundedAmount (D : Deployment) (h : History Api) (owner outbound invoice : String)
    (amount : Option Nat) (sats msat : Nat) : Prop
  | offer (hoffer : isOffer invoice = true) (hamount : amount = some sats) (hpos : sats ≠ 0)
      (hmsat : msat = sats * 1000)
      (verified : ∃ u t, sparkEvent (.getTransfer u) (some t) ∈ h ∧
        FundsBolt12 D owner outbound sats u t)
  | invoice (i : Bolt11Invoice) (hoffer : isOffer invoice = false)
      (hparse : D.parseInvoice invoice = .ok i)
      (hmsat : (i.amountMilliSatoshis = some msat ∧ amount = none) ∨
        (i.amountMilliSatoshis = none ∧ ∃ a, amount = some a ∧ msat = a * 1000))
      (hfits : msat + 999 < 2 ^ 64) (hsats : sats = (msat + 999) / 1000) (hpos : sats ≠ 0)
      (verified : ∃ items q t now cap, sparkEvent (.queryHtlc outbound
          (lowercase i.paymentHash.text) .receiver) items ∈ h ∧
        VerifiedHtlc D owner outbound i.paymentHash.text sats items q t now cap)

theorem FundedAmount.after {h h' : History Api} {owner outbound invoice : String}
    {amount : Option Nat} {sats msat : Nat}
    (hf : FundedAmount D h owner outbound invoice amount sats msat)
    (he : Extends anyEvent h h') : FundedAmount D h' owner outbound invoice amount sats msat := by
  cases hf with
  | offer hoffer hamount hpos hmsat verified =>
      obtain ⟨u, t, hmem, hfunds⟩ := verified
      exact .offer hoffer hamount hpos hmsat ⟨u, t, he.mem hmem, hfunds⟩
  | invoice i hoffer hparse hmsat hfits hsats hpos verified =>
      obtain ⟨items, q, t, now, cap, hmem, hv⟩ := verified
      exact .invoice i hoffer hparse hmsat hfits hsats hpos ⟨items, q, t, now, cap, he.mem hmem, hv⟩

namespace Ldk

variable {h : History Api}

theorem verifyLightningSendFunding_amount (owner outbound invoice : String)
    (amount : Option Nat) :
    Meets D anyEvent (verifyLightningSendFunding D owner outbound invoice amount)
      (fun _ h' => ∃ sats msat, FundedAmount D h' owner outbound invoice amount sats msat) h := by
  unfold verifyLightningSendFunding
  refine Meets.ite (fun ho => ?_) fun ho => ?_
  · apply Act.Spec.bind Meets.ofExcept_eq
    rintro sats h₁ - ⟨hsats, rfl⟩
    refine Meets.guard fun hpos => ?_
    apply Act.Spec.bind ((Spark.verifyBolt12Send_meets owner outbound sats).mono
      (fun _ _ => trivial) fun _ _ _ hr => hr)
    intro _ h₂ _ hverified
    exact Act.Spec.pure ⟨sats, _, .offer ho (okOr_eq_ok.mp hsats) hpos rfl hverified⟩
  · have ho : isOffer invoice = false := by simpa using ho
    apply Act.Spec.bind Meets.ofExcept_eq
    rintro decoded h₁ - ⟨hdec, rfl⟩
    have hparse : D.parseInvoice invoice = .ok decoded := by
      rcases hp : D.parseInvoice invoice with e | i
      · simp [hp, Except.mapError] at hdec
      · rw [hp] at hdec
        exact hdec
    -- the transfer is compared with the amount, rounded up
    have hverify : ∀ (msat : Nat) h,
        ((decoded.amountMilliSatoshis = some msat ∧ amount = none) ∨
          (decoded.amountMilliSatoshis = none ∧ ∃ a, amount = some a ∧ msat = a * 1000)) →
        Meets D anyEvent (do
          let rounded ← Ssp.ofExcept (okOr "invoice amount is too large" (checkedAdd msat 999))
          let totalSats := rounded / 1000
          if totalSats = 0 then throw "Lightning send amount must be positive"
          return some (← Spark.verifyLightningSend D owner outbound decoded.paymentHash.text
            totalSats))
        (fun _ h' => ∃ sats msat, FundedAmount D h' owner outbound invoice amount sats msat) h := by
      intro msat h hmsat
      apply Act.Spec.bind Meets.ofExcept_eq
      rintro rounded h₂ - ⟨hrounded, rfl⟩
      obtain ⟨rfl, hfits⟩ := checkedAdd_eq_some (okOr_eq_ok.mp hrounded)
      refine Meets.guard fun hpos => ?_
      apply Act.Spec.bind ((Spark.verifyLightningSend_meets owner outbound
        decoded.paymentHash.text _).mono (fun _ _ => trivial) fun _ _ _ hr => hr)
      rintro cap h₃ - ⟨items, q, t, now, rfl, hv⟩
      exact Act.Spec.pure ⟨_, msat, .invoice decoded ho hparse hmsat hfits rfl hpos
        ⟨items, q, t, now, cap, List.mem_cons_of_mem _ List.mem_cons_self, hv⟩⟩
    rcases hmsats : decoded.amountMilliSatoshis with - | value
    · apply Act.Spec.bind Meets.ofExcept_eq
      rintro sats h₂ - ⟨hsats, rfl⟩
      apply Act.Spec.bind Meets.ofExcept_eq
      rintro msat h₃ - ⟨hmsat, rfl⟩
      obtain ⟨rfl, -⟩ := checkedMul_eq_some (okOr_eq_ok.mp hmsat)
      exact hverify _ h₃ (.inr ⟨hmsats, sats, okOr_eq_ok.mp hsats, rfl⟩)
    · refine Meets.guard fun hnone => ?_
      have hnone : amount = none := by simpa using hnone
      exact Act.Spec.bind (R := fun msat _ => msat = value) (Act.Spec.pure rfl)
        fun msat h₂ _ hmsat => hverify msat h₂ (.inl ⟨by rw [hmsats, hmsat], hnone⟩)

/-- The kind and the recorded amount of a send. -/
def Decodes (D : Deployment) (invoice : String) (amount : Option Nat) (kind : SendKind)
    (expectedId : String) (total : Nat) : Prop :=
  (kind = .bolt12 ∧ isOffer invoice = true ∧ amount = some total) ∨
  (kind = .bolt11 ∧ isOffer invoice = false ∧ ∃ i, D.parseInvoice invoice = .ok i ∧
    expectedId = i.paymentHash.text ∧
    (i.amountMilliSatoshis.map fun a => (a + 999) / 1000).or amount = some total)

theorem decodeSend_amount (invoice : String) (amount : Option Nat) :
    Meets D anyEvent (decodeSend D invoice amount)
      (fun r _ => Decodes D invoice amount r.1 r.2.1 r.2.2) h := by
  unfold decodeSend
  refine Meets.ite (fun ho => ?_) fun ho => ?_
  · apply Act.Spec.bind (Meets.ldk_eq (.offerId invoice) trivial fun _ => trivial)
    rintro offerId _ - rfl
    apply Act.Spec.bind Meets.ofExcept_eq
    rintro total _ - ⟨htotal, rfl⟩
    exact Act.Spec.pure (.inl ⟨rfl, ho, okOr_eq_ok.mp htotal⟩)
  · apply Act.Spec.bind Meets.ofExcept_eq
    rintro decoded h₁ - ⟨hparse, rfl⟩
    refine Meets.guard fun _ => ?_
    refine Act.Spec.bind (Meets.tell_any trivial fun _ => trivial) fun now h₂ _ _ => ?_
    refine Meets.guard fun _ => ?_
    apply Act.Spec.bind Meets.ofExcept_eq
    rintro sats h₃ - ⟨hsats, rfl⟩
    exact Act.Spec.pure (.inr ⟨rfl, by simpa using ho, decoded, hparse, rfl, okOr_eq_ok.mp hsats⟩)

theorem prepareSend_amount (owner transfer invoice : String) (amount : Option Nat) :
    Meets D anyEvent (prepareSend D owner transfer invoice amount)
      (fun send h' => send.Requests owner transfer invoice amount ∧
        send.amountSats * 1000 < 2 ^ 64 ∧
        Decodes D invoice amount send.kind send.expectedId send.amountSats ∧
        ∃ sats msat, FundedAmount D h' owner transfer invoice amount sats msat) h := by
  unfold prepareSend
  refine Meets.guard fun _ => ?_
  apply Act.Spec.bind (decodeSend_amount invoice amount)
  rintro ⟨kind, expectedId, total⟩ h₁ - hdecodes
  apply Act.Spec.bind Meets.ofExcept_eq
  rintro msat h₂ - ⟨hmsat, rfl⟩
  obtain ⟨-, hfits⟩ := checkedMul_eq_some (okOr_eq_ok.mp hmsat)
  apply Act.Spec.bind (verifyLightningSendFunding_amount owner transfer invoice amount)
  rintro cltv h₃ - ⟨sats, msat, hfunded⟩
  refine Act.Spec.bind (Meets.tell_any trivial fun _ => trivial) fun uuid h₄ he₄ _ => ?_
  exact Act.Spec.pure ⟨⟨rfl, rfl, rfl, rfl⟩, hfits, hdecodes, sats, msat, hfunded.after he₄⟩

end Ldk

/-! ### The four amounts -/

/-- The recorded sats and the millisatoshis LDK is told to pay, for an accepted send. -/
structure AmountsAgree (D : Deployment) (send : LightningSend) (msat : Nat) : Prop where
  told : TellsLdk D send msat
  expected : expectedMsat D send = .ok msat
  covers : msat ≤ 1000 * send.amountSats
  tight : 1000 * send.amountSats - msat < 1000
  positive : 0 < send.amountSats
  fits : 1000 * send.amountSats < 2 ^ 64
  msat_lt : msat < 2 ^ 64

section agree

variable {send : LightningSend} {h : History Api} {sats msat : Nat}

/-- An offer is not an invoice. -/
theorem offer_amount {invoice : String} (ho : isOffer invoice = true) :
    (D.parseInvoice invoice).toOption.bind (·.amountMilliSatoshis) = none := by
  rcases hp : D.parseInvoice invoice with e | i
  · rfl
  · rw [D.invoice_not_offer _ i hp] at ho
    cases ho

theorem satsToMsats_ok {sats : Nat} (h : sats * 1000 < 2 ^ 64) :
    satsToMsats sats = .ok (sats * 1000) := by
  rw [satsToMsats, checkedMul, if_pos h]
  rfl

/-- What was verified is what is recorded, and the other amounts agree with it. -/
theorem FundedAmount.agree (hfits : send.amountSats * 1000 < 2 ^ 64)
    (hdecodes : Ldk.Decodes D send.invoice send.amountOverride send.kind send.expectedId
      send.amountSats)
    (hf : FundedAmount D h send.owner send.outboundTransferId send.invoice send.amountOverride
      sats msat) : send.amountSats = sats ∧ AmountsAgree D send msat := by
  cases hf with
  | offer hoffer hamount hpos hmsat verified =>
      have hsats : send.amountSats = sats := by
        rcases hdecodes with ⟨-, -, htotal⟩ | ⟨-, hno, -⟩
        · exact Option.some.inj (htotal.symm.trans hamount)
        · rw [hno] at hoffer
          cases hoffer
      subst hsats
      have hsubmitted : submittedMsat send = .ok (some msat) := by
        rw [submittedMsat, hamount, hmsat]
        show (satsToMsats send.amountSats).map some = _
        rw [satsToMsats_ok hfits]
        rfl
      have htold : TellsLdk D send msat := ⟨some msat, Ldk.submit_eq_call.mpr hsubmitted, rfl⟩
      have hexpected : expectedMsat D send = .ok msat := by
        rw [expectedMsat, offer_amount hoffer, hmsat]
        exact okOr_eq_ok.mpr (if_pos hfits)
      exact ⟨rfl, htold, hexpected, by omega, by omega, by omega, by omega, by omega⟩
  | invoice i hoffer hparse hmsat hround hsats hpos verified =>
      obtain ⟨i', hparse', htotal⟩ : ∃ i', D.parseInvoice send.invoice = .ok i' ∧
          (i'.amountMilliSatoshis.map fun a => (a + 999) / 1000).or send.amountOverride =
            some send.amountSats := by
        rcases hdecodes with ⟨-, ho, -⟩ | ⟨-, -, i', hi', -, htotal⟩
        · rw [hoffer] at ho
          cases ho
        · exact ⟨i', hi', htotal⟩
      obtain rfl := Except.ok.inj (hparse.symm.trans hparse')
      have hown : (D.parseInvoice send.invoice).toOption.bind (·.amountMilliSatoshis) =
          i.amountMilliSatoshis := by
        rw [hparse]
        rfl
      rcases hmsat with ⟨hamount, hnone⟩ | ⟨hamount, a, ha, rfl⟩
      · -- the invoice has its own amount
        rw [hamount] at htotal hown
        have htotal : (msat + 999) / 1000 = send.amountSats := Option.some.inj htotal
        have hsubmitted : submittedMsat send = .ok none := by
          rw [submittedMsat, hnone]
        have htold : TellsLdk D send msat := ⟨none, Ldk.submit_eq_call.mpr hsubmitted, hown⟩
        have hexpected : expectedMsat D send = .ok msat := by
          rw [expectedMsat, hown]
        exact ⟨by omega, htold, hexpected, by omega, by omega, by omega, by omega, by omega⟩
      · -- the client has given the amount
        rw [hamount, ha] at htotal
        rw [hamount] at hown
        obtain rfl : a = send.amountSats := Option.some.inj htotal
        have hsubmitted : submittedMsat send = .ok (some (send.amountSats * 1000)) := by
          rw [submittedMsat, ha]
          show (satsToMsats send.amountSats).map some = _
          rw [satsToMsats_ok hfits]
          rfl
        have htold : TellsLdk D send (send.amountSats * 1000) :=
          ⟨_, Ldk.submit_eq_call.mpr hsubmitted, rfl⟩
        have hexpected : expectedMsat D send = .ok (send.amountSats * 1000) := by
          rw [expectedMsat, hown]
          exact okOr_eq_ok.mpr (if_pos hfits)
        exact ⟨by omega, htold, hexpected, by omega, by omega, by omega, by omega, hfits⟩

/-- Every reading of the intent has the same amounts. -/
theorem AmountsAgree.congr {a : LightningSend} (hagree : AmountsAgree D send msat)
    (hs : a.SameIntent send) : AmountsAgree D a msat := by
  obtain ⟨told, expected, covers, tight, positive, fits, hlt⟩ := hagree
  refine ⟨?_, ?_, ?_, ?_, ?_, ?_, hlt⟩
  · obtain ⟨submitted, hcall, hmsat⟩ := told
    refine ⟨submitted, Ldk.submit_eq_call.mpr ?_, ?_⟩
    · rw [submittedMsat, hs.amountOverride]
      exact Ldk.submit_eq_call.mp hcall
    · rw [hs.invoice]
      exact hmsat
  · rw [expectedMsat, hs.amountSats, hs.invoice]
    exact expected
  · rwa [hs.amountSats]
  · rwa [hs.amountSats]
  · rwa [hs.amountSats]
  · rwa [hs.amountSats]

/-- A payment with the identity of the send passes exactly when it has the amount. -/
theorem AmountsAgree.validates_iff (hagree : AmountsAgree D send msat) {p : Payment}
    (hp : send.Expects p) :
    validateSendPayment D send p = .ok () ↔ p.amountMsat = some msat := by
  constructor
  · intro h
    obtain ⟨m, hm, -, ha, -⟩ := validateSendPayment_ok h
    rw [hagree.expected] at hm
    rw [ha, Except.ok.inj hm]
  · intro ha
    have hmatches : identityMatches send p = true := by
      have hid := hp.identity
      unfold identityMatches
      rcases hk : send.kind with - | -
      · rw [hk] at hid
        rcases hkind : p.kind with - | ⟨hash, preimage, fee⟩ | ⟨o, hash, preimage, note⟩ | -
        all_goals simp_all [PaymentKind.identity]
      · rw [hk] at hid
        rcases hkind : p.kind with - | ⟨hash, preimage, fee⟩ | ⟨o, hash, preimage, note⟩ | -
        all_goals simp_all [PaymentKind.identity]
    unfold validateSendPayment
    rw [hagree.expected]
    simp [bind, Except.bind, hp.direction, ha, hmatches, pure, Except.pure]

/-- No payment of another amount passes. -/
theorem AmountsAgree.rejects (hagree : AmountsAgree D send msat) {p : Payment}
    (ha : p.amountMsat ≠ some msat) : validateSendPayment D send p ≠ .ok () := by
  intro h
  obtain ⟨m, hm, -, hamount, -⟩ := validateSendPayment_ok h
  rw [hagree.expected] at hm
  exact ha (by rw [hamount, Except.ok.inj hm])

end agree

/-- **Amounts of sends.**  For every send that `prepare_send` accepts, whatever the replies to
its calls, the funding was verified for the sats that are recorded, they cover the millisatoshis
LDK is told to pay by less than one sat, and a payment made for the send passes exactly with
those. -/
theorem send_amounts {owner transfer invoice : String} {amount : Option Nat} {h : History Api}
    {send : LightningSend}
    (hrun : (Ldk.prepareSend D owner transfer invoice amount).run.After h (.ret (.ok send))) :
    ∃ msat, FundedAmount D h owner transfer invoice amount send.amountSats msat ∧
      (∀ (key network : String) (now : Nat) (row : RequestRow) (db db' : Db),
        db.prepareLightningSend send key network now = .ok (row, db') →
          ∃ r ∈ db'.sends.rows, r.intent.SameIntent send) ∧
      ∀ a : LightningSend, a.SameIntent send → AmountsAgree D a msat ∧
        (∀ p, a.Expects p → (validateSendPayment D a p = .ok () ↔ p.amountMsat = some msat)) ∧
        ∀ p : Payment, p.amountMsat ≠ some msat → validateSendPayment D a p ≠ .ok () := by
  have hend := hrun.wp (Ldk.prepareSend_amount (D := D) (h := []) owner transfer invoice amount).wp
  rw [List.append_nil] at hend
  obtain ⟨-, hreq, hfits, hdecodes, sats, msat, hfunded⟩ := hend
  obtain ⟨rfl, rfl, rfl, rfl⟩ := hreq
  obtain ⟨rfl, hagree⟩ := hfunded.agree hfits hdecodes
  refine ⟨msat, hfunded, ?_, fun a ha => ?_⟩
  · intro key network now row db db' hrow
    obtain ⟨requests, sends, transfers, -, -, hins, -, -, -, rfl⟩ :=
      Db.prepareLightningSend_ok hrow
    obtain ⟨-, hrows⟩ := Table.insert_eq_some hins
    exact ⟨Db.preparedRow send, hrows ▸ List.mem_cons_self, rfl, rfl, rfl, rfl, rfl, rfl, rfl, rfl⟩
  · have hagree' := hagree.congr ha
    exact ⟨hagree', fun p hp => hagree'.validates_iff hp, fun p hp => hagree'.rejects hp⟩

/-! ### A sample run -/

namespace Sample

/-- Replies under which a send of one sat is accepted. -/
def acceptsSend : Environment Api Unit
  | .db _, w => (.error "no reply", w)
  | .ldk _, w => (.error "no reply", w)
  | .spark (.queryHtlc ..), w => (.ok [funding 172800], w)
  | .spark _, w => (.error "no reply", w)
  | .acquire .., w => (.ok (), w)
  | .release _, w => ((), w)
  | .now, w => ((0 : Nat), w)
  | .systemTime, w => (SystemTime.epoch, w)
  | .newUuid, w => (uuid 1, w)
  | .polls, w => ((0 : Nat), w)
  | .timedOut, w => (false, w)
  | .oversized _, w => (false, w)
  | .validateQuote .., w => (.error "no reply", w)
  | .nextEvent, w => (none, w)
  | .mark _, w => ((), w)

def acceptedInvoice : String := "lnssp" ++ Bytes32.text (Bytes32.fill 0)

def accepted : LightningSend where
  requestId := (uuid 1).print
  owner := "alice"
  outboundTransferId := (uuid 7).print
  invoice := acceptedInvoice
  amountSats := 1
  amountOverride := none
  kind := .bolt11
  expectedId := Bytes32.text (Bytes32.fill 0)
  maxRouteCltv := some 48
  paymentId := none
  status := .prepared

end Sample

theorem send_amounts_one_sat : ∃ (send : LightningSend) (msat : Nat),
    AmountsAgree .sample send msat ∧
    validateSendPayment .sample send (Sample.routed .pending) = .ok () := by
  obtain ⟨h, hrun⟩ := Prog.after_eval Sample.acceptsSend (Ldk.prepareSend .sample "alice"
    (Sample.uuid 7).print Sample.acceptedInvoice none).run ()
  have hsend : ((Ldk.prepareSend .sample "alice" (Sample.uuid 7).print
      Sample.acceptedInvoice none).run.eval Sample.acceptsSend ()).1 = .ok Sample.accepted := by
    decide +kernel
  rw [hsend] at hrun
  obtain ⟨msat, -, -, hall⟩ := send_amounts hrun
  obtain ⟨hagree, hpasses, -⟩ := hall Sample.accepted (.refl _)
  have hexpected : expectedMsat .sample Sample.accepted = .ok 1000 := by decide +kernel
  have hmsat : (Sample.routed .pending).amountMsat = some msat := by
    rw [← Except.ok.inj (hexpected.symm.trans hagree.expected)]
    rfl
  exact ⟨Sample.accepted, msat, hagree, (hpasses _ ⟨rfl, rfl⟩).mpr hmsat⟩

end OpenSsp
