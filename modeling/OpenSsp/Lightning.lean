/-
OpenSsp/Lightning.lean

Durable Lightning intents, the LDK payments they are matched against, and the checks
that connect the two (`lightning_store.rs` types, `ldk.rs` pure functions).

Main results: `payerNote_injective` and the inversion lemmas of `validateSendPayment`
(`validateSendPayment_bolt11`, `validateSendPayment_bolt12`): a payment that passes is
outbound and carries the intent's identity.
-/
import OpenSsp.Deployment

namespace OpenSsp

open Interleave

/-! ### Rows and their enumerations -/

inductive SendKind where
  | bolt11
  | bolt12
deriving DecidableEq

inductive SendStatus where
  | prepared
  | submitting
  | pending
  | settling
  | refunding
  | succeeded
  | failed
deriving DecidableEq

inductive ReceiveStatus where
  | invoiceCreated
  | htlcReceived
  | htlcFailed
  | transferCreated
  | transferCompleted
  | transferCreationFailed
  | preimageRecovered
  | preimageRecoveryFailed
  | lightningReceived
deriving DecidableEq

/-- `status IN ('SUCCEEDED','FAILED')` -/
def SendStatus.final : SendStatus → Bool
  | succeeded => true
  | failed => true
  | _ => false

structure LightningSend where
  requestId : String
  owner : String
  outboundTransferId : String
  invoice : String
  amountSats : Nat
  amountOverride : Option Nat
  kind : SendKind
  expectedId : String
  /-- The most total CLTV the BOLT11 route may take; `none` for BOLT12. -/
  maxRouteCltv : Option Nat
  paymentId : Option String
  status : SendStatus
deriving DecidableEq

/-- The note that marks the payment of an offer. -/
def LightningSend.payerNote (send : LightningSend) : String := "open-ssp:" ++ send.requestId

theorem payerNote_injective {a b : LightningSend} (h : a.payerNote = b.payerNote) :
    a.requestId = b.requestId := by
  have h' := congrArg String.toList h
  simp only [LightningSend.payerNote, String.toList_append, List.append_cancel_left_eq] at h'
  exact String.toList_inj.mp h'

/-- `a` and `b` are two readings of one intent: everything but the progress agrees. -/
structure LightningSend.SameIntent (a b : LightningSend) : Prop where
  requestId : a.requestId = b.requestId
  owner : a.owner = b.owner
  outboundTransferId : a.outboundTransferId = b.outboundTransferId
  invoice : a.invoice = b.invoice
  amountSats : a.amountSats = b.amountSats
  amountOverride : a.amountOverride = b.amountOverride
  kind : a.kind = b.kind
  expectedId : a.expectedId = b.expectedId

namespace LightningSend.SameIntent

theorem refl (a : LightningSend) : a.SameIntent a := ⟨rfl, rfl, rfl, rfl, rfl, rfl, rfl, rfl⟩

theorem symm {a b : LightningSend} (h : a.SameIntent b) : b.SameIntent a :=
  ⟨h.1.symm, h.2.symm, h.3.symm, h.4.symm, h.5.symm, h.6.symm, h.7.symm, h.8.symm⟩

theorem trans {a b c : LightningSend} (h : a.SameIntent b) (h' : b.SameIntent c) :
    a.SameIntent c :=
  ⟨h.1.trans h'.1, h.2.trans h'.2, h.3.trans h'.3, h.4.trans h'.4, h.5.trans h'.5,
    h.6.trans h'.6, h.7.trans h'.7, h.8.trans h'.8⟩

end LightningSend.SameIntent

/-- A receive, with what is known of its payment. -/
structure LightningReceive where
  requestId : String
  owner : String
  receiver : String
  amountSats : Nat
  invoice : String
  status : ReceiveStatus
  transferId : Option String
  preimage : Option String
  claimSubmitted : Bool
  paymentId : Option String

/-! ### LDK payments -/

inductive PaymentDirection where
  | inbound
  | outbound
deriving DecidableEq

inductive PaymentStatus where
  | pending
  | succeeded
  | failed
deriving DecidableEq

/-- `payment_kind::Kind`; kinds the program never matches on are `other`. -/
inductive PaymentKind where
  | bolt11 (hash : String) (preimage : Option String) (counterpartySkimmedFeeMsat : Option Nat)
  | bolt12Offer (offerId : String) (hash preimage payerNote : Option String)
  | other
deriving DecidableEq

/-- A snapshot of one LDK payment. -/
structure Payment where
  paymentId : String
  kind : Option PaymentKind
  amountMsat : Option Nat
  direction : PaymentDirection
  status : PaymentStatus
deriving DecidableEq

/-- An HTLC the node can claim. -/
structure ClaimableReceive where
  paymentId : String
  paymentHash : String
  amountMsat : Option Nat
deriving DecidableEq

/-- Events used by settlement, independent of the node transport. -/
inductive LnEvent where
  | outboundSucceeded (payment : Payment)
  | outboundFailed (paymentId : String) (reason : Option String)
  | inboundClaimable (payment : ClaimableReceive)
  | inboundReceived (paymentId paymentHash : String)
  | inboundBolt12Received (offerId paymentHash : String) (preimage : Option String)
      (amountMsat : Option Nat)

/-- The preimage of an offer's payment. -/
def bolt12Preimage (payment : Payment) : Option String :=
  match payment.kind with
  | some (.bolt12Offer _ _ preimage _) => preimage
  | _ => none

/-- The ids of an offer's payment. -/
def bolt12OfferIds (payment : Payment) : Option (String × String) :=
  match payment.kind with
  | some (.bolt12Offer offerId hash _ _) => hash.map fun hash => (offerId, hash)
  | _ => none

/-- The hash of a BOLT11 payment. -/
def bolt11Hash (payment : Payment) : Option String :=
  match payment.kind with
  | some (.bolt11 hash _ _) => some hash
  | _ => none

/-- The amount of a BOLT11 payment that can be claimed. -/
def bolt11ClaimableAmount (payment : Payment) : Option Nat :=
  match payment.kind with
  | some (.bolt11 _ _ skimmed) => payment.amountMsat.bind fun amount =>
      if skimmed.getD 0 ≤ amount then some (amount - skimmed.getD 0) else none
  | _ => none

/-! ### Matching a payment with an intent -/

/-- The amount LDK must have been asked to pay: the invoice's own, else the intent's. -/
def expectedMsat (D : Deployment) (send : LightningSend) : Except String Nat :=
  match (D.parseInvoice send.invoice).toOption.bind (·.amountMilliSatoshis) with
  | some msat => .ok msat
  | none => okOr "send amount is too large" (checkedMul send.amountSats 1000)

/-- The payment is the send's, by its id or its note. -/
def identityMatches (send : LightningSend) (payment : Payment) : Bool :=
  let knownId := send.paymentId == some payment.paymentId
  match send.kind, payment.kind with
  | .bolt11, some (.bolt11 hash _ _) =>
      hash == send.expectedId || (knownId && send.expectedId == "")
  | .bolt12, some (.bolt12Offer offerId _ _ payerNote) =>
      (offerId == send.expectedId || (knownId && send.expectedId == "")) &&
        (knownId || payerNote == some send.payerNote)
  | _, _ => false

/-- The payment is what the send was meant to be. -/
def validateSendPayment (D : Deployment) (send : LightningSend) (payment : Payment) :
    Except String Unit := do
  let expectedMsat ← expectedMsat D send
  if payment.direction ≠ .outbound ∨ payment.amountMsat ≠ some expectedMsat then
    throw "LDK payment direction or amount does not match the send intent"
  if ¬ identityMatches send payment then
    throw "LDK payment identity does not match the send intent"

section validateSendPayment

variable {D : Deployment} {send : LightningSend} {payment : Payment}

theorem validateSendPayment_ok (h : validateSendPayment D send payment = .ok ()) :
    ∃ msat, expectedMsat D send = .ok msat ∧ payment.direction = .outbound ∧
      payment.amountMsat = some msat ∧ identityMatches send payment = true := by
  unfold validateSendPayment at h
  rcases hm : expectedMsat D send with e | msat
  · simp [hm, bind, Except.bind] at h
  · simp only [hm, bind, Except.bind] at h
    by_cases hd : payment.direction ≠ .outbound ∨ payment.amountMsat ≠ some msat
    · simp [hd, throw, throwThe, MonadExceptOf.throw] at h
    · by_cases hi : identityMatches send payment = true
      · push Not at hd
        exact ⟨msat, rfl, hd.1, hd.2, hi⟩
      · simp [hd, hi, throw, throwThe, MonadExceptOf.throw] at h

/-- A payment accepted for a BOLT11 intent pays the intent's hash. -/
theorem validateSendPayment_bolt11 (h : validateSendPayment D send payment = .ok ())
    (hk : send.kind = .bolt11) (he : send.expectedId ≠ "") :
    ∃ preimage fee, payment.kind = some (.bolt11 send.expectedId preimage fee) := by
  obtain ⟨-, -, -, -, hi⟩ := validateSendPayment_ok h
  rcases hp : payment.kind with - | k
  · simp [identityMatches, hk, hp] at hi
  · cases k with
    | bolt11 hash preimage fee =>
        have hh : hash = send.expectedId := by simpa [identityMatches, hk, hp, he] using hi
        exact ⟨preimage, fee, by rw [hh]⟩
    | bolt12Offer => simp [identityMatches, hk, hp] at hi
    | other => simp [identityMatches, hk, hp] at hi

/-- A payment accepted for a BOLT12 intent pays the intent's offer, and it carries the
intent's note unless it is the payment already bound. -/
theorem validateSendPayment_bolt12 (h : validateSendPayment D send payment = .ok ())
    (hk : send.kind = .bolt12) (he : send.expectedId ≠ "") :
    ∃ hash preimage note, payment.kind = some (.bolt12Offer send.expectedId hash preimage note) ∧
      (send.paymentId = some payment.paymentId ∨ note = some send.payerNote) := by
  obtain ⟨-, -, -, -, hi⟩ := validateSendPayment_ok h
  rcases hp : payment.kind with - | k
  · simp [identityMatches, hk, hp] at hi
  · cases k with
    | bolt11 => simp [identityMatches, hk, hp] at hi
    | bolt12Offer offerId hash preimage note =>
        simp only [identityMatches, hk, hp, Bool.and_eq_true, Bool.or_eq_true, beq_iff_eq, he,
          and_false, or_false] at hi
        exact ⟨hash, preimage, note, by rw [hi.1], hi.2⟩
    | other => simp [identityMatches, hk, hp] at hi

/-- Acceptance pins the kind of the payment to the kind of the intent. -/
theorem validateSendPayment_kind (h : validateSendPayment D send payment = .ok ()) :
    (send.kind = .bolt11 ∧ ∃ hash preimage fee, payment.kind = some (.bolt11 hash preimage fee)) ∨
    (send.kind = .bolt12 ∧
      ∃ o hash preimage note, payment.kind = some (.bolt12Offer o hash preimage note)) := by
  obtain ⟨-, -, -, -, hi⟩ := validateSendPayment_ok h
  rcases hp : payment.kind with - | k
  · cases hk : send.kind <;> simp [identityMatches, hk, hp] at hi
  · cases hk : send.kind with
    | bolt11 =>
        cases k with
        | bolt11 hash preimage fee => exact .inl ⟨rfl, hash, preimage, fee, rfl⟩
        | bolt12Offer => simp [identityMatches, hk, hp] at hi
        | other => simp [identityMatches, hk, hp] at hi
    | bolt12 =>
        cases k with
        | bolt11 => simp [identityMatches, hk, hp] at hi
        | bolt12Offer o hash preimage note => exact .inr ⟨rfl, o, hash, preimage, note, rfl⟩
        | other => simp [identityMatches, hk, hp] at hi

end validateSendPayment

/-! ### Preimages and the invoices the program issues -/

/-- The preimage belongs to the hash. -/
def validatePreimage (paymentHash preimage : String) : Except String Unit := do
  let bytes ← okOr "preimage is not hex" (hexDecode preimage)
  if bytes.length ≠ 32 then throw "preimage must be 32 bytes"
  if hexEncode (sha256 bytes) ≠ lowercase paymentHash then
    throw "preimage does not match the Lightning payment hash"

/-- `preimage` is the text of 32 bytes whose digest `paymentHash` spells. -/
def IsPreimage (paymentHash preimage : String) : Prop :=
  ∃ p : Bytes32, Bytes32.parse preimage = some p ∧ p.computeHash.text = lowercase paymentHash

theorem isPreimage_of_validatePreimage {hash preimage : String}
    (h : validatePreimage hash preimage = .ok ()) : IsPreimage hash preimage := by
  unfold validatePreimage at h
  rcases hb : hexDecode preimage with - | bytes
  · simp [hb, bind, Except.bind] at h
  · simp only [hb, okOr_some, bind, Except.bind] at h
    by_cases hl : bytes.length = 32
    · by_cases hd : hexEncode (sha256 bytes) = lowercase hash
      · exact ⟨⟨bytes, hl⟩, by simp [Bytes32.parse, hb, Bytes32.ofBytes, hl], hd⟩
      · simp [hl, hd, throw, throwThe, MonadExceptOf.throw] at h
    · simp [hl, throw, throwThe, MonadExceptOf.throw] at h

/-- Some Signet clients issue invoices with the older Testnet currency code. -/
def sendNetworkMatches (invoice configured : Network) : Bool :=
  invoice == configured ||
    match invoice, configured with
    | .testnet, .signet => true
    | .signet, .testnet => true
    | _, _ => false

/-- The invoice the node has made is the one it was asked for. -/
def validateCreatedInvoice (D : Deployment) (invoice paymentHash : String) (amountSats : Nat) :
    Except String Unit := do
  let decoded ← D.parseInvoice invoice
  if decoded.paymentHash.text ≠ lowercase paymentHash then
    throw "created invoice payment hash does not match the wallet hash"
  let msat ← satsToMsats amountSats
  if decoded.amountMilliSatoshis ≠ some msat then
    throw "created invoice amount does not match the requested amount"
  if decoded.network ≠ D.invoiceNetwork then
    throw "created invoice network does not match the SSP network"

theorem parseInvoice_of_validateCreatedInvoice {D : Deployment} {invoice hash : String}
    {amount : Nat} (h : validateCreatedInvoice D invoice hash amount = .ok ()) :
    ∃ i, D.parseInvoice invoice = .ok i := by
  unfold validateCreatedInvoice at h
  rcases hp : D.parseInvoice invoice with e | i
  · simp [hp, bind, Except.bind] at h
  · exact ⟨i, rfl⟩

/-- `str::contains` -/
def contains (text needle : String) : Bool := text.toList.tails.any fun t => needle.toList.isPrefixOf t

/-- Errors that no committed transfer can hide behind. -/
def isDefinitiveSwapFailure (error : String) : Bool :=
  ["Insufficient", "insufficient", "Unselectable", "unselectable", "NEEDS_TOPUP"].any
    fun needle => contains error needle

example : isDefinitiveSwapFailure "NEEDS_TOPUP: no leaves" = true := by decide +kernel

end OpenSsp
