/-
OpenSsp/GraphqlContract.lean

The request handlers obey the contract, and with them every program of the machine.

Main result: `reach_justified`: in every reachable configuration, whatever is running
next to it, a call that a program is about to make is justified by that program's own
history.
-/
import OpenSsp.LdkContract

namespace OpenSsp

open Interleave

namespace Graphql

variable {D : Deployment} {h : History Api}

/-- Storing a request ends with the insert. -/
theorem storeRequest_meets {owner : String} {now : Nat} {payload : RequestPayload}
    (hs : StoresSound D payload) :
    Meets D anyEvent (storeRequest owner now payload)
      (fun id h' => ∃ older, h' = dbEvent (.insertRequest id owner now payload) () :: older) h := by
  have hinsert : ∀ h, Meets D anyEvent (do
      let id ← Ssp.tell .newUuid
      Ssp.db (.insertRequest id.print owner now payload)
      return id.print)
      (fun id h' => ∃ older, h' = dbEvent (.insertRequest id owner now payload) () :: older) h := by
    intro h
    refine Act.Spec.bind (Meets.tell_any (c := .newUuid) trivial fun _ => trivial)
      fun id h₁ _ _ => ?_
    refine Act.Spec.bind (Meets.db_eq (.insertRequest id.print owner now payload) hs
      fun _ => trivial) ?_
    rintro _ _ - rfl
    exact Act.Spec.pure ⟨h₁, rfl⟩
  have hsized : Meets D anyEvent (do
      if ← Ssp.tell (.oversized payload) then throw "request payload is too large"
      let id ← Ssp.tell .newUuid
      Ssp.db (.insertRequest id.print owner now payload)
      return id.print)
      (fun id h' => ∃ older, h' = dbEvent (.insertRequest id owner now payload) () :: older) h := by
    refine Act.Spec.bind (Meets.tell_any trivial fun _ => trivial) fun b h₁ _ _ => ?_
    exact Meets.guard fun _ => hinsert h₁
  cases payload with
  | leavesSwap p => exact hinsert h
  | _ => exact hsized

/-- The status of a receive is first set by the program that has just stored it. -/
theorem invoiceCreated_meets {id owner : String} {now : Nat} {p : ReceivePayload}
    {older : History Api} {hash : String} (hhash : p.paymentHash = hash) :
    Meets D anyEvent (Ssp.db (.setReceiveStatus hash .invoiceCreated)) (fun _ _ => True)
      (dbEvent (.insertRequest id owner now (.lightningReceive p)) () :: older) :=
  Meets.db_any ⟨.created id owner now p hhash .here, trivial⟩ fun _ => trivial

theorem sendResponseFromRecord_meets (record : RequestRow) :
    Meets D anyEvent (sendResponseFromRecord D record) (fun a _ => a.1 = record.id) h := by
  refine Act.Spec.bind (Meets.db_any (c := .requestUpdatedAt record.id) trivial
    fun _ => trivial) fun _ h₁ _ _ => ?_
  refine Act.Spec.bind (Ldk.paymentStatus_meets _) fun status h₂ _ _ => ?_
  split
  · exact Act.Spec.pure rfl
  · exact Act.Spec.pure rfl
  · exact Act.Spec.pure rfl

/-- The key that makes a send request idempotent. -/
def SendInput.key (input : SendInput) : String :=
  if input.idempotencyKey = "" then input.userOutboundTransferExternalId else input.idempotencyKey

/-- A request that names its transfer has a key. -/
theorem SendInput.key_ne {input : SendInput}
    (h : input.userOutboundTransferExternalId ≠ "") : input.key ≠ "" := by
  unfold SendInput.key
  split
  · exact h
  · next hkey => exact hkey

/-- How a send request has come by the record that answers it. -/
inductive AnswersWith (D : Deployment) (owner : String) (input : SendInput) (h : History Api)
    (record : RequestRow) : Prop
  | found (read : dbEvent (.findByIdempotency owner input.key) (some record) ∈ h)
      (same : samePayment record input = true)
  | prepared (send : LightningSend)
      (made : dbEvent (.prepareLightningSend send input.key D.networkName) record ∈ h)
      (requests : send.Requests owner input.userOutboundTransferExternalId input.encodedInvoice
        input.amountSats)

theorem AnswersWith.after {owner : String} {input : SendInput} {h h' : History Api}
    {record : RequestRow} {q : Event Api → Prop} (ha : AnswersWith D owner input h record)
    (he : Extends q h h') : AnswersWith D owner input h' record := by
  cases ha with
  | found read same => exact .found (he.mem read) same
  | prepared send made requests => exact .prepared send (he.mem made) requests

theorem requestLightningSend_meets (owner : String) (input : SendInput) :
    Meets D anyEvent (requestLightningSend D owner input)
      (fun a h' => ∃ record, AnswersWith D owner input h' record ∧ a.1 = record.id) h := by
  unfold requestLightningSend
  refine Meets.guard fun _ => Meets.guard fun htransfer => ?_
  refine Meets.locked ?_ (fun _ => trivial) (fun _ => trivial) ?_
  swap
  · rintro a x h' - ⟨record, ha, hid⟩
    exact ⟨record, ha.after (.one (q := anyEvent) trivial), hid⟩
  refine Act.Spec.bind (Meets.db_eq (.findByIdempotency owner input.key) trivial
    fun _ => trivial) ?_
  intro o h₁ _ hh₁
  have hread : dbEvent (.findByIdempotency owner input.key) o ∈ h₁ := hh₁ ▸ List.mem_cons_self
  -- a key that is not in use: the send is prepared, submitted and answered
  rcases o with - | record
  · refine Act.Spec.bind (Ldk.prepareSend_meets owner _ _ _) fun send h₂ _ ⟨hf, hreq⟩ => ?_
    have hfresh : send.paymentId = none ∧ send.status = .prepared := by
      cases hf with
      | bolt11 i items q t uuid kind invoice identity mem funds fresh => exact fresh.2
      | bolt12 u t uuid kind offer identity mem funds fresh => exact fresh.2
    refine Act.Spec.bind (Meets.db_eq (.prepareLightningSend send input.key D.networkName)
      ⟨hf, SendInput.key_ne htransfer⟩ fun _ => trivial) ?_
    rintro record _ - rfl
    refine Act.Spec.bind (Ldk.submitSend_meets (.prepared send input.key D.networkName record
      List.mem_cons_self hfresh (.refl send))) fun _ h₄ he₄ _ => ?_
    refine (sendResponseFromRecord_meets record).mono (fun _ h => h) fun a h₅ he₅ ha => ?_
    exact ⟨record, .prepared send ((he₄.trans he₅).mem List.mem_cons_self) hreq, ha⟩
  · refine Meets.guard fun hsame => ?_
    -- the stored request of the key, for the same payment
    have hfound : AnswersWith D owner input h₁ record := .found hread (not_not.mp hsame)
    refine Act.Spec.bind (Meets.db_eq (.lightningSendForPayment record.id) trivial
      fun _ => trivial) ?_
    rintro o h₂ he₂ hh₂
    -- with or without another submission, the answer is about that request
    have hrest : ∀ h₃, Extends anyEvent h₂ h₃ → Meets D anyEvent (sendResponseFromRecord D record)
          (fun a h' => ∃ record, AnswersWith D owner input h' record ∧ a.1 = record.id) h₃ :=
      fun h₃ he₃ => (sendResponseFromRecord_meets record).mono (fun _ h => h) fun a h₄ he₄ ha =>
        ⟨record, hfound.after ((he₂.trans he₃).trans he₄), ha⟩
    subst hh₂
    rcases o with - | send
    · exact hrest _ (.refl _)
    · exact Act.Spec.bind (Ldk.submitSend_meets (.read record.id send List.mem_cons_self
        (.refl send))) fun _ h₃ he₃ _ => hrest h₃ he₃

theorem requestLightningReceive_meets (owner : String) (input : ReceiveInput) :
    Meets D anyEvent (requestLightningReceive D owner input) (fun _ _ => True) h := by
  refine Act.Spec.bind (Meets.tell_any (c := .now) trivial fun _ => trivial) fun now h₁ _ _ => ?_
  refine Act.Spec.bind Meets.ofExcept_eq fun _ h₂ _ _ => ?_
  refine Act.Spec.bind Meets.ofExcept_eq fun _ h₃ _ _ => ?_
  refine Meets.guard fun _ => ?_
  refine Act.Spec.bind (Meets.db_any (c := .lightningReceiveForHash _) trivial
    fun _ => trivial) fun _ h₄ _ _ => ?_
  refine Meets.guard fun _ => ?_
  refine Act.Spec.bind Meets.ofExcept_eq fun receiver h₅ _ _ => ?_
  refine Act.Spec.bind (Meets.validateQuote fun _ => trivial) fun quote h₆ _ _ => ?_
  refine Act.Spec.bind Meets.ofExcept_eq fun expiry h₇ _ _ => ?_
  refine Act.Spec.bind (Meets.mapErr (Ldk.createInvoice_meets _ _ _ _))
    fun invoice h₈ _ hinvoice => ?_
  refine Act.Spec.bind (storeRequest_meets ⟨⟨_, rfl⟩, fun _ => hinvoice⟩) ?_
  rintro id _ - ⟨older, rfl⟩
  exact Act.Spec.bind (invoiceCreated_meets rfl) fun _ _ _ _ => Act.Spec.pure trivial

theorem requestBolt12Receive_meets (owner : String) (input : ReceiveInput) :
    Meets D anyEvent (requestBolt12Receive D owner input) (fun _ _ => True) h := by
  refine Act.Spec.bind (Meets.tell_any (c := .now) trivial fun _ => trivial) fun now h₁ _ _ => ?_
  refine Act.Spec.bind Meets.ofExcept_eq fun _ h₂ _ _ => ?_
  refine Act.Spec.bind Meets.ofExcept_eq fun _ h₃ _ _ => ?_
  refine Act.Spec.bind Meets.ofExcept_eq fun receiver h₄ _ _ => ?_
  refine Act.Spec.bind Meets.ofExcept_eq fun expiry h₅ _ _ => ?_
  refine Act.Spec.bind (Ldk.createBolt12Offer_meets _ _ _) fun r h₆ _ hid => ?_
  obtain ⟨offer, offerId⟩ := r
  refine Act.Spec.bind (storeRequest_meets ⟨hid, fun hk => absurd hk (by simp)⟩) ?_
  rintro id _ - ⟨older, rfl⟩
  exact Act.Spec.bind (invoiceCreated_meets rfl) fun _ _ _ _ => Act.Spec.pure trivial

theorem requestSwap_meets (owner : String) (input : SwapInput) :
    Meets D anyEvent (requestSwap D owner input) (fun _ _ => True) h := by
  refine Act.Spec.bind (Meets.tell_any (c := .now) trivial fun _ => trivial) fun now h₁ _ _ => ?_
  refine Meets.guard fun _ => Meets.guard fun _ => Meets.guard fun _ => Meets.guard fun _ =>
    Meets.guard fun _ => Meets.guard fun _ => ?_
  refine Act.Spec.bind Meets.ofExcept_eq fun target h₂ _ _ => ?_
  refine Meets.guard fun _ => Meets.guard fun _ => ?_
  refine Act.Spec.bind ((Spark.fillSwap_meets owner _ _ _ _ _).weaken fun _ _ => trivial)
    fun fill h₃ _ _ => ?_
  refine Act.Spec.bind (storeRequest_meets trivial) ?_
  rintro id _ - ⟨older, rfl⟩
  refine Act.Spec.bind (Meets.db_any (.inr ⟨by simp, owner, now, _, List.mem_cons_self⟩)
    fun _ => trivial) fun _ h₅ he₅ _ => ?_
  refine Act.Spec.bind (Meets.db_any (.inr ⟨by simp, owner, now, _, he₅.mem List.mem_cons_self⟩)
    fun _ => trivial) fun _ h₆ _ _ => ?_
  exact Act.Spec.bind (Meets.db_any trivial fun _ => trivial) fun _ _ _ _ => Act.Spec.pure trivial

end Graphql

theorem Service.storeRecord_meets {D : Deployment} {h : History Api} (service : Service)
    (owner transferId : String) :
    Meets D anyEvent (service.storeRecord owner transferId) (fun _ _ => True) h := by
  refine Act.Spec.bind (Meets.tell_any (c := .now) trivial fun _ => trivial) fun now h₁ _ _ => ?_
  refine Act.Spec.bind (Meets.tell_any (c := .newUuid) trivial fun _ => trivial)
    fun id h₂ _ _ => ?_
  exact Meets.db_any trivial fun _ => trivial

/-! ### Every program of the machine -/

variable {D : Deployment}

theorem Request.act_meets (r : Request) {h : History Api} :
    Meets D anyEvent (r.act D) (fun _ _ => True) h := by
  cases r with
  | lightningSend owner input => exact (Graphql.requestLightningSend_meets owner input).discard
  | lightningReceive owner input =>
      exact (Graphql.requestLightningReceive_meets owner input).discard
  | bolt12Receive owner input => exact (Graphql.requestBolt12Receive_meets owner input).discard
  | swap owner input => exact (Graphql.requestSwap_meets owner input).discard
  | paymentStatus id => exact (Ldk.paymentStatus_meets id).discard
  | reconcileRequest id => exact (Ldk.reconcileRequest_meets id).discard
  | storeRecord service owner transferId => exact service.storeRecord_meets owner transferId
  | storeTransfer requestId => exact Meets.db_any trivial fun _ => trivial
  | storeSuccess requestId => exact Meets.db_any trivial fun _ => trivial
  | event embedded => exact Ldk.eventPump_meets embedded
  | reconcile => exact Ldk.reconcilePayments_meets

theorem Request.handler_justified (r : Request) :
    (r.handler D).wp (Justified D) (fun _ _ => True) [] := by
  rw [Request.handler, Prog.wp_discard]
  exact Prog.wp_mono (r.act_meets (D := D)).wp fun _ _ _ => trivial

/-- **Every call of every run is justified** by the history of the program that makes
it. -/
theorem reach_justified {ok : Config (machine D) → Move (machine D) → Prop}
    {s : Config (machine D)} (hs : Reach ok s) {t : Nat} {c : Call}
    {k : Api.Reply c → Prog Api Unit} {hist : History Api}
    (h : s.thread t = some ⟨.call c k, hist⟩) : Justified D hist c :=
  hs.justified Request.handler_justified h

end OpenSsp
