/-
OpenSsp/Coop/Calls.lean

What the programs of cooperative exits store and send under fixed names, given what they have
seen: the transfer of a withdrawal is a UUID, the child of a payout is built from the stored
payout and signed by the wallet, and only a child that is stored is ever broadcast (`Known`).

Most functions make no such call at all (`Call.plain`); for the others one lemma each says what
they know when they make it.

Main results: `handler_known` and `bumpFee_known`, what a fee bump that succeeds has seen.
-/
import OpenSsp.Lib.Calls
import OpenSsp.Coop.Contract

namespace OpenSsp.Coop

open Interleave Bitcoin

variable {L : Library} {C : Service L} {h h' : History (Api L)} {record : ExitRecord L}

/-! ### The contract -/

/-- The wallet has signed a child of the payout that is stored for the exit. -/
structure NewChild (h : History (Api L)) (record : ExitRecord L) (parent : Bitcoin.Transaction)
    (feeRate maxFeeSats : Nat) (child : Bitcoin.Transaction) (fee : Nat) (raw : L.Raw) : Prop where
  payout : ∃ signed, record.signedExit = some signed ∧ L.deserializeHex signed = .ok parent
  built : ∃ destination,
    cpfpTransaction L parent record.feeSats feeRate maxFeeSats destination = .ok (child, fee)
  signed : ∃ reply, (⟨.signBump record.id child, .ok reply⟩ : Event (Api L)) ∈ h ∧
    reply.hex = some raw
  checked : validateSignedExit child raw = .ok ()

/-- The wallet's reply is evidence that stays. -/
theorem NewChild.mono {parent child : Bitcoin.Transaction} {feeRate maxFeeSats fee : Nat}
    {raw : L.Raw} (hn : NewChild h record parent feeRate maxFeeSats child fee raw)
    (hmem : ∀ e ∈ h, e ∈ h') : NewChild h' record parent feeRate maxFeeSats child fee raw := by
  obtain ⟨reply, hreply, hhex⟩ := hn.signed
  exact ⟨hn.payout, hn.built, ⟨reply, hmem _ hreply, hhex⟩, hn.checked⟩

/-- The child is stored for the exit. -/
def Stored (h : History (Api L)) (id : String) (raw : L.Raw) (rate : Nat) : Prop :=
  DbOk (.coopExitBump id) (some (raw, rate)) ∈ h ∨ DbOk (.insertCoopExitBump id raw rate) () ∈ h

/-- An exit is stored under a parsed transfer id, a child for a stored payout, and a sent child is
stored. -/
def Known (h : History (Api L)) : Call L → Prop
  | .db (.insertCoopExit record _) => ∃ id, TransferId.parse record.transferId = .ok id
  | .db (.insertCoopExitBump id raw rate) =>
      ∃ (record : ExitRecord L) (parent child : Bitcoin.Transaction) (maxFeeSats fee : Nat),
        record.id = id ∧ (∃ asked, DbOk (.coopExitById asked) record ∈ h) ∧
          NewChild h record parent rate maxFeeSats child fee raw
  | .sendBump id raw => ∃ rate, Stored h id raw rate
  | _ => True

/-- The calls that need to know nothing. -/
def Call.plain : Call L → Bool
  | .db (.insertCoopExit ..) => false
  | .db (.insertCoopExitBump ..) => false
  | .sendBump .. => false
  | _ => true

/-- Below the level of a new exit every call is plain. -/
theorem Call.plain_of_level {c : Call L} (hc : c.level ≤ 1) : c.plain = true := by
  cases c with
  | db q =>
      cases q with
      | insertCoopExit record outpoint => simp [Call.level] at hc
      | insertCoopExitBump id raw feeRate => simp [Call.level] at hc
      | _ => rfl
  | sendBump id raw => simp [Call.level] at hc
  | _ => rfl

/-- A plain call needs to know nothing. -/
theorem Call.plain_known {c : Call L} (hc : c.plain = true) : Known h c := by
  cases c with
  | db q =>
      cases q with
      | insertCoopExit record outpoint => cases hc
      | insertCoopExitBump id raw feeRate => cases hc
      | _ => trivial
  | sendBump id raw => cases hc
  | _ => trivial

/-- An action that makes plain calls only. -/
def Plain {α : Type} (act : Ssp L α) : Prop := Act.Calls (fun c : Call L => c.plain = true) act

/-- Nor does a plain action. -/
theorem Plain.known {α : Type} {act : Ssp L α} (hact : Plain act) (h : History (Api L)) :
    Act.Spec Known (fun _ => True) act (fun _ _ => True) h :=
  hact.spec (fun _ _ hc => Call.plain_known hc) h

/-! ### Plain functions -/

theorem ask_plain {α : Type} {c : Call L} {conv : c.Reply → Except String α}
    (hc : c.plain = true) : Plain (Act.ask (I := Api L) c conv) := .ask hc

theorem tell_plain {c : Call L} (hc : c.plain = true) : Plain (tell c) := .tell hc

/-- The lock stores nothing. -/
theorem locked_plain {α : Type} {l : Lock} {body : Ssp L α} (hbody : Plain body) :
    Plain (locked l body) :=
  Act.Calls.bracket (tell_plain (c := .lock l) rfl) (tell_plain (c := .unlock l) rfl) hbody

theorem Within.plain {α : Type} {act : Ssp L α} (hact : Within 1 act) : Plain act :=
  Act.Calls.mono hact fun _ => Call.plain_of_level

/-- An action that stays below the level knows enough. -/
theorem Within.known {α : Type} {act : Ssp L α} (hact : Within 1 act) (h : History (Api L)) :
    Act.Spec Known (fun _ => True) act (fun _ _ => True) h := hact.plain.known h

/-- To claim a transfer is plain, with its lock. -/
theorem claim_plain (record : ExitRecord L) : Plain (claim C record) := by
  apply locked_plain
  apply Act.Calls.ofExcept.bind
  intro id
  exact (claimTransfer_within id).plain

/-- A settled exit is written under the id that it has. -/
theorem settle_plain (record : ExitRecord L) : Plain (settle C record) := by
  apply (ask_plain rfl).bind
  intro _
  apply (claim_plain record).bind
  intro _
  exact (ask_plain rfl).bind fun _ => .pure

/-! ### Requests -/

/-- The transfer of a request that passes the checks has a parsed id. -/
theorem checkRequest_transferId {request : ExitInput} {key : ExitKey}
    (h : checkRequest request = .ok key) : ∃ id, TransferId.parse key.transferId = .ok id := by
  unfold checkRequest at h
  obtain ⟨_, -, h⟩ := bind_ok h
  obtain ⟨speed, -, h⟩ := bind_ok h
  obtain ⟨transferId, -, h⟩ := bind_ok h
  obtain ⟨parsed, hparsed, h⟩ := bind_ok h
  obtain ⟨-, h⟩ := guard_ok h
  obtain ⟨-, h⟩ := guard_ok h
  obtain rfl := Except.ok.inj h
  refine ⟨parsed, ?_⟩
  show okOr _ (Uuid.parse transferId) = _
  rw [okOr_eq_ok.mp hparsed]
  rfl

/-- A program that takes the lock and gives it back. -/
theorem locked_known {α : Type} {body : Ssp L α} {R : α → History (Api L) → Prop}
    (hR : ∀ a h h', R a h → (∀ e ∈ h, e ∈ h') → R a h')
    (hbody : ∀ h, Act.Spec Known (fun _ => True) body R h) (h : History (Api L)) :
    Act.Spec Known (fun _ => True) (locked .exits body) R h := by
  refine .bracket (T := fun _ _ => True) ((tell_plain rfl).known h) (fun h' _ _ => hbody h')
    fun h' _ => ?_
  refine ((tell_plain (c := Call.unlock .exits) rfl).known h').mono (fun _ hx => hx) ?_
  exact fun _ h'' he _ a ha => hR a h' h'' ha fun e hmem => he.mem hmem

/-- The id was checked before the reservation. -/
theorem reserve_known {owner : String} {request : ExitInput} {key : ExitKey} {quote : ExitQuote}
    {address : Address} {payout : Nat} {ls : List ExitLeaf}
    (hid : ∃ id, TransferId.parse key.transferId = .ok id) (h : History (Api L)) :
    Act.Spec Known (fun _ => True) (reserve C owner request key quote address payout ls)
      (fun _ _ => True) h := by
  refine .bind ((ask_plain rfl).known _) fun reserved _ _ _ => ?_
  refine .bind Act.Spec.ofExcept_eq fun needed _ _ _ => ?_
  refine .bind ((fund_within reserved needed).known _) fun coin _ _ _ => ?_
  refine .bind (walletAddress_within.known _) fun intermediateAddress _ _ _ => ?_
  refine .bind (walletAddress_within.known _) fun changeAddress _ _ _ => ?_
  refine .bind ((connectorOutputs_within _).known _) fun outputs _ _ _ => ?_
  refine .bind ((tell_plain rfl).known _) fun id _ _ _ => ?_
  refine .bind ((tell_plain rfl).known _) fun createdAt _ _ _ => ?_
  refine .bind ((tell_plain rfl).known _) fun expiresAt h' _ _ => ?_
  -- the record is stored under the transfer that was checked
  refine .bind (Act.Spec.ask (R := fun _ _ => True) hid (fun _ => trivial) fun _ _ _ => trivial)
    fun _ _ _ _ => ?_
  exact (response_within _).known _

/-- The same for everything between the check and the reservation. -/
theorem requestNew_known {owner : String} {request : ExitInput} {key : ExitKey}
    (hid : ∃ id, TransferId.parse key.transferId = .ok id) (h : History (Api L)) :
    Act.Spec Known (fun _ => True) (requestNew C owner request key) (fun _ _ => True) h := by
  refine .bind ((ask_plain rfl).known _) fun pending _ _ _ => ?_
  refine .guard fun _ => ?_
  refine .bind ((quoteFor_within owner request).known _) fun quote _ _ _ => ?_
  refine .bind Act.Spec.ofExcept_eq fun address _ _ _ => ?_
  refine .bind ((tell_plain rfl).known _) fun now _ _ _ => ?_
  refine .guard fun _ => ?_
  refine .bind ((leaves_within owner _).known _) fun ls _ _ _ => ?_
  refine .bind ((withdrawalAmount_within request quote key.speed ls owner).known _)
    fun amount _ _ _ => ?_
  refine .guard fun _ => ?_
  exact reserve_known hid _

/-- A request that was made before stores nothing. -/
theorem request_known (owner : String) (input : ExitInput) (h : History (Api L)) :
    Act.Spec Known (fun _ => True) (request C owner input) (fun _ _ => True) h := by
  refine .bind Act.Spec.ofExcept_eq fun key _ _ ⟨hkey, _⟩ => ?_
  refine locked_known (fun _ _ _ _ _ => trivial) (fun h => ?_) _
  refine .bind ((ask_plain rfl).known _) fun found _ _ _ => ?_
  rcases found with - | record
  · exact requestNew_known (checkRequest_transferId hkey) _
  · exact .guard fun _ => (response_within record).known _

/-! ### Payouts -/

/-- A child that is sent again has been read from its table. -/
theorem broadcast_known (record : ExitRecord L) (h : History (Api L)) :
    Act.Spec Known (fun _ => True) (broadcast record) (fun _ _ => True) h := by
  refine .bind ((ask_plain rfl).known _) fun _ _ _ _ => ?_
  refine .bind ((ask_plain rfl).known _) fun _ _ _ _ => ?_
  refine .bind (Act.Spec.ask_eq (I := Api L) trivial fun _ => trivial) ?_
  rintro bump _ - ⟨r, hr, rfl⟩
  obtain rfl : r = .ok bump := hr
  rcases bump with - | ⟨raw, rate⟩
  · exact .pure trivial
  · refine .bind (Act.Spec.ask (R := fun _ _ => True) ⟨rate, .inl List.mem_cons_self⟩
      (fun _ => trivial) fun _ _ _ => trivial) fun _ _ _ _ => ?_
    exact .pure trivial

/-- Only the broadcast of a stored child needs to know something. -/
theorem advance_known (record : ExitRecord L) (h : History (Api L)) :
    Act.Spec Known (fun _ => True) (advance C record) (fun _ _ => True) h := by
  refine .ite (fun _ => .pure trivial) fun _ => ?_
  refine .bind Act.Spec.ofExcept_eq fun exit _ _ _ => ?_
  refine .bind ((sign_within le_rfl exit record).known _) fun record _ _ _ => ?_
  refine .bind ((ask_plain rfl).known _).attempt fun observed _ _ _ => ?_
  refine .guard fun _ => ?_
  exact .ite (fun _ => broadcast_known record _) fun _ => (settle_plain record).known _

/-- The request that completes an exit advances it. -/
theorem complete_known (owner transferId : String) (coopExitRequestId : Option String)
    (h : History (Api L)) :
    Act.Spec Known (fun _ => True) (complete C owner transferId coopExitRequestId)
      (fun _ _ => True) h := by
  refine locked_known (fun _ _ _ _ _ => trivial) (fun h => ?_) _
  refine .bind ((ask_plain rfl).known _) fun found _ _ _ => ?_
  refine .bind Act.Spec.ofExcept_eq fun record _ _ _ => ?_
  refine .guard fun _ => ?_
  refine .guard fun _ => ?_
  refine .bind (advance_known record _) fun record _ _ _ => ?_
  exact (response_within record).known _

/-- A query of an exit stores nothing. -/
theorem get_known (id owner : String) (h : History (Api L)) :
    Act.Spec Known (fun _ => True) (get (L := L) id owner) (fun _ _ => True) h := by
  refine .bind ((ask_plain rfl).known _) fun found _ _ _ => ?_
  rcases found with - | record
  · exact .pure trivial
  · exact .bind ((response_within record).known _) fun _ _ _ _ => .pure trivial

/-- Expiry and recovery store no exit. -/
theorem reconcile_known (record : ExitRecord L) (h : History (Api L)) :
    Act.Spec Known (fun _ => True) (reconcile C record) (fun _ _ => True) h := by
  have hadvance : ∀ h : History (Api L), Act.Spec Known (fun _ => True)
      (do
        let _ ← Act.attempt (advance C record)
        return ()) (fun _ _ => True) h :=
    fun h => .bind (advance_known record h).attempt fun _ _ _ _ => .pure trivial
  refine .bind ((overdue_within record).known _) fun late _ _ _ => ?_
  refine .ite (fun _ => ?_) fun _ => hadvance _
  refine .bind ((transferExists_within record.transferId).known _).attempt fun found h' _ _ => ?_
  rcases found with e | found
  · exact .pure trivial
  · cases found with
    | true => exact hadvance h'
    | false => exact .bind ((ask_plain rfl).known _).attempt fun _ _ _ _ => .pure trivial

/-- Each pending exit on its own. -/
theorem pass_known (h : History (Api L)) :
    Act.Spec Known (fun _ => True) (pass C) (fun _ _ => True) h := by
  refine locked_known (fun _ _ _ _ _ => trivial) (fun h => ?_) _
  refine .bind ((ask_plain rfl).known _).attempt fun records _ _ _ => ?_
  rcases records with e | records
  · exact .pure trivial
  · exact .forEach (K := fun _ _ => True) (fun record _ h' _ _ => reconcile_known record h')
      fun _ _ _ _ => trivial

/-! ### Fee bumps -/

/-- The child was stored already: its fee is what its first output leaves of the change. -/
structure BumpedAgain (h : History (Api L)) (id : String) (parent child : Bitcoin.Transaction)
    (maxFeeSats fee : Nat) : Prop where
  stored : ∃ raw rate, DbOk (.coopExitBump id) (some (raw, rate)) ∈ h ∧
    L.deserializeHex raw = .ok child
  paid : ∃ change payout, parent.output[2]? = some change ∧ child.output.head? = some payout ∧
    payout.value ≤ change.value ∧ fee = change.value.toNat - payout.value.toNat
  budget : fee ≤ maxFeeSats

/-- The child is new, and has been stored before it was sent. -/
structure BumpedFirst (h : History (Api L)) (record : ExitRecord L)
    (parent child : Bitcoin.Transaction) (maxFeeSats fee : Nat) : Prop where
  stored : ∃ raw rate, DbOk (.insertCoopExitBump record.id raw rate) () ∈ h ∧
    NewChild h record parent rate maxFeeSats child fee raw

/-- What a fee bump that succeeds has seen: the signed payout, and the child it has sent. -/
structure Bumped (h : History (Api L)) (id : String) (maxFeeSats : Nat) (answer : BumpResponse)
    (record : ExitRecord L) (parent child : Bitcoin.Transaction) : Prop where
  read : DbOk (.coopExitById id) record ∈ h
  payout : ∃ signed, record.signedExit = some signed ∧ L.deserializeHex signed = .ok parent
  parentTxid : answer.parentTxid = L.computeTxid parent
  txid : answer.txid = L.computeTxid child
  sent : BumpedAgain h id parent child maxFeeSats answer.feeSats ∨
    BumpedFirst h record parent child maxFeeSats answer.feeSats

/-- What a fee bump has seen stays in the history. -/
theorem Bumped.mono {id : String} {maxFeeSats : Nat} {answer : BumpResponse}
    {parent child : Bitcoin.Transaction} (hb : Bumped h id maxFeeSats answer record parent child)
    (hmem : ∀ e ∈ h, e ∈ h') : Bumped h' id maxFeeSats answer record parent child := by
  refine ⟨hmem _ hb.read, hb.payout, hb.parentTxid, hb.txid, ?_⟩
  rcases hb.sent with ⟨⟨raw, rate, hraw, hchild⟩, hfee, hbudget⟩ | ⟨raw, rate, hraw, hnew⟩
  · exact .inl ⟨⟨raw, rate, hmem _ hraw, hchild⟩, hfee, hbudget⟩
  · exact .inr ⟨raw, rate, hmem _ hraw, hnew.mono hmem⟩

/-- A stored child is sent again, with the fee it was built for. -/
theorem rebroadcast_known {id : String} {parent : Bitcoin.Transaction} {raw : L.Raw}
    {previousRate feeRate maxFeeSats : Nat}
    (hstored : DbOk (.coopExitBump id) (some (raw, previousRate)) ∈ h)
    (hread : DbOk (.coopExitById id) record ∈ h)
    (hpayout : ∃ signed, record.signedExit = some signed ∧ L.deserializeHex signed = .ok parent) :
    Act.Spec Known (fun _ => True) (rebroadcast id parent raw previousRate feeRate maxFeeSats)
      (fun answer h' => ∃ child, Bumped h' id maxFeeSats answer record parent child) h := by
  unfold rebroadcast
  refine .guard fun _ => ?_
  refine .bind Act.Spec.ofExcept_eq ?_
  rintro child _ - ⟨hchild, rfl⟩
  refine .bind Act.Spec.ofExcept_eq ?_
  rintro change _ - ⟨hchange, rfl⟩
  refine .bind Act.Spec.ofExcept_eq ?_
  rintro payout _ - ⟨hout, rfl⟩
  refine .guard fun hlarge => ?_
  refine .guard fun hbudget => ?_
  refine .bind (Act.Spec.ask_eq (I := Api L) ⟨previousRate, .inl hstored⟩ fun _ => trivial) ?_
  intro _ h' he _
  refine .pure ⟨child, he.mem hread, hpayout, rfl, rfl, .inl ⟨⟨raw, previousRate,
    he.mem hstored, hchild⟩, ⟨change, payout, okOr_eq_ok.mp hchange, okOr_eq_ok.mp hout, ?_, rfl⟩,
    ?_⟩⟩
  · simpa using hlarge
  · exact Nat.not_lt.mp hbudget

/-- The wallet signs the child before it is stored, and it is stored before it is sent. -/
theorem newBump_known {id : String} {parent : Bitcoin.Transaction} {feeRate maxFeeSats : Nat}
    (hread : DbOk (.coopExitById id) record ∈ h)
    (hpayout : ∃ signed, record.signedExit = some signed ∧ L.deserializeHex signed = .ok parent) :
    Act.Spec Known (fun _ => True) (newBump record parent feeRate maxFeeSats)
      (fun answer h' => ∃ child, Bumped h' id maxFeeSats answer record parent child) h := by
  refine .bind ((ask_plain rfl).known _) fun unspent h₁ he₁ _ => ?_
  refine .guard fun _ => ?_
  refine .bind (walletAddress_within.known _) fun destination h₂ he₂ _ => ?_
  refine .bind Act.Spec.ofExcept_eq ?_
  rintro ⟨child, fee⟩ _ - ⟨hbuilt, rfl⟩
  refine .bind (Act.Spec.ask_eq (I := Api L) (c := .signBump record.id child) trivial
    fun _ => trivial) ?_
  rintro reply h₃ he₃ ⟨r, hr, hh₃⟩
  obtain rfl : r = .ok reply := hr
  have hreply : (⟨.signBump record.id child, .ok reply⟩ : Event (Api L)) ∈ h₃ :=
    hh₃ ▸ List.mem_cons_self
  clear hh₃
  refine .guard fun _ => ?_
  refine .bind Act.Spec.ofExcept_eq ?_
  rintro raw _ - ⟨hraw, rfl⟩
  refine .bind Act.Spec.ofExcept_eq ?_
  rintro _ _ - ⟨hchecked, rfl⟩
  have hread₃ := he₃.mem (he₂.mem (he₁.mem hread))
  have hnew : NewChild _ record parent feeRate maxFeeSats child fee raw :=
    ⟨hpayout, ⟨_, hbuilt⟩, ⟨reply, hreply, okOr_eq_ok.mp hraw⟩, hchecked⟩
  -- stored first, then sent
  refine .bind (Act.Spec.ask_eq (I := Api L) (c := .db (.insertCoopExitBump record.id raw feeRate))
    ⟨record, parent, child, maxFeeSats, fee, rfl, ⟨id, hread₃⟩, hnew⟩ fun _ => trivial) ?_
  rintro _ h₄ he₄ ⟨r, hr, rfl⟩
  obtain rfl : r = .ok () := hr
  refine .bind (Act.Spec.ask_eq (I := Api L) ⟨feeRate, .inr List.mem_cons_self⟩
    fun _ => trivial) ?_
  rintro _ h₅ he₅ ⟨r, -, rfl⟩
  refine .pure ⟨child, he₅.mem (he₄.mem hread₃), hpayout, rfl, rfl, .inr ⟨raw, feeRate,
    he₅.mem List.mem_cons_self, hnew.mono fun e he => he₅.mem (he₄.mem he)⟩⟩

/-- A fee bump that succeeds answers for the child it has sent. -/
theorem bumpFee_known (id : String) (feeRate maxFeeSats : Nat) (h : History (Api L)) :
    Act.Spec Known (fun _ => True) (bumpFee (L := L) id feeRate maxFeeSats)
      (fun answer h' => ∃ record parent child,
        Bumped h' id maxFeeSats answer record parent child) h := by
  unfold bumpFee
  refine .guard fun _ => ?_
  refine locked_known ?_ (fun h => ?_) _
  · rintro answer h h' ⟨record, parent, child, hb⟩ hmem
    exact ⟨record, parent, child, hb.mono hmem⟩
  refine .bind (Act.Spec.ask_eq (I := Api L) (c := .db (.coopExitById id)) trivial
    fun _ => trivial) ?_
  rintro record _ - ⟨r, hr, rfl⟩
  obtain rfl : r = .ok record := hr
  refine .guard fun _ => ?_
  refine .bind Act.Spec.ofExcept_eq ?_
  rintro signed _ - ⟨hsigned, rfl⟩
  refine .bind Act.Spec.ofExcept_eq ?_
  rintro parent _ - ⟨hparent, rfl⟩
  have hpayout : ∃ signed, record.signedExit = some signed ∧
      L.deserializeHex signed = .ok parent := ⟨signed, okOr_eq_ok.mp hsigned, hparent⟩
  refine .bind ((ask_plain rfl).known _) fun observed h₁ he₁ _ => ?_
  refine .guard fun _ => ?_
  refine .bind (Act.Spec.ask_eq (I := Api L) (c := .db (.coopExitBump id)) trivial
    fun _ => trivial) ?_
  rintro bump h₂ he₂ ⟨r, hr, rfl⟩
  obtain rfl : r = .ok bump := hr
  have hread := he₂.mem (he₁.mem (List.mem_cons_self (a := DbOk (.coopExitById id) record)))
  rcases bump with - | ⟨raw, previousRate⟩
  · refine (newBump_known hread hpayout).mono (fun _ hx => hx) ?_
    rintro answer h' - ⟨child, hb⟩
    exact ⟨record, parent, child, hb⟩
  · refine (rebroadcast_known List.mem_cons_self hread hpayout).mono (fun _ hx => hx) ?_
    rintro answer h' - ⟨child, hb⟩
    exact ⟨record, parent, child, hb⟩

/-- Every program knows what it needs. -/
theorem handler_known (r : Request) : (r.handler C).wp Known (fun _ _ => True) [] := by
  have hdone : ∀ {α : Type} {act : Ssp L α} {R : α → History (Api L) → Prop},
      Act.Spec Known (fun _ => True) act R [] →
        (discard act.run : Prog (Api L) Unit).wp Known (fun _ _ => True) [] := by
    intro α act R hspec
    rw [Prog.wp_discard]
    exact Prog.wp_mono hspec.wp fun _ _ _ => trivial
  cases r with
  | quote owner ids address => exact hdone ((quote_within owner ids address).known _)
  | request owner input => exact hdone (request_known owner input _)
  | complete owner transferId requestId => exact hdone (complete_known owner transferId requestId _)
  | get id owner => exact hdone (get_known id owner _)
  | bumpFee id feeRate maxFeeSats => exact hdone (bumpFee_known id feeRate maxFeeSats _)
  | pass => exact hdone (pass_known _)

end OpenSsp.Coop
