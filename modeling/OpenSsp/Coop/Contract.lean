/-
OpenSsp/Coop/Contract.lean

The contract of the programs of cooperative exits: which calls they make, given what they have
seen.

A program writes an exit only while it holds the lock and from a record it has read or written
itself and not touched since (`Fresh`): it stores a signature it has checked, moves a signed exit
on, or lets one expire whose transfer the operators have just denied.  It has the wallet sign
only what it has verified, and broadcasts only what it knows to be stored.

Main result: `handler_justified`.
-/
import OpenSsp.Lib.Calls
import OpenSsp.Coop.Balance

namespace OpenSsp.Coop

open Interleave Bitcoin

variable {L : Library} {C : Service L} {h h' : History (Api L)} {e x : Event (Api L)}
  {A B : String → Prop} {record : ExitRecord L}

/-! ### What a history says -/

def DbOk (q : Query L) (out : q.Out) : Event (Api L) := ⟨.db q, .ok out⟩

/-- The event shows the record of an exit. -/
inductive Shows (e : Event (Api L)) (record : ExitRecord L) : Prop
  | byKey (owner key transfer : String)
      (he : e = DbOk (.coopExitByKey owner key transfer) (some record))
  | pending (records : List (ExitRecord L)) (he : e = DbOk .pendingCoopExits records)
      (hmem : record ∈ records)
  | saved (he : e = DbOk (.updateCoopExit record) ())

/-- Pending exits are different ones, and none of them is finished. -/
structure Genuine (h : History (Api L)) : Prop where
  distinct : ∀ records, DbOk .pendingCoopExits records ∈ h → (records.map (·.id)).Nodup
  live : ∀ records, DbOk .pendingCoopExits records ∈ h → ∀ record ∈ records,
    record.status.terminal = false

/-- What is genuine now was so at every earlier point. -/
theorem Genuine.before {q : Event (Api L) → Prop} (hg : Genuine h') (he : Extends q h h') :
    Genuine h :=
  ⟨fun records hr => hg.distinct records (he.mem hr), fun records hr => hg.live records (he.mem hr)⟩

/-- The call writes no exit outside `A` and does not move the lock. -/
def Keeps (A : String → Prop) (x : Event (Api L)) : Prop :=
  (x.call ≠ Call.lock .exits ∧ x.call ≠ Call.unlock .exits) ∧
    ∀ q id, x.call = Call.db q → q.saves = some id → A id

/-- To keep fewer exits alone is weaker. -/
theorem Keeps.mono (hx : Keeps A x) (hAB : ∀ id, A id → B id) : Keeps B x :=
  ⟨hx.1, fun q id hq hs => hAB id (hx.2 q id hq hs)⟩

/-- The program has taken the lock and not given it away. -/
def Holds (h : History (Api L)) : Prop :=
  ∃ e, e.call = Call.lock .exits ∧
    Since (fun x : Event (Api L) => ¬ x.call = Call.unlock .exits) e h

/-- The lock is held on as long as nothing else is written. -/
theorem Holds.after (hh : Holds h) (he : Extends (Keeps A) h h') : Holds h' := by
  obtain ⟨e, hl, hs⟩ := hh
  exact ⟨e, hl, hs.after (he.mono fun x hx => hx.1.2)⟩

/-- The program has seen the record, and not written the exit since. -/
def Fresh (record : ExitRecord L) (h : History (Api L)) : Prop :=
  ∃ e, Shows e record ∧ Since (Keeps (· ≠ record.id)) e h

/-- A record is fresh as long as no other write goes to its exit. -/
theorem Fresh.after (hf : Fresh record h) (he : Extends (Keeps A) h h')
    (hA : ∀ id, A id → id ≠ record.id) : Fresh record h' := by
  obtain ⟨e, hshow, hs⟩ := hf
  exact ⟨e, hshow, hs.after (he.mono fun x hx => hx.mono hA)⟩

section seen

variable (C) (seen : Event (Api L) → Prop) (record)

/-- The operators have reported the user's transfer, and it pays this exit. -/
def Accepted : Prop :=
  ∃ id transfer, TransferId.parse record.transferId = .ok id ∧
    seen ⟨.queryTransfer id, .ok (some transfer)⟩ ∧
    validateCoopExitTransfer C transfer record = .ok ()

/-- The payout has been observed with a confirmation. -/
def Confirmed : Prop :=
  ∃ exit n, L.deserializeHex record.rawExit = .ok exit ∧
    seen ⟨.getTransaction (L.computeTxid exit), .ok (some n)⟩ ∧ 1 ≤ n

/-- The user's transfer to the SSP has been processed, unless it was complete already, and is
complete. -/
def Claimed : Prop :=
  ∃ id found claimed, TransferId.parse record.transferId = .ok id ∧
    seen ⟨.getTransfer id, .ok (some found)⟩ ∧ found.transferType = .cooperativeExit ∧
    found.receiverIdentityPublicKey = C.identity ∧
    (found.status ≠ .completed → seen ⟨.processTransfer id, .ok ()⟩) ∧
    seen ⟨.getTransfer id, .ok (some claimed)⟩ ∧ claimed.status = .completed

end seen

section mono

variable {p q : Event (Api L) → Prop} (hpq : ∀ e, p e → q e)
include hpq

/-- Evidence of one history is evidence of a longer one. -/
theorem Accepted.mono (ha : Accepted C record p) : Accepted C record q := by
  obtain ⟨id, transfer, hid, hseen, hv⟩ := ha
  exact ⟨id, transfer, hid, hpq _ hseen, hv⟩

theorem Confirmed.mono (hc : Confirmed record p) : Confirmed record q := by
  obtain ⟨exit, n, hexit, hseen, hn⟩ := hc
  exact ⟨exit, n, hexit, hpq _ hseen, hn⟩

theorem Claimed.mono (hc : Claimed C record p) : Claimed C record q := by
  obtain ⟨id, found, claimed, hid, hfound, htype, hreceiver, hprocessed, hclaimed, hst⟩ := hc
  exact ⟨id, found, claimed, hid, hpq _ hfound, htype, hreceiver,
    fun hne => hpq _ (hprocessed hne), hpq _ hclaimed, hst⟩

end mono

/-! ### The contract -/

/-- What a program may write over a record. -/
inductive Change (C : Service L) (h : History (Api L)) (base : ExitRecord L) :
    ExitRecord L → Prop
  | sign (exit : Bitcoin.Transaction) (raw : L.Raw) (hnew : base.signedExit = none)
      (hexit : L.deserializeHex base.rawExit = .ok exit)
      (hraw : validateSignedExit exit raw = .ok ()) :
      Change C h base { base with signedExit := some raw, status := .inboundTransferChecked }
  | broadcast (hsigned : base.signedExit.isSome) :
      Change C h base { base with status := .txBroadcasted }
  | confirm (hsigned : base.signedExit.isSome) :
      Change C h base { base with status := .onChainTxConfirmed }
  | succeed (hsigned : base.signedExit.isSome) (hconfirmed : Confirmed base (· ∈ h))
      (hclaimed : Claimed C base (· ∈ h)) : Change C h base { base with status := .succeeded }
  | expire (id : Uuid) (hnew : base.signedExit = none)
      (hid : TransferId.parse base.transferId = .ok id)
      (hnone : h.head? = some ⟨.queryTransfer id, .ok none⟩) :
      Change C h base { base with status := .expired }

/-- No change of a record changes its id. -/
theorem Change.id_eq {base : ExitRecord L} (hc : Change C h base record) : record.id = base.id := by
  cases hc <;> rfl

/-- What a program knows about an exit it inserts. -/
structure Reserving (h : History (Api L)) (record : ExitRecord L) (outpoint : OutPoint) :
    Prop where
  spends : ∃ outputs, record.rawExit = L.serializeHex (transaction [outpoint] outputs)
  unsigned : record.signedExit = none
  initiated : record.status = .initiated
  nonePending : Since (Keeps fun _ => False)
    (DbOk (.coopExitPendingForOwner record.owner) false) h
  unreserved : ∃ reserved, Since (Keeps fun _ => False) (DbOk .coopReservedInputs reserved) h ∧
    outpoint ∉ reserved
  balanced : ∃ f, Balanced (· ∈ h) record outpoint f

def Justified (C : Service L) (h : History (Api L)) : Call L → Prop
  | .db (.insertCoopExit record outpoint) => Holds h ∧ Reserving h record outpoint
  | .db (.updateCoopExit record) => Holds h ∧ (Genuine h → ∃ base, Fresh base h ∧
      base.status.terminal = false ∧ Change C h base record)
  | .signPayout id raw => Holds h ∧ (Genuine h → ∃ base, Fresh base h ∧ base.id = id ∧
      base.rawExit = raw ∧ base.signedExit = none ∧ base.status.terminal = false ∧
      Accepted C base (· ∈ h))
  | .sendPayout id raw => Holds h ∧ (Genuine h → ∃ base, Fresh base h ∧ base.id = id ∧
      base.signedExit = raw ∧ raw.isSome)
  | _ => True

/-- The calls that anybody may make. -/
def Call.quiet : Call L → Bool
  | .lock l => l != .exits
  | .unlock l => l != .exits
  | .db q => q.saves.isNone
  | .signPayout .. => false
  | .sendPayout .. => false
  | _ => true

/-- A quiet call needs no ground. -/
theorem Call.quiet_justified {c : Call L} (hc : c.quiet = true) : Justified C h c := by
  cases c with
  | db q =>
      cases q with
      | insertCoopExit record outpoint => simp [Call.quiet, Query.saves] at hc
      | updateCoopExit record => simp [Call.quiet, Query.saves] at hc
      | _ => trivial
  | signPayout id raw => simp [Call.quiet] at hc
  | sendPayout id raw => simp [Call.quiet] at hc
  | _ => trivial

/-- Nor does it write an exit. -/
theorem Call.quiet_keeps {c : Call L} {r : c.Reply} (hc : c.quiet = true) :
    Keeps A (⟨c, r⟩ : Event (Api L)) := by
  refine ⟨⟨?_, ?_⟩, fun q id hq hs => ?_⟩
  · rintro rfl
    simp [Call.quiet] at hc
  · rintro rfl
    simp [Call.quiet] at hc
  · obtain rfl : c = .db q := hq
    simp [Call.quiet, hs] at hc

/-! ### What the functions do -/

/-- What a call does at most: it signs, sends or rewrites a payout (1), stores an exit or a child, or
sends a child (2), takes or gives back a lock (3), or does none of these (0). -/
def Call.level : Call L → Nat
  | .lock _ => 3
  | .unlock _ => 3
  | .db (.insertCoopExit ..) => 2
  | .db (.insertCoopExitBump ..) => 2
  | .sendBump .. => 2
  | .db (.updateCoopExit _) => 1
  | .signPayout .. => 1
  | .sendPayout .. => 1
  | _ => 0

theorem Call.quiet_of_level {c : Call L} (hc : c.level = 0) : c.quiet = true := by
  cases c with
  | lock l => cases hc
  | unlock l => cases hc
  | db q =>
      cases q with
      | insertCoopExit record outpoint => cases hc
      | updateCoopExit record => cases hc
      | _ => rfl
  | signPayout id raw => cases hc
  | sendPayout id raw => cases hc
  | _ => rfl

/-- An action whose calls do no more than those of level `n`. -/
def Within {α : Type} (n : Nat) (act : Ssp L α) : Prop :=
  Act.Calls (fun c : Call L => c.level ≤ n) act

section within

variable {α : Type} {n : Nat}

theorem Within.mono {m : Nat} {act : Ssp L α} (hact : Within m act) (hmn : m ≤ n) :
    Within n act :=
  Act.Calls.mono hact fun _ hc => hc.trans hmn

theorem ask_within {c : Call L} {conv : c.Reply → Except String α} (hc : c.level ≤ n) :
    Within n (Act.ask (I := Api L) c conv) := .ask hc

/-- A call that does nothing of interest is allowed at every level. -/
theorem look_within {c : Call L} {conv : c.Reply → Except String α} (hc : c.level = 0) :
    Within n (Act.ask (I := Api L) c conv) := ask_within (hc.trans_le (Nat.zero_le n))

theorem tell_within {c : Call L} (hc : c.level = 0) : Within n (tell c) :=
  .tell (hc.trans_le (Nat.zero_le n))

theorem walletAddress_within : Within n (walletAddress (L := L)) :=
  (look_within rfl).bind fun _ => .ofExcept

theorem leaves_within (owner : String) (ids : List String) : Within n (leaves C owner ids) := by
  apply (look_within rfl).bind
  intro nodes
  exact Act.Calls.ofExcept.bind fun _ => .ofExcept

theorem response_within (record : ExitRecord L) : Within n (response record) := by
  apply (look_within rfl).bind
  intro _
  exact Act.Calls.ofExcept.bind fun _ => .pure

theorem feeRate_within (blocks : Nat) : Within n (feeRate C blocks) := by
  apply (look_within rfl).bind
  intro rate
  rcases rate with - | value
  · exact .ite .pure .throw
  · exact Act.Calls.ofExcept.bind fun _ => .pure

theorem quote_within (owner : String) (ids : List String) (address : String) :
    Within n (quote C owner ids address) := by
  apply Act.Calls.ofExcept.bind
  intro _
  apply Act.Calls.ofExcept.bind
  intro address
  apply (leaves_within owner ids).bind
  intro leaves
  apply (feeRate_within 2).bind
  intro fast
  apply (feeRate_within 6).bind
  intro medium
  apply (feeRate_within 12).bind
  intro slow
  apply Act.Calls.ofExcept.bind
  intro fees
  apply (tell_within rfl).bind
  intro id
  apply (tell_within rfl).bind
  intro createdAt
  apply (tell_within rfl).bind
  intro expiresAt
  exact (look_within rfl).bind fun _ => .pure

theorem quoteFor_within (owner : String) (request : ExitInput) :
    Within n (quoteFor C owner request) := by
  unfold quoteFor
  split
  · exact (look_within rfl).bind fun _ => .ofExcept
  · exact quote_within owner _ _

theorem withdrawalAmount_within (request : ExitInput) (quote : ExitQuote) (speed : Fin 3)
    (ls : List ExitLeaf) (owner : String) :
    Within n (withdrawalAmount C request quote speed ls owner) := by
  apply Act.Calls.ofExcept.bind
  intro fees
  apply Act.Calls.ofExcept.bind
  intro amount
  apply Act.Calls.ite
  · exact .ite .throw (.ite .throw .pure)
  · apply Act.Calls.ofExcept.bind
    intro _
    apply (leaves_within owner _).bind
    intro feeLeaves
    apply Act.Calls.ofExcept.bind
    intro feeTotal
    apply Act.Calls.guard
    exact Act.Calls.ofExcept.bind fun _ => .pure

theorem connectorOutputs_within (m : Nat) : Within n (connectorOutputs (L := L) m) := by
  induction m with
  | zero => exact .pure
  | succ m ih =>
      apply walletAddress_within.bind
      intro address
      exact Act.Calls.bind ih fun _ => .pure

theorem fund_within (reserved : List OutPoint) (needed : Nat) :
    Within n (fund (L := L) reserved needed) := by
  apply (look_within rfl).bind
  intro unspent
  exact Act.Calls.ofExcept.bind fun _ => .ofExcept

theorem verify_within (record : ExitRecord L) : Within n (verify C record) := by
  apply Act.Calls.ofExcept.bind
  intro id
  apply (look_within rfl).bind
  intro transfer
  exact Act.Calls.ofExcept.bind fun _ => .ofExcept

theorem claimTransfer_within (id : Uuid) : Within n (claimTransfer C id) := by
  apply (look_within rfl).bind
  intro transfer
  apply Act.Calls.ofExcept.bind
  intro transfer
  apply Act.Calls.guard
  have hprocess : Within n (processUnlessCompleted (L := L) id transfer) :=
    .ite .pure (look_within rfl)
  apply hprocess.bind
  intro _
  apply (look_within rfl).bind
  intro transfer
  apply Act.Calls.ofExcept.bind
  intro transfer
  exact .ite .throw .pure

theorem overdue_within (record : ExitRecord L) : Within n (overdue record) :=
  .ite .pure ((tell_within rfl).bind fun _ => .pure)

theorem transferExists_within (id : String) : Within n (transferExists (L := L) id) := by
  apply Act.Calls.ofExcept.bind
  intro id
  exact (look_within rfl).bind fun _ => .pure

theorem sign_within (hn : 1 ≤ n) (exit : Bitcoin.Transaction) (record : ExitRecord L) :
    Within n (sign C exit record) := by
  apply Act.Calls.ite .pure
  apply (verify_within record).bind
  intro _
  apply (look_within rfl).bind
  intro _
  apply (ask_within hn).bind
  intro signed
  apply Act.Calls.guard
  apply Act.Calls.ofExcept.bind
  intro raw
  apply Act.Calls.ofExcept.bind
  intro _
  exact (ask_within hn).bind fun _ => .pure

theorem broadcast_within (hn : 2 ≤ n) (record : ExitRecord L) : Within n (broadcast record) := by
  apply (ask_within (Nat.le_of_succ_le hn)).bind
  intro _
  apply (ask_within (Nat.le_of_succ_le hn)).bind
  intro _
  apply (look_within rfl).bind
  rintro (- | ⟨raw, rate⟩)
  · exact .pure
  · exact (ask_within hn).bind fun _ => .pure

theorem reserve_within (hn : 2 ≤ n) (owner : String) (request : ExitInput) (key : ExitKey)
    (quote : ExitQuote) (address : Address) (payout : Nat) (ls : List ExitLeaf) :
    Within n (reserve C owner request key quote address payout ls) := by
  apply (look_within rfl).bind
  intro reserved
  apply Act.Calls.ofExcept.bind
  intro needed
  apply (fund_within reserved needed).bind
  intro coin
  apply walletAddress_within.bind
  intro intermediate
  apply walletAddress_within.bind
  intro change
  apply (connectorOutputs_within _).bind
  intro outputs
  apply (tell_within rfl).bind
  intro id
  apply (tell_within rfl).bind
  intro createdAt
  apply (tell_within rfl).bind
  intro expiresAt
  exact (ask_within hn).bind fun _ => response_within _

theorem requestNew_within (hn : 2 ≤ n) (owner : String) (request : ExitInput) (key : ExitKey) :
    Within n (requestNew C owner request key) := by
  apply (look_within rfl).bind
  intro pending
  apply Act.Calls.guard
  apply (quoteFor_within owner request).bind
  intro quote
  apply Act.Calls.ofExcept.bind
  intro address
  apply (tell_within rfl).bind
  intro now
  apply Act.Calls.guard
  apply (leaves_within owner _).bind
  intro ls
  apply (withdrawalAmount_within ..).bind
  intro amount
  apply Act.Calls.guard
  exact reserve_within hn ..

theorem rebroadcast_within (hn : 2 ≤ n) (id : String) (parent : Bitcoin.Transaction) (raw : L.Raw)
    (previous feeRate maxFeeSats : Nat) :
    Within n (rebroadcast (L := L) id parent raw previous feeRate maxFeeSats) := by
  unfold rebroadcast
  apply Act.Calls.guard
  apply Act.Calls.ofExcept.bind
  intro child
  apply Act.Calls.ofExcept.bind
  intro change
  apply Act.Calls.ofExcept.bind
  intro payout
  apply Act.Calls.guard
  apply Act.Calls.guard
  exact (ask_within hn).bind fun _ => .pure

theorem newBump_within (hn : 2 ≤ n) (record : ExitRecord L) (parent : Bitcoin.Transaction)
    (feeRate maxFeeSats : Nat) :
    Within n (newBump (L := L) record parent feeRate maxFeeSats) := by
  apply (look_within rfl).bind
  intro unspent
  apply Act.Calls.guard
  apply walletAddress_within.bind
  intro destination
  apply Act.Calls.ofExcept.bind
  intro bump
  apply (look_within rfl).bind
  intro signed
  apply Act.Calls.guard
  apply Act.Calls.ofExcept.bind
  intro raw
  apply Act.Calls.ofExcept.bind
  intro _
  apply (ask_within hn).bind
  intro _
  exact (ask_within hn).bind fun _ => .pure

end within

/-! ### Rules for the calls -/

/-- A quiet question can be asked anywhere. -/
theorem ask_meets {α : Type} {c : Call L} {conv : c.Reply → Except String α}
    (hc : c.quiet = true) :
    Act.Spec (Justified C) (Keeps A) (Act.ask (I := Api L) c conv)
      (fun a h' => ∃ r, conv r = .ok a ∧ h' = ⟨c, r⟩ :: h) h :=
  .ask_eq (I := Api L) (Call.quiet_justified hc) fun _ => Call.quiet_keeps hc

theorem tell_meets {c : Call L} (hc : c.quiet = true) :
    Act.Spec (Justified C) (Keeps A) (tell c) (fun r h' => h' = ⟨c, r⟩ :: h) h :=
  .tell_eq (I := Api L) (Call.quiet_justified hc) fun _ => Call.quiet_keeps hc

/-- A query is allowed on its ground, and writes the exit it saves alone. -/
theorem db_meets {q : Query L} (hj : Justified C h (.db q))
    (hq : ∀ id, q.saves = some id → A id) :
    Act.Spec (Justified C) (Keeps A) (db q) (fun out h' => h' = DbOk q out :: h) h := by
  refine (Act.Spec.ask_eq (I := Api L) (c := .db q) hj fun r => ?_).mono (fun _ => id) ?_
  · refine ⟨⟨by simp, by simp⟩, fun q' id hq' hs => ?_⟩
    obtain rfl : q = q' := by injection hq'
    exact hq id hs
  · rintro out h' - ⟨r, hr, rfl⟩
    obtain rfl : r = .ok out := hr
    rfl

/-- A statement that writes no exit. -/
theorem read_meets {q : Query L} (hq : q.saves = none) :
    Act.Spec (Justified C) (Keeps A) (db q) (fun out h' => h' = DbOk q out :: h) h :=
  db_meets (Call.quiet_justified (by simp [Call.quiet, hq])) fun id hs => by simp [hq] at hs

/-- What writes no exit can be run at any point, and is known to have written none. -/
theorem quietly {α : Type} {act : Ssp L α} {R : α → History (Api L) → Prop}
    (hx : Act.Spec (Justified C) (Keeps fun _ => False) act R h) :
    Act.Spec (Justified C) (Keeps A) act
      (fun a h' => Extends (Keeps fun _ => False) h h' ∧ R a h') h :=
  hx.mono (fun _ hx => hx.mono fun _ hf => hf.elim) fun _ _ he hr => ⟨he, hr⟩

/-- What does nothing of interest meets the contract anywhere. -/
theorem Within.meets {α : Type} {act : Ssp L α} (hact : Within 0 act) :
    Act.Spec (Justified C) (Keeps A) act (fun _ _ => True) h := by
  have hquiet : Act.Calls (fun c : Call L => c.quiet = true) act :=
    Act.Calls.mono hact fun _ hc => Call.quiet_of_level (Nat.le_zero.mp hc)
  have hspec := Act.Calls.spec_after (P := Justified C) hquiet
    (fun _ _ hc => Call.quiet_justified hc) (R := fun _ _ => True)
    (Act.Calls.spec hquiet (fun _ _ _ => trivial) []) h
  exact hspec.mono (fun _ hc => Call.quiet_keeps hc) fun _ _ _ _ => trivial

/-! ### Requests -/

/-- The operators' leaves are those that were asked for, in this order. -/
theorem leaves_meets {owner : String} {ids : List String} :
    Act.Spec (Justified C) (Keeps A) (leaves C owner ids)
      (fun ls _ => ls.map (·.id) = ids) h := by
  refine .bind (ask_meets rfl) fun nodes _ _ _ => ?_
  refine .bind Act.Spec.ofExcept_eq fun owner _ _ _ => ?_
  exact .ofExcept fun _ hls => mapM_exitLeaf_ids hls

/-- The payout is what is left of the leaves, or of the named sum, after the fee. -/
theorem withdrawalAmount_meets {request : ExitInput} {quote : ExitQuote} {speed : Fin 3}
    {ls : List ExitLeaf} {owner : String} (hids : validateIds request.leafExternalIds = .ok ())
    (hls : ls.map (·.id) = request.leafExternalIds) :
    Act.Spec (Justified C) (Keeps A) (withdrawalAmount C request quote speed ls owner)
      (fun amount _ => Priced quote speed amount.1 amount.2) h := by
  refine .bind Act.Spec.ofExcept_eq ?_
  rintro fees _ - ⟨hfees, rfl⟩
  obtain ⟨rfl, -⟩ := checkedAdd_eq_some (okOr_eq_ok.mp hfees)
  refine .bind Act.Spec.ofExcept_eq ?_
  rintro amount _ - ⟨hamount, rfl⟩
  obtain ⟨hsum, hrange⟩ := total_ok hamount
  refine .ite (fun _ => .ite (fun _ => .throw) fun _ => .ite (fun _ => .throw)
    fun hcovers => .pure ?_) fun _ => ?_
  · -- the leaves cover everything
    obtain ⟨hne, hcount, hnodup⟩ := validateIds_ok hids
    exact ⟨by show (ls.map (·.value)).sum = _; omega, by show (ls.map (·.value)).sum < _; omega,
      fun hnil => hne (by rw [← hls]; exact List.map_eq_nil_iff.mpr hnil),
      by rw [← List.length_map, hls]; exact hcount, hls ▸ hnodup⟩
  refine .bind Act.Spec.ofExcept_eq fun _ _ _ _ => ?_
  refine .bind leaves_meets fun feeLeaves _ _ _ => ?_
  refine .bind Act.Spec.ofExcept_eq ?_
  rintro feeTotal _ - ⟨hfeeTotal, rfl⟩
  refine .guard fun hexact => ?_
  replace hexact : feeTotal = quote.userFee + quote.fees speed := by simpa using hexact
  refine .bind Act.Spec.ofExcept_eq ?_
  rintro _ _ - ⟨hall, rfl⟩
  refine .pure ?_
  -- these leaves are the payout, and the others the fees
  obtain ⟨hfeeSum, hfeeRange⟩ := total_ok hfeeTotal
  obtain ⟨hne, hcount, hnodup⟩ := validateIds_ok hall
  have hboth : ((ls ++ feeLeaves).map (·.value)).sum = amount + feeTotal := by
    rw [List.map_append, List.sum_append, hsum, hfeeSum]
  exact ⟨by show ((ls ++ feeLeaves).map (·.value)).sum = _; omega,
    by show ((ls ++ feeLeaves).map (·.value)).sum < _; omega,
    fun hnil => hne (List.map_eq_nil_iff.mpr hnil), by rw [← List.length_map]; exact hcount, hnodup⟩

/-- By induction on the number of connectors. -/
theorem connectorOutputs_meets (n : Nat) : ∀ h : History (Api L),
    Act.Spec (Justified C) (Keeps A) (connectorOutputs n)
      (fun outputs _ => outputs.length = n ∧
        ∀ output ∈ outputs, output.value = UInt64.ofNat connectorSats) h := by
  induction n with
  | zero => exact fun h => .pure ⟨rfl, by simp⟩
  | succ n ih =>
      intro h
      refine .bind walletAddress_within.meets fun address h₁ _ _ => ?_
      refine .bind (ih h₁) fun outputs _ _ houtputs => ?_
      refine .pure ⟨by rw [List.length_cons, houtputs.1], fun output houtput => ?_⟩
      rcases List.mem_cons.mp houtput with rfl | houtput
      · rfl
      · exact houtputs.2 output houtput

/-- A coin that is chosen is not reserved. -/
theorem candidates_unreserved {reserved : List OutPoint} {needed : Nat} {coins : List Coin} :
    ∀ {chosen : List (Nat × OutPoint)}, candidates reserved needed coins = .ok chosen →
      ∀ coin ∈ chosen, coin.2 ∉ reserved := by
  induction coins with
  | nil =>
      intro chosen h
      obtain rfl := Except.ok.inj h
      simp
  | cons coin coins ih =>
      intro chosen h
      unfold candidates at h
      split at h
      · exact ih h
      · obtain ⟨amount, -, h⟩ := bind_ok h
        obtain ⟨script, -, h⟩ := bind_ok h
        split at h
        · exact ih h
        · obtain ⟨outpoint, -, h⟩ := bind_ok h
          obtain ⟨others, hothers, h⟩ := bind_ok h
          obtain rfl := Except.ok.inj h
          split
          · exact ih hothers
          · next hfree =>
              intro c hc
              rcases List.mem_cons.mp hc with rfl | hc
              · exact hfree
              · exact ih hothers c hc

/-- The coin that is selected was listed. -/
theorem selectCoin_mem {coins : List (Nat × OutPoint)} {coin : Nat × OutPoint}
    (h : selectCoin coins = some coin) : coin ∈ coins :=
  (List.mergeSort_perm _ _).mem_iff.mp (List.mem_of_head? h)

/-- The coin is listed and not reserved, and it is worth enough. -/
theorem fund_meets {reserved : List OutPoint} {needed : Nat} :
    Act.Spec (Justified C) (Keeps A) (fund reserved needed)
      (fun coin h' => coin.2 ∉ reserved ∧ needed ≤ coin.1 ∧ ∃ coins value,
        (⟨.listUnspent, .ok coins⟩ : Event (Api L)) ∈ h' ∧ coin.1 = value.toNat ∧
          Listed coins value coin.2) h := by
  refine .bind (ask_meets rfl) ?_
  rintro unspent _ - ⟨r, hr, rfl⟩
  obtain rfl : r = .ok unspent := hr
  refine .bind Act.Spec.ofExcept_eq ?_
  rintro coins _ - ⟨hcoins, rfl⟩
  refine .ofExcept fun coin hcoin => ?_
  have hchosen := selectCoin_mem (okOr_eq_ok.mp hcoin)
  obtain ⟨hlarge, value, hvalue, hlisted⟩ := candidates_listed hcoins coin hchosen
  exact ⟨candidates_unreserved hcoins coin hchosen, hlarge, unspent, value, List.mem_cons_self,
    hvalue, hlisted⟩

/-- The reservation is the one write, on the ground that the owner has no pending exit. -/
theorem reserve_meets {owner : String} {request : ExitInput} {key : ExitKey} {quote : ExitQuote}
    {address : Address} {payout : Nat} {ls : List ExitLeaf} (hheld : Holds h)
    (hnone : Since (Keeps fun _ => False) (DbOk (.coopExitPendingForOwner owner) false) h)
    (hspeed : speedIndex request.exitSpeed = .ok key.speed)
    (hdust : L.minimalNonDust address.scriptPubkey ≤ payout)
    (hpriced : Priced quote key.speed payout ls) :
    Act.Spec (Justified C) (Keeps fun _ => True)
      (reserve C owner request key quote address payout ls) (fun _ _ => True) h := by
  refine .bind (quietly (read_meets rfl)) ?_
  rintro reserved _ - ⟨he₁, rfl⟩
  refine .bind Act.Spec.ofExcept_eq ?_
  rintro needed _ - ⟨hneeded, rfl⟩
  refine .bind (quietly fund_meets) ?_
  rintro ⟨_, outpoint⟩ h₂ - ⟨he₂, hfree, hlarge, coins, value, hlisted, rfl, hcoin⟩
  refine .bind (quietly walletAddress_within.meets) fun intermediateAddress h₃ _ ⟨he₃, _⟩ => ?_
  refine .bind (quietly walletAddress_within.meets) fun changeAddress h₄ _ ⟨he₄, _⟩ => ?_
  refine .bind (quietly (connectorOutputs_meets _ h₄)) fun outputs h₅ _ ⟨he₅, houtputs⟩ => ?_
  refine .bind (quietly (tell_meets rfl)) fun id h₆ _ ⟨he₆, _⟩ => ?_
  refine .bind (quietly (tell_meets rfl)) fun createdAt h₇ _ ⟨he₇, _⟩ => ?_
  refine .bind (quietly (tell_meets rfl)) fun expiresAt h₈ _ ⟨he₈, _⟩ => ?_
  have hlater := he₃.trans (he₄.trans (he₅.trans (he₆.trans (he₇.trans he₈))))
  have hquiet := he₂.trans hlater
  refine .bind (db_meets ⟨(hheld.after he₁).after hquiet, ?_⟩ fun _ _ => trivial)
    fun _ _ _ _ => (response_within _).meets
  refine ⟨⟨_, rfl⟩, rfl, rfl, (hnone.after he₁).after hquiet, ⟨reserved,
    Since.here.after hquiet, hfree⟩, Funding.of value payout (quote.fees key.speed) ls.length
      address.scriptPubkey intermediateAddress.scriptPubkey changeAddress.scriptPubkey outputs, ?_⟩
  -- the coin covers what `needed` adds up to
  obtain ⟨sum, hsum, htotal⟩ := Option.bind_eq_some_iff.mp (okOr_eq_ok.mp hneeded)
  obtain ⟨rfl, -⟩ := checkedAdd_eq_some hsum
  obtain ⟨rfl, -⟩ := checkedAdd_eq_some htotal
  exact balanced_of rfl hspeed rfl hpriced hdust (hlater.mem hlisted) hcoin hlarge rfl rfl
    houtputs

/-- Everything that a new exit is checked for comes before its reservation. -/
theorem requestNew_meets {owner : String} {request : ExitInput} {key : ExitKey}
    (hheld : Holds h) (hkey : checkRequest request = .ok key) :
    Act.Spec (Justified C) (Keeps fun _ => True) (requestNew C owner request key)
      (fun _ _ => True) h := by
  obtain ⟨hids, hspeed⟩ := checkRequest_ok hkey
  refine .bind (quietly (read_meets rfl)) ?_
  rintro pending _ - ⟨he₁, rfl⟩
  refine .guard fun hnone => ?_
  obtain rfl : pending = false := by simpa using hnone
  refine .bind (quietly (quoteFor_within _ _).meets) fun quote h₂ _ ⟨he₂, _⟩ => ?_
  refine .bind Act.Spec.ofExcept_eq ?_
  rintro address _ - ⟨-, rfl⟩
  refine .bind (quietly (tell_meets rfl)) fun now h₃ _ ⟨he₃, _⟩ => ?_
  refine .guard fun _ => ?_
  refine .bind (quietly leaves_meets) fun ls h₄ _ ⟨he₄, hls⟩ => ?_
  refine .bind (quietly (withdrawalAmount_meets hids hls)) fun amount h₅ _ ⟨he₅, hpriced⟩ => ?_
  refine .guard fun hdust => ?_
  have hquiet := he₂.trans (he₃.trans (he₄.trans he₅))
  exact reserve_meets ((hheld.after he₁).after hquiet) (Since.here.after hquiet) hspeed
    (Nat.not_lt.mp hdust) hpriced

/-- A program that takes the lock and runs a body that keeps to the contract with it. -/
theorem locked_meets {α : Type} {body : Ssp L α}
    (hbody : ∀ h, Holds h → Act.Spec (Justified C) (Keeps fun _ => True) body (fun _ _ => True) h) :
    Act.Spec (Justified C) (fun _ => True) (locked .exits body) (fun _ _ => True) h := by
  refine .bracket (T := fun _ h' => Holds h') ?_ (fun h' _ hheld => ?_) fun h' _ => ?_
  · exact .tell (I := Api L) trivial (fun _ => trivial) fun r => ⟨⟨.lock .exits, r⟩, rfl, .here⟩
  · exact (hbody h' hheld).weaken fun _ _ => trivial
  · exact .tell (I := Api L) trivial (fun _ => trivial) fun _ _ _ => trivial

/-- A request that was made before is answered from its record. -/
theorem request_meets {owner : String} {input : ExitInput} :
    Act.Spec (Justified C) (fun _ => True) (request C owner input) (fun _ _ => True) h := by
  refine .bind Act.Spec.ofExcept_eq fun key _ _ ⟨hkey, _⟩ => ?_
  refine locked_meets fun h hheld => ?_
  refine .bind (quietly (read_meets rfl)) fun found h₁ _ ⟨he₁, _⟩ => ?_
  rcases found with - | record
  · exact requestNew_meets (hheld.after he₁) hkey
  · refine .guard fun _ => ?_
    exact (response_within _).meets

/-! ### Payouts -/

/-- The transfer is accepted with the pairs of leaves and connectors of the record. -/
theorem verify_meets :
    Act.Spec (Justified C) (Keeps A) (verify C record)
      (fun _ h' => Accepted C record (· ∈ h')) h := by
  refine .bind Act.Spec.ofExcept_eq ?_
  rintro id _ - ⟨hid, rfl⟩
  refine .bind (ask_meets rfl) ?_
  rintro found _ - ⟨r, rfl, rfl⟩
  refine .bind Act.Spec.ofExcept_eq ?_
  rintro transfer _ - ⟨hfound, rfl⟩
  obtain rfl := okOr_eq_ok.mp hfound
  refine .ofExcept fun _ hv => ⟨id, transfer, hid, List.mem_cons_self, hv⟩

/-- A completed transfer was claimed already. -/
theorem processUnlessCompleted_meets {id : Uuid} {transfer : SparkTransfer} :
    Act.Spec (Justified C) (Keeps A) (processUnlessCompleted id transfer)
      (fun _ h' => transfer.status ≠ .completed →
        (⟨.processTransfer id, .ok ()⟩ : Event (Api L)) ∈ h') h := by
  refine .ite (fun hdone => .pure fun hne => absurd hdone hne) fun _ => ?_
  refine (ask_meets rfl).mono (fun _ hx => hx) ?_
  rintro u _ - ⟨r, rfl, rfl⟩ -
  exact List.mem_cons_self

/-- The transfer that is looked up last is claimed by the SSP. -/
theorem claimTransfer_meets {id : Uuid} (hid : TransferId.parse record.transferId = .ok id) :
    Act.Spec (Justified C) (Keeps A) (claimTransfer C id)
      (fun _ h' => Claimed C record (· ∈ h')) h := by
  refine .bind (ask_meets rfl) ?_
  rintro reply _ - ⟨r, rfl, rfl⟩
  refine .bind Act.Spec.ofExcept_eq ?_
  rintro found _ - ⟨hfound, rfl⟩
  obtain rfl := okOr_eq_ok.mp hfound
  refine .guard fun hchecked => ?_
  push Not at hchecked
  obtain ⟨htype, hreceiver⟩ := hchecked
  refine .bind processUnlessCompleted_meets fun _ h₂ he₂ hprocessed => ?_
  refine .bind (ask_meets rfl) ?_
  rintro reply h₃ he₃ ⟨r, rfl, rfl⟩
  refine .bind Act.Spec.ofExcept_eq ?_
  rintro claimed _ - ⟨hclaimed, rfl⟩
  obtain rfl := okOr_eq_ok.mp hclaimed
  refine .ite (fun _ => .throw) fun hst => .pure ?_
  refine ⟨id, found, claimed, hid, he₃.mem (he₂.mem List.mem_cons_self), htype, hreceiver,
    fun hne => he₃.mem (hprocessed hne), List.mem_cons_self, ?_⟩
  simpa using hst

/-- The id of the record is parsed before its transfer is claimed. -/
theorem claim_meets :
    Act.Spec (Justified C) (Keeps A) (claim C record)
      (fun _ h' => Claimed C record (· ∈ h')) h := by
  refine .bracket (T := fun _ _ => True) ((tell_meets rfl).weaken fun _ hx => hx)
    (fun h₁ _ _ => ?_) fun h₂ _ => ?_
  · refine .bind Act.Spec.ofExcept_eq ?_
    rintro id _ - ⟨hid, rfl⟩
    exact claimTransfer_meets hid
  · refine (tell_meets rfl).mono (fun _ hx => hx) ?_
    rintro u _ he - _ hclaimed
    exact hclaimed.mono fun _ => he.mem

/-- What is known about an exit that may be written: its record is up to date, and it is not
finished. -/
structure Current (record : ExitRecord L) (h : History (Api L)) : Prop where
  held : Holds h
  fresh : Genuine h → Fresh record h
  live : Genuine h → record.status.terminal = false

/-- A record stays current while nothing is written. -/
theorem Current.after (hc : Current record h) (he : Extends (Keeps fun _ => False) h h') :
    Current record h' :=
  ⟨hc.held.after he, fun hg => (hc.fresh (hg.before he)).after he fun _ hf => hf.elim,
    fun hg => hc.live (hg.before he)⟩

/-- Writing a record makes it the current one. -/
theorem update_meets {base : ExitRecord L} (hc : Current base h)
    (hchange : Change C h base record) (hA : A base.id) :
    Act.Spec (Justified C) (Keeps A) (db (.updateCoopExit record))
      (fun _ h' => Holds h' ∧ Fresh record h') h := by
  have hj : Justified C h (.db (.updateCoopExit record)) :=
    ⟨hc.held, fun hg => ⟨base, hc.fresh hg, hc.live hg, hchange⟩⟩
  refine (db_meets hj ?_).mono (fun _ hx => hx) ?_
  · intro id hs
    obtain rfl : record.id = id := by simpa [Query.saves] using hs
    rwa [hchange.id_eq]
  · rintro u _ he rfl
    exact ⟨hc.held.after he, _, .saved rfl, .here⟩

/-- The signed exit is saved before it is handed on. -/
theorem sign_meets {exit : Bitcoin.Transaction} (hc : Current record h)
    (hexit : L.deserializeHex record.rawExit = .ok exit) :
    Act.Spec (Justified C) (Keeps (· = record.id)) (sign C exit record)
      (fun r h' => Current r h' ∧ r.id = record.id ∧ r.rawExit = record.rawExit ∧
        r.signedExit.isSome) h := by
  refine .ite (fun hsigned => .pure ⟨hc, rfl, rfl, hsigned⟩) fun hnew => ?_
  replace hnew : record.signedExit = none := by simpa using hnew
  refine .bind (quietly verify_meets) fun _ h₁ _ ⟨he₁, haccepted⟩ => ?_
  refine .bind (quietly (read_meets rfl)) fun _ h₂ _ ⟨he₂, _⟩ => ?_
  have hc₂ := hc.after (he₁.trans he₂)
  refine .bind (Act.Spec.ask_eq (I := Api L) (c := .signPayout record.id record.rawExit)
    ⟨hc₂.held, fun hg => ⟨record, hc₂.fresh hg, rfl, rfl, hnew, hc₂.live hg,
      haccepted.mono fun _ => he₂.mem⟩⟩ fun _ => ⟨⟨by simp, by simp⟩, by simp⟩) ?_
  rintro signed h₃ - ⟨r, -, rfl⟩
  refine .guard fun _ => ?_
  refine .bind Act.Spec.ofExcept_eq ?_
  rintro raw _ - ⟨-, rfl⟩
  refine .bind Act.Spec.ofExcept_eq ?_
  rintro _ _ - ⟨hraw, rfl⟩
  have hc₃ : Current record (⟨.signPayout record.id record.rawExit, r⟩ :: h₂) :=
    hc₂.after (.one ⟨⟨by simp, by simp⟩, by simp⟩)
  refine .bind (update_meets hc₃ (.sign exit raw hnew hexit hraw) rfl) fun _ h₄ _ hf => ?_
  exact .pure ⟨⟨hf.1, fun _ => hf.2, fun _ => rfl⟩, rfl, rfl, rfl⟩

/-- Only a signed exit is broadcast. -/
theorem broadcast_meets (hc : Current record h) (hsigned : record.signedExit.isSome) :
    Act.Spec (Justified C) (Keeps (· = record.id)) (broadcast record) (fun _ _ => True) h := by
  refine .bind (Act.Spec.ask_eq (I := Api L) (c := .sendPayout record.id record.signedExit)
    ⟨hc.held, fun hg => ⟨record, hc.fresh hg, rfl, rfl, hsigned⟩⟩
    fun _ => ⟨⟨by simp, by simp⟩, by simp⟩) ?_
  rintro _ _ - ⟨r, -, rfl⟩
  have hc₁ : Current record (⟨.sendPayout record.id record.signedExit, r⟩ :: h) :=
    hc.after (.one ⟨⟨by simp, by simp⟩, by simp⟩)
  refine .bind (update_meets hc₁ (.broadcast hsigned) rfl) fun _ h₂ _ _ => ?_
  refine .bind (read_meets rfl) fun bump h₃ _ _ => ?_
  rcases bump with - | ⟨raw, rate⟩
  · exact .pure trivial
  · exact .bind (ask_meets rfl) fun _ _ _ _ => .pure trivial

/-- The leaves are claimed after the exit is confirmed. -/
theorem settle_meets (hc : Current record h) (hsigned : record.signedExit.isSome)
    (hconfirmed : Confirmed record (· ∈ h)) :
    Act.Spec (Justified C) (Keeps (· = record.id)) (settle C record) (fun _ _ => True) h := by
  refine .bind (update_meets hc (.confirm hsigned) rfl) fun _ h₁ he₁ hf => ?_
  refine .bind (quietly claim_meets) fun _ h₂ _ ⟨he₂, hclaimed⟩ => ?_
  have hc₁ : Current { record with status := .onChainTxConfirmed } h₁ :=
    ⟨hf.1, fun _ => hf.2, fun _ => rfl⟩
  refine .bind (update_meets (hc₁.after he₂) (.succeed hsigned ?_ hclaimed) rfl)
    fun _ _ _ _ => .pure trivial
  exact Confirmed.mono (fun _ hx => he₂.mem (he₁.mem hx)) hconfirmed

/-- The record is verified, signed and broadcast, or claimed when that was done. -/
theorem advance_meets (hheld : Holds h) (hfresh : Genuine h → Fresh record h) :
    Act.Spec (Justified C) (Keeps (· = record.id)) (advance C record) (fun _ _ => True) h := by
  refine .ite (fun _ => .pure trivial) fun hlive => ?_
  refine .bind Act.Spec.ofExcept_eq ?_
  rintro exit _ - ⟨hexit, rfl⟩
  refine .bind (sign_meets ⟨hheld, hfresh, fun _ => by simpa using hlive⟩ hexit) ?_
  rintro signed h₁ - ⟨hc, hid, hraw, hsigned⟩
  rw [← hid]
  refine .bind (quietly (ask_meets rfl).attempt) fun observed h₂ _ ⟨he₂, hobserved⟩ => ?_
  refine .guard fun hnonneg => ?_
  refine .ite (fun _ => broadcast_meets (hc.after he₂) hsigned) fun hne => ?_
  refine settle_meets (hc.after he₂) hsigned ?_
  -- neither negative nor zero: the wallet has reported a confirmation
  rcases observed with e | observed
  · exact absurd rfl hne
  obtain ⟨r, hr, rfl⟩ := hobserved observed rfl
  obtain rfl : r = .ok observed := hr
  rcases observed with - | n
  · exact absurd rfl hne
  replace hnonneg : ¬ n < 0 := hnonneg
  replace hne : ¬ n = 0 := hne
  exact ⟨exit, n, by rw [hraw, hexit], List.mem_cons_self, by omega⟩

/-- The request that completes an exit advances it. -/
theorem complete_meets {owner transferId : String} {coopExitRequestId : Option String} :
    Act.Spec (Justified C) (fun _ => True) (complete C owner transferId coopExitRequestId)
      (fun _ _ => True) h := by
  refine locked_meets fun h hheld => ?_
  refine .bind (quietly (read_meets rfl)) ?_
  rintro found _ - ⟨he₁, rfl⟩
  refine .bind Act.Spec.ofExcept_eq ?_
  rintro record _ - ⟨hfound, rfl⟩
  obtain rfl := okOr_eq_ok.mp hfound
  refine .guard fun _ => ?_
  refine .guard fun _ => ?_
  refine .bind ((advance_meets (hheld.after he₁) fun _ => ⟨_, .byKey _ _ _ rfl, .here⟩).weaken
    fun _ hx => hx.mono fun _ _ => trivial) fun _ _ _ _ => (response_within _).meets

theorem get_meets {id owner : String} :
    Act.Spec (Justified C) (fun _ => True) (get (L := L) id owner) (fun _ _ => True) h := by
  refine .bind ((read_meets (A := fun _ => True) rfl).weaken fun _ _ => trivial) fun found _ _ _ => ?_
  rcases found with - | record
  · exact .pure trivial
  · exact .bind (((response_within _).meets (A := fun _ => True)).weaken fun _ _ => trivial)
      fun _ _ _ _ => .pure trivial

/-! ### Fee bumps -/

/-- A stored child is sent again, and no record is touched. -/
theorem rebroadcast_meets {id : String} {parent : Bitcoin.Transaction} {raw : L.Raw}
    {previousRate feeRate maxFeeSats : Nat} :
    Act.Spec (Justified C) (Keeps A) (rebroadcast id parent raw previousRate feeRate maxFeeSats)
      (fun _ _ => True) h := by
  unfold rebroadcast
  refine .guard fun _ => ?_
  refine .bind Act.Spec.ofExcept_eq fun child _ _ _ => ?_
  refine .bind Act.Spec.ofExcept_eq fun change _ _ _ => ?_
  refine .bind Act.Spec.ofExcept_eq fun payout _ _ _ => ?_
  refine .guard fun _ => ?_
  refine .guard fun _ => ?_
  refine .bind (ask_meets rfl) fun _ _ _ _ => ?_
  exact .pure trivial

/-- The child is stored before it is sent. -/
theorem newBump_meets {parent : Bitcoin.Transaction} {feeRate maxFeeSats : Nat} :
    Act.Spec (Justified C) (Keeps A) (newBump record parent feeRate maxFeeSats)
      (fun _ _ => True) h := by
  refine .bind (ask_meets rfl) fun unspent _ _ _ => ?_
  refine .guard fun _ => ?_
  refine .bind walletAddress_within.meets fun destination _ _ _ => ?_
  refine .bind Act.Spec.ofExcept_eq fun bump _ _ _ => ?_
  refine .bind (ask_meets rfl) fun signed _ _ _ => ?_
  refine .guard fun _ => ?_
  refine .bind Act.Spec.ofExcept_eq fun raw _ _ _ => ?_
  refine .bind Act.Spec.ofExcept_eq fun _ _ _ _ => ?_
  refine .bind (read_meets rfl) fun _ _ _ _ => ?_
  refine .bind (ask_meets rfl) fun _ _ _ _ => ?_
  exact .pure trivial

/-- There is one child for each exit. -/
theorem bumpFee_meets {id : String} {feeRate maxFeeSats : Nat} :
    Act.Spec (Justified C) (fun _ => True) (bumpFee (L := L) id feeRate maxFeeSats)
      (fun _ _ => True) h := by
  unfold bumpFee
  refine .guard fun _ => ?_
  refine locked_meets fun h hheld => ?_
  refine .bind (read_meets rfl) fun record _ _ _ => ?_
  refine .guard fun _ => ?_
  refine .bind Act.Spec.ofExcept_eq fun raw _ _ _ => ?_
  refine .bind Act.Spec.ofExcept_eq fun parent _ _ _ => ?_
  refine .bind (ask_meets rfl) fun observed _ _ _ => ?_
  refine .guard fun _ => ?_
  refine .bind (read_meets rfl) fun bump _ _ _ => ?_
  rcases bump with - | ⟨raw, previousRate⟩
  · exact newBump_meets
  · exact rebroadcast_meets

/-! ### The worker -/

/-- A record with a signed exit is never overdue. -/
theorem overdue_meets :
    Act.Spec (Justified C) (Keeps A) (overdue record)
      (fun late _ => late = true → record.signedExit = none) h := by
  refine .ite (fun _ => .pure (by simp)) fun hnew => ?_
  refine .bind (tell_meets rfl) fun now _ _ _ => ?_
  exact .pure fun _ => by simpa using hnew

/-- A transfer is missing when the operators have just said so. -/
theorem transferExists_meets :
    Act.Spec (Justified C) (Keeps A) (transferExists record.transferId)
      (fun found h' => found = false → ∃ id, TransferId.parse record.transferId = .ok id ∧
        h'.head? = some ⟨.queryTransfer id, .ok none⟩) h := by
  refine .bind Act.Spec.ofExcept_eq ?_
  rintro id _ - ⟨hid, rfl⟩
  refine .bind (ask_meets rfl) ?_
  rintro transfer _ - ⟨r, rfl, rfl⟩
  refine .pure fun hnone => ⟨id, hid, ?_⟩
  obtain rfl : transfer = none := by simpa using hnone
  rfl

/-- An overdue exit expires when its transfer is missing; every other is advanced. -/
theorem reconcile_meets (hc : Current record h) :
    Act.Spec (Justified C) (Keeps (· = record.id)) (reconcile C record) (fun _ _ => True) h := by
  refine .bind (quietly overdue_meets) fun late h₁ _ ⟨he₁, hnew⟩ => ?_
  have hadvance : ∀ h', Extends (Keeps fun _ => False) h₁ h' →
      Act.Spec (Justified C) (Keeps (· = record.id))
        (do
          let _ ← Act.attempt (advance C record)
          return ()) (fun _ _ => True) h' := by
    intro h' he
    have hc' := (hc.after he₁).after he
    exact .bind (advance_meets hc'.held hc'.fresh).attempt fun _ _ _ _ => .pure trivial
  refine .ite (fun hlate => ?_) fun _ => hadvance h₁ (.refl h₁)
  refine .bind (quietly transferExists_meets.attempt) fun found h₂ _ ⟨he₂, hfound⟩ => ?_
  rcases found with e | found
  · exact .pure trivial
  · cases found with
    | true => exact hadvance h₂ he₂
    | false =>
        obtain ⟨id, hid, hnone⟩ := hfound false rfl rfl
        exact .bind (update_meets (A := (· = record.id)) ((hc.after he₁).after he₂)
          (.expire id (hnew hlate) hid hnone) rfl).attempt fun _ _ _ _ => .pure trivial

/-- The exits were read together and are different ones, so that one is not written while
another one is advanced. -/
theorem reconcileAll_meets (rest : List (ExitRecord L)) : ∀ h : History (Api L), Holds h →
    (∀ record ∈ rest, Shows e record) →
    (Genuine h → ∀ record ∈ rest, Since (Keeps (· ≠ record.id)) e h ∧
      record.status.terminal = false) →
    (Genuine h → (rest.map (·.id)).Nodup) →
    Act.Spec (Justified C) (Keeps fun _ => True) (Act.forEach (reconcile C) rest)
      (fun _ _ => True) h := by
  induction rest with
  | nil => exact fun h _ _ _ _ => .pure trivial
  | cons record rest ih =>
      intro h hheld hshow hsince hids
      have hc : Current record h :=
        ⟨hheld, fun hg => ⟨e, hshow _ List.mem_cons_self, (hsince hg _ List.mem_cons_self).1⟩,
          fun hg => (hsince hg _ List.mem_cons_self).2⟩
      refine .bind ((reconcile_meets hc).mono
        (S := fun _ h' => Extends (Keeps (· = record.id)) h h')
        (fun _ hx => hx.mono fun _ _ => trivial) fun _ _ he _ => he) fun _ h₁ he₁ hone => ?_
      refine ih h₁ (hheld.after he₁) (fun r hr => hshow r (List.mem_cons_of_mem _ hr))
        (fun hg r hr => ?_) fun hg => ?_
      · have hg₀ := hg.before he₁
        obtain ⟨hs, hlive⟩ := hsince hg₀ r (List.mem_cons_of_mem _ hr)
        refine ⟨hs.after (hone.mono fun x hx => hx.mono fun id hid => ?_), hlive⟩
        have hne := (List.nodup_cons.mp (hids hg₀)).1
        intro he
        exact hne (List.mem_map.mpr ⟨r, hr, he ▸ hid⟩)
      · exact (List.nodup_cons.mp (hids (hg.before he₁))).2

/-- One record after the other, each under the lock. -/
theorem pass_meets :
    Act.Spec (Justified C) (fun _ => True) (pass C) (fun _ _ => True) h := by
  refine locked_meets fun h hheld => ?_
  refine .bind (quietly (read_meets rfl).attempt) fun records h₁ _ ⟨he₁, hr⟩ => ?_
  rcases records with e | records
  · exact .pure trivial
  · obtain rfl := hr records rfl
    refine reconcileAll_meets records _ (hheld.after he₁) (fun r hmem => .pending _ rfl hmem)
      (fun hg r hmem => ⟨.here, hg.live _ List.mem_cons_self r hmem⟩)
      fun hg => hg.distinct _ List.mem_cons_self

theorem handler_justified (r : Request) :
    (r.handler C).wp (Justified C) (fun _ _ => True) [] := by
  have hdone : ∀ {α : Type} {act : Ssp L α}, Act.Spec (Justified C) (fun _ => True) act
      (fun _ _ => True) [] → (discard act.run : Prog (Api L) Unit).wp (Justified C)
        (fun _ _ => True) [] := by
    intro α act hspec
    rw [Prog.wp_discard]
    exact Prog.wp_mono hspec.wp fun _ _ _ => trivial
  cases r with
  | quote owner ids address =>
      exact hdone (((quote_within _ _ _).meets (A := fun _ => True)).weaken fun _ _ => trivial)
  | request owner input => exact hdone request_meets
  | complete owner transferId coopExitRequestId => exact hdone complete_meets
  | get id owner => exact hdone get_meets
  | bumpFee id feeRate maxFeeSats => exact hdone bumpFee_meets
  | pass => exact hdone pass_meets

end OpenSsp.Coop
