/-
OpenSsp/ReceiveCompletion.lean

What `TRANSFER_COMPLETED` stands for.  Four functions write it, and two of them trust a row
of `transfers` they find by request id, so the tables have to agree with each other:

* `reach_paidOut`: a stored transfer id names an executed transfer to the receiver.
* `TransferOk`: a row of `transfers` is of the kind its request is, and one of a receive is
  entered together with the payout of that receive.

Neither payout looks at the status of the transfer it is shown, so one that was returned passes
for an executed one (`returned_receive_completed`).

Main result: `completed_receive_paid`, when the transfers reported for payouts are committed no
order of steps marks an unpaid receive completed.
-/
import OpenSsp.ReceiveFailure

namespace OpenSsp

open Interleave

variable {D : Deployment} {ok : Config (machine D) → Move (machine D) → Prop}

/-! ### Executed transfers -/

/-- The operators have executed a transfer `transferId` of the SSP to `receiver` over `amount`
sats: they have reported it with the keys of its leaves handed over.  One that was only
initiated, that expired or that was returned is not executed. -/
def Operators.Pays (D : Deployment) (s : Operators) (transferId receiver : String)
    (amount : Nat) : Prop :=
  ∃ key, D.parsePublicKey receiver = .ok key ∧ ∃ x ∈ s.transfers, x.id.print = transferId ∧
    x.senderId = D.identity ∧ x.receiverId = key ∧ x.totalValueSat = amount ∧
    fundingTransferCommitted x.status = true

theorem Operators.Pays.grows {s s' : Operators} {transferId receiver : String} {amount : Nat}
    (h : s.Pays D transferId receiver amount) (hs : s.Grows s') :
    s'.Pays D transferId receiver amount := by
  obtain ⟨key, hkey, x, hx, hrest⟩ := h
  exact ⟨key, hkey, x, hs.transfers x hx, hrest⟩

/-- The offer a program is paying out, and the hash of the payment it does so for. -/
def payingOffer (h : History Api) : Option (String × String) :=
  match currentWork h with
  | some (.mark (.payOffer offerId hash)) => some (offerId, hash)
  | _ => none

theorem payingOffer_of_work {h : History Api} {offerId hash : String}
    (hw : Latest h (markEvent (.payOffer offerId hash))) :
    payingOffer h = some (offerId, hash) := by
  rw [payingOffer, hw.currentWork rfl]

/-- The transfers that the operators report to a program for a payout: what
`settle_lightning_receive` finds or makes, what `recover_lightning_receive_swap` finds, and what
the receive swap answers. -/
def SparkCall.payouts (h : History Api) : SparkCall → Choice → List Transfer
  | .getTransfer _, .transfer t => if (payingOffer h).isSome then t.toList else []
  | .transfer .., .transfer t => if (payingOffer h).isSome then t.toList else []
  | .queryHtlc _ _ .sender, .htlcs items => items.filterMap (·.transfer)
  | .initiatePreimageSwapV3 _, .swap _ t => t.toList
  | _, _ => []

/-- A transfer of the SSP that is reported for a payout is committed. -/
def committedMove (s : Config (machine D)) : Move (machine D) → Bool
  | .run t ch => match s.thread t with
      | some ⟨.call (.spark c) _, h⟩ => (c.payouts h ch).all fun x =>
          x.senderId != D.identity || fundingTransferCommitted x.status
      | _ => true
  | _ => true

def committed (s : Config (machine D)) (m : Move (machine D)) : Prop := committedMove s m = true

section replies

variable {s s' : Operators} {ch : Choice} {x : Transfer}

/-- A reply that shows a transfer is the operators' choice of it. -/
theorem performSpark_getTransfer {id : Uuid}
    (h : performSpark (.getTransfer id) ch s = some (.ok (some x), s')) :
    ch = .transfer (some x) := by
  cases ch with
  | transfer t =>
      rcases t with - | t
      · simp [performSpark] at h
      · simp only [performSpark] at h
        split at h
        · obtain ⟨_, _, he⟩ := Option.map_eq_some_iff.mp h
          rw [Option.some.inj (Except.ok.inj (Prod.mk.inj he).1)]
        · cases h
  | _ => simp [performSpark] at h

theorem performSpark_transfer {amount : Nat} {receiver : PublicKey} {id : Uuid}
    (h : performSpark (.transfer amount receiver id) ch s = some (.ok x, s')) :
    ch = .transfer (some x) := by
  cases ch with
  | transfer t =>
      rcases t with - | t
      · simp [performSpark] at h
      · simp only [performSpark] at h
        split at h
        · obtain ⟨_, _, he⟩ := Option.map_eq_some_iff.mp h
          rw [Except.ok.inj (Prod.mk.inj he).1]
        · cases h
  | _ => simp [performSpark] at h

theorem performSpark_queryHtlc {outbound hash : String} {role : PreimageRequestRole}
    {items : List PreimageRequest}
    (h : performSpark (.queryHtlc outbound hash role) ch s = some (.ok items, s')) :
    ch = .htlcs items := by
  cases ch with
  | htlcs qs =>
      obtain ⟨_, _, he⟩ := Option.map_eq_some_iff.mp h
      rw [Except.ok.inj (Prod.mk.inj he).1]
  | _ => simp [performSpark] at h

theorem performSpark_swap {r : ReceiveSwapRequest} {preimage : Option Bytes32}
    (h : performSpark (.initiatePreimageSwapV3 r) ch s = some (.ok (preimage, some x), s')) :
    ch = .swap preimage (some x) := by
  cases ch with
  | swap p t =>
      rcases t with - | t
      · simp [performSpark] at h
      · obtain ⟨_, _, he⟩ := Option.map_eq_some_iff.mp h
        obtain ⟨rfl, ht⟩ := Prod.mk.inj (Except.ok.inj (Prod.mk.inj he).1)
        rw [ht]
  | _ => simp [performSpark] at h

end replies

section facts

variable {s : Config (machine D)} {t : Nat} {th : Thread Api}

/-- What was reported for a payout in a reply, and the reply was allowed. -/
theorem payout_committed {s₀ s₁ : Config (machine D)} {c : SparkCall} {a : c.Out}
    {older : History Api} (hm : Moment committed t (sparkEvent c a) older s₀ s₁) {x : Transfer}
    (hx : ∀ ch s', performSpark c ch s₀.world.spark = some (.ok a, s') → x ∈ c.payouts older ch)
    (hsender : x.senderId = D.identity) : fundingTransferCommitted x.status = true := by
  obtain ⟨ch, k, hth, hok, hp, -⟩ := hm.made
  have hp : perform D t (.spark c) ch s₀.world = some (.ok a, s₁.world) := hp
  obtain ⟨⟨r, sp⟩, hspark, he⟩ := Option.map_eq_some_iff.mp hp
  obtain ⟨rfl, -⟩ := Prod.mk.inj he
  have hall : (c.payouts older ch).all (fun x =>
      x.senderId != D.identity || fundingTransferCommitted x.status) = true := by
    simpa [committed, committedMove, hth] using hok
  have hcommitted := List.all_eq_true.mp hall x (hx ch sp hspark)
  simpa [hsender] using hcommitted

theorem ReportedTransfer.seen (hs : Reach committed s) (hth : s.thread t = some th) {x : Transfer}
    (hr : ReportedTransfer th.history x) (hsender : x.senderId = D.identity) :
    x ∈ s.world.spark.transfers ∧ fundingTransferCommitted x.status = true := by
  cases hr with
  | found id offerId hash newer older split work =>
      obtain ⟨s₀, s₁, hm, hg⟩ := reach_knows hs hth split
      refine ⟨hg.spark.transfers x (moment_spark hm).1, payout_committed hm ?_ hsender⟩
      intro ch s' hp
      rw [performSpark_getTransfer hp]
      simp [SparkCall.payouts, payingOffer_of_work work]
  | made amount receiver id offerId hash newer older split work =>
      obtain ⟨s₀, s₁, hm, hg⟩ := reach_knows hs hth split
      refine ⟨hg.spark.transfers x (moment_spark hm).1, payout_committed hm ?_ hsender⟩
      intro ch s' hp
      rw [performSpark_transfer hp]
      simp [SparkCall.payouts, payingOffer_of_work work]
  | htlc outbound hash items q mem mem' hx =>
      obtain ⟨older, s₀, s₁, hm, hg⟩ := reach_mem hs hth mem
      have hq : q ∈ s₁.world.spark.htlcs := moment_spark hm q mem'
      refine ⟨hg.spark.transfers x (s₁.world.spark.reported q hq x hx),
        payout_committed hm ?_ hsender⟩
      intro ch s' hp
      rw [performSpark_queryHtlc hp]
      exact List.mem_filterMap.mpr ⟨q, mem', hx⟩
  | swapped r preimage mem =>
      obtain ⟨older, s₀, s₁, hm, hg⟩ := reach_mem hs hth mem
      refine ⟨hg.spark.transfers x (moment_spark hm x rfl), payout_committed hm ?_ hsender⟩
      intro ch s' hp
      rw [performSpark_swap hp]
      simp [SparkCall.payouts]

theorem Executed.pays (hs : Reach committed s) (hth : s.thread t = some th)
    {transferId receiver : String} {amount : Nat}
    (hx : Executed D th.history transferId receiver amount) :
    s.world.spark.Pays D transferId receiver amount := by
  obtain ⟨key, x, hkey, hx, hid, hsender, hreceiver, hamount⟩ := hx
  obtain ⟨hmem, hcommitted⟩ := hx.seen hs hth hsender
  exact ⟨key, hkey, x, hmem, hid, hsender, hreceiver, hamount, hcommitted⟩

end facts

/-- A stored payout was executed for the receive it is stored for. -/
def PaidOut (D : Deployment) (w : World) (k : String) : Prop :=
  ∀ id, (w.db.receivePayment k).transferId = some id →
    ∃ l, w.db.receives.get k = some l ∧ w.spark.Pays D id l.receiver l.amountSats

theorem PaidOut.grows {w w' : World} {k : String} (h : PaidOut D w k)
    (ht : (w'.db.receivePayment k).transferId = (w.db.receivePayment k).transferId)
    (hg : w.Grows w') : PaidOut D w' k := by
  intro id hid
  obtain ⟨l, hl, hp⟩ := h id (ht ▸ hid)
  obtain ⟨l', hl', hsame, -⟩ := hg.db.receives k l hl
  refine ⟨l', hl', ?_⟩
  rw [hsame.receiver, hsame.amountSats]
  exact hp.grows hg.spark

theorem reach_paidOut {s : Config (machine D)} (hs : Reach committed s) (k : String) :
    PaidOut D s.world k := by
  refine reach_tables (J := fun w => ∀ k, PaidOut D w k) ?_ ?_ ?_ hs k
  · intro k id h
    simp [World.init, Db.empty, Db.receivePayment, Db.freshReceivePayment] at h
  · intro w w' hdb hg ih k
    exact (ih k).grows (by rw [hdb]) hg
  · intro s t q cont hist a db' hr hth hrun hg ih k
    have hj := reach_justified hr hth
    -- a new payout: what the program knows of the receive and of the transfer
    have hnew : ∀ {r : LightningReceive} {transferId : String},
        dbEvent (.lightningReceiveForHash k) (some r) ∈ hist →
        Executed D hist transferId r.receiver r.amountSats →
        (db'.receivePayment k).transferId = some transferId →
        PaidOut D { s.world with db := db' } k := by
      intro r transferId hread hx ht id hid
      obtain rfl : transferId = id := Option.some.inj (ht.symm.trans hid)
      obtain ⟨l, hl, -, -, hreceiver, hamount, -⟩ := read_receive hr hth hread
      obtain ⟨l', hl', hsame, -⟩ := hg.db.receives k l hl
      refine ⟨l', hl', ?_⟩
      rw [hsame.receiver, hsame.amountSats, ← hreceiver, ← hamount]
      exact hx.pays hr hth
    cases Db.receive_step hrun k with
    | none same => exact (ih k).grows same.transferId hg
    | bound id amount hq free hid hamount ht hp => exact (ih k).grows ht hg
    | paid transferId preimage requestId owner hq hid hamount ht hp =>
        subst hq
        obtain ⟨-, -, -, r, hread, -, -, hx⟩ := hj
        exact hnew hread hx ht
    | completed paymentHash transferId requestId owner hq hid hamount ht hp =>
        subst hq
        obtain ⟨r, hg, -, -, hx⟩ := hj
        exact hnew hg.paid.read hx ht

/-! ### Requests and their transfers -/

/-- The request of a receive is a receive request for its hash. -/
theorem reach_receive_request {s : Config (machine D)} (hs : Reach ok s) {k : String}
    {l : ReceiveRow} (h : s.world.db.receives.get k = some l) :
    ∃ r p, s.world.db.requests.get l.requestId = some r ∧ r.payload = .lightningReceive p ∧
      p.paymentHash = k := by
  refine reach_tables (J := fun w => ∀ k l, w.db.receives.get k = some l →
    ∃ r p, w.db.requests.get l.requestId = some r ∧ r.payload = .lightningReceive p ∧
      p.paymentHash = k) ?_ ?_ ?_ hs k l h
  · intro k l h
    simp [World.init, Db.empty] at h
  · intro w w' hdb _ ih k l h
    rw [hdb] at h ⊢
    exact ih k l h
  · intro s t q cont hist a db' hr hth hrun hg ih k l h
    have hold : ∀ l₀, s.world.db.receives.get k = some l₀ → l.requestId = l₀.requestId →
        ∃ r p, db'.requests.get l.requestId = some r ∧ r.payload = .lightningReceive p ∧
          p.paymentHash = k := by
      intro l₀ hl₀ hid
      obtain ⟨r, p, hget, hp, hk⟩ := ih k l₀ hl₀
      obtain ⟨r', hr', hp', -⟩ := hg.db.requests l₀.requestId r hget
      exact ⟨r', p, hid ▸ hr', hp'.trans hp, hk⟩
    rcases Db.receives_step hrun with ⟨-, g, hsame, hget⟩ |
      ⟨id, owner, created, p, rfl, hins, -⟩
    · have h : db'.receives.get k = some l := h
      rw [hget] at h
      obtain ⟨l₀, hl₀, rfl⟩ := Option.map_eq_some_iff.mp h
      exact hold l₀ hl₀ (hsame l₀).requestId
    · rw [Table.get_insert hins] at h
      split at h
      · next hk =>
          -- the new receive comes with its request
          obtain rfl := Option.some.inj h
          obtain ⟨requests, hreq, ⟨hno, -⟩ | ⟨p', qu, rc, -, -, -, rfl⟩⟩ := Db.insertRequest_ok hrun
          · exact absurd rfl (hno p)
          · refine ⟨Db.requestRow id owner created (.lightningReceive p), p, ?_, rfl, hk⟩
            show requests.get id = _
            rw [Table.get_insert hreq]
            exact if_pos rfl
      · exact hold l h rfl

/-- Two receives of one request are one receive. -/
theorem receive_of_request {s : Config (machine D)} (hs : Reach ok s) {k k' : String}
    {l l' : ReceiveRow} (h : s.world.db.receives.get k = some l)
    (h' : s.world.db.receives.get k' = some l') (hid : l.requestId = l'.requestId) : k = k' := by
  obtain ⟨r, p, hr, hp, hk⟩ := reach_receive_request hs h
  obtain ⟨r', p', hr', hp', hk'⟩ := reach_receive_request hs h'
  rw [hid, hr'] at hr
  obtain rfl := Option.some.inj hr
  obtain rfl := RequestPayload.lightningReceive.inj (hp.symm.trans hp')
  exact hk.symm.trans hk'

/-- A row of `transfers` belongs to a receive that was paid out, or to another request. -/
inductive TransferOk (w : World) (x : TransferRow) : Prop
  | receive (k : String) (l : ReceiveRow) (hl : w.db.receives.get k = some l)
      (hid : l.requestId = x.requestId) (paid : (w.db.receivePayment k).transferId.isSome)
  | other (r : RequestRow) (hr : w.db.requests.get x.requestId = some r)
      (payload : ∀ p, r.payload ≠ .lightningReceive p)

theorem TransferOk.grows {w w' : World} {x y : TransferRow} (h : TransferOk w x)
    (hy : Db.SameTransfer x y) (hg : w.Grows w') : TransferOk w' y := by
  have hid : y.requestId = x.requestId := by
    rw [hy]
  cases h with
  | receive k l hl hlid paid =>
      obtain ⟨l', hl', hsame, -⟩ := hg.db.receives k l hl
      exact .receive k l' hl' (hsame.requestId.trans (hlid.trans hid.symm))
        (hg.db.transferId k paid)
  | other r hr payload =>
      obtain ⟨r', hr', hp, -⟩ := hg.db.requests x.requestId r hr
      exact .other r' (hid ▸ hr') fun p => hp ▸ payload p

/-- The receive with the request of a transfer row was paid out. -/
theorem TransferOk.paid {s : Config (machine D)} (hs : Reach ok s) {x : TransferRow}
    (hx : TransferOk s.world x) {k : String} {l : ReceiveRow}
    (hl : s.world.db.receives.get k = some l) (hid : x.requestId = l.requestId) :
    (s.world.db.receivePayment k).transferId.isSome := by
  cases hx with
  | receive k' l' hl' hid' paid =>
      obtain rfl := receive_of_request hs hl hl' (hid'.trans hid).symm
      exact paid
  | other r hr payload =>
      obtain ⟨r', p, hr', hp, -⟩ := reach_receive_request hs hl
      rw [hid, hr'] at hr
      obtain rfl := Option.some.inj hr
      exact absurd hp (payload p)

section records

variable {s : Config (machine D)} {t : Nat} {th : Thread Api} {hash : String}

/-- A receive that is completed with a recorded transfer was paid out. -/
theorem RecordedTransfer.paid (hs : Reach ok s) (hth : s.thread t = some th)
    (hok : ∀ k x, s.world.db.transfers.get k = some x → TransferOk s.world x)
    {r : LightningReceive} (hread : dbEvent (.lightningReceiveForHash hash) (some r) ∈ th.history)
    {transferId : String} (hrec : RecordedTransfer th.history r transferId) :
    (s.world.db.receivePayment hash).transferId.isSome := by
  rcases hrec with ht | hfound
  · obtain ⟨s₀, db', -, hrun, hg⟩ := db_fact hs hth hread
    obtain ⟨ha, rfl⟩ := Prod.mk.inj (Except.ok.inj hrun)
    obtain ⟨l, -, rfl⟩ := Option.map_eq_some_iff.mp ha
    exact hg.transferId hash (Option.isSome_of_mem ht)
  · obtain ⟨l, hl, hid, -⟩ := read_receive hs hth hread
    obtain ⟨s₀, db', -, hrun, hg⟩ := db_fact hs hth hfound
    obtain ⟨ha, rfl⟩ := Prod.mk.inj (Except.ok.inj hrun)
    obtain ⟨x, hx, -⟩ := Option.map_eq_some_iff.mp ha
    have hreq := List.find?_some hx
    simp only [Bool.and_eq_true, beq_iff_eq] at hreq
    obtain ⟨y, hy, hsame⟩ :=
      hg.transfers _ x (Table.mem_iff_get.mp (List.mem_of_find?_eq_some hx))
    refine (hok _ y hy).paid hs hl ?_
    have hreq' : y.requestId = x.requestId := by
      rw [hsame]
    rw [hreq', hreq.1, hid]

end records

theorem reach_transfers {s : Config (machine D)} (hs : Reach ok s) {k : String} {x : TransferRow}
    (h : s.world.db.transfers.get k = some x) : TransferOk s.world x := by
  refine reach_tables (J := fun w => ∀ k x, w.db.transfers.get k = some x → TransferOk w x)
    ?_ ?_ ?_ hs k x h
  · intro k x h
    simp [World.init, Db.empty] at h
  · intro w w' hdb hg ih k x h
    exact (ih k x (hdb ▸ h)).grows rfl hg
  · intro s t q cont hist a db' hr hth hrun hg ih k x h
    have hj := reach_justified hr hth
    -- a transfer entered for a receive that is paid out by now
    have hpaid : ∀ {hash : String} {r : LightningReceive},
        dbEvent (.lightningReceiveForHash hash) (some r) ∈ hist → x.requestId = r.requestId →
        (db'.receivePayment hash).transferId.isSome →
        TransferOk { s.world with db := db' } x := by
      intro hash r hread hreq ht
      obtain ⟨l, hl, hid, -⟩ := read_receive hr hth hread
      obtain ⟨l', hl', hsame, -⟩ := hg.db.receives hash l hl
      exact .receive hash l' hl' (hsame.requestId.trans (hid.symm.trans hreq.symm)) ht
    cases (Db.transfers_step hrun).2 k x h with
    | old y hy hx => exact (ih _ y hy).grows hx hg
    | funding send key network hq hx =>
        subst hq
        obtain ⟨requests, sends, transfers, ⟨-, hid, p, hp⟩, hins, -, -, -, -, rfl⟩ :=
          Db.prepareLightningSend_ok hrun
        refine .other a ?_ fun p' hp' => ?_
        · show requests.get x.requestId = some a
          rw [hx, Table.get_insert hins, if_pos (by exact hid)]
        · exact absurd (hp.symm.trans hp') (by simp)
    | swapped hash transferId preimage requestId owner hq hx =>
        subst hq
        obtain ⟨-, -, -, r, hread, hreq, -⟩ := hj
        refine hpaid hread ?_ ?_
        · rw [hx]
          exact hreq
        · obtain ⟨transfers, -, rfl⟩ := Db.commitLightningReceiveSwap_ok hrun
          refine Db.stored_upsert_self (P := fun r => r.transferId.isSome) ?_ ?_
          · rfl
          · exact fun _ => rfl
    | inserted sparkId requestId owner kind status hq hx =>
        subst hq
        rcases hj with ⟨-, hash, r, hread, hreq, -, hrec⟩ | ⟨-, o, created, p, hins⟩
        · refine hpaid hread ?_ (hg.db.transferId hash (hrec.paid hr hth ih hread))
          rw [hx]
          exact hreq
        · -- the request of a swap
          obtain ⟨s₀, db₀, -, hrun₀, hg₀⟩ := db_fact hr hth hins
          obtain ⟨requests, hr₀, ⟨-, rfl⟩ | ⟨p', _, _, hp', -⟩⟩ := Db.insertRequest_ok hrun₀
          · have hget : requests.get requestId =
                some (Db.requestRow requestId o created (.leavesSwap p)) := by
              rw [Table.get_insert hr₀]
              exact if_pos rfl
            obtain ⟨r₁, hr₁, hp₁, -⟩ := hg₀.requests requestId _ hget
            obtain ⟨r₂, hr₂, hp₂, -⟩ := hg.db.requests requestId r₁ hr₁
            refine .other r₂ ?_ fun p' hp' => ?_
            · rw [hx]
              exact hr₂
            · rw [hp₂, hp₁] at hp'
              exact absurd hp' (by simp [Db.requestRow])
          · exact absurd hp' (by simp)
    | entered requestId r p hq hr' hp hx =>
        -- the request of another service
        subst hq
        obtain ⟨r₁, hr₁, hp₁, -⟩ := hg.db.requests requestId r hr'
        refine .other r₁ ?_ fun p' hp' => ?_
        · rw [hx, ServicePayload.row_requestId]
          exact hr₁
        · rw [hp₁, hp] at hp'
          cases hp'
    | offered offerId paymentHash transferId requestId owner hq hx =>
        subst hq
        obtain ⟨r, hground, hreq, -⟩ := hj
        refine hpaid hground.paid.read ?_ ?_
        · rw [hx]
          exact hreq
        · obtain ⟨-, rfl⟩ := Prod.mk.inj (Except.ok.inj hrun)
          refine Db.stored_upsert_self (P := fun r => r.transferId.isSome) ?_ ?_
          · rfl
          · exact fun _ => rfl

/-! ### Completion -/

theorem reach_completed {s : Config (machine D)} (hs : Reach ok s) {k : String}
    (h : (s.world.db.receivePayment k).status = .transferCompleted) :
    (s.world.db.receivePayment k).transferId.isSome := by
  refine reach_tables (J := fun w => ∀ k, (w.db.receivePayment k).status = .transferCompleted →
    (w.db.receivePayment k).transferId.isSome) ?_ ?_ ?_ hs k h
  · intro k h
    simp [World.init, Db.empty, Db.receivePayment, Db.freshReceivePayment] at h
  · intro w w' hdb _ ih k h
    rw [hdb] at h ⊢
    exact ih k h
  · intro s t q cont hist a db' hr hth hrun hg ih k h
    have hj := reach_justified hr hth
    -- induction over the run, by the step that sets the status
    cases Db.status_step hrun k with
    | none hst => exact hg.db.transferId k (ih k (hst ▸ h))
    -- a task sets it only with a transfer it has recorded
    | set status hq hst =>
        subst hq
        obtain rfl : status = .transferCompleted := hst.symm.trans h
        obtain ⟨-, r, transferId, hread, hrec⟩ := hj
        exact hg.db.transferId k
          (hrec.paid hr hth (fun k x hx => reach_transfers hr hx) hread)
    | completed paymentHash transferId requestId owner hq hst =>
        subst hq
        obtain ⟨-, rfl⟩ := Prod.mk.inj (Except.ok.inj hrun)
        refine Db.stored_upsert_self (P := fun r => r.transferId.isSome) ?_ ?_
        · rfl
        · exact fun _ => rfl
    | finished send hq hh hst =>
        subst hq hh
        obtain ⟨⟨l, x, hl, hx, hid⟩, -⟩ := Db.finishInternalSend_ok hrun
        exact hg.db.transferId _ ((reach_transfers hr hx).paid hr hl hid)
    | claimable id amount hq hst => exact absurd (hst.symm.trans h) (by simp)
    | paid transferId preimage requestId owner hq hst => exact absurd (hst.symm.trans h) (by simp)
    | submitted hq hst => exact absurd (hst.symm.trans h) (by simp)
    | failed id hq hst => exact absurd (hst.symm.trans h) (by simp)

/-- **A completed receive was paid.**  Its row has a transfer, which the operators executed
from the SSP to the receiver of the receive for exactly its amount, in every run in which the
transfers of the SSP that are reported for a payout are committed. -/
theorem completed_receive_paid {s : Config (machine D)} (hs : Reach committed s) (k : String)
    (h : (s.world.db.receivePayment k).status = .transferCompleted) :
    ∃ id l, (s.world.db.receivePayment k).transferId = some id ∧
      s.world.db.receives.get k = some l ∧
      s.world.spark.Pays D id l.receiver l.amountSats := by
  obtain ⟨id, hid⟩ := Option.isSome_iff_exists.mp (reach_completed hs h)
  obtain ⟨l, hl, hp⟩ := reach_paidOut hs k id hid
  exact ⟨id, l, hid, hl, hp⟩

namespace Sample

def createOffer : List (Move (machine .sample)) :=
  .spawn (.bolt12Receive "alice" ⟨1, "", "", "", "", none, none⟩) ::
  calls 0 [.done, .offer "lno1x" "off", .flag false, .uuid (uuid 1), .done, .done]

/-- Program `t` hears of a payment to the offer and comes to the transfer. -/
def payOffer (t : Nat) : List (Move (machine .sample)) :=
  .spawn (.event false) ::
  calls t [.event (some (.inboundBolt12Received "off" hash (some preimage) (some 1000))), .done,
    .done, .done, .done, .done, .done, .done, .done, .transfer none, .done]

/-- The transfer that pays the offer, in the state `status`. -/
def offerPayout (status : TransferStatus) : Option Transfer :=
  (Spark.receiveTransferIdOf hash none).toOption.map fun id =>
    ⟨id, ⟨"ssp"⟩, ⟨"alice"⟩, 1, .transfer, status, none, []⟩

/-- Program `t` hears of a payment to the offer and finds a transfer for it. -/
def findOfferPayout (t : Nat) (status : TransferStatus) : List (Move (machine .sample)) :=
  .spawn (.event false) ::
  calls t [.event (some (.inboundBolt12Received "off" hash (some preimage) (some 1000))), .done,
    .done, .done, .done, .done, .done, .done, .done, .transfer (offerPayout status), .done, .done,
    .done]

/-- The process stops while it pays the offer, and the transfer is `status` when the node reports
the payment again. -/
def resumeOffer (status : TransferStatus) : List (Move (machine .sample)) :=
  createOffer ++ payOffer 1 ++ .crash :: findOfferPayout 2 status

/-- Is the receive of `hash` completed? -/
def completed (hash : String) (s : Config (machine .sample)) : Bool :=
  (s.world.db.receivePayment hash).status == .transferCompleted

/-- The first attempt is claimed and settled, and the node reports it received. -/
def settledFirst : Reach.Run OpenSsp.committed (completed hash) :=
  .of committedMove (fun _ _ h => h) (payFirst ++ calls 1 [.done, .flag false, .done, .done] ++
    .spawn (.event false) :: calls 2 [.event (some (.inboundReceived (attemptId 'a') hash)), .done,
      .done, .done, .done, .done, .done]) (by decide +kernel)

def resumedOffer : Reach.Run OpenSsp.committed (completed "off") :=
  .of committedMove (fun _ _ h => h) (resumeOffer .senderKeyTweaked) (by decide +kernel)

def resumedReturned : Reach.Run anyMove fun s : Config (machine .sample) =>
    completed "off" s && s.world.spark.transfers.all fun x => x.status == .returned :=
  .ofMoves (resumeOffer .returned) (by decide +kernel)

end Sample

/-- The first attempt is settled, and the receive completed; so is an offer whose transfer is
found after a restart. -/
theorem completed_receive_paid_first :
    (∃ s : Config (machine .sample), Reach committed s ∧
      (s.world.db.receivePayment Sample.hash).status = .transferCompleted ∧
      ∃ id l, (s.world.db.receivePayment Sample.hash).transferId = some id ∧
        s.world.db.receives.get Sample.hash = some l ∧
        s.world.spark.Pays .sample id l.receiver l.amountSats) ∧
    ∃ s : Config (machine .sample), Reach committed s ∧
      (s.world.db.receivePayment "off").status = .transferCompleted ∧
      ∃ id l, (s.world.db.receivePayment "off").transferId = some id ∧
        s.world.db.receives.get "off" = some l ∧
        s.world.spark.Pays .sample id l.receiver l.amountSats := by
  constructor
  · obtain ⟨s, hs, hp⟩ := Sample.settledFirst
    have hp := beq_iff_eq.mp hp
    exact ⟨s, hs, hp, completed_receive_paid hs Sample.hash hp⟩
  · obtain ⟨s, hs, hp⟩ := Sample.resumedOffer
    have hp := beq_iff_eq.mp hp
    exact ⟨s, hs, hp, completed_receive_paid hs "off" hp⟩

/-- The transfer of an offer is returned to the SSP while the process is down, and the receive is
completed with it. -/
theorem returned_receive_completed : ∃ s : Config (machine .sample), Reach anyMove s ∧
    (s.world.db.receivePayment "off").status = .transferCompleted ∧
    (∀ x ∈ s.world.spark.transfers, x.status = .returned) ∧
    ¬ ∃ id l, (s.world.db.receivePayment "off").transferId = some id ∧
      s.world.db.receives.get "off" = some l ∧
      s.world.spark.Pays .sample id l.receiver l.amountSats := by
  obtain ⟨s, hs, hp⟩ := Sample.resumedReturned
  rw [Bool.and_eq_true, List.all_eq_true] at hp
  obtain ⟨hcompleted, hall⟩ := hp
  have hcompleted := beq_iff_eq.mp hcompleted
  have hreturned : ∀ x ∈ s.world.spark.transfers, x.status = .returned := fun x hx =>
    beq_iff_eq.mp (hall x hx)
  refine ⟨s, hs, hcompleted, hreturned, ?_⟩
  rintro ⟨id, l, -, -, key, -, x, hx, -, -, -, -, hcommitted⟩
  rw [hreturned x hx] at hcommitted
  cases hcommitted

end OpenSsp
