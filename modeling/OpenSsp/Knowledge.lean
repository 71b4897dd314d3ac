/-
OpenSsp/Knowledge.lean

What a program's history says about the world.

* Knowledge that cannot expire: the intents, payments and transfers a program has seen
  are still there (`KnownSend.row`, `KnownPayment.seen`, …).
* Knowledge under the receive lock: only its holder changes the parts of the world it
  guards, so what the holder has learned about a part and not touched since is up to
  date (`reach_kept`).

Both speak about `Knows ok s t h`: in the reachable configuration `s` program `t` is live
with the history `h`.
-/
import OpenSsp.Lib.Guard
import OpenSsp.Growth

namespace OpenSsp

open Interleave

variable {D : Deployment} {ok : Config (machine D) → Move (machine D) → Prop}

/-! ### The guard -/

/-- The locks of the program. -/
def guards (D : Deployment) : Guards (machine D) Lock where
  owner w := w.locks.owner
  Takes l e := ∃ b, e = ⟨Call.acquire l b, Except.ok ()⟩
  Gives l c := c = Call.release l
  take {t c ch w r w' l} hp he := by
    have hp : perform D t c ch w = some (r, w') := hp
    obtain ⟨b, he⟩ := he
    injection he with hc hr
    subst hc
    obtain rfl := eq_of_heq hr
    obtain ⟨-, rfl⟩ := perform_acquire hp
    rw [Locks.owner_set, if_pos rfl]
  own hp hne ho := (perform_locks (D := D) hp).keeps_own hne ho
  others hp hut ho := (perform_locks (D := D) hp).keeps_others hut ho
  cancel {t w l u} hut ho := by
    show (Locks.drop w.locks t).owner l = some u
    rw [Locks.owner_drop, ho, if_neg (fun e => hut (Option.some.inj e))]
  outside {o w w' l u} ho h := by
    rw [(outside_tables ho).2]
    exact h

/-- The two readings of a held lock are one. -/
theorem held_iff {l : Lock} {h : History Api} : (guards D).Held l h ↔ Holds l h :=
  ⟨fun ⟨_, ⟨b, he⟩, hs⟩ => ⟨b, he ▸ hs⟩, fun ⟨b, hs⟩ => ⟨_, ⟨b, rfl⟩, hs⟩⟩

/-! ### What the guard protects -/

/-- The part is the same in both worlds. -/
def Part.Same (w w' : World) : Part → Prop
  | bound => ∀ k, (w'.db.receivePayment k).paymentId = (w.db.receivePayment k).paymentId ∧
      (w'.db.receivePayment k).claimableAmountMsat = (w.db.receivePayment k).claimableAmountMsat
  | payout => ∀ k, (w'.db.receivePayment k).preimage = (w.db.receivePayment k).preimage ∧
      (w'.db.receivePayment k).transferId = (w.db.receivePayment k).transferId
  | reservation => w'.db.internalPayments = w.db.internalPayments
  | swaps => w'.spark.requestedSwaps = w.spark.requestedSwaps

theorem Part.Same.refl (p : Part) (w : World) : p.Same w w := by
  cases p with
  | bound => exact fun _ => ⟨rfl, rfl⟩
  | payout => exact fun _ => ⟨rfl, rfl⟩
  | reservation => exact rfl
  | swaps => exact rfl

theorem Part.Same.trans {p : Part} {a b c : World} (h : p.Same a b) (h' : p.Same b c) :
    p.Same a c := by
  cases p with
  | bound => exact fun k => ⟨(h' k).1.trans (h k).1, (h' k).2.trans (h k).2⟩
  | payout => exact fun k => ⟨(h' k).1.trans (h k).1, (h' k).2.trans (h k).2⟩
  | reservation => exact Eq.trans h' h
  | swaps => exact Eq.trans h' h

/-- The part is the same when the tables and the requested swaps are. -/
theorem Part.same_of_eq {p : Part} {w w' : World} (hdb : w'.db = w.db)
    (hs : w'.spark.requestedSwaps = w.spark.requestedSwaps) : p.Same w w' := by
  cases p with
  | bound => exact fun k => by rw [hdb]; exact ⟨rfl, rfl⟩
  | payout => exact fun k => by rw [hdb]; exact ⟨rfl, rfl⟩
  | reservation => exact congrArg Db.internalPayments hdb
  | swaps => exact hs

/-- A call changes no part but its own. -/
theorem perform_same {t : Nat} {c : Call} {ch : Choice} {w w' : World} {r : c.Reply}
    (h : perform D t c ch w = some (r, w')) {p : Part} (hc : c.part ≠ some p) : p.Same w w' := by
  cases c with
  | db q =>
      rcases perform_db h with ⟨a, db', hrun, -, rfl⟩ | ⟨e, -, rfl⟩
      · cases p with
        | bound =>
            intro k
            -- only the call of the part itself changes it
            cases Db.receive_step hrun k with
            | none same => exact ⟨same.paymentId, same.claimable⟩
            | bound id amount hq => exact absurd (by rw [hq]; rfl) hc
            | paid _ _ _ _ hq hid hamount => exact ⟨hid, hamount⟩
            | completed _ _ _ _ hq hid hamount => exact ⟨hid, hamount⟩
        | payout =>
            intro k
            cases Db.receive_step hrun k with
            | none same => exact ⟨same.preimage, same.transferId⟩
            | bound _ _ hq _ _ _ ht hp => exact ⟨hp, ht⟩
            | paid _ _ _ _ hq => exact absurd (by rw [hq]; rfl) hc
            | completed _ _ _ _ hq => exact absurd (by rw [hq]; rfl) hc
        | reservation =>
            rcases Db.internal_step hrun with hsame | ⟨send, l, rfl, -⟩
            · exact hsame
            · exact absurd rfl hc
        | swaps => exact rfl
      · exact .refl p _
  | ldk c =>
      obtain ⟨n, rfl, -⟩ := perform_ldk h
      exact Part.same_of_eq rfl rfl
  | spark c =>
      obtain ⟨s, rfl, -, hswaps, -⟩ := perform_spark h
      -- of the operators' calls one adds a swap
      rcases hswaps with hsame | ⟨req, rfl, -⟩
      · exact Part.same_of_eq rfl hsame
      · cases p with
        | bound => exact .refl .bound w
        | payout => exact .refl .payout w
        | reservation => exact .refl .reservation w
        | swaps => exact absurd rfl hc
  | _ =>
      obtain ⟨ls, rfl, -⟩ := performSystem_same (h : performSystem t _ ch w = some (r, w'))
      exact Part.same_of_eq rfl rfl

/-- The outside leaves what the lock of receives protects. -/
theorem outside_same {o : Outside} {w w' : World} (h : outside o w = some w') (p : Part) :
    p.Same w w' := by
  cases o with
  | tick n =>
      obtain rfl := Option.some.inj h
      exact Part.same_of_eq rfl rfl
  | payment x =>
      obtain ⟨n, -, rfl⟩ := Option.map_eq_some_iff.mp h
      exact Part.same_of_eq rfl rfl
  | transfer x =>
      obtain ⟨s, ho, rfl⟩ := Option.map_eq_some_iff.mp h
      exact Part.same_of_eq rfl (Operators.observe_reports ho).1.requestedSwaps
  | htlc q =>
      obtain ⟨s, ho, rfl⟩ := Option.map_eq_some_iff.mp h
      exact Part.same_of_eq rfl (Operators.observeHtlc_reports ho).1.requestedSwaps
  | commitSwap r =>
      obtain ⟨s, ho, rfl⟩ := Option.map_eq_some_iff.mp h
      exact Part.same_of_eq rfl (Operators.commitSwap_grows ho).2

/-- Whoever changes a guarded part holds the receive lock. -/
theorem justified_holds {h : History Api} {c : Call} (hj : Justified D h c) {p : Part}
    (hc : c.part = some p) : Holds .receive h := by
  cases c with
  | db q =>
      cases q with
      | markReceiveClaimable => exact hj.1
      | commitLightningReceiveSwap => exact hj.1
      | commitBolt12Receive =>
          obtain ⟨r, hg, -⟩ := hj
          exact hg.paid.holds
      | reserveInternalSend => exact hj.1
      | _ => simp [Call.part] at hc
  | spark c =>
      cases c with
      | initiatePreimageSwapV3 req =>
          obtain ⟨receiver, hash, hg⟩ := hj
          exact hg.holds
      | _ => simp [Call.part] at hc
  | _ => simp [Call.part] at hc

/-- A quiet event neither takes the lock nor gives it away. -/
theorem Quiet.keeps_guard {p : Part} {x : Event Api} (hx : Quiet p x) :
    ¬ (guards D).Takes .receive x ∧ ¬ (guards D).Gives .receive x.call := by
  refine ⟨?_, hx.keeps_lock⟩
  rintro ⟨b, rfl⟩
  simp [Quiet, Call.touches, Call.handlesGuard] at hx

/-- **Knowledge under the receive lock.**  What the holder learned at `e` about a part it
has not touched since is up to date. -/
theorem reach_kept {s : Config (machine D)} (hs : Reach ok s) {t : Nat} {th : Thread Api}
    (hth : s.thread t = some th) (hh : Holds .receive th.history) {p : Part} {e : Event Api}
    (he : Since (Quiet p) e th.history) :
    ∃ older s₀ s₁, Moment ok t e older s₀ s₁ ∧ p.Same s₁.world s.world ∧
      World.Grows s₁.world s.world := by
  refine (guards D).learned (S := fun w w' => p.Same w w' ∧ World.Grows w w') (q := Quiet p)
    (fun w => ⟨.refl p w, .refl w⟩) ?_ (fun _ hx => hx.keeps_guard) ?_ (fun t w => ?_)
    (fun w => ?_) ?_ hs hth (held_iff.mpr hh) he
  · rintro a b c ⟨hab, hab'⟩ ⟨hbc, hbc'⟩
    exact ⟨Part.Same.trans (b := b) hab hbc, World.Grows.trans a b c hab' hbc'⟩
  · intro s t ch c k h r w hr hth hm hp hx
    refine ⟨perform_same (D := D) hp fun hc => ?_, ?_⟩
    · -- whoever changes the part holds the lock
      rcases hx with hx | hx
      · simp [Quiet, Call.touches, hc] at hx
      · exact hx (held_iff.mpr (justified_holds (reach_justified hr hth) hc))
    · exact reach_grows hr (m := .run t ch) (by
        simp only [Config.step, hth, Option.map_eq_some_iff]
        exact ⟨(r, w), hp, rfl⟩)
  · exact ⟨Part.same_of_eq rfl rfl, .refl _, fun _ h => h, .refl _⟩
  · exact ⟨Part.same_of_eq rfl rfl, .refl _, fun _ h => h, .refl _⟩
  · exact fun o w w' ho => ⟨outside_same ho p, outside_grows ho⟩

/-! ### Knowledge that cannot expire -/

/-- The operators have the preimage of the HTLC that funds a send. -/
def Operators.Settled (s : Operators) (outbound hash : String) : Prop :=
  ∃ q ∈ s.htlcs, ∃ p t, q.status = .preimageShared ∧ q.preimage = some p ∧
    p.computeHash.text = lowercase hash ∧ q.transfer = some t ∧ t.id.print = outbound ∧
    fundingTransferCommitted t.status = true

/-- A prepayment went back to its owner. -/
def Operators.Refunded (D : Deployment) (s : Operators) (owner outbound : String)
    (amount : Nat) : Prop :=
  ∃ key, D.parsePublicKey owner = .ok key ∧ ∃ t ∈ s.transfers,
    t.id = refundTransferId outbound ∧ t.senderId = D.identity ∧ t.receiverId = key ∧
    t.totalValueSat = amount

/-- A transfer to the SSP that pays for a send. -/
inductive Operators.Funds (D : Deployment) (s : Operators) (a : LightningSend) : Prop
  | bolt11 (kind : a.kind = .bolt11) (t : Transfer) (mem : t ∈ s.transfers)
      (id : t.id.print = a.outboundTransferId) (type : t.transferType = .preimageSwap)
  | bolt12 (kind : a.kind = .bolt12) (t : Transfer) (mem : t ∈ s.transfers)
      (id : Uuid.parse a.outboundTransferId = some t.id) (type : t.transferType = .transfer)
      (completed : ∃ t' ∈ s.transfers, t'.id = t.id ∧ t'.status = .completed)
      (key : PublicKey) (owner : D.parsePublicKey a.owner = .ok key) (sender : t.senderId = key)
      (receiver : t.receiverId = D.identity) (amount : t.totalValueSat = a.amountSats)

/-- A settled HTLC stays settled. -/
theorem Operators.Settled.grows {s s' : Operators} {outbound hash : String}
    (h : s.Settled outbound hash) (hs : s.Grows s') : s'.Settled outbound hash := by
  obtain ⟨q, hq, hrest⟩ := h
  exact ⟨q, hs.htlcs q hq, hrest⟩

/-- A refunded transfer stays refunded. -/
theorem Operators.Refunded.grows {s s' : Operators} {owner outbound : String} {amount : Nat}
    (h : s.Refunded D owner outbound amount) (hs : s.Grows s') :
    s'.Refunded D owner outbound amount := by
  obtain ⟨key, hkey, t, ht, hrest⟩ := h
  exact ⟨key, hkey, t, hs.transfers t ht, hrest⟩

/-- A funded send stays funded. -/
theorem Operators.Funds.grows {s s' : Operators} {a : LightningSend} (h : s.Funds D a)
    (hs : s.Grows s') : s'.Funds D a := by
  cases h with
  | bolt11 kind t mem id type => exact .bolt11 kind t (hs.transfers t mem) id type
  | bolt12 kind t mem id type completed key owner sender receiver amount =>
      obtain ⟨t', ht', hid, hc⟩ := completed
      exact .bolt12 kind t (hs.transfers t mem) id type ⟨t', hs.transfers t' ht', hid, hc⟩ key
        owner sender receiver amount

/-- What continues one reading of a send continues the other. -/
theorem LightningSend.SameReading.continues {a b x : LightningSend} (h : a.SameReading b)
    (hx : a.Continues x) : b.Continues x := by
  have hp : a.paymentId = b.paymentId := by
    rw [h]
  have hst : a.status = b.status := by
    rw [h]
  exact ⟨hx.same.trans h.same, fun id hid => hx.paymentId id (hp ▸ hid),
    fun hs => hx.claimed (hst ▸ hs)⟩

section facts

variable {s : Config (machine D)} {t : Nat} {th : Thread Api}

/-- What is in a task's history was an event of the run. -/
theorem reach_mem (hs : Reach ok s) (hth : s.thread t = some th) {e : Event Api}
    (he : e ∈ th.history) :
    ∃ older s₀ s₁, Moment ok t e older s₀ s₁ ∧ World.Grows s₁.world s.world := by
  obtain ⟨newer, older, hh⟩ := List.append_of_mem he
  obtain ⟨s₀, s₁, hm, hg⟩ := reach_knows hs hth hh
  exact ⟨older, s₀, s₁, hm, hg⟩

/-- A method that succeeded, and the tables since. -/
theorem db_fact (hs : Reach ok s) (hth : s.thread t = some th) {q : Query} {a : q.Out}
    (he : dbEvent q a ∈ th.history) :
    ∃ s₀ db', Reach ok s₀ ∧ q.run s₀.world.now s₀.world.db = .ok (a, db') ∧
      db'.Grows s.world.db := by
  obtain ⟨older, s₀, s₁, hm, hg⟩ := reach_mem hs hth he
  obtain ⟨db', hrun, hw⟩ := moment_db hm
  have hgdb := hg.db
  rw [hw] at hgdb
  exact ⟨s₀, db', hm.reach, hrun, hgdb⟩

/-- The operators' answers hold of them later. -/
theorem spark_fact (hs : Reach ok s) (hth : s.thread t = some th) {c : SparkCall} {a : c.Out}
    (he : sparkEvent c a ∈ th.history) :
    ∃ sp : Operators, SparkAnswer sp c a ∧ sp.Grows s.world.spark := by
  obtain ⟨older, s₀, s₁, hm, hg⟩ := reach_mem hs hth he
  exact ⟨s₁.world.spark, moment_spark hm, hg.spark⟩

/-- The node's answers hold of it later. -/
theorem ldk_fact (hs : Reach ok s) (hth : s.thread t = some th) {c : LdkCall} {a : c.Out}
    (he : ldkEvent c a ∈ th.history) :
    ∃ seen, LdkAnswer D seen c a ∧ ∀ p ∈ seen, p ∈ s.world.ldk.seen := by
  obtain ⟨older, s₀, s₁, hm, hg⟩ := reach_mem hs hth he
  exact ⟨s₁.world.ldk.seen, moment_ldk hm, hg.ldk⟩

/-- The node's events hold of it later. -/
theorem stream_fact (hs : Reach ok s) (hth : s.thread t = some th) {e : LnEvent}
    (he : streamEvent e ∈ th.history) :
    ∃ n : LdkNode, validEvent n e = true ∧ ∀ p ∈ n.seen, p ∈ s.world.ldk.seen := by
  obtain ⟨older, s₀, s₁, hm, hg⟩ := reach_mem hs hth he
  obtain ⟨ch, hp⟩ := moment_perform hm
  obtain ⟨hv, hw⟩ := perform_nextEvent hp
  have hldk := hg.ldk
  rw [hw] at hldk
  exact ⟨_, hv, hldk⟩

/-- A row found by an id is a row of the table that has the id. -/
theorem Db.lightningSendForPayment_mem {db : Db} {id : String} {a : LightningSend}
    (h : db.lightningSendForPayment id = some a) :
    ∃ r ∈ db.sends.rows, r.intent = a ∧ (a.requestId = id ∨ a.paymentId = some id) := by
  obtain ⟨r, hr, rfl⟩ := Option.map_eq_some_iff.mp h
  have hid := List.find?_some hr
  simp only [Db.sendHasId, Bool.or_eq_true, beq_iff_eq] at hid
  exact ⟨r, List.mem_of_find?_eq_some hr, rfl, hid⟩

/-- An intent the program has read or written is a row, possibly further on. -/
theorem KnownSend.row (hs : Reach ok s) (hth : s.thread t = some th) {send : LightningSend}
    (hk : KnownSend th.history send) :
    ∃ r ∈ s.world.db.sends.rows, send.Continues r.intent := by
  cases hk with
  | read id a mem same =>
      obtain ⟨s₀, db', -, hrun, hg⟩ := db_fact hs hth mem
      obtain ⟨ha, rfl⟩ := Prod.mk.inj (Except.ok.inj hrun)
      obtain ⟨r, hr, rfl, -⟩ := Db.lightningSendForPayment_mem ha
      obtain ⟨r', hr', hc⟩ := hg.sends r hr
      exact ⟨r', hr', same.continues hc⟩
  | listed as a mem mem' same =>
      obtain ⟨s₀, db', -, hrun, hg⟩ := db_fact hs hth mem
      obtain ⟨rfl, rfl⟩ := Prod.mk.inj (Except.ok.inj hrun)
      have hmem := (List.perm_insertionSort _ _).mem_iff.mp (List.mem_of_mem_take mem')
      obtain ⟨r, hr, rfl⟩ := List.mem_map.mp (List.mem_filter.mp hmem).1
      obtain ⟨r', hr', hc⟩ := hg.sends r hr
      exact ⟨r', hr', same.continues hc⟩
  | prepared a key network row mem fresh same =>
      obtain ⟨s₀, db', -, hrun, hg⟩ := db_fact hs hth mem
      obtain ⟨requests, sends, transfers, -, -, hins, -, -, -, rfl⟩ :=
        Db.prepareLightningSend_ok hrun
      obtain ⟨-, hrows⟩ := Table.insert_eq_some hins
      obtain ⟨r', hr', hc⟩ := hg.sends (Db.preparedRow a) (by
        show Db.preparedRow a ∈ sends.rows
        rw [hrows]
        exact List.mem_cons_self)
      have ha : (Db.preparedRow a).intent = a := by
        obtain ⟨hp, hst⟩ := fresh
        simp only [Db.preparedRow, ← hp, ← hst]
      exact ⟨r', hr', same.continues (ha ▸ hc)⟩

/-- A payment a task knows has been reported. -/
theorem KnownPayment.seen (hs : Reach ok s) (hth : s.thread t = some th) {p : Payment}
    (hk : KnownPayment th.history p) : p ∈ s.world.ldk.seen := by
  cases hk with
  | asked id mem =>
      obtain ⟨seen, ha, hsub⟩ := ldk_fact hs hth mem
      exact hsub p ha.1
  | listed token page mem mem' =>
      obtain ⟨seen, ha, hsub⟩ := ldk_fact hs hth mem
      exact hsub p (ha p mem')

/-- A success a task knows has been reported as such. -/
theorem SucceededPayment.seen (hs : Reach ok s) (hth : s.thread t = some th) {p : Payment}
    (hk : SucceededPayment th.history p) : p ∈ s.world.ldk.seen ∧ p.status = .succeeded := by
  cases hk with
  | known hp hst => exact ⟨hp.seen hs hth, hst⟩
  | event mem =>
      obtain ⟨n, hv, hsub⟩ := stream_fact hs hth mem
      simp only [validEvent, Bool.and_eq_true, decide_eq_true_eq, beq_iff_eq] at hv
      exact ⟨hsub p hv.1, hv.2⟩

/-- A failure a task knows has been reported as such. -/
theorem FailedPayment.seen (hs : Reach ok s) (hth : s.thread t = some th) {id : String}
    (hk : FailedPayment th.history id) :
    ∃ p ∈ s.world.ldk.seen, p.paymentId = id ∧ p.status = .failed := by
  cases hk with
  | known p hp hid hst => exact ⟨p, hp.seen hs hth, hid, hst⟩
  | event reason mem =>
      obtain ⟨n, hv, hsub⟩ := stream_fact hs hth mem
      obtain ⟨p, hp, hx⟩ := List.any_eq_true.mp hv
      simp only [Bool.and_eq_true, beq_iff_eq] at hx
      exact ⟨p, hsub p hp, hx⟩

/-- An attempt a task knows of was announced by the node. -/
theorem KnownAttempt.seen (hs : Reach ok s) (hth : s.thread t = some th) {id hash : String}
    (hk : KnownAttempt th.history id hash) : s.world.ldk.hasAttempt id hash = true := by
  have hgrow : ∀ n : LdkNode, (∀ p ∈ n.seen, p ∈ s.world.ldk.seen) →
      n.hasAttempt id hash = true → s.world.ldk.hasAttempt id hash = true := by
    intro n hsub hn
    obtain ⟨p, hp, hx⟩ := List.any_eq_true.mp hn
    exact List.any_eq_true.mpr ⟨p, hsub p hp, hx⟩
  obtain ⟨p, hp, rfl, rfl⟩ := hk
  cases hp with
  | notified mem =>
      obtain ⟨n, hv, hsub⟩ := stream_fact hs hth mem
      exact hgrow n hsub hv
  | listed x hx hd hid hhash =>
      refine List.any_eq_true.mpr ⟨x, hx.seen hs hth, ?_⟩
      rcases hkind : x.kind with - | k
      · simp [bolt11Hash, hkind] at hhash
      · cases k with
        | bolt11 h' _ _ =>
            have : h' = p.paymentHash := by simpa [bolt11Hash, hkind] using hhash
            simp [hid, hd, this, PaymentKind.identity]
        | bolt12Offer => simp [bolt11Hash, hkind] at hhash
        | other => simp [bolt11Hash, hkind] at hhash

/-- A funding a task has settled is settled with the operators. -/
theorem SettledFunding.settled (hs : Reach ok s) (hth : s.thread t = some th)
    {outbound hash : String} (hk : SettledFunding th.history outbound hash) :
    s.world.spark.Settled outbound hash := by
  cases hk with
  | shared items q t p mem mem' hhash hst hp ht hid committed =>
      obtain ⟨sp, ha, hg⟩ := spark_fact hs hth mem
      have hq : q ∈ s.world.spark.htlcs := hg.htlcs q (ha q mem')
      refine ⟨q, hq, p, t, hst, hp, ?_, ht, hid, committed⟩
      rw [s.world.spark.lawful q hq p hst hp, hhash]
  | claimed p t mem hhash hid committed =>
      obtain ⟨sp, ha, hg⟩ := spark_fact hs hth mem
      exact ⟨_, hg.htlcs _ ha, p, t, rfl, rfl, hhash, rfl, hid, committed⟩

/-- A funding a task has returned is returned with the operators. -/
theorem Refunded.refunded (hs : Reach ok s) (hth : s.thread t = some th)
    {owner outbound : String} {amount : Nat} (hk : Refunded D th.history owner outbound amount) :
    s.world.spark.Refunded D owner outbound amount := by
  obtain ⟨key, x, hkey, hv, hmem⟩ := hk
  obtain ⟨hsender, hreceiver, htotal⟩ := validateTransfer_ok hv
  rcases hmem with hmem | hmem
  · obtain ⟨sp, ha, hg⟩ := spark_fact hs hth hmem
    exact ⟨key, hkey, x, hg.transfers x ha.1, ha.2, hsender, hreceiver, htotal⟩
  · obtain ⟨sp, ha, hg⟩ := spark_fact hs hth hmem
    exact ⟨key, hkey, x, hg.transfers x ha.1, ha.2, hsender, hreceiver, htotal⟩

/-- What a prepared intent is based on has been reported. -/
theorem Funded.funds (hs : Reach ok s) (hth : s.thread t = some th) {send : LightningSend}
    (hk : Funded D th.history send) : s.world.spark.Funds D send := by
  cases hk with
  | bolt11 i items q t uuid kind invoice identity mem funds fresh =>
      obtain ⟨amount, hf⟩ := funds
      obtain ⟨sp, ha, hg⟩ := spark_fact hs hth mem
      have hq := hg.htlcs q (ha q hf.mem)
      obtain ⟨key, now, cap, -, hv⟩ := hf.key
      exact .bolt11 kind t (s.world.spark.reported q hq t hf.transfer) hf.id
        (validateLightningSendTransfer_ok hv).1
  | bolt12 u t uuid kind offer identity mem funds fresh =>
      obtain ⟨sp, ha, hg⟩ := spark_fact hs hth mem
      obtain ⟨key, hkey, hv⟩ := funds.key
      obtain ⟨hsender, hreceiver, htotal⟩ := validateTransfer_ok hv
      have ht := hg.transfers t ha.1
      exact .bolt12 kind t ht (by rw [funds.id, ha.2]) funds.standard
        ⟨t, ht, rfl, funds.completed⟩ key hkey hsender hreceiver htotal

end facts

end OpenSsp
