/-
OpenSsp/ReceivePayout.lean

Who pays for a BOLT11 receive and what is paid out for it, over all runs: external
attempts, local payers, retries, lost replies and restarts.

Main results:

* `receive_has_one_payer`: a receive never has both a local payer and a bound attempt,
  and a program that works for the one that lost changes no row of the receive.
* `payouts_agree`: every payout of a receive asks for the same transfer, receiver,
  invoice and amount, and only while it is unpaid and backed.
* `claims_follow_payouts`: an attempt is claimed only after the payout was stored, with a
  preimage that fits, for exactly the amount, and no other attempt ever is.
-/
import OpenSsp.ReceiveInvariant

namespace OpenSsp

open Interleave

variable {D : Deployment} {ok : Config (machine D) → Move (machine D) → Prop}

/-! ### A receive of one satoshi -/

namespace Sample

def preimage : String := "0000000000000000000000000000000000000000000000000000000000000001"

/-- The SHA-256 digest of `preimage`. -/
def hash : String := "ec4916dd28fc4c10d78e287ca5d9cc51ee1ae73cbfde08c6b37324cbfaac8bc5"

def uuid (n : UInt8) : Uuid := Uuid.ending n

/-- Program `t` makes its next calls. -/
def calls (t : Nat) (chs : List Choice) : List (Move (machine .sample)) := Move.runs t chs

def createReceive : List (Move (machine .sample)) :=
  .spawn (.lightningReceive "alice" ⟨1, "", hash, "", "", none, none⟩) ::
  calls 0 [.done, .done, .quote none, .text ("lnssp" ++ hash), .flag false, .flag false,
    .uuid (uuid 1), .done, .done]

def attemptId (c : Char) : String := String.ofList (List.replicate 64 c)

/-- An attempt to pay the receive, as the node reports it. -/
def attempt (c : Char) (msat : Nat) (status : PaymentStatus) : Payment :=
  ⟨attemptId c, some (.bolt11 hash none none), some msat, .inbound, status⟩

/-- Program `t` handles the notification of an attempt up to its look at the receive. -/
def notify (t : Nat) (c : Char) (msat : Nat) : List (Move (machine .sample)) :=
  .outside (.payment (attempt c msat .pending)) :: .spawn (.event false) ::
  calls t [.event (some (.inboundClaimable ⟨attemptId c, hash, some msat⟩)), .done, .done, .done,
    .done, .done]

/-- The first attempt is bound to the receive. -/
def bindFirst : List (Move (machine .sample)) := createReceive ++ notify 1 'a' 1000 ++ calls 1 [.done]

/-- The transfer that pays the receiver. -/
def payout : Option Transfer :=
  (Spark.receiveTransferIdOf hash none).toOption.map fun id =>
    ⟨id, ⟨"ssp"⟩, ⟨"alice"⟩, 1, .preimageSwap, .completed, none, []⟩

/-- The operators execute the payout and it is stored. -/
def payFirst : List (Move (machine .sample)) :=
  bindFirst ++ calls 1 [.done, .done, .done, .done, .htlcs [], .done, .done,
    .swap (Bytes32.parse preimage) payout, .done, .done, .flag false, .done]

end Sample

/-! ### One payer -/

/-- The piece of work a program is in: its last call that began or ended one. -/
def currentWork (h : History Api) : Option Call :=
  (h.find? fun e => e.call.handlesGuard).map (·.call)

theorem Latest.currentWork {h : History Api} {e : Event Api} (hl : Latest h e)
    (he : e.call.handlesGuard = true) : currentWork h = some e.call := by
  induction h with
  | nil => exact absurd hl Since.nil
  | cons x h ih =>
      rcases Since.cons_iff.mp hl with rfl | ⟨hx, hl⟩
      · simp [OpenSsp.currentWork, he]
      · have hskip : OpenSsp.currentWork (x :: h) = OpenSsp.currentWork h := by
          simp [OpenSsp.currentWork, hx]
        rw [hskip]
        exact ih hl

/-- The program works for an attempt, or for a local payer, that has lost the receive
`hash` to another one. -/
def losesReceive (db : Db) (hash : String) (h : History Api) : Bool :=
  match currentWork h with
  | some (.mark (.attempt id key)) => key == hash &&
      ((db.internalSend hash).isSome || (db.receivePayment hash).paymentId.any (· != id))
  | some (.mark (.internal send)) => send.expectedId == hash &&
      ((db.receivePayment hash).paymentId.isSome ||
        (db.internalSend hash).any (· != send.requestId))
  | _ => false

section payer

variable {s : Config (machine D)} {t : Nat} {th : Thread Api} {hash : String}

/-- A reservation that has been made still stands in later tables. -/
theorem Db.reserveInternalSend_stands {db db' db'' : Db} {send : LightningSend} {now : Nat} {u : Unit}
    (h : db.reserveInternalSend send now = .ok (u, db')) (hg : db'.Grows db'') :
    db''.internalSend send.expectedId = some send.requestId := by
  have hnow : ∀ r, db'.internalPayments.get send.expectedId = some r →
      db''.internalSend send.expectedId = some r.sendId := fun r hr => by
    rw [Db.internalSend, hg.internal _ r hr, Option.map_some]
  rcases Db.reserveInternalSend_ok h with ⟨rfl, hi⟩ | ⟨l, ip, -, -, -, -, hins, rfl⟩
  · obtain ⟨r, hr, hid⟩ := Option.map_eq_some_iff.mp hi
    rw [hnow r hr, hid]
  · have hrow : ip.get send.expectedId = some ⟨send.expectedId, send.requestId⟩ := by
      rw [Table.get_insert hins, if_pos rfl]
    exact hnow _ hrow

theorem reserved_stands (hs : Reach ok s) (hth : s.thread t = some th) {send : LightningSend}
    (he : dbEvent (.reserveInternalSend send) () ∈ th.history) :
    s.world.db.internalSend send.expectedId = some send.requestId := by
  obtain ⟨s₀, db', -, hrun, hg⟩ := db_fact hs hth he
  exact Db.reserveInternalSend_stands hrun hg

theorem internalSend_unbound (hs : Reach ok s) {payer : String}
    (h : s.world.db.internalSend hash = some payer) :
    (s.world.db.receivePayment hash).paymentId = none := by
  obtain ⟨r, hr, -⟩ := Option.map_eq_some_iff.mp h
  exact (reach_reservations hs hr).unbound

/-- Whoever writes to the row of a receive has not lost it. -/
theorem WriteGround.wins (hs : Reach ok s) (hth : s.thread t = some th)
    (hw : WriteGround th.history hash) : losesReceive s.world.db hash th.history = false := by
  cases hw with
  | bound id msat work holds bound free =>
      obtain ⟨hid, -⟩ := kept_claimable hs hth holds bound
      simp [losesReceive, work.currentWork rfl, hid, kept_internal hs hth holds free]
  | unclaimed id r work holds read own free =>
      have hid := kept_bound hs hth holds read
      rcases own with hr | hr
      · simp [losesReceive, work.currentWork rfl, hid, hr, kept_internal hs hth holds free]
      · simp [losesReceive, work.currentWork rfl, hid, hr, kept_internal hs hth holds free]
  | reserved send work hhash reserved =>
      subst hhash
      have hi := reserved_stands hs hth reserved
      simp [losesReceive, work.currentWork rfl, hi, internalSend_unbound hs hi]
  | expired r work => simp [losesReceive, work.currentWork rfl]
  | created id owner created p hhash work => simp [losesReceive, work.currentWork rfl]

theorem OfferPaid.wins {h : History Api} {offerId paymentHash : String} {r : LightningReceive}
    (hp : OfferPaid h offerId paymentHash r) (db : Db) (hash : String) :
    losesReceive db hash h = false := by
  simp [losesReceive, hp.work.currentWork rfl]

/-- A receive that has been lost is there. -/
theorem receive_of_loses (hs : Reach ok s) {h : History Api}
    (hl : losesReceive s.world.db hash h = true) :
    (s.world.db.receives.get hash).isSome := by
  have hbound : (s.world.db.receivePayment hash).paymentId.isSome →
      (s.world.db.receives.get hash).isSome := by
    intro h
    obtain ⟨id, hid⟩ := Option.isSome_iff_exists.mp h
    exact ((reach_payments hs hash).bound id hid).1
  -- a reservation has a payer, and its receive is stored
  have hreserved : (s.world.db.internalSend hash).isSome →
      (s.world.db.receives.get hash).isSome := by
    intro h
    obtain ⟨payer, hp⟩ := Option.isSome_iff_exists.mp h
    obtain ⟨r, hr, -⟩ := Option.map_eq_some_iff.mp hp
    obtain ⟨l, hl, -⟩ := (reach_reservations hs hr).payer
    exact Option.isSome_of_mem hl
  have hany : ∀ {o : Option String} {p : String → Bool}, o.any p = true → o.isSome := by
    intro o p h
    cases o with
    | none => simp at h
    | some x => rfl
  -- which of the two takes the receive depends on the call of the attempt
  unfold losesReceive at hl
  split at hl
  · simp only [Bool.and_eq_true, Bool.or_eq_true] at hl
    rcases hl.2 with h | h
    · exact hreserved h
    · exact hbound (hany h)
  · simp only [Bool.and_eq_true, Bool.or_eq_true] at hl
    rcases hl.2 with h | h
    · exact hbound h
    · exact hreserved (hany h)
  · simp at hl

/-- A failed attempt that has lost the receive is not written to it. -/
theorem failExternal_loses {h : History Api} {id : String} {db : Db}
    (hwork : Latest h (markEvent (.attempt id hash))) (hl : losesReceive db hash h = true) :
    (db.failExternalReceive hash id).2.receiveRows hash = db.receiveRows hash := by
  refine Prod.ext rfl (Eq.trans (Table.get_update _ _ _ ?_ hash) ?_)
  · exact fun _ => rfl
  rw [Db.receiveRows]
  rcases hg : db.receivePayments.get hash with - | r
  · rfl
  · have hrow : db.receivePayment hash = r := by rw [Db.receivePayment, hg, Option.getD_some]
    simp only [losesReceive, hwork.currentWork rfl, beq_self_eq_true, Bool.true_and, hrow,
      Bool.or_eq_true, Db.internalSend, Option.isSome_map] at hl
    rcases hl with hi | hp
    · simp [Option.isSome_iff_ne_none.mp hi]
    · rcases hid : r.paymentId with - | id'
      · simp [hid] at hp
      · have hne : ¬ id' = id := by simpa [hid] using hp
        simp [hid, hne]

/-- A method called for the losing attempt leaves the rows of the receive alone. -/
theorem loser_keeps_rows (hs : Reach ok s) {q : Query} {k : Api.Reply (Call.db q) → Prog Api Unit}
    {hist : History Api} (hth : s.thread t = some ⟨.call (.db q) k, hist⟩) {a : q.Out} {db' : Db}
    (hrun : q.run s.world.now s.world.db = .ok (a, db'))
    (hl : losesReceive s.world.db hash hist = true) :
    db'.receiveRows hash = s.world.db.receiveRows hash := by
  by_cases hk : q.receiveKey = some hash
  swap
  · exact Db.run_receiveRows hrun hk
  have hj := reach_justified hs hth
  have hwrite : ¬ WriteGround hist hash := fun hw =>
    absurd (hw.wins hs hth) (by simp [hl])
  have hoffer : ∀ paymentHash r, ¬ OfferPaid hist hash paymentHash r := fun paymentHash r hp =>
    absurd (hp.wins s.world.db hash) (by simp [hl])
  cases q with
  | insertRequest id owner created payload =>
      -- the receive is there already
      obtain ⟨requests, -, ⟨-, rfl⟩ | ⟨p, qu, rc, rfl, -, hr, rfl⟩⟩ := Db.insertRequest_ok hrun
      · rfl
      · obtain rfl : p.paymentHash = hash := Option.some.inj hk
        have hthere := receive_of_loses hs hl
        have hfree : s.world.db.receives.get p.paymentHash = none := (Table.insert_eq_some hr).1
        rw [hfree] at hthere
        exact absurd hthere (by simp)
  | markReceiveClaimable key id amount =>
      obtain rfl : key = hash := Option.some.inj hk
      obtain ⟨hholds, -, hfree, hwork, -⟩ := hj
      obtain ⟨hid, -⟩ := Db.markReceiveClaimable_ok hrun
      rw [losesReceive, hwork.currentWork rfl] at hl
      rcases hid with hid | hid
      · simp [hid, kept_internal hs hth hholds hfree] at hl
      · simp [hid, kept_internal hs hth hholds hfree] at hl
  | commitLightningReceiveSwap key transferId preimage requestId owner =>
      obtain rfl : key = hash := Option.some.inj hk
      exact absurd hj.2.2.1 hwrite
  | markReceiveClaimSubmitted key =>
      obtain rfl : key = hash := Option.some.inj hk
      exact absurd hj hwrite
  | setReceiveStatus key status =>
      obtain rfl : key = hash := Option.some.inj hk
      exact absurd hj.1 hwrite
  | failExternalReceive key id =>
      obtain rfl : key = hash := Option.some.inj hk
      obtain ⟨-, rfl⟩ := Prod.mk.inj (Except.ok.inj hrun)
      exact failExternal_loses hj hl
  | bindBolt12Receive offerId paymentHash =>
      obtain rfl : offerId = hash := Option.some.inj hk
      obtain ⟨r, hp⟩ := hj
      exact absurd hp (hoffer _ _)
  | commitBolt12Receive offerId paymentHash transferId requestId owner =>
      obtain rfl : offerId = hash := Option.some.inj hk
      obtain ⟨r, hp, -⟩ := hj
      exact absurd hp.paid (hoffer _ _)
  | finishInternalSend send =>
      obtain rfl : send.expectedId = hash := Option.some.inj hk
      exact absurd hj.2.2.2 hwrite
  | _ => simp [Query.receiveKey] at hk

end payer

/-- **A receive has one payer.**  No state has both a local payer and a bound attempt, and
no call of a program that works for the one that lost changes the rows of the receive. -/
theorem receive_has_one_payer {s : Config (machine D)} (hs : Reach anyMove s) (hash : String) :
    ¬ ((s.world.db.internalSend hash).isSome ∧
      (s.world.db.receivePayment hash).paymentId.isSome) ∧
    ∀ t th ch s', s.thread t = some th → losesReceive s.world.db hash th.history = true →
      s.step (.run t ch) = some s' →
      s'.world.db.receiveRows hash = s.world.db.receiveRows hash := by
  refine ⟨fun ⟨hi, hp⟩ => ?_, fun t th ch s' hth hl hst => ?_⟩
  · obtain ⟨payer, hi⟩ := Option.isSome_iff_exists.mp hi
    simp [internalSend_unbound hs hi] at hp
  · rcases Config.step_cases hst with ⟨r, h, -⟩ | ⟨t', ch', c, k, hist, r, w, h, hth', hp, rfl⟩ |
      ⟨u, x, h, -⟩ | ⟨h, -⟩ | ⟨o, w, h, -⟩
    · simp at h
    · obtain ⟨rfl, rfl⟩ := Move.run.inj h
      obtain rfl := Option.some.inj (hth.symm.trans hth')
      have hp : perform D t c ch s.world = some (r, w) := hp
      by_cases hc : ∃ q, c = .db q
      · obtain ⟨q, rfl⟩ := hc
        rcases perform_db hp with ⟨a, db', hrun, -, rfl⟩ | ⟨e, -, rfl⟩
        · exact loser_keeps_rows hs hth hrun hl
        · rfl
      · show w.db.receiveRows hash = _
        rw [perform_tables hp fun q hq => hc ⟨q, hq⟩]
    · simp at h
    · simp at h
    · simp at h

/-- The first attempt is bound when a rival one is reported. -/
def Sample.rivalLoses : Reach.Run (M := machine .sample) anyMove fun s =>
    (s.thread 2).any (fun th => losesReceive s.world.db hash th.history) &&
      (s.step (.run 2 .done)).isSome :=
  .ofMoves (bindFirst ++ .crash :: notify 2 'b' 1000) (by decide +kernel)

/-- A rival attempt that loses the receive and is about to be failed. -/
theorem receive_has_one_payer_rival : ∃ (s s' : Config (machine .sample)) (th : Thread Api),
    Reach anyMove s ∧ s.thread 2 = some th ∧
    losesReceive s.world.db Sample.hash th.history = true ∧ s.step (.run 2 .done) = some s' ∧
    s'.world.db.receiveRows Sample.hash = s.world.db.receiveRows Sample.hash := by
  obtain ⟨s, hs, hp⟩ := Sample.rivalLoses
  rw [Bool.and_eq_true] at hp
  obtain ⟨th, hth, hl⟩ := (Option.any_eq_true _ _).mp hp.1
  obtain ⟨s', hst⟩ := Option.isSome_iff_exists.mp hp.2
  exact ⟨s, s', th, hs, hth, hl, hst,
    (receive_has_one_payer hs Sample.hash).2 2 th .done s' hth hl hst⟩

/-! ### What is paid out -/

/-- What backs a payout: an attempt of exactly the amount is bound, or the receive is
reserved for a send whose funding, of the same amount, was verified in this very call. -/
inductive PayoutBacked (D : Deployment) (w : World) (h : History Api) (hash : String)
    (amount : Nat) : Prop
  | attempt (id : String) (bound : (w.db.receivePayment hash).paymentId = some id)
      (exact_ : (w.db.receivePayment hash).claimableAmountMsat = some (amount * 1000))
      (known : w.ldk.hasAttempt id hash = true)
  | reservation (send : LightningSend)
      (reserved : w.db.internalSend hash = some send.requestId)
      (row : ∃ r ∈ w.db.sends.rows, r.intent.SameIntent send) (pays : send.expectedId = hash)
      (items : List PreimageRequest) (q : PreimageRequest) (x : Transfer)
      (verified : Since (fun e : Event Api => e.call.handlesGuard = false)
        (sparkEvent (.queryHtlc send.outboundTransferId (lowercase hash) .receiver) items) h)
      (funds : FundsBolt11 D send.owner send.outboundTransferId hash amount items q x)

section payout

variable {s : Config (machine D)} {t : Nat} {th : Thread Api} {hash : String}

theorem Backed.backs (hs : Reach ok s) (hth : s.thread t = some th)
    (hh : Holds .receive th.history) {r : LightningReceive} (hrow : UnpaidRow th.history hash r)
    (hb : Backed D th.history hash r.amountSats) :
    PayoutBacked D s.world th.history hash r.amountSats := by
  cases hb with
  | attempt id msat hm claimable =>
      obtain ⟨hid, hamount⟩ := kept_claimable hs hth hh claimable
      rw [(checkedMul_eq_some hm).1] at hamount
      exact .attempt id hid hamount ((reach_payments hs hash).bound id hid).2.2
  | reservation send known reserved hhash items q x verified funds =>
      subst hhash
      have hi := reserved_stands hs hth reserved.mem
      obtain ⟨l, hl, -, -, -, hamount, -⟩ := read_receive hs hth hrow.read.mem
      obtain ⟨p, hp, hpid⟩ := Option.map_eq_some_iff.mp hi
      -- the reserved send owes the amount of the receive
      obtain ⟨l', hl', y, hy, hyid, -, hya⟩ := (reach_reservations hs hp).payer
      obtain rfl := Option.some.inj (hl.symm.trans hl')
      have hc := known_row hs hth known hy (hyid.trans hpid).symm
      have heq : send.amountSats = r.amountSats := by
        rw [hamount, hya, hc.same.amountSats]
      rw [heq] at funds
      exact .reservation send hi ⟨y, hy, hc.same⟩ rfl items q x
        (verified.mono fun _ => Quiet.keeps_work) funds

/-- What the payout function was called with is what is stored of the receive. -/
structure PayoutOf (w : World) (id : Uuid) (receiver hash invoice : String) (amount : Nat) :
    Prop where
  row : ∃ l, w.db.receives.get hash = some l ∧ receiver = l.receiver ∧ invoice = l.invoice ∧
    amount = l.amountSats
  transfer : Spark.receiveTransferIdOf hash (w.db.quoteForHash hash) = .ok id
  taken : (w.db.receivePayment hash).paymentId.isSome ∨ (w.db.internalSend hash).isSome

theorem PayoutOf.grows {w w' : World} {id : Uuid} {receiver invoice : String} {amount : Nat}
    (h : PayoutOf w id receiver hash invoice amount) (hg : w.Grows w') :
    PayoutOf w' id receiver hash invoice amount := by
  obtain ⟨⟨l, hl, hr, hi, ha⟩, ht, hb⟩ := h
  obtain ⟨l', hl', hsame, hq⟩ := hg.db.receives hash l hl
  refine ⟨⟨l', hl', ?_, ?_, ?_⟩, ?_, hb.imp (fun h => ?_) fun h => ?_⟩
  · rw [hr, hsame.receiver]
  · rw [hi, hsame.invoice]
  · rw [ha, hsame.amountSats]
  · rwa [Db.quoteForHash, hq]
  · obtain ⟨x, hx⟩ := Option.isSome_iff_exists.mp h
    exact Option.isSome_of_mem (hg.db.bound hash x hx)
  · obtain ⟨x, hx⟩ := Option.isSome_iff_exists.mp h
    obtain ⟨y, hy, -⟩ := Option.map_eq_some_iff.mp hx
    rw [Db.internalSend, hg.db.internal hash y hy]
    rfl

/-- The quote is the one of the receive, because it was read after the receive was. -/
theorem QuoteRead.quote (hs : Reach ok s) (hth : s.thread t = some th) {r : LightningReceive}
    {b : Bytes32} {quote : Option String} (hb : Bytes32.parse hash = some b)
    (hq : QuoteRead th.history hash r b quote) :
    b.text = hash ∧ s.world.db.quoteForHash hash = quote := by
  obtain ⟨newer, older, hh, hmem⟩ := hq
  obtain ⟨s₀, s₁, hm, hg⟩ := reach_knows hs hth hh
  obtain ⟨db', hrun, hw⟩ := moment_db hm
  obtain ⟨ha, rfl⟩ := Prod.mk.inj (Except.ok.inj hrun)
  obtain ⟨ch, k, hth₀, -⟩ := hm.made
  obtain ⟨l, hl, -⟩ := read_receive hm.reach hth₀ hmem
  have htext := reach_key_text hm.reach hl hb
  have hgdb := hg.db
  rw [hw] at hgdb
  obtain ⟨-, -, -, hquote⟩ := hgdb.receives hash l hl
  rw [htext] at ha
  exact ⟨htext, by rw [Db.quoteForHash, hquote]; exact ha⟩

theorem PayoutGround.payout (hs : Reach ok s) (hth : s.thread t = some th) {id : Uuid}
    {receiver invoice : String} {amount : Nat} {r : LightningReceive}
    (hg : PayoutGround D th.history id receiver hash invoice amount r) :
    PayoutOf s.world id receiver hash invoice amount := by
  obtain ⟨l, hl, -, -, hr, ha, hi⟩ := read_receive hs hth hg.row.read.mem
  obtain ⟨b, quote, hb, hq, hid⟩ := hg.quoted
  obtain ⟨htext, hquote⟩ := hq.quote hs hth hb
  refine ⟨⟨l, hl, hg.receiver_eq.trans hr, hg.invoice_eq.trans hi, hg.amount_eq.trans ha⟩, ?_, ?_⟩
  · rw [hquote, ← htext]
    exact hid
  · have hback := hg.backed
    rw [hg.amount_eq] at hback
    cases hback.backs hs hth hg.holds hg.row with
    | attempt x bound => exact .inl (Option.isSome_of_mem bound)
    | reservation send reserved => exact .inr (Option.isSome_of_mem reserved)

/-- The receive of every payout ever started, as it is now. -/
theorem reach_payout (hs : Reach ok s) {id : Uuid} {receiver invoice : String} {amount : Nat}
    (he : (t, markEvent (.swapReceive id receiver hash invoice amount)) ∈ s.trace) :
    PayoutOf s.world id receiver hash invoice amount := by
  obtain ⟨h, s₀, s₁, hm, hg⟩ := reach_happened hs he
  obtain ⟨r, hground⟩ : ∃ r, PayoutGround D h id receiver hash invoice amount r :=
    moment_justified hm
  obtain ⟨ch, k, hth, -, hp, -⟩ := hm.made
  have hp : perform D t (.mark (.swapReceive id receiver hash invoice amount)) ch s₀.world =
    some ((), s₁.world) := hp
  have hgrow : World.Grows s₀.world s₁.world := perform_grows hp (by simp)
  exact ((hground.payout hm.reach hth).grows hgrow).grows hg

/-- Every receive swap that has reached the operators is a payout that was started. -/
theorem reach_requested (hs : Reach ok s) {r : ReceiveSwapRequest}
    (hr : r ∈ s.world.spark.requestedSwaps) : ∃ u receiver key,
      (u, markEvent (.swapReceive r.transferId receiver key r.invoice r.amountSats)) ∈ s.trace ∧
      Bytes32.parse key = some r.paymentHash ∧ D.parsePublicKey receiver = .ok r.receiver := by
  refine hs.invariant (J := fun s : Config (machine D) => ∀ r ∈ s.world.spark.requestedSwaps,
    ∃ u receiver key,
      (u, markEvent (.swapReceive r.transferId receiver key r.invoice r.amountSats)) ∈ s.trace ∧
      Bytes32.parse key = some r.paymentHash ∧ D.parsePublicKey receiver = .ok r.receiver)
    ?_ ?_ r hr
  · intro r hr
    simp [Config.start, machine, World.init, Operators.empty] at hr
  · intro s s' m hreach ih _ hst r hr
    rcases Config.step_cases hst with ⟨x, -, rfl⟩ | ⟨t, ch, c, k, hist, x, w, -, hth, hp, rfl⟩ |
      ⟨u, x, -, -, rfl⟩ | ⟨-, rfl⟩ | ⟨o, w, -, ho, rfl⟩
    · exact ih r hr
    · -- a request the operators have from before, or the one of this call
      have hold : r ∈ s.world.spark.requestedSwaps → ∃ u receiver key,
          (u, markEvent (.swapReceive r.transferId receiver key r.invoice r.amountSats)) ∈
            (t, ⟨c, x⟩) :: s.trace ∧
          Bytes32.parse key = some r.paymentHash ∧ D.parsePublicKey receiver = .ok r.receiver := by
        intro hr
        obtain ⟨u, receiver, key, hm, hk⟩ := ih r hr
        exact ⟨u, receiver, key, List.mem_cons_of_mem _ hm, hk⟩
      by_cases hc : c.part = some .swaps
      · have hp : perform D t c ch s.world = some (x, w) := hp
        cases c with
        | spark c =>
            obtain ⟨sp, rfl, -, hswaps, -⟩ := perform_spark hp
            rcases hswaps with hsame | ⟨req, rfl, hreq⟩
            · exact hold (hsame ▸ hr)
            · rcases List.mem_cons.mp (hreq ▸ hr) with rfl | hr
              · obtain ⟨receiver, key, hg⟩ : ∃ receiver key, SwapGround D hist r receiver key :=
                  reach_justified hreach hth
                exact ⟨t, receiver, key,
                  List.mem_cons_of_mem _ (hreach.history_mem t _ hth _ hg.payout), hg.hash_eq,
                  hg.receiver_eq⟩
              · exact hold hr
        | db q => cases q <;> simp [Call.part] at hc
        | _ => simp [Call.part] at hc
      · have hsame : w.spark.requestedSwaps = s.world.spark.requestedSwaps :=
          perform_same (D := D) hp (p := .swaps) hc
        exact hold (hsame ▸ hr)
    · exact ih r hr
    · exact ih r hr
    · have hsame : w.spark.requestedSwaps = s.world.spark.requestedSwaps :=
        outside_same ho .swaps
      exact ih r (hsame ▸ hr)

end payout

/-- **The payouts of a receive agree.**  All of them ask for one transfer, receiver, invoice
and amount, and so do the requests that reach the operators; each is started while no
preimage is stored and while it is backed. -/
theorem payouts_agree {s : Config (machine D)} (hs : Reach anyMove s) :
    (∀ t t' id id' receiver receiver' hash invoice invoice' amount amount',
      (t, markEvent (.swapReceive id receiver hash invoice amount)) ∈ s.trace →
      (t', markEvent (.swapReceive id' receiver' hash invoice' amount')) ∈ s.trace →
      id = id' ∧ receiver = receiver' ∧ invoice = invoice' ∧ amount = amount') ∧
    (∀ r ∈ s.world.spark.requestedSwaps, ∀ r' ∈ s.world.spark.requestedSwaps,
      r.paymentHash = r'.paymentHash → r = r') ∧
    ∀ t th id receiver hash invoice amount, s.thread t = some th →
      th.prog.next = some (.mark (.swapReceive id receiver hash invoice amount)) →
      (s.world.db.receivePayment hash).preimage = none ∧
      PayoutBacked D s.world th.history hash amount := by
  have hagree : ∀ t t' id id' receiver receiver' hash invoice invoice' amount amount',
      (t, markEvent (.swapReceive id receiver hash invoice amount)) ∈ s.trace →
      (t', markEvent (.swapReceive id' receiver' hash invoice' amount')) ∈ s.trace →
      id = id' ∧ receiver = receiver' ∧ invoice = invoice' ∧ amount = amount' := by
    intro t t' id id' receiver receiver' hash invoice invoice' amount amount' h h'
    obtain ⟨⟨l, hl, hr, hi, ha⟩, ht, -⟩ := reach_payout hs h
    obtain ⟨⟨l', hl', hr', hi', ha'⟩, ht', -⟩ := reach_payout hs h'
    obtain rfl := Option.some.inj (hl.symm.trans hl')
    exact ⟨Except.ok.inj (ht.symm.trans ht'), hr.trans hr'.symm, hi.trans hi'.symm,
      ha.trans ha'.symm⟩
  refine ⟨hagree, fun r hr r' hr' heq => ?_, ?_⟩
  · obtain ⟨u, receiver, key, hm, hk, hp⟩ := reach_requested hs hr
    obtain ⟨u', receiver', key', hm', hk', hp'⟩ := reach_requested hs hr'
    -- one hash has one spelling among the receives
    obtain ⟨l, hl, -⟩ := (reach_payout hs hm).row
    obtain ⟨l', hl', -⟩ := (reach_payout hs hm').row
    have hkey : key = key' := by
      rw [← reach_key_text hs hl hk, ← reach_key_text hs hl' hk', heq]
    subst hkey
    obtain ⟨hid, hreceiver, hinvoice, hamount⟩ := hagree _ _ _ _ _ _ _ _ _ _ _ hm hm'
    obtain ⟨h1, h2, h3, h4, h5⟩ := r
    obtain ⟨h1', h2', h3', h4', h5'⟩ := r'
    simp only at heq hid hreceiver hinvoice hamount hp hp'
    subst heq hid hreceiver hinvoice hamount
    rw [Except.ok.inj (hp.symm.trans hp')]
  · intro t th id receiver hash invoice amount hth hnext
    obtain ⟨prog, hist⟩ := th
    rcases prog with u | ⟨c, k⟩
    · simp [Prog.next] at hnext
    obtain rfl := Option.some.inj hnext
    obtain ⟨r, hg⟩ : ∃ r, PayoutGround D hist id receiver hash invoice amount r :=
      reach_justified hs hth
    obtain ⟨hpre, htransfer⟩ := kept_payout hs hth hg.holds hg.row.read
    refine ⟨?_, ?_⟩
    · rcases hg.row.unpaid with h | h
      · rcases hp : (s.world.db.receivePayment hash).preimage with - | x
        · rfl
        · have hsome := (reach_payments hs hash).payout (Option.isSome_of_mem hp)
          rw [htransfer, h] at hsome
          exact absurd hsome (by simp)
      · rw [hpre, h]
    · have hback := hg.backed
      rw [hg.amount_eq] at hback ⊢
      exact hback.backs hs hth hg.holds hg.row

/-- Is program `t` about to pay out the receive? -/
def Sample.paysOut (t : Nat) (s : Config (machine .sample)) : Bool :=
  match s.next t with
  | some (.mark (.swapReceive _ _ key _ _)) => key == Sample.hash
  | _ => false

/-- The reply to the first payout is lost, and it is tried again. -/
def Sample.retriedPayout : Reach.Run anyMove fun s : Config (machine .sample) =>
    s.world.spark.requestedSwaps.length == 1 && Sample.paysOut 1 s :=
  .ofMoves (Sample.bindFirst ++ Sample.calls 1 [.done, .done, .done, .done, .htlcs [], .done, .done,
    .lost "timeout", .done, .flag false, .done]) (by decide +kernel)

/-- A payout that is tried again after its reply was lost. -/
theorem payouts_agree_retry : ∃ (s : Config (machine .sample)) (th : Thread Api) (id : Uuid)
    (receiver invoice : String) (amount : Nat),
    Reach anyMove s ∧ s.world.spark.requestedSwaps.length = 1 ∧ s.thread 1 = some th ∧
    th.prog.next = some (.mark (.swapReceive id receiver Sample.hash invoice amount)) ∧
    PayoutBacked .sample s.world th.history Sample.hash amount := by
  obtain ⟨s, hs, hp⟩ := Sample.retriedPayout
  simp only [Bool.and_eq_true, beq_iff_eq] at hp
  obtain ⟨hlen, hpays⟩ := hp
  unfold Sample.paysOut at hpays
  split at hpays
  · next id receiver key invoice amount hnext =>
      obtain rfl : key = Sample.hash := by simpa using hpays
      obtain ⟨th, hth, hnext⟩ := Option.bind_eq_some_iff.mp hnext
      exact ⟨s, th, id, receiver, invoice, amount, hs, hlen, hth, hnext,
        ((payouts_agree hs).2.2 1 th id receiver _ invoice amount hth hnext).2⟩
  · simp at hpays

/-! ### Claims -/

/-- What has to be true when the attempt `id` is claimed for the receive `hash`. -/
structure ClaimReady (db : Db) (hash id : String) (msat : Nat) (preimage : String) : Prop where
  fits : IsPreimage hash preimage
  amount : ∃ l, db.receives.get hash = some l ∧ checkedMul l.amountSats 1000 = some msat
  transfer : (db.receivePayment hash).transferId.isSome
  stored : ∃ x, (db.receivePayment hash).preimage = some x ∧ IsPreimage hash x
  bound : (db.receivePayment hash).paymentId = some id
  unreserved : db.internalSend hash = none

section claim

variable {s : Config (machine D)} {t : Nat} {th : Thread Api}

/-- What a claim is based on holds of the tables from then on. -/
theorem ClaimGround.ready (hs : Reach ok s) (hth : s.thread t = some th) {hash id preimage : String}
    {msat : Nat} {r : LightningReceive} (hg : ClaimGround th.history id msat preimage hash r) :
    ClaimReady s.world.db hash id msat preimage := by
  obtain ⟨l, hl, -, -, -, hamount, -⟩ := read_receive hs hth hg.read
  have hid : (s.world.db.receivePayment hash).paymentId = some id := by
    obtain ⟨s₀, db', -, hrun, hgrow⟩ := db_fact hs hth hg.bound
    exact hgrow.bound hash id (Db.markReceiveClaimable_row hrun).1
  -- the payout was stored before, or by this program
  have hpaid : (s.world.db.receivePayment hash).preimage.isSome := by
    rcases hg.stored with ⟨-, hpre⟩ | ⟨transferId, hm⟩
    · obtain ⟨s₀, db', -, hrun, hgrow⟩ := db_fact hs hth hg.read
      obtain ⟨ha, rfl⟩ := Prod.mk.inj (Except.ok.inj hrun)
      obtain ⟨l₀, -, rfl⟩ := Option.map_eq_some_iff.mp ha
      exact hgrow.preimage hash (Option.isSome_of_mem hpre)
    · obtain ⟨s₀, db', -, hrun, hgrow⟩ := db_fact hs hth hm
      obtain ⟨transfers, -, rfl⟩ := Db.commitLightningReceiveSwap_ok hrun
      refine hgrow.preimage hash (Db.stored_upsert_self (P := fun r => r.preimage.isSome) ?_ ?_)
      · rfl
      · exact fun _ => rfl
  have hok := reach_payments hs hash
  obtain ⟨x, hx⟩ := Option.isSome_iff_exists.mp hpaid
  refine ⟨isPreimage_of_validatePreimage hg.valid, ⟨l, hl, by rw [← hamount, hg.amount]⟩,
    hok.payout hpaid, ⟨x, hx, hok.preimage x hx⟩, hid, ?_⟩
  rcases hi : s.world.db.internalSend hash with - | payer
  · rfl
  · rw [internalSend_unbound hs hi] at hid
    exact absurd hid (by simp)

theorem ClaimReady.claim {id preimage : String} {msat : Nat} {h : History Api}
    {s₀ s₁ : Config (machine D)} {r : Except String Unit}
    (hm : Moment ok t ⟨.ldk (.claimForId id msat preimage), r⟩ h s₀ s₁)
    (hg : World.Grows s₁.world s.world) :
    ∃ hash, IsPreimage hash preimage ∧ (∃ x, hash = lowercase x) ∧
      (s.world.db.receivePayment hash).paymentId = some id := by
  obtain ⟨hash, row, hground⟩ : ∃ hash row, ClaimGround h id msat preimage hash row :=
    moment_justified hm
  obtain ⟨ch, k, hth, -, hp, -⟩ := hm.made
  have hready := hground.ready hm.reach hth
  obtain ⟨l, hl, -⟩ := hready.amount
  have hp : perform D t (.ldk (.claimForId id msat preimage)) ch s₀.world =
    some (r, s₁.world) := hp
  have hdb : s₁.world.db = s₀.world.db := perform_tables hp (by simp)
  refine ⟨hash, hready.fits, (reach_receives hm.reach hl).key, hg.db.bound hash id ?_⟩
  rw [hdb]
  exact hready.bound

end claim

/-- **Claims follow payouts.**  An attempt is claimed only when the receive it pays has its
transfer and a preimage that fits stored, for exactly the amount of the receive, while it is
the bound attempt and no local payer is there; and all claims ever made for one hash name
one attempt. -/
theorem claims_follow_payouts {s : Config (machine D)} (hs : Reach anyMove s) :
    (∀ t id msat preimage, s.next t = some (.ldk (.claimForId id msat preimage)) →
      ∃ hash, ClaimReady s.world.db hash id msat preimage) ∧
    ∀ t t' id id' msat msat' preimage preimage' r r' (p p' : Bytes32),
      (t, (⟨.ldk (.claimForId id msat preimage), r⟩ : Event Api)) ∈ s.trace →
      (t', (⟨.ldk (.claimForId id' msat' preimage'), r'⟩ : Event Api)) ∈ s.trace →
      Bytes32.parse preimage = some p → Bytes32.parse preimage' = some p' →
      p.computeHash = p'.computeHash → id = id' := by
  refine ⟨fun t id msat preimage hnext => ?_, ?_⟩
  · obtain ⟨⟨prog, hist⟩, hth, hc⟩ := Option.bind_eq_some_iff.mp hnext
    rcases prog with u | ⟨c, k⟩
    · simp [Prog.next] at hc
    obtain rfl := Option.some.inj hc
    obtain ⟨hash, r, hg⟩ : ∃ hash r, ClaimGround hist id msat preimage hash r :=
      reach_justified hs hth
    exact ⟨hash, hg.ready hs hth⟩
  · intro t t' id id' msat msat' preimage preimage' r r' p p' h h' hp hp' heq
    obtain ⟨hist, s₀, s₁, hm, hg⟩ := reach_happened hs h
    obtain ⟨hist', s₀', s₁', hm', hg'⟩ := reach_happened hs h'
    obtain ⟨hash, ⟨q, hq, hqh⟩, ⟨x, rfl⟩, hid⟩ := ClaimReady.claim hm hg
    obtain ⟨hash', ⟨q', hq', hqh'⟩, ⟨x', rfl⟩, hid'⟩ := ClaimReady.claim hm' hg'
    obtain rfl := Option.some.inj (hp.symm.trans hq)
    obtain rfl := Option.some.inj (hp'.symm.trans hq')
    rw [lowercase_lowercase] at hqh hqh'
    rw [← hqh, heq, hqh', hid'] at hid
    exact (Option.some.inj hid).symm

/-- Is program `t` about to claim an attempt? -/
def Sample.claims (t : Nat) (s : Config (machine .sample)) : Bool :=
  match s.next t with
  | some (.ldk (.claimForId ..)) => true
  | _ => false

def Sample.paidFirst : Reach.Run anyMove (Sample.claims 1) := .ofMoves Sample.payFirst (by decide +kernel)

/-- The first attempt is claimed after its payout. -/
theorem claims_follow_payouts_first : ∃ (s : Config (machine .sample)) (id : String) (msat : Nat)
    (preimage hash : String), Reach anyMove s ∧
    s.next 1 = some (.ldk (.claimForId id msat preimage)) ∧
    ClaimReady s.world.db hash id msat preimage := by
  obtain ⟨s, hs, hp⟩ := Sample.paidFirst
  unfold Sample.claims at hp
  split at hp
  · next id msat preimage hnext =>
      obtain ⟨hash, hready⟩ := (claims_follow_payouts hs).1 1 id msat preimage hnext
      exact ⟨s, id, msat, preimage, hash, hs, hnext, hready⟩
  · simp at hp

end OpenSsp
