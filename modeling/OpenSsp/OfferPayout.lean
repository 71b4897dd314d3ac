/-
OpenSsp/OfferPayout.lean

Paying out a BOLT12 receive, which can be paid by its payers any number of times.  The
first payment hash bound to the offer stays (`settled_later`), so every payout asks for
the transfer that hash leads to.  It leads to one transfer as long as no BOLT11 receive
with a quote uses the same hash: the quote is looked up by the hash alone.

Main result: `offer_paid_once`, in runs of single-quote moves all transfers requested for an
offer are one transfer.
-/
import OpenSsp.ReceiveCompletion

namespace OpenSsp

open Interleave

variable {D : Deployment} {ok : Config (machine D) → Move (machine D) → Prop}

/-! ### The hash bound to an offer -/

namespace Db

variable {db db' : Db}

def settledHash (db : Db) (offerId : String) : Option String :=
  (db.receives.get offerId).bind (·.settledPaymentHash)

/-- How one method can change the hash bound to the offer `k`. -/
inductive SettledStep (q : Query) (k : String) (o o' : Option String) : Prop
  | none (same : o' = o)
  | bound (hash : String) (hq : q = .bindBolt12Receive k hash)
      (free : o = Option.none ∨ o = some hash) (ho : o' = some hash)
  | committed (hash transferId requestId owner : String)
      (hq : q = .commitBolt12Receive k hash transferId requestId owner) (ho : o' = some hash)

/-- The offer is bound to the hash when the method succeeds. -/
theorem bindBolt12Receive_settles {offerId hash : String} {u : Unit}
    (h : db.bindBolt12Receive offerId hash = .ok (u, db')) :
    (db.settledHash offerId = none ∨ db.settledHash offerId = some hash) ∧
      db'.settledHash offerId = some hash := by
  simp only [bindBolt12Receive] at h
  split at h
  · next hcount =>
      obtain ⟨-, rfl⟩ := Prod.mk.inj (Except.ok.inj h)
      obtain ⟨r, hr, hp⟩ := Table.count_pos (by rw [hcount]; exact Nat.one_pos)
      have hget := Table.mem_iff_get.mp hr
      simp only [Bool.and_eq_true, Bool.or_eq_true, beq_iff_eq] at hp
      obtain ⟨rfl, hfree⟩ := hp
      rw [settledHash, settledHash, Table.get_update, hget]
      refine ⟨hfree, ?_⟩
      rcases hfree with hf | hf
      · simp [hf]
      · simp [hf]
  · simp at h

theorem settled_step {q : Query} {now : Nat} {a : q.Out} (h : q.run now db = .ok (a, db'))
    (k : String) : SettledStep q k (db.settledHash k) (db'.settledHash k) := by
  by_cases hk : q.receiveKey = some k
  swap
  · exact .none (by rw [settledHash, settledHash, (Prod.mk.inj (run_receiveRows h hk)).1])
  by_cases hw : .receives ∉ q.writes
  · exact .none (by rw [settledHash, settledHash, (run_frame h).receives hw])
  cases q with
  | insertRequest id owner created payload =>
      obtain ⟨requests, -, ⟨-, rfl⟩ | ⟨p, qu, rc, rfl, -, hins, rfl⟩⟩ := insertRequest_ok h
      · exact .none rfl
      · obtain rfl : p.paymentHash = k := Option.some.inj hk
        -- the insert went through, so no row was there and the new one is unsettled
        have hfree : db.receives.get p.paymentHash = none := (Table.insert_eq_some hins).1
        have hget : rc.get p.paymentHash = some (receiveRow id owner created p) := by
          rw [Table.get_insert hins]
          exact if_pos rfl
        exact .none (by rw [settledHash, settledHash, hfree, hget]; rfl)
  | bindBolt12Receive offerId hash =>
      obtain rfl : offerId = k := Option.some.inj hk
      obtain ⟨hfree, hset⟩ := bindBolt12Receive_settles h
      exact .bound hash rfl hfree hset
  | commitBolt12Receive offerId paymentHash transferId requestId owner =>
      obtain rfl : offerId = k := Option.some.inj hk
      obtain ⟨-, rfl⟩ := Prod.mk.inj (Except.ok.inj h)
      rw [settledHash, settledHash, Table.get_update]
      rcases hg : db.receives.get offerId with - | l
      · exact .none rfl
      · -- the row is written only when its request and owner are those of the payout
        simp only [Option.map_some, Option.bind_some]
        split
        · exact .committed paymentHash transferId requestId owner rfl rfl
        · exact .none rfl
  | _ => simp [Query.writes] at hw

end Db

section settled

variable {s s' : Config (machine D)} {t : Nat} {th : Thread Api}

/-- A program knows the hash of every offer it has bound. -/
def BoundOffers (h : History Api) (w : World) : Prop :=
  ∀ offerId hash, dbEvent (.bindBolt12Receive offerId hash) () ∈ h →
    w.db.settledHash offerId = some hash

/-- A call keeps every hash that is bound. -/
theorem settled_kept (hs : Reach ok s) {c : Call} {k : Api.Reply c → Prog Api Unit}
    {hist : History Api} (hth : s.thread t = some ⟨.call c k, hist⟩) {ch : Choice} {r : c.Reply}
    {w : World} (hp : perform D t c ch s.world = some (r, w)) (hmine : BoundOffers hist s.world)
    {offerId hash : String} (h : s.world.db.settledHash offerId = some hash) :
    w.db.settledHash offerId = some hash := by
  by_cases hc : ∃ q, c = .db q
  swap
  · rw [perform_tables hp fun q hq => hc ⟨q, hq⟩, h]
  obtain ⟨q, rfl⟩ := hc
  rcases perform_db hp with ⟨a, db', hrun, -, rfl⟩ | ⟨e, -, rfl⟩
  swap
  · exact h
  show db'.settledHash offerId = some hash
  cases Db.settled_step hrun offerId with
  | none same => rw [same, h]
  | bound hash' hq free ho =>
      rcases free with hf | hf
      · rw [h] at hf
        exact absurd hf (by simp)
      · rw [ho, ← hf, h]
  | committed hash' transferId requestId owner hq ho =>
      subst hq
      obtain ⟨row, hg, -⟩ := reach_justified hs hth
      rw [ho, ← hmine offerId hash' hg.bound, h]

theorem reach_bound_offers (hs : Reach ok s) (hth : s.thread t = some th) :
    BoundOffers th.history s.world := by
  refine hs.threads_know (φ := fun _ h w => BoundOffers h w) ?_ ?_ ?_ ?_ ?_ t th hth
  · intro t w offerId hash h
    simp at h
  · intro s t ch c k hist r w hr hth _ hp ih offerId hash he
    have hp : perform D t c ch s.world = some (r, w) := hp
    rcases List.mem_cons.mp he with he | he
    · -- the newest event binds the offer
      injection he with hc hrep
      subst hc
      rcases perform_db hp with ⟨a, db', hrun, -, rfl⟩ | ⟨e, rfl, -⟩
      · exact (Db.bindBolt12Receive_settles hrun).2
      · exact absurd (eq_of_heq hrep) (by simp)
    · exact settled_kept hr hth hp ih (ih offerId hash he)
  · intro s u th t ch c k hist r w hr hu _ hth _ hp ih offerId hash he
    exact settled_kept hr hth hp (ih t _ hth) (ih u th hu offerId hash he)
  · intro s u th t _ _ _ ih
    exact ih
  · intro s u th o w _ _ ho ih offerId hash he
    have hdb : w.db = s.world.db := (outside_tables ho).1
    rw [hdb]
    exact ih offerId hash he

/-- The first hash bound to an offer stays. -/
theorem settled_later (hs : Reach ok s) (hl : Later ok s s') {offerId hash : String}
    (h : s.world.db.settledHash offerId = some hash) :
    s'.world.db.settledHash offerId = some hash := by
  refine hs.preserved hl (J := fun s : Config (machine D) => s.world.db.settledHash offerId = some hash) ?_ h
  intro a b m ha _ hst h
  rcases Config.step_cases hst with ⟨r, -, rfl⟩ | ⟨t, ch, c, k, hist, r, w, -, hth, hp, rfl⟩ |
    ⟨t, th, -, -, rfl⟩ | ⟨-, rfl⟩ | ⟨o, w, -, ho, rfl⟩
  · exact h
  · exact settled_kept ha hth hp (reach_bound_offers ha hth) h
  · exact h
  · exact h
  · show w.db.settledHash offerId = some hash
    rw [(outside_tables ho).1, h]

theorem grows_later (hs : Reach ok s) (hl : Later ok s s') :
    World.Grows s.world s'.world := by
  refine hs.preserved hl (J := fun s' : Config (machine D) => World.Grows s.world s'.world) ?_
    (World.Grows.refl s.world)
  intro a b m ha _ hst h
  exact World.Grows.trans _ _ _ h (reach_grows ha hst)

end settled

/-! ### One transfer -/

/-- No BOLT11 receive with a quote uses the hash of a payment that is bound to an offer. -/
def singleQuoteMove (s : Config (machine D)) : Move (machine D) → Bool
  | .run t _ => match s.next t with
      | some (.db (.insertRequest _ _ _ (.lightningReceive p))) => p.quoteTransferId == none ||
          !s.world.db.receives.rows.any (·.settledPaymentHash == some p.paymentHash)
      | some (.db (.bindBolt12Receive _ hash)) => s.world.db.quoteForHash hash == none
      | _ => true
  | _ => true

def singleQuote (s : Config (machine D)) (m : Move (machine D)) : Prop :=
  singleQuoteMove s m = true

theorem reach_unquoted {s : Config (machine D)} (hs : Reach singleQuote s) {offerId hash : String}
    (h : s.world.db.settledHash offerId = some hash) : s.world.db.quoteForHash hash = none := by
  refine reach_tables_allowed (J := fun w => ∀ offerId hash,
    w.db.settledHash offerId = some hash → w.db.quoteForHash hash = none) ?_ ?_ ?_ hs offerId hash h
  · intro offerId hash h
    simp [World.init, Db.empty, Db.settledHash] at h
  · intro w w' hdb _ ih offerId hash h
    rw [hdb] at h ⊢
    exact ih offerId hash h
  · intro s t ch q cont hist a db' hr hth hok hrun _ ih offerId hash h
    show db'.quoteForHash hash = none
    -- a hash that was bound before has no quote, and gets none
    have hold : s.world.db.settledHash offerId = some hash → db'.quoteForHash hash = none := by
      intro hset
      have hnone := ih offerId hash hset
      rcases Db.receives_step hrun with ⟨hq, -⟩ | ⟨id, owner, created, p, rfl, -, hq⟩
      · rw [Db.quoteForHash, hq]
        exact hnone
      · rcases hq with ⟨-, hq⟩ | ⟨quoteId, hquote, hins⟩
        · rw [Db.quoteForHash, hq]
          exact hnone
        · obtain ⟨l, hl, hl'⟩ := Option.bind_eq_some_iff.mp hset
          have hc : ∀ l ∈ s.world.db.receives.rows,
              l.settledPaymentHash ≠ some p.paymentHash := by
            simpa [singleQuote, singleQuoteMove, Config.next, hth, Prog.next, hquote] using hok
          have hne : ¬ p.paymentHash = hash := fun e => hc l (Table.mem_of_get hl) (e ▸ hl')
          rw [Db.quoteForHash, Table.get_insert hins, if_neg hne]
          exact hnone
    cases Db.settled_step hrun offerId with
    | none same => exact hold (same.symm.trans h)
    | bound hash' hq free ho =>
        subst hq
        obtain rfl : hash' = hash := Option.some.inj (ho.symm.trans h)
        have hc : s.world.db.quoteForHash hash' = none := by
          simpa [singleQuote, singleQuoteMove, Config.next, hth, Prog.next] using hok
        rw [Db.quoteForHash, (Db.run_frame hrun).quoteUses (by simp [Query.writes])]
        exact hc
    | committed hash' transferId requestId owner hq ho =>
        subst hq
        obtain ⟨row, hg, -⟩ := reach_justified hr hth
        have hset := reach_bound_offers hr hth offerId hash' hg.bound
        exact hold (hset.trans (ho.symm.trans h))

/-- What has to be true when a transfer is requested for an offer. -/
structure OfferTransfer (D : Deployment) (db : Db) (h : History Api) (offerId hash : String)
    (amount : Nat) (receiver : PublicKey) (id : Uuid) : Prop where
  bound : db.settledHash offerId = some hash
  id_eq : paymentTransferId hash = .ok id
  row : ∃ l, db.receives.get offerId = some l ∧ D.parsePublicKey l.receiver = .ok receiver ∧
    amount = l.amountSats ∧
    ∃ preimage msat, ReportedOffer h offerId hash (some preimage) (some msat) ∧
      IsPreimage hash preimage ∧ l.amountSats * 1000 ≤ msat

theorem offerTransfer {s : Config (machine D)} (hs : Reach singleQuote s) {t : Nat}
    {th : Thread Api} (hth : s.thread t = some th) {offerId hash : String}
    (hwork : payingOffer th.history = some (offerId, hash)) {amount : Nat} {receiver : PublicKey}
    {id : Uuid} (hnext : th.prog.next = some (.spark (.transfer amount receiver id))) :
    OfferTransfer D s.world.db th.history offerId hash amount receiver id := by
  obtain ⟨prog, hist⟩ := th
  rcases prog with u | ⟨c, k⟩
  · simp [Prog.next] at hnext
  obtain rfl := Option.some.inj hnext
  have hg : TransferGround D hist amount receiver id := reach_justified hs hth
  cases hg with
  | refund owner outbound mark =>
      -- a refund is another piece of work
      rw [payingOffer, mark.currentWork rfl] at hwork
      simp at hwork
  | receive offer' hash' r quote ground key amount_eq quoted hid =>
      rw [payingOffer, ground.paid.work.currentWork rfl] at hwork
      obtain ⟨rfl, rfl⟩ := Prod.mk.inj (Option.some.inj hwork)
      obtain ⟨newer, older, rfl, hbind⟩ := quoted
      -- when the quote was read the offer was bound
      obtain ⟨s₀, s₁, hm, -⟩ := reach_knows hs hth rfl
      obtain ⟨db', hrun, -⟩ := moment_db hm
      obtain ⟨hquote, -⟩ := Prod.mk.inj (Except.ok.inj hrun)
      obtain ⟨ch, k', hth₀, -⟩ := hm.made
      have hnone := reach_unquoted hm.reach (reach_bound_offers hm.reach hth₀ _ _ hbind)
      rw [hnone] at hquote
      subst hquote
      obtain ⟨l, hl, -, -, hreceiver, hamount, -⟩ := read_receive hs hth ground.paid.read
      obtain ⟨preimage, msat, expected, hrep, hvalid, hmul, hle⟩ := ground.paid.paid
      refine ⟨reach_bound_offers hs hth _ _ ground.bound, hid, l, hl, hreceiver ▸ key,
        amount_eq.trans hamount, preimage, msat, hrep, isPreimage_of_validatePreimage hvalid, ?_⟩
      rw [← hamount, ← (checkedMul_eq_some hmul).1]
      exact hle

/-- **An offer is paid out once.**  Any two transfers requested for it in a run, by whatever
programs, are one transfer: the one of the payment hash bound to the offer, to its receiver,
for its amount, after a payment of at least that amount was reported with a preimage. -/
theorem offer_paid_once {s s' : Config (machine D)} (hs : Reach singleQuote s)
    (hl : Later singleQuote s s') {t t' : Nat} {th th' : Thread Api}
    (hth : s.thread t = some th) (hth' : s'.thread t' = some th') {offerId hash hash' : String}
    (hwork : payingOffer th.history = some (offerId, hash))
    (hwork' : payingOffer th'.history = some (offerId, hash')) {amount amount' : Nat}
    {receiver receiver' : PublicKey} {id id' : Uuid}
    (hnext : th.prog.next = some (.spark (.transfer amount receiver id)))
    (hnext' : th'.prog.next = some (.spark (.transfer amount' receiver' id'))) :
    (id = id' ∧ hash = hash' ∧ receiver = receiver' ∧ amount = amount') ∧
      OfferTransfer D s'.world.db th'.history offerId hash' amount' receiver' id' := by
  have h := offerTransfer hs hth hwork hnext
  have h' := offerTransfer (hs.later hl) hth' hwork' hnext'
  refine ⟨?_, h'⟩
  have hset := settled_later hs hl h.bound
  obtain rfl := Option.some.inj (hset.symm.trans h'.bound)
  obtain ⟨l, hl₁, hkey, hamount, -⟩ := h.row
  obtain ⟨l', hl₂, hkey', hamount', -⟩ := h'.row
  obtain ⟨l₁, hl₁', hsame, -⟩ := (grows_later hs hl).db.receives offerId l hl₁
  obtain rfl := Option.some.inj (hl₂.symm.trans hl₁')
  rw [hsame.receiver] at hkey'
  rw [hsame.amountSats] at hamount'
  exact ⟨Except.ok.inj (h.id_eq.symm.trans h'.id_eq), rfl,
    Except.ok.inj (hkey.symm.trans hkey'), hamount.trans hamount'.symm⟩

namespace Sample

/-- A BOLT11 receive for the same hash, with a quote. -/
def quotedReceive (t : Nat) : List (Move (machine .sample)) :=
  .spawn (.lightningReceive "bob" ⟨1, "", hash, "", "", none, some "quote"⟩) ::
  calls t [.done, .done, .quote (some (uuid 9).print), .text ("lnssp" ++ hash), .flag false,
    .flag false, .uuid (uuid 2), .done, .done]

/-- The offer a program is paying out, and the transfer it is about to request. -/
def offerTransfer (t : Nat) (s : Config (machine .sample)) : Option (String × String × Uuid) :=
  match s.thread t with
  | none => none
  | some th => match payingOffer th.history, th.prog.next with
    | some (offerId, hash), some (.spark (.transfer 1 receiver id)) =>
        if receiver = ⟨"alice"⟩ then some (offerId, hash, id) else none
    | _, _ => none

theorem of_offerTransfer {t : Nat} {s : Config (machine .sample)} {offerId hash : String}
    {id : Uuid} (h : offerTransfer t s = some (offerId, hash, id)) :
    ∃ th, s.thread t = some th ∧ payingOffer th.history = some (offerId, hash) ∧
      th.prog.next = some (.spark (.transfer 1 ⟨"alice"⟩ id)) := by
  unfold offerTransfer at h
  split at h
  · simp at h
  · next th hth =>
      split at h
      · next o' h' receiver id' hwork hnext =>
          split at h
          · next hr =>
              obtain ⟨rfl, he⟩ := Prod.mk.inj (Option.some.inj h)
              obtain ⟨rfl, rfl⟩ := Prod.mk.inj he
              exact ⟨th, hth, hwork, hr ▸ hnext⟩
          · simp at h
      · simp at h

/-- Is program `t` about to request a transfer for the offer? -/
def paysOffer (t : Nat) (s : Config (machine .sample)) : Bool :=
  (offerTransfer t s).any fun x => x.1 == "off" && x.2.1 == hash

theorem of_paysOffer {t : Nat} {s : Config (machine .sample)} (h : paysOffer t s = true) :
    ∃ id, offerTransfer t s = some ("off", hash, id) := by
  obtain ⟨⟨o, h', id⟩, hid, he⟩ := Option.any_eq_true _ _ |>.mp h
  simp only [Bool.and_eq_true, beq_iff_eq] at he
  obtain ⟨rfl, rfl⟩ := he
  exact ⟨id, hid⟩

/-- The process crashes at the transfer, and the node reports the payment again. -/
def paidAgain : Reach.LongRun singleQuote (paysOffer 1) (paysOffer 2) :=
  .of singleQuoteMove (fun _ _ h => h) (createOffer ++ payOffer 1) (.crash :: payOffer 2)
    (by decide +kernel)

/-- Before it does, a receive with a quote is created for the hash of the payment. -/
def paidTwice : Reach.LongRun (M := machine .sample) anyMove
    (fun s => (offerTransfer 1 s).any fun x => x.1 == "off" && x.2.1 == hash && x.2.2 != uuid 9)
    (fun s => offerTransfer 3 s == some ("off", hash, uuid 9)) :=
  .of (fun _ _ => true) (fun _ _ _ => trivial) (createOffer ++ payOffer 1)
    (.crash :: quotedReceive 2 ++ payOffer 3) (by decide +kernel)

end Sample

/-- The process crashes at the transfer, and the node reports the payment again. -/
theorem offer_paid_once_again : ∃ (s s' : Config (machine .sample)) (id id' : Uuid),
    Reach singleQuote s ∧ Later singleQuote s s' ∧
    Sample.offerTransfer 1 s = some ("off", Sample.hash, id) ∧
    Sample.offerTransfer 2 s' = some ("off", Sample.hash, id') ∧ id = id' := by
  obtain ⟨s, s', hs, hl, hp, hp'⟩ := Sample.paidAgain
  obtain ⟨id, hid⟩ := Sample.of_paysOffer hp
  obtain ⟨id', hid'⟩ := Sample.of_paysOffer hp'
  obtain ⟨th, hth, hwork, hnext⟩ := Sample.of_offerTransfer hid
  obtain ⟨th', hth', hwork', hnext'⟩ := Sample.of_offerTransfer hid'
  exact ⟨s, s', id, id', hs, hl, hid, hid',
    (offer_paid_once hs hl hth hth' hwork hwork' hnext hnext').1.1⟩

/-- A quote for the same hash leads the second payout to another transfer. -/
theorem offer_paid_twice : ∃ (s s' : Config (machine .sample)) (id id' : Uuid),
    Reach anyMove s ∧ Later anyMove s s' ∧
    Sample.offerTransfer 1 s = some ("off", Sample.hash, id) ∧
    Sample.offerTransfer 3 s' = some ("off", Sample.hash, id') ∧ id ≠ id' := by
  obtain ⟨s, s', hs, hl, hp, hp'⟩ := Sample.paidTwice
  obtain ⟨⟨o, h, id⟩, hid, he⟩ := Option.any_eq_true _ _ |>.mp hp
  simp only [Bool.and_eq_true, beq_iff_eq, bne_iff_ne, ne_eq] at he
  obtain ⟨⟨rfl, rfl⟩, hne⟩ := he
  exact ⟨s, s', id, Sample.uuid 9, hs, hl, hid, beq_iff_eq.mp hp', hne⟩

end OpenSsp
