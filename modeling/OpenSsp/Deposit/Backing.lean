/-
OpenSsp/Deposit/Backing.lean

Which output of the Bitcoin chain backs a claim.

A fixed claim is backed by the output that its recovery spends, and so is an instant claim once its
plan is frozen.  Two claims can be after the same output: an instant claim looks for a replacement
by script and amount, a fixed claim takes an output by its name, and a claim whose recovery is done
reserves nothing any more.  They are kept apart by the constraints on the tables while both are
open, and by the node afterwards, as long as it does not report the output of a recovered claim
unspent again (`KeepsSpent`).  It does not when it reports no output unspent after it has taken a
transaction that spends it (`Honest`).

What ties the two together is the deposits lock.  A program that has just seen an output unspent
holds it, so that no claim is entered for that output and no recovery of it is finished before the
program has written its own claim (`ahead`, `clear`).

Main results: `fixed_claims`, `instant_claims`, `backs_unique` and `one_claim_per_output`.
-/
import OpenSsp.Deposit.Exposure
import OpenSsp.Deposit.Node
import OpenSsp.Deposit.Signing

namespace OpenSsp.Deposit

open Interleave Bitcoin

variable {L : Library} {C : Service L} {ok : Config (machine C) → Move (machine C) → Prop}
variable {s s' : Config (machine C)} {m : Move (machine C)}

/-! ### The node -/

/-- The script, as the node writes it, and the amount of every output there is. -/
structure Outputs where
  script : OutPoint → String
  value : OutPoint → Nat

/-- The name of an output in a call to the node. -/
def Names (C : Service L) (txid : String) (vout : Nat) (point : OutPoint) : Prop :=
  C.parseTxid txid = some point.txid ∧ vout = point.vout.toNat

/-- The event reports this script and this amount of the output. -/
inductive Reports (C : Service L) (point : OutPoint) :
    Event (Api L) → Option String → Except String Nat → Prop
  | coin (txid : String) (vout : Nat) (coin : Coin) (hname : Names C txid vout point) :
      Reports C point ⟨.getTxOut txid vout, .ok (some coin)⟩ coin.script coin.value
  | block (hash : String) (txs : List BlockTx) (tx : BlockTx) (outputs : List BlockOutput)
      (output : BlockOutput) (txid : String) (vout : Nat) (htx : tx ∈ txs)
      (houtputs : tx.vout = some outputs) (hmem : output ∈ outputs) (htxid : tx.txid = some txid)
      (hn : output.n = some vout) (hname : Names C txid vout point) :
      Reports C point ⟨.getBlock hash, .ok (some txs)⟩ output.script output.value

/-- The event reports the output unspent. -/
inductive ReportsUnspent (C : Service L) (point : OutPoint) : Event (Api L) → Prop
  | coin (txid : String) (vout : Nat) (coin : Coin) (hname : Names C txid vout point) :
      ReportsUnspent C point ⟨.getTxOut txid vout, .ok (some coin)⟩

/-- The event shows that the node has taken a transaction that spends the output. -/
inductive ReportsSpent (L : Library) (point : OutPoint) : Event (Api L) → Prop
  | sent (claim : ClaimRef) (raw : L.Raw) (points : List OutPoint)
      (hraw : inputsOf raw = some points) (hmem : point ∈ points) :
      ReportsSpent L point ⟨.sendRecovery claim raw, .ok ()⟩
  | confirmed (claim : ClaimRef) (tx : Bitcoin.Transaction) (n : Int) (hn : 0 < n)
      (hmem : point ∈ tx.input.map (·.previousOutput)) :
      ReportsSpent L point ⟨.getTransaction claim (L.computeTxid tx), .ok (some n)⟩

/-- What the service relies on of the node: an output never changes, and is not unspent again after
a transaction that spends it was accepted or shown confirmed. -/
structure Honest (C : Service L) (O : Outputs) (trace : List (Nat × Event (Api L))) : Prop where
  same : ∀ x ∈ trace, ∀ point script value, Reports C point x.2 script value →
    (∀ text, script = some text → text = O.script point) ∧
      ∀ sats, value = .ok sats → sats = O.value point
  index : ∀ x ∈ trace, ∀ txid vout coin,
    x.2 = (⟨.getTxOut txid vout, .ok (some coin)⟩ : Event (Api L)) → vout < 2 ^ 32
  spent : trace.Pairwise fun later earlier =>
    ∀ point, ReportsSpent L point earlier.2 → ¬ ReportsUnspent C point later.2

/-- What an output is never changes, and its index fits 32 bits. -/
structure Constant (C : Service L) (O : Outputs) (trace : List (Nat × Event (Api L))) : Prop where
  same : ∀ x ∈ trace, ∀ point script value, Reports C point x.2 script value →
    (∀ text, script = some text → text = O.script point) ∧
      ∀ sats, value = .ok sats → sats = O.value point
  index : ∀ x ∈ trace, ∀ txid vout coin,
    x.2 = (⟨.getTxOut txid vout, .ok (some coin)⟩ : Event (Api L)) → vout < 2 ^ 32

/-- What the service relies on of the texts of ids and scripts. -/
structure Service.Texts (C : Service L) : Prop where
  txid : ∀ id, C.parseTxid (C.printTxid id) = some id
  script : ∀ script, C.scriptFromHex (hexEncode script) = .ok script

/-- The output that a plan spends. -/
theorem StaticPlan.spends_unique {plan : StaticPlan L} {point point' : OutPoint}
    (h : plan.spends = some [point]) (h' : plan.spends = some [point']) : point = point' :=
  List.singleton_inj.mp (Option.some.inj (h.symm.trans h'))

/-- The output has been spent, as far as the run shows. -/
def SpentIn (trace : List (Nat × Event (Api L))) (point : OutPoint) : Prop :=
  ∃ x ∈ trace, ReportsSpent L point x.2

variable {O : Outputs} {point : OutPoint} {trace : List (Nat × Event (Api L))}
variable {x : Nat × Event (Api L)}

/-- The laws of the nodes are about every event of the trace, so a shorter trace obeys them too. -/
theorem Honest.tail (h : Honest C O (x :: trace)) : Honest C O trace where
  same y hy := h.same y (List.mem_cons_of_mem _ hy)
  index y hy := h.index y (List.mem_cons_of_mem _ hy)
  spent := (List.pairwise_cons.mp h.spent).2

/-- An honest node reports an output the same way each time. -/
theorem Honest.constant (h : Honest C O trace) : Constant C O trace := ⟨h.same, h.index⟩

/-- This is about every event of the trace, too. -/
theorem Constant.tail (h : Constant C O (x :: trace)) : Constant C O trace where
  same y hy := h.same y (List.mem_cons_of_mem _ hy)
  index y hy := h.index y (List.mem_cons_of_mem _ hy)

/-- What was spent is not reported unspent. -/
theorem Honest.unspent (h : Honest C O (x :: trace)) (hx : ReportsUnspent C point x.2) :
    ¬ SpentIn trace point := by
  rintro ⟨y, hy, hspent⟩
  exact (List.pairwise_cons.mp h.spent).1 y hy point hspent hx

/-- A spend once seen stays seen. -/
theorem SpentIn.cons (h : SpentIn trace point) : SpentIn (x :: trace) point := by
  obtain ⟨y, hy, hspent⟩ := h
  exact ⟨y, List.mem_cons_of_mem _ hy, hspent⟩

/-- The name of an output that the node has reported. -/
theorem Constant.names (h : Constant C O trace) {t : Nat} {txid : String} {vout : Nat} {coin : Coin}
    (hmem : (t, (⟨.getTxOut txid vout, .ok (some coin)⟩ : Event (Api L))) ∈ trace)
    (htxid : C.parseTxid txid = some point.txid) (hvout : UInt32.ofNat vout = point.vout) :
    Names C txid vout point := by
  refine ⟨htxid, ?_⟩
  rw [← hvout, UInt32.toNat_ofNat_of_lt' (h.index _ hmem txid vout coin rfl)]

/-! ### Quotes -/

/-- The output has the script and the amount that the quote says. -/
structure Pays (C : Service L) (O : Outputs) (q : DepositQuote) (point : OutPoint) : Prop where
  script : C.scriptFromHex (O.script point) = .ok q.prevOutput.scriptPubkey
  address : C.addressFromScript (bitcoinNetwork C) q.prevOutput.scriptPubkey = .ok q.address
  value : q.credit + q.fee = O.value point

/-- The quote is for this output. -/
structure Quoted (C : Service L) (O : Outputs) (q : DepositQuote) (point : OutPoint) : Prop
    extends Pays C O q point where
  txid : q.txid = C.printTxid point.txid
  vout : q.vout = point.vout

variable {q q' : DepositQuote}

/-- Two quotes that one output can pay have the same address and the same amount. -/
theorem Pays.same (h : Pays C O q point) (h' : Pays C O q' point) :
    q.address = q'.address ∧ q.credit + q.fee = q'.credit + q'.fee := by
  refine ⟨?_, h.value.trans h'.value.symm⟩
  have hscript := Except.ok.inj (h.script.symm.trans h'.script)
  have haddress := h.address
  rw [hscript, h'.address] at haddress
  exact (Except.ok.inj haddress).symm

/-- The txid of a true quote parses to the output's. -/
theorem Quoted.parse (hC : C.Texts) (h : Quoted C O q point) :
    C.parseTxid q.txid = some point.txid := by
  rw [h.txid]
  exact hC.txid _

/-- A quote has one output. -/
theorem Quoted.unique (hC : C.Texts) {point' : OutPoint} (h : Quoted C O q point)
    (htxid : C.parseTxid q.txid = some point'.txid) (hvout : q.vout = point'.vout) :
    point = point' := by
  obtain ⟨id, vout⟩ := point
  obtain ⟨id', vout'⟩ := point'
  obtain rfl : id = id' := Option.some.inj ((h.parse hC).symm.trans htxid)
  obtain rfl : vout = vout' := h.vout.symm.trans hvout
  rfl

/-- What a program has seen of the output that it quotes is true. -/
theorem Described.quoted (hC : C.Texts) (hn : Constant C O trace) {t : Nat} {h : History (Api L)}
    (hmem : ∀ e ∈ h, (t, e) ∈ trace) (hd : Described C q h) : ∃ point, Quoted C O q point := by
  obtain ⟨id, hid⟩ := hd.txid
  obtain ⟨coin, text, hcoin, htext, hscript, hvalue⟩ := hd.coin
  have hname : Names C q.txid q.vout.toNat ⟨id, q.vout⟩ := by
    refine ⟨?_, rfl⟩
    rw [hid]
    exact hC.txid id
  obtain ⟨hsame, hsats⟩ := hn.same _ (hmem _ hcoin) _ _ _ (.coin _ _ coin hname)
  obtain rfl := hsame text htext
  exact ⟨⟨id, q.vout⟩, ⟨hscript, hd.address, hsats _ hvalue⟩, hid, rfl⟩

/-! ### What a query writes -/

/-- The row without the text of an error. -/
def DepositRow.bare (row : DepositRow L) : DepositRow L := { row with lastError := none }

/-- The row of a claim without an error. -/
def DepositRow.of (r : DepositClaim L) : DepositRow L where
  id := r.id
  txid := r.quote.txid
  vout := r.quote.vout
  owner := r.quote.owner
  status := r.status
  data := r
  lastError := none

/-- What a query writes of quotes and of fixed claims. -/
structure Framed (q : Query L) (db db' : Db L) : Prop where
  quotes : ∀ x ∈ db'.quotes.rows, x ∈ db.quotes.rows ∨ q = .saveQuote x
  instantQuotes : ∀ x ∈ db'.instantQuotes.rows, x ∈ db.instantQuotes.rows ∨ q = .saveInstantQuote x
  claims : ∀ row' ∈ db'.claims.val, (∃ row ∈ db.claims.val, row'.bare = row.bare) ∨
    (∃ r, q = .insertClaim r ∧ row' = .of r) ∨
    ∃ r, q = .saveClaim r ∧ ∃ row ∈ db.claims.val, row.id = r.id ∧ row' = row.save r

namespace Framed

variable {q : Query L} {db db' : Db L}

/-- A query that leaves the three tables alone is framed. -/
theorem of_eq (hquotes : db'.quotes = db.quotes) (hinstant : db'.instantQuotes = db.instantQuotes)
    (hclaims : db'.claims = db.claims) : Framed q db db' := by
  refine ⟨fun x hx => .inl ?_, fun x hx => .inl ?_, fun row hrow => .inl ⟨row, ?_, rfl⟩⟩
  · rwa [hquotes] at hx
  · rwa [hinstant] at hx
  · rwa [hclaims] at hrow

theorem refl : Framed q db db := of_eq rfl rfl rfl

/-- A failed transaction leaves the database as it was. -/
theorem transact {r : Except String (Db L)} (h : ∀ db', r = .ok db' → Framed q db db') :
    Framed q db (transact r db).2 := by
  rcases r with e | db'
  · exact refl
  · exact h db' rfl

/-- The frame of `save_quote`: one quote is added or replaced, no claim changes. -/
theorem saveQuote {quote : DepositQuote} {now : Nat} (h : db.saveQuote quote now = .ok db') :
    Framed (.saveQuote quote) db db' := by
  unfold Db.saveQuote at h
  dsimp only at h
  split at h
  · cases h
  · obtain rfl := Except.ok.inj h
    refine ⟨fun x hx => ?_, fun x hx => .inl hx, fun row hrow => .inl ⟨row, hrow, rfl⟩⟩
    -- the new quote is inserted, or takes the place of an older one
    dsimp only at hx
    have hkept : ∀ y ∈ (db.quotes.delete fun q => q.expires ≤ now).rows, y ∈ db.quotes.rows :=
      fun y hy => (Table.mem_delete.mp hy).1
    rcases hins : (db.quotes.delete fun q => q.expires ≤ now).insert quote with - | quotes
    · rw [hins] at hx
      obtain ⟨y, hy, rfl⟩ := List.mem_map.mp hx
      split
      · exact .inr rfl
      · exact .inl (hkept y hy)
    · rw [hins] at hx
      obtain ⟨-, hrows⟩ := Table.insert_eq_some hins
      rw [Option.getD_some, hrows] at hx
      rcases List.mem_cons.mp hx with rfl | hx
      · exact .inr rfl
      · exact .inl (hkept x hx)

/-- The frame of `save_instant_quote`. -/
theorem saveInstantQuote {quote : InstantQuote} {now : Nat}
    (h : db.saveInstantQuote quote now = .ok db') : Framed (.saveInstantQuote quote) db db' := by
  unfold Db.saveInstantQuote at h
  dsimp only at h
  split at h
  · cases h
  · obtain ⟨quotes, hins, h⟩ := bind_ok h
    obtain rfl := Except.ok.inj h
    refine ⟨fun x hx => .inl hx, fun x hx => ?_, fun row hrow => .inl ⟨row, hrow, rfl⟩⟩
    obtain ⟨-, hrows⟩ := Table.insert_eq_some (okOr_eq_ok.mp hins)
    have hx : x ∈ quotes.rows := hx
    rw [hrows] at hx
    rcases List.mem_cons.mp hx with rfl | hx
    · exact .inr rfl
    · exact .inl (Table.mem_delete.mp hx).1

/-- The frame of `insert_claim`: the one new row is the argument. -/
theorem insertClaim {r : DepositClaim L} {now : Nat} (h : db.insertClaim r now = .ok db') :
    Framed (.insertClaim r) db db' := by
  have hclaims := (Db.insertClaim_ok h).1
  unfold Db.insertClaim at h
  dsimp only at h
  split at h
  · cases h
  · obtain ⟨claims, -, h⟩ := bind_ok h
    obtain ⟨requests, -, h⟩ := bind_ok h
    obtain rfl := Except.ok.inj h
    refine ⟨fun x hx => .inl hx, fun x hx => .inl hx, fun row hrow => ?_⟩
    rw [hclaims] at hrow
    rcases List.mem_cons.mp hrow with rfl | hrow
    · exact .inr (.inl ⟨r, rfl, rfl⟩)
    · exact .inl ⟨row, hrow, rfl⟩

/-- The frame of `save_claim`: only the row of that id changes, and to the argument. -/
theorem saveClaim {r : DepositClaim L} (h : db.saveClaim r = .ok db') :
    Framed (.saveClaim r) db db' := by
  have hrows := (Db.saveClaim_ok h).1
  obtain ⟨claims, -, h⟩ := bind_ok h
  obtain rfl := Except.ok.inj h
  refine ⟨fun x hx => .inl hx, fun x hx => .inl hx, fun row' hrow' => ?_⟩
  obtain ⟨row, hrow, ⟨hid, rfl⟩ | ⟨-, rfl⟩⟩ := hrows row' hrow'
  · exact .inr (.inr ⟨r, rfl, row, hrow, hid, rfl⟩)
  · exact .inl ⟨row', hrow, rfl⟩

/-- The frame of `claim_error`: a text that no claim's money depends on. -/
theorem claimError {id error : String} (h : db.claimError id error = .ok db') :
    Framed (.claimError id error) db db' := by
  obtain ⟨claims, hclaims, h⟩ := bind_ok h
  obtain rfl := Except.ok.inj h
  refine ⟨fun x hx => .inl hx, fun x hx => .inl hx, fun row' hrow' => .inl ?_⟩
  have hrow' : row' ∈ claims.val := hrow'
  rw [store_ok hclaims] at hrow'
  obtain ⟨row, hrow, rfl⟩ := List.mem_map.mp hrow'
  refine ⟨row, hrow, ?_⟩
  split
  · rfl
  · rfl

/-- The frame of `insert_instant`. -/
theorem insertInstant {r : InstantClaim L} {maxDeposit limit now : Nat}
    (h : db.insertInstant r maxDeposit limit now = .ok db') :
    Framed (.insertInstant r maxDeposit limit) db db' := by
  obtain ⟨-, -, h⟩ := bind_ok h
  dsimp only at h
  split at h
  · cases h
  · obtain ⟨instants, -, h⟩ := bind_ok h
    obtain ⟨requests, -, h⟩ := bind_ok h
    obtain rfl := Except.ok.inj h
    exact of_eq rfl rfl rfl

/-- The frame of `save_instant`. -/
theorem saveInstant {r : InstantClaim L} (h : db.saveInstant r = .ok db') :
    Framed (.saveInstant r) db db' := by
  obtain ⟨instants, -, h⟩ := bind_ok h
  obtain rfl := Except.ok.inj h
  exact of_eq rfl rfl rfl

/-- The frame of `instant_error`. -/
theorem instantError {id error : String} (h : db.instantError id error = .ok db') :
    Framed (.instantError id error) db db' := by
  obtain ⟨instants, -, h⟩ := bind_ok h
  obtain rfl := Except.ok.inj h
  exact of_eq rfl rfl rfl

end Framed

/-- Every query is framed by what it names. -/
theorem Query.run_framed (q : Query L) (now : Nat) (db : Db L) :
    Framed q db (q.run now db).2 := by
  cases q with
  | saveQuote quote => exact .transact fun _ h => .saveQuote h
  | saveInstantQuote quote => exact .transact fun _ h => .saveInstantQuote h
  | insertClaim r => exact .transact fun _ h => .insertClaim h
  | saveClaim r => exact .transact fun _ h => .saveClaim h
  | claimError id error => exact .transact fun _ h => .claimError h
  | insertInstant r maxDeposit limit => exact .transact fun _ h => .insertInstant h
  | saveInstant r => exact .transact fun _ h => .saveInstant h
  | instantError id error => exact .transact fun _ h => .instantError h
  | _ => exact .refl

/-- A call that is no query leaves the tables. -/
theorem perform_framed {t : Nat} {c : Call L} {ch : Choice} {w w' : World L} {r : c.Reply}
    (h : perform t c ch w = some (r, w')) :
    w'.db = w.db ∨ ∃ q, c = .db q ∧ Framed q w.db w'.db := by
  cases c with
  | db q =>
      cases ch <;> simp only [perform, Option.some.injEq, Prod.mk.injEq, reduceCtorEq] at h
      · obtain ⟨-, rfl⟩ := h
        exact .inr ⟨q, rfl, q.run_framed w.now w.db⟩
      · obtain ⟨-, rfl⟩ := h
        exact .inl rfl
  | lock l =>
      cases ch <;> simp only [perform, Option.map_eq_some_iff, Prod.mk.injEq, reduceCtorEq] at h
      obtain ⟨locks, -, -, rfl⟩ := h
      exact .inl rfl
  | sampleInstants =>
      cases ch <;> simp only [perform, Option.map_eq_some_iff, Option.some.injEq, Prod.mk.injEq,
        reduceCtorEq] at h
      · obtain ⟨-, rfl⟩ := h
        exact .inl rfl
      · obtain ⟨records, -, -, rfl⟩ := h
        exact .inl rfl
  | _ =>
      cases ch <;> simp only [perform, Option.some.injEq, Prod.mk.injEq, reduceCtorEq] at h
      all_goals
        obtain ⟨-, rfl⟩ := h
        exact .inl rfl

/-! ### One move -/

/-- Program `t` has made a call. -/
structure Called (s s' : Config (machine C)) (t : Nat) (c : Call L) (hist : History (Api L))
    (reply : c.Reply) : Prop where
  thread : ∃ k, s.thread t = some ⟨.call c k, hist⟩
  performs : ∃ ch, perform t c ch s.world = some (reply, s'.world)
  trace : s'.trace = (t, ⟨c, reply⟩) :: s.trace
  threads : ∀ u th, s'.thread u = some th →
    u = t ∧ th.history = ⟨c, reply⟩ :: hist ∨ u ≠ t ∧ s.thread u = some th

/-- No program has made a call. -/
structure Idle (s s' : Config (machine C)) : Prop where
  db : s'.world.db = s.world.db
  trace : s'.trace = s.trace
  threads : ∀ u th, s'.thread u = some th → s.thread u = some th ∨ th.history = []

/-- A step is either silent or one answered call of one task. -/
theorem step_called (hst : s.step m = some s') :
    Idle s s' ∨ ∃ t c hist reply, Called s s' t c hist reply := by
  rcases Config.step_cases hst with ⟨r, -, rfl⟩ | ⟨t, ch, c, k, hist, reply, w, -, hth, hp, rfl⟩ |
    ⟨t, th, -, -, rfl⟩ | ⟨-, rfl⟩ | ⟨n, w, -, ho, rfl⟩
  · refine .inl ⟨rfl, rfl, fun u th hu => (Config.thread_spawn hu).imp_right ?_⟩
    rintro rfl
    rfl
  · refine .inr ⟨t, c, hist, reply, ⟨k, hth⟩, ⟨ch, hp⟩, rfl, fun u th hu => ?_⟩
    rcases Config.thread_record hu with ⟨rfl, rfl⟩ | hother
    · exact .inl ⟨rfl, rfl⟩
    · exact .inr hother
  · exact .inl ⟨rfl, rfl, fun u th hu => .inl (Config.thread_drop hu).2⟩
  · refine .inl ⟨rfl, rfl, fun u th hu => ?_⟩
    rw [Config.thread_restart] at hu
    cases hu
  · obtain rfl := Option.some.inj ho
    exact .inl ⟨rfl, rfl, fun u th hu => .inl hu⟩

namespace Called

variable {t : Nat} {c : Call L} {hist : History (Api L)} {reply : c.Reply}

/-- The call was careful after what its task had done. -/
theorem careful (hc : Called s s' t c hist reply) (hs : Reach ok s) : Careful C hist c := by
  obtain ⟨k, hth⟩ := hc.thread
  exact hs.justified handler_careful hth

/-- The call was lawful after what its task had done. -/
theorem lawful (hc : Called s s' t c hist reply) (hs : Reach ok s) : Lawful C hist c := by
  obtain ⟨k, hth⟩ := hc.thread
  exact hs.justified handler_lawful hth

/-- What the task has done is in the trace. -/
theorem seen (hc : Called s s' t c hist reply) (hs : Reach ok s) :
    ∀ e ∈ hist, (t, e) ∈ s.trace := by
  obtain ⟨k, hth⟩ := hc.thread
  exact hs.history_mem t _ hth

/-- An instant claim the task knows of is on record. -/
theorem known (hc : Called s s' t c hist reply) (hs : Reach ok s) {r : InstantClaim L}
    (hk : Known C r hist) : r ∈ s.world.db.records := by
  obtain ⟨k, hth⟩ := hc.thread
  exact known_stored hs hth hk

/-- A call that is no query leaves the tables. -/
theorem framed (hc : Called s s' t c hist reply) :
    s'.world.db = s.world.db ∨ ∃ q, c = .db q ∧ Framed q s.world.db s'.world.db := by
  obtain ⟨ch, hp⟩ := hc.performs
  exact perform_framed hp

end Called

/-- The trace names the call of a move. -/
theorem Called.event {t u : Nat} {c : Call L} {hist : History (Api L)} {reply : c.Reply}
    {e : Event (Api L)} (hc : Called s s' t c hist reply) (h : s'.trace = (u, e) :: s.trace) :
    u = t ∧ e = ⟨c, reply⟩ := by
  rw [hc.trace] at h
  obtain ⟨rfl, rfl⟩ := Prod.mk.inj (List.cons.inj h).1
  exact ⟨rfl, rfl⟩

/-- What holds of a trace and of its older part held already before the move. -/
theorem before_step {P : List (Nat × Event (Api L)) → Prop}
    (htail : ∀ {x trace}, P (x :: trace) → P trace) (hst : s.step m = some s')
    (h : P s'.trace) : P s.trace := by
  rcases step_called hst with hidle | ⟨t, c, hist, reply, hc⟩
  · rwa [hidle.trace] at h
  · rw [hc.trace] at h
    exact htail h

/-- The call that enters a fixed claim has written its row. -/
theorem Called.insertClaim {t : Nat} {c : Call L} {hist : History (Api L)} {reply : c.Reply}
    {r : DepositClaim L} (hc : Called s s' t c hist reply)
    (he : (⟨.db (.insertClaim r), .ok ()⟩ : Event (Api L)) = ⟨c, reply⟩) :
    s.world.db.insertClaim r s.world.now = .ok s'.world.db := by
  obtain ⟨ch, hp⟩ := hc.performs
  injection he with hcall hreply
  subst hcall
  obtain rfl := eq_of_heq hreply
  obtain ⟨hreply, hworld⟩ := perform_read hp
  rcases hins : s.world.db.insertClaim r s.world.now with e | db
  · simp only [Query.run, hins, transact] at hreply
    cases hreply
  · simp only [Query.run, hins, transact] at hworld
    rw [hworld]

/-- A quote that is read is stored, and one of the output that was asked for. -/
theorem Called.depositQuote {t : Nat} {c : Call L} {hist : History (Api L)} {reply : c.Reply}
    {txid : String} {vout : UInt32} {owner : String} {q : DepositQuote}
    (hc : Called s s' t c hist reply)
    (he : (⟨.db (.depositQuote txid vout owner), .ok (some q)⟩ : Event (Api L)) = ⟨c, reply⟩) :
    q ∈ s.world.db.quotes.rows ∧ q.txid = txid ∧ q.vout = vout := by
  obtain ⟨ch, hp⟩ := hc.performs
  injection he with hcall hreply
  subst hcall
  obtain rfl := eq_of_heq hreply
  obtain ⟨hread, -⟩ := perform_read hp
  obtain ⟨hget, -⟩ := Option.filter_eq_some_iff.mp (Except.ok.inj hread)
  have hkey : (q.txid, q.vout) = (txid, vout) := Table.key_of_get (t := s.world.db.quotes) hget
  obtain ⟨htxid, hvout⟩ := Prod.mk.inj hkey
  exact ⟨Table.mem_of_get hget, htxid, hvout⟩

/-- An instant quote that is read is stored. -/
theorem Called.instantQuoteById {t : Nat} {c : Call L} {hist : History (Api L)} {reply : c.Reply}
    {id owner : String} {q : InstantQuote} (hc : Called s s' t c hist reply)
    (he : (⟨.db (.instantQuoteById id owner), .ok q⟩ : Event (Api L)) = ⟨c, reply⟩) :
    q ∈ s.world.db.instantQuotes.rows := by
  obtain ⟨ch, hp⟩ := hc.performs
  injection he with hcall hreply
  subst hcall
  obtain rfl := eq_of_heq hreply
  obtain ⟨hread, -⟩ := perform_read hp
  obtain ⟨hget, -⟩ := Option.filter_eq_some_iff.mp (okOr_eq_ok.mp hread)
  exact Table.mem_of_get hget

/-- A new claim is refused while an instant claim is after the same output. -/
theorem Db.insertClaim_free {db db' : Db L} {r : DepositClaim L} {now : Nat}
    (h : db.insertClaim r now = .ok db') : db.reservedForInstant r.quote = false := by
  unfold insertClaim at h
  dsimp only at h
  split at h
  · cases h
  · next hfree => exact Bool.eq_false_iff.mpr hfree

/-- A new instant claim is refused while a fixed claim is after the same output. -/
theorem Db.insertInstant_free {db db' : Db L} {r : InstantClaim L} {maxDeposit limit now : Nat}
    (h : db.insertInstant r maxDeposit limit now = .ok db') :
    db.reservedForFixed r.quote.deposit = false := by
  obtain ⟨-, -, h⟩ := bind_ok h
  dsimp only at h
  split at h
  · cases h
  · next hfree => exact Bool.eq_false_iff.mpr hfree

/-! ### Quotes are true -/

/-- Every quote that is stored, and every one that a program has read, is for an output. -/
structure TrueQuotes (O : Outputs) (s : Config (machine C)) : Prop where
  fixed : ∀ q ∈ s.world.db.quotes.rows, ∃ point, Quoted C O q point
  instant : ∀ q ∈ s.world.db.instantQuotes.rows, ∃ point, Quoted C O q.deposit point
  fixedRead : ∀ t txid vout owner q,
    (t, (⟨.db (.depositQuote txid vout owner), .ok (some q)⟩ : Event (Api L))) ∈ s.trace →
    q.txid = txid ∧ q.vout = vout ∧ ∃ point, Quoted C O q point
  instantRead : ∀ t id owner q,
    (t, (⟨.db (.instantQuoteById id owner), .ok q⟩ : Event (Api L))) ∈ s.trace →
    ∃ point, Quoted C O q.deposit point

/-- A step saves a quote only of an output the chain showed. -/
theorem TrueQuotes.step (hC : C.Texts) (hs : Reach ok s) (hq : TrueQuotes O s)
    (hn : Constant C O s.trace) (hst : s.step m = some s') : TrueQuotes O s' := by
  rcases step_called hst with hidle | ⟨t, c, hist, reply, hc⟩
  · refine ⟨?_, ?_, ?_, ?_⟩
    · rw [hidle.db]
      exact hq.fixed
    · rw [hidle.db]
      exact hq.instant
    · rw [hidle.trace]
      exact hq.fixedRead
    · rw [hidle.trace]
      exact hq.instantRead
  · refine ⟨?_, ?_, ?_, ?_⟩
    · intro q hmem
      rcases hc.framed with hdb | ⟨query, rfl, hframed⟩
      · rw [hdb] at hmem
        exact hq.fixed q hmem
      · rcases hframed.quotes q hmem with hold | rfl
        · exact hq.fixed q hold
        · -- a new quote describes what its task has just looked up
          have hd : Described C q hist := hc.careful hs
          exact hd.quoted hC hn (hc.seen hs)
    · intro q hmem
      rcases hc.framed with hdb | ⟨query, rfl, hframed⟩
      · rw [hdb] at hmem
        exact hq.instant q hmem
      · rcases hframed.instantQuotes q hmem with hold | rfl
        · exact hq.instant q hold
        · have hd : Described C q.deposit hist := (hc.careful hs).1
          exact hd.quoted hC hn (hc.seen hs)
    · intro u txid vout owner q hmem
      rw [hc.trace] at hmem
      rcases List.mem_cons.mp hmem with hnew | hold
      · obtain ⟨-, he⟩ := Prod.mk.inj hnew
        -- what a look-up answers was stored before
        obtain ⟨hstored, htxid, hvout⟩ := hc.depositQuote he
        exact ⟨htxid, hvout, hq.fixed q hstored⟩
      · exact hq.fixedRead u txid vout owner q hold
    · intro u id owner q hmem
      rw [hc.trace] at hmem
      rcases List.mem_cons.mp hmem with hnew | hold
      · obtain ⟨-, he⟩ := Prod.mk.inj hnew
        exact hq.instant q (hc.instantQuoteById he)
      · exact hq.instantRead u id owner q hold

/-- What holds of a run as long as the outputs stay what they are. -/
theorem constant_invariant {J : Config (machine C) → Prop} (h₀ : J (Config.start (machine C)))
    (hstep : ∀ s s' m, Reach ok s → Constant C O s.trace → J s → ok s m → s.step m = some s' →
      Reach ok s' → Constant C O s'.trace → J s') (hs : Reach ok s)
    (hn : Constant C O s.trace) : J s := by
  refine hs.invariant (J := fun s => Constant C O s.trace → J s) (fun _ => h₀) ?_ hn
  intro s s' m hr ih hm hst hn
  have hbefore : Constant C O s.trace := before_step Constant.tail hst hn
  exact hstep s s' m hr hbefore (ih hbefore) hm hst (hr.step hm hst) hn

/-- Every saved quote is of an output the chain shows. -/
theorem true_quotes (hC : C.Texts) (hs : Reach ok s) (hn : Constant C O s.trace) :
    TrueQuotes O s := by
  refine constant_invariant (J := TrueQuotes O) ?_ ?_ hs hn
  · refine ⟨fun q hq => ?_, fun q hq => ?_, fun t txid vout owner q he => ?_,
      fun t id owner q he => ?_⟩
    · cases hq
    · cases hq
    · cases he
    · cases he
  · exact fun s s' m hr hn ih _ hst _ _ => ih.step hC hr hn hst

/-! ### Fixed claims -/

/-- The claim is backed by the output of its quote, which is spent once the claim has succeeded. -/
structure FixedBacked (C : Service L) (O : Outputs) (trace : List (Nat × Event (Api L)))
    (r : DepositClaim L) : Prop where
  output : ∃ point, Quoted C O r.quote point ∧ r.plan.spends = some [point] ∧
    (r.status = .succeeded → SpentIn trace point)
  signs : r.SignsPlan

/-- A backed fixed claim stays backed while the trace grows. -/
theorem FixedBacked.cons {r : DepositClaim L} (h : FixedBacked C O trace r) :
    FixedBacked C O (x :: trace) r := by
  obtain ⟨point, hquoted, hspends, hspent⟩ := h.output
  exact ⟨⟨point, hquoted, hspends, fun hdone => (hspent hdone).cons⟩, h.signs⟩

/-- A transaction that has landed spends its outputs. -/
theorem Landed.spent {raw : L.Raw} {h : History (Api L)} {t : Nat}
    (hmem : ∀ e ∈ h, (t, e) ∈ trace) (hl : Landed raw h) (hraw : inputsOf raw = some [point]) :
    SpentIn trace point := by
  rcases hl with ⟨claim, he⟩ | ⟨claim, tx, n, htx, hn, he⟩
  · exact ⟨_, hmem _ he, .sent claim raw [point] hraw List.mem_cons_self⟩
  · refine ⟨_, hmem _ he, .confirmed claim tx n hn ?_⟩
    rw [Option.some.inj ((inputsOf_ok htx).symm.trans hraw)]
    exact List.mem_cons_self

/-- Fixed claims that are stored, or were read, are backed. -/
structure FixedClaims (O : Outputs) (s : Config (machine C)) : Prop where
  stored : ∀ x ∈ s.world.db.fixed.rows, FixedBacked C O s.trace x.2
  read : ∀ t e r, (t, e) ∈ s.trace → ShowsFixed r e → FixedBacked C O s.trace r

/-- A step keeps every fixed claim backed by its output. -/
theorem FixedClaims.step (hC : C.Texts) (hs : Reach ok s) (hn : Constant C O s.trace)
    (hf : FixedClaims O s) (hst : s.step m = some s') : FixedClaims O s' := by
  rcases step_called hst with hidle | ⟨t, c, hist, reply, hc⟩
  · refine ⟨?_, ?_⟩
    · rw [hidle.db, hidle.trace]
      exact hf.stored
    · rw [hidle.trace]
      exact hf.read
  · obtain ⟨ch, hp⟩ := hc.performs
    -- what backs a claim is in the trace, which only grows
    have hkeep : ∀ r, FixedBacked C O s.trace r → FixedBacked C O s'.trace r := by
      intro r hr
      rw [hc.trace]
      exact hr.cons
    have hstored : ∀ x ∈ s'.world.db.fixed.rows, FixedBacked C O s'.trace x.2 := by
      cases perform_fixed hp with
      | same hrows =>
          rw [hrows]
          exact fun x hx => hkeep x.2 (hf.stored x hx)
      -- a new claim: the quote it was made from is true, and the output looked up is the quoted one
      | inserted r he hrows =>
          rw [hrows]
          obtain rfl : c = .db (.insertClaim r) := congrArg Event.call he
          obtain ⟨hstatus, hunsigned, txid, vout, owner, point, hquote, hlooked, hspends⟩ :
            r.status = .inProgress ∧ r.signedSpend = none ∧ ∃ txid vout owner point,
              (⟨.db (.depositQuote txid vout owner), .ok (some r.quote)⟩ : Event (Api L)) ∈ hist ∧
              Looked C ((guards C).Held .deposits) txid vout.toNat point hist ∧
              r.plan.spends = some [point] := hc.careful hs
          intro x hx
          rcases List.mem_cons.mp hx with rfl | hx
          · obtain ⟨htxid, hvout, point', hquoted⟩ := (true_quotes hC hs hn).fixedRead t txid vout
              owner r.quote (hc.seen hs _ hquote)
            have hpoint : point' = point := by
              apply hquoted.unique hC
              · rw [htxid]
                exact hlooked.1
              · rw [hvout, ← hlooked.2.1, UInt32.ofNat_toNat]
            subst hpoint
            refine ⟨⟨point', hquoted, hspends, fun hdone => ?_⟩, fun raw hraw => ?_⟩
            · rw [hstatus] at hdone
              cases hdone
            · rw [hunsigned] at hraw
              cases hraw
          · exact hkeep x.2 (hf.stored x hx)
      -- a saved claim has the plan of one that was read; success needs a recovery that was seen
      | saved r' he hrows =>
          rw [hrows]
          obtain rfl : c = .db (.saveClaim r') := congrArg Event.call he
          obtain ⟨r, ⟨e, hmem, hshows⟩, hsaved⟩ : ∃ r, Read r hist ∧ Resaved r r' hist :=
            hc.careful hs
          have hr := hf.read t e r (hc.seen hs e hmem) hshows
          obtain ⟨point, hquoted, hspends, hspent⟩ := hr.output
          have hsigns := hsaved.signed hr.signs
          have hbacked : FixedBacked C O s.trace r' := by
            refine ⟨⟨point, ?_, ?_, fun hdone => ?_⟩, hsigns⟩
            · rw [hsaved.plan.quote]
              exact hquoted
            · rw [hsaved.plan.plan]
              exact hspends
            · rcases hsaved.status hdone with hbefore | ⟨raw, hraw, hlanded⟩
              · exact hspent hbefore
              · refine hlanded.spent (hc.seen hs) ((hsigns raw hraw).trans ?_)
                rw [hsaved.plan.plan]
                exact hspends
          intro x hx
          obtain ⟨old, hold, rfl⟩ := List.mem_map.mp hx
          rw [resave]
          split
          · exact hkeep r' hbacked
          · exact hkeep old.2 (hf.stored old hold)
    -- what the new event shows is stored now, what an older one showed was backed before
    refine ⟨hstored, fun u e r hmem hshows => ?_⟩
    rw [hc.trace] at hmem
    rcases List.mem_cons.mp hmem with hnew | hold
    · obtain ⟨rfl, rfl⟩ := Prod.mk.inj hnew
      exact hstored _ (shown_fixed (kept hs).ids hp hshows)
    · exact hkeep r (hf.read u e r hold hshows)

/-- Every fixed claim on record is backed by its output. -/
theorem fixed_claims (hC : C.Texts) (hs : Reach ok s) (hn : Constant C O s.trace) :
    FixedClaims O s := by
  refine constant_invariant (J := FixedClaims O) ?_ ?_ hs hn
  · refine ⟨fun x hx => ?_, fun t e r he => ?_⟩
    · cases hx
    · cases he
  · exact fun s s' m hr hn ih _ hst _ _ => ih.step hC hr hn hst

/-- All columns of a row but the error text are those of its record. -/
theorem fixed_row_of (hs : Reach ok s) : ∀ row ∈ s.world.db.claims.val, row.bare = .of row.data := by
  refine hs.invariant (J := fun s : Config (machine C) =>
    ∀ row ∈ s.world.db.claims.val, row.bare = .of row.data) ?_ ?_
  · intro row hrow
    cases hrow
  · intro s s' m hr ih _ hst row' hrow'
    rcases step_called hst with hidle | ⟨t, c, hist, reply, hc⟩
    · rw [hidle.db] at hrow'
      exact ih row' hrow'
    · rcases hc.framed with hdb | ⟨q, rfl, hframed⟩
      · rw [hdb] at hrow'
        exact ih row' hrow'
      · rcases hframed.claims row' hrow' with
          ⟨row, hrow, hbare⟩ | ⟨r, rfl, rfl⟩ | ⟨r, rfl, row, hrow, hid, rfl⟩
        · have hdata : row'.data = row.data := congrArg (fun row => row.data) hbare
          rw [hbare, hdata]
          exact ih row hrow
        · rfl
        · -- the record that is saved has the quote of the stored one
          obtain ⟨r₀, hread, hsame⟩ : ∃ r₀, Read r₀ hist ∧ SamePlan r₀ r := hc.lawful hr
          obtain ⟨k, hth⟩ := hc.thread
          obtain ⟨r₁, hr₁, hsame₁⟩ := read_stored hr hth hread
          have hstored : (row.id, row.data) ∈ s.world.db.fixed.rows :=
            Db.mem_fixed.mpr ⟨row, hrow, rfl⟩
          have heq : (row.id, row.data) = (r₀.id, r₁) :=
            Table.eq_of_key hstored hr₁ (hid.trans hsame.id)
          have hquote : row.data.quote = r.quote := by
            rw [(Prod.mk.inj heq).2, hsame₁.quote, hsame.quote]
          have hcolumns := ih row hrow
          have htxid : row.txid = row.data.quote.txid := congrArg DepositRow.txid hcolumns
          have hvout : row.vout = row.data.quote.vout := congrArg DepositRow.vout hcolumns
          have howner : row.owner = row.data.quote.owner := congrArg DepositRow.owner hcolumns
          simp only [DepositRow.bare, DepositRow.save, DepositRow.of, hid, htxid, hvout, howner,
            hquote]

/-! ### Instant claims -/

/-- The claim is backed by an output that pays what its quote says. -/
structure InstantBacked (C : Service L) (O : Outputs) (r : InstantClaim L) : Prop where
  quoted : ∃ point, Quoted C O r.quote.deposit point
  output : ∃ point, Pays C O r.quote.deposit point ∧ r.plan.spends = some [point]
  signs : r.SignsPlan
  unsigned : ¬ r.Frozen → r.signedSpend = none

variable {r r' : InstantClaim L} {hist : History (Api L)}

/-- A claim is frozen only out of the completed transfer's phase. -/
theorem advance_freezes (ha : Advance C r hist r') (h : r'.phase = .recoveryPrepared) :
    r.phase = .transferCompleted := by
  cases ha with
  | paid hphase => cases h
  | scanned tip hphase hscan => exact hphase
  | prepared point request hphase hunspent hfreeze => exact hphase
  | signed spend hfrozen hopen => cases h
  | settled confirmations hfrozen hopen hseen =>
      exfalso
      dsimp only at h
      split at h
      · cases h
      · cases h

/-- A claim keeps its id. -/
theorem tends_id (ht : Tends C r hist r') : r'.id = r.id := by
  cases ht with
  | kept r' hid hplan hsigned hphase => exact hid
  | frozen point request hfound hfreeze => rfl
  | signed spend hspend => rfl

/-- What the recovery of a claim can spend pays what the quote says. -/
theorem Found.pays (hC : C.Texts) (hn : Constant C O trace) {t : Nat}
    (hmem : ∀ e ∈ hist, (t, e) ∈ trace) (hf : Found C r point hist)
    (hquoted : ∃ point, Quoted C O r.quote.deposit point) : Pays C O r.quote.deposit point := by
  obtain ⟨original, horiginal⟩ := hquoted
  obtain ⟨txid, vout, ⟨htxid, hvout, pass, coin, older, rfl, -, -⟩, hwhere⟩ := hf
  have hcoin : (t, (⟨.getTxOut txid vout, .ok (some coin)⟩ : Event (Api L))) ∈ trace :=
    hmem _ (by simp)
  rcases hwhere with ⟨rfl, rfl⟩ | ⟨hash, txs, tx, outputs, output, hblock, htx, houtputs, houtput,
    hid, hindex, hscript, hvalue⟩
  · -- the output of the quote itself
    rw [UInt32.ofNat_toNat] at hvout
    rw [← horiginal.unique hC htxid hvout]
    exact horiginal.toPays
  · -- a block shows the output as the node reports it
    have hname : Names C txid vout point := hn.names hcoin htxid hvout
    obtain ⟨hsame, hsats⟩ := hn.same _ (hmem _ hblock) _ _ _
      (.block hash txs tx outputs output txid vout htx houtputs houtput hid hindex hname)
    refine ⟨?_, horiginal.address, hsats _ hvalue⟩
    rw [← hsame _ hscript]
    exact hC.script _

/-- One write keeps an instant claim backed. -/
theorem InstantBacked.advance (hC : C.Texts) (hn : Constant C O trace) {t : Nat}
    (hmem : ∀ e ∈ hist, (t, e) ∈ trace) (hb : InstantBacked C O r) (ha : Advance C r hist r')
    (ht : Tends C r hist r') : InstantBacked C O r' := by
  have hquote := advance_quote ha
  obtain ⟨point, hpays, hspends⟩ := hb.output
  refine ⟨hquote ▸ hb.quoted, ?_, ?_, ?_⟩
  · rw [hquote]
    cases ht with
    | kept r' hid hplan hsigned hphase => exact ⟨point, hpays, by rw [hplan]; exact hspends⟩
    | frozen new request hfound hfreeze =>
        exact ⟨new, hfound.pays hC hn hmem hb.quoted, freezeOutpoint_spends hfreeze hspends⟩
    | signed spend hspend => exact ⟨point, hpays, hspends⟩
  · intro raw hraw
    cases ht with
    | kept r' hid hplan hsigned hphase =>
        rw [hplan]
        exact hb.signs raw (hsigned ▸ hraw)
    | frozen new request hfound hfreeze =>
        -- nothing is signed for a plan that is not frozen
        have hphase := advance_freezes ha rfl
        have hnone := hb.unsigned fun hfrozen => hfrozen.2 hphase
        cases hnone.symm.trans hraw
    | signed spend hspend =>
        obtain rfl := Option.some.inj hraw
        exact hspend
  · intro hnot
    have hbefore : ¬ r.Frozen := fun hfrozen => hnot (advance_frozen ha hfrozen).2
    cases ht with
    | kept r' hid hplan hsigned hphase => exact hsigned.trans (hb.unsigned hbefore)
    | frozen new request hfound hfreeze => exact hb.unsigned hbefore
    | signed spend hspend => exact absurd ⟨by exact nofun, by exact nofun⟩ hnot

/-- Every instant claim on record is backed by the output it froze. -/
theorem instant_claims (hC : C.Texts) (hs : Reach ok s) (hn : Constant C O s.trace) :
    ∀ r ∈ s.world.db.records, InstantBacked C O r := by
  refine constant_invariant (J := fun s : Config (machine C) =>
    ∀ r ∈ s.world.db.records, InstantBacked C O r) ?_ ?_ hs hn
  · intro r hr
    cases hr
  · intro s s' m hs hn ih _ hst _ _ r' hr'
    rcases (step_ledger hs hst).origin hr' with hold | ⟨t, k, hist, maxDeposit, limit, hth, -, hfresh⟩ |
      ⟨t, k, hist, r, hth, -, hr, ha⟩
    · exact ih r' hold
    · obtain ⟨hunsigned, id, owner, point, hquote, htxid, hvout, hspends⟩ :
        r'.signedSpend = none ∧ ∃ id owner point,
          (⟨.db (.instantQuoteById id owner), .ok r'.quote⟩ : Event (Api L)) ∈ hist ∧
          C.parseTxid r'.quote.deposit.txid = some point.txid ∧
          r'.quote.deposit.vout = point.vout ∧ r'.plan.spends = some [point] :=
        hs.justified handler_careful hth
      obtain ⟨point', hquoted⟩ := (true_quotes hC hs hn).instantRead t id owner r'.quote
        (hs.history_mem t _ hth _ hquote)
      obtain rfl := hquoted.unique hC htxid hvout
      refine ⟨⟨point', hquoted⟩, ⟨point', hquoted.toPays, hspends⟩, fun raw hraw => ?_,
        fun _ => hunsigned⟩
      rw [hunsigned] at hraw
      cases hraw
    · obtain ⟨r₁, hk, ht⟩ : ∃ r, Known C r hist ∧ Tends C r hist r' :=
        hs.justified handler_careful hth
      -- both contracts speak of the stored record
      obtain rfl : r = r₁ := records_unique hs hr (known_stored hs hth hk)
        ((advance_id ha).symm.trans (tends_id ht))
      exact (ih r hr).advance hC hn (hs.history_mem t _ hth) ha ht

/-- The output of a claim whose recovery is done has been spent. -/
theorem confirmed_spent (hC : C.Texts) (hs : Reach ok s) (hn : Constant C O s.trace)
    (hr : r ∈ s.world.db.records) (hphase : r.phase = .spendTxConfirmed)
    (hspends : r.plan.spends = some [point]) : SpentIn s.trace point := by
  obtain ⟨row, hrow, rfl⟩ := Db.mem_records.mp hr
  have hcolumn : row.bare.phase = row.data.phase := congrArg InstantRow.phase (mem_instants hs hrow).1
  obtain ⟨raw, tx, n, hraw, htx, hn₃, t, hseen⟩ :=
    (accounted hs).instant row hrow (hcolumn.trans hphase)
  have hinputs := (instant_claims hC hs hn _ hr).signs raw hraw
  rw [hspends, inputsOf_ok htx] at hinputs
  refine ⟨_, hseen, .confirmed _ tx n (by omega) ?_⟩
  rw [Option.some.inj hinputs]
  exact List.mem_cons_self

/-! ### Reservations -/

/-- The quotes have the same address and the same amount. -/
def Alike (q q' : DepositQuote) : Prop :=
  q.address = q'.address ∧ q.credit + q.fee = q'.credit + q'.fee

/-- An open instant claim reserves its address and its amount. -/
theorem reservedForInstant_alike (hs : Reach ok s) (hr : r ∈ s.world.db.records)
    (hopen : r.phase ≠ .spendTxConfirmed) (halike : Alike q r.quote.deposit) :
    s.world.db.reservedForInstant q = true := by
  obtain ⟨row, hrow, rfl⟩ := Db.mem_records.mp hr
  have hof := (mem_instants hs hrow).1
  have hphase : row.phase = row.data.phase := congrArg (fun row => row.phase) hof
  have haddress : row.address = row.data.quote.deposit.address :=
    congrArg (fun row => row.address) hof
  have hvalue : row.value = row.data.quote.deposit.credit + row.data.quote.deposit.fee :=
    congrArg (fun row => row.value) hof
  refine List.any_eq_true.mpr ⟨row, hrow, ?_⟩
  simp [InstantRow.tracked, hphase, hopen, haddress, hvalue, halike.1, halike.2]

/-- A fixed claim that is no hindrance to an instant claim like it has succeeded. -/
theorem succeeded_of_free (hs : Reach ok s) {y : String × DepositClaim L}
    (hy : y ∈ s.world.db.fixed.rows) (halike : Alike y.2.quote q)
    (hfree : s.world.db.reservedForFixed q = false) : y.2.status = .succeeded := by
  obtain ⟨row, hrow, rfl⟩ := Db.mem_fixed.mp hy
  have hstatus : row.status = row.data.status :=
    congrArg (fun row => row.status) (fixed_row_of hs row hrow)
  obtain ⟨haddress, hvalue⟩ : Alike row.data.quote q := halike
  have hrowFree := List.any_eq_false.mp hfree row hrow
  rw [← hstatus]
  by_contra hne
  apply hrowFree
  simp [haddress, hvalue, hne]

/-- Where the quote of a stored instant claim comes from, and that of a new one. -/
theorem LedgerStep.before (hl : LedgerStep s s') (hr' : r' ∈ s'.world.db.records) :
    (∃ r ∈ s.world.db.records, r.id = r'.id ∧ r.quote = r'.quote ∧
      (r'.phase ≠ .spendTxConfirmed → r.phase ≠ .spendTxConfirmed)) ∨
    ∃ maxDeposit limit,
      s.world.db.insertInstant r' maxDeposit limit s.world.now = .ok s'.world.db := by
  cases hl with
  | same h =>
      rw [h] at hr'
      exact .inl ⟨r', hr', rfl, rfl, id⟩
  | entered t k hist new maxDeposit limit hth htrace hfresh hinsert h =>
      rw [h] at hr'
      rcases List.mem_cons.mp hr' with rfl | hold
      · exact .inr ⟨maxDeposit, limit, hinsert⟩
      · exact .inl ⟨r', hold, rfl, rfl, id⟩
  | advanced t k hist r new hth htrace hr ha h =>
      rw [h] at hr'
      obtain ⟨old, hold, heq⟩ := List.mem_map.mp hr'
      left
      split at heq
      · subst heq
        exact ⟨r, hr, (advance_id ha).symm, (advance_quote ha).symm, fun _ => advance_open ha⟩
      · subst heq
        exact ⟨old, hold, rfl, rfl, id⟩

/-- The instant claims when a fixed claim is entered. -/
theorem records_of_insertClaim {db db' : Db L} {r : DepositClaim L} {now : Nat}
    (h : db.insertClaim r now = .ok db') : db'.records = db.records := by
  rw [Db.records, Db.records, (Db.insertClaim_ok h).2]

/-- While an instant claim is open, a fixed claim like it was entered before and has recovered its
output: the one does not let in the other. -/
theorem reserved (hC : C.Texts) (hs : Reach ok s) (hn : Constant C O s.trace) :
    ∀ r ∈ s.world.db.records, r.phase ≠ .spendTxConfirmed → ∀ y ∈ s.world.db.fixed.rows,
      Alike y.2.quote r.quote.deposit → ∀ point, y.2.plan.spends = some [point] →
      SpentIn s.trace point := by
  refine constant_invariant (J := fun s : Config (machine C) => ∀ r ∈ s.world.db.records,
    r.phase ≠ .spendTxConfirmed → ∀ y ∈ s.world.db.fixed.rows, Alike y.2.quote r.quote.deposit →
    ∀ point, y.2.plan.spends = some [point] → SpentIn s.trace point) ?_ ?_ hs hn
  · intro r hr
    cases hr
  · intro s s' m hs hn ih _ hst _ _ r' hr' hopen y hy halike point hspends
    rcases step_called hst with hidle | ⟨t, c, hist, reply, hc⟩
    · rw [hidle.db] at hr' hy
      rw [hidle.trace]
      exact ih r' hr' hopen y hy halike point hspends
    · rw [hc.trace]
      refine SpentIn.cons ?_
      rcases (step_fixed hs hst).origin hy with ⟨old, hold, hsame⟩ | ⟨u, k, h, -, htrace, -⟩
      · rw [hsame.quote] at halike
        rw [hsame.plan] at hspends
        rcases (step_ledger hs hst).before hr' with ⟨r, hr, -, hquote, hbefore⟩ | ⟨_, _, hinsert⟩
        · rw [← hquote] at halike
          exact ih r hr (hbefore hopen) (y.1, old) hold halike point hspends
        · -- the instant claim is new: the fixed one has succeeded
          have hdone := succeeded_of_free hs hold halike (Db.insertInstant_free hinsert)
          obtain ⟨point', -, hspends', hspent⟩ := ((fixed_claims hC hs hn).stored _ hold).output
          obtain rfl := StaticPlan.spends_unique hspends hspends'
          exact hspent hdone
      · -- the fixed claim is new: the instant one refuses it
        have hinsert := hc.insertClaim (hc.event htrace).2
        rw [records_of_insertClaim hinsert] at hr'
        have hbusy := reservedForInstant_alike hs hr' hopen halike
        cases (Db.insertClaim_free hinsert).symm.trans hbusy

/-! ### What the holder of the lock has seen -/

/-- What a look-up found stood already before its last event, or is that event. -/
theorem Looked.before {K : History (Api L) → Prop} {txid : String} {vout : Nat}
    {e : Event (Api L)} (hl : Looked C K txid vout point (e :: hist)) :
    (C.parseTxid txid = some point.txid ∧ UInt32.ofNat vout = point.vout ∧
      ∃ coin, e = ⟨.getTxOut txid vout, .ok (some coin)⟩ ∧ K hist) ∨
    Plainly e ∧ Looked C K txid vout point hist := by
  obtain ⟨htxid, hvout, pass, coin, older, hhist, hplain, hK⟩ := hl
  cases pass with
  | nil =>
      obtain ⟨rfl, rfl⟩ := List.cons.inj hhist
      exact .inl ⟨htxid, hvout, coin, rfl, hK⟩
  | cons first pass =>
      obtain ⟨rfl, rfl⟩ := List.cons.inj hhist
      exact .inr ⟨hplain _ List.mem_cons_self, htxid, hvout, pass, coin, older, rfl,
        fun x hx => hplain x (List.mem_cons_of_mem _ hx), hK⟩

/-- Nothing has been looked up before the first event. -/
theorem Looked.not_nil {K : History (Api L) → Prop} {txid : String} {vout : Nat} :
    ¬ Looked C K txid vout point [] := by
  rintro ⟨-, -, pass, coin, older, hhist, -⟩
  simp at hhist

/-- What was known when the node reported is known still. -/
theorem Looked.known {txid : String} {vout : Nat}
    (hl : Looked C (Known C r) txid vout point hist) : Known C r hist := by
  obtain ⟨-, -, pass, coin, older, rfl, hplain, hk⟩ := hl
  have hreport : Known C r (⟨.getTxOut txid vout, .ok (some coin)⟩ :: older) := hk.after (.one rfl)
  exact hreport.after (still_of_plainly ⟨pass, rfl, hplain⟩)

/-- A look-up under the deposit lock still has the lock. -/
theorem Looked.held {txid : String} {vout : Nat}
    (hl : Looked C ((guards C).Held .deposits) txid vout point hist) :
    (guards C).Held .deposits hist := by
  obtain ⟨-, -, pass, coin, older, rfl, hplain, hheld⟩ := hl
  have hreport : (guards C).Held .deposits (⟨.getTxOut txid vout, .ok (some coin)⟩ :: older) :=
    hheld.cons nofun
  exact held_after hreport (still_of_plainly ⟨pass, rfl, hplain⟩)

/-- A look-up under a stronger condition is one under a weaker. -/
theorem Looked.mono {K K' : History (Api L) → Prop} {txid : String} {vout : Nat}
    (hl : Looked C K txid vout point hist) (hK : ∀ h, K h → K' h) :
    Looked C K' txid vout point hist := by
  obtain ⟨htxid, hvout, pass, coin, older, hhist, hplain, hk⟩ := hl
  exact ⟨htxid, hvout, pass, coin, older, hhist, hplain, hK _ hk⟩

/-- A plain call enters no claim. -/
theorem Plainly.not_insertClaim {e : Event (Api L)} (he : Plainly e) (r : DepositClaim L) :
    e ≠ ⟨.db (.insertClaim r), .ok ()⟩ := by
  rintro rfl
  cases he

/-- The output of a fixed claim, once the node has taken or shown confirmed what spends it. -/
def RecoveredFixed (s : Config (machine C)) (point : OutPoint) : Prop :=
  SpentIn s.trace point ∧ ∃ y ∈ s.world.db.fixed.rows, y.2.plan.spends = some [point]

/-- The output of an instant claim that is done. -/
def RecoveredInstant (s : Config (machine C)) (point : OutPoint) : Prop :=
  ∃ r ∈ s.world.db.records, r.phase = .spendTxConfirmed ∧ r.plan.spends = some [point]

/-- The node does not report a recovered output unspent: that of a fixed claim not to a program that
is after the output of an open instant claim, that of an instant claim not to one that holds the
deposits lock. -/
def KeepsSpent (s : Config (machine C)) (m : Move (machine C)) : Prop :=
  ∀ t coin txid vout k hist point, m = .run t (.coin (some coin)) →
    s.thread t = some ⟨.call (.getTxOut txid vout) k, hist⟩ → Names C txid vout point →
    (∀ r, Known C r hist → r.phase ≠ .spendTxConfirmed → ¬ RecoveredFixed s point) ∧
    ((guards C).Held .deposits hist → ¬ RecoveredInstant s point)

/-- A look-up reports what was chosen. -/
theorem perform_coin {t : Nat} {txid : String} {vout : Nat} {coin : Coin} {ch : Choice}
    {w w' : World L} (h : perform t (.getTxOut txid vout) ch w = some (.ok (some coin), w')) :
    ch = .coin (some coin) := by
  cases ch with
  | coin found =>
      obtain ⟨hreply, -⟩ := Prod.mk.inj (Option.some.inj h)
      rw [Except.ok.inj hreply]
  | fail e => cases (Prod.mk.inj (Option.some.inj h)).1
  | _ => simp [perform] at h

/-- The move of a call that reports an output. -/
theorem Called.coin {t : Nat} {txid : String} {vout : Nat} {coin : Coin}
    (hc : Called s s' t (.getTxOut txid vout) hist (.ok (some coin))) (hst : s.step m = some s') :
    m = .run t (.coin (some coin)) := by
  rcases Config.step_cases hst with ⟨r, -, rfl⟩ | ⟨u, ch, c, k, h, reply, w, rfl, -, hp, rfl⟩ |
    ⟨u, th, -, -, rfl⟩ | ⟨-, rfl⟩ | ⟨n, w, -, ho, rfl⟩
  · exact absurd hc.trace.symm (List.cons_ne_self _ _)
  · obtain ⟨rfl, he⟩ := hc.event rfl
    injection he with hcall hreply
    subst hcall
    obtain rfl := eq_of_heq hreply
    rw [perform_coin (t := u) hp]
  · exact absurd hc.trace.symm (List.cons_ne_self _ _)
  · exact absurd hc.trace.symm (List.cons_ne_self _ _)
  · exact absurd hc.trace.symm (List.cons_ne_self _ _)

/-- What the condition says of a look-up that has just been answered. -/
theorem Called.keepsSpent {t : Nat} {c : Call L} {reply : c.Reply}
    (hc : Called s s' t c hist reply) (hst : s.step m = some s') (hm : KeepsSpent s m)
    (hn : Constant C O s'.trace) {txid : String} {vout : Nat} {coin : Coin}
    (htxid : C.parseTxid txid = some point.txid) (hvout : UInt32.ofNat vout = point.vout)
    (he : (⟨c, reply⟩ : Event (Api L)) = ⟨.getTxOut txid vout, .ok (some coin)⟩) :
    (∀ r, Known C r hist → r.phase ≠ .spendTxConfirmed → ¬ RecoveredFixed s point) ∧
      ((guards C).Held .deposits hist → ¬ RecoveredInstant s point) := by
  have hmem : (t, (⟨.getTxOut txid vout, .ok (some coin)⟩ : Event (Api L))) ∈ s'.trace := by
    rw [hc.trace, he]
    exact List.mem_cons_self
  injection he with hcall hreply
  subst hcall
  obtain rfl := eq_of_heq hreply
  obtain ⟨k, hth⟩ := hc.thread
  exact hm t coin txid vout k hist point (hc.coin hst) hth (hn.names hmem htxid hvout)

/-- A program that tends an open instant claim and has just seen an output for it unspent: no fixed
claim is backed by that output. -/
theorem ahead (hC : C.Texts) (hok : ∀ s m, ok s m → KeepsSpent s m) (hs : Reach ok s)
    (hn : Constant C O s.trace) :
    ∀ t th, s.thread t = some th → ∀ r txid vout point,
      Looked C (Known C r) txid vout point th.history → r.phase ≠ .spendTxConfirmed →
      Pays C O r.quote.deposit point →
      ∀ y ∈ s.world.db.fixed.rows, y.2.plan.spends ≠ some [point] := by
  refine constant_invariant (J := fun s : Config (machine C) => ∀ t th, s.thread t = some th →
    ∀ r txid vout point, Looked C (Known C r) txid vout point th.history →
      r.phase ≠ .spendTxConfirmed → Pays C O r.quote.deposit point →
      ∀ y ∈ s.world.db.fixed.rows, y.2.plan.spends ≠ some [point]) ?_ ?_ hs hn
  · intro t th hth
    cases hth
  · intro s s' m hs hn ih hm hst hs' hn' u th hu r txid vout point hl hopen hpays y hy hspends
    -- two quotes for one output are alike
    have halike : ∀ trace old, FixedBacked C O trace old → old.plan.spends = some [point] →
        Alike old.quote r.quote.deposit := by
      intro trace old hold hspends
      obtain ⟨point', hquoted, hspends', -⟩ := hold.output
      obtain rfl := StaticPlan.spends_unique hspends hspends'
      exact hquoted.toPays.same hpays
    rcases step_called hst with hidle | ⟨t, c, hist, reply, hc⟩
    · rcases hidle.threads u th hu with hold | hnil
      · rw [hidle.db] at hy
        exact ih u th hold r txid vout point hl hopen hpays y hy hspends
      · rw [hnil] at hl
        exact hl.not_nil
    · rcases hc.threads u th hu with ⟨rfl, hhist⟩ | ⟨-, hold⟩
      · rw [hhist] at hl
        obtain ⟨k, hth⟩ := hc.thread
        rcases hl.before with ⟨htxid, hvout, coin, he, hk⟩ | ⟨hplain, hl⟩
        · -- the node has just reported the output
          rcases (step_fixed hs hst).origin hy with ⟨old, hold, hsame⟩ | ⟨_, _, _, _, htrace, _⟩
          · rw [hsame.plan] at hspends
            have hlike := halike _ old ((fixed_claims hC hs hn).stored _ hold) hspends
            exact (hc.keepsSpent hst (hok s m hm) hn' htxid hvout he).1 r hk hopen
              ⟨reserved hC hs hn r (hc.known hs hk) hopen _ hold hlike point hspends, _, hold,
                hspends⟩
          · cases he.symm.trans (hc.event htrace).2.symm
        · rcases (step_fixed hs hst).origin hy with ⟨old, hold, hsame⟩ | ⟨_, _, _, _, htrace, _⟩
          · rw [hsame.plan] at hspends
            exact ih u _ hth r txid vout point hl hopen hpays _ hold hspends
          · exact hplain.not_insertClaim y.2 (hc.event htrace).2.symm
      · rcases (step_fixed hs hst).origin hy with ⟨old, hmem, hsame⟩ | ⟨_, _, _, _, htrace, _⟩
        · rw [hsame.plan] at hspends
          exact ih u th hold r txid vout point hl hopen hpays _ hmem hspends
        · -- the instant claim is stored and open: it lets no such claim in
          have hinsert := hc.insertClaim (hc.event htrace).2
          have hlike := halike _ y.2 ((fixed_claims hC hs' hn').stored y hy) hspends
          have hbusy := reservedForInstant_alike hs (known_stored hs hold hl.known) hopen hlike
          cases (Db.insertClaim_free hinsert).symm.trans hbusy

/-- A program that holds the lock and has just seen an output unspent: no recovery of an instant
claim that spends it is done. -/
theorem clear (hok : ∀ s m, ok s m → KeepsSpent s m) (hs : Reach ok s)
    (hn : Constant C O s.trace) :
    ∀ t th, s.thread t = some th → ∀ txid vout point,
      Looked C ((guards C).Held .deposits) txid vout point th.history →
      ∀ r ∈ s.world.db.records, r.phase = .spendTxConfirmed → r.plan.spends ≠ some [point] := by
  refine constant_invariant (J := fun s : Config (machine C) => ∀ t th, s.thread t = some th →
    ∀ txid vout point, Looked C ((guards C).Held .deposits) txid vout point th.history →
    ∀ r ∈ s.world.db.records, r.phase = .spendTxConfirmed → r.plan.spends ≠ some [point]) ?_ ?_
    hs hn
  · intro t th hth
    cases hth
  · intro s s' m hs hn ih hm hst _ hn' u th hu txid vout point hl r hr hdone hspends
    rcases step_called hst with hidle | ⟨t, c, hist, reply, hc⟩
    · rcases hidle.threads u th hu with hold | hnil
      · rw [hidle.db] at hr
        exact ih u th hold txid vout point hl r hr hdone hspends
      · rw [hnil] at hl
        exact hl.not_nil
    · rcases (step_ledger hs hst).origin hr with hold | ⟨_, _, _, _, _, -, -, hfresh⟩ |
        ⟨v, k, h, old, hth, htrace, -, ha⟩
      · rcases hc.threads u th hu with ⟨rfl, hhist⟩ | ⟨-, hthread⟩
        · rw [hhist] at hl
          obtain ⟨k, hth⟩ := hc.thread
          rcases hl.before with ⟨htxid, hvout, coin, he, hheld⟩ | ⟨-, hl⟩
          · exact (hc.keepsSpent hst (hok s m hm) hn' htxid hvout he).2 hheld
              ⟨r, hold, hdone, hspends⟩
          · exact ih u _ hth txid vout point hl r hold hdone hspends
        · exact ih u th hthread txid vout point hl r hold hdone hspends
      · rw [hfresh.phase] at hdone
        cases hdone
      · obtain ⟨rfl, he⟩ := hc.event htrace
        rcases hc.threads u th hu with ⟨rfl, hhist⟩ | ⟨hne, hthread⟩
        · -- the holder itself has written no claim
          rw [hhist, ← he] at hl
          rcases hl.before with ⟨-, -, coin, he, -⟩ | ⟨hplain, -⟩
          · cases he
          · cases hplain
        · obtain ⟨r₀, hk, -⟩ : ∃ r₀, Known C r₀ h ∧ Advance C r₀ h r :=
            hs.justified handler_lawful hth
          exact hne (hl.held.unique hs hthread hth hk.locked)

/-! ### One claim for one output -/

/-- The constraint on the outputs of fixed claims. -/
theorem fixed_unique (hC : C.Texts) (hs : Reach ok s) (hn : Constant C O s.trace)
    {y y' : String × DepositClaim L} (hy : y ∈ s.world.db.fixed.rows)
    (hy' : y' ∈ s.world.db.fixed.rows) (hspends : y.2.plan.spends = some [point])
    (hspends' : y'.2.plan.spends = some [point]) : y = y' := by
  have hkey : ∀ y ∈ s.world.db.fixed.rows, y.2.plan.spends = some [point] →
      ∃ row ∈ s.world.db.claims.val, (row.id, row.data) = y ∧
        (row.txid, row.vout) = (C.printTxid point.txid, point.vout) := by
    intro y hy hspends
    obtain ⟨point', hquoted, hspends', -⟩ := ((fixed_claims hC hs hn).stored y hy).output
    obtain rfl := StaticPlan.spends_unique hspends hspends'
    obtain ⟨row, hrow, rfl⟩ := Db.mem_fixed.mp hy
    have hof := fixed_row_of hs row hrow
    have htxid : row.txid = row.data.quote.txid := congrArg (fun row => row.txid) hof
    have hvout : row.vout = row.data.quote.vout := congrArg (fun row => row.vout) hof
    exact ⟨row, hrow, rfl, Prod.ext (htxid.trans hquoted.txid) (hvout.trans hquoted.vout)⟩
  obtain ⟨row, hrow, rfl, hrowKey⟩ := hkey y hy hspends
  obtain ⟨row', hrow', rfl, hrowKey'⟩ := hkey y' hy' hspends'
  obtain rfl : row = row' :=
    List.inj_on_of_nodup_map s.world.db.claims.property.2 hrow hrow' (hrowKey.trans hrowKey'.symm)
  rfl

/-- Two open instant claims are not alike. -/
theorem open_unique (hs : Reach ok s) (hr : r ∈ s.world.db.records)
    (hr' : r' ∈ s.world.db.records) (hopen : r.phase ≠ .spendTxConfirmed)
    (hopen' : r'.phase ≠ .spendTxConfirmed)
    (halike : Alike r.quote.deposit r'.quote.deposit) : r = r' := by
  obtain ⟨row, hrow, rfl⟩ := Db.mem_records.mp hr
  obtain ⟨row', hrow', rfl⟩ := Db.mem_records.mp hr'
  have hof := (mem_instants hs hrow).1
  have hof' := (mem_instants hs hrow').1
  have htracked : ∀ row : InstantRow L, row.bare = .of row.data →
      row.data.phase ≠ .spendTxConfirmed → row.tracked = true := by
    intro row hof hopen
    have hphase : row.phase = row.data.phase := congrArg (fun row => row.phase) hof
    rw [← hphase] at hopen
    exact decide_eq_true hopen
  have hkey : ∀ row : InstantRow L, row.bare = .of row.data → (row.address, row.value) =
      (row.data.quote.deposit.address, row.data.quote.deposit.credit + row.data.quote.deposit.fee) :=
    fun row hof => Prod.ext (congrArg (fun row => row.address) hof)
      (congrArg (fun row => row.value) hof)
  obtain ⟨-, -, -, houtputs, -⟩ := s.world.db.instants.property
  have hsame : (row.address, row.value) = (row'.address, row'.value) := by
    rw [hkey row hof, hkey row' hof', halike.1, halike.2]
  rw [tracked_unique houtputs hrow hrow' (htracked row hof hopen) (htracked row' hof' hopen') hsame]

/-- A frozen plan was frozen before, or has just been given the output that was found. -/
theorem frozen_before (hs : Reach ok s) (hst : s.step m = some s')
    (hr' : r' ∈ s'.world.db.records) (hfrozen : r'.Frozen) :
    (∃ r ∈ s.world.db.records, r.id = r'.id ∧ r.Frozen ∧ r.plan = r'.plan) ∨
    ∃ t, ∃ k : Except String Unit → Prog (Api L) Unit, ∃ hist r point,
      s.thread t = some ⟨.call (.db (.saveInstant r')) k, hist⟩ ∧
      s'.trace = (t, ⟨.db (.saveInstant r'), .ok ()⟩) :: s.trace ∧ r ∈ s.world.db.records ∧
      r.id = r'.id ∧ r.phase = .transferCompleted ∧ Found C r point hist ∧
      ∃ request, freezeOutpoint C point r.plan.request = .ok request ∧
        r'.plan.spends = request.spends := by
  rcases (step_ledger hs hst).origin hr' with hold | ⟨_, _, _, _, _, -, -, hfresh⟩ |
    ⟨t, k, hist, r, hth, htrace, hr, ha⟩
  · exact .inl ⟨r', hold, rfl, hfrozen, rfl⟩
  · exact absurd hfresh.phase hfrozen.1
  · by_cases hbefore : r.Frozen
    · exact .inl ⟨r, hr, (advance_id ha).symm, hbefore, (advance_frozen ha hbefore).1.symm⟩
    · obtain ⟨r₁, hk, ht⟩ : ∃ r, Known C r hist ∧ Tends C r hist r' :=
        hs.justified handler_careful hth
      obtain rfl : r = r₁ := records_unique hs hr (known_stored hs hth hk)
        ((advance_id ha).symm.trans (tends_id ht))
      -- only the freeze makes a plan final
      have hphase : r'.phase = .recoveryPrepared := by
        cases ha with
        | paid hphase => exact absurd rfl hfrozen.2
        | scanned tip hphase hscan => exact absurd hphase hfrozen.2
        | prepared point request hphase hunspent hfreeze => rfl
        | signed spend hstill hopen => exact absurd hstill hbefore
        | settled confirmations hstill hopen hseen => exact absurd hstill hbefore
      have hcompleted := advance_freezes ha hphase
      cases ht with
      | kept r' hid hplan hsigned hkept =>
          rw [hcompleted] at hkept
          cases hkept hphase
      | frozen point request hfound hfreeze =>
          exact .inr ⟨t, k, hist, r, point, hth, htrace, hr, rfl, hcompleted, hfound, request,
            hfreeze, rfl⟩
      | signed spend hspend => cases hphase

/-- A frozen instant claim shares its output with no other claim. -/
def Alone (s : Config (machine C)) (r : InstantClaim L) (point : OutPoint) : Prop :=
  (∀ y ∈ s.world.db.fixed.rows, y.2.plan.spends ≠ some [point]) ∧
    ∀ r' ∈ s.world.db.records, r'.Frozen → r'.plan.spends = some [point] → r'.id = r.id

/-- A claim that is given its output now is alone with it: what is open is unlike it, and what is
done has spent another output. -/
theorem newly_alone (hC : C.Texts) (hok : ∀ s m, ok s m → KeepsSpent s m) (hs : Reach ok s)
    (hn : Constant C O s.trace) {t : Nat} {th : Thread (Api L)} (hth : s.thread t = some th) (hr : r ∈ s.world.db.records)
    (hphase : r.phase = .transferCompleted) {found : OutPoint}
    (hfound : Found C r found th.history) {request : SwapRequest L}
    (hfreeze : freezeOutpoint C found r.plan.request = .ok request)
    (hspends : request.spends = some [point]) : Alone s r point := by
  have hb := instant_claims hC hs hn r hr
  have hpays := hfound.pays hC hn (hs.history_mem t _ hth) hb.quoted
  obtain ⟨old, -, hold⟩ := hb.output
  obtain rfl : found = point := List.singleton_inj.mp
    (Option.some.inj ((freezeOutpoint_spends hfreeze hold).symm.trans hspends))
  have hopen : r.phase ≠ .spendTxConfirmed := by
    rw [hphase]
    exact nofun
  obtain ⟨txid, vout, hlooked, -⟩ := hfound
  refine ⟨ahead hC hok hs hn t _ hth r txid vout found hlooked hopen hpays, ?_⟩
  intro r₁ hr₁ _ hspends₁
  have hopen₁ : r₁.phase ≠ .spendTxConfirmed := fun hdone =>
    clear hok hs hn t _ hth txid vout found (hlooked.mono fun _ hk => hk.locked) r₁ hr₁ hdone
      hspends₁
  obtain ⟨point₁, hpays₁, hspends₁'⟩ := (instant_claims hC hs hn r₁ hr₁).output
  obtain rfl := StaticPlan.spends_unique hspends₁ hspends₁'
  rw [open_unique hs hr₁ hr hopen₁ hopen (hpays₁.same hpays)]

/-- A fixed claim is not entered for the output of an instant one: that one is open and refuses it,
or it is done and the output is spent. -/
theorem entered_apart (hC : C.Texts) (hok : ∀ s m, ok s m → KeepsSpent s m) (hs : Reach ok s)
    (hn : Constant C O s.trace) (hst : s.step m = some s') (hr : r ∈ s.world.db.records)
    (hspends : r.plan.spends = some [point]) {b : DepositClaim L} {t : Nat}
    {k : Except String Unit → Prog (Api L) Unit}
    (hth : s.thread t = some ⟨.call (.db (.insertClaim b)) k, hist⟩)
    (htrace : s'.trace = (t, ⟨.db (.insertClaim b), .ok ()⟩) :: s.trace)
    (hb : FixedBacked C O s'.trace b) : b.plan.spends ≠ some [point] := by
  intro hbspends
  obtain ⟨-, -, txid, vout, owner, seen, -, hlooked, hplanned⟩ :
    b.status = .inProgress ∧ b.signedSpend = none ∧ ∃ txid vout owner seen,
      (⟨.db (.depositQuote txid vout owner), .ok (some b.quote)⟩ : Event (Api L)) ∈ hist ∧
      Looked C ((guards C).Held .deposits) txid vout.toNat seen hist ∧
      b.plan.spends = some [seen] := hs.justified handler_careful hth
  obtain rfl := StaticPlan.spends_unique hbspends hplanned
  have hopen : r.phase ≠ .spendTxConfirmed := fun hdone =>
    clear hok hs hn t _ hth txid vout.toNat point hlooked r hr hdone hspends
  obtain ⟨point₁, hquoted, hspends₁, -⟩ := hb.output
  obtain rfl := StaticPlan.spends_unique hbspends hspends₁
  obtain ⟨point₂, hpays, hspends₂⟩ := (instant_claims hC hs hn r hr).output
  obtain rfl := StaticPlan.spends_unique hspends hspends₂
  rcases step_called hst with hidle | ⟨u, c, h, reply, hc⟩
  · rw [hidle.trace] at htrace
    exact absurd htrace.symm (List.cons_ne_self _ _)
  · have hinsert := hc.insertClaim (hc.event htrace).2
    have hbusy := reservedForInstant_alike hs hr hopen (hquoted.toPays.same hpays)
    cases (Db.insertClaim_free hinsert).symm.trans hbusy

/-- A frozen instant claim is alone on its outpoint: no other claim of either kind spends it. -/
theorem frozen_alone (hC : C.Texts) (hok : ∀ s m, ok s m → KeepsSpent s m) (hs : Reach ok s)
    (hn : Constant C O s.trace) :
    ∀ r ∈ s.world.db.records, r.Frozen → ∀ point, r.plan.spends = some [point] →
      Alone s r point := by
  refine constant_invariant (J := fun s : Config (machine C) => ∀ r ∈ s.world.db.records, r.Frozen →
    ∀ point, r.plan.spends = some [point] → Alone s r point) ?_ ?_ hs hn
  · intro r hr
    cases hr
  · intro s s' m hs hn ih _ hst hs' hn' r' hr' hfrozen point hspends
    rcases frozen_before hs hst hr' hfrozen with ⟨r, hr, hid, hbefore, hplan⟩ |
      ⟨t, k, hist, r, found, hth, htrace, hr, hid, hphase, hfound, request, hfreeze, hrequest⟩
    · rw [← hplan] at hspends
      obtain ⟨hfixed, hinstant⟩ := ih r hr hbefore point hspends
      refine ⟨fun y hy => ?_, fun r₁' hr₁' hfrozen₁ hspends₁ => ?_⟩
      · rcases (step_fixed hs hst).origin hy with ⟨old, hold, hsame⟩ | ⟨t, k, hist, hth, htrace, -⟩
        · rw [hsame.plan]
          exact hfixed _ hold
        · exact entered_apart hC hok hs hn hst hr hspends hth htrace
            ((fixed_claims hC hs' hn').stored y hy)
      · rcases frozen_before hs hst hr₁' hfrozen₁ with ⟨r₁, hr₁, hid₁, hbefore₁, hplan₁⟩ |
          ⟨t, k, hist, r₁, found, hth, -, hr₁, hid₁, hphase, hfound, request, hfreeze, hrequest⟩
        · rw [← hid, ← hid₁]
          exact hinstant r₁ hr₁ hbefore₁ (hplan₁ ▸ hspends₁)
        · rw [hrequest] at hspends₁
          have halone := newly_alone hC hok hs hn hth hr₁ hphase hfound hfreeze hspends₁
          rw [← hid, ← hid₁]
          exact (halone.2 r hr hbefore hspends).symm
    · rw [hrequest] at hspends
      obtain ⟨hfixed, hinstant⟩ := newly_alone hC hok hs hn hth hr hphase hfound hfreeze hspends
      refine ⟨fun y hy => ?_, fun r₁' hr₁' hfrozen₁ hspends₁ => ?_⟩
      · rcases (step_fixed hs hst).origin hy with ⟨old, hold, hsame⟩ | ⟨_, _, _, -, htrace', -⟩
        · rw [hsame.plan]
          exact hfixed _ hold
        · rw [htrace] at htrace'
          cases (List.cons.inj htrace').1
      · rcases frozen_before hs hst hr₁' hfrozen₁ with ⟨r₁, hr₁, hid₁, hbefore₁, hplan₁⟩ |
          ⟨_, _, _, _, _, -, htrace', -⟩
        · rw [← hid, ← hid₁]
          exact hinstant r₁ hr₁ hbefore₁ (hplan₁ ▸ hspends₁)
        · -- one move writes one claim
          rw [htrace] at htrace'
          injection (List.cons.inj htrace').1 with _ he
          injection he with hcall
          injection hcall with hq
          injection hq with hsame
          rw [hsame]

/-- The claim has been credited on the output: a fixed claim with its recovery, an instant claim once
its plan is frozen. -/
inductive Backs (db : Db L) : ClaimRef → OutPoint → Prop
  | fixed (id : String) (r : DepositClaim L) (points : List OutPoint) (point : OutPoint)
      (hr : (id, r) ∈ db.fixed.rows) (hspends : r.plan.spends = some points)
      (hmem : point ∈ points) : Backs db (.fixed id) point
  | instant (r : InstantClaim L) (points : List OutPoint) (point : OutPoint)
      (hr : r ∈ db.records) (hfrozen : r.Frozen) (hspends : r.plan.spends = some points)
      (hmem : point ∈ points) : Backs db (.instant r.id) point

/-- What a stored claim spends is one output. -/
theorem spends_mem {plan : StaticPlan L} {points : List OutPoint}
    (hone : ∃ point, plan.spends = some [point]) (hspends : plan.spends = some points)
    (hmem : point ∈ points) : plan.spends = some [point] := by
  obtain ⟨one, hone⟩ := hone
  obtain rfl : [one] = points := Option.some.inj (hone.symm.trans hspends)
  rw [hone, List.mem_singleton.mp hmem]

/-- While the node does not report recovered outputs unspent, no output backs two claims. -/
theorem backs_unique (hC : C.Texts) (hok : ∀ s m, ok s m → KeepsSpent s m) (hs : Reach ok s)
    (hn : Constant C O s.trace) {ref ref' : ClaimRef} (h : Backs s.world.db ref point)
    (h' : Backs s.world.db ref' point) : ref = ref' := by
  have hfixed : ∀ y ∈ s.world.db.fixed.rows, ∃ point, y.2.plan.spends = some [point] :=
    fun y hy => (((fixed_claims hC hs hn).stored y hy).output).imp fun _ h => h.2.1
  have hinstant : ∀ r ∈ s.world.db.records, ∃ point, r.plan.spends = some [point] :=
    fun r hr => (instant_claims hC hs hn r hr).output.imp fun _ h => h.2
  cases h with
  | fixed id r points _ hr hspends hmem =>
      have hr₁ := spends_mem (hfixed _ hr) hspends hmem
      cases h' with
      | fixed id' r' points' _ hr' hspends' hmem' =>
          have hr₂ := spends_mem (hfixed _ hr') hspends' hmem'
          rw [(Prod.mk.inj (fixed_unique hC hs hn hr hr' hr₁ hr₂)).1]
      | instant r' points' _ hr' hfrozen' hspends' hmem' =>
          have hr₂ := spends_mem (hinstant _ hr') hspends' hmem'
          exact absurd hr₁ ((frozen_alone hC hok hs hn r' hr' hfrozen' point hr₂).1 _ hr)
  | instant r points _ hr hfrozen hspends hmem =>
      have hr₁ := spends_mem (hinstant _ hr) hspends hmem
      have halone := frozen_alone hC hok hs hn r hr hfrozen point hr₁
      cases h' with
      | fixed id' r' points' _ hr' hspends' hmem' =>
          have hr₂ := spends_mem (hfixed _ hr') hspends' hmem'
          exact absurd hr₂ (halone.1 _ hr')
      | instant r' points' _ hr' hfrozen' hspends' hmem' =>
          have hr₂ := spends_mem (hinstant _ hr') hspends' hmem'
          rw [halone.2 r' hr' hfrozen' hr₂]

/-- An honest node reports no recovered output unspent. -/
theorem honest_keepsSpent (hC : C.Texts) (hs : Reach ok s) (hn : Honest C O s.trace) :
    Reach (KeepsSpent (C := C)) s := by
  induction hs with
  | start => exact .start
  | @step s s' m hs hm hst ih =>
      have hbefore : Honest C O s.trace := before_step Honest.tail hst hn
      refine .step (ih hbefore) ?_ hst
      rintro t coin txid vout k hist point rfl hth hname
      have hunspent : ¬ SpentIn s.trace point := by
        have hp : (machine C).perform t (.getTxOut txid vout) (.coin (some coin)) s.world =
          some (.ok (some coin), s.world) := rfl
        obtain rfl := Option.some.inj ((Config.step_run hth hp).symm.trans hst)
        exact hn.unspent (.coin txid vout coin hname)
      refine ⟨fun r _ _ h => hunspent h.1, ?_⟩
      rintro - ⟨r, hr, hphase, hspends⟩
      exact hunspent (confirmed_spent hC hs hbefore.constant hr hphase hspends)

/-- **No output backs two claims.**  The recovery of every stored claim spends one output, and so
does the transaction that was signed for it; two credited claims, fixed or instant, never spend the
same one.  The node is taken to report an output the same way each time, and not unspent after it
has accepted or shown confirmed what spends it; which claims are made, in which order their programs
run, where they stop, and everything else that is replied is arbitrary. -/
theorem one_claim_per_output (hC : C.Texts) (hs : Reach anyMove s) (hn : Honest C O s.trace) :
    (∀ y ∈ s.world.db.fixed.rows, ∃ point, y.2.plan.spends = some [point] ∧
      ∀ raw, y.2.signedSpend = some raw → inputsOf raw = some [point]) ∧
    (∀ r ∈ s.world.db.records, ∃ point, r.plan.spends = some [point] ∧
      ∀ raw, r.signedSpend = some raw → inputsOf raw = some [point]) ∧
    ∀ ref ref' point, Backs s.world.db ref point → Backs s.world.db ref' point → ref = ref' := by
  refine ⟨fun y hy => ?_, fun r hr => ?_, fun ref ref' point h h' => ?_⟩
  · have hb := (fixed_claims hC hs hn.constant).stored y hy
    obtain ⟨point, -, hspends, -⟩ := hb.output
    exact ⟨point, hspends, fun raw hraw => (hb.signs raw hraw).trans hspends⟩
  · have hb := instant_claims hC hs hn.constant r hr
    obtain ⟨point, -, hspends⟩ := hb.output
    exact ⟨point, hspends, fun raw hraw => (hb.signs raw hraw).trans hspends⟩
  · exact backs_unique hC (fun _ _ h => h) (honest_keepsSpent hC hs hn) hn.constant h h'

namespace Sample

/-- The outputs of the sample runs: all pay the same script, one of them more than the others. -/
def outputs : Outputs where
  script _ := "5120" ++ String.ofList (List.replicate 64 '0')
  value point := if point.txid.bytes = [0xbb] then 20000 else 10000

/-- The node reports the output of this event as it is. -/
def reportsTruly : Event (Api .sample) → Bool
  | ⟨.getTxOut txid vout, .ok (some coin)⟩ => vout < 2 ^ 32 && (hexDecode txid).all fun bytes =>
      coin.script.all (· == outputs.script ⟨⟨bytes⟩, UInt32.ofNat vout⟩) &&
        coin.value.toOption.all (· == outputs.value ⟨⟨bytes⟩, UInt32.ofNat vout⟩)
  | ⟨.getBlock _, .ok (some _)⟩ => false
  | _ => true

/-- The later event reports no output unspent that the earlier one shows spent. -/
def spentBefore (later earlier : Event (Api .sample)) : Bool :=
  match earlier, later with
  | ⟨.sendRecovery _ raw, .ok ()⟩, ⟨.getTxOut txid _, .ok (some _)⟩ =>
      ((inputsOf (L := .sample) raw).getD []).all fun point => hexDecode txid != some point.txid.bytes
  | ⟨.getTransaction .., .ok (some _)⟩, _ => false
  | _, _ => true

/-- The laws of the nodes, decided on a finite trace of the sample. -/
def honest (trace : List (Nat × Event (Api .sample))) : Bool :=
  trace.all (fun x => reportsTruly x.2) &&
    decide (trace.Pairwise fun later earlier => spentBefore later.2 earlier.2 = true)

/-- The sample's txids are read as hex. -/
theorem hexDecode_of_names {txid : String} {vout : Nat} {point : OutPoint}
    (h : Names instantService txid vout point) : hexDecode txid = some point.txid.bytes := by
  obtain ⟨bytes, hbytes, hid⟩ := Option.map_eq_some_iff.mp h.1
  rw [hbytes, ← hid]

/-- The decision is sound. -/
theorem honest_ok {trace : List (Nat × Event (Api .sample))} (h : honest trace = true) :
    Honest instantService outputs trace := by
  obtain ⟨htruly, hspent⟩ := Bool.and_eq_true_iff.mp h
  refine ⟨?_, ?_, ?_⟩
  · rintro x hx point script value hreports
    have htrue := List.all_eq_true.mp htruly x hx
    generalize x.2 = e at hreports htrue
    -- no block is read in the sample's run
    cases hreports with
    | coin txid vout coin hname =>
        obtain ⟨-, hsame⟩ := Bool.and_eq_true_iff.mp htrue
        rw [hexDecode_of_names hname, Option.all_some, hname.2, UInt32.ofNat_toNat] at hsame
        obtain ⟨hscript, hvalue⟩ := Bool.and_eq_true_iff.mp hsame
        constructor
        · rintro text htext
          rw [htext] at hscript
          exact beq_iff_eq.mp hscript
        · rintro sats hsats
          rw [hsats] at hvalue
          exact beq_iff_eq.mp hvalue
    | block hash txs tx outputs output txid vout htx houtputs hmem htxid hn hname => cases htrue
  · rintro x hx txid vout coin he
    have htrue := List.all_eq_true.mp htruly x hx
    rw [he] at htrue
    exact of_decide_eq_true (Bool.and_eq_true_iff.mp htrue).1
  · refine (of_decide_eq_true hspent).imp ?_
    rintro later earlier hapart point hspends hunspent
    generalize later.2 = l at hapart hunspent
    generalize earlier.2 = e at hapart hspends
    cases hunspent with
    | coin txid vout coin hname =>
        cases hspends with
        | sent claim raw points hraw hmem =>
            have hall := List.all_eq_true.mp hapart point (by rw [hraw]; exact hmem)
            rw [hexDecode_of_names hname] at hall
            exact absurd hall (by simp)
        | confirmed claim tx n hn hmem => cases hapart

/-- The sample's texts are the ones its service parses. -/
theorem texts : instantService.Texts where
  txid id := by
    show (hexDecode (hexEncode id.bytes)).map Txid.mk = some id
    rw [hexDecode_hexEncode]
    rfl
  script script := by
    show okOr "invalid script" (hexDecode (hexEncode script)) = .ok script
    rw [hexDecode_hexEncode]
    rfl

def largeCoin : Coin := { coin with value := .ok 20000 }

def largeOutput : OutputInput := { output with transactionId := some "bb" }

/-- Alice claims a confirmed deposit of 20000 sats, whose recovery is broadcast, and then an instant
one of 10000 sats, whose output is confirmed when the plan is frozen. -/
def fixedAndInstant : List (Move (machine instantService)) :=
  .spawn (Request.quote "02" largeOutput) ::
    instantCalls 0 [.done, .done, .coin (some largeCoin), .addresses [⟨"bcrt1p", [3], [4]⟩], .done,
      .estimate none, .done, .done, .done] ++
  .spawn (Request.claim "02" { largeOutput with
      quoteSignature := some "30", creditAmountSats := some 19901,
      requestType := some "FIXED_AMOUNT", encryptedDepositSecretKey := some "05",
      signature := some "06" }) ::
    instantCalls 1 [.done, .done, .done, .done, .coin (some largeCoin), .address (some "bcrt1q"),
      .uuid transferId, .leaves [], .bytes [], .nonce ⟨[], []⟩, .uuid claimId, .done,
      .swap signed, .bytes [], .done, .confirmations none, .done, .done, .done, .done] ++
  .spawn (Request.instantQuote "02" output) ::
    instantCalls 2 [.done, .done, .coin (some coin), .addresses [⟨"bcrt1p", [3], [4]⟩], .done, .done,
      .estimate none, .done, .number (some 100), .uuid quoteId, .done, .done, .done] ++
  .spawn (Request.instantClaim "02" ⟨some quoteId.print, none, some "05", some "06"⟩) ::
    instantCalls 3 [.done, .done, .done, .done, .done, .coin (some coin), .done,
      .address (some "bcrt1q"), .uuid transferId, .leaves [], .bytes [], .nonce ⟨[], []⟩,
      .uuid (Uuid.fill 4), .done, .swap ⟨some ⟨transferId.print, [1], [2], 9901⟩, none⟩, .done,
      .coin (some coin), .done]

/-- That run ends with a fixed claim and a frozen instant one, and its node is honest. -/
theorem fixedAndInstant_reached : ∃ s : Config (machine instantService), Reach anyMove s ∧
    Honest instantService outputs s.trace ∧ (∃ y, y ∈ s.world.db.fixed.rows) ∧
    ∃ r ∈ s.world.db.records, r.Frozen := by
  obtain ⟨s, hs, hp⟩ := Reach.exists_of_moves fixedAndInstant (fun s =>
    honest s.trace && (!s.world.db.fixed.rows.isEmpty && s.world.db.records.any fun r =>
      r.phase == .recoveryPrepared)) (by decide +kernel)
  obtain ⟨hhonest, hp⟩ := Bool.and_eq_true_iff.mp hp
  obtain ⟨hsome, hany⟩ := Bool.and_eq_true_iff.mp hp
  obtain ⟨r, hr, hphase⟩ := List.any_eq_true.mp hany
  have hphase : r.phase = .recoveryPrepared := beq_iff_eq.mp hphase
  refine ⟨s, hs, honest_ok hhonest, List.exists_mem_of_ne_nil _ (by simpa using hsome), r, hr,
    ?_, ?_⟩
  · rw [hphase]
    exact nofun
  · rw [hphase]
    exact nofun

end Sample

/-- A fixed and an instant claim of one wallet, each on its own output. -/
theorem one_claim_per_output_two : ∃ (s : Config (machine Sample.instantService)) (id id' : String)
    (point point' : OutPoint), Reach anyMove s ∧ Backs s.world.db (.fixed id) point ∧
    Backs s.world.db (.instant id') point' ∧ point ≠ point' := by
  obtain ⟨s, hs, hn, ⟨y, hy⟩, r, hr, hfrozen⟩ := Sample.fixedAndInstant_reached
  obtain ⟨hfixed, hinstant, hone⟩ := one_claim_per_output Sample.texts hs hn
  obtain ⟨point, hspends, -⟩ := hfixed y hy
  obtain ⟨point', hspends', -⟩ := hinstant r hr
  have hbacks : Backs s.world.db (.fixed y.1) point :=
    .fixed y.1 y.2 [point] point hy hspends List.mem_cons_self
  have hbacks' : Backs s.world.db (.instant r.id) point' :=
    .instant r [point'] point' hr hfrozen hspends' List.mem_cons_self
  refine ⟨s, y.1, r.id, point, point', hs, hbacks, hbacks', ?_⟩
  rintro rfl
  cases hone _ _ point hbacks hbacks'

end OpenSsp.Deposit
