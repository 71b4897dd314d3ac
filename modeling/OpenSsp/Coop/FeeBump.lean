/-
OpenSsp/Coop/FeeBump.lean

Fee bumps: one child transaction for a payout, which spends its change (`cpfp_transaction`,
`CoopExitService::bump_fee`).

The child is stored before it is sent, in a table with one row for each exit whose rows are never
written again.  So every child that is sent, by whatever program and after whatever restart, is
the one of that row (`sent_stored`), and a later call reads its fee off the row.  The txid of what
the wallet has signed is compared with that of the child; that transactions of a run with one txid
differ in their signatures at most is assumed of the hash (`SignaturesOnly`).

Main result: `bump_fee_once`.
-/
import OpenSsp.Coop.Calls
import OpenSsp.Coop.Payout

namespace OpenSsp.Coop

open Interleave Bitcoin

variable {L : Library} {C : Service L}

/-! ### The price of a child -/

/-- The size the program computes with: that of the child before its fee is taken, and a
witness. -/
def childVbytes (L : Library) (parent : Bitcoin.Transaction) (change : TxOut)
    (destination : Script) : Nat :=
  L.vsize (transaction [⟨L.computeTxid parent, 2⟩] [⟨change.value, destination⟩]) + 28

/-- The child spends the change of its parent alone, within the budget and above the dust limit;
it pays for itself, and with its parent's fee for both. -/
structure PaysPackage (L : Library) (parent : Bitcoin.Transaction) (parentFee rate maxFee : Nat)
    (destination : Script) (child : Bitcoin.Transaction) (fee : Nat) (change : TxOut)
    (value : UInt64) : Prop where
  spent : parent.output[2]? = some change
  built : child = transaction [⟨L.computeTxid parent, 2⟩] [⟨value, destination⟩]
  total : value.toNat + fee = change.value.toNat
  budget : fee ≤ maxFee
  dust : L.minimalNonDust destination ≤ value.toNat
  package : rate * (L.vsize parent + childVbytes L parent change destination) ≤ parentFee + fee
  own : rate * childVbytes L parent change destination ≤ fee
  range : rate * (L.vsize parent + childVbytes L parent change destination) < 2 ^ 64

theorem cpfpTransaction_ok {parent child : Bitcoin.Transaction}
    {parentFee rate maxFee fee : Nat} {destination : Script}
    (h : cpfpTransaction L parent parentFee rate maxFee destination = .ok (child, fee)) :
    ∃ change value,
      PaysPackage L parent parentFee rate maxFee destination child fee change value := by
  unfold cpfpTransaction at h
  obtain ⟨change, hchange, h⟩ := bind_ok h
  obtain ⟨-, h⟩ := guard_ok h
  obtain ⟨packageFee, hpackage, h⟩ := bind_ok h
  obtain ⟨ownFee, hown, h⟩ := bind_ok h
  obtain ⟨hbudget, h⟩ := guard_ok h
  obtain ⟨hfunds, h⟩ := guard_ok h
  obtain ⟨hdust, h⟩ := guard_ok h
  obtain ⟨rfl, rfl⟩ := Prod.mk.inj (Except.ok.inj h)
  obtain ⟨hpackage, hrange⟩ := checkedMul_eq_some (okOr_eq_ok.mp hpackage)
  obtain ⟨hown, -⟩ := checkedMul_eq_some (okOr_eq_ok.mp hown)
  replace hbudget := Nat.not_lt.mp hbudget
  replace hfunds := Nat.not_lt.mp hfunds
  replace hdust := Nat.not_lt.mp hdust
  have hvalue : (UInt64.ofNat (change.value.toNat - max (packageFee - parentFee) ownFee)).toNat =
      change.value.toNat - max (packageFee - parentFee) ownFee := by
    apply UInt64.toNat_ofNat_of_lt'
    exact lt_of_le_of_lt (Nat.sub_le _ _) change.value.toNat_lt
  refine ⟨change, _, okOr_eq_ok.mp hchange, rfl, ?_, hbudget, ?_, ?_, ?_, hrange⟩
  · rw [hvalue]
    exact Nat.sub_add_cancel hfunds
  · rw [hvalue]
    exact hdust
  · -- what the parent has not paid is the first of the two amounts
    have hfirst := le_max_left (packageFee - parentFee) ownFee
    calc rate * (L.vsize parent + childVbytes L parent change destination)
        = packageFee := hpackage.symm
      _ ≤ parentFee + max (packageFee - parentFee) ownFee := by omega
  · calc rate * childVbytes L parent change destination
        = ownFee := hown.symm
      _ ≤ max (packageFee - parentFee) ownFee := le_max_right _ _

theorem validateSignedExit_txid {unsigned : Bitcoin.Transaction} {raw : L.Raw}
    (h : validateSignedExit unsigned raw = .ok ()) : ∃ signed, L.deserializeHex raw = .ok signed ∧
      L.computeTxid signed = L.computeTxid unsigned := by
  unfold validateSignedExit at h
  obtain ⟨signed, hsigned, h⟩ := bind_ok h
  obtain ⟨htxid, -⟩ := guard_ok h
  push Not at htxid
  exact ⟨signed, hsigned, htxid.1⟩

/-! ### The table of children -/

/-- The other statements write no children. -/
theorem Query.run_bumps {q : Query L} {now : Nat} {db : Db L}
    (hq : ∀ id raw rate, q ≠ .insertCoopExitBump id raw rate) :
    (q.run now db).2.bumps = db.bumps := by
  cases q with
  | insertCoopExitBump id raw rate => exact absurd rfl (hq id raw rate)
  | saveCoopQuote quote =>
      show (db.saveCoopQuote quote now).2.bumps = _
      unfold Db.saveCoopQuote
      simp only
      split
      · rfl
      · rfl
  | insertCoopExit record outpoint =>
      show (transact _ db).2.bumps = _
      rcases hins : db.insertCoopExit record outpoint with e | db'
      · rfl
      · unfold Db.insertCoopExit at hins
        obtain ⟨exit, -, hins⟩ := bind_ok hins
        obtain ⟨exits, -, hins⟩ := bind_ok hins
        obtain ⟨inputs₁, -, hins⟩ := bind_ok hins
        obtain ⟨inputs₂, -, hins⟩ := bind_ok hins
        obtain ⟨inputs₃, -, hins⟩ := bind_ok hins
        obtain ⟨requests, -, hins⟩ := bind_ok hins
        obtain rfl := Except.ok.inj hins
        rfl
  | insertTransfer sparkId requestId kind status owner =>
      show (transact _ db).2.bumps = _
      rcases hins : db.insertTransfer sparkId requestId kind status owner with e | db'
      · rfl
      · unfold Db.insertTransfer at hins
        split at hins
        · split at hins
          · obtain rfl := Except.ok.inj hins
            rfl
          · cases hins
        · obtain rfl := Except.ok.inj hins
          rfl
  | _ => rfl

theorem insertCoopExitBump_ok {id : String} {raw : L.Raw} {rate : Nat} {db db' : Db L}
    (h : db.insertCoopExitBump id raw rate = .ok db') :
    db'.bumps.rows = ⟨id, raw, rate⟩ :: db.bumps.rows := by
  obtain ⟨bumps, hins, h⟩ := bind_ok h
  obtain rfl := Except.ok.inj h
  exact insertRow_ok hins

/-- What a step does to the table of children. -/
theorem step_bumps {s s' : Config (machine C)} {m : Move (machine C)} (hst : s.step m = some s') :
    s'.world.db.bumps = s.world.db.bumps ∨ ∃ t id raw rate k hist,
      s.thread t = some ⟨.call (.db (.insertCoopExitBump id raw rate)) k, hist⟩ ∧
      s'.world.db.bumps.rows = ⟨id, raw, rate⟩ :: s.world.db.bumps.rows := by
  rcases Config.step_cases hst with ⟨q, -, rfl⟩ | ⟨t, ch, c, k, hist, r, w, -, hth, hp, rfl⟩ |
    ⟨t, th, -, -, rfl⟩ | ⟨-, rfl⟩ | ⟨o, w, -, ho, rfl⟩
  · exact .inl rfl
  · have hp : perform t c ch s.world = some (r, w) := hp
    -- only a query of the tables can add a bump
    by_cases hc : ∀ q, c ≠ .db q
    · exact .inl (congrArg Db.bumps (perform_other hp hc).db)
    · push Not at hc
      obtain ⟨q, rfl⟩ := hc
      rcases perform_db hp with ⟨-, rfl⟩ | ⟨-, rfl⟩
      · by_cases hq : ∀ id raw rate, q ≠ .insertCoopExitBump id raw rate
        · exact .inl (Query.run_bumps hq)
        · push Not at hq
          obtain ⟨id, raw, rate, rfl⟩ := hq
          -- the insert fails when the exit has one
          rcases hins : s.world.db.insertCoopExitBump id raw rate with e | db'
          · left
            show (transact _ s.world.db).2.bumps = _
            rw [hins]
            rfl
          · right
            refine ⟨t, id, raw, rate, k, hist, hth, ?_⟩
            show (transact _ s.world.db).2.bumps.rows = _
            rw [hins]
            exact insertCoopExitBump_ok hins
      · exact .inl rfl
  · exact .inl rfl
  · exact .inl rfl
  · left
    cases o with
    | tick n =>
        obtain rfl := Option.some.inj ho
        rfl
    | others requests transfers =>
        obtain rfl := Option.some.inj ho
        rfl

/-- Children stay in the table. -/
def BumpsGrow (w w' : World L) : Prop := ∀ row ∈ w.db.bumps.rows, row ∈ w'.db.bumps.rows

theorem step_bumpsGrow {s s' : Config (machine C)} {m : Move (machine C)}
    (hst : s.step m = some s') : BumpsGrow s.world s'.world := by
  intro row hrow
  rcases step_bumps hst with hsame | ⟨t, id, raw, rate, k, hist, -, hrows⟩
  · rw [hsame]
    exact hrow
  · rw [hrows]
    exact List.mem_cons_of_mem _ hrow

/-- A child that a program has read or stored is in the table from then on. -/
theorem stored_row {s : Config (machine C)} (hs : Reach anyMove s) {t : Nat} {id : String}
    {raw : L.Raw} {rate : Nat} {h : History (Api L)} (hstored : Stored h id raw rate)
    (hmem : ∀ e ∈ h, (t, e) ∈ s.trace) : ⟨id, raw, rate⟩ ∈ s.world.db.bumps.rows := by
  have happened : ∀ e, (t, e) ∈ s.trace → ∃ (h : History (Api L)) (s₀ s₁ : Config (machine C)),
      Moment anyMove t e h s₀ s₁ ∧ BumpsGrow s₁.world s.world :=
    hs.happened (fun _ _ hrow => hrow) (fun _ _ _ h h' row hrow => h' row (h row hrow))
      (fun _ _ _ _ _ hst => step_bumpsGrow hst) t
  rcases hstored with hread | hinserted
  · obtain ⟨h', s₀, s₁, hm, hgrow⟩ := happened _ (hmem _ hread)
    obtain ⟨hout, hdb⟩ := moment_ran hm
    apply hgrow
    rw [hdb]
    obtain ⟨row, hrow, hcolumns⟩ := Option.map_eq_some_iff.mp (Except.ok.inj hout)
    obtain ⟨rfl, rfl⟩ := Prod.mk.inj hcolumns
    have hkey : row.requestId = id := Table.key_of_get hrow
    rw [← hkey]
    exact Table.mem_of_get hrow
  · obtain ⟨h', s₀, s₁, hm, hgrow⟩ := happened _ (hmem _ hinserted)
    obtain ⟨hout, hdb⟩ := moment_ran hm
    apply hgrow
    rw [hdb]
    simp only [Query.run, transact] at hout ⊢
    split at hout
    · next db' hins =>
        rw [insertCoopExitBump_ok hins]
        exact List.mem_cons_self
    · cases hout

theorem coopExitBump_eq {db : Db L} {id : String} {raw : L.Raw} {rate : Nat}
    (hrow : ⟨id, raw, rate⟩ ∈ db.bumps.rows) : db.coopExitBump id = some (raw, rate) := by
  have hget := Table.mem_iff_get.mp hrow
  show (db.bumps.get id).map _ = _
  rw [hget]
  rfl

theorem mem_of_coopExitBump {db : Db L} {id : String} {raw : L.Raw} {rate : Nat}
    (h : db.coopExitBump id = some (raw, rate)) : ⟨id, raw, rate⟩ ∈ db.bumps.rows := by
  obtain ⟨row, hrow, hcolumns⟩ := Option.map_eq_some_iff.mp h
  obtain ⟨rfl, rfl⟩ := Prod.mk.inj hcolumns
  have hkey : row.requestId = id := Table.key_of_get hrow
  rw [← hkey]
  exact Table.mem_of_get hrow

/-- Every child that was ever sent is the one in the table. -/
theorem sent_stored {s : Config (machine C)} (hs : Reach anyMove s) {t : Nat} {id : String}
    {raw : L.Raw} {r : (Call.sendBump id raw).Reply}
    (he : (t, (⟨.sendBump id raw, r⟩ : Event (Api L))) ∈ s.trace) :
    ∃ rate, s.world.db.coopExitBump id = some (raw, rate) := by
  obtain ⟨h, s₀, s₁, hm, hmem⟩ := hs.knew t _ he
  obtain ⟨ch, k, hth, -⟩ := hm.made
  obtain ⟨rate, hstored⟩ : Known h (.sendBump id raw) := hm.reach.justified handler_known hth
  exact ⟨rate, coopExitBump_eq (stored_row hs hstored hmem)⟩

/-- Every child in the table was stored by a program that knew what it is. -/
theorem bump_known {s : Config (machine C)} (hs : Reach anyMove s) :
    ∀ row ∈ s.world.db.bumps.rows, ∃ t h, (∀ e ∈ h, (t, e) ∈ s.trace) ∧
      Known h (.db (.insertCoopExitBump row.requestId row.raw row.feeRate)) := by
  refine hs.invariant (J := fun s : Config (machine C) => ∀ row ∈ s.world.db.bumps.rows,
    ∃ t h, (∀ e ∈ h, (t, e) ∈ s.trace) ∧
      Known h (.db (.insertCoopExitBump row.requestId row.raw row.feeRate))) ?_ ?_
  · intro row hrow
    simp [Config.start, machine, Db.empty, Table.empty] at hrow
  · intro s s' m hr ih _ hst row hrow
    have hold : row ∈ s.world.db.bumps.rows → ∃ t h, (∀ e ∈ h, (t, e) ∈ s'.trace) ∧
        Known h (.db (.insertCoopExitBump row.requestId row.raw row.feeRate)) := by
      intro hrow
      obtain ⟨t, h, hmem, hknown⟩ := ih row hrow
      exact ⟨t, h, fun e he => Config.trace_grows hst (hmem e he), hknown⟩
    rcases step_bumps hst with hsame | ⟨t, id, raw, rate, k, hist, hth, hrows⟩
    · exact hold (hsame ▸ hrow)
    · rw [hrows] at hrow
      rcases List.mem_cons.mp hrow with rfl | hrow
      · refine ⟨t, hist, fun e he => ?_, hr.justified handler_known hth⟩
        exact Config.trace_grows hst (hr.history_mem t _ hth e he)
      · exact hold hrow

/-- The signed payout a fee bump has read is still the one of the exit. -/
theorem read_payout {s : Config (machine C)} (hs : Reach anyMove s) {t : Nat} {asked : String}
    {record : ExitRecord L} {signed : L.Raw} (hsigned : record.signedExit = some signed)
    (he : (t, DbOk (.coopExitById asked) record) ∈ s.trace) :
    record.id = asked ∧ ∃ row ∈ s.world.db.exits.rows, row.id = asked ∧
      row.data.signedExit = some signed := by
  obtain ⟨h, s₀, s₁, hm, hgrow⟩ := hs.happened (G := RowsGrow) RowsGrow.refl
    (fun _ _ _ => RowsGrow.trans) (fun _ _ _ hr _ hst => step_grow hr hst) t _ he
  obtain ⟨hout, hdb⟩ := moment_ran hm
  obtain ⟨row, hfound, rfl⟩ := Option.map_eq_some_iff.mp (okOr_eq_ok.mp hout)
  have hrow := List.mem_of_find?_eq_some hfound
  have hid : row.id = asked := by simpa using List.find?_some hfound
  have hagrees := agrees hm.reach row hrow
  obtain ⟨row', hrow', hid', hsame⟩ := hgrow row (by rw [hdb]; exact hrow)
  refine ⟨hagrees.id.symm.trans hid, row', hrow', hid'.trans hid, ?_⟩
  rw [hsame.signed (by rw [hsigned]; rfl), hsigned]

/-! ### Calls -/

/-- What the wallet signs in the run and keeps its txid keeps its inputs and outputs as well: the
txid commits to them. -/
def SignaturesOnly (s : Config (machine C)) : Prop :=
  ∀ t id child reply raw signed,
    (t, (⟨.signBump id child, .ok reply⟩ : Event (Api L))) ∈ s.trace → reply.hex = some raw →
    L.deserializeHex raw = .ok signed → L.computeTxid signed = L.computeTxid child →
    signed.input.map (·.previousOutput) = child.input.map (·.previousOutput) ∧
      signed.output = child.output

/-- The stored child of an exit: it spends the change of the signed payout, and nothing else. -/
structure ChildOf (db : Db L) (id : String) (raw : L.Raw) (parent child : Bitcoin.Transaction)
    (change payout : TxOut) : Prop where
  stored : ∃ rate, db.coopExitBump id = some (raw, rate)
  signed : ∃ row ∈ db.exits.rows, row.id = id ∧ ∃ signed, row.data.signedExit = some signed ∧
    L.deserializeHex signed = .ok parent
  decodes : L.deserializeHex raw = .ok child
  spends : child.input.map (·.previousOutput) = [⟨L.computeTxid parent, 2⟩]
  spent : parent.output[2]? = some change
  pays : child.output = [payout]
  le : payout.value ≤ change.value

/-- A fee bump that was called in the run and has come to its end with this answer. -/
def Returned (s : Config (machine C)) (id : String) (feeRate maxFeeSats : Nat)
    (answer : BumpResponse) : Prop :=
  ∃ (s₀ s₁ : Config (machine C)) (hist : History (Api L)), Reach anyMove s₀ ∧
    Later anyMove (s₀.spawn ((Request.bumpFee id feeRate maxFeeSats).handler C)) s₁ ∧
    s₁.thread s₀.threads.length = some ⟨.ret (), hist⟩ ∧
    (bumpFee (L := L) id feeRate maxFeeSats).run.After hist (.ret (.ok answer)) ∧
    Later anyMove s₁ s

/-- What was built, signed and stored. -/
theorem child_of_new {s : Config (machine C)} (hs : Reach anyMove s) (hwallet : SignaturesOnly s)
    {t : Nat} {h : History (Api L)} (hmem : ∀ e ∈ h, (t, e) ∈ s.trace) {asked : String}
    {record : ExitRecord L} (hread : DbOk (.coopExitById asked) record ∈ h)
    {parent unsigned : Bitcoin.Transaction} {rate maxFeeSats fee : Nat} {raw : L.Raw}
    (hnew : NewChild h record parent rate maxFeeSats unsigned fee raw)
    (hrow : ⟨record.id, raw, rate⟩ ∈ s.world.db.bumps.rows) :
    ∃ child change payout, ChildOf s.world.db record.id raw parent child change payout ∧
      L.computeTxid child = L.computeTxid unsigned ∧
      payout.value.toNat + fee = change.value.toNat := by
  obtain ⟨signed, hsigned, hparent⟩ := hnew.payout
  obtain ⟨destination, hbuilt⟩ := hnew.built
  obtain ⟨reply, hreply, hhex⟩ := hnew.signed
  obtain ⟨child, hchild, htxid⟩ := validateSignedExit_txid hnew.checked
  obtain ⟨hinputs, houtputs⟩ := hwallet t _ _ _ _ _ (hmem _ hreply) hhex hchild htxid
  obtain ⟨change, value, hpays⟩ := cpfpTransaction_ok hbuilt
  obtain ⟨rfl, row, hmine, hid, hsame⟩ := read_payout hs hsigned (hmem _ hread)
  rw [hpays.built] at hinputs houtputs
  have htotal := hpays.total
  refine ⟨child, change, ⟨value, destination⟩, ⟨⟨rate, coopExitBump_eq hrow⟩,
    ⟨row, hmine, hid, signed, hsame, hparent⟩, hchild, hinputs, hpays.spent, houtputs, ?_⟩, htxid,
    htotal⟩
  apply UInt64.le_iff_toNat_le.mpr
  show value.toNat ≤ change.value.toNat
  omega

/-- The child in the table is one. -/
theorem stored_child {s : Config (machine C)} (hs : Reach anyMove s) (hwallet : SignaturesOnly s)
    {id : String} {raw : L.Raw} {rate : Nat}
    (hstored : s.world.db.coopExitBump id = some (raw, rate)) :
    ∃ parent child change payout, ChildOf s.world.db id raw parent child change payout := by
  have hrow := mem_of_coopExitBump hstored
  obtain ⟨t, h, hmem, hknown⟩ := bump_known hs _ hrow
  obtain ⟨record, parent, unsigned, maxFeeSats, fee, rfl, ⟨asked, hread⟩, hnew⟩ := hknown
  obtain ⟨child, change, payout, hchild, -⟩ := child_of_new hs hwallet hmem hread hnew hrow
  exact ⟨parent, child, change, payout, hchild⟩

/-- A call that has succeeded answers for the child in the table. -/
theorem returned_child {s : Config (machine C)} (hs : Reach anyMove s) (hwallet : SignaturesOnly s)
    {id : String} {feeRate maxFeeSats : Nat} {answer : BumpResponse}
    (hret : Returned s id feeRate maxFeeSats answer) :
    answer.feeSats ≤ maxFeeSats ∧ ∃ raw parent child change payout,
      ChildOf s.world.db id raw parent child change payout ∧
      answer = ⟨L.computeTxid child, change.value.toNat - payout.value.toNat,
        L.computeTxid parent⟩ := by
  obtain ⟨s₀, s₁, hist, hs₀, hcall, hend, hafter, hlast⟩ := hret
  have hs₁ : Reach anyMove s₁ := Reach.later
    (hs₀.step (m := .spawn (.bumpFee id feeRate maxFeeSats)) trivial rfl) hcall
  have hmem : ∀ e ∈ hist, (s₀.threads.length, e) ∈ s.trace := by
    intro e he
    refine Reach.preserved (J := fun a : Config (machine C) =>
      (s₀.threads.length, e) ∈ a.trace) hs₁ hlast (fun _ _ _ _ _ hst => Config.trace_grows hst) ?_
    exact hs₁.history_mem _ _ hend e he
  have hdone := hafter.wp (bumpFee_known (L := L) id feeRate maxFeeSats []).wp
  obtain ⟨-, record, parent, child, hb⟩ := hdone
  rw [List.append_nil] at hb
  obtain ⟨signed, hsigned, hparent⟩ := hb.payout
  obtain ⟨rfl, row, hmine, hid, hsame⟩ := read_payout hs hsigned (hmem _ hb.read)
  obtain ⟨txid, feeSats, parentTxid⟩ := answer
  obtain rfl : parentTxid = _ := hb.parentTxid
  obtain rfl : txid = _ := hb.txid
  rcases hb.sent with hagain | hfirst
  · obtain ⟨raw, rate, hstored, hdecodes⟩ := hagain.stored
    obtain ⟨change, payout, hchange, hpayout, -, hfee⟩ := hagain.paid
    have hrow := stored_row hs (.inl hstored) fun e he => hmem e he
    obtain ⟨parent', child', change', payout', hchild⟩ :=
      stored_child hs hwallet (coopExitBump_eq hrow)
    -- the child and its parent are those the call has read
    obtain rfl : child' = child := Except.ok.inj (hchild.decodes.symm.trans hdecodes)
    obtain ⟨row', hrow', hid', signed', hsigned', hparent'⟩ := hchild.signed
    obtain rfl : row' = row := Table.eq_of_key hrow' hmine (hid'.trans hid.symm)
    rw [hsame] at hsigned'
    obtain rfl := Option.some.inj hsigned'
    obtain rfl : parent' = parent := Except.ok.inj (hparent'.symm.trans hparent)
    obtain rfl : change' = change := Option.some.inj (hchild.spent.symm.trans hchange)
    rw [hchild.pays] at hpayout
    obtain rfl : payout' = payout := Option.some.inj hpayout
    obtain rfl : feeSats = _ := hfee
    exact ⟨hagain.budget, raw, parent', child', change', payout', hchild, rfl⟩
  · obtain ⟨raw, rate, hstored, hnew⟩ := hfirst.stored
    have hrow := stored_row hs (.inr hstored) fun e he => hmem e he
    obtain ⟨destination, hbuilt⟩ := hnew.built
    obtain ⟨_, _, hpays⟩ := cpfpTransaction_ok hbuilt
    obtain ⟨final, change, payout, hchild, htxid, htotal⟩ :=
      child_of_new hs hwallet hmem hb.read hnew hrow
    refine ⟨hpays.budget, raw, parent, final, change, payout, hchild, ?_⟩
    have hfee : feeSats = change.value.toNat - payout.value.toNat := by
      show feeSats = _
      have htotal : payout.value.toNat + feeSats = change.value.toNat := htotal
      omega
    rw [htxid, hfee]

/-- **Fee bumps.**  A child that is built pays what it should: its output and its fee are the
change, the fee is within the budget, the output is above the dust limit, and the fees cover the
child and the package at the rate, without an overflow.  And in every run, whatever is called,
dropped, restarted or lost: every child that was ever sent for an exit is the one in the table, so
that there is one at most; it spends the change of the payout and nothing else; and every call that
succeeds answers with its txid and its fee, which is within the budget of that call. -/
theorem bump_fee_once {s : Config (machine C)} (hs : Reach anyMove s)
    (hwallet : SignaturesOnly s) :
    (∀ parent parentFee rate maxFee destination child fee,
      cpfpTransaction L parent parentFee rate maxFee destination = .ok (child, fee) →
      ∃ change value,
        PaysPackage L parent parentFee rate maxFee destination child fee change value) ∧
    (∀ t t' id raw raw' r r', (t, (⟨.sendBump id raw, r⟩ : Event (Api L))) ∈ s.trace →
      (t', (⟨.sendBump id raw', r'⟩ : Event (Api L))) ∈ s.trace → raw = raw') ∧
    (∀ t id raw r, (t, (⟨.sendBump id raw, r⟩ : Event (Api L))) ∈ s.trace →
      ∃ parent child change payout, ChildOf s.world.db id raw parent child change payout) ∧
    ∀ id feeRate maxFeeSats answer, Returned s id feeRate maxFeeSats answer →
      answer.feeSats ≤ maxFeeSats ∧ ∃ raw parent child change payout,
        ChildOf s.world.db id raw parent child change payout ∧
        answer = ⟨L.computeTxid child, change.value.toNat - payout.value.toNat,
          L.computeTxid parent⟩ := by
  refine ⟨fun _ _ _ _ _ _ _ h => cpfpTransaction_ok h, ?_, ?_, ?_⟩
  · intro t t' id raw raw' r r' he he'
    obtain ⟨rate, hrow⟩ := sent_stored hs he
    obtain ⟨rate', hrow'⟩ := sent_stored hs he'
    rw [hrow] at hrow'
    exact (Prod.mk.inj (Option.some.inj hrow')).1
  · intro t id raw r he
    obtain ⟨rate, hstored⟩ := sent_stored hs he
    exact stored_child hs hwallet hstored
  · exact fun id feeRate maxFeeSats answer hret => returned_child hs hwallet hret

/-! ### A concrete run -/

/-- The addresses of this wallet have SegWit scripts. -/
def segwit : Library :=
  { Library.sample with
    parseAddress := fun text => .ok ⟨text, 0x00 :: 0x14 :: List.replicate 20 0⟩ }

def segwitService : Service segwit where
  identity := ⟨"ssp"⟩
  parsePublicKey s := .ok ⟨s⟩
  regtest := true
  userFee := 0
  fingerprint request := request.userOutboundTransferExternalId.getD ""

namespace Sample

def bumpCalls (t : Nat) (chs : List (Choice segwit)) : List (Move (machine segwitService)) :=
  Move.runs t chs

def witnessed (tx : Bitcoin.Transaction) : Bitcoin.Transaction :=
  { tx with input := tx.input.map fun i => { i with witness := [[1]] } }

/-- The payout of 803 sats, with 8340 sats of change. -/
def segwitPayout : Bitcoin.Transaction :=
  let script := 0x00 :: 0x14 :: List.replicate 20 0
  transaction [⟨⟨[9]⟩, 0⟩] [⟨803, script⟩, ⟨660, script⟩, ⟨8340, script⟩]

/-- A child that takes 375 sats off the change. -/
def bumpChild : Bitcoin.Transaction :=
  transaction [⟨⟨[9, 3]⟩, 2⟩] [⟨7965, 0x00 :: 0x14 :: List.replicate 20 0⟩]

/-- Alice's withdrawal is paid out and bumped at 2 sat/vB.  The answer to the broadcast of the
child is lost and the process restarts; the worker sends the child again. -/
def bumped : List (Move (machine segwitService)) :=
  .spawn (Request.request "alice"
    { leafExternalIds := [leafId.print], withdrawalAddress := "bc1", exitSpeed := "FAST",
      withdrawAll := true, feeLeafExternalIds := none, feeQuoteId := none,
      idempotencyKey := some "key",
      userOutboundTransferExternalId := some transferId.print }) ::
  bumpCalls 0 [.done, .done, .done,
    .nodes nodes, .estimate none, .estimate none, .estimate none, .uuid exitId, .done, .done, .done,
    .done, .nodes nodes, .done, .unspent [coin],
    .address (some "ssp1"), .address (some "ssp2"), .address (some "ssp3"),
    .address (some "ssp4"), .uuid exitId, .done, .done, .done, .done, .done] ++
  .spawn (Request.complete "alice" transferId.print none) ::
  bumpCalls 1 [.done, .done, .transfer (some (transfer .senderKeyTweakPending)), .done,
    .sign ⟨true, some (witnessed segwitPayout)⟩, .done, .fail "unknown transaction", .done, .done,
    .done, .done, .done] ++
  .spawn (Request.bumpFee exitId.print 2 500) ::
  bumpCalls 2 [.done, .done, .confirmations (some 0), .done, .available true,
    .address (some "ssp5"), .sign ⟨true, some (witnessed bumpChild)⟩, .done,
    .fail "connection reset", .done] ++
  .crash :: .spawn Request.pass ::
  bumpCalls 3 [.done, .done, .confirmations (some 0), .done, .done, .done, .done, .done]

/-- The wallet has signed what it was asked to. -/
def signedAsAsked (s : Config (machine segwitService)) : Bool :=
  s.trace.all fun x => match x.2 with
    | ⟨.signBump _ child, .ok ⟨_, some signed⟩⟩ =>
        show Bool from decide ((show Bitcoin.Transaction from signed).input.map (·.previousOutput) =
          child.input.map (·.previousOutput)) &&
            decide ((show Bitcoin.Transaction from signed).output = child.output)
    | _ => true

theorem signedAsAsked_ok {s : Config (machine segwitService)} (h : signedAsAsked s = true) :
    SignaturesOnly s := by
  intro t id child reply raw signed he hhex hsigned _
  obtain ⟨complete, hex⟩ := reply
  obtain rfl : hex = some raw := hhex
  have htest := List.all_eq_true.mp h _ he
  obtain rfl : raw = signed := Except.ok.inj hsigned
  simpa using htest

/-- Program `t` has sent the child; `answered` when it was told so. -/
def sent (t : Nat) (answered : Bool) (s : Config (machine segwitService)) : Bool :=
  s.trace.any fun x => x.1 == t && match x.2 with
    | ⟨.sendBump id raw, r⟩ => id == exitId.print && r.isOk == answered &&
        decide ((show Bitcoin.Transaction from raw) = witnessed bumpChild)
    | _ => false

theorem sent_ok {t : Nat} {answered : Bool} {s : Config (machine segwitService)}
    (h : sent t answered s = true) : ∃ r : (Call.sendBump exitId.print (L := segwit)
      (witnessed bumpChild)).Reply, r.isOk = answered ∧
      (t, (⟨.sendBump exitId.print (witnessed bumpChild), r⟩ : Event (Api segwit))) ∈ s.trace := by
  obtain ⟨⟨u, c, r⟩, hmem, htest⟩ := List.any_eq_true.mp h
  simp only [Bool.and_eq_true, beq_iff_eq] at htest
  obtain ⟨rfl, htest⟩ := htest
  cases c with
  | sendBump id raw =>
      simp only [Bool.and_eq_true, beq_iff_eq, decide_eq_true_eq] at htest
      obtain ⟨⟨rfl, hanswer⟩, hraw⟩ := htest
      obtain rfl : raw = witnessed bumpChild := hraw
      exact ⟨r, hanswer, hmem⟩
  | _ => cases htest

end Sample

/-- A child whose broadcast was not answered is sent again by the worker. -/
theorem bump_fee_once_lost : ∃ s : Config (machine segwitService), Reach anyMove s ∧
    Sample.sent 2 false s = true ∧ Sample.sent 3 true s = true ∧
    ∃ parent child change payout, ChildOf s.world.db Sample.exitId.print
      (Sample.witnessed Sample.bumpChild) parent child change payout := by
  obtain ⟨s, hs, hp⟩ := Reach.exists_of_moves Sample.bumped
    (fun s => Sample.signedAsAsked s && Sample.sent 2 false s && Sample.sent 3 true s)
    (by decide +kernel)
  simp only [Bool.and_eq_true] at hp
  obtain ⟨⟨hsigned, hlost⟩, hagain⟩ := hp
  obtain ⟨r, -, hsent⟩ := Sample.sent_ok hlost
  refine ⟨s, hs, hlost, hagain, ?_⟩
  exact (bump_fee_once hs (Sample.signedAsAsked_ok hsigned)).2.2.1 _ _ _ _ hsent

end OpenSsp.Coop
