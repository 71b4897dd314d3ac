/-
OpenSsp/Coop/Payout.lean

The payouts of cooperative exits.

What has been signed stays known to the operators: a payout is signed only after they have
reported the user's transfer, and they go on reporting it (`signed_reported`).  So an exit whose
transfer they deny was never signed, and nobody signs it while the worker lets it expire
(`expired_unsigned`).  A stored signature is never replaced, and only the stored one is broadcast.

Main result: `payout_safety`.
-/
import OpenSsp.Coop.Run

namespace OpenSsp.Coop

open Interleave Bitcoin

variable {L : Library} {C : Service L}
  {ok : Config (machine C) → Move (machine C) → Prop}

/-! ### Records -/

/-- A stored signature is one of the recorded payout; an expired exit has none. -/
structure ExitRecord.Sound (record : ExitRecord L) : Prop where
  signed : ∀ raw, record.signedExit = some raw → ∃ exit,
    L.deserializeHex record.rawExit = .ok exit ∧ validateSignedExit exit raw = .ok ()
  expired : record.status = .expired → record.signedExit = none

/-- What a change leaves as it is. -/
structure ExitRecord.Same (base record : ExitRecord L) : Prop where
  transferId : record.transferId = base.transferId
  rawExit : record.rawExit = base.rawExit
  signed : base.signedExit.isSome → record.signedExit = base.signedExit

theorem ExitRecord.Same.refl (record : ExitRecord L) : record.Same record :=
  ⟨rfl, rfl, fun _ => rfl⟩

theorem ExitRecord.Same.trans {a b c : ExitRecord L} (h : a.Same b) (h' : b.Same c) : a.Same c := by
  refine ⟨h'.transferId.trans h.transferId, h'.rawExit.trans h.rawExit, fun ha => ?_⟩
  have hb := h.signed ha
  rw [h'.signed (hb ▸ ha), hb]

theorem Change.same {h : History (Api L)} {base record : ExitRecord L}
    (hc : Change C h base record) : base.Same record := by
  cases hc with
  | sign exit raw hnew hexit hraw => exact ⟨rfl, rfl, fun hs => by simp [hnew] at hs⟩
  | _ => exact ⟨rfl, rfl, fun _ => rfl⟩

theorem Change.sound {h : History (Api L)} {base record : ExitRecord L}
    (hc : Change C h base record) (hb : base.Sound) : record.Sound := by
  cases hc with
  | sign exit raw hnew hexit hraw =>
      refine ⟨fun raw' hr => ?_, by simp⟩
      obtain rfl : raw = raw' := Option.some.inj hr
      exact ⟨exit, hexit, hraw⟩
  | expire id hnew hid hnone => exact ⟨hb.signed, fun _ => hnew⟩
  | _ => exact ⟨hb.signed, by simp⟩

/-! ### Rows -/

/-- Every row is still there, with the same transfer and payout. -/
def RowsGrow (w w' : World L) : Prop :=
  ∀ row ∈ w.db.exits.rows, ∃ row' ∈ w'.db.exits.rows, row'.id = row.id ∧ row.data.Same row'.data

theorem RowsGrow.refl (w : World L) : RowsGrow w w := fun row hrow => ⟨row, hrow, rfl, .refl _⟩

theorem RowsGrow.trans {a b c : World L} (h : RowsGrow a b) (h' : RowsGrow b c) :
    RowsGrow a c := by
  intro row hrow
  obtain ⟨row₁, hrow₁, hid₁, hsame₁⟩ := h row hrow
  obtain ⟨row₂, hrow₂, hid₂, hsame₂⟩ := h' row₁ hrow₁
  exact ⟨row₂, hrow₂, hid₂.trans hid₁, hsame₁.trans hsame₂⟩

theorem SameExits.grow {w w' : World L} (h : SameExits w w') : RowsGrow w w' :=
  fun row hrow => ⟨row, h.1 ▸ hrow, rfl, .refl _⟩

theorem step_grow {s s' : Config (machine C)} {m : Move (machine C)} (hs : Reach ok s)
    (hst : s.step m = some s') : RowsGrow s.world s'.world := by
  intro old hold
  rcases written hs hst with hsame | ⟨record, outpoint, -, -, -, -, hins⟩ |
    ⟨t, hist, row, record, k, hth, hrow, hid, hlive, hchange, hupd⟩
  · exact hsame.grow old hold
  · obtain ⟨exit, -, hrows, -⟩ := Db.insertCoopExit_ok hins
    exact ⟨old, hrows ▸ List.mem_cons_of_mem _ hold, rfl, .refl _⟩
  · rw [hupd]
    by_cases he : old.id = record.id
    · obtain rfl : old = row := Table.eq_of_key hold hrow (he.trans hid.symm)
      exact ⟨_, Db.mem_updateCoopExit.mpr ⟨old, hold, .inl ⟨he, rfl⟩⟩, rfl, hchange.same⟩
    · exact ⟨old, Db.mem_updateCoopExit.mpr ⟨old, hold, .inr ⟨he, rfl⟩⟩, rfl, .refl _⟩

theorem sound {s : Config (machine C)} (hs : Reach ok s) :
    ∀ row ∈ s.world.db.exits.rows, row.data.Sound := by
  refine hs.invariant (J := fun s : Config (machine C) =>
    ∀ row ∈ s.world.db.exits.rows, row.data.Sound) ?_ ?_
  · intro row hrow
    simp [Config.start, machine, Db.empty, ExitTable.empty, Table.empty] at hrow
  · intro s s' m hr ih hm hst x hx
    rcases written hr hst with hsame | ⟨record, outpoint, -, hunsigned, -, -, hins⟩ |
      ⟨t, hist, row, record, k, hth, hrow, hid, hlive, hchange, hupd⟩
    · exact ih x (hsame.1 ▸ hx)
    · obtain ⟨exit, -, hrows, -⟩ := Db.insertCoopExit_ok hins
      rw [hrows] at hx
      rcases List.mem_cons.mp hx with rfl | hx
      · exact ⟨fun raw hr => by simp [hunsigned] at hr, fun _ => hunsigned⟩
      · exact ih x hx
    · rw [hupd] at hx
      obtain ⟨old, hold, ⟨he, rfl⟩ | ⟨-, rfl⟩⟩ := Db.mem_updateCoopExit.mp hx
      · exact hchange.sound (ih row hrow)
      · exact ih x hold

/-- A finished exit is not written any more. -/
theorem step_terminal {s s' : Config (machine C)} {m : Move (machine C)} (hs : Reach ok s)
    (hst : s.step m = some s') {x : ExitRow L} (hx : x ∈ s.world.db.exits.rows)
    (hterm : x.status.terminal = true) : x ∈ s'.world.db.exits.rows := by
  rcases written hs hst with hsame | ⟨record, outpoint, -, -, -, -, hins⟩ |
    ⟨t, hist, row, record, k, hth, hrow, hid, hlive, hchange, hupd⟩
  · exact hsame.1 ▸ hx
  · obtain ⟨exit, -, hrows, -⟩ := Db.insertCoopExit_ok hins
    exact hrows ▸ List.mem_cons_of_mem _ hx
  · rw [hupd]
    refine Db.mem_updateCoopExit.mpr ⟨x, hx, .inr ⟨fun he => ?_, rfl⟩⟩
    obtain rfl : x = row := Table.eq_of_key hx hrow (he.trans hid.symm)
    rw [(agrees hs x hx).status, hlive] at hterm
    simp at hterm

theorem terminal_kept {s s' : Config (machine C)} (hs : Reach ok s) (h : Later ok s s')
    {x : ExitRow L} (hx : x ∈ s.world.db.exits.rows) (hterm : x.status.terminal = true) :
    x ∈ s'.world.db.exits.rows :=
  Reach.preserved (J := fun s : Config (machine C) => x ∈ s.world.db.exits.rows) hs h
    (fun _ _ _ ha _ hst hmem => step_terminal ha hst hmem hterm) hx

/-! ### Signatures -/

/-- A step signs what its call says, and the operators forget nothing. -/
theorem step_signed {s s' : Config (machine C)} {m : Move (machine C)}
    (hst : s.step m = some s') : (∀ id ∈ s.world.reported, id ∈ s'.world.reported) ∧
      (s'.world.signed = s.world.signed ∨ ∃ t id raw k hist,
        s.thread t = some ⟨.call (.signPayout id raw) k, hist⟩ ∧
        s'.world.db = s.world.db ∧ s'.world.signed = id :: s.world.signed) := by
  rcases Config.step_cases hst with ⟨q, -, rfl⟩ | ⟨t, ch, c, k, hist, r, w, -, hth, hp, rfl⟩ |
    ⟨t, th, -, -, rfl⟩ | ⟨-, rfl⟩ | ⟨o, w, -, ho, rfl⟩
  · exact ⟨fun _ => id, .inl rfl⟩
  · have hp : perform t c ch s.world = some (r, w) := hp
    by_cases hc : ∀ q, c ≠ .db q
    · obtain ⟨hdb, hreported, hsigned⟩ := perform_other hp hc
      refine ⟨hreported, hsigned.imp_right ?_⟩
      rintro ⟨id, raw, rfl, hw⟩
      exact ⟨t, id, raw, k, hist, hth, hdb, hw⟩
    · push Not at hc
      obtain ⟨q, rfl⟩ := hc
      rcases perform_db hp with ⟨-, rfl⟩ | ⟨-, rfl⟩ <;> exact ⟨fun _ => id, .inl rfl⟩
  · exact ⟨fun _ => id, .inl rfl⟩
  · exact ⟨fun _ => id, .inl rfl⟩
  · obtain ⟨-, -, -, hreported, hsigned⟩ := outside_frame ho
    exact ⟨fun _ hid => hreported ▸ hid, .inl hsigned⟩

/-- A transfer a program has seen is one the operators report. -/
theorem seen_reported {s : Config (machine C)} (hs : Reach ok s) {t : Nat} {id : Uuid}
    {transfer : SparkTransfer}
    (he : (t, (⟨.queryTransfer id, .ok (some transfer)⟩ : Event (Api L))) ∈ s.trace) :
    id ∈ s.world.reported := by
  obtain ⟨h, s₀, s₁, hm, hgrow⟩ := hs.happened
    (G := fun w w' : World L => ∀ id ∈ w.reported, id ∈ w'.reported) (fun _ _ h => h)
    (fun _ _ _ h h' id hid => h' id (h id hid)) (fun _ _ _ _ _ hst => (step_signed hst).1) t _ he
  obtain ⟨ch, k, -, -, hp, -⟩ := hm.made
  have hp : perform t (.queryTransfer id) ch s₀.world = some (.ok (some transfer), s₁.world) := hp
  rcases perform_queryTransfer hp with ⟨hr, -⟩ | ⟨found, -, hw⟩ | ⟨⟨e, hr⟩, -⟩
  · simp at hr
  · refine hgrow id ?_
    rw [hw]
    exact List.mem_cons_self
  · simp at hr

/-- What is about to be signed is an exit that is not signed, and whose transfer is accepted. -/
theorem signs {s : Config (machine C)} (hs : Reach ok s) {t : Nat} {id : String} {raw : L.Raw}
    {k : (Call.signPayout id raw).Reply → Prog (Api L) Unit} {hist : History (Api L)}
    (hth : s.thread t = some ⟨.call (.signPayout id raw) k, hist⟩) :
    ∃ row ∈ s.world.db.exits.rows, row.id = id ∧ row.data.rawExit = raw ∧
      row.status.terminal = false ∧ Accepted C row.data (· ∈ hist) := by
  obtain ⟨hheld, hj⟩ := made_justified hs hth
  obtain ⟨base, hfresh, rfl, rfl, -, hlive, haccepted⟩ := hj (genuine hs hth)
  obtain ⟨row, hrow, hid, rfl⟩ := fresh_row hs hth hheld hfresh
  exact ⟨row, hrow, hid, rfl, by rwa [(agrees hs row hrow).status], haccepted⟩

/-- The operators report the transfer of every exit that was ever to be signed. -/
theorem signed_reported {s : Config (machine C)} (hs : Reach ok s) : ∀ id ∈ s.world.signed,
    ∃ row ∈ s.world.db.exits.rows, row.id = id ∧ ∃ transfer,
      TransferId.parse row.data.transferId = .ok transfer ∧ transfer ∈ s.world.reported := by
  refine hs.invariant (J := fun s : Config (machine C) => ∀ id ∈ s.world.signed,
    ∃ row ∈ s.world.db.exits.rows, row.id = id ∧ ∃ transfer,
      TransferId.parse row.data.transferId = .ok transfer ∧ transfer ∈ s.world.reported) ?_ ?_
  · intro id hid
    simp [Config.start, machine] at hid
  · intro s s' m hr ih hm hst id hid
    obtain ⟨hreported, hsigned⟩ := step_signed hst
    have hgrow := step_grow hr hst
    have hold : ∃ row ∈ s.world.db.exits.rows, row.id = id ∧ ∃ transfer,
        TransferId.parse row.data.transferId = .ok transfer ∧ transfer ∈ s.world.reported := by
      rcases hsigned with hw | ⟨t, id', raw, k, hist, hth, -, hw⟩
      · exact ih id (hw ▸ hid)
      · rw [hw] at hid
        rcases List.mem_cons.mp hid with rfl | hid
        · obtain ⟨row, hrow, hrid, -, -, transfer, found, hparse, hseen, -⟩ := signs hr hth
          exact ⟨row, hrow, hrid, transfer, hparse, seen_reported hr (hr.history_mem t _ hth _ hseen)⟩
        · exact ih id hid
    obtain ⟨row, hrow, hrid, transfer, hparse, htransfer⟩ := hold
    obtain ⟨row', hrow', hid', hsame⟩ := hgrow row hrow
    exact ⟨row', hrow', hid'.trans hrid, transfer, by rw [hsame.transferId, hparse],
      hreported _ htransfer⟩

/-- Without the lock nothing is signed. -/
theorem call_signed {s : Config (machine C)} (hs : Reach ok s) {t : Nat} {ch : Choice L}
    {c : Call L} {k : c.Reply → Prog (Api L) Unit} {h : History (Api L)} {r : c.Reply} {w : World L}
    (hth : s.thread t = some ⟨.call c k, h⟩) (hp : perform t c ch s.world = some (r, w))
    (hno : ¬ Holds h) : w.signed = s.world.signed := by
  have hj := made_justified hs hth
  by_cases hc : ∀ q, c ≠ .db q
  · rcases (perform_other hp hc).signed with hw | ⟨id, raw, rfl, -⟩
    · exact hw
    · exact absurd hj.1 hno
  · push Not at hc
    obtain ⟨q, rfl⟩ := hc
    rcases perform_db hp with ⟨-, rfl⟩ | ⟨-, rfl⟩ <;> rfl

/-- An exit whose transfer the operators have just denied was never to be signed. -/
theorem denied_unsigned {s : Config (machine C)} (hs : Reach ok s) {t : Nat} {th : Thread (Api L)}
    {row : ExitRow L} {transfer : Uuid} (hth : s.thread t = some th) (hheld : Holds th.history)
    (hrow : row ∈ s.world.db.exits.rows)
    (hparse : TransferId.parse row.data.transferId = .ok transfer)
    (hnone : th.history.head? = some ⟨.queryTransfer transfer, .ok none⟩) :
    row.id ∉ s.world.signed := by
  intro hsigned
  obtain ⟨newer, hnewer⟩ := List.head?_eq_some_iff.mp hnone
  obtain ⟨older, s₀, s₁, hm, hw, hgrow⟩ := (guards C).learned (l := .exits)
    (S := fun w w' : World L => w'.signed = w.signed ∧ RowsGrow w w') (q := fun _ => False)
    (fun w => ⟨rfl, .refl w⟩) (fun _ _ _ h h' => ⟨h'.1.trans h.1, h.2.trans h'.2⟩)
    (fun _ hf => hf.elim)
    (fun s t ch c k h r w hr hth _ hp hq =>
      ⟨call_signed hr hth hp (hq.resolve_left id), step_grow hr (Config.step_run hth hp)⟩)
    (fun _ w => ⟨rfl, .refl w⟩) (fun w => ⟨rfl, .refl w⟩)
    (fun _ _ _ ho => ⟨(outside_frame ho).2.2.2.2,
      SameExits.grow ⟨(outside_frame ho).1, (outside_frame ho).2.1⟩⟩)
    hs hth hheld (hnewer ▸ Since.here)
  obtain ⟨ch, k, -, -, hp, -⟩ := hm.made
  have hp : perform t (.queryTransfer transfer) ch s₀.world = some (.ok none, s₁.world) := hp
  obtain ⟨hdenied, hsame⟩ : transfer ∉ s₀.world.reported ∧ s₁.world = s₀.world := by
    rcases perform_queryTransfer hp with ⟨-, hno, hw⟩ | ⟨found, hr, -⟩ | ⟨⟨e, hr⟩, -⟩
    · exact ⟨hno, hw⟩
    · simp at hr
    · simp at hr
  -- it would have been reported before
  rw [hw, hsame] at hsigned
  obtain ⟨row₀, hrow₀, hid₀, transfer', hparse', hreported⟩ :=
    signed_reported hm.reach row.id hsigned
  obtain ⟨row₁, hrow₁, hid₁, hsame₁⟩ := hgrow row₀ (hsame ▸ hrow₀)
  obtain rfl : row₁ = row := Table.eq_of_key hrow₁ hrow (hid₁.trans hid₀)
  rw [hsame₁.transferId, hparse'] at hparse
  obtain rfl := Except.ok.inj hparse
  exact hdenied hreported

/-- An expired exit was never to be signed. -/
theorem expired_unsigned {s : Config (machine C)} (hs : Reach ok s) :
    ∀ row ∈ s.world.db.exits.rows, row.status = .expired → row.id ∉ s.world.signed := by
  refine hs.invariant (J := fun s : Config (machine C) => ∀ row ∈ s.world.db.exits.rows,
    row.status = .expired → row.id ∉ s.world.signed) ?_ ?_
  · intro row hrow
    simp [Config.start, machine, Db.empty, ExitTable.empty, Table.empty] at hrow
  · intro s s' m hr ih hm hst x hx hexpired
    rcases (step_signed hst).2 with hw | ⟨t, id, raw, k, hist, hth, hdb, hw⟩
    · rw [hw]
      rcases written hr hst with hsame | ⟨record, outpoint, -, -, hinitiated, -, hins⟩ |
        ⟨t, hist, row, record, k, hth, hrow, hid, hlive, hchange, hupd⟩
      · exact ih x (hsame.1 ▸ hx) hexpired
      · obtain ⟨exit, -, hrows, -⟩ := Db.insertCoopExit_ok hins
        rw [hrows] at hx
        rcases List.mem_cons.mp hx with rfl | hx
        · simp [hinitiated] at hexpired
        · exact ih x hx hexpired
      · rw [hupd] at hx
        obtain ⟨old, hmem, ⟨he, rfl⟩ | ⟨-, rfl⟩⟩ := Db.mem_updateCoopExit.mp hx
        · obtain rfl : old = row := Table.eq_of_key hmem hrow (he.trans hid.symm)
          cases hchange with
          | expire transfer hnew hparse hnone =>
              have hno : old.id ∉ s.world.signed :=
                denied_unsigned hr hth (made_justified hr hth).1 hrow hparse hnone
              exact hno
          | _ => simp at hexpired
        · exact ih x hmem hexpired
    · -- what is signed now is not expired
      rw [hdb] at hx
      rw [hw]
      intro hmem
      rcases List.mem_cons.mp hmem with he | hmem
      · obtain ⟨row, hrow, hid, -, hlive, -⟩ := signs hr hth
        obtain rfl : x = row := Table.eq_of_key hx hrow (he.trans hid.symm)
        rw [hexpired] at hlive
        simp [ExitStatus.terminal] at hlive
      · exact ih x hx hexpired hmem

/-! ### The trace -/

/-- Every signature that was asked for is on the list. -/
theorem asked_signed {s : Config (machine C)} (hs : Reach ok s) {t : Nat} {id : String}
    {raw : L.Raw} {r : (Call.signPayout id raw).Reply}
    (he : (t, (⟨.signPayout id raw, r⟩ : Event (Api L))) ∈ s.trace) : id ∈ s.world.signed := by
  obtain ⟨h, s₀, s₁, hm, hgrow⟩ := hs.happened
    (G := fun w w' : World L => ∀ id ∈ w.signed, id ∈ w'.signed) (fun _ _ h => h)
    (fun _ _ _ h h' id hid => h' id (h id hid)) (fun _ _ _ _ _ hst id hid => by
      rcases (step_signed hst).2 with hw | ⟨t, id', raw', k, hist, -, -, hw⟩
      · rwa [hw]
      · rw [hw]
        exact List.mem_cons_of_mem _ hid) t _ he
  obtain ⟨ch, k, -, -, hp, -⟩ := hm.made
  have hp : perform t (.signPayout id raw) ch s₀.world = some (r, s₁.world) := hp
  refine hgrow id ?_
  cases ch with
  | sign reply =>
      obtain ⟨-, hw⟩ := Prod.mk.inj (Option.some.inj hp)
      rw [← hw]
      exact List.mem_cons_self
  | fail e =>
      obtain ⟨-, hw⟩ := Prod.mk.inj (Option.some.inj hp)
      rw [← hw]
      exact List.mem_cons_self
  | _ => simp [perform] at hp

/-- What is about to be broadcast is the signature that is stored. -/
theorem broadcasts {s : Config (machine C)} (hs : Reach ok s) {t : Nat} {id : String}
    {raw : Option L.Raw} {k : (Call.sendPayout id raw).Reply → Prog (Api L) Unit}
    {hist : History (Api L)} (hth : s.thread t = some ⟨.call (.sendPayout id raw) k, hist⟩) :
    ∃ row ∈ s.world.db.exits.rows, row.id = id ∧ row.data.signedExit = raw ∧ raw.isSome := by
  obtain ⟨hheld, hj⟩ := made_justified hs hth
  obtain ⟨base, hfresh, rfl, rfl, hsigned⟩ := hj (genuine hs hth)
  obtain ⟨row, hrow, hid, rfl⟩ := fresh_row hs hth hheld hfresh
  exact ⟨row, hrow, hid, rfl, hsigned⟩

/-- What was broadcast for an exit is stored. -/
theorem broadcast_stored {s : Config (machine C)} (hs : Reach ok s) {t : Nat} {id : String}
    {raw : Option L.Raw} {r : (Call.sendPayout id raw).Reply}
    (he : (t, (⟨.sendPayout id raw, r⟩ : Event (Api L))) ∈ s.trace) :
    ∃ row ∈ s.world.db.exits.rows, row.id = id ∧ row.data.signedExit = raw ∧ raw.isSome := by
  obtain ⟨h, s₀, s₁, hm, hgrow⟩ := hs.happened (G := RowsGrow) RowsGrow.refl
    (fun _ _ _ => RowsGrow.trans) (fun _ _ _ hr _ hst => step_grow hr hst) t _ he
  obtain ⟨ch, k, hth, -, hp, -⟩ := hm.made
  obtain ⟨row, hrow, hid, rfl, hsome⟩ := broadcasts hm.reach hth
  obtain ⟨row₁, hrow₁, hid₁, hsame₁⟩ := step_grow hm.reach (Config.step_run hth hp) row hrow
  obtain ⟨row₂, hrow₂, hid₂, hsame₂⟩ := hgrow row₁ hrow₁
  exact ⟨row₂, hrow₂, by rw [hid₂, hid₁, hid], (hsame₁.trans hsame₂).signed hsome, hsome⟩

/-- An exit succeeds after its payout was confirmed and its leaves were claimed. -/
theorem succeeded_claimed {s : Config (machine C)} (hs : Reach ok s) :
    ∀ row ∈ s.world.db.exits.rows, row.status = .succeeded →
      ∃ t, Confirmed row.data (fun e => (t, e) ∈ s.trace) ∧
        Claimed C row.data fun e => (t, e) ∈ s.trace := by
  refine hs.invariant (J := fun s : Config (machine C) =>
    ∀ row ∈ s.world.db.exits.rows, row.status = .succeeded →
      ∃ t, Confirmed row.data (fun e => (t, e) ∈ s.trace) ∧
        Claimed C row.data fun e => (t, e) ∈ s.trace) ?_ ?_
  · intro row hrow
    simp [Config.start, machine, Db.empty, ExitTable.empty, Table.empty] at hrow
  · intro s s' m hr ih hm hst x hx hsucceeded
    have htrace : ∀ y ∈ s.trace, y ∈ s'.trace := fun y hy => Config.trace_grows hst hy
    have hold : x ∈ s.world.db.exits.rows → ∃ t,
        Confirmed x.data (fun e => (t, e) ∈ s'.trace) ∧
          Claimed C x.data fun e => (t, e) ∈ s'.trace := by
      intro hx
      obtain ⟨t, hconfirmed, hclaimed⟩ := ih x hx hsucceeded
      exact ⟨t, hconfirmed.mono fun _ => htrace _, hclaimed.mono fun _ => htrace _⟩
    -- a step leaves the table, inserts an exit that has not succeeded, or changes one row
    rcases written hr hst with hsame | ⟨record, outpoint, -, -, hinitiated, -, hins⟩ |
      ⟨t, hist, row, record, k, hth, hrow, hid, hlive, hchange, hupd⟩
    · exact hold (hsame.1 ▸ hx)
    · obtain ⟨exit, -, hrows, -⟩ := Db.insertCoopExit_ok hins
      rw [hrows] at hx
      rcases List.mem_cons.mp hx with rfl | hx
      · simp [hinitiated] at hsucceeded
      · exact hold hx
    · rw [hupd] at hx
      obtain ⟨old, hmem, ⟨he, rfl⟩ | ⟨-, rfl⟩⟩ := Db.mem_updateCoopExit.mp hx
      · have hseen : ∀ e ∈ hist, (t, e) ∈ s'.trace :=
          fun e he => htrace _ (hr.history_mem t _ hth e he)
        -- one change alone ends in success, and it is the program that saw the claim
        cases hchange with
        | succeed hsigned hconfirmed hclaimed =>
            exact ⟨t, Confirmed.mono hseen hconfirmed, Claimed.mono hseen hclaimed⟩
        | _ => simp at hsucceeded
      · exact hold hmem

/-- The stored signature is one of the recorded payout. -/
theorem ExitRecord.Sound.txid {record : ExitRecord L} (h : record.Sound) {raw : L.Raw}
    (hr : record.signedExit = some raw) : ∃ exit signed,
      L.deserializeHex record.rawExit = .ok exit ∧ L.deserializeHex raw = .ok signed ∧
      L.computeTxid signed = L.computeTxid exit := by
  obtain ⟨exit, hexit, hvalid⟩ := h.signed raw hr
  obtain ⟨signed, hsigned, hvalid⟩ := bind_ok hvalid
  refine ⟨exit, signed, hexit, hsigned, ?_⟩
  split at hvalid
  · simp [throw, throwThe, MonadExceptOf.throw] at hvalid
  · next hno =>
      push Not at hno
      exact hno.1

/-- **Payouts.**  In every reachable state, as long as the operators keep reporting a transfer
they have reported: a payout that is about to be signed belongs to an exit whose recorded payout it
is and whose transfer was accepted; a payout that is about to be broadcast is the signed
transaction that is stored, and has the id of the recorded payout; an exit that has expired was
never to be signed or broadcast, and never will be; an exit that has succeeded was confirmed and
claimed; and a finished exit never changes. -/
theorem payout_safety {s : Config (machine C)} (hs : Reach anyMove s) :
    (∀ t id raw k hist, s.thread t = some ⟨.call (.signPayout id raw) k, hist⟩ →
      ∃ row ∈ s.world.db.exits.rows, row.id = id ∧ row.data.rawExit = raw ∧
        Accepted C row.data (· ∈ hist)) ∧
    (∀ t id raw k hist, s.thread t = some ⟨.call (.sendPayout id raw) k, hist⟩ →
      ∃ row ∈ s.world.db.exits.rows, row.id = id ∧ ∃ stored exit signed,
        raw = some stored ∧ row.data.signedExit = some stored ∧
        L.deserializeHex row.data.rawExit = .ok exit ∧ L.deserializeHex stored = .ok signed ∧
        L.computeTxid signed = L.computeTxid exit) ∧
    (∀ row ∈ s.world.db.exits.rows, row.status = .expired → ∀ s', Later anyMove s s' →
      ∀ t e, (t, e) ∈ s'.trace → ∀ raw raw',
        e.call ≠ .signPayout row.id raw ∧ e.call ≠ .sendPayout row.id raw') ∧
    (∀ row ∈ s.world.db.exits.rows, row.status = .succeeded → ∃ t,
      Confirmed row.data (fun e => (t, e) ∈ s.trace) ∧
      Claimed C row.data fun e => (t, e) ∈ s.trace) ∧
    ∀ s', Later anyMove s s' → ∀ row ∈ s.world.db.exits.rows, row.status.terminal = true →
      row ∈ s'.world.db.exits.rows := by
  refine ⟨fun t id raw k hist hth => ?_, fun t id raw k hist hth => ?_,
    fun row hrow hexpired s' hl t e he raw raw' => ?_, succeeded_claimed hs,
    fun s' hl row hrow hterm => terminal_kept hs hl hrow hterm⟩
  · -- a payout is signed only for a transfer the operators have just confirmed
    obtain ⟨row, hrow, hid, hraw, -, haccepted⟩ := signs hs hth
    exact ⟨row, hrow, hid, hraw, haccepted⟩
  · obtain ⟨row, hrow, hid, rfl, hsome⟩ := broadcasts hs hth
    obtain ⟨stored, hstored⟩ := Option.isSome_iff_exists.mp hsome
    obtain ⟨exit, signed, hexit, hsigned, htxid⟩ := (sound hs row hrow).txid hstored
    exact ⟨row, hrow, hid, stored, exit, signed, hstored, hstored, hexit, hsigned, htxid⟩
  · -- an expired exit stays expired, and was never signed
    have hs' := hs.later hl
    have hrow' := terminal_kept hs hl hrow (by rw [hexpired]; rfl)
    obtain ⟨c, r⟩ := e
    constructor
    · rintro rfl
      exact expired_unsigned hs' row hrow' hexpired (asked_signed hs' he)
    · rintro rfl
      obtain ⟨stored, hstored, hid, hsigned, hsome⟩ := broadcast_stored hs' he
      obtain rfl : stored = row := Table.eq_of_key hstored hrow' hid
      have hnone := (sound hs' stored hrow').expired
        (by rw [← (agrees hs' stored hrow').status]; exact hexpired)
      rw [← hsigned, hnone] at hsome
      simp at hsome

/-! ### A concrete run -/

namespace Sample

def transfer (status : TransferStatus) : SparkTransfer where
  id := transferId
  senderIdentityPublicKey := ⟨"alice"⟩
  receiverIdentityPublicKey := ⟨"ssp"⟩
  transferType := .cooperativeExit
  status := status
  totalValue := 1000
  leaves :=
    let refund := transaction [⟨⟨[7]⟩, 0⟩, ⟨⟨[9, 3, 2]⟩, 0⟩] []
    [{ id := leafId.print, value := 1000, intermediateRefundTx := refund,
       intermediateDirectRefundTx := none, intermediateDirectFromCpfpRefundTx := some refund }]

/-- The payout with a signature. -/
def signed : Bitcoin.Transaction :=
  { payout with input := payout.input.map fun i => { i with witness := [[1]] } }

/-- Alice completes her withdrawal, and the worker settles it when it is confirmed. -/
def settled : List (Move (machine .sample)) :=
  requested ++
  .spawn (Request.complete "alice" transferId.print none) ::
  calls 1 [.done, .done, .transfer (some (transfer .senderKeyTweakPending)), .done,
    .sign ⟨true, some signed⟩, .done, .fail "unknown transaction", .done, .done, .done, .done,
    .done] ++
  .spawn Request.pass ::
  calls 2 [.done, .done, .confirmations (some 1), .done, .done,
    .transfer (some (transfer .senderKeyTweaked)), .done, .transfer (some (transfer .completed)),
    .done, .done, .done]

end Sample

/-- A withdrawal that has succeeded was confirmed and claimed. -/
theorem payout_safety_settled : ∃ s : Config (machine .sample), Reach anyMove s ∧
    ∃ row ∈ s.world.db.exits.rows, row.status = .succeeded ∧ ∃ t,
      Confirmed row.data (fun e => (t, e) ∈ s.trace) ∧
      Claimed .sample row.data fun e => (t, e) ∈ s.trace := by
  obtain ⟨s, hs, hp⟩ := Reach.exists_of_moves Sample.settled
    (fun s => s.world.db.exits.rows.any (·.status == .succeeded)) (by decide +kernel)
  obtain ⟨row, hrow, hst⟩ := List.any_eq_true.mp hp
  have hst : row.status = .succeeded := by simpa using hst
  exact ⟨s, hs, row, hrow, hst, (payout_safety hs).2.2.2.1 row hrow hst⟩

end OpenSsp.Coop
