/-
OpenSsp/Deposit/Ledger.lean

The instant claims as a list of records.

All columns of a row of `instant_claims` but the error text are those of the record that is stored
in it (`reach_rows`), so that the table is a list of records (`Db.records`).  A program that knows
a record under the lock knows the stored one (`known_stored`).  So a move does one of three things
to the list: nothing, a new claim, or one step of the recovery of one claim (`LedgerStep`).

Main results: `known_stored`, `reach_rows` and `step_ledger`.
-/
import OpenSsp.Deposit.Record

namespace OpenSsp.Deposit

open Interleave Bitcoin

variable {L : Library} {C : Service L}
variable {ok : Config (machine C) → Move (machine C) → Prop}

/-! ### The table as a list of records -/

/-- The row of a claim without an error. -/
def InstantRow.of (r : InstantClaim L) : InstantRow L where
  id := r.id
  quoteId := r.quote.id
  txid := r.quote.deposit.txid
  vout := r.quote.deposit.vout
  owner := r.quote.deposit.owner
  address := r.quote.deposit.address
  value := r.quote.deposit.credit + r.quote.deposit.fee
  credit := r.quote.deposit.credit
  phase := r.phase
  data := r
  lastError := none

/-- The row without the text of an error. -/
def InstantRow.bare (row : InstantRow L) : InstantRow L := { row with lastError := none }

def Db.bareInstants (db : Db L) : List (InstantRow L) := db.instants.val.map InstantRow.bare

def Db.records (db : Db L) : List (InstantClaim L) := db.instants.val.map (·.data)

variable {db db' : Db L} {r : InstantClaim L}

theorem Db.records_eq (db : Db L) : db.records = db.bareInstants.map (·.data) := by
  rw [records, bareInstants, List.map_map]
  rfl

theorem Db.mem_records : r ∈ db.records ↔ ∃ row ∈ db.instants.val, row.data = r := List.mem_map

theorem Db.bareInstants_insert {maxDeposit limit now : Nat}
    (h : db.insertInstant r maxDeposit limit now = .ok db') :
    db'.bareInstants = .of r :: db.bareInstants := by
  rw [bareInstants, (insertInstant_ok h).1, List.map_cons]
  rfl

/-- A write replaces the record in the row of the claim. -/
def InstantRow.write (r : InstantClaim L) (row : InstantRow L) : InstantRow L :=
  if row.id = r.id then { row with phase := r.phase, data := r } else row

theorem Db.bareInstants_save (h : db.saveInstant r = .ok db') :
    db'.bareInstants = db.bareInstants.map (InstantRow.write r) := by
  obtain ⟨instants, hinstants, h⟩ := bind_ok h
  obtain rfl := Except.ok.inj h
  show instants.val.map InstantRow.bare = _
  rw [store_ok hinstants, bareInstants, List.map_map, List.map_map]
  apply List.map_congr_left
  intro row _
  show InstantRow.bare (if row.id = r.id then row.save r else row) = InstantRow.write r row.bare
  by_cases hid : row.id = r.id
  · have hbare : row.bare.id = r.id := hid
    rw [if_pos hid, InstantRow.write, if_pos hbare]
    rfl
  · have hbare : row.bare.id ≠ r.id := hid
    rw [if_neg hid, InstantRow.write, if_neg hbare]

/-- The text of an error is not part of the ledger. -/
theorem Db.bareInstants_error {id error : String} (h : db.instantError id error = .ok db') :
    db'.bareInstants = db.bareInstants := by
  obtain ⟨instants, hinstants, h⟩ := bind_ok h
  obtain rfl := Except.ok.inj h
  show instants.val.map InstantRow.bare = _
  rw [store_ok hinstants, bareInstants, List.map_map]
  apply List.map_congr_left
  intro row _
  show InstantRow.bare (if row.id = id then { row with lastError := some error } else row) = _
  by_cases hid : row.id = id
  · rw [if_pos hid]
    rfl
  · rw [if_neg hid]

/-! ### What a call does -/

/-- What a call with its reply does to the instant claims. -/
inductive InstantWrite (e : Event (Api L)) (w w' : World L) : Prop
  | same (hrows : w'.db.bareInstants = w.db.bareInstants)
      (hinsert : ∀ r maxDeposit limit, e ≠ ⟨.db (.insertInstant r maxDeposit limit), .ok ()⟩)
      (hsave : ∀ r, e ≠ ⟨.db (.saveInstant r), .ok ()⟩)
  | inserted (r : InstantClaim L) (maxDeposit limit : Nat)
      (he : e = ⟨.db (.insertInstant r maxDeposit limit), .ok ()⟩)
      (h : w.db.insertInstant r maxDeposit limit w.now = .ok w'.db)
  | saved (r : InstantClaim L) (he : e = ⟨.db (.saveInstant r), .ok ()⟩)
      (h : w.db.saveInstant r = .ok w'.db)

/-- The call can write the record of an instant claim. -/
def Call.writesInstant : Call L → Bool
  | .db (.insertInstant ..) => true
  | .db (.saveInstant _) => true
  | _ => false

theorem InstantWrite.other {c : Call L} {r : c.Reply} {w w' : World L}
    (hc : c.writesInstant = false) (hrows : w'.db.bareInstants = w.db.bareInstants) :
    InstantWrite ⟨c, r⟩ w w' := by
  refine .same hrows ?_ ?_
  · rintro r' maxDeposit limit he
    obtain rfl : c = .db (.insertInstant r' maxDeposit limit) := congrArg Event.call he
    cases hc
  · rintro r' he
    obtain rfl : c = .db (.saveInstant r') := congrArg Event.call he
    cases hc

theorem query_instants (q : Query L) (w : World L) :
    InstantWrite ⟨.db q, (q.run w.now w.db).1⟩ w { w with db := (q.run w.now w.db).2 } := by
  cases q with
  | insertInstant r maxDeposit limit =>
      -- a failed insert leaves the tables, and its answer is no row
      rcases h : w.db.insertInstant r maxDeposit limit w.now with e | db
      · simp only [Query.run, h, transact]
        refine .same rfl ?_ ?_
        · rintro r' maxDeposit' limit' ⟨⟩
        · rintro r' ⟨⟩
      · simp only [Query.run, h, transact]
        exact .inserted r maxDeposit limit rfl h
  | saveInstant r =>
      rcases h : w.db.saveInstant r with e | db
      · simp only [Query.run, h, transact]
        refine .same rfl ?_ ?_
        · rintro r' maxDeposit limit ⟨⟩
        · rintro r' ⟨⟩
      · simp only [Query.run, h, transact]
        exact .saved r rfl h
  -- the other methods leave the rows of instant claims, whether they fail or not
  | instantError id error =>
      refine .other rfl ?_
      rcases h : w.db.instantError id error with e | db
      · simp only [Query.run, h, transact]
      · simp only [Query.run, h, transact]
        exact Db.bareInstants_error h
  | insertClaim record =>
      refine .other rfl ?_
      rcases h : w.db.insertClaim record w.now with e | db
      · simp only [Query.run, h, transact]
      · simp only [Query.run, h, transact, Db.bareInstants, (Db.insertClaim_ok h).2]
  | saveClaim record =>
      refine .other rfl ?_
      rcases h : w.db.saveClaim record with e | db
      · simp only [Query.run, h, transact]
      · simp only [Query.run, h, transact, Db.bareInstants, (Db.saveClaim_ok h).2]
  | claimError id error =>
      refine .other rfl ?_
      rcases h : w.db.claimError id error with e | db
      · simp only [Query.run, h, transact]
      · obtain ⟨claims, -, h'⟩ := bind_ok h
        obtain rfl := Except.ok.inj h'
        simp only [Query.run, h, transact]
        rfl
  | saveQuote quote =>
      refine .other rfl ?_
      rcases h : w.db.saveQuote quote w.now with e | db
      · simp only [Query.run, h, transact]
      · simp only [Query.run, h, transact]
        unfold Db.saveQuote at h
        dsimp only at h
        split at h
        · cases h
        · obtain rfl := Except.ok.inj h
          rfl
  | saveInstantQuote quote =>
      refine .other rfl ?_
      rcases h : w.db.saveInstantQuote quote w.now with e | db
      · simp only [Query.run, h, transact]
      · simp only [Query.run, h, transact]
        unfold Db.saveInstantQuote at h
        dsimp only at h
        split at h
        · cases h
        · obtain ⟨quotes, -, h⟩ := bind_ok h
          obtain rfl := Except.ok.inj h
          rfl
  | _ => exact .other rfl rfl

theorem perform_instants {t : Nat} {c : Call L} {ch : Choice} {w w' : World L} {r : c.Reply}
    (h : perform t c ch w = some (r, w')) : InstantWrite ⟨c, r⟩ w w' := by
  cases c with
  | db q =>
      cases ch <;> simp only [perform, Option.some.injEq, Prod.mk.injEq, reduceCtorEq] at h
      · obtain ⟨rfl, rfl⟩ := h
        exact query_instants q w
      · obtain ⟨rfl, rfl⟩ := h
        refine .same rfl ?_ ?_
        · rintro r maxDeposit limit ⟨⟩
        · rintro r ⟨⟩
  | lock l =>
      cases ch <;> simp only [perform, Option.map_eq_some_iff, Prod.mk.injEq, reduceCtorEq] at h
      obtain ⟨locks, -, -, rfl⟩ := h
      exact .other rfl rfl
  | sampleInstants =>
      cases ch <;> simp only [perform, Option.map_eq_some_iff, Option.some.injEq, Prod.mk.injEq,
        reduceCtorEq] at h
      · obtain ⟨-, rfl⟩ := h
        exact .other rfl rfl
      · obtain ⟨records, -, -, rfl⟩ := h
        exact .other rfl rfl
  | _ =>
      cases ch <;> simp only [perform, Option.some.injEq, Prod.mk.injEq, reduceCtorEq] at h
      all_goals
        obtain ⟨-, rfl⟩ := h
        exact .other rfl rfl

/-- A query that succeeds has been run. -/
theorem perform_read {t : Nat} {q : Query L} {ch : Choice} {w w' : World L} {a : q.Out}
    (h : perform t (.db q) ch w = some (.ok a, w')) :
    (q.run w.now w.db).1 = .ok a ∧ w'.db = (q.run w.now w.db).2 := by
  cases ch with
  | done =>
      obtain ⟨hreply, rfl⟩ := Prod.mk.inj (Option.some.inj h)
      exact ⟨hreply, rfl⟩
  | fail e =>
      obtain ⟨hreply, -⟩ := Prod.mk.inj (Option.some.inj h)
      cases hreply
  | _ => cases h

/-- A move makes at most one call, and only calls touch the tables. -/
theorem step_instants {s s' : Config (machine C)} {m : Move (machine C)} (hst : s.step m = some s') :
    s'.world.db = s.world.db ∧ s'.trace = s.trace ∨
      ∃ t ch c k hist r, m = .run t ch ∧ s.thread t = some ⟨.call c k, hist⟩ ∧
        s'.trace = (t, ⟨c, r⟩) :: s.trace ∧ InstantWrite ⟨c, r⟩ s.world s'.world := by
  rcases Config.step_cases hst with ⟨r, -, rfl⟩ | ⟨t, ch, c, k, hist, r, w, hm, hth, hp, rfl⟩ |
    ⟨t, th, -, -, rfl⟩ | ⟨-, rfl⟩ | ⟨n, w, -, ho, rfl⟩
  · exact .inl ⟨rfl, rfl⟩
  · exact .inr ⟨t, ch, c, k, hist, r, hm, hth, rfl, perform_instants hp⟩
  · exact .inl ⟨rfl, rfl⟩
  · exact .inl ⟨rfl, rfl⟩
  · obtain rfl := Option.some.inj ho
    exact .inl ⟨rfl, rfl⟩

/-! ### Records under the lock -/

/-- The row of a claim is found under the id of its record. -/
theorem row_id {s : Config (machine C)} (hs : Reach ok s) :
    ∀ row ∈ s.world.db.bareInstants, row.id = row.data.id := by
  refine hs.invariant (J := fun s : Config (machine C) =>
    ∀ row ∈ s.world.db.bareInstants, row.id = row.data.id) ?_ ?_
  · intro row hrow
    cases hrow
  · intro s s' m _ ih _ hst row hrow
    rcases step_instants hst with ⟨hdb, -⟩ | ⟨t, ch, c, k, hist, r, -, -, -, hw⟩
    · rw [hdb] at hrow
      exact ih row hrow
    · cases hw with
      | same hrows =>
          rw [hrows] at hrow
          exact ih row hrow
      | inserted r maxDeposit limit he h =>
          rw [Db.bareInstants_insert h] at hrow
          rcases List.mem_cons.mp hrow with rfl | hrow
          · rfl
          · exact ih row hrow
      | saved r he h =>
          rw [Db.bareInstants_save h] at hrow
          obtain ⟨old, hold, rfl⟩ := List.mem_map.mp hrow
          rw [InstantRow.write]
          split
          · next hid => exact hid
          · exact ih old hold

/-- Between two looks the list of records is the same. -/
def SameRecords (w w' : World L) : Prop := w'.db.records = w.db.records

theorem records_of_bare {w w' : World L} (h : w'.db.bareInstants = w.db.bareInstants) :
    SameRecords w w' := by
  rw [SameRecords, Db.records_eq, h, ← Db.records_eq]

/-- A write of instant claims is made under the lock. -/
theorem lawful_held {hist : History (Api L)} {c : Call L} (hlawful : Lawful C hist c)
    (hwrites : (∃ r maxDeposit limit, c = .db (.insertInstant r maxDeposit limit)) ∨
      ∃ r, c = .db (.saveInstant r)) : (guards C).Held .deposits hist := by
  rcases hwrites with ⟨r, maxDeposit, limit, rfl⟩ | ⟨r, rfl⟩
  · have hfresh : Fresh C r maxDeposit limit hist := hlawful
    exact hfresh.locked
  · obtain ⟨r₀, hk, -⟩ : ∃ r₀, Known C r₀ hist ∧ Advance C r₀ hist r := hlawful
    exact hk.locked

/-- What an event shows was stored when it happened, if a record was there to be replaced. -/
theorem shown_stored {s s' : Config (machine C)} (hs : Reach ok s) {t : Nat}
    {c : Call L} {k : c.Reply → Prog (Api L) Unit} {hist : History (Api L)} {ch : Choice}
    {reply : c.Reply} (hth : s.thread t = some ⟨.call c k, hist⟩)
    (hp : perform t c ch s.world = some (reply, s'.world)) {r : InstantClaim L}
    (hshows : Shows r ⟨c, reply⟩)
    (hold : ∀ r', c = .db (.saveInstant r') → ∃ r₀ ∈ s.world.db.records, r'.id = r₀.id) :
    r ∈ s'.world.db.records := by
  have hw := perform_instants hp
  generalize hev : (⟨c, reply⟩ : Event (Api L)) = e at hshows hw
  cases hshows with
  -- a look-up shows a row of the table, and changes none
  | read id =>
      injection hev with hcall hreply
      subst hcall
      obtain rfl := eq_of_heq hreply
      obtain ⟨hread, hworld⟩ := perform_read hp
      obtain ⟨row, hrow, hdata⟩ := Option.map_eq_some_iff.mp (okOr_eq_ok.mp hread)
      rw [hworld, Db.mem_records]
      exact ⟨row, List.mem_of_find?_eq_some hrow, hdata⟩
  | found quoteId owner =>
      injection hev with hcall hreply
      subst hcall
      obtain rfl := eq_of_heq hreply
      obtain ⟨hread, hworld⟩ := perform_read hp
      obtain ⟨row, hrow, hdata⟩ := Option.map_eq_some_iff.mp (Except.ok.inj hread)
      rw [hworld, Db.mem_records]
      exact ⟨row, List.mem_of_find?_eq_some hrow, hdata⟩
  -- an insert shows the row it has just added
  | inserted maxDeposit limit =>
      cases hw with
      | same hrows hinsert hsave => exact absurd rfl (hinsert r maxDeposit limit)
      | inserted r' maxDeposit' limit' he h =>
          injection he with hcall
          injection hcall with hq
          injection hq with hr
          subst hr
          rw [Db.records_eq, Db.bareInstants_insert h]
          exact List.mem_cons_self
      | saved r' he h => injection he with hcall; injection hcall with hq; cases hq
  | saved =>
      cases hw with
      | same hrows hinsert hsave => exact absurd rfl (hsave r)
      | inserted r' maxDeposit' limit' he h =>
          injection he with hcall; injection hcall with hq; cases hq
      | saved r' he h =>
          injection he with hcall
          injection hcall with hq
          injection hq with hr
          subst hr
          injection hev with hcall
          obtain ⟨r₀, hr₀, hid⟩ := hold r hcall
          rw [Db.records_eq] at hr₀
          obtain ⟨row, hrow, rfl⟩ := List.mem_map.mp hr₀
          rw [Db.records_eq, Db.bareInstants_save h, List.map_map]
          refine List.mem_map.mpr ⟨row, hrow, ?_⟩
          show (InstantRow.write r row).data = r
          -- the id is unique, so the row that was saved is this one
          rw [InstantRow.write, if_pos ((row_id hs row hrow).trans hid.symm)]

theorem advance_id {r r' : InstantClaim L} {hist : History (Api L)} (ha : Advance C r hist r') :
    r'.id = r.id := by
  cases ha <;> rfl

/-- A program without the lock, or with a call that writes nothing, leaves the records. -/
theorem still_same {s : Config (machine C)} (hs : Reach ok s) {t : Nat} {c : Call L}
    {k : c.Reply → Prog (Api L) Unit} {hist : History (Api L)} {ch : Choice} {reply : c.Reply}
    {w : World L} (hth : s.thread t = some ⟨.call c k, hist⟩)
    (hp : perform t c ch s.world = some (reply, w))
    (h : Still ⟨c, reply⟩ ∨ ¬ (guards C).Held .deposits hist) : SameRecords s.world w := by
  have hlawful : Lawful C hist c := hs.justified handler_lawful hth
  have hwrites : c.still = false → (∃ r maxDeposit limit,
      c = .db (.insertInstant r maxDeposit limit)) ∨ (∃ r, c = .db (.saveInstant r)) → False := by
    intro hc hwrite
    rcases h with hstill | hfree
    · exact absurd (hstill.symm.trans hc) nofun
    · exact hfree (lawful_held hlawful hwrite)
  cases perform_instants hp with
  | same hrows => exact records_of_bare hrows
  | inserted r maxDeposit limit he _ =>
      obtain rfl : c = .db (.insertInstant r maxDeposit limit) := congrArg Event.call he
      exact (hwrites rfl (.inl ⟨r, maxDeposit, limit, rfl⟩)).elim
  | saved r he _ =>
      obtain rfl : c = .db (.saveInstant r) := congrArg Event.call he
      exact (hwrites rfl (.inr ⟨r, rfl⟩)).elim

/-- What a program knows under the lock is stored. -/
theorem known_stored {s : Config (machine C)} (hs : Reach ok s) {t : Nat} {th : Thread (Api L)}
    (hth : s.thread t = some th) {r : InstantClaim L} (hk : Known C r th.history) :
    r ∈ s.world.db.records := by
  induction hn : th.history.length using Nat.strong_induction_on generalizing s t th r with
  | _ n ih =>
    obtain ⟨e, hshows, newer, older, hhist, hstill⟩ := hk.shown
    have hcalls : ∀ x, Still x → ¬ (guards C).Takes .deposits x ∧
        ¬ (guards C).Gives .deposits x.call := by
      intro x hx
      constructor
      · intro htakes
        have hcall : x.call = .lock .deposits := htakes
        rw [Still, hcall] at hx
        cases hx
      · intro hgives
        have hcall : x.call = .unlock .deposits := hgives
        rw [Still, hcall] at hx
        cases hx
    have hout : ∀ (o : Nat) (w w' : World L), tick o w = some w' → SameRecords w w' := by
      intro o w w' ho
      obtain rfl := Option.some.inj ho
      rfl
    obtain ⟨s₀, s₁, hm, hsame⟩ := Guards.learned_at (G := guards C) (l := .deposits)
      (S := SameRecords) (q := Still) (fun _ => rfl) (fun a b c hab hbc => hbc.trans hab) hcalls
      (fun s t ch c k h r w hr hth _ hp hx => still_same hr hth hp hx)
      (fun _ _ => rfl) (fun _ => rfl) hout hs hth hk.locked hhist hstill
    have hsame : s.world.db.records = s₁.world.db.records := hsame
    rw [hsame]
    obtain ⟨ch, k, hth₀, -, hp, -⟩ := hm.made
    refine shown_stored hm.reach hth₀ hp hshows fun r' hcall => ?_
    -- a save is of a record that was known before
    have hlawful : Lawful C older e.call := hm.reach.justified handler_lawful hth₀
    rw [hcall] at hlawful
    obtain ⟨r₀, hk₀, ha⟩ : ∃ r₀, Known C r₀ older ∧ Advance C r₀ older r' := hlawful
    refine ⟨r₀, ih older.length ?_ hm.reach hth₀ hk₀ rfl, advance_id ha⟩
    rw [← hn, hhist, List.length_append, List.length_cons]
    omega

/-! ### Rows and their records -/

theorem advance_quote {r r' : InstantClaim L} {hist : History (Api L)} (ha : Advance C r hist r') :
    r'.quote = r.quote := by
  cases ha <;> rfl

theorem advance_transferId {r r' : InstantClaim L} {hist : History (Api L)}
    (ha : Advance C r hist r') : r'.transferId = r.transferId := by
  cases ha <;> rfl

/-- A claim has one row. -/
theorem bareInstants_unique {db : Db L} {row row' : InstantRow L} (h : row ∈ db.bareInstants)
    (h' : row' ∈ db.bareInstants) (hid : row.id = row'.id) : row = row' := by
  have hids : (db.bareInstants.map (·.id)).Nodup := by
    rw [Db.bareInstants, List.map_map]
    exact db.instants.property.1
  exact List.inj_on_of_nodup_map hids h h' hid

theorem mem_bareInstants {db : Db L} {r : InstantClaim L} :
    r ∈ db.records ↔ ∃ row ∈ db.bareInstants, row.data = r := by
  rw [Db.records_eq]
  exact List.mem_map

/-- A save of a known record is one of a row that has all columns of the record. -/
theorem write_of {r r' : InstantClaim L} {hist : History (Api L)} (ha : Advance C r hist r') :
    InstantRow.write r' (.of r) = .of r' := by
  have hid : (InstantRow.of r).id = r'.id := (advance_id ha).symm
  rw [InstantRow.write, if_pos hid]
  simp only [InstantRow.of, advance_id ha, advance_quote ha]

theorem row_of {s : Config (machine C)} (hs : Reach ok s) :
    ∀ row ∈ s.world.db.bareInstants, row = .of row.data := by
  refine hs.invariant (J := fun s : Config (machine C) =>
    ∀ row ∈ s.world.db.bareInstants, row = .of row.data) ?_ ?_
  · intro row hrow
    cases hrow
  · intro s s' m hr ih _ hst row hrow
    rcases step_instants hst with ⟨hdb, -⟩ | ⟨t, ch, c, k, hist, reply, -, hth, -, hw⟩
    · rw [hdb] at hrow
      exact ih row hrow
    · cases hw with
      | same hrows =>
          rw [hrows] at hrow
          exact ih row hrow
      | inserted r maxDeposit limit he h =>
          rw [Db.bareInstants_insert h] at hrow
          rcases List.mem_cons.mp hrow with rfl | hrow
          · rfl
          · exact ih row hrow
      | saved r' he h =>
          obtain rfl : c = .db (.saveInstant r') := congrArg Event.call he
          obtain ⟨r, hk, ha⟩ : ∃ r, Known C r hist ∧ Advance C r hist r' :=
            hr.justified handler_lawful hth
          obtain ⟨stored, hstored, hdata⟩ := mem_bareInstants.mp (known_stored hr hth hk)
          have hof := ih stored hstored
          rw [hdata] at hof
          rw [Db.bareInstants_save h] at hrow
          obtain ⟨old, hold, rfl⟩ := List.mem_map.mp hrow
          by_cases hid : old.id = r'.id
          · -- the row of the claim is the stored one
            obtain rfl : old = stored := by
              apply bareInstants_unique hold hstored
              rw [hid, advance_id ha, hof]
              rfl
            rw [hof, write_of ha]
            rfl
          · rw [InstantRow.write, if_neg hid]
            exact ih old hold

/-- The table of instant claims is the list of records. -/
theorem reach_rows {s : Config (machine C)} (hs : Reach ok s) :
    s.world.db.bareInstants = s.world.db.records.map InstantRow.of := by
  rw [Db.records_eq, List.map_map]
  conv_lhs => rw [← List.map_id s.world.db.bareInstants]
  apply List.map_congr_left
  intro row hrow
  exact row_of hs row hrow

/-- Claims have different ids. -/
theorem records_unique {s : Config (machine C)} (hs : Reach ok s) {r r' : InstantClaim L}
    (h : r ∈ s.world.db.records) (h' : r' ∈ s.world.db.records) (hid : r.id = r'.id) : r = r' := by
  have hrow : ∀ r ∈ s.world.db.records, InstantRow.of r ∈ s.world.db.bareInstants := by
    intro r hr
    rw [reach_rows hs]
    exact List.mem_map_of_mem hr
  exact congrArg InstantRow.data (bareInstants_unique (hrow r h) (hrow r' h') hid)

/-! ### Moves -/

/-- The list with the record of one claim replaced. -/
def replace (r' : InstantClaim L) (records : List (InstantClaim L)) : List (InstantClaim L) :=
  records.map fun r => if r.id = r'.id then r' else r

/-- What a move does to the list of records. -/
inductive LedgerStep (s s' : Config (machine C)) : Prop
  | same (h : s'.world.db.records = s.world.db.records)
  | entered (t : Nat) (k : Except String Unit → Prog (Api L) Unit) (hist : History (Api L))
      (r : InstantClaim L) (maxDeposit limit : Nat)
      (hth : s.thread t =
        some ⟨.call (.db (.insertInstant r maxDeposit limit)) k, hist⟩)
      (htrace : s'.trace = (t, ⟨.db (.insertInstant r maxDeposit limit), .ok ()⟩) :: s.trace)
      (hfresh : Fresh C r maxDeposit limit hist)
      (hinsert : s.world.db.insertInstant r maxDeposit limit s.world.now = .ok s'.world.db)
      (h : s'.world.db.records = r :: s.world.db.records)
  | advanced (t : Nat) (k : Except String Unit → Prog (Api L) Unit) (hist : History (Api L))
      (r r' : InstantClaim L) (hth : s.thread t = some ⟨.call (.db (.saveInstant r')) k, hist⟩)
      (htrace : s'.trace = (t, ⟨.db (.saveInstant r'), .ok ()⟩) :: s.trace)
      (hr : r ∈ s.world.db.records) (ha : Advance C r hist r')
      (h : s'.world.db.records = replace r' s.world.db.records)

theorem step_ledger {s s' : Config (machine C)} (hs : Reach ok s) {m : Move (machine C)}
    (hst : s.step m = some s') : LedgerStep s s' := by
  rcases step_instants hst with ⟨hdb, -⟩ | ⟨t, ch, c, k, hist, reply, -, hth, htrace, hw⟩
  · exact .same (congrArg Db.records hdb)
  · cases hw with
    | same hrows => exact .same (records_of_bare hrows)
    | inserted r maxDeposit limit he h =>
        obtain rfl : c = .db (.insertInstant r maxDeposit limit) := congrArg Event.call he
        rw [he] at htrace
        refine .entered t k hist r maxDeposit limit hth htrace (hs.justified handler_lawful hth) h ?_
        rw [Db.records_eq, Db.bareInstants_insert h, List.map_cons, ← Db.records_eq]
        rfl
    | saved r' he h =>
        obtain rfl : c = .db (.saveInstant r') := congrArg Event.call he
        obtain ⟨r, hk, ha⟩ : ∃ r, Known C r hist ∧ Advance C r hist r' :=
          hs.justified handler_lawful hth
        rw [he] at htrace
        refine .advanced t k hist r r' hth htrace (known_stored hs hth hk) ha ?_
        rw [Db.records_eq, Db.bareInstants_save h, reach_rows hs, List.map_map, List.map_map,
          replace]
        apply List.map_congr_left
        intro x _
        show (InstantRow.write r' (.of x)).data = _
        rw [InstantRow.write]
        by_cases hid : x.id = r'.id
        · have hrow : (InstantRow.of x).id = r'.id := hid
          rw [if_pos hrow, if_pos hid]
        · have hrow : (InstantRow.of x).id ≠ r'.id := hid
          rw [if_neg hrow, if_neg hid]
          rfl

/-- What becomes of a record that is stored. -/
theorem LedgerStep.successor {s s' : Config (machine C)} (hl : LedgerStep s s')
    {r : InstantClaim L} (hs : Reach ok s) (hr : r ∈ s.world.db.records) :
    r ∈ s'.world.db.records ∨
      ∃ t, ∃ k : Except String Unit → Prog (Api L) Unit, ∃ hist r', s.thread t =
      some ⟨.call (.db (.saveInstant r')) k, hist⟩ ∧
      s'.trace = (t, ⟨.db (.saveInstant r'), .ok ()⟩) :: s.trace ∧ Advance C r hist r' ∧
      r' ∈ s'.world.db.records := by
  cases hl with
  | same h =>
      left
      rwa [h]
  | entered t k hist new maxDeposit limit hth htrace hfresh hinsert h =>
      left
      rw [h]
      exact List.mem_cons_of_mem _ hr
  | advanced t k hist r₀ r' hth htrace hr₀ ha h =>
      by_cases hid : r.id = r'.id
      · right
        obtain rfl : r = r₀ := records_unique hs hr hr₀ (hid.trans (advance_id ha))
        refine ⟨t, k, hist, r', hth, htrace, ha, ?_⟩
        rw [h]
        exact List.mem_map.mpr ⟨r, hr, if_pos hid⟩
      · left
        rw [h]
        exact List.mem_map.mpr ⟨r, hr, if_neg hid⟩

/-- Where a stored record comes from. -/
theorem LedgerStep.origin {s s' : Config (machine C)} (hl : LedgerStep s s')
    {r' : InstantClaim L} (hr : r' ∈ s'.world.db.records) :
    r' ∈ s.world.db.records ∨
      (∃ t, ∃ k : Except String Unit → Prog (Api L) Unit, ∃ hist maxDeposit limit,
        s.thread t = some ⟨.call (.db (.insertInstant r' maxDeposit limit)) k, hist⟩ ∧
        s'.trace = (t, ⟨.db (.insertInstant r' maxDeposit limit), .ok ()⟩) :: s.trace ∧
        Fresh C r' maxDeposit limit hist) ∨
      ∃ t, ∃ k : Except String Unit → Prog (Api L) Unit, ∃ hist r,
        s.thread t = some ⟨.call (.db (.saveInstant r')) k, hist⟩ ∧
        s'.trace = (t, ⟨.db (.saveInstant r'), .ok ()⟩) :: s.trace ∧ r ∈ s.world.db.records ∧
        Advance C r hist r' := by
  cases hl with
  | same h =>
      left
      rwa [h] at hr
  | entered t k hist new maxDeposit limit hth htrace hfresh hinsert h =>
      rw [h] at hr
      rcases List.mem_cons.mp hr with rfl | hr
      · exact .inr (.inl ⟨t, k, hist, maxDeposit, limit, hth, htrace, hfresh⟩)
      · exact .inl hr
  | advanced t k hist r₀ new hth htrace hr₀ ha h =>
      rw [h] at hr
      obtain ⟨old, hold, heq⟩ := List.mem_map.mp hr
      by_cases hid : old.id = new.id
      · rw [if_pos hid] at heq
        subst heq
        exact .inr (.inr ⟨t, k, hist, r₀, hth, htrace, hr₀, ha⟩)
      · rw [if_neg hid] at heq
        subst heq
        exact .inl hold

end OpenSsp.Deposit
