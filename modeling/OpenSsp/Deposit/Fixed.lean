/-
OpenSsp/Deposit/Fixed.lean

The fixed claims, each under the id of its row.

A claim is entered with its plan, and every record that is saved has the plan of one that was read
before (`Lawful`).  So what a program has read of a claim is still stored, up to the phase and the
signed transaction (`read_stored`), and a move enters a claim or keeps the plans of all
(`step_fixed`).

Main results: `read_stored` and `step_fixed`.
-/
import OpenSsp.Deposit.Ledger

namespace OpenSsp.Deposit

open Interleave Bitcoin

variable {L : Library} {C : Service L} {db db' : Db L} {r r' r'' : DepositClaim L}
variable {ok : Config (machine C) → Move (machine C) → Prop}

theorem SamePlan.trans (h : SamePlan r r') (h' : SamePlan r' r'') : SamePlan r r'' where
  id := h'.id.trans h.id
  quote := h'.quote.trans h.quote
  transferId := h'.transferId.trans h.transferId
  plan := h'.plan.trans h.plan

theorem SamePlan.symm (h : SamePlan r r') : SamePlan r' r where
  id := h.id.symm
  quote := h.quote.symm
  transferId := h.transferId.symm
  plan := h.plan.symm

/-! ### The table -/

/-- The records of `deposit_claims`, by the ids of their rows. -/
def Db.fixed (db : Db L) : Table (Prod.fst : String × DepositClaim L → String) where
  rows := db.claims.val.map fun row => (row.id, row.data)
  nodup := by
    rw [List.map_map]
    exact db.claims.property.1

theorem Db.mem_fixed {x : String × DepositClaim L} :
    x ∈ db.fixed.rows ↔ ∃ row ∈ db.claims.val, (row.id, row.data) = x := List.mem_map

/-- The record after a save of `r`. -/
def resave (r : DepositClaim L) (x : String × DepositClaim L) : String × DepositClaim L :=
  if x.1 = r.id then (x.1, r) else x

theorem Db.fixed_insert {now : Nat} (h : db.insertClaim r now = .ok db') :
    db'.fixed.rows = (r.id, r) :: db.fixed.rows := by
  show db'.claims.val.map (fun row => (row.id, row.data)) = _
  rw [(insertClaim_ok h).1]
  rfl

theorem Db.fixed_save (h : db.saveClaim r = .ok db') :
    db'.fixed.rows = db.fixed.rows.map (resave r) := by
  obtain ⟨claims, hclaims, h⟩ := bind_ok h
  obtain rfl := Except.ok.inj h
  show claims.val.map (fun row => (row.id, row.data)) = _
  rw [store_ok hclaims, fixed, List.map_map, List.map_map]
  apply List.map_congr_left
  intro row _
  show ((if row.id = r.id then row.save r else row).id,
    (if row.id = r.id then row.save r else row).data) = resave r (row.id, row.data)
  by_cases hid : row.id = r.id
  · rw [if_pos hid, resave, if_pos hid]
    rfl
  · rw [if_neg hid, resave, if_neg hid]

theorem Db.fixed_error {id error : String} (h : db.claimError id error = .ok db') :
    db'.fixed.rows = db.fixed.rows := by
  obtain ⟨claims, hclaims, h⟩ := bind_ok h
  obtain rfl := Except.ok.inj h
  show claims.val.map (fun row => (row.id, row.data)) = _
  rw [store_ok hclaims, fixed, List.map_map]
  apply List.map_congr_left
  intro row _
  show ((if row.id = id then { row with lastError := some error } else row).id,
    (if row.id = id then { row with lastError := some error } else row).data) = _
  by_cases hid : row.id = id
  · rw [if_pos hid]
  · rw [if_neg hid]

/-! ### What a call does -/

/-- What a call with its reply does to the fixed claims. -/
inductive FixedWrite (e : Event (Api L)) (w w' : World L) : Prop
  | same (hrows : w'.db.fixed.rows = w.db.fixed.rows)
      (hinsert : ∀ r, e ≠ ⟨.db (.insertClaim r), .ok ()⟩)
  | inserted (r : DepositClaim L) (he : e = ⟨.db (.insertClaim r), .ok ()⟩)
      (hrows : w'.db.fixed.rows = (r.id, r) :: w.db.fixed.rows)
  | saved (r : DepositClaim L) (he : e = ⟨.db (.saveClaim r), .ok ()⟩)
      (hrows : w'.db.fixed.rows = w.db.fixed.rows.map (resave r))

theorem FixedWrite.of_claims {e : Event (Api L)} {w w' : World L}
    (hclaims : w'.db.claims = w.db.claims)
    (hinsert : ∀ r, e ≠ ⟨.db (.insertClaim r), .ok ()⟩) : FixedWrite e w w' := by
  refine .same ?_ hinsert
  show w'.db.claims.val.map _ = w.db.claims.val.map _
  rw [hclaims]

theorem query_fixed (q : Query L) (w : World L) :
    FixedWrite ⟨.db q, (q.run w.now w.db).1⟩ w { w with db := (q.run w.now w.db).2 } := by
  cases q with
  | insertClaim r =>
      -- a failed insert leaves the tables, and its answer is no row
      rcases h : w.db.insertClaim r w.now with e | db
      · simp only [Query.run, h, transact]
        exact .of_claims rfl (by rintro r' ⟨⟩)
      · simp only [Query.run, h, transact]
        exact .inserted r rfl (Db.fixed_insert h)
  | saveClaim r =>
      rcases h : w.db.saveClaim r with e | db
      · simp only [Query.run, h, transact]
        exact .of_claims rfl (by rintro r' ⟨⟩)
      · simp only [Query.run, h, transact]
        exact .saved r rfl (Db.fixed_save h)
  | claimError id error =>
      refine .same ?_ (by rintro r' ⟨⟩)
      rcases h : w.db.claimError id error with e | db
      · simp only [Query.run, h, transact]
      · simp only [Query.run, h, transact]
        exact Db.fixed_error h
  -- the other methods leave the table
  | insertInstant r maxDeposit limit =>
      refine .of_claims ?_ (by rintro r' ⟨⟩)
      rcases h : w.db.insertInstant r maxDeposit limit w.now with e | db
      · simp only [Query.run, h, transact]
      · simp only [Query.run, h, transact, (Db.insertInstant_ok h).2]
  | saveInstant r =>
      refine .of_claims ?_ (by rintro r' ⟨⟩)
      rcases h : w.db.saveInstant r with e | db
      · simp only [Query.run, h, transact]
      · simp only [Query.run, h, transact, (Db.saveInstant_ok h).2]
  | instantError id error =>
      refine .of_claims ?_ (by rintro r' ⟨⟩)
      rcases h : w.db.instantError id error with e | db
      · simp only [Query.run, h, transact]
      · obtain ⟨instants, -, h'⟩ := bind_ok h
        obtain rfl := Except.ok.inj h'
        simp only [Query.run, h, transact]
  | saveQuote quote =>
      refine .of_claims ?_ (by rintro r' ⟨⟩)
      rcases h : w.db.saveQuote quote w.now with e | db
      · simp only [Query.run, h, transact]
      · simp only [Query.run, h, transact]
        unfold Db.saveQuote at h
        dsimp only at h
        split at h
        · cases h
        · obtain rfl := Except.ok.inj h
          rfl
  | saveInstantQuote quote =>
      refine .of_claims ?_ (by rintro r' ⟨⟩)
      rcases h : w.db.saveInstantQuote quote w.now with e | db
      · simp only [Query.run, h, transact]
      · simp only [Query.run, h, transact]
        unfold Db.saveInstantQuote at h
        dsimp only at h
        split at h
        · cases h
        · obtain ⟨quotes, -, h⟩ := bind_ok h
          obtain rfl := Except.ok.inj h
          rfl
  | _ => exact .of_claims rfl (by rintro r' ⟨⟩)

theorem perform_fixed {t : Nat} {c : Call L} {ch : Choice} {w w' : World L} {r : c.Reply}
    (h : perform t c ch w = some (r, w')) : FixedWrite ⟨c, r⟩ w w' := by
  cases c with
  | db q =>
      cases ch <;> simp only [perform, Option.some.injEq, Prod.mk.injEq, reduceCtorEq] at h
      · obtain ⟨rfl, rfl⟩ := h
        exact query_fixed q w
      · obtain ⟨rfl, rfl⟩ := h
        exact .of_claims rfl (by rintro r ⟨⟩)
  | lock l =>
      cases ch <;> simp only [perform, Option.map_eq_some_iff, Prod.mk.injEq, reduceCtorEq] at h
      obtain ⟨locks, -, -, rfl⟩ := h
      exact .of_claims rfl (by rintro r ⟨⟩)
  | sampleInstants =>
      cases ch <;> simp only [perform, Option.map_eq_some_iff, Option.some.injEq, Prod.mk.injEq,
        reduceCtorEq] at h
      · obtain ⟨-, rfl⟩ := h
        exact .of_claims rfl (by rintro r ⟨⟩)
      · obtain ⟨records, -, -, rfl⟩ := h
        exact .of_claims rfl (by rintro r ⟨⟩)
  | _ =>
      cases ch <;> simp only [perform, Option.some.injEq, Prod.mk.injEq, reduceCtorEq] at h
      all_goals
        obtain ⟨-, rfl⟩ := h
        exact .of_claims rfl (by rintro r ⟨⟩)

theorem step_writes_fixed {s s' : Config (machine C)} {m : Move (machine C)}
    (hst : s.step m = some s') :
    s'.world.db = s.world.db ∧ s'.trace = s.trace ∨
      ∃ t ch c k hist r, s.thread t = some ⟨.call c k, hist⟩ ∧ s'.trace = (t, ⟨c, r⟩) :: s.trace ∧
        perform t c ch s.world = some (r, s'.world) := by
  rcases Config.step_cases hst with ⟨r, -, rfl⟩ | ⟨t, ch, c, k, hist, r, w, -, hth, hp, rfl⟩ |
    ⟨t, th, -, -, rfl⟩ | ⟨-, rfl⟩ | ⟨n, w, -, ho, rfl⟩
  · exact .inl ⟨rfl, rfl⟩
  · exact .inr ⟨t, ch, c, k, hist, r, hth, rfl, hp⟩
  · exact .inl ⟨rfl, rfl⟩
  · exact .inl ⟨rfl, rfl⟩
  · obtain rfl := Option.some.inj ho
    exact .inl ⟨rfl, rfl⟩

/-! ### What was read is stored -/

/-- What the programs of a run have read of fixed claims is stored. -/
structure Kept (s : Config (machine C)) : Prop where
  ids : ∀ x ∈ s.world.db.fixed.rows, x.2.id = x.1
  shown : ∀ t e r, (t, e) ∈ s.trace → ShowsFixed r e →
    ∃ r', (r.id, r') ∈ s.world.db.fixed.rows ∧ SamePlan r r'

/-- What a move does to the fixed claims. -/
inductive FixedStep (s s' : Config (machine C)) : Prop
  | same (h : s'.world.db.fixed.rows = s.world.db.fixed.rows)
  | entered (t : Nat) (k : Except String Unit → Prog (Api L) Unit) (hist : History (Api L))
      (r : DepositClaim L) (hth : s.thread t = some ⟨.call (.db (.insertClaim r)) k, hist⟩)
      (htrace : s'.trace = (t, ⟨.db (.insertClaim r), .ok ()⟩) :: s.trace)
      (hplanned : Planned r.transferId r.plan hist) (hfirst : Unentered hist)
      (h : s'.world.db.fixed.rows = (r.id, r) :: s.world.db.fixed.rows)
  | saved (r r' : DepositClaim L) (hr : (r'.id, r) ∈ s.world.db.fixed.rows)
      (hsame : SamePlan r r')
      (h : s'.world.db.fixed.rows = s.world.db.fixed.rows.map (resave r'))

theorem Kept.step_fixed {s s' : Config (machine C)} (hk : Kept s) (hs : Reach ok s)
    {m : Move (machine C)} (hst : s.step m = some s') : FixedStep s s' := by
  rcases step_writes_fixed hst with ⟨hdb, -⟩ | ⟨t, ch, c, k, hist, reply, hth, htrace, hp⟩
  · exact .same (by rw [hdb])
  · cases perform_fixed hp with
    | same hrows => exact .same hrows
    | inserted r he hrows =>
        obtain rfl : c = .db (.insertClaim r) := congrArg Event.call he
        obtain ⟨hplanned, hfirst⟩ : Planned r.transferId r.plan hist ∧ Unentered hist :=
          hs.justified handler_lawful hth
        rw [he] at htrace
        exact .entered t k hist r hth htrace hplanned hfirst hrows
    | saved r' he hrows =>
        obtain rfl : c = .db (.saveClaim r') := congrArg Event.call he
        obtain ⟨r, ⟨e, hmem, hshows⟩, hsame⟩ : ∃ r, Read r hist ∧ SamePlan r r' :=
          hs.justified handler_lawful hth
        obtain ⟨stored, hstored, hplan⟩ := hk.shown t e r (hs.history_mem t _ hth e hmem) hshows
        rw [← hsame.id] at hstored
        exact .saved stored r' hstored (hplan.symm.trans hsame) hrows

/-- A stored claim stays, with its plan. -/
theorem FixedStep.keeps {s s' : Config (machine C)} (hf : FixedStep s s')
    {x : String × DepositClaim L} (hx : x ∈ s.world.db.fixed.rows) :
    ∃ r', (x.1, r') ∈ s'.world.db.fixed.rows ∧ SamePlan x.2 r' := by
  cases hf with
  | same h =>
      rw [h]
      exact ⟨x.2, hx, .refl _⟩
  | entered t k hist r hth htrace hplanned hfirst h =>
      rw [h]
      exact ⟨x.2, List.mem_cons_of_mem _ hx, .refl _⟩
  | saved r r' hr hsame h =>
      rw [h]
      by_cases hid : x.1 = r'.id
      · -- the stored record of the claim that is saved
        obtain rfl : x = (r'.id, r) := Table.eq_of_key hx hr hid
        refine ⟨r', List.mem_map.mpr ⟨_, hx, ?_⟩, hsame⟩
        exact if_pos rfl
      · exact ⟨x.2, List.mem_map.mpr ⟨x, hx, if_neg hid⟩, .refl _⟩

/-- A stored claim was stored before, or is new. -/
theorem FixedStep.origin {s s' : Config (machine C)} (hf : FixedStep s s')
    {x : String × DepositClaim L} (hx : x ∈ s'.world.db.fixed.rows) :
    (∃ r, (x.1, r) ∈ s.world.db.fixed.rows ∧ SamePlan r x.2) ∨
      ∃ t, ∃ k : Except String Unit → Prog (Api L) Unit, ∃ hist,
        s.thread t = some ⟨.call (.db (.insertClaim x.2)) k, hist⟩ ∧
        s'.trace = (t, ⟨.db (.insertClaim x.2), .ok ()⟩) :: s.trace ∧
        Planned x.2.transferId x.2.plan hist ∧ Unentered hist ∧ x.1 = x.2.id := by
  cases hf with
  | same h =>
      rw [h] at hx
      exact .inl ⟨x.2, hx, .refl _⟩
  | entered t k hist r hth htrace hplanned hfirst h =>
      rw [h] at hx
      rcases List.mem_cons.mp hx with rfl | hx
      · exact .inr ⟨t, k, hist, hth, htrace, hplanned, hfirst, rfl⟩
      · exact .inl ⟨x.2, hx, .refl _⟩
  | saved r r' hr hsame h =>
      rw [h] at hx
      obtain ⟨old, hold, rfl⟩ := List.mem_map.mp hx
      left
      by_cases hid : old.1 = r'.id
      · rw [resave, if_pos hid, hid]
        exact ⟨r, hr, hsame⟩
      · rw [resave, if_neg hid]
        exact ⟨old.2, hold, .refl _⟩

/-- An event shows a claim that is stored after it. -/
theorem shown_fixed {t : Nat} {c : Call L} {ch : Choice} {w w' : World L} {reply : c.Reply}
    (hids : ∀ x ∈ w.db.fixed.rows, x.2.id = x.1) (hp : perform t c ch w = some (reply, w'))
    (hshows : ShowsFixed r ⟨c, reply⟩) : (r.id, r) ∈ w'.db.fixed.rows := by
  have hw := perform_fixed hp
  -- a row is stored under its record's id
  have hrow : ∀ row ∈ w.db.claims.val, (row.data.id, row.data) ∈ w.db.fixed.rows := by
    intro row hrow
    have hmem : (row.id, row.data) ∈ w.db.fixed.rows := Db.mem_fixed.mpr ⟨row, hrow, rfl⟩
    have hid : row.data.id = row.id := hids _ hmem
    rwa [hid]
  generalize hev : (⟨c, reply⟩ : Event (Api L)) = e at hshows hw
  cases hshows with
  | own txid vout owner =>
      injection hev with hcall hreply
      subst hcall
      obtain rfl := eq_of_heq hreply
      obtain ⟨hread, hworld⟩ := perform_read hp
      obtain ⟨row, hfind, rfl⟩ := Option.map_eq_some_iff.mp (Except.ok.inj hread)
      rw [hworld]
      exact hrow row (List.mem_of_find?_eq_some hfind)
  | pending records hmem =>
      injection hev with hcall hreply
      subst hcall
      obtain rfl := eq_of_heq hreply
      obtain ⟨hread, hworld⟩ := perform_read hp
      obtain rfl := Except.ok.inj hread
      obtain ⟨row, htake, rfl⟩ := List.mem_map.mp hmem
      rw [hworld]
      apply hrow row
      have htracked := List.mem_reverse.mp (List.mem_of_mem_take htake)
      exact (List.mem_filter.mp htracked).1
  -- an insert that answered has stored the record; the other calls answer something else
  | inserted =>
      cases hw with
      | same hrows hinsert => exact absurd rfl (hinsert r)
      | inserted r' he hrows =>
          injection he with hcall
          injection hcall with hq
          injection hq with hr
          subst hr
          rw [hrows]
          exact List.mem_cons_self
      | saved r' he hrows => injection he with hcall; injection hcall with hq; cases hq

theorem kept {s : Config (machine C)} (hs : Reach ok s) : Kept s := by
  refine hs.invariant (J := Kept) ?_ ?_
  · constructor
    · intro x hx
      cases hx
    · intro t e r he
      cases he
  · intro s s' m hr hk _ hst
    have hstep := hk.step_fixed hr hst
    constructor
    · intro x hx
      rcases hstep.origin hx with ⟨r, hr, hsame⟩ | ⟨t, k, hist, -, -, -, -, hid⟩
      · rw [hsame.id]
        exact hk.ids _ hr
      · exact hid.symm
    · intro t e r he hshows
      have hold : (t, e) ∈ s.trace →
          ∃ r', (r.id, r') ∈ s'.world.db.fixed.rows ∧ SamePlan r r' := by
        intro he
        obtain ⟨r₁, hr₁, h₁⟩ := hk.shown t e r he hshows
        obtain ⟨r₂, hr₂, h₂⟩ := hstep.keeps hr₁
        exact ⟨r₂, hr₂, h₁.trans h₂⟩
      rcases step_writes_fixed hst with ⟨-, htrace⟩ | ⟨u, ch, c, k, hist, reply, -, htrace, hp⟩
      · rw [htrace] at he
        exact hold he
      · rw [htrace] at he
        rcases List.mem_cons.mp he with hnew | he
        · obtain ⟨rfl, rfl⟩ := Prod.mk.inj hnew
          exact ⟨r, shown_fixed hk.ids hp hshows, .refl r⟩
        · exact hold he

theorem step_fixed {s s' : Config (machine C)} (hs : Reach ok s) {m : Move (machine C)}
    (hst : s.step m = some s') : FixedStep s s' := (kept hs).step_fixed hs hst

/-- A claim that a program has read is stored with its plan. -/
theorem read_stored {s : Config (machine C)} (hs : Reach ok s) {t : Nat} {th : Thread (Api L)}
    (hth : s.thread t = some th) (hr : Read r th.history) :
    ∃ r', (r.id, r') ∈ s.world.db.fixed.rows ∧ SamePlan r r' := by
  obtain ⟨e, hmem, hshows⟩ := hr
  exact (kept hs).shown t e r (hs.history_mem t th hth e hmem) hshows

end OpenSsp.Deposit
