/-
OpenSsp/Coop/Run.lean

The exits over whole runs.

Only two statements write exits or reservations, and only the holder of the lock makes them
(`writes`).  So what a program has read or written of an exit while it holds the lock is still in
the table when it writes the exit again (`fresh_row`), and an update is a `Change` of the row that
is there (`Written.updated`).

Main results: `written`, what one step does to the tables, and `fresh_row`.
-/
import OpenSsp.Coop.Contract

namespace OpenSsp.Coop

open Interleave Bitcoin

variable {L : Library} {C : Service L}
  {ok : Config (machine C) → Move (machine C) → Prop}

/-! ### Calls -/

theorem perform_db {t : Nat} {q : Query L} {ch : Choice L} {w w' : World L}
    {r : (Call.db q : Call L).Reply} (h : perform t (.db q) ch w = some (r, w')) :
    (r = (q.run w.now w.db).1 ∧ w' = { w with db := (q.run w.now w.db).2 }) ∨
      (∃ e, r = .error e) ∧ w' = w := by
  cases ch with
  | done =>
      obtain ⟨rfl, rfl⟩ := Prod.mk.inj (Option.some.inj h)
      exact .inl ⟨rfl, rfl⟩
  | fail e =>
      obtain ⟨rfl, rfl⟩ := Prod.mk.inj (Option.some.inj h)
      exact .inr ⟨⟨e, rfl⟩, rfl⟩
  | _ => simp [perform] at h

/-- A transfer the operators have reported is reported again. -/
theorem perform_queryTransfer {t : Nat} {id : Uuid} {ch : Choice L} {w w' : World L}
    {r : (Call.queryTransfer id : Call L).Reply}
    (h : perform t (.queryTransfer id) ch w = some (r, w')) :
    (r = .ok none ∧ id ∉ w.reported ∧ w' = w) ∨
    (∃ transfer, r = .ok (some transfer) ∧ w' = { w with reported := id :: w.reported }) ∨
    (∃ e, r = .error e) ∧ w' = w := by
  cases ch with
  | transfer found =>
      cases found with
      | none =>
          simp only [perform] at h
          split at h
          · simp at h
          · next hno =>
              obtain ⟨rfl, rfl⟩ := Prod.mk.inj (Option.some.inj h)
              exact .inl ⟨rfl, hno, rfl⟩
      | some found =>
          obtain ⟨rfl, rfl⟩ := Prod.mk.inj (Option.some.inj h)
          exact .inr (.inl ⟨found, rfl, rfl⟩)
  | fail e =>
      obtain ⟨rfl, rfl⟩ := Prod.mk.inj (Option.some.inj h)
      exact .inr (.inr ⟨⟨e, rfl⟩, rfl⟩)
  | _ => simp [perform] at h

/-- What the calls that are no statements do. -/
structure OtherCall (c : Call L) (w w' : World L) : Prop where
  db : w'.db = w.db
  reported : ∀ id ∈ w.reported, id ∈ w'.reported
  signed : w'.signed = w.signed ∨ ∃ id raw, c = .signPayout id raw ∧ w'.signed = id :: w.signed

theorem OtherCall.refl (c : Call L) (w : World L) : OtherCall c w w :=
  ⟨rfl, fun _ => id, .inl rfl⟩

theorem perform_other {t : Nat} {c : Call L} {ch : Choice L} {w w' : World L} {r : c.Reply}
    (h : perform t c ch w = some (r, w')) (hc : ∀ q, c ≠ .db q) : OtherCall c w w' := by
  cases c with
  | db q => exact absurd rfl (hc q)
  | lock l =>
      cases ch with
      | done =>
          simp only [perform, Option.map_eq_some_iff] at h
          obtain ⟨locks, -, he⟩ := h
          obtain ⟨-, rfl⟩ := Prod.mk.inj he
          exact ⟨rfl, fun _ => id, .inl rfl⟩
      | _ => simp [perform] at h
  | unlock l =>
      cases ch with
      | done =>
          obtain ⟨-, rfl⟩ := Prod.mk.inj (Option.some.inj h)
          exact ⟨rfl, fun _ => id, .inl rfl⟩
      | _ => simp [perform] at h
  | queryTransfer id =>
      rcases perform_queryTransfer h with ⟨-, -, rfl⟩ | ⟨transfer, -, rfl⟩ | ⟨-, rfl⟩
      · exact .refl _ _
      · exact ⟨rfl, fun _ => List.mem_cons_of_mem _, .inl rfl⟩
      · exact .refl _ _
  | signPayout id raw =>
      cases ch with
      | sign reply =>
          obtain ⟨-, rfl⟩ := Prod.mk.inj (Option.some.inj h)
          exact ⟨rfl, fun _ => fun hx => hx, .inr ⟨id, raw, rfl, rfl⟩⟩
      | fail e =>
          obtain ⟨-, rfl⟩ := Prod.mk.inj (Option.some.inj h)
          exact ⟨rfl, fun _ => fun hx => hx, .inr ⟨id, raw, rfl, rfl⟩⟩
      | _ => simp [perform] at h
  | _ =>
      cases ch <;> simp only [perform, Option.some.injEq, Prod.mk.injEq, reduceCtorEq] at h
      all_goals
        obtain ⟨-, rfl⟩ := h
        exact .refl _ _

/-- How a call moves the locks. -/
theorem perform_locks {t : Nat} {c : Call L} {ch : Choice L} {w w' : World L} {r : c.Reply}
    (h : perform t c ch w = some (r, w')) :
    (∃ l, c = .lock l ∧ w.locks.take t l = some w'.locks) ∨
    (∃ l, c = .unlock l ∧ w'.locks = w.locks.release t l) ∨
    ((∀ l, c ≠ .lock l) ∧ w'.locks = w.locks) := by
  cases c with
  | lock l =>
      left
      cases ch with
      | done =>
          simp only [perform, Option.map_eq_some_iff] at h
          obtain ⟨locks, hl, he⟩ := h
          obtain ⟨-, rfl⟩ := Prod.mk.inj he
          exact ⟨l, rfl, hl⟩
      | _ => simp [perform] at h
  | unlock l =>
      right; left
      cases ch with
      | done =>
          obtain ⟨-, rfl⟩ := Prod.mk.inj (Option.some.inj h)
          exact ⟨l, rfl, rfl⟩
      | _ => simp [perform] at h
  | db q =>
      right; right
      rcases perform_db h with ⟨-, rfl⟩ | ⟨-, rfl⟩ <;> exact ⟨by simp, rfl⟩
  | queryTransfer id =>
      right; right
      rcases perform_queryTransfer h with ⟨-, -, rfl⟩ | ⟨transfer, -, rfl⟩ | ⟨-, rfl⟩ <;>
        exact ⟨by simp, rfl⟩
  | _ =>
      right; right
      cases ch <;> simp only [perform, Option.some.injEq, Prod.mk.injEq, reduceCtorEq] at h
      all_goals
        obtain ⟨-, rfl⟩ := h
        exact ⟨by simp, rfl⟩

theorem outside_frame {o : Outside} {w w' : World L} (h : outside o w = some w') :
    w'.db.exits = w.db.exits ∧ w'.db.inputs = w.db.inputs ∧ w'.locks = w.locks ∧
      w'.reported = w.reported ∧ w'.signed = w.signed := by
  cases o <;> obtain rfl := Option.some.inj h <;> exact ⟨rfl, rfl, rfl, rfl, rfl⟩

def guards (C : Service L) : Guards (machine C) Lock :=
  .ofMutexes (fun w : World L => w.locks) .lock .unlock (fun _ _ h => by injection h)
    (fun h => perform_locks h) (fun _ _ => rfl) (fun h => (outside_frame h).2.2.1)
    fun _ _ h => by injection h

theorem held_iff {h : History (Api L)} : (guards C).Held .exits h ↔ Holds h := Iff.rfl

theorem made_justified {s : Config (machine C)} (hs : Reach ok s) {t : Nat} {c : Call L}
    {k : c.Reply → Prog (Api L) Unit} {hist : History (Api L)}
    (hth : s.thread t = some ⟨.call c k, hist⟩) : Justified C hist c :=
  hs.justified handler_justified hth

/-! ### What a step writes -/

/-- The tables of exits and of reservations are the same. -/
def SameExits (w w' : World L) : Prop :=
  w'.db.exits = w.db.exits ∧ w'.db.inputs = w.db.inputs

theorem SameExits.refl (w : World L) : SameExits w w := ⟨rfl, rfl⟩

theorem SameExits.trans {a b c : World L} (h : SameExits a b) (h' : SameExits b c) :
    SameExits a c := ⟨h'.1.trans h.1, h'.2.trans h.2⟩

/-- What a call does to the tables of exits. -/
inductive Writes (w w' : World L) : Call L → Prop
  | same {c : Call L} (h : SameExits w w') : Writes w w' c
  | inserted (record : ExitRecord L) (outpoint : OutPoint)
      (h : w.db.insertCoopExit record outpoint = .ok w'.db) :
      Writes w w' (.db (.insertCoopExit record outpoint))
  | updated (record : ExitRecord L) (h : w'.db = w.db.updateCoopExit record) :
      Writes w w' (.db (.updateCoopExit record))

theorem perform_writes {t : Nat} {c : Call L} {ch : Choice L} {w w' : World L} {r : c.Reply}
    (h : perform t c ch w = some (r, w')) : Writes w w' c := by
  by_cases hc : ∀ q, c ≠ .db q
  · have hdb := (perform_other h hc).db
    exact .same ⟨by rw [hdb], by rw [hdb]⟩
  · push Not at hc
    obtain ⟨q, rfl⟩ := hc
    rcases perform_db h with ⟨-, rfl⟩ | ⟨-, rfl⟩
    · cases q with
      | insertCoopExit record outpoint =>
          rcases hins : w.db.insertCoopExit record outpoint with e | db
          · refine .same ?_
            simp only [Query.run, transact, hins]
            exact .refl w
          · refine .inserted record outpoint ?_
            simp only [Query.run, transact, hins]
      | updateCoopExit record => exact .updated record rfl
      | _ => exact .same (Query.run_frame rfl)
    · exact .same (.refl _)

theorem step_writes {s s' : Config (machine C)} {m : Move (machine C)}
    (hst : s.step m = some s') : SameExits s.world s'.world ∨
      ∃ t c k hist, s.thread t = some ⟨.call c k, hist⟩ ∧ Writes s.world s'.world c := by
  rcases Config.step_cases hst with ⟨q, -, rfl⟩ | ⟨t, ch, c, k, hist, r, w, -, hth, hp, rfl⟩ |
    ⟨t, th, -, -, rfl⟩ | ⟨-, rfl⟩ | ⟨o, w, -, ho, rfl⟩
  · exact .inl (.refl _)
  · exact .inr ⟨t, c, k, hist, hth, perform_writes hp⟩
  · exact .inl (.refl _)
  · exact .inl (.refl _)
  · obtain ⟨hexits, hinputs, -⟩ := outside_frame ho
    exact .inl ⟨hexits, hinputs⟩

/-! ### Rows -/

/-- The columns agree with the record. -/
structure ExitRow.Agrees (row : ExitRow L) : Prop where
  id : row.id = row.data.id
  status : row.status = row.data.status

theorem agrees {s : Config (machine C)} (hs : Reach ok s) :
    ∀ row ∈ s.world.db.exits.rows, row.Agrees := by
  refine hs.invariant (J := fun s : Config (machine C) =>
    ∀ row ∈ s.world.db.exits.rows, row.Agrees) ?_ ?_
  · intro row hrow
    simp [Config.start, machine, Db.empty, ExitTable.empty, Table.empty] at hrow
  · intro s s' m _ ih _ hst row hrow
    rcases step_writes hst with hsame | ⟨t, c, k, hist, hth, hw⟩
    · rw [hsame.1] at hrow
      exact ih row hrow
    · rcases hw with hsame | ⟨record, outpoint, hins⟩ | ⟨record, hupd⟩
      · rw [hsame.1] at hrow
        exact ih row hrow
      · obtain ⟨exit, -, hrows, -⟩ := Db.insertCoopExit_ok hins
        rw [hrows] at hrow
        rcases List.mem_cons.mp hrow with rfl | hrow
        · exact ⟨rfl, rfl⟩
        · exact ih row hrow
      · rw [hupd] at hrow
        obtain ⟨old, hold, ⟨hid, rfl⟩ | ⟨-, rfl⟩⟩ := Db.mem_updateCoopExit.mp hrow
        · exact ⟨hid, rfl⟩
        · exact ih row hold

/-- A row stays, with its id. -/
theorem step_ids {s s' : Config (machine C)} {m : Move (machine C)} (hst : s.step m = some s')
    {row : ExitRow L} (hrow : row ∈ s.world.db.exits.rows) :
    ∃ row' ∈ s'.world.db.exits.rows, row'.id = row.id := by
  rcases step_writes hst with hsame | ⟨t, c, k, hist, hth, hw⟩
  · exact ⟨row, hsame.1 ▸ hrow, rfl⟩
  · rcases hw with hsame | ⟨record, outpoint, hins⟩ | ⟨record, hupd⟩
    · exact ⟨row, hsame.1 ▸ hrow, rfl⟩
    · obtain ⟨exit, -, hrows, -⟩ := Db.insertCoopExit_ok hins
      exact ⟨row, hrows ▸ List.mem_cons_of_mem _ hrow, rfl⟩
    · rw [hupd]
      by_cases hid : row.id = record.id
      · exact ⟨_, Db.mem_updateCoopExit.mpr ⟨row, hrow, .inl ⟨hid, rfl⟩⟩, rfl⟩
      · exact ⟨row, Db.mem_updateCoopExit.mpr ⟨row, hrow, .inr ⟨hid, rfl⟩⟩, rfl⟩

/-! ### What replies say -/

/-- The world of a database reply. -/
theorem moment_ran {t : Nat} {q : Query L} {out : q.Out} {h : History (Api L)}
    {s s' : Config (machine C)} (hm : Moment ok t (DbOk q out) h s s') :
    (q.run s.world.now s.world.db).1 = .ok out ∧
      s'.world.db = (q.run s.world.now s.world.db).2 := by
  obtain ⟨ch, k, -, -, hp, -⟩ := hm.made
  have hp : perform t (.db q) ch s.world = some (.ok out, s'.world) := hp
  rcases perform_db hp with ⟨hr, hw⟩ | ⟨⟨e, he⟩, -⟩
  · exact ⟨hr.symm, by rw [hw]⟩
  · simp at he

/-- What a program has read are records of rows. -/
theorem read_row {t : Nat} {e : Event (Api L)} {record : ExitRecord L} {h : History (Api L)}
    {s s' : Config (machine C)} (hm : Moment ok t e h s s') (he : Shows e record)
    (hne : e ≠ DbOk (.updateCoopExit record) ()) :
    ∃ row ∈ s'.world.db.exits.rows, row.data = record := by
  rcases he with ⟨owner, key, transfer, rfl⟩ | ⟨records, rfl, hmem⟩ | rfl
  · obtain ⟨hout, hdb⟩ := moment_ran hm
    obtain ⟨row, hrow, hdata⟩ := Option.map_eq_some_iff.mp (Except.ok.inj hout)
    rw [hdb]
    exact ⟨row, List.mem_reverse.mp (List.mem_of_find?_eq_some hrow), hdata⟩
  · obtain ⟨hout, hdb⟩ := moment_ran hm
    obtain rfl := Except.ok.inj hout
    obtain ⟨row, hrow, hdata⟩ := List.mem_map.mp (List.mem_reverse.mp hmem)
    rw [hdb]
    exact ⟨row, List.mem_of_mem_filter hrow, hdata⟩
  · exact absurd rfl hne

/-- The replies of the database fit together. -/
theorem genuine {s : Config (machine C)} (hs : Reach ok s) {t : Nat} {th : Thread (Api L)}
    (hth : s.thread t = some th) : Genuine th.history := by
  have hpending : ∀ records, DbOk .pendingCoopExits records ∈ th.history →
      ∃ s₀, Reach ok s₀ ∧ records = s₀.world.db.pendingCoopExits := by
    intro records hmem
    obtain ⟨newer, older, hsplit⟩ := List.append_of_mem hmem
    obtain ⟨s₀, s₁, hm⟩ := hs.recalled hth hsplit
    exact ⟨s₀, hm.reach, (Except.ok.inj (moment_ran hm).1).symm⟩
  constructor
  · intro records hmem
    obtain ⟨s₀, hs₀, rfl⟩ := hpending records hmem
    have hids : ((s₀.world.db.exits.rows.filter fun r => !r.status.terminal).map
        fun r => r.data.id) = (s₀.world.db.exits.rows.filter fun r => !r.status.terminal).map
          fun r => r.id :=
      List.map_congr_left fun r hr => (agrees hs₀ r (List.mem_of_mem_filter hr)).id.symm
    rw [Db.pendingCoopExits, List.map_reverse, List.nodup_reverse, List.map_map]
    show ((s₀.world.db.exits.rows.filter _).map fun r => r.data.id).Nodup
    rw [hids]
    exact s₀.world.db.exits.nodup.sublist (List.filter_sublist.map _)
  · intro records hmem record hrecord
    obtain ⟨s₀, hs₀, rfl⟩ := hpending records hmem
    obtain ⟨row, hrow, rfl⟩ := List.mem_map.mp (List.mem_reverse.mp hrecord)
    obtain ⟨hrow, hlive⟩ := List.mem_filter.mp hrow
    rw [← (agrees hs₀ row hrow).status]
    simpa using hlive

/-- An exit a program has seen is in the table. -/
theorem shown_exists {s : Config (machine C)} (hs : Reach ok s) {t : Nat} {e : Event (Api L)}
    {record : ExitRecord L} (he : (t, e) ∈ s.trace) (hshow : Shows e record) :
    ∃ row ∈ s.world.db.exits.rows, row.id = record.id := by
  refine hs.invariant (J := fun s : Config (machine C) => ∀ t e record, (t, e) ∈ s.trace →
    Shows e record → ∃ row ∈ s.world.db.exits.rows, row.id = record.id) ?_ ?_ t e record he hshow
  · intro t e record h
    simp [Config.start] at h
  · intro s s' m hr ih hm hst t e record he hshow
    have hold : (t, e) ∈ s.trace → ∃ row ∈ s'.world.db.exits.rows, row.id = record.id := by
      intro he
      obtain ⟨row, hrow, hid⟩ := ih t e record he hshow
      obtain ⟨row', hrow', hid'⟩ := step_ids hst hrow
      exact ⟨row', hrow', hid'.trans hid⟩
    rcases Config.step_cases hst with ⟨q, -, rfl⟩ | ⟨u, ch, c, k, hist, r, w, rfl, hth, hp, rfl⟩ |
      ⟨u, th, -, -, rfl⟩ | ⟨-, rfl⟩ | ⟨o, w, -, -, rfl⟩
    · exact hold he
    · rcases List.mem_cons.mp he with hnew | he
      · obtain ⟨rfl, rfl⟩ := Prod.mk.inj hnew
        have hmo : Moment ok t ⟨c, r⟩ hist s (s.record t w hist ⟨c, r⟩ (k r)) :=
          ⟨hr, ch, k, hth, hm, hp, rfl⟩
        by_cases hsaved : (⟨c, r⟩ : Event (Api L)) = DbOk (.updateCoopExit record) ()
        · -- the program has seen the exit before
          injection hsaved with hc hreply
          subst hc
          obtain ⟨-, hj⟩ : Justified C hist (.db (.updateCoopExit record)) := made_justified hr hth
          obtain ⟨base, ⟨e', hshow', hsince⟩, -, hchange⟩ := hj (genuine hr hth)
          obtain ⟨row, hrow, hid⟩ := ih t e' base (hr.history_mem t _ hth _ hsince.mem) hshow'
          obtain ⟨row', hrow', hid'⟩ := step_ids hst hrow
          exact ⟨row', hrow', by rw [hid', hid, hchange.id_eq]⟩
        · obtain ⟨row, hrow, rfl⟩ := read_row hmo hshow hsaved
          exact ⟨row, hrow, (agrees (.step hr hm hst) row hrow).id⟩
      · exact hold he
    · exact hold he
    · exact hold he
    · exact hold he

/-- What an event shows is in the table then. -/
theorem shown_row {t : Nat} {e : Event (Api L)} {record : ExitRecord L} {h : History (Api L)}
    {s s' : Config (machine C)} (hm : Moment ok t e h s s') (he : Shows e record) :
    ∃ row ∈ s'.world.db.exits.rows, row.id = record.id ∧ row.data = record := by
  obtain ⟨hs', hmem⟩ := hm.after
  by_cases hsaved : e = DbOk (.updateCoopExit record) ()
  · subst hsaved
    obtain ⟨row, hrow, hid⟩ := shown_exists hs' hmem he
    refine ⟨row, hrow, hid, ?_⟩
    rw [(moment_ran hm).2] at hrow
    obtain ⟨old, -, ⟨-, rfl⟩ | ⟨hne, rfl⟩⟩ := Db.mem_updateCoopExit.mp hrow
    · rfl
    · exact absurd hid hne
  · obtain ⟨row, hrow, rfl⟩ := read_row hm he hsaved
    exact ⟨row, hrow, (agrees hs' row hrow).id, rfl⟩

/-! ### Under the lock -/

/-- A call that keeps the exits outside `A`, or that is made without the lock, writes nothing
else. -/
theorem call_frame {s : Config (machine C)} (hs : Reach ok s) {t : Nat} {ch : Choice L}
    {c : Call L} {k : c.Reply → Prog (Api L) Unit} {h : History (Api L)} {r : c.Reply} {w : World L}
    {A : String → Prop} (hth : s.thread t = some ⟨.call c k, h⟩)
    (hp : perform t c ch s.world = some (r, w))
    (hq : Keeps A (⟨c, r⟩ : Event (Api L)) ∨ ¬ Holds h) :
    SameExits s.world w ∨ ∃ q id, c = .db q ∧ q.saves = some id ∧ A id := by
  have hkeep : ∀ q id, c = .db q → q.saves = some id → Holds h → A id := by
    intro q id hc hsaves hheld
    rcases hq with hk | hno
    · exact hk.2 q id hc hsaves
    · exact absurd hheld hno
  have hj := made_justified hs hth
  rcases perform_writes hp with hsame | ⟨record, outpoint, hins⟩ | ⟨record, hupd⟩
  · exact .inl hsame
  · exact .inr ⟨_, record.id, rfl, rfl, hkeep _ _ rfl rfl hj.1⟩
  · exact .inr ⟨_, record.id, rfl, rfl, hkeep _ _ rfl rfl hj.1⟩

/-- The row of the exit stays as it is. -/
def RowKept (id : String) (w w' : World L) : Prop :=
  ∀ row ∈ w.db.exits.rows, row.id = id → row ∈ w'.db.exits.rows

theorem SameExits.rowKept {id : String} {w w' : World L} (h : SameExits w w') : RowKept id w w' :=
  fun _ hrow _ => h.1 ▸ hrow

theorem call_rowKept {s : Config (machine C)} (hs : Reach ok s) {t : Nat} {ch : Choice L}
    {c : Call L} {k : c.Reply → Prog (Api L) Unit} {h : History (Api L)} {r : c.Reply} {w : World L}
    {id : String} (hth : s.thread t = some ⟨.call c k, h⟩)
    (hp : perform t c ch s.world = some (r, w))
    (hq : Keeps (· ≠ id) (⟨c, r⟩ : Event (Api L)) ∨ ¬ Holds h) : RowKept id s.world w := by
  rcases call_frame hs hth hp hq with hsame | ⟨q, id', rfl, hsaves, hne⟩
  · exact hsame.rowKept
  · intro row hrow hid
    rcases perform_writes hp with hsame | ⟨record, outpoint, hins⟩ | ⟨record, hupd⟩
    · exact hsame.1 ▸ hrow
    · obtain ⟨exit, -, hrows, -⟩ := Db.insertCoopExit_ok hins
      exact hrows ▸ List.mem_cons_of_mem _ hrow
    · -- the update is of another exit
      obtain rfl : record.id = id' := Option.some.inj hsaves
      rw [hupd]
      exact Db.mem_updateCoopExit.mpr ⟨row, hrow, .inr ⟨fun he => hne (by rw [← he, hid]), rfl⟩⟩

/-- What the holder of the lock has seen and not written since is in the table. -/
theorem fresh_row {s : Config (machine C)} (hs : Reach ok s) {t : Nat} {th : Thread (Api L)}
    {record : ExitRecord L} (hth : s.thread t = some th) (hheld : Holds th.history)
    (hfresh : Fresh record th.history) :
    ∃ row ∈ s.world.db.exits.rows, row.id = record.id ∧ row.data = record := by
  obtain ⟨e, hshow, hsince⟩ := hfresh
  obtain ⟨older, s₀, s₁, hm, hkept⟩ := (guards C).learned (l := .exits)
    (S := RowKept record.id) (q := Keeps (· ≠ record.id)) (fun _ _ hrow _ => hrow)
    (fun _ _ _ h h' row hrow hid => h' row (h row hrow hid) hid)
    (fun x hx => ⟨hx.1.1, hx.1.2⟩)
    (fun s t ch c k h r w hr hth _ hp hq => call_rowKept hr hth hp hq)
    (fun _ _ _ hrow _ => hrow) (fun _ _ hrow _ => hrow)
    (fun _ _ _ ho row hrow _ => (outside_frame ho).1 ▸ hrow) hs hth hheld hsince
  obtain ⟨row, hrow, hid, hdata⟩ := shown_row hm hshow
  exact ⟨row, hkept row hrow hid, hid, hdata⟩

/-- What the holder of the lock has read of the tables and not written since is still so. -/
theorem read_now {s : Config (machine C)} (hs : Reach ok s) {t : Nat} {th : Thread (Api L)}
    {e : Event (Api L)} (hth : s.thread t = some th) (hheld : Holds th.history)
    (hsince : Since (Keeps fun _ => False) e th.history) :
    ∃ older s₀ s₁, Moment ok t e older s₀ s₁ ∧ SameExits s₁.world s.world := by
  refine (guards C).learned (l := .exits) (S := SameExits) (q := Keeps fun _ => False)
    SameExits.refl (fun _ _ _ => SameExits.trans) (fun x hx => ⟨hx.1.1, hx.1.2⟩)
    (fun s t ch c k h r w hr hth _ hp hq => ?_) (fun _ _ => .refl _) (fun _ => .refl _)
    (fun _ _ _ ho => ⟨(outside_frame ho).1, (outside_frame ho).2.1⟩) hs hth hheld hsince
  rcases call_frame hr hth hp hq with hsame | ⟨q, id, -, -, hf⟩
  · exact hsame
  · exact hf.elim

/-! ### One step -/

/-- What a step does to the tables of exits, and what the program that makes it knows. -/
inductive Written (s s' : Config (machine C)) : Prop
  | same (h : SameExits s.world s'.world)
  | inserted (record : ExitRecord L) (outpoint : OutPoint)
      (hspends : ∃ outputs, record.rawExit = L.serializeHex (transaction [outpoint] outputs))
      (hunsigned : record.signedExit = none) (hinitiated : record.status = .initiated)
      (hnone : s.world.db.coopExitPendingForOwner record.owner = false)
      (h : s.world.db.insertCoopExit record outpoint = .ok s'.world.db)
  | updated (t : Nat) (hist : History (Api L)) (row : ExitRow L) (record : ExitRecord L)
      (k : (Call.db (.updateCoopExit record)).Reply → Prog (Api L) Unit)
      (hth : s.thread t = some ⟨.call (.db (.updateCoopExit record)) k, hist⟩)
      (hrow : row ∈ s.world.db.exits.rows) (hid : row.id = record.id)
      (hlive : row.data.status.terminal = false) (hchange : Change C hist row.data record)
      (h : s'.world.db = s.world.db.updateCoopExit record)

/-- The insert of a record, with what is known about the tables. -/
theorem reserving_now {s : Config (machine C)} (hs : Reach ok s) {t : Nat} {th : Thread (Api L)}
    {record : ExitRecord L} {outpoint : OutPoint} (hth : s.thread t = some th)
    (hheld : Holds th.history) (hr : Reserving th.history record outpoint) :
    s.world.db.coopExitPendingForOwner record.owner = false ∧
      DbOk .coopReservedInputs s.world.db.coopReservedInputs ∈ th.history ∧
      outpoint ∉ s.world.db.coopReservedInputs := by
  constructor
  · obtain ⟨older, s₀, s₁, hm, hsame⟩ := read_now hs hth hheld hr.nonePending
    obtain ⟨hout, hdb⟩ := moment_ran hm
    have hnone := Except.ok.inj hout
    rw [Db.coopExitPendingForOwner, hsame.1, hdb]
    exact hnone
  · obtain ⟨reserved, hsince, hfree⟩ := hr.unreserved
    obtain ⟨older, s₀, s₁, hm, hsame⟩ := read_now hs hth hheld hsince
    obtain ⟨hout, hdb⟩ := moment_ran hm
    have hreserved : s.world.db.coopReservedInputs = reserved := by
      rw [Db.coopReservedInputs, hsame.2, hdb]
      exact Except.ok.inj hout
    rw [hreserved]
    exact ⟨hsince.mem, hfree⟩

theorem written {s s' : Config (machine C)} {m : Move (machine C)} (hs : Reach ok s)
    (hst : s.step m = some s') : Written s s' := by
  rcases step_writes hst with hsame | ⟨t, c, k, hist, hth, hw⟩
  · exact .same hsame
  · have hj := made_justified hs hth
    rcases hw with hsame | ⟨record, outpoint, hins⟩ | ⟨record, hupd⟩
    · exact .same hsame
    · obtain ⟨hheld, hr⟩ := hj
      obtain ⟨hnone, -⟩ := reserving_now hs hth hheld hr
      exact .inserted record outpoint hr.spends hr.unsigned hr.initiated hnone hins
    · obtain ⟨hheld, hj⟩ := hj
      obtain ⟨base, hfresh, hlive, hchange⟩ := hj (genuine hs hth)
      obtain ⟨row, hrow, hid, rfl⟩ := fresh_row hs hth hheld hfresh
      exact .updated t hist row record k hth hrow (by rw [hid, hchange.id_eq]) hlive hchange hupd

/-! ### A concrete run -/

/-- A key is its own text, and requests are told apart by their transfers. -/
def Service.sample : Service .sample where
  identity := ⟨"ssp"⟩
  parsePublicKey s := .ok ⟨s⟩
  regtest := true
  userFee := 0
  fingerprint request := request.userOutboundTransferExternalId.getD ""

namespace Sample

/-- Program `t` makes its next calls. -/
def calls (t : Nat) (chs : List (Choice .sample)) : List (Move (machine .sample)) :=
  Move.runs t chs

def leafId : Uuid := Uuid.fill 1

def transferId : Uuid := Uuid.fill 2

def exitId : Uuid := Uuid.fill 3

def nodes : List (String × Node) := [(leafId.print, ⟨⟨"alice"⟩, true, true, 1000⟩)]

def coin : Coin where
  spendable := true
  safe := true
  amount := .ok 10000
  script := .ok (0x00 :: 0x14 :: List.replicate 20 0)
  outpoint := .ok ⟨⟨[9]⟩, 0⟩

/-- Alice asks for a withdrawal of a leaf of 1000 sats; the rates are 1 sat/vB. -/
def requested : List (Move (machine .sample)) :=
  .spawn (Request.request "alice"
    { leafExternalIds := [leafId.print], withdrawalAddress := "bc1", exitSpeed := "FAST",
      withdrawAll := true, feeLeafExternalIds := none, feeQuoteId := none,
      idempotencyKey := some "key",
      userOutboundTransferExternalId := some transferId.print }) ::
  calls 0 [.done, .done, .done,
    .nodes nodes, .estimate none, .estimate none, .estimate none, .uuid exitId, .done, .done, .done,
    .done, .nodes nodes, .done, .unspent [coin],
    .address (some "ssp1"), .address (some "ssp2"), .address (some "ssp3"),
    .address (some "ssp4"), .uuid exitId, .done, .done, .done, .done, .done]

/-- The payout of that withdrawal. -/
def payout : Bitcoin.Transaction :=
  transaction [⟨⟨[9]⟩, 0⟩] [⟨824, [1]⟩, ⟨660, [1]⟩, ⟨8340, [1]⟩]

end Sample

end OpenSsp.Coop
