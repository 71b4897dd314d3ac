/-
OpenSsp/SplitCheckpoint.lean

The checkpoints of leaf splits over whole runs.

A row never goes back: neither its id, parent and child values change, nor does its status
fall (`rows_step`, `later_grows`).  So a program that has saved a stage finds at least
that stage when it reads the row again, and its resume loop is over within four rounds
(`genuine`).  Between two submissions of one operation the row stays SUBMITTING, and its plan
column is written in neither direction (`Submitted`); the holder of the lock submits the
column's present content (`submits`).

Main result: `split_checkpoints`.
-/
import OpenSsp.SplitContract

namespace OpenSsp.LeafSplit

open Interleave

variable {S : Sdk} {rounds : Nat}
  {ok : Config (machine S rounds) → Move (machine S rounds) → Prop}

/-! ### Calls -/

/-- A query is run on the tables, or it fails and has not been run. -/
theorem perform_db {t : Nat} {q : Query} {ch : Choice S} {w w' : World}
    {r : (Call.db q : Call S).Reply} (h : perform S t (.db q) ch w = some (r, w')) :
    (∃ out db, q.run w.now w.db = .ok (out, db) ∧ r = .ok out ∧ w' = { w with db }) ∨
      (∃ e, r = .error e) ∧ w' = w := by
  cases ch with
  | done =>
      simp only [perform] at h
      split at h
      · next out db hrun =>
          obtain ⟨rfl, rfl⟩ := Prod.mk.inj (Option.some.inj h)
          exact .inl ⟨out, db, hrun, rfl, rfl⟩
      · next e he =>
          obtain ⟨rfl, rfl⟩ := Prod.mk.inj (Option.some.inj h)
          exact .inr ⟨⟨e, rfl⟩, rfl⟩
  | fail e =>
      obtain ⟨rfl, rfl⟩ := Prod.mk.inj (Option.some.inj h)
      exact .inr ⟨⟨e, rfl⟩, rfl⟩
  | _ => simp [perform] at h

/-- A call that is no statement leaves the tables alone. -/
theorem perform_other {t : Nat} {c : Call S} {ch : Choice S} {w w' : World} {r : c.Reply}
    (h : perform S t c ch w = some (r, w')) (hc : ∀ q, c ≠ .db q) : w'.db = w.db := by
  cases c with
  | db q => exact absurd rfl (hc q)
  | lock l =>
      cases ch with
      | done =>
          simp only [perform, Option.map_eq_some_iff] at h
          obtain ⟨locks, -, he⟩ := h
          obtain ⟨-, rfl⟩ := Prod.mk.inj he
          rfl
      | _ => simp [perform] at h
  | _ =>
      cases ch <;> simp only [perform, Option.some.injEq, Prod.mk.injEq, reduceCtorEq] at h
      all_goals
        obtain ⟨-, rfl⟩ := h
        rfl

/-- How a call moves the lock. -/
theorem perform_locks {t : Nat} {c : Call S} {ch : Choice S} {w w' : World} {r : c.Reply}
    (h : perform S t c ch w = some (r, w')) :
    (∃ l, c = .lock l ∧ w.locks.take t l = some w'.locks) ∨
    (∃ l, c = .unlock l ∧ w'.locks = w.locks.release t l) ∨
    ((∀ l, c ≠ .lock l) ∧ w'.locks = w.locks) := by
  cases c with
  | lock l =>
      left
      cases ch with
      | done =>
          simp only [perform, Option.map_eq_some_iff] at h
          obtain ⟨locks, hl, he⟩ := h
          obtain ⟨-, rfl⟩ := Prod.mk.inj he
          exact ⟨l, rfl, hl⟩
      | _ => simp [perform] at h
  | unlock l =>
      right; left
      cases ch with
      | done =>
          obtain ⟨-, rfl⟩ := Prod.mk.inj (Option.some.inj h)
          exact ⟨l, rfl, rfl⟩
      | _ => simp [perform] at h
  | db q =>
      right; right
      rcases perform_db h with ⟨out, db, -, -, rfl⟩ | ⟨-, rfl⟩ <;> exact ⟨by simp, rfl⟩
  | _ =>
      right; right
      cases ch <;> simp only [perform, Option.some.injEq, Prod.mk.injEq, reduceCtorEq] at h
      all_goals
        obtain ⟨-, rfl⟩ := h
        exact ⟨by simp, rfl⟩

/-- The outside takes no lock. -/
theorem outside_locks {o : Outside} {w w' : World} (h : outside o w = some w') :
    w'.locks = w.locks := by
  cases o with
  | tick n =>
      obtain rfl := Option.some.inj h
      rfl
  | putPendingSplitKeys operationId parentNodeId encryptedKeys =>
      obtain ⟨db, -, rfl⟩ := Option.map_eq_some_iff.mp h
      rfl
  | bindPendingSplitKeys operationId nodeIds =>
      obtain ⟨db, -, rfl⟩ := Option.map_eq_some_iff.mp h
      rfl

/-- The liquidity lock. -/
def guards (S : Sdk) (rounds : Nat) : Guards (machine S rounds) Lock :=
  .ofMutexes (fun w : World => w.locks) .lock .unlock (fun _ _ h => by injection h)
    (fun h => perform_locks h) (fun _ _ => rfl) (fun h => outside_locks h)
    fun _ _ h => by injection h

/-- The two readings of a held lock are one. -/
theorem held_iff {h : History (Api S)} : (guards S rounds).Held .liquidity h ↔ Holds h := Iff.rfl

/-! ### Rows over a run -/

/-- The status that follows. -/
def SplitStatus.next : SplitStatus → SplitStatus
  | draft => prepared
  | prepared => submitting
  | submitting => submitted
  | _ => completed

/-- What one step of the system can do to a row. -/
structure SplitRow.Step (r r' : SplitRow) : Prop where
  same : r.Same r'
  status : r'.status = r.status ∨ r'.status = r.status.next
  plan : r'.plan = r.plan ∨ r.status = .draft ∨ r.status = .prepared ∨ r'.status = .submitted
  children : r'.childNodeIds = r.childNodeIds ∨ r'.childNodeIds ≠ []
  bound : r'.status = .completed → r.status = .completed ∨ r'.childNodeIds ≠ []

/-- A row that stays is a step. -/
theorem SplitRow.Step.refl (r : SplitRow) : r.Step r :=
  ⟨.refl r, .inl rfl, .inl rfl, .inl rfl, .inl⟩

/-- A step does not lower the status. -/
theorem SplitRow.Step.rank {r r' : SplitRow} (h : r.Step r') :
    r.status.rank ≤ r'.status.rank := by
  rcases h.status with hs | hs <;> rw [hs]
  cases r.status <;> decide

/-- What a query does to a row is a step of the row. -/
theorem RowStep.step {q : Query} {r r' : SplitRow} (hsame : r.Same r') (h : RowStep q r r') :
    r.Step r' := by
  rcases h with ⟨plan, status, children⟩ | ⟨-, old, status, children⟩ |
    ⟨-, old, status, plan, children⟩ | ⟨-, old, status, children⟩ |
    ⟨-, old, status, plan, children, bound⟩
  · exact ⟨hsame, .inl status, .inl plan, .inl children, fun h => .inl (status ▸ h)⟩
  · refine ⟨hsame, ?_, .inr (old.imp_right .inl), .inl children, by simp [status]⟩
    rcases old with old | old <;> simp [status, old, SplitStatus.next]
  · exact ⟨hsame, .inr (by simp [status, old, SplitStatus.next]), .inl plan, .inl children,
      by simp [status]⟩
  · refine ⟨hsame, ?_, .inr (.inr (.inr status)), .inl children, by simp [status]⟩
    rcases old with old | old <;> simp [status, old, SplitStatus.next]
  · refine ⟨hsame, ?_, .inl plan, .inl children, fun _ => .inr (by rwa [children])⟩
    rcases old with old | old <;> simp [status, old, SplitStatus.next]

/-- The rows of the second world are those of the first one after a step, and at most one
new draft. -/
def RowsStep (w w' : World) : Prop :=
  (∃ f, w'.db.splits.rows = w.db.splits.rows.map f ∧ ∀ r ∈ w.db.splits.rows, r.Step (f r)) ∨
  ∃ r, r.status = .draft ∧ w'.db.splits.rows = r :: w.db.splits.rows

/-- Tables that stay are a step. -/
theorem RowsStep.of_eq {w w' : World} (h : w'.db.splits = w.db.splits) : RowsStep w w' :=
  .inl ⟨id, by rw [h, List.map_id], fun r _ => .refl r⟩

/-- Binding keys completes the split they belong to, or writes none. -/
theorem bind_rows {db db' : Db} {operationId : String} {nodeIds : List String}
    (h : db.bindPendingSparkSplitKeys operationId nodeIds = .ok db') :
    db'.splits = db.splits ∨ nodeIds ≠ [] ∧ db'.splits.rows = db.splits.rows.map fun r =>
      if Db.withId operationId r then { r with childNodeIds := nodeIds, lastError := none }
      else r := by
  unfold Db.bindPendingSparkSplitKeys at h
  obtain ⟨hids, h⟩ := guard_ok h
  obtain ⟨operation, -, h⟩ := bind_ok h
  obtain ⟨-, h⟩ := guard_ok h
  split at h
  · split at h
    · obtain rfl := Except.ok.inj h
      exact .inl rfl
    · simp at h
  · obtain ⟨-, h⟩ := guard_ok h
    obtain rfl := Except.ok.inj h
    exact .inr ⟨fun hn => hids (.inl hn), rfl⟩

/-- Storing keys writes no split. -/
theorem put_rows {db db' : Db} {operationId parentNodeId : String} {keys : List (List UInt8)}
    (h : db.putPendingSparkSplitKeys operationId parentNodeId keys = .ok db') :
    db'.splits = db.splits := by
  simp only [Db.putPendingSparkSplitKeys] at h
  split at h
  · simp at h
  · split at h
    · obtain rfl := Except.ok.inj h
      rfl
    · simp at h

/-- The key store callbacks bind children, and nothing else. -/
theorem outside_rows {o : Outside} {w w' : World} (h : outside o w = some w') :
    ∃ f, w'.db.splits.rows = w.db.splits.rows.map f ∧ ∀ r : SplitRow, r.Same (f r) ∧
      (f r).status = r.status ∧ (f r).plan = r.plan ∧
      ((f r).childNodeIds = r.childNodeIds ∨ (f r).childNodeIds ≠ []) := by
  have hid : ∀ {w' : World}, w'.db.splits = w.db.splits → ∃ f,
      w'.db.splits.rows = w.db.splits.rows.map f ∧ ∀ r : SplitRow, r.Same (f r) ∧
        (f r).status = r.status ∧ (f r).plan = r.plan ∧
        ((f r).childNodeIds = r.childNodeIds ∨ (f r).childNodeIds ≠ []) :=
    fun he => ⟨id, by rw [he, List.map_id], fun r => ⟨.refl r, rfl, rfl, .inl rfl⟩⟩
  cases o with
  | tick n =>
      obtain rfl := Option.some.inj h
      exact hid rfl
  | putPendingSplitKeys operationId parentNodeId encryptedKeys =>
      obtain ⟨db, hput, rfl⟩ := Option.map_eq_some_iff.mp h
      exact hid (put_rows (toOption_ok hput))
  | bindPendingSplitKeys operationId nodeIds =>
      obtain ⟨db, hbind, rfl⟩ := Option.map_eq_some_iff.mp h
      rcases bind_rows (toOption_ok hbind) with hsame | ⟨hne, hrows⟩
      · exact hid hsame
      · refine ⟨_, hrows, fun r => ?_⟩
        split
        · exact ⟨⟨rfl, rfl, rfl, rfl⟩, rfl, rfl, .inr hne⟩
        · exact ⟨.refl r, rfl, rfl, .inl rfl⟩

/-- The outside writes no split. -/
theorem outside_step {o : Outside} {w w' : World} (h : outside o w = some w') : RowsStep w w' := by
  obtain ⟨f, hrows, hf⟩ := outside_rows h
  refine .inl ⟨f, hrows, fun r _ => ?_⟩
  obtain ⟨hsame, hstatus, hplan, hchildren⟩ := hf r
  exact ⟨hsame, .inl hstatus, .inl hplan, hchildren, fun hc => .inl (hstatus ▸ hc)⟩

section run

variable (hrounds : 4 ≤ rounds)
include hrounds

/-- A call that was made was justified by what its task had done. -/
theorem made_justified {s : Config (machine S rounds)} (hs : Reach ok s) {t : Nat} {c : Call S}
    {k : c.Reply → Prog (Api S) Unit} {hist : History (Api S)}
    (hth : s.thread t = some ⟨.call c k, hist⟩) : Justified S hist c :=
  hs.justified (handler_justified hrounds) hth

/-- Every step of the machine is a step of the rows. -/
theorem step_rows {s s' : Config (machine S rounds)} {m : Move (machine S rounds)}
    (hs : Reach ok s) (hst : s.step m = some s') : RowsStep s.world s'.world := by
  rcases Config.step_cases hst with ⟨q, -, rfl⟩ | ⟨t, ch, c, k, hist, r, w, -, hth, hp, rfl⟩ |
    ⟨t, th, -, -, rfl⟩ | ⟨-, rfl⟩ | ⟨o, w, -, ho, rfl⟩
  · exact .of_eq rfl
  · have hp : perform S t c ch s.world = some (r, w) := hp
    by_cases hc : ∀ q, c ≠ .db q
    · exact .of_eq (congrArg Db.splits (perform_other hp hc))
    · push Not at hc
      obtain ⟨q, rfl⟩ := hc
      rcases perform_db hp with ⟨out, db, hrun, -, rfl⟩ | ⟨-, rfl⟩
      · rcases Query.rows_step hrun with ⟨f, hrows, hf⟩ | ⟨candidate, rfl, hrows⟩
        · exact .inl ⟨f, hrows, fun r hr => (hf r hr).2.step (hf r hr).1⟩
        · have hdraft : candidate.status = .draft := made_justified hrounds hs hth
          exact .inr ⟨⟨candidate, _⟩, hdraft, hrows⟩
      · exact .of_eq rfl
  · exact .of_eq rfl
  · exact .of_eq rfl
  · exact outside_step ho

end run

/-- Every row is still there, and not further back. -/
def RowsGrow (w w' : World) : Prop :=
  ∀ r ∈ w.db.splits.rows, ∃ r' ∈ w'.db.splits.rows, r.Same r' ∧ r.status.rank ≤ r'.status.rank

theorem RowsGrow.refl (w : World) : RowsGrow w w := fun r hr => ⟨r, hr, .refl r, Nat.le_refl _⟩

theorem RowsGrow.trans {a b c : World} (h : RowsGrow a b) (h' : RowsGrow b c) : RowsGrow a c := by
  intro r hr
  obtain ⟨r₁, hr₁, hs₁, hle₁⟩ := h r hr
  obtain ⟨r₂, hr₂, hs₂, hle₂⟩ := h' r₁ hr₁
  exact ⟨r₂, hr₂, hs₁.trans hs₂, hle₁.trans hle₂⟩

/-- The row a step makes of a row. -/
theorem RowsStep.forward {w w' : World} (h : RowsStep w w') {r : SplitRow}
    (hr : r ∈ w.db.splits.rows) : ∃ r' ∈ w'.db.splits.rows, r.Step r' := by
  rcases h with ⟨f, hrows, hf⟩ | ⟨x, -, hrows⟩
  · exact ⟨f r, hrows ▸ List.mem_map_of_mem hr, hf r hr⟩
  · exact ⟨r, hrows ▸ List.mem_cons_of_mem _ hr, .refl r⟩

/-- Where a row comes from. -/
theorem RowsStep.back {w w' : World} (h : RowsStep w w') {r' : SplitRow}
    (hr' : r' ∈ w'.db.splits.rows) :
    (∃ r ∈ w.db.splits.rows, r.Step r') ∨ r'.status = .draft := by
  rcases h with ⟨f, hrows, hf⟩ | ⟨x, hx, hrows⟩
  · rw [hrows] at hr'
    obtain ⟨r, hr, rfl⟩ := List.mem_map.mp hr'
    exact .inl ⟨r, hr, hf r hr⟩
  · rw [hrows] at hr'
    rcases List.mem_cons.mp hr' with rfl | hr'
    · exact .inr hx
    · exact .inl ⟨r', hr', .refl r'⟩

/-- A step of the rows only adds rows and raises statuses. -/
theorem RowsStep.grow {w w' : World} (h : RowsStep w w') : RowsGrow w w' := by
  intro r hr
  obtain ⟨r', hr', hstep⟩ := h.forward hr
  exact ⟨r', hr', hstep.same, hstep.rank⟩

section run

variable (hrounds : 4 ≤ rounds)
include hrounds

/-- So does a stretch of a run. -/
theorem later_grows {s s' : Config (machine S rounds)} (hs : Reach ok s) (h : Later ok s s') :
    RowsGrow s.world s'.world :=
  Reach.preserved (J := fun x : Config (machine S rounds) => RowsGrow s.world x.world) hs h
    (fun _ _ _ ha _ hst hJ => RowsGrow.trans hJ (step_rows hrounds ha hst).grow) (.refl _)

/-- Every event has its moment, and no row has gone back since. -/
theorem happened {s : Config (machine S rounds)} (hs : Reach ok s) {t : Nat} {e : Event (Api S)}
    (he : (t, e) ∈ s.trace) :
    ∃ h s₀ s₁, Moment ok t e h s₀ s₁ ∧ RowsGrow s₁.world s.world :=
  hs.happened (G := RowsGrow) RowsGrow.refl (fun _ _ _ => RowsGrow.trans)
    (fun _ _ _ ha _ hst => (step_rows hrounds ha hst).grow) t e he

end run

/-- The world of a database reply. -/
theorem moment_ran {t : Nat} {q : Query} {out : q.Out} {h : History (Api S)}
    {s s' : Config (machine S rounds)} (hm : Moment ok t (DbOk q out) h s s') :
    ∃ db, q.run s.world.now s.world.db = .ok (out, db) ∧ s'.world = { s.world with db } := by
  obtain ⟨ch, k, -, -, hp, -⟩ := hm.made
  have hp : perform S t (.db q) ch s.world = some (.ok out, s'.world) := hp
  rcases perform_db hp with ⟨out', db, hrun, he, hw⟩ | ⟨⟨e, he⟩, -⟩
  · obtain rfl := Except.ok.inj he
    exact ⟨db, hrun, hw⟩
  · simp at he

/-- What a reply shows is a row of the table. -/
theorem shown_row {t : Nat} {e : Event (Api S)} {operation : SparkSplitOperation}
    {h : History (Api S)} {s s' : Config (machine S rounds)} (hm : Moment ok t e h s s')
    (he : Shows e operation) :
    ∃ r ∈ s'.world.db.splits.rows, r.toSparkSplitOperation = operation := by
  rcases he with ⟨p, rfl⟩ | ⟨candidate, rfl⟩ | ⟨operations, rfl, hmem⟩
  · obtain ⟨db, hrun, hw⟩ := moment_ran hm
    obtain ⟨hout, rfl⟩ := Prod.mk.inj (Except.ok.inj hrun)
    obtain ⟨r, hr, rfl⟩ := Option.map_eq_some_iff.mp hout
    rw [hw]
    exact ⟨r, (SplitTable.mem_forParent hr).1, rfl⟩
  · obtain ⟨db, hrun, hw⟩ := moment_ran hm
    obtain ⟨r, hr, hrun⟩ := bind_ok hrun
    obtain ⟨rfl, rfl⟩ := Prod.mk.inj (Except.ok.inj hrun)
    rw [hw]
    exact ⟨r, (SplitTable.mem_forParent (okOr_eq_ok.mp hr)).1, rfl⟩
  · obtain ⟨db, hrun, hw⟩ := moment_ran hm
    obtain ⟨rfl, rfl⟩ := Prod.mk.inj (Except.ok.inj hrun)
    obtain ⟨r, hr, rfl⟩ := List.mem_map.mp hmem
    rw [hw]
    exact ⟨r, List.mem_of_mem_filter ((List.mergeSort_perm _ _).mem_iff.mp
      (List.mem_of_mem_take hr)), rfl⟩

/-- A split that was shown is in the table from then on. -/
theorem forParent_shown {t : Nat} {p : String} {operation : SparkSplitOperation}
    {h : History (Api S)} {s s' : Config (machine S rounds)}
    (hm : Moment ok t (DbOk (.sparkSplitForParent p) (some operation)) h s s') :
    operation.parentNodeId = p := by
  obtain ⟨db, hrun, -⟩ := moment_ran hm
  obtain ⟨hout, -⟩ := Prod.mk.inj (Except.ok.inj hrun)
  obtain ⟨r, hr, rfl⟩ := Option.map_eq_some_iff.mp hout
  exact (SplitTable.mem_forParent hr).2

/-- A list of splits names each operation once. -/
theorem incomplete_distinct {t : Nat} {operations : List SparkSplitOperation}
    {h : History (Api S)} {s s' : Config (machine S rounds)}
    (hm : Moment ok t (DbOk .incompleteSparkSplits operations) h s s') :
    (operations.map (·.operationId)).Nodup := by
  obtain ⟨db, hrun, -⟩ := moment_ran hm
  obtain ⟨rfl, -⟩ := Prod.mk.inj (Except.ok.inj hrun)
  rw [Db.incompleteSparkSplits, List.map_map]
  refine List.Nodup.sublist ((List.take_sublist _ _).map _) ?_
  refine ((List.mergeSort_perm _ _).map _).nodup_iff.mpr ?_
  exact s.world.db.splits.nodup.sublist (List.filter_sublist.map _)

section run

variable (hrounds : 4 ≤ rounds)
include hrounds

/-- **Real replies fit together.**  The history of a live program is genuine. -/
theorem genuine {s : Config (machine S rounds)} (hs : Reach ok s) {t : Nat}
    {th : Thread (Api S)} (hth : s.thread t = some th) : Genuine th.history := by
  have hevent : ∀ e ∈ th.history, ∃ h s₀ s₁, Moment ok t e h s₀ s₁ ∧
      RowsGrow s₁.world s.world := fun e he => happened hrounds hs (hs.history_mem t th hth e he)
  refine ⟨fun p operation hm => ?_, fun e e' operation operation' he he' hshow hshow' hp => ?_,
    fun operations hm => ?_, fun newer older p operation hh q out n hq hsaves => ?_⟩
  · obtain ⟨h, s₀, s₁, hmo, -⟩ := hevent _ hm
    exact forParent_shown hmo
  · -- both rows are still there, and the parent has one
    obtain ⟨h, s₀, s₁, hmo, hgrow⟩ := hevent e he
    obtain ⟨h', s₀', s₁', hmo', hgrow'⟩ := hevent e' he'
    obtain ⟨r, hr, rfl⟩ := shown_row hmo hshow
    obtain ⟨r', hr', rfl⟩ := shown_row hmo' hshow'
    obtain ⟨x, hx, hsame, -⟩ := hgrow r hr
    obtain ⟨x', hx', hsame', -⟩ := hgrow' r' hr'
    have hxx : x = x' := SplitTable.eq_of_parent hx hx'
      (by rw [hsame.parentNodeId, hsame'.parentNodeId, hp])
    rw [← hsame.operationId, ← hsame'.operationId, hxx]
  · obtain ⟨h, s₀, s₁, hmo, -⟩ := hevent _ hm
    exact incomplete_distinct hmo
  · obtain ⟨s₀, s₁, hmo⟩ := hs.recalled hth hh
    obtain ⟨ch, k, hth₀, -⟩ := hmo.made
    obtain ⟨h', u₀, u₁, hmo', hgrow⟩ :=
      happened hrounds hmo.reach (hmo.reach.history_mem t _ hth₀ _ hq)
    obtain ⟨db, hrun, hw⟩ := moment_ran hmo'
    obtain ⟨x, hx, hid, hstage⟩ := Query.saved hsaves hrun
    obtain ⟨x', hx', hsame, hle⟩ := hgrow x (by rw [hw]; exact hx)
    -- the row that is read is the one that was saved
    obtain ⟨db', hrun', hw'⟩ := moment_ran hmo
    obtain ⟨hout, rfl⟩ := Prod.mk.inj (Except.ok.inj hrun')
    obtain ⟨r, hr, rfl⟩ := Option.map_eq_some_iff.mp hout
    have hrx : r = x' := Table.eq_of_key (SplitTable.mem_forParent hr).1 hx'
      (by rw [hsame.operationId, hid])
    rw [hrx]
    exact hstage.trans (SplitStatus.stage_le hle)

/-- The resume loop is over before its rounds are. -/
theorem resume_ends {s : Config (machine S rounds)} (hs : Reach ok s) (t : Nat) :
    s.next t ≠ some .exhausted := by
  intro hnext
  obtain ⟨⟨prog, hist⟩, hth, hc⟩ := Option.bind_eq_some_iff.mp hnext
  rcases prog with u | ⟨c, k⟩
  · simp [Prog.next] at hc
  · obtain rfl := Option.some.inj hc
    exact made_justified hrounds hs hth (genuine hrounds hs hth)

end run

/-! ### Submissions -/

/-- The status in which a plan may go out. -/
def SplitStatus.Ready (st : SplitStatus) : Prop := st = .prepared ∨ st = .submitting

/-- The plan of an operation that is ready is still the same, and it is still ready. -/
def Stable (operationId : String) (w w' : World) : Prop :=
  ∀ r ∈ w.db.splits.rows, r.operationId = operationId → r.status.Ready →
    ∃ r' ∈ w'.db.splits.rows, r.Same r' ∧ r'.status.Ready ∧ r'.plan = r.plan

/-- Tables that stay keep an operation in its status. -/
theorem Stable.of_eq {operationId : String} {w w' : World} (h : w'.db.splits = w.db.splits) :
    Stable operationId w w' := fun r hr _ hst => ⟨r, h ▸ hr, .refl r, hst, rfl⟩

theorem Stable.trans {operationId : String} {a b c : World} (h : Stable operationId a b)
    (h' : Stable operationId b c) : Stable operationId a c := by
  intro r hr hid hst
  obtain ⟨r₁, hr₁, hs₁, hst₁, hp₁⟩ := h r hr hid hst
  obtain ⟨r₂, hr₂, hs₂, hst₂, hp₂⟩ := h' r₁ hr₁ (hs₁.operationId.trans hid) hst₁
  exact ⟨r₂, hr₂, hs₁.trans hs₂, hst₂, hp₂.trans hp₁⟩

/-- A statement that saves no stage of the operation leaves it ready. -/
theorem stable_of_saves {q : Query} {w : World} {db : Db} {out : q.Out} {operationId : String}
    (hrun : q.run w.now w.db = .ok (out, db)) (hq : ∀ n, q.saves ≠ some (operationId, n)) :
    Stable operationId w { w with db } := by
  intro r hr hid hst
  rcases Query.rows_step hrun with ⟨f, hrows, hf⟩ | ⟨candidate, rfl, hrows⟩
  · refine ⟨f r, hrows ▸ List.mem_map_of_mem hr, (hf r hr).1, ?_⟩
    rcases (hf r hr).2 with ⟨plan, status, -⟩ | ⟨rfl, -, -, -⟩ | ⟨-, -, status, plan, -⟩ |
      ⟨rfl, -, -, -⟩ | ⟨rfl, -, -, -, -, -⟩
    · exact ⟨by rwa [status], plan⟩
    · exact absurd (by rw [Query.saves, hid]) (hq 1)
    · exact ⟨.inr status, plan⟩
    · exact absurd (by rw [Query.saves, hid]) (hq 2)
    · exact absurd (by rw [Query.saves, hid]) (hq 3)
  · exact ⟨r, hrows ▸ List.mem_cons_of_mem _ hr, .refl r, hst, rfl⟩

/-- The outside keeps every operation in its status. -/
theorem outside_stable {o : Outside} {w w' : World} {operationId : String}
    (h : outside o w = some w') : Stable operationId w w' := by
  intro r hr _ hst
  obtain ⟨f, hrows, hf⟩ := outside_rows h
  obtain ⟨hsame, hstatus, hplan, -⟩ := hf r
  exact ⟨f r, hrows ▸ List.mem_map_of_mem hr, hsame, by rwa [hstatus], hplan⟩

section run

variable (hrounds : 4 ≤ rounds)
include hrounds

/-- Only the holder of the lock, and only by saving a stage, moves an operation on. -/
theorem call_stable {s : Config (machine S rounds)} (hs : Reach ok s) {t : Nat} {ch : Choice S}
    {c : Call S} {k : c.Reply → Prog (Api S) Unit} {h : History (Api S)} {r : c.Reply} {w : World}
    {operationId : String} (hth : s.thread t = some ⟨.call c k, h⟩)
    (hp : perform S t c ch s.world = some (r, w))
    (hq : Keeps (· ≠ operationId) (⟨c, r⟩ : Event (Api S)) ∨ ¬ Holds h) :
    Stable operationId s.world w := by
  by_cases hc : ∀ q, c ≠ .db q
  · exact .of_eq (congrArg Db.splits (perform_other hp hc))
  · push Not at hc
    obtain ⟨q, rfl⟩ := hc
    rcases perform_db hp with ⟨out, db, hrun, rfl, rfl⟩ | ⟨-, rfl⟩
    · refine stable_of_saves hrun fun n hsaves => ?_
      rcases hq with hkeep | hno
      · exact hkeep.2 q operationId n rfl hsaves rfl
      · have hj := made_justified hrounds hs hth
        cases q with
        | getOrInsertSparkSplit candidate => simp [Query.saves] at hsaves
        | _ => exact hno (hj operationId n hsaves)
    · exact .of_eq rfl

/-- What the holder of the lock is about to submit is the content of the plan column. -/
theorem submits {s : Config (machine S rounds)} (hs : Reach ok s) {t : Nat} {operationId : String}
    {plan : S.Plan} {k : (Call.submitSplit operationId plan).Reply → Prog (Api S) Unit}
    {hist : History (Api S)} (hth : s.thread t = some ⟨.call (.submitSplit operationId plan) k, hist⟩) :
    ∃ r ∈ s.world.db.splits.rows, r.operationId = operationId ∧ r.status = .submitting ∧
      S.decodePlan r.plan = .ok plan := by
  obtain ⟨hheld, hmark, hfresh⟩ : Justified S hist (.submitSplit operationId plan) :=
    made_justified hrounds hs hth
  obtain ⟨operation, ⟨e, hshow, hsince⟩, rfl, hst, hplan⟩ := hfresh (genuine hrounds hs hth)
  -- it has been marked
  obtain ⟨h', u₀, u₁, hmo', hgrow⟩ := happened hrounds hs (hs.history_mem t _ hth _ hmark)
  obtain ⟨db, hrun, hw⟩ := moment_ran hmo'
  obtain ⟨db', hmarked, hout⟩ := map_ok hrun
  obtain ⟨-, rfl⟩ := Prod.mk.inj hout
  obtain ⟨x, hx, hxid, hrank⟩ := Db.marked hmarked
  obtain ⟨x', hx', hsame', hle⟩ := hgrow x (by rw [hw]; exact hx)
  -- and nobody has touched it since it was read
  obtain ⟨older, s₀, s₁, hmo, hstable⟩ := (guards S rounds).learned (l := .liquidity)
    (S := Stable operation.operationId) (q := Keeps (· ≠ operation.operationId))
    (fun _ => .of_eq rfl) (fun _ _ _ => Stable.trans)
    (fun x hx => ⟨(hx.1 _).1, (hx.1 _).2⟩)
    (fun s t ch c k h r w hr hth _ hp hq => call_stable hrounds hr hth hp hq)
    (fun _ _ => .of_eq rfl) (fun _ => .of_eq rfl) (fun _ _ _ ho => outside_stable ho)
    hs hth hheld hsince
  obtain ⟨r, hr, rfl⟩ := shown_row hmo hshow
  obtain ⟨r', hr', hsame, hready, hplan'⟩ := hstable r hr rfl hst
  obtain rfl : x' = r' := Table.eq_of_key hx' hr'
    (by rw [hsame'.operationId, hsame.operationId, hxid])
  refine ⟨x', hx', hsame.operationId, ?_, by rw [hplan', hplan]⟩
  rcases hready with hready | hready
  · rw [hready] at hle
    exact absurd (hrank.trans hle) (by decide)
  · exact hready

omit hrounds in
/-- What a submission leaves behind: until the operation is submitted, its plan column holds
what was submitted. -/
def Submitted (s : Config (machine S rounds)) (operationId : String) (plan : S.Plan) : Prop :=
  ∃ r ∈ s.world.db.splits.rows, r.operationId = operationId ∧ 2 ≤ r.status.rank ∧
    (r.status = .submitting → S.decodePlan r.plan = .ok plan)

omit hrounds in
/-- A submitted plan stays the row's own. -/
theorem Submitted.step {s s' : Config (machine S rounds)} {operationId : String} {plan : S.Plan}
    (h : Submitted s operationId plan) (hrows : RowsStep s.world s'.world) :
    Submitted s' operationId plan := by
  obtain ⟨r, hr, hid, hrank, hplan⟩ := h
  obtain ⟨r', hr', hstep⟩ := hrows.forward hr
  refine ⟨r', hr', hstep.same.operationId.trans hid, hrank.trans hstep.rank, fun hst => ?_⟩
  -- the row was submitting already, and such a row keeps its plan
  have hle := hstep.rank
  rw [hst] at hle
  have hold : r.status = .submitting := by
    rcases hr : r.status <;> rw [hr] at hrank hle <;> simp [SplitStatus.rank] at hrank hle ⊢
  rcases hstep.plan with hp | hp | hp | hp
  · rw [hp]
    exact hplan hold
  · simp [hold] at hp
  · simp [hold] at hp
  · simp [hst] at hp

/-- A submission leaves its plan in the row for good. -/
theorem submitted_kept {s : Config (machine S rounds)} (hs : Reach ok s) {t : Nat}
    {operationId : String} {plan : S.Plan} {reply : (Call.submitSplit operationId plan).Reply}
    (he : (t, (⟨.submitSplit operationId plan, reply⟩ : Event (Api S))) ∈ s.trace) :
    Submitted s operationId plan := by
  refine hs.invariant (J := fun s : Config (machine S rounds) =>
    ∀ t operationId plan reply,
      (t, (⟨.submitSplit operationId plan, reply⟩ : Event (Api S))) ∈ s.trace →
        Submitted s operationId plan) ?_ ?_ t operationId plan reply he
  · intro t operationId plan reply h
    simp [Config.start] at h
  · intro s s' m hr ih hm hst t operationId plan reply he
    have hrows := step_rows hrounds hr hst
    rcases Config.step_cases hst with ⟨q, -, rfl⟩ | ⟨u, ch, c, k, hist, r, w, -, hth, hp, rfl⟩ |
      ⟨u, th, -, -, rfl⟩ | ⟨-, rfl⟩ | ⟨o, w, -, -, rfl⟩
    · exact ih t operationId plan reply he
    · rcases List.mem_cons.mp he with hnew | hold
      · obtain ⟨rfl, hev⟩ := Prod.mk.inj hnew
        injection hev with hc hreply
        subst hc
        obtain ⟨x, hx, hid, hstatus, hplan⟩ := submits hrounds hr hth
        have hsub : Submitted s operationId plan :=
          ⟨x, hx, hid, by rw [hstatus]; decide, fun _ => hplan⟩
        exact hsub.step hrows
      · exact (ih t operationId plan reply hold).step hrows
    · exact ih t operationId plan reply he
    · exact ih t operationId plan reply he
    · exact (ih t operationId plan reply he).step hrows

/-- All submissions of an operation carry one plan. -/
theorem submissions_agree {s : Config (machine S rounds)} (hs : Reach ok s) {t u : Nat}
    {operationId : String} {plan plan' : S.Plan}
    {reply : (Call.submitSplit operationId plan).Reply}
    {reply' : (Call.submitSplit operationId plan').Reply}
    (he : (t, (⟨.submitSplit operationId plan, reply⟩ : Event (Api S))) ∈ s.trace)
    (he' : (u, (⟨.submitSplit operationId plan', reply'⟩ : Event (Api S))) ∈ s.trace) :
    plan = plan' := by
  -- of two events in a trace, the older one has left the plan of the newer one behind
  have hpast : ∀ {s : Config (machine S rounds)} {t : Nat} {plan plan' : S.Plan}
      {k : (Call.submitSplit operationId plan).Reply → Prog (Api S) Unit}
      {hist : History (Api S)}, Reach ok s →
      s.thread t = some ⟨.call (.submitSplit operationId plan) k, hist⟩ →
      Submitted s operationId plan' → plan = plan' := by
    rintro s t plan plan' k hist hr hth ⟨x, hx, hid, -, hplan⟩
    obtain ⟨y, hy, hid', hstatus, hplan'⟩ := submits hrounds hr hth
    obtain rfl : x = y := Table.eq_of_key hx hy (by rw [hid, hid'])
    rw [hplan hstatus] at hplan'
    exact (Except.ok.inj hplan').symm
  refine hs.invariant (J := fun s : Config (machine S rounds) => ∀ t u plan plan' reply reply',
    (t, (⟨.submitSplit operationId plan, reply⟩ : Event (Api S))) ∈ s.trace →
    (u, (⟨.submitSplit operationId plan', reply'⟩ : Event (Api S))) ∈ s.trace →
      plan = plan') ?_ ?_ t u plan plan' reply reply' he he'
  · intro t u plan plan' reply reply' h
    simp [Config.start] at h
  · intro s s' m hr ih hm hst t u plan plan' reply reply' he he'
    rcases Config.step_cases hst with ⟨q, -, rfl⟩ | ⟨v, ch, c, k, hist, r, w, -, hth, hp, rfl⟩ |
      ⟨v, th, -, -, rfl⟩ | ⟨-, rfl⟩ | ⟨o, w, -, -, rfl⟩
    · exact ih t u plan plan' reply reply' he he'
    · rcases List.mem_cons.mp he with hnew | hold
      · obtain ⟨rfl, hev⟩ := Prod.mk.inj hnew
        injection hev with hc hreply
        subst hc
        rcases List.mem_cons.mp he' with hnew' | hold'
        · obtain ⟨-, hev'⟩ := Prod.mk.inj hnew'
          injection hev' with hc'
          injection hc' with _ hplan
          exact hplan.symm
        · exact hpast hr hth (submitted_kept hrounds hr hold')
      · rcases List.mem_cons.mp he' with hnew' | hold'
        · obtain ⟨rfl, hev'⟩ := Prod.mk.inj hnew'
          injection hev' with hc hreply
          subst hc
          exact (hpast hr hth (submitted_kept hrounds hr hold)).symm
        · exact ih t u plan plan' reply reply' hold hold'
    · exact ih t u plan plan' reply reply' he he'
    · exact ih t u plan plan' reply reply' he he'
    · exact ih t u plan plan' reply reply' he he'

/-- Only an operation whose children have ids is complete. -/
theorem completed_bound {s : Config (machine S rounds)} (hs : Reach ok s) {r : SplitRow}
    (hr : r ∈ s.world.db.splits.rows) (hst : r.status = .completed) : r.childNodeIds ≠ [] := by
  refine hs.invariant (J := fun s : Config (machine S rounds) => ∀ r ∈ s.world.db.splits.rows,
    r.status = .completed → r.childNodeIds ≠ []) ?_ ?_ r hr hst
  · intro r hr
    simp [Config.start, machine, Db.empty, SplitTable.empty, Table.empty] at hr
  · intro s s' m hreach ih hm hstep r' hr' hst
    rcases (step_rows hrounds hreach hstep).back hr' with ⟨r, hr, hrow⟩ | hdraft
    · rcases hrow.bound hst with hold | hne
      · rcases hrow.children with hc | hne
        · rw [hc]
          exact ih r hr hold
        · exact hne
      · exact hne
    · simp [hdraft] at hst

end run

/-- **The checkpoints of leaf splits.**  In every reachable state, whatever crashed, was
cancelled or got lost before: a parent has at most one operation; no operation ever goes away,
changes its identity or falls back, and a step takes it at most to the next status; all its
submissions carry one plan; a complete operation has children; and no resume loop goes on past
its rounds, which are four or more. -/
theorem split_checkpoints (hrounds : 4 ≤ rounds) {s : Config (machine S rounds)}
    (hs : Reach anyMove s) :
    (s.world.db.splits.rows.map fun r => r.parentNodeId).Nodup ∧
    (∀ s', Later anyMove s s' → ∀ r ∈ s.world.db.splits.rows, ∃ r' ∈ s'.world.db.splits.rows,
      r.Same r' ∧ r.status.rank ≤ r'.status.rank) ∧
    (∀ m s', s.step m = some s' →
      (∀ r ∈ s.world.db.splits.rows, ∃ r' ∈ s'.world.db.splits.rows, r.Same r' ∧
        (r'.status = r.status ∨ r'.status = r.status.next)) ∧
      ∀ r' ∈ s'.world.db.splits.rows,
        (∃ r ∈ s.world.db.splits.rows, r.Same r') ∨ r'.status = .draft) ∧
    (∀ t u operationId plan plan' reply reply',
      (t, (⟨.submitSplit operationId plan, reply⟩ : Event (Api S))) ∈ s.trace →
      (u, (⟨.submitSplit operationId plan', reply'⟩ : Event (Api S))) ∈ s.trace → plan = plan') ∧
    (∀ r ∈ s.world.db.splits.rows, r.status = .completed → r.childNodeIds ≠ []) ∧
    ∀ t, s.next t ≠ some .exhausted := by
  refine ⟨s.world.db.splits.parents, fun s' hl => later_grows hrounds hs hl, fun m s' hst => ?_,
    fun t u _ _ _ _ _ he he' => submissions_agree hrounds hs he he',
    fun r hr => completed_bound hrounds hs hr, fun t => resume_ends hrounds hs t⟩
  have hrows := step_rows hrounds hs hst
  constructor
  · intro r hr
    obtain ⟨r', hr', hstep⟩ := hrows.forward hr
    exact ⟨r', hr', hstep.same, hstep.status⟩
  · intro r' hr'
    exact (hrows.back hr').imp_left fun ⟨r, hr, hstep⟩ => ⟨r, hr, hstep.same⟩

/-! ### A concrete run -/

/-- An SDK whose stage objects are their own encodings. -/
def Sdk.sample : Sdk where
  Draft := List UInt8
  Plan := List UInt8
  Submitted := List UInt8
  encodeDraft := .ok
  decodeDraft := .ok
  encodePlan := .ok
  decodePlan := .ok
  encodeSubmitted := .ok
  decodeSubmitted := .ok
  selectsExactly leaves amounts := amounts.all fun amount => leaves.any (·.value == amount)
  minimumSplitChildSats := 1
  splitService := true

namespace Sample

/-- Program `t` makes its next calls. -/
def calls (t : Nat) (chs : List (Choice .sample)) : List (Move (machine .sample 4)) :=
  Move.runs t chs

def leaves : WalletLeaves := ⟨[⟨"leaf", 10, some "share"⟩], []⟩

/-- A leaf of 10 sats is split to pay 5; the operators' answer is lost, and the next caller
submits again. -/
def lostSubmission : List (Move (machine .sample 4)) :=
  .spawn (Request.ensureExactLiquidity 5) ::
  calls 0 [.done, .done, .leaves leaves, .done, .draft [1], .done, .plan [2], .done, .done, .done,
    .fail "timeout", .done, .done] ++
  .spawn Request.recoverIncompleteSplits ::
  calls 1 [.done, .done, .done, .leaves leaves, .done, .submitted [3]]

/-- The number of submissions of a run. -/
def submissions (s : Config (machine .sample 4)) : Nat :=
  s.trace.countP fun x => match x.2.call with
    | .submitSplit .. => true
    | _ => false

end Sample

/-- A plan that is submitted twice is one plan. -/
theorem split_checkpoints_retry : ∃ s : Config (machine .sample 4), Reach anyMove s ∧
    Sample.submissions s = 2 ∧
    ∀ t u operationId plan plan' reply reply',
      (t, (⟨.submitSplit operationId plan, reply⟩ : Event (Api .sample))) ∈ s.trace →
      (u, (⟨.submitSplit operationId plan', reply'⟩ : Event (Api .sample))) ∈ s.trace →
        plan = plan' := by
  obtain ⟨s, hs, hp⟩ := Reach.exists_of_moves Sample.lostSubmission
    (fun s => Sample.submissions s == 2) (by decide +kernel)
  exact ⟨s, hs, by simpa using hp, (split_checkpoints (Nat.le_refl 4) hs).2.2.2.1⟩

end OpenSsp.LeafSplit
