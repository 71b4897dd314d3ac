/-
OpenSsp/Coop/Expiry.lean

The expiry of withdrawals that nobody can pay for any more.

The worker lets an unsigned exit that is overdue expire when the operators know no transfer for it.
A transfer they report as returned or expired cannot pay for the exit either
(`Dead.rejected`), but it is there: the worker goes on to advance the exit, the check fails, and
the exit keeps its coin and the only place of its owner.  So a pass releases an exit with a dead
transfer exactly when that transfer was never created.

What a pass does is read off its own history (`pass_wp`); what its update does to the tables
follows from the invariant of the reservations (`released`).

Main result: `dead_exits_expire`.
-/
import OpenSsp.Coop.Calls
import OpenSsp.Coop.Payout
import OpenSsp.Coop.Reservation

namespace OpenSsp.Coop

open Interleave Bitcoin

variable {L : Library} {C : Service L} {h h' : History (Api L)} {record : ExitRecord L}

/-- The record as the worker stores it when the exit has expired. -/
def ExitRecord.expire (record : ExitRecord L) : ExitRecord L := { record with status := .expired }

/-- What the operators know of a transfer that can pay for nothing: it was never created, or it
was returned or has expired. -/
def Dead (found : Option SparkTransfer) : Prop :=
  ∀ transfer, found = some transfer → transfer.status = .returned ∨ transfer.status = .expired

/-- The check that stands before every payout rejects it. -/
theorem Dead.rejected {found : Option SparkTransfer} (hdead : Dead found)
    {transfer : SparkTransfer} (hfound : found = some transfer) :
    validateCoopExitTransfer C transfer record ≠ .ok () := by
  intro hok
  unfold validateCoopExitTransfer at hok
  obtain ⟨sender, -, hok⟩ := bind_ok hok
  obtain ⟨-, hok⟩ := guard_ok hok
  obtain ⟨hlocked, -⟩ := guard_ok hok
  push Not at hlocked
  rcases hdead transfer hfound with hst | hst
  · rw [hst] at hlocked
    cases hlocked
  · rw [hst] at hlocked
    cases hlocked

/-! ### What a pass does -/

/-- The event that marks the exit as expired. -/
def Marked (record : ExitRecord L) : Event (Api L) := DbOk (.updateCoopExit record.expire) ()

/-- The exit is unsigned, and all the replies about it are those that let it expire. -/
structure Expiring (record : ExitRecord L) (h : History (Api L)) : Prop where
  unsigned : record.signedExit = none
  late : ∀ n, (⟨.now, n⟩ : Event (Api L)) ∈ h → record.expiresAt ≤ n
  absent : ∃ id, TransferId.parse record.transferId = .ok id ∧
    ∀ r, (⟨.queryTransfer id, r⟩ : Event (Api L)) ∈ h → r = .ok none
  stored : ∀ e, (⟨.db (.updateCoopExit record.expire), .error e⟩ : Event (Api L)) ∉ h

theorem Expiring.before (he : Expiring record h') (hgrows : h <:+ h') : Expiring record h := by
  obtain ⟨id, hid, hnone⟩ := he.absent
  exact ⟨he.unsigned, fun n hn => he.late n (hgrows.mem hn),
    ⟨id, hid, fun r hr => hnone r (hgrows.mem hr)⟩, fun e hmem => he.stored e (hgrows.mem hmem)⟩

/-- An outcome that nobody looks at. -/
theorem ignored_wp {α : Type} (act : Ssp L α) (h : History (Api L)) :
    Act.wp (fun _ _ => True)
      (do
        let _ ← Act.attempt act
        return ()) (fun _ h' => h <:+ h') (fun _ _ => False) h := by
  rw [Act.wp_bind, Act.wp_attempt]
  exact Act.wp_any act h

theorem overdue_wp (h : History (Api L)) : Act.wp (fun _ _ => True) (overdue record)
    (fun late h' => h <:+ h' ∧ (late = false → ¬ Expiring record h')) (fun _ _ => False) h := by
  unfold overdue
  split
  · next hsigned =>
      apply (Act.wp_pure _).mpr
      refine ⟨List.suffix_refl h, fun _ he => ?_⟩
      rw [he.unsigned] at hsigned
      cases hsigned
  · rw [Act.wp_bind]
    refine (Act.wp_tell _).mpr ⟨trivial, fun n => ?_⟩
    refine ⟨List.suffix_cons _ h, fun hlate he => ?_⟩
    have hle := he.late n List.mem_cons_self
    simp [hle] at hlate

/-- When the operators know no transfer the answer is `false`. -/
theorem transferExists_wp (h : History (Api L)) :
    Act.wp (fun _ _ => True) (transferExists record.transferId)
      (fun found h' => h <:+ h' ∧ (found = true → ¬ Expiring record h'))
      (fun _ h' => h <:+ h' ∧ ¬ Expiring record h') h := by
  unfold transferExists
  rw [Act.wp_bind]
  rcases hparse : TransferId.parse record.transferId with e | id
  · refine ⟨List.suffix_refl h, fun he => ?_⟩
    obtain ⟨id, hid, -⟩ := he.absent
    rw [hparse] at hid
    cases hid
  · apply (Act.wp_pure id).mpr
    rw [Act.wp_bind]
    refine (Act.wp_ask _ _).mpr ⟨trivial, fun r => ?_⟩
    have hasked : Expiring record (⟨.queryTransfer id, r⟩ :: h) → r = .ok none := by
      intro he
      obtain ⟨id', hid, hnone⟩ := he.absent
      rw [hparse] at hid
      obtain rfl := Except.ok.inj hid
      exact hnone r List.mem_cons_self
    rcases r with e | found
    · refine ⟨List.suffix_cons _ h, fun he => ?_⟩
      cases hasked he
    · refine ⟨List.suffix_cons _ h, fun hsome he => ?_⟩
      obtain rfl := Except.ok.inj (hasked he)
      cases hsome

/-- The worker never stops at an exit, and marks one of which the replies say that it is overdue
and that nobody has paid for it. -/
theorem reconcile_wp (h : History (Api L)) :
    Act.wp (fun _ _ => True) (reconcile C record)
      (fun _ h' => h <:+ h' ∧ (Expiring record h' → Marked record ∈ h')) (fun _ _ => False) h := by
  -- some reply was another one: the exit is advanced, whatever comes of it
  have hadvance : ∀ h', h <:+ h' → ¬ Expiring record h' →
      Act.wp (fun _ _ => True)
        (do
          let _ ← Act.attempt (advance C record)
          return ())
        (fun _ h'' => h <:+ h'' ∧ (Expiring record h'' → Marked record ∈ h''))
        (fun _ _ => False) h' := by
    intro h' hgrows hother
    refine Act.wp_mono (ignored_wp (advance C record) h') ?_ fun _ _ hf => hf
    intro _ h'' hmore
    exact ⟨hgrows.trans hmore, fun he => absurd (he.before hmore) hother⟩
  unfold reconcile
  rw [Act.wp_bind]
  refine Act.wp_mono (overdue_wp h) ?_ fun _ _ hf => hf
  rintro late h₁ ⟨hgrows, hlate⟩
  cases late with
  | false => exact hadvance h₁ hgrows (hlate rfl)
  | true =>
      show Act.wp _ (Act.attempt (transferExists record.transferId) >>= _) _ _ h₁
      rw [Act.wp_bind, Act.wp_attempt]
      refine Act.wp_mono (transferExists_wp h₁) ?_ ?_
      · rintro found h₂ ⟨hmore, hfound⟩
        cases found with
        | true => exact hadvance h₂ (hgrows.trans hmore) (hfound rfl)
        | false =>
            show Act.wp _ (Act.attempt (db (.updateCoopExit record.expire)) >>= _) _ _ h₂
            rw [Act.wp_bind, Act.wp_attempt]
            refine (Act.wp_ask _ _).mpr ⟨trivial, fun r => ?_⟩
            have hgrown := (hgrows.trans hmore).trans
              (List.suffix_cons ⟨.db (.updateCoopExit record.expire), r⟩ h₂)
            rcases r with e | u
            · exact ⟨hgrown, fun he => absurd List.mem_cons_self (he.stored e)⟩
            · exact ⟨hgrown, fun _ => List.mem_cons_self⟩
      · rintro e h₂ ⟨hmore, hother⟩
        exact ⟨hgrows.trans hmore, fun he => absurd he hother⟩

theorem reconcileAll_wp (records : List (ExitRecord L)) (h : History (Api L)) :
    Act.wp (fun _ _ => True) (Act.forEach (reconcile C) records)
      (fun _ h' => h <:+ h' ∧ ∀ record ∈ records, Expiring record h' → Marked record ∈ h')
      (fun _ _ => False) h := by
  induction records generalizing h with
  | nil => exact ⟨List.suffix_refl h, by simp⟩
  | cons first rest ih =>
      show Act.wp _ (reconcile C first >>= fun _ => Act.forEach (reconcile C) rest) _ _ h
      rw [Act.wp_bind]
      refine Act.wp_mono (reconcile_wp h) ?_ fun _ _ hf => hf
      rintro _ h₁ ⟨hgrows, hfirst⟩
      refine Act.wp_mono (ih h₁) ?_ fun _ _ hf => hf
      rintro _ h₂ ⟨hmore, hrest⟩
      refine ⟨hgrows.trans hmore, fun record hrecord he => ?_⟩
      rcases List.mem_cons.mp hrecord with rfl | hrecord
      · exact hmore.mem (hfirst (he.before hmore))
      · exact hrest record hrecord he

/-- The pass has taken the lock and then found these exits pending. -/
def Read (records : List (ExitRecord L)) (h : History (Api L)) : Prop :=
  ∃ newer u, h = newer ++ [DbOk .pendingCoopExits records, ⟨.lock .exits, u⟩]

/-- A pass marks every exit it has found of which the replies say that it is overdue and that
nobody has paid for it. -/
theorem pass_wp : Act.wp (fun _ _ => True) (pass C)
    (fun _ h' => ∀ records, Read records h' → ∀ record ∈ records, Expiring record h' →
      Marked record ∈ h')
    (fun _ _ => False) ([] : History (Api L)) := by
  unfold pass locked Act.bracket
  rw [Act.wp_bind]
  refine (Act.wp_tell _).mpr ⟨trivial, fun u => ?_⟩
  rw [Act.wp_bind, Act.wp_attempt, Act.wp_bind, Act.wp_attempt]
  refine (Act.wp_ask _ _).mpr ⟨trivial, fun r => ?_⟩
  -- what is true when the lock is given back stays true
  have hgive : ∀ h' : History (Api L), [⟨.db .pendingCoopExits, r⟩, ⟨.lock .exits, u⟩] <:+ h' →
      (∀ records, r = .ok records → ∀ record ∈ records, Expiring record h' →
        Marked record ∈ h') →
      Act.wp (fun _ _ => True)
        (do
          tell (.unlock .exits)
          Act.ofExcept (.ok ()))
        (fun _ h' => ∀ records, Read records h' → ∀ record ∈ records, Expiring record h' →
          Marked record ∈ h')
        (fun _ _ => False) h' := by
    intro h' hbegin hmarked
    rw [Act.wp_bind]
    refine (Act.wp_tell _).mpr ⟨trivial, fun v => ?_⟩
    apply (Act.wp_pure ()).mpr
    rintro records ⟨newer', u', he⟩ record hrecord hexpiring
    have hgrows := List.suffix_cons ⟨.unlock .exits, v⟩ h'
    obtain ⟨newer, hh'⟩ := hbegin.trans hgrows
    rw [← hh'] at he
    obtain ⟨-, hlast⟩ := List.append_inj' he rfl
    injection (List.cons.inj hlast).1 with _ hreply
    exact hgrows.mem (hmarked records hreply record hrecord (hexpiring.before hgrows))
  rcases r with e | records
  · exact hgive _ (List.suffix_refl _) nofun
  · refine Act.wp_mono (reconcileAll_wp records _) ?_ fun _ _ hf => hf.elim
    rintro _ h' ⟨hgrows, hall⟩
    refine hgive h' hgrows fun records' he => ?_
    obtain rfl := Except.ok.inj he
    exact hall

/-! ### What the update does -/

theorem owner_agrees {s : Config (machine C)} (hs : Reach anyMove s) :
    ∀ row ∈ s.world.db.exits.rows, row.owner = row.data.owner := by
  refine hs.invariant (J := fun s : Config (machine C) =>
    ∀ row ∈ s.world.db.exits.rows, row.owner = row.data.owner) ?_ ?_
  · intro row hrow
    simp [Config.start, machine, Db.empty, ExitTable.empty, Table.empty] at hrow
  · intro s s' m hr ih _ hst x hx
    rcases written hr hst with hsame | ⟨record, outpoint, -, -, -, -, hins⟩ |
      ⟨t, hist, row, record, k, hth, hrow, hid, hlive, hchange, hupd⟩
    · exact ih x (hsame.1 ▸ hx)
    · obtain ⟨exit, -, hrows, -⟩ := Db.insertCoopExit_ok hins
      rw [hrows] at hx
      rcases List.mem_cons.mp hx with rfl | hx
      · rfl
      · exact ih x hx
    · rw [hupd] at hx
      obtain ⟨old, hold, ⟨he, rfl⟩ | ⟨-, rfl⟩⟩ := Db.mem_updateCoopExit.mp hx
      · obtain rfl : old = row := Table.eq_of_key hold hrow (he.trans hid.symm)
        show old.owner = record.owner
        rw [hchange.owner_eq]
        exact ih old hold
      · exact ih x hold

/-- An exit is stored under a UUID. -/
theorem transferId_parses {s : Config (machine C)} (hs : Reach anyMove s) :
    ∀ row ∈ s.world.db.exits.rows, ∃ id, TransferId.parse row.data.transferId = .ok id := by
  refine hs.invariant (J := fun s : Config (machine C) => ∀ row ∈ s.world.db.exits.rows,
    ∃ id, TransferId.parse row.data.transferId = .ok id) ?_ ?_
  · intro row hrow
    simp [Config.start, machine, Db.empty, ExitTable.empty, Table.empty] at hrow
  · intro s s' m hr ih _ hst row hrow
    rcases step_writes hst with hsame | ⟨t, c, k, hist, hth, hw⟩
    · exact ih row (hsame.1 ▸ hrow)
    · rcases hw with hsame | ⟨record, outpoint, hins⟩ | ⟨record, hupd⟩
      · exact ih row (hsame.1 ▸ hrow)
      · obtain ⟨exit, -, hrows, -⟩ := Db.insertCoopExit_ok hins
        rw [hrows] at hrow
        rcases List.mem_cons.mp hrow with rfl | hrow
        · exact hr.justified handler_known hth
        · exact ih row hrow
      · -- an update keeps the transfer
        obtain ⟨hheld, hj⟩ := made_justified hr hth
        obtain ⟨base, hfresh, -, hchange⟩ := hj (genuine hr hth)
        obtain ⟨old, hold, -, rfl⟩ := fresh_row hr hth hheld hfresh
        rw [hupd] at hrow
        obtain ⟨x, hx, ⟨-, rfl⟩ | ⟨-, rfl⟩⟩ := Db.mem_updateCoopExit.mp hrow
        · show ∃ id, TransferId.parse record.transferId = .ok id
          rw [hchange.same.transferId]
          exact ih old hold
        · exact ih row hx

/-- The exit has expired: its owner can ask for another withdrawal, and what it spends and keeps
can be selected again. -/
structure Released (db : Db L) (record : ExitRecord L) : Prop where
  expired : ∃ row ∈ db.exits.rows, row.id = record.id ∧ row.status = .expired
  noInputs : ∀ i ∈ db.inputs.rows, i.requestId ≠ record.id
  coins : ∃ exit input, L.deserializeHex record.rawExit = .ok exit ∧
    exit.input.map (·.previousOutput) = [input] ∧
    ∀ o ∈ outpoints L exit input, o ∉ db.coopReservedInputs
  owner : db.coopExitPendingForOwner record.owner = false

/-- Marking an exit that is pending releases it. -/
theorem Reserved.released {db : Db L} {row : ExitRow L} (hr : Reserved db)
    (hrow : row ∈ db.exits.rows) (hid : row.id = record.id) (hlive : row.status.terminal = false)
    (hraw : row.data.rawExit = record.rawExit) (howner : row.owner = record.owner) :
    Released (db.updateCoopExit record.expire) record := by
  have hinputs : ∀ i, i ∈ (db.updateCoopExit record.expire).inputs.rows ↔
      i ∈ db.inputs.rows ∧ i.requestId ≠ record.id := by
    intro i
    show i ∈ (db.inputs.delete _).rows ↔ _
    simp [Table.mem_delete, ExitRecord.expire]
  constructor
  · exact ⟨_, Db.mem_updateCoopExit.mpr ⟨row, hrow, .inl ⟨hid, rfl⟩⟩, hid, rfl⟩
  · exact fun i hi => ((hinputs i).mp hi).2
  · obtain ⟨exit, input, hexit, hinput, hkept⟩ := hr.live row hrow hlive
    refine ⟨exit, input, hraw ▸ hexit, hinput, fun o ho hres => ?_⟩
    -- an outpoint is reserved once, and this one was reserved for the exit
    obtain ⟨i, hi, rfl⟩ := List.mem_map.mp hres
    obtain ⟨hi, hne⟩ := (hinputs i).mp hi
    have hmine : i = ⟨i.outpoint, row.id⟩ := Table.eq_of_key hi ((hkept i.outpoint).mpr ho) rfl
    rw [hmine] at hne
    exact hne hid
  · apply List.any_eq_false.mpr
    intro x hx hpending
    obtain ⟨hxo, hxlive⟩ : x.owner = record.owner ∧ x.status.terminal = false := by
      simpa using hpending
    obtain ⟨old, hold, ⟨he, rfl⟩ | ⟨hne, rfl⟩⟩ := Db.mem_updateCoopExit.mp hx
    · cases hxlive
    · have hsame := hr.single x hold row hrow (by rw [hxo, howner]) hxlive hlive
      exact hne (hsame ▸ hid)

/-- When the worker has marked an exit, the exit is released. -/
theorem released {t : Nat} {hist : History (Api L)} {s s' : Config (machine C)}
    (hm : Moment anyMove t (Marked record) hist s s') : Released s'.world.db record := by
  obtain ⟨ch, k, hth, -, -, -⟩ := hm.made
  have hth : s.thread t = some ⟨.call (.db (.updateCoopExit record.expire)) k, hist⟩ := hth
  obtain ⟨hheld, hj⟩ := made_justified hm.reach hth
  obtain ⟨base, hfresh, hlive, hchange⟩ := hj (genuine hm.reach hth)
  obtain ⟨row, hrow, hid, rfl⟩ := fresh_row hm.reach hth hheld hfresh
  have hdb : s'.world.db = s.world.db.updateCoopExit record.expire := (moment_ran hm).2
  rw [hdb]
  refine (reserved hm.reach).released hrow ?_ ?_ hchange.rawExit_eq.symm ?_
  · rw [hid]
    exact hchange.id_eq.symm
  · rw [(agrees hm.reach row hrow).status]
    exact hlive
  · rw [owner_agrees hm.reach row hrow]
    exact hchange.owner_eq.symm

/-! ### Runs -/

/-- A pass with this history, begun at `now`, has found the exit unsigned and past its expiry. -/
structure FoundOverdue (hist : History (Api L)) (record : ExitRecord L) (now : Nat) : Prop where
  read : ∃ records, Read records hist ∧ record ∈ records
  unsigned : record.signedExit = none
  overdue : record.expiresAt ≤ now

/-- On the way from `s₀` to `s` program `t` marks the exit, and that releases it. -/
def Expires (t : Nat) (s₀ s : Config (machine C)) (record : ExitRecord L) : Prop :=
  ∃ hist s₁ s₂, Later anyMove s₀ s₁ ∧ Moment anyMove t (Marked record) hist s₁ s₂ ∧
    Later anyMove s₂ s ∧ Released s₂.world.db record

/-- No call moves the clock. -/
theorem perform_clock {t : Nat} {c : Call L} {ch : Choice L} {w w' : World L} {r : c.Reply}
    (hp : perform t c ch w = some (r, w')) : w'.now = w.now := by
  cases c with
  | db q => rcases perform_db hp with ⟨-, rfl⟩ | ⟨-, rfl⟩ <;> rfl
  | queryTransfer id =>
      rcases perform_queryTransfer hp with ⟨-, -, rfl⟩ | ⟨transfer, -, rfl⟩ | ⟨-, rfl⟩ <;> rfl
  | lock l =>
      cases ch with
      | done =>
          obtain ⟨locks, -, he⟩ := Option.map_eq_some_iff.mp hp
          obtain ⟨-, rfl⟩ := Prod.mk.inj he
          rfl
      | _ => simp [perform] at hp
  | _ =>
      cases ch <;> simp only [perform, Option.some.injEq, Prod.mk.injEq, reduceCtorEq] at hp
      all_goals
        obtain ⟨-, rfl⟩ := hp
        rfl

/-- The clock does not go back. -/
theorem now_later {s s' : Config (machine C)} (hs : Reach anyMove s) (hl : Later anyMove s s') :
    s.world.now ≤ s'.world.now := by
  refine Reach.preserved (J := fun a : Config (machine C) => s.world.now ≤ a.world.now) hs hl ?_
    le_rfl
  intro a b m _ _ hst hle
  rcases Config.step_cases hst with ⟨q, -, rfl⟩ | ⟨t, ch, c, k, hist, r, w, -, hth, hp, rfl⟩ |
    ⟨t, th, -, -, rfl⟩ | ⟨-, rfl⟩ | ⟨o, w, -, ho, rfl⟩
  · exact hle
  · exact hle.trans_eq (perform_clock hp).symm
  · exact hle
  · exact hle
  · cases o with
    | tick n =>
        obtain rfl := Option.some.inj ho
        exact hle.trans (Nat.le_add_right _ n)
    | others requests transfers =>
        obtain rfl := Option.some.inj ho
        exact hle

/-- What a finished pass has in its history was made in the pass. -/
theorem pass_moment {s₀ s : Config (machine C)} (hs₀ : Reach anyMove s₀)
    (hl : Later anyMove (s₀.spawn (Request.pass.handler C)) s) {th : Thread (Api L)}
    (hth : s.thread s₀.threads.length = some th) {e : Event (Api L)} (he : e ∈ th.history) :
    ∃ hist s₁ s₂, Later anyMove (s₀.spawn (Request.pass.handler C)) s₁ ∧
      Moment anyMove s₀.threads.length e hist s₁ s₂ ∧ Later anyMove s₂ s := by
  have hspawn : Reach anyMove (s₀.spawn (Request.pass.handler C)) :=
    hs₀.step (m := .spawn Request.pass) trivial rfl
  have htrace := (hspawn.later hl).history_mem _ th hth e he
  rcases Reach.made_later hspawn hl htrace with hbefore | hmade
  · -- the program has made no call when it is spawned
    have hnew : (s₀.spawn (Request.pass.handler C)).thread s₀.threads.length =
        some ⟨Request.pass.handler C, []⟩ := by
      simp [Config.thread, Config.spawn]
    have hnil := hspawn.history_complete hnew hbefore
    simp at hnil
  · exact hmade

/-- Only a lookup that has just answered that there is no transfer lets an exit expire. -/
theorem Change.expired_query {base : ExitRecord L} (hc : Change C h base record)
    (hexpired : record.status = .expired) :
    ∃ id, TransferId.parse record.transferId = .ok id ∧
      (⟨.queryTransfer id, .ok none⟩ : Event (Api L)) ∈ h := by
  cases hc with
  | expire id hnew hid hnone => exact ⟨id, hid, List.mem_of_mem_head? hnone⟩
  | _ => cases hexpired

/-- **Dead withdrawals.**  A pass of the worker that gets its answers, for an exit it finds
unsigned and past its expiry whose transfer can pay for nothing any more: no transfer the
operators report for it passes the check before a payout, and the pass lets the exit expire and
releases its coin and its owner exactly when the operators report none. -/
theorem dead_exits_expire {s₀ s : Config (machine C)} (hs₀ : Reach anyMove s₀)
    (hl : Later anyMove (s₀.spawn (Request.pass.handler C)) s) {hist : History (Api L)}
    (hend : s.thread s₀.threads.length = some ⟨.ret (), hist⟩)
    (hfound : FoundOverdue hist record s₀.world.now)
    {found : Option SparkTransfer} (hdead : Dead found)
    (hanswer : ∀ id r, TransferId.parse record.transferId = .ok id →
      (⟨.queryTransfer id, r⟩ : Event (Api L)) ∈ hist → r = .ok found)
    (hstored : ∀ e, (⟨.db (.updateCoopExit record.expire), .error e⟩ : Event (Api L)) ∉ hist) :
    (∀ transfer, found = some transfer → validateCoopExitTransfer C transfer record ≠ .ok ()) ∧
      (Expires s₀.threads.length (s₀.spawn (Request.pass.handler C)) s record ↔ found = none) := by
  refine ⟨fun transfer hsome => hdead.rejected hsome, fun hexpires => ?_, fun hnone => ?_⟩
  · obtain ⟨older, s₁, s₂, -, hm, hl₂, -⟩ := hexpires
    obtain ⟨ch, k, hth, -, -, -⟩ := hm.made
    have hth : s₁.thread s₀.threads.length =
        some ⟨.call (.db (.updateCoopExit record.expire)) k, older⟩ := hth
    obtain ⟨-, hj⟩ := made_justified hm.reach hth
    obtain ⟨base, -, -, hchange⟩ := hj (genuine hm.reach hth)
    obtain ⟨id, hid, hdenied⟩ := hchange.expired_query rfl
    -- the pass still knows the answer when it has come to its end
    obtain ⟨hs₂, -⟩ := hm.after
    have htrace := hm.reach.history_mem _ _ hth _ hdenied
    have hlast := hs₂.later hl₂
    have hknown : (s₀.threads.length, ⟨.queryTransfer id, .ok none⟩) ∈ s.trace := by
      refine Reach.preserved (J := fun a : Config (machine C) =>
        (s₀.threads.length, (⟨.queryTransfer id, .ok none⟩ : Event (Api L))) ∈ a.trace) hs₂ hl₂
        (fun _ _ _ _ _ hst hx => Config.trace_grows hst hx) ?_
      obtain ⟨ch', k', -, -, -, he⟩ := hm.made
      rw [he]
      exact List.mem_cons_of_mem _ htrace
    have hanswered := hanswer id _ hid (hlast.history_complete hend hknown)
    exact (Except.ok.inj hanswered).symm
  · subst hnone
    obtain ⟨records, hread, hrecord⟩ := hfound.read
    obtain ⟨id, hid⟩ : ∃ id, TransferId.parse record.transferId = .ok id := by
      obtain ⟨newer, u, rfl⟩ := hread
      have hmem : DbOk .pendingCoopExits records ∈
          newer ++ [DbOk .pendingCoopExits records, ⟨.lock .exits, u⟩] := by simp
      obtain ⟨older, s₁, s₂, -, hm, -⟩ := pass_moment hs₀ hl hend hmem
      obtain ⟨row, hrow, -, rfl⟩ := shown_row hm (.pending records rfl hrecord)
      exact transferId_parses hm.after.1 row hrow
    have hexpiring : Expiring record hist := by
      refine ⟨hfound.unsigned, fun n hn => ?_, ⟨id, hid, fun r => hanswer id r hid⟩, hstored⟩
      obtain ⟨older, s₁, s₂, hl₁, hm, -⟩ := pass_moment hs₀ hl hend hn
      obtain ⟨ch, k, -, -, hp, -⟩ := hm.made
      have hclock : n = s₁.world.now := by
        cases ch with
        | done => exact (Prod.mk.inj (Option.some.inj hp)).1.symm
        | _ => cases hp
      have hspawn : Reach anyMove (s₀.spawn (Request.pass.handler C)) :=
        hs₀.step (m := .spawn Request.pass) trivial rfl
      have hpassed := now_later hspawn hl₁
      rw [hclock]
      exact Nat.le_trans hfound.overdue hpassed
    have hafter := Reach.spawned_after (M := machine C) (r := Request.pass) hl _ hend
    have hpass : (Request.pass.handler C).wp (fun _ _ => True)
        (fun _ h' => ∀ records, Read records h' → ∀ record ∈ records, Expiring record h' →
          Marked record ∈ h') [] := by
      apply (Prog.wp_discard _ _ _).mpr
      apply Prog.wp_mono pass_wp
      rintro (e | u) h' hdone
      · exact hdone.elim
      · exact hdone
    have hdone := hafter.wp hpass
    rw [List.append_nil] at hdone
    have hmarked : Marked record ∈ hist := hdone records hread record hrecord hexpiring
    obtain ⟨older, s₁, s₂, hl₁, hm, hl₂⟩ := pass_moment hs₀ hl hend hmarked
    exact ⟨older, s₁, s₂, hl₁, hm, hl₂, released hm⟩

/-! ### Concrete passes -/

namespace Sample

/-- The time for paying for the withdrawal is over. -/
def forgotten : List (Move (machine .sample)) := requested ++ [.outside (.tick quoteSeconds)]

/-- The pass is over and was answered: `status` is what the operators say of the transfer. -/
def answered (status : Option TransferStatus) (s₀ s : Config (machine .sample)) : Bool :=
  match s.thread s₀.threads.length with
  | some ⟨.ret (), hist⟩ =>
      (match hist.reverse with
        | ⟨.lock .exits, _⟩ :: ⟨.db .pendingCoopExits, .ok [record]⟩ :: _ =>
            record.id == exitId.print && record.signedExit.isNone &&
              decide (record.expiresAt ≤ s₀.world.now)
        | _ => false) &&
      hist.all fun e => match e with
        | ⟨.queryTransfer _, .ok found⟩ => found.map (·.status) == status
        | ⟨.queryTransfer _, .error _⟩ => false
        | ⟨.db _, .error _⟩ => false
        | _ => true
  | _ => false

/-- What the test of `answered` says. -/
structure Answered (status : Option TransferStatus) (s₀ s : Config (machine .sample))
    (hist : History (Api .sample)) (record : ExitRecord .sample) : Prop where
  ended : s.thread s₀.threads.length = some ⟨.ret (), hist⟩
  id : record.id = exitId.print
  found : FoundOverdue hist record s₀.world.now
  lookups : ∀ id r, (⟨.queryTransfer id, r⟩ : Event (Api .sample)) ∈ hist →
    ∃ found, r = .ok found ∧ found.map (·.status) = status
  stored : ∀ q e, (⟨.db q, .error e⟩ : Event (Api .sample)) ∉ hist

theorem answered_ok {status : Option TransferStatus} {s₀ s : Config (machine .sample)}
    (h : answered status s₀ s = true) : ∃ hist record, Answered status s₀ s hist record := by
  unfold answered at h
  split at h
  · next hist hend =>
      obtain ⟨hbegin, hall⟩ := Bool.and_eq_true_iff.mp h
      split at hbegin
      · next u record rest hrev =>
          simp only [Bool.and_eq_true, beq_iff_eq, Option.isNone_iff_eq_none,
            decide_eq_true_eq] at hbegin
          obtain ⟨⟨hid, hunsigned⟩, hlate⟩ := hbegin
          have hread : Read [record] hist := by
            refine ⟨rest.reverse, u, ?_⟩
            rw [← List.reverse_reverse hist, hrev]
            simp [DbOk]
          have hfound : FoundOverdue hist record s₀.world.now :=
            ⟨⟨_, hread, List.mem_singleton_self _⟩, hunsigned, hlate⟩
          refine ⟨hist, record, hend, hid, hfound, fun id r hr => ?_, fun q e he => ?_⟩
          · have hr := List.all_eq_true.mp hall _ hr
            rcases r with e | found
            · cases hr
            · exact ⟨found, rfl, by simpa using hr⟩
          · cases List.all_eq_true.mp hall _ he
      · cases hbegin
  · cases h

/-- A pass over the forgotten withdrawal, with what the operators say each time. -/
def sweep (found : Option SparkTransfer) (last : List (Choice .sample)) :
    List (Move (machine .sample)) :=
  calls 1 ([.done, .done, .done, .transfer found] ++ last)

/-- A pass that makes these moves and ends as `p` says. -/
theorem swept (status : Option TransferStatus) (ms : List (Move (machine .sample)))
    (p : Config (machine .sample) → Bool)
    (h : (Reach.runMoves (fun _ _ => true) forgotten (Config.start (machine .sample))).any
      (fun s₀ => (Reach.runMoves (fun _ _ => true) ms
        (s₀.spawn (Request.pass.handler .sample))).any
          fun s => answered status s₀ s && p s) = true) :
    ∃ s₀ s hist record, Reach anyMove s₀ ∧
      Later anyMove (s₀.spawn (Request.pass.handler .sample)) s ∧
      Answered status s₀ s hist record ∧ p s = true := by
  obtain ⟨s₀, hs₀, h⟩ := Option.any_eq_true _ _ |>.mp h
  obtain ⟨s, hs, h⟩ := Option.any_eq_true _ _ |>.mp h
  obtain ⟨hanswered, hp⟩ := Bool.and_eq_true_iff.mp h
  obtain ⟨hist, record, ha⟩ := answered_ok hanswered
  exact ⟨s₀, s, hist, record, Reach.of_runMoves (fun _ _ _ => trivial) .start hs₀,
    Reach.later_of_runMoves (fun _ _ _ => trivial) .refl hs, ha, hp⟩

end Sample

/-- A withdrawal that Alice never pays for expires. -/
theorem dead_exits_expire_unpaid : ∃ (s₀ s : Config (machine .sample)) (record : _),
    Expires s₀.threads.length (s₀.spawn (Request.pass.handler .sample)) s record := by
  obtain ⟨s₀, s, hist, record, hs₀, hl, ha, -⟩ :=
    Sample.swept none (Sample.sweep none [.done, .done]) (fun _ => true) (by decide +kernel)
  have hdead : Dead none := nofun
  refine ⟨s₀, s, record, (dead_exits_expire hs₀ hl ha.ended ha.found hdead
    (fun id r _ hr => ?_) fun e => ha.stored _ e).2.mpr rfl⟩
  obtain ⟨found, rfl, hnone⟩ := ha.lookups _ r hr
  rw [Option.map_eq_none_iff.mp hnone]

/-- A withdrawal whose transfer was returned to Alice stays as it is: a pass with all its answers
leaves it pending, with its coin reserved and no place for another withdrawal of hers. -/
theorem returned_exit_kept : ∃ (s₀ s : Config (machine .sample)) (hist : History (Api .sample))
    (record : ExitRecord .sample), Reach anyMove s₀ ∧
      Later anyMove (s₀.spawn (Request.pass.handler .sample)) s ∧
      Sample.Answered (some .returned) s₀ s hist record ∧
      s.world.db.coopExitPendingForOwner "alice" = true ∧
      (⟨⟨[9]⟩, 0⟩ : OutPoint) ∈ s.world.db.coopReservedInputs ∧
      ∃ row ∈ s.world.db.exits.rows, row.id = Sample.exitId.print ∧ row.status = .initiated := by
  obtain ⟨s₀, s, hist, record, hs₀, hl, ha, hp⟩ :=
    Sample.swept (some .returned)
      (Sample.sweep (some (Sample.transfer .returned))
        [.transfer (some (Sample.transfer .returned)), .done])
      (fun s => s.world.db.coopExitPendingForOwner "alice" &&
        decide ((⟨⟨[9]⟩, 0⟩ : OutPoint) ∈ s.world.db.coopReservedInputs) &&
        s.world.db.exits.rows.any fun row =>
          row.id == Sample.exitId.print && row.status == .initiated)
      (by decide +kernel)
  simp only [Bool.and_eq_true, decide_eq_true_eq, List.any_eq_true, beq_iff_eq] at hp
  exact ⟨s₀, s, hist, record, hs₀, hl, ha, hp.1.1, hp.1.2, hp.2⟩

end OpenSsp.Coop
