/-
OpenSsp/Deposit/Exposure.lean

What the service risks with instant deposits.

The credit of a claim counts until its recovery is confirmed.  An insert checks the sum in the
transaction that writes the row; what is written later neither changes a credit nor opens a claim
again, so the sum grows with inserts only.  The indices of the table keep the claims that count
apart.

Main result: `exposure_bounded`.
-/
import Mathlib.Algebra.Order.BigOperators.Group.List
import OpenSsp.Deposit.Scan

namespace OpenSsp.Deposit

open Interleave Bitcoin

variable {L : Library} {C : Service L} {r r' : InstantClaim L} {db db' : Db L}
variable {ok : Config (machine C) → Move (machine C) → Prop}

/-! ### The sum -/

/-- What a row adds to the exposure. -/
def InstantRow.counted (row : InstantRow L) : Nat := if row.tracked then row.credit else 0

@[inherit_doc InstantRow.counted]
def InstantClaim.counted (r : InstantClaim L) : Nat := (InstantRow.of r).counted

theorem sum_counted (rows : List (InstantRow L)) :
    ((rows.filter InstantRow.tracked).map (·.credit)).sum =
      (rows.map InstantRow.counted).sum := by
  induction rows with
  | nil => rfl
  | cons row rows ih =>
      rw [List.map_cons, List.sum_cons, InstantRow.counted, ← ih]
      by_cases htracked : row.tracked
      · rw [List.filter_cons_of_pos htracked, if_pos htracked, List.map_cons, List.sum_cons]
      · rw [List.filter_cons_of_neg htracked, if_neg htracked, Nat.zero_add]

theorem Db.instantOutstanding_eq (db : Db L) :
    db.instantOutstanding = (db.bareInstants.map InstantRow.counted).sum := by
  rw [instantOutstanding, sum_counted, bareInstants, List.map_map]
  rfl

theorem outstanding_eq {s : Config (machine C)} (hs : Reach ok s) :
    s.world.db.instantOutstanding = (s.world.db.records.map InstantClaim.counted).sum := by
  rw [Db.instantOutstanding_eq, reach_rows hs, List.map_map]
  rfl

theorem counted_open (h : r.phase ≠ .spendTxConfirmed) :
    r.counted = r.quote.deposit.credit := by
  have htracked : (InstantRow.of r).tracked = true := decide_eq_true h
  exact if_pos htracked

theorem counted_le (r : InstantClaim L) : r.counted ≤ r.quote.deposit.credit := by
  by_cases h : r.phase = .spendTxConfirmed
  · have htracked : ¬ (InstantRow.of r).tracked = true := by
      show ¬ decide (r.phase ≠ .spendTxConfirmed) = true
      simp [h]
    have hcounted : r.counted = 0 := if_neg htracked
    omega
  · exact (counted_open h).le

/-! ### Inserts and saves -/

theorem checkExposure_ok {value credit outstanding maxDeposit limit : Nat}
    (h : checkExposure value credit outstanding maxDeposit limit = .ok ()) :
    value ≤ maxDeposit ∧ outstanding + credit ≤ limit := by
  unfold checkExposure at h
  split at h
  · cases h
  · split at h
    · cases h
    · next hvalue =>
      split at h
      · cases h
      · next hsum =>
        refine ⟨Nat.le_of_not_lt hvalue, ?_⟩
        rcases hadd : checkedAdd outstanding credit with - | sum
        · simp [hadd] at hsum
        · obtain ⟨rfl, -⟩ := checkedAdd_eq_some hadd
          simpa [hadd] using hsum

theorem Db.insertInstant_checked {maxDeposit limit now : Nat}
    (h : db.insertInstant r maxDeposit limit now = .ok db') :
    r.quote.deposit.credit + r.quote.deposit.fee ≤ maxDeposit ∧
      db.instantOutstanding + r.quote.deposit.credit ≤ limit := by
  obtain ⟨_, hcheck, -⟩ := bind_ok h
  exact checkExposure_ok hcheck

/-- A claim that is written again was open. -/
theorem advance_open {hist : History (Api L)} (ha : Advance C r hist r') :
    r.phase ≠ .spendTxConfirmed := by
  cases ha with
  | paid hphase => rw [hphase]; exact nofun
  | scanned tip hphase hscan => rw [hphase]; exact nofun
  | prepared point request hphase hunspent hfreeze => rw [hphase]; exact nofun
  | signed spend hfrozen hopen => exact hopen
  | settled confirmations hfrozen hopen hseen => exact hopen

/-- No step of a recovery adds to the exposure. -/
theorem advance_counted {hist : History (Api L)} (ha : Advance C r hist r') :
    r'.counted ≤ r.counted := by
  rw [counted_open (advance_open ha), ← advance_quote ha]
  exact counted_le r'

/-- What a step of a recovery leaves of a claim: it counts on, or its recovery was seen. -/
theorem advance_released {hist : History (Api L)} (ha : Advance C r hist r') :
    r'.phase ≠ .spendTxConfirmed ∨ Seen hist (.instant r'.id) 3 r'.signedSpend := by
  cases ha with
  | paid hphase => exact .inl (by exact nofun)
  | scanned tip hphase hscan =>
      left
      show r.phase ≠ .spendTxConfirmed
      rw [hphase]
      exact nofun
  | prepared point request hphase hunspent hfreeze => exact .inl (by exact nofun)
  | signed spend hfrozen hopen => exact .inl (by exact nofun)
  | settled confirmations hfrozen hopen hseen =>
      by_cases hdepth : 3 ≤ confirmations
      · exact .inr (hseen hdepth)
      · left
        show (if 3 ≤ confirmations then Phase.spendTxConfirmed else .spendTxBroadcast) ≠ _
        rw [if_neg hdepth]
        exact nofun

/-! ### Runs -/

/-- The limits are kept. -/
structure Bounded (s : Config (machine C)) : Prop where
  exposure : s.world.db.instantOutstanding ≤ C.instantLimit
  values : ∀ r ∈ s.world.db.records,
    r.quote.deposit.credit + r.quote.deposit.fee ≤ C.instantMaxDeposit

theorem Bounded.step {s s' : Config (machine C)} (hs : Reach ok s) (hs' : Reach ok s')
    (hb : Bounded s) {m : Move (machine C)} (hst : s.step m = some s') : Bounded s' := by
  have hsum := outstanding_eq hs
  cases step_ledger hs hst with
  | same h =>
      constructor
      · rw [outstanding_eq hs', h, ← hsum]
        exact hb.exposure
      · rw [h]
        exact hb.values
  | entered t k hist r maxDeposit limit hth htrace hfresh hinsert h =>
      -- the limits of the insert are those of the service
      obtain ⟨hvalue, hlimit⟩ := Db.insertInstant_checked hinsert
      rw [hfresh.maxDeposit_eq] at hvalue
      rw [hfresh.limit_eq] at hlimit
      constructor
      · rw [outstanding_eq hs', h, List.map_cons, List.sum_cons, ← hsum]
        have hnew := counted_le r
        omega
      · rw [h]
        intro x hx
        rcases List.mem_cons.mp hx with rfl | hx
        · exact hvalue
        · exact hb.values x hx
  | advanced t k hist r r' hth htrace hr ha h =>
      constructor
      · rw [outstanding_eq hs', h]
        apply le_trans _ hb.exposure
        rw [hsum, replace, List.map_map]
        apply List.sum_le_sum
        intro x hx
        show InstantClaim.counted (if x.id = r'.id then r' else x) ≤ x.counted
        by_cases hid : x.id = r'.id
        · obtain rfl : x = r := records_unique hs hx hr (hid.trans (advance_id ha))
          rw [if_pos hid]
          exact advance_counted ha
        · rw [if_neg hid]
      · rw [h]
        intro x hx
        obtain ⟨old, hold, rfl⟩ := List.mem_map.mp hx
        by_cases hid : old.id = r'.id
        · rw [if_pos hid, advance_quote ha]
          exact hb.values r hr
        · rw [if_neg hid]
          exact hb.values old hold

theorem bounded {s : Config (machine C)} (hs : Reach ok s) : Bounded s := by
  have hall : Reach ok s ∧ Bounded s := by
    refine hs.invariant (J := fun s => Reach ok s ∧ Bounded s) ?_ ?_
    · refine ⟨.start, Nat.zero_le _, ?_⟩
      intro r hr
      cases hr
    · rintro s s' m hr ⟨-, hb⟩ hm hst
      have hr' : Reach ok s' := hr.step hm hst
      exact ⟨hr', hb.step hr hr' hst⟩
  exact hall.2

theorem mem_instants {s : Config (machine C)} (hs : Reach ok s) {row : InstantRow L}
    (hrow : row ∈ s.world.db.instants.val) : row.bare = .of row.data ∧
      row.data ∈ s.world.db.records := by
  have hbare : row.bare ∈ s.world.db.bareInstants := List.mem_map_of_mem hrow
  exact ⟨row_of hs row.bare hbare, Db.mem_records.mpr ⟨row, hrow, rfl⟩⟩

/-- Rows that a partial index tells apart. -/
theorem tracked_unique {rows : List (InstantRow L)} {β : Type} {key : InstantRow L → β}
    (h : ((rows.filter InstantRow.tracked).map key).Nodup) {row row' : InstantRow L}
    (hrow : row ∈ rows) (hrow' : row' ∈ rows) (ht : row.tracked = true) (ht' : row'.tracked = true)
    (hkey : key row = key row') : row = row' :=
  List.inj_on_of_nodup_map h (List.mem_filter.mpr ⟨hrow, ht⟩) (List.mem_filter.mpr ⟨hrow', ht'⟩)
    hkey

/-- The row of a claim after a move: it counts as before, or its recovery was seen. -/
theorem step_released {s s' : Config (machine C)} (hs : Reach ok s) (hs' : Reach ok s')
    {m : Move (machine C)} (hst : s.step m = some s') {row : InstantRow L}
    (hrow : row ∈ s.world.db.instants.val) (htracked : row.tracked = true) :
    ∃ row' ∈ s'.world.db.instants.val, row'.id = row.id ∧ row'.credit = row.credit ∧
      (row'.tracked = true ∨ Settled s' (.instant row.id) 3 row'.data.signedSpend) := by
  obtain ⟨hof, hmem⟩ := mem_instants hs hrow
  have hid : row.id = row.data.id := congrArg InstantRow.id hof
  have hcredit : row.credit = row.data.quote.deposit.credit := congrArg InstantRow.credit hof
  have hphase : row.phase = row.data.phase := congrArg InstantRow.phase hof
  -- the row of a record that is stored later
  have hfind : ∀ r' ∈ s'.world.db.records, r'.id = row.data.id → r'.quote = row.data.quote →
      (r'.phase ≠ .spendTxConfirmed ∨ Settled s' (.instant r'.id) 3 r'.signedSpend) →
      ∃ row' ∈ s'.world.db.instants.val, row'.id = row.id ∧ row'.credit = row.credit ∧
        (row'.tracked = true ∨ Settled s' (.instant row.id) 3 row'.data.signedSpend) := by
    intro r' hr' hid' hquote hkept
    obtain ⟨row', hrow', rfl⟩ := Db.mem_records.mp hr'
    have hof' := (mem_instants hs' hrow').1
    refine ⟨row', hrow', ?_, ?_, ?_⟩
    · rw [hid, ← hid']
      exact congrArg InstantRow.id hof'
    · rw [hcredit, ← hquote]
      exact congrArg InstantRow.credit hof'
    · rcases hkept with hopen | hseen
      · left
        have hphase' : row'.phase = row'.data.phase := congrArg InstantRow.phase hof'
        rw [← hphase'] at hopen
        exact decide_eq_true hopen
      · right
        rw [hid, ← hid']
        exact hseen
  have hopen : row.data.phase ≠ .spendTxConfirmed := by
    rw [← hphase]
    exact of_decide_eq_true htracked
  rcases (step_ledger hs hst).successor hs hmem with hsame | ⟨t, k, hist, r', hth, -, ha, hr'⟩
  · exact hfind row.data hsame rfl rfl (.inl hopen)
  · refine hfind r' hr' (advance_id ha) (advance_quote ha) ?_
    exact (advance_released ha).imp_right fun hseen => (hseen.settled hs hth).step hst

/-- **The exposure is bounded.**  In every reachable state the credits of the claims whose recovery
is not confirmed are within the limit, every claimed value is within the maximum, and claims that
are not confirmed differ in their owners and in address and value; with any move a claim counts on,
or its recovery was observed three blocks deep. -/
theorem exposure_bounded {s : Config (machine C)} (hs : Reach anyMove s) :
    s.world.db.instantOutstanding ≤ C.instantLimit ∧
    (∀ row ∈ s.world.db.instants.val, row.phase = row.data.phase ∧
      row.credit = row.data.quote.deposit.credit ∧
      row.value = row.data.quote.deposit.credit + row.data.quote.deposit.fee ∧
      row.value ≤ C.instantMaxDeposit) ∧
    (∀ row ∈ s.world.db.instants.val, ∀ row' ∈ s.world.db.instants.val,
      row.tracked = true → row'.tracked = true →
      row.owner = row'.owner ∨ row.address = row'.address ∧ row.value = row'.value → row = row') ∧
    ∀ m s', s.step m = some s' → ∀ row ∈ s.world.db.instants.val, row.tracked = true →
      ∃ row' ∈ s'.world.db.instants.val, row'.id = row.id ∧ row'.credit = row.credit ∧
        (row'.tracked = true ∨ Settled s' (.instant row.id) 3 row'.data.signedSpend) := by
  obtain ⟨-, -, -, houtputs, howners⟩ := s.world.db.instants.property
  refine ⟨(bounded hs).exposure, ?_, ?_, ?_⟩
  · intro row hrow
    obtain ⟨hof, hmem⟩ := mem_instants hs hrow
    have hvalue : row.value = row.data.quote.deposit.credit + row.data.quote.deposit.fee :=
      congrArg InstantRow.value hof
    refine ⟨congrArg InstantRow.phase hof, congrArg InstantRow.credit hof, hvalue, ?_⟩
    rw [hvalue]
    exact (bounded hs).values row.data hmem
  · rintro row hrow row' hrow' ht ht' (howner | ⟨haddress, hvalue⟩)
    · exact tracked_unique howners hrow hrow' ht ht' howner
    · exact tracked_unique houtputs hrow hrow' ht ht' (Prod.ext haddress hvalue)
  · intro m s' hst row hrow ht
    exact step_released hs (.step hs trivial hst) hst hrow ht

/-- The claim of a run counts while a replacement of its output is searched. -/
theorem exposure_bounded_searching : ∃ s : Config (machine Sample.instantService),
    Reach anyMove s ∧ 0 < s.world.db.instantOutstanding ∧ s.world.db.instantOutstanding ≤ 20000 := by
  obtain ⟨s, hs, hp⟩ := Reach.exists_of_moves Sample.searching
    (fun s => 0 < s.world.db.instantOutstanding) (by decide +kernel)
  exact ⟨s, hs, of_decide_eq_true hp, (exposure_bounded hs).1⟩

end OpenSsp.Deposit
