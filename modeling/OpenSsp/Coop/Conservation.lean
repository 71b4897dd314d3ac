/-
OpenSsp/Coop/Conservation.lean

No satoshi is made or lost by a withdrawal.

The transactions and the price of an exit are fixed when it is inserted; an update changes its
signature and status only.  So every exit there is stays balanced (`Balanced`), whatever the
wallet, the operators and other programs do.

What a request computes before it inserts anything is in range too, also when it fails later:
leaves that are priced are at most a hundred and their values add up in 64 bits, and a coin
that is chosen covers everything that is taken from it.

Main result: `withdrawals_conserve`.
-/
import OpenSsp.Coop.Run

namespace OpenSsp.Coop

open Interleave Bitcoin

variable {L : Library} {C : Service L}
  {ok : Config (machine C) → Move (machine C) → Prop}

/-- An update of an exit changes nothing that its balance is about. -/
theorem Change.balanced {h : History (Api L)} {base record : ExitRecord L}
    {seen : Event (Api L) → Prop} {outpoint : OutPoint} {f : Funding} (hc : Change C h base record)
    (hb : Balanced seen base outpoint f) : Balanced seen record outpoint f := by
  cases hc <;> exact { hb with }

/-- Some program has found the coin of the exit in the wallet, and the exit is balanced. -/
def Conserved (s : Config (machine C)) (record : ExitRecord L) : Prop :=
  ∃ t outpoint f, Balanced (fun e => (t, e) ∈ s.trace) record outpoint f

theorem Conserved.step {s s' : Config (machine C)} {m : Move (machine C)} {record : ExitRecord L}
    (hc : Conserved s record) (hst : s.step m = some s') : Conserved s' record := by
  obtain ⟨t, outpoint, f, hb⟩ := hc
  exact ⟨t, outpoint, f, hb.mono fun _ he => Config.trace_grows hst he⟩

/-- A record that is about to be inserted is balanced. -/
theorem inserting_conserved {s : Config (machine C)} (hs : Reach ok s) {t : Nat}
    {record : ExitRecord L} {outpoint : OutPoint} {hist : History (Api L)}
    {k : (Call.db (.insertCoopExit record outpoint)).Reply → Prog (Api L) Unit}
    (hth : s.thread t = some ⟨.call (.db (.insertCoopExit record outpoint)) k, hist⟩) :
    Conserved s record := by
  obtain ⟨-, hreserving⟩ := made_justified hs hth
  obtain ⟨f, hb⟩ := hreserving.balanced
  exact ⟨t, outpoint, f, hb.mono fun e he => hs.history_mem t _ hth e he⟩

theorem conserved {s : Config (machine C)} (hs : Reach ok s) :
    ∀ row ∈ s.world.db.exits.rows, Conserved s row.data := by
  refine hs.invariant (J := fun s : Config (machine C) =>
    ∀ row ∈ s.world.db.exits.rows, Conserved s row.data) ?_ ?_
  · intro row hrow
    simp [Config.start, machine, Db.empty, ExitTable.empty, Table.empty] at hrow
  · intro s s' m hr ih hm hst x hx
    suffices Conserved s x.data from this.step hst
    rcases step_writes hst with hsame | ⟨t, c, k, hist, hth, hw⟩
    · exact ih x (hsame.1 ▸ hx)
    · have hj := made_justified hr hth
      rcases hw with hsame | ⟨record, outpoint, hins⟩ | ⟨record, hupd⟩
      · exact ih x (hsame.1 ▸ hx)
      · obtain ⟨exit, -, hrows, -⟩ := Db.insertCoopExit_ok hins
        rw [hrows] at hx
        rcases List.mem_cons.mp hx with rfl | hx
        · exact inserting_conserved hr hth
        · exact ih x hx
      · obtain ⟨hheld, hj⟩ := hj
        obtain ⟨base, hfresh, -, hchange⟩ := hj (genuine hr hth)
        obtain ⟨row, hrow, -, rfl⟩ := fresh_row hr hth hheld hfresh
        rw [hupd] at hx
        obtain ⟨old, hold, ⟨-, rfl⟩ | ⟨-, rfl⟩⟩ := Db.mem_updateCoopExit.mp hx
        · obtain ⟨t', outpoint, f, hb⟩ := ih row hrow
          exact ⟨t', outpoint, f, hchange.balanced hb⟩
        · exact ih x hold

/-! ### Before the insert -/

/-- Whatever its calls answer, a result of the action is as said. -/
def Answers {α : Type} (C : Service L) (act : Ssp L α) (R : α → Prop) : Prop :=
  ∀ h, Act.Spec (Justified C) (Keeps fun _ => False) act (fun a _ => R a) h

theorem priced_answers {request : ExitInput} {quote : ExitQuote} {speed : Fin 3} {owner : String}
    (hids : validateIds request.leafExternalIds = .ok ()) :
    Answers C (do
      let leaves ← leaves C owner request.leafExternalIds
      withdrawalAmount C request quote speed leaves owner)
      fun amount => Priced quote speed amount.1 amount.2 := by
  intro h
  exact .bind leaves_meets fun ls _ _ hls => withdrawalAmount_meets hids hls

theorem fund_answers {reserved : List OutPoint} {needed : Nat} :
    Answers C (fund reserved needed) fun coin => needed ≤ coin.1 ∧ coin.1 < 2 ^ 64 := by
  intro h
  refine fund_meets.mono (fun _ => id) ?_
  rintro coin h' - ⟨-, hlarge, coins, value, -, hvalue, -⟩
  exact ⟨hlarge, hvalue ▸ value.toNat_lt⟩

/-- **Conservation.**  In every reachable state each exit is balanced: its leaves are distinct, at
most a hundred, and worth the payout, the user's fee and the Bitcoin fee; the coin it spends is the
payout, the connector funding, the change and the Bitcoin fee, with a payout above the dust limit and
a change of at least 330 sats; and its connector has one output of 330 sats for each leaf and
a spare one, which are the connector funding.  A record about to be inserted is balanced already,
and before that no sum leaves 64 bits and nothing is taken from a smaller amount: leaves that pay
for a withdrawal are priced, and a coin that funds it covers what is needed. -/
theorem withdrawals_conserve {s : Config (machine C)} (hs : Reach anyMove s) :
    (∀ row ∈ s.world.db.exits.rows, Conserved s row.data) ∧
    (∀ t record outpoint k hist,
      s.thread t = some ⟨.call (.db (.insertCoopExit record outpoint)) k, hist⟩ →
      Conserved s record) ∧
    (∀ (request : ExitInput) (quote : ExitQuote) (speed : Fin 3) (owner : String),
      validateIds request.leafExternalIds = .ok () →
      Answers C (do
        let leaves ← leaves C owner request.leafExternalIds
        withdrawalAmount C request quote speed leaves owner)
        fun amount => Priced quote speed amount.1 amount.2) ∧
    ∀ (reserved : List OutPoint) (needed : Nat),
      Answers C (fund reserved needed) fun coin => needed ≤ coin.1 ∧ coin.1 < 2 ^ 64 :=
  ⟨conserved hs, fun _ _ _ _ _ hth => inserting_conserved hs hth,
    fun _ _ _ _ hids => priced_answers hids, fun _ _ => fund_answers⟩

/-- The amounts of a withdrawal that has just been requested. -/
theorem withdrawals_conserve_requested : ∃ s : Config (machine .sample), Reach anyMove s ∧
    ∃ row ∈ s.world.db.exits.rows, row.data.payoutSats = 824 ∧ Conserved s row.data := by
  obtain ⟨s, hs, hp⟩ := Reach.exists_of_moves Sample.requested
    (fun s => s.world.db.exits.rows.any fun row => row.data.payoutSats == 824) (by decide +kernel)
  obtain ⟨row, hrow, hst⟩ := List.any_eq_true.mp hp
  exact ⟨s, hs, row, hrow, by simpa using hst, (withdrawals_conserve hs).1 row hrow⟩

end OpenSsp.Coop
