/-
OpenSsp/PrepaidSwap.lean

A transfer that prepays a send and is offered as the primary of a swap as well.

A prepayment has to be a completed transfer of the standard type, and its send enters a row of
`transfers` under the text that names it, which a swap that has been recorded has taken.  In the
other order nothing is looked up: `fill_swap` takes a primary of every type and refuses those
that have expired or were returned, and the operators decide on the rest.

Main results: `prepayments_and_swaps`, and the run `prepayment_is_swapped` in which the operators
agree.
-/
import OpenSsp.TransferIds
import OpenSsp.TransferSpelling

namespace OpenSsp

open Interleave

variable {D : Deployment} {ok : Config (machine D) → Move (machine D) → Prop}

/-! ### The two uses of a transfer -/

/-- A send is stored that the transfer `u` prepays. -/
def Prepays (s : Config (machine D)) (u : Uuid) : Prop :=
  ∃ r ∈ s.world.db.sends.rows, r.intent.kind = .bolt12 ∧
    Uuid.parse r.intent.outboundTransferId = some u

/-- A swap has recorded its primary under this text. -/
def SwapRecorded (s : Config (machine D)) (text : String) : Prop :=
  ∃ t id status owner, (t, dbEvent (.insertTransfer text id .transfer status owner) ()) ∈ s.trace

/-- The operators have made a counter transfer for the primary `u`. -/
def CounterMade (s : Config (machine D)) (u : Uuid) : Prop :=
  ∃ t amounts receiver adaptor id x,
    (t, sparkEvent (.transferSwapCounter amounts receiver u adaptor id) x) ∈ s.trace

/-- The operators refuse a counter transfer for a primary of the standard type. -/
def refusesPrepayments (s : Config (machine D)) (m : Move (machine D)) : Prop :=
  ∀ t ch amounts receiver u adaptor id, m = .run t ch →
    s.next t = some (.spark (.transferSwapCounter amounts receiver u adaptor id)) →
    (∃ x ∈ s.world.spark.transfers, x.id = u ∧ x.transferType = .transfer) → ∃ e, ch = .fail e

/-- A completed transfer of the standard type to the SSP was reported under this id. -/
def PrepaymentSeen (s : Config (machine D)) (u : Uuid) : Prop :=
  ∃ x ∈ s.world.spark.transfers, x.id = u ∧ x.transferType = .transfer ∧
    x.receiverId = D.identity ∧ ∃ y ∈ s.world.spark.transfers, y.id = u ∧ y.status = .completed

/-- A transfer to the SSP that has neither expired nor been returned was reported under this
id. -/
def PrimarySeen (s : Config (machine D)) (u : Uuid) : Prop :=
  ∃ x ∈ s.world.spark.transfers, x.id = u ∧ x.receiverId = D.identity ∧
    x.status ≠ .expired ∧ x.status ≠ .returned

/-! ### What the program checks -/

section run

variable {s s' : Config (machine D)}

/-- A recorded primary keeps its row. -/
theorem SwapRecorded.row (hs : Reach ok s) {text : String} (h : SwapRecorded s text) :
    ∃ x, s.world.db.transfers.get text = some x := by
  obtain ⟨t, id, status, owner, hmem⟩ := h
  obtain ⟨older, s₀, s₁, hm, hg⟩ := reach_happened hs hmem
  obtain ⟨db', hrun, hw⟩ := moment_db hm
  -- the row was there, or the method has entered it
  have hrow : ∃ x, db'.transfers.get text = some x := by
    rcases hnone : s₀.world.db.transfers.get text with - | x
    · obtain ⟨x, hx, -⟩ := Db.entersTransfer_row hrun rfl hnone
      exact ⟨x, hx⟩
    · obtain ⟨y, hy, -⟩ := (Db.transfers_step hrun).1 text x hnone
      exact ⟨y, hy⟩
  obtain ⟨x, hx⟩ := hrow
  obtain ⟨y, hy, -⟩ := hg.db.transfers text x (by rw [hw]; exact hx)
  exact ⟨y, hy⟩

/-- A new send enters a row under the text that names its transfer. -/
theorem new_send_row {m : Move (machine D)} (hst : s.step m = some s') {r' : SendRow}
    (hr' : r' ∈ s'.world.db.sends.rows)
    (hnew : ∀ r ∈ s.world.db.sends.rows, r.intent.requestId ≠ r'.intent.requestId) :
    s.world.db.transfers.get r'.intent.outboundTransferId = none := by
  rcases step_tables hst with hdb | ⟨t, ch, q, k, hist, a, db', rfl, hth, hrun, hw⟩
  · rw [hdb] at hr'
    exact absurd rfl (hnew r' hr')
  · rw [hw] at hr'
    rcases Db.sends_step hrun with ⟨g, hrows, hstep⟩ | ⟨send, key, network, rfl, hrows, -⟩
    · obtain ⟨r, hr, rfl⟩ := List.mem_map.mp (hrows ▸ hr')
      exact absurd (hstep r hr).same.requestId.symm (hnew r hr)
    · obtain ⟨requests, sends, transfers, -, -, -, htransfers, -⟩ := Db.prepareLightningSend_ok hrun
      rcases List.mem_cons.mp (hrows ▸ hr') with rfl | hr
      · exact (Table.insert_eq_some htransfers).1
      · exact absurd rfl (hnew r' hr)

/-- The prepayment of a send has been reported as one. -/
theorem Prepays.seen (hs : Reach ok s) {u : Uuid} (h : Prepays s u) : PrepaymentSeen s u := by
  obtain ⟨r, hr, hk, hu⟩ := h
  have hfunds := (reach_base hs r hr).funded
  cases hfunds with
  | bolt11 kind => exact absurd (hk.symm.trans kind) nofun
  | bolt12 kind x mem id type completed key owner sender receiver amount =>
      rw [id] at hu
      obtain rfl := Option.some.inj hu
      exact ⟨x, mem, rfl, type, receiver, completed⟩

/-- A counter transfer is asked for a primary that has been reported. -/
theorem CounterGround.seen (hs : Reach ok s) {t : Nat} {th : Thread Api}
    (hth : s.thread t = some th) {u id : Uuid} {receiver : PublicKey} {text : String}
    {x : Transfer} (hg : CounterGround D th.history u id receiver text x) : PrimarySeen s u := by
  obtain ⟨sp, ha, hgrows⟩ := spark_fact hs hth hg.read
  obtain ⟨total, hpaid⟩ := hg.paid
  have hclaimable := hg.claimable
  unfold validateSwapPrimaryClaimable at hclaimable
  split at hclaimable
  · cases hclaimable
  · next hdead =>
      rw [not_or] at hdead
      exact ⟨x, hgrows.transfers x ha.1, ha.2, (validateTransfer_ok hpaid).2.1, hdead⟩

theorem PrimarySeen.grows {u : Uuid} (h : PrimarySeen s u)
    (hg : s.world.spark.Grows s'.world.spark) : PrimarySeen s' u := by
  obtain ⟨x, hx, hrest⟩ := h
  exact ⟨x, hg.transfers x hx, hrest⟩

theorem CounterRequested.seen (hs : Reach ok s) {u id : Uuid} (h : CounterRequested s u id) :
    PrimarySeen s u := by
  obtain ⟨t, amounts, receiver, adaptor, reply, hmem⟩ := h
  obtain ⟨older, s₀, s₁, hm, hg⟩ := reach_happened hs hmem
  obtain ⟨ch, k, hth, -⟩ := hm.made
  obtain ⟨text, x, hground⟩ : ∃ text x, CounterGround D older u id receiver text x :=
    moment_justified hm
  exact ((hground.seen hm.reach hth).grows (moment_grows hm).spark).grows hg.spark

/-! ### What the operators refuse -/

/-- Operators that refuse prepayments make no counter transfer for one. -/
theorem CounterMade.unprepaid (hs : Reach refusesPrepayments s) {u : Uuid} (h : CounterMade s u) :
    ¬ Prepays s u := by
  intro hprepays
  obtain ⟨t, amounts, receiver, adaptor, id, y, hmem⟩ := h
  obtain ⟨older, s₀, s₁, hm, hg⟩ := reach_happened hs hmem
  obtain ⟨ch, k, hth, hok, hp, -⟩ := hm.made
  obtain ⟨text, x, hground⟩ : ∃ text x, CounterGround D older u id receiver text x :=
    moment_justified hm
  -- its primary was of the standard type when it was asked for, as ever
  obtain ⟨p, hp₀, hpid, -⟩ := hground.seen hm.reach hth
  obtain ⟨x', hx', hxid, htype, -⟩ := hprepays.seen hs
  have hpnow := hg.spark.transfers p ((moment_grows hm).spark.transfers p hp₀)
  have hagree := (s.world.spark.agree p hpnow x' hx' (hpid.trans hxid.symm)).transferType
  have hnext : s₀.next t = some (.spark (.transferSwapCounter amounts receiver u adaptor id)) := by
    simp [Config.next, hth, Prog.next]
  obtain ⟨e, rfl⟩ := hok t ch amounts receiver u adaptor id rfl hnext
    ⟨p, hp₀, hpid, hagree.trans htype⟩
  simp [machine, perform, performSpark] at hp

end run

/-- **Prepayments and swaps.**  A swap that has recorded its primary keeps every later send from
naming it by the same text.  A prepayment is a completed transfer of the standard type; a counter
transfer is asked for a primary that has neither expired nor been returned.  When the operators
refuse counter transfers for primaries of the standard type, none is made for a prepayment. -/
theorem prepayments_and_swaps {s : Config (machine D)} (hs : Reach anyMove s) :
    (∀ text, SwapRecorded s text → ∀ m s', s.step m = some s' → ∀ r' ∈ s'.world.db.sends.rows,
      r'.intent.outboundTransferId = text →
      ∃ r ∈ s.world.db.sends.rows, r.intent.requestId = r'.intent.requestId) ∧
    (∀ u, Prepays s u → PrepaymentSeen s u) ∧
    (∀ u id, CounterRequested s u id → PrimarySeen s u) ∧
    (Reach refusesPrepayments s → ∀ u, Prepays s u → ¬ CounterMade s u) := by
  refine ⟨?_, fun u h => h.seen hs, fun u id h => h.seen hs, ?_⟩
  · rintro text hrecorded m s' hst r' hr' rfl
    by_contra hnew
    obtain ⟨x, hx⟩ := hrecorded.row hs
    rw [new_send_row hst hr' fun r hr hid => hnew ⟨r, hr, hid⟩] at hx
    cases hx
  · exact fun hrefuses u hprepays hmade => hmade.unprepaid hrefuses hprepays

namespace Sample

/-- `alice` stores a send that transfer 7 prepays, and program 1 answers the swap for which she
offers the same transfer, up to the operators' reply. -/
def swapPrepaid (reply : Choice) : List (Move (machine .sample)) :=
  let name := (uuid 7).print
  storeOffer 0 1 name ++
  .spawn (.swap "alice" ⟨1, name, String.ofList (List.replicate 66 '0'), [1]⟩) ::
  calls 1 [.done, .done, .number 0, .transfer (some prepaid), .done, .transfer (some prepaid),
    .transfer none, .done, .done, reply]

/-- The counter transfer of transfer 7. -/
def counterOfPrepaid : Choice :=
  .transfer (some { prepaid with id := counterTransferId (uuid 7).print })

def usedTwice (s : Config (machine .sample)) : Bool :=
  counteredAs (uuid 7).print s &&
    s.world.db.sends.rows.any fun r => r.intent.kind == .bolt12 &&
      Uuid.parse r.intent.outboundTransferId == some (uuid 7)

theorem of_usedTwice {s : Config (machine .sample)} (h : usedTwice s = true) :
    CounterRequested s (uuid 7) (counterTransferId (uuid 7).print) ∧ Prepays s (uuid 7) := by
  obtain ⟨hcounter, hsend⟩ := Bool.and_eq_true_iff.mp h
  obtain ⟨r, hr, hp⟩ := List.any_eq_true.mp hsend
  rw [Bool.and_eq_true, beq_iff_eq, beq_iff_eq] at hp
  exact ⟨of_counteredAs hcounter, r, hr, hp⟩

def refuses (s : Config (machine .sample)) : Move (machine .sample) → Bool
  | .run t ch => match s.next t with
      | some (.spark (.transferSwapCounter ..)) => match ch with
          | .fail _ => true
          | _ => false
      | _ => true
  | _ => true

theorem of_refuses {s : Config (machine .sample)} {m : Move (machine .sample)}
    (h : refuses s m = true) : refusesPrepayments s m := by
  rintro t ch amounts receiver u adaptor id rfl hnext -
  simp only [refuses, hnext] at h
  cases ch with
  | fail e => exact ⟨e, rfl⟩
  | _ => cases h

end Sample

/-- The operators refuse the swap of a prepayment. -/
theorem prepayments_and_swaps_refused : ∃ s : Config (machine .sample), Reach anyMove s ∧
    Prepays s (Sample.uuid 7) ∧ PrimarySeen s (Sample.uuid 7) ∧ ¬ CounterMade s (Sample.uuid 7) := by
  have hrun : (Reach.runMoves Sample.refuses (Sample.swapPrepaid (.fail "primary is not a swap"))
      (Config.start _)).any Sample.usedTwice = true := by
    decide +kernel
  obtain ⟨s, hs, hp⟩ := Reach.exists_of_runMoves (fun _ _ => Sample.of_refuses) hrun
  obtain ⟨hcounter, hprepays⟩ := Sample.of_usedTwice hp
  have hany : Reach anyMove s := hs.weaken fun _ _ _ => trivial
  obtain ⟨-, -, hprimary, hrefused⟩ := prepayments_and_swaps hany
  exact ⟨s, hany, hprepays, hprimary _ _ hcounter, hrefused hs _ hprepays⟩

/-- Operators that agree are asked for the counter transfer of a prepayment. -/
theorem prepayment_is_swapped :
    ¬ ∀ (D : Deployment) (s : Config (machine D)), Reach anyMove s →
      ∀ u id, Prepays s u → ¬ CounterRequested s u id := by
  intro h
  obtain ⟨s, hs, hp⟩ := Reach.exists_of_moves (Sample.swapPrepaid Sample.counterOfPrepaid)
    Sample.usedTwice (by decide +kernel)
  obtain ⟨hcounter, hprepays⟩ := Sample.of_usedTwice hp
  exact h .sample s hs _ _ hprepays hcounter

end OpenSsp
