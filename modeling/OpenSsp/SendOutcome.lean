/-
OpenSsp/SendOutcome.lean

What the final statuses of a send say about the user's money.

`SUCCEEDED` and `FAILED` are backed by the operators and the node (`reach_sends`).  A refund
is only ever begun for a send that is bound to a payment which the node has reported failed,
and the node does not report it succeeded as well (`refunded_failed`).

Main result: `send_outcomes`.
-/
import OpenSsp.InternalSend

namespace OpenSsp

open Interleave

variable {D : Deployment} {ok : Config (machine D) → Move (machine D) → Prop}

/-- The program has begun to refund the prepayment of the send. -/
def RefundBegun (s : Config (machine D)) (a : LightningSend) : Prop :=
  ∃ t owner amount, (t, markEvent (.refund owner a.outboundTransferId amount)) ∈ s.trace

/-- What the final statuses of a send stand for. -/
structure SendSettled (D : Deployment) (s : Config (machine D)) (a : LightningSend) : Prop where
  claimed : a.status = .succeeded → a.kind = .bolt11 →
    s.world.spark.Settled a.outboundTransferId a.expectedId
  proved : a.status = .succeeded → a.kind = .bolt12 → ∃ hash preimage,
    s.world.db.proofOf a.requestId = some (hash, preimage) ∧ IsPreimage hash preimage
  refunded : a.status = .failed → a.kind = .bolt12 →
    s.world.spark.Refunded D a.owner a.outboundTransferId a.amountSats
  kept : a.status = .succeeded → ¬ RefundBegun s a

section run

variable {s : Config (machine D)}

/-- A refund is begun for a send whose payment has failed, with what its row says. -/
theorem refund_row (hs : Reach ok s) {t : Nat} {owner outbound : String} {amount : Nat}
    (hmark : (t, markEvent (.refund owner outbound amount)) ∈ s.trace) :
    ∃ r ∈ s.world.db.sends.rows, r.intent.kind = .bolt12 ∧ r.intent.owner = owner ∧
      r.intent.outboundTransferId = outbound ∧ r.intent.amountSats = amount ∧
      ∃ p ∈ s.world.ldk.seen, r.intent.paymentId = some p.paymentId ∧ p.status = .failed := by
  obtain ⟨older, s₀, s₁, hm, hg⟩ := reach_happened hs hmark
  obtain ⟨id, send, hfailed, hread, hkind, howner, houtbound, hamount⟩ :
      MarkGround D older (.refund owner outbound amount) := moment_justified hm
  obtain ⟨ch, k, hth, -, hp, -⟩ := hm.made
  obtain ⟨p, hp₀, hpid, hst⟩ := hfailed.seen hm.reach hth
  have hlen : id.length = 64 := hpid ▸ s₀.world.ldk.ids p hp₀
  obtain ⟨r₀, hr₀, hc₀, hbound⟩ := read_row hm.reach hth hread hlen
  -- the send that was read is still there
  have hg₀ : s₀.world.Grows s.world := World.Grows.trans _ _ _ (moment_grows hm) hg
  obtain ⟨r, hr, hc'⟩ := hg₀.db.sends r₀ hr₀
  have hc := hc₀.trans hc'
  refine ⟨r, hr, hc.same.kind.trans hkind, hc.same.owner.trans howner,
    hc.same.outboundTransferId.trans houtbound, hc.same.amountSats.trans hamount, p, hg₀.ldk p hp₀,
    ?_, hst⟩
  rw [hpid]
  exact hc.paymentId id hbound

theorem refunded_failed (hs : Reach ok s) {r : SendRow} (hr : r ∈ s.world.db.sends.rows)
    (h : RefundBegun s r.intent) : r.intent.kind = .bolt12 ∧
      ∃ p ∈ s.world.ldk.seen, r.intent.paymentId = some p.paymentId ∧ p.status = .failed := by
  obtain ⟨t, owner, amount, hmark⟩ := h
  obtain ⟨r', hr', hkind, -, houtbound, -, hfailed⟩ := refund_row hs hmark
  obtain rfl := (reach_unique hs).outbound r' hr' r hr houtbound
  exact ⟨hkind, hfailed⟩

end run

/-- **Outcomes of sends.** -/
theorem send_outcomes {s : Config (machine D)} (hs : Reach anyMove s) :
    ∀ r ∈ s.world.db.sends.rows, SendSettled D s r.intent := by
  intro r hr
  have hok := reach_sends hs r hr
  constructor
  · intro hst hk
    have hpaid := hok.succeeded hst
    unfold LightningSend.Paid at hpaid
    rw [hk] at hpaid
    exact hpaid
  · intro hst hk
    have hpaid := hok.succeeded hst
    unfold LightningSend.Paid at hpaid
    rw [hk] at hpaid
    obtain ⟨⟨hash, preimage⟩, hproof⟩ := Option.isSome_iff_exists.mp hpaid.1
    exact ⟨hash, preimage, hproof, reach_proofs hs hproof⟩
  · exact hok.failed
  · intro hst hbegun
    obtain ⟨hk, p, hp, hid, hfailed⟩ := refunded_failed hs hr hbegun
    have hpaid := hok.succeeded hst
    unfold LightningSend.Paid at hpaid
    rw [hk] at hpaid
    obtain ⟨-, q, hq, hqid, hsucceeded⟩ := hpaid
    have hpq : q.paymentId = p.paymentId := Option.some.inj (hqid.symm.trans hid)
    exact (s.world.ldk.agree q hq p hp hpq).final.1 ⟨hsucceeded, hfailed⟩

namespace Sample

/-- The SSP takes the transfer that funds the payment of its own invoice. -/
def claimLocal : Choice :=
  .transfer (localFunding.transfer.map fun t => { t with status := .senderKeyTweaked })

def settleLocal : List (Move (machine .sample)) :=
  sendLocal ++ calls 1 ([.done, .done] ++ verifyLocal ++ [.done, .done, .done, .done, .htlcs [],
    .done, .done, .swap (Bytes32.parse preimage) payout, .done, .done, .done] ++
    [.htlcs [localFunding], claimLocal, .done])

def succeeded (s : Config (machine .sample)) : Bool :=
  s.world.db.sends.rows.any fun r => r.intent.status == .succeeded

def settledLocal : Reach.Run anyMove succeeded := .ofMoves settleLocal (by decide +kernel)

end Sample

/-- A send within the SSP succeeds once its funding has been claimed. -/
theorem send_outcomes_local : ∃ (s : Config (machine .sample)) (r : SendRow),
    Reach anyMove s ∧ r ∈ s.world.db.sends.rows ∧ r.intent.status = .succeeded ∧
      SendSettled .sample s r.intent := by
  obtain ⟨s, hs, hp⟩ := Sample.settledLocal
  obtain ⟨r, hr, hst⟩ := List.any_eq_true.mp hp
  rw [beq_iff_eq] at hst
  exact ⟨s, r, hs, hr, hst, send_outcomes hs r hr⟩

end OpenSsp
