/-
OpenSsp/TransferSpelling.lean

One transfer, one spelling.

Clients name their Spark transfers by texts, and several texts name one transfer: with upper
case digits, without hyphens, in braces.  The program looks transfers up by the id that the text
stands for, but it tells funding transfers of sends apart by their texts, and it hashes the
texts into the ids of refunds and of counter transfers.  So a transfer is used once as long as a
run sticks to one text for it, and otherwise not.

Main results: `transfers_fund_once` for sends, `swap_counters_agree` for swaps, and the runs
`transfer_funds_two_sends` and `swap_has_two_counters` of a transfer with two names.
-/
import OpenSsp.SendOutcome
import OpenSsp.OfferSubmission

namespace OpenSsp

open Interleave

variable {D : Deployment} {spell : Uuid → String} {s : Config (machine D)}

/-- The text names its transfer the way `spell` does. -/
def Spelled (spell : Uuid → String) (text : String) : Prop :=
  ∀ u, Uuid.parse text = some u → text = spell u

theorem Spelled.eq {a b : String} {u : Uuid} (ha : Spelled spell a) (hb : Spelled spell b)
    (hau : Uuid.parse a = some u) (hbu : Uuid.parse b = some u) : a = b := by
  rw [ha u hau, hb u hbu]

theorem spelled_print (u : Uuid) : Spelled Uuid.print u.print := by
  intro v hv
  rw [Uuid.parse_print] at hv
  rw [Option.some.inj hv]

/-! ### Sends -/

/-- Every prepaid send that is stored names its transfer the way `spell` does. -/
def spelledSends (spell : Uuid → String) (s : Config (machine D)) (m : Move (machine D)) : Prop :=
  ∀ t ch send key network, m = .run t ch →
    s.next t = some (.db (.prepareLightningSend send key network)) → send.kind = .bolt12 →
    Spelled spell send.outboundTransferId

/-- The program refunds the prepayment `u` with the transfer `id`. -/
def RefundRequested (s : Config (machine D)) (u id : Uuid) (amount : Nat) : Prop :=
  ∃ t owner outbound receiver reply,
    (t, ⟨.spark (.transfer amount receiver id), reply⟩) ∈ s.trace ∧
    (t, markEvent (.refund owner outbound amount)) ∈ s.trace ∧
    Uuid.parse outbound = some u ∧ id = refundTransferId outbound

theorem reach_spelled (hs : Reach (spelledSends spell) s) :
    ∀ r ∈ s.world.db.sends.rows, r.intent.kind = .bolt12 →
      Spelled spell r.intent.outboundTransferId := by
  refine reach_tables_allowed (J := fun w => ∀ r ∈ w.db.sends.rows, r.intent.kind = .bolt12 →
    Spelled spell r.intent.outboundTransferId) ?_ ?_ ?_ hs
  · intro r hr
    simp [World.init, Db.empty, Table.empty] at hr
  · intro w w' hdb _ ih r hr
    exact ih r (hdb ▸ hr)
  · intro s t ch q k hist a db' hr hth hok hrun _ ih x hx hk
    rcases Db.sends_step hrun with ⟨g, hrows, hstep⟩ | ⟨send, key, network, rfl, hrows, -⟩
    · obtain ⟨r, hr', rfl⟩ := List.mem_map.mp (hrows ▸ hx)
      have hsame := (hstep r hr').same
      rw [hsame.outboundTransferId]
      exact ih r hr' (hsame.kind.symm.trans hk)
    · rcases List.mem_cons.mp (hrows ▸ hx) with rfl | hx
      · -- the new row
        refine hok t ch send key network rfl ?_ hk
        simp [Config.next, hth, Prog.next]
      · exact ih x hx hk

/-- The transfer whose report vouches for a send is the one its text names. -/
theorem Operators.Funds.type {o : Operators} {a : LightningSend} {u : Uuid} (h : o.Funds D a)
    (hu : Uuid.parse a.outboundTransferId = some u) : ∃ t ∈ o.transfers, t.id = u ∧
      ((a.kind = .bolt11 ∧ t.transferType = .preimageSwap ∧ a.outboundTransferId = u.print) ∨
        (a.kind = .bolt12 ∧ t.transferType = .transfer)) := by
  cases h with
  | bolt11 kind t mem id type =>
      rw [← id, Uuid.parse_print] at hu
      obtain rfl := Option.some.inj hu
      exact ⟨t, mem, rfl, .inl ⟨kind, type, id.symm⟩⟩
  | bolt12 kind t mem id type =>
      rw [id] at hu
      exact ⟨t, mem, Option.some.inj hu, .inr ⟨kind, type⟩⟩

/-- A transfer funds one send. -/
theorem funds_one (hs : Reach (spelledSends spell) s) {r r' : SendRow} {u : Uuid}
    (hr : r ∈ s.world.db.sends.rows) (hr' : r' ∈ s.world.db.sends.rows)
    (hu : Uuid.parse r.intent.outboundTransferId = some u)
    (hu' : Uuid.parse r'.intent.outboundTransferId = some u) : r = r' := by
  apply (reach_unique hs).outbound r hr r' hr'
  obtain ⟨t, ht, hid, hcase⟩ := (reach_base hs r hr).funded.type hu
  obtain ⟨t', ht', hid', hcase'⟩ := (reach_base hs r' hr').funded.type hu'
  -- the operators report one type for the transfer
  have htype := (s.world.spark.agree t ht t' ht' (hid.trans hid'.symm)).transferType
  rcases hcase with ⟨-, h11, htext⟩ | ⟨hk, h12⟩
  · rcases hcase' with ⟨-, -, htext'⟩ | ⟨-, h12'⟩
    · rw [htext, htext']
    · rw [h11, h12'] at htype
      cases htype
  · rcases hcase' with ⟨-, h11', -⟩ | ⟨hk', -⟩
    · rw [h12, h11'] at htype
      cases htype
    · exact (reach_spelled hs r hr hk).eq (reach_spelled hs r' hr' hk') hu hu'

/-- **Funding of sends.**  When a run sticks to one text for each prepayment, a transfer funds
at most one send, and all refunds of a prepayment are one transfer. -/
theorem transfers_fund_once (hs : Reach (spelledSends spell) s) :
    (∀ r ∈ s.world.db.sends.rows, ∀ r' ∈ s.world.db.sends.rows, ∀ u,
      Uuid.parse r.intent.outboundTransferId = some u →
      Uuid.parse r'.intent.outboundTransferId = some u → r = r') ∧
    ∀ u id id' amount amount', RefundRequested s u id amount → RefundRequested s u id' amount' →
      id = id' ∧ amount = amount' := by
  constructor
  · intro r hr r' hr' u hu hu'
    exact funds_one hs hr hr' hu hu'
  · rintro u id id' amount amount' ⟨t, owner, outbound, receiver, reply, -, hm, hu, rfl⟩
      ⟨t', owner', outbound', receiver', reply', -, hm', hu', rfl⟩
    obtain ⟨r, hr, -, -, rfl, rfl, -⟩ := refund_row hs hm
    obtain ⟨r', hr', -, -, rfl, rfl, -⟩ := refund_row hs hm'
    obtain rfl := funds_one hs hr hr' hu hu'
    exact ⟨rfl, rfl⟩

namespace Sample

/-- A name of transfer 7 without hyphens. -/
def bareName : String := "00000000000000000000000000000007"

/-- Program `t` stores a send of `alice`, prepaid with the transfer `name`, as request `n`. -/
def storeOffer (t : Nat) (n : UInt8) (name : String) : List (Move (machine .sample)) :=
  .spawn (.lightningSend "alice" ⟨"lno1x", some 1, name, ""⟩) ::
  calls t [.done, .done, .done, .number 0, .done, .transfer (some prepaid), .uuid (uuid n), .done]

/-- Is there a send that names transfer 7 by `name`? -/
def fundedAs (name : String) (s : Config (machine .sample)) : Bool :=
  s.world.db.sends.rows.any fun r => r.intent.outboundTransferId == name

theorem of_fundedAs {name : String} {s : Config (machine .sample)} (h : fundedAs name s = true) :
    ∃ r ∈ s.world.db.sends.rows, r.intent.outboundTransferId = name := by
  obtain ⟨r, hr, hname⟩ := List.any_eq_true.mp h
  exact ⟨r, hr, eq_of_beq hname⟩

def printsSends (s : Config (machine .sample)) : Move (machine .sample) → Bool
  | .run t _ => match s.next t with
      | some (.db (.prepareLightningSend send ..)) => send.outboundTransferId == (uuid 7).print
      | _ => true
  | _ => true

theorem of_printsSends {s : Config (machine .sample)} {m : Move (machine .sample)}
    (h : printsSends s m = true) : spelledSends Uuid.print s m := by
  rintro t ch send key network rfl hnext -
  simp only [printsSends, hnext, beq_iff_eq] at h
  rw [h]
  exact spelled_print (uuid 7)

end Sample

theorem transfers_fund_once_prepaid : ∃ (s : Config (machine .sample)) (r : SendRow),
    Reach (spelledSends Uuid.print) s ∧ r ∈ s.world.db.sends.rows ∧
      Uuid.parse r.intent.outboundTransferId = some (Sample.uuid 7) ∧
      ∀ r' ∈ s.world.db.sends.rows,
        Uuid.parse r'.intent.outboundTransferId = some (Sample.uuid 7) → r = r' := by
  have hrun : (Reach.runMoves Sample.printsSends (Sample.storeOffer 0 1 (Sample.uuid 7).print)
      (Config.start _)).any (Sample.fundedAs (Sample.uuid 7).print) = true := by
    decide +kernel
  obtain ⟨s, hs, hp⟩ := Reach.exists_of_runMoves (fun _ _ => Sample.of_printsSends) hrun
  obtain ⟨r, hr, hname⟩ := Sample.of_fundedAs hp
  have hu : Uuid.parse r.intent.outboundTransferId = some (Sample.uuid 7) := by
    rw [hname, Uuid.parse_print]
  refine ⟨s, r, hs, hr, hu, fun r' hr' hu' => ?_⟩
  exact (transfers_fund_once hs).1 r hr r' hr' (Sample.uuid 7) hu hu'

/-- Under its other name the same transfer funds another send. -/
theorem transfer_funds_two_sends :
    ¬ ∀ (D : Deployment) (s : Config (machine D)), Reach anyMove s →
      ∀ r ∈ s.world.db.sends.rows, ∀ r' ∈ s.world.db.sends.rows, ∀ u,
        Uuid.parse r.intent.outboundTransferId = some u →
        Uuid.parse r'.intent.outboundTransferId = some u → r = r' := by
  intro h
  obtain ⟨s, hs, hp⟩ := Reach.exists_of_moves
    (Sample.storeOffer 0 1 (Sample.uuid 7).print ++ .crash :: Sample.storeOffer 1 2 Sample.bareName)
    (fun s => Sample.fundedAs (Sample.uuid 7).print s && Sample.fundedAs Sample.bareName s)
    (by decide +kernel)
  rw [Bool.and_eq_true] at hp
  obtain ⟨r, hr, hname⟩ := Sample.of_fundedAs hp.1
  obtain ⟨r', hr', hname'⟩ := Sample.of_fundedAs hp.2
  have hbare : Uuid.parse Sample.bareName = some (Sample.uuid 7) := by decide
  have heq := h .sample s hs r hr r' hr' (Sample.uuid 7) (by rw [hname, Uuid.parse_print])
    (by rw [hname', hbare])
  rw [heq, hname'] at hname
  exact absurd hname (by decide)

/-! ### Swaps -/

/-- Every call of `fill_swap` names its primary the way `spell` does. -/
def spelledSwaps (spell : Uuid → String) (s : Config (machine D)) (m : Move (machine D)) : Prop :=
  ∀ t ch text, m = .run t ch → s.next t = some (.mark (.fillSwap text)) → Spelled spell text

/-- `fill_swap` is called for the primary `u` under this text. -/
def SwapFilled (s : Config (machine D)) (u : Uuid) (text : String) : Prop :=
  Uuid.parse text = some u ∧ ∃ t, (t, markEvent (.fillSwap text)) ∈ s.trace

/-- The operators are asked for the counter transfer `id` of the primary `u`. -/
def CounterRequested (s : Config (machine D)) (u id : Uuid) : Prop :=
  ∃ t amounts receiver adaptor reply,
    (t, ⟨.spark (.transferSwapCounter amounts receiver u adaptor id), reply⟩) ∈ s.trace

theorem SwapFilled.spelled (hs : Reach (spelledSwaps spell) s) {u : Uuid} {text : String}
    (h : SwapFilled s u text) : Spelled spell text := by
  obtain ⟨-, t, hmark⟩ := h
  obtain ⟨older, s₀, s₁, hm, -⟩ := reach_happened hs hmark
  obtain ⟨ch, k, hth, hok, -, -⟩ := hm.made
  apply hok t ch text rfl
  simp [Config.next, hth, Prog.next]

/-- The id of a counter transfer is hashed from the text of a call of `fill_swap`. -/
theorem CounterRequested.filled {ok : Config (machine D) → Move (machine D) → Prop}
    (hs : Reach ok s) {u id : Uuid} (h : CounterRequested s u id) :
    ∃ text, SwapFilled s u text ∧ id = counterTransferId text := by
  obtain ⟨t, amounts, receiver, adaptor, reply, hmem⟩ := h
  obtain ⟨older, s₀, s₁, hm, hknew⟩ := hs.knew t _ hmem
  obtain ⟨text, x, hg⟩ : ∃ text x, CounterGround D older u id receiver text x :=
    moment_justified hm
  exact ⟨text, ⟨hg.primary_eq, t, hknew _ hg.mark⟩, hg.id_eq⟩

/-- **Counter transfers.**  When a run sticks to one text for each primary, `fill_swap` derives
one counter transfer for it, and the operators are asked for that one only. -/
theorem swap_counters_agree (hs : Reach (spelledSwaps spell) s) :
    (∀ u a b, SwapFilled s u a → SwapFilled s u b → counterTransferId a = counterTransferId b) ∧
    ∀ u id id', CounterRequested s u id → CounterRequested s u id' → id = id' := by
  have hderived : ∀ u a b, SwapFilled s u a → SwapFilled s u b →
      counterTransferId a = counterTransferId b := by
    intro u a b ha hb
    rw [(ha.spelled hs).eq (hb.spelled hs) ha.1 hb.1]
  refine ⟨hderived, fun u id id' h h' => ?_⟩
  obtain ⟨a, ha, rfl⟩ := h.filled hs
  obtain ⟨b, hb, rfl⟩ := h'.filled hs
  exact hderived u a b ha hb

namespace Sample

/-- The transfer that `alice` swaps. -/
def swapPrimary : Transfer :=
  { prepaid with
    transferType := .other "PRIMARY_SWAP_V3"
    status := .senderKeyTweakPending }

/-- Program `t` answers the swap that `alice` requests under `name`, up to the counter transfer;
then the process stops. -/
def swapAs (t : Nat) (name : String) : List (Move (machine .sample)) :=
  let counter := { prepaid with id := counterTransferId name }
  .spawn (.swap "alice" ⟨1, name, String.ofList (List.replicate 66 '0'), [1]⟩) ::
  calls t [.done, .done, .number 0, .transfer (some swapPrimary), .done,
    .transfer (some swapPrimary), .transfer none, .done, .done, .transfer (some counter)] ++ [.crash]

/-- Have the operators been asked for the counter transfer that this name of transfer 7 gives? -/
def counteredAs (name : String) (s : Config (machine .sample)) : Bool :=
  s.trace.any fun x => match x.2.call with
    | .spark (.transferSwapCounter _ _ u _ id) => u == uuid 7 && id == counterTransferId name
    | _ => false

theorem of_counteredAs {name : String} {s : Config (machine .sample)}
    (h : counteredAs name s = true) :
    CounterRequested s (uuid 7) (counterTransferId name) := by
  obtain ⟨⟨t, ⟨c, r⟩⟩, hmem, hc⟩ := List.any_eq_true.mp h
  dsimp only at hc
  split at hc
  · next amounts receiver u adaptor id =>
      rw [Bool.and_eq_true, beq_iff_eq, beq_iff_eq] at hc
      obtain ⟨rfl, rfl⟩ := hc
      exact ⟨t, amounts, receiver, adaptor, r, hmem⟩
  · cases hc

def printsSwaps (s : Config (machine .sample)) : Move (machine .sample) → Bool
  | .run t _ => match s.next t with
      | some (.mark (.fillSwap text)) => text == (uuid 7).print
      | _ => true
  | _ => true

theorem of_printsSwaps {s : Config (machine .sample)} {m : Move (machine .sample)}
    (h : printsSwaps s m = true) : spelledSwaps Uuid.print s m := by
  rintro t ch text rfl hnext
  simp only [printsSwaps, hnext, beq_iff_eq] at h
  rw [h]
  exact spelled_print (uuid 7)

end Sample

/-- A swap that is requested again after a lost answer gets the same counter transfer. -/
theorem swap_counters_agree_retry : ∃ s : Config (machine .sample),
    Reach (spelledSwaps Uuid.print) s ∧
      CounterRequested s (Sample.uuid 7) (counterTransferId (Sample.uuid 7).print) ∧
      ∀ id, CounterRequested s (Sample.uuid 7) id →
        id = counterTransferId (Sample.uuid 7).print := by
  have hrun : (Reach.runMoves Sample.printsSwaps
      (Sample.swapAs 0 (Sample.uuid 7).print ++ Sample.swapAs 1 (Sample.uuid 7).print)
      (Config.start _)).any (Sample.counteredAs (Sample.uuid 7).print) = true := by
    decide +kernel
  obtain ⟨s, hs, hp⟩ := Reach.exists_of_runMoves (fun _ _ => Sample.of_printsSwaps) hrun
  have hcounter := Sample.of_counteredAs hp
  refine ⟨s, hs, hcounter, fun id hid => ?_⟩
  exact (swap_counters_agree hs).2 (Sample.uuid 7) id _ hid hcounter

/-- Under its other name the primary gets another counter transfer. -/
theorem swap_has_two_counters :
    ¬ ∀ (D : Deployment) (s : Config (machine D)), Reach anyMove s →
      ∀ u id id', CounterRequested s u id → CounterRequested s u id' → id = id' := by
  intro h
  obtain ⟨s, hs, hp⟩ := Reach.exists_of_moves
    (Sample.swapAs 0 (Sample.uuid 7).print ++ Sample.swapAs 1 Sample.bareName)
    (fun s => Sample.counteredAs (Sample.uuid 7).print s && Sample.counteredAs Sample.bareName s)
    (by decide +kernel)
  rw [Bool.and_eq_true] at hp
  have heq := h .sample s hs (Sample.uuid 7) _ _ (Sample.of_counteredAs hp.1)
    (Sample.of_counteredAs hp.2)
  exact absurd heq (by decide +kernel)

end OpenSsp
