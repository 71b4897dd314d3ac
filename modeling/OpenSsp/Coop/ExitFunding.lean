/-
OpenSsp/Coop/ExitFunding.lean

What a transfer that pays for a withdrawal looks like once it is verified
(`validate_coop_exit_transfer`).

The check walks the recorded leaves and collects the connector output of each; that these
are all outputs but the spare one, and that every leaf of the transfer has one, follows by
counting: distinct outputs among the first `n`, for `n` leaves.

Only the second input of a refund is looked at.  The first one is free, and can spend the spare
output (`spare_output_spent`).

Main results: `validateCoopExitTransfer_iff`, what exactly is accepted, and
`coop_exit_transfers_fund`, when the spare output is left alone.
-/
import OpenSsp.Coop.Conservation
import OpenSsp.Coop.Payout
import Mathlib.Data.Fintype.EquivFin
import Mathlib.Data.List.Perm.Subperm

namespace OpenSsp.Coop

open Interleave Bitcoin

variable {L : Library} {C : Service L} {transfer : SparkTransfer} {record : ExitRecord L}

/-! ### One leaf -/

/-- Every refund of the leaf can only be confirmed together with output `vout` of the
transaction `txid`: it is the second of its two inputs.  The refund from the CPFP is one of
them. -/
structure SparkTransferLeaf.Binds (leaf : SparkTransferLeaf) (txid : Txid) (vout : Nat) : Prop where
  direct : leaf.intermediateDirectFromCpfpRefundTx ≠ none
  refunds : ∀ refund ∈ leaf.refunds, ∃ first second, refund.input = [first, second] ∧
    second.previousOutput.txid = txid ∧ second.previousOutput.vout.toNat = vout

/-- A leaf is bound to one output. -/
theorem SparkTransferLeaf.Binds.unique {leaf : SparkTransferLeaf} {txid txid' : Txid}
    {vout vout' : Nat} (h : leaf.Binds txid vout) (h' : leaf.Binds txid' vout') :
    vout = vout' := by
  have hmem : leaf.intermediateRefundTx ∈ leaf.refunds := List.mem_cons_self
  obtain ⟨first, second, hinput, -, hvout⟩ := h.refunds _ hmem
  obtain ⟨first', second', hinput', -, hvout'⟩ := h'.refunds _ hmem
  rw [hinput] at hinput'
  obtain ⟨-, hsecond, -⟩ : first = first' ∧ second = second' ∧ ([] : List TxIn) = [] := by
    simpa using hinput'
  rw [← hvout, ← hvout', hsecond]

/-- What the check of the recorded leaf `expected` has found. -/
structure Found (transfer : SparkTransfer) (connectorId : Txid) (leafCount : Nat)
    (expected : ExitLeaf) (leaf : SparkTransferLeaf) (output : OutPoint) : Prop where
  mem : leaf ∈ transfer.leaves
  id : leaf.id = expected.id
  value : leaf.value = expected.value
  txid : output.txid = connectorId
  vout : output.vout.toNat < leafCount
  binds : leaf.Binds connectorId output.vout.toNat

theorem validateExitLeaf_ok {connectorId : Txid} {leafCount : Nat} {used used' : List OutPoint}
    {expected : ExitLeaf}
    (h : validateExitLeaf transfer connectorId leafCount used expected = .ok used') :
    ∃ leaf output, Found transfer connectorId leafCount expected leaf output ∧ output ∉ used ∧
      used' = output :: used := by
  unfold validateExitLeaf at h
  simp only [bind_eq_ok, guard_eq_ok, okOr_eq_ok] at h
  obtain ⟨leaf, hleaf, hvalue, input, hinput, hoverlap, hrefunds, hdirect, hused⟩ := h
  obtain ⟨hmem, hid⟩ := List.mem_filter.mp (List.mem_of_head? hleaf)
  push Not at hvalue hoverlap
  obtain ⟨htxid, hvout, hfresh⟩ := hoverlap
  refine ⟨leaf, input.previousOutput, ⟨hmem, by simpa using hid, hvalue.2, htxid, hvout, ?_⟩,
    hfresh, (Except.ok.inj hused).symm⟩
  refine ⟨hdirect, fun refund hrefund => ?_⟩
  -- no refund of the leaf fails the test of its inputs
  have hbound : ¬ (refund.input.length != 2 ||
      (refund.input[1]?).map (·.previousOutput) != some input.previousOutput) = true := fun hbad =>
    hrefunds (List.any_eq_true.mpr ⟨refund, hrefund, hbad⟩)
  simp only [Bool.or_eq_true, bne_iff_ne, ne_eq, not_or, not_not] at hbound
  obtain ⟨hlen, hsecond⟩ := hbound
  obtain ⟨first, second, hboth⟩ := List.length_eq_two.mp hlen
  have hout : second.previousOutput = input.previousOutput := by
    simpa [hboth] using hsecond
  exact ⟨first, second, hboth, by rw [hout, htxid], by rw [hout]⟩

/-! ### All leaves -/

/-- The walk over the recorded leaves has found a leaf and an output for each, the outputs all
different. -/
theorem validateExitLeaves_ok {connectorId : Txid} {leafCount : Nat} {expected : List ExitLeaf}
    {used used' : List OutPoint}
    (h : expected.foldlM (validateExitLeaf transfer connectorId leafCount) used = .ok used') :
    ∃ found : List (SparkTransferLeaf × OutPoint),
      List.Forall₂ (fun e x => Found transfer connectorId leafCount e x.1 x.2) expected found ∧
      (found.map (·.2)).Nodup ∧ ∀ output ∈ found.map (·.2), output ∉ used := by
  induction expected generalizing used with
  | nil => exact ⟨[], .nil, List.nodup_nil, by simp⟩
  | cons e es ih =>
      rw [List.foldlM_cons] at h
      obtain ⟨used₁, hhead, htail⟩ := bind_ok h
      obtain ⟨leaf, output, hfound, hfresh, rfl⟩ := validateExitLeaf_ok hhead
      obtain ⟨found, hall, hnodup, hfree⟩ := ih htail
      refine ⟨(leaf, output) :: found, .cons hfound hall, ?_, ?_⟩
      · apply List.nodup_cons.mpr
        exact ⟨fun hmem => hfree output hmem List.mem_cons_self, hnodup⟩
      · intro o ho
        rcases List.mem_cons.mp ho with rfl | ho
        · exact hfresh
        · exact fun hused => hfree o ho (List.mem_cons_of_mem _ hused)

/-- Different members of a list that is no longer than theirs are all its members. -/
theorem perm_of_mem {α : Type} {l l' : List α} (hnodup : l.Nodup) (hmem : ∀ a ∈ l, a ∈ l')
    (hlen : l'.length ≤ l.length) : l.Perm l' :=
  (List.subperm_of_subset hnodup hmem).perm_of_length_le hlen

theorem foldlM_checkedAdd_ok {α : Type} {f : α → Nat} {l : List α} {a b : Nat}
    (h : l.foldlM (fun sum x => checkedAdd sum (f x)) a = some b) :
    b = a + (l.map f).sum ∧ (l ≠ [] → b < 2 ^ 64) := by
  induction l generalizing a with
  | nil =>
      obtain rfl := Option.some.inj h
      exact ⟨rfl, fun hne => absurd rfl hne⟩
  | cons x xs ih =>
      rw [List.foldlM_cons] at h
      obtain ⟨c, hc, h⟩ := Option.bind_eq_some_iff.mp h
      obtain ⟨rfl, hlt⟩ := checkedAdd_eq_some hc
      obtain ⟨rfl, hbound⟩ := ih h
      refine ⟨by simp [Nat.add_assoc], fun _ => ?_⟩
      rcases xs with - | ⟨y, ys⟩
      · simpa using hlt
      · exact hbound (List.cons_ne_nil y ys)

/-- What an accepted transfer is: each leaf is bound to one of the first `n` outputs of the
connector, and each of these to one leaf. -/
structure BindsExit (C : Service L) (transfer : SparkTransfer) (record : ExitRecord L)
    (connector : Bitcoin.Transaction) : Prop where
  decodes : L.deserializeHex record.rawConnector = .ok connector
  id : transfer.id.print = record.transferId
  sender : C.parsePublicKey record.owner = .ok transfer.senderIdentityPublicKey
  receiver : transfer.receiverIdentityPublicKey = C.identity
  type : transfer.transferType = .cooperativeExit
  locked : transfer.status = .senderKeyTweakPending
  recorded : (transfer.leaves.map fun l => (l.id, l.value)).Perm
    (record.leaves.map fun l => (l.id, l.value))
  total : (transfer.leaves.map (·.value)).sum = transfer.totalValue
  inRange : transfer.totalValue < 2 ^ 64
  outputs : ∃ e : Fin transfer.leaves.length ≃ Fin record.leaves.length,
    ∀ k : Fin transfer.leaves.length,
      (transfer.leaves.get k).Binds (L.computeTxid connector) (e k)

/-- The output of the connector that is no leaf's: the one after the first `n`.
`stored_connector` says that it is the last. -/
def Spare (record : ExitRecord L) (connector : Bitcoin.Transaction) (o : OutPoint) : Prop :=
  o.txid = L.computeTxid connector ∧ o.vout.toNat = record.leaves.length

instance {connector : Bitcoin.Transaction} {o : OutPoint} : Decidable (Spare record connector o) :=
  inferInstanceAs (Decidable (_ ∧ _))

/-- A transfer as it should be.  No refund uses the spare output, by whichever input. -/
structure FundsExit (C : Service L) (transfer : SparkTransfer) (record : ExitRecord L)
    (connector : Bitcoin.Transaction) : Prop extends BindsExit C transfer record connector where
  spare : ∀ leaf ∈ transfer.leaves, ∀ refund ∈ leaf.refunds, ∀ input ∈ refund.input,
    ¬ Spare record connector input.previousOutput

/-- The first input of a refund, which nobody has checked, spends the spare output. -/
def SpendsSpare (transfer : SparkTransfer) (record : ExitRecord L)
    (connector : Bitcoin.Transaction) : Prop :=
  ∃ leaf ∈ transfer.leaves, ∃ refund ∈ leaf.refunds, ∃ input ∈ refund.input.head?,
    Spare record connector input.previousOutput

instance {connector : Bitcoin.Transaction} : Decidable (SpendsSpare transfer record connector) :=
  inferInstanceAs (Decidable (∃ leaf ∈ transfer.leaves, ∃ refund ∈ leaf.refunds,
    ∃ input ∈ refund.input.head?, Spare record connector input.previousOutput))

/-- The second inputs spend the outputs of the leaves, so only a first one can spend the spare. -/
theorem BindsExit.funds_iff {connector : Bitcoin.Transaction}
    (hb : BindsExit C transfer record connector) :
    FundsExit C transfer record connector ↔ ¬ SpendsSpare transfer record connector := by
  constructor
  · rintro hf ⟨leaf, hleaf, refund, hrefund, input, hhead, hspare⟩
    exact hf.spare leaf hleaf refund hrefund input (List.mem_of_head? hhead) hspare
  · refine fun hno => ⟨hb, fun leaf hleaf refund hrefund input hinput hspare => ?_⟩
    obtain ⟨e, he⟩ := hb.outputs
    obtain ⟨k, rfl⟩ := List.get_of_mem hleaf
    obtain ⟨first, second, hboth, -, hvout⟩ := (he k).refunds refund hrefund
    rw [hboth] at hinput
    rcases List.mem_cons.mp hinput with rfl | hsecond
    · refine hno ⟨_, List.get_mem _ _, refund, hrefund, input, ?_, hspare⟩
      rw [hboth]
      rfl
    · obtain rfl := List.mem_singleton.mp hsecond
      have hlt := (e k).isLt
      rw [← hvout, hspare.2] at hlt
      exact lt_irrefl _ hlt

section found

variable {connectorId : Txid} {leafCount : Nat} {expected : List ExitLeaf}
  {found : List (SparkTransferLeaf × OutPoint)}
  (hall : List.Forall₂ (fun e x => Found transfer connectorId leafCount e x.1 x.2) expected found)
include hall

theorem found_recorded :
    found.map (fun x => (x.1.id, x.1.value)) = expected.map fun l => (l.id, l.value) := by
  induction hall with
  | nil => rfl
  | cons hfound _ ih => rw [List.map_cons, List.map_cons, ih, hfound.id, hfound.value]

theorem exists_found {x : SparkTransferLeaf × OutPoint} (hx : x ∈ found) :
    ∃ e, Found transfer connectorId leafCount e x.1 x.2 := by
  induction hall with
  | nil => exact absurd hx List.not_mem_nil
  | cons hfound _ ih =>
      rcases List.mem_cons.mp hx with rfl | hx
      · exact ⟨_, hfound⟩
      · exact ih hx

/-- Leaves with different ids are different. -/
theorem found_nodup (hids : (expected.map (·.id)).Nodup) : (found.map (·.1)).Nodup := by
  have hrecorded := congrArg (List.map Prod.fst) (found_recorded hall)
  rw [List.map_map, List.map_map] at hrecorded
  have hids' : ((found.map (·.1)).map (·.id)).Nodup := by
    rw [List.map_map]
    exact hrecorded ▸ hids
  exact hids'.of_map

/-- The leaves that were found are the leaves of the transfer. -/
theorem found_leaves (hids : (expected.map (·.id)).Nodup)
    (hlen : transfer.leaves.length = expected.length) :
    (found.map (·.1)).Perm transfer.leaves := by
  apply perm_of_mem
  · exact found_nodup hall hids
  · intro leaf hleaf
    obtain ⟨x, hx, rfl⟩ := List.mem_map.mp hleaf
    obtain ⟨e, hfound⟩ := exists_found hall hx
    exact hfound.mem
  · rw [List.length_map, hlen, hall.length_eq]

/-- Leaves bound to one output are one leaf. -/
theorem found_injective (houts : (found.map (·.2)).Nodup) {x y : SparkTransferLeaf × OutPoint}
    (hx : x ∈ found) (hy : y ∈ found) (hvout : x.2.vout.toNat = y.2.vout.toNat) : x = y := by
  obtain ⟨e, hfx⟩ := exists_found hall hx
  obtain ⟨e', hfy⟩ := exists_found hall hy
  apply List.inj_on_of_nodup_map houts hx hy
  have htxid : x.2.txid = y.2.txid := hfx.txid.trans hfy.txid.symm
  have hvout : x.2.vout = y.2.vout := UInt32.toNat_inj.mp hvout
  exact (OutPoint.mk.injEq ..).mpr ⟨htxid, hvout⟩

/-- Each leaf of the transfer has an output of its own, and each output but the spare one a
leaf: as many different outputs as leaves, all below their number. -/
theorem found_outputs (hids : (expected.map (·.id)).Nodup) (houts : (found.map (·.2)).Nodup)
    (hlen : transfer.leaves.length = leafCount) (hcount : expected.length = leafCount) :
    ∃ e : Fin transfer.leaves.length ≃ Fin leafCount,
      ∀ k : Fin transfer.leaves.length, (transfer.leaves.get k).Binds connectorId (e k) := by
  have hperm := found_leaves hall hids (hlen.trans hcount.symm)
  have hof : ∀ k : Fin transfer.leaves.length, ∃ x ∈ found, x.1 = transfer.leaves.get k := by
    intro k
    have hk : transfer.leaves.get k ∈ found.map (·.1) := hperm.mem_iff.mpr (List.get_mem _ _)
    obtain ⟨x, hx, hxk⟩ := List.mem_map.mp hk
    exact ⟨x, hx, hxk⟩
  choose x hx hxk using hof
  have hbound : ∀ k, (x k).2.vout.toNat < leafCount := by
    intro k
    obtain ⟨e, hfound⟩ := exists_found hall (hx k)
    exact hfound.vout
  have hinj : Function.Injective fun k => (⟨(x k).2.vout.toNat, hbound k⟩ : Fin leafCount) := by
    intro j k hjk
    have hsame := found_injective hall houts (hx j) (hx k) (Fin.mk.inj hjk)
    have hleaf : transfer.leaves.get j = transfer.leaves.get k := by
      rw [← hxk j, ← hxk k, hsame]
    have hnodup := hperm.nodup_iff.mp (found_nodup hall hids)
    exact hnodup.injective_get hleaf
  have hbij := (Fintype.bijective_iff_injective_and_card _).mpr ⟨hinj, by simp [hlen]⟩
  refine ⟨Equiv.ofBijective _ hbij, fun k => ?_⟩
  obtain ⟨e, hfound⟩ := exists_found hall (hx k)
  rw [← hxk k]
  exact hfound.binds

end found

/-- An accepted transfer binds its leaves to the exit. -/
theorem validateCoopExitTransfer_binds (hids : (record.leaves.map (·.id)).Nodup)
    (h : validateCoopExitTransfer C transfer record = .ok ()) :
    ∃ connector, BindsExit C transfer record connector := by
  unfold validateCoopExitTransfer at h
  simp only [bind_eq_ok, guard_eq_ok, okOr_eq_ok] at h
  obtain ⟨sender, hsender, hidentity, hlocked, value, hvalue, hcounts, connector, hdecodes,
    hleaves⟩ := h
  push Not at hidentity hlocked hcounts
  obtain ⟨hid, hsame, hreceiver, htype⟩ := hidentity
  obtain ⟨htotal, hlen⟩ := hcounts
  obtain ⟨used, hused⟩ : ∃ used, record.leaves.foldlM (validateExitLeaf transfer
      (L.computeTxid connector) record.leaves.length) [] = .ok used := by
    obtain ⟨used, hused, -⟩ := bind_ok hleaves
    exact ⟨used, hused⟩
  obtain ⟨found, hall, houts, -⟩ := validateExitLeaves_ok hused
  have hperm := found_leaves hall hids hlen
  -- found once each and equal in number, the leaves are the recorded ones
  have hrecorded : (transfer.leaves.map fun l => (l.id, l.value)).Perm
      (record.leaves.map fun l => (l.id, l.value)) := by
    rw [← found_recorded hall]
    have hmap := (hperm.map fun l => (l.id, l.value)).symm
    rw [List.map_map] at hmap
    exact hmap
  obtain ⟨hsum, hrange⟩ := foldlM_checkedAdd_ok hvalue
  obtain ⟨e, he⟩ := found_outputs hall hids houts hlen rfl
  refine ⟨connector, hdecodes, hid, hsame ▸ hsender, hreceiver, htype, hlocked, hrecorded, ?_, ?_,
    ⟨e, he⟩⟩
  · have hvalues := (hrecorded.map Prod.snd).sum_nat
    rw [List.map_map, List.map_map] at hvalues
    rw [htotal, hsum, Nat.zero_add]
    exact hvalues
  · rw [htotal]
    by_cases hne : record.leaves = []
    · rw [hsum, hne]
      decide
    · exact hrange hne

/-! ### What is accepted -/

theorem foldlM_checkedAdd_lt {α : Type} {f : α → Nat} {l : List α} {a : Nat}
    (h : a + (l.map f).sum < 2 ^ 64) :
    l.foldlM (fun sum x => checkedAdd sum (f x)) a = some (a + (l.map f).sum) := by
  induction l generalizing a with
  | nil => simp
  | cons x xs ih =>
      rw [List.map_cons, List.sum_cons, ← Nat.add_assoc] at h
      have hx : checkedAdd a (f x) = some (a + f x) := if_pos (by omega)
      rw [List.foldlM_cons, hx, List.map_cons, List.sum_cons, ← Nat.add_assoc]
      exact ih h

/-- The member of a list with this key, when keys are different. -/
theorem filter_key {α : Type} {key : α → String} {l : List α} (hkeys : (l.map key).Nodup) {a : α}
    (ha : a ∈ l) : l.filter (fun b => key b == key a) = [a] := by
  induction l with
  | nil => exact absurd ha List.not_mem_nil
  | cons b bs ih =>
      obtain ⟨hb, hbs⟩ := List.nodup_cons.mp hkeys
      rcases List.mem_cons.mp ha with rfl | ha
      · have hnone : bs.filter (fun c => key c == key a) = [] := by
          rw [List.filter_eq_nil_iff]
          intro c hc
          have hne : key c ≠ key a := fun he => hb (he ▸ List.mem_map_of_mem hc)
          simpa using hne
        rw [List.filter_cons, if_pos (beq_self_eq_true _), hnone]
      · have hne : ¬ (key b == key a) = true := by
          have hne : key b ≠ key a := fun he => hb (he ▸ List.mem_map_of_mem ha)
          simpa using hne
        rw [List.filter_cons, if_neg hne, ih hbs ha]

/-- A recorded leaf with a leaf and an output of its own passes. -/
theorem validateExitLeaf_found {connectorId : Txid} {leafCount : Nat} {used : List OutPoint}
    {expected : ExitLeaf} {leaf : SparkTransferLeaf} {output : OutPoint}
    (hids : (transfer.leaves.map (·.id)).Nodup)
    (hf : Found transfer connectorId leafCount expected leaf output) (hfresh : output ∉ used) :
    validateExitLeaf transfer connectorId leafCount used expected = .ok (output :: used) := by
  have hmatches : transfer.leaves.filter (·.id == expected.id) = [leaf] := by
    rw [← hf.id]
    exact filter_key hids hf.mem
  -- every refund spends this very output
  have hsecond : ∀ refund ∈ leaf.refunds, refund.input.length = 2 ∧
      (refund.input[1]?).map (·.previousOutput) = some output := by
    intro refund hrefund
    obtain ⟨first, second, hboth, htxid, hvout⟩ := hf.binds.refunds refund hrefund
    have hout : second.previousOutput = output := by
      rw [OutPoint.mk.injEq]
      exact ⟨htxid.trans hf.txid.symm, UInt32.toNat_inj.mp hvout⟩
    rw [hboth]
    exact ⟨rfl, congrArg some hout⟩
  obtain ⟨input, hinput, hout⟩ := Option.map_eq_some_iff.mp
    (hsecond leaf.intermediateRefundTx List.mem_cons_self).2
  have hrefunds : ¬ (leaf.refunds.any fun refund => refund.input.length != 2 ||
      (refund.input[1]?).map (·.previousOutput) != some output) = true := by
    rw [Bool.not_eq_true, List.any_eq_false]
    intro refund hrefund
    obtain ⟨hlen, hmap⟩ := hsecond refund hrefund
    rw [hlen, hmap]
    simp
  unfold validateExitLeaf
  simp only [bind_eq_ok, guard_eq_ok, okOr_eq_ok]
  refine ⟨leaf, by rw [hmatches]; rfl, ?_, input, hinput, ?_, ?_, hf.binds.direct, ?_⟩
  · rw [hmatches]
    simp [hf.value]
  · rw [hout]
    simp [hf.txid, hfresh, hf.vout]
  · rw [hout]
    exact hrefunds
  · rw [hout]
    rfl

/-- Leaves that are bound to the same one of the first outputs are one leaf. -/
theorem BindsExit.leaf_unique {connector : Bitcoin.Transaction}
    (hb : BindsExit C transfer record connector) {leaf leaf' : SparkTransferLeaf}
    (hleaf : leaf ∈ transfer.leaves) (hleaf' : leaf' ∈ transfer.leaves) {vout : Nat}
    (h : leaf.Binds (L.computeTxid connector) vout)
    (h' : leaf'.Binds (L.computeTxid connector) vout) : leaf = leaf' := by
  obtain ⟨e, he⟩ := hb.outputs
  obtain ⟨j, rfl⟩ := List.get_of_mem hleaf
  obtain ⟨k, rfl⟩ := List.get_of_mem hleaf'
  have hjk : e j = e k := Fin.ext ((he j).unique h |>.trans (h'.unique (he k)))
  rw [e.injective hjk]

/-- A recorded leaf has a leaf of the transfer, and that one its output. -/
theorem BindsExit.found {connector : Bitcoin.Transaction}
    (hb : BindsExit C transfer record connector) {expected : ExitLeaf}
    (hexpected : expected ∈ record.leaves) : ∃ leaf output,
      Found transfer (L.computeTxid connector) record.leaves.length expected leaf output := by
  have hmem : (expected.id, expected.value) ∈ transfer.leaves.map fun l => (l.id, l.value) :=
    hb.recorded.mem_iff.mpr (List.mem_map.mpr ⟨expected, hexpected, rfl⟩)
  obtain ⟨leaf, hleaf, hsame⟩ := List.mem_map.mp hmem
  obtain ⟨hid, hvalue⟩ := Prod.mk.inj hsame
  obtain ⟨e, he⟩ := hb.outputs
  obtain ⟨k, rfl⟩ := List.get_of_mem hleaf
  obtain ⟨first, second, -, htxid, hvout⟩ := (he k).refunds _ List.mem_cons_self
  exact ⟨_, second.previousOutput, hleaf, hid, hvalue, htxid, hvout ▸ (e k).isLt, hvout ▸ he k⟩

/-- The walk passes from any point: the outputs used so far are those of other leaves. -/
theorem BindsExit.walk {connector : Bitcoin.Transaction}
    (hb : BindsExit C transfer record connector) (hids : (transfer.leaves.map (·.id)).Nodup)
    {expected : List ExitLeaf} (hsub : ∀ e ∈ expected, e ∈ record.leaves)
    (hnodup : (expected.map (·.id)).Nodup) (used : List OutPoint)
    (hused : ∀ o ∈ used, ∃ leaf ∈ transfer.leaves, leaf.id ∉ expected.map (·.id) ∧
      leaf.Binds (L.computeTxid connector) o.vout.toNat) :
    ∃ used', expected.foldlM (validateExitLeaf transfer (L.computeTxid connector)
      record.leaves.length) used = .ok used' := by
  induction expected generalizing used with
  | nil => exact ⟨used, rfl⟩
  | cons e es ih =>
      obtain ⟨leaf, output, hf⟩ := hb.found (hsub e List.mem_cons_self)
      obtain ⟨he, hes⟩ := List.nodup_cons.mp hnodup
      have hfresh : output ∉ used := by
        intro hmem
        obtain ⟨other, hother, hid, hbinds⟩ := hused output hmem
        obtain rfl := hb.leaf_unique hf.mem hother hf.binds hbinds
        exact hid (hf.id ▸ List.mem_cons_self)
      rw [List.foldlM_cons, validateExitLeaf_found hids hf hfresh]
      refine ih (fun x hx => hsub x (List.mem_cons_of_mem _ hx)) hes _ fun o ho => ?_
      rcases List.mem_cons.mp ho with rfl | ho
      · exact ⟨leaf, hf.mem, hf.id ▸ he, hf.binds⟩
      · obtain ⟨other, hother, hid, hbinds⟩ := hused o ho
        exact ⟨other, hother, fun hmem => hid (List.mem_cons_of_mem _ hmem), hbinds⟩

/-- Exactly the transfers that bind their leaves to the exit are accepted. -/
theorem validateCoopExitTransfer_iff (hids : (record.leaves.map (·.id)).Nodup) :
    validateCoopExitTransfer C transfer record = .ok () ↔
      ∃ connector, BindsExit C transfer record connector := by
  refine ⟨validateCoopExitTransfer_binds hids, ?_⟩
  rintro ⟨connector, hb⟩
  have hleafIds : (transfer.leaves.map (·.id)).Nodup := by
    have hperm := hb.recorded.map Prod.fst
    rw [List.map_map, List.map_map] at hperm
    exact hperm.nodup_iff.mpr hids
  have hlen : transfer.leaves.length = record.leaves.length := by
    simpa using hb.recorded.length_eq
  have hsum : (record.leaves.map (·.value)).sum = transfer.totalValue := by
    have hvalues := (hb.recorded.map Prod.snd).sum_nat
    rw [List.map_map, List.map_map] at hvalues
    rw [← hb.total]
    exact hvalues.symm
  have hvalue : record.leaves.foldlM (fun sum leaf => checkedAdd sum leaf.value) 0 =
      some transfer.totalValue := by
    rw [foldlM_checkedAdd_lt (by rw [hsum, Nat.zero_add]; exact hb.inRange), hsum, Nat.zero_add]
  obtain ⟨used, hused⟩ := hb.walk hleafIds (fun _ he => he) hids [] (by simp)
  unfold validateCoopExitTransfer
  simp only [bind_eq_ok, guard_eq_ok, okOr_eq_ok]
  refine ⟨_, hb.sender, ?_, ?_, _, hvalue, ?_, connector, hb.decodes, ?_⟩
  · simp [hb.id, hb.receiver, hb.type]
  · simp [hb.locked]
  · simp [hlen]
  · rw [hused]
    rfl

/-- A record of the service has different leaves, and a connector with one output more. -/
theorem stored_connector {s : Config (machine C)} (hs : Reach anyMove s) {row : ExitRow L}
    (hrow : row ∈ s.world.db.exits.rows) : (row.data.leaves.map (·.id)).Nodup ∧
      ∃ connector, L.deserializeHex row.data.rawConnector = .ok connector ∧
        connector.output.length = row.data.leaves.length + 1 := by
  obtain ⟨t, outpoint, f, hb⟩ := conserved hs row hrow
  obtain ⟨speed, -, -, hpriced⟩ := hb.price
  exact ⟨hpriced.distinct, _, hb.connector, hb.connectorCount⟩

/-- **Funding.**  A transfer that is accepted for a record with different leaf ids is the locked
cooperative exit the record names, from its owner to the service; it has the recorded leaves with
their values, which add up to its total without an overflow; and its leaves are in one-to-one
correspondence with the first `n` connector outputs, so that every refund of a leaf has two inputs
and the second is the leaf's output.  The output that is left over, the last one of the connector
of a stored record, is used by no refund exactly when the first inputs leave it alone. -/
theorem coop_exit_transfers_fund :
    (∀ (transfer : SparkTransfer) (record : ExitRecord L), (record.leaves.map (·.id)).Nodup →
      (validateCoopExitTransfer C transfer record = .ok () ↔
        ∃ connector, BindsExit C transfer record connector) ∧
      ((validateCoopExitTransfer C transfer record = .ok () →
          ∃ connector, FundsExit C transfer record connector) ↔
        ∀ connector, BindsExit C transfer record connector →
          ¬ SpendsSpare transfer record connector)) ∧
    ∀ s : Config (machine C), Reach anyMove s → ∀ row ∈ s.world.db.exits.rows,
      (row.data.leaves.map (·.id)).Nodup ∧
      ∃ connector, L.deserializeHex row.data.rawConnector = .ok connector ∧
        connector.output.length = row.data.leaves.length + 1 := by
  refine ⟨fun transfer record hids => ⟨validateCoopExitTransfer_iff hids, ?_, ?_⟩,
    fun _ hs _ hrow => stored_connector hs hrow⟩
  · intro h connector hb
    obtain ⟨connector', hf⟩ := h ((validateCoopExitTransfer_iff hids).mpr ⟨connector, hb⟩)
    -- the record has one connector
    obtain rfl := Except.ok.inj (hf.decodes.symm.trans hb.decodes)
    exact hb.funds_iff.mp hf
  · intro hno h
    obtain ⟨connector, hb⟩ := (validateCoopExitTransfer_iff hids).mp h
    exact ⟨connector, hb.funds_iff.mpr (hno connector hb)⟩

namespace Sample

def otherLeafId : Uuid := Uuid.fill 4

def pairNodes : List (String × Node) :=
  nodes ++ [(otherLeafId.print, ⟨⟨"alice"⟩, true, true, 500⟩)]

/-- Alice asks for a withdrawal of two leaves. -/
def requestedPair : List (Move (machine .sample)) :=
  .spawn (Request.request "alice"
    { leafExternalIds := [leafId.print, otherLeafId.print], withdrawalAddress := "bc1",
      exitSpeed := "FAST", withdrawAll := true, feeLeafExternalIds := none, feeQuoteId := none,
      idempotencyKey := some "key",
      userOutboundTransferExternalId := some transferId.print }) ::
  calls 0 [.done, .done, .done,
    .nodes pairNodes, .estimate none, .estimate none, .estimate none, .uuid exitId, .done, .done,
    .done, .done, .nodes pairNodes, .done, .unspent [coin],
    .address (some "ssp1"), .address (some "ssp2"), .address (some "ssp3"),
    .address (some "ssp4"), .address (some "ssp5"), .uuid exitId, .done, .done, .done, .done, .done]

/-- The outputs of its connector. -/
def connectorOutput (vout : UInt32) : OutPoint := ⟨⟨[9, 3, 3]⟩, vout⟩

/-- The transfer of its leaves, bound to the connector outputs the other way round.  The refunds
of the second leaf spend `first` with their first inputs. -/
def pairTransfer (first : OutPoint) : SparkTransfer :=
  let refund := transaction [⟨⟨[7]⟩, 0⟩, connectorOutput 1] []
  let other := transaction [first, connectorOutput 0] []
  { Sample.transfer .senderKeyTweakPending with
    totalValue := 1500
    leaves :=
      [{ id := leafId.print, value := 1000, intermediateRefundTx := refund,
         intermediateDirectRefundTx := none, intermediateDirectFromCpfpRefundTx := some refund },
       { id := otherLeafId.print, value := 500, intermediateRefundTx := other,
         intermediateDirectRefundTx := some other,
         intermediateDirectFromCpfpRefundTx := some other }] }

def connector (row : ExitRow .sample) : Bitcoin.Transaction := row.data.rawConnector

/-- The transfer is accepted for the stored withdrawal of two leaves, and its refunds spend the
spare output or not. -/
def accepts (first : OutPoint) (spare : Bool) (row : ExitRow .sample) : Bool :=
  decide (row.data.leaves.length = 2) &&
    decide (validateCoopExitTransfer .sample (pairTransfer first) row.data = .ok ()) &&
    decide (SpendsSpare (pairTransfer first) row.data (connector row)) == spare

end Sample

/-- A transfer whose refunds spend the leaves with their first inputs funds the withdrawal. -/
theorem coop_exit_transfers_fund_requested : ∃ s : Config (machine .sample), Reach anyMove s ∧
    ∃ row ∈ s.world.db.exits.rows, row.data.leaves.length = 2 ∧
      ∃ connector, FundsExit .sample (Sample.pairTransfer ⟨⟨[8]⟩, 0⟩) row.data connector := by
  obtain ⟨s, hs, hp⟩ := Reach.exists_of_moves Sample.requestedPair
    (fun s => s.world.db.exits.rows.any (Sample.accepts ⟨⟨[8]⟩, 0⟩ false)) (by decide +kernel)
  obtain ⟨row, hrow, hp⟩ := List.any_eq_true.mp hp
  simp only [Sample.accepts, Bool.and_eq_true, decide_eq_true_eq, beq_iff_eq,
    decide_eq_false_iff_not] at hp
  obtain ⟨⟨hlen, haccepted⟩, hno⟩ := hp
  obtain ⟨hids, -⟩ := (coop_exit_transfers_fund (C := Service.sample)).2 s hs row hrow
  refine ⟨s, hs, row, hrow, hlen, ?_⟩
  refine ((coop_exit_transfers_fund (C := Service.sample)).1 _ row.data hids).2.mpr ?_ haccepted
  intro connector hb
  obtain rfl := Except.ok.inj hb.decodes
  exact hno

/-- **A refund spends the spare output**, and the transfer is accepted all the same. -/
theorem spare_output_spent : ∃ s : Config (machine .sample), Reach anyMove s ∧
    ∃ row ∈ s.world.db.exits.rows, (row.data.leaves.map (·.id)).Nodup ∧
      validateCoopExitTransfer .sample (Sample.pairTransfer (Sample.connectorOutput 2)) row.data =
        .ok () ∧
      ¬ ∃ connector, FundsExit .sample (Sample.pairTransfer (Sample.connectorOutput 2)) row.data
        connector := by
  obtain ⟨s, hs, hp⟩ := Reach.exists_of_moves Sample.requestedPair
    (fun s => s.world.db.exits.rows.any (Sample.accepts (Sample.connectorOutput 2) true))
    (by decide +kernel)
  obtain ⟨row, hrow, hp⟩ := List.any_eq_true.mp hp
  simp only [Sample.accepts, Bool.and_eq_true, decide_eq_true_eq, beq_iff_eq] at hp
  obtain ⟨⟨hlen, haccepted⟩, hspends⟩ := hp
  refine ⟨s, hs, row, hrow, (stored_connector hs hrow).1, haccepted, ?_⟩
  rintro ⟨connector, hf⟩
  obtain rfl := Except.ok.inj hf.decodes
  exact hf.funds_iff.mp hf hspends

end OpenSsp.Coop
