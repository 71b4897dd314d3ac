/-
OpenSsp/Deposit/Signing.lean

What is signed with the nonce of a claim.

A claim is stored with the transfer that pays it, a nonce and a recovery transaction.  The
transaction of a fixed claim never changes; that of an instant claim changes once, before anything
is signed (`Final`).  Programs sign, and have the operators sign, for the stored plan only, so that
one nonce signs one transaction.

Main result: `one_spend_per_nonce`.
-/
import Mathlib.Data.List.Pairwise
import OpenSsp.Deposit.Fixed
import OpenSsp.Deposit.Scan

namespace OpenSsp.Deposit

open Interleave Bitcoin

variable {L : Library} {C : Service L} {db db' : Db L} {s s' : Config (machine C)}
variable {ok : Config (machine C) → Move (machine C) → Prop}
variable {ref : ClaimRef} {transferId : String} {plan : StaticPlan L}

/-! ### Stored plans -/

/-- The records of `instant_claims`, by the ids of their rows. -/
def Db.instant (db : Db L) : Table (Prod.fst : String × InstantClaim L → String) where
  rows := db.instants.val.map fun row => (row.id, row.data)
  nodup := by
    rw [List.map_map]
    exact db.instants.property.1

/-- The transfer and the plan that the row of a claim says. -/
def Db.claimPlan (db : Db L) : ClaimRef → Option (String × StaticPlan L)
  | .fixed id => (db.fixed.get id).map fun x => (x.2.transferId, x.2.plan)
  | .instant id => (db.instant.get id).map fun x => (x.2.transferId, x.2.plan)

/-- The plan under a fixed claim's reference is its row's. -/
theorem claimPlan_fixed {id : String} : db.claimPlan (.fixed id) = some (transferId, plan) ↔
    ∃ r, (id, r) ∈ db.fixed.rows ∧ r.transferId = transferId ∧ r.plan = plan := by
  constructor
  · intro h
    obtain ⟨⟨id', r⟩, hget, heq⟩ := Option.map_eq_some_iff.mp h
    obtain ⟨htransfer, hplan⟩ := Prod.mk.inj heq
    obtain rfl : id' = id := Table.key_of_get hget
    exact ⟨r, Table.mem_of_get hget, htransfer, hplan⟩
  · rintro ⟨r, hr, rfl, rfl⟩
    show (db.fixed.get id).map _ = _
    rw [Table.mem_iff_get.mp hr]
    rfl

/-- The row of a claim is the one that has its record. -/
theorem mem_instant (hs : Reach ok s) {id : String} {r : InstantClaim L} :
    (id, r) ∈ s.world.db.instant.rows ↔ r ∈ s.world.db.records ∧ r.id = id := by
  constructor
  · intro h
    obtain ⟨row, hrow, heq⟩ := List.mem_map.mp h
    obtain ⟨rfl, rfl⟩ := Prod.mk.inj heq
    have hbare : row.bare ∈ s.world.db.bareInstants := List.mem_map_of_mem hrow
    have hid : row.id = row.data.id := row_id hs row.bare hbare
    exact ⟨Db.mem_records.mpr ⟨row, hrow, rfl⟩, hid.symm⟩
  · rintro ⟨hr, rfl⟩
    obtain ⟨row, hrow, rfl⟩ := Db.mem_records.mp hr
    have hbare : row.bare ∈ s.world.db.bareInstants := List.mem_map_of_mem hrow
    have hid : row.id = row.data.id := row_id hs row.bare hbare
    exact List.mem_map.mpr ⟨row, hrow, by rw [hid]⟩

/-- The plan under an instant claim's reference is its row's. -/
theorem claimPlan_instant (hs : Reach ok s) {id : String} :
    s.world.db.claimPlan (.instant id) = some (transferId, plan) ↔
      ∃ r ∈ s.world.db.records, r.id = id ∧ r.transferId = transferId ∧ r.plan = plan := by
  constructor
  · intro h
    obtain ⟨⟨id', r⟩, hget, heq⟩ := Option.map_eq_some_iff.mp h
    obtain ⟨htransfer, hplan⟩ := Prod.mk.inj heq
    obtain rfl : id' = id := Table.key_of_get hget
    obtain ⟨hr, hid⟩ := (mem_instant hs).mp (Table.mem_of_get hget)
    exact ⟨r, hr, hid, htransfer, hplan⟩
  · rintro ⟨r, hr, hid, rfl, rfl⟩
    have hmem : (id, r) ∈ s.world.db.instant.rows := (mem_instant hs).mpr ⟨hr, hid⟩
    show (s.world.db.instant.get id).map _ = _
    rw [Table.mem_iff_get.mp hmem]
    rfl

/-! ### One step -/

/-- The plan pays with the same prepared transfer and signs with the same nonce. -/
structure SameTransfer (plan plan' : StaticPlan L) : Prop where
  transfer : plan'.request.transfer = plan.request.transfer
  nonce : plan'.nonceCiphertext = plan.nonceCiphertext

theorem SameTransfer.refl (plan : StaticPlan L) : SameTransfer plan plan := ⟨rfl, rfl⟩

theorem SameTransfer.trans {plan plan' plan'' : StaticPlan L} (h : SameTransfer plan plan')
    (h' : SameTransfer plan' plan'') : SameTransfer plan plan'' :=
  ⟨h'.transfer.trans h.transfer, h'.nonce.trans h.nonce⟩

/-- Freezing an outpoint leaves the transfer. -/
theorem freezeOutpoint_transfer {point : OutPoint} {request request' : SwapRequest L}
    (h : freezeOutpoint C point request = .ok request') : request'.transfer = request.transfer := by
  obtain ⟨job, -, h⟩ := bind_ok h
  obtain ⟨spend, -, h⟩ := bind_ok h
  obtain ⟨coin, -, h⟩ := bind_ok h
  obtain ⟨txid, -, h⟩ := bind_ok h
  obtain rfl := Except.ok.inj h
  rfl

variable {r r' : InstantClaim L} {hist : History (Api L)}

/-- A claim's progress leaves its transfer. -/
theorem advance_sameTransfer (ha : Advance C r hist r') : SameTransfer r.plan r'.plan := by
  cases ha with
  | paid hphase => exact .refl _
  | scanned tip hphase hscan => exact .refl _
  | prepared point request hphase hunspent hfreeze => exact ⟨freezeOutpoint_transfer hfreeze, rfl⟩
  | signed spend hfrozen hopen => exact .refl _
  | settled confirmations hfrozen hopen hseen => exact .refl _

/-- A frozen plan stays. -/
theorem advance_frozen (ha : Advance C r hist r') (hfrozen : r.Frozen) :
    r'.plan = r.plan ∧ r'.Frozen := by
  cases ha with
  | paid hphase => exact absurd hphase hfrozen.1
  | scanned tip hphase hscan => exact absurd hphase hfrozen.2
  | prepared point request hphase hunspent hfreeze => exact absurd hphase hfrozen.2
  | signed spend _ hopen => exact ⟨rfl, by exact nofun, by exact nofun⟩
  | settled confirmations _ hopen hseen =>
      refine ⟨rfl, ?_⟩
      by_cases hdepth : 3 ≤ confirmations
      · simp only [if_pos hdepth]
        exact ⟨by exact nofun, by exact nofun⟩
      · simp only [if_neg hdepth]
        exact ⟨by exact nofun, by exact nofun⟩

/-- A stored claim keeps its transfer and its nonce. -/
theorem step_claimPlan (hs : Reach ok s) (hs' : Reach ok s') {m : Move (machine C)}
    (hst : s.step m = some s') (h : s.world.db.claimPlan ref = some (transferId, plan)) :
    ∃ plan', s'.world.db.claimPlan ref = some (transferId, plan') ∧ SameTransfer plan plan' := by
  cases ref with
  | fixed id =>
      obtain ⟨r, hr, rfl, rfl⟩ := claimPlan_fixed.mp h
      obtain ⟨r', hr', hsame⟩ := (step_fixed hs hst).keeps hr
      refine ⟨r.plan, claimPlan_fixed.mpr ⟨r', hr', hsame.transferId, hsame.plan⟩, .refl _⟩
  | instant id =>
      obtain ⟨r, hr, rfl, rfl, rfl⟩ := (claimPlan_instant hs).mp h
      rcases (step_ledger hs hst).successor hs hr with hsame | ⟨t, k, hist, r', -, -, ha, hr'⟩
      · exact ⟨r.plan, (claimPlan_instant hs').mpr ⟨r, hsame, rfl, rfl, rfl⟩, .refl _⟩
      · exact ⟨r'.plan, (claimPlan_instant hs').mpr ⟨r', hr', advance_id ha,
          advance_transferId ha, rfl⟩, advance_sameTransfer ha⟩

/-! ### Final plans -/

/-- The claim is stored with a plan that will not change. -/
inductive Final (transferId : String) (plan : StaticPlan L) (db : Db L) : ClaimRef → Prop
  | fixed (id : String) (r : DepositClaim L) (hr : (id, r) ∈ db.fixed.rows)
      (htransfer : r.transferId = transferId) (hplan : r.plan = plan) :
      Final transferId plan db (.fixed id)
  | instant (r : InstantClaim L) (hr : r ∈ db.records) (htransfer : r.transferId = transferId)
      (hplan : r.plan = plan) (hfrozen : r.Frozen) : Final transferId plan db (.instant r.id)

/-- A final plan is the stored one. -/
theorem Final.stored (hf : Final transferId plan s.world.db ref) (hs : Reach ok s) :
    s.world.db.claimPlan ref = some (transferId, plan) := by
  cases hf with
  | fixed id r hr htransfer hplan => exact claimPlan_fixed.mpr ⟨r, hr, htransfer, hplan⟩
  | instant r hr htransfer hplan hfrozen =>
      exact (claimPlan_instant hs).mpr ⟨r, hr, rfl, htransfer, hplan⟩

/-- A final plan stays final. -/
theorem Final.step (hf : Final transferId plan s.world.db ref) (hs : Reach ok s)
    {m : Move (machine C)} (hst : s.step m = some s') : Final transferId plan s'.world.db ref := by
  cases hf with
  | fixed id r hr htransfer hplan =>
      obtain ⟨r', hr', hsame⟩ := (step_fixed hs hst).keeps hr
      exact .fixed id r' hr' (hsame.transferId.trans htransfer) (hsame.plan.trans hplan)
  | instant r hr htransfer hplan hfrozen =>
      rcases (step_ledger hs hst).successor hs hr with hsame | ⟨t, k, hist, r', -, -, ha, hr'⟩
      · exact .instant r hsame htransfer hplan hfrozen
      · obtain ⟨hplan', hfrozen'⟩ := advance_frozen ha hfrozen
        rw [← advance_id ha]
        exact .instant r' hr' ((advance_transferId ha).trans htransfer) (hplan'.trans hplan)
          hfrozen'

/-- A final plan is final at every later point. -/
theorem Final.later (hf : Final transferId plan s.world.db ref) (hs : Reach ok s)
    (hl : Later ok s s') : Final transferId plan s'.world.db ref :=
  hs.preserved hl (J := fun s : Config (machine C) => Final transferId plan s.world.db ref)
    (fun _ _ _ ha _ hst hf => hf.step ha hst) hf

/-! ### Who signs -/

/-- The call makes a signature, or has the operators make their part of it. -/
def Call.signs : Call L → Bool
  | .initiateSwap _ => true
  | .recoverInstant .. => true
  | .signRecovery .. => true
  | _ => false

/-- The call signs the transaction of this plan, and names this transfer. -/
inductive Signs (transferId : String) (plan : StaticPlan L) : Call L → Prop
  | swap : Signs transferId plan (.initiateSwap plan.request)
  | recover (job : SigningJob L) (hjob : plan.request.spendTxSigningJob = some job) :
      Signs transferId plan (.recoverInstant plan.request.onChainUtxo job transferId)
  | own (job : SigningJob L) (spend : Bitcoin.Transaction) (result : List UInt8)
      (hjob : plan.request.spendTxSigningJob = some job)
      (hspend : L.deserializeHex job.rawTx = .ok spend) :
      Signs transferId plan (.signRecovery plan spend result)

/-- A fixed claim's plan is final from the start. -/
theorem read_final (hs : Reach ok s) {t : Nat} {th : Thread (Api L)} (hth : s.thread t = some th)
    {r : DepositClaim L} (hr : Read r th.history) :
    Final r.transferId r.plan s.world.db (.fixed r.id) := by
  obtain ⟨r', hr', hsame⟩ := read_stored hs hth hr
  exact .fixed r.id r' hr' hsame.transferId hsame.plan

/-- An instant claim's plan is final once its outpoint is frozen. -/
theorem known_final (hs : Reach ok s) {t : Nat} {th : Thread (Api L)} (hth : s.thread t = some th)
    (hk : Known C r th.history) (hfrozen : r.Frozen) :
    Final r.transferId r.plan s.world.db (.instant r.id) :=
  .instant r (known_stored hs hth hk) rfl rfl hfrozen

/-- Who signs does so for a claim whose stored plan is final. -/
theorem signs_final (hs : Reach ok s) {t : Nat} {c : Call L} {k : c.Reply → Prog (Api L) Unit}
    {hist : History (Api L)} (hth : s.thread t = some ⟨.call c k, hist⟩) (hc : c.signs = true) :
    ∃ ref transferId plan, Signs transferId plan c ∧ Final transferId plan s.world.db ref := by
  have hlawful : Lawful C hist c := hs.justified handler_lawful hth
  cases c with
  | initiateSwap request =>
      obtain ⟨r, hr, rfl⟩ : ∃ r, Read r hist ∧ request = r.plan.request := hlawful
      exact ⟨_, _, _, .swap, read_final hs hth hr⟩
  | recoverInstant utxo job transferId =>
      obtain ⟨r, hk, hfrozen, rfl, hjob, rfl⟩ : ∃ r, Known C r hist ∧ r.Frozen ∧
        utxo = r.plan.request.onChainUtxo ∧ r.plan.request.spendTxSigningJob = some job ∧
        transferId = r.transferId := hlawful
      exact ⟨_, _, _, .recover job hjob, known_final hs hth hk hfrozen⟩
  | signRecovery plan spend result =>
      obtain ⟨job, hjob, hspend, hplan⟩ : ∃ job, plan.request.spendTxSigningJob = some job ∧
        L.deserializeHex job.rawTx = .ok spend ∧
        ((∃ r, Read r hist ∧ plan = r.plan) ∨ ∃ r, Known C r hist ∧ r.Frozen ∧ plan = r.plan) :=
        hlawful
      rcases hplan with ⟨r, hr, rfl⟩ | ⟨r, hk, hfrozen, rfl⟩
      · exact ⟨_, _, _, .own job spend result hjob hspend, read_final hs hth hr⟩
      · exact ⟨_, _, _, .own job spend result hjob hspend, known_final hs hth hk hfrozen⟩
  | _ => cases hc

/-! ### Where plans come from -/

/-- The event adds this claim. -/
inductive Enters : ClaimRef → Event (Api L) → Prop
  | fixed (r : DepositClaim L) : Enters (.fixed r.id) ⟨.db (.insertClaim r), .ok ()⟩
  | instant (r : InstantClaim L) (maxDeposit limit : Nat) :
      Enters (.instant r.id) ⟨.db (.insertInstant r maxDeposit limit), .ok ()⟩

/-- An event enters one claim. -/
theorem Enters.unique {ref ref' : ClaimRef} {e : Event (Api L)} (h : Enters ref e)
    (h' : Enters ref' e) : ref = ref' := by
  cases h with
  | fixed r => cases h'; rfl
  | instant r maxDeposit limit => cases h'; rfl

/-- Entering is one of the two inserts. -/
theorem Enters.call {e : Event (Api L)} (h : Enters ref e) : e.call.enters = true := by
  cases h with
  | fixed r => rfl
  | instant r maxDeposit limit => rfl

/-- A program adds at most one claim. -/
theorem enters_once (hs : Reach ok s) {t : Nat} {e e' : Event (Api L)} {ref' : ClaimRef}
    (he : (t, e) ∈ s.trace) (he' : (t, e') ∈ s.trace) (hin : Enters ref e) (hin' : Enters ref' e') :
    ref = ref' := by
  -- who adds a claim has added none before
  have hfirst : ∀ (e : Event (Api L)) (h : History (Api L)) (s₀ s₁ : Config (machine C)),
      Moment ok t e h s₀ s₁ → e.call.enters = true → Unentered h := by
    rintro ⟨c, reply⟩ h s₀ s₁ hm hin
    obtain ⟨ch, k, hth, -⟩ := hm.made
    have hlawful : Lawful C h c := hm.reach.justified handler_lawful hth
    cases c with
    | db q =>
        cases q with
        | insertClaim r =>
            obtain ⟨-, hfirst⟩ : Planned r.transferId r.plan h ∧ Unentered h := hlawful
            exact hfirst
        | insertInstant r maxDeposit limit =>
            have hfresh : Fresh C r maxDeposit limit h := hlawful
            exact hfresh.first
        | _ => cases hin
    | _ => cases hin
  rcases hs.same_program he he' with rfl | ⟨h, s₀, s₁, hm, hmem⟩ | ⟨h, s₀, s₁, hm, hmem⟩
  · exact hin.unique hin'
  · exact absurd ((hfirst _ _ _ _ hm hin.call e' hmem).symm.trans hin'.call) nofun
  · exact absurd ((hfirst _ _ _ _ hm hin'.call e hmem).symm.trans hin.call) nofun

/-- A program prepared the transfer, made the nonce and added the claim. -/
structure Made (s : Config (machine C)) (ref : ClaimRef) (transferId : String)
    (plan : StaticPlan L) (t : Nat) : Prop where
  transfer : ∃ id leaves owner, TransferId.parse transferId = .ok id ∧
    (t, (⟨.prepareTransfer id leaves owner, .ok plan.request.transfer⟩ : Event (Api L))) ∈ s.trace
  nonce : ∃ nonce, (t, (⟨.newNonce, .ok nonce⟩ : Event (Api L))) ∈ s.trace ∧
    plan.nonceCiphertext = nonce.noncesCiphertext
  entered : ∃ e, (t, e) ∈ s.trace ∧ Enters ref e

/-- What made a plan stays in the trace. -/
theorem Made.step {t : Nat} {plan' : StaticPlan L} (h : Made s ref transferId plan t)
    {m : Move (machine C)} (hst : s.step m = some s') (hsame : SameTransfer plan plan') :
    Made s' ref transferId plan' t := by
  obtain ⟨id, leaves, owner, hid, htransfer⟩ := h.transfer
  obtain ⟨nonce, hnonce, heq⟩ := h.nonce
  obtain ⟨e, he, hin⟩ := h.entered
  refine ⟨⟨id, leaves, owner, hid, ?_⟩, ⟨nonce, Config.trace_grows hst hnonce, ?_⟩,
    e, Config.trace_grows hst he, hin⟩
  · rw [hsame.transfer]
    exact Config.trace_grows hst htransfer
  · rw [hsame.nonce]
    exact heq

/-- What a program planned before it adds a claim. -/
theorem Planned.made (hs : Reach ok s) {t : Nat} {th : Thread (Api L)}
    (hth : s.thread t = some th) (hp : Planned transferId plan th.history) {m : Move (machine C)}
    (hst : s.step m = some s') {e : Event (Api L)} (htrace : s'.trace = (t, e) :: s.trace)
    (hin : Enters ref e) : Made s' ref transferId plan t := by
  have hmem : ∀ x ∈ th.history, (t, x) ∈ s'.trace := fun x hx =>
    Config.trace_grows hst (hs.history_mem t th hth x hx)
  obtain ⟨id, leaves, owner, hid, htransfer⟩ := hp.transfer
  obtain ⟨nonce, hnonce, heq⟩ := hp.nonce
  refine ⟨⟨id, leaves, owner, hid, hmem _ htransfer⟩, ⟨nonce, hmem _ hnonce, heq⟩, e, ?_, hin⟩
  rw [htrace]
  exact List.mem_cons_self

/-- Every stored plan was made by the task that entered the claim. -/
theorem stored_made (hs : Reach ok s) : ∀ ref transferId plan,
    s.world.db.claimPlan ref = some (transferId, plan) → ∃ t, Made s ref transferId plan t := by
  -- the step needs `Reach` of the new state too, so it is part of the invariant
  have hall : Reach ok s ∧ ∀ ref transferId plan,
      s.world.db.claimPlan ref = some (transferId, plan) → ∃ t, Made s ref transferId plan t := by
    refine hs.invariant (J := fun s : Config (machine C) => Reach ok s ∧
      ∀ ref transferId plan, s.world.db.claimPlan ref = some (transferId, plan) →
        ∃ t, Made s ref transferId plan t) ?_ ?_
    · refine ⟨.start, ?_⟩
      rintro (id | id) transferId plan h <;> cases h
    · rintro s s' m hr ⟨-, ih⟩ hm hst
      have hr' : Reach ok s' := hr.step hm hst
      refine ⟨hr', ?_⟩
      rintro (id | id) transferId plan h
      · obtain ⟨r, hmem, rfl, rfl⟩ := claimPlan_fixed.mp h
        rcases (step_fixed hr hst).origin hmem with
          ⟨r₀, hr₀, hsame⟩ | ⟨t, k, hist, hth, htrace, hplanned, -, hid⟩
        · obtain ⟨t, hmade⟩ := ih (.fixed id) r.transferId r.plan
            (claimPlan_fixed.mpr ⟨r₀, hr₀, hsame.transferId.symm, hsame.plan.symm⟩)
          exact ⟨t, hmade.step hst (.refl _)⟩
        · obtain rfl : id = r.id := hid
          exact ⟨t, hplanned.made hr hth hst htrace (.fixed r)⟩
      · obtain ⟨r, hmem, rfl, rfl, rfl⟩ := (claimPlan_instant hr').mp h
        rcases (step_ledger hr hst).origin hmem with
          hold | ⟨t, k, hist, maxDeposit, limit, hth, htrace, hfresh⟩ |
          ⟨t, k, hist, r₀, hth, htrace, hr₀, ha⟩
        · obtain ⟨t, hmade⟩ := ih (.instant r.id) r.transferId r.plan
            ((claimPlan_instant hr).mpr ⟨r, hold, rfl, rfl, rfl⟩)
          exact ⟨t, hmade.step hst (.refl _)⟩
        · exact ⟨t, hfresh.planned.made hr hth hst htrace (.instant r maxDeposit limit)⟩
        · obtain ⟨t, hmade⟩ := ih (.instant r.id) r.transferId r₀.plan
            ((claimPlan_instant hr).mpr ⟨r₀, hr₀, (advance_id ha).symm,
              (advance_transferId ha).symm, rfl⟩)
          exact ⟨t, hmade.step hst (advance_sameTransfer ha)⟩
  exact hall.2

/-! ### Nonces -/

/-- The nonce that the event makes. -/
def madeNonce (e : Event (Api L)) : Option (List UInt8) :=
  match e with
  | ⟨.newNonce, .ok nonce⟩ => some nonce.noncesCiphertext
  | _ => none

/-- No nonce is made twice. -/
def FreshNonces (s : Config (machine C)) : Prop :=
  (s.trace.filterMap fun x => madeNonce x.2).Nodup

instance : DecidablePred (FreshNonces (C := C)) := fun _ => inferInstanceAs (Decidable (List.Nodup _))

/-- A fresh nonce was drawn once. -/
theorem FreshNonces.unique (hf : FreshNonces s) {x y : Nat × Event (Api L)} (hx : x ∈ s.trace)
    (hy : y ∈ s.trace) {b : List UInt8} (hnx : madeNonce x.2 = some b)
    (hny : madeNonce y.2 = some b) : x = y := by
  have hpair := List.pairwise_filterMap.mp hf
  by_contra hne
  have hsymm : Std.Symm fun x y : Nat × Event (Api L) => ∀ b, madeNonce x.2 = some b →
      ∀ b', madeNonce y.2 = some b' → b ≠ b' :=
    ⟨fun x y h b hb b' hb' heq => h b' hb' b hb heq.symm⟩
  exact hpair.forall hx hy hne b hnx b hny rfl

/-- Two claims have two nonces. -/
theorem nonce_unique (hs : Reach ok s) (hf : FreshNonces s) {ref' : ClaimRef} {transferId' : String}
    {plan' : StaticPlan L} (h : s.world.db.claimPlan ref = some (transferId, plan))
    (h' : s.world.db.claimPlan ref' = some (transferId', plan'))
    (hnonce : plan.nonceCiphertext = plan'.nonceCiphertext) : ref = ref' := by
  obtain ⟨t, hm⟩ := stored_made hs ref transferId plan h
  obtain ⟨t', hm'⟩ := stored_made hs ref' transferId' plan' h'
  obtain ⟨n, hn, heq⟩ := hm.nonce
  obtain ⟨n', hn', heq'⟩ := hm'.nonce
  obtain ⟨e, he, hin⟩ := hm.entered
  obtain ⟨e', he', hin'⟩ := hm'.entered
  have hsame : (t, (⟨.newNonce, .ok n⟩ : Event (Api L))) = (t', ⟨.newNonce, .ok n'⟩) := by
    apply hf.unique hn hn' (b := plan.nonceCiphertext)
    · rw [heq]
      rfl
    · rw [hnonce, heq']
      rfl
  obtain ⟨rfl, -⟩ := Prod.mk.inj hsame
  exact enters_once hs he he' hin hin'

/-- A final plan stays the plan of its claim. -/
def KeepsFinal (w w' : World L) : Prop :=
  ∀ ref transferId plan, Final transferId plan w.db ref → Final transferId plan w'.db ref

/-- What was signed was the transaction of a plan that is stored for good. -/
theorem signed_final (hs : Reach ok s) {t : Nat} {spend : Bitcoin.Transaction}
    {result : List UInt8} {reply : Except String (List UInt8)}
    (hmem : (t, (⟨.signRecovery plan spend result, reply⟩ : Event (Api L))) ∈ s.trace) :
    ∃ ref transferId, s.world.db.claimPlan ref = some (transferId, plan) ∧
      ∃ job, plan.request.spendTxSigningJob = some job ∧ L.deserializeHex job.rawTx = .ok spend := by
  obtain ⟨h, s₀, s₁, hm, hlater⟩ := hs.happened (G := KeepsFinal) (fun w ref id plan hf => hf)
    (fun a b c hab hbc ref id plan hf => hbc ref id plan (hab ref id plan hf))
    (fun s s' m hr _ hst ref id plan hf => hf.step hr hst) t _ hmem
  obtain ⟨ch, hok, hst⟩ := hm.step
  obtain ⟨_, k, hth, -⟩ := hm.made
  obtain ⟨ref, transferId, plan', hsigns, hfinal⟩ := signs_final hm.reach hth rfl
  cases hsigns with
  | own job spend result hjob hspend =>
      have hnow := hlater ref transferId plan (hfinal.step hm.reach hst)
      exact ⟨ref, transferId, hnow.stored hs, job, hjob, hspend⟩

/-! ### Runs -/

/-- **One spend for one nonce.**  Whoever signs, or has the operators sign, does so for a claim whose
row says the plan that is signed, then and at all later times.  What the operators are asked to
reserve is the request of a stored claim.  Every stored claim has, now and later, one transfer id, a
transfer that was prepared under it, and one nonce.  If no nonce is made twice, then what is signed
with one nonce is one transaction. -/
theorem one_spend_per_nonce (hs : Reach anyMove s) :
    (∀ t c, s.next t = some c → c.signs = true → ∃ ref transferId plan, Signs transferId plan c ∧
      ∀ s', Later anyMove s s' → s'.world.db.claimPlan ref = some (transferId, plan)) ∧
    (∀ t quote request, s.next t = some (.reserveInstant quote request) →
      ∃ id transferId plan, s.world.db.claimPlan (.instant id) = some (transferId, plan) ∧
        request = plan.request) ∧
    (∀ ref transferId plan, s.world.db.claimPlan ref = some (transferId, plan) →
      (∃ t id leaves owner, TransferId.parse transferId = .ok id ∧
        (t, (⟨.prepareTransfer id leaves owner, .ok plan.request.transfer⟩ : Event (Api L))) ∈
          s.trace) ∧
      ∀ s', Later anyMove s s' → ∃ plan', s'.world.db.claimPlan ref = some (transferId, plan') ∧
        plan'.request.transfer = plan.request.transfer ∧
        plan'.nonceCiphertext = plan.nonceCiphertext) ∧
    (FreshNonces s → ∀ t t' plan plan' spend spend' result result' reply reply',
      (t, (⟨.signRecovery plan spend result, reply⟩ : Event (Api L))) ∈ s.trace →
      (t', (⟨.signRecovery plan' spend' result', reply'⟩ : Event (Api L))) ∈ s.trace →
      plan.nonceCiphertext = plan'.nonceCiphertext → spend = spend') := by
  have hthread : ∀ t c, s.next t = some c → ∃ k hist, s.thread t = some ⟨.call c k, hist⟩ := by
    intro t c hnext
    obtain ⟨⟨p, hist⟩, hth, hp⟩ := Option.bind_eq_some_iff.mp hnext
    cases p with
    | ret a => cases hp
    | call c' k =>
        obtain rfl : c' = c := Option.some.inj hp
        exact ⟨k, hist, hth⟩
  refine ⟨?_, ?_, ?_, ?_⟩
  · intro t c hnext hc
    obtain ⟨k, hist, hth⟩ := hthread t c hnext
    obtain ⟨ref, transferId, plan, hsigns, hfinal⟩ := signs_final hs hth hc
    exact ⟨ref, transferId, plan, hsigns, fun s' hl => (hfinal.later hs hl).stored (hs.later hl)⟩
  · intro t quote request hnext
    obtain ⟨k, hist, hth⟩ := hthread t _ hnext
    obtain ⟨r, hk, -, -, rfl⟩ : ∃ r, Known C r hist ∧ r.phase = .created ∧
      quote = r.quote.deposit ∧ request = r.plan.request := hs.justified handler_lawful hth
    exact ⟨r.id, r.transferId, r.plan,
      (claimPlan_instant hs).mpr ⟨r, known_stored hs hth hk, rfl, rfl, rfl⟩, rfl⟩
  · intro ref transferId plan h
    obtain ⟨t, hmade⟩ := stored_made hs ref transferId plan h
    obtain ⟨id, leaves, owner, hid, htransfer⟩ := hmade.transfer
    refine ⟨⟨t, id, leaves, owner, hid, htransfer⟩, fun s' hl => ?_⟩
    obtain ⟨plan', hplan', hsame⟩ : ∃ plan', s'.world.db.claimPlan ref = some (transferId, plan') ∧
        SameTransfer plan plan' := by
      induction hl with
      | refl => exact ⟨plan, h, .refl _⟩
      | step hl hm hst ih =>
          obtain ⟨plan₁, h₁, hsame₁⟩ := ih
          have hs₁ := hs.later hl
          obtain ⟨plan₂, h₂, hsame₂⟩ := step_claimPlan hs₁ (.step hs₁ hm hst) hst h₁
          exact ⟨plan₂, h₂, hsame₁.trans hsame₂⟩
    exact ⟨plan', hplan', hsame.transfer, hsame.nonce⟩
  · intro hf t t' plan plan' spend spend' result result' reply reply' hmem hmem' hnonce
    obtain ⟨ref, transferId, hstored, job, hjob, hspend⟩ := signed_final hs hmem
    obtain ⟨ref', transferId', hstored', job', hjob', hspend'⟩ := signed_final hs hmem'
    obtain rfl := nonce_unique hs hf hstored hstored' hnonce
    -- one claim has one plan, and one plan has one transaction
    obtain ⟨-, rfl⟩ := Prod.mk.inj (Option.some.inj (hstored.symm.trans hstored'))
    obtain rfl := Option.some.inj (hjob.symm.trans hjob')
    exact Except.ok.inj (hspend.symm.trans hspend')

namespace Sample

/-- The service stops between the signature for Alice's claim and its save; a pass signs again. -/
def signedTwice : List (Move (machine .sample)) :=
  .spawn (Request.quote "02" output) ::
    calls 0 [.done, .done, .coin (some coin), .addresses [⟨"bcrt1p", [3], [4]⟩], .done,
      .estimate none, .done, .done, .done] ++
  .spawn (Request.claim "02" { output with
      quoteSignature := some "30", creditAmountSats := some 9901,
      requestType := some "FIXED_AMOUNT", encryptedDepositSecretKey := some "05",
      signature := some "06" }) ::
    calls 1 [.done, .done, .done, .done, .coin (some coin), .address (some "bcrt1q"),
      .uuid Sample.transferId, .leaves [], .bytes [], .nonce ⟨[], [7]⟩, .uuid claimId, .done,
      .swap signed, .bytes []] ++
  .crash :: .spawn .pass :: calls 2 [.done, .done, .done, .swap signed, .bytes []]

/-- Program `t` has signed with the nonce of the claim. -/
def signing (t : Nat) (x : Nat × Event (Api .sample)) : Bool :=
  match x with
  | (u, ⟨.signRecovery plan _ _, _⟩) => u == t && plan.nonceCiphertext == [7]
  | _ => false

/-- A signing event of the sample, read off its test. -/
theorem signing_eq_true {t : Nat} {x : Nat × Event (Api .sample)} (h : signing t x = true) :
    ∃ plan spend result reply, x = (t, ⟨.signRecovery plan spend result, reply⟩) ∧
      plan.nonceCiphertext = [7] := by
  obtain ⟨u, c, reply⟩ := x
  cases c with
  | signRecovery plan spend result =>
      obtain ⟨ht, hnonce⟩ := Bool.and_eq_true_iff.mp h
      obtain rfl : u = t := beq_iff_eq.mp ht
      exact ⟨plan, spend, result, reply, rfl, beq_iff_eq.mp hnonce⟩
  | _ => cases h

end Sample

/-- A claim that is signed for again after a restart. -/
theorem one_spend_per_nonce_twice : ∃ (s : Config (machine .sample)) (plan plan' : StaticPlan .sample)
    (spend spend' : Bitcoin.Transaction) (result result' : List UInt8)
    (reply reply' : Except String (List UInt8)), Reach anyMove s ∧
    (1, (⟨.signRecovery plan spend result, reply⟩ : Event (Api .sample))) ∈ s.trace ∧
    (2, (⟨.signRecovery plan' spend' result', reply'⟩ : Event (Api .sample))) ∈ s.trace ∧
    spend = spend' := by
  obtain ⟨s, hs, hp⟩ := Reach.exists_of_moves Sample.signedTwice (fun s =>
    decide (FreshNonces s) && (s.trace.any (Sample.signing 1) && s.trace.any (Sample.signing 2)))
    (by decide +kernel)
  obtain ⟨hfresh, hp⟩ := Bool.and_eq_true_iff.mp hp
  obtain ⟨hone, htwo⟩ := Bool.and_eq_true_iff.mp hp
  obtain ⟨x, hx, hsigned⟩ := List.any_eq_true.mp hone
  obtain ⟨x', hx', hsigned'⟩ := List.any_eq_true.mp htwo
  obtain ⟨plan, spend, result, reply, rfl, hnonce⟩ := Sample.signing_eq_true hsigned
  obtain ⟨plan', spend', result', reply', rfl, hnonce'⟩ := Sample.signing_eq_true hsigned'
  obtain ⟨-, -, -, hspends⟩ := one_spend_per_nonce hs
  refine ⟨s, plan, plan', spend, spend', result, result', reply, reply', hs, hx, hx', ?_⟩
  exact hspends (of_decide_eq_true hfresh) 1 2 plan plan' spend spend' result result' reply reply'
    hx hx' (hnonce.trans hnonce'.symm)

end OpenSsp.Deposit
