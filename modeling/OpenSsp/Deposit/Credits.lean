/-
OpenSsp/Deposit/Credits.lean

One output, one credit.

The tables keep two claims off one output only while both are open.  A fixed claim is `SUCCEEDED`,
and reserves its address and amount no more, as soon as its recovery is broadcast; the search for a
replacement compares script and amount, and looks neither at the fixed claims nor at the outputs
that earlier instant claims were given.  When a recovery is evicted from the mempool, or a block
with it is reorganised away, its output is unspent again, and the next instant claim of the same
address and amount whose own output was replaced is frozen on it.

Main results: `credits_apart` and `evicted_output_credited_twice`.
-/
import OpenSsp.Deposit.Backing

namespace OpenSsp.Deposit

open Interleave Bitcoin

variable {L : Library} {C : Service L} {O : Outputs} {s : Config (machine C)}

/-- **No output backs two credits**, in every run in which the node does not report recovered
outputs unspent to the programs that give claims their outputs.  A fixed claim is backed by its own
output, an instant claim by the one its plan was frozen on. -/
theorem credits_apart (hC : C.Texts) (hs : Reach KeepsSpent s) (hn : Constant C O s.trace) :
    (∀ y ∈ s.world.db.fixed.rows, ∃ point, C.parseTxid y.2.quote.txid = some point.txid ∧
      y.2.quote.vout = point.vout ∧ y.2.plan.spends = some [point]) ∧
    (∀ r ∈ s.world.db.records, r.Frozen → ∃ point, r.plan.spends = some [point]) ∧
    ∀ ref ref' point, Backs s.world.db ref point → Backs s.world.db ref' point → ref = ref' := by
  refine ⟨fun y hy => ?_, fun r hr _ => ?_, fun ref ref' point h h' => ?_⟩
  · obtain ⟨point, hquoted, hspends, -⟩ := ((fixed_claims hC hs hn).stored y hy).output
    exact ⟨point, hquoted.parse hC, hquoted.vout, hspends⟩
  · obtain ⟨point, -, hspends⟩ := (instant_claims hC hs hn r hr).output
    exact ⟨point, hspends⟩
  · exact backs_unique hC (fun _ _ h => h) hs hn h h'

/-- A fixed and an instant claim of one wallet, both credited, each on its own output. -/
theorem credits_apart_both : ∃ (s : Config (machine Sample.instantService)) (id id' : String)
    (point point' : OutPoint), Reach KeepsSpent s ∧ Backs s.world.db (.fixed id) point ∧
    Backs s.world.db (.instant id') point' ∧ point ≠ point' := by
  obtain ⟨s, hs, hn, ⟨y, hy⟩, r, hr, hfrozen⟩ := Sample.fixedAndInstant_reached
  have hs := honest_keepsSpent Sample.texts hs hn
  obtain ⟨hfixed, hinstant, hone⟩ := credits_apart Sample.texts hs hn.constant
  obtain ⟨point, -, -, hspends⟩ := hfixed y hy
  obtain ⟨point', hspends'⟩ := hinstant r hr hfrozen
  have hbacks : Backs s.world.db (.fixed y.1) point :=
    .fixed y.1 y.2 [point] point hy hspends List.mem_cons_self
  have hbacks' : Backs s.world.db (.instant r.id) point' :=
    .instant r [point'] point' hr hfrozen hspends' List.mem_cons_self
  refine ⟨s, y.1, r.id, point, point', hs, hbacks, hbacks', ?_⟩
  rintro rfl
  cases hone _ _ point hbacks hbacks'

namespace Sample

/-! ### The recovery of a fixed claim is evicted -/

/-- The script of Alice's deposit address. -/
def depositScript : String := "5120" ++ String.ofList (List.replicate 64 '0')

/-- All outputs of the run pay it the same amount. -/
def equalOutputs : Outputs where
  script _ := depositScript
  value _ := 10000

/-- What is told of an output is what all outputs are. -/
def tellsEqual (script : Option String) (value : Except String Nat) : Bool :=
  script.all (· == depositScript) && value.toOption.all (· == 10000)

/-- The event tells nothing else of an output. -/
def reportsEqual : Event (Api .sample) → Bool
  | ⟨.getTxOut _ vout, .ok (some coin)⟩ => vout < 2 ^ 32 && tellsEqual coin.script coin.value
  | ⟨.getBlock _, .ok (some txs)⟩ => txs.all fun tx => (tx.vout.getD []).all fun output =>
      tellsEqual output.script output.value
  | _ => true

/-- The test of a script and an amount is sound. -/
theorem tellsEqual_ok {script : Option String} {value : Except String Nat}
    (h : tellsEqual script value = true) (point : OutPoint) :
    (∀ text, script = some text → text = equalOutputs.script point) ∧
      ∀ sats, value = .ok sats → sats = equalOutputs.value point := by
  obtain ⟨hscript, hvalue⟩ := Bool.and_eq_true_iff.mp h
  constructor
  · rintro text rfl
    exact beq_iff_eq.mp hscript
  · rintro sats rfl
    exact beq_iff_eq.mp hvalue

/-- So is that of a trace. -/
theorem reportsEqual_ok {trace : List (Nat × Event (Api .sample))}
    (h : trace.all (fun x => reportsEqual x.2) = true) :
    Constant instantService equalOutputs trace := by
  constructor
  · intro x hx point script value hreports
    have htrue := List.all_eq_true.mp h x hx
    generalize x.2 = e at hreports htrue
    cases hreports with
    | coin txid vout coin hname =>
        exact tellsEqual_ok (Bool.and_eq_true_iff.mp htrue).2 point
    | block hash txs tx outputs output txid vout htx houtputs hmem htxid hn hname =>
        have houtput := List.all_eq_true.mp htrue tx htx
        rw [houtputs] at houtput
        exact tellsEqual_ok (List.all_eq_true.mp houtput output hmem) point
  · intro x hx txid vout coin he
    have htrue := List.all_eq_true.mp h x hx
    rw [he] at htrue
    exact of_decide_eq_true (Bool.and_eq_true_iff.mp htrue).1

/-- The second deposit of Alice is in the mempool. -/
def unconfirmed : Coin := { coin with confirmations := some 0 }

/-- The first one, when its recovery is gone from the mempool. -/
def evictedCoin : Coin := { coin with confirmations := some 8 }

def evictedOutput : OutputInput := { output with transactionId := some "bb" }

/-- The transaction of the first deposit, as its block lists it. -/
def firstDeposit : BlockTx := ⟨some "bb", some [⟨coin.script, .ok 10000, some 0⟩]⟩

def instantTransfer : Uuid := Uuid.fill 4

/-- Two deposits of 10000 sats to Alice's address.  The confirmed one is claimed, and its recovery is
broadcast.  The other is claimed at once; then it is replaced, the recovery of the first is evicted,
and the search finds the first deposit, unspent. -/
def evicted : List (Move (machine instantService)) :=
  .spawn (Request.quote "02" evictedOutput) ::
    instantCalls 0 [.done, .done, .coin (some coin), .addresses [⟨"bcrt1p", [3], [4]⟩], .done,
      .estimate none, .done, .done, .done] ++
  .spawn (Request.claim "02" { evictedOutput with
      quoteSignature := some "30", creditAmountSats := some 9901,
      requestType := some "FIXED_AMOUNT", encryptedDepositSecretKey := some "05",
      signature := some "06" }) ::
    instantCalls 1 [.done, .done, .done, .done, .coin (some coin), .address (some "bcrt1q"),
      .uuid transferId, .leaves [], .bytes [], .nonce ⟨[], []⟩, .uuid claimId, .done,
      .swap signed, .bytes [], .done, .confirmations none, .done, .done, .done, .done] ++
  .spawn (Request.instantQuote "02" output) ::
    instantCalls 2 [.done, .done, .coin (some unconfirmed), .number (some 1),
      .addresses [⟨"bcrt1p", [3], [4]⟩], .done, .done, .estimate none, .done, .number (some 100),
      .uuid quoteId, .done, .done, .done] ++
  .spawn (Request.instantClaim "02" ⟨some quoteId.print, none, some "05", some "06"⟩) ::
    instantCalls 3 [.done, .done, .done, .done, .done, .coin (some unconfirmed), .number (some 1),
      .done, .address (some "bcrt1q"), .uuid instantTransfer, .leaves [], .bytes [],
      .nonce ⟨[], []⟩, .uuid (Uuid.fill 5), .done,
      .swap ⟨some ⟨instantTransfer.print, [1], [2], 9901⟩, none⟩, .done, .coin none,
      .number (some 101), .hash "94", .block (some [firstDeposit]), .coin (some evictedCoin), .done]

/-- The output of the first deposit. -/
def evictedPoint : OutPoint := ⟨⟨[0xbb]⟩, 0⟩

/-- A fixed claim that has succeeded, and an instant one that has been credited, both spend it. -/
def creditsTwice (s : Config (machine instantService)) : Bool :=
  (s.world.db.fixed.rows.any fun y =>
    y.2.status == .succeeded && y.2.plan.spends == some [evictedPoint]) &&
  s.world.db.records.any fun r =>
    r.phase == .recoveryPrepared && r.plan.spends == some [evictedPoint]

end Sample

/-- A claim of each kind is credited for one and the same output: the node reports every output the
same way each time, and the recovery of the fixed claim unspent after it was broadcast. -/
theorem evicted_output_credited_twice : ∃ (O : Outputs)
    (s : Config (machine Sample.instantService)) (ref ref' : ClaimRef) (point : OutPoint),
    Reach anyMove s ∧ Constant Sample.instantService O s.trace ∧ Backs s.world.db ref point ∧
    Backs s.world.db ref' point ∧ ref ≠ ref' := by
  obtain ⟨s, hs, hp⟩ := Reach.exists_of_moves Sample.evicted (fun s =>
    s.trace.all (fun x => Sample.reportsEqual x.2) && Sample.creditsTwice s) (by decide +kernel)
  obtain ⟨hconstant, htwice⟩ := Bool.and_eq_true_iff.mp hp
  obtain ⟨hfixed, hinstant⟩ := Bool.and_eq_true_iff.mp htwice
  obtain ⟨⟨id, r⟩, hr, hp⟩ := List.any_eq_true.mp hfixed
  obtain ⟨-, hspends⟩ := Bool.and_eq_true_iff.mp hp
  obtain ⟨r', hr', hp'⟩ := List.any_eq_true.mp hinstant
  obtain ⟨hphase, hspends'⟩ := Bool.and_eq_true_iff.mp hp'
  have hphase : r'.phase = .recoveryPrepared := beq_iff_eq.mp hphase
  refine ⟨Sample.equalOutputs, s, .fixed id, .instant r'.id, Sample.evictedPoint, hs,
    Sample.reportsEqual_ok hconstant, ?_, ?_, nofun⟩
  · exact .fixed id r [_] _ hr (beq_iff_eq.mp hspends) List.mem_cons_self
  · refine .instant r' [_] _ hr' ⟨?_, ?_⟩ (beq_iff_eq.mp hspends') List.mem_cons_self
    · rw [hphase]
      exact nofun
    · rw [hphase]
      exact nofun

end OpenSsp.Deposit
