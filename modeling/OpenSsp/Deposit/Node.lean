/-
OpenSsp/Deposit/Node.lean

What the claims of deposits take from the Bitcoin node.

A quote describes an output as the node reported it.  A claim is entered, and the recovery of an
instant claim gets its final input, right after the node reported that output unspent, under the
deposits lock.  A replacement is an output that a block shows with the script and the amount of the
quote.  What is signed spends what the plan of the claim spends, and a fixed claim succeeds when the
node has accepted that transaction or shown it confirmed.

Main result: `handler_careful`.
-/
import OpenSsp.Deposit.Record

namespace OpenSsp.Deposit

open Interleave Bitcoin

variable {L : Library} {C : Service L} {h h' : History (Api L)}

/-! ### What a transaction spends -/

/-- The outputs that the transaction with this text spends. -/
def inputsOf (raw : L.Raw) : Option (List OutPoint) :=
  (L.deserializeHex raw).toOption.map fun tx => tx.input.map (·.previousOutput)

/-- The outputs that the recovery of this plan spends. -/
def SwapRequest.spends (request : SwapRequest L) : Option (List OutPoint) :=
  request.spendTxSigningJob.bind fun job => inputsOf job.rawTx

@[inherit_doc SwapRequest.spends]
def StaticPlan.spends (plan : StaticPlan L) : Option (List OutPoint) := plan.request.spends

/-- The outputs that a text spends are those of the inputs that are parsed from it. -/
theorem inputsOf_ok {raw : L.Raw} {tx : Bitcoin.Transaction} (h : L.deserializeHex raw = .ok tx) :
    inputsOf raw = some (tx.input.map (·.previousOutput)) := by
  simp [inputsOf, h, Except.toOption]

/-- A transaction that is written out spends the same outputs. -/
theorem inputsOf_serializeHex {tx : Bitcoin.Transaction} (h : tx.input ≠ []) :
    inputsOf (L.serializeHex tx) = some (tx.input.map (·.previousOutput)) :=
  inputsOf_ok (L.roundtrip tx h)

/-- The recovery of a claim spends its deposit and no other output. -/
@[simp] theorem inputsOf_recovery (point : OutPoint) (credit : Nat) (destination : Script) :
    inputsOf (L.serializeHex (recoveryTransaction point credit destination)) = some [point] :=
  inputsOf_serializeHex (List.cons_ne_nil _ _)

/-- The frozen request spends the output that was found in place of the quoted one. -/
theorem freezeOutpoint_spends {point old : OutPoint} {request request' : SwapRequest L}
    (h : freezeOutpoint C point request = .ok request') (hold : request.spends = some [old]) :
    request'.spends = some [point] := by
  obtain ⟨job, hjob, h⟩ := bind_ok h
  obtain ⟨spend, hspend, h⟩ := bind_ok h
  obtain ⟨coin, -, h⟩ := bind_ok h
  obtain ⟨txid, -, h⟩ := bind_ok h
  obtain rfl := Except.ok.inj h
  rw [SwapRequest.spends, okOr_eq_ok.mp hjob, Option.bind_some, inputsOf_ok hspend] at hold
  -- the transaction has one input, and that one is moved
  obtain ⟨i, hinput, -⟩ := List.map_eq_singleton_iff.mp (Option.some.inj hold)
  show inputsOf (L.serializeHex _) = some [point]
  rw [inputsOf_serializeHex]
  · simp only [hinput, List.modifyHead_cons, List.map_cons, List.map_nil]
  · simp only [hinput, List.modifyHead_cons]
    exact List.cons_ne_nil _ _

/-! ### The contract -/

/-- A new quote says of its output what the node has just said. -/
structure Described (C : Service L) (q : DepositQuote) (h : History (Api L)) : Prop where
  txid : ∃ id, q.txid = C.printTxid id
  coin : ∃ coin text, (⟨.getTxOut q.txid q.vout.toNat, .ok (some coin)⟩ : Event (Api L)) ∈ h ∧
    coin.script = some text ∧ C.scriptFromHex text = .ok q.prevOutput.scriptPubkey ∧
    coin.value = .ok (q.credit + q.fee)
  address : C.addressFromScript (bitcoinNetwork C) q.prevOutput.scriptPubkey = .ok q.address

/-- The program knew `K` when the node reported the output unspent, and has only looked since. -/
def Looked (C : Service L) (K : History (Api L) → Prop) (txid : String) (vout : Nat)
    (point : OutPoint) (h : History (Api L)) : Prop :=
  C.parseTxid txid = some point.txid ∧ UInt32.ofNat vout = point.vout ∧
    ∃ pass coin older, h = pass ++ ⟨.getTxOut txid vout, .ok (some coin)⟩ :: older ∧
      (∀ e ∈ pass, Plainly e) ∧ K older

/-- A block has the output, with the script and the amount of the quote. -/
def Listed (q : DepositQuote) (txid : String) (vout : Nat) (h : History (Api L)) : Prop :=
  ∃ hash txs tx outputs output, (⟨.getBlock hash, .ok (some txs)⟩ : Event (Api L)) ∈ h ∧
    tx ∈ txs ∧ tx.vout = some outputs ∧ output ∈ outputs ∧ tx.txid = some txid ∧
    output.n = some vout ∧ output.script = some (hexEncode q.prevOutput.scriptPubkey) ∧
    output.value = .ok (q.credit + q.fee)

/-- The output that the recovery of the claim can spend. -/
def Found (C : Service L) (r : InstantClaim L) (point : OutPoint) (h : History (Api L)) : Prop :=
  ∃ txid vout, Looked C (Known C r) txid vout point h ∧
    (txid = r.quote.deposit.txid ∧ vout = r.quote.deposit.vout.toNat ∨
      Listed r.quote.deposit txid vout h)

/-- The node has accepted the transaction with this text, or has shown it confirmed. -/
def Landed (raw : L.Raw) (h : History (Api L)) : Prop :=
  (∃ claim, (⟨.sendRecovery claim raw, .ok ()⟩ : Event (Api L)) ∈ h) ∨
    ∃ claim tx n, L.deserializeHex raw = .ok tx ∧ 0 < n ∧
      (⟨.getTransaction claim (L.computeTxid tx), .ok (some n)⟩ : Event (Api L)) ∈ h

/-- What is signed for the claim spends what its plan spends. -/
def DepositClaim.SignsPlan (r : DepositClaim L) : Prop :=
  ∀ raw, r.signedSpend = some raw → inputsOf raw = r.plan.spends

@[inherit_doc DepositClaim.SignsPlan]
def InstantClaim.SignsPlan (r : InstantClaim L) : Prop :=
  ∀ raw, r.signedSpend = some raw → inputsOf raw = r.plan.spends

/-- A record of a fixed claim that was made of one that was read. -/
structure Resaved (r r' : DepositClaim L) (h : History (Api L)) : Prop where
  plan : SamePlan r r'
  signed : r.SignsPlan → r'.SignsPlan
  status : r'.status = .succeeded → r.status = .succeeded ∨
    ∃ raw, r'.signedSpend = some raw ∧ Landed raw h

/-- What one write makes of the plan of an instant claim. -/
inductive Tends (C : Service L) (r : InstantClaim L) (h : History (Api L)) :
    InstantClaim L → Prop
  | kept (r' : InstantClaim L) (hid : r'.id = r.id) (hplan : r'.plan = r.plan)
      (hsigned : r'.signedSpend = r.signedSpend)
      (hphase : r'.phase = .recoveryPrepared → r.phase = .recoveryPrepared) : Tends C r h r'
  | frozen (point : OutPoint) (request : SwapRequest L) (hfound : Found C r point h)
      (hfreeze : freezeOutpoint C point r.plan.request = .ok request) :
      Tends C r h { r with plan := { r.plan with request }, phase := .recoveryPrepared }
  | signed (spend : Bitcoin.Transaction)
      (hspend : inputsOf (L.serializeHex spend) = r.plan.spends) :
      Tends C r h { r with signedSpend := some (L.serializeHex spend), phase := .spendTxCreated }

/-- An instant quote is for the network of the service and the address of the output's script, and
the service has signed what it says. -/
structure InstantQuote.Issued (C : Service L) (q : InstantQuote) : Prop where
  network : q.deposit.network = C.network
  address : C.addressFromScript (bitcoinNetwork C) q.deposit.prevOutput.scriptPubkey =
    .ok q.deposit.address
  signature : q.deposit.signature = C.signInstantQuote q.id C.network q.deposit.owner
    q.deposit.txid q.deposit.vout (q.deposit.credit + q.deposit.fee) q.deposit.credit
    q.deposit.expires

def Careful (C : Service L) (h : History (Api L)) : Call L → Prop
  | .db (.saveQuote q) => Described C q h
  | .db (.saveInstantQuote q) => Described C q.deposit h ∧ q.Issued C
  | .db (.insertClaim r) => r.status = .inProgress ∧ r.signedSpend = none ∧
      ∃ txid vout owner point,
        (⟨.db (.depositQuote txid vout owner), .ok (some r.quote)⟩ : Event (Api L)) ∈ h ∧
        Looked C ((guards C).Held .deposits) txid vout.toNat point h ∧
        r.plan.spends = some [point]
  | .db (.saveClaim r') => ∃ r, Read r h ∧ Resaved r r' h
  | .db (.insertInstant r _ _) => r.signedSpend = none ∧
      ∃ id owner point,
        (⟨.db (.instantQuoteById id owner), .ok r.quote⟩ : Event (Api L)) ∈ h ∧
        C.parseTxid r.quote.deposit.txid = some point.txid ∧ r.quote.deposit.vout = point.vout ∧
        r.plan.spends = some [point]
  | .db (.saveInstant r') => ∃ r, Known C r h ∧ Tends C r h r'
  | _ => True

/-- The calls that say nothing of outputs to the tables. -/
def Call.mute : Call L → Bool
  | .db (.saveQuote _) => false
  | .db (.saveInstantQuote _) => false
  | .db (.insertClaim _) => false
  | .db (.saveClaim _) => false
  | .db (.insertInstant ..) => false
  | .db (.saveInstant _) => false
  | _ => true

theorem Call.mute_careful {c : Call L} (hc : c.mute = true) : Careful C h c := by
  cases c with
  | db q =>
      cases q with
      | saveQuote quote => cases hc
      | saveInstantQuote quote => cases hc
      | insertClaim record => cases hc
      | saveClaim record => cases hc
      | insertInstant record maxDeposit limit => cases hc
      | saveInstant record => cases hc
      | _ => trivial
  | _ => trivial

theorem Call.mute_of_level {c : Call L} (hc : c.level = 0) : c.mute = true := by
  cases c with
  | db q =>
      cases q with
      | saveQuote quote => cases hc
      | saveInstantQuote quote => cases hc
      | insertClaim record => cases hc
      | saveClaim record => cases hc
      | insertInstant record maxDeposit limit => cases hc
      | saveInstant record => cases hc
      | _ => rfl
  | _ => rfl

/-! ### Functions that only look -/

/-- An action that obeys the contract. -/
def Cares {α : Type} (C : Service L) (act : Ssp L α) (R : α → History (Api L) → Prop)
    (h : History (Api L)) : Prop := Act.Spec (Careful C) (fun _ => True) act R h

section within

variable {α : Type} {act : Ssp L α}

/-- What an action finds out with its looks. -/
theorem Within.cares_finds (hact : Within 0 act) {R : α → History (Api L) → Prop} (hR : Finds act R [])
    (h : History (Api L)) :
    Cares C act (fun a h' => Extends Plainly h h' ∧ ∃ new, h' = new ++ h ∧ R a new) h := by
  have hspec := Act.Calls.spec_after (P := Careful C) hact
    (fun _ _ hc => Call.mute_careful (Call.mute_of_level (Nat.le_zero.mp hc))) hR h
  apply Act.Spec.mono hspec (fun _ _ => trivial)
  rintro a h' - ⟨new, rfl, hnew, ha⟩
  exact ⟨⟨new, rfl, fun e he => Call.plain_of_level ((hnew e he).trans zero_le_one)⟩, new, rfl, ha⟩

theorem Within.cares (hact : Within 0 act) (h : History (Api L)) :
    Cares C act (fun _ h' => Extends Plainly h h') h := by
  apply (hact.cares_finds (R := fun _ _ => True) _ h).mono (fun _ => id)
  · exact fun _ _ _ hext => hext.1
  · exact hact.spec (fun _ _ _ => trivial) []

end within

/-- The plan of a claim spends what its recovery transaction does. -/
theorem prepareStaticClaim_spends (quote : DepositQuote) (encrypted signature transferId : String)
    (spend : Bitcoin.Transaction) (h : History (Api L)) :
    Finds (prepareStaticClaim C quote encrypted signature transferId spend)
      (fun plan _ => plan.spends = inputsOf (L.serializeHex spend)) h := by
  refine Act.Spec.bind (Act.Spec.ask_eq (I := Api L) (c := .selectLeaves quote.credit) trivial
    fun _ => trivial) ?_
  rintro leaves h₁ - -
  refine Act.Spec.bind Act.Spec.ofExcept_eq ?_
  rintro owner h₂ - -
  refine Act.Spec.bind Act.Spec.ofExcept_eq ?_
  rintro id h₃ - -
  refine Act.Spec.bind (Act.Spec.ask_eq (I := Api L) (c := .prepareTransfer id leaves owner) trivial
    fun _ => trivial) ?_
  rintro transfer h₄ - -
  refine Act.Spec.bind (Act.Spec.ask_eq (I := Api L) (c := .newNonce) trivial fun _ => trivial) ?_
  rintro nonce h₅ - -
  refine Act.Spec.bind Act.Spec.ofExcept_eq ?_
  rintro txid h₆ - -
  refine Act.Spec.bind Act.Spec.ofExcept_eq ?_
  rintro sspSignature h₇ - -
  refine Act.Spec.bind Act.Spec.ofExcept_eq ?_
  rintro userSignature h₈ - -
  refine Act.Spec.bind Act.Spec.ofExcept_eq ?_
  rintro signingPublicKey h₉ - -
  refine Act.Spec.bind Act.Spec.ofExcept_eq ?_
  rintro encryptedKey h₁₀ - -
  exact .pure rfl

/-- The body of a locked action is examined with the lock in its history. -/
theorem locked_cares {α : Type} {l : Lock} {body : Ssp L α} {h : History (Api L)}
    (hbody : Cares C body (fun _ _ => True) (⟨.lock l, ()⟩ :: h)) :
    Cares C (locked l body) (fun _ _ => True) h := by
  apply Act.Spec.bracket (T := fun _ h' => h' = ⟨.lock l, ()⟩ :: h)
  · exact Act.Spec.tell_eq (I := Api L) (c := .lock l) trivial fun _ => trivial
  · rintro h' - rfl
    exact hbody
  · intro h' _
    exact Act.Spec.tell (I := Api L) (c := .unlock l) trivial (fun _ => trivial)
      fun _ _ _ => trivial

/-! ### Quotes -/

/-- The fee and the credit make up the value of the output. -/
theorem checkedSub_add {value fee credit : Nat}
    (h : (checkedSub value fee).filter (330 ≤ ·) = some credit) : credit + fee = value := by
  obtain ⟨hsub, -⟩ := Option.filter_eq_some_iff.mp h
  unfold checkedSub at hsub
  split at hsub
  · obtain rfl := Option.some.inj hsub
    omega
  · cases hsub

/-- What a program has seen of the output that it quotes. -/
structure SeenOutput (C : Service L) (txid : String) (vout : UInt32) (value : Nat)
    (script : Script) (address : String) (h : History (Api L)) : Prop where
  printed : ∃ id, txid = C.printTxid id
  coin : ∃ coin text, (⟨.getTxOut txid vout.toNat, .ok (some coin)⟩ : Event (Api L)) ∈ h ∧
    coin.script = some text ∧ C.scriptFromHex text = .ok script ∧ coin.value = .ok value
  address : C.addressFromScript (bitcoinNetwork C) script = .ok address

/-- What the node has said of an output is not taken back by later calls. -/
theorem SeenOutput.mono {txid : String} {vout : UInt32} {value : Nat} {script : Script}
    {address : String} (hs : SeenOutput C txid vout value script address h)
    (hmem : ∀ e ∈ h, e ∈ h') : SeenOutput C txid vout value script address h' := by
  obtain ⟨coin, text, hcoin, hrest⟩ := hs.coin
  exact ⟨hs.printed, ⟨coin, text, hmem _ hcoin, hrest⟩, hs.address⟩

/-- The quote is about the output that was seen. -/
theorem SeenOutput.described {q : DepositQuote} {script : Script}
    (hs : SeenOutput C q.txid q.vout (q.credit + q.fee) script q.address h)
    (hscript : q.prevOutput.scriptPubkey = script) : Described C q h := by
  subst hscript
  obtain ⟨coin, text, hcoin, hscript, hparse, hvalue⟩ := hs.coin
  exact ⟨hs.printed, ⟨coin, text, hcoin, hscript, hparse, hvalue⟩, hs.address⟩

/-- The quote that is stored repeats what the node said of the output. -/
theorem newQuote_cares {owner txid : String} {vout : UInt32} {value : Nat} {script : Script}
    {address : String} {deposit : DepositAddress}
    (hs : SeenOutput C txid vout value script address h) :
    Cares C (newQuote C owner txid vout value script address deposit) (fun _ _ => True) h := by
  refine Act.Spec.bind (feeRate_within.cares h) fun rate h₁ _ he₁ => ?_
  refine Act.Spec.bind Act.Spec.ofExcept_eq ?_
  rintro fee h₂ - ⟨-, rfl⟩
  refine Act.Spec.bind Act.Spec.ofExcept_eq ?_
  rintro credit h₃ - ⟨hcredit, rfl⟩
  obtain rfl := checkedSub_add (okOr_eq_ok.mp hcredit)
  refine Act.Spec.bind ((tell_within (c := .now) rfl).cares _) fun now h₄ _ he₄ => ?_
  refine Act.Spec.bind (R := fun _ _ => True) ?_ fun _ _ _ _ => .pure trivial
  refine .ask ?_ (fun _ => trivial) fun _ _ _ => trivial
  exact (hs.mono fun e he => he₄.mem (he₁.mem he)).described rfl

/-- The text of the output's transaction is a printed id. -/
theorem outpoint_printed {input : OutputInput} {point : String × UInt32}
    (h : outpoint C input = .ok point) : ∃ id, point.1 = C.printTxid id := by
  obtain ⟨text, -, h⟩ := bind_ok h
  obtain ⟨txid, -, h⟩ := bind_ok h
  obtain ⟨index, -, h⟩ := bind_ok h
  obtain ⟨-, h⟩ := guard_ok h
  obtain rfl := Except.ok.inj h
  exact ⟨txid, rfl⟩

/-- The output is looked up, and its quote made, under one lock. -/
theorem quoteOutput_cares {owner txid : String} {vout : UInt32}
    (hid : ∃ id, txid = C.printTxid id) (h : History (Api L)) :
    Cares C (quoteOutput C owner txid vout) (fun _ _ => True) h := by
  refine Act.Spec.bind ((look_within (c := .db (.depositClaim txid vout)) rfl).cares h)
    fun claimed h₁ _ _ => ?_
  rcases claimed with - | claimed
  · refine Act.Spec.bind (Act.Spec.ask_eq (I := Api L) (c := .getTxOut txid vout.toNat) trivial
      fun _ => trivial) ?_
    rintro found h₂ - ⟨r, hr, rfl⟩
    obtain rfl : r = .ok found := hr
    refine Act.Spec.bind Act.Spec.ofExcept_eq ?_
    rintro coin h₃ - ⟨hcoin, rfl⟩
    obtain ⟨rfl, -⟩ := Option.filter_eq_some_iff.mp (okOr_eq_ok.mp hcoin)
    refine Act.Spec.bind Act.Spec.ofExcept_eq ?_
    rintro value h₄ - ⟨hvalue, rfl⟩
    refine Act.Spec.bind Act.Spec.ofExcept_eq ?_
    rintro hex h₅ - ⟨hhex, rfl⟩
    refine Act.Spec.bind Act.Spec.ofExcept_eq ?_
    rintro script h₆ - ⟨hscript, rfl⟩
    refine Act.Spec.bind Act.Spec.ofExcept_eq ?_
    rintro address h₇ - ⟨haddress, rfl⟩
    refine Act.Spec.bind ((staticDepositAddress_within owner address).cares _)
      fun deposit h₈ _ he₈ => ?_
    refine Act.Spec.bind ((look_within (c := .db (.depositQuote txid vout owner)) rfl).cares _)
      fun old h₉ _ he₉ => ?_
    rcases old with - | old
    · apply newQuote_cares
      refine ⟨hid, ⟨coin, hex, ?_, okOr_eq_ok.mp hhex, hscript, hvalue⟩, ?_⟩
      · exact he₉.mem (he₈.mem List.mem_cons_self)
      · rcases hread : C.addressFromScript (bitcoinNetwork C) script with e | text
        · rw [hread] at haddress
          cases haddress
        · rw [hread] at haddress
          rw [Except.ok.inj haddress]
    · exact .pure trivial
  · exact .guard fun _ => .pure trivial

theorem quote_cares (owner : String) (input : OutputInput) (h : History (Api L)) :
    Cares C (quote C owner input) (fun _ _ => True) h := by
  refine Act.Spec.bind Act.Spec.ofExcept_eq ?_
  rintro _ h₁ - -
  refine Act.Spec.bind Act.Spec.ofExcept_eq ?_
  rintro point h₂ - ⟨hpoint, -⟩
  exact locked_cares (quoteOutput_cares (outpoint_printed hpoint) _)

/-- The credit and the fee of an instant quote make up the value of the coin. -/
theorem newInstantQuote_cares {owner txid : String} {vout : UInt32} {value : Nat} {script : Script}
    {address : String} {metadata : DepositAddress}
    (hs : SeenOutput C txid vout value script address h) :
    Cares C (newInstantQuote C owner txid vout value script address metadata)
      (fun _ _ => True) h := by
  refine Act.Spec.bind (feeRate_within.cares h) fun rate h₁ _ he₁ => ?_
  refine Act.Spec.bind Act.Spec.ofExcept_eq ?_
  rintro fee h₂ - ⟨-, rfl⟩
  refine Act.Spec.bind Act.Spec.ofExcept_eq ?_
  rintro credit h₃ - ⟨hcredit, rfl⟩
  obtain rfl := checkedSub_add (okOr_eq_ok.mp hcredit)
  have houtstanding : Within 0 (db (L := L) .instantOutstanding) := look_within rfl
  refine Act.Spec.bind (houtstanding.cares _) fun outstanding h₄ _ he₄ => ?_
  refine Act.Spec.bind Act.Spec.ofExcept_eq ?_
  rintro _ h₅ - ⟨-, rfl⟩
  have hcount : Within 0 (getBlockCount (L := L)) := look_within rfl
  refine Act.Spec.bind (hcount.cares _) fun height h₆ _ he₆ => ?_
  refine Act.Spec.bind ((tell_within (c := .newUuid) rfl).cares _) fun uuid h₇ _ he₇ => ?_
  refine Act.Spec.bind ((tell_within (c := .now) rfl).cares _) fun now h₈ _ he₈ => ?_
  refine Act.Spec.bind (R := fun _ _ => True) ?_ fun _ _ _ _ => .pure trivial
  refine .ask ?_ (fun _ => trivial) fun _ _ _ => trivial
  have hlook := he₁.trans (he₄.trans (he₆.trans (he₇.trans he₈)))
  exact ⟨SeenOutput.described (hs.mono fun e he => hlook.mem he) rfl, rfl, hs.address, rfl⟩

/-- An unconfirmed output is looked up like a confirmed one. -/
theorem instantQuoteOutput_cares {owner txid : String} {vout : UInt32}
    (hid : ∃ id, txid = C.printTxid id) (h : History (Api L)) :
    Cares C (instantQuoteOutput C owner txid vout) (fun _ _ => True) h := by
  refine Act.Spec.bind ((look_within (c := .db (.instantClaimFor txid vout owner)) rfl).cares h)
    fun existing h₁ _ _ => ?_
  rcases existing with - | record
  · refine Act.Spec.bind Act.Spec.ofExcept_eq ?_
    rintro _ h₂ - -
    refine Act.Spec.bind (Act.Spec.ask_eq (I := Api L) (c := .getTxOut txid vout.toNat) trivial
      fun _ => trivial) ?_
    -- the reply that the quote's value and script are read off
    rintro found h₃ - ⟨r, hr, rfl⟩
    obtain rfl : r = .ok found := hr
    refine Act.Spec.bind Act.Spec.ofExcept_eq ?_
    rintro coin h₄ - ⟨hcoin, rfl⟩
    obtain rfl := okOr_eq_ok.mp hcoin
    refine Act.Spec.bind Act.Spec.ofExcept_eq ?_
    rintro value h₅ - ⟨hvalue, rfl⟩
    refine Act.Spec.bind Act.Spec.ofExcept_eq ?_
    rintro _ h₆ - ⟨-, rfl⟩
    refine Act.Spec.bind ((checkAncestors_within txid coin).cares _) fun _ h₇ _ he₇ => ?_
    refine Act.Spec.bind Act.Spec.ofExcept_eq ?_
    rintro hex h₈ - ⟨hhex, rfl⟩
    refine Act.Spec.bind Act.Spec.ofExcept_eq ?_
    rintro script h₉ - ⟨hscript, rfl⟩
    refine Act.Spec.bind Act.Spec.ofExcept_eq ?_
    rintro address h₁₀ - ⟨haddress, rfl⟩
    refine Act.Spec.bind ((staticDepositAddress_within owner address).cares _)
      fun metadata h₁₁ _ he₁₁ => ?_
    refine Act.Spec.bind ((look_within (c := .db (.depositClaimed txid vout)) rfl).cares _)
      fun claimed h₁₂ _ he₁₂ => ?_
    refine .guard fun _ => ?_
    refine Act.Spec.bind ((look_within (c := .db (.instantQuote txid vout owner)) rfl).cares _)
      fun old h₁₃ _ he₁₃ => ?_
    rcases old with - | old
    · -- between this reply and the quote everything only looks
      have hlook := he₇.trans (he₁₁.trans (he₁₂.trans he₁₃))
      refine Act.Spec.bind (newInstantQuote_cares ⟨hid, ⟨coin, hex, hlook.mem List.mem_cons_self,
        okOr_eq_ok.mp hhex, hscript, hvalue⟩, haddress⟩) fun _ _ _ _ => .pure trivial
    · exact .pure trivial
  · exact .pure trivial

theorem instantQuote_cares (owner : String) (input : OutputInput) (h : History (Api L)) :
    Cares C (instantQuote C owner input) (fun _ _ => True) h := by
  refine Act.Spec.bind Act.Spec.ofExcept_eq ?_
  rintro _ h₁ - -
  refine Act.Spec.bind Act.Spec.ofExcept_eq ?_
  rintro point h₂ - ⟨hpoint, -⟩
  exact locked_cares (instantQuoteOutput_cares (outpoint_printed hpoint) _)

/-! ### Fixed claims -/

/-- The record was made of one that the program has read. -/
def Follows (r : DepositClaim L) (h : History (Api L)) : Prop :=
  ∃ r₀, Read r₀ h ∧ Resaved r₀ r h

/-- What has landed has landed for good. -/
theorem Landed.mono {raw : L.Raw} (hl : Landed raw h) (hmem : ∀ e ∈ h, e ∈ h') :
    Landed raw h' := by
  rcases hl with ⟨claim, he⟩ | ⟨claim, tx, n, htx, hn, he⟩
  · exact .inl ⟨claim, hmem _ he⟩
  · exact .inr ⟨claim, tx, n, htx, hn, hmem _ he⟩

/-- The ground of a write is still one when more has happened. -/
theorem Resaved.mono {r r' : DepositClaim L} (hr : Resaved r r' h) (hmem : ∀ e ∈ h, e ∈ h') :
    Resaved r r' h' where
  plan := hr.plan
  signed := hr.signed
  status hdone := (hr.status hdone).imp_right fun ⟨raw, hraw, hl⟩ => ⟨raw, hraw, hl.mono hmem⟩

/-- The same of a record that was made of a stored one. -/
theorem Follows.mono {r : DepositClaim L} (hr : Follows r h) (hmem : ∀ e ∈ h, e ∈ h') :
    Follows r h' := by
  obtain ⟨r₀, hread, hsaved⟩ := hr
  exact ⟨r₀, hread.mono hmem, hsaved.mono hmem⟩

/-- A record that was read follows itself. -/
theorem Read.follows {r : DepositClaim L} (hr : Read r h) : Follows r h :=
  ⟨r, hr, .refl r, id, .inl⟩

/-- Once its transaction has landed the claim may succeed. -/
theorem Follows.lands {r : DepositClaim L} (hr : Follows r h) {raw : L.Raw}
    (hraw : r.signedSpend = some raw) (hl : Landed raw h) (phase : Phase) :
    Follows { r with status := .succeeded, phase } h := by
  obtain ⟨r₀, hread, hsaved⟩ := hr
  refine ⟨r₀, hread, ⟨hsaved.plan.id, hsaved.plan.quote, hsaved.plan.transferId,
    hsaved.plan.plan⟩, hsaved.signed, fun _ => .inr ⟨raw, hraw, hl⟩⟩

/-- A record is written on the ground that it was made of a stored one. -/
theorem saveClaim_cares {r : DepositClaim L} (hr : Follows r h) :
    Cares C (db (.saveClaim r)) (fun _ h' => Follows r h') h :=
  .ask hr (fun _ => trivial) fun _ _ _ => hr.mono fun _ => List.mem_cons_of_mem _

/-- What is signed for a plan spends what the plan spends. -/
theorem submitStaticClaim_cares (quote : DepositQuote) (transferId : String) (plan : StaticPlan L)
    (instant : Bool) (h : History (Api L)) :
    Cares C (submitStaticClaim C quote transferId plan instant) (fun spend h' =>
      Extends Still h h' ∧ inputsOf (L.serializeHex spend) = plan.spends) h := by
  refine Act.Spec.bind Act.Spec.ofExcept_eq ?_
  rintro job h₁ - ⟨hjob, rfl⟩
  have hrequest : Cares C (requestSigning plan job transferId instant)
      (fun _ h' => Extends Still h₁ h') h₁ := by
    apply Act.Spec.ite
    · exact fun _ => .ask trivial (fun _ => trivial) fun _ _ _ => .one rfl
    · exact fun _ => .ask trivial (fun _ => trivial) fun _ _ _ => .one rfl
  refine Act.Spec.bind hrequest fun response h₂ _ he₂ => ?_
  refine Act.Spec.bind Act.Spec.ofExcept_eq ?_
  rintro transfer h₃ - ⟨-, rfl⟩
  refine Act.Spec.bind Act.Spec.ofExcept_eq ?_
  rintro _ h₄ - ⟨-, rfl⟩
  refine Act.Spec.bind Act.Spec.ofExcept_eq ?_
  rintro result h₅ - ⟨-, rfl⟩
  refine Act.Spec.bind Act.Spec.ofExcept_eq ?_
  rintro spend h₆ - ⟨hspend, rfl⟩
  refine Act.Spec.bind (Act.Spec.ask_eq (I := Api L) (c := .signRecovery plan spend result)
    trivial fun _ => trivial) ?_
  rintro signature h₇ - ⟨r, -, rfl⟩
  apply Act.Spec.guard
  intro _
  rcases hinput : spend.input with - | ⟨first, others⟩
  · exact .throw
  · refine .pure ⟨he₂.cons rfl, ?_⟩
    rw [StaticPlan.spends, SwapRequest.spends, okOr_eq_ok.mp hjob, Option.bind_some,
      inputsOf_ok hspend, inputsOf_serializeHex (List.cons_ne_nil _ _), hinput]
    rfl

/-- The spend that is signed is the one of the plan. -/
theorem signSpend_cares {record : DepositClaim L} (hr : Follows record h) :
    Cares C (signSpend C record) Follows h := by
  apply Act.Spec.ite
  · exact fun _ => .pure hr
  · intro _
    refine Act.Spec.bind (submitStaticClaim_cares record.quote record.transferId record.plan false
      h) ?_
    rintro raw h₁ - ⟨he₁, hspends⟩
    obtain ⟨r₀, hread, hsaved⟩ := hr
    have hsigned : Follows { record with
        signedSpend := some (L.serializeHex raw), phase := .spendTxCreated } h₁ := by
      refine ⟨r₀, hread.mono fun _ => he₁.mem, ⟨hsaved.plan.id, hsaved.plan.quote,
        hsaved.plan.transferId, hsaved.plan.plan⟩, fun _ => ?_, fun hdone => ?_⟩
      · intro raw' hraw'
        obtain rfl := Option.some.inj hraw'
        exact hspends
      · -- nothing was signed for a claim that has succeeded
        rcases hsaved.status hdone with hdone | ⟨raw', hraw', -⟩
        · exact .inl hdone
        · exact absurd (hraw' ▸ rfl : record.signedSpend.isSome = true) ‹_›
    exact Act.Spec.bind (saveClaim_cares hsigned) fun _ h₂ _ hr₂ => .pure hr₂

/-- The status becomes final only when the spend has landed. -/
theorem advance_cares {record : DepositClaim L} (hr : Follows record h) :
    Cares C (advance C record) (fun _ _ => True) h := by
  apply Act.Spec.ite
  · exact fun _ => .pure trivial
  · intro _
    refine Act.Spec.bind (signSpend_cares hr) fun record h₁ _ hr => ?_
    refine Act.Spec.bind Act.Spec.ofExcept_eq ?_
    rintro raw h₂ - ⟨hraw, rfl⟩
    have hraw := okOr_eq_ok.mp hraw
    refine Act.Spec.bind Act.Spec.ofExcept_eq ?_
    rintro tx h₃ - ⟨htx, rfl⟩
    have hobserve : Within 0 (getTransaction (L := L) (.fixed record.id) (L.computeTxid tx)) :=
      look_within rfl
    -- what is known of the confirmations was answered by this look
    have hfinds : Finds (Act.attempt (getTransaction (.fixed record.id) (L.computeTxid tx)))
        (fun observed h' => ∀ depth : Int, 0 < depth →
          depth ≤ (observed.toOption.bind id).getD 0 →
          Seen h' (.fixed record.id) depth record.signedSpend) [] :=
      (getTransaction_obeys (.fixed record.id) hraw htx []).contract fun _ _ _ => trivial
    refine Act.Spec.bind (hobserve.attempt.cares_finds hfinds _) ?_
    rintro observed h₄ - ⟨he₄, new, rfl, hseen⟩
    have hr₄ := hr.mono fun _ => he₄.mem
    apply Act.Spec.ite
    · intro hconfirmed
      obtain ⟨raw', tx', n, hraw', htx', hn, hmem⟩ :=
        hseen 1 one_pos (Int.add_one_le_of_lt (of_decide_eq_true hconfirmed))
      obtain rfl := Option.some.inj (hraw.symm.trans hraw')
      -- the node has seen the recovery confirmed
      have hlanded : Landed raw (new ++ h₃) :=
        .inr ⟨_, tx', n, htx', lt_of_lt_of_le one_pos hn, List.mem_append_left _ hmem⟩
      exact Act.Spec.bind (saveClaim_cares (hr₄.lands hraw hlanded _)) fun _ _ _ _ => .pure trivial
    · intro _
      refine Act.Spec.bind (Act.Spec.ask_eq (I := Api L) (c := .sendRecovery (.fixed record.id) raw)
        trivial fun _ => trivial) ?_
      rintro ⟨⟩ h₅ - ⟨r, hr, rfl⟩
      obtain rfl : r = .ok () := hr
      have hr₅ := hr₄.mono fun e he =>
        List.mem_cons_of_mem (⟨.sendRecovery (.fixed record.id) raw, .ok ()⟩ : Event (Api L)) he
      -- the node has taken the broadcast
      have hlanded := hr₅.lands hraw (.inl ⟨_, List.mem_cons_self⟩) .spendTxBroadcast
      exact Act.Spec.bind (saveClaim_cares hlanded) fun _ _ _ _ => .pure trivial

/-- A plain action right after the node's report. -/
theorem Looked.of_extends {K : History (Api L) → Prop} {txid : String} {vout : Nat}
    {point : OutPoint} {coin : Coin} (htxid : C.parseTxid txid = some point.txid)
    (hvout : UInt32.ofNat vout = point.vout) (hK : K h)
    (he : Extends Plainly (⟨.getTxOut txid vout, .ok (some coin)⟩ :: h) h') :
    Looked C K txid vout point h' := by
  obtain ⟨pass, rfl, hpass⟩ := he
  exact ⟨htxid, hvout, pass, coin, h, rfl, hpass, hK⟩

/-- The plan spends the output that was looked up under the lock, after its quote was read. -/
theorem newClaim_cares (owner txid : String) (vout : UInt32) (input : ClaimInput)
    (hh : (guards C).Held .deposits h) :
    Cares C (newClaim C owner txid vout input) (fun _ _ => True) h := by
  refine Act.Spec.bind (Act.Spec.ask_eq (I := Api L) (c := .db (.depositQuote txid vout owner))
    trivial fun _ => trivial) ?_
  rintro found h₁ - ⟨r, hr, rfl⟩
  obtain rfl : r = .ok found := hr
  refine Act.Spec.bind Act.Spec.ofExcept_eq ?_
  rintro quote h₂ - ⟨hquote, rfl⟩
  obtain rfl := okOr_eq_ok.mp hquote
  have hheld : (guards C).Held .deposits
      ((⟨.db (.depositQuote txid vout owner), .ok (some quote)⟩ : Event (Api L)) :: h) :=
    hh.cons nofun
  refine .guard fun _ => ?_
  refine Act.Spec.bind Act.Spec.ofExcept_eq ?_
  rintro encrypted h₃ - ⟨-, rfl⟩
  refine Act.Spec.bind Act.Spec.ofExcept_eq ?_
  rintro signature h₄ - ⟨-, rfl⟩
  refine Act.Spec.bind Act.Spec.ofExcept_eq ?_
  rintro _ h₅ - ⟨-, rfl⟩
  refine Act.Spec.bind (Act.Spec.ask_eq (I := Api L) (c := .getTxOut txid vout.toNat) trivial
    fun _ => trivial) ?_
  rintro unspent h₆ - ⟨r, hr, rfl⟩
  obtain rfl : r = .ok unspent := hr
  -- the guard asks for three confirmations, so the output was found
  refine .guard fun hdeep => ?_
  rcases unspent with - | coin
  · exact absurd (by simp : ¬ ((none : Option Coin).any fun coin =>
      3 ≤ coin.confirmations.getD 0) = true) hdeep
  -- from here to the insert everything only looks
  have haddress : Within 0 (bitcoinChangeAddress (L := L)) := look_within rfl
  refine Act.Spec.bind (haddress.cares _) fun destination h₇ _ he₇ => ?_
  refine Act.Spec.bind Act.Spec.ofExcept_eq ?_
  rintro parsed h₈ - ⟨hparsed, rfl⟩
  refine Act.Spec.bind ((tell_within (c := .newUuid) rfl).cares _) fun transfer h₉ _ he₉ => ?_
  refine Act.Spec.bind ((prepareStaticClaim_within quote encrypted signature transfer.print
    _).cares_finds (prepareStaticClaim_spends _ _ _ _ _ []) h₉) ?_
  rintro plan h₁₀ - ⟨he₁₀, -, -, hspends⟩
  refine Act.Spec.bind ((tell_within (c := .newUuid) rfl).cares _) fun id h₁₁ _ he₁₁ => ?_
  have hlook := he₇.trans (he₉.trans (he₁₀.trans he₁₁))
  refine Act.Spec.bind (Act.Spec.ask_eq (I := Api L) (c := .db (.insertClaim _)) ?_
    fun _ => trivial) ?_
  · -- read with its quote, looked up under the lock, and spent by the plan
    refine ⟨rfl, rfl, txid, vout, owner, ⟨parsed, vout⟩, ?_, ?_, ?_⟩
    · exact hlook.mem (List.mem_cons_of_mem _ List.mem_cons_self)
    · exact Looked.of_extends (okOr_eq_ok.mp hparsed) UInt32.ofNat_toNat hheld hlook
    · exact hspends.trans (inputsOf_recovery _ _ _)
  · rintro ⟨⟩ h₁₂ - ⟨r, hr, rfl⟩
    obtain rfl : r = .ok () := hr
    refine Act.Spec.bind (advance_cares (Read.follows ⟨_, List.mem_cons_self, .inserted⟩)) ?_
    exact fun _ _ _ _ => .pure trivial

/-- A claim that was entered before is advanced, and no second one is made. -/
theorem claim_cares (owner : String) (input : ClaimInput) (h : History (Api L)) :
    Cares C (claim C owner input) (fun _ _ => True) h := by
  refine Act.Spec.bind Act.Spec.ofExcept_eq ?_
  rintro _ h₁ - -
  refine Act.Spec.bind Act.Spec.ofExcept_eq ?_
  rintro point h₂ - -
  apply locked_cares
  apply locked_cares
  have hheld : (guards C).Held .deposits
      (⟨.lock .liquidity, ()⟩ :: ⟨.lock .deposits, ()⟩ :: h₂) := (held_locked h₂).cons nofun
  refine Act.Spec.bind (Act.Spec.ask_eq (I := Api L)
    (c := .db (.ownDepositClaim point.1 point.2 owner)) trivial fun _ => trivial) ?_
  rintro existing h₃ - ⟨r, hr, rfl⟩
  obtain rfl : r = .ok existing := hr
  rcases existing with - | record
  · exact newClaim_cares owner point.1 point.2 input (hheld.cons nofun)
  · refine .guard fun _ => ?_
    refine Act.Spec.bind (advance_cares (Read.follows ⟨_, List.mem_cons_self, .own _ _ _⟩)) ?_
    exact fun _ _ _ _ => .pure trivial

/-- Recovery writes what a new claim would, and its error at most. -/
theorem recover_cares {record : DepositClaim L} (hr : Follows record h) :
    Cares C (recover C record) (fun _ _ => True) h := by
  refine Act.Spec.bind (advance_cares hr).attempt fun outcome h₁ _ _ => ?_
  rcases outcome with e | record
  · have herror : Within 0 (db (L := L) (.claimError record.id e)) := look_within rfl
    exact Act.Spec.bind (herror.attempt.cares h₁) fun _ _ _ _ => .pure trivial
  · exact .pure trivial

/-- One record after the other, each as it was read. -/
theorem pass_cares (h : History (Api L)) : Cares C (pass C) (fun _ _ => True) h := by
  apply locked_cares
  have hpending : Cares C (db .pendingClaims) (fun records h' =>
      ∃ e ∈ h', ∀ r ∈ records, ShowsFixed r e) (⟨.lock .deposits, ()⟩ :: h) := by
    apply Act.Spec.ask (I := Api L) trivial fun _ => trivial
    rintro r records rfl
    exact ⟨_, List.mem_cons_self, fun r hr => .pending records hr⟩
  refine Act.Spec.bind hpending.attempt fun outcome h₁ _ hread => ?_
  rcases outcome with e | records
  · exact .pure trivial
  · obtain ⟨e, he, hshows⟩ := hread records rfl
    apply Act.Spec.forEach (K := fun r h' => Read r h')
    · intro record hmem h₂ _ hr
      exact locked_cares (recover_cares (hr.mono fun _ => List.mem_cons_of_mem _).follows)
    · exact fun record hmem h₂ he₂ => ⟨e, he₂.mem he, hshows record hmem⟩

/-! ### Replacements -/

/-- The newest event is the node's report of this output. -/
def JustSeen (C : Service L) (txid : String) (vout : Nat) (point : OutPoint)
    (h : History (Api L)) : Prop :=
  C.parseTxid txid = some point.txid ∧ UInt32.ofNat vout = point.vout ∧
    ∃ coin older, h = ⟨.getTxOut txid vout, .ok (some coin)⟩ :: older

/-- The transaction has the output, with the script and the amount of the quote. -/
def Matching (q : DepositQuote) (tx : BlockTx) (txid : String) (vout : Nat) : Prop :=
  ∃ outputs output, tx.vout = some outputs ∧ output ∈ outputs ∧ tx.txid = some txid ∧
    output.n = some vout ∧ output.script = some (hexEncode q.prevOutput.scriptPubkey) ∧
    output.value = .ok (q.credit + q.fee)

variable {q : DepositQuote}

/-- An output that matches was just seen unspent. -/
theorem matchOutput_spots (tx : BlockTx) {outputs : List BlockOutput} (houtputs : tx.vout = some outputs)
    {output : BlockOutput} (hmem : output ∈ outputs) (h : History (Api L)) :
    Finds (matchOutput C q tx output) (fun found h' => ∀ point, found = some point →
      ∃ txid vout, JustSeen C txid vout point h' ∧ Matching q tx txid vout) h := by
  apply Act.Spec.ite
  · exact fun _ => .pure nofun
  · intro hscript
    have hscript := beq_iff_eq.mp (not_not.mp hscript)
    refine Act.Spec.bind Act.Spec.ofExcept_eq ?_
    rintro value h₁ - ⟨hvalue, rfl⟩
    apply Act.Spec.ite
    · exact fun _ => .pure nofun
    · intro hamount
      obtain rfl := not_not.mp hamount
      refine Act.Spec.bind Act.Spec.ofExcept_eq ?_
      rintro txid h₂ - ⟨htxid, rfl⟩
      refine Act.Spec.bind Act.Spec.ofExcept_eq ?_
      rintro vout h₃ - ⟨hvout, rfl⟩
      refine Act.Spec.bind (Act.Spec.ask_eq (I := Api L) (c := .getTxOut txid vout) trivial
        fun _ => trivial) ?_
      rintro unspent h₄ - ⟨r, hr, rfl⟩
      obtain rfl : r = .ok unspent := hr
      rcases unspent with - | coin
      · exact .pure nofun
      · refine Act.Spec.bind Act.Spec.ofExcept_eq ?_
        rintro parsed h₅ - ⟨hparsed, rfl⟩
        refine .pure fun point hpoint => ?_
        obtain rfl := Option.some.inj hpoint
        exact ⟨txid, vout, ⟨okOr_eq_ok.mp hparsed, rfl, coin, _, rfl⟩, outputs, output, houtputs,
          hmem, okOr_eq_ok.mp htxid, okOr_eq_ok.mp hvout, hscript, hvalue⟩

/-- What a search of a block finds is in the block, and was unspent at last. -/
theorem searchBlock_spots (height : Nat) (h : History (Api L)) :
    Finds (searchBlock C q height) (fun found h' => ∀ point, found = some point →
      ∃ txid vout, JustSeen C txid vout point h' ∧ Listed q txid vout h') h := by
  refine Act.Spec.bind (Act.Spec.ask_eq (I := Api L) (c := .getBlockHash height) trivial
    fun _ => trivial) ?_
  rintro hash h₁ - -
  refine Act.Spec.bind (Act.Spec.ask_eq (I := Api L) (c := .getBlock hash) trivial
    fun _ => trivial) ?_
  rintro block h₂ - ⟨r, hr, rfl⟩
  obtain rfl : r = .ok block := hr
  refine Act.Spec.bind Act.Spec.ofExcept_eq ?_
  rintro txs h₃ - ⟨htxs, rfl⟩
  obtain rfl := okOr_eq_ok.mp htxs
  refine Act.Spec.mono (Act.Spec.firstSome (K := fun _ _ => True) (S := fun point h' =>
    ∃ tx ∈ txs, ∃ txid vout, JustSeen C txid vout point h' ∧ Matching q tx txid vout) ?_ ?_)
    (fun _ => id) ?_
  · intro tx htx h₄
    refine Act.Spec.bind Act.Spec.ofExcept_eq ?_
    rintro outputs h₅ - ⟨houtputs, rfl⟩
    refine Act.Spec.mono (Act.Spec.firstSome (K := fun _ _ => True) (S := fun point h' =>
      ∃ txid vout, JustSeen C txid vout point h' ∧ Matching q tx txid vout) ?_ ?_)
      (fun _ => id) ?_
    · intro output hmem h₆
      have hspots := matchOutput_spots (C := C) (q := q) tx (okOr_eq_ok.mp houtputs) hmem h₆
      exact hspots.mono (fun _ => id) fun _ _ _ hfound => ⟨fun _ => trivial, hfound⟩
    · exact fun _ _ _ _ => id
    · exact fun _ _ _ ⟨_, hfound⟩ => ⟨fun _ => trivial, fun point hp => ⟨tx, htx, hfound point hp⟩⟩
  · exact fun _ _ _ _ => id
  · rintro found h₄ he ⟨-, hfound⟩ point hpoint
    obtain ⟨tx, htx, txid, vout, hseen, outputs, output, houtputs, hmem, hmatch⟩ :=
      hfound point hpoint
    -- the block itself is what lists the transaction
    have hblock : (⟨.getBlock hash, .ok (some txs)⟩ : Event (Api L)) ∈ h₄ :=
      he.mem List.mem_cons_self
    exact ⟨txid, vout, hseen, hash, txs, tx, outputs, output, hblock, htx, houtputs, hmem, hmatch⟩

/-! ### Instant claims -/

/-- A block that was read once has been read. -/
theorem Listed.mono {txid : String} {vout : Nat} (hl : Listed q txid vout h)
    (hmem : ∀ e ∈ h, e ∈ h') : Listed q txid vout h' := by
  obtain ⟨hash, txs, tx, outputs, output, hblock, hrest⟩ := hl
  exact ⟨hash, txs, tx, outputs, output, hmem _ hblock, hrest⟩

variable {r : InstantClaim L}

/-- The record that was written is known from then on. -/
theorem saveInstant_cares {r r' : InstantClaim L} (hk : Known C r h) (ht : Tends C r h r') :
    Cares C (db (.saveInstant r')) (fun _ h' => Known C r' h') h := by
  apply Act.Spec.ask (I := Api L) (c := .db (.saveInstant r')) ⟨r, hk, ht⟩ fun _ => trivial
  rintro reply ⟨⟩ hreply
  obtain rfl : reply = .ok () := hreply
  exact .shows .saved hk.locked nofun

/-- The credit is paid out before the plan can be frozen. -/
theorem payInstant_cares (hk : Known C r h) :
    Cares C (payInstant C r) (fun r' h' => Known C r' h') h := by
  apply Act.Spec.ite
  · intro _
    have hreserve : Cares C (submitInstantReserve C r.quote.deposit r.transferId r.plan)
        (fun _ h' => Extends Still h h') h := by
      refine Act.Spec.bind (Act.Spec.ask_eq (I := Api L)
        (c := .reserveInstant r.quote.deposit r.plan.request) trivial fun _ => trivial) ?_
      rintro reply h₁ - ⟨_, -, rfl⟩
      refine Act.Spec.bind Act.Spec.ofExcept_eq ?_
      rintro transfer h₂ - ⟨-, rfl⟩
      refine .guard fun _ => ?_
      exact .ofExcept fun _ _ => .one rfl
    refine Act.Spec.bind hreserve fun _ h₁ _ he => ?_
    refine Act.Spec.bind (saveInstant_cares (hk.after he) (.kept _ rfl rfl rfl (by exact nofun)))
      fun _ h₂ _ hk₂ => ?_
    exact .pure hk₂
  · exact fun _ => .pure hk

/-- A replacement has been found in a block, and is unspent. -/
theorem searchReplacement_cares (hk : Known C r h) :
    Cares C (searchReplacement C r) (fun found h' => ∀ point, found.1 = some point →
      found.2 = r ∧ Known C r h' ∧ Found C r point h') h := by
  have hcount : Within 0 (getBlockCount (L := L)) := look_within rfl
  refine Act.Spec.bind (hcount.cares h) fun tip h₁ _ he₁ => ?_
  have hk₁ := hk.after (still_of_plainly he₁)
  have hsearch := Act.Calls.firstSome (searchBlock_within (C := C) (n := 0) r.quote.deposit)
    (List.range' (scanRange r.scanHeight tip).1
      ((scanRange r.scanHeight tip).2 + 1 - (scanRange r.scanHeight tip).1))
  have hfinds : Finds (Act.firstSome (searchBlock C r.quote.deposit)
      (List.range' (scanRange r.scanHeight tip).1
        ((scanRange r.scanHeight tip).2 + 1 - (scanRange r.scanHeight tip).1))) _ [] :=
    Act.Spec.firstSome (K := fun _ _ => True) (S := fun point h' => ∃ txid vout,
      JustSeen C txid vout point h' ∧ Listed r.quote.deposit txid vout h')
      (fun height _ h' => (searchBlock_spots height h').mono (fun _ => id)
        fun _ _ _ hfound => ⟨fun _ => trivial, hfound⟩)
      (fun _ _ _ _ => id)
  refine Act.Spec.bind (Within.cares_finds hsearch hfinds h₁) ?_
  rintro found h₂ - ⟨he₂, new, rfl, -, hfound⟩
  rcases found with - | point
  · have hk₂ := hk₁.after (still_of_plainly he₂)
    refine Act.Spec.bind (saveInstant_cares hk₂ (.kept _ rfl rfl rfl id)) fun _ _ _ _ => ?_
    exact .pure nofun
  · refine .pure fun p hp => ?_
    obtain rfl := Option.some.inj hp
    obtain ⟨txid, vout, ⟨htxid, hvout, coin, older, rfl⟩, hlisted⟩ := hfound point rfl
    -- everything before the last look was plain as well
    have holder : Extends Plainly h₁ (older ++ h₁) := by
      obtain ⟨pass, hpass, hplain⟩ := he₂
      obtain rfl := List.append_cancel_right hpass
      exact ⟨older, rfl, fun e he => hplain e (List.mem_cons_of_mem _ he)⟩
    refine ⟨rfl, hk₁.after (still_of_plainly he₂), txid, vout, ⟨htxid, hvout, [], coin,
      older ++ h₁, rfl, by simp, hk₁.after (still_of_plainly holder)⟩, .inr ?_⟩
    exact hlisted.mono fun e he => List.mem_append_left _ he

/-- The output is the quoted one, or one that a block was found to have. -/
theorem confirmedInstantOutpoint_cares (hk : Known C r h) :
    Cares C (confirmedInstantOutpoint C r) (fun found h' => ∀ point, found.1 = some point →
      found.2 = r ∧ Known C r h' ∧ Found C r point h') h := by
  refine Act.Spec.bind (Act.Spec.ask_eq (I := Api L)
    (c := .getTxOut r.quote.deposit.txid r.quote.deposit.vout.toNat) trivial fun _ => trivial) ?_
  rintro found h₁ - ⟨reply, hreply, rfl⟩
  obtain rfl : reply = .ok found := hreply
  have hk₁ := hk.after (.one (x := (⟨.getTxOut r.quote.deposit.txid r.quote.deposit.vout.toNat,
    .ok found⟩ : Event (Api L))) rfl)
  rcases found with - | coin
  · exact searchReplacement_cares hk₁
  · apply Act.Spec.ite
    · intro _
      refine Act.Spec.bind Act.Spec.ofExcept_eq ?_
      rintro txid h₂ - ⟨htxid, rfl⟩
      refine .pure fun point hpoint => ?_
      obtain rfl := Option.some.inj hpoint
      exact ⟨rfl, hk₁, _, _, ⟨okOr_eq_ok.mp htxid, UInt32.ofNat_toNat, [], coin, h, rfl,
        by simp, hk⟩, .inl ⟨rfl, rfl⟩⟩
    · exact fun _ => .pure nofun

/-- The plan is frozen on an output that was just seen unspent. -/
theorem prepareRecovery_cares (hk : Known C r h) :
    Cares C (prepareRecovery C r) (fun o h' => ∀ r', o = some r' → Known C r' h') h := by
  apply Act.Spec.ite
  · intro _
    refine Act.Spec.bind (confirmedInstantOutpoint_cares hk) ?_
    rintro ⟨found, r'⟩ h₁ - hfound
    rcases found with - | point
    · exact .pure nofun
    · obtain ⟨rfl, hk₁, hpoint⟩ := hfound point rfl
      refine Act.Spec.bind Act.Spec.ofExcept_eq ?_
      rintro request h₂ - ⟨hrequest, rfl⟩
      refine Act.Spec.bind (saveInstant_cares hk₁ (.frozen point request hpoint hrequest))
        fun _ h₃ _ hk₃ => ?_
      refine .pure fun r' hr' => ?_
      obtain rfl := Option.some.inj hr'
      exact hk₃
  · intro _
    refine .pure fun r' hr' => ?_
    obtain rfl := Option.some.inj hr'
    exact hk

/-- What is signed is the spend of the frozen plan. -/
theorem signInstantSpend_cares (hk : Known C r h) :
    Cares C (signInstantSpend C r) (fun r' h' => Known C r' h') h := by
  apply Act.Spec.ite
  · exact fun _ => .pure hk
  · intro _
    refine Act.Spec.bind (submitStaticClaim_cares r.quote.deposit r.transferId r.plan true h) ?_
    rintro spend h₁ - ⟨he, hspends⟩
    refine Act.Spec.bind (saveInstant_cares (hk.after he) (.signed spend hspends))
      fun _ h₂ _ hk₂ => ?_
    exact .pure hk₂

/-- The depth of the recovery changes no plan. -/
theorem settleInstant_cares (hk : Known C r h) : Cares C (settleInstant r) (fun _ _ => True) h := by
  refine Act.Spec.bind Act.Spec.ofExcept_eq ?_
  rintro raw h₁ - ⟨-, rfl⟩
  refine Act.Spec.bind Act.Spec.ofExcept_eq ?_
  rintro spend h₂ - ⟨-, rfl⟩
  have hobserve : Within 0 (getTransaction (L := L) (.instant r.id) (L.computeTxid spend)) :=
    look_within rfl
  refine Act.Spec.bind (hobserve.attempt.cares _) fun observed h₃ _ he₃ => ?_
  have hbroadcast : Within 0 (broadcastUnseen r raw ((observed.toOption.bind id).getD 0)) :=
    .ite (look_within rfl) .pure
  refine Act.Spec.bind (hbroadcast.cares _) fun _ h₄ _ he₄ => ?_
  have hk₄ := hk.after (still_of_plainly (he₃.trans he₄))
  refine Act.Spec.weaken (saveInstant_cares hk₄ ?_) fun _ => id
  refine .kept _ rfl rfl rfl fun hphase => ?_
  dsimp only at hphase
  split at hphase
  · cases hphase
  · cases hphase

/-- Paying, preparing, signing and settling, each from where the record stands. -/
theorem advanceInstant_cares (hk : Known C r h) :
    Cares C (advanceInstant C r) (fun _ _ => True) h := by
  apply Act.Spec.ite
  · exact fun _ => .pure trivial
  · intro _
    refine Act.Spec.bind (payInstant_cares hk) fun r₁ h₁ _ hk₁ => ?_
    refine Act.Spec.bind (prepareRecovery_cares hk₁) fun prepared h₂ _ hk₂ => ?_
    rcases prepared with - | r₂
    · exact .pure trivial
    · refine Act.Spec.bind (signInstantSpend_cares (hk₂ r₂ rfl)) fun r₃ h₃ _ hk₃ => ?_
      exact settleInstant_cares hk₃

/-- The plan spends the output of the quote that was read. -/
theorem newInstantClaim_cares (owner quoteId : String) (input : InstantClaimInput)
    (hh : (guards C).Held .deposits h) :
    Cares C (newInstantClaim C owner quoteId input) (fun _ _ => True) h := by
  refine Act.Spec.bind (Act.Spec.ask_eq (I := Api L) (c := .db (.instantQuoteById quoteId owner))
    trivial fun _ => trivial) ?_
  rintro quote h₁ - ⟨r, hr, rfl⟩
  obtain rfl : r = .ok quote := hr
  -- from here to the insert everything only looks, and the quote stays read
  have houtstanding : Within 0 (db (L := L) .instantOutstanding) := look_within rfl
  refine Act.Spec.bind (houtstanding.cares _) fun outstanding h₂ _ he₂ => ?_
  refine Act.Spec.bind Act.Spec.ofExcept_eq ?_
  rintro _ h₃ - ⟨-, rfl⟩
  refine Act.Spec.bind Act.Spec.ofExcept_eq ?_
  rintro signature h₄ - ⟨-, rfl⟩
  refine Act.Spec.bind Act.Spec.ofExcept_eq ?_
  rintro encrypted h₅ - ⟨-, rfl⟩
  have hcoin : Within 0 (getTxOut (L := L) quote.deposit.txid quote.deposit.vout.toNat) :=
    look_within rfl
  refine Act.Spec.bind (hcoin.cares _) fun found h₆ _ he₆ => ?_
  refine Act.Spec.bind Act.Spec.ofExcept_eq ?_
  rintro coin h₇ - ⟨-, rfl⟩
  refine Act.Spec.bind Act.Spec.ofExcept_eq ?_
  rintro value h₈ - ⟨-, rfl⟩
  refine .guard fun _ => ?_
  refine Act.Spec.bind ((checkAncestors_within _ coin).cares _) fun _ h₉ _ he₉ => ?_
  have hbusy : Within 0 (db (L := L) (.instantBusy owner quote.deposit)) := look_within rfl
  refine Act.Spec.bind (hbusy.cares h₉) fun busy h₁₀ _ he₁₀ => ?_
  refine .guard fun _ => ?_
  have haddress : Within 0 (bitcoinChangeAddress (L := L)) := look_within rfl
  refine Act.Spec.bind (haddress.cares h₁₀) fun destination h₁₁ _ he₁₁ => ?_
  refine Act.Spec.bind Act.Spec.ofExcept_eq ?_
  rintro parsed h₁₂ - ⟨hparsed, rfl⟩
  refine Act.Spec.bind ((tell_within (c := .newUuid) rfl).cares _) fun transfer h₁₃ _ he₁₃ => ?_
  refine Act.Spec.bind ((prepareStaticClaim_within quote.deposit encrypted signature transfer.print
    _).cares_finds (prepareStaticClaim_spends _ _ _ _ _ []) h₁₃) ?_
  -- the plan spends the one input of the recovery: the quoted output
  rintro plan h₁₄ - ⟨he₁₄, -, -, hspends⟩
  refine Act.Spec.bind ((tell_within (c := .newUuid) rfl).cares _) fun id h₁₅ _ he₁₅ => ?_
  have hlook := he₂.trans (he₆.trans (he₉.trans (he₁₀.trans (he₁₁.trans (he₁₃.trans
    (he₁₄.trans he₁₅))))))
  -- the lock is the one the caller took before the quote was read
  have hread : (guards C).Held .deposits
      ((⟨.db (.instantQuoteById quoteId owner), .ok quote⟩ : Event (Api L)) :: h) := hh.cons nofun
  have hheld := held_after hread (still_of_plainly hlook)
  refine Act.Spec.bind (Act.Spec.ask_eq (I := Api L) (c := .db (.insertInstant _ _ _)) ?_
    fun _ => trivial) ?_
  · exact ⟨rfl, quoteId, owner, ⟨parsed, quote.deposit.vout⟩, hlook.mem List.mem_cons_self,
      okOr_eq_ok.mp hparsed, rfl, hspends.trans (inputsOf_recovery _ _ _)⟩
  · -- the record that was entered is the one that is advanced
    rintro ⟨⟩ h₁₆ - ⟨r, hr, rfl⟩
    obtain rfl : r = .ok () := hr
    refine Act.Spec.bind (advanceInstant_cares (.shows (.inserted _ _) hheld nofun)) ?_
    exact fun _ _ _ _ => .pure trivial

/-- A claim that is known already is advanced. -/
theorem instantClaim_cares (owner : String) (input : InstantClaimInput) (h : History (Api L)) :
    Cares C (instantClaim C owner input) (fun _ _ => True) h := by
  refine Act.Spec.bind Act.Spec.ofExcept_eq ?_
  rintro quoteId h₁ - ⟨-, rfl⟩
  apply locked_cares
  apply locked_cares
  have hheld : (guards C).Held .deposits
      (⟨.lock .liquidity, ()⟩ :: ⟨.lock .deposits, ()⟩ :: h₁) := (held_locked h₁).cons nofun
  refine Act.Spec.bind (Act.Spec.ask_eq (I := Api L)
    (c := .db (.instantClaimForQuote quoteId owner)) trivial fun _ => trivial) ?_
  rintro existing h₃ - ⟨r, hr, rfl⟩
  obtain rfl : r = .ok existing := hr
  rcases existing with - | record
  · exact newInstantClaim_cares owner quoteId input (hheld.cons nofun)
  · refine Act.Spec.bind (advanceInstant_cares (.shows (.found quoteId owner) hheld nofun)) ?_
    exact fun _ _ _ _ => .pure trivial

/-- A recovery that fails keeps its record and writes the error. -/
theorem recoverInstantClaim_cares (record : InstantClaim L) (hh : (guards C).Held .deposits h) :
    Cares C (recoverInstantClaim C record) (fun _ _ => True) h := by
  have hread : Cares C (db (.instantById record.id)) (fun r h' => Known C r h') h := by
    apply Act.Spec.ask (I := Api L) trivial fun _ => trivial
    rintro r current rfl
    exact .shows (.read record.id) hh nofun
  refine Act.Spec.bind hread.attempt fun found h₁ _ hk => ?_
  rcases found with e | current
  · exact .pure trivial
  · refine Act.Spec.bind (advanceInstant_cares (hk current rfl)).attempt fun outcome h₂ _ _ => ?_
    rcases outcome with e | -
    · have herror : Within 0 (db (L := L) (.instantError current.id e)) := look_within rfl
      exact Act.Spec.bind (herror.attempt.cares h₂) fun _ _ _ _ => .pure trivial
    · exact .pure trivial

/-- The worker holds the lock of deposits for the whole pass. -/
theorem instantPass_cares (h : History (Api L)) :
    Cares C (instantPass C) (fun _ _ => True) h := by
  have hsample : Within 0 (sampleInstants (L := L)) := look_within rfl
  refine Act.Spec.bind (hsample.attempt.cares h) fun outcome h₁ _ _ => ?_
  rcases outcome with e | records
  · exact .pure trivial
  · apply Act.Spec.forEach (K := fun _ _ => True)
    · intro record _ h₂ _ _
      apply locked_cares
      apply locked_cares
      exact recoverInstantClaim_cares record ((held_locked h₂).cons nofun)
    · exact fun _ _ _ _ => trivial

/-- Every request and both workers meet the contract. -/
theorem handler_careful (r : Request) :
    ((machine C).handler r).wp (Careful C) (fun _ _ => True) [] := by
  have hall : ∀ {α : Type} {act : Ssp L α}, Cares C act (fun _ _ => True) [] →
      (discard act.run : Prog (Api L) Unit).wp (Careful C) (fun _ _ => True) [] := by
    intro α act hact
    rw [Prog.wp_discard]
    exact Prog.wp_mono hact.wp fun _ _ _ => trivial
  cases r with
  | quote owner input => exact hall (quote_cares owner input [])
  | claim owner input => exact hall (claim_cares owner input [])
  | pass => exact hall (pass_cares [])
  | instantQuote owner input => exact hall (instantQuote_cares owner input [])
  | instantClaim owner input => exact hall (instantClaim_cares owner input [])
  | instantPass => exact hall (instantPass_cares [])

end OpenSsp.Deposit
