/-
OpenSsp/Deposit/Calls.lean

How much the functions of static deposits do, and what they look at.

The calls have levels, and each function has one lemma that says which level its calls stay within:
whether it does no more than look, keeps a quote, has the operators act, writes a record or enters a
claim.  No function below the handlers takes a lock.

Main results: these lemmas, and `searchBlock_searches`: a block in which nothing is found has been
looked at output by output.
-/
import OpenSsp.Deposit.Claim

namespace OpenSsp.Deposit

open Interleave Bitcoin

variable {L : Library} {C : Service L}

/-! ### Kinds of calls -/

/-- The calls that write no record of a claim, take no lock and have the operators do nothing. -/
def Call.plain : Call L → Bool
  | .lock _ => false
  | .unlock _ => false
  | .db (.insertClaim _) => false
  | .db (.saveClaim _) => false
  | .db (.insertInstant ..) => false
  | .db (.saveInstant _) => false
  | .initiateSwap _ => false
  | .recoverInstant .. => false
  | .reserveInstant .. => false
  | .signRecovery .. => false
  | _ => true

/-- What a call does at most: it keeps a quote (1), has the operators act (2), writes the record of
a claim (3), enters a claim (4), takes or gives back a lock (5), or does none of these (0). -/
def Call.level : Call L → Nat
  | .lock _ => 5
  | .unlock _ => 5
  | .db (.insertClaim _) => 4
  | .db (.insertInstant ..) => 4
  | .db (.saveClaim _) => 3
  | .db (.saveInstant _) => 3
  | .initiateSwap _ => 2
  | .recoverInstant .. => 2
  | .reserveInstant .. => 2
  | .signRecovery .. => 2
  | .db (.saveQuote _) => 1
  | .db (.saveInstantQuote _) => 1
  | _ => 0

/-- The plain calls are those of the first two levels. -/
theorem Call.plain_of_level {c : Call L} (hc : c.level ≤ 1) : c.plain = true := by
  cases c with
  | lock l => simp [Call.level] at hc
  | unlock l => simp [Call.level] at hc
  | db query =>
      cases query with
      | insertClaim record => simp [Call.level] at hc
      | insertInstant record maxDeposit limit => simp [Call.level] at hc
      | saveClaim record => simp [Call.level] at hc
      | saveInstant record => simp [Call.level] at hc
      | _ => rfl
  | initiateSwap request => simp [Call.level] at hc
  | recoverInstant utxo job transferId => simp [Call.level] at hc
  | reserveInstant quote request => simp [Call.level] at hc
  | signRecovery plan spend result => simp [Call.level] at hc
  | _ => rfl

/-- An action whose calls do no more than those of level `n`. -/
def Within {α : Type} (n : Nat) (act : Ssp L α) : Prop :=
  Act.Calls (fun c : Call L => c.level ≤ n) act

section within

variable {α : Type} {n : Nat}

/-- A lower level is within a higher one. -/
theorem Within.mono {m : Nat} {act : Ssp L α} (hact : Within m act) (hmn : m ≤ n) :
    Within n act :=
  Act.Calls.mono hact fun _ hc => hc.trans hmn

/-- One call of the level. -/
theorem ask_within {c : Call L} {conv : c.Reply → Except String α} (hc : c.level ≤ n) :
    Within n (Act.ask (I := Api L) c conv) := .ask hc

/-- A look is allowed at every level. -/
theorem look_within {c : Call L} {conv : c.Reply → Except String α} (hc : c.level = 0) :
    Within n (Act.ask (I := Api L) c conv) := ask_within (hc.trans_le (Nat.zero_le n))

theorem tell_within {c : Call L} (hc : c.level = 0) : Within n (tell c) :=
  .tell (hc.trans_le (Nat.zero_le n))

/-- The attempt of an action makes its calls. -/
theorem Within.attempt {act : Ssp L α} (hact : Within n act) : Within n (Act.attempt act) :=
  Act.Calls.attempt hact

/-! ### Looks -/

theorem feeRate_within : Within n (feeRate C) := by
  apply (look_within rfl).bind
  intro rate
  rcases rate with - | value
  · exact .ite .pure .throw
  · exact Act.Calls.ofExcept.bind fun _ => .pure

theorem staticDepositAddress_within (owner address : String) :
    Within n (staticDepositAddress C owner address) := by
  apply Act.Calls.ofExcept.bind
  intro owner
  apply (look_within rfl).bind
  intro addresses
  split
  · exact .guard .pure
  · exact .throw

/-- The plan is made of leaves, a prepared transfer and a nonce, before anything is entered. -/
theorem prepareStaticClaim_within (quote : DepositQuote) (encrypted signature transferId : String)
    (spend : Bitcoin.Transaction) :
    Within n (prepareStaticClaim C quote encrypted signature transferId spend) := by
  apply (look_within rfl).bind
  intro leaves
  apply Act.Calls.ofExcept.bind
  intro owner
  apply Act.Calls.ofExcept.bind
  intro id
  apply (look_within rfl).bind
  intro transfer
  apply (look_within rfl).bind
  intro nonce
  apply Act.Calls.ofExcept.bind
  intro txid
  apply Act.Calls.ofExcept.bind
  intro sspSignature
  apply Act.Calls.ofExcept.bind
  intro userSignature
  apply Act.Calls.ofExcept.bind
  intro signingPublicKey
  exact Act.Calls.ofExcept.bind fun _ => .pure

theorem checkAncestors_within (txid : String) (coin : Coin) :
    Within n (checkAncestors (L := L) txid coin) := by
  apply Act.Calls.ite
  · apply (look_within rfl).bind
    intro ancestors
    exact .guard .pure
  · exact .pure

theorem matchOutput_within (q : DepositQuote) (tx : BlockTx) (output : BlockOutput) :
    Within n (matchOutput C q tx output) := by
  apply Act.Calls.ite
  · exact .pure
  · apply Act.Calls.ofExcept.bind
    intro value
    apply Act.Calls.ite
    · exact .pure
    · apply Act.Calls.ofExcept.bind
      intro txid
      apply Act.Calls.ofExcept.bind
      intro vout
      apply (look_within rfl).bind
      intro unspent
      rcases unspent with - | coin
      · exact .pure
      · exact Act.Calls.ofExcept.bind fun _ => .pure

/-- Reading a block and its outputs is all a search does. -/
theorem searchBlock_within (q : DepositQuote) (height : Nat) : Within n (searchBlock C q height) := by
  apply (look_within rfl).bind
  intro hash
  apply (look_within rfl).bind
  intro block
  apply Act.Calls.ofExcept.bind
  intro txs
  apply Act.Calls.firstSome
  intro tx
  exact Act.Calls.ofExcept.bind fun outputs => .firstSome (matchOutput_within q tx) outputs

/-! ### Quotes are kept -/

/-- The quote is kept when everything else has succeeded. -/
theorem newQuote_within (hn : 1 ≤ n) (owner txid : String) (vout : UInt32) (value : Nat)
    (script : Script) (address : String) (deposit : DepositAddress) :
    Within n (newQuote C owner txid vout value script address deposit) := by
  apply feeRate_within.bind
  intro rate
  apply Act.Calls.ofExcept.bind
  intro fee
  apply Act.Calls.ofExcept.bind
  intro credit
  apply (tell_within rfl).bind
  intro now
  exact (ask_within hn).bind fun _ => .pure

/-- An output that has its quote keeps it. -/
theorem quoteOutput_within (hn : 1 ≤ n) (owner txid : String) (vout : UInt32) :
    Within n (quoteOutput C owner txid vout) := by
  apply (look_within rfl).bind
  intro claimed
  rcases claimed with - | claimed
  · apply (look_within rfl).bind
    intro found
    apply Act.Calls.ofExcept.bind
    intro coin
    apply Act.Calls.ofExcept.bind
    intro value
    apply Act.Calls.ofExcept.bind
    intro hex
    apply Act.Calls.ofExcept.bind
    intro script
    apply Act.Calls.ofExcept.bind
    intro address
    apply (staticDepositAddress_within owner address).bind
    intro deposit
    apply (look_within rfl).bind
    intro old
    rcases old with - | old
    · exact newQuote_within hn owner txid vout value script address deposit
    · exact .pure
  · exact .guard .pure

/-- The instant quote is kept when everything else has succeeded. -/
theorem newInstantQuote_within (hn : 1 ≤ n) (owner txid : String) (vout : UInt32) (value : Nat)
    (script : Script) (address : String) (metadata : DepositAddress) :
    Within n (newInstantQuote C owner txid vout value script address metadata) := by
  apply feeRate_within.bind
  intro rate
  apply Act.Calls.ofExcept.bind
  intro fee
  apply Act.Calls.ofExcept.bind
  intro credit
  apply (look_within rfl).bind
  intro outstanding
  apply Act.Calls.ofExcept.bind
  intro _
  apply (look_within rfl).bind
  intro height
  apply (tell_within rfl).bind
  intro uuid
  apply (tell_within rfl).bind
  intro now
  exact (ask_within hn).bind fun _ => .pure

/-- A claimed output has its quote, and an unclaimed one gets one. -/
theorem instantQuoteOutput_within (hn : 1 ≤ n) (owner txid : String) (vout : UInt32) :
    Within n (instantQuoteOutput C owner txid vout) := by
  apply (look_within rfl).bind
  intro existing
  rcases existing with - | record
  · apply Act.Calls.ofExcept.bind
    intro _
    apply (look_within rfl).bind
    intro found
    apply Act.Calls.ofExcept.bind
    intro coin
    apply Act.Calls.ofExcept.bind
    intro value
    apply Act.Calls.ofExcept.bind
    intro _
    apply (checkAncestors_within txid coin).bind
    intro _
    apply Act.Calls.ofExcept.bind
    intro hex
    apply Act.Calls.ofExcept.bind
    intro script
    apply Act.Calls.ofExcept.bind
    intro address
    apply (staticDepositAddress_within owner address).bind
    intro metadata
    apply (look_within rfl).bind
    intro claimed
    apply Act.Calls.guard
    apply (look_within rfl).bind
    intro old
    rcases old with - | old
    · exact (newInstantQuote_within hn owner txid vout value script address metadata).bind
        fun _ => .pure
    · exact .pure
  · exact .pure

/-! ### The operators act -/

/-- The operators sign, and the service adds its own share. -/
theorem submitStaticClaim_within (hn : 2 ≤ n) (quote : DepositQuote) (transferId : String)
    (plan : StaticPlan L) (instant : Bool) :
    Within n (submitStaticClaim C quote transferId plan instant) := by
  apply Act.Calls.ofExcept.bind
  intro job
  have hrequest : Within n (requestSigning plan job transferId instant) :=
    .ite (ask_within hn) (ask_within hn)
  apply hrequest.bind
  intro response
  apply Act.Calls.ofExcept.bind
  intro transfer
  apply Act.Calls.ofExcept.bind
  intro _
  apply Act.Calls.ofExcept.bind
  intro result
  apply Act.Calls.ofExcept.bind
  intro spend
  apply (ask_within hn).bind
  intro signature
  apply Act.Calls.guard
  split
  · exact .throw
  · exact .pure

/-- The operators make the transfer. -/
theorem submitInstantReserve_within (hn : 2 ≤ n) (quote : DepositQuote) (transferId : String)
    (plan : StaticPlan L) : Within n (submitInstantReserve C quote transferId plan) := by
  apply (ask_within hn).bind
  intro reply
  apply Act.Calls.ofExcept.bind
  intro transfer
  exact .guard .ofExcept

/-! ### Records are written -/

/-- The signed spend is written to the record. -/
theorem signSpend_within (hn : 3 ≤ n) (record : DepositClaim L) :
    Within n (signSpend C record) := by
  apply Act.Calls.ite .pure
  apply (submitStaticClaim_within (by omega) _ _ _ _).bind
  intro raw
  exact (ask_within hn).bind fun _ => .pure

/-- The record is written after the spend was seen or sent. -/
theorem advance_within (hn : 3 ≤ n) (record : DepositClaim L) : Within n (advance C record) := by
  apply Act.Calls.ite .pure
  apply (signSpend_within hn record).bind
  intro record
  apply Act.Calls.ofExcept.bind
  intro raw
  apply Act.Calls.ofExcept.bind
  intro tx
  apply (look_within rfl).attempt.bind
  intro observed
  apply Act.Calls.ite
  · exact (ask_within hn).bind fun _ => .pure
  · apply (look_within rfl).bind
    intro _
    exact (ask_within hn).bind fun _ => .pure

/-- A failed recovery writes the error beside the record. -/
theorem recover_within (hn : 3 ≤ n) (record : DepositClaim L) : Within n (recover C record) := by
  apply (advance_within hn record).attempt.bind
  rintro (e | _)
  · exact (look_within rfl).attempt.bind fun _ => .pure
  · exact .pure

/-- The height of the search is written when nothing was found. -/
theorem searchReplacement_within (hn : 3 ≤ n) (r : InstantClaim L) :
    Within n (searchReplacement C r) := by
  apply (look_within rfl).bind
  intro tip
  apply (Act.Calls.firstSome (fun height => searchBlock_within r.quote.deposit height) _).bind
  rintro (- | point)
  · exact (ask_within hn).bind fun _ => .pure
  · exact .pure

/-- The plan is frozen on the output that was found. -/
theorem prepareRecovery_within (hn : 3 ≤ n) (r : InstantClaim L) :
    Within n (prepareRecovery C r) := by
  have hconfirmed : Within n (confirmedInstantOutpoint C r) := by
    apply (look_within rfl).bind
    rintro (- | coin)
    · exact searchReplacement_within hn r
    · exact .ite (Act.Calls.ofExcept.bind fun _ => .pure) .pure
  apply Act.Calls.ite _ .pure
  apply hconfirmed.bind
  rintro ⟨- | point, r⟩
  · exact .pure
  · apply Act.Calls.ofExcept.bind
    intro request
    exact (ask_within hn).bind fun _ => .pure

/-- The depth is written whatever it is. -/
theorem settleInstant_within (hn : 3 ≤ n) (r : InstantClaim L) : Within n (settleInstant r) := by
  apply Act.Calls.ofExcept.bind
  intro raw
  apply Act.Calls.ofExcept.bind
  intro spend
  apply (look_within rfl).attempt.bind
  intro observed
  apply (Act.Calls.ite (look_within rfl) .pure).bind
  exact fun _ => ask_within hn

/-- From wherever the record stands to the end. -/
theorem advanceInstant_within (hn : 3 ≤ n) (r : InstantClaim L) :
    Within n (advanceInstant C r) := by
  have hpay : Within n (payInstant C r) := by
    apply Act.Calls.ite _ .pure
    apply (submitInstantReserve_within (by omega) _ _ _).bind
    intro _
    exact (ask_within hn).bind fun _ => .pure
  have hsign : ∀ r, Within n (signInstantSpend C r) := by
    intro r
    apply Act.Calls.ite .pure
    apply (submitStaticClaim_within (by omega) _ _ _ _).bind
    intro spend
    exact (ask_within hn).bind fun _ => .pure
  apply Act.Calls.ite .pure
  apply hpay.bind
  intro r
  apply (prepareRecovery_within hn r).bind
  rintro (- | r)
  · exact .pure
  · exact (hsign r).bind (settleInstant_within hn)

/-- The record is read again before it is advanced. -/
theorem recoverInstantClaim_within (hn : 3 ≤ n) (record : InstantClaim L) :
    Within n (recoverInstantClaim C record) := by
  apply (look_within rfl).attempt.bind
  rintro (e | current)
  · exact .pure
  · apply (advanceInstant_within hn current).attempt.bind
    rintro (e | _)
    · exact (look_within rfl).attempt.bind fun _ => .pure
    · exact .pure

/-! ### Claims are entered -/

/-- The claim is entered once everything was checked, and advanced right after. -/
theorem newClaim_within (hn : 4 ≤ n) (owner txid : String) (vout : UInt32) (input : ClaimInput) :
    Within n (newClaim C owner txid vout input) := by
  apply (look_within rfl).bind
  intro found
  apply Act.Calls.ofExcept.bind
  intro quote
  apply Act.Calls.guard
  apply Act.Calls.ofExcept.bind
  intro encrypted
  apply Act.Calls.ofExcept.bind
  intro signature
  apply Act.Calls.ofExcept.bind
  intro _
  apply (look_within rfl).bind
  intro coin
  apply Act.Calls.guard
  apply (look_within rfl).bind
  intro destination
  apply Act.Calls.ofExcept.bind
  intro parsed
  apply (tell_within rfl).bind
  intro transfer
  apply (prepareStaticClaim_within _ _ _ _ _).bind
  intro plan
  apply (tell_within rfl).bind
  intro id
  apply (ask_within hn).bind
  intro _
  exact (advance_within (by omega) _).bind fun _ => .pure

theorem claimOutput_within (hn : 4 ≤ n) (owner txid : String) (vout : UInt32)
    (input : ClaimInput) : Within n (claimOutput C owner txid vout input) := by
  apply (look_within rfl).bind
  rintro (- | record)
  · exact newClaim_within hn owner txid vout input
  · apply Act.Calls.guard
    exact (advance_within (by omega) record).bind fun _ => .pure

/-- The same for an instant claim. -/
theorem newInstantClaim_within (hn : 4 ≤ n) (owner quoteId : String) (input : InstantClaimInput) :
    Within n (newInstantClaim C owner quoteId input) := by
  apply (look_within rfl).bind
  intro quote
  apply (look_within rfl).bind
  intro outstanding
  apply Act.Calls.ofExcept.bind
  intro _
  apply Act.Calls.ofExcept.bind
  intro signature
  apply Act.Calls.ofExcept.bind
  intro encrypted
  apply (look_within rfl).bind
  intro found
  apply Act.Calls.ofExcept.bind
  intro coin
  apply Act.Calls.ofExcept.bind
  intro value
  apply Act.Calls.guard
  apply (checkAncestors_within _ _).bind
  intro _
  apply (look_within rfl).bind
  intro busy
  apply Act.Calls.guard
  apply (look_within rfl).bind
  intro destination
  apply Act.Calls.ofExcept.bind
  intro parsed
  apply (tell_within rfl).bind
  intro transfer
  apply (prepareStaticClaim_within _ _ _ _ _).bind
  intro plan
  apply (tell_within rfl).bind
  intro id
  apply (ask_within hn).bind
  intro _
  exact (advanceInstant_within (by omega) _).bind fun _ => .pure

theorem instantClaimQuote_within (hn : 4 ≤ n) (owner quoteId : String)
    (input : InstantClaimInput) : Within n (instantClaimQuote C owner quoteId input) := by
  apply (look_within rfl).bind
  rintro (- | record)
  · exact newInstantClaim_within hn owner quoteId input
  · exact (advanceInstant_within (by omega) record).bind fun _ => .pure

end within

/-! ### What a search has seen -/

/-- Why an output is no replacement of the quoted one. -/
inductive Dismissed (q : DepositQuote) (tx : BlockTx) (output : BlockOutput)
    (h : History (Api L)) : Prop
  | script (hne : sameScript output.script q.prevOutput = false)
  | amount (value : Nat) (hvalue : output.value = .ok value) (hne : value ≠ q.credit + q.fee)
  | spent (txid : String) (vout : Nat) (htxid : tx.txid = some txid) (hvout : output.n = some vout)
      (hspent : (⟨.getTxOut txid vout, .ok none⟩ : Event (Api L)) ∈ h)

/-- The block at this height was read, and none of its outputs is a replacement. -/
def Examined (q : DepositQuote) (height : Nat) (h : History (Api L)) : Prop :=
  ∃ hash txs, (⟨.getBlockHash height, .ok hash⟩ : Event (Api L)) ∈ h ∧
    (⟨.getBlock hash, .ok (some txs)⟩ : Event (Api L)) ∈ h ∧
    ∀ tx ∈ txs, ∃ outputs, tx.vout = some outputs ∧ ∀ output ∈ outputs, Dismissed q tx output h

variable {q : DepositQuote} {h h' : History (Api L)}

/-- An output that was dismissed is dismissed for good. -/
theorem Dismissed.mono {tx : BlockTx} {output : BlockOutput} (hd : Dismissed q tx output h)
    (hmem : ∀ e ∈ h, e ∈ h') : Dismissed q tx output h' := by
  cases hd with
  | script hne => exact .script hne
  | amount value hvalue hne => exact .amount value hvalue hne
  | spent txid vout htxid hvout hspent => exact .spent txid vout htxid hvout (hmem _ hspent)

/-- A block that was examined has been examined. -/
theorem Examined.mono {height : Nat} (he : Examined q height h) (hmem : ∀ e ∈ h, e ∈ h') :
    Examined q height h' := by
  obtain ⟨hash, txs, hhash, hblock, hall⟩ := he
  refine ⟨hash, txs, hmem _ hhash, hmem _ hblock, fun tx htx => ?_⟩
  obtain ⟨outputs, houtputs, hdismissed⟩ := hall tx htx
  exact ⟨outputs, houtputs, fun output houtput => (hdismissed output houtput).mono hmem⟩

/-- The node has reported the output unspent. -/
def Unspent (C : Service L) (point : OutPoint) (h : History (Api L)) : Prop :=
  ∃ txid vout coin, (⟨.getTxOut txid vout, .ok (some coin)⟩ : Event (Api L)) ∈ h ∧
    C.parseTxid txid = some point.txid ∧ UInt32.ofNat vout = point.vout

/-- The report of the node stays in the history. -/
theorem Unspent.mono {point : OutPoint} (hu : Unspent C point h) (hmem : ∀ e ∈ h, e ∈ h') :
    Unspent C point h' := by
  obtain ⟨txid, vout, coin, he, htxid, hvout⟩ := hu
  exact ⟨txid, vout, coin, hmem _ he, htxid, hvout⟩

/-- What an action finds out. -/
def Finds {α : Type} (act : Ssp L α) (R : α → History (Api L) → Prop) (h : History (Api L)) : Prop :=
  Act.Spec (fun _ _ => True) (fun _ => True) act R h

/-- A search that finds nothing has seen `K`, and one that finds an output saw it unspent. -/
def Searches (C : Service L) (act : Ssp L (Option OutPoint)) (K : History (Api L) → Prop)
    (h : History (Api L)) : Prop :=
  Finds act (fun r h' => (r = none → K h') ∧ ∀ point, r = some point → Unspent C point h') h

/-- An output is dismissed for its script, for its amount, or as spent. -/
theorem matchOutput_searches (tx : BlockTx) (output : BlockOutput) (h : History (Api L)) :
    Searches C (matchOutput C q tx output) (Dismissed q tx output) h := by
  apply Act.Spec.ite
  · intro hscript
    exact .pure ⟨fun _ => .script (by simpa using hscript), nofun⟩
  · intro _
    refine Act.Spec.bind Act.Spec.ofExcept_eq ?_
    rintro value h₁ - ⟨hvalue, rfl⟩
    apply Act.Spec.ite
    · intro hne
      exact .pure ⟨fun _ => .amount value hvalue hne, nofun⟩
    · intro _
      refine Act.Spec.bind Act.Spec.ofExcept_eq ?_
      rintro txid h₂ - ⟨htxid, rfl⟩
      refine Act.Spec.bind Act.Spec.ofExcept_eq ?_
      rintro vout h₃ - ⟨hvout, rfl⟩
      refine Act.Spec.bind (Act.Spec.ask_eq (I := Api L) (c := .getTxOut txid vout) trivial
        fun _ => trivial) ?_
      rintro unspent h₄ - ⟨r, hr, rfl⟩
      obtain rfl : r = .ok unspent := hr
      rcases unspent with - | coin
      · refine .pure ⟨fun _ => ?_, nofun⟩
        exact .spent txid vout (okOr_eq_ok.mp htxid) (okOr_eq_ok.mp hvout) List.mem_cons_self
      · refine Act.Spec.bind Act.Spec.ofExcept_eq ?_
        rintro parsed h₅ - ⟨hparsed, rfl⟩
        refine .pure ⟨nofun, ?_⟩
        rintro point hpoint
        obtain rfl := Option.some.inj hpoint
        exact ⟨txid, vout, coin, List.mem_cons_self, okOr_eq_ok.mp hparsed, rfl⟩

/-- Every output of the transaction was looked at. -/
theorem searchTx_searches (tx : BlockTx) (h : History (Api L)) :
    Searches C (searchTx C q tx) (fun h' => ∃ outputs, tx.vout = some outputs ∧
      ∀ output ∈ outputs, Dismissed q tx output h') h := by
  refine Act.Spec.bind Act.Spec.ofExcept_eq ?_
  rintro outputs h₁ - ⟨houtputs, rfl⟩
  refine Act.Spec.mono (Act.Spec.firstSome (K := Dismissed q tx) (S := Unspent C) ?_ ?_)
    (fun _ => id) ?_
  · exact fun output _ h₂ => matchOutput_searches tx output h₂
  · exact fun output h₂ h₃ he hd => hd.mono fun _ => he.mem
  · rintro r h₂ - ⟨hall, hsome⟩
    exact ⟨fun hr => ⟨outputs, okOr_eq_ok.mp houtputs, hall hr⟩, hsome⟩

/-- A block in which nothing was found has been examined. -/
theorem searchBlock_searches (height : Nat) (h : History (Api L)) :
    Searches C (searchBlock C q height) (Examined q height) h := by
  refine Act.Spec.bind (Act.Spec.ask_eq (I := Api L) (c := .getBlockHash height) trivial
    fun _ => trivial) ?_
  rintro hash h₁ - ⟨r, hr, rfl⟩
  obtain rfl : r = .ok hash := hr
  refine Act.Spec.bind (Act.Spec.ask_eq (I := Api L) (c := .getBlock hash) trivial
    fun _ => trivial) ?_
  rintro block h₂ - ⟨r, hr, rfl⟩
  obtain rfl : r = .ok block := hr
  refine Act.Spec.bind Act.Spec.ofExcept_eq ?_
  rintro txs h₃ - ⟨htxs, rfl⟩
  obtain rfl := okOr_eq_ok.mp htxs
  refine Act.Spec.mono (Act.Spec.firstSome (K := fun tx h => ∃ outputs, tx.vout = some outputs ∧
    ∀ output ∈ outputs, Dismissed q tx output h) (S := Unspent C) ?_ ?_) (fun _ => id) ?_
  · exact fun tx _ h₄ => searchTx_searches tx h₄
  · rintro tx h₄ h₅ he ⟨outputs, houtputs, hall⟩
    exact ⟨outputs, houtputs, fun output hmem => (hall output hmem).mono fun _ => he.mem⟩
  · rintro r h₄ he ⟨hall, hsome⟩
    refine ⟨fun hr => ⟨hash, txs, he.mem ?_, he.mem ?_, hall hr⟩, hsome⟩
    · exact List.mem_cons_of_mem _ List.mem_cons_self
    · exact List.mem_cons_self

end OpenSsp.Deposit
