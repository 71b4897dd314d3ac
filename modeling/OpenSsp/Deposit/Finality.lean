/-
OpenSsp/Deposit/Finality.lean

When the workers stop following the recovery of a deposit.

A claim is marked confirmed only by a program that has just seen the recovery transaction it stores
with enough confirmations (`Sound`).  Enough are three for an instant claim, and one for a fixed
claim.  What a program has seen is in the trace of the run, so a row that is marked stays accounted
for by it, whatever the node reports later.

Main results: `handler_sound`, `settled` and `finality`.
-/
import OpenSsp.Deposit.Calls

namespace OpenSsp.Deposit

open Interleave Bitcoin

variable {L : Library} {C : Service L} {h h' : History (Api L)}

/-! ### The contract -/

/-- The stored recovery transaction was observed at this depth. -/
def Seen (h : History (Api L)) (claim : ClaimRef) (depth : Int) (signedSpend : Option L.Raw) :
    Prop :=
  ∃ raw tx n, signedSpend = some raw ∧ L.deserializeHex raw = .ok tx ∧ depth ≤ n ∧
    (⟨.getTransaction claim (L.computeTxid tx), .ok (some n)⟩ : Event (Api L)) ∈ h

/-- A record is written as confirmed only when its recovery was seen deep enough. -/
def Sound (h : History (Api L)) : Call L → Prop
  | .db (.insertClaim record) => record.phase ≠ .spendTxConfirmed
  | .db (.saveClaim record) =>
      record.phase = .spendTxConfirmed → Seen h (.fixed record.id) 1 record.signedSpend
  | .db (.insertInstant record _ _) => record.phase ≠ .spendTxConfirmed
  | .db (.saveInstant record) =>
      record.phase = .spendTxConfirmed → Seen h (.instant record.id) 3 record.signedSpend
  | _ => True

/-- The calls that write no record of a claim. -/
def Call.quiet : Call L → Bool
  | .db (.insertClaim _) => false
  | .db (.saveClaim _) => false
  | .db (.insertInstant ..) => false
  | .db (.saveInstant _) => false
  | _ => true

/-- A quiet call needs to have seen nothing. -/
theorem Call.quiet_sound {c : Call L} (hc : c.quiet = true) : Sound h c := by
  cases c with
  | db q =>
      cases q with
      | insertClaim record => cases hc
      | saveClaim record => cases hc
      | insertInstant record maxDeposit limit => cases hc
      | saveInstant record => cases hc
      | _ => trivial
  | _ => trivial

/-- Below the level of a record's write every call is quiet. -/
theorem Call.quiet_of_level {c : Call L} (hc : c.level ≤ 2) : c.quiet = true := by
  cases c with
  | db q =>
      cases q with
      | insertClaim record => simp [Call.level] at hc
      | saveClaim record => simp [Call.level] at hc
      | insertInstant record maxDeposit limit => simp [Call.level] at hc
      | saveInstant record => simp [Call.level] at hc
      | _ => rfl
  | _ => rfl

/-- An action that writes no record of a claim. -/
def Quiet {α : Type} (act : Ssp L α) : Prop := Act.Calls (fun c : Call L => c.quiet = true) act

/-- An action that marks a claim confirmed only after it has seen enough. -/
def Obeys {α : Type} (act : Ssp L α) (R : α → History (Api L) → Prop) (h : History (Api L)) :
    Prop :=
  Act.Spec Sound (fun _ => True) act R h

/-- A quiet action keeps the contract whatever it was told. -/
theorem Quiet.obeys {α : Type} {act : Ssp L α} (hact : Quiet act) (h : History (Api L)) :
    Obeys act (fun _ _ => True) h :=
  hact.spec (fun _ _ hc => Call.quiet_sound hc) h

/-- A failed call and an odd reply count as no confirmation. -/
theorem observed_of_depth {observed : Except String (Option Int)} {depth : Int} (hpos : 0 < depth)
    (hdepth : depth ≤ (observed.toOption.bind id).getD 0) :
    ∃ n, observed = .ok (some n) ∧ depth ≤ n := by
  rcases observed with e | n
  · exact absurd hdepth (not_le.mpr hpos)
  · rcases n with - | n
    · exact absurd hdepth (not_le.mpr hpos)
    · exact ⟨n, rfl, hdepth⟩

theorem Within.quiet {α : Type} {act : Ssp L α} (hact : Within 2 act) : Quiet act :=
  Act.Calls.mono hact fun _ => Call.quiet_of_level

/-- What a look at the recovery transaction of a claim leaves in the history. -/
theorem getTransaction_obeys (claim : ClaimRef) {raw : L.Raw} {tx : Bitcoin.Transaction}
    {signedSpend : Option L.Raw} (hraw : signedSpend = some raw)
    (htx : L.deserializeHex raw = .ok tx) (h : History (Api L)) :
    Obeys (Act.attempt (getTransaction claim (L.computeTxid tx)))
      (fun observed h' => ∀ depth : Int, 0 < depth →
        depth ≤ (observed.toOption.bind id).getD 0 → Seen h' claim depth signedSpend) h := by
  have hobserve : Obeys (getTransaction claim (L.computeTxid tx))
      (fun n h' => ⟨.getTransaction claim (L.computeTxid tx), .ok n⟩ ∈ h') h := by
    apply Act.Spec.ask trivial fun _ => trivial
    rintro r n rfl
    exact List.mem_cons_self
  apply hobserve.attempt.mono fun _ => id
  intro observed h' _ hobserved depth hpos hdepth
  obtain ⟨n, rfl, hn⟩ := observed_of_depth hpos hdepth
  exact ⟨raw, tx, n, hraw, htx, hn, hobserved (some n) rfl⟩

/-! ### Quiet functions -/

theorem ask_quiet {α : Type} {c : Call L} {conv : c.Reply → Except String α}
    (hc : c.quiet = true) : Quiet (Act.ask (I := Api L) c conv) := .ask hc

theorem tell_quiet {c : Call L} (hc : c.quiet = true) : Quiet (tell c) := .tell hc

/-- The lock itself writes nothing. -/
theorem locked_quiet {α : Type} {l : Lock} {body : Ssp L α} (hbody : Quiet body) :
    Quiet (locked l body) :=
  Act.Calls.bracket (tell_quiet (c := .lock l) rfl) (tell_quiet (c := .unlock l) rfl) hbody

/-- To make a quote writes no record of a claim. -/
theorem quote_quiet (owner : String) (input : OutputInput) : Quiet (quote C owner input) := by
  apply Act.Calls.ofExcept.bind
  intro _
  apply Act.Calls.ofExcept.bind
  intro point
  exact locked_quiet (quoteOutput_within (by omega) owner point.1 point.2).quiet

/-- The same for instant quotes. -/
theorem instantQuote_quiet (owner : String) (input : OutputInput) :
    Quiet (instantQuote C owner input) := by
  apply Act.Calls.ofExcept.bind
  intro _
  apply Act.Calls.ofExcept.bind
  intro point
  exact locked_quiet (instantQuoteOutput_within (by omega) owner point.1 point.2).quiet

/-! ### Fixed claims -/

/-- A save that does not mark the claim confirmed needs to know nothing. -/
theorem saveClaim_obeys {record : DepositClaim L} (hphase : record.phase ≠ .spendTxConfirmed)
    (h : History (Api L)) : Obeys (db (.saveClaim record)) (fun _ _ => True) h :=
  .ask (fun hconfirmed => absurd hconfirmed hphase) (fun _ => trivial) fun _ _ _ => trivial

/-- A locked action keeps the contract when its body does. -/
theorem locked_obeys {α : Type} {l : Lock} {body : Ssp L α}
    (hbody : ∀ h', Obeys body (fun _ _ => True) h') (h : History (Api L)) :
    Obeys (locked l body) (fun _ _ => True) h := by
  apply Act.Spec.bracket (T := fun _ _ => True)
  · exact (tell_quiet (c := .lock l) rfl).obeys h
  · exact fun h' _ _ => hbody h'
  · intro h' _
    apply ((tell_quiet (c := .unlock l) rfl).obeys h').mono (fun _ => id)
    exact fun _ _ _ _ _ _ => trivial

/-- The record with the signed spend is not confirmed yet. -/
theorem signSpend_obeys (record : DepositClaim L) (h : History (Api L)) :
    Obeys (signSpend C record) (fun r _ => r.id = record.id) h := by
  apply Act.Spec.ite
  · exact fun _ => .pure rfl
  · intro _
    apply Act.Spec.bind ((submitStaticClaim_within le_rfl _ _ _ false).quiet.obeys h)
    intro raw h₁ _ _
    apply Act.Spec.bind (saveClaim_obeys (by exact nofun) h₁)
    intro _ h₂ _ _
    exact .pure rfl

/-- A claim is confirmed on the sight of one confirmation, and on nothing less. -/
theorem advance_obeys (record : DepositClaim L) (h : History (Api L)) :
    Obeys (advance C record) (fun _ _ => True) h := by
  apply Act.Spec.ite
  · exact fun _ => .pure trivial
  · intro _
    apply Act.Spec.bind (signSpend_obeys record h)
    intro record h₁ _ _
    apply Act.Spec.bind Act.Spec.ofExcept_eq
    rintro raw _ _ ⟨hraw, rfl⟩
    apply Act.Spec.bind Act.Spec.ofExcept_eq
    rintro tx h₂ _ ⟨htx, rfl⟩
    apply Act.Spec.bind (getTransaction_obeys (.fixed record.id) (okOr_eq_ok.mp hraw) htx h₂)
    intro observed h₃ _ hseen
    apply Act.Spec.ite
    · -- confirmed: the save is allowed by what was just seen
      intro hconfirmed
      have hsaved : Obeys (db (.saveClaim
          { record with status := .succeeded, phase := .spendTxConfirmed })) (fun _ _ => True) h₃ :=
        .ask (fun _ => hseen 1 one_pos (of_decide_eq_true hconfirmed)) (fun _ => trivial)
          fun _ _ _ => trivial
      apply Act.Spec.bind hsaved
      exact fun _ _ _ _ => .pure trivial
    · intro _
      apply Act.Spec.bind ((ask_quiet (c := .sendRecovery (.fixed record.id) raw) rfl).obeys h₃)
      intro _ h₄ _ _
      apply Act.Spec.bind (saveClaim_obeys (by exact nofun) h₄)
      exact fun _ _ _ _ => .pure trivial

/-- A new record is not confirmed. -/
theorem newClaim_obeys (owner txid : String) (vout : UInt32) (input : ClaimInput)
    (h : History (Api L)) : Obeys (newClaim C owner txid vout input) (fun _ _ => True) h := by
  apply Act.Spec.bind ((ask_quiet (c := .db (.depositQuote txid vout owner)) rfl).obeys h)
  intro found h₁ _ _
  apply Act.Spec.bind Act.Spec.ofExcept_eq
  rintro quote h₂ _ -
  apply Act.Spec.guard
  intro _
  apply Act.Spec.bind Act.Spec.ofExcept_eq
  rintro encrypted h₃ _ -
  apply Act.Spec.bind Act.Spec.ofExcept_eq
  rintro signature h₄ _ -
  apply Act.Spec.bind Act.Spec.ofExcept_eq
  rintro _ h₅ _ -
  apply Act.Spec.bind ((ask_quiet (c := .getTxOut txid vout.toNat) rfl).obeys h₅)
  intro coin h₆ _ _
  apply Act.Spec.guard
  intro _
  apply Act.Spec.bind ((ask_quiet (c := .getRawChangeAddress) rfl).obeys h₆)
  intro destination h₇ _ _
  apply Act.Spec.bind Act.Spec.ofExcept_eq
  rintro parsed h₈ _ -
  apply Act.Spec.bind ((tell_quiet (c := .newUuid) rfl).obeys h₈)
  intro transfer h₉ _ _
  apply Act.Spec.bind ((prepareStaticClaim_within _ _ _ _ _).quiet.obeys h₉)
  intro plan h₁₀ _ _
  apply Act.Spec.bind ((tell_quiet (c := .newUuid) rfl).obeys h₁₀)
  intro id h₁₁ _ _
  -- a new claim is stored as `CREATED`
  apply Act.Spec.bind (R := fun _ _ => True)
    (.ask (by exact nofun) (fun _ => trivial) fun _ _ _ => trivial)
  intro _ h₁₂ _ _
  apply Act.Spec.bind (advance_obeys _ h₁₂)
  exact fun _ _ _ _ => .pure trivial

/-- A claim that is made again advances the one that was made. -/
theorem claim_obeys (owner : String) (input : ClaimInput) (h : History (Api L)) :
    Obeys (claim C owner input) (fun _ _ => True) h := by
  apply Act.Spec.bind Act.Spec.ofExcept_eq
  rintro _ h₁ _ -
  apply Act.Spec.bind Act.Spec.ofExcept_eq
  rintro point h₂ _ -
  apply locked_obeys
  apply locked_obeys
  intro h₃
  apply Act.Spec.bind
    ((ask_quiet (c := .db (.ownDepositClaim point.1 point.2 owner)) rfl).obeys h₃)
  intro existing h₄ _ _
  rcases existing with - | record
  · exact newClaim_obeys owner point.1 point.2 input h₄
  · apply Act.Spec.guard
    intro _
    apply Act.Spec.bind (advance_obeys record h₄)
    exact fun _ _ _ _ => .pure trivial

/-- A failed recovery writes its error and no phase. -/
theorem recover_obeys (record : DepositClaim L) (h : History (Api L)) :
    Obeys (recover C record) (fun _ _ => True) h := by
  apply Act.Spec.bind (advance_obeys record h).attempt
  intro outcome h₁ _ _
  rcases outcome with e | record
  · apply Act.Spec.bind ((ask_quiet (c := .db (.claimError _ e)) rfl).obeys h₁).attempt
    exact fun _ _ _ _ => .pure trivial
  · exact .pure trivial

/-- Each pending claim on its own. -/
theorem pass_obeys (h : History (Api L)) : Obeys (pass C) (fun _ _ => True) h := by
  apply locked_obeys
  intro h₁
  apply Act.Spec.bind ((ask_quiet (c := .db .pendingClaims) rfl).obeys h₁).attempt
  intro outcome h₂ _ _
  rcases outcome with e | records
  · exact .pure trivial
  · apply Act.Spec.forEach (K := fun _ _ => True)
    · exact fun record _ h₃ _ _ => locked_obeys (recover_obeys record) h₃
    · exact fun _ _ _ _ => trivial

/-! ### Instant claims -/

@[inherit_doc saveClaim_obeys]
theorem saveInstant_obeys {r : InstantClaim L} (hphase : r.phase ≠ .spendTxConfirmed)
    (h : History (Api L)) : Obeys (db (.saveInstant r)) (fun _ _ => True) h :=
  .ask (fun hconfirmed => absurd hconfirmed hphase) (fun _ => trivial) fun _ _ _ => trivial

/-- The phase after a payout is not the last one. -/
theorem payInstant_obeys (r : InstantClaim L) (h : History (Api L)) :
    Obeys (payInstant C r) (fun _ _ => True) h := by
  apply Act.Spec.ite
  · intro _
    apply Act.Spec.bind ((submitInstantReserve_within le_rfl _ _ _).quiet.obeys h)
    intro _ h₁ _ _
    apply Act.Spec.bind (saveInstant_obeys (by exact nofun) h₁)
    exact fun _ _ _ _ => .pure trivial
  · exact fun _ => .pure trivial

/-- A search without a result moves the height, in the same phase. -/
theorem searchReplacement_obeys {r : InstantClaim L} (hphase : r.phase ≠ .spendTxConfirmed)
    (h : History (Api L)) : Obeys (searchReplacement C r) (fun _ _ => True) h := by
  apply Act.Spec.bind ((ask_quiet (c := .getBlockCount) rfl).obeys h)
  intro tip h₁ _ _
  have hsearch := Act.Calls.firstSome (fun height => (searchBlock_within (C := C) r.quote.deposit height).quiet)
    (List.range' (scanRange r.scanHeight tip).1
      ((scanRange r.scanHeight tip).2 + 1 - (scanRange r.scanHeight tip).1))
  apply Act.Spec.bind (Quiet.obeys hsearch h₁)
  intro found h₂ _ _
  rcases found with - | point
  · have hsaved := saveInstant_obeys
      (r := { r with scanHeight := nextScanHeight (scanRange r.scanHeight tip).2 tip }) hphase h₂
    exact Act.Spec.bind hsaved fun _ _ _ _ => .pure trivial
  · exact .pure trivial

/-- Neither way to an output confirms the claim. -/
theorem confirmedInstantOutpoint_obeys {r : InstantClaim L} (hphase : r.phase ≠ .spendTxConfirmed)
    (h : History (Api L)) : Obeys (confirmedInstantOutpoint C r) (fun _ _ => True) h := by
  apply Act.Spec.bind ((ask_quiet (c := .getTxOut _ _) rfl).obeys h)
  intro found h₁ _ _
  rcases found with - | coin
  · exact searchReplacement_obeys hphase h₁
  · apply Act.Spec.ite
    · intro _
      apply Act.Spec.bind Act.Spec.ofExcept_eq
      exact fun _ _ _ _ => .pure trivial
    · exact fun _ => .pure trivial

/-- A frozen plan is not confirmed. -/
theorem prepareRecovery_obeys (r : InstantClaim L) (h : History (Api L)) :
    Obeys (prepareRecovery C r) (fun _ _ => True) h := by
  apply Act.Spec.ite
  · intro hphase
    apply Act.Spec.bind (confirmedInstantOutpoint_obeys (by rw [hphase]; exact nofun) h)
    rintro ⟨found, r⟩ h₁ _ _
    rcases found with - | point
    · exact .pure trivial
    · apply Act.Spec.bind Act.Spec.ofExcept_eq
      rintro request h₂ _ -
      apply Act.Spec.bind (saveInstant_obeys (by exact nofun) h₂)
      exact fun _ _ _ _ => .pure trivial
  · exact fun _ => .pure trivial

/-- Nor is a signed spend. -/
theorem signInstantSpend_obeys (r : InstantClaim L) (h : History (Api L)) :
    Obeys (signInstantSpend C r) (fun _ _ => True) h := by
  apply Act.Spec.ite
  · exact fun _ => .pure trivial
  · intro _
    apply Act.Spec.bind ((submitStaticClaim_within le_rfl _ _ _ true).quiet.obeys h)
    intro spend h₁ _ _
    apply Act.Spec.bind (saveInstant_obeys (by exact nofun) h₁)
    exact fun _ _ _ _ => .pure trivial

/-- An instant claim is confirmed on the sight of three confirmations. -/
theorem settleInstant_obeys (r : InstantClaim L) (h : History (Api L)) :
    Obeys (settleInstant r) (fun _ _ => True) h := by
  apply Act.Spec.bind Act.Spec.ofExcept_eq
  rintro raw _ _ ⟨hraw, rfl⟩
  apply Act.Spec.bind Act.Spec.ofExcept_eq
  rintro spend h₁ _ ⟨hspend, rfl⟩
  apply Act.Spec.bind (getTransaction_obeys (.instant r.id) (okOr_eq_ok.mp hraw) hspend h₁)
  intro observed h₂ _ hseen
  have hbroadcast : Quiet (broadcastUnseen r raw ((observed.toOption.bind id).getD 0)) :=
    .ite (ask_quiet rfl) .pure
  apply Act.Spec.bind ((hbroadcast.obeys h₂).mono (fun _ => id) (S := fun _ h' => ∀ depth : Int,
    0 < depth → depth ≤ (observed.toOption.bind id).getD 0 →
      Seen h' (.instant r.id) depth r.signedSpend) ?_)
  · intro _ h₃ _ hseen
    apply Act.Spec.ask _ (fun _ => trivial) fun _ _ _ => trivial
    intro hphase
    by_cases hdepth : 3 ≤ (observed.toOption.bind id).getD 0
    · exact hseen 3 (by decide) hdepth
    · rw [if_neg hdepth] at hphase
      cases hphase
  · intro _ h' hext _ depth hpos hdepth
    obtain ⟨raw, tx, n, hraw, htx, hn, hmem⟩ := hseen depth hpos hdepth
    exact ⟨raw, tx, n, hraw, htx, hn, hext.mem hmem⟩

/-- The phases that come before the last are written without a look. -/
theorem advanceInstant_obeys (r : InstantClaim L) (h : History (Api L)) :
    Obeys (advanceInstant C r) (fun _ _ => True) h := by
  apply Act.Spec.ite
  · exact fun _ => .pure trivial
  · intro _
    apply Act.Spec.bind (payInstant_obeys r h)
    intro r h₁ _ _
    apply Act.Spec.bind (prepareRecovery_obeys r h₁)
    intro prepared h₂ _ _
    rcases prepared with - | r
    · exact .pure trivial
    · apply Act.Spec.bind (signInstantSpend_obeys r h₂)
      exact fun r h₃ _ _ => settleInstant_obeys r h₃

/-- A new record is not confirmed. -/
theorem newInstantClaim_obeys (owner quoteId : String) (input : InstantClaimInput)
    (h : History (Api L)) :
    Obeys (newInstantClaim C owner quoteId input) (fun _ _ => True) h := by
  apply Act.Spec.bind ((ask_quiet (c := .db (.instantQuoteById quoteId owner)) rfl).obeys h)
  intro quote h₁ _ _
  apply Act.Spec.bind ((ask_quiet (c := .db .instantOutstanding) rfl).obeys h₁)
  intro outstanding h₂ _ _
  apply Act.Spec.bind Act.Spec.ofExcept_eq
  rintro _ h₃ _ -
  apply Act.Spec.bind Act.Spec.ofExcept_eq
  rintro signature h₄ _ -
  apply Act.Spec.bind Act.Spec.ofExcept_eq
  rintro encrypted h₅ _ -
  apply Act.Spec.bind ((ask_quiet (c := .getTxOut _ _) rfl).obeys h₅)
  intro found h₆ _ _
  apply Act.Spec.bind Act.Spec.ofExcept_eq
  rintro coin h₇ _ -
  apply Act.Spec.bind Act.Spec.ofExcept_eq
  rintro value h₈ _ -
  apply Act.Spec.guard
  intro _
  apply Act.Spec.bind ((checkAncestors_within _ coin).quiet.obeys h₈)
  intro _ h₉ _ _
  apply Act.Spec.bind ((ask_quiet (c := .db (.instantBusy owner quote.deposit)) rfl).obeys h₉)
  intro busy h₁₀ _ _
  apply Act.Spec.guard
  intro _
  apply Act.Spec.bind ((ask_quiet (c := .getRawChangeAddress) rfl).obeys h₁₀)
  intro destination h₁₁ _ _
  apply Act.Spec.bind Act.Spec.ofExcept_eq
  rintro parsed h₁₂ _ -
  apply Act.Spec.bind ((tell_quiet (c := .newUuid) rfl).obeys h₁₂)
  intro transfer h₁₃ _ _
  apply Act.Spec.bind ((prepareStaticClaim_within _ _ _ _ _).quiet.obeys h₁₃)
  intro plan h₁₄ _ _
  apply Act.Spec.bind ((tell_quiet (c := .newUuid) rfl).obeys h₁₄)
  intro id h₁₅ _ _
  -- a new claim is stored as `CREATED`
  apply Act.Spec.bind (R := fun _ _ => True)
    (.ask (by exact nofun) (fun _ => trivial) fun _ _ _ => trivial)
  intro _ h₁₆ _ _
  apply Act.Spec.bind (advanceInstant_obeys _ h₁₆)
  exact fun _ _ _ _ => .pure trivial

/-- An instant claim that is made again advances the one that was made. -/
theorem instantClaim_obeys (owner : String) (input : InstantClaimInput) (h : History (Api L)) :
    Obeys (instantClaim C owner input) (fun _ _ => True) h := by
  apply Act.Spec.bind Act.Spec.ofExcept_eq
  rintro quoteId h₁ _ -
  apply locked_obeys
  apply locked_obeys
  intro h₂
  apply Act.Spec.bind
    ((ask_quiet (c := .db (.instantClaimForQuote quoteId owner)) rfl).obeys h₂)
  intro existing h₃ _ _
  rcases existing with - | record
  · exact newInstantClaim_obeys owner quoteId input h₃
  · apply Act.Spec.bind (advanceInstant_obeys record h₃)
    exact fun _ _ _ _ => .pure trivial

/-- A failed recovery writes its error and no phase. -/
theorem recoverInstantClaim_obeys (record : InstantClaim L) (h : History (Api L)) :
    Obeys (recoverInstantClaim C record) (fun _ _ => True) h := by
  apply Act.Spec.bind ((ask_quiet (c := .db (.instantById record.id)) rfl).obeys h).attempt
  intro found h₁ _ _
  rcases found with e | current
  · exact .pure trivial
  · apply Act.Spec.bind (advanceInstant_obeys current h₁).attempt
    intro outcome h₂ _ _
    rcases outcome with e | _
    · apply Act.Spec.bind ((ask_quiet (c := .db (.instantError _ e)) rfl).obeys h₂).attempt
      exact fun _ _ _ _ => .pure trivial
    · exact .pure trivial

/-- At most twenty claims, each under both locks. -/
theorem instantPass_obeys (h : History (Api L)) :
    Obeys (instantPass C) (fun _ _ => True) h := by
  apply Act.Spec.bind ((ask_quiet (c := .sampleInstants) rfl).obeys h).attempt
  intro outcome h₁ _ _
  rcases outcome with e | records
  · exact .pure trivial
  · apply Act.Spec.forEach (K := fun _ _ => True)
    · exact fun record _ h₂ _ _ => locked_obeys (locked_obeys (recoverInstantClaim_obeys record)) h₂
    · exact fun _ _ _ _ => trivial

/-- Every program keeps the contract. -/
theorem handler_sound (r : Request) :
    ((machine C).handler r).wp Sound (fun _ _ => True) [] := by
  have hdiscard : ∀ {α : Type} {act : Ssp L α}, Obeys act (fun _ _ => True) [] →
      (discard act.run : Prog (Api L) Unit).wp Sound (fun _ _ => True) [] := by
    intro α act hact
    rw [Prog.wp_discard]
    exact Prog.wp_mono hact.wp fun _ _ _ => trivial
  cases r with
  | quote owner input => exact hdiscard ((quote_quiet owner input).obeys [])
  | claim owner input => exact hdiscard (claim_obeys owner input [])
  | pass => exact hdiscard (pass_obeys [])
  | instantQuote owner input => exact hdiscard ((instantQuote_quiet owner input).obeys [])
  | instantClaim owner input => exact hdiscard (instantClaim_obeys owner input [])
  | instantPass => exact hdiscard (instantPass_obeys [])

/-! ### What a step writes -/

variable {ok : Config (machine C) → Move (machine C) → Prop}

/-- What a call does to the tables of claims. -/
inductive Writes (w w' : World L) : Call L → Prop
  | same {c : Call L} (h : SameClaims w.db w'.db) : Writes w w' c
  | insertClaim (record : DepositClaim L) (h : w.db.insertClaim record w.now = .ok w'.db) :
      Writes w w' (.db (.insertClaim record))
  | saveClaim (record : DepositClaim L) (h : w.db.saveClaim record = .ok w'.db) :
      Writes w w' (.db (.saveClaim record))
  | insertInstant (record : InstantClaim L) (maxDeposit limit : Nat)
      (h : w.db.insertInstant record maxDeposit limit w.now = .ok w'.db) :
      Writes w w' (.db (.insertInstant record maxDeposit limit))
  | saveInstant (record : InstantClaim L) (h : w.db.saveInstant record = .ok w'.db) :
      Writes w w' (.db (.saveInstant record))

/-- A statement writes what its function says, and none writes more than one record. -/
theorem query_writes (q : Query L) (w : World L) :
    Writes w { w with db := (q.run w.now w.db).2 } (.db q) := by
  by_cases hq : q.WritesClaim
  · cases q with
    | insertClaim record =>
        rcases hins : w.db.insertClaim record w.now with e | db
        · exact .same (.transact fun db' h => by rw [hins] at h; cases h)
        · exact .insertClaim record (by simp only [Query.run, transact, hins])
    | saveClaim record =>
        rcases hsave : w.db.saveClaim record with e | db
        · exact .same (.transact fun db' h => by rw [hsave] at h; cases h)
        · exact .saveClaim record (by simp only [Query.run, transact, hsave])
    | insertInstant record maxDeposit limit =>
        rcases hins : w.db.insertInstant record maxDeposit limit w.now with e | db
        · exact .same (.transact fun db' h => by rw [hins] at h; cases h)
        · exact .insertInstant record maxDeposit limit (by simp only [Query.run, transact, hins])
    | saveInstant record =>
        rcases hsave : w.db.saveInstant record with e | db
        · exact .same (.transact fun db' h => by rw [hsave] at h; cases h)
        · exact .saveInstant record (by simp only [Query.run, transact, hsave])
    | _ => exact hq.elim
  · exact .same (Query.run_frame hq)

/-- The other calls leave the claims alone. -/
theorem perform_writes {t : Nat} {c : Call L} {ch : Choice} {w w' : World L} {r : c.Reply}
    (h : perform t c ch w = some (r, w')) : Writes w w' c := by
  cases c with
  | db q =>
      cases ch <;> simp only [perform, Option.some.injEq, Prod.mk.injEq, reduceCtorEq] at h
      · obtain ⟨-, rfl⟩ := h
        exact query_writes q w
      · obtain ⟨-, rfl⟩ := h
        exact .same (.refl _)
  | lock l =>
      cases ch <;> simp only [perform, Option.map_eq_some_iff, Prod.mk.injEq, reduceCtorEq] at h
      obtain ⟨locks, -, -, rfl⟩ := h
      exact .same (.refl _)
  | sampleInstants =>
      cases ch <;> simp only [perform, Option.map_eq_some_iff, Option.some.injEq, Prod.mk.injEq,
        reduceCtorEq] at h
      · obtain ⟨-, rfl⟩ := h
        exact .same (.refl _)
      · obtain ⟨records, -, -, rfl⟩ := h
        exact .same (.refl _)
  | _ =>
      cases ch <;> simp only [perform, Option.some.injEq, Prod.mk.injEq, reduceCtorEq] at h
      all_goals
        obtain ⟨-, rfl⟩ := h
        exact .same (.refl _)

/-- The confirmations a program sees are the node's reply. -/
theorem perform_getTransaction {t : Nat} {claim : ClaimRef} {txid : Txid} {ch : Choice}
    {w w' : World L} {r : (Call.getTransaction claim txid : Call L).Reply}
    (h : perform t (.getTransaction claim txid) ch w = some (r, w')) :
    (∃ n, ch = .confirmations n ∧ r = .ok n) ∨ ∃ e, r = .error e := by
  cases ch with
  | confirmations n =>
      obtain ⟨rfl, -⟩ := Prod.mk.inj (Option.some.inj h)
      exact .inl ⟨n, rfl, rfl⟩
  | fail e =>
      obtain ⟨rfl, -⟩ := Prod.mk.inj (Option.some.inj h)
      exact .inr ⟨e, rfl⟩
  | _ => simp [perform] at h

/-- The same of a move: it leaves the claims alone, or makes one call that writes. -/
theorem step_writes {s s' : Config (machine C)} {m : Move (machine C)} (hst : s.step m = some s') :
    SameClaims s.world.db s'.world.db ∨
      ∃ t c k hist, s.thread t = some ⟨.call c k, hist⟩ ∧ Writes s.world s'.world c := by
  rcases Config.step_cases hst with ⟨r, -, rfl⟩ | ⟨t, ch, c, k, hist, r, w, -, hth, hp, rfl⟩ |
    ⟨t, th, -, -, rfl⟩ | ⟨-, rfl⟩ | ⟨n, w, -, ho, rfl⟩
  · exact .inl (.refl _)
  · exact .inr ⟨t, c, k, hist, hth, perform_writes hp⟩
  · exact .inl (.refl _)
  · exact .inl (.refl _)
  · obtain rfl := Option.some.inj ho
    exact .inl (.refl _)

/-! ### Runs -/

/-- In this run a program has seen the transaction with `n` confirmations. -/
def Observed (s : Config (machine C)) (claim : ClaimRef) (txid : Txid) (n : Int) : Prop :=
  ∃ t, (t, (⟨.getTransaction claim txid, .ok (some n)⟩ : Event (Api L))) ∈ s.trace

/-- The recovery transaction of the claim has been observed at this depth. -/
def Settled (s : Config (machine C)) (claim : ClaimRef) (depth : Int)
    (signedSpend : Option L.Raw) : Prop :=
  ∃ raw tx n, signedSpend = some raw ∧ L.deserializeHex raw = .ok tx ∧ depth ≤ n ∧
    Observed s claim (L.computeTxid tx) n

/-- What was settled is settled later. -/
theorem Settled.step {s s' : Config (machine C)} {m : Move (machine C)}
    (hst : s.step m = some s') {claim : ClaimRef} {depth : Int} {signedSpend : Option L.Raw}
    (h : Settled s claim depth signedSpend) : Settled s' claim depth signedSpend := by
  obtain ⟨raw, tx, n, hraw, htx, hn, t, hmem⟩ := h
  exact ⟨raw, tx, n, hraw, htx, hn, t, Config.trace_grows hst hmem⟩

/-- What a program has seen was observed in the run. -/
theorem Seen.settled {s : Config (machine C)} (hs : Reach ok s) {t : Nat} {th : Thread (Api L)}
    (hth : s.thread t = some th) {claim : ClaimRef} {depth : Int} {signedSpend : Option L.Raw}
    (h : Seen th.history claim depth signedSpend) : Settled s claim depth signedSpend := by
  obtain ⟨raw, tx, n, hraw, htx, hn, hmem⟩ := h
  exact ⟨raw, tx, n, hraw, htx, hn, t, hs.history_mem t th hth _ hmem⟩

/-- Every claim that is marked confirmed is settled. -/
structure Accounted (s : Config (machine C)) : Prop where
  fixed : ∀ row ∈ s.world.db.claims.val, row.data.phase = .spendTxConfirmed →
    Settled s (.fixed row.id) 1 row.data.signedSpend
  instant : ∀ row ∈ s.world.db.instants.val, row.phase = .spendTxConfirmed →
    Settled s (.instant row.id) 3 row.data.signedSpend

namespace Accounted

variable {s s' : Config (machine C)} {m : Move (machine C)}

/-- A move that leaves the claims alone keeps the account of them. -/
theorem same (hs : Accounted s) (hst : s.step m = some s')
    (h : SameClaims s.world.db s'.world.db) : Accounted s' where
  fixed := by
    intro row' hrow' hphase
    obtain ⟨row, hrow, hid, hdata⟩ := h.claims row' hrow'
    rw [hdata] at hphase ⊢
    rw [hid]
    exact (hs.fixed row hrow hphase).step hst
  instant := by
    intro row' hrow' hphase
    obtain ⟨row, hrow, hid, hcolumn, hdata⟩ := h.instants row' hrow'
    rw [hcolumn] at hphase
    rw [hid, hdata]
    exact (hs.instant row hrow hphase).step hst

/-- A new claim is still tracked, so nothing is to be shown for it. -/
theorem insertClaim {record : DepositClaim L} {now : Nat} (hs : Accounted s)
    (hst : s.step m = some s') (hnew : record.phase ≠ .spendTxConfirmed)
    (h : s.world.db.insertClaim record now = .ok s'.world.db) : Accounted s' := by
  obtain ⟨hrows, hinstants⟩ := Db.insertClaim_ok h
  constructor
  · intro row hrow hphase
    rw [hrows] at hrow
    rcases List.mem_cons.mp hrow with rfl | hrow
    · exact absurd hphase hnew
    · exact (hs.fixed row hrow hphase).step hst
  · rw [hinstants]
    exact fun row hrow hphase => (hs.instant row hrow hphase).step hst

/-- A claim that is written as confirmed was settled before. -/
theorem saveClaim {record : DepositClaim L} (hs : Accounted s) (hst : s.step m = some s')
    (hseen : record.phase = .spendTxConfirmed →
      Settled s (.fixed record.id) 1 record.signedSpend)
    (h : s.world.db.saveClaim record = .ok s'.world.db) : Accounted s' := by
  obtain ⟨hrows, hinstants⟩ := Db.saveClaim_ok h
  constructor
  · intro row' hrow' hphase
    obtain ⟨row, hrow, ⟨hid, rfl⟩ | ⟨-, rfl⟩⟩ := hrows row' hrow'
    · show Settled s' (.fixed row.id) 1 record.signedSpend
      rw [hid]
      exact (hseen hphase).step hst
    · exact (hs.fixed row' hrow hphase).step hst
  · rw [hinstants]
    exact fun row hrow hphase => (hs.instant row hrow hphase).step hst

/-- A new instant claim is tracked. -/
theorem insertInstant {record : InstantClaim L} {maxDeposit limit now : Nat} (hs : Accounted s)
    (hst : s.step m = some s') (hnew : record.phase ≠ .spendTxConfirmed)
    (h : s.world.db.insertInstant record maxDeposit limit now = .ok s'.world.db) :
    Accounted s' := by
  obtain ⟨hrows, hclaims⟩ := Db.insertInstant_ok h
  constructor
  · rw [hclaims]
    exact fun row hrow hphase => (hs.fixed row hrow hphase).step hst
  · intro row hrow hphase
    rw [hrows] at hrow
    rcases List.mem_cons.mp hrow with rfl | hrow
    · exact absurd hphase hnew
    · exact (hs.instant row hrow hphase).step hst

/-- An instant claim that is written as confirmed was settled before. -/
theorem saveInstant {record : InstantClaim L} (hs : Accounted s) (hst : s.step m = some s')
    (hseen : record.phase = .spendTxConfirmed →
      Settled s (.instant record.id) 3 record.signedSpend)
    (h : s.world.db.saveInstant record = .ok s'.world.db) : Accounted s' := by
  obtain ⟨hrows, hclaims⟩ := Db.saveInstant_ok h
  constructor
  · rw [hclaims]
    exact fun row hrow hphase => (hs.fixed row hrow hphase).step hst
  · intro row' hrow' hphase
    obtain ⟨row, hrow, ⟨hid, rfl⟩ | ⟨-, rfl⟩⟩ := hrows row' hrow'
    · show Settled s' (.instant row.id) 3 record.signedSpend
      rw [hid]
      exact (hseen hphase).step hst
    · exact (hs.instant row' hrow hphase).step hst

/-- One move keeps the account: whoever saves a claim as confirmed has seen it settled. -/
theorem step (hr : Reach ok s) (hs : Accounted s) (hst : s.step m = some s') : Accounted s' := by
  rcases step_writes hst with hsame | ⟨t, c, k, hist, hth, hw⟩
  · exact hs.same hst hsame
  · have hsound : Sound hist c := hr.justified handler_sound hth
    rcases hw with hsame | ⟨record, h⟩ | ⟨record, h⟩ | ⟨record, maxDeposit, limit, h⟩ | ⟨record, h⟩
    · exact hs.same hst hsame
    · exact hs.insertClaim hst hsound h
    · exact hs.saveClaim hst (fun hphase => (hsound hphase).settled hr hth) h
    · exact hs.insertInstant hst hsound h
    · exact hs.saveInstant hst (fun hphase => (hsound hphase).settled hr hth) h

end Accounted

/-- Claims are marked confirmed after one confirmation, or after three. -/
theorem accounted {s : Config (machine C)} (hs : Reach ok s) : Accounted s := by
  refine hs.invariant (J := Accounted) ?_ ?_
  · constructor
    · intro row hrow
      cases hrow
    · intro row hrow
      cases hrow
  · exact fun s s' m hr ih _ hst => ih.step hr hst

/-! ### Finality -/

/-- The node reports no recovery of a fixed claim with one or two confirmations. -/
def Deep (s : Config (machine C)) (m : Move (machine C)) : Prop :=
  ∀ t n id txid, m = .run t (.confirmations (some n)) →
    s.next t = some (.getTransaction (.fixed id) txid) → n ≤ 0 ∨ 3 ≤ n

/-- In such a run a recovery of a fixed claim is unconfirmed or three blocks deep. -/
theorem observed_deep {s : Config (machine C)} (hs : Reach Deep s) {id : String} {txid : Txid}
    {n : Int} (h : Observed s (.fixed id) txid n) : n ≤ 0 ∨ 3 ≤ n := by
  obtain ⟨t, hmem⟩ := h
  obtain ⟨hist, s₀, s₁, hm, -⟩ := hs.knew t _ hmem
  obtain ⟨ch, k, hth, hdeep, hp, -⟩ := hm.made
  have hnext : s₀.next t = some (.getTransaction (.fixed id) txid) := by
    simp only [Config.next, hth, Option.bind_some, Prog.next]
  have hp : perform t (.getTransaction (.fixed id) txid) ch s₀.world =
      some (.ok (some n), s₁.world) := hp
  rcases perform_getTransaction hp with ⟨m, rfl, hreply⟩ | ⟨e, hreply⟩
  · obtain rfl := Except.ok.inj hreply
    exact hdeep t n id txid rfl hnext
  · cases hreply

/-- **Finality**: a claim leaves the set its worker follows only after its recovery transaction has
been observed with three confirmations, in every run in which no recovery of a fixed claim is
reported with one or two. -/
theorem finality {s : Config (machine C)} (hs : Reach Deep s) :
    (∀ row ∈ s.world.db.claims.val, row.tracked = false →
      Settled s (.fixed row.id) 3 row.data.signedSpend) ∧
    (∀ row ∈ s.world.db.instants.val, row.tracked = false →
      Settled s (.instant row.id) 3 row.data.signedSpend) := by
  have hall := accounted hs
  constructor
  · intro row hrow htracked
    obtain ⟨raw, tx, n, hraw, htx, hn, hseen⟩ := hall.fixed row hrow (by
      simpa [DepositRow.tracked] using htracked)
    refine ⟨raw, tx, n, hraw, htx, ?_, hseen⟩
    rcases observed_deep hs hseen with hnone | hdeep
    · omega
    · exact hdeep
  · intro row hrow htracked
    exact hall.instant row hrow (by simpa [InstantRow.tracked] using htracked)

/-! ### Concrete runs -/

/-- A service on regtest; keys, quotes and signatures are short texts. -/
def Service.sample : Service .sample where
  identity := [1]
  network := "REGTEST"
  instantLimit := 0
  instantMaxDeposit := 0
  parsePublicKey s := .ok ⟨s⟩
  parseTxid s := (hexDecode s).map Txid.mk
  printTxid txid := hexEncode txid.bytes
  hexBytes s := okOr "invalid hex" (hexDecode s)
  scriptFromHex s := okOr "invalid script" (hexDecode s)
  addressFromScript _ _ := .ok "bcrt1p"
  signDepositQuote _ _ _ _ _ _ := "30"
  signInstantQuote _ _ _ _ _ _ _ _ := "30"
  validateStaticAuthorization _ _ _ := .ok ()
  instantAuthorization _ _ encrypted _ := okOr "no key" encrypted

namespace Sample

/-- Program `t` makes its next calls. -/
def calls (t : Nat) (chs : List Choice) : List (Move (machine .sample)) := Move.runs t chs

/-- The output of the deposit, three blocks deep. -/
def coin : Coin := ⟨some 3, .ok 10000, some ("5120" ++ String.ofList (List.replicate 64 '0'))⟩

/-- The output as a request names it. -/
def output : OutputInput := ⟨none, some "aa", some 0⟩

def transferId : Uuid := Uuid.fill 1

def claimId : Uuid := Uuid.fill 2

/-- The operators make the transfer to Alice and sign. -/
def signed : SwapReply := ⟨some ⟨transferId.print, [1], [2], 9901⟩, some []⟩

/-- Alice's deposit of 10000 sats is quoted, claimed and recovered; the node then reports the
recovery with `n` confirmations. -/
def claimed (n : Int) : List (Move (machine .sample)) :=
  .spawn (Request.quote "02" output) ::
    calls 0 [.done, .done, .coin (some coin), .addresses [⟨"bcrt1p", [3], [4]⟩], .done,
      .estimate none, .done, .done, .done] ++
  .spawn (Request.claim "02" { output with
      quoteSignature := some "30", creditAmountSats := some 9901,
      requestType := some "FIXED_AMOUNT", encryptedDepositSecretKey := some "05",
      signature := some "06" }) ::
    calls 1 [.done, .done, .done, .done, .coin (some coin), .address (some "bcrt1q"),
      .uuid transferId, .leaves [], .bytes [], .nonce ⟨[], []⟩, .uuid claimId, .done,
      .swap signed, .bytes [], .done, .confirmations (some n), .done]

/-- No observation of the run is three blocks deep. -/
def shallow (s : Config (machine .sample)) : Bool :=
  s.trace.all fun x => match x.2 with
    | ⟨.getTransaction _ _, .ok (some n)⟩ => n < 3
    | _ => true

/-- In a shallow run nothing is settled three blocks deep. -/
theorem shallow_ok {s : Config (machine .sample)} (h : shallow s = true) {claim : ClaimRef}
    {signedSpend : Option Bitcoin.Transaction} :
    ¬ Settled (L := .sample) s claim 3 signedSpend := by
  rintro ⟨raw, tx, n, -, -, hn, t, hmem⟩
  have hless : n < 3 := by simpa using List.all_eq_true.mp h _ hmem
  omega

/-- The move is one of those that `Deep` allows. -/
def deep (s : Config (machine .sample)) : Move (machine .sample) → Bool
  | .run t (.confirmations (some n)) => match s.next t with
      | some (.getTransaction (.fixed _) _) => n ≤ 0 || 3 ≤ n
      | _ => true
  | _ => true

/-- The test on moves implies the condition of the theorem. -/
theorem deep_ok (s : Config (machine .sample)) (m : Move (machine .sample))
    (h : deep s m = true) : Deep s m := by
  rintro t n id txid rfl hnext
  simpa [deep, hnext] using h

/-- The claim has left the set its worker follows. -/
def released (s : Config (machine .sample)) : Bool :=
  s.world.db.claims.val.any fun row => !row.tracked

/-- A claim that is followed no longer has a row that says so. -/
theorem released_ok {s : Config (machine .sample)} (h : released s = true) :
    ∃ row ∈ s.world.db.claims.val, row.tracked = false := by
  simpa [released] using h

end Sample

/-- A recovery that is seen three blocks deep at once. -/
theorem finality_three : ∃ s : Config (machine .sample), Reach Deep s ∧
    ∃ row ∈ s.world.db.claims.val, row.tracked = false ∧
      Settled s (.fixed row.id) 3 row.data.signedSpend := by
  have hrun : (Reach.runMoves Sample.deep (Sample.claimed 3) (Config.start _)).any
      Sample.released = true := by decide +kernel
  obtain ⟨s, hs, hreleased⟩ := Reach.exists_of_runMoves Sample.deep_ok hrun
  obtain ⟨row, hrow, htracked⟩ := Sample.released_ok hreleased
  exact ⟨s, hs, row, hrow, htracked, (finality hs).1 row hrow htracked⟩

/-- A fixed claim is given up after a single confirmation of its recovery. -/
theorem released_after_one : ∃ s : Config (machine .sample), Reach anyMove s ∧
    ∃ row ∈ s.world.db.claims.val, row.tracked = false ∧
      ¬ Settled s (.fixed row.id) 3 row.data.signedSpend := by
  obtain ⟨s, hs, hp⟩ := Reach.exists_of_moves (Sample.claimed 1)
    (fun s => Sample.released s && Sample.shallow s) (by decide +kernel)
  obtain ⟨hreleased, hshallow⟩ := Bool.and_eq_true_iff.mp hp
  obtain ⟨row, hrow, htracked⟩ := Sample.released_ok hreleased
  exact ⟨s, hs, row, hrow, htracked, Sample.shallow_ok hshallow⟩

end OpenSsp.Deposit
