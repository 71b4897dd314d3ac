/-
OpenSsp/Deposit/Record.lean

What the code does to the records of claims, and what it has the operators do for them.

The record of an instant claim is written under the deposits lock, by a program that has read it or
written it itself since it took the lock (`Known`); what is written is the record after one step of
its recovery (`Advance`).  The record of a fixed claim can be written by a program that read it
before, but its plan never changes (`Read`).  The operators are asked to reserve, to swap and to sign
for records that are known in the same way.

Main result: `handler_lawful`.
-/
import OpenSsp.Deposit.Finality

namespace OpenSsp.Deposit

open Interleave Bitcoin

variable {L : Library} {C : Service L} {h h' : History (Api L)}

/-! ### The lock -/

/-- How a call moves the locks. -/
theorem perform_locks {t : Nat} {c : Call L} {ch : Choice} {w w' : World L} {r : c.Reply}
    (h : perform t c ch w = some (r, w')) :
    (∃ l, c = .lock l ∧ w.locks.take t l = some w'.locks) ∨
    (∃ l, c = .unlock l ∧ w'.locks = w.locks.release t l) ∨
    ((∀ l, c ≠ .lock l) ∧ w'.locks = w.locks) := by
  cases c with
  | lock l =>
      left
      cases ch with
      | done =>
          simp only [perform, Option.map_eq_some_iff] at h
          obtain ⟨locks, hl, he⟩ := h
          obtain ⟨-, rfl⟩ := Prod.mk.inj he
          exact ⟨l, rfl, hl⟩
      | _ => simp [perform] at h
  | unlock l =>
      right; left
      cases ch with
      | done =>
          obtain ⟨-, rfl⟩ := Prod.mk.inj (Option.some.inj h)
          exact ⟨l, rfl, rfl⟩
      | _ => simp [perform] at h
  | sampleInstants =>
      right; right
      refine ⟨fun _ hl => (by cases hl), ?_⟩
      cases ch <;> simp only [perform, Option.map_eq_some_iff, Option.some.injEq, Prod.mk.injEq,
        reduceCtorEq] at h
      · obtain ⟨-, rfl⟩ := h
        rfl
      · obtain ⟨records, -, -, rfl⟩ := h
        rfl
  | _ =>
      right; right
      refine ⟨fun _ hl => (by cases hl), ?_⟩
      cases ch <;> simp only [perform, Option.some.injEq, Prod.mk.injEq, reduceCtorEq] at h
      all_goals
        obtain ⟨-, rfl⟩ := h
        rfl

/-- The mutexes of the service, as the calls of a history take them and give them up. -/
def guards (C : Service L) : Guards (machine C) Lock :=
  .ofMutexes (fun w : World L => w.locks) .lock .unlock (fun _ _ h => by injection h)
    (fun h => perform_locks h) (fun _ _ => rfl)
    (fun {_ w w'} h => by
      obtain rfl : w' = _ := (Option.some.inj h).symm
      rfl)
    fun _ _ h => by injection h

/-! ### What is known of a record -/

/-- The call writes no record of an instant claim and leaves the deposits lock. -/
def Call.still : Call L → Bool
  | .lock .deposits => false
  | .unlock .deposits => false
  | .db (.insertInstant ..) => false
  | .db (.saveInstant _) => false
  | _ => true

/-- Plain calls write no row, so they leave what a call has read standing. -/
theorem Call.plain_still {c : Call L} (hc : c.plain = true) : c.still = true := by
  cases c with
  | lock l => cases hc
  | unlock l => cases hc
  | db q =>
      cases q with
      | insertInstant record maxDeposit limit => cases hc
      | saveInstant record => cases hc
      | _ => rfl
  | _ => rfl

/-- An event that changes nothing about instant claims. -/
def Still (e : Event (Api L)) : Prop := e.call.still = true

/-- The event shows the stored record of an instant claim. -/
inductive Shows (r : InstantClaim L) : Event (Api L) → Prop
  | read (id : String) : Shows r ⟨.db (.instantById id), .ok r⟩
  | found (quoteId owner : String) :
      Shows r ⟨.db (.instantClaimForQuote quoteId owner), .ok (some r)⟩
  | inserted (maxDeposit limit : Nat) : Shows r ⟨.db (.insertInstant r maxDeposit limit), .ok ()⟩
  | saved : Shows r ⟨.db (.saveInstant r), .ok ()⟩

/-- The call adds a claim. -/
def Call.enters : Call L → Bool
  | .db (.insertClaim _) => true
  | .db (.insertInstant ..) => true
  | _ => false

/-- The program has added no claim. -/
def Unentered (h : History (Api L)) : Prop := ∀ e ∈ h, e.call.enters = false

/-- A program that has done nothing has added no claim. -/
theorem unentered_nil : Unentered ([] : History (Api L)) := fun _ he => nomatch he

/-- A call that adds no claim leaves it so. -/
theorem Unentered.cons {e : Event (Api L)} (hh : Unentered h) (he : e.call.enters = false) :
    Unentered (e :: h) := by
  intro x hx
  rcases List.mem_cons.mp hx with rfl | hx
  · exact he
  · exact hh x hx

/-- An event that only looks. -/
def Plainly (e : Event (Api L)) : Prop := e.call.plain = true

theorem Plainly.still {e : Event (Api L)} (he : Plainly e) : Still e := Call.plain_still he

theorem Plainly.enters {e : Event (Api L)} (he : Plainly e) : e.call.enters = false := by
  obtain ⟨c, r⟩ := e
  cases c with
  | db q =>
      cases q with
      | insertClaim record => cases he
      | insertInstant record maxDeposit limit => cases he
      | _ => rfl
  | _ => rfl

theorem still_of_plainly (he : Extends Plainly h h') : Extends Still h h' :=
  he.mono fun _ => Plainly.still

/-- A stretch of plain calls enters no claim. -/
theorem Unentered.after (hh : Unentered h) (he : Extends Plainly h h') : Unentered h' := by
  obtain ⟨new, rfl, hnew⟩ := he
  intro x hx
  rcases List.mem_append.mp hx with hx | hx
  · exact (hnew x hx).enters
  · exact hh x hx

/-- The program holds the lock, and has seen the record since. -/
structure Known (C : Service L) (r : InstantClaim L) (h : History (Api L)) : Prop where
  shown : ∃ e, Shows r e ∧ Since Still e h
  locked : (guards C).Held .deposits h

/-- The deposit lock is still held after calls that give up no lock. -/
theorem held_after (hh : (guards C).Held .deposits h) (he : Extends Still h h') :
    (guards C).Held .deposits h' := by
  refine hh.after (fun x hx hgives => ?_) he
  have hcall : x.call = .unlock .deposits := hgives
  rw [Still, hcall] at hx
  cases hx

/-- A known record stays known while no record is written and the lock is held. -/
theorem Known.after {r : InstantClaim L} (hk : Known C r h) (he : Extends Still h h') :
    Known C r h' := by
  obtain ⟨e, hshows, hsince⟩ := hk.shown
  exact ⟨⟨e, hshows, hsince.after he⟩, held_after hk.locked he⟩

/-- A call that shows the record makes it known. -/
theorem Known.shows {r : InstantClaim L} {e : Event (Api L)} (hshows : Shows r e)
    (hh : (guards C).Held .deposits h) (hcall : e.call ≠ .unlock .deposits) :
    Known C r (e :: h) := ⟨⟨e, hshows, .here⟩, hh.cons hcall⟩

/-- The event shows the record of a fixed claim as it once was. -/
inductive ShowsFixed (r : DepositClaim L) : Event (Api L) → Prop
  | own (txid : String) (vout : UInt32) (owner : String) :
      ShowsFixed r ⟨.db (.ownDepositClaim txid vout owner), .ok (some r)⟩
  | pending (records : List (DepositClaim L)) (hmem : r ∈ records) :
      ShowsFixed r ⟨.db .pendingClaims, .ok records⟩
  | inserted : ShowsFixed r ⟨.db (.insertClaim r), .ok ()⟩

/-- The program has read the record. -/
def Read (r : DepositClaim L) (h : History (Api L)) : Prop := ∃ e ∈ h, ShowsFixed r e

/-- What was read stays read. -/
theorem Read.mono {r : DepositClaim L} (hr : Read r h) (hmem : ∀ e ∈ h, e ∈ h') : Read r h' := by
  obtain ⟨e, he, hshows⟩ := hr
  exact ⟨e, hmem e he, hshows⟩

/-- The same claim, with the same plan. -/
structure SamePlan (r r' : DepositClaim L) : Prop where
  id : r'.id = r.id
  quote : r'.quote = r.quote
  transferId : r'.transferId = r.transferId
  plan : r'.plan = r.plan

theorem SamePlan.refl (r : DepositClaim L) : SamePlan r r := ⟨rfl, rfl, rfl, rfl⟩

/-! ### Steps of a recovery -/

/-- The plan has its final transaction. -/
def InstantClaim.Frozen (r : InstantClaim L) : Prop :=
  r.phase ≠ .created ∧ r.phase ≠ .transferCompleted

/-- A pass that searched every block up to where it ended, and found nothing. -/
structure Scanned (r : InstantClaim L) (tip : Nat) (pass : History (Api L)) : Prop where
  gone : (⟨.getTxOut r.quote.deposit.txid r.quote.deposit.vout.toNat, .ok none⟩ : Event (Api L)) ∈
    pass
  counted : (⟨.getBlockCount, .ok (some tip)⟩ : Event (Api L)) ∈ pass
  blocks : ∀ height, (scanRange r.scanHeight tip).1 ≤ height →
    height ≤ (scanRange r.scanHeight tip).2 → Examined r.quote.deposit height pass

/-- The newest events, none of which changes anything about instant claims. -/
def Lately (R : History (Api L) → Prop) (h : History (Api L)) : Prop :=
  ∃ pass older, h = pass ++ older ∧ (∀ e ∈ pass, Still e) ∧ R pass

/-- What one write makes of the record of an instant claim. -/
inductive Advance (C : Service L) (r : InstantClaim L) (h : History (Api L)) :
    InstantClaim L → Prop
  | paid (hphase : r.phase = .created) : Advance C r h { r with phase := .transferCompleted }
  | scanned (tip : Nat) (hphase : r.phase = .transferCompleted) (hscan : Lately (Scanned r tip) h) :
      Advance C r h
        { r with scanHeight := nextScanHeight (scanRange r.scanHeight tip).2 tip }
  | prepared (point : OutPoint) (request : SwapRequest L) (hphase : r.phase = .transferCompleted)
      (hunspent : Lately (Unspent C point) h)
      (hfreeze : freezeOutpoint C point r.plan.request = .ok request) :
      Advance C r h { r with plan := { r.plan with request }, phase := .recoveryPrepared }
  | signed (spend : Bitcoin.Transaction) (hfrozen : r.Frozen)
      (hopen : r.phase ≠ .spendTxConfirmed) :
      Advance C r h
        { r with signedSpend := some (L.serializeHex spend), phase := .spendTxCreated }
  | settled (confirmations : Int) (hfrozen : r.Frozen) (hopen : r.phase ≠ .spendTxConfirmed)
      (hseen : 3 ≤ confirmations → Seen h (.instant r.id) 3 r.signedSpend) :
      Advance C r h
        { r with phase := if 3 ≤ confirmations then .spendTxConfirmed else .spendTxBroadcast }

/-- The plan of a new claim. -/
structure Planned (transferId : String) (plan : StaticPlan L) (h : History (Api L)) : Prop where
  transfer : ∃ id leaves owner, TransferId.parse transferId = .ok id ∧
    (⟨.prepareTransfer id leaves owner, .ok plan.request.transfer⟩ : Event (Api L)) ∈ h
  nonce : ∃ nonce, (⟨.newNonce, .ok nonce⟩ : Event (Api L)) ∈ h ∧
    plan.nonceCiphertext = nonce.noncesCiphertext

/-- A plan once made stays made. -/
theorem Planned.mono {transferId : String} {plan : StaticPlan L} (hp : Planned transferId plan h)
    (hmem : ∀ e ∈ h, e ∈ h') : Planned transferId plan h' := by
  obtain ⟨id, leaves, owner, hid, htransfer⟩ := hp.transfer
  obtain ⟨nonce, hnonce, heq⟩ := hp.nonce
  exact ⟨⟨id, leaves, owner, hid, hmem _ htransfer⟩, nonce, hmem _ hnonce, heq⟩

/-- A new instant claim. -/
structure Fresh (C : Service L) (r : InstantClaim L) (maxDeposit limit : Nat)
    (h : History (Api L)) : Prop where
  phase : r.phase = .created
  scanHeight : r.scanHeight = r.quote.height - 6
  maxDeposit_eq : maxDeposit = C.instantMaxDeposit
  limit_eq : limit = C.instantLimit
  planned : Planned r.transferId r.plan h
  locked : (guards C).Held .deposits h
  first : Unentered h

/-! ### The contract -/

/-- The calls a task of the service may make after a history: every write is of a row the task has
read or planned. -/
def Lawful (C : Service L) (h : History (Api L)) : Call L → Prop
  | .db (.insertClaim r) => Planned r.transferId r.plan h ∧ Unentered h
  | .db (.saveClaim r') => ∃ r, Read r h ∧ SamePlan r r'
  | .db (.insertInstant r maxDeposit limit) => Fresh C r maxDeposit limit h
  | .db (.saveInstant r') => ∃ r, Known C r h ∧ Advance C r h r'
  | .initiateSwap request => ∃ r, Read r h ∧ request = r.plan.request
  | .recoverInstant utxo job transferId => ∃ r, Known C r h ∧ r.Frozen ∧
      utxo = r.plan.request.onChainUtxo ∧ r.plan.request.spendTxSigningJob = some job ∧
      transferId = r.transferId
  | .reserveInstant quote request => ∃ r, Known C r h ∧ r.phase = .created ∧
      quote = r.quote.deposit ∧ request = r.plan.request
  | .signRecovery plan spend _ => ∃ job, plan.request.spendTxSigningJob = some job ∧
      L.deserializeHex job.rawTx = .ok spend ∧
      ((∃ r, Read r h ∧ plan = r.plan) ∨ ∃ r, Known C r h ∧ r.Frozen ∧ plan = r.plan)
  | _ => True

/-- A plain call needs no licence. -/
theorem Call.plain_lawful {c : Call L} (hc : c.plain = true) : Lawful C h c := by
  cases c with
  | db q =>
      cases q with
      | insertClaim record => cases hc
      | saveClaim record => cases hc
      | insertInstant record maxDeposit limit => cases hc
      | saveInstant record => cases hc
      | _ => trivial
  | initiateSwap request => cases hc
  | recoverInstant utxo job transferId => cases hc
  | reserveInstant quote request => cases hc
  | signRecovery plan spend result => cases hc
  | _ => trivial

/-- An action that obeys the contract. -/
def Does {α : Type} (C : Service L) (act : Ssp L α) (R : α → History (Api L) → Prop)
    (h : History (Api L)) : Prop := Act.Spec (Lawful C) (fun _ => True) act R h

section within

variable {α : Type} {act : Ssp L α}

/-- What an action finds out with plain calls. -/
theorem Within.finds (hact : Within 1 act) {R : α → History (Api L) → Prop} (hR : Finds act R [])
    (h : History (Api L)) :
    Does C act (fun a h' => ∃ new, h' = new ++ h ∧ (∀ e ∈ new, Plainly e) ∧ R a new) h := by
  have hspec := Act.Calls.spec_after (P := Lawful C) hact
    (fun _ _ hc => Call.plain_lawful (Call.plain_of_level hc)) hR h
  apply Act.Spec.mono hspec (fun _ _ => trivial)
  rintro a h' - ⟨new, rfl, hnew, ha⟩
  exact ⟨new, rfl, fun e he => Call.plain_of_level (hnew e he), ha⟩

/-- A function of level one only extends its history by plain calls. -/
theorem Within.does (hact : Within 1 act) (h : History (Api L)) :
    Does C act (fun _ h' => Extends Plainly h h') h := by
  refine Act.Spec.mono (hact.finds (R := fun _ _ => True) ?_ h) (fun _ => id) ?_
  · exact (Act.Calls.spec hact (fun _ _ _ => trivial) [])
  · rintro a h' - ⟨new, hnew, hplain, -⟩
    exact ⟨new, hnew, hplain⟩

end within

/-- Taking a lock is the one event it adds. -/
theorem lock_does (l : Lock) (h : History (Api L)) :
    Does C (tell (.lock l)) (fun _ h' => h' = ⟨.lock l, ()⟩ :: h) h :=
  Act.Spec.tell_eq (I := Api L) (c := .lock l) trivial fun _ => trivial

/-- What a body does under a lock that it does not need. -/
theorem locked_does {α : Type} {l : Lock} {body : Ssp L α} {h : History (Api L)}
    (hbody : Does C body (fun _ _ => True) (⟨.lock l, ()⟩ :: h)) :
    Does C (locked l body) (fun _ _ => True) h := by
  apply Act.Spec.bracket (T := fun _ h' => h' = ⟨.lock l, ()⟩ :: h) (lock_does l h)
  · rintro h' - rfl
    exact hbody
  · intro h' _
    exact Act.Spec.tell (I := Api L) (c := .unlock l) trivial (fun _ => trivial)
      fun _ _ _ => trivial

/-- The lock just taken is held. -/
theorem held_locked (h : History (Api L)) :
    (guards C).Held .deposits (⟨.lock .deposits, ()⟩ :: h) := Guards.Held.here rfl

/-! ### Plans and signatures -/

/-- `prepare_static_claim` hands back a plan that its own history shows as made. -/
theorem prepareStaticClaim_plans (quote : DepositQuote) (encrypted signature transferId : String)
    (spend : Bitcoin.Transaction) (h : History (Api L)) :
    Finds (prepareStaticClaim C quote encrypted signature transferId spend)
      (fun plan h' => Planned transferId plan h') h := by
  refine Act.Spec.bind (Act.Spec.ask_eq (I := Api L) (c := .selectLeaves quote.credit) trivial
    fun _ => trivial) ?_
  rintro leaves h₁ - -
  refine Act.Spec.bind Act.Spec.ofExcept_eq ?_
  rintro owner h₂ - -
  refine Act.Spec.bind Act.Spec.ofExcept_eq ?_
  rintro id h₃ - ⟨hid, -⟩
  refine Act.Spec.bind (Act.Spec.ask_eq (I := Api L) (c := .prepareTransfer id leaves owner) trivial
    fun _ => trivial) ?_
  rintro transfer h₄ - ⟨r, hr, rfl⟩
  obtain rfl : r = .ok transfer := hr
  refine Act.Spec.bind (Act.Spec.ask_eq (I := Api L) (c := .newNonce) trivial fun _ => trivial) ?_
  rintro nonce h₅ - ⟨r, hr, rfl⟩
  obtain rfl : r = .ok nonce := hr
  refine Act.Spec.bind Act.Spec.ofExcept_eq ?_
  rintro txid h₆ - ⟨-, rfl⟩
  refine Act.Spec.bind Act.Spec.ofExcept_eq ?_
  rintro sspSignature h₇ - ⟨-, rfl⟩
  refine Act.Spec.bind Act.Spec.ofExcept_eq ?_
  rintro userSignature h₈ - ⟨-, rfl⟩
  refine Act.Spec.bind Act.Spec.ofExcept_eq ?_
  rintro signingPublicKey h₉ - ⟨-, rfl⟩
  refine Act.Spec.bind Act.Spec.ofExcept_eq ?_
  rintro encryptedKey h₁₀ - ⟨-, rfl⟩
  refine .pure ⟨⟨id, leaves, owner, hid, ?_⟩, nonce, ?_, rfl⟩
  · exact List.mem_cons_of_mem _ List.mem_cons_self
  · exact List.mem_cons_self

/-- The operators' part of a recovery, for a plan that may be signed. -/
theorem submitStaticClaim_does {quote : DepositQuote} {transferId : String} {plan : StaticPlan L}
    {instant : Bool} {h : History (Api L)}
    (hrequest : ∀ job, plan.request.spendTxSigningJob = some job →
      Does C (requestSigning plan job transferId instant) (fun _ h' => Extends Still h h') h)
    (hsign : ∀ h', Extends Still h h' →
      (∃ r, Read r h' ∧ plan = r.plan) ∨ ∃ r, Known C r h' ∧ r.Frozen ∧ plan = r.plan) :
    Does C (submitStaticClaim C quote transferId plan instant)
      (fun _ h' => Extends Still h h') h := by
  refine Act.Spec.bind Act.Spec.ofExcept_eq ?_
  rintro job h₁ - ⟨hjob, rfl⟩
  have hjob := okOr_eq_ok.mp hjob
  refine Act.Spec.bind (hrequest job hjob) fun response h₂ _ he₂ => ?_
  refine Act.Spec.bind Act.Spec.ofExcept_eq ?_
  rintro transfer h₃ - ⟨-, rfl⟩
  refine Act.Spec.bind Act.Spec.ofExcept_eq ?_
  rintro _ h₄ - ⟨-, rfl⟩
  refine Act.Spec.bind Act.Spec.ofExcept_eq ?_
  rintro result h₅ - ⟨-, rfl⟩
  refine Act.Spec.bind Act.Spec.ofExcept_eq ?_
  rintro spend h₆ - ⟨hspend, rfl⟩
  refine Act.Spec.bind (Act.Spec.ask_eq (I := Api L) (c := .signRecovery plan spend result)
    ⟨job, hjob, hspend, hsign _ he₂⟩ fun _ => trivial) ?_
  rintro signature h₇ - ⟨r, -, rfl⟩
  apply Act.Spec.guard
  intro _
  split
  · exact .throw
  · exact .pure (he₂.cons rfl)

/-! ### Fixed claims -/

/-- The record has the plan of one that was read. -/
def ReadAs (r : DepositClaim L) (h : History (Api L)) : Prop := ∃ r₀, Read r₀ h ∧ SamePlan r₀ r

theorem ReadAs.mono {r : DepositClaim L} (hr : ReadAs r h) (hmem : ∀ e ∈ h, e ∈ h') :
    ReadAs r h' := by
  obtain ⟨r₀, hread, hsame⟩ := hr
  exact ⟨r₀, hread.mono hmem, hsame⟩

theorem Read.as {r : DepositClaim L} (hr : Read r h) : ReadAs r h := ⟨r, hr, .refl r⟩

/-- `save_claim` is lawful for a row that carries what the task read. -/
theorem saveClaim_does {r : DepositClaim L} (hr : ReadAs r h) :
    Does C (db (.saveClaim r)) (fun _ _ => True) h :=
  .ask hr (fun _ => trivial) fun _ _ _ => trivial

/-- The record with the signed spend has the plan that was read. -/
theorem signSpend_does {record : DepositClaim L} (hr : ReadAs record h) :
    Does C (signSpend C record) ReadAs h := by
  apply Act.Spec.ite
  · exact fun _ => .pure hr
  · intro _
    obtain ⟨r₀, hread, hsame⟩ := hr
    have hsubmit : Does C (submitStaticClaim C record.quote record.transferId record.plan false)
        (fun _ h' => Extends Still h h') h := by
      apply submitStaticClaim_does
      · intro job _
        apply Act.Spec.ask (I := Api L) (c := .initiateSwap record.plan.request)
        · exact ⟨r₀, hread, by rw [hsame.plan]⟩
        · exact fun _ => trivial
        · exact fun _ _ _ => .one rfl
      · exact fun h' he => .inl ⟨r₀, hread.mono fun _ => he.mem, hsame.plan⟩
    refine Act.Spec.bind hsubmit fun raw h₁ he₁ _ => ?_
    have hsigned : ReadAs { record with
        signedSpend := some (L.serializeHex raw), phase := .spendTxCreated } h₁ :=
      ⟨r₀, hread.mono fun _ => he₁.mem, hsame.id, hsame.quote, hsame.transferId, hsame.plan⟩
    refine Act.Spec.bind (saveClaim_does hsigned) fun _ h₂ he₂ _ => ?_
    exact .pure (hsigned.mono fun _ => he₂.mem)

/-- `advance` saves only the claim it was given. -/
theorem advance_does {record : DepositClaim L} (hr : ReadAs record h) :
    Does C (advance C record) (fun _ _ => True) h := by
  apply Act.Spec.ite
  · exact fun _ => .pure trivial
  · intro _
    refine Act.Spec.bind (signSpend_does hr) fun record h₁ _ hr => ?_
    refine Act.Spec.bind Act.Spec.ofExcept_eq ?_
    rintro raw h₂ - ⟨-, rfl⟩
    refine Act.Spec.bind Act.Spec.ofExcept_eq ?_
    rintro tx h₃ - ⟨-, rfl⟩
    have hobserve : Within 1 (getTransaction (L := L) (.fixed record.id) (L.computeTxid tx)) :=
      look_within rfl
    refine Act.Spec.bind (hobserve.attempt.does _) fun observed h₄ _ he₄ => ?_
    have hr₄ := hr.mono fun _ => he₄.mem
    apply Act.Spec.ite
    · intro _
      obtain ⟨r₀, hread, hsame⟩ := hr₄
      exact Act.Spec.bind (saveClaim_does ⟨r₀, hread, hsame.id, hsame.quote, hsame.transferId,
        hsame.plan⟩) fun _ _ _ _ => .pure trivial
    · intro _
      have hsend : Within 1 (sendRecovery (.fixed record.id) raw) := look_within rfl
      refine Act.Spec.bind (hsend.does _) fun _ h₅ _ he₅ => ?_
      obtain ⟨r₀, hread, hsame⟩ := hr₄.mono fun _ => he₅.mem
      exact Act.Spec.bind (saveClaim_does ⟨r₀, hread, hsame.id, hsame.quote, hsame.transferId,
        hsame.plan⟩) fun _ _ _ _ => .pure trivial

/-- `new_claim` enters the claim it planned, and enters it once. -/
theorem newClaim_does (owner txid : String) (vout : UInt32) (input : ClaimInput)
    (hh : Unentered h) : Does C (newClaim C owner txid vout input) (fun _ _ => True) h := by
  have hquote : Within 1 (db (L := L) (.depositQuote txid vout owner)) := look_within rfl
  refine Act.Spec.bind (hquote.does h) fun found h₁ _ he₁ => ?_
  refine Act.Spec.bind Act.Spec.ofExcept_eq ?_
  rintro quote h₂ - ⟨-, rfl⟩
  refine .guard fun _ => ?_
  refine Act.Spec.bind Act.Spec.ofExcept_eq ?_
  rintro encrypted h₃ - ⟨-, rfl⟩
  refine Act.Spec.bind Act.Spec.ofExcept_eq ?_
  rintro signature h₄ - ⟨-, rfl⟩
  refine Act.Spec.bind Act.Spec.ofExcept_eq ?_
  rintro _ h₅ - ⟨-, rfl⟩
  have hcoin : Within 1 (getTxOut (L := L) txid vout.toNat) := look_within rfl
  refine Act.Spec.bind (hcoin.does _) fun coin h₆ _ he₆ => ?_
  refine .guard fun _ => ?_
  have haddress : Within 1 (bitcoinChangeAddress (L := L)) := look_within rfl
  refine Act.Spec.bind (haddress.does h₆) fun destination h₇ _ he₇ => ?_
  refine Act.Spec.bind Act.Spec.ofExcept_eq ?_
  rintro parsed h₈ - ⟨-, rfl⟩
  refine Act.Spec.bind ((tell_within (c := .newUuid) rfl).does _) fun transfer h₉ _ he₉ => ?_
  refine Act.Spec.bind ((prepareStaticClaim_within quote encrypted signature transfer.print
    _).finds (prepareStaticClaim_plans _ _ _ _ _ []) h₉) ?_
  rintro plan h₁₀ _ ⟨new, rfl, hplain, hplanned⟩
  refine Act.Spec.bind ((tell_within (c := .newUuid) rfl).does _) fun id h₁₁ _ he₁₁ => ?_
  have hplainly : Extends Plainly h h₁₁ :=
    he₁.trans (he₆.trans (he₇.trans (he₉.trans (Extends.trans ⟨new, rfl, hplain⟩ he₁₁))))
  refine Act.Spec.bind (Act.Spec.ask_eq (I := Api L) (c := .db (.insertClaim _)) ?_
    fun _ => trivial) ?_
  · refine ⟨?_, hh.after hplainly⟩
    exact hplanned.mono fun e he => he₁₁.mem (List.mem_append_left h₉ he)
  · rintro ⟨⟩ h₁₂ - ⟨r, hr, rfl⟩
    obtain rfl : r = .ok () := hr
    refine Act.Spec.bind (advance_does (Read.as ⟨_, List.mem_cons_self, .inserted⟩)) ?_
    exact fun _ _ _ _ => .pure trivial

/-- `claim` either resumes the stored claim or enters a new one. -/
theorem claim_does (owner : String) (input : ClaimInput) (hh : Unentered h) :
    Does C (claim C owner input) (fun _ _ => True) h := by
  refine Act.Spec.bind Act.Spec.ofExcept_eq ?_
  rintro _ h₁ - ⟨-, rfl⟩
  refine Act.Spec.bind Act.Spec.ofExcept_eq ?_
  rintro point h₂ - ⟨-, rfl⟩
  apply locked_does
  apply locked_does
  refine Act.Spec.bind (Act.Spec.ask_eq (I := Api L)
    (c := .db (.ownDepositClaim point.1 point.2 owner)) trivial fun _ => trivial) ?_
  rintro existing h₃ - ⟨r, hr, rfl⟩
  obtain rfl : r = .ok existing := hr
  rcases existing with - | record
  · apply newClaim_does owner point.1 point.2 input
    exact ((hh.cons rfl).cons rfl).cons rfl
  · refine .guard fun _ => ?_
    refine Act.Spec.bind (advance_does (Read.as ⟨_, List.mem_cons_self, .own _ _ _⟩)) ?_
    exact fun _ _ _ _ => .pure trivial

/-- `recover` is lawful for the claim its pass has listed. -/
theorem recover_does {record : DepositClaim L} (hr : ReadAs record h) :
    Does C (recover C record) (fun _ _ => True) h := by
  refine Act.Spec.bind (advance_does hr).attempt fun outcome h₁ _ _ => ?_
  rcases outcome with e | record
  · have herror : Within 1 (db (L := L) (.claimError record.id e)) := look_within rfl
    exact Act.Spec.bind (herror.attempt.does h₁) fun _ _ _ _ => .pure trivial
  · exact .pure trivial

/-- One recovery pass over the fixed claims. -/
theorem pass_does (h : History (Api L)) : Does C (pass C) (fun _ _ => True) h := by
  apply locked_does
  have hpending : Does C (db .pendingClaims) (fun records h' =>
      ∃ e ∈ h', ∀ r ∈ records, ShowsFixed r e) (⟨.lock .deposits, ()⟩ :: h) := by
    apply Act.Spec.ask (I := Api L) trivial fun _ => trivial
    rintro r records rfl
    exact ⟨_, List.mem_cons_self, fun r hr => .pending records hr⟩
  refine Act.Spec.bind hpending.attempt fun outcome h₁ _ hread => ?_
  rcases outcome with e | records
  · exact .pure trivial
  · obtain ⟨e, he, hshows⟩ := hread records rfl
    apply Act.Spec.forEach (K := fun r h' => Read r h')
    · intro record hmem h₂ _ hr
      exact locked_does (recover_does (hr.mono fun _ => List.mem_cons_of_mem _).as)
    · exact fun record hmem h₂ he₂ => ⟨e, he₂.mem he, hshows record hmem⟩

/-! ### Instant claims -/

/-- A record that was just saved is known. -/
theorem saveInstant_does {r r' : InstantClaim L} (hk : Known C r h) (ha : Advance C r h r') :
    Does C (db (.saveInstant r')) (fun _ h' => Known C r' h') h := by
  apply Act.Spec.ask (I := Api L) (c := .db (.saveInstant r')) ⟨r, hk, ha⟩ fun _ => trivial
  rintro reply ⟨⟩ hreply
  obtain rfl : reply = .ok () := hreply
  exact .shows .saved hk.locked nofun

/-- `pay_instant` ends on the claim it started with, past its first phase and not yet confirmed. -/
theorem payInstant_does {r : InstantClaim L} (hk : Known C r h)
    (hopen : r.phase ≠ .spendTxConfirmed) :
    Does C (payInstant C r) (fun r' h' => Known C r' h' ∧ r'.phase ≠ .created ∧
      r'.phase ≠ .spendTxConfirmed) h := by
  apply Act.Spec.ite
  · intro hphase
    have hreserve : Does C (submitInstantReserve C r.quote.deposit r.transferId r.plan)
        (fun _ h' => Extends Still h h') h := by
      refine Act.Spec.bind (Act.Spec.ask_eq (I := Api L)
        (c := .reserveInstant r.quote.deposit r.plan.request) ⟨r, hk, hphase, rfl, rfl⟩
        fun _ => trivial) ?_
      rintro reply h₁ - ⟨_, -, rfl⟩
      refine Act.Spec.bind Act.Spec.ofExcept_eq ?_
      rintro transfer h₂ - ⟨-, rfl⟩
      refine .guard fun _ => ?_
      exact .ofExcept fun _ _ => .one rfl
    refine Act.Spec.bind hreserve fun _ h₁ _ he => ?_
    refine Act.Spec.bind (saveInstant_does (hk.after he) (.paid hphase)) fun _ h₂ _ hk₂ => ?_
    exact .pure ⟨hk₂, by exact nofun, by exact nofun⟩
  · exact fun hphase => .pure ⟨hk, hphase, hopen⟩

/-- The search of a pass, after the original output was found gone. -/
theorem searchReplacement_does {r : InstantClaim L} (hk : Known C r h)
    (hphase : r.phase = .transferCompleted) :
    Does C (searchReplacement C r) (fun found h' => ∀ point, found.1 = some point →
      found.2 = r ∧ Known C r h' ∧ Lately (Unspent C point) h')
      (⟨.getTxOut r.quote.deposit.txid r.quote.deposit.vout.toNat, .ok none⟩ :: h) := by
  refine Act.Spec.bind (Act.Spec.ask_eq (I := Api L) (c := .getBlockCount) trivial
    fun _ => trivial) ?_
  rintro tip h₁ - ⟨reply, hreply, rfl⟩
  obtain ⟨count, rfl, hcount⟩ := bind_ok hreply
  obtain rfl := okOr_eq_ok.mp hcount
  have hsearch := Act.Calls.firstSome (searchBlock_within (C := C) (n := 1) r.quote.deposit)
    (List.range' (scanRange r.scanHeight tip).1
      ((scanRange r.scanHeight tip).2 + 1 - (scanRange r.scanHeight tip).1))
  have hfinds : Finds (Act.firstSome (searchBlock C r.quote.deposit)
      (List.range' (scanRange r.scanHeight tip).1
        ((scanRange r.scanHeight tip).2 + 1 - (scanRange r.scanHeight tip).1))) _ [] :=
    Act.Spec.firstSome (K := Examined r.quote.deposit) (S := Unspent C)
      (fun height _ h' => searchBlock_searches height h')
      (fun height h₂ h₃ he hx => hx.mono fun _ => he.mem)
  refine Act.Spec.bind (Within.finds hsearch hfinds _) ?_
  rintro found h₂ - ⟨new, rfl, hplain, hnone, hsome⟩
  -- the pass: the look at the output, the tip and the blocks
  let pass : History (Api L) := new ++ [⟨.getBlockCount, .ok (some tip)⟩,
    ⟨.getTxOut r.quote.deposit.txid r.quote.deposit.vout.toNat, .ok none⟩]
  have hsplit : new ++ ⟨.getBlockCount, .ok (some tip)⟩ ::
      ⟨.getTxOut r.quote.deposit.txid r.quote.deposit.vout.toNat, .ok none⟩ :: h = pass ++ h := by
    simp [pass]
  have hpass : ∀ e ∈ pass, Still e := by
    intro e he
    rcases List.mem_append.mp he with he | he
    · exact (hplain e he).still
    · simp only [List.mem_cons, List.not_mem_nil, or_false] at he
      rcases he with rfl | rfl
      · rfl
      · rfl
  have hnew : ∀ e ∈ new, e ∈ pass := fun e he => List.mem_append_left _ he
  rw [hsplit]
  have hk' : Known C r (pass ++ h) := hk.after ⟨pass, rfl, hpass⟩
  rcases found with - | point
  · have hscanned : Scanned r tip pass := by
      refine ⟨?_, ?_, ?_⟩
      · simp [pass]
      · simp [pass]
      · intro height hlow hhigh
        refine (hnone rfl height ?_).mono hnew
        rw [List.mem_range'_1]
        omega
    refine Act.Spec.bind (saveInstant_does hk' (.scanned tip hphase ⟨pass, h, rfl, hpass,
      hscanned⟩)) fun _ _ _ _ => ?_
    exact .pure nofun
  · refine .pure fun p hp => ?_
    obtain rfl := Option.some.inj hp
    exact ⟨rfl, hk', pass, h, rfl, hpass, (hsome point rfl).mono hnew⟩

/-- An outpoint that comes back was seen unspent lately, and the record is the one that went in. -/
theorem confirmedInstantOutpoint_does {r : InstantClaim L} (hk : Known C r h)
    (hphase : r.phase = .transferCompleted) :
    Does C (confirmedInstantOutpoint C r) (fun found h' => ∀ point, found.1 = some point →
      found.2 = r ∧ Known C r h' ∧ Lately (Unspent C point) h') h := by
  refine Act.Spec.bind (Act.Spec.ask_eq (I := Api L)
    (c := .getTxOut r.quote.deposit.txid r.quote.deposit.vout.toNat) trivial fun _ => trivial) ?_
  rintro found h₁ - ⟨reply, hreply, rfl⟩
  obtain rfl : reply = .ok found := hreply
  rcases found with - | coin
  · exact searchReplacement_does hk hphase
  · apply Act.Spec.ite
    · intro _
      refine Act.Spec.bind Act.Spec.ofExcept_eq ?_
      rintro txid h₂ - ⟨htxid, rfl⟩
      refine .pure fun point hpoint => ?_
      obtain rfl := Option.some.inj hpoint
      refine ⟨rfl, hk.after (.one rfl), [_], h, rfl, ?_, ?_⟩
      · intro e he
        obtain rfl := List.mem_singleton.mp he
        rfl
      · exact ⟨_, _, coin, List.mem_cons_self, okOr_eq_ok.mp htxid, UInt32.ofNat_toNat⟩
    · exact fun _ => .pure nofun

/-- `prepare_recovery` yields a frozen claim, ready to be signed. -/
theorem prepareRecovery_does {r : InstantClaim L} (hk : Known C r h) (hcreated : r.phase ≠ .created)
    (hopen : r.phase ≠ .spendTxConfirmed) :
    Does C (prepareRecovery C r) (fun o h' => ∀ r', o = some r' →
      Known C r' h' ∧ r'.Frozen ∧ r'.phase ≠ .spendTxConfirmed) h := by
  apply Act.Spec.ite
  · intro hphase
    refine Act.Spec.bind (confirmedInstantOutpoint_does hk hphase) ?_
    rintro ⟨found, r'⟩ h₁ - hfound
    rcases found with - | point
    · exact .pure nofun
    · obtain ⟨rfl, hk₁, hunspent⟩ := hfound point rfl
      refine Act.Spec.bind Act.Spec.ofExcept_eq ?_
      rintro request h₂ - ⟨hrequest, rfl⟩
      refine Act.Spec.bind (saveInstant_does hk₁ (.prepared point request hphase hunspent
        hrequest)) fun _ h₃ _ hk₃ => ?_
      refine .pure fun r' hr' => ?_
      obtain rfl := Option.some.inj hr'
      exact ⟨hk₃, ⟨by exact nofun, by exact nofun⟩, by exact nofun⟩
  · intro hphase
    refine .pure fun r' hr' => ?_
    obtain rfl := Option.some.inj hr'
    exact ⟨hk, ⟨hcreated, hphase⟩, hopen⟩

/-- `sign_instant_spend` keeps the frozen outpoint. -/
theorem signInstantSpend_does {r : InstantClaim L} (hk : Known C r h) (hfrozen : r.Frozen)
    (hopen : r.phase ≠ .spendTxConfirmed) :
    Does C (signInstantSpend C r) (fun r' h' => Known C r' h' ∧ r'.Frozen ∧
      r'.phase ≠ .spendTxConfirmed) h := by
  apply Act.Spec.ite
  · exact fun _ => .pure ⟨hk, hfrozen, hopen⟩
  · intro _
    have hsubmit : Does C (submitStaticClaim C r.quote.deposit r.transferId r.plan true)
        (fun _ h' => Extends Still h h') h := by
      apply submitStaticClaim_does
      · intro job hjob
        apply Act.Spec.ask (I := Api L)
          (c := .recoverInstant r.plan.request.onChainUtxo job r.transferId)
        · exact ⟨r, hk, hfrozen, rfl, hjob, rfl⟩
        · exact fun _ => trivial
        · exact fun _ _ _ => .one rfl
      · exact fun h' he => .inr ⟨r, hk.after he, hfrozen, rfl⟩
    refine Act.Spec.bind hsubmit fun spend h₁ _ he => ?_
    refine Act.Spec.bind (saveInstant_does (hk.after he) (.signed spend hfrozen hopen))
      fun _ h₂ _ hk₂ => ?_
    exact .pure ⟨hk₂, ⟨by exact nofun, by exact nofun⟩, by exact nofun⟩

/-- `settle_instant` saves the frozen claim it was given. -/
theorem settleInstant_does {r : InstantClaim L} (hk : Known C r h) (hfrozen : r.Frozen)
    (hopen : r.phase ≠ .spendTxConfirmed) :
    Does C (settleInstant r) (fun _ _ => True) h := by
  refine Act.Spec.bind Act.Spec.ofExcept_eq ?_
  rintro raw h₁ - ⟨hraw, rfl⟩
  refine Act.Spec.bind Act.Spec.ofExcept_eq ?_
  rintro spend h₂ - ⟨hspend, rfl⟩
  have hobserve : Within 1 (getTransaction (L := L) (.instant r.id) (L.computeTxid spend)) :=
    look_within rfl
  have hfinds : Finds (Act.attempt (getTransaction (.instant r.id) (L.computeTxid spend)))
      (fun observed h' => ∀ depth : Int, 0 < depth →
        depth ≤ (observed.toOption.bind id).getD 0 →
        Seen h' (.instant r.id) depth r.signedSpend) [] :=
    (getTransaction_obeys (.instant r.id) (okOr_eq_ok.mp hraw) hspend []).contract
      fun _ _ _ => trivial
  refine Act.Spec.bind (hobserve.attempt.finds hfinds h₂) ?_
  rintro observed h₃ - ⟨new, rfl, hplain, hseen⟩
  have hbroadcast : Within 1 (broadcastUnseen r raw ((observed.toOption.bind id).getD 0)) :=
    .ite (look_within rfl) .pure
  refine Act.Spec.bind (hbroadcast.does _) fun _ h₄ _ he => ?_
  have hlook : Extends Plainly h₂ (new ++ h₂) := ⟨new, rfl, hplain⟩
  have hk₄ := hk.after (still_of_plainly (hlook.trans he))
  refine (saveInstant_does hk₄ (.settled _ hfrozen hopen fun hdepth => ?_)).mono
    (fun _ => id) fun _ _ _ _ => trivial
  obtain ⟨raw, tx, n, hraw, htx, hn, hmem⟩ := hseen 3 (by decide) hdepth
  exact ⟨raw, tx, n, hraw, htx, hn, he.mem (List.mem_append_left h₂ hmem)⟩

/-- `advance_instant` walks the phases in order; each save is of the claim the phase before left. -/
theorem advanceInstant_does {r : InstantClaim L} (hk : Known C r h) :
    Does C (advanceInstant C r) (fun _ _ => True) h := by
  apply Act.Spec.ite
  · exact fun _ => .pure trivial
  · intro hopen
    refine Act.Spec.bind (payInstant_does hk hopen) ?_
    rintro r₁ h₁ - ⟨hk₁, hcreated, hopen₁⟩
    refine Act.Spec.bind (prepareRecovery_does hk₁ hcreated hopen₁) fun prepared h₂ _ hr₂ => ?_
    rcases prepared with - | r₂
    · exact .pure trivial
    · obtain ⟨hk₂, hfrozen, hopen₂⟩ := hr₂ r₂ rfl
      refine Act.Spec.bind (signInstantSpend_does hk₂ hfrozen hopen₂) ?_
      rintro r₃ h₃ - ⟨hk₃, hfrozen₃, hopen₃⟩
      exact settleInstant_does hk₃ hfrozen₃ hopen₃

/-- `new_instant_claim` enters its claim under the lock the reservation needs. -/
theorem newInstantClaim_does (owner quoteId : String) (input : InstantClaimInput)
    (hh : (guards C).Held .deposits h) (hfirst : Unentered h) :
    Does C (newInstantClaim C owner quoteId input) (fun _ _ => True) h := by
  have hquote : Within 1 (db (L := L) (.instantQuoteById quoteId owner)) := look_within rfl
  refine Act.Spec.bind (hquote.does h) fun quote h₁ _ he₁ => ?_
  have houtstanding : Within 1 (db (L := L) .instantOutstanding) := look_within rfl
  refine Act.Spec.bind (houtstanding.does h₁) fun outstanding h₂ _ he₂ => ?_
  refine Act.Spec.bind Act.Spec.ofExcept_eq ?_
  rintro _ h₃ - ⟨-, rfl⟩
  refine Act.Spec.bind Act.Spec.ofExcept_eq ?_
  rintro signature h₄ - ⟨-, rfl⟩
  refine Act.Spec.bind Act.Spec.ofExcept_eq ?_
  rintro encrypted h₅ - ⟨-, rfl⟩
  have hcoin : Within 1 (getTxOut (L := L) quote.deposit.txid quote.deposit.vout.toNat) :=
    look_within rfl
  refine Act.Spec.bind (hcoin.does _) fun found h₆ _ he₆ => ?_
  refine Act.Spec.bind Act.Spec.ofExcept_eq ?_
  rintro coin h₇ - ⟨-, rfl⟩
  refine Act.Spec.bind Act.Spec.ofExcept_eq ?_
  rintro value h₈ - ⟨-, rfl⟩
  refine .guard fun _ => ?_
  refine Act.Spec.bind ((checkAncestors_within _ coin).does _) fun _ h₉ _ he₉ => ?_
  have hbusy : Within 1 (db (L := L) (.instantBusy owner quote.deposit)) := look_within rfl
  refine Act.Spec.bind (hbusy.does h₉) fun busy h₁₀ _ he₁₀ => ?_
  refine .guard fun _ => ?_
  have haddress : Within 1 (bitcoinChangeAddress (L := L)) := look_within rfl
  refine Act.Spec.bind (haddress.does h₁₀) fun destination h₁₁ _ he₁₁ => ?_
  refine Act.Spec.bind Act.Spec.ofExcept_eq ?_
  rintro parsed h₁₂ - ⟨-, rfl⟩
  refine Act.Spec.bind ((tell_within (c := .newUuid) rfl).does _) fun transfer h₁₃ _ he₁₃ => ?_
  refine Act.Spec.bind ((prepareStaticClaim_within quote.deposit encrypted signature transfer.print
    _).finds (prepareStaticClaim_plans _ _ _ _ _ []) h₁₃) ?_
  rintro plan h₁₄ _ ⟨new, rfl, hplain, hplanned⟩
  refine Act.Spec.bind ((tell_within (c := .newUuid) rfl).does _) fun id h₁₅ _ he₁₅ => ?_
  -- every call since the program began was plain, so nothing was entered yet
  have hplainly : Extends Plainly h h₁₅ := by
    refine he₁.trans (he₂.trans (he₆.trans (he₉.trans (he₁₀.trans (he₁₁.trans (he₁₃.trans ?_))))))
    exact Extends.trans ⟨new, rfl, hplain⟩ he₁₅
  have hheld := held_after hh (still_of_plainly hplainly)
  refine Act.Spec.bind (Act.Spec.ask_eq (I := Api L) (c := .db (.insertInstant _ _ _)) ?_
    fun _ => trivial) ?_
  · refine ⟨rfl, rfl, rfl, rfl, ?_, hheld, hfirst.after hplainly⟩
    exact hplanned.mono fun e he => he₁₅.mem (List.mem_append_left h₁₃ he)
  · -- the insert shows the record, under the lock
    rintro ⟨⟩ h₁₆ - ⟨r, hr, rfl⟩
    obtain rfl : r = .ok () := hr
    refine Act.Spec.bind (advanceInstant_does (.shows (.inserted _ _) hheld nofun)) ?_
    exact fun _ _ _ _ => .pure trivial

/-- `instant_claim` takes the lock before it looks for a stored claim. -/
theorem instantClaim_does (owner : String) (input : InstantClaimInput) (hh : Unentered h) :
    Does C (instantClaim C owner input) (fun _ _ => True) h := by
  refine Act.Spec.bind Act.Spec.ofExcept_eq ?_
  rintro quoteId h₁ - ⟨-, rfl⟩
  apply locked_does
  apply locked_does
  have hheld : (guards C).Held .deposits
      (⟨.lock .liquidity, ()⟩ :: ⟨.lock .deposits, ()⟩ :: h₁) := (held_locked h₁).cons nofun
  refine Act.Spec.bind (Act.Spec.ask_eq (I := Api L)
    (c := .db (.instantClaimForQuote quoteId owner)) trivial fun _ => trivial) ?_
  rintro existing h₃ - ⟨r, hr, rfl⟩
  obtain rfl : r = .ok existing := hr
  rcases existing with - | record
  · refine newInstantClaim_does owner quoteId input (hheld.cons nofun) ?_
    exact ((hh.cons rfl).cons rfl).cons rfl
  · refine Act.Spec.bind (advanceInstant_does (.shows (.found quoteId owner) hheld nofun)) ?_
    exact fun _ _ _ _ => .pure trivial

/-- `recover_instant_claim` is lawful under the lock its pass holds. -/
theorem recoverInstantClaim_does (record : InstantClaim L) (hh : (guards C).Held .deposits h) :
    Does C (recoverInstantClaim C record) (fun _ _ => True) h := by
  have hread : Does C (db (.instantById record.id)) (fun r h' => Known C r h') h := by
    apply Act.Spec.ask (I := Api L) trivial fun _ => trivial
    rintro r current rfl
    exact .shows (.read record.id) hh nofun
  refine Act.Spec.bind hread.attempt fun found h₁ _ hk => ?_
  rcases found with e | current
  · exact .pure trivial
  · refine Act.Spec.bind (advanceInstant_does (hk current rfl)).attempt fun outcome h₂ _ _ => ?_
    rcases outcome with e | -
    · have herror : Within 1 (db (L := L) (.instantError current.id e)) := look_within rfl
      exact Act.Spec.bind (herror.attempt.does h₂) fun _ _ _ _ => .pure trivial
    · exact .pure trivial

/-- One recovery pass over the instant claims. -/
theorem instantPass_does (h : History (Api L)) :
    Does C (instantPass C) (fun _ _ => True) h := by
  have hsample : Within 1 (sampleInstants (L := L)) := look_within rfl
  refine Act.Spec.bind (hsample.attempt.does h) fun outcome h₁ _ _ => ?_
  rcases outcome with e | records
  · exact .pure trivial
  · apply Act.Spec.forEach (K := fun _ _ => True)
    · intro record _ h₂ _ _
      apply locked_does
      apply locked_does
      exact recoverInstantClaim_does record ((held_locked h₂).cons nofun)
    · exact fun _ _ _ _ => trivial

/-! ### Requests -/

/-- Quoting changes no claim. -/
theorem quote_does (owner : String) (input : OutputInput) (h : History (Api L)) :
    Does C (quote C owner input) (fun _ _ => True) h := by
  refine Act.Spec.bind Act.Spec.ofExcept_eq ?_
  rintro _ h₁ - -
  refine Act.Spec.bind Act.Spec.ofExcept_eq ?_
  rintro point h₂ - -
  apply locked_does
  exact ((quoteOutput_within le_rfl owner point.1 point.2).does _).weaken fun _ => id

/-- Neither does quoting an instant deposit. -/
theorem instantQuote_does (owner : String) (input : OutputInput) (h : History (Api L)) :
    Does C (instantQuote C owner input) (fun _ _ => True) h := by
  refine Act.Spec.bind Act.Spec.ofExcept_eq ?_
  rintro _ h₁ - -
  refine Act.Spec.bind Act.Spec.ofExcept_eq ?_
  rintro point h₂ - -
  apply locked_does
  exact ((instantQuoteOutput_within le_rfl owner point.1 point.2).does _).weaken fun _ => id

/-- No request of the service makes an unlawful call, whatever it is answered. -/
theorem handler_lawful (r : Request) :
    (Request.handler C r).wp (Lawful C) (fun _ _ => True) [] := by
  have hall : ∀ {α : Type} {act : Ssp L α}, Does C act (fun _ _ => True) [] →
      (discard act.run).wp (Lawful C) (fun _ _ => True) [] := by
    intro α act hact
    rw [Prog.wp_discard]
    exact Prog.wp_mono hact.wp fun _ _ _ => trivial
  cases r with
  | quote owner input => exact hall (quote_does owner input [])
  | claim owner input => exact hall (claim_does owner input unentered_nil)
  | pass => exact hall (pass_does [])
  | instantQuote owner input => exact hall (instantQuote_does owner input [])
  | instantClaim owner input => exact hall (instantClaim_does owner input unentered_nil)
  | instantPass => exact hall (instantPass_does [])

end OpenSsp.Deposit
