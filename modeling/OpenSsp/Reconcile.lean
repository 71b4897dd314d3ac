/-
OpenSsp/Reconcile.lean

What one failing payment does to a pass of `reconcile_payments` (`ldk.rs`).

The pass is written over any monad with what it calls as a parameter (`ReconcileOps`).  With
the program's functions it is the program (`reconcilePayments_eq`).  Over the tables alone,
with settlement steps that fail for any set of payments and otherwise let the tables grow
(`PassEnv`), it shows which steps a pass performs.

Every step that can fail outside is wrapped in `if let Err(error)`, except that of a payment
LDK reports FAILED, and a listing of more than 100 pages is an error.  Main result:
`reconcile_recovers_all`, without these two cases a pass performs the settlement step of every
listed payment and sweeps the expired receives.  A refund that fails ends the pass
(`pass_ended`).
-/
import OpenSsp.Growth
import OpenSsp.Recovery
import OpenSsp.ReceiveInvariant

namespace OpenSsp.Reconcile

open Interleave

/-! ### The pass -/

/-- What a pass calls. -/
structure ReconcileOps (m : Type → Type) where
  unresolvedLightningSends : ExceptT String m (List LightningSend)
  recoverSend : LightningSend → ExceptT String m Unit
  lightningSubmissionError : String → String → ExceptT String m Unit
  listPayments : Option String → ExceptT String m (List Payment × Option String)
  isManagedOutbound : String → ExceptT String m Bool
  settleSucceededPayment : Payment → ExceptT String m Unit
  failManagedPayment : Payment → ExceptT String m Unit
  setSettling : Payment → ExceptT String m Unit
  setPending : Payment → ExceptT String m Unit
  finishBolt12Receive : String → String → Payment → ExceptT String m Unit
  lightningReceiveForHash : String → ExceptT String m (Option LightningReceive)
  finishReceivedPayment : Payment → String → ExceptT String m Bool
  failExternalReceive : Payment → String → ExceptT String m Unit
  processInboundClaimable : Payment → String → ExceptT String m Bool
  expireReceives : ExceptT String m Unit

section

variable {m : Type → Type} [Monad m] (o : ReconcileOps m)

/-- `if let Err(error) = x { warn }` -/
def warned {α : Type} (x : ExceptT String m α) : ExceptT String m Unit := ExceptT.mk do
  let _ ← x.run
  return .ok ()

/-- The outbound half of `reconcile_payment`: the send the payment belongs to takes its outcome. -/
def reconcileOutbound (payment : Payment) : ExceptT String m Unit := do
  if ← o.isManagedOutbound payment.paymentId then
    match payment.status with
    | .succeeded =>
        attend (fun payment => (o.settleSucceededPayment payment).run)
          (fun payment _ => (o.setSettling payment).run) payment
    | .failed => o.failManagedPayment payment
    | .pending => o.setPending payment

/-- The inbound half: the receive of the payment's hash takes its outcome. -/
def reconcileInbound (payment : Payment) (paymentHash : String) : ExceptT String m Unit := do
  if (← o.lightningReceiveForHash paymentHash).isNone then return ()
  match payment.status with
  | .succeeded => warned (o.finishReceivedPayment payment paymentHash)
  | .failed => o.failExternalReceive payment paymentHash
  | .pending => warned (o.processInboundClaimable payment paymentHash)

/-- `reconcile_payment`, by the payment's direction. -/
def reconcilePayment (payment : Payment) : ExceptT String m Unit :=
  if payment.direction = .outbound then reconcileOutbound o payment
  else
    match bolt12OfferIds payment with
    | some (offerId, paymentHash) =>
        if payment.status = .succeeded then
          warned (o.finishBolt12Receive offerId paymentHash payment)
        else pure ()
    | none =>
        match bolt11Hash payment with
        | some paymentHash => reconcileInbound o payment paymentHash
        | none => pure ()

/-- The page loop of `reconcile_payments`, with its bound of 100 pages. -/
def reconcilePages : Nat → Option String → ExceptT String m Unit
  | 0, _ => throw "ldk payment reconciliation exceeded 100 pages"
  | n + 1, pageToken => do
      let page ← o.listPayments pageToken
      page.1.forM (reconcilePayment o)
      match page.2 with
      | none => pure ()
      | some token => reconcilePages n (some token)

/-- The payments part of `reconcile_payments`, from the first page on. -/
def reconcilePayments : ExceptT String m Unit := do
  let sends ← o.unresolvedLightningSends
  Recovery.recoverSends (fun id error => (o.lightningSubmissionError id error).run)
    (fun send => (o.recoverSend send).run) sends
  reconcilePages o 100 none
  o.expireReceives

end

/-! ### The program's pass -/

/-- The same operations as the program of the service has them. -/
def programOps (D : Deployment) : ReconcileOps (Prog Api) where
  unresolvedLightningSends := Ssp.db .unresolvedLightningSends
  recoverSend := Ldk.recoverSend D
  lightningSubmissionError id error := Ssp.db (.lightningSubmissionError id error)
  listPayments pageToken := Ssp.ldk (.listPayments pageToken)
  isManagedOutbound := Ldk.isManagedOutbound
  settleSucceededPayment := Ldk.settleSucceededPayment D
  failManagedPayment payment := Ldk.failManagedPayment D payment.paymentId none
  setSettling payment := Ssp.db (.setPayment payment.paymentId .settling)
  setPending payment := Ssp.db (.setPayment payment.paymentId .pending)
  finishBolt12Receive offerId paymentHash payment :=
    Ldk.finishBolt12Receive D offerId paymentHash (bolt12Preimage payment) payment.amountMsat
  lightningReceiveForHash hash := Ssp.db (.lightningReceiveForHash hash)
  finishReceivedPayment payment := Ldk.finishReceivedPayment payment.paymentId
  failExternalReceive payment paymentHash :=
    Ssp.locked .receive false do
      Ssp.mark (.attempt payment.paymentId paymentHash)
      Ssp.db (.failExternalReceive paymentHash payment.paymentId)
  processInboundClaimable payment paymentHash := Ldk.processInboundClaimable D
    { paymentId := payment.paymentId, paymentHash := paymentHash,
      amountMsat := bolt11ClaimableAmount payment }
  expireReceives := do
    let now ← Ssp.tell .now
    let hashes ← Ssp.db (.expiredReceiveHashes now)
    Act.forEach Ldk.expireReceive hashes

/-- A failure that is logged and dropped. -/
theorem warned_eq {I : Interface} {α : Type} (x : Act I String α) :
    (do let _ ← Act.attempt x) = warned x := by
  show (x.run >>= fun r => Prog.ret (Except.ok r)) >>= ExceptT.bindCont _ = x.run >>= _
  rw [bind_assoc]
  rfl

/-- A failure that is written to the row it came from. -/
theorem attend_eq {I : Interface} {ρ : Type} (process : ρ → Act I String Unit)
    (report : ρ → String → Act I String Unit) (r : ρ) :
    (do match ← Act.attempt (process r) with
        | .ok () => pure ()
        | .error e => report r e) =
      attend (fun r => (process r).run) (fun r e => (report r e).run) r := by
  show ((process r).run >>= fun x => Prog.ret (Except.ok x)) >>= ExceptT.bindCont _ =
    (process r).run >>= _
  rw [bind_assoc]
  apply congrArg
  funext x
  rcases x with e | u
  · rfl
  · rfl

variable (D : Deployment)

/-- The general outbound half is the service's own, at its own operations. -/
theorem reconcileOutbound_eq : Ldk.reconcileOutbound D = reconcileOutbound (programOps D) := by
  funext payment
  show (Ldk.isManagedOutbound payment.paymentId >>= _) =
    Ldk.isManagedOutbound payment.paymentId >>= _
  apply congrArg
  funext managed
  cases managed with
  | false => rfl
  | true =>
      rcases payment.status with - | - | -
      · rfl
      · exact attend_eq (Ldk.settleSucceededPayment D)
          (fun payment _ => Ssp.db (.setPayment payment.paymentId .settling)) payment
      · rfl

/-- So is the inbound half. -/
theorem reconcileInbound_eq : Ldk.reconcileInbound D = reconcileInbound (programOps D) := by
  funext payment paymentHash
  show (Ssp.db (.lightningReceiveForHash paymentHash) >>= _) =
    Ssp.db (.lightningReceiveForHash paymentHash) >>= _
  apply congrArg
  funext receive
  rcases receive with - | receive
  · rfl
  · rcases payment.status with - | - | -
    · exact warned_eq _
    · exact warned_eq _
    · rfl

/-- So is the whole step for one payment. -/
theorem reconcilePayment_eq : Ldk.reconcilePayment D = reconcilePayment (programOps D) := by
  funext payment
  unfold Ldk.reconcilePayment reconcilePayment
  rw [reconcileOutbound_eq, reconcileInbound_eq]
  rcases bolt12OfferIds payment with - | ⟨offerId, paymentHash⟩
  · rfl
  · by_cases hsucceeded : payment.status = .succeeded
    · simp only [if_pos hsucceeded]
      apply congrArg
      exact warned_eq _
    · simp only [if_neg hsucceeded]

/-- So is the loop over the pages. -/
theorem reconcilePages_eq (n : Nat) (pageToken : Option String) :
    Ldk.reconcilePages D n pageToken = reconcilePages (programOps D) n pageToken := by
  induction n generalizing pageToken with
  | zero => rfl
  | succ n ih =>
      unfold Ldk.reconcilePages reconcilePages
      simp only [Recovery.forEach_eq, reconcilePayment_eq, ih]
      rfl

/-- So is the pass. -/
theorem reconcilePayments_eq : Ldk.reconcilePayments D = reconcilePayments (programOps D) := by
  rw [Recovery.reconcilePayments_eq, reconcilePages_eq]
  rfl

/-! ### A pass over the tables -/

/-- What a pass has done: the settlement step of a payment, or the sweep. -/
inductive Done where
  | settled (payment : Payment)
  | swept
deriving DecidableEq

section

variable (listing : Option String → List Payment × Option String)

/-- The payments on the first pages that LDK lists from a token on. -/
def listed : Nat → Option String → List Payment
  | 0, _ => []
  | n + 1, token => (listing token).1 ++
      match (listing token).2 with
      | none => []
      | some next => listed n (some next)

/-- Are those all pages there are? -/
def endsWithin : Nat → Option String → Bool
  | 0, _ => false
  | n + 1, token =>
      match (listing token).2 with
      | none => true
      | some next => endsWithin n (some next)

end

section

variable {listing : Option String → List Payment × Option String} {token : Option String}
  {payments : List Payment} (n : Nat)

/-- The last page ends the listing. -/
theorem listed_last (hpage : listing token = (payments, none)) :
    listed listing (n + 1) token = payments := by
  rw [listed, hpage]
  exact List.append_nil payments

/-- A page with a token goes on with the next. -/
theorem listed_next {next : String} (hpage : listing token = (payments, some next)) :
    listed listing (n + 1) token = payments ++ listed listing n (some next) := by
  rw [listed, hpage]

/-- Pages after the last one add nothing. -/
theorem listed_of_endsWithin (hends : endsWithin listing n token = true) (k : Nat) :
    ∀ payment ∈ listed listing k token, payment ∈ listed listing n token := by
  induction n generalizing token k with
  | zero => cases hends
  | succ n ih =>
      intro payment hp
      rcases k with - | k
      · cases hp
      · rcases hpage : listing token with ⟨payments, - | next⟩
        · rw [listed_last k hpage] at hp
          rw [listed_last n hpage]
          exact hp
        · rw [endsWithin, hpage] at hends
          rw [listed_next k hpage] at hp
          rw [listed_next n hpage]
          rcases List.mem_append.mp hp with hp | hp
          · exact List.mem_append_left _ hp
          · exact List.mem_append_right _ (ih hends k payment hp)

end

/-- The payment is managed: a pass over the tables has a settlement step for it. -/
def HasStep (db : Db) (payment : Payment) : Bool :=
  if payment.direction = .outbound then (db.lightningSendForPayment payment.paymentId).isSome
  else
    match bolt12OfferIds payment with
    | some _ => payment.status = .succeeded
    | none => (bolt11Hash payment).any fun hash => (db.lightningReceiveForHash hash).isSome

/-- The outside of one pass over the tables: the payments LDK lists, those of them whose
settlement step fails outside, with their errors, and what the steps do to the tables. -/
structure PassEnv (db : Db) where
  listing : Option String → List Payment × Option String
  failure : Payment → Option String
  recoverSend : LightningSend → Db → Except String Unit × Db
  settle : Payment → Db → Db
  expire : Db → Db
  managed : ∀ n, ∀ payment ∈ listed listing n none, (failure payment).isSome → HasStep db payment
  recoverSend_grows : ∀ send, ∀ db : Db, db.Grows (recoverSend send db).2
  settle_grows : ∀ payment, ∀ db : Db, db.Grows (settle payment db)

namespace PassEnv

variable {db : Db} (env : PassEnv db)

/-- The settlement step of a payment that can fail outside. -/
def step {α : Type} (payment : Payment) (a : α) :
    ExceptT String (StateM (Db × List Done)) α := ExceptT.mk <|
  noting (fun _ db => ((env.failure payment).elim (.ok a) .error, env.settle payment db))
    (.settled payment)

/-- A settlement step that changes the tables only. -/
def update (payment : Payment) (f : Db → Db) : ExceptT String (StateM (Db × List Done)) Unit :=
  ExceptT.mk <| noting (fun _ db => (.ok (), f db)) (.settled payment)

/-- A read of the database sees the state so far. -/
def read {α : Type} (f : Db → α) : ExceptT String (StateM (Db × List Done)) α :=
  ExceptT.mk <| quietly fun db => (.ok (f db), db)

/-- The operations over a database and the list of what was done. -/
def ops : ReconcileOps (StateM (Db × List Done)) where
  unresolvedLightningSends := read Db.unresolvedLightningSends
  recoverSend send := ExceptT.mk <| quietly (env.recoverSend send)
  lightningSubmissionError id error := ExceptT.mk <| quietly fun db =>
    (.ok (), (db.lightningSubmissionError id error).2)
  listPayments token := return env.listing token
  isManagedOutbound id := read fun db => (db.lightningSendForPayment id).isSome
  settleSucceededPayment payment := env.step payment ()
  failManagedPayment payment := env.step payment ()
  setSettling payment := ExceptT.mk <| quietly fun db =>
    (.ok (), (db.setPayment payment.paymentId .settling).2)
  setPending payment := update payment fun db => (db.setPayment payment.paymentId .pending).2
  finishBolt12Receive _ _ payment := env.step payment ()
  lightningReceiveForHash hash := read fun db => db.lightningReceiveForHash hash
  finishReceivedPayment payment _ := env.step payment true
  failExternalReceive payment hash :=
    update payment fun db => (db.failExternalReceive hash payment.paymentId).2
  processInboundClaimable payment _ := env.step payment true
  expireReceives := ExceptT.mk <| noting (fun _ db => (.ok (), env.expire db)) .swept

/-- The outcome of the pass and what it has done. -/
def pass : Except String Unit × List Done :=
  let run := (reconcilePayments env.ops).run (db, [])
  (run.1, run.2.2)

/-- The pass has performed every settlement step there is, and swept. -/
structure RecoversAll : Prop where
  settled : ∀ n, ∀ payment ∈ listed env.listing n none, HasStep db payment →
    .settled payment ∈ env.pass.2
  swept : .swept ∈ env.pass.2

/-- The step of the payment fails outside, and ends the pass: LDK reports a send as FAILED. -/
def Aborts (payment : Payment) : Prop :=
  (env.failure payment).isSome ∧ payment.direction = .outbound ∧ payment.status = .failed

end PassEnv

/-! ### What stays managed -/

/-- A send found for a payment is found in every later database. -/
theorem sendForPayment_grows {db db' : Db} (h : db.Grows db') {id : String}
    (hid : (db.lightningSendForPayment id).isSome) : (db'.lightningSendForPayment id).isSome := by
  obtain ⟨send, hsend⟩ := Option.isSome_iff_exists.mp hid
  obtain ⟨r, hr, rfl, hmatch⟩ := Db.lightningSendForPayment_mem hsend
  obtain ⟨r', hr', hcont⟩ := h.sends r hr
  rw [Db.lightningSendForPayment, Option.isSome_map, List.find?_isSome]
  refine ⟨r', hr', ?_⟩
  rw [Db.sendHasId, Bool.or_eq_true, beq_iff_eq, beq_iff_eq]
  rcases hmatch with hrequest | hpayment
  · exact .inl (hcont.same.requestId.trans hrequest)
  · exact .inr (hcont.paymentId id hpayment)

/-- So is a receive found for a hash. -/
theorem receiveForHash_grows {db db' : Db} (h : db.Grows db') {hash : String}
    (hhash : (db.lightningReceiveForHash hash).isSome) :
    (db'.lightningReceiveForHash hash).isSome := by
  rw [Db.lightningReceiveForHash, Option.isSome_map] at hhash ⊢
  exact h.receives_isSome hhash

/-- What a payment had to be applied to stays there. -/
theorem HasStep.grows {db db' : Db} (h : db.Grows db') {payment : Payment}
    (hstep : HasStep db payment = true) : HasStep db' payment = true := by
  unfold HasStep at hstep ⊢
  split at hstep
  · next hout =>
      rw [if_pos hout]
      exact sendForPayment_grows h hstep
  · next hin =>
      rw [if_neg hin]
      split at hstep
      · exact hstep
      · rcases hhash : bolt11Hash payment with - | hash
        · rw [hhash] at hstep
          exact hstep
        · rw [hhash] at hstep
          exact receiveForHash_grows h hstep

/-! ### One payment -/

/-- The settlement steps of `payments`, as far as they had one at the beginning, and no sweep. -/
structure Steps (db₀ : Db) (payments : List Payment) (more : List Done) : Prop where
  settled : ∀ payment ∈ payments, HasStep db₀ payment → .settled payment ∈ more
  only : ∀ payment, .settled payment ∈ more → payment ∈ payments
  swept : .swept ∉ more

/-- Nothing listed, nothing done. -/
theorem Steps.nil (db₀ : Db) : Steps db₀ [] [] :=
  ⟨(fun _ hp => nomatch hp), (fun _ hp => nomatch hp), List.not_mem_nil⟩

/-- Steps of two lists follow each other. -/
theorem Steps.append {db₀ : Db} {ps ps' : List Payment} {more more' : List Done}
    (h : Steps db₀ ps more) (h' : Steps db₀ ps' more') :
    Steps db₀ (ps ++ ps') (more ++ more') := by
  refine ⟨?_, ?_, List.not_mem_append h.swept h'.swept⟩
  · intro p hp hstep
    rcases List.mem_append.mp hp with hp | hp
    · exact List.mem_append_left _ (h.settled p hp hstep)
    · exact List.mem_append_right _ (h'.settled p hp hstep)
  · intro p hp
    rcases List.mem_append.mp hp with hp | hp
    · exact List.mem_append_left _ (h.only p hp)
    · exact List.mem_append_right _ (h'.only p hp)

/-- A part of the pass ends without an error, after these steps. -/
def Went (db₀ : Db) (payments : List Payment) (x : ExceptT String (StateM (Db × List Done)) Unit)
    (db : Db) (seen : List Done) : Prop :=
  ∃ db' more, db₀.Grows db' ∧ Steps db₀ payments more ∧
    x.run (db, seen) = (.ok (), (db', seen ++ more))

/-- The part of the pass ends it, without a sweep. -/
def Ended (x : ExceptT String (StateM (Db × List Done)) Unit) (db : Db) (seen : List Done) : Prop :=
  ∃ e db' more, .swept ∉ more ∧ x.run (db, seen) = (.error e, (db', seen ++ more))

variable {db₀ db : Db} {payment : Payment} {seen : List Done}
  {x : ExceptT String (StateM (Db × List Done)) Unit}

/-- One payment settled is one step. -/
theorem Went.one {db' : Db} (hgrows : db₀.Grows db')
    (hrun : x.run (db, seen) = (.ok (), (db', seen ++ [.settled payment]))) :
    Went db₀ [payment] x db seen := by
  refine ⟨db', [.settled payment], hgrows, ⟨?_, ?_, by simp⟩, hrun⟩
  · intro p hp _
    rw [List.mem_singleton.mp hp]
    exact List.mem_singleton_self _
  · intro p hp
    rw [Done.settled.inj (List.mem_singleton.mp hp)]
    exact List.mem_singleton_self _

/-- A payment without a settlement step. -/
theorem Went.none (hgrows : db₀.Grows db) (hstep : HasStep db payment = false)
    (hrun : x.run (db, seen) = (.ok (), (db, seen))) : Went db₀ [payment] x db seen := by
  refine ⟨db, [], hgrows, ⟨?_, (fun _ hp => nomatch hp), List.not_mem_nil⟩, ?_⟩
  swap
  · rw [hrun, List.append_nil]
  intro p hp hp'
  rw [List.mem_singleton.mp hp] at hp'
  have hnow := HasStep.grows hgrows hp'
  rw [hstep] at hnow
  cases hnow

/-- A payment's status removes no row. -/
theorem setPayment_grows (db : Db) (id : String) (status : SendStatus) (h : status ≠ .prepared) :
    db.Grows (db.setPayment id status).2 := by
  have hrun : (Query.setPayment id status).run 0 db = .ok ((), (db.setPayment id status).2) := rfl
  apply Db.run_grows hrun
  rintro ⟨id', he⟩
  exact h (Query.setPayment.inj he).2

/-- A submission error removes no row. -/
theorem lightningSubmissionError_grows (db : Db) (id error : String) :
    db.Grows (db.lightningSubmissionError id error).2 := by
  have hrun : (Query.lightningSubmissionError id error).run 0 db =
      .ok ((), (db.lightningSubmissionError id error).2) := rfl
  apply Db.run_grows hrun
  rintro ⟨id', he⟩
  cases he

/-- Failing a receive removes no row. -/
theorem failExternalReceive_grows (db : Db) (hash id : String) :
    db.Grows (db.failExternalReceive hash id).2 := by
  have hrun : (Query.failExternalReceive hash id).run 0 db =
      .ok ((), (db.failExternalReceive hash id).2) := rfl
  apply Db.run_grows hrun
  rintro ⟨id', he⟩
  cases he

namespace PassEnv

variable (env : PassEnv db₀)

/-- A step the environment lets pass. -/
theorem step_ok {α : Type} {a : α} (h : env.failure payment = none) :
    (env.step payment a).run (db, seen) =
      (.ok a, (env.settle payment db, seen ++ [.settled payment])) := by
  show ((env.failure payment).elim (Except.ok a) .error, _) = _
  rw [h]
  rfl

/-- A step the environment fails. -/
theorem step_error {α : Type} {a : α} {e : String} (h : env.failure payment = some e) :
    (env.step payment a).run (db, seen) =
      (.error e, (env.settle payment db, seen ++ [.settled payment])) := by
  show ((env.failure payment).elim (Except.ok a) .error, _) = _
  rw [h]
  rfl

/-- A logged failure is a step all the same. -/
theorem warned_went {α : Type} (hgrows : db₀.Grows db) (a : α) :
    Went db₀ [payment] (warned (env.step payment a)) db seen := by
  apply Went.one (hgrows.trans (env.settle_grows payment db))
  rfl

/-- An outbound payment that does not abort is applied to its send. -/
theorem reconcileOutbound_went (hout : payment.direction = .outbound) (hgrows : db₀.Grows db)
    (hquiet : ¬ env.Aborts payment) :
    Went db₀ [payment] (reconcileOutbound env.ops payment) db seen := by
  have hstep : HasStep db payment = (db.lightningSendForPayment payment.paymentId).isSome := by
    rw [HasStep, if_pos hout]
  have hmanaged : (env.ops.isManagedOutbound payment.paymentId).run (db, seen) =
      (.ok (db.lightningSendForPayment payment.paymentId).isSome, (db, seen)) := rfl
  have hsettled := hgrows.trans (env.settle_grows payment db)
  rcases hsend : (db.lightningSendForPayment payment.paymentId).isSome with - | -
  · apply Went.none hgrows (hstep.trans hsend)
    rw [reconcileOutbound, bind_run, hmanaged, hsend]
    rfl
  · rcases hstatus : payment.status with - | - | -
    · apply Went.one (hgrows.trans (setPayment_grows db payment.paymentId .pending (by simp)))
      rw [reconcileOutbound, bind_run, hmanaged, hsend]
      simp only [if_true, hstatus]
      rfl
    · rcases hfail : env.failure payment with - | e
      · apply Went.one hsettled
        rw [reconcileOutbound, bind_run, hmanaged, hsend]
        simp only [if_true, hstatus]
        rw [attend_run]
        simp only [ops, env.step_ok hfail]
      · apply Went.one (hsettled.trans (setPayment_grows _ payment.paymentId .settling (by simp)))
        rw [reconcileOutbound, bind_run, hmanaged, hsend]
        simp only [if_true, hstatus]
        rw [attend_run]
        simp only [ops, env.step_error hfail]
        rfl
    · rcases hfail : env.failure payment with - | e
      · apply Went.one hsettled
        rw [reconcileOutbound, bind_run, hmanaged, hsend]
        simp only [if_true, hstatus]
        exact env.step_ok hfail
      · exact absurd ⟨by rw [hfail]; rfl, hout, hstatus⟩ hquiet

/-- A managed send whose failure is not recorded ends the pass. -/
theorem failManaged_ended (hgrows : db₀.Grows db) (habort : env.Aborts payment)
    (hstep : HasStep db₀ payment = true) : Ended (reconcileOutbound env.ops payment) db seen := by
  obtain ⟨hfail, hout, hstatus⟩ := habort
  obtain ⟨e, hfail⟩ := Option.isSome_iff_exists.mp hfail
  have hsend := HasStep.grows hgrows hstep
  rw [HasStep, if_pos hout] at hsend
  have hmanaged : (env.ops.isManagedOutbound payment.paymentId).run (db, seen) =
      (.ok (db.lightningSendForPayment payment.paymentId).isSome, (db, seen)) := rfl
  refine ⟨e, env.settle payment db, [.settled payment], by simp, ?_⟩
  rw [reconcileOutbound, bind_run, hmanaged, hsend]
  simp only [if_true, hstatus]
  exact env.step_error hfail

/-- An inbound payment is applied to its receive. -/
theorem reconcileInbound_went (hin : payment.direction ≠ .outbound)
    (hoffer : bolt12OfferIds payment = none) {hash : String} (hhash : bolt11Hash payment = some hash)
    (hgrows : db₀.Grows db) :
    Went db₀ [payment] (reconcileInbound env.ops payment hash) db seen := by
  have hstep : HasStep db payment = (db.lightningReceiveForHash hash).isSome := by
    rw [HasStep, if_neg hin, hoffer, hhash]
    rfl
  have hread : (env.ops.lightningReceiveForHash hash).run (db, seen) =
      (.ok (db.lightningReceiveForHash hash), (db, seen)) := rfl
  rcases hreceive : db.lightningReceiveForHash hash with - | receive
  · rw [hreceive] at hstep
    apply Went.none hgrows hstep
    rw [reconcileInbound, bind_run, hread, hreceive]
    rfl
  · have hgo : ∀ y : ExceptT String (StateM (Db × List Done)) Unit,
        Went db₀ [payment] y db seen →
        (reconcileInbound env.ops payment hash).run (db, seen) = y.run (db, seen) →
        Went db₀ [payment] (reconcileInbound env.ops payment hash) db seen := by
      rintro y ⟨db', more, h⟩ hrun
      rw [← hrun] at h
      exact ⟨db', more, h⟩
    rcases hstatus : payment.status with - | - | -
    · apply hgo _ (env.warned_went hgrows true)
      rw [reconcileInbound, bind_run, hread, hreceive]
      simp only [hstatus]
      rfl
    · apply hgo _ (env.warned_went hgrows true)
      rw [reconcileInbound, bind_run, hread, hreceive]
      simp only [hstatus]
      rfl
    · apply Went.one (hgrows.trans (failExternalReceive_grows db hash payment.paymentId))
      rw [reconcileInbound, bind_run, hread, hreceive]
      simp only [hstatus]
      rfl

/-- A payment whose step does not end the pass. -/
theorem reconcilePayment_went (hgrows : db₀.Grows db) (hquiet : ¬ env.Aborts payment) :
    Went db₀ [payment] (reconcilePayment env.ops payment) db seen := by
  by_cases hout : payment.direction = .outbound
  · rw [reconcilePayment, if_pos hout]
    exact env.reconcileOutbound_went hout hgrows hquiet
  · rw [reconcilePayment, if_neg hout]
    rcases hoffer : bolt12OfferIds payment with - | ⟨offerId, paymentHash⟩
    · rcases hhash : bolt11Hash payment with - | hash
      · apply Went.none hgrows _ rfl
        rw [HasStep, if_neg hout, hoffer, hhash]
        rfl
      · exact env.reconcileInbound_went hout hoffer hhash hgrows
    · by_cases hsucceeded : payment.status = .succeeded
      · simp only [if_pos hsucceeded]
        exact env.warned_went hgrows ()
      · simp only [if_neg hsucceeded]
        apply Went.none hgrows _ rfl
        rw [HasStep, if_neg hout, hoffer]
        exact decide_eq_false hsucceeded

/-- A payment that aborts ends its pass. -/
theorem reconcilePayment_ended (hgrows : db₀.Grows db) (habort : env.Aborts payment)
    (hstep : HasStep db₀ payment = true) : Ended (reconcilePayment env.ops payment) db seen := by
  rw [reconcilePayment, if_pos habort.2.1]
  exact env.failManaged_ended hgrows habort hstep

end PassEnv

/-! ### Pages -/

/-- One part of the pass after another. -/
theorem Went.bind {ps ps' : List Payment} {y : ExceptT String (StateM (Db × List Done)) Unit}
    (hx : Went db₀ ps x db seen) (hy : ∀ db' seen', db₀.Grows db' → Went db₀ ps' y db' seen') :
    Went db₀ (ps ++ ps') (x >>= fun _ => y) db seen := by
  obtain ⟨db₁, more₁, hgrows₁, hsteps₁, hrun₁⟩ := hx
  obtain ⟨db₂, more₂, hgrows₂, hsteps₂, hrun₂⟩ := hy db₁ (seen ++ more₁) hgrows₁
  refine ⟨db₂, more₁ ++ more₂, hgrows₂, hsteps₁.append hsteps₂, ?_⟩
  rw [bind_run, hrun₁]
  simp only [hrun₂, List.append_assoc]

/-- A pass that has ended does nothing more. -/
theorem Ended.bind {y : ExceptT String (StateM (Db × List Done)) Unit} (hx : Ended x db seen) :
    Ended (x >>= fun _ => y) db seen := by
  obtain ⟨e, db', more, hswept, hrun⟩ := hx
  refine ⟨e, db', more, hswept, ?_⟩
  rw [bind_run, hrun]

/-- What follows a page that went well may still end the pass. -/
theorem Went.bind_ended {ps : List Payment} {y : ExceptT String (StateM (Db × List Done)) Unit}
    (hx : Went db₀ ps x db seen) (hy : ∀ db' seen', db₀.Grows db' → Ended y db' seen') :
    Ended (x >>= fun _ => y) db seen := by
  obtain ⟨db₁, more₁, hgrows₁, hsteps₁, hrun₁⟩ := hx
  obtain ⟨e, db₂, more₂, hswept₂, hrun₂⟩ := hy db₁ (seen ++ more₁) hgrows₁
  refine ⟨e, db₂, more₁ ++ more₂, List.not_mem_append hsteps₁.swept hswept₂, ?_⟩
  rw [bind_run, hrun₁]
  simp only [hrun₂, List.append_assoc]

/-- A step that changes nothing. -/
theorem Went.nil (hgrows : db₀.Grows db) (hrun : x.run (db, seen) = (.ok (), (db, seen))) :
    Went db₀ [] x db seen :=
  ⟨db, [], hgrows, Steps.nil db₀, by rw [hrun, List.append_nil]⟩

namespace PassEnv

variable (env : PassEnv db₀)

/-- A page of payments that do not abort is applied as a whole. -/
theorem page_went (seen : List Done) {ps : List Payment} (hgrows : db₀.Grows db)
    (hquiet : ∀ payment ∈ ps, ¬ env.Aborts payment) :
    Went db₀ ps (ps.forM (reconcilePayment env.ops)) db seen := by
  induction ps generalizing db seen with
  | nil => exact Went.nil hgrows rfl
  | cons p ps ih =>
      exact Went.bind (env.reconcilePayment_went hgrows (hquiet p List.mem_cons_self))
        fun db' seen' hgrows' => ih seen' hgrows' fun q hq => hquiet q (List.mem_cons_of_mem _ hq)

/-- One page and then the rest of the listing. -/
theorem reconcilePages_run (n : Nat) (token : Option String) (s : Db × List Done) :
    (reconcilePages env.ops (n + 1) token).run s =
      match ((env.listing token).1.forM (reconcilePayment env.ops)).run s with
      | (.ok _, s') =>
          match (env.listing token).2 with
          | none => (.ok (), s')
          | some next => (reconcilePages env.ops n (some next)).run s'
      | (.error e, s') => (.error e, s') := by
  have hlist : (env.ops.listPayments token).run s = (.ok (env.listing token), s) := rfl
  rw [reconcilePages, bind_run, hlist]
  simp only [bind_run]
  rcases ((env.listing token).1.forM (reconcilePayment env.ops)).run s with ⟨e | u, s'⟩
  · rfl
  · rcases (env.listing token).2 with - | next
    · rfl
    · rfl

/-- A page with an aborting payment ends the pass. -/
theorem page_ended {ps : List Payment} (hgrows : db₀.Grows db)
    (hsteps : ∀ payment ∈ ps, env.Aborts payment → HasStep db₀ payment)
    (habort : ∃ payment ∈ ps, env.Aborts payment) :
    Ended (ps.forM (reconcilePayment env.ops)) db seen := by
  induction ps generalizing db seen with
  | nil =>
      obtain ⟨p, hp, -⟩ := habort
      cases hp
  | cons p ps ih =>
      show Ended (reconcilePayment env.ops p >>= fun _ => ps.forM (reconcilePayment env.ops)) db seen
      by_cases hp : env.Aborts p
      · exact (env.reconcilePayment_ended hgrows hp (hsteps p List.mem_cons_self hp)).bind
      · apply (env.reconcilePayment_went hgrows hp).bind_ended
        intro db' seen' hgrows'
        apply ih hgrows' fun q hq => hsteps q (List.mem_cons_of_mem p hq)
        obtain ⟨q, hq, hq'⟩ := habort
        rcases List.mem_cons.mp hq with rfl | hq
        · exact absurd hq' hp
        · exact ⟨q, hq, hq'⟩

/-- The pages up to the bound, when no step ends the pass: it goes on exactly when these are
all pages. -/
theorem reconcilePages_went (n : Nat) (token : Option String) (seen : List Done)
    (hgrows : db₀.Grows db)
    (hquiet : ∀ payment ∈ listed env.listing n token, ¬ env.Aborts payment) :
    ∃ db' more, db₀.Grows db' ∧ Steps db₀ (listed env.listing n token) more ∧
      (reconcilePages env.ops n token).run (db, seen) =
        (if endsWithin env.listing n token then .ok ()
          else .error "ldk payment reconciliation exceeded 100 pages", (db', seen ++ more)) := by
  induction n generalizing token db seen with
  | zero =>
      refine ⟨db, [], hgrows, Steps.nil db₀, ?_⟩
      rw [List.append_nil]
      rfl
  | succ n ih =>
      rcases hpage : env.listing token with ⟨payments, - | next⟩
      · -- the last page ends the pass
        rw [listed_last n hpage] at hquiet ⊢
        obtain ⟨db₁, more₁, hgrows₁, hsteps₁, hrun₁⟩ :=
          env.page_went seen hgrows hquiet
        refine ⟨db₁, more₁, hgrows₁, hsteps₁, ?_⟩
        rw [env.reconcilePages_run, endsWithin, hpage]
        simp only [hrun₁]
        rfl
      · -- the rest of the pages starts from what this one has stored
        rw [listed_next n hpage] at hquiet ⊢
        obtain ⟨db₁, more₁, hgrows₁, hsteps₁, hrun₁⟩ :=
          env.page_went seen hgrows fun p hp => hquiet p (List.mem_append_left _ hp)
        obtain ⟨db₂, more₂, hgrows₂, hsteps₂, hrun₂⟩ :=
          ih (some next) (seen ++ more₁) hgrows₁
            fun p hp => hquiet p (List.mem_append_right _ hp)
        refine ⟨db₂, more₁ ++ more₂, hgrows₂, hsteps₁.append hsteps₂, ?_⟩
        rw [env.reconcilePages_run, endsWithin, hpage, ← List.append_assoc]
        simp only [hrun₁]
        exact hrun₂

/-- A payment whose step ends the pass, on the pages up to the bound. -/
theorem reconcilePages_ended (n : Nat) (token : Option String) (hgrows : db₀.Grows db)
    (hsteps : ∀ payment ∈ listed env.listing n token, env.Aborts payment → HasStep db₀ payment)
    (habort : ∃ payment ∈ listed env.listing n token, env.Aborts payment) :
    Ended (reconcilePages env.ops n token) db seen := by
  induction n generalizing token db seen with
  | zero =>
      obtain ⟨p, hp, -⟩ := habort
      cases hp
  | succ n ih =>
      have hpages : reconcilePages env.ops (n + 1) token =
          (env.listing token).1.forM (reconcilePayment env.ops) >>= fun _ =>
            match (env.listing token).2 with
            | none => pure ()
            | some next => reconcilePages env.ops n (some next) := rfl
      rw [hpages]
      rcases hpage : env.listing token with ⟨payments, - | next⟩
      · rw [listed_last n hpage] at hsteps habort
        exact (env.page_ended hgrows hsteps habort).bind
      · rw [listed_next n hpage] at hsteps habort
        by_cases hfirst : ∃ payment ∈ payments, env.Aborts payment
        · exact (env.page_ended hgrows
            (fun p hp => hsteps p (List.mem_append_left _ hp)) hfirst).bind
        · apply (env.page_went seen hgrows fun p hp hp' => hfirst ⟨p, hp, hp'⟩).bind_ended
          intro db' seen' hgrows'
          apply ih (some next) hgrows' fun p hp => hsteps p (List.mem_append_right _ hp)
          obtain ⟨p, hp, hp'⟩ := habort
          rcases List.mem_append.mp hp with hp | hp
          · exact absurd ⟨p, hp, hp'⟩ hfirst
          · exact ⟨p, hp, hp'⟩

/-! ### The whole pass -/

/-- The sends recovered before the first page. -/
theorem recoverSends_went (sends : List LightningSend) (seen : List Done) (hgrows : db₀.Grows db) :
    Went db₀ [] (Recovery.recoverSends
      (fun id error => (env.ops.lightningSubmissionError id error).run)
      (fun send => (env.ops.recoverSend send).run) sends) db seen := by
  induction sends generalizing db seen with
  | nil => exact Went.nil hgrows rfl
  | cons send sends ih =>
      show Went db₀ ([] ++ []) (_ >>= fun _ => _) db seen
      refine Went.bind ?_ fun db' seen' hgrows' => ih seen' hgrows'
      have hrecovered := hgrows.trans (env.recoverSend_grows send db)
      rcases hrun : env.recoverSend send db with ⟨e | u, db'⟩
      · rw [hrun] at hrecovered
        refine ⟨(db'.lightningSubmissionError send.requestId e).2, [],
          hrecovered.trans (lightningSubmissionError_grows db' send.requestId e),
          Steps.nil db₀, ?_⟩
        rw [attend_run]
        simp only [ops, quietly, ExceptT.run, ExceptT.mk, hrun, List.append_nil]
      · rw [hrun] at hrecovered
        refine ⟨db', [], hrecovered, Steps.nil db₀, ?_⟩
        rw [attend_run]
        simp only [ops, quietly, ExceptT.run, ExceptT.mk, hrun, List.append_nil]

/-- The pass from its first page on. -/
theorem pass_eq : ∃ db more, db₀.Grows db ∧ Steps db₀ [] more ∧
    (reconcilePayments env.ops).run (db₀, []) =
      (reconcilePages env.ops 100 none >>= fun _ => env.ops.expireReceives).run (db, more) := by
  obtain ⟨db, more, hgrows, hsteps, hrun⟩ :=
    env.recoverSends_went db₀.unresolvedLightningSends [] (Db.Grows.refl db₀)
  have hread : env.ops.unresolvedLightningSends.run (db₀, ([] : List Done)) =
      (.ok db₀.unresolvedLightningSends, (db₀, [])) := rfl
  refine ⟨db, more, hgrows, hsteps, ?_⟩
  rw [reconcilePayments, bind_run, hread]
  simp only []
  rw [bind_run, hrun]
  rfl

/-- When no step ends the pass, it goes on exactly when it gets to the last page. -/
theorem pass_went (hquiet : ∀ payment ∈ listed env.listing 100 none, ¬ env.Aborts payment) :
    ∃ more, Steps db₀ (listed env.listing 100 none) more ∧
      env.pass = if endsWithin env.listing 100 none then (.ok (), more ++ [.swept])
        else (.error "ldk payment reconciliation exceeded 100 pages", more) := by
  obtain ⟨db, more, hgrows, hsteps, hrun⟩ := env.pass_eq
  obtain ⟨db', more', -, hsteps', hpages⟩ :=
    env.reconcilePages_went 100 none more hgrows hquiet
  refine ⟨more ++ more', hsteps.append hsteps', ?_⟩
  rw [pass, hrun, bind_run, hpages]
  rcases endsWithin env.listing 100 none with - | -
  · rfl
  · rfl

/-- A step that ends the pass leaves the expired receives to another pass. -/
theorem pass_ended (habort : ∃ payment ∈ listed env.listing 100 none, env.Aborts payment) :
    (∃ e, env.pass.1 = .error e) ∧ .swept ∉ env.pass.2 := by
  obtain ⟨db, more, hgrows, hsteps, hrun⟩ := env.pass_eq
  obtain ⟨e, db', more', hswept', hended⟩ : Ended
      (reconcilePages env.ops 100 none >>= fun _ => env.ops.expireReceives) db more :=
    (env.reconcilePages_ended 100 none hgrows
      (fun p hp hp' => env.managed 100 p hp hp'.1) habort).bind
  have hpass : env.pass = (.error e, more ++ more') := by
    rw [pass, hrun, hended]
  rw [hpass]
  exact ⟨⟨e, rfl⟩, List.not_mem_append hsteps.swept hswept'⟩

/-- **A pass recovers what LDK lists.**  When the listing has at most 100 pages and the step of
no payment ends the pass, the pass performs every settlement step and sweeps the expired
receives, whichever steps fail; a longer listing is an error, after the steps of the first 100
pages and without the sweep. -/
theorem reconcile_recovers_all
    (hquiet : ∀ payment ∈ listed env.listing 100 none, ¬ env.Aborts payment) :
    (endsWithin env.listing 100 none = true → env.RecoversAll ∧ env.pass.1 = .ok ()) ∧
    (endsWithin env.listing 100 none = false →
      env.pass.1 = .error "ldk payment reconciliation exceeded 100 pages" ∧
      .swept ∉ env.pass.2 ∧
      ∀ payment ∈ listed env.listing 100 none, HasStep db₀ payment →
        .settled payment ∈ env.pass.2) := by
  obtain ⟨more, hsteps, hpass⟩ := env.pass_went hquiet
  constructor
  · intro hends
    rw [if_pos hends] at hpass
    refine ⟨⟨?_, ?_⟩, by rw [hpass]⟩
    · intro n payment hlisted hstep
      rw [hpass]
      exact List.mem_append_left _
        (hsteps.settled payment (listed_of_endsWithin 100 hends n payment hlisted) hstep)
    · rw [hpass]
      exact List.mem_append_right _ (List.mem_singleton_self _)
  · intro hmore
    rw [hmore] at hpass
    rw [hpass]
    exact ⟨rfl, hsteps.swept, hsteps.settled⟩

end PassEnv

namespace Sample

/-- A send of the sample, submitted under the payment's id. -/
def send (requestId paymentId : String) (kind : SendKind) : SendRow where
  intent :=
    { requestId := requestId, owner := "02aa", outboundTransferId := requestId,
      invoice := "lnbc10u1", amountSats := 1000, amountOverride := none, kind := kind,
      expectedId := paymentId, maxRouteCltv := none, paymentId := some paymentId,
      status := .pending }
  lastError := none

/-- Two sends that were submitted. -/
def store : Db := { Db.empty with
  sends := ⟨[send "a" "pay-a" .bolt12, send "b" "pay-b" .bolt11], by decide⟩ }

/-- An outbound payment of the sample. -/
def outbound (id : String) (status : PaymentStatus) : Payment where
  paymentId := id
  kind := none
  amountMsat := some 1000000
  direction := .outbound
  status := status

/-- The two payments the sample's node lists. -/
def payments : List Payment := [outbound "pay-a" .succeeded, outbound "pay-b" .succeeded]

/-- Each has a send to be applied to. -/
theorem payments_steps : ∀ payment ∈ payments, HasStep store payment = true := by decide

/-- Both have gone out. -/
theorem payments_succeeded : ∀ payment ∈ payments, payment.status = .succeeded := by decide

/-- The number of the page a token stands for, written in unary. -/
def page (token : Option String) : Nat := token.elim 1 fun t => t.toList.length + 2

/-- LDK lists `pages` pages, the payments on the last one. -/
def listing (pages : Nat) (token : Option String) : List Payment × Option String :=
  if pages ≤ page token then (payments, none)
  else ([], some (token.elim "" fun t => String.ofList ('x' :: t.toList)))

/-- Every page but the last is empty and names the next. -/
theorem listing_page {pages : Nat} {token : Option String} (h : page token < pages) :
    ∃ next, listing pages token = ([], some next) ∧ page (some next) = page token + 1 := by
  refine ⟨token.elim "" fun t => String.ofList ('x' :: t.toList), if_neg (Nat.not_le.mpr h), ?_⟩
  rcases token with - | t
  · rfl
  · show (String.ofList ('x' :: t.toList)).toList.length + 2 = _
    rw [String.toList_ofList]
    rfl

/-- The last page is listed when the bound gets to it. -/
theorem listed_listing {pages : Nat} (n : Nat) (token : Option String) (h : page token ≤ pages) :
    endsWithin (listing pages) n token = decide (pages < n + page token) ∧
    listed (listing pages) n token = if pages < n + page token then payments else [] := by
  induction n generalizing token with
  | zero =>
      rw [Nat.zero_add, if_neg (Nat.not_lt.mpr h), decide_eq_false (Nat.not_lt.mpr h)]
      exact ⟨rfl, rfl⟩
  | succ n ih =>
      rcases Nat.lt_or_ge (page token) pages with hlt | hge
      · obtain ⟨next, hlist, hpage⟩ := listing_page hlt
        have hnext := ih (some next) (by omega)
        rw [show n + page (some next) = n + 1 + page token by omega] at hnext
        rw [listed_next n hlist, List.nil_append, endsWithin, hlist]
        exact hnext
      · have hlist : listing pages token = (payments, none) := if_pos hge
        have hends : pages < n + 1 + page token := by omega
        rw [listed_last n hlist, endsWithin, hlist, if_pos hends, decide_eq_true hends]
        exact ⟨rfl, rfl⟩

/-- Whatever is listed is one of the two payments. -/
theorem listed_sub {pages : Nat} (hpages : 1 ≤ pages) (n : Nat) :
    listed (listing pages) n none ⊆ payments := by
  rw [(listed_listing n none hpages).2]
  split
  · exact List.Subset.refl _
  · exact List.nil_subset _

/-- The settlement of the first send fails outside. -/
def env (pages : Nat) (hpages : 1 ≤ pages) : PassEnv store where
  listing := listing pages
  failure payment := if payment.paymentId = "pay-a" then some "spark unavailable" else none
  recoverSend _ db := (.ok (), db)
  settle payment db := (db.setPayment payment.paymentId .settling).2
  expire db := db
  managed n payment hlisted _ := payments_steps payment (listed_sub hpages n hlisted)
  recoverSend_grows _ db := Db.Grows.refl db
  settle_grows payment db := setPayment_grows db payment.paymentId .settling (by simp)

/-- No payment of the sample aborts a pass. -/
theorem env_quiet {pages : Nat} (hpages : 1 ≤ pages) :
    ∀ payment ∈ listed (env pages hpages).listing 100 none,
      ¬ (env pages hpages).Aborts payment := by
  rintro payment hlisted ⟨-, -, hfailed⟩
  rw [payments_succeeded payment (listed_sub hpages 100 hlisted)] at hfailed
  cases hfailed

end Sample

/-- One settlement fails on the 100th page; the other one and the sweep are performed. -/
theorem reconcile_recovers_all_page_100 :
    (Sample.env 100 (by decide)).RecoversAll ∧ (Sample.env 100 (by decide)).pass.1 = .ok () := by
  refine (PassEnv.reconcile_recovers_all (Sample.env 100 (by decide))
    (Sample.env_quiet (by decide))).1 ?_
  exact (Sample.listed_listing 100 none (by decide)).1

/-- With one page more neither of the two is settled, and there is no sweep. -/
theorem reconcile_misses_page_101 : ¬ (Sample.env 101 (by decide)).RecoversAll ∧
    (Sample.env 101 (by decide)).failure (Sample.outbound "pay-b" .succeeded) = none ∧
    HasStep Sample.store (Sample.outbound "pay-b" .succeeded) ∧
    Sample.outbound "pay-b" .succeeded ∈
      listed (Sample.env 101 (by decide)).listing 101 none ∧
    .settled (Sample.outbound "pay-b" .succeeded) ∉ (Sample.env 101 (by decide)).pass.2 ∧
    .swept ∉ (Sample.env 101 (by decide)).pass.2 := by
  obtain ⟨more, hsteps, hpass⟩ := (Sample.env 101 (by decide)).pass_went
    (Sample.env_quiet (by decide))
  have hends : endsWithin (Sample.env 101 (by decide)).listing 100 none = false :=
    (Sample.listed_listing 100 none (by decide)).1
  have hlisted : listed (Sample.env 101 (by decide)).listing 100 none = [] :=
    (Sample.listed_listing 100 none (by decide)).2
  have hall : listed (Sample.env 101 (by decide)).listing 101 none = Sample.payments :=
    (Sample.listed_listing 101 none (by decide)).2
  rw [hends] at hpass
  rw [hlisted] at hsteps
  have hsettled : .settled (Sample.outbound "pay-b" .succeeded) ∉ more := fun h =>
    nomatch hsteps.only _ h
  refine ⟨?_, by decide, by decide, ?_, ?_, ?_⟩
  · intro h
    have hswept := h.swept
    rw [hpass] at hswept
    exact hsteps.swept hswept
  · rw [hall]
    decide
  · rw [hpass]
    exact hsettled
  · rw [hpass]
    exact hsteps.swept

end OpenSsp.Reconcile
