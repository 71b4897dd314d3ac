/-
OpenSsp/World.lean

The world the program runs in, and what each call does to it: the tables, an LDK node,
the Spark operators, the in-process locks and the clock.

Remote parties answer what they like within their own laws, which the two structures
carry as fields:

* `LdkNode`: a payment id names one payment.  Its direction, and the hash or the offer
  and note it was made for, never change, and it is never reported both succeeded and
  failed.  Ids are 32 bytes in hex.
* `Operators`: a transfer id names one transfer.  Its sender, receiver, value and type
  never change, and a preimage reported for a shared request hashes to its hash.

Answers may be stale, partial or missing; a call may fail before (`fail`) or after
(`lost`) it took effect.  What the operators may still do with a receive swap whose
reply was lost stays in `requestedSwaps` until the outside commits it.

Main results: `perform_db`, `perform_ldk`, `perform_spark` and the other inversions of
`perform`, one for each group of calls: what the reply can be and which component of
the world can have changed; `perform_locks` for the locks.
-/
import OpenSsp.Graphql

namespace OpenSsp

open Interleave

/-! ### The LDK node -/

/-- What identifies a payment besides its id. -/
def PaymentKind.identity : PaymentKind → PaymentKind
  | bolt11 hash _ _ => bolt11 hash none none
  | bolt12Offer offerId _ _ payerNote => bolt12Offer offerId none none payerNote
  | other => other

/-- Two snapshots of one payment. -/
structure Payment.Agree (p q : Payment) : Prop where
  direction : p.direction = q.direction
  identity : p.kind.map PaymentKind.identity = q.kind.map PaymentKind.identity
  final : ¬ (p.status = .succeeded ∧ q.status = .failed) ∧
    ¬ (p.status = .failed ∧ q.status = .succeeded)

instance (p q : Payment) : Decidable (p.Agree q) :=
  decidable_of_iff
    (p.direction = q.direction ∧
      p.kind.map PaymentKind.identity = q.kind.map PaymentKind.identity ∧
      ¬ (p.status = .succeeded ∧ q.status = .failed) ∧
      ¬ (p.status = .failed ∧ q.status = .succeeded))
    ⟨fun h => ⟨h.1, h.2.1, h.2.2⟩, fun h => ⟨h.1, h.2, h.3⟩⟩

theorem Payment.Agree.symm {p q : Payment} (h : p.Agree q) : q.Agree p :=
  ⟨h.direction.symm, h.identity.symm, fun hf => h.final.2 ⟨hf.2, hf.1⟩,
    fun hf => h.final.1 ⟨hf.2, hf.1⟩⟩

theorem Payment.Agree.refl (p : Payment) : p.Agree p :=
  ⟨rfl, rfl, fun h => by simp [h.1] at h, fun h => by simp [h.1] at h⟩

/-- Every snapshot of a payment the node has shown or will be held to. -/
structure LdkNode where
  seen : List Payment
  agree : ∀ p ∈ seen, ∀ q ∈ seen, p.paymentId = q.paymentId → p.Agree q
  ids : ∀ p ∈ seen, p.paymentId.length = 64

namespace LdkNode

def empty : LdkNode := ⟨[], by simp, by simp⟩

/-- One more snapshot, when it fits the ones before. -/
def observe (n : LdkNode) (p : Payment) : Option LdkNode :=
  if h : (∀ q ∈ n.seen, p.paymentId = q.paymentId → p.Agree q) ∧ p.paymentId.length = 64 then
    some ⟨p :: n.seen, by
      intro a ha b hb hab
      rcases List.mem_cons.mp ha with hap | ha'
      · rcases List.mem_cons.mp hb with hbp | hb'
        · rw [hap, hbp]
          exact .refl _
        · rw [hap] at hab ⊢
          exact h.1 b hb' hab
      · rcases List.mem_cons.mp hb with hbp | hb'
        · rw [hbp] at hab ⊢
          exact (h.1 a ha' hab.symm).symm
        · exact n.agree a ha' b hb' hab, by
      intro a ha
      rcases List.mem_cons.mp ha with hap | ha'
      · rw [hap]
        exact h.2
      · exact n.ids a ha'⟩
  else none

/-- A node remembers what it has reported. -/
theorem observe_eq_some {n n' : LdkNode} {p : Payment} (h : n.observe p = some n') :
    n'.seen = p :: n.seen := by
  unfold observe at h
  split at h
  · rw [← Option.some.inj h]
  · simp at h

/-- Is a notification about an inbound attempt the node knows? -/
def hasAttempt (n : LdkNode) (paymentId paymentHash : String) : Bool :=
  n.seen.any fun p => p.paymentId == paymentId && p.direction == .inbound &&
    p.kind.map PaymentKind.identity == some (.bolt11 paymentHash none none)

end LdkNode

/-- The payment LDK creates for a submitted intent. -/
def answersIntent (D : Deployment) (send : LightningSend) (p : Payment) : Bool :=
  p.direction == .outbound && match send.kind with
  | .bolt11 => (D.parseInvoice send.invoice).toOption.any fun i =>
      p.kind.map PaymentKind.identity == some (.bolt11 i.paymentHash.text none none)
  | .bolt12 => (D.offerId send.invoice).toOption.any fun o =>
      p.kind.map PaymentKind.identity == some (.bolt12Offer o none none (some send.payerNote))

/-! ### The Spark operators -/

/-- Two reports of one transfer. -/
structure Transfer.Agree (a b : Transfer) : Prop where
  senderId : a.senderId = b.senderId
  receiverId : a.receiverId = b.receiverId
  totalValueSat : a.totalValueSat = b.totalValueSat
  transferType : a.transferType = b.transferType

instance (a b : Transfer) : Decidable (a.Agree b) :=
  decidable_of_iff (a.senderId = b.senderId ∧ a.receiverId = b.receiverId ∧
      a.totalValueSat = b.totalValueSat ∧ a.transferType = b.transferType)
    ⟨fun h => ⟨h.1, h.2.1, h.2.2.1, h.2.2.2⟩, fun h => ⟨h.1, h.2, h.3, h.4⟩⟩

theorem Transfer.Agree.symm {a b : Transfer} (h : a.Agree b) : b.Agree a :=
  ⟨h.1.symm, h.2.symm, h.3.symm, h.4.symm⟩

theorem Transfer.Agree.refl (a : Transfer) : a.Agree a := ⟨rfl, rfl, rfl, rfl⟩

/-- A shared preimage hashes to the request's payment hash. -/
def PreimageRequest.Lawful (q : PreimageRequest) : Prop :=
  ∀ p, q.status = .preimageShared → q.preimage = some p → p.computeHash = q.paymentHash

instance (q : PreimageRequest) : Decidable q.Lawful :=
  decidable_of_iff (q.status = .preimageShared → q.preimage.all fun p =>
      decide (p.computeHash = q.paymentHash))
    ⟨fun h p hs hp => by simpa [hp] using h hs, fun h hs => by
      rcases hp : q.preimage with - | p
      · rfl
      · simpa using h p hs hp⟩

/-- What the operators have reported so far, and the receive swaps they were asked
for. -/
structure Operators where
  transfers : List Transfer
  agree : ∀ a ∈ transfers, ∀ b ∈ transfers, a.id = b.id → a.Agree b
  htlcs : List PreimageRequest
  lawful : ∀ q ∈ htlcs, q.Lawful
  reported : ∀ q ∈ htlcs, ∀ t, q.transfer = some t → t ∈ transfers
  requestedSwaps : List ReceiveSwapRequest
  committedSwaps : List ReceiveSwapRequest
  committed_requested : ∀ r ∈ committedSwaps, r ∈ requestedSwaps

namespace Operators

def empty : Operators :=
  ⟨[], by simp, [], by simp, by simp, [], [], by simp⟩

/-- One more report of a transfer, when it fits the ones before. -/
def observe (s : Operators) (t : Transfer) : Option Operators :=
  if h : ∀ u ∈ s.transfers, t.id = u.id → t.Agree u then
    some { s with
      transfers := t :: s.transfers
      agree := by
        intro a ha b hb hab
        rcases List.mem_cons.mp ha with hat | ha'
        · rcases List.mem_cons.mp hb with hbt | hb'
          · rw [hat, hbt]
            exact .refl _
          · rw [hat] at hab ⊢
            exact h b hb' hab
        · rcases List.mem_cons.mp hb with hbt | hb'
          · rw [hbt] at hab ⊢
            exact (h a ha' hab.symm).symm
          · exact s.agree a ha' b hb' hab
      reported := fun q hq u hu => List.mem_cons_of_mem _ (s.reported q hq u hu) }
  else none

/-- Add a request whose transfer, if any, has been reported. -/
def pushHtlc (s : Operators) (q : PreimageRequest) : Option Operators :=
  if h : q.Lawful ∧ ∀ t, q.transfer = some t → t ∈ s.transfers then
    some { s with
      htlcs := q :: s.htlcs
      lawful := by
        intro a ha
        rcases List.mem_cons.mp ha with rfl | ha
        · exact h.1
        · exact s.lawful a ha
      reported := by
        intro a ha t ht
        rcases List.mem_cons.mp ha with rfl | ha
        · exact h.2 t ht
        · exact s.reported a ha t ht }
  else none

/-- One more report of a preimage request with its transfer. -/
def observeHtlc (s : Operators) (q : PreimageRequest) : Option Operators :=
  match q.transfer with
  | some t => (s.observe t).bind (·.pushHtlc q)
  | none => s.pushHtlc q

/-- The HTLCs of one answer, one after the other. -/
def observeHtlcs : List PreimageRequest → Operators → Option Operators
  | [], s => some s
  | q :: qs, s => (s.observeHtlc q).bind (observeHtlcs qs)

/-- A receive swap has reached the operators. -/
def requestSwap (s : Operators) (r : ReceiveSwapRequest) : Operators :=
  { s with
    requestedSwaps := r :: s.requestedSwaps
    committed_requested := fun a ha => List.mem_cons_of_mem _ (s.committed_requested a ha) }

/-- A receive swap that has reached the operators is executed. -/
def commitSwap (s : Operators) (r : ReceiveSwapRequest) : Option Operators :=
  if h : r ∈ s.requestedSwaps then
    some { s with
      committedSwaps := r :: s.committedSwaps
      committed_requested := by
        intro a ha
        rcases List.mem_cons.mp ha with rfl | ha
        · exact h
        · exact s.committed_requested a ha }
  else none

end Operators

/-! ### Locks and the world -/

/-- Which program holds each lock. -/
structure Locks where
  send : Option Nat
  receive : Option Nat
  liquidity : Option Nat
deriving DecidableEq

namespace Locks

def free : Locks := ⟨none, none, none⟩

def owner (ls : Locks) : Lock → Option Nat
  | .send => ls.send
  | .receive => ls.receive
  | .liquidity => ls.liquidity

def set (ls : Locks) (l : Lock) (o : Option Nat) : Locks :=
  match l with
  | .send => { ls with send := o }
  | .receive => { ls with receive := o }
  | .liquidity => { ls with liquidity := o }

/-- Drop every guard program `t` holds. -/
def drop (ls : Locks) (t : Nat) : Locks :=
  let keep (o : Option Nat) : Option Nat := if o = some t then none else o
  ⟨keep ls.send, keep ls.receive, keep ls.liquidity⟩

theorem owner_set (ls : Locks) (l m : Lock) (o : Option Nat) :
    (ls.set l o).owner m = if m = l then o else ls.owner m := by
  cases l <;> cases m <;> rfl

theorem owner_drop (ls : Locks) (t : Nat) (l : Lock) :
    (ls.drop t).owner l = if ls.owner l = some t then none else ls.owner l := by
  cases l <;> rfl

end Locks

/-- The tables, the node, the operators, the locks and the time. -/
structure World where
  db : Db
  ldk : LdkNode
  spark : Operators
  locks : Locks
  now : Nat

def World.init : World := ⟨.empty, .empty, .empty, .free, 0⟩

/-! ### Executing calls -/

/-- How a call that is not determined by the world turns out. -/
inductive Choice where
  /-- As asked. -/
  | done
  /-- An error, and nothing happened. -/
  | fail (e : String)
  /-- An error, but the call took effect or still can. -/
  | lost (e : String)
  | payment (p : Option Payment)
  | page (payments : List Payment) (next : Option String)
  | text (s : String)
  | offer (offer offerId : String)
  | transfer (t : Option Transfer)
  | htlcs (qs : List PreimageRequest)
  | swap (preimage : Option Bytes32) (t : Option Transfer)
  | number (n : Nat)
  /-- What the system's clock shows; it can be set at any time. -/
  | time (t : SystemTime)
  | uuid (u : Uuid)
  | flag (b : Bool)
  | quote (q : Option String)
  | event (e : Option LnEvent)

/-- Every payment of the page has been or is being shown. -/
def observeAll : List Payment → LdkNode → Option LdkNode
  | [], n => some n
  | p :: ps, n => (n.observe p).bind (observeAll ps)

/-- A query of the tables; it can fail, and then nothing has happened. -/
def performDb (q : Query) (ch : Choice) (now : Nat) (db : Db) : Option (Except String q.Out × Db) :=
  match ch with
  | .done => some (match q.run now db with
      | .ok (a, db') => (.ok a, db')
      | .error e => (.error e, db))
  | .fail e => some (.error e, db)
  | _ => none

/-- A call of the node: it answers within its laws, or fails. -/
def performLdk (D : Deployment) (c : LdkCall) (ch : Choice) (n : LdkNode) :
    Option (Except String c.Out × LdkNode) :=
  match ch with
  | .fail e => some (.error e, n)
  | _ =>
      match c, ch with
      | .submit send _, .payment (some p) =>
          if answersIntent D send p then (n.observe p).map fun n' => (.ok p.paymentId, n') else none
      | .getPaymentDetails _, .payment none => some (.ok none, n)
      | .getPaymentDetails id, .payment (some p) =>
          if p.paymentId = id then (n.observe p).map fun n' => (.ok (some p), n') else none
      | .listPayments _, .page ps next => (observeAll ps n).map fun n' => (.ok (ps, next), n')
      | .claimForId .., .done => some (.ok (), n)
      | .failForId .., .done => some (.ok (), n)
      | .receiveForHash .., .text invoice => some (.ok invoice, n)
      | .bolt12Receive .., .offer offer offerId => some (.ok (offer, offerId), n)
      | .offerId offer, .done => some (D.offerId offer, n)
      | _, _ => none

/-- What the operators know of an HTLC once they have taken its preimage. -/
def claimedRequest (preimage : Bytes32) (t : Transfer) : PreimageRequest :=
  { paymentHash := preimage.computeHash, status := .preimageShared, preimage := some preimage,
    transfer := some t }

/-- A call of the operators: they answer within their laws, or fail. -/
def performSpark (c : SparkCall) (ch : Choice) (s : Operators) :
    Option (Except String c.Out × Operators) :=
  match ch with
  | .fail e => some (.error e, s)
  | _ =>
      match c, ch with
      | .sync, .done => some (.ok (), s)
      | .ensureExactLiquidity .., .done => some (.ok (), s)
      | .ensureDenominatedLiquidity .., .done => some (.ok (), s)
      | .prepareTransferRequest .., .done => some (.ok (), s)
      | .getTransfer _, .transfer none => some (.ok none, s)
      | .getTransfer id, .transfer (some t) =>
          if t.id = id then (s.observe t).map fun s' => (.ok (some t), s') else none
      | .queryHtlc .., .htlcs qs => (s.observeHtlcs qs).map fun s' => (.ok qs, s')
      | .claimHtlc preimage, .transfer (some t) =>
          (s.observeHtlc (claimedRequest preimage t)).map fun s' => (.ok t, s')
      | .transfer _ _ id, .transfer (some t) =>
          if t.id = id then (s.observe t).map fun s' => (.ok t, s') else none
      | .transferSwapCounter _ _ _ _ id, .transfer (some t) =>
          if t.id = id then (s.observe t).map fun s' => (.ok t, s') else none
      | .initiatePreimageSwapV3 r, .swap preimage none =>
          ((s.requestSwap r).commitSwap r).map fun s' => (.ok (preimage, none), s')
      | .initiatePreimageSwapV3 r, .swap preimage (some t) =>
          (((s.requestSwap r).commitSwap r).bind (·.observe t)).map fun s' =>
            (.ok (preimage, some t), s')
      | .initiatePreimageSwapV3 r, .lost e => some (.error e, s.requestSwap r)
      | _, _ => none

/-- Can the node send this event? -/
def validEvent (n : LdkNode) : LnEvent → Bool
  | .outboundSucceeded p => p ∈ n.seen && p.status == .succeeded
  | .outboundFailed id _ => n.seen.any fun p => p.paymentId == id && p.status == .failed
  | .inboundClaimable p => n.hasAttempt p.paymentId p.paymentHash
  | .inboundReceived id hash => n.hasAttempt id hash
  | .inboundBolt12Received .. => true

/-- Calls that ask the system, not the tables or a remote party. -/
def performSystem (t : Nat) (c : Call) (ch : Choice) (w : World) : Option (c.Reply × World) :=
  match c, ch with
  | .acquire l _, .done =>
      if w.locks.owner l = none then some (.ok (), { w with locks := w.locks.set l (some t) })
      else none
  | .acquire _ true, .fail e => some (.error e, w)
  | .release l, .done =>
      some ((), if w.locks.owner l = some t then { w with locks := w.locks.set l none } else w)
  | .now, .done => some (w.now, w)
  | .systemTime, .time t => some (t, w)
  | .newUuid, .uuid u => some (u, w)
  | .polls, .number n => some (n, w)
  | .timedOut, .flag b => some (b, w)
  | .oversized _, .flag b => some (b, w)
  | .validateQuote .., .quote q => some (.ok q, w)
  | .validateQuote .., .fail e => some (.error e, w)
  | .nextEvent, .event none => some (none, w)
  | .nextEvent, .event (some e) => if validEvent w.ldk e then some (some e, w) else none
  | .mark _, .done => some ((), w)
  | _, _ => none

def perform (D : Deployment) (t : Nat) (c : Call) (ch : Choice) (w : World) :
    Option (c.Reply × World) :=
  match c with
  | .db q => (performDb q ch w.now w.db).map fun r => (r.1, { w with db := r.2 })
  | .ldk c => (performLdk D c ch w.ldk).map fun r => (r.1, { w with ldk := r.2 })
  | .spark c => (performSpark c ch w.spark).map fun r => (r.1, { w with spark := r.2 })
  | c => performSystem t c ch w

/-! ### What a call can do -/

section perform

variable {D : Deployment} {t : Nat} {ch : Choice} {w w' : World}

/-- A database call runs its method, or fails and changes nothing. -/
theorem perform_db {q : Query} {r : Except String q.Out}
    (h : perform D t (.db q) ch w = some (r, w')) :
    (∃ a db', q.run w.now w.db = .ok (a, db') ∧ r = .ok a ∧ w' = { w with db := db' }) ∨
    (∃ e, r = .error e ∧ w' = w) := by
  obtain ⟨⟨r', db'⟩, hp, hr⟩ := Option.map_eq_some_iff.mp h
  obtain ⟨rfl, rfl⟩ := Prod.mk.inj hr
  unfold performDb at hp
  cases ch with
  | done =>
      rcases hq : q.run w.now w.db with e | ⟨a, db''⟩
      · simp only [hq, Option.some.injEq, Prod.mk.injEq] at hp
        obtain ⟨rfl, rfl⟩ := hp
        exact .inr ⟨e, rfl, rfl⟩
      · simp only [hq, Option.some.injEq, Prod.mk.injEq] at hp
        obtain ⟨rfl, rfl⟩ := hp
        exact .inl ⟨a, _, rfl, rfl, rfl⟩
  | fail e =>
      simp only [Option.some.injEq, Prod.mk.injEq] at hp
      obtain ⟨rfl, rfl⟩ := hp
      exact .inr ⟨e, rfl, rfl⟩
  | _ => simp at hp

/-- A method that fails was refused by the tables, or hit by a fault of the store. -/
theorem perform_db_error {q : Query} {e : String}
    (h : perform D t (.db q) ch w = some (.error e, w')) :
    (ch = .done ∧ q.run w.now w.db = .error e) ∨ ∃ e', ch = .fail e' := by
  obtain ⟨⟨r, db'⟩, hp, hr⟩ := Option.map_eq_some_iff.mp h
  obtain ⟨rfl, -⟩ := Prod.mk.inj hr
  unfold performDb at hp
  cases ch with
  | done =>
      rcases hq : q.run w.now w.db with e₁ | ⟨a, db''⟩
      · simp only [hq, Option.some.injEq, Prod.mk.injEq, Except.error.injEq] at hp
        exact .inl ⟨rfl, congrArg _ hp.1⟩
      · simp [hq] at hp
  | fail e' => exact .inr ⟨e', rfl⟩
  | _ => simp at hp

/-- What a successful answer of the node says. -/
def LdkAnswer (D : Deployment) (seen : List Payment) : (c : LdkCall) → c.Out → Prop
  | .submit send _, id => ∃ p ∈ seen, p.paymentId = id ∧ answersIntent D send p = true
  | .getPaymentDetails id, some p => p ∈ seen ∧ p.paymentId = id
  | .listPayments _, page => ∀ p ∈ page.1, p ∈ seen
  | .offerId offer, id => D.offerId offer = .ok id
  | _, _ => True

/-- A page of payments is remembered as a whole. -/
theorem observeAll_seen {ps : List Payment} {n n' : LdkNode} (h : observeAll ps n = some n') :
    (∀ p ∈ ps, p ∈ n'.seen) ∧ ∀ p ∈ n.seen, p ∈ n'.seen := by
  induction ps generalizing n with
  | nil =>
      obtain rfl := Option.some.inj h
      exact ⟨by simp, fun p hp => hp⟩
  | cons p ps ih =>
      obtain ⟨n₁, h₁, h⟩ := Option.bind_eq_some_iff.mp h
      have hseen := LdkNode.observe_eq_some h₁
      obtain ⟨hps, hn₁⟩ := ih h
      refine ⟨fun x hx => ?_, fun x hx => hn₁ x (by simp [hseen, hx])⟩
      rcases List.mem_cons.mp hx with rfl | hx
      · exact hn₁ x (by simp [hseen])
      · exact hps x hx

/-- The node's answers obey its laws. -/
theorem performLdk_answer {c : LdkCall} {n n' : LdkNode} {r : Except String c.Out}
    (h : performLdk D c ch n = some (r, n')) :
    (∀ p ∈ n.seen, p ∈ n'.seen) ∧ ∀ a, r = .ok a → LdkAnswer D n'.seen c a := by
  -- the node stays as it is
  have hsame : ∀ {c : LdkCall} {r r' : Except String c.Out}, some (r', n) = some (r, n') →
      (∀ a, r' = .ok a → LdkAnswer D n.seen c a) →
      (∀ p ∈ n.seen, p ∈ n'.seen) ∧ ∀ a, r = .ok a → LdkAnswer D n'.seen c a := by
    intro c r r' he ha
    obtain ⟨rfl, rfl⟩ := Prod.mk.inj (Option.some.inj he)
    exact ⟨fun p hp => hp, ha⟩
  unfold performLdk at h
  split at h
  · exact hsame h (by simp)
  · split at h
    · next send p _ =>
        split at h
        · next hans =>
            obtain ⟨n₁, ho, he⟩ := Option.map_eq_some_iff.mp h
            obtain ⟨rfl, rfl⟩ := Prod.mk.inj he
            have hseen := LdkNode.observe_eq_some ho
            refine ⟨fun q hq => by simp [hseen, hq], ?_⟩
            rintro a ⟨⟩
            exact ⟨p, by simp [hseen], rfl, hans⟩
        · simp at h
    · exact hsame h (by rintro a ⟨⟩; trivial)
    · next id p _ =>
        split at h
        · next hid =>
            obtain ⟨n₁, ho, he⟩ := Option.map_eq_some_iff.mp h
            obtain ⟨rfl, rfl⟩ := Prod.mk.inj he
            have hseen := LdkNode.observe_eq_some ho
            refine ⟨fun q hq => by simp [hseen, hq], ?_⟩
            rintro a ⟨⟩
            exact ⟨by simp [hseen], hid⟩
        · simp at h
    · next ps next _ =>
        obtain ⟨n₁, ho, he⟩ := Option.map_eq_some_iff.mp h
        obtain ⟨rfl, rfl⟩ := Prod.mk.inj he
        obtain ⟨hps, hold⟩ := observeAll_seen ho
        refine ⟨hold, ?_⟩
        rintro a ⟨⟩
        exact hps
    · exact hsame h fun _ _ => trivial
    · exact hsame h fun _ _ => trivial
    · exact hsame h fun _ _ => trivial
    · exact hsame h fun _ _ => trivial
    · exact hsame h fun a ha => ha
    · simp at h

/-- A node call changes the node alone, which forgets nothing and has seen what it
answers. -/
theorem perform_ldk {c : LdkCall} {r : Except String c.Out}
    (h : perform D t (.ldk c) ch w = some (r, w')) :
    ∃ n, w' = { w with ldk := n } ∧ (∀ p ∈ w.ldk.seen, p ∈ n.seen) ∧
      ∀ a, r = .ok a → LdkAnswer D n.seen c a := by
  obtain ⟨⟨r', n⟩, hp, hr⟩ := Option.map_eq_some_iff.mp h
  obtain ⟨rfl, rfl⟩ := Prod.mk.inj hr
  exact ⟨n, rfl, performLdk_answer hp⟩

/-! #### The operators -/

/-- The operators forget nothing. -/
structure Operators.Grows (s s' : Operators) : Prop where
  transfers : ∀ t ∈ s.transfers, t ∈ s'.transfers
  htlcs : ∀ q ∈ s.htlcs, q ∈ s'.htlcs
  requestedSwaps : ∀ r ∈ s.requestedSwaps, r ∈ s'.requestedSwaps
  committedSwaps : ∀ r ∈ s.committedSwaps, r ∈ s'.committedSwaps

theorem Operators.Grows.refl (s : Operators) : s.Grows s :=
  ⟨fun _ h => h, fun _ h => h, fun _ h => h, fun _ h => h⟩

theorem Operators.Grows.trans {a b c : Operators} (h : a.Grows b) (h' : b.Grows c) : a.Grows c :=
  ⟨fun x hx => h'.transfers x (h.transfers x hx), fun x hx => h'.htlcs x (h.htlcs x hx),
    fun x hx => h'.requestedSwaps x (h.requestedSwaps x hx),
    fun x hx => h'.committedSwaps x (h.committedSwaps x hx)⟩

/-- A report adds what it says and concerns no receive swap. -/
structure Operators.Reports (s s' : Operators) : Prop where
  grows : s.Grows s'
  requestedSwaps : s'.requestedSwaps = s.requestedSwaps
  committedSwaps : s'.committedSwaps = s.committedSwaps

theorem Operators.Reports.refl (s : Operators) : s.Reports s := ⟨.refl s, rfl, rfl⟩

theorem Operators.Reports.trans {a b c : Operators} (h : a.Reports b) (h' : b.Reports c) :
    a.Reports c :=
  ⟨h.grows.trans h'.grows, h'.requestedSwaps.trans h.requestedSwaps,
    h'.committedSwaps.trans h.committedSwaps⟩

/-- A reported transfer is remembered. -/
theorem Operators.observe_reports {s s' : Operators} {x : Transfer} (h : s.observe x = some s') :
    s.Reports s' ∧ x ∈ s'.transfers := by
  unfold observe at h
  split at h
  · obtain rfl := Option.some.inj h
    exact ⟨⟨⟨fun _ hx => List.mem_cons_of_mem _ hx, fun _ hx => hx, fun _ hx => hx,
      fun _ hx => hx⟩, rfl, rfl⟩, List.mem_cons_self⟩
  · simp at h

/-- A pushed HTLC is remembered. -/
theorem Operators.pushHtlc_reports {s s' : Operators} {q : PreimageRequest}
    (h : s.pushHtlc q = some s') : s.Reports s' ∧ q ∈ s'.htlcs := by
  unfold pushHtlc at h
  split at h
  · obtain rfl := Option.some.inj h
    exact ⟨⟨⟨fun _ hx => hx, fun _ hx => List.mem_cons_of_mem _ hx, fun _ hx => hx,
      fun _ hx => hx⟩, rfl, rfl⟩, List.mem_cons_self⟩
  · simp at h

/-- A reported HTLC is remembered. -/
theorem Operators.observeHtlc_reports {s s' : Operators} {q : PreimageRequest}
    (h : s.observeHtlc q = some s') : s.Reports s' ∧ q ∈ s'.htlcs := by
  unfold observeHtlc at h
  split at h
  · obtain ⟨s₁, h₁, h₂⟩ := Option.bind_eq_some_iff.mp h
    obtain ⟨hs, hq⟩ := pushHtlc_reports h₂
    exact ⟨(observe_reports h₁).1.trans hs, hq⟩
  · exact pushHtlc_reports h

theorem Operators.observeHtlcs_reports {qs : List PreimageRequest} {s s' : Operators}
    (h : s.observeHtlcs qs = some s') : s.Reports s' ∧ ∀ q ∈ qs, q ∈ s'.htlcs := by
  induction qs generalizing s with
  | nil =>
      obtain rfl := Option.some.inj h
      exact ⟨.refl _, by simp⟩
  | cons q qs ih =>
      obtain ⟨s₁, h₁, h₂⟩ := Option.bind_eq_some_iff.mp h
      obtain ⟨hs₁, hq⟩ := observeHtlc_reports h₁
      obtain ⟨hs, hqs⟩ := ih h₂
      refine ⟨hs₁.trans hs, fun x hx => ?_⟩
      rcases List.mem_cons.mp hx with rfl | hx
      · exact hs.grows.htlcs x hq
      · exact hqs x hx

/-- A request that came in waits for its commit. -/
theorem Operators.requestSwap_grows (s : Operators) (r : ReceiveSwapRequest) :
    s.Grows (s.requestSwap r) :=
  ⟨fun _ hx => hx, fun _ hx => hx, fun _ hx => List.mem_cons_of_mem _ hx, fun _ hx => hx⟩

/-- A committed swap was requested. -/
theorem Operators.commitSwap_grows {s s' : Operators} {r : ReceiveSwapRequest}
    (h : s.commitSwap r = some s') : s.Grows s' ∧ s'.requestedSwaps = s.requestedSwaps := by
  unfold commitSwap at h
  split at h
  · obtain rfl := Option.some.inj h
    exact ⟨⟨fun _ hx => hx, fun _ hx => hx, fun _ hx => hx,
      fun _ hx => List.mem_cons_of_mem _ hx⟩, rfl⟩
  · simp at h

/-- What a successful answer of the operators says. -/
def SparkAnswer (s : Operators) : (c : SparkCall) → c.Out → Prop
  | .getTransfer id, some t => t ∈ s.transfers ∧ t.id = id
  | .queryHtlc .., qs => ∀ q ∈ qs, q ∈ s.htlcs
  | .claimHtlc preimage, t => claimedRequest preimage t ∈ s.htlcs
  | .transfer _ _ id, t => t ∈ s.transfers ∧ t.id = id
  | .transferSwapCounter _ _ _ _ id, t => t ∈ s.transfers ∧ t.id = id
  | .initiatePreimageSwapV3 _, answer => ∀ t, answer.2 = some t → t ∈ s.transfers
  | _, _ => True

/-- The receive swaps after a call: one more at most, the requested one. -/
def swapsAfter (c : SparkCall) (s s' : Operators) : Prop :=
  s'.requestedSwaps = s.requestedSwaps ∨
    ∃ r, c = .initiatePreimageSwapV3 r ∧ s'.requestedSwaps = r :: s.requestedSwaps

/-- The operators' answers obey their laws. -/
theorem performSpark_answer {c : SparkCall} {s s' : Operators} {r : Except String c.Out}
    (h : performSpark c ch s = some (r, s')) :
    s.Grows s' ∧ swapsAfter c s s' ∧ ∀ a, r = .ok a → SparkAnswer s' c a := by
  -- the operators report nothing new
  have hsame : ∀ {c : SparkCall} {r r' : Except String c.Out}, some (r', s) = some (r, s') →
      (∀ a, r' = .ok a → SparkAnswer s c a) →
      s.Grows s' ∧ swapsAfter c s s' ∧ ∀ a, r = .ok a → SparkAnswer s' c a := by
    intro c r r' he ha
    obtain ⟨rfl, rfl⟩ := Prod.mk.inj (Option.some.inj he)
    exact ⟨.refl _, .inl rfl, ha⟩
  -- the operators answer with a report
  have hreport : ∀ {c : SparkCall} {r : Except String c.Out} {o : Option Operators} {b : c.Out},
      (o.map fun s₁ => (Except.ok b, s₁)) = some (r, s') →
      (∀ s₁, o = some s₁ → s.Reports s₁ ∧ SparkAnswer s₁ c b) →
      s.Grows s' ∧ swapsAfter c s s' ∧ ∀ a, r = .ok a → SparkAnswer s' c a := by
    intro c r o b he ho
    obtain ⟨s₁, hs₁, he⟩ := Option.map_eq_some_iff.mp he
    obtain ⟨rfl, rfl⟩ := Prod.mk.inj he
    obtain ⟨hr, ha⟩ := ho s₁ hs₁
    refine ⟨hr.grows, .inl hr.requestedSwaps, ?_⟩
    rintro a ⟨⟩
    exact ha
  unfold performSpark at h
  split at h
  · exact hsame h (by simp)
  · split at h
    · exact hsame h fun _ _ => trivial
    · exact hsame h fun _ _ => trivial
    · exact hsame h fun _ _ => trivial
    · exact hsame h fun _ _ => trivial
    · exact hsame h (by rintro a ⟨⟩; trivial)
    · next id t _ =>
        split at h
        · next hid =>
            exact hreport h fun s₁ ho =>
              (Operators.observe_reports ho).imp_right fun hm => ⟨hm, hid⟩
        · simp at h
    · exact hreport h fun s₁ ho => Operators.observeHtlcs_reports ho
    · exact hreport h fun s₁ ho => Operators.observeHtlc_reports ho
    · next id t _ =>
        split at h
        · next hid =>
            exact hreport h fun s₁ ho =>
              (Operators.observe_reports ho).imp_right fun hm => ⟨hm, hid⟩
        · simp at h
    · next id t _ =>
        split at h
        · next hid =>
            exact hreport h fun s₁ ho =>
              (Operators.observe_reports ho).imp_right fun hm => ⟨hm, hid⟩
        · simp at h
    · next req preimage _ =>
        obtain ⟨s₁, ho, he⟩ := Option.map_eq_some_iff.mp h
        obtain ⟨rfl, rfl⟩ := Prod.mk.inj he
        obtain ⟨hg, hr⟩ := Operators.commitSwap_grows ho
        refine ⟨(Operators.requestSwap_grows s req).trans hg, .inr ⟨req, rfl, hr⟩, ?_⟩
        rintro a ⟨⟩ t ht
        exact absurd ht (by simp)
    · next req preimage t _ =>
        obtain ⟨s₁, ho, he⟩ := Option.map_eq_some_iff.mp h
        obtain ⟨rfl, rfl⟩ := Prod.mk.inj he
        obtain ⟨s₂, hc, ho⟩ := Option.bind_eq_some_iff.mp ho
        obtain ⟨hg, hr⟩ := Operators.commitSwap_grows hc
        obtain ⟨hrep, hmem⟩ := Operators.observe_reports ho
        refine ⟨((Operators.requestSwap_grows s req).trans hg).trans hrep.grows,
          .inr ⟨req, rfl, hrep.requestedSwaps.trans hr⟩, ?_⟩
        rintro a ⟨⟩ u ⟨⟩
        exact hmem
    · next req e _ =>
        obtain ⟨rfl, rfl⟩ := Prod.mk.inj (Option.some.inj h)
        exact ⟨Operators.requestSwap_grows s req, .inr ⟨req, rfl, rfl⟩, by simp⟩
    · simp at h

/-- An operator call changes the operators alone. -/
theorem perform_spark {c : SparkCall} {r : Except String c.Out}
    (h : perform D t (.spark c) ch w = some (r, w')) :
    ∃ s, w' = { w with spark := s } ∧ w.spark.Grows s ∧ swapsAfter c w.spark s ∧
      ∀ a, r = .ok a → SparkAnswer s c a := by
  obtain ⟨⟨r', s⟩, hp, hr⟩ := Option.map_eq_some_iff.mp h
  obtain ⟨rfl, rfl⟩ := Prod.mk.inj hr
  exact ⟨s, rfl, performSpark_answer hp⟩

/-! #### The system -/

/-- How one call of program `t` moves the locks. -/
inductive LockStep (t : Nat) (c : Call) (ls : Locks) : Locks → Prop
  | same : LockStep t c ls ls
  | taken (l : Lock) (b : Bool) (hc : c = .acquire l b) (free : ls.owner l = none) :
      LockStep t c ls (ls.set l (some t))
  | released (l : Lock) (hc : c = .release l) (mine : ls.owner l = some t) :
      LockStep t c ls (ls.set l none)

/-- A system call changes the locks at most. -/
theorem performSystem_same {c : Call} {r : c.Reply} (h : performSystem t c ch w = some (r, w')) :
    ∃ ls, w' = { w with locks := ls } ∧ LockStep t c w.locks ls := by
  have hsame : ∀ {r r' : c.Reply} {w₁ : World}, some (r', w₁) = some (r, w') →
      (∃ ls, w₁ = { w with locks := ls } ∧ LockStep t c w.locks ls) →
      ∃ ls, w' = { w with locks := ls } ∧ LockStep t c w.locks ls := by
    intro r r' w₁ he hw
    obtain ⟨-, rfl⟩ := Prod.mk.inj (Option.some.inj he)
    exact hw
  unfold performSystem at h
  split at h
  · next l b =>
      split at h
      · next hfree => exact hsame h ⟨_, rfl, .taken l b rfl hfree⟩
      · simp at h
  · exact hsame h ⟨w.locks, rfl, .same⟩
  · next l =>
      refine hsame h ?_
      split
      · next hmine => exact ⟨_, rfl, .released l rfl hmine⟩
      · exact ⟨w.locks, rfl, .same⟩
  all_goals first
    | exact hsame h ⟨w.locks, rfl, .same⟩
    | (split at h
       · exact hsame h ⟨w.locks, rfl, .same⟩
       · simp at h)
    | simp at h

/-- A call moves the locks by a step. -/
theorem perform_locks {c : Call} {r : c.Reply} (h : perform D t c ch w = some (r, w')) :
    LockStep t c w.locks w'.locks := by
  cases c with
  | db q =>
      rcases perform_db h with ⟨a, db', -, -, rfl⟩ | ⟨e, -, rfl⟩
      · exact .same
      · exact .same
  | ldk c =>
      obtain ⟨n, rfl, -⟩ := perform_ldk h
      exact .same
  | spark c =>
      obtain ⟨s, rfl, -⟩ := perform_spark h
      exact .same
  | _ =>
      obtain ⟨ls, rfl, hls⟩ := performSystem_same (h : performSystem t _ ch w = some (r, w'))
      exact hls

/-- The lock was free and is the program's from now on. -/
theorem perform_acquire {l : Lock} {b : Bool}
    (h : perform D t (.acquire l b) ch w = some (.ok (), w')) :
    w.locks.owner l = none ∧ w' = { w with locks := w.locks.set l (some t) } := by
  cases ch with
  | done =>
      simp only [perform, performSystem] at h
      split at h
      · exact ⟨‹_›, (Prod.mk.inj (Option.some.inj h)).2.symm⟩
      · simp at h
  | fail e => cases b <;> simp [perform, performSystem] at h
  | _ => cases b <;> simp [perform, performSystem] at h

/-- The event pump gets events the node can send. -/
theorem perform_nextEvent {e : LnEvent} (h : perform D t .nextEvent ch w = some (some e, w')) :
    validEvent w.ldk e = true ∧ w' = w := by
  cases ch with
  | event o =>
      rcases o with - | e'
      · simp [perform, performSystem] at h
      · simp only [perform, performSystem] at h
        split at h
        · obtain ⟨he, rfl⟩ := Prod.mk.inj (Option.some.inj h)
          obtain rfl := Option.some.inj he
          exact ⟨‹_›, rfl⟩
        · simp at h
  | _ => simp [perform, performSystem] at h

/-- A mark changes nothing. -/
theorem perform_mark {m : Mark} {r : Unit} (h : perform D t (.mark m) ch w = some (r, w')) :
    w' = w := by
  cases ch with
  | done => exact (Prod.mk.inj (Option.some.inj h)).2.symm
  | _ => simp [perform, performSystem] at h

/-- Only database calls change the tables. -/
theorem perform_tables {c : Call} {r : c.Reply} (h : perform D t c ch w = some (r, w'))
    (hc : ∀ q, c ≠ .db q) : w'.db = w.db := by
  cases c with
  | db q => exact absurd rfl (hc q)
  | ldk c =>
      obtain ⟨n, rfl, -⟩ := perform_ldk h
      rfl
  | spark c =>
      obtain ⟨s, rfl, -⟩ := perform_spark h
      rfl
  | _ =>
      obtain ⟨ls, rfl, -⟩ := performSystem_same (h : performSystem t _ ch w = some (r, w'))
      rfl

/-- A lock that somebody else holds stays with them. -/
theorem LockStep.keeps_others {c : Call} {ls ls' : Locks} {l : Lock} {u : Nat}
    (h : LockStep t c ls ls') (hu : u ≠ t) (hl : ls.owner l = some u) : ls'.owner l = some u := by
  cases h with
  | same => exact hl
  | taken m b hc free =>
      have hne : l ≠ m := fun e => by simp [e, free] at hl
      rw [Locks.owner_set, if_neg hne, hl]
  | released m hc mine =>
      have hne : l ≠ m := fun e => by
        rw [e, mine] at hl
        exact hu (Option.some.inj hl).symm
      rw [Locks.owner_set, if_neg hne, hl]

/-- A lock the program holds stays with it until it is released. -/
theorem LockStep.keeps_own {c : Call} {ls ls' : Locks} {l : Lock} (h : LockStep t c ls ls')
    (hc : c ≠ .release l) (hl : ls.owner l = some t) : ls'.owner l = some t := by
  cases h with
  | same => exact hl
  | taken m b hm free =>
      rw [Locks.owner_set]
      split
      · rfl
      · exact hl
  | released m hm mine =>
      have hne : l ≠ m := fun e => hc (e ▸ hm)
      rw [Locks.owner_set, if_neg hne, hl]

end perform

/-! ### The machine -/

/-- What happens without the program. -/
inductive Outside where
  | tick (seconds : Nat)
  | payment (p : Payment)
  | transfer (t : Transfer)
  | htlc (q : PreimageRequest)
  | commitSwap (r : ReceiveSwapRequest)

/-- A step of the outside world. -/
def outside (o : Outside) (w : World) : Option World :=
  match o with
  | .tick n => some { w with now := w.now + n }
  | .payment p => (w.ldk.observe p).map fun n => { w with ldk := n }
  | .transfer t => (w.spark.observe t).map fun s => { w with spark := s }
  | .htlc q => (w.spark.observeHtlc q).map fun s => { w with spark := s }
  | .commitSwap r => (w.spark.commitSwap r).map fun s => { w with spark := s }

/-- The outside changes neither the tables nor the locks. -/
theorem outside_tables {o : Outside} {w w' : World} (h : outside o w = some w') :
    w'.db = w.db ∧ w'.locks = w.locks := by
  cases o with
  | tick n =>
      obtain rfl := Option.some.inj h
      exact ⟨rfl, rfl⟩
  | payment p =>
      obtain ⟨n, -, rfl⟩ := Option.map_eq_some_iff.mp h
      exact ⟨rfl, rfl⟩
  | transfer t =>
      obtain ⟨s, -, rfl⟩ := Option.map_eq_some_iff.mp h
      exact ⟨rfl, rfl⟩
  | htlc q =>
      obtain ⟨s, -, rfl⟩ := Option.map_eq_some_iff.mp h
      exact ⟨rfl, rfl⟩
  | commitSwap r =>
      obtain ⟨s, -, rfl⟩ := Option.map_eq_some_iff.mp h
      exact ⟨rfl, rfl⟩

/-- Any number of requests and background tasks over one world; a restart keeps the
tables and the remote parties. -/
def machine (D : Deployment) : Machine Api where
  World := World
  Choice := Choice
  Outside := Outside
  Request := Request
  init := .init
  handler := Request.handler D
  perform := perform D
  outside := outside
  cancel t w := { w with locks := w.locks.drop t }
  crash w := { w with locks := .free }

end OpenSsp
