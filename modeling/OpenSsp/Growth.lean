/-
OpenSsp/Growth.lean

What only grows along a run: no row of the settlement tables is ever removed, an intent
keeps its identity and the payment it is bound to, and the remote parties forget
nothing.  `Db.Grows` and `World.Grows` say so for two points of a run.

Main results: `Db.run_grows` and `Db.run_unique` (one method keeps the tables growing
and the uniqueness constraints of `lightning_sends`), `reach_grows` (so does every move
of a run) and `reach_happened`, `reach_knows`: what a past event said still holds of the
present world in the sense of `World.Grows`.
-/
import OpenSsp.DbSteps
import OpenSsp.GraphqlContract

namespace OpenSsp

open Interleave

/-! ### Intents -/

/-- A later state of an intent. -/
structure LightningSend.Continues (a a' : LightningSend) : Prop where
  same : a'.SameIntent a
  paymentId : ∀ id, a.paymentId = some id → a'.paymentId = some id
  claimed : a.status ≠ .prepared → a'.status ≠ .prepared

namespace LightningSend.Continues

/-- A send continues itself. -/
theorem refl (a : LightningSend) : a.Continues a := ⟨.refl a, fun _ h => h, fun h => h⟩

theorem trans {a b c : LightningSend} (h : a.Continues b) (h' : b.Continues c) :
    a.Continues c :=
  ⟨h'.same.trans h.same, fun id hid => h'.paymentId id (h.paymentId id hid),
    fun hs => h'.claimed (h.claimed hs)⟩

end LightningSend.Continues

/-- The methods by which a send becomes `PREPARED` again; the program never calls them. -/
def Query.unprepares (q : Query) : Prop := ∃ id, q = .setPayment id .prepared

/-- A step that does not prepare the send anew continues it. -/
theorem Db.Progress.continues {q : Query} {a a' : LightningSend} (h : Db.Progress q a a')
    (hsame : a'.SameIntent a) (hq : ¬ q.unprepares) : a.Continues a' := by
  refine ⟨hsame, fun id hid => ?_, fun hs => ?_⟩
  · cases h with
    | none hp hs => rw [hp, hid]
    | begun hq hs hp hs' => rw [hp, hid]
    | bound id' hq free hp hs =>
        rcases free with hf | hf
        · rw [hf] at hid
          exact absurd hid (by simp)
        · rw [hp, ← hf, hid]
    | set id' status hq hid' hopen hp hs => rw [hp, hid]
    | reserved send hq hid' hp hs => rw [hp, hid]
    | finished send hq hid' hp hs => rw [hp, hid]
  · cases h with
    | none hp hs' => rwa [hs']
    | begun hq hs hp hs' => simp [hs']
    | bound id' hq free hp hs' =>
        rw [hs']
        split
        · simp
        · exact hs
    | set id' status hq' hid' hopen hp hs' =>
        rw [hs']
        rintro rfl
        -- the one status that would take a send back is excluded by `hq`
        exact hq ⟨id', hq'⟩
    | reserved send hq hid' hp hs' => simp [hs']
    | finished send hq hid' hp hs' => simp [hs']

namespace Db

variable {db db' : Db}

/-! ### Uniqueness of sends -/

/-- The uniqueness constraints of `lightning_sends` beside its primary key. -/
structure Unique (db : Db) : Prop where
  outbound : ∀ r ∈ db.sends.rows, ∀ r' ∈ db.sends.rows,
    r.intent.outboundTransferId = r'.intent.outboundTransferId → r = r'
  payment : ∀ r ∈ db.sends.rows, ∀ r' ∈ db.sends.rows, ∀ id,
    r.intent.paymentId = some id → r'.intent.paymentId = some id → r = r'
  expected : ∀ r ∈ db.sends.rows, ∀ r' ∈ db.sends.rows,
    r.intent.kind = .bolt11 → r'.intent.kind = .bolt11 → r.intent.expectedId ≠ "" →
    r.intent.expectedId = r'.intent.expectedId → r = r'

/-- Empty tables have nothing twice. -/
theorem Unique.empty : Unique .empty := by
  constructor <;> simp [Db.empty, Table.empty]

/-- Two rows of one request are one row. -/
theorem send_eq {r r' : SendRow} (hr : r ∈ db.sends.rows) (hr' : r' ∈ db.sends.rows)
    (h : r.intent.requestId = r'.intent.requestId) : r = r' := Table.eq_of_key hr hr' h

/-- A bind makes no two sends share a payment. -/
theorem bound_once {q : Query} {now : Nat} {a : q.Out} (h : q.run now db = .ok (a, db'))
    (hu : Unique db) {g : SendRow → SendRow} {r r' : SendRow} (hr : r ∈ db.sends.rows)
    (hr' : r' ∈ db.sends.rows) (hs : SendStep q r (g r)) (hs' : SendStep q r' (g r'))
    {id : String} (hid : (g r).intent.paymentId = some id)
    (hid' : (g r').intent.paymentId = some id) : r = r' := by
  -- a row that has the payment after the step had it before, or is being bound to it
  have hcase : ∀ x ∈ db.sends.rows, SendStep q x (g x) → (g x).intent.paymentId = some id →
      x.intent.paymentId = some id ∨ q = .bindLightningPayment x.intent.requestId id := by
    intro x _ hx hxid
    cases hx.progress with
    | none hp hs => exact .inl (hp ▸ hxid)
    | begun hq hs hp hs' => exact .inl (hp ▸ hxid)
    | bound id' hq free hp hs =>
        obtain rfl : id' = id := Option.some.inj (hp.symm.trans hxid)
        exact .inr hq
    | set id' status hq hid' hopen hp hs => exact .inl (hp ▸ hxid)
    | reserved send hq hid' hp hs => exact .inl (hp ▸ hxid)
    | finished send hq hid' hp hs => exact .inl (hp ▸ hxid)
  -- the constraint check of the method
  have hcheck : ∀ x ∈ db.sends.rows, ∀ y ∈ db.sends.rows,
      q = .bindLightningPayment x.intent.requestId id → y.intent.paymentId = some id → y = x := by
    rintro x hx y hy rfl hyid
    exact send_eq hy hx ((bindLightningPayment_ok h).1 y hy hyid)
  rcases hcase r hr hs hid with h₁ | h₁
  · rcases hcase r' hr' hs' hid' with h₂ | h₂
    · exact hu.payment r hr r' hr' id h₁ h₂
    · exact hcheck r' hr' r hr h₂ h₁
  · rcases hcase r' hr' hs' hid' with h₂ | h₂
    · exact (hcheck r hr r' hr' h₁ h₂).symm
    · rw [h₁] at h₂
      exact send_eq hr hr' (Query.bindLightningPayment.inj h₂).1

/-- A method leaves what is unique unique. -/
theorem run_unique {q : Query} {now : Nat} {a : q.Out} (h : q.run now db = .ok (a, db'))
    (hu : Unique db) : Unique db' := by
  rcases sends_step h with ⟨g, hrows, hg⟩ | ⟨send, key, network, rfl, hrows, -, hout, hexp⟩
  · -- rows that agree after the step agreed before
    have hback : ∀ x ∈ db'.sends.rows, ∃ r ∈ db.sends.rows, g r = x ∧ SendStep q r x := by
      intro x hx
      rw [hrows] at hx
      obtain ⟨r, hr, rfl⟩ := List.mem_map.mp hx
      exact ⟨r, hr, rfl, hg r hr⟩
    constructor
    · intro x hx y hy hxy
      obtain ⟨r, hr, rfl, hs⟩ := hback x hx
      obtain ⟨r', hr', rfl, hs'⟩ := hback y hy
      rw [hu.outbound r hr r' hr' (by
        rw [← hs.same.outboundTransferId, hxy, hs'.same.outboundTransferId])]
    · intro x hx y hy id hxid hyid
      obtain ⟨r, hr, rfl, hs⟩ := hback x hx
      obtain ⟨r', hr', rfl, hs'⟩ := hback y hy
      rw [bound_once h hu hr hr' hs hs' hxid hyid]
    · intro x hx y hy hxk hyk hne hxy
      obtain ⟨r, hr, rfl, hs⟩ := hback x hx
      obtain ⟨r', hr', rfl, hs'⟩ := hback y hy
      rw [hs.same.kind] at hxk
      rw [hs'.same.kind] at hyk
      rw [hs.same.expectedId] at hne
      rw [hu.expected r hr r' hr' hxk hyk hne (by
        rw [← hs.same.expectedId, hxy, hs'.same.expectedId])]
  · -- a new row differs from the old ones in all that has to be unique
    have hcase : ∀ x ∈ db'.sends.rows, x = preparedRow send ∨ x ∈ db.sends.rows := by
      intro x hx
      rw [hrows] at hx
      exact List.mem_cons.mp hx
    constructor
    · intro x hx y hy hxy
      rcases hcase x hx with rfl | hx
      · rcases hcase y hy with rfl | hy
        · rfl
        · exact absurd hxy.symm (hout y hy)
      · rcases hcase y hy with rfl | hy
        · exact absurd hxy (hout x hx)
        · exact hu.outbound x hx y hy hxy
    · intro x hx y hy id hxid hyid
      rcases hcase x hx with rfl | hx
      · simp [preparedRow] at hxid
      · rcases hcase y hy with rfl | hy
        · simp [preparedRow] at hyid
        · exact hu.payment x hx y hy id hxid hyid
    · intro x hx y hy hxk hyk hne hxy
      rcases hcase x hx with rfl | hx
      · rcases hcase y hy with rfl | hy
        · rfl
        · exact absurd hxy.symm (hexp hxk hne y hy hyk)
      · rcases hcase y hy with rfl | hy
        · exact absurd hxy (hexp hyk (hxy ▸ hne) x hx hxk)
        · exact hu.expected x hx y hy hxk hyk hne hxy

/-! ### Growth of the tables -/

/-- What stays of the tables. -/
structure Grows (db db' : Db) : Prop where
  sends : ∀ r ∈ db.sends.rows, ∃ r' ∈ db'.sends.rows, r.intent.Continues r'.intent
  receives : ∀ k l, db.receives.get k = some l → ∃ l', db'.receives.get k = some l' ∧
    SameReceive l l' ∧ db'.quoteUses.get k = db.quoteUses.get k
  bound : ∀ k id, (db.receivePayment k).paymentId = some id →
    (db'.receivePayment k).paymentId = some id
  claimable : ∀ k, (db.receivePayment k).claimableAmountMsat.isSome →
    (db'.receivePayment k).claimableAmountMsat.isSome
  transferId : ∀ k, (db.receivePayment k).transferId.isSome →
    (db'.receivePayment k).transferId.isSome
  preimage : ∀ k, (db.receivePayment k).preimage.isSome → (db'.receivePayment k).preimage.isSome
  internal : ∀ k r, db.internalPayments.get k = some r → db'.internalPayments.get k = some r
  requests : ∀ k, KeepsRequest db db' k
  proofs : ∀ k, (db.proofOf k).isSome → (db'.proofOf k).isSome
  transfers : KeepsTransfers db.transfers db'.transfers

theorem SameReceive.trans {a b c : ReceiveRow} (h : SameReceive a b) (h' : SameReceive b c) :
    SameReceive a c :=
  ⟨h'.requestId.trans h.requestId, h'.owner.trans h.owner, h'.receiver.trans h.receiver,
    h'.amountSats.trans h.amountSats, h'.invoice.trans h.invoice, h'.kind.trans h.kind⟩

theorem Grows.refl (db : Db) : db.Grows db where
  sends r hr := ⟨r, hr, .refl _⟩
  receives _ l hl := ⟨l, hl, .refl l, rfl⟩
  bound _ _ h := h
  claimable _ h := h
  transferId _ h := h
  preimage _ h := h
  internal _ _ h := h
  requests k := .refl db k
  proofs _ h := h
  transfers := .refl _

theorem Grows.trans {a b c : Db} (h : a.Grows b) (h' : b.Grows c) : a.Grows c where
  sends r hr := by
    obtain ⟨r₁, hr₁, hc₁⟩ := h.sends r hr
    obtain ⟨r₂, hr₂, hc₂⟩ := h'.sends r₁ hr₁
    exact ⟨r₂, hr₂, hc₁.trans hc₂⟩
  receives k l hl := by
    obtain ⟨l₁, hl₁, hs₁, hq₁⟩ := h.receives k l hl
    obtain ⟨l₂, hl₂, hs₂, hq₂⟩ := h'.receives k l₁ hl₁
    exact ⟨l₂, hl₂, hs₁.trans hs₂, hq₂.trans hq₁⟩
  bound k id hk := h'.bound k id (h.bound k id hk)
  claimable k hk := h'.claimable k (h.claimable k hk)
  transferId k hk := h'.transferId k (h.transferId k hk)
  preimage k hk := h'.preimage k (h.preimage k hk)
  internal k r hk := h'.internal k r (h.internal k r hk)
  requests k := (h.requests k).trans (h'.requests k)
  proofs k hk := h'.proofs k (h.proofs k hk)
  transfers := h.transfers.trans h'.transfers

/-- A receive keeps its payment, its amount, its transfer and its preimage. -/
theorem ReceiveStep.grows {q : Query} {k : String} {p p' : ReceivePaymentRow}
    (h : ReceiveStep q k p p') :
    (∀ id, p.paymentId = some id → p'.paymentId = some id) ∧
    (p.claimableAmountMsat.isSome → p'.claimableAmountMsat.isSome) ∧
    (p.transferId.isSome → p'.transferId.isSome) ∧ (p.preimage.isSome → p'.preimage.isSome) := by
  cases h with
  | none same =>
      rw [same.paymentId, same.claimable, same.transferId, same.preimage]
      exact ⟨fun _ h => h, fun h => h, fun h => h, fun h => h⟩
  | bound id amount hq free hid hamount ht hp =>
      rw [hid, hamount, ht, hp]
      refine ⟨fun id' h => ?_, fun _ => rfl, fun h => h, fun h => h⟩
      rcases free with hf | hf
      · rw [hf] at h
        exact absurd h (by simp)
      · exact hf ▸ h
  | paid transferId preimage requestId owner hq hid hamount ht hp =>
      rw [hid, hamount, ht, hp]
      exact ⟨fun _ h => h, fun h => h, fun _ => rfl, fun _ => rfl⟩
  | completed paymentHash transferId requestId owner hq hid hamount ht hp =>
      rw [hid, hamount, ht, hp]
      exact ⟨fun _ h => h, fun h => h, fun _ => rfl, fun h => h⟩

/-- A method other than the forbidden ones removes nothing. -/
theorem run_grows {q : Query} {now : Nat} {a : q.Out} (h : q.run now db = .ok (a, db'))
    (hq : ¬ q.unprepares) : db.Grows db' where
  sends r hr := by
    rcases sends_step h with ⟨g, hrows, hg⟩ | ⟨send, key, network, rfl, hrows, -, -, -⟩
    · exact ⟨g r, hrows ▸ List.mem_map_of_mem hr, (hg r hr).progress.continues (hg r hr).same hq⟩
    · exact ⟨r, hrows ▸ List.mem_cons_of_mem _ hr, .refl _⟩
  receives k l hl := by
    rcases receives_step h with ⟨hquotes, g, hsame, hget⟩ |
      ⟨id, owner, created, p, rfl, hins, hquotes⟩
    · exact ⟨g l, by rw [hget, hl, Option.map_some], hsame l, by rw [hquotes]⟩
    · -- the new receive is another one
      have hne : k ≠ p.paymentHash := by
        rintro rfl
        have hfree : db.receives.get p.paymentHash = none := (Table.insert_eq_some hins).1
        rw [hl] at hfree
        exact absurd hfree (by simp)
      refine ⟨l, ?_, .refl l, hquotes.get_of_ne hne⟩
      rw [Table.get_insert hins, if_neg (fun e => hne e.symm), hl]
  bound k id hk := (receive_step h k).grows.1 id hk
  claimable k hk := (receive_step h k).grows.2.1 hk
  transferId k hk := (receive_step h k).grows.2.2.1 hk
  preimage k hk := (receive_step h k).grows.2.2.2 hk
  internal k r hk := by
    rcases internal_step h with hsame | ⟨send, l, -, -, -, -, -, hins⟩
    · rw [hsame, hk]
    · have hne : send.expectedId ≠ k := by
        rintro rfl
        have hfree := (Table.insert_eq_some hins).1
        rw [hk] at hfree
        exact absurd hfree (by simp)
      rw [Table.get_insert hins, if_neg hne, hk]
  requests k := (requests_step h k).1
  proofs k hk := by
    rcases (requests_step h k).2 with hsame | ⟨hash, preimage, -, hnew⟩
    · rwa [hsame]
    · rw [hnew, Option.isSome_map]
      unfold proofOf at hk
      exact Option.isSome_of_isSome_bind hk
  transfers := (transfers_step h).1

end Db

/-! ### Growth of the world -/

/-- The world only learns: rows and reports are added. -/
structure World.Grows (w w' : World) : Prop where
  db : w.db.Grows w'.db
  ldk : ∀ p ∈ w.ldk.seen, p ∈ w'.ldk.seen
  spark : w.spark.Grows w'.spark

theorem World.Grows.refl (w : World) : w.Grows w := ⟨.refl _, fun _ h => h, .refl _⟩

theorem World.Grows.trans (a b c : World) (h : a.Grows b) (h' : b.Grows c) : a.Grows c :=
  ⟨h.db.trans h'.db, fun p hp => h'.ldk p (h.ldk p hp), h.spark.trans h'.spark⟩

variable {D : Deployment} {t : Nat} {c : Call} {ch : Choice} {w w' : World}

/-- A call that prepares no send anew grows the world. -/
theorem perform_grows {r : c.Reply} (h : perform D t c ch w = some (r, w'))
    (hc : ∀ q, c = .db q → ¬ q.unprepares) : w.Grows w' := by
  cases c with
  | db q =>
      rcases perform_db h with ⟨a, db', hrun, -, rfl⟩ | ⟨e, -, rfl⟩
      · exact ⟨Db.run_grows hrun (hc q rfl), fun _ h => h, .refl _⟩
      · exact .refl _
  | ldk c =>
      obtain ⟨n, rfl, hseen, -⟩ := perform_ldk h
      exact ⟨.refl _, hseen, .refl _⟩
  | spark c =>
      obtain ⟨s, rfl, hs, -⟩ := perform_spark h
      exact ⟨.refl _, fun _ h => h, hs⟩
  | _ =>
      obtain ⟨ls, rfl, -⟩ := performSystem_same (h : performSystem t _ ch w = some (r, w'))
      exact ⟨.refl _, fun _ h => h, .refl _⟩

/-- The outside grows the world. -/
theorem outside_grows {o : Outside} (h : outside o w = some w') : w.Grows w' := by
  cases o with
  | tick n =>
      obtain rfl := Option.some.inj h
      exact ⟨.refl _, fun _ h => h, .refl _⟩
  | payment p =>
      obtain ⟨n, ho, rfl⟩ := Option.map_eq_some_iff.mp h
      exact ⟨.refl _, fun x hx => by simp [LdkNode.observe_eq_some ho, hx], .refl _⟩
  | transfer x =>
      obtain ⟨s, ho, rfl⟩ := Option.map_eq_some_iff.mp h
      exact ⟨.refl _, fun _ h => h, (Operators.observe_reports ho).1.grows⟩
  | htlc q =>
      obtain ⟨s, ho, rfl⟩ := Option.map_eq_some_iff.mp h
      exact ⟨.refl _, fun _ h => h, (Operators.observeHtlc_reports ho).1.grows⟩
  | commitSwap r =>
      obtain ⟨s, ho, rfl⟩ := Option.map_eq_some_iff.mp h
      exact ⟨.refl _, fun _ h => h, (Operators.commitSwap_grows ho).1⟩

/-! ### Growth along runs -/

section runs

variable {ok : Config (machine D) → Move (machine D) → Prop} {s s' : Config (machine D)}

/-- The program never makes a send `PREPARED` again. -/
theorem justified_unprepares {h : History Api} {q : Query} (hj : Justified D h (.db q)) :
    ¬ q.unprepares := by
  rintro ⟨id, rfl⟩
  exact hj

/-- Every move of a run keeps the world growing. -/
theorem reach_grows {m : Move (machine D)} (hs : Reach ok s) (hst : s.step m = some s') :
    World.Grows s.world s'.world := by
  rcases Config.step_cases hst with ⟨r, -, rfl⟩ | ⟨t, ch, c, k, hist, r, w, -, hth, hp, rfl⟩ |
    ⟨t, th, -, -, rfl⟩ | ⟨-, rfl⟩ | ⟨o, w, -, ho, rfl⟩
  · exact .refl _
  · refine perform_grows hp fun q hq => ?_
    subst hq
    exact justified_unprepares (reach_justified hs hth)
  · exact ⟨.refl _, fun _ h => h, .refl _⟩
  · exact ⟨.refl _, fun _ h => h, .refl _⟩
  · exact outside_grows ho

/-- Every past event, and how the world has grown since. -/
theorem reach_happened (hs : Reach ok s) {t : Nat} {e : Event Api} (he : (t, e) ∈ s.trace) :
    ∃ h s₀ s₁, Moment ok t e h s₀ s₁ ∧ World.Grows s₁.world s.world :=
  hs.happened (G := World.Grows) .refl World.Grows.trans
    (fun _ _ _ hr _ hst => reach_grows hr hst) t e he

/-- Every event a program has in its history, with what the program knew then. -/
theorem reach_knows (hs : Reach ok s) {t : Nat} {th : Thread Api} (hth : s.thread t = some th)
    {newer older : History Api} {e : Event Api} (hh : th.history = newer ++ e :: older) :
    ∃ s₀ s₁, Moment ok t e older s₀ s₁ ∧ World.Grows s₁.world s.world := by
  refine hs.kept (q := anyEvent) (H := fun _ => True) (G := World.Grows) .refl World.Grows.trans
    (fun _ _ _ _ => trivial) ?_ ?_ t th hth newer e older hh (fun _ _ => trivial) trivial
  · intro s t ch c k h r w hr hth hm hp _
    refine perform_grows hp fun q hq => ?_
    subst hq
    exact justified_unprepares (reach_justified hr hth)
  · intro s s' m t th hr _ hst _ _ _
    exact reach_grows hr hst

/-- The call of an event was justified when it was made. -/
theorem moment_justified {t : Nat} {e : Event Api} {h : History Api}
    (hm : Moment ok t e h s s') : Justified D h e.call := by
  obtain ⟨ch, k, hth, -⟩ := hm.made
  exact reach_justified hm.reach hth

/-- An event is what the world answered. -/
theorem moment_perform {t : Nat} {e : Event Api} {h : History Api} (hm : Moment ok t e h s s') :
    ∃ ch, perform D t e.call ch s.world = some (e.reply, s'.world) := by
  obtain ⟨ch, k, -, -, hp, -⟩ := hm.made
  exact ⟨ch, hp⟩

/-- An event grows the world. -/
theorem moment_grows {t : Nat} {e : Event Api} {h : History Api} (hm : Moment ok t e h s s') :
    World.Grows s.world s'.world := by
  obtain ⟨ch, hp⟩ := moment_perform hm
  refine perform_grows hp fun q hq => ?_
  have hj := moment_justified hm
  rw [hq] at hj
  exact justified_unprepares hj

/-- The reply of a successful method, as the method gives it. -/
theorem moment_db {t : Nat} {q : Query} {a : q.Out} {h : History Api}
    (hm : Moment ok t (dbEvent q a) h s s') :
    ∃ db', q.run s.world.now s.world.db = .ok (a, db') ∧ s'.world = { s.world with db := db' } := by
  obtain ⟨ch, hp⟩ := moment_perform hm
  rcases perform_db hp with ⟨b, db', hrun, hb, hw⟩ | ⟨e, he, -⟩
  · obtain rfl := Except.ok.inj hb
    exact ⟨db', hrun, hw⟩
  · simp at he

/-- The node's answer obeys its laws in the world after it. -/
theorem moment_ldk {t : Nat} {c : LdkCall} {a : c.Out} {h : History Api}
    (hm : Moment ok t (ldkEvent c a) h s s') : LdkAnswer D s'.world.ldk.seen c a := by
  obtain ⟨ch, hp⟩ := moment_perform hm
  obtain ⟨n, hw, -, ha⟩ := perform_ldk hp
  rw [hw]
  exact ha a rfl

/-- So does the operators' answer. -/
theorem moment_spark {t : Nat} {c : SparkCall} {a : c.Out} {h : History Api}
    (hm : Moment ok t (sparkEvent c a) h s s') : SparkAnswer s'.world.spark c a := by
  obtain ⟨ch, hp⟩ := moment_perform hm
  obtain ⟨n, hw, -, -, ha⟩ := perform_spark hp
  rw [hw]
  exact ha a rfl

end runs

end OpenSsp
