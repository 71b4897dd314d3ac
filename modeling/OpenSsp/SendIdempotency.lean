/-
OpenSsp/SendIdempotency.lean

One send for each idempotency key of an owner.

A request with a key is stored in one transaction together with its intent and the row of
its funding, and the unique index on owner and key lets no second one in.  So a call that
succeeds, whether it has found the request or stored it, answers for that one request, and
only if it asks for the payment that was recorded (`answered_request`).

A call is turned away in the check against the record it has found, or by a conflict in the
transaction (`Refused`); up to then it has only read.

Main result: `sends_idempotent`.
-/
import OpenSsp.OfferPayout
import OpenSsp.TransferIds
import OpenSsp.RouteCap

namespace OpenSsp

open Interleave

variable {D : Deployment} {ok : Config (machine D) → Move (machine D) → Prop}

/-! ### Requests with a key -/

/-- The request `id` was made by `owner` under the key `key`. -/
def Db.HasKey (db : Db) (owner key id : String) : Prop :=
  ∃ r, db.requests.get id = some r ∧ r.owner = owner ∧ r.idempotencyKey = some key

theorem Db.HasKey.grows {db db' : Db} {owner key id : String} (h : db.HasKey owner key id)
    (hg : db.Grows db') : db'.HasKey owner key id := by
  obtain ⟨r, hr, howner, hkey⟩ := h
  obtain ⟨r', hr', -, howner', hkey'⟩ := hg.requests id r hr
  exact ⟨r', hr', howner'.trans howner, hkey'.trans hkey⟩

/-- What the unique index and the program's keys make of the requests. -/
structure Db.KeysUnique (db : Db) : Prop where
  send : ∀ r ∈ db.requests.rows, ∀ key, r.idempotencyKey = some key →
    key ≠ "" ∧ ∃ p, r.payload = .lightningSend p
  unique : ∀ r ∈ db.requests.rows, ∀ r' ∈ db.requests.rows, ∀ key, r.owner = r'.owner →
    r.idempotencyKey = some key → r'.idempotencyKey = some key → r.id = r'.id

theorem reach_keysUnique {s : Config (machine D)} (hs : Reach ok s) : s.world.db.KeysUnique := by
  refine reach_tables (J := fun w => w.db.KeysUnique) ?_ ?_ ?_ hs
  · constructor
    · intro r hr
      simp [World.init, Db.empty, Table.empty] at hr
    · intro r hr
      simp [World.init, Db.empty, Table.empty] at hr
  · intro w w' hdb _ ih
    rw [hdb]
    exact ih
  · intro s t q cont hist a db' hr hth hrun _ ih
    constructor
    · intro x hx key hkey
      cases Db.requests_origin hrun hx with
      | old y hy id payload owner hkey' =>
          rw [payload]
          exact ih.send y hy key (hkey'.symm.trans hkey)
      | inserted id owner created payload hq hx =>
          rw [hx] at hkey
          cases hkey
      | prepared send key' network hq hx =>
          subst hq
          obtain ⟨-, hne⟩ : Funded D hist send ∧ key' ≠ "" := reach_justified hr hth
          obtain ⟨p, hp, -⟩ := hx.payload
          obtain rfl := Option.some.inj (hx.idempotencyKey.symm.trans hkey)
          exact ⟨hne, p, hp⟩
    · -- a new request has a key that no old request of its owner has
      have hnew : ∀ x y send key network, q = .prepareLightningSend send key network →
          Db.PreparedRequest send key s.world.db x → y ∈ s.world.db.requests.rows →
          x.owner = y.owner → y.idempotencyKey ≠ some key := by
        rintro x y send key network rfl hx hy howner
        obtain ⟨-, hne⟩ : Funded D hist send ∧ key ≠ "" := reach_justified hr hth
        exact hx.fresh hne y hy (howner.symm.trans hx.owner)
      intro x hx x' hx' key howner hkey hkey'
      cases Db.requests_origin hrun hx with
      | inserted id owner created payload hq hx =>
          rw [hx] at hkey
          cases hkey
      | old y hy id payload howner₁ hkey₁ =>
          cases Db.requests_origin hrun hx' with
          | inserted id' owner created payload' hq hx' =>
              rw [hx'] at hkey'
              cases hkey'
          | old y' hy' id' payload' howner₂ hkey₂ =>
              rw [id, id']
              exact ih.unique y hy y' hy' key (howner₁.symm.trans (howner.trans howner₂))
                (hkey₁.symm.trans hkey) (hkey₂.symm.trans hkey')
          | prepared send key₂ network hq hx' =>
              obtain rfl := Option.some.inj (hx'.idempotencyKey.symm.trans hkey')
              exact absurd (hkey₁.symm.trans hkey)
                (hnew x' y send _ network hq hx' hy (howner.symm.trans howner₁))
      | prepared send key₁ network hq hx =>
          obtain rfl := Option.some.inj (hx.idempotencyKey.symm.trans hkey)
          cases Db.requests_origin hrun hx' with
          | inserted id' owner created payload' hq' hx' =>
              rw [hx'] at hkey'
              cases hkey'
          | old y' hy' id' payload' howner₂ hkey₂ =>
              exact absurd (hkey₂.symm.trans hkey')
                (hnew x y' send _ network hq hx hy' (howner.trans howner₂))
          | prepared send' key₂ network' hq' hx' =>
              obtain ⟨rfl, -⟩ := Query.prepareLightningSend.inj (hq.symm.trans hq')
              exact hx.id.trans hx'.id.symm

/-- The key leads to one request, at whatever points of a run one looks. -/
theorem hasKey_unique {s s' : Config (machine D)} (hs : Reach ok s) (hl : Later ok s s')
    {owner key id id' : String} (h : s.world.db.HasKey owner key id)
    (h' : s'.world.db.HasKey owner key id') : id = id' := by
  obtain ⟨r, hr, howner, hkey⟩ := h.grows (grows_later hs hl).db
  obtain ⟨r', hr', howner', hkey'⟩ := h'
  rw [← Table.key_of_get hr, ← Table.key_of_get hr']
  exact (reach_keysUnique (hs.later hl)).unique r (Table.mem_of_get hr) r' (Table.mem_of_get hr')
    key (howner.trans howner'.symm) hkey hkey'

/-! ### The funding of a request -/

/-- The transfer of a send request is the one its payload names. -/
theorem reach_funding {s : Config (machine D)} (hs : Reach ok s) {k : String} {x : TransferRow}
    (hx : s.world.db.transfers.get k = some x) {r : RequestRow} {p : SendPayload}
    (hr : s.world.db.requests.get x.requestId = some r) (hp : r.payload = .lightningSend p) :
    x.sparkId = p.userOutboundTransferExternalId := by
  refine reach_tables (J := fun w => ∀ k x, w.db.transfers.get k = some x →
    ∀ r p, w.db.requests.get x.requestId = some r → r.payload = .lightningSend p →
    x.sparkId = p.userOutboundTransferExternalId) ?_ ?_ ?_ hs k x hx r p hr hp
  · intro k x hx
    simp [World.init, Db.empty] at hx
  · intro w w' hdb _ ih
    rw [hdb]
    exact ih
  · intro s t q cont hist a db' hreach hth hrun hg ih k x hx r p hr hp
    have hj := reach_justified hreach hth
    -- a request that was there before has the payload it had
    have hpayload : ∀ r₀, s.world.db.requests.get x.requestId = some r₀ →
        r₀.payload = .lightningSend p := by
      intro r₀ hr₀
      obtain ⟨r', hr', hp', -⟩ := hg.db.requests x.requestId r₀ hr₀
      obtain rfl := Option.some.inj (hr.symm.trans hr')
      exact hp'.symm.trans hp
    -- so it is not the request of a receive
    have hreceive : ∀ {hash : String} {rc : LightningReceive},
        dbEvent (.lightningReceiveForHash hash) (some rc) ∈ hist → x.requestId ≠ rc.requestId := by
      intro hash rc hread hid
      obtain ⟨l, hl, hlid, -⟩ := read_receive hreach hth hread
      obtain ⟨r₀, p₀, hr₀, hp₀, -⟩ := reach_receive_request hreach hl
      rw [← hlid, ← hid] at hr₀
      exact absurd ((hpayload r₀ hr₀).symm.trans hp₀) (by simp)
    cases (Db.transfers_step hrun).2 k x hx with
    | old y hy hsame =>
        have hreq : x.requestId = y.requestId := by
          rw [hsame]
        have hid : x.sparkId = y.sparkId := by
          rw [hsame]
        obtain ⟨r₀, hr₀⟩ := (reach_transfers hreach hy).request hreach
        rw [hid]
        exact ih _ y hy r₀ p hr₀ (hpayload r₀ (hreq ▸ hr₀))
    | funding send key network hq hsame =>
        subst hq
        have hrow := Db.prepareLightningSend_row hrun
        obtain ⟨requests, sends, transfers, ⟨-, hid, -⟩, hins, -, -, -, -, rfl⟩ :=
          Db.prepareLightningSend_ok hrun
        have hget : requests.get x.requestId = some r := hr
        obtain ⟨p', hp', -, htransfer, -⟩ := hrow.payload
        rw [hsame, Table.get_insert hins, if_pos (by exact hid)] at hget
        obtain rfl := Option.some.inj hget
        obtain rfl := RequestPayload.lightningSend.inj (hp'.symm.trans hp)
        rw [htransfer, hsame]
        rfl
    | swapped hash transferId preimage requestId owner hq hsame =>
        subst hq
        obtain ⟨-, -, -, rc, hread, hreq, -⟩ := hj
        refine absurd ?_ (hreceive hread)
        rw [hsame]
        exact hreq
    | entered requestId r₀ p₀ hq hr₀ hp₀ hsame =>
        -- the request of a withdrawal or a claim is no send
        subst hq
        have hreq : x.requestId = requestId := by
          rw [hsame, ServicePayload.row_requestId]
        rw [← hreq] at hr₀
        exact absurd ((hpayload r₀ hr₀).symm.trans hp₀) (by simp)
    | inserted sparkId requestId owner kind status hq hsame =>
        subst hq
        rcases hj with ⟨-, hash, rc, hread, hreq, -⟩ | ⟨-, o, created, p₀, hins⟩
        · refine absurd ?_ (hreceive hread)
          rw [hsame]
          exact hreq
        · -- nor is it the request of a swap
          obtain ⟨s₀, db₀, -, hrun₀, hg₀⟩ := db_fact hreach hth hins
          obtain ⟨requests, hr₀, ⟨-, rfl⟩ | ⟨p', _, _, hp', -⟩⟩ := Db.insertRequest_ok hrun₀
          · have hget : requests.get requestId =
                some (Db.requestRow requestId o created (.leavesSwap p₀)) := by
              rw [Table.get_insert hr₀]
              exact if_pos rfl
            obtain ⟨r₁, hr₁, hp₁, -⟩ := hg₀.requests requestId _ hget
            have hid : x.requestId = requestId := by
              rw [hsame]
            have hsend := hpayload r₁ (hid ▸ hr₁)
            rw [hp₁] at hsend
            exact absurd hsend (by simp [Db.requestRow])
          · exact absurd hp' (by simp)
    | offered offerId paymentHash transferId requestId owner hq hsame =>
        subst hq
        obtain ⟨rc, hground, hreq, -⟩ := hj
        refine absurd ?_ (hreceive hground.paid.read)
        rw [hsame]
        exact hreq

/-! ### Answers -/

/-- Program `t` has run a send request of `owner` to its end, with the outcome `a`. -/
def Answered (D : Deployment) (s : Config (machine D)) (t : Nat) (owner : String)
    (input : Graphql.SendInput) (a : Except String (String × String)) : Prop :=
  ∃ th, s.thread t = some th ∧
    (Graphql.requestLightningSend D owner input).run.After th.history (.ret a)

/-- The program of a send request that has come to its end has answered it. -/
theorem answered_of_spawned {s s' : Config (machine D)} {owner : String}
    {input : Graphql.SendInput}
    (hl : Later ok (s.spawn (Request.handler D (.lightningSend owner input))) s') {th : Thread Api}
    (hth : s'.thread s.threads.length = some th) {u : Unit} (hend : th.prog = .ret u) :
    ∃ a, Answered D s' s.threads.length owner input a := by
  have hafter := Reach.spawned_after (M := machine D) hl th hth
  rw [hend] at hafter
  -- the handler throws the outcome away twice
  obtain ⟨b, hb, -⟩ := Prog.After.of_bind_ret (p := (Request.act D (.lightningSend owner input)).run)
    (g := fun _ => u) (fun _ => rfl) hafter
  obtain ⟨a, ha, -⟩ := Prog.After.of_bind_ret
    (p := (Graphql.requestLightningSend D owner input).run)
    (g := fun a => a.map fun _ => ()) (fun a => by cases a <;> rfl) hb
  exact ⟨a, th, hth, ha⟩

/-- **What a successful call answers with**: the one request of its key, for the payment that
the call asks for. -/
theorem answered_request {s : Config (machine D)} (hs : Reach ok s) {t : Nat} {owner : String}
    {input : Graphql.SendInput} {a : String × String} (h : Answered D s t owner input (.ok a)) :
    ∃ r, s.world.db.requests.get a.1 = some r ∧ r.owner = owner ∧
      r.idempotencyKey = some input.key ∧ Graphql.samePayment r input = true := by
  obtain ⟨th, hth, hafter⟩ := h
  obtain ⟨-, record, hans, hid⟩ :=
    hafter.wp (Graphql.requestLightningSend_meets (D := D) (h := []) owner input).wp
  rw [List.append_nil] at hans
  -- whether it is the same payment depends on the payload only
  have hsame : ∀ r r' : RequestRow, r'.payload = r.payload →
      Graphql.samePayment r input = true → Graphql.samePayment r' input = true := by
    intro r r' hp hr
    unfold Graphql.samePayment at hr ⊢
    rw [hp]
    exact hr
  cases hans with
  -- the row that the key found is in the table for good
  | found read same =>
      obtain ⟨s₀, db', -, hrun, hg⟩ := db_fact hs hth read
      obtain ⟨hfind, rfl⟩ := Prod.mk.inj (Except.ok.inj hrun)
      unfold Db.findByIdempotency at hfind
      split at hfind
      · cases hfind
      · have hmem := List.mem_of_find?_eq_some hfind
        have hcond := List.find?_some hfind
        simp only [Bool.and_eq_true, beq_iff_eq] at hcond
        obtain ⟨r', hr', hp', howner, hkey⟩ := hg.requests _ record (Table.mem_iff_get.mp hmem)
        exact ⟨r', hid ▸ hr', howner.trans hcond.1, hkey.trans hcond.2, hsame record r' hp' same⟩
  -- a new row is made of the input
  | prepared send made requests =>
      obtain ⟨s₀, db', -, hrun, hg⟩ := db_fact hs hth made
      have hrow := Db.prepareLightningSend_row hrun
      obtain ⟨t₁, t₂, t₃, -, hins, -, -, -, -, rfl⟩ := Db.prepareLightningSend_ok hrun
      have hget : t₁.get record.id = some record := by
        rw [Table.get_insert hins, if_pos rfl]
      obtain ⟨r', hr', hp', howner, hkey⟩ := hg.requests _ record hget
      refine ⟨r', hid ▸ hr', howner.trans (hrow.owner.trans requests.owner),
        hkey.trans hrow.idempotencyKey, hsame record r' hp' ?_⟩
      obtain ⟨p, hp, hinvoice, htransfer, hamount⟩ := hrow.payload
      unfold Graphql.samePayment
      simp [hp, hinvoice, htransfer, hamount, requests.invoice, requests.transfer,
        requests.amount]

/-! ### Calls that are turned away -/

/-- The call is none of the tables'. -/
def OffTables (x : Event Api) : Prop := ∀ q, x.call ≠ .db q

/-- No call of the function is one of the tables'. -/
abbrev Avoids {α : Type} (x : Ssp α) (h : History Api) : Prop :=
  Act.Spec (fun _ _ => True) OffTables x (fun _ _ => True) h

section avoids

variable {h : History Api}

theorem avoids_tell {c : Call} (hc : ∀ q, c ≠ .db q) : Avoids (Ssp.tell c) h :=
  Act.Spec.tell (I := Api) trivial (fun _ => hc) fun _ => trivial

theorem avoids_ldk (c : LdkCall) : Avoids (Ssp.ldk c) h :=
  Act.Spec.ask (I := Api) trivial (fun _ _ => nofun) fun _ _ _ => trivial

theorem avoids_spark (c : SparkCall) : Avoids (Ssp.spark c) h :=
  Act.Spec.ask (I := Api) trivial (fun _ _ => nofun) fun _ _ _ => trivial

theorem avoids_ofExcept {α : Type} (r : Except String α) : Avoids (Ssp.ofExcept r) h :=
  Act.Spec.ofExcept fun _ _ => trivial

theorem avoids_pollLoop {α : Type} {look : Ssp (Option α)} {e : String} (n : Nat)
    (hlook : ∀ h, Avoids look h) : Avoids (Spark.pollLoop look e n) h := by
  induction n generalizing h with
  | zero =>
      apply Act.Spec.bind ((hlook h).attempt.weaken fun _ hx => hx)
      intro r h₁ _ _
      rcases r with e | - | a
      · exact Act.Spec.throw
      · exact Act.Spec.throw
      · exact Act.Spec.pure trivial
  | succ n ih =>
      apply Act.Spec.bind ((hlook h).attempt.weaken fun _ hx => hx)
      intro r h₁ _ _
      rcases r with e | - | a
      · exact ih
      · exact ih
      · exact Act.Spec.pure trivial

theorem verifyLightningSend_avoids (owner outbound hash : String) (amount : Nat) :
    Avoids (Spark.verifyLightningSend D owner outbound hash amount) h := by
  apply Act.Spec.bind (R := fun _ _ => True)
  · apply Act.Spec.bind (avoids_spark _)
    intro items h₁ _ _
    exact Act.Spec.pure trivial
  intro found h₁ _ _
  apply Act.Spec.bind (avoids_ofExcept _)
  intro request h₂ _ _
  apply Act.Spec.bind (avoids_ofExcept _)
  intro transfer h₃ _ _
  apply Act.Spec.guard
  intro _
  apply Act.Spec.bind (avoids_ofExcept _)
  intro sender h₄ _ _
  apply Act.Spec.bind (avoids_tell (c := .systemTime) nofun)
  intro now h₅ _ _
  exact avoids_ofExcept _

theorem verifyBolt12Send_avoids (owner outbound : String) (amount : Nat) :
    Avoids (Spark.verifyBolt12Send D owner outbound amount) h := by
  apply Act.Spec.bind (avoids_ofExcept _)
  intro id h₁ _ _
  apply Act.Spec.bind (R := fun _ _ => True)
  · apply Act.Spec.bind (avoids_tell (c := .polls) nofun)
    intro n h₂ _ _
    apply avoids_pollLoop
    intro h₃
    apply Act.Spec.bind ((avoids_spark .sync).attempt.weaken fun _ hx => hx)
    intro _ h₄ _ _
    apply Act.Spec.bind (avoids_spark _)
    intro found h₅ _ _
    exact Act.Spec.pure trivial
  intro transfer h₂ _ _
  apply Act.Spec.bind (avoids_ofExcept _)
  intro key h₃ _ _
  apply Act.Spec.bind (avoids_ofExcept _)
  intro _ h₄ _ _
  apply Act.Spec.guard
  intro _
  exact Act.Spec.pure trivial

theorem verifyLightningSendFunding_avoids (owner transfer invoice : String)
    (amount : Option Nat) :
    Avoids (Ldk.verifyLightningSendFunding D owner transfer invoice amount) h := by
  unfold Ldk.verifyLightningSendFunding
  apply Act.Spec.ite
  · intro _
    apply Act.Spec.bind (avoids_ofExcept _)
    intro sats h₁ _ _
    apply Act.Spec.guard
    intro _
    apply Act.Spec.bind (verifyBolt12Send_avoids owner transfer sats)
    intro _ h₂ _ _
    exact Act.Spec.pure trivial
  · intro _
    apply Act.Spec.bind (avoids_ofExcept _)
    intro decoded h₁ _ _
    -- the rest of the check, from the amount on
    have hrest : ∀ msat h, Avoids (do
        let rounded ← Ssp.ofExcept (okOr "invoice amount is too large" (checkedAdd msat 999))
        let totalSats := rounded / 1000
        if totalSats = 0 then throw "Lightning send amount must be positive"
        return some (← Spark.verifyLightningSend D owner transfer decoded.paymentHash.text
          totalSats)) h := by
      intro msat h₂
      apply Act.Spec.bind (avoids_ofExcept _)
      intro rounded h₃ _ _
      apply Act.Spec.guard
      intro _
      apply Act.Spec.bind (verifyLightningSend_avoids _ _ _ _)
      intro cap h₄ _ _
      exact Act.Spec.pure trivial
    rcases decoded.amountMilliSatoshis with - | value
    · apply Act.Spec.bind (avoids_ofExcept _)
      intro sats h₂ _ _
      apply Act.Spec.bind (avoids_ofExcept _)
      intro msat h₃ _ _
      exact hrest msat h₃
    · apply Act.Spec.guard
      intro _
      apply Act.Spec.bind (R := fun _ _ => True) (Act.Spec.pure trivial)
      intro msat h₂ _ _
      exact hrest msat h₂

theorem decodeSend_avoids (invoice : String) (amount : Option Nat) :
    Avoids (Ldk.decodeSend D invoice amount) h := by
  unfold Ldk.decodeSend
  apply Act.Spec.ite
  · intro _
    apply Act.Spec.bind (avoids_ldk _)
    intro offerId h₁ _ _
    apply Act.Spec.bind (avoids_ofExcept _)
    intro total h₂ _ _
    exact Act.Spec.pure trivial
  · intro _
    apply Act.Spec.bind (avoids_ofExcept _)
    intro decoded h₁ _ _
    apply Act.Spec.guard
    intro _
    apply Act.Spec.bind (avoids_tell (c := .now) nofun)
    intro now h₂ _ _
    apply Act.Spec.guard
    intro _
    apply Act.Spec.bind (avoids_ofExcept _)
    intro sats h₃ _ _
    exact Act.Spec.pure trivial

/-- Preparing a send only asks. -/
theorem prepareSend_avoids (owner transfer invoice : String) (amount : Option Nat) :
    Avoids (Ldk.prepareSend D owner transfer invoice amount) h := by
  unfold Ldk.prepareSend
  apply Act.Spec.guard
  intro _
  apply Act.Spec.bind (decodeSend_avoids invoice amount)
  intro decoded h₁ _ _
  apply Act.Spec.bind (avoids_ofExcept _)
  intro _ h₂ _ _
  apply Act.Spec.bind (verifyLightningSendFunding_avoids owner transfer invoice amount)
  intro cap h₃ _ _
  apply Act.Spec.bind (avoids_tell (c := .newUuid) nofun)
  intro id h₄ _ _
  exact Act.Spec.pure trivial

end avoids

/-- How a call is turned away: the error it answers with, and what it has done by then. -/
inductive Refused (D : Deployment) (owner : String) (input : Graphql.SendInput) :
    String → History Api → Prop
  | mismatch (record : RequestRow) (differs : Graphql.samePayment record input = false) :
      Refused D owner input "idempotency key was already used for another payment"
        [⟨Call.release .send, ()⟩,
          dbEvent (.findByIdempotency owner input.key) (some record),
          ⟨Call.acquire .send false, Except.ok ()⟩]
  | conflict (send : LightningSend) (e : String) (h : History Api)
      (prepared : (Ldk.prepareSend D owner input.userOutboundTransferExternalId
        input.encodedInvoice input.amountSats).run.After h (.ret (.ok send))) :
      Refused D owner input e
        (⟨Call.release .send, ()⟩ ::
          ⟨Call.db (.prepareLightningSend send input.key D.networkName), Except.error e⟩ ::
          (h ++ [dbEvent (.findByIdempotency owner input.key) none,
            ⟨Call.acquire .send false, Except.ok ()⟩]))

/-- That is where the program ends. -/
theorem Refused.after {owner : String} {input : Graphql.SendInput} {e : String} {h : History Api}
    (hr : Refused D owner input e h) (hinvoice : input.encodedInvoice ≠ "")
    (htransfer : input.userOutboundTransferExternalId ≠ "") :
    (Graphql.requestLightningSend D owner input).run.After h (.ret (.error e)) := by
  have htake : (Ssp.acquire .send false).run.After [⟨Call.acquire .send false, Except.ok ()⟩]
      (.ret (.ok ())) := Act.after_ask (I := Api) (Call.acquire .send false) id (.ok ())
  have hgive : (Ssp.tell (.release .send)).run.After [⟨Call.release .send, ()⟩]
      (.ret (.ok ())) := Act.after_tell (I := Api) (Call.release .send) ()
  have hfind : ∀ o, (Ssp.db (.findByIdempotency owner input.key)).run.After
      [dbEvent (.findByIdempotency owner input.key) o] (.ret (.ok o)) := fun o =>
    Act.after_ask (I := Api) (Call.db (.findByIdempotency owner input.key)) id (.ok o)
  unfold Graphql.requestLightningSend
  rw [if_neg hinvoice, if_neg htransfer]
  -- refused for what the key already stands for, or by the table itself
  cases hr with
  | mismatch record differs =>
      refine Act.after_bracket htake (h := [dbEvent (.findByIdempotency owner input.key)
        (some record)]) ?_ hgive
      refine Act.after_bind (hfind (some record)) (k := []) ?_
      have hdiffers : ¬ Graphql.samePayment record input = true := by
        rw [differs]
        exact Bool.false_ne_true
      show Prog.After (ExceptT.run (if ¬ Graphql.samePayment record input = true then _ else _)) _ _
      rw [if_pos hdiffers]
      exact Act.after_bind_error .start
  | conflict send e h prepared =>
      have hstore : (Ssp.db (.prepareLightningSend send input.key D.networkName)).run.After
          [⟨Call.db (.prepareLightningSend send input.key D.networkName), Except.error e⟩]
          (.ret (.error e)) :=
        Act.after_ask (I := Api) (Call.db (.prepareLightningSend send input.key D.networkName)) id
          (.error e)
      have hcalls : ∀ a b c d : Event Api, a :: b :: (h ++ [c, d]) =
          [a] ++ ((([b] ++ h) ++ [c]) ++ [d]) := by simp
      rw [hcalls]
      refine Act.after_bracket htake ?_ hgive
      refine Act.after_bind (hfind none) ?_
      exact Act.after_bind prepared (Act.after_bind_error hstore)

/-- A call that leaves the tables as they were: it is none of theirs, it writes none of them, or
it has failed. -/
inductive LeavesTables : Event Api → Prop
  | off (x : Event Api) (hx : OffTables x) : LeavesTables x
  | read (q : Query) (r : Except String q.Out) (hq : q.writes = []) : LeavesTables ⟨.db q, r⟩
  | failed (q : Query) (e : String) : LeavesTables ⟨.db q, .error e⟩

theorem Refused.leavesTables {owner : String} {input : Graphql.SendInput} {e : String}
    {h : History Api} (hr : Refused D owner input e h) : ∀ x ∈ h, LeavesTables x := by
  intro x hx
  cases hr with
  | mismatch record differs =>
      simp only [List.mem_cons, List.not_mem_nil, or_false] at hx
      rcases hx with rfl | rfl | rfl
      · exact .off _ fun _ => nofun
      · exact .read _ _ rfl
      · exact .off _ fun _ => nofun
  | conflict send e h prepared =>
      simp only [List.mem_cons, List.mem_append, List.not_mem_nil, or_false] at hx
      rcases hx with rfl | rfl | hx | rfl | rfl
      · exact .off _ fun _ => nofun
      · exact .failed _ e
      · -- preparing the send has only asked
        have hq := prepared.wp (prepareSend_avoids (D := D) (h := []) owner
          input.userOutboundTransferExternalId input.encodedInvoice input.amountSats).wp
        obtain ⟨⟨newer, hnewer, hoff⟩, -⟩ := hq
        rw [List.append_nil, List.append_nil] at hnewer
        exact .off x (hoff x (hnewer ▸ hx))
      · exact .read _ _ rfl
      · exact .off _ fun _ => nofun

theorem moment_leavesTables {t : Nat} {x : Event Api} {h : History Api} {s s' : Config (machine D)}
    (hm : Moment ok t x h s s') (hx : LeavesTables x) : s'.world.db = s.world.db := by
  obtain ⟨ch, hp⟩ := moment_perform hm
  cases hx with
  | off _ hx => exact perform_tables hp hx
  | read q r hq =>
      rcases perform_db hp with ⟨a, db', hrun, -, hw⟩ | ⟨e, -, hw⟩
      · rw [hw]
        exact Db.run_reads hrun hq
      · rw [hw]
  | failed q e =>
      rcases perform_db hp with ⟨a, db', -, he, -⟩ | ⟨e', -, hw⟩
      · cases he
      · rw [hw]

/-! ### One send for each key -/

/-- At two points `s` and `s'` of a run, `s` first: what holds of the calls of `owner` with the
idempotency key `key`. -/
structure SendsOnce (D : Deployment) (s s' : Config (machine D)) (owner key : String) : Prop where
  intent : ∀ a ∈ s.world.db.sends.rows, ∀ a' ∈ s'.world.db.sends.rows,
    s.world.db.HasKey owner key a.requestId → s'.world.db.HasKey owner key a'.requestId →
    a.requestId = a'.requestId
  funding : ∀ x ∈ s.world.db.transfers.rows, ∀ x' ∈ s'.world.db.transfers.rows,
    s.world.db.HasKey owner key x.requestId → s'.world.db.HasKey owner key x'.requestId →
    x.sparkId = x'.sparkId
  answers : ∀ t t' input input' a a', input.key = key → input'.key = key →
    Answered D s t owner input (.ok a) → Answered D s' t' owner input' (.ok a') → a.1 = a'.1
  stored : ∀ t input a, input.key = key → Answered D s t owner input (.ok a) →
    s.world.db.HasKey owner key a.1
  rejected : ∀ t input a r, input.key = key → r ∈ s.world.db.requests.rows → r.owner = owner →
    r.idempotencyKey = some key → Graphql.samePayment r input = false →
    Answered D s' t owner input a → ∃ e, a = .error e

/-- A call of `owner` that has been turned away has answered with its error, and none of its
calls has changed the tables. -/
structure TurnedAway (ok : Config (machine D) → Move (machine D) → Prop) (s : Config (machine D))
    (owner : String) : Prop where
  answered : ∀ t th input e, s.thread t = some th → Refused D owner input e th.history →
    input.encodedInvoice ≠ "" → input.userOutboundTransferExternalId ≠ "" →
    Answered D s t owner input (.error e)
  unchanged : ∀ t th input e, s.thread t = some th → Refused D owner input e th.history →
    ∀ newer x older, th.history = newer ++ x :: older →
    ∀ s₀ s₁, Moment ok t x older s₀ s₁ → s₁.world.db = s₀.world.db

/-- **One send for each idempotency key.** -/
theorem sends_idempotent {s s' : Config (machine D)} (hs : Reach ok s) (hl : Later ok s s')
    (owner key : String) : SendsOnce D s s' owner key ∧ TurnedAway ok s' owner := by
  refine ⟨⟨?_, ?_, ?_, ?_, ?_⟩, ⟨?_, ?_⟩⟩
  · intro a _ a' _ hkey hkey'
    exact hasKey_unique hs hl hkey hkey'
  · intro x hx x' hx' hkey hkey'
    have hid := hasKey_unique hs hl hkey hkey'
    -- both rows are the transfer that the payload of the request names
    obtain ⟨r, hr, -, hrkey⟩ := hkey
    obtain ⟨-, p, hp⟩ := (reach_keysUnique hs).send r (Table.mem_of_get hr) key hrkey
    obtain ⟨r', hr', hp', -⟩ := (grows_later hs hl).db.requests _ r hr
    rw [reach_funding hs (Table.mem_iff_get.mp hx) hr hp,
      reach_funding (hs.later hl) (Table.mem_iff_get.mp hx') (hid ▸ hr') (hp'.trans hp)]
  · intro t t' input input' a a' hi hi' ha ha'
    obtain ⟨r, hr, howner, hkey, -⟩ := answered_request hs ha
    obtain ⟨r', hr', howner', hkey', -⟩ := answered_request (hs.later hl) ha'
    exact hasKey_unique hs hl ⟨r, hr, howner, hi ▸ hkey⟩ ⟨r', hr', howner', hi' ▸ hkey'⟩
  · intro t input a hi ha
    obtain ⟨r, hr, howner, hkey, -⟩ := answered_request hs ha
    exact ⟨r, hr, howner, hi ▸ hkey⟩
  · intro t input a r hi hr howner hkey hdiffers ha
    rcases a with e | a
    · exact ⟨e, rfl⟩
    · -- a call that succeeds asks for the payment of the one request there is
      obtain ⟨r', hr', howner', hkey', hsame⟩ := answered_request (hs.later hl) ha
      obtain ⟨r₁, hr₁, hp₁, -⟩ :=
        (grows_later hs hl).db.requests r.id r (Table.mem_iff_get.mp hr)
      have hid := hasKey_unique hs hl ⟨r, Table.mem_iff_get.mp hr, howner, hkey⟩
        ⟨r', hr', howner', hi ▸ hkey'⟩
      rw [hid, hr'] at hr₁
      obtain rfl := Option.some.inj hr₁
      unfold Graphql.samePayment at hsame hdiffers
      rw [hp₁] at hsame
      rw [hsame] at hdiffers
      cases hdiffers
  · intro t th input e hth hr hinvoice htransfer
    exact ⟨th, hth, hr.after hinvoice htransfer⟩
  · intro t th input e hth hr newer x older hh s₀ s₁ hm
    refine moment_leavesTables hm (hr.leavesTables x ?_)
    rw [hh]
    exact List.mem_append_right newer List.mem_cons_self

namespace Sample

/-- Another payment, under the transfer that funds the first one. -/
def otherPayment : Graphql.SendInput := ⟨"lnssp-other", none, (uuid 7).print, ""⟩

/-- The client goes away, and comes back with another payment. -/
def sendAgain : List (Move (machine .sample)) :=
  .cancel 0 :: .spawn (.lightningSend "alice" otherPayment) :: calls 1 [.done, .done, .done]

/-- Is the first payment stored? -/
def storedFirst (s : Config (machine .sample)) : Bool :=
  (s.world.db.requests.get (uuid 1).print).any fun r =>
    r.owner == "alice" && r.idempotencyKey == some otherPayment.key

/-- Has the other payment been compared with a record? -/
def comparedOther (s : Config (machine .sample)) : Bool :=
  match s.thread 1 with
  | some ⟨_, [⟨.release .send, _⟩, ⟨.db (.findByIdempotency owner key), .ok (some record)⟩,
      ⟨.acquire .send false, .ok _⟩]⟩ =>
      owner == "alice" && key == otherPayment.key && !Graphql.samePayment record otherPayment
  | _ => false

def sentAgain : Reach.LongRun anyMove storedFirst comparedOther :=
  .of (fun _ _ => true) (fun _ _ _ => trivial) (sendUpTo 172800 SystemTime.epoch) sendAgain
    (by decide +kernel)

end Sample

/-- The transfer of a stored send does not pay for another one. -/
theorem sends_idempotent_mismatch : ∃ s s' : Config (machine .sample), Reach anyMove s ∧
    Later anyMove s s' ∧ s.world.db.HasKey "alice" Sample.otherPayment.key (Sample.uuid 1).print ∧
    Answered .sample s' 1 "alice" Sample.otherPayment
      (.error "idempotency key was already used for another payment") := by
  obtain ⟨s, s', hs, hl, hp, hp'⟩ := Sample.sentAgain
  obtain ⟨r, hr, he⟩ := Option.any_eq_true _ _ |>.mp hp
  simp only [Bool.and_eq_true, beq_iff_eq] at he
  have honce := sends_idempotent hs hl "alice" Sample.otherPayment.key
  refine ⟨s, s', hs, hl, ⟨r, hr, he⟩, ?_⟩
  unfold Sample.comparedOther at hp'
  split at hp'
  · next prog u owner key record _ hth =>
      simp only [Bool.and_eq_true, beq_iff_eq, Bool.not_eq_true'] at hp'
      obtain ⟨⟨rfl, rfl⟩, hdiffers⟩ := hp'
      exact honce.2.answered 1 _ _ _ hth (.mismatch record hdiffers) (by decide) (by decide +kernel)
  · cases hp'

end OpenSsp
