/-
OpenSsp/Quotes/Use.lean

How receive quotes are used, over all runs of `Quotes.machine`.

A quote id and a payment hash are bound to each other when the receive is stored, in the same
transaction; the binding stays (`Grows`).  A call that commits a quote stores its receive only after
the quote was looked up and found good in this very call (`Receives`), and a call that has not
stored its receive has written nothing.

Main result: `quotes_bound`.
-/
import OpenSsp.Quotes.Machine
import OpenSsp.ReceiveLiquidity

namespace OpenSsp

open Interleave

/-! ### The bindings -/

namespace Db

variable {db db' : Db}

/-- A quote is bound to one hash, besides a hash having one quote. -/
def QuotesDiffer (db : Db) : Prop :=
  ∀ u ∈ db.quoteUses.rows, ∀ v ∈ db.quoteUses.rows, u.quoteId = v.quoteId → u = v

/-- What entering a quote says. -/
theorem indexReceive_quote {id owner quoteId : String} {created : Nat} {p : ReceivePayload}
    (hquote : p.quoteTransferId = some quoteId)
    (h : db.indexReceive id owner created p = .ok db') :
    (∀ u ∈ db.quoteUses.rows, u.quoteId ≠ quoteId) ∧
      db.quoteUses.insert ⟨quoteId, p.paymentHash⟩ = some db'.quoteUses := by
  unfold indexReceive at h
  simp only [hquote] at h
  obtain ⟨hnew, h⟩ := guard_ok h
  obtain ⟨quoteUses, hinsert, h⟩ := bind_ok h
  obtain ⟨-, h⟩ := guard_ok h
  obtain ⟨-, h⟩ := guard_ok h
  obtain ⟨receives, -, h⟩ := bind_ok h
  obtain rfl := Except.ok.inj h
  refine ⟨fun u hu hid => hnew ?_, okOr_eq_ok.mp hinsert⟩
  exact List.any_eq_true.mpr ⟨u, hu, beq_iff_eq.mpr hid⟩

theorem insertRequest_quote {id owner quoteId : String} {created : Nat} {p : ReceivePayload}
    {u : Unit} (hquote : p.quoteTransferId = some quoteId)
    (h : db.insertRequest id owner created (.lightningReceive p) = .ok (u, db')) :
    (∀ u ∈ db.quoteUses.rows, u.quoteId ≠ quoteId) ∧
      db.quoteUses.insert ⟨quoteId, p.paymentHash⟩ = some db'.quoteUses := by
  obtain ⟨db₁, hadd, h⟩ := bind_ok h
  obtain ⟨requests, -, rfl⟩ := addRequest_ok hadd
  obtain ⟨db₂, hindex, h⟩ := bind_ok h
  obtain ⟨-, rfl⟩ := Prod.mk.inj (Except.ok.inj h)
  have hentered := indexReceive_quote hquote hindex
  exact hentered

/-- A method keeps the bindings, and makes at most one new one. -/
theorem quotes_step {q : Query} {now : Nat} {a : q.Out} (h : q.run now db = .ok (a, db')) :
    db'.quoteUses = db.quoteUses ∨ ∃ quoteId hash, (∀ u ∈ db.quoteUses.rows, u.quoteId ≠ quoteId) ∧
      db.quoteUses.insert ⟨quoteId, hash⟩ = some db'.quoteUses := by
  by_cases hwrites : .quoteUses ∉ q.writes
  · exact .inl ((run_frame h).quoteUses hwrites)
  cases q with
  | insertRequest id owner created payload =>
      obtain ⟨requests, -, ⟨-, rfl⟩ | ⟨p, qu, rc, rfl, hentered, -, rfl⟩⟩ := insertRequest_ok h
      · exact .inl rfl
      · rcases hentered with ⟨-, hsame⟩ | ⟨quoteId, hquote, -⟩
        · exact .inl hsame
        · exact .inr ⟨quoteId, p.paymentHash, insertRequest_quote hquote h⟩
  | _ => simp [Query.writes] at hwrites

theorem QuotesDiffer.step {q : Query} {now : Nat} {a : q.Out} (hdiffer : db.QuotesDiffer)
    (h : q.run now db = .ok (a, db')) : db'.QuotesDiffer := by
  rcases quotes_step h with hsame | ⟨quoteId, hash, hnew, hinsert⟩
  · rw [QuotesDiffer, hsame]
    exact hdiffer
  · intro u hu v hv huv
    rw [(Table.insert_eq_some hinsert).2] at hu hv
    rcases List.mem_cons.mp hu with rfl | hu
    · rcases List.mem_cons.mp hv with rfl | hv
      · rfl
      · exact absurd huv.symm (hnew v hv)
    · rcases List.mem_cons.mp hv with rfl | hv
      · exact absurd huv (hnew u hu)
      · exact hdiffer u hu v hv huv

/-- A binding stays. -/
theorem quoteUses_kept {q : Query} {now : Nat} {a : q.Out} (h : q.run now db = .ok (a, db'))
    {hash : String} {u : QuoteUseRow} (hu : db.quoteUses.get hash = some u) :
    db'.quoteUses.get hash = some u := by
  rcases quotes_step h with hsame | ⟨quoteId, hash', -, hinsert⟩
  · rw [hsame, hu]
  · rw [Table.get_insert hinsert, if_neg]
    · exact hu
    · rintro rfl
      rw [(Table.insert_eq_some hinsert).1] at hu
      cases hu

/-- A quote or a hash that is bound is not bound again, and the transaction leaves nothing. -/
theorem insertRequest_bound {id owner quoteId : String} {created : Nat} {p : ReceivePayload}
    (hquote : p.quoteTransferId = some quoteId) {u : QuoteUseRow} (hu : u ∈ db.quoteUses.rows)
    (hbound : u.quoteId = quoteId ∨ u.paymentHash = p.paymentHash) :
    ∃ e, db.insertRequest id owner created (.lightningReceive p) = .error e := by
  rcases h : db.insertRequest id owner created (.lightningReceive p) with e | ⟨v, db'⟩
  · exact ⟨e, rfl⟩
  · obtain ⟨hnew, hinsert⟩ := insertRequest_quote hquote h
    rcases hbound with hid | hhash
    · exact absurd hid (hnew u hu)
    · have hfree := Table.get_eq_none.mp (Table.insert_eq_some hinsert).1
      exact absurd hhash (hfree u hu)

end Db

namespace Quotes

variable {P : Primitives} {D : Deployment}

/-! ### What stays of the world -/

structure Grows (w w' : QuoteWorld) : Prop where
  now : w.base.now ≤ w'.base.now
  issued : ∀ row ∈ w.issued, row ∈ w'.issued
  used : ∀ hash u, w.base.db.quoteUses.get hash = some u →
    w'.base.db.quoteUses.get hash = some u

theorem Grows.refl (w : QuoteWorld) : Grows w w := ⟨le_rfl, fun _ h => h, fun _ _ h => h⟩

theorem Grows.trans (a b c : QuoteWorld) (h : Grows a b) (h' : Grows b c) : Grows a c :=
  ⟨h.now.trans h'.now, fun row hrow => h'.issued row (h.issued row hrow),
    fun hash u hu => h'.used hash u (h.used hash u hu)⟩

/-- No call of a program moves the clock. -/
theorem perform_now {t : Nat} {c : Call} {ch : Choice} {w w' : World} {r : c.Reply}
    (h : OpenSsp.perform D t c ch w = some (r, w')) : w'.now = w.now := by
  cases c with
  | db q =>
      rcases OpenSsp.perform_db h with ⟨a, db', -, -, rfl⟩ | ⟨e, -, rfl⟩
      · rfl
      · rfl
  | ldk c =>
      obtain ⟨n, rfl, -⟩ := perform_ldk h
      rfl
  | spark c =>
      obtain ⟨s, rfl, -⟩ := perform_spark h
      rfl
  | _ =>
      obtain ⟨ls, rfl, -⟩ := performSystem_same (h : performSystem t _ ch w = some (r, w'))
      rfl

theorem outside_now {o : Outside} {w w' : World} (h : OpenSsp.outside o w = some w') :
    w.now ≤ w'.now := by
  cases o with
  | tick n =>
      obtain rfl := Option.some.inj h
      exact Nat.le_add_right _ _
  | _ =>
      obtain ⟨x, -, rfl⟩ := Option.map_eq_some_iff.mp h
      exact le_rfl

/-- What a move can do to the tables and the quotes. -/
theorem step_world {s s' : Config (machine P D)} {m : Move (machine P D)}
    (h : s.step m = some s') :
    (s'.world.base.db = s.world.base.db ∨ ∃ (q : Query) (now : Nat) (a : q.Out),
      q.run now s.world.base.db = .ok (a, s'.world.base.db)) ∧
    s.world.base.now ≤ s'.world.base.now ∧
    ((s'.world.quotes = s.world.quotes ∧ s'.world.issued = s.world.issued) ∨
      ∃ owner input id created row, lightningReceiveQuote P D owner input id created
        s.world.base.now s.world.quotes = .ok (row, s'.world.quotes) ∧
        s'.world.issued = row :: s.world.issued) := by
  rcases Config.step_cases h with ⟨r, -, rfl⟩ | ⟨t, ch, c, k, hist, r, w, -, hth, hp, rfl⟩ |
    ⟨t, th, -, -, rfl⟩ | ⟨-, rfl⟩ | ⟨o, w, -, ho, rfl⟩
  · exact ⟨.inl rfl, le_rfl, .inl ⟨rfl, rfl⟩⟩
  · obtain ⟨⟨ch', hbase⟩, hquotes, hissued⟩ := perform_base hp
    refine ⟨?_, (perform_now hbase).ge, .inl ⟨hquotes, hissued⟩⟩
    by_cases hdb : ∃ q, c = .db q
    · obtain ⟨q, rfl⟩ := hdb
      rcases OpenSsp.perform_db hbase with ⟨a, db', hrun, -, hw⟩ | ⟨e, -, hw⟩
      · refine .inr ⟨q, s.world.base.now, a, ?_⟩
        show q.run _ _ = .ok (a, w.base.db)
        rw [hw]
        exact hrun
      · left
        show w.base.db = s.world.base.db
        rw [hw]
    · exact .inl (perform_tables hbase fun q hq => hdb ⟨q, hq⟩)
  · exact ⟨.inl rfl, le_rfl, .inl ⟨rfl, rfl⟩⟩
  · exact ⟨.inl rfl, le_rfl, .inl ⟨rfl, rfl⟩⟩
  · -- outside the programs the clock moves, the node acts, and quotes are issued
    rcases outside_base ho with ⟨o', hbase, hquotes, hissued⟩ |
      ⟨owner, input, id, created, row, hissue, hissued, hbase⟩
    · exact ⟨.inl (outside_tables hbase).1, outside_now hbase, .inl ⟨hquotes, hissued⟩⟩
    · refine ⟨.inl ?_, ?_, .inr ⟨owner, input, id, created, row, hissue, hissued⟩⟩
      · show w.base.db = s.world.base.db
        rw [hbase]
      · show s.world.base.now ≤ w.base.now
        rw [hbase]

theorem step_grows {s s' : Config (machine P D)} {m : Move (machine P D)}
    (h : s.step m = some s') : Grows s.world s'.world := by
  obtain ⟨hdb, hnow, hquotes⟩ := step_world h
  refine ⟨hnow, ?_, ?_⟩
  · intro row hrow
    rcases hquotes with ⟨-, hissued⟩ | ⟨-, -, -, -, row', -, hissued⟩
    · rw [hissued]
      exact hrow
    · rw [hissued]
      exact List.mem_cons_of_mem _ hrow
  · intro hash u hu
    rcases hdb with hsame | ⟨q, now, a, hrun⟩
    · rw [hsame]
      exact hu
    · exact Db.quoteUses_kept hrun hu

theorem later_grows {s s' : Config (machine P D)} (h : Later anyMove s s') :
    Grows s.world s'.world := by
  induction h with
  | refl => exact .refl _
  | step _ _ hstep ih => exact .trans _ _ _ ih (step_grows hstep)

/-- What holds of every world. -/
structure Known (w : QuoteWorld) : Prop where
  stored : ∀ row ∈ w.quotes.rows, row ∈ w.issued
  ids : ∀ row ∈ w.issued, ∃ u : Uuid, row.id = u.print
  differ : w.base.db.QuotesDiffer

theorem reach_known {s : Config (machine P D)} (hs : Reach anyMove s) : Known s.world := by
  induction hs with
  | start => constructor <;> intro _ h <;> cases h
  | step _ _ hstep ih =>
      obtain ⟨hdb, -, hquotes⟩ := step_world hstep
      have hdiffer := ih.differ
      constructor
      · intro row hrow
        rcases hquotes with ⟨hsame, hissued⟩ | ⟨owner, input, id, created, new, hissue, hissued⟩
        · rw [hsame] at hrow
          rw [hissued]
          exact ih.stored row hrow
        · rw [hissued]
          rcases (lightningReceiveQuote_ok hissue).2 row hrow with rfl | hold
          · exact List.mem_cons_self
          · exact List.mem_cons_of_mem _ (ih.stored row hold)
      · intro row hrow
        rcases hquotes with ⟨-, hissued⟩ | ⟨owner, input, id, created, new, hissue, hissued⟩
        · rw [hissued] at hrow
          exact ih.ids row hrow
        · rw [hissued] at hrow
          rcases List.mem_cons.mp hrow with rfl | hrow
          · exact ⟨id, (lightningReceiveQuote_ok hissue).1⟩
          · exact ih.ids row hrow
      · rcases hdb with hsame | ⟨q, now, a, hrun⟩
        · rw [hsame]
          exact hdiffer
        · exact hdiffer.step hrun

/-! ### What a call has checked -/

/-- The receive is the one that was asked for. -/
structure ForInput (D : Deployment) (owner : String) (input : Graphql.ReceiveInput)
    (p : ReceivePayload) : Prop where
  hash : p.paymentHash = lowercase input.paymentHash
  amount : p.amountSats = input.amountSats
  receiver : Graphql.requestedReceiver D owner input.receiverIdentityPubkey =
    .ok p.receiverIdentityPubkey

/-- The committed quote of the input was accepted for the receive. -/
@[reducible] def validated (owner : String) (input : Graphql.ReceiveInput) (p : ReceivePayload) :
    Event Api :=
  ⟨.validateQuote owner p.receiverIdentityPubkey p.paymentHash p.amountSats input.committedQuote,
    .ok p.quoteTransferId⟩

/-- The receive `p` was stored. -/
@[reducible] def storedEvent (id owner : String) (created : Nat) (p : ReceivePayload) : Event Api :=
  dbEvent (.insertRequest id owner created (.lightningReceive p)) ()

/-- What `RequestLightningReceive` may call. -/
def Receives (D : Deployment) (owner : String) (input : Graphql.ReceiveInput) (h : History Api) :
    Call → Prop
  | .db (.insertRequest _ owner' _ payload) => ∃ p, payload = .lightningReceive p ∧
      owner' = owner ∧ ForInput D owner input p ∧ validated owner input p ∈ h
  | .db (.setReceiveStatus ..) => ∃ id owner' created p, storedEvent id owner' created p ∈ h
  | .db q => q.writes = []
  | _ => True

/-- A receive that may be stored is, with its size checked first. -/
theorem storeRequest_receives {owner : String} {input : Graphql.ReceiveInput} {p : ReceivePayload}
    {now : Nat} {h : History Api} (hp : ForInput D owner input p)
    (hvalidated : validated owner input p ∈ h) :
    Act.Spec (Receives D owner input) anyEvent
      (Graphql.storeRequest owner now (.lightningReceive p))
      (fun id h' => storedEvent id owner now p ∈ h') h := by
  have hsized : Act.Spec (Receives D owner input) anyEvent (do
      if ← Ssp.tell (.oversized (.lightningReceive p)) then throw "request payload is too large"
      let id ← Ssp.tell .newUuid
      Ssp.db (.insertRequest id.print owner now (.lightningReceive p))
      return id.print)
      (fun id h' => storedEvent id owner now p ∈ h') h := by
    refine .bind (.tell_eq (I := Api) (c := .oversized _) trivial fun _ => trivial) ?_
    rintro big _ he rfl
    refine .guard fun _ => ?_
    refine .bind (.tell_eq (I := Api) (c := .newUuid) trivial fun _ => trivial) ?_
    rintro id _ he' rfl
    refine .bind (.ask_eq (I := Api) (c := .db (.insertRequest id.print owner now
      (.lightningReceive p))) ⟨p, rfl, rfl, hp, he'.mem (he.mem hvalidated)⟩ fun _ => trivial) ?_
    rintro ⟨⟩ _ - ⟨r, hr, rfl⟩
    have hr : r = .ok () := hr
    rw [hr]
    exact .pure List.mem_cons_self
  exact hsized

/-- A call that is answered has stored its receive. -/
theorem requestLightningReceive_receives (owner : String) (input : Graphql.ReceiveInput) :
    Act.Spec (Receives D owner input) anyEvent (Graphql.requestLightningReceive D owner input)
      (fun _ h => ∃ id created p, storedEvent id owner created p ∈ h) [] := by
  refine .bind (.tell_eq (I := Api) (c := .now) trivial fun _ => trivial) fun now h₁ _ _ => ?_
  refine .bind .ofExcept_eq fun _ h₂ _ _ => ?_
  refine .bind .ofExcept_eq fun _ h₃ _ _ => ?_
  refine .guard fun _ => ?_
  refine .bind (.ask_eq (I := Api) (c := .db (.lightningReceiveForHash _)) rfl fun _ => trivial)
    fun _ h₄ _ _ => ?_
  refine .guard fun _ => ?_
  refine .bind .ofExcept_eq fun receiver h₅ _ ⟨hreceiver, _⟩ => ?_
  refine .bind (.ask_eq (I := Api) (c := .validateQuote ..) trivial fun _ => trivial)
    fun quote h₆ _ ⟨r, hr, hvalidated⟩ => ?_
  refine .bind .ofExcept_eq ?_
  rintro expiry _ - ⟨-, rfl⟩
  -- making the invoice stores nothing
  have hinvoice : Act.Calls (fun c => ∀ h, Receives D owner input h c)
      (Ldk.createInvoice D input.amountSats (lowercase input.paymentHash) input.memo expiry) := by
    apply Act.Calls.ofExcept.bind
    intro msat
    apply Act.Calls.bind (Ssp.retryBounded_calls (.ask fun _ => trivial) (fun _ => trivial) _)
    intro invoice
    exact Act.Calls.ofExcept.bind fun _ => .pure
  refine .bind (.mapErr (hinvoice.spec (fun h c hc => hc h) _)) fun invoice h₈ he₈ _ => ?_
  -- the quote's check is still in the history when the receive is stored
  have hmem : (⟨.validateQuote owner receiver (lowercase input.paymentHash) input.amountSats
      input.committedQuote, .ok quote⟩ : Event Api) ∈ h₈ := by
    apply he₈.mem
    rw [hvalidated]
    have hr : r = .ok quote := hr
    rw [hr]
    exact List.mem_cons_self
  refine .bind (storeRequest_receives ⟨rfl, rfl, hreceiver⟩ hmem) fun id h₉ _ hstored => ?_
  refine .bind (.ask_eq (I := Api) (c := .db (.setReceiveStatus ..))
    ⟨id, owner, now, _, hstored⟩ fun _ => trivial) fun _ _ he₁₀ _ => ?_
  exact .pure ⟨id, now, _, he₁₀.mem hstored⟩

/-! ### Along a run -/

/-- Between the worlds `w` and `w'` the receive `p` was accepted for a committed quote, which was
issued to the owner for this receive, and the two are bound to each other. -/
structure Accepted (P : Primitives) (D : Deployment) (w w' : QuoteWorld) (owner : String)
    (input : Graphql.ReceiveInput) (quote : String) (p : ReceivePayload) (id : Uuid) : Prop where
  asked : ForInput D owner input p
  quoteId : p.quoteTransferId = some id.print
  committed : ∃ row now, row ∈ w'.issued ∧ row.id = id.print ∧ w.base.now ≤ now ∧
    now ≤ w'.base.now ∧ Commits P D row now owner p.receiverIdentityPubkey p.paymentHash
      p.amountSats quote
  used : w'.base.db.quoteUses.get p.paymentHash = some ⟨id.print, p.paymentHash⟩

variable {s s' : Config (machine P D)} {owner : String} {input : Graphql.ReceiveInput}

/-- The program of a call makes its calls as it may. -/
theorem spawned_receives
    (h : Later anyMove (s.spawn (Request.handler D (.lightningReceive owner input))) s')
    {c : Call} {k : Api.Reply c → Prog Api Unit} {hist : History Api}
    (hth : s'.thread s.threads.length = some ⟨.call c k, hist⟩) :
    Receives D owner input hist c := by
  have hwp : (Request.handler D (.lightningReceive owner input)).wp (Receives D owner input)
      (fun _ _ => True) [] := by
    rw [Request.handler, Prog.wp_discard]
    exact Prog.wp_mono (requestLightningReceive_receives owner input).discard.wp
      fun _ _ _ => trivial
  exact (Reach.spawned_wp (M := machine P D) hwp h _ hth).1

/-- A receive with a committed quote is stored only when the quote is good for it. -/
theorem stored_accepted (hs : Reach anyMove s)
    (h : Later anyMove (s.spawn (Request.handler D (.lightningReceive owner input))) s')
    {id owner' quote : String} {created : Nat} {p : ReceivePayload}
    (hquote : input.committedQuote = some quote)
    (he : (s.threads.length, storedEvent id owner' created p) ∈ s'.trace) :
    owner' = owner ∧ ∃ u, Accepted P D s.world s'.world owner input quote p u := by
  obtain ⟨hist, s₁, s₂, h₁, hm, h₂⟩ := hs.spawned_made h he
  obtain ⟨ch, k, hth, -, hp, -⟩ := hm.made
  obtain ⟨p', hpayload, rfl, hinput, hvalidated⟩ := spawned_receives h₁ hth
  injection hpayload with hpayload
  subst hpayload
  -- the quote was looked up earlier in this call
  have hmem := hm.reach.history_mem _ _ hth _ hvalidated
  obtain ⟨hist₀, s₃, s₄, h₃, hm₀, h₄⟩ := hs.spawned_made h₁ hmem
  obtain ⟨ch₀, k₀, -, -, hp₀, -⟩ := hm₀.made
  have hp₀ : perform P D s.threads.length (.validateQuote owner' p.receiverIdentityPubkey
    p.paymentHash p.amountSats input.committedQuote) ch₀ s₃.world =
      some (.ok p.quoteTransferId, s₄.world) := hp₀
  rw [hquote] at hp₀
  obtain ⟨hsame, hanswer⟩ := perform_validate hp₀
  rcases hanswer with hanswer | ⟨e, hanswer⟩
  swap
  · cases hanswer
  obtain ⟨row, hrow, hid, hcommits⟩ := validate_ok hanswer.symm
  have hknown := reach_known hm₀.reach
  have hissued := hknown.stored row hrow
  obtain ⟨u, hu⟩ := hknown.ids row hissued
  rw [hu] at hid
  -- the binding is entered with the receive
  have hgrows₁ : Grows s₃.world s₁.world := by
    rw [← hsame]
    exact later_grows h₄
  obtain ⟨ch', -, hstep⟩ := hm.step
  have hgrows₂ : Grows s₁.world s₂.world := step_grows hstep
  have hp := perform_db (P := P) (D := D) hp
  obtain ⟨a, db', hrun, -, hw⟩ | ⟨e, hfail, -⟩ := OpenSsp.perform_db hp
  swap
  · cases hfail
  have hdb : s₂.world.base.db = db' := congrArg World.db hw
  obtain ⟨-, hinsert⟩ := Db.insertRequest_quote hid hrun
  refine ⟨rfl, u, hinput, hid, ⟨row, s₃.world.base.now, ?_, hu, ?_, ?_, hcommits⟩, ?_⟩
  · exact (later_grows h₂).issued row (hgrows₂.issued row (hgrows₁.issued row hissued))
  · exact (later_grows h₃).now
  · exact hgrows₁.now.trans (hgrows₂.now.trans (later_grows h₂).now)
  · apply (later_grows h₂).used
    rw [hdb]
    rw [Table.get_insert hinsert, if_pos rfl]

/-- The payout of the hash uses the id of the quote. -/
theorem used_payout (hs : Reach anyMove s) {hash : String} {id : Uuid}
    (hused : s.world.base.db.quoteUses.get hash = some ⟨id.print, hash⟩) :
    Spark.receiveTransferIdOf hash (s.world.base.db.quoteForHash hash) = .ok id ∧
    ∀ t id' receiver invoice amount,
      (t, markEvent (.swapReceive id' receiver hash invoice amount)) ∈ s.trace → id' = id := by
  have hid : Spark.receiveTransferIdOf hash (s.world.base.db.quoteForHash hash) = .ok id := by
    rw [Db.quoteForHash, hused, Option.map_some]
    show (TransferId.parse id.print).mapError _ = _
    rw [TransferId.parse, Uuid.parse_print]
    rfl
  refine ⟨hid, ?_⟩
  intro t id' receiver invoice amount he
  have hpayout := reach_payout ((toBase P D).reach hs) he
  exact Except.ok.inj (hpayout.transfer.symm.trans hid)

/-- A call writes nothing before it stores its receive. -/
theorem unstored_keeps {s₁ s₂ : Config (machine P D)}
    (h : Later anyMove (s.spawn (Request.handler D (.lightningReceive owner input))) s₁)
    (hs : Reach anyMove s) {ch : Choice} (hst : s₁.step (.run s.threads.length ch) = some s₂)
    (hnone : ∀ id owner' created p, (s.threads.length, storedEvent id owner' created p) ∉ s₂.trace) :
    s₂.world.base.db = s₁.world.base.db := by
  have hspawn : Reach anyMove (s.spawn (Request.handler D (.lightningReceive owner input))) :=
    .step hs trivial (m := .spawn (.lightningReceive owner input)) rfl
  have hs₁ : Reach anyMove s₁ := hspawn.later h
  rcases Config.step_cases hst with ⟨r, he, -⟩ | ⟨t, ch, c, k, hist, r, w, he, hth, hp, rfl⟩ |
    ⟨t, th, he, -, -⟩ | ⟨he, -⟩ | ⟨o, w, he, -, -⟩
  · cases he
  · obtain ⟨rfl, rfl⟩ := Move.run.inj he
    have hcall := spawned_receives h hth
    have hunstored : ∀ id owner' created p, storedEvent id owner' created p ∉ hist := by
      intro id owner' created p hmem
      exact hnone id owner' created p
        (List.mem_cons_of_mem _ (hs₁.history_mem _ _ hth _ hmem))
    show w.base.db = s₁.world.base.db
    by_cases hdb : ∃ q, c = .db q
    · obtain ⟨q, rfl⟩ := hdb
      rcases OpenSsp.perform_db (perform_db (P := P) hp) with ⟨a, db', hrun, hr, hw⟩ | ⟨e, -, hw⟩
      swap
      · rw [hw]
      rw [hw]
      show db' = s₁.world.base.db
      cases q with
      | insertRequest id owner' created payload =>
          obtain ⟨p, rfl, -, -⟩ := hcall
          -- it would be stored now
          subst hr
          exact absurd List.mem_cons_self (hnone id owner' created p)
      | setReceiveStatus hash status =>
          obtain ⟨id, owner', created, p, hmem⟩ := hcall
          exact absurd hmem (hunstored id owner' created p)
      | _ => exact Db.run_reads hrun hcall
    · obtain ⟨⟨ch', hbase⟩, -, -⟩ := perform_base hp
      exact perform_tables hbase fun q hq => hdb ⟨q, hq⟩
  · cases he
  · cases he
  · cases he

/-- A receive whose quote or hash is bound already is refused, and nothing changes. -/
theorem bound_refused {t : Nat} {id owner' quoteId : String} {created : Nat} {p : ReceivePayload}
    {ch : Choice} (hnext : s.next t = some (.db (.insertRequest id owner' created
      (.lightningReceive p))))
    (hquote : p.quoteTransferId = some quoteId) {u : QuoteUseRow}
    (hu : u ∈ s.world.base.db.quoteUses.rows)
    (hbound : u.quoteId = quoteId ∨ u.paymentHash = p.paymentHash)
    (hst : s.step (.run t ch) = some s') : s'.world = s.world ∧ ∃ e, s'.trace =
      (t, ⟨.db (.insertRequest id owner' created (.lightningReceive p)), .error e⟩) :: s.trace := by
  rcases Config.step_cases hst with ⟨r, he, -⟩ | ⟨t, ch, c, k, hist, r, w, he, hth, hp, rfl⟩ |
    ⟨t, th, he, -, -⟩ | ⟨he, -⟩ | ⟨o, w, he, -, -⟩
  · cases he
  · obtain ⟨rfl, rfl⟩ := Move.run.inj he
    rw [Config.next, hth] at hnext
    obtain rfl := Option.some.inj hnext
    have hp : perform P D t (.db (.insertRequest id owner' created (.lightningReceive p))) ch
      s.world = some (r, w) := hp
    have hbase := perform_db hp
    obtain ⟨-, hquotes, hissued⟩ := perform_base hp
    rcases OpenSsp.perform_db hbase with ⟨a, db', hrun, -, -⟩ | ⟨e, rfl, hw⟩
    · obtain ⟨e, hfails⟩ : ∃ e, s.world.base.db.insertRequest id owner' created
          (.lightningReceive p) = .error e := Db.insertRequest_bound hquote hu hbound
      exact absurd (hfails.symm.trans hrun) (by simp)
    · exact ⟨QuoteWorld.ext hw hquotes hissued, e, rfl⟩
  · cases he
  · cases he
  · cases he

/-- **A receive quote is used once.**  Of the quotes that are bound no two have one id or one hash.
A call answers only after it stored its receive; when it came with a committed quote, then the
submitted manifest was that of a quote issued to the owner for this receive, good and attested at
some time of the call, and ever after the payout of the hash has the quote's id.  A call that has
not stored its receive has left no row behind, and binding a quote or a hash again is refused. -/
theorem quotes_bound {s : Config (machine P D)} (hs : Reach anyMove s) :
    (∀ u ∈ s.world.base.db.quoteUses.rows, ∀ v ∈ s.world.base.db.quoteUses.rows,
      (u.quoteId = v.quoteId ↔ u.paymentHash = v.paymentHash)) ∧
    (∀ owner input,
      Act.Spec (fun _ _ => True) anyEvent (Graphql.requestLightningReceive D owner input)
        (fun _ h => ∃ id created p, storedEvent id owner created p ∈ h) [] ∧
      ∀ s', Later anyMove (s.spawn (Request.handler D (.lightningReceive owner input))) s' →
        (∀ id owner' created p quote, input.committedQuote = some quote →
          (s.threads.length, storedEvent id owner' created p) ∈ s'.trace →
          owner' = owner ∧ ∃ u, Accepted P D s.world s'.world owner input quote p u ∧
            ∀ s'', Later anyMove s' s'' →
              s''.world.base.db.quoteUses.get p.paymentHash = some ⟨u.print, p.paymentHash⟩ ∧
              Spark.receiveTransferIdOf p.paymentHash
                (s''.world.base.db.quoteForHash p.paymentHash) = .ok u ∧
              ∀ t id' receiver invoice amount,
                (t, markEvent (.swapReceive id' receiver p.paymentHash invoice amount)) ∈
                  s''.trace → id' = u) ∧
        ∀ ch s₂, s'.step (.run s.threads.length ch) = some s₂ →
          (∀ id owner' created p,
            (s.threads.length, storedEvent id owner' created p) ∉ s₂.trace) →
          s₂.world.base.db = s'.world.base.db) ∧
    ∀ t id owner created p quoteId u ch s', s.next t = some (.db (.insertRequest id owner created
        (.lightningReceive p))) → p.quoteTransferId = some quoteId →
      u ∈ s.world.base.db.quoteUses.rows → u.quoteId = quoteId ∨ u.paymentHash = p.paymentHash →
      s.step (.run t ch) = some s' → s'.world = s.world ∧ ∃ e, s'.trace =
        (t, ⟨.db (.insertRequest id owner created (.lightningReceive p)), .error e⟩) :: s.trace := by
  refine ⟨?_, ?_, ?_⟩
  · intro u hu v hv
    constructor
    · -- the rows of `quote_uses` are unique in both columns
      intro hid
      rw [(reach_known hs).differ u hu v hv hid]
    · intro hhash
      rw [Table.eq_of_key hu hv hhash]
  · intro owner input
    refine ⟨(requestLightningReceive_receives owner input).contract fun _ _ _ => trivial, ?_⟩
    intro s' h
    constructor
    · intro id owner' created p quote hquote he
      obtain ⟨howner, u, haccepted⟩ := stored_accepted hs h hquote he
      refine ⟨howner, u, haccepted, ?_⟩
      intro s'' h'
      have hspawn : Reach anyMove (s.spawn (Request.handler D (.lightningReceive owner input))) :=
        .step hs trivial (m := .spawn (.lightningReceive owner input)) rfl
      have hused := (later_grows h').used _ _ haccepted.used
      exact ⟨hused, used_payout ((hspawn.later h).later h') hused⟩
    · -- a failed request has not stored its receive, and has kept no quote
      intro ch s₂ hst hnone
      exact unstored_keeps h hs hst hnone
  · intro t id owner created p quoteId u ch s' hnext hquote hu hbound hst
    exact bound_refused hnext hquote hu hbound hst

/-! ### A quote that is used -/

namespace Sample

/-- The manifest of the quote below. -/
def manifest : TransferManifest where
  version := 1
  transferId := (OpenSsp.Sample.uuid 9).print
  network := 1
  transferExpiryTime := none
  edges := [⟨[], [], some (some (.sats 1))⟩]
  fees := []
  quoteExpiryTime := some 300

/-- One message, one digest, and a wallet whose signature is always right. -/
def primitives : Primitives where
  networkNumber _ := 1
  keyBytes _ := []
  encode _ := [1]
  decode _ := some manifest
  hashTransferManifest := .ok
  quoteEnvelopeDigest _ _ _ _ _ := .ok (List.replicate 32 0)
  receiveAttestorTarget := .ok
  fromDer der := some ⟨der⟩
  normalizeS signature := signature
  verifyEcdsa _ _ _ := true
  quoteText _ key := if key = "serialized_manifest" then some "01" else some "00"

def receive : Graphql.ReceiveInput := ⟨1, "", OpenSsp.Sample.hash, "", "", none, some "quote"⟩

/-- The call is running and the quote is issued; then the call goes on to its end. -/
def useQuote : List (Move (machine primitives .sample)) :=
  .outside (.issue "alice" ⟨1, "", none⟩ (OpenSsp.Sample.uuid 9) 0) ::
  Move.runs 0 [.done, .done, .done, .text ("lnssp" ++ OpenSsp.Sample.hash), .flag false,
    .flag false, .uuid (OpenSsp.Sample.uuid 1), .done, .done]

/-- The first program has stored a receive. -/
def storing : Nat × Event Api → Bool
  | (0, ⟨.db (.insertRequest _ _ _ (.lightningReceive _)), .ok _⟩) => true
  | _ => false

theorem storing_eq_true {x : Nat × Event Api} (h : storing x = true) :
    ∃ id owner created p, x = (0, storedEvent id owner created p) := by
  unfold storing at h
  split at h
  · exact ⟨_, _, _, _, rfl⟩
  · cases h

end Sample

/-- The call stored the receive, and the payout of its hash has the id of the quote. -/
theorem quotes_bound_used : ∃ (s' : Config (machine Sample.primitives .sample)) (id owner : String)
    (created : Nat) (p : ReceivePayload) (u : Uuid),
    Later anyMove ((Config.start _).spawn
      (Request.handler .sample (.lightningReceive "alice" Sample.receive))) s' ∧
    (0, storedEvent id owner created p) ∈ s'.trace ∧
    Accepted Sample.primitives .sample (Config.start (machine Sample.primitives .sample)).world
      s'.world "alice" Sample.receive "quote" p u ∧
    Spark.receiveTransferIdOf p.paymentHash (s'.world.base.db.quoteForHash p.paymentHash) =
      .ok u := by
  have hrun : (Reach.runMoves (fun _ _ => true) Sample.useQuote
      ((Config.start (machine Sample.primitives .sample)).spawn
        (Request.handler .sample (.lightningReceive "alice" Sample.receive)))).any
      (fun s => s.trace.any Sample.storing) = true := by decide +kernel
  obtain ⟨s', hs', hstored⟩ := Option.any_eq_true _ _ |>.mp hrun
  have hlater : Later anyMove _ s' := Reach.later_of_runMoves (fun _ _ _ => trivial) .refl hs'
  obtain ⟨x, hmem, hx⟩ := List.any_eq_true.mp hstored
  obtain ⟨id, owner, created, p, rfl⟩ := Sample.storing_eq_true hx
  obtain ⟨-, hcalls, -⟩ := quotes_bound (P := Sample.primitives) (D := .sample) Reach.start
  obtain ⟨-, hcall⟩ := hcalls "alice" Sample.receive
  obtain ⟨haccepts, -⟩ := hcall s' hlater
  obtain ⟨-, u, haccepted, hpayout⟩ := haccepts id owner created p "quote" rfl hmem
  exact ⟨s', id, owner, created, p, u, hlater, hmem, haccepted, (hpayout s' .refl).2.1⟩

end Quotes

end OpenSsp
