/-
OpenSsp/SparkContract.lean

The functions of `Spark.lean` obey the contract: rules for the program's own combinators
first, then one lemma for each function, which says what its result is evidence of and
which parts of the world it may have changed.

Main results: `verifyLightningSend_meets`, `verifyBolt12Send_meets` (what the funding
checks establish), `settleLightningSend_meets`, `refundBolt12Send_meets` (what a settled
or refunded send leaves behind), `swapForLightningReceive_meets` and `fillSwap_meets`
(what the operators are asked for).
-/
import OpenSsp.Contract

namespace OpenSsp

open Interleave

/-- The action obeys the contract of the program, with the footprint `q`. -/
abbrev Meets (D : Deployment) {α : Type} (q : Event Api → Prop) (x : Ssp α)
    (R : α → History Api → Prop) (h : History Api) : Prop :=
  Act.Spec (Justified D) q x R h

/-- What the footprint leaves alone: `R` stays true. -/
def Stable {α : Type} (q : Event Api → Prop) (R : α → History Api → Prop) : Prop :=
  ∀ a x h, q x → R a h → R a (x :: h)

/-- What is about one event of the history outlasts every other. -/
theorem Stable.mem {α : Type} {q : Event Api → Prop} (e : α → Event Api) :
    Stable q fun a h => e a ∈ h := fun _ _ _ _ hm => List.mem_cons_of_mem _ hm

/-! ### Rules for the combinators of the program -/

namespace Meets

variable {D : Deployment} {α β : Type} {q : Event Api → Prop} {h : History Api}
  {R : α → History Api → Prop}

/-- A query, with what its answer establishes. -/
theorem db {c : Query} {R : c.Out → History Api → Prop} (hc : Justified D h (.db c))
    (hq : ∀ r, q ⟨.db c, r⟩) (hR : ∀ a, R a (dbEvent c a :: h)) : Meets D q (Ssp.db c) R h := by
  refine Act.Spec.ask hc hq fun r a hr => ?_
  obtain rfl : r = .ok a := hr
  exact hR a

/-- A call of the node, with what its answer establishes. -/
theorem ldk {c : LdkCall} {R : c.Out → History Api → Prop} (hc : Justified D h (.ldk c))
    (hq : ∀ r, q ⟨.ldk c, r⟩) (hR : ∀ a, R a (ldkEvent c a :: h)) :
    Meets D q (Ssp.ldk c) R h := by
  refine Act.Spec.ask hc hq fun r a hr => ?_
  obtain rfl : r = .ok a := hr
  exact hR a

/-- A call of the operators, with what its answer establishes. -/
theorem spark {c : SparkCall} {R : c.Out → History Api → Prop} (hc : Justified D h (.spark c))
    (hq : ∀ r, q ⟨.spark c, r⟩) (hR : ∀ a, R a (sparkEvent c a :: h)) :
    Meets D q (Ssp.spark c) R h := by
  refine Act.Spec.ask hc hq fun r a hr => ?_
  obtain rfl : r = .ok a := hr
  exact hR a

theorem tell {c : Call} {R : c.Reply → History Api → Prop} (hc : Justified D h c)
    (hq : ∀ r, q ⟨c, r⟩) (hR : ∀ r, R r (⟨c, r⟩ :: h)) : Meets D q (Ssp.tell c) R h :=
  Act.Spec.tell (I := Api) hc hq hR

/-- The exact rule: what the history is afterwards. -/
theorem db_eq (c : Query) (hc : Justified D h (.db c)) (hq : ∀ r, q ⟨.db c, r⟩) :
    Meets D q (Ssp.db c) (fun a h' => h' = dbEvent c a :: h) h := db hc hq fun _ => rfl

/-- The history after a call of the node. -/
theorem ldk_eq (c : LdkCall) (hc : Justified D h (.ldk c)) (hq : ∀ r, q ⟨.ldk c, r⟩) :
    Meets D q (Ssp.ldk c) (fun a h' => h' = ldkEvent c a :: h) h := ldk hc hq fun _ => rfl

/-- A remote call whose answer the program does not use. -/
theorem spark_any {c : SparkCall} (hc : Justified D h (.spark c)) (hq : ∀ r, q ⟨.spark c, r⟩) :
    Meets D q (Ssp.spark c) (fun _ _ => True) h := spark hc hq fun _ => trivial

theorem tell_any {c : Call} (hc : Justified D h c) (hq : ∀ r, q ⟨c, r⟩) :
    Meets D q (Ssp.tell c) (fun _ _ => True) h := tell hc hq fun _ => trivial

theorem db_any {c : Query} (hc : Justified D h (.db c)) (hq : ∀ r, q ⟨.db c, r⟩) :
    Meets D q (Ssp.db c) (fun _ _ => True) h := db hc hq fun _ => trivial

theorem mark {m : Mark} {R : Unit → History Api → Prop} (hc : MarkGround D h m)
    (hq : q (markEvent m)) (hR : R () (markEvent m :: h)) : Meets D q (Ssp.mark m) R h :=
  tell hc (fun _ => hq) fun _ => hR

theorem ofExcept {r : Except String α} (hR : ∀ a, r = .ok a → R a h) :
    Meets D q (Ssp.ofExcept r) R h := Act.Spec.ofExcept hR

theorem ofExcept_eq {r : Except String α} :
    Meets D q (Ssp.ofExcept r) (fun a h' => r = .ok a ∧ h' = h) h := ofExcept fun _ ha => ⟨ha, rfl⟩

/-- A check that ends the function with an error. -/
theorem guard {c : Prop} [Decidable c] {e : String} {k : Unit → Ssp α}
    (hk : ¬ c → Meets D q (k ()) R h) :
    Meets D q (if c then (throw e : Ssp Unit) >>= k else k ()) R h := Act.Spec.guard hk

/-- A branch on a condition of the program's own. -/
theorem ite {c : Prop} [Decidable c] {x y : Ssp α} (hx : c → Meets D q x R h)
    (hy : ¬ c → Meets D q y R h) : Meets D q (if c then x else y) R h := Act.Spec.ite hx hy

theorem mapErr {f : String → String} {x : Ssp α} (hx : Meets D q x R h) :
    Meets D q (Ssp.mapErr f x) R h := Act.Spec.mapErr hx

theorem timeout {x : Ssp α} (hx : Meets D q x R h) (hq : ∀ b, q ⟨.timedOut, b⟩)
    (hR : Stable q R) : Meets D q (Ssp.timeout x) R h := by
  refine Act.Spec.bind hx.attempt fun r h' _ hr => ?_
  refine Act.Spec.bind (tell trivial hq (R := fun _ h'' => ∀ a, r = .ok a → R a h'') ?_) ?_
  · exact fun b a ha => hR a _ h' (hq b) (hr a ha)
  · exact fun b h'' _ hr' => guard fun _ => ofExcept hr'

theorem retryBounded {x : Ssp α} {delays : List Nat}
    (hx : ∀ h', Extends q h h' → Meets D q x R h') (hq : ∀ b, q ⟨.timedOut, b⟩)
    (hR : Stable q R) : Meets D q (x.retryBounded delays) R h := by
  induction delays generalizing h with
  | nil => exact timeout (hx h (.refl h)) hq hR
  | cons d delays ih =>
      refine Act.Spec.bind (timeout (hx h (.refl h)) hq hR).attempt fun r h' he hr => ?_
      rcases r with e | a
      · exact ih fun h'' he' => hx h'' (he.trans he')
      · exact Act.Spec.pure (hr a rfl)

/-- A section under a lock: the body's result has to outlast the release. -/
theorem locked {l : Lock} {b : Bool} {x : Ssp α}
    (hx : Meets D q x R (⟨Call.acquire l b, Except.ok ()⟩ :: h))
    (hacq : ∀ r, q ⟨.acquire l b, r⟩) (hrel : ∀ r, q ⟨.release l, r⟩) (hR : Stable q R) :
    Meets D q (Ssp.locked l b x) R h := by
  refine Act.Spec.bracket (Act.Spec.ask (I := Api) (c := Call.acquire l b) trivial hacq
    (R := fun _ h' => h' = ⟨Call.acquire l b, Except.ok ()⟩ :: h) ?_) ?_ fun h' _ => ?_
  · rintro r ⟨⟩ hr
    obtain rfl : r = .ok () := hr
    rfl
  · rintro h' - rfl
    exact hx
  · exact tell trivial hrel fun u a ha => hR a _ h' (hrel u) ha

theorem validateQuote {owner receiver hash : String} {amount : Nat} {quote : Option String}
    (hq : ∀ r, q ⟨.validateQuote owner receiver hash amount quote, r⟩) :
    Meets D q (Ssp.validateQuote owner receiver hash amount quote) (fun _ _ => True) h :=
  Act.Spec.ask (I := Api) (c := Call.validateQuote owner receiver hash amount quote) trivial hq
    fun _ _ _ => trivial

end Meets

namespace Spark

variable {D : Deployment} {h : History Api}

/-! ### Looking transfers up -/

/-- The operators have answered a query for this HTLC; the answer is still current. -/
def QueriedHtlc (h : History Api) (outbound hash : String) (items : List PreimageRequest) :
    Prop :=
  Since (Keeps []) (sparkEvent (.queryHtlc outbound (lowercase hash) .receiver) items) h

/-- A matching HTLC is of the hash and has a transfer. -/
theorem matchesHtlc_eq {outbound hash : String} {request : PreimageRequest}
    (hm : matchesHtlc outbound hash request = true) :
    request.paymentHash.text = lowercase hash ∧
      ∃ t, request.transfer = some t ∧ t.id.print = outbound := by
  simp only [matchesHtlc, Bool.and_eq_true, beq_iff_eq] at hm
  rcases ht : request.transfer with - | t
  · simp [ht] at hm
  · exact ⟨hm.1, t, rfl, by simpa [ht] using hm.2⟩

/-- An HTLC that is found was in the operators' answer. -/
theorem findHtlc_meets (outbound hash : String) :
    Meets D (Keeps []) (findHtlc outbound hash)
      (fun o h' => ∀ q, o = some q → ∃ items,
        h' = sparkEvent (.queryHtlc outbound (lowercase hash) .receiver) items :: h ∧
        q ∈ items ∧ matchesHtlc outbound hash q = true) h := by
  refine Act.Spec.bind (Meets.spark (c := .queryHtlc outbound (lowercase hash) .receiver)
    (R := fun items h' => h' = sparkEvent (.queryHtlc outbound (lowercase hash) .receiver) items ::
      h) trivial (fun _ _ _ => rfl) fun _ => rfl) ?_
  intro items h' _ hm
  refine Act.Spec.pure fun q hq => ⟨items, hm, List.mem_of_find?_eq_some hq, ?_⟩
  exact List.find?_some hq

/-- A transfer that is found was in the operators' answer. -/
theorem findTransfer_meets (id : Uuid) :
    Meets D (Keeps []) (findTransfer id)
      (fun o h' => ∀ t, o = some t → sparkEvent (.getTransfer id) (some t) ∈ h') h := by
  refine Meets.spark trivial (fun _ _ _ => rfl) fun a t ht => ?_
  rw [ht]
  exact List.mem_cons_self

/-- A bounded poll: what one look establishes, the loop does. -/
theorem pollLoop_meets {α : Type} {look : Ssp (Option α)} {e : String} {n : Nat}
    {R : α → History Api → Prop}
    (hlook : ∀ h, Meets D (Keeps []) look (fun o h' => ∀ a, o = some a → R a h') h) :
    Meets D (Keeps []) (pollLoop look e n) R h := by
  induction n generalizing h with
  | zero =>
      refine Act.Spec.bind (hlook h).attempt fun r h' _ hr => ?_
      rcases r with e | - | a
      · exact Act.Spec.throw
      · exact Act.Spec.throw
      · exact Act.Spec.pure (hr _ rfl a rfl)
  | succ n ih =>
      refine Act.Spec.bind (hlook h).attempt fun r h' _ hr => ?_
      rcases r with e | - | a
      · exact ih
      · exact ih
      · exact Act.Spec.pure (hr _ rfl a rfl)

/-- The awaited transfer was reported. -/
theorem waitForTransfer_meets (id : Uuid) :
    Meets D (Keeps []) (waitForTransfer id)
      (fun t h' => sparkEvent (.getTransfer id) (some t) ∈ h') h := by
  refine Act.Spec.bind (Meets.tell_any trivial fun _ _ _ => rfl) fun n h' _ _ => ?_
  exact pollLoop_meets fun h => findTransfer_meets id

/-- The awaited transfer was reported as completed. -/
theorem waitForCompletedTransfer_meets (id : Uuid) :
    Meets D (Keeps []) (waitForCompletedTransfer id)
      (fun t h' => sparkEvent (.getTransfer id) (some t) ∈ h' ∧ t.status = .completed) h := by
  refine Act.Spec.bind (Meets.tell_any trivial fun _ _ _ => rfl) fun n h' _ _ => ?_
  refine pollLoop_meets fun h => ?_
  refine Act.Spec.bind (Meets.spark_any (c := .sync) trivial fun _ _ _ => rfl).attempt
    fun _ h₁ _ _ => ?_
  refine Act.Spec.bind (findTransfer_meets id) fun o h₂ _ ho => ?_
  refine Act.Spec.pure fun t ht => ?_
  obtain ⟨hot, hs⟩ := Option.filter_eq_some_iff.mp ht
  exact ⟨ho t hot, by simpa using hs⟩

/-! ### Funding of sends -/

/-- A verified HTLC is one of the operators' answer and pays what is due. -/
theorem verifyLightningSend_meets (owner outbound hash : String) (amount : Nat) :
    Meets D (Keeps []) (verifyLightningSend D owner outbound hash amount)
      (fun cap h' => ∃ items q t now,
        h' = ⟨Call.systemTime, now⟩ ::
          sparkEvent (.queryHtlc outbound (lowercase hash) .receiver) items :: h ∧
        VerifiedHtlc D owner outbound hash amount items q t now cap) h := by
  refine Act.Spec.bind (findHtlc_meets outbound hash) fun o h₁ _ ho => ?_
  refine Act.Spec.bind Meets.ofExcept_eq ?_
  rintro q _ - ⟨hq, rfl⟩
  obtain ⟨items, rfl, hmem, hmatch⟩ := ho q (okOr_eq_ok.mp hq)
  obtain ⟨hhash, t, ht, hid⟩ := matchesHtlc_eq hmatch
  refine Act.Spec.bind Meets.ofExcept_eq ?_
  rintro t' _ - ⟨ht', rfl⟩
  obtain rfl : t = t' := Option.some.inj (ht.symm.trans (okOr_eq_ok.mp ht'))
  refine Meets.guard fun hwaiting => ?_
  refine Act.Spec.bind Meets.ofExcept_eq ?_
  rintro key _ - ⟨hkey, rfl⟩
  have hparse : D.parsePublicKey (lowercase owner) = .ok key := by
    rcases hp : D.parsePublicKey (lowercase owner) with e | k
    · simp [hp, Except.mapError] at hkey
    · rw [hp] at hkey
      exact hkey
  refine Act.Spec.bind (Act.Spec.tell_eq (I := Api) (c := .systemTime) trivial
    fun _ _ _ => rfl) ?_
  rintro now _ - rfl
  refine Meets.ofExcept fun cap hcap => ⟨items, q, t, now, rfl, hmem, hhash, ht, hid, ?_, key,
    hparse, hcap⟩
  push Not at hwaiting
  exact ⟨hwaiting.1, by simpa using hwaiting.2⟩

/-- Reading the clock does not make the answer old. -/
theorem queriedHtlc_clock {outbound hash : String} {items : List PreimageRequest}
    {now : SystemTime} :
    QueriedHtlc (⟨Call.systemTime, now⟩ ::
      sparkEvent (.queryHtlc outbound (lowercase hash) .receiver) items :: h) outbound hash
      items :=
  Since.here.cons fun _ _ => rfl

/-- A verified offer transfer is one of the operators' answer and pays what is due. -/
theorem verifyBolt12Send_meets (owner outbound : String) (amount : Nat) :
    Meets D (Keeps []) (verifyBolt12Send D owner outbound amount)
      (fun _ h' => ∃ u t, sparkEvent (.getTransfer u) (some t) ∈ h' ∧
        FundsBolt12 D owner outbound amount u t) h := by
  refine Act.Spec.bind (Meets.ofExcept (R := fun u _ => Uuid.parse outbound = some u)
    fun u hu => okOr_eq_ok.mp hu) fun u h₁ _ hu => ?_
  refine Act.Spec.bind (waitForCompletedTransfer_meets u) fun t h₂ _ ht => ?_
  refine Act.Spec.bind (Meets.ofExcept (R := fun key _ => D.parsePublicKey owner = .ok key)
    fun _ hk => hk) fun key h₃ he₃ hkey => ?_
  refine Act.Spec.bind (Meets.ofExcept
    (R := fun _ _ => validateTransfer t key D.identity amount = .ok ()) fun _ hv => hv)
    fun _ h₄ he₄ hv => ?_
  have hmem := he₄.mem (he₃.mem ht.1)
  by_cases htype : t.transferType = .transfer
  · rw [if_neg (not_not.mpr htype)]
    exact Act.Spec.pure ⟨u, t, hmem, hu, ht.2, htype, key, hkey, hv⟩
  · rw [if_pos htype]
    exact Act.Spec.throw

/-- The refund of a prepayment, and what it leaves in the history. -/
theorem refundBolt12Send_meets {owner outbound : String} {amount : Nat}
    (hmark : MarkGround D h (.refund owner outbound amount)) :
    Meets D anyEvent (refundBolt12Send D owner outbound amount)
      (fun _ h' => Refunded D h' owner outbound amount) h := by
  refine Act.Spec.bind (Meets.mark (m := .refund owner outbound amount)
    (R := fun _ h' => h' = markEvent (.refund owner outbound amount) :: h)
    hmark trivial rfl) ?_
  rintro _ h₁ - rfl
  refine Act.Spec.mono (p := Keeps []) (Meets.locked (l := .liquidity) ?_ (fun _ _ _ => rfl)
    (fun _ _ _ => rfl) ?_) (fun _ _ => trivial) fun _ _ _ hr => hr
  · refine Act.Spec.bind (Meets.spark_any trivial fun _ _ _ => rfl) fun _ h₂ he₂ _ => ?_
    refine Act.Spec.bind (Meets.ofExcept (R := fun key _ => D.parsePublicKey owner = .ok key)
      fun _ hk => hk) fun key h₃ he₃ hkey => ?_
    refine Act.Spec.bind (findTransfer_meets _) fun o h₄ he₄ ho => ?_
    -- both branches end with the check of the transfer they found or made
    have hcheck : ∀ t h, (sparkEvent (.getTransfer (refundTransferId outbound)) (some t) ∈ h ∨
        sparkEvent (.transfer amount key (refundTransferId outbound)) t ∈ h) →
        Meets D (Keeps []) (do
          Ssp.ofExcept (validateTransfer t D.identity key amount)
          pure t.id.print) (fun _ h' => Refunded D h' owner outbound amount) h := by
      intro t h ht
      refine Act.Spec.bind (Meets.ofExcept
        (R := fun _ _ => validateTransfer t D.identity key amount = .ok ()) fun _ hv => hv)
        fun _ h₅ he₅ hv => ?_
      exact Act.Spec.pure ⟨key, t, hkey, hv, ht.imp he₅.mem he₅.mem⟩
    rcases o with - | t
    · refine Act.Spec.bind (Meets.mapErr (Meets.spark
        (c := .transfer amount key (refundTransferId outbound))
        (R := fun t h' => sparkEvent (.transfer amount key (refundTransferId outbound)) t ∈ h')
        ?_ (fun _ _ _ => rfl) fun _ => List.mem_cons_self)) fun t h₅ _ ht => hcheck t h₅ (.inr ht)
      have hmark : Latest (⟨Call.acquire .liquidity false, Except.ok ()⟩ ::
          markEvent (.refund owner outbound amount) :: h)
          (markEvent (.refund owner outbound amount)) := .cons .here rfl
      exact .refund owner outbound (hmark.after (p := .bound)
        (((he₂.trans he₃).trans he₄).mono fun _ => Keeps.quiet (by decide))) hkey rfl
    · exact hcheck t h₄ (.inl (ho t rfl))
  · rintro _ x h' _ ⟨key, t, hkey, hv, hm'⟩
    exact ⟨key, t, hkey, hv, hm'.imp (List.mem_cons_of_mem _) (List.mem_cons_of_mem _)⟩

/-- A settled send has its funding in the history. -/
theorem settleLightningSend_meets (outbound hash preimage : String) :
    Meets D (Keeps []) (settleLightningSend outbound hash preimage)
      (fun _ h' => SettledFunding h' outbound hash) h := by
  refine Act.Spec.bind (Meets.ofExcept (R := fun _ _ => True) fun _ _ => trivial)
    fun p h₁ _ _ => ?_
  refine Meets.guard fun hhash => ?_
  refine Act.Spec.bind (findHtlc_meets outbound hash) fun o h₂ _ ho => ?_
  refine Act.Spec.bind (Meets.ofExcept (R := fun q _ => o = some q)
    fun q hq => okOr_eq_ok.mp hq) fun q h₃ he₃ hq => ?_
  obtain ⟨items, rfl, hmem, hmatch⟩ := ho q hq
  obtain ⟨hqhash, t, ht, hid⟩ := matchesHtlc_eq hmatch
  refine Meets.ite (fun hc => ?_) fun _ => ?_
  · -- the operators have the preimage already
    obtain ⟨hs, hp, hcommitted⟩ := hc
    obtain ⟨p', hp'⟩ := Option.isSome_iff_exists.mp hp
    refine Act.Spec.pure (.shared items q t p' (he₃.mem List.mem_cons_self) hmem hqhash hs hp' ht hid ?_)
    simpa [ht] using hcommitted
  · refine Meets.guard fun _ => ?_
    refine Act.Spec.bind (Meets.spark (c := .claimHtlc p)
      (R := fun t h' => sparkEvent (.claimHtlc p) t ∈ h') trivial (fun _ _ _ => rfl)
      fun _ => List.mem_cons_self) fun t' h₄ _ ht' => ?_
    refine Meets.guard fun hid' => ?_
    refine Meets.ite (fun _ => Act.Spec.throw) fun hcommitted => ?_
    exact Act.Spec.pure (.claimed p t' ht' (not_not.mp hhash) (not_not.mp hid')
      (by simpa using hcommitted))

/-! ### Paying receives -/

/-- The id of a receive's transfer is the quote's, or it is read off the hash. -/
theorem receiveTransferId_meets (hash : String) :
    Meets D (Keeps []) (receiveTransferId hash)
      (fun id h' => ∃ quote, h' = dbEvent (.quoteForHash hash) quote :: h ∧
        receiveTransferIdOf hash quote = .ok id) h := by
  refine Act.Spec.bind (Meets.db (c := .quoteForHash hash)
    (R := fun quote h' => h' = dbEvent (.quoteForHash hash) quote :: h) trivial
    (fun _ _ _ => rfl) fun _ => rfl) fun quote h₁ _ hq => ?_
  exact Meets.ofExcept fun id hid => ⟨quote, hq, hid⟩

/-- A reported transfer that passes the checks of a payout. -/
theorem executed_of {t : Transfer} {key : PublicKey} {receiver : String} {amount : Nat}
    (ht : ReportedTransfer h t) (hkey : D.parsePublicKey receiver = .ok key)
    (hv : validateTransfer t D.identity key amount = .ok ()) :
    Executed D h t.id.print receiver amount := by
  obtain ⟨hs, hr, ha⟩ := validateTransfer_ok hv
  exact ⟨key, t, hkey, ht, rfl, hs, hr, ha⟩

/-- A transfer that a lookup has just found, in the work on an offer. -/
theorem findTransfer_reports {offerId hash : String}
    (hw : Latest h (markEvent (.payOffer offerId hash))) (id : Uuid) :
    Meets D (Keeps []) (findTransfer id) (fun o h' => ∀ t, o = some t → ReportedTransfer h' t) h := by
  refine Meets.spark trivial (fun _ _ _ => rfl) fun a t ht => ?_
  subst ht
  exact .found id offerId hash [] h rfl hw

/-- The payout of an offer. -/
theorem settleLightningReceive_meets {offerId hash : String} {r : LightningReceive}
    (hg : OfferGround h offerId hash r) :
    Meets D (Keeps []) (settleLightningReceive D r.receiver hash r.amountSats)
      (fun id h' => Executed D h' id r.receiver r.amountSats) h := by
  refine Meets.locked ?_ (fun _ _ _ => rfl) (fun _ _ _ => rfl) ?_
  · refine Act.Spec.bind (Meets.spark_any trivial fun _ _ _ => rfl) fun _ h₁ he₁ _ => ?_
    refine Act.Spec.bind (receiveTransferId_meets hash) fun id h₂ he₂ hid => ?_
    refine Act.Spec.bind (Meets.ofExcept (R := fun key _ => D.parsePublicKey r.receiver = .ok key)
      fun _ hk => hk) fun key h₃ he₃ hkey => ?_
    -- the offer is still the work at hand
    have hwork : ∀ {h'}, Extends (Keeps []) h₁ h' → Latest h' (markEvent (.payOffer offerId hash)) :=
      fun he => (hg.after ((Extends.one fun _ _ => rfl).trans (he₁.trans he))).paid.work
    refine Act.Spec.bind (findTransfer_reports (hwork (he₂.trans he₃)) id) fun o h₄ he₄ ho => ?_
    -- a transfer, found or made, is checked in the same way
    have hcheck : ∀ (t : Transfer) h, ReportedTransfer h t → Meets D (Keeps []) (do
        Ssp.ofExcept (validateTransfer t D.identity key r.amountSats)
        pure t.id.print) (fun id h' => Executed D h' id r.receiver r.amountSats) h := by
      intro t h ht
      refine Act.Spec.bind (Meets.ofExcept
        (R := fun _ h' => Executed D h' t.id.print r.receiver r.amountSats) fun _ hv => ?_)
        fun _ _ _ hx => Act.Spec.pure hx
      exact executed_of ht hkey hv
    -- none is there: the transfer is made under the id read before
    rcases o with - | t
    · obtain ⟨quote, rfl, hquote⟩ := hid
      refine Act.Spec.bind (Meets.spark_any (c := .ensureExactLiquidity r.amountSats) trivial
        fun _ _ _ => rfl) fun _ h₅ he₅ _ => ?_
      have he := (he₃.trans he₄).trans he₅
      refine Act.Spec.bind (Meets.mapErr (Meets.spark (c := .transfer r.amountSats key id)
        (R := fun t h' => ReportedTransfer h' t) ?_ (fun _ _ _ => rfl)
        fun t => .made r.amountSats key id offerId hash [] h₅ rfl (hwork (he₂.trans he))))
        fun t h₆ _ ht => hcheck t h₆ ht
      have hg₁ : OfferGround h₁ offerId hash r := hg.after ((Extends.one fun _ _ => rfl).trans he₁)
      refine .receive offerId hash r quote (hg₁.after (he₂.trans he)) hkey rfl ?_ hquote
      obtain ⟨newer, hnewer, -⟩ := he
      exact ⟨newer, h₁, hnewer, hg₁.bound⟩
    · exact hcheck t h₄ (ho t rfl)
  · exact fun _ x h' _ hx => hx.after (Extends.one (q := anyEvent) trivial)

/-- What the payout function is called with and on: the unpaid row `r` of `hash`, backed,
under the guard of the receive lock. -/
structure Payable (D : Deployment) (h : History Api) (hash : String) (r : LightningReceive) :
    Prop where
  holds : Holds .receive h
  row : UnpaidRow h hash r
  backed : Backed D h hash r.amountSats

/-- A payable receive stays payable while nothing but swaps is asked for. -/
theorem Payable.after {h h' : History Api} {hash : String} {r : LightningReceive}
    (hp : Payable D h hash r) (he : Extends (Keeps [.swaps]) h h') : Payable D h' hash r where
  holds := hp.holds.after (p := .bound) (he.mono fun _ => Keeps.quiet (by decide))
  row := ⟨hp.row.read.after (he.mono fun _ => Keeps.quiet (by decide)), hp.row.unpaid⟩
  backed := hp.backed.after he

/-- A payout that the operators reported and that fits. -/
def PaidOut (D : Deployment) (h : History Api) (receiver : PublicKey) (amount : Nat)
    (swap : LightningReceiveSwap) : Prop :=
  ∃ t, ReportedTransfer h t ∧ t.id.print = swap.transferId ∧
    validateTransfer t D.identity receiver amount = .ok ()

/-- A payout stays in the history. -/
theorem PaidOut.after {h' : History Api} {q : Event Api → Prop} {receiver : PublicKey}
    {amount : Nat} {swap : LightningReceiveSwap} (hp : PaidOut D h receiver amount swap)
    (he : Extends q h h') : PaidOut D h' receiver amount swap := by
  obtain ⟨t, ht, hid, hv⟩ := hp
  exact ⟨t, ht.after he, hid, hv⟩

/-- A reported transfer that passes the checks of a receive swap. -/
theorem validated_meets {t : Transfer} {preimage hash : Bytes32} {id : Uuid} {key : PublicKey}
    {amount : Nat} (ht : ReportedTransfer h t) :
    Meets D (Keeps []) (Ssp.ofExcept (validateLightningReceiveSwap t preimage hash id D.identity
      key amount)) (fun swap h' => PaidOut D h' key amount swap) h := by
  refine Meets.ofExcept fun swap hs => ?_
  obtain ⟨-, -, hv, rfl⟩ := validateLightningReceiveSwap_ok hs
  exact ⟨t, ht, rfl, hv⟩

/-- A recovered swap is the one that was paid out. -/
theorem recoverLightningReceiveSwap_meets (id : Uuid) (hash : Bytes32) (receiver : PublicKey)
    (amount : Nat) :
    Meets D (Keeps []) (recoverLightningReceiveSwap D id hash receiver amount)
      (fun o h' => ∀ swap, o = some swap → PaidOut D h' receiver amount swap) h := by
  refine Act.Spec.bind (Meets.mapErr (Meets.spark (c := .queryHtlc id.print hash.text .sender)
    (R := fun items h' => sparkEvent (.queryHtlc id.print hash.text .sender) items ∈ h') trivial
    (fun _ _ _ => rfl) fun _ => List.mem_cons_self)) fun items h₁ _ hitems => ?_
  split
  · exact Act.Spec.pure (by simp)
  · next request hr =>
    split
    · exact Act.Spec.pure (by simp)
    · refine Act.Spec.bind (Meets.ofExcept (R := fun t _ => request.transfer = some t)
        fun t ht => okOr_eq_ok.mp ht) fun t h₂ he₂ ht => ?_
      have hrep : ReportedTransfer h₂ t :=
        .htlc _ _ items request (he₂.mem hitems) (List.mem_of_find?_eq_some hr) ht
      refine Act.Spec.bind (validated_meets hrep) fun swap h₃ _ hs => Act.Spec.pure ?_
      rintro _ ⟨⟩
      exact hs

/-- The payout of a receive asks for the transfer id, receiver, invoice and amount of its
row, and only while the row is unpaid and backed. -/
theorem swapForLightningReceive_meets {hash : String} {r : LightningReceive} {bounded : Bool}
    (hp : Payable D h hash r) :
    Meets D (Keeps [.swaps])
      (swapForLightningReceive D bounded r.receiver hash r.invoice r.amountSats 0)
      (fun swap h' => Executed D h' swap.transferId r.receiver r.amountSats) h := by
  unfold swapForLightningReceive
  refine Meets.guard fun _ => ?_
  refine Act.Spec.bind (Meets.ofExcept (R := fun bytes _ => hexDecode hash = some bytes)
    fun _ hb => okOr_eq_ok.mp hb) fun bytes h₁ he₁ hbytes => ?_
  refine Act.Spec.bind (Meets.ofExcept (R := fun b _ => Bytes32.ofBytes bytes = some b)
    fun _ hb => okOr_eq_ok.mp hb) fun b h₂ he₂ hb => ?_
  have hparse : Bytes32.parse hash = some b := by simp [Bytes32.parse, hbytes, hb]
  refine Act.Spec.bind (Meets.ofExcept
    (R := fun key _ => D.parsePublicKey r.receiver = .ok key) fun _ hk => hk)
    fun key h₃ he₃ hkey => ?_
  have hp₃ := hp.after ((he₁.trans he₂).trans he₃)
  refine Act.Spec.bind ((receiveTransferId_meets b.text).mono Keeps.widen
    fun _ _ _ hr => hr) fun id h₄ he₄ hid => ?_
  obtain ⟨quote, rfl, hid⟩ := hid
  have hp₄ := hp₃.after he₄
  refine Act.Spec.bind (Meets.mark (m := .swapReceive id r.receiver hash r.invoice r.amountSats)
    (R := fun _ h' => markEvent (.swapReceive id r.receiver hash r.invoice r.amountSats) ∈ h')
    ⟨r, hp₄.holds, hp₄.row, rfl, rfl, rfl, hp₄.backed, b, quote, hparse,
      ⟨[], h₃, rfl, hp₃.row.read.mem⟩, hid⟩ (fun _ _ => rfl) List.mem_cons_self)
    fun _ h₅ he₅ hm => ?_
  have hp₅ := hp₄.after he₅
  -- what the function returns is a payout to the key it parsed
  have hpaid : ∀ (swap : LightningReceiveSwap) h', PaidOut D h' key r.amountSats swap →
      Executed D h' swap.transferId r.receiver r.amountSats := by
    rintro swap h' ⟨t, ht, hid', hv⟩
    rw [← hid']
    exact executed_of ht hkey hv
  refine Meets.locked ?_ (fun _ _ _ => rfl) (fun _ _ _ => rfl) ?_
  swap
  · exact fun _ x h' _ hx => hx.after (Extends.one (q := anyEvent) trivial)
  -- from here on only the knowledge that carries the operator call matters
  have hswap : ∀ h', Extends (Keeps [.swaps]) h₅ h' → SwapGround D h'
      { paymentHash := b, transferId := id, receiver := key, invoice := r.invoice,
        amountSats := r.amountSats } r.receiver hash := fun h' he' =>
    ⟨(hp₅.after he').holds, he'.mem hm, hparse, hkey⟩
  have he₆ : Extends (Keeps [.swaps]) h₅ (⟨Call.acquire .liquidity bounded, Except.ok ()⟩ :: h₅) :=
    .one fun _ _ => rfl
  refine Act.Spec.bind (Meets.spark_any trivial fun _ _ _ => rfl) fun _ h₆ he₇ _ => ?_
  refine Act.Spec.bind ((recoverLightningReceiveSwap_meets id b key r.amountSats).mono
    Keeps.widen fun _ _ _ ho => ho) fun o h₇ he₈ ho => ?_
  split
  · next swap => exact Act.Spec.pure (hpaid swap h₇ (ho swap rfl))
  · refine Act.Spec.bind (Meets.spark_any trivial fun _ _ _ => rfl) fun _ h₈ he₉ _ => ?_
    refine Act.Spec.bind (Meets.mapErr (Meets.spark_any
      (c := .prepareTransferRequest id key r.amountSats) trivial fun _ _ _ => rfl))
      fun _ h₉ he₁₀ _ => ?_
    have he := (((he₆.trans he₇).trans he₈).trans he₉).trans he₁₀
    refine Act.Spec.bind (Meets.mapErr (Meets.spark
      (R := fun (response : Option Bytes32 × Option Transfer) h' =>
        ∀ t, response.2 = some t → ReportedTransfer h' t)
      (c := .initiatePreimageSwapV3 ⟨b, id, key, r.invoice, r.amountSats⟩)
      ⟨r.receiver, hash, hswap h₉ he⟩ ?_ ?_)) fun response h₁₀ _ ht => ?_
    · intro _ p hp
      cases p with
      | swaps => simp at hp
      | bound => rfl
      | payout => rfl
      | reservation => rfl
    · rintro ⟨preimage, t'⟩ t rfl
      exact .swapped _ preimage List.mem_cons_self
    · refine Act.Spec.bind (Meets.ofExcept (R := fun _ _ => True) fun _ _ => trivial)
        fun preimage h₁₁ he₁₁ _ => ?_
      refine Act.Spec.bind (Meets.ofExcept (R := fun t _ => response.2 = some t)
        fun t ht => okOr_eq_ok.mp ht) fun t h₁₂ he₁₂ hresponse => ?_
      have hrep := ((ht t hresponse).after he₁₁).after he₁₂
      refine Act.Spec.bind ((validated_meets hrep).mono Keeps.widen fun _ _ _ hs => hs)
        fun swap h₁₃ _ hs => ?_
      exact Act.Spec.bind (Meets.spark_any (c := .sync) trivial fun _ _ _ => rfl).attempt
        fun _ h₁₄ he₁₄ _ => Act.Spec.pure (hpaid swap h₁₄ (hs.after he₁₄))

/-! ### Swaps -/

/-- The counter-transfer of a swap goes to the wallet that sent the primary one. -/
theorem createCounterTransfer_meets {primary id : Uuid} {key : PublicKey} {adaptor text : String}
    {targets : List Nat} {total target : Nat} {t : Transfer}
    (hg : CounterGround D h primary id key text t) :
    Meets D (Keeps []) (createCounterTransfer D primary key adaptor targets total target id)
      (fun _ _ => True) h := by
  refine Act.Spec.bind (Meets.spark_any trivial fun _ _ _ => rfl) fun _ h₁ he₁ _ => ?_
  refine Act.Spec.bind (Meets.ofExcept (R := fun _ _ => True) fun _ _ => trivial)
    fun a h₂ he₂ _ => ?_
  refine Act.Spec.bind (Meets.spark_any trivial fun _ _ _ => rfl) fun _ h₃ he₃ _ => ?_
  have he := (he₁.trans he₂).trans he₃
  refine Meets.mapErr (Meets.spark_any ⟨text, t, ?_⟩ fun _ _ _ => rfl)
  exact ⟨he.mem hg.mark, hg.primary_eq, hg.id_eq, he.mem hg.read, hg.claimable, hg.paid⟩

/-- Filling a swap keeps every contract of the service. -/
theorem fillSwap_meets (owner text adaptor : String) (targets : List Nat) (total payout : Nat) :
    Meets D (Keeps []) (fillSwap D owner text adaptor targets total payout)
      (fun _ _ => True) h := by
  refine Act.Spec.bind (Meets.mark (m := .fillSwap text)
    (R := fun _ h' => markEvent (.fillSwap text) ∈ h') trivial (fun _ _ => rfl)
    List.mem_cons_self) fun _ h₁ _ hm => ?_
  refine Meets.guard fun _ => Meets.guard fun _ => ?_
  refine Act.Spec.bind (Meets.ofExcept (R := fun _ _ => True) fun _ _ => trivial)
    fun target h₂ he₂ _ => ?_
  refine Meets.guard fun _ => ?_
  refine Act.Spec.bind (Meets.ofExcept (R := fun u _ => Uuid.parse text = some u)
    fun u hu => okOr_eq_ok.mp hu) fun u h₃ he₃ hu => ?_
  refine Act.Spec.bind (waitForTransfer_meets u) fun t₀ h₄ he₄ _ => ?_
  refine Act.Spec.bind (Meets.ofExcept (R := fun _ _ => True) fun _ _ => trivial)
    fun key h₅ he₅ _ => ?_
  refine Act.Spec.bind (Meets.ofExcept (R := fun _ _ => True) fun _ _ => trivial)
    fun _ h₆ he₆ _ => ?_
  refine Act.Spec.bind (Meets.ofExcept (R := fun _ _ => True) fun _ _ => trivial)
    fun _ h₇ he₇ _ => ?_
  have hm₇ := he₇.mem (he₆.mem (he₅.mem (he₄.mem (he₃.mem (he₂.mem hm)))))
  refine Meets.locked ?_ (fun _ _ _ => rfl) (fun _ _ _ => rfl) fun _ _ _ _ _ => trivial
  refine Act.Spec.bind (findTransfer_meets u) fun o h₈ he₈ ho => ?_
  refine Act.Spec.bind (Meets.ofExcept (R := fun t _ => o = some t)
    fun t ht => okOr_eq_ok.mp ht) fun t h₉ he₉ ht => ?_
  refine Act.Spec.bind (Meets.ofExcept
    (R := fun _ _ => validateTransfer t key D.identity total = .ok ()) fun _ hv => hv)
    fun _ h₁₀ he₁₀ hv => ?_
  refine Act.Spec.bind (findTransfer_meets _) fun counter h₁₁ he₁₁ _ => ?_
  -- whatever the counter transfer is, the rest only computes
  have hrest : ∀ (c : Transfer) h, Meets D (Keeps []) (do
      Ssp.ofExcept (validateTransfer c D.identity key total)
      let leaves ← Ssp.ofExcept (c.leaves.mapM swapLeafResponse)
      if leaves = [] then throw "counter transfer has no leaves"
      return { transferId := c.id.print, leaves := leaves, expiresAt := c.expiryTime : SwapFill })
      (fun _ _ => True) h := by
    intro c h
    refine Act.Spec.bind (Meets.ofExcept (R := fun _ _ => True) fun _ _ => trivial)
      fun _ _ _ _ => ?_
    refine Act.Spec.bind (Meets.ofExcept (R := fun _ _ => True) fun _ _ => trivial)
      fun _ _ _ _ => ?_
    exact Meets.guard fun _ => Act.Spec.pure trivial
  rcases counter with - | c
  · refine Act.Spec.bind (Meets.ofExcept
      (R := fun _ _ => validateSwapPrimaryClaimable t.status = .ok ()) fun _ hv => hv)
      fun _ h₁₂ he₁₂ hclaim => ?_
    have he := ((he₉.trans he₁₀).trans he₁₁).trans he₁₂
    have hg : CounterGround D h₁₂ u (counterTransferId text) key text t :=
      ⟨he.mem (he₈.mem (List.mem_cons_of_mem _ hm₇)), hu, rfl, he.mem (ho t ht), hclaim,
        total, hv⟩
    exact Act.Spec.bind (createCounterTransfer_meets hg) fun c h₁₃ _ _ => hrest c h₁₃
  · exact hrest c h₁₁

end Spark

end OpenSsp
