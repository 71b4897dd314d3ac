/-
OpenSsp/Deposit/Scan.lean

The search for a replacement of an output that is gone.

Each pass searches at most 21 blocks from the height that is stored in the claim and stores where the
next one begins; after the tip it steps six blocks back.  The stored height changes in no other way,
so the blocks below it, from where it once was, have all been examined.

Main result: `scan_leaves_no_gap`.
-/
import OpenSsp.Deposit.Ledger

namespace OpenSsp.Deposit

open Interleave Bitcoin

variable {L : Library} {C : Service L} {r : InstantClaim L} {tip height : Nat}

/-! ### One pass -/

/-- The record after a pass that found nothing. -/
def InstantClaim.scanned (r : InstantClaim L) (tip : Nat) : InstantClaim L :=
  { r with scanHeight := nextScanHeight (scanRange r.scanHeight tip).2 tip }

/-- The pass ends at the tip. -/
def InstantClaim.Reaches (r : InstantClaim L) (tip : Nat) : Prop :=
  (scanRange r.scanHeight tip).2 = tip

/-- The pass searches the block at this height. -/
def InstantClaim.Covers (r : InstantClaim L) (tip height : Nat) : Prop :=
  (scanRange r.scanHeight tip).1 ≤ height ∧ height ≤ (scanRange r.scanHeight tip).2

instance (r : InstantClaim L) (tip : Nat) : Decidable (r.Reaches tip) :=
  inferInstanceAs (Decidable (_ = _))

/-- A pass goes on where the stored height is, up to where the next one begins. -/
theorem covers_below_next (hlow : r.scanHeight ≤ height)
    (hhigh : height < (r.scanned tip).scanHeight) : r.Covers tip height := by
  have hnext : height < nextScanHeight (min (min r.scanHeight tip + 20) tip) tip := hhigh
  show min r.scanHeight tip ≤ height ∧ height ≤ min (min r.scanHeight tip + 20) tip
  rw [nextScanHeight] at hnext
  split at hnext
  · omega
  · omega

theorem covers_to_tip (hreach : r.Reaches tip) (hlow : r.scanHeight ≤ height)
    (hhigh : height ≤ tip) : r.Covers tip height := by
  have hreach : min (min r.scanHeight tip + 20) tip = tip := hreach
  show min r.scanHeight tip ≤ height ∧ height ≤ min (min r.scanHeight tip + 20) tip
  omega

/-- A pass that does not reach the tip moves the height up. -/
theorem scanned_advances (hshort : ¬ r.Reaches tip) :
    r.scanHeight + 1 ≤ (r.scanned tip).scanHeight := by
  have hshort : ¬ min (min r.scanHeight tip + 20) tip = tip := hshort
  show r.scanHeight + 1 ≤ nextScanHeight (min (min r.scanHeight tip + 20) tip) tip
  rw [nextScanHeight, if_neg hshort]
  omega

/-- After the tip the last blocks are searched again. -/
theorem covers_again {r' : InstantClaim L} {tip' : Nat} (hreach : r.Reaches tip)
    (hheight : r'.scanHeight = (r.scanned tip).scanHeight) (htip : tip ≤ tip')
    (hlow : tip - 6 ≤ height) (hhigh : height ≤ tip) : r'.Covers tip' height := by
  have hnext : r'.scanHeight = tip - 6 := by
    rw [hheight]
    exact if_pos hreach
  show min r'.scanHeight tip' ≤ height ∧ height ≤ min (min r'.scanHeight tip' + 20) tip'
  omega

/-! ### Passes of a run -/

/-- From `s` to `s'` a pass is completed: its program has searched the blocks and saves where the
next one begins. -/
structure Pass (C : Service L) (r : InstantClaim L) (tip : Nat) (s s' : Config (machine C)) :
    Prop where
  step : ∃ m, s.step m = some s'
  stored : r ∈ s.world.db.records
  searched : ∃ t, ∃ k : Except String Unit → Prog (Api L) Unit, ∃ hist,
    s.thread t = some ⟨.call (.db (.saveInstant (r.scanned tip))) k, hist⟩ ∧
    Lately (Scanned r tip) hist ∧
    s'.trace = (t, ⟨.db (.saveInstant (r.scanned tip)), .ok ()⟩) :: s.trace
  saved : r.scanned tip ∈ s'.world.db.records

/-- Between `s` and `s'` a pass for the claim has examined the block at this height. -/
def Searched (C : Service L) (s s' : Config (machine C)) (id : String) (height : Nat) : Prop :=
  ∃ r tip s₁ s₂, Later anyMove s s₁ ∧ Pass C r tip s₁ s₂ ∧ Later anyMove s₂ s' ∧ r.id = id ∧
    r.Covers tip height

variable {s s' s'' : Config (machine C)} {id : String}

theorem Searched.later (h : Searched C s s' id height) (hl : Later anyMove s' s'') :
    Searched C s s'' id height := by
  obtain ⟨r, tip, s₁, s₂, h₁, hp, h₂, hid, hcovers⟩ := h
  exact ⟨r, tip, s₁, s₂, h₁, hp, h₂.trans hl, hid, hcovers⟩

/-- The stored height of a claim changes in completed passes only. -/
theorem step_height (hs : Reach anyMove s) {m : Move (machine C)} (hst : s.step m = some s')
    (hr : r ∈ s.world.db.records) : ∃ r' ∈ s'.world.db.records, r'.id = r.id ∧
      (r'.scanHeight = r.scanHeight ∨ ∃ tip, Pass C r tip s s' ∧ r' = r.scanned tip) := by
  rcases (step_ledger hs hst).successor hs hr with hsame | ⟨t, k, hist, r', hth, htr, ha, hr'⟩
  · exact ⟨r, hsame, rfl, .inl rfl⟩
  · refine ⟨r', hr', advance_id ha, ?_⟩
    cases ha with
    | paid hphase => exact .inl rfl
    | scanned tip hphase hscan =>
        exact .inr ⟨tip, ⟨⟨m, hst⟩, hr, ⟨t, k, hist, hth, hscan, htr⟩, hr'⟩, rfl⟩
    | prepared point request hphase hunspent hfreeze => exact .inl rfl
    | signed spend hfrozen hopen => exact .inl rfl
    | settled confirmations hfrozen hopen hseen => exact .inl rfl

/-- Up to the stored height every block has been examined, from where the height once was. -/
theorem later_searched (hs : Reach anyMove s) (hr : r ∈ s.world.db.records)
    (hl : Later anyMove s s') : ∃ r' ∈ s'.world.db.records, r'.id = r.id ∧
      ∀ height, r.scanHeight ≤ height → height < r'.scanHeight → Searched C s s' r.id height := by
  induction hl with
  | refl =>
      refine ⟨r, hr, rfl, fun height hlow hhigh => ?_⟩
      omega
  | @step s₁ s₂ m hl hm hst ih =>
      obtain ⟨r₁, hr₁, hid₁, hall⟩ := ih
      have hlast : Later anyMove s₁ s₂ := .step .refl hm hst
      obtain ⟨r₂, hr₂, hid₂, hheight | ⟨tip, hpass, rfl⟩⟩ := step_height (hs.later hl) hst hr₁
      · refine ⟨r₂, hr₂, hid₂.trans hid₁, fun height hlow hhigh => ?_⟩
        rw [hheight] at hhigh
        exact (hall height hlow hhigh).later hlast
      · refine ⟨r₁.scanned tip, hr₂, hid₁, fun height hlow hhigh => ?_⟩
        by_cases hbelow : height < r₁.scanHeight
        · exact (hall height hlow hbelow).later hlast
        · -- the blocks from the old height on are those of this pass
          exact ⟨r₁, tip, s₁, s₂, hl, hpass, .refl, hid₁,
            covers_below_next (Nat.le_of_not_lt hbelow) hhigh⟩

/-- Until the next pass the height stays. -/
theorem later_height (hs : Reach anyMove s) (hr : r ∈ s.world.db.records)
    (hl : Later anyMove s s') : ∃ r' ∈ s'.world.db.records, r'.id = r.id ∧
      (r'.scanHeight = r.scanHeight ∨ ∃ r₁ tip s₁ s₂, Later anyMove s s₁ ∧ Pass C r₁ tip s₁ s₂ ∧
        Later anyMove s₂ s' ∧ r₁.id = r.id) := by
  induction hl with
  | refl => exact ⟨r, hr, rfl, .inl rfl⟩
  | @step s₁ s₂ m hl hm hst ih =>
      obtain ⟨r₁, hr₁, hid₁, hheight₁⟩ := ih
      have hlast : Later anyMove s₁ s₂ := .step .refl hm hst
      obtain ⟨r₂, hr₂, hid₂, hheight₂ | ⟨tip, hpass, rfl⟩⟩ := step_height (hs.later hl) hst hr₁
      · refine ⟨r₂, hr₂, hid₂.trans hid₁, ?_⟩
        rcases hheight₁ with hheight₁ | ⟨r₀, tip, a, b, ha, hp, hb, hid⟩
        · exact .inl (hheight₂.trans hheight₁)
        · exact .inr ⟨r₀, tip, a, b, ha, hp, hb.trans hlast, hid⟩
      · exact ⟨r₁.scanned tip, hr₂, hid₁, .inr ⟨r₁, tip, s₁, s₂, hl, hpass, .refl, hid₁⟩⟩

/-! ### What a pass returns -/

/-- No record has been saved. -/
def Unsaved (h : History (Api L)) : Prop :=
  ∀ r, (⟨.db (.saveInstant r), .ok ()⟩ : Event (Api L)) ∉ h

theorem Unsaved.of_still {h : History (Api L)} (he : Extends Still [] h) : Unsaved h := by
  obtain ⟨new, rfl, hstill⟩ := he
  intro r hmem
  rw [List.append_nil] at hmem
  exact absurd (hstill _ hmem) nofun

/-- A pass that returns without a replacement has seen the output wait in the mempool, or it is
completed; a pass that fails has saved nothing. -/
def Returns (C : Service L) (r : InstantClaim L) : Prop :=
  Act.wp (fun _ _ => True) (confirmedInstantOutpoint C r)
    (fun found h => found.1 = none →
      (∃ coin, (⟨.getTxOut r.quote.deposit.txid r.quote.deposit.vout.toNat, .ok (some coin)⟩ :
        Event (Api L)) ∈ h ∧ coin.confirmations.getD 0 = 0 ∧ Unsaved h) ∨
      ∃ tip, found.2 = r.scanned tip ∧
        (⟨.db (.saveInstant (r.scanned tip)), .ok ()⟩ : Event (Api L)) ∈ h)
    (fun _ h => Unsaved h) []

theorem confirmedInstantOutpoint_returns (r : InstantClaim L) : Returns C r := by
  have hcoin : Act.Spec (fun _ _ => True) Still
      (getTxOut (L := L) r.quote.deposit.txid r.quote.deposit.vout.toNat) _ [] :=
    Act.Spec.ask_eq trivial fun _ => rfl
  refine (Act.wp_bind _ _).mpr (Act.wp_mono hcoin.wp ?_ fun _ _ => Unsaved.of_still)
  rintro found h₁ ⟨he₁, reply, hreply, rfl⟩
  obtain rfl : reply = .ok found := hreply
  rcases found with - | coin
  · have hcount : Act.Spec (fun _ _ => True) Still (getBlockCount (L := L)) _
        [⟨.getTxOut r.quote.deposit.txid r.quote.deposit.vout.toNat, .ok none⟩] :=
      Act.Spec.ask_eq trivial fun _ => rfl
    refine (Act.wp_bind _ _).mpr (Act.wp_mono hcount.wp ?_ fun _ _ he =>
      .of_still (he₁.trans he))
    rintro tip h₂ ⟨he₂, -⟩
    have hsearch := Act.Calls.firstSome (searchBlock_within (C := C) (n := 1) r.quote.deposit)
      (List.range' (scanRange r.scanHeight tip).1
        ((scanRange r.scanHeight tip).2 + 1 - (scanRange r.scanHeight tip).1))
    have hscan := (Act.Calls.spec_after hsearch (P := fun _ _ => True) (fun _ _ _ => trivial)
      (Act.Calls.spec hsearch (fun _ _ _ => trivial) []) h₂).mono
      (fun e he => (Call.plain_still (Call.plain_of_level he) : Still e)) (S := fun _ _ => True)
      (fun _ _ _ _ => trivial)
    refine (Act.wp_bind _ _).mpr (Act.wp_mono hscan.wp ?_ fun _ _ he =>
      .of_still (he₁.trans (he₂.trans he)))
    rintro found h₃ ⟨he₃, -⟩
    have hunsaved : Unsaved h₃ := .of_still (he₁.trans (he₂.trans he₃))
    rcases found with - | point
    · -- the last call: when it fails, nothing was saved
      refine ⟨trivial, fun reply => ?_⟩
      rcases reply with e | u
      · intro r' hmem
        rcases List.mem_cons.mp hmem with hlast | hold
        · injection hlast with hcall hreply
          injection hcall with hq
          injection hq with hr
          subst hr
          cases hreply
        · exact hunsaved r' hold
      · exact fun _ => .inr ⟨tip, rfl, List.mem_cons_self⟩
    · exact nofun
  · show Act.wp _ (if 0 < coin.confirmations.getD 0 then _ else _) _ _ _
    split
    · next hconfirmed =>
        rcases htxid : okOr "invalid txid" (C.parseTxid r.quote.deposit.txid) with e | txid
        · rw [Act.wp_bind, Act.ofExcept]
          exact Unsaved.of_still he₁
        · rw [Act.wp_bind, Act.ofExcept]
          exact nofun
    · next hwaiting =>
        refine fun _ => .inl ⟨coin, List.mem_cons_self, ?_, .of_still he₁⟩
        exact Nat.eq_zero_of_not_pos hwaiting

/-! ### Runs -/

/-- **The search leaves no gap.**  From any stored height of a claim on, in any run: the blocks up
to the height that is stored later, and up to the tip of a pass that reaches it, have been examined
by passes of the claim; a pass reaches its tip or moves the height up; nothing but a completed pass
changes the height, and one that fails saved nothing; and the pass that comes after one that reached
its tip searches the last blocks again, if its tip is not lower. -/
theorem scan_leaves_no_gap {s s' : Config (machine C)} {r : InstantClaim L}
    (hs : Reach anyMove s) (hr : r ∈ s.world.db.records) (hl : Later anyMove s s') :
    (∃ r' ∈ s'.world.db.records, r'.id = r.id ∧
      (∀ height, r.scanHeight ≤ height → height < r'.scanHeight → Searched C s s' r.id height) ∧
      (∀ m s'', s'.step m = some s'' → ∃ r'' ∈ s''.world.db.records, r''.id = r.id ∧
        (r''.scanHeight = r'.scanHeight ∨ ∃ tip, Pass C r' tip s' s'' ∧ r'' = r'.scanned tip)) ∧
      Returns C r' ∧
      ∀ tip s'', Pass C r' tip s' s'' →
        (r'.Reaches tip ∨ r'.scanHeight + 1 ≤ (r'.scanned tip).scanHeight) ∧
        (r'.Reaches tip →
          (∀ height, r.scanHeight ≤ height → height ≤ tip → Searched C s s'' r.id height) ∧
          ∀ s₁ s₂ r₁ tip₁, Later anyMove s'' s₁ → Pass C r₁ tip₁ s₁ s₂ → r₁.id = r.id →
            (∀ a b r₂ tip₂, Later anyMove s'' a → Pass C r₂ tip₂ a b → Later anyMove b s₁ →
              r₂.id ≠ r.id) →
            tip ≤ tip₁ → ∀ height, tip - 6 ≤ height → height ≤ tip → r₁.Covers tip₁ height)) := by
  obtain ⟨r', hr', hid, hall⟩ := later_searched hs hr hl
  have hs' : Reach anyMove s' := hs.later hl
  refine ⟨r', hr', hid, hall, ?_, confirmedInstantOutpoint_returns r', ?_⟩
  · intro m s'' hst
    obtain ⟨r'', hr'', hid'', hheight⟩ := step_height hs' hst hr'
    exact ⟨r'', hr'', hid''.trans hid, hheight⟩
  · intro tip s'' hpass
    obtain ⟨m, hst⟩ := hpass.step
    constructor
    · by_cases hreach : r'.Reaches tip
      · exact .inl hreach
      · exact .inr (scanned_advances hreach)
    · intro hreach
      constructor
      · intro height hlow hhigh
        by_cases hbelow : height < r'.scanHeight
        · exact (hall height hlow hbelow).later (.step .refl trivial hst)
        · exact ⟨r', tip, s', s'', hl, hpass, .refl, hid,
            covers_to_tip hreach (Nat.le_of_not_lt hbelow) hhigh⟩
      · intro s₁ s₂ r₁ tip₁ h₁ hpass₁ hid₁ hnone htip height hlow hhigh
        have hs'' : Reach anyMove s'' := .step hs' trivial hst
        obtain ⟨r₂, hr₂, hid₂, hheight | ⟨r₀, tip₀, a, b, ha, hp, hb, hid₀⟩⟩ :=
          later_height hs'' hpass.saved h₁
        · -- the record of the next pass is the stored one
          obtain rfl : r₁ = r₂ := by
            apply records_unique (hs''.later h₁) hpass₁.stored hr₂
            rw [hid₁, hid₂]
            exact hid.symm
          exact covers_again hreach hheight htip hlow hhigh
        · exact absurd (hid₀.trans hid) (hnone a b r₀ tip₀ ha hp hb)

namespace Sample

/-- The service with instant deposits. -/
def instantService : Service .sample :=
  { Service.sample with instantLimit := 20000, instantMaxDeposit := 10000 }

def instantCalls (t : Nat) (chs : List Choice) : List (Move (machine instantService)) :=
  Move.runs t chs

def quoteId : Uuid := Uuid.fill 3

/-- Alice's deposit of 10000 sats is quoted at height 100 and claimed at once; then its output is
gone, and the tip is 96. -/
def searching : List (Move (machine instantService)) :=
  .spawn (Request.instantQuote "02" output) ::
    instantCalls 0 [.done, .done, .coin (some coin), .addresses [⟨"bcrt1p", [3], [4]⟩], .done, .done,
      .estimate none, .done, .number (some 100), .uuid quoteId, .done, .done, .done] ++
  .spawn (Request.instantClaim "02" ⟨some quoteId.print, none, some "05", some "06"⟩) ::
    instantCalls 1 [.done, .done, .done, .done, .done, .coin (some coin), .done,
      .address (some "bcrt1q"), .uuid transferId, .leaves [], .bytes [], .nonce ⟨[], []⟩,
      .uuid claimId, .done, .swap ⟨some ⟨transferId.print, [1], [2], 9901⟩, none⟩, .done,
      .coin none, .number (some 96),
      .hash "94", .block (some []), .hash "95", .block (some []), .hash "96", .block (some [])]

/-- All claims are searched from this height next. -/
def heights (n : Nat) (s : Config (machine instantService)) : Bool :=
  s.world.db.records.all fun r => r.scanHeight == n

end Sample

/-- The pass at the tip examines three blocks, and steps six back. -/
theorem scan_leaves_no_gap_tip : ∃ (s s' : Config (machine Sample.instantService))
    (r : InstantClaim .sample) (tip : Nat), Reach anyMove s ∧
    Pass Sample.instantService r tip s s' ∧ r.Reaches tip ∧
    (∀ height, 94 ≤ height → height ≤ tip →
      Searched Sample.instantService s s' r.id height) := by
  obtain ⟨s, hs, hp⟩ := Reach.exists_of_moves Sample.searching (fun s =>
    !s.world.db.records.isEmpty && Sample.heights 94 s && (s.step (.run 1 .done)).any
      (Sample.heights 90)) (by decide +kernel)
  obtain ⟨hp, hnext⟩ := Bool.and_eq_true_iff.mp hp
  obtain ⟨hsome, hbefore⟩ := Bool.and_eq_true_iff.mp hp
  obtain ⟨s', hstep, hafter⟩ := Option.any_eq_true _ _ |>.mp hnext
  obtain ⟨r, hr⟩ : ∃ r, r ∈ s.world.db.records := by
    apply List.exists_mem_of_ne_nil
    simpa using hsome
  have hheight : ∀ r ∈ s.world.db.records, r.scanHeight = 94 := fun r hr =>
    beq_iff_eq.mp (List.all_eq_true.mp hbefore r hr)
  obtain ⟨r', hr', hid, -, hchange, -, hpasses⟩ := scan_leaves_no_gap hs hr .refl
  obtain ⟨r'', hr'', hid'', hsame | ⟨tip, hpass, rfl⟩⟩ := hchange _ _ hstep
  · have h90 : r''.scanHeight = 90 := beq_iff_eq.mp (List.all_eq_true.mp hafter r'' hr'')
    rw [hheight r' hr', h90] at hsame
    cases hsame
  · obtain ⟨hprogress, hreached⟩ := hpasses tip s' hpass
    have h90 : (r'.scanned tip).scanHeight = 90 :=
      beq_iff_eq.mp (List.all_eq_true.mp hafter _ hr'')
    rw [hheight r' hr', h90] at hprogress
    have hreach : r'.Reaches tip := hprogress.resolve_right (by decide)
    refine ⟨s, s', r', tip, hs, hpass, hreach, fun height hlow hhigh => ?_⟩
    rw [hid]
    apply (hreached hreach).1 height _ hhigh
    rw [hheight r hr]
    exact hlow

end OpenSsp.Deposit
