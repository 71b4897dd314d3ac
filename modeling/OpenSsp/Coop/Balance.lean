/-
OpenSsp/Coop/Balance.lean

The amounts of a withdrawal: what its leaves are worth, what it pays out, what it costs, and
what becomes of the coin that funds it.

`Priced` is what the two fee modes have in common: the leaves cover the payout and the fees
exactly.  `Balanced` is a record whose transactions keep to that price.  The amounts are
natural numbers and the outputs are 64 bits wide, so that a sum or a difference that left the
range would show up as an output of another value.
-/
import OpenSsp.Coop.Exit

namespace OpenSsp.Coop

open Interleave Bitcoin

variable {L : Library} {C : Service L}

/-! ### Checks -/

theorem validateIds_check_ok {seen ids : List String} (h : validateIds.check seen ids = .ok ()) :
    ids.Nodup ∧ ∀ id ∈ ids, id ∉ seen := by
  induction ids generalizing seen with
  | nil => exact ⟨List.nodup_nil, by simp⟩
  | cons id ids ih =>
      unfold validateIds.check at h
      split at h
      · cases h
      · split at h
        · cases h
        · next hok =>
            push Not at hok
            obtain ⟨hnodup, hfresh⟩ := ih h
            refine ⟨List.nodup_cons.mpr ⟨fun hmem => hfresh id hmem List.mem_cons_self, hnodup⟩, ?_⟩
            intro id' hid'
            rcases List.mem_cons.mp hid' with rfl | hid'
            · exact hok.2
            · exact fun hseen => hfresh id' hid' (List.mem_cons_of_mem _ hseen)

theorem validateIds_ok {ids : List String} (h : validateIds ids = .ok ()) :
    ids ≠ [] ∧ ids.length ≤ maxLeaves ∧ ids.Nodup := by
  unfold validateIds at h
  split at h
  · cases h
  · next hcount =>
      push Not at hcount
      exact ⟨hcount.1, hcount.2, (validateIds_check_ok h).1⟩

theorem total_ok {leaves : List ExitLeaf} {amount : Nat} (h : total leaves = .ok amount) :
    (leaves.map (·.value)).sum = amount ∧ amount ≤ 2100000000000000 := by
  suffices ∀ start, start ≤ 2100000000000000 →
      leaves.foldlM (fun sum leaf => okOr "withdrawal amount is out of range"
        ((checkedAdd sum leaf.value).filter (· ≤ 2100000000000000))) start = .ok amount →
      start + (leaves.map (·.value)).sum = amount ∧ amount ≤ 2100000000000000 by
    have hall := this 0 (Nat.zero_le _) h
    rwa [Nat.zero_add] at hall
  clear h
  induction leaves with
  | nil =>
      intro start hstart h
      obtain rfl := Except.ok.inj h
      exact ⟨rfl, hstart⟩
  | cons leaf leaves ih =>
      intro start _ h
      rw [List.foldlM_cons] at h
      obtain ⟨next, hnext, h⟩ := bind_ok h
      obtain ⟨hadd, hle⟩ := Option.filter_eq_some_iff.mp (okOr_eq_ok.mp hnext)
      obtain ⟨rfl, -⟩ := checkedAdd_eq_some hadd
      obtain ⟨hsum, hamount⟩ := ih _ (by simpa using hle) h
      refine ⟨?_, hamount⟩
      rw [List.map_cons, List.sum_cons, ← hsum, Nat.add_assoc]

theorem checkRequest_ok {request : ExitInput} {key : ExitKey} (h : checkRequest request = .ok key) :
    validateIds request.leafExternalIds = .ok () ∧
      speedIndex request.exitSpeed = .ok key.speed := by
  unfold checkRequest at h
  obtain ⟨_, hids, h⟩ := bind_ok h
  obtain ⟨speed, hspeed, h⟩ := bind_ok h
  obtain ⟨transferId, -, h⟩ := bind_ok h
  obtain ⟨parsed, -, h⟩ := bind_ok h
  obtain ⟨-, h⟩ := guard_ok h
  obtain ⟨-, h⟩ := guard_ok h
  obtain rfl := Except.ok.inj h
  exact ⟨hids, hspeed⟩

theorem exitLeaf_id {nodes : List (String × Node)} {owner : PublicKey} {id : String}
    {leaf : ExitLeaf} (h : exitLeaf nodes owner id = .ok leaf) : leaf.id = id := by
  unfold exitLeaf at h
  obtain ⟨node, -, h⟩ := bind_ok h
  obtain ⟨-, h⟩ := guard_ok h
  obtain ⟨-, h⟩ := guard_ok h
  obtain rfl := Except.ok.inj h
  rfl

/-- Leaves are answered for the ids that were asked for. -/
theorem mapM_exitLeaf_ids {nodes : List (String × Node)} {owner : PublicKey} {ids : List String} :
    ∀ {ls : List ExitLeaf}, ids.mapM (exitLeaf nodes owner) = .ok ls → ls.map (·.id) = ids := by
  induction ids with
  | nil =>
      intro ls h
      obtain rfl := Except.ok.inj h
      rfl
  | cons id ids ih =>
      intro ls h
      rw [List.mapM_cons] at h
      obtain ⟨leaf, hleaf, h⟩ := bind_ok h
      obtain ⟨rest, hrest, h⟩ := bind_ok h
      obtain rfl := Except.ok.inj h
      rw [List.map_cons, exitLeaf_id hleaf, ih hrest]

/-! ### The coin -/

/-- The wallet has listed the coin with this value. -/
structure Listed (coins : List Coin) (value : UInt64) (outpoint : OutPoint) : Prop where
  coin : ∃ coin ∈ coins, coin.amount = .ok value ∧ coin.outpoint = .ok outpoint ∧
    coin.spendable = true ∧ coin.safe = true

theorem candidates_listed {reserved : List OutPoint} {needed : Nat} {coins : List Coin} :
    ∀ {chosen : List (Nat × OutPoint)}, candidates reserved needed coins = .ok chosen →
      ∀ c ∈ chosen, needed ≤ c.1 ∧ ∃ value, c.1 = value.toNat ∧ Listed coins value c.2 := by
  induction coins with
  | nil =>
      intro chosen h
      obtain rfl := Except.ok.inj h
      simp
  | cons coin coins ih =>
      intro chosen h
      -- a coin of the rest is a coin of the whole list
      have hmore : ∀ {others}, candidates reserved needed coins = .ok others → ∀ c ∈ others,
          needed ≤ c.1 ∧ ∃ value, c.1 = value.toNat ∧ Listed (coin :: coins) value c.2 := by
        intro others hothers c hc
        obtain ⟨hle, value, hvalue, ⟨coin', hcoin', hrest⟩⟩ := ih hothers c hc
        exact ⟨hle, value, hvalue, ⟨coin', List.mem_cons_of_mem _ hcoin', hrest⟩⟩
      unfold candidates at h
      split at h
      · exact hmore h
      · next hspendable =>
          obtain ⟨amount, hamount, h⟩ := bind_ok h
          obtain ⟨script, -, h⟩ := bind_ok h
          split at h
          · exact hmore h
          · next hlarge =>
              obtain ⟨outpoint, houtpoint, h⟩ := bind_ok h
              obtain ⟨others, hothers, h⟩ := bind_ok h
              obtain rfl := Except.ok.inj h
              split
              · exact hmore hothers
              · intro c hc
                rcases List.mem_cons.mp hc with rfl | hc
                · push Not at hlarge
                  have hflags : coin.spendable = true ∧ coin.safe = true := by
                    simpa using hspendable
                  exact ⟨hlarge.2, amount, rfl,
                    ⟨coin, List.mem_cons_self, hamount, houtpoint, hflags.1, hflags.2⟩⟩
                · exact hmore hothers c hc

/-! ### Balance -/

/-- The leaves are the payout and the fees. -/
structure Priced (quote : ExitQuote) (speed : Fin 3) (payout : Nat) (leaves : List ExitLeaf) :
    Prop where
  covered : (leaves.map (·.value)).sum = payout + quote.userFee + quote.fees speed
  inRange : (leaves.map (·.value)).sum < 2 ^ 64
  nonempty : leaves ≠ []
  count : leaves.length ≤ maxLeaves
  distinct : (leaves.map (·.id)).Nodup

/-- The coin of a withdrawal and what it is spent on. -/
structure Funding where
  value : UInt64
  payout : TxOut
  intermediate : TxOut
  change : TxOut
  connector : List TxOut

def Funding.exit (f : Funding) (outpoint : OutPoint) : Bitcoin.Transaction :=
  transaction [outpoint] [f.payout, f.intermediate, f.change]

/-- The transactions of a withdrawal keep to its price: the coin is the payout, the connector
funding, the change and the fee, and the connector funding is the connector. -/
structure Balanced (seen : Event (Api L) → Prop) (record : ExitRecord L) (outpoint : OutPoint)
    (f : Funding) : Prop where
  price : ∃ speed, speedIndex record.speed = .ok speed ∧
    record.feeSats = record.quote.fees speed ∧
    Priced record.quote speed record.payoutSats record.leaves
  listed : ∃ coins, seen ⟨.listUnspent, .ok coins⟩ ∧ Listed coins f.value outpoint
  exit : L.deserializeHex record.rawExit = .ok (f.exit outpoint)
  payout : f.payout.value.toNat = record.payoutSats
  dust : L.minimalNonDust f.payout.scriptPubkey ≤ record.payoutSats
  conserved : f.value.toNat = f.payout.value.toNat + f.intermediate.value.toNat +
    f.change.value.toNat + record.feeSats
  change : connectorSats ≤ f.change.value.toNat
  connector : L.deserializeHex record.rawConnector =
    .ok (transaction [⟨L.computeTxid (f.exit outpoint), 1⟩] f.connector)
  connectorCount : f.connector.length = record.leaves.length + 1
  connectorValue : ∀ output ∈ f.connector, output.value.toNat = connectorSats
  connectorFunding : (f.connector.map (·.value.toNat)).sum = f.intermediate.value.toNat

theorem Balanced.mono {seen seen' : Event (Api L) → Prop} {record : ExitRecord L}
    {outpoint : OutPoint} {f : Funding} (hb : Balanced seen record outpoint f)
    (hseen : ∀ e, seen e → seen' e) : Balanced seen' record outpoint f := by
  obtain ⟨coins, hlisted, hcoin⟩ := hb.listed
  exact { hb with listed := ⟨coins, hseen _ hlisted, hcoin⟩ }

/-- How `reserve` spends a coin on a payout for `n` leaves. -/
def Funding.of (value : UInt64) (payout fee n : Nat)
    (address intermediateAddress changeAddress : Script) (connector : List TxOut) : Funding where
  value := value
  payout := ⟨UInt64.ofNat payout, address⟩
  intermediate := ⟨UInt64.ofNat (connectorSats * (n + 1)), intermediateAddress⟩
  change := ⟨UInt64.ofNat (value.toNat - payout - connectorSats * (n + 1) - fee), changeAddress⟩
  connector := connector

/-- Nothing is cut off when the coin is large enough. -/
theorem Funding.of_values {value : UInt64} {payout fee n : Nat}
    {address intermediateAddress changeAddress : Script} {outputs : List TxOut} {f : Funding}
    (hf : f = .of value payout fee n address intermediateAddress changeAddress outputs)
    (hlarge : payout + fee + (connectorSats * (n + 1) + connectorSats) ≤ value.toNat) :
    f.payout.value.toNat = payout ∧ f.intermediate.value.toNat = connectorSats * (n + 1) ∧
      f.change.value.toNat = value.toNat - payout - connectorSats * (n + 1) - fee := by
  subst hf
  have hvalue := value.toNat_lt
  refine ⟨Nat.mod_eq_of_lt ?_, Nat.mod_eq_of_lt ?_, Nat.mod_eq_of_lt ?_⟩ <;> omega

/-- The transactions of a coin that is large enough are balanced. -/
theorem balanced_of {seen : Event (Api L) → Prop} {record : ExitRecord L}
    {outpoint : OutPoint} {coins : List Coin} {value : UInt64} {speed : Fin 3}
    {address intermediateAddress changeAddress : Script} {outputs : List TxOut}
    {f : Funding} (hf : f = Funding.of value record.payoutSats record.feeSats
      record.leaves.length address intermediateAddress changeAddress outputs)
    (hspeed : speedIndex record.speed = .ok speed)
    (hfee : record.feeSats = record.quote.fees speed)
    (hpriced : Priced record.quote speed record.payoutSats record.leaves)
    (hdust : L.minimalNonDust address ≤ record.payoutSats)
    (hseen : seen ⟨.listUnspent, .ok coins⟩) (hlisted : Listed coins value outpoint)
    (hlarge : record.payoutSats + record.feeSats +
      (connectorSats * (record.leaves.length + 1) + connectorSats) ≤ value.toNat)
    (hexit : record.rawExit = L.serializeHex (f.exit outpoint))
    (hconnector : record.rawConnector =
      L.serializeHex (transaction [⟨L.computeTxid (f.exit outpoint), 1⟩] outputs))
    (houtputs : outputs.length = record.leaves.length + 1 ∧
      ∀ output ∈ outputs, output.value = UInt64.ofNat connectorSats) :
    Balanced seen record outpoint f := by
  -- the three amounts fit 64 bits, so the outputs carry them as they are
  obtain ⟨hpayout, hintermediate, hchange⟩ := Funding.of_values hf hlarge
  subst hf
  have hsats : ∀ output ∈ outputs, output.value.toNat = connectorSats := by
    intro output houtput
    rw [houtputs.2 output houtput]
    rfl
  constructor
  case price => exact ⟨speed, hspeed, hfee, hpriced⟩
  case listed => exact ⟨coins, hseen, hlisted⟩
  case exit =>
    rw [hexit]
    exact L.roundtrip _ (by simp [Funding.exit, transaction])
  case payout => exact hpayout
  case dust => exact hdust
  case conserved =>
    show value.toNat = _
    rw [hpayout, hintermediate, hchange]
    omega
  case change =>
    show connectorSats ≤ _
    rw [hchange]
    omega
  case connector =>
    rw [hconnector]
    exact L.roundtrip _ (by simp [transaction])
  case connectorCount => exact houtputs.1
  case connectorValue => exact hsats
  case connectorFunding =>
    -- every output of the connector has the same value
    have hall : outputs.map (·.value.toNat) =
        List.replicate (record.leaves.length + 1) connectorSats := by
      rw [← houtputs.1]
      exact List.map_eq_replicate_iff.mpr hsats
    show (outputs.map (·.value.toNat)).sum = _
    rw [hall, List.sum_replicate_nat, hintermediate, Nat.mul_comm]

end OpenSsp.Coop
