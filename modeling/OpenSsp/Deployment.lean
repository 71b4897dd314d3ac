/-
OpenSsp/Deployment.lean

What the program takes from outside its own sources: key, invoice and offer parsers,
the SDK's HTLC script, and the configuration.  A `Deployment` fixes them; every
result holds for every deployment.

Third-party parsers report their own error texts, which are part of the parameters.
The one law a deployment carries is that nothing parses both as a BOLT11 invoice and
starts like a BOLT12 offer: invoices start with `ln` and a currency code.
-/
import OpenSsp.Lib.Uuid
import OpenSsp.Lib.Sha256

namespace OpenSsp

open Interleave

/-- Thirty-two bytes: payment hashes and preimages. -/
structure Bytes32 where
  bytes : List UInt8
  size : bytes.length = 32
deriving DecidableEq

namespace Bytes32

/-- 32 bytes, and no other number. -/
def ofBytes (bs : List UInt8) : Option Bytes32 :=
  if h : bs.length = 32 then some ⟨bs, h⟩ else none

/-- One byte thirty-two times. -/
def fill (b : UInt8) : Bytes32 := ⟨List.replicate 32 b, List.length_replicate⟩

/-- The bytes in hexadecimal. -/
def text (b : Bytes32) : String := hexEncode b.bytes

def parse (s : String) : Option Bytes32 := (hexDecode s).bind ofBytes

/-- The SHA-256 digest of a preimage. -/
def computeHash (b : Bytes32) : Bytes32 := ⟨sha256 b.bytes, sha256_length _⟩

/-- Reading what was written. -/
@[simp] theorem ofBytes_bytes (b : Bytes32) : ofBytes b.bytes = some b := by
  simp [ofBytes, b.size]

/-- Parsing what was printed. -/
@[simp] theorem parse_text (b : Bytes32) : parse b.text = some b := by
  simp [parse, text, hexDecode_hexEncode]

/-- Two digits are a byte. -/
@[simp] theorem text_length (b : Bytes32) : b.text.length = 64 := by
  simp [text, b.size]

end Bytes32

/-- A secp256k1 public key, named by its compressed serialisation. -/
structure PublicKey where
  serialized : String
deriving DecidableEq

abbrev Script := List UInt8

inductive Network where
  | bitcoin
  | testnet
  | signet
  | regtest
deriving DecidableEq

/-- The parts of a decoded BOLT11 invoice the program reads. -/
structure Bolt11Invoice where
  network : Network
  amountMilliSatoshis : Option Nat
  paymentHash : Bytes32
  /-- Unix seconds after which `would_expire` answers yes. -/
  expiresAt : Nat

/-- `str::to_lowercase`, on the texts that are lowered here. -/
def lowercase (s : String) : String := String.ofList (s.toList.map Char.toLower)

/-- The letters `A` to `Z` are looked at one by one; no other character changes. -/
theorem toLower_toLower (c : Char) : c.toLower.toLower = c.toLower := by
  have hc : c = Char.ofNat c.toNat := (Char.ofNat_toNat c).symm
  by_cases h : 65 ≤ c.toNat ∧ c.toNat ≤ 90
  · obtain ⟨hl, hu⟩ := h
    generalize c.toNat = m at hl hu hc
    subst hc
    interval_cases m <;> decide
  · have hself : c.toLower = c := dif_neg h
    rw [hself, hself]

/-- Lowering twice is lowering once. -/
@[simp] theorem lowercase_lowercase (s : String) : lowercase (lowercase s) = lowercase s := by
  rw [lowercase, lowercase, String.toList_ofList, List.map_map]
  exact congrArg String.ofList (List.map_congr_left fun c _ => toLower_toLower c)

/-- The canonical text of parsed bytes is the text in lower case. -/
theorem Bytes32.text_of_parse {s : String} {b : Bytes32} (h : Bytes32.parse s = some b) :
    b.text = lowercase s := by
  obtain ⟨bs, hbs, hb⟩ := Option.bind_eq_some_iff.mp h
  unfold ofBytes at hb
  split at hb
  · obtain rfl := Option.some.inj hb
    rw [Bytes32.text, hexEncode, hexChars_hexDecodeChars hbs, lowercase]
  · simp at hb

/-- `to_ascii_lowercase().starts_with("lno1")` -/
def isOffer (invoice : String) : Bool := (lowercase invoice).toList.take 4 == ['l', 'n', 'o', '1']

/-- Configuration and third-party parsers. -/
structure Deployment where
  identity : PublicKey
  networkName : String
  invoiceNetwork : Network
  feeFlatSatsSwap : Nat
  maxSwapTotalSats : Nat
  parsePublicKey : String → Except String PublicKey
  parseInvoice : String → Except String Bolt11Invoice
  offerId : String → Except String String
  htlcScript : Bytes32 → PublicKey → PublicKey → Except String Script
  invoice_not_offer : ∀ s i, parseInvoice s = .ok i → isOffer s = false

/-- A deployment for concrete runs: a key is its own text, and an invoice for one satoshi
that never expires is a prefix with the payment hash. -/
def Deployment.sample : Deployment where
  identity := ⟨"ssp"⟩
  networkName := "REGTEST"
  invoiceNetwork := .regtest
  feeFlatSatsSwap := 0
  maxSwapTotalSats := 0
  parsePublicKey s := .ok ⟨s⟩
  parseInvoice s :=
    if s.toList.take 5 = ['l', 'n', 's', 's', 'p'] then
      match Bytes32.parse (String.ofList (s.toList.drop 5)) with
      | some hash => .ok ⟨.regtest, some 1000, hash, 2 ^ 40⟩
      | none => .error "invalid payment hash"
    else .error "invalid invoice"
  offerId s := if isOffer s then .ok s else .error "invalid offer"
  htlcScript _ _ _ := .ok [1]
  invoice_not_offer s i h := by
    split at h
    · next hs =>
        have hlower : (lowercase s).toList.take 4 = ['l', 'n', 's', 's'] := by
          rw [lowercase, String.toList_ofList, ← List.map_take]
          have htake : s.toList.take 4 = ['l', 'n', 's', 's'] := by
            have h5 := congrArg (List.take 4) hs
            rwa [List.take_take] at h5
          rw [htake]
          decide
        rw [isOffer, hlower]
        decide
    · simp at h

/-- `checked_mul` on `u64`. -/
def checkedMul (a b : Nat) : Option Nat := if a * b < 2 ^ 64 then some (a * b) else none

/-- `checked_add` on `u64`. -/
def checkedAdd (a b : Nat) : Option Nat := if a + b < 2 ^ 64 then some (a + b) else none

/-- `checked_sub` -/
def checkedSub (a b : Nat) : Option Nat := if b ≤ a then some (a - b) else none

/-- A product that was computed did not overflow. -/
theorem checkedMul_eq_some {a b c : Nat} (h : checkedMul a b = some c) :
    c = a * b ∧ a * b < 2 ^ 64 := by
  unfold checkedMul at h
  split at h
  · exact ⟨(Option.some.inj h).symm, ‹_›⟩
  · simp at h

/-- Neither did a sum. -/
theorem checkedAdd_eq_some {a b c : Nat} (h : checkedAdd a b = some c) :
    c = a + b ∧ a + b < 2 ^ 64 := by
  unfold checkedAdd at h
  split at h
  · exact ⟨(Option.some.inj h).symm, ‹_›⟩
  · simp at h

/-- `Option::ok_or` -/
def okOr {α : Type} (e : String) (o : Option α) : Except String α :=
  match o with
  | some a => .ok a
  | none => .error e

@[simp] theorem okOr_some {α : Type} (e : String) (a : α) : okOr e (some a) = .ok a := rfl

@[simp] theorem okOr_none {α : Type} (e : String) : okOr e (none : Option α) = .error e := rfl

/-- `ok_or` succeeds with what is there. -/
theorem okOr_eq_ok {α : Type} {e : String} {o : Option α} {a : α} :
    okOr e o = .ok a ↔ o = some a := by
  cases o <;> simp [okOr]

/-! ### Inverting a sequence of checks -/

section checks

variable {ε α β : Type} {e : ε}

/-- A computed bind has both its parts computed. -/
theorem bind_ok {x : Except ε α} {f : α → Except ε β} {b : β} (h : (x >>= f) = .ok b) :
    ∃ a, x = .ok a ∧ f a = .ok b := by
  rcases x with e | a
  · simp [bind, Except.bind] at h
  · exact ⟨a, rfl, h⟩

/-- A passed guard does not hold. -/
theorem guard_ok {c : Prop} [Decidable c] {k : Unit → Except ε α} {a : α}
    (h : (if c then (throw e : Except ε Unit) >>= k else k ()) = .ok a) : ¬ c ∧ k () = .ok a := by
  by_cases hc : c
  · rw [if_pos hc] at h
    simp [throw, throwThe, MonadExceptOf.throw, bind, Except.bind] at h
  · rw [if_neg hc] at h
    exact ⟨hc, h⟩

/-- A bind is computed exactly when both parts are. -/
theorem bind_eq_ok {x : Except ε α} {f : α → Except ε β} {b : β} :
    (x >>= f) = .ok b ↔ ∃ a, x = .ok a ∧ f a = .ok b :=
  ⟨bind_ok, fun ⟨_, hx, hf⟩ => by rw [hx]; exact hf⟩

/-- A guard is passed exactly when it does not hold. -/
theorem guard_eq_ok {c : Prop} [Decidable c] {k : Unit → Except ε α} {a : α} :
    (if c then (throw e : Except ε Unit) >>= k else k ()) = .ok a ↔ ¬ c ∧ k () = .ok a :=
  ⟨guard_ok, fun ⟨hc, hk⟩ => by rw [if_neg hc]; exact hk⟩

/-- A check that is the last step. -/
theorem check_eq_ok {c : Prop} [Decidable c] {u : Unit} :
    (if c then (throw e : Except ε Unit) else pure ()) = .ok u ↔ ¬ c := by
  by_cases hc : c
  · rw [if_pos hc]
    exact ⟨(nomatch ·), fun h => absurd hc h⟩
  · rw [if_neg hc]
    exact ⟨fun _ => hc, fun _ => rfl⟩

/-- A loop passes when every element does. -/
theorem forM_eq_ok {f : α → Except ε Unit} {l : List α} {u : Unit} :
    l.forM f = .ok u ↔ ∀ a ∈ l, f a = .ok () := by
  induction l with
  | nil => exact ⟨fun _ _ ha => absurd ha List.not_mem_nil, fun _ => rfl⟩
  | cons a l ih =>
      rw [List.forall_mem_cons]
      refine Iff.trans (bind_eq_ok (f := fun _ : Unit => l.forM f)) ?_
      constructor
      · rintro ⟨_, hf, hl⟩
        exact ⟨hf, ih.mp hl⟩
      · rintro ⟨hf, hl⟩
        exact ⟨(), hf, ih.mpr hl⟩

/-- A mapped result comes from a result. -/
theorem map_ok {f : α → β} {x : Except ε α} {b : β} (h : x.map f = .ok b) :
    ∃ a, x = .ok a ∧ f a = b := by
  rcases x with e | a
  · simp [Except.map] at h
  · exact ⟨a, rfl, Except.ok.inj h⟩

/-- A result that is there was computed. -/
theorem toOption_ok {x : Except ε α} {a : α} (h : x.toOption = some a) : x = .ok a := by
  rcases x with e | b
  · simp [Except.toOption] at h
  · exact congrArg _ (Option.some.inj h)

end checks

/-- Satoshis as millisatoshis, unless they overflow. -/
def satsToMsats (sats : Nat) : Except String Nat :=
  okOr "amount_sats is too large" (checkedMul sats 1000)

end OpenSsp
