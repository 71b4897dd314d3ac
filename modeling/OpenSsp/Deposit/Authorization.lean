/-
OpenSsp/Deposit/Authorization.lean

What a wallet signs for a claim of a static deposit (`validate_static_authorization` and
`instant_authorization` in `spark.rs`, `authorization_digest` in `instant_deposits.rs`).

A fixed claim is authorized by a statement whose parts are run together, an instant claim by a
message whose parts are framed.  The owner of the deposit signs it, and hands over a share of the key
of the deposited output.  The checks are made before a claim is entered, and the plan of the claim
keeps the signature and the share, so that every stored claim is authorized by its owner; and no
statement authorizes two claims.

Main result: `deposits_authorized`.
-/
import OpenSsp.Lib.Base64
import OpenSsp.Lib.Framing
import OpenSsp.Deposit.Backing

namespace OpenSsp.Deposit

open Interleave Interleave.Sha256 Bitcoin

/-! ### Keys and signatures -/

/-- The cryptographic libraries, with the identity key of the service. -/
structure Keys where
  Secret : Type
  Signature : Type
  /-- The name of the network, as the Spark library writes it. -/
  network : String
  /-- `UtxoSwapRequestType::Fixed` -/
  fixedType : UInt8
  encrypt : List UInt8 → Option (List UInt8)
  decrypt : List UInt8 → Option (List UInt8)
  secretFromSlice : List UInt8 → Option Secret
  secretBytes : Secret → List UInt8
  publicKey : Secret → List UInt8
  fromDer : List UInt8 → Option Signature
  fromCompact : List UInt8 → Option Signature
  verifyEcdsa : List UInt8 → Signature → PublicKey → Bool
  /-- What is encrypted to the identity can be read with it. -/
  decrypt_encrypt : ∀ plaintext encrypted, encrypt plaintext = some encrypted →
    decrypt encrypted = some plaintext
  fromSlice_bytes : ∀ secret, secretFromSlice (secretBytes secret) = some secret

/-- A signature of an instant claim can have either form. -/
def Keys.readSignature (K : Keys) (bytes : List UInt8) : Option K.Signature :=
  K.fromDer bytes <|> K.fromCompact bytes

variable {L : Library} (K : Keys) (C : Service L)

/-! ### What is signed -/

/-- What the owner of a fixed claim signs: the tag, the network, the outpoint, the credit and the
SSP's signature. -/
def staticStatement (q : DepositQuote) : Except String (List UInt8) := do
  let signature ← okOr "invalid quote signature" (hexDecode q.signature)
  return utf8Bytes "claim_static_deposit" ++ (utf8Bytes K.network ++ (utf8Bytes q.txid ++
    (littleEndian q.vout.toNat 4 ++ (K.fixedType :: littleEndian q.credit 8 ++ signature))))

/-- The tagged hasher of Spark begins with the digest of the tag, twice. -/
def instantTag : List UInt8 :=
  sha256 (encode [utf8Bytes "spark", utf8Bytes "claim_instant_static_deposit"])

/-- The values, each as its bytes; numbers have eight. -/
def instantFields (q : DepositQuote) (signature : List UInt8) : List (List UInt8) :=
  [utf8Bytes (lowercase q.network), bigEndian 3 8, bigEndian q.credit 8, bigEndian 0 8,
    utf8Bytes q.address, bigEndian (q.credit + q.fee) 8, signature]

/-- What the owner of an instant claim signs, each field behind its length. -/
def instantMessage (q : DepositQuote) : Except String (List UInt8) := do
  let signature ← okOr "invalid quote signature" (hexDecode q.signature)
  return instantTag ++ (instantTag ++ encode (instantFields q signature))

/-- The digest of that message. -/
def authorizationDigest (q : DepositQuote) : Except String (List UInt8) := do
  let message ← instantMessage q
  return sha256 message

/-! ### The checks -/

/-- The share of the key in a request: plain from older clients, or encrypted. -/
def shareBytes (raw encrypted : Option String) : Except String (List UInt8) :=
  match raw, encrypted with
  | some raw, none =>
      if raw.utf8ByteSize = 64 then okOr "invalid deposit key" (hexDecode raw)
      else .error "exactly one valid deposit key share required"
  | none, some encrypted =>
      if encrypted.utf8ByteSize = 258 then
        okOr "invalid encrypted deposit key" (hexDecode encrypted) >>= fun ciphertext =>
          okOr "cannot decrypt instant deposit key" (K.decrypt ciphertext)
      else .error "exactly one valid deposit key share required"
  | _, _ => .error "exactly one valid deposit key share required"

/-- The share as a secret key. -/
def decodeInstantDepositKey (raw encrypted : Option String) : Except String K.Secret := do
  let bytes ← shareBytes K raw encrypted
  okOr "invalid deposit key" (K.secretFromSlice bytes)

/-- `validate_static_authorization`: the encrypted share has to belong to the quoted address and the
owner has to have signed the statement. -/
def validateStaticAuthorization (quote : DepositQuote) (encrypted signature : String) :
    Except String Unit := do
  let encrypted ← okOr "invalid encrypted deposit key" (hexDecode encrypted)
  if encrypted.length ≠ 129 then throw "invalid encrypted deposit key length"
  let plaintext ← okOr "cannot decrypt static deposit key" (K.decrypt encrypted)
  let key ← okOr "invalid static deposit key" (K.secretFromSlice plaintext)
  if hexEncode (K.publicKey key) ≠ quote.signingKey then
    throw "static deposit key does not match the address"
  let statement ← staticStatement K quote
  let signature ← okOr "invalid user signature" (hexDecode signature)
  let signature ← okOr "invalid DER user signature" (K.fromDer signature)
  let owner ← okOr "invalid static deposit owner" (C.parsePublicKey quote.owner).toOption
  if ¬ K.verifyEcdsa (sha256 statement) signature owner then
    throw "invalid static deposit authorization"

/-- `instant_authorization`: the same checks for an instant claim; the share comes back encrypted,
as it is stored. -/
def instantAuthorization (quote : DepositQuote) (secret encrypted : Option String)
    (signature : String) : Except String String := do
  let key ← decodeInstantDepositKey K secret encrypted
  if hexEncode (K.publicKey key) ≠ quote.signingKey then
    throw "deposit key does not match the quoted address"
  let digest ← authorizationDigest quote
  let signature ← okOr "invalid user signature" (hexDecode signature)
  let signature ← okOr "invalid user signature" (K.readSignature signature)
  let owner ← okOr "invalid deposit owner" (C.parsePublicKey quote.owner).toOption
  if ¬ K.verifyEcdsa digest signature owner then throw "invalid instant deposit authorization"
  let sealed ← okOr "cannot encrypt deposit key" (K.encrypt (K.secretBytes key))
  return hexEncode sealed

/-- The service that checks authorizations with these keys. -/
def Service.authorizing : Service L :=
  { C with
    validateStaticAuthorization := Deposit.validateStaticAuthorization K C
    instantAuthorization := Deposit.instantAuthorization K C }

/-! ### What the checks establish -/

/-- The owner has signed the message with `signature`, and `encryptedKey` is a share of the key of
the quoted address, for the service to read. -/
structure Authorized (message : Except String (List UInt8))
    (read : List UInt8 → Option K.Signature) (q : DepositQuote)
    (signature encryptedKey : List UInt8) : Prop where
  signed : ∃ m sig owner, message = .ok m ∧ read signature = some sig ∧
    C.parsePublicKey q.owner = .ok owner ∧ K.verifyEcdsa (sha256 m) sig owner = true
  share : ∃ plaintext secret, K.decrypt encryptedKey = some plaintext ∧
    K.secretFromSlice plaintext = some secret ∧ hexEncode (K.publicKey secret) = q.signingKey

variable {K C} {q q' : DepositQuote}

/-- A value read through `Option` came from the text itself. -/
theorem toOption_ok {α : Type} {e : String} {x : Except String α} {a : α}
    (h : okOr e x.toOption = .ok a) : x = .ok a := by
  cases x with
  | error e' => cases h
  | ok b =>
      obtain rfl := Except.ok.inj h
      rfl

/-- The check passes only for a signature of this quote under the wallet's key. -/
theorem validateStaticAuthorization_ok {encrypted signature : String}
    (h : validateStaticAuthorization K C q encrypted signature = .ok ()) :
    ∃ key sig, hexDecode encrypted = some key ∧ hexDecode signature = some sig ∧
      Authorized K C (staticStatement K q) K.fromDer q sig key := by
  obtain ⟨key, hkey, h⟩ := bind_ok h
  obtain ⟨-, h⟩ := guard_ok h
  obtain ⟨plaintext, hplaintext, h⟩ := bind_ok h
  obtain ⟨secret, hsecret, h⟩ := bind_ok h
  obtain ⟨hsigning, h⟩ := guard_ok h
  obtain ⟨m, hm, h⟩ := bind_ok h
  obtain ⟨sig, hsig, h⟩ := bind_ok h
  obtain ⟨parsed, hparsed, h⟩ := bind_ok h
  obtain ⟨owner, howner, h⟩ := bind_ok h
  have hverified := not_not.mp (check_eq_ok.mp h)
  refine ⟨key, sig, okOr_eq_ok.mp hkey, okOr_eq_ok.mp hsig, ?_, ?_⟩
  · exact ⟨m, parsed, owner, hm, okOr_eq_ok.mp hparsed, toOption_ok howner, hverified⟩
  · exact ⟨plaintext, secret, okOr_eq_ok.mp hplaintext, okOr_eq_ok.mp hsecret, not_not.mp hsigning⟩

/-- The instant check passes only for a signature of this quote under the wallet's key. -/
theorem instantAuthorization_ok {secret encrypted : Option String} {signature result : String}
    (h : instantAuthorization K C q secret encrypted signature = .ok result) :
    ∃ key sig, hexDecode result = some key ∧ hexDecode signature = some sig ∧
      Authorized K C (instantMessage q) K.readSignature q sig key := by
  obtain ⟨share, -, h⟩ := bind_ok h
  obtain ⟨hsigning, h⟩ := guard_ok h
  obtain ⟨digest, hdigest, h⟩ := bind_ok h
  obtain ⟨sig, hsig, h⟩ := bind_ok h
  obtain ⟨parsed, hparsed, h⟩ := bind_ok h
  obtain ⟨owner, howner, h⟩ := bind_ok h
  obtain ⟨hverified, h⟩ := guard_ok h
  obtain ⟨sealed, hsealed, h⟩ := bind_ok h
  obtain rfl := Except.ok.inj h
  obtain ⟨m, hm, hdigest⟩ := bind_ok hdigest
  obtain rfl := Except.ok.inj hdigest
  refine ⟨sealed, sig, hexDecode_hexEncode sealed, okOr_eq_ok.mp hsig, ?_, ?_⟩
  · exact ⟨m, parsed, owner, hm, okOr_eq_ok.mp hparsed, toOption_ok howner, not_not.mp hverified⟩
  · -- the share was encrypted anew, to the identity
    have hread := K.decrypt_encrypt _ _ (okOr_eq_ok.mp hsealed)
    exact ⟨_, share, hread, K.fromSlice_bytes share, not_not.mp hsigning⟩

/-! ### A message is read in one way -/

/-- A fixed statement starts with its domain, the network and the outpoint. -/
theorem staticStatement_ok {m : List UInt8} (h : staticStatement K q = .ok m) :
    ∃ rest, m = utf8Bytes "claim_static_deposit" ++ (utf8Bytes K.network ++ (utf8Bytes q.txid ++
      (littleEndian q.vout.toNat 4 ++ rest))) := by
  obtain ⟨signature, -, h⟩ := bind_ok h
  exact ⟨_, (Except.ok.inj h).symm⟩

/-- An instant message is two tags and the encoded fields. -/
theorem instantMessage_ok {m : List UInt8} (h : instantMessage q = .ok m) :
    ∃ signature, hexDecode q.signature = some signature ∧
      m = instantTag ++ (instantTag ++ encode (instantFields q signature)) := by
  obtain ⟨signature, hsignature, h⟩ := bind_ok h
  exact ⟨signature, okOr_eq_ok.mp hsignature, (Except.ok.inj h).symm⟩

/-- A statement names its output, as long as transaction ids have one length. -/
theorem staticStatement_output {m : List UInt8} (h : staticStatement K q = .ok m)
    (h' : staticStatement K q' = .ok m)
    (hlength : (utf8Bytes q.txid).length = (utf8Bytes q'.txid).length) :
    (q.txid, q.vout) = (q'.txid, q'.vout) := by
  obtain ⟨rest, rfl⟩ := staticStatement_ok h
  obtain ⟨rest', heq⟩ := staticStatement_ok h'
  have heq := List.append_cancel_left (List.append_cancel_left heq)
  obtain ⟨htxid, heq⟩ := List.append_inj heq hlength
  obtain ⟨hvout, -⟩ := List.append_inj heq (by rw [littleEndian_length, littleEndian_length])
  have hvout := littleEndian_inj hvout
  have hlt := q.vout.toNat_lt
  have hlt' := q'.vout.toNat_lt
  rw [Nat.mod_eq_of_lt (by omega), Nat.mod_eq_of_lt (by omega)] at hvout
  exact Prod.ext (utf8Bytes_inj htxid) (UInt32.toNat_inj.mp hvout)

/-- The numbers and lengths of the quote are those of 64-bit words. -/
structure DepositQuote.Fits (q : DepositQuote) : Prop where
  value : q.credit + q.fee < 256 ^ 8
  network : Short (utf8Bytes (lowercase q.network))
  address : Short (utf8Bytes q.address)
  signature : ∀ bytes, hexDecode q.signature = some bytes → Short bytes

/-- What the message of an instant claim says. -/
structure SameTerms (q q' : DepositQuote) : Prop where
  network : lowercase q.network = lowercase q'.network
  credit : q.credit = q'.credit
  fee : q.fee = q'.fee
  address : q.address = q'.address
  signature : hexDecode q.signature = hexDecode q'.signature

/-- Every field of a fitting quote is short enough for its length prefix. -/
theorem DepositQuote.Fits.fields (hq : q.Fits) {signature : List UInt8}
    (hsignature : hexDecode q.signature = some signature) :
    ∀ field ∈ instantFields q signature, Short field := by
  have hnumber : ∀ n, Short (bigEndian n 8) := by
    intro n
    rw [Short, bigEndian_length]
    exact Nat.lt_of_lt_of_le (by omega) (Nat.le_self_pow (by omega) 256)
  simp only [instantFields, List.forall_mem_cons]
  refine ⟨hq.network, hnumber _, hnumber _, hnumber _, hq.address, hnumber _,
    hq.signature _ hsignature, nofun⟩

/-- Two fitting quotes with one message have the same terms. -/
theorem instantMessage_terms {m : List UInt8} (hq : q.Fits) (hq' : q'.Fits)
    (h : instantMessage q = .ok m) (h' : instantMessage q' = .ok m) : SameTerms q q' := by
  obtain ⟨signature, hsignature, rfl⟩ := instantMessage_ok h
  obtain ⟨signature', hsignature', heq⟩ := instantMessage_ok h'
  have heq := List.append_cancel_left (List.append_cancel_left heq)
  have hfields := encode_inj (hq.fields hsignature) (hq'.fields hsignature') heq
  simp only [instantFields, List.cons.injEq, and_true, true_and] at hfields
  obtain ⟨hnetwork, hcredit, haddress, hvalue, hbytes⟩ := hfields
  have hcredit := bigEndian_inj hcredit
  have hvalue := bigEndian_inj hvalue
  have hfits := hq.value
  have hfits' := hq'.value
  rw [Nat.mod_eq_of_lt (by omega), Nat.mod_eq_of_lt (by omega)] at hcredit hvalue
  refine ⟨utf8Bytes_inj hnetwork, hcredit, by omega, utf8Bytes_inj haddress, ?_⟩
  rw [hsignature, hsignature', hbytes]

set_option maxRecDepth 10000 in
/-- The two kinds of message differ in their first byte. -/
theorem instantTag_head : instantTag.head? ≠ some 0x63 := by decide +kernel

/-- No signature is one of both. -/
theorem messages_apart {m : List UInt8} (h : staticStatement K q = .ok m) :
    instantMessage q' ≠ .ok m := by
  intro h'
  obtain ⟨rest, rfl⟩ := staticStatement_ok h
  obtain ⟨signature, -, heq⟩ := instantMessage_ok h'
  have hhead := congrArg List.head? heq
  have hlong : instantTag ≠ [] := by
    apply List.ne_nil_of_length_pos
    rw [instantTag, sha256_length]
    omega
  rw [List.head?_append_of_ne_nil _ hlong] at hhead
  exact instantTag_head hhead.symm

/-! ### Calls that enter no claim -/

/-- An action that enters no claim. -/
def Enterless {α : Type} (act : Ssp L α) : Prop := Act.Calls (fun c : Call L => c.enters = false) act

/-- A quiet call enters no claim. -/
theorem Call.quiet_enters {c : Call L} (hc : c.quiet = true) : c.enters = false := by
  cases c with
  | db query =>
      cases query with
      | insertClaim record => cases hc
      | insertInstant record maxDeposit limit => cases hc
      | _ => rfl
  | _ => rfl

theorem Quiet.enterless {α : Type} {act : Ssp L α} (hact : Quiet act) : Enterless act :=
  Act.Calls.mono hact fun _ => Call.quiet_enters

/-- Below the level of a new claim none is entered. -/
theorem Call.enters_of_level {c : Call L} (hc : c.level ≤ 3) : c.enters = false := by
  cases c with
  | db query =>
      cases query with
      | insertClaim record => simp [Call.level] at hc
      | insertInstant record maxDeposit limit => simp [Call.level] at hc
      | _ => rfl
  | _ => rfl

/-- A function of level three enters no claim. -/
theorem Within.enterless {α : Type} {act : Ssp L α} (hact : Within 3 act) : Enterless act :=
  Act.Calls.mono hact fun _ => Call.enters_of_level

namespace Enterless

variable {α : Type}

theorem ask {c : Call L} {conv : c.Reply → Except String α} (hc : c.enters = false) :
    Enterless (Act.ask (I := Api L) c conv) := Act.Calls.ask hc

theorem locked {l : Lock} {act : Ssp L α} (hact : Enterless act) :
    Enterless (Deposit.locked l act) :=
  Act.Calls.bracket (tell_quiet (c := .lock l) rfl).enterless
    (tell_quiet (c := .unlock l) rfl).enterless hact

end Enterless

theorem pass_enterless : Enterless (pass C) := by
  apply Enterless.locked
  apply (Act.Calls.attempt (Enterless.ask rfl)).bind
  rintro (e | records)
  · exact .pure
  · exact Act.Calls.forEach (fun record => (recover_within le_rfl record).enterless.locked) records

theorem instantPass_enterless : Enterless (instantPass C) := by
  apply (Act.Calls.attempt (Enterless.ask rfl)).bind
  rintro (e | records)
  · exact .pure
  · exact Act.Calls.forEach
      (fun record => (recoverInstantClaim_within le_rfl record).enterless.locked.locked) records

/-! ### The contract -/

variable (K C) in
/-- The owner of the deposit has authorized the claim, as its plan shows. -/
def DepositClaim.Authorized (r : DepositClaim L) : Prop :=
  Deposit.Authorized K C (staticStatement K r.quote) K.fromDer r.quote
    r.plan.request.userSignature r.plan.encryptedKey

variable (K C) in
@[inherit_doc DepositClaim.Authorized]
def InstantClaim.Authorized (r : InstantClaim L) : Prop :=
  Deposit.Authorized K C (instantMessage r.quote.deposit) K.readSignature r.quote.deposit
    r.plan.request.userSignature r.plan.encryptedKey

variable (K C) in
/-- A claim is entered only with its authorization. -/
def Permits (_ : History (Api L)) : Call L → Prop
  | .db (.insertClaim r) => r.Authorized K C
  | .db (.insertInstant r _ _) => r.Authorized K C
  | _ => True

/-- Only the two inserts need an authorization. -/
theorem enters_permits {h : History (Api L)} {c : Call L} (hc : c.enters = false) :
    Permits K C h c := by
  cases c with
  | db query =>
      cases query with
      | insertClaim record => cases hc
      | insertInstant record maxDeposit limit => cases hc
      | _ => trivial
  | _ => trivial

variable (K C) in
/-- An action that enters authorized claims alone. -/
def Permitted {α : Type} (act : Ssp L α) (R : α → History (Api L) → Prop) (h : History (Api L)) :
    Prop :=
  Act.Spec (Permits K C) (fun _ => True) act R h

/-- A function that enters nothing is permitted after any history. -/
theorem Enterless.permitted {α : Type} {act : Ssp L α} (hact : Enterless act)
    (h : History (Api L)) : Permitted K C act (fun _ _ => True) h :=
  Act.Calls.spec hact (fun _ _ => enters_permits) h

theorem ask_permitted {α : Type} {c : Call L} {conv : c.Reply → Except String α}
    (hc : c.enters = false) (h : History (Api L)) :
    Permitted K C (Act.ask (I := Api L) c conv) (fun _ _ => True) h := (Enterless.ask hc).permitted h

theorem uuid_permitted (h : History (Api L)) :
    Permitted K C (tell .newUuid) (fun _ _ => True) h :=
  (tell_quiet (c := .newUuid) rfl).enterless.permitted h

/-- What is relied on in the libraries that read texts. -/
structure Service.Decodes (C : Service L) : Prop where
  hex : ∀ text bytes, C.hexBytes text = .ok bytes → hexDecode text = some bytes
  txid : ∀ text txid, C.parseTxid text = some txid → (utf8Bytes text).length = 64

/-- The plan keeps the signature and the key. -/
def Keeps (C : Service L) (signature encrypted : String) (plan : StaticPlan L) : Prop :=
  C.hexBytes signature = .ok plan.request.userSignature ∧
    C.hexBytes encrypted = .ok plan.encryptedKey

/-- The plan carries the quote, the key and the signature it was made from. -/
theorem prepareStaticClaim_keeps (quote : DepositQuote) (encrypted signature transferId : String)
    (spend : Bitcoin.Transaction) (h : History (Api L)) :
    Finds (prepareStaticClaim C quote encrypted signature transferId spend)
      (fun plan _ => Keeps C signature encrypted plan) h := by
  refine Act.Spec.bind (Act.Spec.ask_eq (I := Api L) (c := .selectLeaves quote.credit) trivial
    fun _ => trivial) ?_
  rintro leaves h₁ - -
  refine Act.Spec.bind Act.Spec.ofExcept_eq ?_
  rintro owner h₂ - -
  refine Act.Spec.bind Act.Spec.ofExcept_eq ?_
  rintro id h₃ - -
  refine Act.Spec.bind (Act.Spec.ask_eq (I := Api L) (c := .prepareTransfer id leaves owner) trivial
    fun _ => trivial) ?_
  rintro transfer h₄ - -
  refine Act.Spec.bind (Act.Spec.ask_eq (I := Api L) (c := .newNonce) trivial fun _ => trivial) ?_
  rintro nonce h₅ - -
  refine Act.Spec.bind Act.Spec.ofExcept_eq ?_
  rintro txid h₆ - -
  refine Act.Spec.bind Act.Spec.ofExcept_eq ?_
  rintro sspSignature h₇ - -
  refine Act.Spec.bind Act.Spec.ofExcept_eq ?_
  rintro userSignature h₈ - ⟨hsignature, -⟩
  refine Act.Spec.bind Act.Spec.ofExcept_eq ?_
  rintro signingPublicKey h₉ - -
  refine Act.Spec.bind Act.Spec.ofExcept_eq ?_
  rintro encryptedKey h₁₀ - ⟨hencrypted, -⟩
  exact .pure ⟨hsignature, hencrypted⟩

/-- The planned claim was authorized before it is handed on. -/
theorem prepareStaticClaim_permitted (quote : DepositQuote)
    (encrypted signature transferId : String) (spend : Bitcoin.Transaction)
    (h : History (Api L)) :
    Permitted K C (prepareStaticClaim (C.authorizing K) quote encrypted signature transferId spend)
      (fun plan _ => Keeps C signature encrypted plan) h := by
  refine Act.Spec.mono (Act.Calls.spec_after (prepareStaticClaim_within (n := 3) _ _ _ _ _)
    (fun _ _ hc => enters_permits (Call.enters_of_level hc))
    (prepareStaticClaim_keeps _ _ _ _ _ []) h) (fun _ _ => trivial) ?_
  rintro plan h' - ⟨new, -, -, hkeeps⟩
  exact hkeeps

/-- What was checked is what the plan keeps. -/
theorem Keeps.authorized (hC : C.Decodes) {signature encrypted : String} {plan : StaticPlan L}
    (hkeeps : Keeps C signature encrypted plan) {message : Except String (List UInt8)}
    {read : List UInt8 → Option K.Signature}
    (h : ∃ key sig, hexDecode encrypted = some key ∧ hexDecode signature = some sig ∧
      Authorized K C message read q sig key) :
    Authorized K C message read q plan.request.userSignature plan.encryptedKey := by
  obtain ⟨key, sig, hkey, hsig, hauthorized⟩ := h
  obtain ⟨hsignature, hencrypted⟩ := hkeeps
  obtain rfl := Option.some.inj (hsig.symm.trans (hC.hex _ _ hsignature))
  obtain rfl := Option.some.inj (hkey.symm.trans (hC.hex _ _ hencrypted))
  exact hauthorized

/-- `new_claim` inserts only what it has verified. -/
theorem newClaim_permitted (hC : C.Decodes) (owner txid : String) (vout : UInt32)
    (input : ClaimInput) (h : History (Api L)) :
    Permitted K C (newClaim (C.authorizing K) owner txid vout input) (fun _ _ => True) h := by
  apply Act.Spec.bind (ask_permitted (c := .db (.depositQuote txid vout owner)) rfl h)
  intro found h₁ _ _
  apply Act.Spec.bind Act.Spec.ofExcept_eq
  rintro quote h₂ _ -
  apply Act.Spec.guard
  intro _
  apply Act.Spec.bind Act.Spec.ofExcept_eq
  rintro encrypted h₃ _ -
  apply Act.Spec.bind Act.Spec.ofExcept_eq
  rintro signature h₄ _ -
  apply Act.Spec.bind Act.Spec.ofExcept_eq
  rintro _ h₅ _ ⟨hvalid, -⟩
  apply Act.Spec.bind (ask_permitted (c := .getTxOut txid vout.toNat) rfl h₅)
  intro coin h₆ _ _
  apply Act.Spec.guard
  intro _
  apply Act.Spec.bind (ask_permitted (c := .getRawChangeAddress) rfl h₆)
  intro destination h₇ _ _
  apply Act.Spec.bind Act.Spec.ofExcept_eq
  rintro parsed h₈ _ -
  apply Act.Spec.bind (uuid_permitted h₈)
  intro transfer h₉ _ _
  apply Act.Spec.bind (prepareStaticClaim_permitted _ _ _ _ _ h₉)
  intro plan h₁₀ _ hkeeps
  apply Act.Spec.bind (uuid_permitted h₁₀)
  intro id h₁₁ _ _
  -- the record has the quote that was checked and the plan that was made after it
  have hauthorized : Authorized K C (staticStatement K quote) K.fromDer quote
      plan.request.userSignature plan.encryptedKey :=
    hkeeps.authorized hC (validateStaticAuthorization_ok hvalid)
  apply Act.Spec.bind (R := fun _ _ => True)
    (.ask hauthorized (fun _ => trivial) fun _ _ _ => trivial)
  intro _ h₁₂ _ _
  apply Act.Spec.bind ((advance_within le_rfl _).enterless.permitted h₁₂)
  exact fun _ _ _ _ => .pure trivial

/-- `new_instant_claim` inserts only what it has verified. -/
theorem newInstantClaim_permitted (hC : C.Decodes) (owner quoteId : String)
    (input : InstantClaimInput) (h : History (Api L)) :
    Permitted K C (newInstantClaim (C.authorizing K) owner quoteId input) (fun _ _ => True) h := by
  apply Act.Spec.bind (ask_permitted (c := .db (.instantQuoteById quoteId owner)) rfl h)
  intro quote h₁ _ _
  apply Act.Spec.bind (ask_permitted (c := .db .instantOutstanding) rfl h₁)
  intro outstanding h₂ _ _
  apply Act.Spec.bind Act.Spec.ofExcept_eq
  rintro _ h₃ _ -
  apply Act.Spec.bind Act.Spec.ofExcept_eq
  rintro signature h₄ _ -
  apply Act.Spec.bind Act.Spec.ofExcept_eq
  -- the check that decides: what follows can only insert this quote with this signature
  rintro encrypted h₅ _ ⟨hvalid, -⟩
  apply Act.Spec.bind (ask_permitted (c := .getTxOut _ _) rfl h₅)
  intro found h₆ _ _
  apply Act.Spec.bind Act.Spec.ofExcept_eq
  rintro coin h₇ _ -
  apply Act.Spec.bind Act.Spec.ofExcept_eq
  rintro value h₈ _ -
  apply Act.Spec.guard
  intro _
  apply Act.Spec.bind ((checkAncestors_within _ coin).enterless.permitted h₈)
  intro _ h₉ _ _
  apply Act.Spec.bind (ask_permitted (c := .db (.instantBusy owner quote.deposit)) rfl h₉)
  intro busy h₁₀ _ _
  apply Act.Spec.guard
  intro _
  apply Act.Spec.bind (ask_permitted (c := .getRawChangeAddress) rfl h₁₀)
  intro destination h₁₁ _ _
  apply Act.Spec.bind Act.Spec.ofExcept_eq
  rintro parsed h₁₂ _ -
  apply Act.Spec.bind (uuid_permitted h₁₂)
  intro transfer h₁₃ _ _
  apply Act.Spec.bind (prepareStaticClaim_permitted _ _ _ _ _ h₁₃)
  intro plan h₁₄ _ hkeeps
  apply Act.Spec.bind (uuid_permitted h₁₄)
  intro id h₁₅ _ _
  -- the plan carries the signature and the key that were checked
  have hauthorized : Authorized K C (instantMessage quote.deposit) K.readSignature quote.deposit
      plan.request.userSignature plan.encryptedKey :=
    hkeeps.authorized hC (instantAuthorization_ok hvalid)
  apply Act.Spec.bind (R := fun _ _ => True)
    (.ask hauthorized (fun _ => trivial) fun _ _ _ => trivial)
  intro _ h₁₆ _ _
  apply Act.Spec.bind ((advanceInstant_within le_rfl _).enterless.permitted h₁₆)
  exact fun _ _ _ _ => .pure trivial

/-- A lock around a permitted body changes nothing about its permissions. -/
theorem locked_permitted {α : Type} {l : Lock} {body : Ssp L α}
    (hbody : ∀ h', Permitted K C body (fun _ _ => True) h') (h : History (Api L)) :
    Permitted K C (locked l body) (fun _ _ => True) h := by
  apply Act.Spec.bracket (T := fun _ _ => True)
  · exact (tell_quiet (c := .lock l) rfl).enterless.permitted h
  · exact fun h' _ _ => hbody h'
  · intro h' _
    apply ((tell_quiet (c := .unlock l) rfl).enterless.permitted h').mono (fun _ => id)
    exact fun _ _ _ _ _ _ => trivial

/-- `claim` is permitted: a resumed claim is inserted by nobody. -/
theorem claim_permitted (hC : C.Decodes) (owner : String) (input : ClaimInput)
    (h : History (Api L)) :
    Permitted K C (claim (C.authorizing K) owner input) (fun _ _ => True) h := by
  apply Act.Spec.bind Act.Spec.ofExcept_eq
  rintro _ h₁ _ -
  apply Act.Spec.bind Act.Spec.ofExcept_eq
  rintro point h₂ _ -
  apply locked_permitted
  apply locked_permitted
  intro h₃
  apply Act.Spec.bind (ask_permitted (c := .db (.ownDepositClaim point.1 point.2 owner)) rfl h₃)
  intro existing h₄ _ _
  rcases existing with - | record
  · exact newClaim_permitted hC owner point.1 point.2 input h₄
  · apply Act.Spec.guard
    intro _
    apply Act.Spec.bind ((advance_within le_rfl record).enterless.permitted h₄)
    exact fun _ _ _ _ => .pure trivial

/-- `instant_claim` is permitted for the same reason. -/
theorem instantClaim_permitted (hC : C.Decodes) (owner : String) (input : InstantClaimInput)
    (h : History (Api L)) :
    Permitted K C (instantClaim (C.authorizing K) owner input) (fun _ _ => True) h := by
  apply Act.Spec.bind Act.Spec.ofExcept_eq
  rintro quoteId h₁ _ -
  apply locked_permitted
  apply locked_permitted
  intro h₂
  apply Act.Spec.bind (ask_permitted (c := .db (.instantClaimForQuote quoteId owner)) rfl h₂)
  intro existing h₃ _ _
  rcases existing with - | record
  · exact newInstantClaim_permitted hC owner quoteId input h₃
  · apply Act.Spec.bind ((advanceInstant_within le_rfl record).enterless.permitted h₃)
    exact fun _ _ _ _ => .pure trivial

/-- No request of the service inserts an unauthorized claim. -/
theorem handler_permitted (hC : C.Decodes) (r : Request) :
    ((machine (C.authorizing K)).handler r).wp (Permits K C) (fun _ _ => True) [] := by
  have hall : ∀ {α : Type} {act : Ssp L α}, Permitted K C act (fun _ _ => True) [] →
      (discard act.run : Prog (Api L) Unit).wp (Permits K C) (fun _ _ => True) [] := by
    intro α act hact
    rw [Prog.wp_discard]
    exact Prog.wp_mono hact.wp fun _ _ _ => trivial
  cases r with
  | quote owner input => exact hall ((quote_quiet owner input).enterless.permitted [])
  | claim owner input => exact hall (claim_permitted hC owner input [])
  | pass => exact hall (pass_enterless.permitted [])
  | instantQuote owner input => exact hall ((instantQuote_quiet owner input).enterless.permitted [])
  | instantClaim owner input => exact hall (instantClaim_permitted hC owner input [])
  | instantPass => exact hall (instantPass_enterless.permitted [])

/-! ### Runs -/

variable {ok : Config (machine C) → Move (machine C) → Prop} {s s' : Config (machine C)}

/-- A quote that was read for an output is one of it. -/
theorem quote_read (hs : Reach ok s) : ∀ t txid vout owner q,
    (t, (⟨.db (.depositQuote txid vout owner), .ok (some q)⟩ : Event (Api L))) ∈ s.trace →
    q.txid = txid := by
  refine hs.invariant (J := fun s : Config (machine C) => ∀ t txid vout owner q,
    (t, (⟨.db (.depositQuote txid vout owner), .ok (some q)⟩ : Event (Api L))) ∈ s.trace →
    q.txid = txid) ?_ ?_
  · intro t txid vout owner q he
    cases he
  · intro s s' m _ ih _ hst u txid vout owner q he
    rcases step_called hst with hidle | ⟨t, c, hist, reply, hc⟩
    · rw [hidle.trace] at he
      exact ih u txid vout owner q he
    · rw [hc.trace] at he
      rcases List.mem_cons.mp he with hnew | he
      · obtain ⟨-, he⟩ := Prod.mk.inj hnew
        obtain ⟨-, htxid, -⟩ := hc.depositQuote he
        exact htxid
      · exact ih u txid vout owner q he

/-- The transaction of a stored fixed claim is one. -/
theorem fixed_parses (hs : Reach ok s) :
    ∀ x ∈ s.world.db.fixed.rows, ∃ txid, C.parseTxid x.2.quote.txid = some txid := by
  refine hs.invariant (J := fun s : Config (machine C) => ∀ x ∈ s.world.db.fixed.rows,
    ∃ txid, C.parseTxid x.2.quote.txid = some txid) ?_ ?_
  · intro x hx
    cases hx
  · intro s s' m hr ih _ hst x hx
    rcases (step_fixed hr hst).origin hx with ⟨r, hold, hsame⟩ | ⟨t, k, hist, hth, -, -, -, -⟩
    · rw [hsame.quote]
      exact ih _ hold
    · obtain ⟨-, -, txid, vout, owner, point, hread, hlooked, -⟩ :
          Careful C hist (.db (.insertClaim x.2)) := hr.justified handler_careful hth
      rw [quote_read hr t txid vout owner _ (hr.history_mem t _ hth _ hread)]
      exact ⟨point.txid, hlooked.1⟩

/-- A fixed claim is found by its output. -/
theorem fixed_output (hs : Reach ok s) {x y : String × DepositClaim L}
    (hx : x ∈ s.world.db.fixed.rows) (hy : y ∈ s.world.db.fixed.rows)
    (h : (x.2.quote.txid, x.2.quote.vout) = (y.2.quote.txid, y.2.quote.vout)) : x = y := by
  have hkey : ∀ row ∈ s.world.db.claims.val,
      (row.txid, row.vout) = (row.data.quote.txid, row.data.quote.vout) := by
    intro row hrow
    have hof := fixed_row_of hs row hrow
    exact Prod.ext (congrArg (fun row => row.txid) hof) (congrArg (fun row => row.vout) hof)
  obtain ⟨row, hrow, rfl⟩ := Db.mem_fixed.mp hx
  obtain ⟨row', hrow', rfl⟩ := Db.mem_fixed.mp hy
  obtain rfl : row = row' := by
    apply List.inj_on_of_nodup_map s.world.db.claims.property.2 hrow hrow'
    exact (hkey row hrow).trans (h.trans (hkey row' hrow').symm)
  rfl

/-- Freezing an outpoint keeps the wallet's signature in the request. -/
theorem freezeOutpoint_signature {point : OutPoint} {request request' : SwapRequest L}
    (h : freezeOutpoint C point request = .ok request') :
    request'.userSignature = request.userSignature := by
  obtain ⟨job, -, h⟩ := bind_ok h
  obtain ⟨spend, -, h⟩ := bind_ok h
  obtain ⟨coin, -, h⟩ := bind_ok h
  obtain ⟨txid, -, h⟩ := bind_ok h
  obtain rfl := Except.ok.inj h
  rfl

/-- No write of the record touches what authorizes the claim. -/
theorem advance_authorization {r r' : InstantClaim L} {hist : History (Api L)}
    (ha : Advance C r hist r') : r'.plan.request.userSignature = r.plan.request.userSignature ∧
      r'.plan.encryptedKey = r.plan.encryptedKey := by
  cases ha with
  | paid hphase => exact ⟨rfl, rfl⟩
  | scanned tip hphase hscan => exact ⟨rfl, rfl⟩
  | prepared point request hphase hunspent hfreeze => exact ⟨freezeOutpoint_signature hfreeze, rfl⟩
  | signed spend hfrozen hopen => exact ⟨rfl, rfl⟩
  | settled confirmations hfrozen hopen hseen => exact ⟨rfl, rfl⟩

/-- Instant quotes that are stored, or were read, are issued by the service. -/
structure IssuedQuotes (s : Config (machine C)) : Prop where
  stored : ∀ q ∈ s.world.db.instantQuotes.rows, q.Issued C
  read : ∀ t id owner q,
    (t, (⟨.db (.instantQuoteById id owner), .ok q⟩ : Event (Api L))) ∈ s.trace → q.Issued C

/-- A step saves an instant quote only as it was issued. -/
theorem IssuedQuotes.step (hs : Reach ok s) (hq : IssuedQuotes s) {m : Move (machine C)}
    (hst : s.step m = some s') : IssuedQuotes s' := by
  rcases step_called hst with hidle | ⟨t, c, hist, reply, hc⟩
  · constructor
    · rw [hidle.db]
      exact hq.stored
    · rw [hidle.trace]
      exact hq.read
  · constructor
    · intro q hmem
      rcases hc.framed with hdb | ⟨query, rfl, hframed⟩
      · rw [hdb] at hmem
        exact hq.stored q hmem
      · rcases hframed.instantQuotes q hmem with hold | rfl
        · exact hq.stored q hold
        · exact (hc.careful hs).2
    · intro u id owner q hmem
      rw [hc.trace] at hmem
      rcases List.mem_cons.mp hmem with hnew | hold
      · obtain ⟨-, he⟩ := Prod.mk.inj hnew
        exact hq.stored q (hc.instantQuoteById he)
      · exact hq.read u id owner q hold

/-- Every instant quote on record was issued by this service. -/
theorem issued_quotes (hs : Reach ok s) : IssuedQuotes s := by
  refine hs.invariant (J := IssuedQuotes) ?_ fun s s' m hr ih _ hst => ih.step hr hst
  constructor
  · intro q hq
    cases hq
  · intro t id owner q he
    cases he

/-- A claim keeps the quote that it was made of. -/
theorem records_issued (hs : Reach ok s) : ∀ r ∈ s.world.db.records, r.quote.Issued C := by
  refine hs.invariant (J := fun s : Config (machine C) =>
    ∀ r ∈ s.world.db.records, r.quote.Issued C) ?_ ?_
  · intro r hr
    cases hr
  · intro s s' m hr ih _ hst r' hr'
    rcases (step_ledger hr hst).origin hr' with hold | ⟨t, k, hist, maxDeposit, limit, hth, -, -⟩ |
      ⟨t, k, hist, r, -, -, hold, ha⟩
    · exact ih r' hold
    · -- the quote of a new claim was read by the program that enters it
      obtain ⟨-, id, owner, point, hread, -⟩ :
          Careful C hist (.db (.insertInstant r' maxDeposit limit)) := hr.justified handler_careful hth
      exact (issued_quotes hr).read t id owner r'.quote (hr.history_mem t _ hth _ hread)
    · rw [advance_quote ha]
      exact ih r hold

/-- The configuration and the texts of the libraries are as short as those of a running service: the
largest deposit is a 64-bit number, and names, addresses and signatures are short. -/
structure Service.Words (C : Service L) : Prop where
  maxDeposit : C.instantMaxDeposit < 256 ^ 8
  network : Short (utf8Bytes (lowercase C.network))
  address : ∀ network script address, C.addressFromScript network script = .ok address →
    Short (utf8Bytes address)
  signature : ∀ id network owner txid vout value credit expires bytes,
    hexDecode (C.signInstantQuote id network owner txid vout value credit expires) = some bytes →
    Short bytes

/-- Every instant claim on record fits the widths its message is encoded in. -/
theorem records_fit (hC : C.Words) (hs : Reach ok s) :
    ∀ r ∈ s.world.db.records, r.quote.deposit.Fits := by
  intro r hr
  have hissued := records_issued hs r hr
  refine ⟨?_, ?_, hC.address _ _ _ hissued.address, fun bytes hbytes => ?_⟩
  · exact lt_of_le_of_lt ((bounded hs).values r hr) hC.maxDeposit
  · rw [hissued.network]
    exact hC.network
  · rw [hissued.signature] at hbytes
    exact hC.signature _ _ _ _ _ _ _ _ bytes hbytes

section authorized

variable {ok : Config (machine (C.authorizing K)) → Move (machine (C.authorizing K)) → Prop}
variable {s : Config (machine (C.authorizing K))}

/-- Every fixed claim on record is authorized. -/
theorem fixed_authorized (hC : C.Decodes) (hs : Reach ok s) :
    ∀ x ∈ s.world.db.fixed.rows, x.2.Authorized K C := by
  refine hs.invariant (J := fun s : Config (machine (C.authorizing K)) =>
    ∀ x ∈ s.world.db.fixed.rows, x.2.Authorized K C) ?_ ?_
  · intro x hx
    cases hx
  · intro s s' m hr ih _ hst x hx
    rcases (step_fixed hr hst).origin hx with ⟨r, hold, hsame⟩ | ⟨t, k, hist, hth, -, -, -, -⟩
    · rw [DepositClaim.Authorized, hsame.quote, hsame.plan]
      exact ih _ hold
    · exact hr.justified (handler_permitted hC) hth

/-- Every instant claim on record is authorized. -/
theorem instant_authorized (hC : C.Decodes) (hs : Reach ok s) :
    ∀ r ∈ s.world.db.records, r.Authorized K C := by
  refine hs.invariant (J := fun s : Config (machine (C.authorizing K)) =>
    ∀ r ∈ s.world.db.records, r.Authorized K C) ?_ ?_
  · intro r hr
    cases hr
  · intro s s' m hr ih _ hst r' hr'
    rcases (step_ledger hr hst).origin hr' with hold | ⟨t, k, hist, maxDeposit, limit, hth, -, -⟩ |
      ⟨t, k, hist, r, -, -, hold, ha⟩
    · exact ih r' hold
    · exact hr.justified (handler_permitted hC) hth
    · obtain ⟨hsignature, hkey⟩ := advance_authorization ha
      rw [InstantClaim.Authorized, advance_quote ha, hsignature, hkey]
      exact ih r hold

/-- Every claim is authorized by the owner of its deposit.  No statement is one of two fixed claims,
or of a fixed and an instant claim; instant claims with one message have the same terms, and only one
of them is pending.  The quote of an instant claim is one that the service has issued, so that its
terms fit the message when the words of the service do. -/
theorem deposits_authorized (hC : C.Decodes) (hs : Reach ok s) :
    (∀ x ∈ s.world.db.fixed.rows, x.2.Authorized K C) ∧
    (∀ r ∈ s.world.db.records, r.Authorized K C) ∧
    (∀ x ∈ s.world.db.fixed.rows, ∀ y ∈ s.world.db.fixed.rows,
      staticStatement K x.2.quote = staticStatement K y.2.quote → x = y) ∧
    (∀ x ∈ s.world.db.fixed.rows, ∀ r ∈ s.world.db.records,
      staticStatement K x.2.quote ≠ instantMessage r.quote.deposit) ∧
    (∀ r ∈ s.world.db.records, ∀ r' ∈ s.world.db.records,
      r.quote.deposit.Fits → r'.quote.deposit.Fits →
      instantMessage r.quote.deposit = instantMessage r'.quote.deposit →
      SameTerms r.quote.deposit r'.quote.deposit ∧
        (r.phase ≠ .spendTxConfirmed → r'.phase ≠ .spendTxConfirmed → r = r')) ∧
    (∀ r ∈ s.world.db.records, r.quote.Issued C) ∧
    (C.Words → ∀ r ∈ s.world.db.records, r.quote.deposit.Fits) := by
  have hfixed := fixed_authorized hC hs
  have hinstant := instant_authorized hC hs
  refine ⟨hfixed, hinstant, fun x hx y hy heq => ?_, fun x hx r hr heq => ?_,
    fun r hr r' hr' hfits hfits' heq => ?_, fun r hr => ?_, fun hwords => ?_⟩
  · obtain ⟨m, -, -, hm, -⟩ := (hfixed x hx).signed
    -- every txid on record was printed, so all have one length and the message splits at one place
    have hlength : ∀ z ∈ s.world.db.fixed.rows, (utf8Bytes z.2.quote.txid).length = 64 := by
      intro z hz
      obtain ⟨txid, htxid⟩ := fixed_parses hs z hz
      exact hC.txid _ _ htxid
    apply fixed_output hs hx hy
    exact staticStatement_output hm (heq.symm.trans hm) ((hlength x hx).trans (hlength y hy).symm)
  · obtain ⟨m, -, -, hm, -⟩ := (hfixed x hx).signed
    exact messages_apart hm (heq.symm.trans hm)
  · obtain ⟨m, -, -, hm, -⟩ := (hinstant r hr).signed
    -- one message, one set of terms; and of equal open claims there is one
    have hterms := instantMessage_terms hfits hfits' hm (heq.symm.trans hm)
    refine ⟨hterms, fun hopen hopen' => open_unique hs hr hr' hopen hopen' ?_⟩
    exact ⟨hterms.address, congrArg₂ (· + ·) hterms.credit hterms.fee⟩
  · obtain ⟨hnetwork, haddress, hsignature⟩ := records_issued hs r hr
    exact ⟨hnetwork, haddress, hsignature⟩
  · exact records_fit ⟨hwords.maxDeposit, hwords.network, hwords.address, hwords.signature⟩ hs

end authorized

namespace Sample

/-- The sample's cipher is the identity. -/
theorem decrypt_encrypt (plaintext encrypted : List UInt8) (h : some plaintext = some encrypted) :
    some encrypted = some plaintext := h.symm

/-- One signature is accepted of Alice and of Bob, and the first byte of a secret is its public key. -/
def keys : Keys where
  Secret := List UInt8
  Signature := List UInt8
  network := "regtest"
  fixedType := 0
  encrypt plaintext := some plaintext
  decrypt encrypted := some encrypted
  secretFromSlice bytes := some bytes
  secretBytes secret := secret
  publicKey secret := secret.take 1
  fromDer bytes := some bytes
  fromCompact _ := none
  verifyEcdsa _ signature owner := signature == [6] && ["02", "04"].contains owner.serialized
  decrypt_encrypt := decrypt_encrypt
  fromSlice_bytes _ := rfl

/-- The sample service with the sample's keys in place. -/
def authorizedService : Service .sample :=
  { instantService with
    parseTxid := fun text =>
      if (utf8Bytes text).length = 64 then (hexDecode text).map Txid.mk else none }

/-- The sample's decoders agree with the hex reader. -/
theorem decodes : authorizedService.Decodes where
  hex text bytes h := okOr_eq_ok.mp h
  txid text txid h := by
    by_contra hlength
    have hnone : authorizedService.parseTxid text = none := if_neg hlength
    rw [hnone] at h
    cases h

/-- The sample's coins and amounts are within their words. -/
theorem words : authorizedService.Words where
  maxDeposit := by decide +kernel
  network := by
    show List.length _ < 256 ^ 8
    decide +kernel
  address _ _ address h := by
    obtain rfl : "bcrt1p" = address := Except.ok.inj h
    show List.length _ < 256 ^ 8
    decide +kernel
  signature _ _ _ _ _ _ _ _ bytes h := by
    have hbytes : hexDecode "30" = some [48] := by decide +kernel
    obtain rfl : [48] = bytes := Option.some.inj (hbytes.symm.trans h)
    show List.length _ < 256 ^ 8
    decide +kernel

abbrev authorizedMachine : Machine (Api .sample) := machine (authorizedService.authorizing keys)

def authorizedCalls (t : Nat) (chs : List Choice) : List (Move authorizedMachine) := Move.runs t chs

/-- The transaction has an id of 64 digits. -/
def longOutput (digit : Char) : OutputInput :=
  { output with transactionId := some (String.ofList (List.replicate 64 digit)) }

/-- A share of 32 bytes, the first of which is 3. -/
def rawShare : String := String.ofList ('0' :: '3' :: List.replicate 62 '0')

/-- Programs `t` and `t + 1` quote an instant deposit and enter its claim, for which the owner has
signed. -/
def signedClaim (t : Nat) (owner : String) (digit : Char) (coin : Coin) (quoteId claimId : Uuid) :
    List (Move authorizedMachine) :=
  .spawn (Request.instantQuote owner (longOutput digit)) ::
    authorizedCalls t [.done, .done, .coin (some coin), .addresses [⟨"bcrt1p", [3], [4]⟩], .done,
      .done, .estimate none, .done, .number (some 100), .uuid quoteId, .done, .done, .done] ++
  .spawn (Request.instantClaim owner ⟨some quoteId.print, some rawShare, none, some "06"⟩) ::
    authorizedCalls (t + 1) [.done, .done, .done, .done, .done, .coin (some coin), .done,
      .address (some "bcrt1q"), .uuid transferId, .leaves [], .bytes [], .nonce ⟨[], []⟩,
      .uuid claimId, .done]

/-- Two claims are open. -/
def openClaims (s : Config authorizedMachine) : Bool :=
  match s.world.db.records with
  | [r, r'] => r.id != r'.id && r.phase == .created && r'.phase == .created
  | _ => false

/-- The process stops after Alice's claim of 10000 sats, and then Bob claims 9000. -/
def signedClaims : Reach.Run (M := authorizedMachine) anyMove openClaims :=
  .ofMoves (signedClaim 0 "02" 'a' coin quoteId claimId ++ .crash ::
    signedClaim 2 "04" 'b' { coin with value := .ok 9000 } (Uuid.fill 4) (Uuid.fill 5))
    (by decide +kernel)

end Sample

/-- The claims of two wallets are authorized, each by a message of its own. -/
theorem deposits_authorized_instant : ∃ s : Config Sample.authorizedMachine, Reach anyMove s ∧
    ∃ r ∈ s.world.db.records, ∃ r' ∈ s.world.db.records,
      r.Authorized Sample.keys Sample.authorizedService ∧
      r'.Authorized Sample.keys Sample.authorizedService ∧
      r.quote.deposit.Fits ∧ r'.quote.deposit.Fits ∧
      instantMessage r.quote.deposit ≠ instantMessage r'.quote.deposit := by
  obtain ⟨s, hs, hp⟩ := Sample.signedClaims
  unfold Sample.openClaims at hp
  split at hp
  · next r r' hrecords =>
    simp only [Bool.and_eq_true, bne_iff_ne, beq_iff_eq] at hp
    obtain ⟨⟨hid, hopen⟩, hopen'⟩ := hp
    obtain ⟨-, hinstant, -, -, hone, -, hfits⟩ := deposits_authorized Sample.decodes hs
    have hr : r ∈ s.world.db.records := by simp [hrecords]
    have hr' : r' ∈ s.world.db.records := by simp [hrecords]
    have hfits := hfits Sample.words
    refine ⟨s, hs, r, hr, r', hr', hinstant r hr, hinstant r' hr', hfits r hr, hfits r' hr',
      fun heq => hid ?_⟩
    -- one message would make one claim of the two
    obtain ⟨-, hsame⟩ := hone r hr r' hr' (hfits r hr) (hfits r' hr') heq
    rw [hsame (by rw [hopen]; exact nofun) (by rw [hopen']; exact nofun)]
  · cases hp

end OpenSsp.Deposit
