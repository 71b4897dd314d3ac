/-
OpenSsp/Quotes/Manifest.lean

Receive quotes (`quotes.rs`): the manifest that is signed, the table of those that were issued, and
what a committed quote is checked for.

The protobuf message, its hash, the digests that are signed and the signatures are of other
packages; a `Primitives` fixes them.  Of the variants of an amount and of a fee only what is read is
kept: an amount in satoshis, or another one, and the encoding of a fee.

Main result: `validate_ok`: a quote is accepted only when its manifest is in the table for its owner,
unexpired, for the receiver and the amount of the request, and attested by the owner for the hash.
-/
import OpenSsp.Graphql

namespace OpenSsp

open Interleave

namespace Quotes

/-! ### Messages -/

/-- The networks of the protobuf message. -/
inductive ManifestNetwork where
  | mainnet
  | regtest
  | testnet
  | signet
deriving DecidableEq

inductive ManifestAmount where
  | sats (n : Nat)
  | other (encoded : List UInt8)
deriving DecidableEq

structure ManifestEdge where
  senderIdentityPublicKey : List UInt8
  receiverIdentityPublicKey : List UInt8
  /-- The amount may be missing, and so may its variant. -/
  amount : Option (Option ManifestAmount)
deriving DecidableEq

structure TransferManifest where
  version : Nat
  transferId : String
  network : Int
  transferExpiryTime : Option Nat
  edges : List ManifestEdge
  fees : List (List UInt8)
  quoteExpiryTime : Option Nat
deriving DecidableEq

/-- An ECDSA signature, named by its compact serialisation. -/
structure Signature where
  compact : List UInt8
deriving DecidableEq

/-- The Spark messages and the signatures. -/
structure Primitives where
  networkNumber : ManifestNetwork → Int
  /-- `serialize` -/
  keyBytes : PublicKey → List UInt8
  encode : TransferManifest → List UInt8
  decode : List UInt8 → Option TransferManifest
  hashTransferManifest : List UInt8 → Except String (List UInt8)
  quoteEnvelopeDigest : Int → List UInt8 → Nat → Nat → List UInt8 → Except String (List UInt8)
  receiveAttestorTarget : List UInt8 → Except String (List UInt8)
  fromDer : List UInt8 → Option Signature
  normalizeS : Signature → Signature
  verifyEcdsa : Bytes32 → Signature → PublicKey → Bool
  /-- `quote[key].as_str()`, for the JSON text of a quote. -/
  quoteText : String → String → Option String

variable (P : Primitives) (D : Deployment)

def network (name : String) : Except String ManifestNetwork :=
  if name = "REGTEST" ∨ name = "LOCAL" then .ok .regtest
  else if name = "MAINNET" then .ok .mainnet
  else if name = "TESTNET" then .ok .testnet
  else if name = "SIGNET" then .ok .signet
  else .error "invalid quote network"

def digest (bytes : List UInt8) (network : Int) (role : Nat) (target : List UInt8) :
    Except String Bytes32 := do
  let hash ← P.hashTransferManifest bytes
  let digest ← P.quoteEnvelopeDigest network hash 1 role target
  okOr "invalid quote digest" (Bytes32.ofBytes digest)

/-! ### Issued quotes -/

/-- A row of `receive_quotes`. -/
structure QuoteRow where
  id : String
  owner : String
  manifest : List UInt8
  expiresAt : Nat
deriving DecidableEq

/-- The manifest of a quote for `amount`, made at the second `created`. -/
def quoteManifest (id : Uuid) (network : ManifestNetwork) (sender receiver : PublicKey)
    (amount created : Nat) : TransferManifest where
  version := 1
  transferId := id.print
  network := P.networkNumber network
  transferExpiryTime := none
  edges := [{
    senderIdentityPublicKey := P.keyBytes sender
    receiverIdentityPublicKey := P.keyBytes receiver
    amount := some (some (.sats amount)) }]
  fees := []
  quoteExpiryTime := some (created + 300)

/-- `issue`: the row of a new quote with the table.  The manifest was made at `created`. -/
def issue (owner receiver : String) (amount : Nat) (id : Uuid) (created now : Nat)
    (quotes : Table QuoteRow.id) : Except String (QuoteRow × Table QuoteRow.id) := do
  let receiver ← (D.parsePublicKey receiver).mapError fun _ => "invalid quote receiver"
  let network ← network D.networkName
  let manifest := quoteManifest P id network D.identity receiver amount created
  let bytes := P.encode manifest
  -- the issuer signs before the row is stored
  let _ ← digest P bytes manifest.network 1 []
  let quotes := quotes.delete fun r => decide (r.expiresAt ≤ now)
  if 100 ≤ quotes.count fun r => r.owner == owner then throw "receive quote limit reached"
  let row : QuoteRow := ⟨id.print, owner, bytes, created + 300⟩
  let quotes ← okOr "UNIQUE constraint failed: receive_quotes.id" (quotes.insert row)
  return (row, quotes)

structure QuoteInput where
  amountSats : Nat
  network : String
  receiverIdentityPubkey : Option String
deriving DecidableEq

/-- `LightningReceiveQuote` -/
def lightningReceiveQuote (owner : String) (input : QuoteInput) (id : Uuid) (created now : Nat)
    (quotes : Table QuoteRow.id) : Except String (QuoteRow × Table QuoteRow.id) := do
  Graphql.validateSats input.amountSats
  Graphql.validateNetwork D input.network
  issue P D owner (input.receiverIdentityPubkey.getD owner) input.amountSats id created now quotes

/-! ### Committed quotes -/

/-- The only edge of a manifest. -/
def onlyEdge (manifest : TransferManifest) : Except String ManifestEdge :=
  match manifest.edges with
  | [edge] => .ok edge
  | _ => .error "unsupported receive quote"

def verifyAttestation (manifest : TransferManifest) (bytes : List UInt8)
    (owner receiver hash : String) (amount : Nat) (quote : String) : Except String Unit := do
  let net ← network D.networkName
  if manifest.network ≠ P.networkNumber net ∨ manifest.fees ≠ [] then
    throw "unsupported receive quote"
  let edge ← onlyEdge manifest
  let receiver ← (D.parsePublicKey receiver).mapError fun _ => "invalid receiver"
  if edge.receiverIdentityPublicKey ≠ P.keyBytes receiver ∨
      edge.amount.join ≠ some (.sats amount) then
    throw "receive amount or receiver differs from quote"
  let attestor ← (D.parsePublicKey owner).mapError fun _ => "invalid attestor"
  let hash ← okOr "invalid payment hash" (hexDecode hash)
  let target ← P.receiveAttestorTarget hash
  let digest ← digest P bytes manifest.network 2 target
  let text ← okOr "attestor_signature required" (P.quoteText quote "attestor_signature")
  let der ← okOr "invalid signature hex" (hexDecode text)
  let signature ← okOr "invalid DER signature" (P.fromDer der)
  if P.normalizeS signature ≠ signature then throw "noncanonical quote signature"
  if ¬ P.verifyEcdsa digest signature attestor then throw "invalid quote attestation"

/-- The query of `validate`. -/
def isStored (quotes : Table QuoteRow.id) (id owner : String) (bytes : List UInt8) (now : Nat) :
    Bool :=
  quotes.rows.any fun r => r.id == id && r.owner == owner && r.manifest == bytes &&
    decide (now < r.expiresAt)

def validate (quotes : Table QuoteRow.id) (now : Nat) (owner receiver hash : String)
    (amount : Nat) (quote : Option String) : Except String (Option String) :=
  match quote with
  | none => .ok none
  | some quote => do
      let encoded ← okOr "invalid receive manifest"
        ((P.quoteText quote "serialized_manifest").filter fun v => v.utf8ByteSize ≤ 16384)
      let bytes ← okOr "invalid manifest hex" (hexDecode encoded)
      let manifest ← okOr "invalid protobuf manifest" (P.decode bytes)
      if ¬ isStored quotes manifest.transferId owner bytes now then
        throw "receive quote is unknown, expired, or belongs to another wallet"
      verifyAttestation P D manifest bytes owner receiver hash amount quote
      return some manifest.transferId

/-! ### What is accepted -/

/-- The owner's key attests the manifest for the payment hash. -/
structure Attests (bytes : List UInt8) (manifest : TransferManifest) (owner hash quote : String) :
    Prop where
  signed : ∃ key hashBytes target d text der signature,
    D.parsePublicKey owner = .ok key ∧ hexDecode hash = some hashBytes ∧
    P.receiveAttestorTarget hashBytes = .ok target ∧
    digest P bytes manifest.network 2 target = .ok d ∧
    P.quoteText quote "attestor_signature" = some text ∧ hexDecode text = some der ∧
    P.fromDer der = some signature ∧ P.normalizeS signature = signature ∧
    P.verifyEcdsa d signature key = true

/-- The row is that of a manifest for the configured network, the receiver and the amount. -/
structure Covers (row : QuoteRow) (manifest : TransferManifest) (receiver : String)
    (amount : Nat) : Prop where
  decoded : P.decode row.manifest = some manifest
  id : manifest.transferId = row.id
  network : ∃ net, network D.networkName = .ok net ∧ manifest.network = P.networkNumber net
  fees : manifest.fees = []
  edge : ∃ edge key, manifest.edges = [edge] ∧ D.parsePublicKey receiver = .ok key ∧
    edge.receiverIdentityPublicKey = P.keyBytes key ∧ edge.amount = some (some (.sats amount))

/-- The committed quote is the stored row, byte for byte, and is good at the second `now`. -/
structure Commits (row : QuoteRow) (now : Nat) (owner receiver hash : String) (amount : Nat)
    (quote : String) : Prop where
  submitted : ∃ encoded, P.quoteText quote "serialized_manifest" = some encoded ∧
    hexDecode encoded = some row.manifest
  owner_eq : row.owner = owner
  unexpired : now < row.expiresAt
  attested : ∃ manifest, Covers P D row manifest receiver amount ∧
    Attests P D row.manifest manifest owner hash quote

variable {P D}

theorem mapError_ok {α β : Type} {x : Except α β} {f : α → String} {b : β}
    (h : x.mapError f = .ok b) : x = .ok b := by
  cases x with
  | error e => cases h
  | ok a => exact congrArg Except.ok (Except.ok.inj h)

theorem onlyEdge_ok {manifest : TransferManifest} {edge : ManifestEdge}
    (h : onlyEdge manifest = .ok edge) : manifest.edges = [edge] := by
  unfold onlyEdge at h
  split at h
  · next hedges =>
      rw [hedges, Except.ok.inj h]
  · cases h

theorem isStored_iff {quotes : Table QuoteRow.id} {id owner : String} {bytes : List UInt8}
    {now : Nat} : isStored quotes id owner bytes now = true ↔
      ∃ row ∈ quotes.rows, row.id = id ∧ row.owner = owner ∧ row.manifest = bytes ∧
        now < row.expiresAt := by
  simp only [isStored, List.any_eq_true, Bool.and_eq_true, beq_iff_eq, decide_eq_true_iff,
    and_assoc]

theorem verifyAttestation_ok {manifest : TransferManifest} {row : QuoteRow}
    {owner receiver hash quote : String} {amount : Nat}
    (hdecoded : P.decode row.manifest = some manifest) (hid : manifest.transferId = row.id)
    (h : verifyAttestation P D manifest row.manifest owner receiver hash amount quote = .ok ()) :
    Covers P D row manifest receiver amount ∧
      Attests P D row.manifest manifest owner hash quote := by
  unfold verifyAttestation at h
  obtain ⟨net, hnet, h⟩ := bind_ok h
  obtain ⟨hguard, h⟩ := guard_ok h
  obtain ⟨hnetwork, hfees⟩ := not_or.mp hguard
  obtain ⟨edge, hedge, h⟩ := bind_ok h
  obtain ⟨key, hkey, h⟩ := bind_ok h
  obtain ⟨hguard, h⟩ := guard_ok h
  obtain ⟨hreceiver, hamount⟩ := not_or.mp hguard
  obtain ⟨attestor, hattestor, h⟩ := bind_ok h
  obtain ⟨hashBytes, hhash, h⟩ := bind_ok h
  obtain ⟨target, htarget, h⟩ := bind_ok h
  obtain ⟨d, hd, h⟩ := bind_ok h
  obtain ⟨text, htext, h⟩ := bind_ok h
  obtain ⟨der, hder, h⟩ := bind_ok h
  obtain ⟨signature, hsignature, h⟩ := bind_ok h
  obtain ⟨hcanonical, h⟩ := guard_ok h
  constructor
  · refine ⟨hdecoded, hid, ⟨net, hnet, not_not.mp hnetwork⟩, not_not.mp hfees, edge, key,
      onlyEdge_ok hedge, mapError_ok hkey, not_not.mp hreceiver, ?_⟩
    exact Option.join_eq_some_iff.mp (not_not.mp hamount)
  · refine ⟨attestor, hashBytes, target, d, text, der, signature, mapError_ok hattestor,
      okOr_eq_ok.mp hhash, htarget, hd, okOr_eq_ok.mp htext, okOr_eq_ok.mp hder,
      okOr_eq_ok.mp hsignature, not_not.mp hcanonical, ?_⟩
    -- nothing follows the last check, so it is read off the result
    by_contra hverify
    rw [if_pos hverify] at h
    cases h

/-- A committed quote that is accepted is in the table, and its id is answered. -/
theorem validate_ok {quotes : Table QuoteRow.id} {now amount : Nat}
    {owner receiver hash quote : String} {answer : Option String}
    (h : validate P D quotes now owner receiver hash amount (some quote) = .ok answer) :
    ∃ row ∈ quotes.rows, answer = some row.id ∧
      Commits P D row now owner receiver hash amount quote := by
  unfold validate at h
  obtain ⟨encoded, hencoded, h⟩ := bind_ok h
  obtain ⟨bytes, hbytes, h⟩ := bind_ok h
  obtain ⟨manifest, hmanifest, h⟩ := bind_ok h
  obtain ⟨hstored, h⟩ := guard_ok h
  obtain ⟨⟨⟩, hattested, h⟩ := bind_ok h
  obtain rfl := Except.ok.inj h
  obtain ⟨row, hrow, hid, howner, hbytes', hexpires⟩ := isStored_iff.mp (not_not.mp hstored)
  subst hbytes'
  refine ⟨row, hrow, congrArg some hid.symm, ⟨encoded, ?_, ?_⟩, howner, hexpires, manifest, ?_⟩
  · exact (Option.filter_eq_some_iff.mp (okOr_eq_ok.mp hencoded)).1
  · exact okOr_eq_ok.mp hbytes
  · exact verifyAttestation_ok (okOr_eq_ok.mp hmanifest) hid.symm hattested

/-- The table after a quote is issued has one new row. -/
theorem issue_ok {owner receiver : String} {amount created now : Nat} {id : Uuid}
    {quotes quotes' : Table QuoteRow.id} {row : QuoteRow}
    (h : issue P D owner receiver amount id created now quotes = .ok (row, quotes')) :
    row.id = id.print ∧ ∀ r ∈ quotes'.rows, r = row ∨ r ∈ quotes.rows := by
  unfold issue at h
  obtain ⟨key, hkey, h⟩ := bind_ok h
  obtain ⟨net, hnet, h⟩ := bind_ok h
  obtain ⟨d, hd, h⟩ := bind_ok h
  obtain ⟨-, h⟩ := guard_ok h
  obtain ⟨table, hinsert, h⟩ := bind_ok h
  obtain ⟨rfl, rfl⟩ := Prod.mk.inj (Except.ok.inj h)
  refine ⟨rfl, ?_⟩
  intro r hr
  rw [(Table.insert_eq_some (okOr_eq_ok.mp hinsert)).2] at hr
  rcases List.mem_cons.mp hr with rfl | hr
  · exact .inl rfl
  · exact .inr (Table.mem_delete.mp hr).1

theorem lightningReceiveQuote_ok {owner : String} {input : QuoteInput} {created now : Nat}
    {id : Uuid} {quotes quotes' : Table QuoteRow.id} {row : QuoteRow}
    (h : lightningReceiveQuote P D owner input id created now quotes = .ok (row, quotes')) :
    row.id = id.print ∧ ∀ r ∈ quotes'.rows, r = row ∨ r ∈ quotes.rows := by
  unfold lightningReceiveQuote at h
  obtain ⟨-, -, h⟩ := bind_ok h
  obtain ⟨-, -, h⟩ := bind_ok h
  exact issue_ok h

end Quotes

end OpenSsp
