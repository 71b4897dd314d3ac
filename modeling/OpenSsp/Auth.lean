/-
OpenSsp/Auth.lean

Wallet authentication (`auth.rs` and the challenge and session methods of `db.rs`): a
client gets a challenge for an identity key, returns it signed, and gets a bearer token.
The session stores the text of the key as the client spelled it, and every later request
of the client is made by the owner of that text.

The signature check is a call of its own, so that a run shows which key a signature was
checked under.  Times are nanoseconds since the epoch.
-/
import Mathlib.Data.List.Sort
import OpenSsp.Lib.Machine
import OpenSsp.Lib.Table
import OpenSsp.Deployment

namespace OpenSsp.Auth

open Interleave

/-! ### Keys, challenges and signatures -/

/-- The challenge a wallet signs. -/
structure Challenge where
  version : Int
  timestamp : Int
  nonce : List UInt8
  publicKey : List UInt8
deriving DecidableEq

structure ProtectedChallenge where
  version : Int
  challenge : Option Challenge
  serverHmac : List UInt8
deriving DecidableEq

abbrev Signature := List UInt8

/-- The third-party codecs and the curve.  A key has one compressed encoding, of 33 bytes;
the others have 65. -/
structure Codecs where
  hexError : String → String
  fromSlice : List UInt8 → Except String PublicKey
  urlSafeEncode : List UInt8 → String
  urlSafeDecode : String → Option (List UInt8)
  standardDecode : String → Option (List UInt8)
  encodeChallenge : Challenge → List UInt8
  encodeProtected : ProtectedChallenge → List UInt8
  decodeProtected : List UInt8 → Option ProtectedChallenge
  challengeMac : List UInt8 → List UInt8
  fromDer : List UInt8 → Option Signature
  fromCompact : List UInt8 → Option Signature
  verifyEcdsa : List UInt8 → Signature → PublicKey → Except String Unit
  fromSlice_length : ∀ bs key, fromSlice bs = .ok key → bs.length = 33 ∨ bs.length = 65
  fromSlice_compressed : ∀ bs key, fromSlice bs = .ok key → bs.length = 33 →
    key.serialized = hexEncode bs

variable (C : Codecs)

/-- `char::is_whitespace` -/
def isWhitespace (c : Char) : Bool :=
  let n := c.toNat
  (9 ≤ n && n ≤ 13) || n == 0x20 || n == 0x85 || n == 0xA0 || n == 0x1680 ||
    (0x2000 ≤ n && n ≤ 0x200A) || n == 0x2028 || n == 0x2029 || n == 0x202F || n == 0x205F ||
    n == 0x3000

/-- `str::trim` -/
def trim (s : String) : String :=
  String.ofList ((s.toList.dropWhile isWhitespace).reverse.dropWhile isWhitespace).reverse

/-- The key a client names. -/
def identityKey (identity : String) : Except String PublicKey := do
  let bytes ← okOr (C.hexError identity) (hexDecode identity)
  C.fromSlice bytes

/-- The challenge is well formed and was issued for this key. -/
def validateChallenge (bytes : List UInt8) (owner : PublicKey) : Except String Unit := do
  let protectedChallenge ← okOr "malformed challenge" (C.decodeProtected bytes)
  let challenge ← okOr "missing challenge" protectedChallenge.challenge
  if protectedChallenge.version ≠ 1 ∨ challenge.version ≠ 1 ∨ challenge.nonce.length ≠ 32 ∨
      protectedChallenge.serverHmac.length ≠ 32 ∨
      (C.fromSlice challenge.publicKey).toOption ≠ some owner then
    throw "foreign or malformed challenge"

/-- A signature in any of the three encodings and two forms that clients send. -/
def decodeSignature (encoded : String) : Except String Signature :=
  let encoded := trim encoded
  let parse (bytes : List UInt8) : Option Signature := C.fromDer bytes <|> C.fromCompact bytes
  okOr "malformed signature"
    ((C.urlSafeDecode encoded).bind parse <|> (C.standardDecode encoded).bind parse <|>
      (hexDecode encoded).bind parse)

/-- The bytes a challenge was issued with. -/
def challengeBytes (protectedChallenge : String) : Except String (List UInt8) :=
  okOr "malformed challenge"
    (C.urlSafeDecode (trim protectedChallenge) <|> C.standardDecode (trim protectedChallenge))

/-! ### Tables -/

structure ChallengeRow where
  identity : String
  protectedChallenge : String
  issuedAt : Nat
deriving DecidableEq

structure SessionRow where
  token : String
  identity : String
  validUntil : Nat
deriving DecidableEq

structure Db where
  challenges : Table fun r : ChallengeRow => (r.identity, r.protectedChallenge)
  sessions : Table SessionRow.token

namespace Db

def empty : Db := ⟨.empty, .empty⟩

/-- `timestamp()` -/
def seconds (now : Nat) : Nat := now / 1000000000

/-- The challenges of an identity, newest first, up to the 100 that are kept. -/
def outstanding (identity : String) (rows : List ChallengeRow) : List ChallengeRow :=
  ((rows.filter (·.identity == identity)).mergeSort fun a b => b.issuedAt ≤ a.issuedAt).take 100

/-- A challenge is added, and only the newest 100 of the identity are kept. -/
def saveChallenge (identity protectedChallenge : String) (now : Nat) (db : Db) : Db :=
  let challenges := (db.challenges.insert ⟨identity, protectedChallenge, now⟩).getD db.challenges
  let kept := (outstanding identity challenges.rows).map (·.protectedChallenge)
  { db with challenges := challenges.delete fun r =>
      r.identity == identity && !kept.contains r.protectedChallenge }

/-- A challenge is used up whether or not it is still good. -/
def consumeChallenge (identity protectedChallenge : String) (now maxAge : Nat) (db : Db) :
    Bool × Db :=
  match db.challenges.get (identity, protectedChallenge) with
  | none => (false, db)
  | some r =>
      let issued := seconds r.issuedAt
      (issued ≤ now && now - issued ≤ maxAge, { db with challenges := db.challenges.delete fun r =>
        r.identity == identity && r.protectedChallenge == protectedChallenge })

/-- The challenges of before a time go. -/
def pruneChallenges (olderThan : Nat) (db : Db) : Db :=
  { db with challenges := db.challenges.delete fun r => r.issuedAt < olderThan }

/-- A token is used once. -/
def saveSession (token identity : String) (validUntil : Nat) (db : Db) : Except String Db := do
  let sessions ← okOr "UNIQUE constraint failed: sessions.token"
    (db.sessions.insert ⟨token, identity, validUntil⟩)
  return { db with sessions }

/-- The identity of a session that has not run out. -/
def sessionOwner (token : String) (now : Nat) (db : Db) : Option String :=
  ((db.sessions.get token).filter fun r => now < r.validUntil).map (·.identity)

/-- The sessions that have run out go. -/
def pruneExpiredSessions (now : Nat) (db : Db) : Db :=
  { db with sessions := db.sessions.delete fun r => r.validUntil ≤ now }

end Db

/-! ### Calls -/

/-- What the authentication asks of the outside. -/
inductive Call where
  | now
  | newNonce
  | newUuid
  | saveChallenge (identity protectedChallenge : String) (now : Nat)
  | consumeChallenge (identity protectedChallenge : String) (now maxAge : Nat)
  | pruneChallenges (olderThan : Nat)
  | verifyEcdsa (digest : List UInt8) (signature : Signature) (key : PublicKey)
  | saveSession (token identity : String) (validUntil : Nat)
  | sessionOwner (token : String) (now : Nat)
  | pruneExpiredSessions (now : Nat)

@[reducible] def Call.Reply : Call → Type
  | now => Nat
  | newNonce => Bytes32
  | newUuid => Uuid
  | saveChallenge .. => Except String Unit
  | consumeChallenge .. => Except String Bool
  | pruneChallenges _ => Except String Unit
  | verifyEcdsa .. => Except String Unit
  | saveSession .. => Except String Unit
  | sessionOwner .. => Except String (Option String)
  | pruneExpiredSessions _ => Except String Unit

@[reducible] def Api : Interface := ⟨Call, Call.Reply⟩

/-- A function of the source: it can call, and fail with a text. -/
abbrev Ssp (α : Type) := Act Api String α

def tell (c : Call) : Ssp c.Reply := Act.tell (I := Api) c

def saveChallenge (identity protectedChallenge : String) (now : Nat) : Ssp Unit :=
  Act.ask (I := Api) (.saveChallenge identity protectedChallenge now) id

/-- The challenge of an answer, used up. -/
def consumeChallenge (identity protectedChallenge : String) (now maxAge : Nat) : Ssp Bool :=
  Act.ask (I := Api) (.consumeChallenge identity protectedChallenge now maxAge) id

def verifyEcdsa (digest : List UInt8) (signature : Signature) (key : PublicKey) : Ssp Unit :=
  Act.ask (I := Api) (.verifyEcdsa digest signature key) id

def saveSession (token identity : String) (validUntil : Nat) : Ssp Unit :=
  Act.ask (I := Api) (.saveSession token identity validUntil) id

def sessionOwner (token : String) (now : Nat) : Ssp (Option String) :=
  Act.ask (I := Api) (.sessionOwner token now) id

/-! ### Handlers -/

/-- A challenge is single-use and expires after five minutes. -/
def getChallenge (identity : String) : Ssp String := do
  let publicKey ← Act.ofExcept (okOr "malformed public_key" (hexDecode identity))
  let _ ← Act.ofExcept ((C.fromSlice publicKey).mapError fun _ => "malformed public_key")
  let nonce ← tell .newNonce
  let challenge : Challenge :=
    { version := 1, timestamp := Db.seconds (← tell .now), nonce := nonce.bytes, publicKey }
  let protectedChallenge := C.urlSafeEncode (C.encodeProtected
    { version := 1, challenge := some challenge,
      serverHmac := C.challengeMac (C.encodeChallenge challenge) })
  saveChallenge identity protectedChallenge (← tell .now)
  return protectedChallenge

/-- Check the signature of a challenge and open a session for the identity as the client
spelled it. -/
def verifyChallenge (identity protectedChallenge signatureHex : String) :
    Ssp (String × Nat) := do
  let pubkey ← Act.ofExcept (identityKey C identity)
  -- the challenge must be one that was issued to this text, unused and fresh
  let fresh ← consumeChallenge identity protectedChallenge (Db.seconds (← tell .now)) 300
  if ¬ fresh then throw "unknown, reused, or expired challenge"
  let sig ← Act.ofExcept (decodeSignature C signatureHex)
  let bytes ← Act.ofExcept (challengeBytes C protectedChallenge)
  Act.ofExcept (validateChallenge C bytes pubkey)
  Act.mapErr (fun e => s!"bad challenge signature: {e}") (verifyEcdsa (sha256 bytes) sig pubkey)
  let token := (← tell .newUuid).print
  let validUntil := (← tell .now) + 24 * 3600 * 1000000000
  saveSession token identity validUntil
  return (token, validUntil)

/-- `strip_prefix("Bearer ")`, trimmed. -/
def bearerToken (authorization : String) : String :=
  match "Bearer ".toList.isPrefixOf? authorization.toList with
  | some rest => trim (String.ofList rest)
  | none => ""

/-- The owner every request is made by. -/
def requireSession (authorization : String) : Ssp String := do
  let token := bearerToken authorization
  if token = "" then throw "UNAUTHORIZED: missing bearer session token"
  match ← sessionOwner token (← tell .now) with
  | some owner => return owner
  | none => throw "UNAUTHORIZED: bad or expired session"

/-- One pass of the task that prunes expired rows; its errors are ignored. -/
def prune : Ssp Unit := do
  let now ← tell .now
  let _ ← tell (.pruneExpiredSessions now)
  let _ ← tell (.pruneChallenges (now - 3600 * 1000000000))

inductive Request where
  | getChallenge (publicKey : String)
  | verifyChallenge (identity protectedChallenge signature : String)
  | requireSession (authorization : String)
  | prune
deriving DecidableEq

def Request.act : Request → Ssp Unit
  | getChallenge publicKey => discard (Auth.getChallenge C publicKey)
  | verifyChallenge identity protectedChallenge signature =>
      discard (Auth.verifyChallenge C identity protectedChallenge signature)
  | requireSession authorization => discard (Auth.requireSession authorization)
  | prune => Auth.prune

/-- The program of a request; its answer is not looked at. -/
def Request.handler (r : Request) : Prog Api Unit := discard (r.act C).run

/-! ### The machine -/

structure World where
  db : Db
  now : Nat

inductive Choice where
  /-- As asked. -/
  | done
  /-- A database error, and nothing happened. -/
  | fail (e : String)
  | nonce (b : Bytes32)
  | uuid (u : Uuid)

def perform (c : Call) (ch : Choice) (w : World) : Option (c.Reply × World) :=
  match c, ch with
  | .now, .done => some (w.now, w)
  | .newNonce, .nonce b => some (b, w)
  | .newUuid, .uuid u => some (u, w)
  | .saveChallenge identity p now, .done =>
      some (.ok (), { w with db := w.db.saveChallenge identity p now })
  | .saveChallenge .., .fail e => some (.error e, w)
  | .consumeChallenge identity p now maxAge, .done =>
      let r := w.db.consumeChallenge identity p now maxAge
      some (.ok r.1, { w with db := r.2 })
  | .consumeChallenge .., .fail e => some (.error e, w)
  | .pruneChallenges olderThan, .done =>
      some (.ok (), { w with db := w.db.pruneChallenges olderThan })
  | .pruneChallenges _, .fail e => some (.error e, w)
  | .verifyEcdsa digest sig key, .done => some (C.verifyEcdsa digest sig key, w)
  | .saveSession token identity validUntil, .done =>
      match w.db.saveSession token identity validUntil with
      | .ok db => some (.ok (), { w with db })
      | .error e => some (.error e, w)
  | .saveSession .., .fail e => some (.error e, w)
  | .sessionOwner token now, .done => some (.ok (w.db.sessionOwner token now), w)
  | .sessionOwner .., .fail e => some (.error e, w)
  | .pruneExpiredSessions now, .done =>
      some (.ok (), { w with db := w.db.pruneExpiredSessions now })
  | .pruneExpiredSessions _, .fail e => some (.error e, w)
  | _, _ => none

/-- The outside lets time pass. -/
def machine : Machine Api where
  World := World
  Choice := Choice
  Outside := Nat
  Request := Request
  init := ⟨.empty, 0⟩
  handler := Request.handler C
  perform _ := perform C
  outside n w := some { w with now := w.now + n }
  cancel _ w := w
  crash w := w

end OpenSsp.Auth
