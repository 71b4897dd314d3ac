/-
OpenSsp/SessionOwner.lean

Who owns a session.  The owner is the text of the key as the client spelled it, so one key
has as many owners as it has accepted spellings: letter case is free, and a key can be
written in compressed or uncompressed form (`TwoSpellings`).

Main results: `session_owners`, two sessions have one owner exactly when they were signed by
one key, unless the key was spelled in two ways; `one_key_two_owners` runs into the
exception.
-/
import OpenSsp.Lib.History
import OpenSsp.Auth

namespace OpenSsp.Auth

open Interleave

variable {C : Codecs} {ok : Config (machine C) → Move (machine C) → Prop}

/-! ### What a session is based on -/

/-- The challenge was issued to the identity, and used up by this program. -/
def Consumed (h : History Api) (identity protectedChallenge : String) : Prop :=
  ∃ now, (⟨.consumeChallenge identity protectedChallenge now 300, .ok true⟩ : Event Api) ∈ h

/-- What a session for the identity is based on: one signature of its challenge, checked
under the key the identity spells. -/
structure SessionGround (C : Codecs) (h : History Api) (identity : String) (key : PublicKey) :
    Prop where
  spelled : identityKey C identity = .ok key
  signed : ∃ protectedChallenge bytes sig, Consumed h identity protectedChallenge ∧
    challengeBytes C protectedChallenge = .ok bytes ∧
    validateChallenge C bytes key = .ok () ∧
    (⟨.verifyEcdsa (sha256 bytes) sig key, .ok ()⟩ : Event Api) ∈ h
  only : ∀ digest sig key', (⟨.verifyEcdsa digest sig key', .ok ()⟩ : Event Api) ∈ h → key' = key

/-- The program has opened no session. -/
def Unsaved (h : History Api) : Prop := ∀ token identity validUntil,
  (⟨.saveSession token identity validUntil, .ok ()⟩ : Event Api) ∉ h

/-- The contract of an attempt to open a session for the identity: it looks at the clock, uses
up one challenge, and saves at most one session. -/
def Attempt (C : Codecs) (identity : String) (h : History Api) : Call → Prop
  | .now => True
  | .newUuid => True
  | .consumeChallenge i _ now maxAge => i = identity ∧ maxAge = 300 ∧
      ∃ n, h = [⟨.now, n⟩] ∧ now = Db.seconds n
  | .verifyEcdsa .. => Unsaved h
  | .saveSession _ i _ => i = identity ∧ Unsaved h ∧ ∃ key, SessionGround C h i key
  | _ => False

/-- The contract of the handlers: what only an attempt does is done as an attempt does it. -/
def Justified (C : Codecs) (h : History Api) : Call → Prop
  | .consumeChallenge _ _ now maxAge => maxAge = 300 ∧ ∃ n, h = [⟨.now, n⟩] ∧ now = Db.seconds n
  | .verifyEcdsa .. => Unsaved h
  | .saveSession _ identity _ => Unsaved h ∧ ∃ key, SessionGround C h identity key
  | _ => True

/-- An attempt is justified, whatever it ends with. -/
theorem Attempt.justified {identity : String} (h : History Api) (c : Call)
    (ha : Attempt C identity h c) : Justified C h c := by
  cases c with
  | consumeChallenge i p now maxAge => exact ha.2
  | verifyEcdsa digest sig key => exact ha
  | saveSession token i validUntil => exact ha.2
  | _ => trivial

/-- A token is handed out only after the challenge is used up and the signature verified. -/
theorem verifyChallenge_meets (identity protectedChallenge signatureHex : String) :
    Act.Spec (Attempt C identity) (fun _ => True)
      (verifyChallenge C identity protectedChallenge signatureHex) (fun _ _ => True) [] := by
  refine Act.Spec.bind Act.Spec.ofExcept_eq ?_
  rintro key _ - ⟨hkey, rfl⟩
  refine Act.Spec.bind (Act.Spec.tell_eq (I := Api) (c := .now) trivial fun _ => trivial) ?_
  rintro now _ - rfl
  refine Act.Spec.bind (Act.Spec.ask_eq (I := Api)
    (c := .consumeChallenge identity protectedChallenge (Db.seconds now) 300)
    ⟨rfl, rfl, now, rfl, rfl⟩ fun _ => trivial) ?_
  -- a challenge that was used before answers `false`, and the guard throws
  rintro fresh _ - ⟨r, hr, rfl⟩
  obtain rfl : r = .ok fresh := hr
  refine Act.Spec.guard fun hfresh => ?_
  obtain rfl : fresh = true := by simpa using hfresh
  refine Act.Spec.bind Act.Spec.ofExcept_eq ?_
  rintro sig _ - ⟨-, rfl⟩
  refine Act.Spec.bind Act.Spec.ofExcept_eq ?_
  rintro bytes _ - ⟨hbytes, rfl⟩
  refine Act.Spec.bind Act.Spec.ofExcept_eq ?_
  rintro _ _ - ⟨hvalid, rfl⟩
  -- the signature is checked over the bytes the challenge decodes to
  refine Act.Spec.bind (Act.Spec.mapErr (Act.Spec.ask_eq (I := Api)
    (c := .verifyEcdsa (sha256 bytes) sig key) ?_ fun _ => trivial)) ?_
  · intro token identity validUntil h
    simp at h
  rintro _ _ - ⟨r, hr, rfl⟩
  obtain rfl : r = .ok () := hr
  refine Act.Spec.bind (Act.Spec.tell_eq (I := Api) (c := .newUuid) trivial fun _ => trivial) ?_
  rintro token _ - rfl
  refine Act.Spec.bind (Act.Spec.tell_eq (I := Api) (c := .now) trivial fun _ => trivial) ?_
  rintro now' _ - rfl
  refine Act.Spec.bind (Act.Spec.ask_eq (I := Api) ⟨rfl, ?_, key, hkey, ?_, ?_⟩
    fun _ => trivial) fun _ _ _ _ => Act.Spec.pure trivial
  · intro token' identity' validUntil h
    simp at h
  · exact ⟨protectedChallenge, bytes, sig, ⟨Db.seconds now, by simp⟩, hbytes, hvalid, by simp⟩
  · intro digest sig' key' h
    simp at h
    exact h.2.2

/-- A challenge is stored as it was issued. -/
theorem getChallenge_meets (identity : String) :
    Act.Spec (Justified C) (fun _ => True) (getChallenge C identity) (fun _ _ => True) [] := by
  refine Act.Spec.bind Act.Spec.ofExcept_eq fun _ _ _ _ => ?_
  refine Act.Spec.bind Act.Spec.ofExcept_eq fun _ _ _ _ => ?_
  refine Act.Spec.bind (Act.Spec.tell_eq (I := Api) (c := .newNonce) trivial fun _ => trivial)
    fun _ _ _ _ => ?_
  refine Act.Spec.bind (Act.Spec.tell_eq (I := Api) (c := .now) trivial fun _ => trivial)
    fun _ _ _ _ => ?_
  refine Act.Spec.bind (Act.Spec.tell_eq (I := Api) (c := .now) trivial fun _ => trivial)
    fun _ _ _ _ => ?_
  exact Act.Spec.bind (Act.Spec.ask_eq (I := Api) trivial fun _ => trivial)
    fun _ _ _ _ => Act.Spec.pure trivial

/-- A session is only looked up. -/
theorem requireSession_meets (authorization : String) :
    Act.Spec (Justified C) (fun _ => True) (requireSession authorization) (fun _ _ => True) [] := by
  unfold requireSession
  refine Act.Spec.guard fun _ => ?_
  refine Act.Spec.bind (Act.Spec.tell_eq (I := Api) (c := .now) trivial fun _ => trivial)
    fun _ _ _ _ => ?_
  refine Act.Spec.bind (Act.Spec.ask_eq (I := Api) trivial fun _ => trivial) fun o _ _ _ => ?_
  rcases o with - | owner
  · exact Act.Spec.throw
  · exact Act.Spec.pure trivial

/-- Pruning makes no session. -/
theorem prune_meets : Act.Spec (Justified C) (fun _ => True) prune (fun _ _ => True) [] := by
  refine Act.Spec.bind (Act.Spec.tell_eq (I := Api) (c := .now) trivial fun _ => trivial)
    fun now _ _ _ => ?_
  refine Act.Spec.bind (Act.Spec.tell_eq (I := Api) (c := .pruneExpiredSessions now) trivial
    fun _ => trivial) fun _ _ _ _ => ?_
  exact Act.Spec.bind (Act.Spec.tell_eq (I := Api) (c := .pruneChallenges _) trivial
    fun _ => trivial) fun _ _ _ _ => Act.Spec.pure trivial

/-- Every request of the service is justified. -/
theorem handler_justified (r : Request) : (r.handler C).wp (Justified C) (fun _ _ => True) [] := by
  rw [Request.handler, Prog.wp_discard]
  have hr : Act.Spec (Justified C) (fun _ => True) (r.act C) (fun _ _ => True) [] := by
    cases r with
    | getChallenge publicKey => exact (getChallenge_meets publicKey).discard
    | verifyChallenge identity protectedChallenge signature =>
        exact (verifyChallenge_meets identity protectedChallenge signature).discard.contract
          Attempt.justified
    | requireSession authorization => exact (requireSession_meets authorization).discard
    | prune => exact prune_meets
  exact Prog.wp_mono hr.wp fun _ _ _ => trivial

/-- A call that was made was justified by what its task had done. -/
theorem moment_justified {t : Nat} {e : Event Api} {h : History Api} {s s' : Config (machine C)}
    (hm : Moment ok t e h s s') : Justified C h e.call := by
  obtain ⟨ch, k, hth, -, -, -⟩ := hm.made
  exact hm.reach.justified handler_justified hth

/-! ### Signed sessions -/

/-- A session was opened for the owner by a program that checked a signature under the
key. -/
def SignedSession (s : Config (machine C)) (owner : String) (key : PublicKey) : Prop :=
  ∃ t token validUntil digest sig, (t, ⟨.saveSession token owner validUntil, .ok ()⟩) ∈ s.trace ∧
    (t, ⟨.verifyEcdsa digest sig key, .ok ()⟩) ∈ s.trace

/-- The owner of a session spells the key that signed it. -/
theorem SignedSession.spelled {s : Config (machine C)} (hs : Reach ok s) {owner : String}
    {key : PublicKey} (h : SignedSession s owner key) : identityKey C owner = .ok key := by
  obtain ⟨t, token, validUntil, digest, sig, hsave, hsig⟩ := h
  rcases hs.same_program hsave hsig with he | ⟨hist, s₀, s₁, hm, he⟩ | ⟨hist, s₀, s₁, hm, he⟩
  · injection he with hc
    cases hc
  · obtain ⟨-, key', hg⟩ := moment_justified hm
    rw [hg.only digest sig key he]
    exact hg.spelled
  · exact absurd he (moment_justified hm token owner validUntil)

/-- Challenges are another table. -/
@[simp] theorem saveChallenge_sessions (db : Db) (identity p : String) (now : Nat) :
    (db.saveChallenge identity p now).sessions = db.sessions := rfl

/-- Pruning them too. -/
@[simp] theorem pruneChallenges_sessions (db : Db) (olderThan : Nat) :
    (db.pruneChallenges olderThan).sessions = db.sessions := rfl

/-- Using one up too. -/
@[simp] theorem consumeChallenge_sessions (db : Db) (identity p : String) (now maxAge : Nat) :
    (db.consumeChallenge identity p now maxAge).2.sessions = db.sessions := by
  unfold Db.consumeChallenge
  split <;> rfl

/-- A new session is the one row that is added. -/
theorem saveSession_ok {db db' : Db} {token identity : String} {validUntil : Nat}
    (h : db.saveSession token identity validUntil = .ok db') :
    db'.sessions.rows = ⟨token, identity, validUntil⟩ :: db.sessions.rows := by
  unfold Db.saveSession at h
  rcases hins : db.sessions.insert ⟨token, identity, validUntil⟩ with - | sessions
  · simp [hins, bind, Except.bind] at h
  · simp only [hins, okOr_some] at h
    obtain rfl := Except.ok.inj h
    exact (Table.insert_eq_some hins).2

/-- A call adds at most the session it saves. -/
theorem perform_sessions {t : Nat} {c : Call} {ch : Choice} {w w' : World} {r : c.Reply}
    (h : (machine C).perform t c ch w = some (r, w')) {row : SessionRow}
    (hrow : row ∈ w'.db.sessions.rows) : row ∈ w.db.sessions.rows ∨
    (⟨c, r⟩ : Event Api) = ⟨.saveSession row.token row.identity row.validUntil, .ok ()⟩ := by
  have h : perform C c ch w = some (r, w') := h
  cases c with
  | saveSession token identity validUntil =>
      cases ch with
      | done =>
          simp only [perform] at h
          split at h
          · next db hdb =>
              obtain ⟨rfl, rfl⟩ := Prod.mk.inj (Option.some.inj h)
              rw [saveSession_ok hdb] at hrow
              rcases List.mem_cons.mp hrow with rfl | hrow
              · exact .inr rfl
              · exact .inl hrow
          · obtain ⟨-, rfl⟩ := Prod.mk.inj (Option.some.inj h)
            exact .inl hrow
      | fail e =>
          obtain ⟨-, rfl⟩ := Prod.mk.inj (Option.some.inj h)
          exact .inl hrow
      | _ => simp [perform] at h
  | pruneExpiredSessions now =>
      cases ch with
      | done =>
          obtain ⟨-, rfl⟩ := Prod.mk.inj (Option.some.inj h)
          exact .inl (Table.mem_delete.mp hrow).1
      | fail e =>
          obtain ⟨-, rfl⟩ := Prod.mk.inj (Option.some.inj h)
          exact .inl hrow
      | _ => simp [perform] at h
  | _ =>
      -- no other call touches the sessions
      cases ch <;> simp only [perform, Option.some.injEq, Prod.mk.injEq, reduceCtorEq] at h
      all_goals
        obtain ⟨-, rfl⟩ := h
        exact .inl (by simpa using hrow)

/-- Every stored session is signed. -/
theorem stored_signed {s : Config (machine C)} (hs : Reach ok s) {r : SessionRow}
    (hr : r ∈ s.world.db.sessions.rows) : ∃ key, SignedSession s r.identity key := by
  refine hs.invariant (J := fun s : Config (machine C) => ∀ r ∈ s.world.db.sessions.rows,
    ∃ key, SignedSession s r.identity key) ?_ ?_ r hr
  · intro r hr
    simp [Config.start, machine, Db.empty, Table.empty] at hr
  · intro s s' m hreach ih hm hst r hr
    rcases Config.step_cases hst with ⟨q, -, rfl⟩ | ⟨t, ch, c, k, hist, a, w, -, hth, hp, rfl⟩ |
      ⟨t, th, -, -, rfl⟩ | ⟨-, rfl⟩ | ⟨o, w, -, ho, rfl⟩
    · exact ih r hr
    · rcases perform_sessions hp hr with hold | he
      · obtain ⟨key, u, token, validUntil, digest, sig, hsave, hsig⟩ := ih r hold
        exact ⟨key, u, token, validUntil, digest, sig, List.mem_cons_of_mem _ hsave,
          List.mem_cons_of_mem _ hsig⟩
      · -- the program has checked the signature before
        injection he with hc hrep
        subst hc
        obtain rfl := eq_of_heq hrep
        obtain ⟨-, key, hg⟩ := hreach.justified handler_justified hth
        obtain ⟨p, bytes, sig, -, -, -, hsig⟩ := hg.signed
        exact ⟨key, t, r.token, r.validUntil, _, sig, List.mem_cons_self,
          List.mem_cons_of_mem _ (hreach.history_mem t _ hth _ hsig)⟩
    · exact ih r hr
    · exact ih r hr
    · obtain rfl := Option.some.inj ho
      exact ih r hr

/-! ### Spellings of a key -/

/-- The texts spell one key in two ways: they differ in letter case alone, or one of them is
an uncompressed encoding. -/
def TwoSpellings (C : Codecs) (a b : String) : Prop :=
  a ≠ b ∧ (lowercase a = lowercase b ∨
    (a.length = 130 ∨ b.length = 130) ∧ identityKey C a = identityKey C b)

/-- Printing what was decoded gives the text in lower case. -/
theorem hexEncode_of_hexDecode {s : String} {bs : List UInt8} (h : hexDecode s = some bs) :
    hexEncode bs = lowercase s := by
  rw [hexEncode, hexChars_hexDecodeChars h, lowercase]

/-- Two digits are a byte. -/
theorem length_of_hexDecode {s : String} {bs : List UInt8} (h : hexDecode s = some bs) :
    s.length = 2 * bs.length := by
  have hlen := congrArg List.length (hexChars_hexDecodeChars h)
  simpa [String.length_toList] using hlen.symm

/-- An accepted text is the hexadecimal form of an encoding of its key. -/
theorem identityKey_eq_ok {identity : String} {key : PublicKey}
    (h : identityKey C identity = .ok key) :
    ∃ bytes, hexDecode identity = some bytes ∧ C.fromSlice bytes = .ok key := by
  unfold identityKey at h
  rcases hd : hexDecode identity with - | bytes
  · simp [hd, bind, Except.bind] at h
  · simp only [hd, okOr_some] at h
    exact ⟨bytes, rfl, h⟩

/-- Two accepted texts are spellings of one key without being equal exactly when they are
two of the spellings that `TwoSpellings` names. -/
theorem twoSpellings_iff {a b : String} {key key' : PublicKey} (ha : identityKey C a = .ok key)
    (hb : identityKey C b = .ok key') : TwoSpellings C a b ↔ a ≠ b ∧ key = key' := by
  obtain ⟨as, has, hka⟩ := identityKey_eq_ok ha
  obtain ⟨bs, hbs, hkb⟩ := identityKey_eq_ok hb
  refine and_congr_right fun _ => ⟨?_, ?_⟩
  · rintro (hcase | ⟨-, hkey⟩)
    · -- the same bytes in another letter case
      have henc : hexEncode as = hexEncode bs := by
        rw [hexEncode_of_hexDecode has, hexEncode_of_hexDecode hbs, hcase]
      have hbytes : as = bs := by
        have hdec := hexDecode_hexEncode as
        rw [henc, hexDecode_hexEncode] at hdec
        exact (Option.some.inj hdec).symm
      rw [hbytes, hkb] at hka
      exact (Except.ok.inj hka).symm
    · rw [ha, hb] at hkey
      exact Except.ok.inj hkey
  · rintro rfl
    rcases C.fromSlice_length as key hka with hla | hla
    · rcases C.fromSlice_length bs key hkb with hlb | hlb
      · -- the compressed encoding of a key is one
        left
        rw [← hexEncode_of_hexDecode has, ← hexEncode_of_hexDecode hbs,
          ← C.fromSlice_compressed as key hka hla, C.fromSlice_compressed bs key hkb hlb]
      · exact .inr ⟨.inr (by rw [length_of_hexDecode hbs, hlb]), ha.trans hb.symm⟩
    · exact .inr ⟨.inl (by rw [length_of_hexDecode has, hla]), ha.trans hb.symm⟩

/-- **Owners and keys of sessions.**  Two sessions have equal owners exactly when one key
signed them both, if and only if the key was not spelled in two ways.  So what is limited to
one for each owner is limited to one for each key, if and only if no key was spelled in two
ways. -/
theorem session_owners {s : Config (machine C)} (hs : Reach anyMove s) :
    (∀ owner owner' key key', SignedSession s owner key → SignedSession s owner' key' →
      ((owner = owner' ↔ key = key') ↔ ¬ TwoSpellings C owner owner')) ∧
    ∀ (rows : List (String × PublicKey)), (∀ r ∈ rows, SignedSession s r.1 r.2) →
      (rows.map (·.1)).Nodup →
      ((rows.map (·.2)).Nodup ↔ rows.Pairwise fun r r' => ¬ TwoSpellings C r.1 r'.1) := by
  have hiff : ∀ {owner owner' key key'}, SignedSession s owner key →
      SignedSession s owner' key' → (TwoSpellings C owner owner' ↔ owner ≠ owner' ∧ key = key') :=
    fun h h' => twoSpellings_iff (h.spelled hs) (h'.spelled hs)
  refine ⟨fun owner owner' key key' h h' => ?_, fun rows hrows howners => ?_⟩
  · have hfun : owner = owner' → key = key' := by
      rintro rfl
      exact Except.ok.inj ((h.spelled hs).symm.trans (h'.spelled hs))
    rw [hiff h h']
    tauto
  · rw [List.Nodup, List.pairwise_map] at howners ⊢
    have hpair : rows.Pairwise fun r r' => SignedSession s r.1 r.2 ∧ SignedSession s r'.1 r'.2 :=
      List.pairwise_of_forall_mem_list fun r hr r' hr' => ⟨hrows r hr, hrows r' hr'⟩
    constructor
    · intro hkeys
      refine (hpair.and hkeys).imp ?_
      rintro r r' ⟨⟨h, h'⟩, hne⟩ htwo
      exact hne ((hiff h h').mp htwo).2
    · intro hno
      refine ((hpair.and howners).and hno).imp ?_
      rintro r r' ⟨⟨⟨h, h'⟩, hne⟩, hno⟩ heq
      exact hno ((hiff h h').mpr ⟨hne, heq⟩)

/-! ### Concrete runs -/

namespace Sample

/-- The compressed and the uncompressed encoding of the curve's generator. -/
def compressed : String := "0279be667ef9dcbbac55a06295ce870b07029bfcdb2dce28d959f2815b16f81798"

/-- The uncompressed spelling of the sample's key. -/
def uncompressed : String :=
  "0479be667ef9dcbbac55a06295ce870b07029bfcdb2dce28d959f2815b16f81798" ++
    "483ada7726a3c4655da4fbfc0e1108a8fd17b448a68554199c47d08ffb10d4b8"

/-- Its compressed spelling in upper case. -/
def upper : String := "0279BE667EF9DCBBAC55A06295CE870B07029BFCDB2DCE28D959F2815B16F81798"

def key : PublicKey := ⟨compressed⟩

/-- The compressed spelling has 66 digits. -/
theorem compressed_length : compressed.length = 66 := by decide +kernel

/-- The uncompressed one has 130. -/
theorem uncompressed_length : uncompressed.length = 130 := by decide +kernel

/-- The alphabet of the URL-safe encoding. -/
def base64Alphabet : List Char :=
  "ABCDEFGHIJKLMNOPQRSTUVWXYZabcdefghijklmnopqrstuvwxyz0123456789-_".toList

/-- Three bytes are four characters. -/
def base64Encode : List UInt8 → List Char
  | a :: b :: c :: bs =>
      let n := a.toNat * 65536 + b.toNat * 256 + c.toNat
      [n / 262144, n / 4096 % 64, n / 64 % 64, n % 64].map (base64Alphabet.getD · 'A') ++
        base64Encode bs
  | [a, b] =>
      let n := a.toNat * 1024 + b.toNat * 4
      [n / 4096, n / 64 % 64, n % 64].map (base64Alphabet.getD · 'A')
  | [a] => [a.toNat / 4, a.toNat % 4 * 16].map (base64Alphabet.getD · 'A')
  | [] => []

/-- A character's six bits. -/
def base64Value (c : Char) : Option Nat :=
  let n := c.toNat
  if 65 ≤ n ∧ n ≤ 90 then some (n - 65)
  else if 97 ≤ n ∧ n ≤ 122 then some (n - 71)
  else if 48 ≤ n ∧ n ≤ 57 then some (n + 4)
  else if n = 45 then some 62
  else if n = 95 then some 63
  else none

/-- Four characters are three bytes. -/
def base64Decode : List Char → Option (List UInt8)
  | a :: b :: c :: d :: cs => do
      let n := (← base64Value a) * 262144 + (← base64Value b) * 4096 + (← base64Value c) * 64 +
        (← base64Value d)
      return UInt8.ofNat (n / 65536) :: UInt8.ofNat (n / 256) :: UInt8.ofNat n ::
        (← base64Decode cs)
  | [a, b, c] => do
      let n := (← base64Value a) * 4096 + (← base64Value b) * 64 + (← base64Value c)
      if n % 4 = 0 then some [UInt8.ofNat (n / 1024), UInt8.ofNat (n / 4)] else none
  | [a, b] => do
      let n := (← base64Value a) * 64 + (← base64Value b)
      if n % 16 = 0 then some [UInt8.ofNat (n / 16)] else none
  | [_] => none
  | [] => some []

/-- A protobuf varint of at most `fuel` bytes. -/
def varint : Nat → Nat → List UInt8
  | 0, _ => []
  | fuel + 1, n =>
      if n < 128 then [UInt8.ofNat n] else UInt8.ofNat (n % 128 + 128) :: varint fuel (n / 128)

/-- A field with a number, small enough for one byte. -/
def intField (tag : Nat) (n : Int) : List UInt8 :=
  if n = 0 then [] else varint 10 (8 * tag) ++ varint 10 n.toNat

/-- A field with bytes, short enough for one byte of length. -/
def bytesField (tag : Nat) (bs : List UInt8) : List UInt8 :=
  varint 10 (8 * tag + 2) ++ varint 10 bs.length ++ bs

/-- A challenge as its message. -/
def encodeChallenge (c : Challenge) : List UInt8 :=
  intField 1 c.version ++ intField 10 c.timestamp ++ bytesField 20 c.nonce ++
    bytesField 30 c.publicKey

/-- A protected challenge as its message. -/
def encodeProtected (p : ProtectedChallenge) : List UInt8 :=
  intField 1 p.version ++ (p.challenge.map fun c => bytesField 10 (encodeChallenge c)).getD [] ++
    bytesField 20 p.serverHmac

def nonce (b : UInt8) : Bytes32 := Bytes32.fill b

/-- The challenge with this nonce, as it is issued for the key at the time of the runs. -/
def issued (b : UInt8) : ProtectedChallenge :=
  ⟨1, some ⟨1, 1786974052, (nonce b).bytes, (hexDecode compressed).getD []⟩,
    List.replicate 32 9⟩

/-- The digests of the challenges with the nonces 7 and 8, and compact signatures of them under
the key. -/
def signatures : List (UInt8 × List UInt8 × Signature) := [
  (7, Sha256.bigEndian 0x9f738509215775b724bc8e3c93894ce922b2aae818a9906b794b012245f58ade 32,
    Sha256.bigEndian (0xf01d6b9018ab421dd410404cb869072065522bf85734008f105cf385a023a80f * 2 ^ 256 +
      0x4d3bf5c7205861a833d29c4cc1fd636282d7bac92a022e615a8bc5c629277429) 64),
  (8, Sha256.bigEndian 0x8f2ac9652d9f56ecbeba43640d287f190efeba61833b7e8eb3adb0d66d60f3b0 32,
    Sha256.bigEndian (0x54006a630e70fca8d45a696d7dba3a1cb7d81cc830cfce3be0f634373aac3f0a * 2 ^ 256 +
      0x4d7103a169f75f459e41392ba008e36205809194a31cd559d8879007262d6b00) 64)]

end Sample

/-- Codecs for concrete runs: base64 and protobuf as they are, and a curve that knows the
encodings of one key and its signatures of two challenges. -/
def Codecs.sample : Codecs where
  hexError _ := "Odd number of digits"
  fromSlice bs :=
    if hexEncode bs = Sample.compressed ∨ hexEncode bs = Sample.uncompressed then .ok Sample.key
    else .error "malformed public key"
  urlSafeEncode bs := String.ofList (Sample.base64Encode bs)
  urlSafeDecode s := Sample.base64Decode s.toList
  standardDecode _ := none
  encodeChallenge := Sample.encodeChallenge
  encodeProtected := Sample.encodeProtected
  decodeProtected bs :=
    ([7, 8].map Sample.issued).find? fun p => Sample.encodeProtected p == bs
  challengeMac _ := List.replicate 32 9
  fromDer _ := none
  fromCompact bs := if bs.length = 64 then some bs else none
  verifyEcdsa digest signature key :=
    if key = Sample.key ∧ (digest, signature) ∈ Sample.signatures.map (·.2) then .ok ()
    else .error "signature failed verification"
  fromSlice_length bs key h := by
    split at h
    · next hbs =>
        rcases hbs with hbs | hbs
        · left
          have hlen := congrArg String.length hbs
          rw [hexEncode_length, Sample.compressed_length] at hlen
          omega
        · right
          have hlen := congrArg String.length hbs
          rw [hexEncode_length, Sample.uncompressed_length] at hlen
          omega
    · simp at h
  fromSlice_compressed bs key h hlen := by
    split at h
    · next hbs =>
        obtain rfl := Except.ok.inj h
        rcases hbs with hbs | hbs
        · exact hbs.symm
        · have hlen' := congrArg String.length hbs
          rw [hexEncode_length, Sample.uncompressed_length] at hlen'
          omega
    · simp at h

namespace Sample

/-- Program `t` makes its next calls. -/
def calls (t : Nat) (chs : List Choice) : List (Move (machine .sample)) := Move.runs t chs

def uuid (n : UInt8) : Uuid := Uuid.ending n

/-- A client gets a challenge for the key and signs it. -/
def openSession (t : Nat) (identity : String) (b : UInt8) : List (Move (machine .sample)) :=
  .spawn (Request.getChallenge identity) :: calls t [.nonce (nonce b), .done, .done, .done] ++
  .spawn (Request.verifyChallenge identity
    (String.ofList (base64Encode (encodeProtected (issued b))))
    (String.ofList (base64Encode ((signatures.lookup b).getD ([], [])).2))) ::
  calls (t + 1) [.done, .done, .done, .uuid (uuid b), .done, .done]

/-- The time of the runs. -/
def clock : Move (machine .sample) := .outside (1786974052 * 1000000000 : Nat)

/-- Has program `t` opened a session for the owner, signed with the key? -/
def opened (t : Nat) (owner : String) (s : Config (machine .sample)) : Bool :=
  (s.trace.any fun x => match x with
    | (u, ⟨.saveSession _ o _, .ok ()⟩) => u == t && o == owner
    | _ => false) &&
  s.trace.any fun x => match x with
    | (u, ⟨.verifyEcdsa _ _ k, .ok ()⟩) => u == t && k == key
    | _ => false

/-- The sample's session was opened by its key. -/
theorem signed_of_opened {t : Nat} {owner : String} {s : Config (machine .sample)}
    (h : opened t owner s = true) : SignedSession s owner key := by
  obtain ⟨hsave, hsig⟩ := Bool.and_eq_true_iff.mp h
  obtain ⟨x, hx, hsave⟩ := List.any_eq_true.mp hsave
  obtain ⟨y, hy, hsig⟩ := List.any_eq_true.mp hsig
  split at hsave
  · split at hsig
    · simp only [Bool.and_eq_true, beq_iff_eq] at hsave hsig
      obtain ⟨rfl, rfl⟩ := hsave
      obtain ⟨rfl, rfl⟩ := hsig
      exact ⟨_, _, _, _, _, hx, hy⟩
    · simp at hsig
  · simp at hsave

/-- A client opens a session with each of two spellings of its key. -/
def openTwice : Reach.Run anyMove fun s : Config (machine .sample) =>
    opened 1 compressed s && opened 3 upper s :=
  .ofMoves (clock :: openSession 0 compressed 7 ++ openSession 2 upper 8) (by decide +kernel)

/-- One key opens two sessions under two of its spellings. -/
theorem two_sessions : ∃ s : Config (machine .sample), Reach anyMove s ∧
    SignedSession s compressed key ∧ SignedSession s upper key := by
  obtain ⟨s, hs, hp⟩ := openTwice
  obtain ⟨h, h'⟩ := Bool.and_eq_true_iff.mp hp
  exact ⟨s, hs, signed_of_opened h, signed_of_opened h'⟩

/-- The two spellings are different texts. -/
theorem compressed_ne_upper : compressed ≠ upper := by decide +kernel

end Sample

/-- In a run with two sessions of one key, the owners differ because the letter case did. -/
theorem session_owners_two : ∃ s : Config (machine .sample), Reach anyMove s ∧
    SignedSession s Sample.compressed Sample.key ∧ SignedSession s Sample.upper Sample.key ∧
    ((Sample.compressed = Sample.upper ↔ Sample.key = Sample.key) ↔
      ¬ TwoSpellings .sample Sample.compressed Sample.upper) := by
  obtain ⟨s, hs, h, h'⟩ := Sample.two_sessions
  exact ⟨s, hs, h, h', (session_owners hs).1 _ _ _ _ h h'⟩

/-- One key in two letter cases has two owners. -/
theorem one_key_two_owners : ∃ s : Config (machine .sample), Reach anyMove s ∧
    ∃ owner owner', SignedSession s owner Sample.key ∧ SignedSession s owner' Sample.key ∧
      owner ≠ owner' := by
  obtain ⟨s, hs, h, h'⟩ := Sample.two_sessions
  exact ⟨s, hs, _, _, h, h', Sample.compressed_ne_upper⟩

end OpenSsp.Auth
