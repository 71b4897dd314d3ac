/-
OpenSsp/SessionText.lean

Sessions and challenges as SQLite holds them: their times are RFC 3339 texts, and the queries
of `db.rs` compare texts.

`Store τ` is the two tables with times of a type `τ`.  `Store String` is what the queries run
on, and `Store Instant` is what its texts mean.  A strictly increasing map of times commutes
with every query (`sessionOwner_map`, `prune_map`), so a store of texts, the store of the
instants they print and `Auth.Db` with its nanoseconds answer alike and prune alike.

Main result: `text_times`.
-/
import Mathlib.Order.Monotone.Basic
import OpenSsp.Auth
import OpenSsp.Lib.Rfc3339

namespace OpenSsp.Auth

open Interleave

/-! ### Tables of stored times -/

structure StoredSession (τ : Type) where
  token : String
  identity : String
  validUntil : τ

structure StoredChallenge (τ : Type) where
  identity : String
  protectedChallenge : String
  issuedAt : τ

structure Store (τ : Type) where
  sessions : Table fun r : StoredSession τ => r.token
  challenges : Table fun r : StoredChallenge τ => (r.identity, r.protectedChallenge)

namespace Store

section queries

variable {τ : Type} [LinearOrder τ]

/-- `SELECT identity FROM sessions WHERE token=?1 AND valid_until>?2` -/
def sessionOwner (token : String) (now : τ) (s : Store τ) : Option String :=
  ((s.sessions.get token).filter fun r => r.validUntil > now).map (·.identity)

/-- `DELETE FROM sessions WHERE valid_until<=?1` -/
def pruneExpiredSessions (now : τ) (s : Store τ) : Store τ :=
  { s with sessions := s.sessions.delete fun r => r.validUntil ≤ now }

/-- `DELETE FROM challenges WHERE issued_at<?1` -/
def pruneChallenges (olderThan : τ) (s : Store τ) : Store τ :=
  { s with challenges := s.challenges.delete fun r => r.issuedAt < olderThan }

end queries

/-! ### Change of times -/

section map

variable {τ σ : Type}

def session (f : τ → σ) (r : StoredSession τ) : StoredSession σ :=
  ⟨r.token, r.identity, f r.validUntil⟩

def challenge (f : τ → σ) (r : StoredChallenge τ) : StoredChallenge σ :=
  ⟨r.identity, r.protectedChallenge, f r.issuedAt⟩

theorem session_token (f : τ → σ) (r : StoredSession τ) : (session f r).token = r.token := rfl

theorem challenge_key (f : τ → σ) (r : StoredChallenge τ) :
    ((challenge f r).identity, (challenge f r).protectedChallenge) =
      (r.identity, r.protectedChallenge) := rfl

/-- The store with every time in another form. -/
def map (f : τ → σ) (s : Store τ) : Store σ :=
  ⟨s.sessions.map (session f) (session_token f), s.challenges.map (challenge f) (challenge_key f)⟩

variable [LinearOrder τ] [LinearOrder σ] {f : τ → σ}

/-- A strictly monotone change of times keeps what is expired. -/
theorem sessionOwner_map (hf : StrictMono f) (token : String) (now : τ) (s : Store τ) :
    (s.map f).sessionOwner token (f now) = s.sessionOwner token now := by
  unfold sessionOwner map
  rw [Table.get_map]
  rcases s.sessions.get token with - | r
  · rfl
  · have hlater : f r.validUntil > f now ↔ r.validUntil > now := hf.lt_iff_lt
    simp [Option.filter, session, hlater, apply_ite]

/-- So it commutes with the pruning of sessions. -/
theorem pruneExpiredSessions_map (hf : StrictMono f) (now : τ) (s : Store τ) :
    (s.map f).pruneExpiredSessions (f now) = (s.pruneExpiredSessions now).map f := by
  have hpast : (fun r : StoredSession τ => decide ((session f r).validUntil ≤ f now)) =
      fun r => decide (r.validUntil ≤ now) := by
    funext r
    exact decide_eq_decide.mpr hf.le_iff_le
  unfold pruneExpiredSessions map
  rw [Table.delete_map, hpast]

/-- And with the pruning of challenges. -/
theorem pruneChallenges_map (hf : StrictMono f) (olderThan : τ) (s : Store τ) :
    (s.map f).pruneChallenges (f olderThan) = (s.pruneChallenges olderThan).map f := by
  have hold : (fun r : StoredChallenge τ => decide ((challenge f r).issuedAt < f olderThan)) =
      fun r => decide (r.issuedAt < olderThan) := by
    funext r
    exact decide_eq_decide.mpr hf.lt_iff_lt
  unfold pruneChallenges map
  rw [Table.delete_map, hold]

end map

end Store

/-! ### Instants and their texts -/

/-- Instants are ordered as their numbers of nanoseconds. -/
theorem nanos_strictMono : StrictMono Instant.nanos := fun _ _ h => h

/-- And as their texts. -/
theorem text_strictMono : StrictMono Instant.text := fun a b h => (Instant.text_lt_iff a b).mpr h

/-- The default of the column `issued_at`. -/
def epoch : Instant := Instant.newYear 1970 (by decide)

example : epoch.text = "1970-01-01T00:00:00+00:00" := by decide

/-- A session of the changed tables is a changed session. -/
theorem mem_map_sessions {τ σ : Type} {f : τ → σ} {s : Store τ} {r : StoredSession σ} :
    r ∈ (s.map f).sessions.rows ↔ ∃ x ∈ s.sessions.rows, Store.session f x = r :=
  List.mem_map

/-- The same for challenges. -/
theorem mem_map_challenges {τ σ : Type} {f : τ → σ} {s : Store τ} {r : StoredChallenge σ} :
    r ∈ (s.map f).challenges.rows ↔ ∃ x ∈ s.challenges.rows, Store.challenge f x = r :=
  List.mem_map

/-- The owner of a token is read off its one row. -/
theorem sessionOwner_eq_some {τ : Type} [LinearOrder τ] {s : Store τ} {token owner : String}
    {now : τ} : s.sessionOwner token now = some owner ↔
      ∃ r ∈ s.sessions.rows, r.token = token ∧ now < r.validUntil ∧ r.identity = owner := by
  unfold Store.sessionOwner
  simp only [Option.map_eq_some_iff, Option.filter_eq_some_iff, decide_eq_true_eq]
  constructor
  · rintro ⟨r, ⟨hget, hnow⟩, howner⟩
    exact ⟨r, Table.mem_of_get hget, Table.key_of_get hget, hnow, howner⟩
  · rintro ⟨r, hr, rfl, hnow, howner⟩
    exact ⟨r, ⟨Table.mem_iff_get.mp hr, hnow⟩, howner⟩

/-- **Text order is the order of time.**  The text queries accept a session exactly while its
expiry is later than now, and prune exactly the sessions that they no longer accept and the
challenges issued before the limit. -/
theorem text_times (s : Store Instant) (now : Instant) :
    (∀ a b : Instant, (a.text > b.text ↔ a.nanos > b.nanos) ∧
      (a.text ≤ b.text ↔ a.nanos ≤ b.nanos) ∧ (a.text < b.text ↔ a.nanos < b.nanos)) ∧
    (∀ token owner, (s.map Instant.text).sessionOwner token now.text = some owner ↔
      ∃ r ∈ s.sessions.rows, r.token = token ∧ now.nanos < r.validUntil.nanos ∧
        r.identity = owner) ∧
    (∀ r, r ∈ ((s.map Instant.text).pruneExpiredSessions now.text).sessions.rows ↔
      ∃ x ∈ s.sessions.rows, now.nanos < x.validUntil.nanos ∧ Store.session Instant.text x = r) ∧
    (∀ r, r ∈ ((s.map Instant.text).pruneChallenges now.text).challenges.rows ↔
      ∃ x ∈ s.challenges.rows, now.nanos ≤ x.issuedAt.nanos ∧
        Store.challenge Instant.text x = r) := by
  have hf := text_strictMono
  refine ⟨fun a b => ⟨hf.lt_iff_lt, hf.le_iff_le, hf.lt_iff_lt⟩, ?_, ?_, ?_⟩
  · intro token owner
    rw [Store.sessionOwner_map hf]
    exact sessionOwner_eq_some
  · intro r
    rw [Store.pruneExpiredSessions_map hf, mem_map_sessions]
    apply exists_congr
    intro x
    rw [Store.pruneExpiredSessions, Table.mem_delete, decide_eq_false_iff_not, not_le, and_assoc]
    rfl
  · intro r
    rw [Store.pruneChallenges_map hf, mem_map_challenges]
    apply exists_congr
    intro x
    rw [Store.pruneChallenges, Table.mem_delete, decide_eq_false_iff_not, not_lt, and_assoc]
    rfl

/-! ### Texts and the tables of the other modules -/

def StoredSession.row (r : StoredSession Nat) : SessionRow := ⟨r.token, r.identity, r.validUntil⟩

def StoredChallenge.row (r : StoredChallenge Nat) : ChallengeRow :=
  ⟨r.identity, r.protectedChallenge, r.issuedAt⟩

theorem StoredSession.row_token (r : StoredSession Nat) : r.row.token = r.token := rfl

theorem StoredChallenge.row_key (r : StoredChallenge Nat) :
    (r.row.identity, r.row.protectedChallenge) = (r.identity, r.protectedChallenge) := rfl

/-- Times in nanoseconds, as in `Auth.Db`. -/
def Store.db (s : Store Nat) : Db :=
  ⟨s.challenges.map StoredChallenge.row StoredChallenge.row_key,
    s.sessions.map StoredSession.row StoredSession.row_token⟩

namespace Store

/-- The queries of the two models agree: the owner of a token. -/
theorem sessionOwner_db (token : String) (now : Nat) (s : Store Nat) :
    s.db.sessionOwner token now = s.sessionOwner token now := by
  unfold Db.sessionOwner sessionOwner db
  rw [Table.get_map]
  rcases s.sessions.get token with - | r
  · rfl
  · simp [Option.filter, StoredSession.row, apply_ite]

/-- The pruning of sessions. -/
theorem pruneExpiredSessions_db (now : Nat) (s : Store Nat) :
    s.db.pruneExpiredSessions now = (s.pruneExpiredSessions now).db := by
  unfold Db.pruneExpiredSessions pruneExpiredSessions db
  rw [Table.delete_map]
  rfl

/-- The pruning of challenges. -/
theorem pruneChallenges_db (olderThan : Nat) (s : Store Nat) :
    s.db.pruneChallenges olderThan = (s.pruneChallenges olderThan).db := by
  unfold Db.pruneChallenges pruneChallenges db
  rw [Table.delete_map]
  rfl

/-- The texts and the numbers are those of one store of instants. -/
def Prints (texts : Store String) (db : Db) : Prop :=
  ∃ s : Store Instant, texts = s.map Instant.text ∧ db = (s.map Instant.nanos).db

variable {texts : Store String} {db : Db}

/-- On printed times the texts answer as the numbers do. -/
theorem Prints.sessionOwner (h : Prints texts db) (token : String) (now : Instant) :
    texts.sessionOwner token now.text = db.sessionOwner token now.nanos := by
  obtain ⟨s, rfl, rfl⟩ := h
  rw [sessionOwner_db, sessionOwner_map text_strictMono, sessionOwner_map nanos_strictMono]

/-- After pruning the tables still print each other. -/
theorem Prints.pruneExpiredSessions (h : Prints texts db) (now : Instant) :
    Prints (texts.pruneExpiredSessions now.text) (db.pruneExpiredSessions now.nanos) := by
  obtain ⟨s, rfl, rfl⟩ := h
  refine ⟨s.pruneExpiredSessions now, pruneExpiredSessions_map text_strictMono now s, ?_⟩
  rw [pruneExpiredSessions_db, pruneExpiredSessions_map nanos_strictMono]

/-- After the other pruning too. -/
theorem Prints.pruneChallenges (h : Prints texts db) (olderThan : Instant) :
    Prints (texts.pruneChallenges olderThan.text) (db.pruneChallenges olderThan.nanos) := by
  obtain ⟨s, rfl, rfl⟩ := h
  refine ⟨s.pruneChallenges olderThan, pruneChallenges_map text_strictMono olderThan s, ?_⟩
  rw [pruneChallenges_db, pruneChallenges_map nanos_strictMono]

end Store

end OpenSsp.Auth
