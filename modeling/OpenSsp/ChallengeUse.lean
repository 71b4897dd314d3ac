/-
OpenSsp/ChallengeUse.lean

What a challenge is good for.  A challenge row is inserted when the challenge is issued and
deleted by the first attempt that names it, in the statement that reads its age, so however
attempts, issues and pruning interleave no challenge opens two sessions.

* `issues`, `uses` and `opens` say which event of a run issues a challenge, uses one up with
  success, or opens a session; `yields` connects the last to the second.
* `ChallengeStep` is everything a call can do to the challenges.

Main result: `challenges_single_use`.  A nonce could be drawn twice, so the count is of issues:
a challenge that is issued once opens at most one session.
-/
import OpenSsp.SessionOwner

namespace OpenSsp.Auth

open Interleave

variable {C : Codecs} {ok : Config (machine C) → Move (machine C) → Prop}

/-! ### Events -/

/-- The challenge is issued to the identity. -/
def issues (identity protectedChallenge : String) (e : Event Api) : Bool :=
  match e with
  | ⟨.saveChallenge i p _, .ok ()⟩ => i == identity && p == protectedChallenge
  | _ => false

/-- The challenge is used up, and was still fresh. -/
def uses (identity protectedChallenge : String) (e : Event Api) : Bool :=
  match e with
  | ⟨.consumeChallenge i p _ _, .ok true⟩ => i == identity && p == protectedChallenge
  | _ => false

/-- A session is opened. -/
def opens (e : Event Api) : Bool :=
  match e with
  | ⟨.saveSession .., .ok ()⟩ => true
  | _ => false

/-- A session is opened by a program that has used up the challenge. -/
def yields (s : Config (machine C)) (identity protectedChallenge : String) (x : Nat × Event Api) :
    Bool :=
  opens x.2 && s.trace.any fun y => y.1 == x.1 && uses identity protectedChallenge y.2

theorem uses_eq_true {identity p : String} {e : Event Api} (h : uses identity p e = true) :
    ∃ now maxAge, e = ⟨.consumeChallenge identity p now maxAge, .ok true⟩ := by
  unfold uses at h
  split at h
  · next i q now maxAge =>
      obtain ⟨hi, hq⟩ := Bool.and_eq_true_iff.mp h
      rw [beq_iff_eq.mp hi, beq_iff_eq.mp hq]
      exact ⟨now, maxAge, rfl⟩
  · cases h

theorem opens_eq_true {e : Event Api} (h : opens e = true) :
    ∃ token identity validUntil, e = ⟨.saveSession token identity validUntil, .ok ()⟩ := by
  unfold opens at h
  split at h
  · exact ⟨_, _, _, rfl⟩
  · cases h

/-! ### What a call does to the challenges -/

namespace Db

variable {db : Db} {identity p : String} {k : String × String} {r : ChallengeRow}

theorem get_saveChallenge {now : Nat}
    (h : (db.saveChallenge identity p now).challenges.get k = some r) :
    db.challenges.get k = some r ∨ k = (identity, p) ∧ r = ⟨identity, p, now⟩ := by
  have hkey := Table.key_of_get h
  obtain ⟨hmem, -⟩ := Table.mem_delete.mp (Table.mem_of_get h)
  rcases hins : db.challenges.insert ⟨identity, p, now⟩ with - | challenges
  · rw [hins, Option.getD_none, Table.mem_iff_get, hkey] at hmem
    exact .inl hmem
  · rw [hins, Option.getD_some, (Table.insert_eq_some hins).2] at hmem
    rcases List.mem_cons.mp hmem with rfl | hmem
    · exact .inr ⟨hkey.symm, rfl⟩
    · rw [Table.mem_iff_get, hkey] at hmem
      exact .inl hmem

theorem get_consumeChallenge {now maxAge : Nat}
    (h : (db.consumeChallenge identity p now maxAge).2.challenges.get k = some r) :
    db.challenges.get k = some r ∧ k ≠ (identity, p) := by
  unfold consumeChallenge at h
  split at h
  · next hnone => exact ⟨h, fun hk => by rw [hk, hnone] at h; cases h⟩
  · have hkey := Table.key_of_get h
    obtain ⟨hmem, hp⟩ := Table.mem_delete.mp (Table.mem_of_get h)
    rw [Table.mem_iff_get, hkey] at hmem
    refine ⟨hmem, fun hk => ?_⟩
    obtain ⟨hi, hq⟩ := Prod.mk.inj (hkey.trans hk)
    simp [hi, hq] at hp

/-- A challenge is used with success when its row is there and not too old. -/
theorem consumeChallenge_true {now maxAge : Nat}
    (h : (db.consumeChallenge identity p now maxAge).1 = true) :
    ∃ r, db.challenges.get (identity, p) = some r ∧ seconds r.issuedAt ≤ now ∧
      now ≤ seconds r.issuedAt + maxAge := by
  unfold consumeChallenge at h
  split at h
  · cases h
  · next r hr =>
      simp only [Bool.and_eq_true, decide_eq_true_eq] at h
      exact ⟨r, hr, h.1, by omega⟩

theorem get_pruneChallenges {olderThan : Nat}
    (h : (db.pruneChallenges olderThan).challenges.get k = some r) :
    db.challenges.get k = some r := by
  have hkey := Table.key_of_get h
  obtain ⟨hmem, -⟩ := Table.mem_delete.mp (Table.mem_of_get h)
  rw [Table.mem_iff_get, hkey] at hmem
  exact hmem

/-- The challenge can be used. -/
def present (identity p : String) (db : Db) : Bool := (db.challenges.get (identity, p)).isSome

theorem present_saveChallenge {identity' p' : String} {now : Nat}
    (hk : ¬ (identity' = identity ∧ p' = p))
    (h : (db.saveChallenge identity' p' now).present identity p = true) :
    db.present identity p = true := by
  obtain ⟨r, hr⟩ := Option.isSome_iff_exists.mp h
  rcases get_saveChallenge hr with hget | ⟨hkey, -⟩
  · rw [present, hget]
    rfl
  · obtain ⟨rfl, rfl⟩ := Prod.mk.inj hkey
    exact absurd ⟨rfl, rfl⟩ hk

theorem present_consumeChallenge {identity' p' : String} {now maxAge : Nat}
    (h : (db.consumeChallenge identity' p' now maxAge).2.present identity p = true) :
    db.present identity p = true ∧ ¬ (identity' = identity ∧ p' = p) := by
  obtain ⟨r, hr⟩ := Option.isSome_iff_exists.mp h
  obtain ⟨hget, hne⟩ := get_consumeChallenge hr
  refine ⟨by rw [present, hget]; rfl, ?_⟩
  rintro ⟨rfl, rfl⟩
  exact hne rfl

theorem present_pruneChallenges {olderThan : Nat}
    (h : (db.pruneChallenges olderThan).present identity p = true) :
    db.present identity p = true := by
  obtain ⟨r, hr⟩ := Option.isSome_iff_exists.mp h
  rw [present, get_pruneChallenges hr]
  rfl

/-- The challenges of all other identities. -/
def others (identity : String) (db : Db) : List ChallengeRow :=
  db.challenges.rows.filter fun r => r.identity != identity

theorem others_consumeChallenge {now maxAge : Nat} :
    (db.consumeChallenge identity p now maxAge).2.others identity = db.others identity := by
  unfold consumeChallenge
  split
  · rfl
  · show (List.filter _ (List.filter _ db.challenges.rows)) = _
    rw [others, List.filter_filter]
    apply List.filter_congr
    intro r _
    by_cases hi : r.identity = identity
    · simp [hi]
    · simp [hi]

end Db

/-- Everything a call can do to the challenges. -/
inductive ChallengeStep (e : Event Api) (db db' : Db) : Prop
  | issued (identity p : String) (now : Nat) (he : e = ⟨.saveChallenge identity p now, .ok ()⟩)
      (hdb : db' = db.saveChallenge identity p now)
  | consumed (identity p : String) (now maxAge : Nat)
      (he : e = ⟨.consumeChallenge identity p now maxAge,
        .ok (db.consumeChallenge identity p now maxAge).1⟩)
      (hdb : db' = (db.consumeChallenge identity p now maxAge).2)
  | pruned (olderThan : Nat) (he : e = ⟨.pruneChallenges olderThan, .ok ()⟩)
      (hdb : db' = db.pruneChallenges olderThan)
  | kept (hissue : ∀ identity p, issues identity p e = false)
      (huse : ∀ identity p, uses identity p e = false) (hdb : db'.challenges = db.challenges)

/-- A call uses a challenge up only when it is there, and none but issuing it puts it there. -/
theorem ChallengeStep.row {e : Event Api} {db db' : Db} (hc : ChallengeStep e db db')
    (identity p : String) : (uses identity p e).toNat + (db'.present identity p).toNat ≤
      (issues identity p e).toNat + (db.present identity p).toNat := by
  cases hc with
  | issued identity' p' now he hdb =>
      have huse : uses identity p e = false := by rw [he]; rfl
      rw [huse, hdb]
      by_cases hk : identity' = identity ∧ p' = p
      · have hissue : issues identity p e = true := by simp [he, issues, hk]
        have hle := Bool.toNat_le ((db.saveChallenge identity' p' now).present identity p)
        rw [hissue, Bool.toNat_true, Bool.toNat_false]
        omega
      · have hle : ((db.saveChallenge identity' p' now).present identity p).toNat ≤
            (db.present identity p).toNat :=
          Bool.toNat_le_toNat (Bool.le_iff_imp.mpr (Db.present_saveChallenge hk))
        rw [Bool.toNat_false]
        omega
  | consumed identity' p' now maxAge he hdb =>
      have hissue : issues identity p e = false := by rw [he]; rfl
      rw [hissue, hdb, Bool.toNat_false]
      have hpost := @Db.present_consumeChallenge db identity p identity' p' now maxAge
      by_cases hk : identity' = identity ∧ p' = p
      · -- the row is gone, and the call has succeeded only if it was there
        have hgone : (db.consumeChallenge identity' p' now maxAge).2.present identity p = false :=
          Bool.eq_false_iff.mpr fun h => (hpost h).2 hk
        have hle : (uses identity p e).toNat ≤ (db.present identity p).toNat := by
          refine Bool.toNat_le_toNat (Bool.le_iff_imp.mpr fun huse => ?_)
          rcases hres : (db.consumeChallenge identity' p' now maxAge).1 with - | -
          · simp [he, uses, hres] at huse
          · obtain ⟨r, hr, -⟩ := Db.consumeChallenge_true hres
            rw [Db.present, ← hk.1, ← hk.2, hr]
            rfl
        rw [hgone, Bool.toNat_false]
        omega
      · have huse : uses identity p e = false := by
          rw [he]
          rcases (db.consumeChallenge identity' p' now maxAge).1 with - | -
          · rfl
          · simpa [uses] using hk
        have hle := Bool.toNat_le_toNat (Bool.le_iff_imp.mpr fun h => (hpost h).1)
        rw [huse, Bool.toNat_false]
        omega
  | pruned olderThan he hdb =>
      have huse : uses identity p e = false := by rw [he]; rfl
      have hle : ((db.pruneChallenges olderThan).present identity p).toNat ≤
          (db.present identity p).toNat :=
        Bool.toNat_le_toNat (Bool.le_iff_imp.mpr Db.present_pruneChallenges)
      rw [huse, hdb, Bool.toNat_false]
      omega
  | kept hissue huse hdb => rw [hissue, huse, Db.present, hdb, Db.present]

theorem perform_challenges {t : Nat} {c : Call} {ch : Choice} {w w' : World} {r : c.Reply}
    (h : (machine C).perform t c ch w = some (r, w')) : ChallengeStep ⟨c, r⟩ w.db w'.db := by
  have h : perform C c ch w = some (r, w') := h
  cases c with
  | saveChallenge identity p now =>
      cases ch with
      | done =>
          obtain ⟨rfl, rfl⟩ := Prod.mk.inj (Option.some.inj h)
          exact .issued identity p now rfl rfl
      | fail e =>
          obtain ⟨rfl, rfl⟩ := Prod.mk.inj (Option.some.inj h)
          exact .kept (fun _ _ => rfl) (fun _ _ => rfl) rfl
      | _ => simp [perform] at h
  | consumeChallenge identity p now maxAge =>
      cases ch with
      | done =>
          obtain ⟨rfl, rfl⟩ := Prod.mk.inj (Option.some.inj h)
          exact .consumed identity p now maxAge rfl rfl
      | fail e =>
          obtain ⟨rfl, rfl⟩ := Prod.mk.inj (Option.some.inj h)
          exact .kept (fun _ _ => rfl) (fun _ _ => rfl) rfl
      | _ => simp [perform] at h
  | pruneChallenges olderThan =>
      cases ch with
      | done =>
          obtain ⟨rfl, rfl⟩ := Prod.mk.inj (Option.some.inj h)
          exact .pruned olderThan rfl rfl
      | fail e =>
          obtain ⟨rfl, rfl⟩ := Prod.mk.inj (Option.some.inj h)
          exact .kept (fun _ _ => rfl) (fun _ _ => rfl) rfl
      | _ => simp [perform] at h
  | saveSession token identity validUntil =>
      refine .kept (fun _ _ => rfl) (fun _ _ => rfl) ?_
      cases ch with
      | done =>
          simp only [perform] at h
          split at h
          · next db hdb =>
              obtain ⟨-, rfl⟩ := Prod.mk.inj (Option.some.inj h)
              obtain ⟨sessions, -, heq⟩ := bind_ok hdb
              rw [← Except.ok.inj heq]
          · obtain ⟨-, rfl⟩ := Prod.mk.inj (Option.some.inj h)
            rfl
      | fail e =>
          obtain ⟨-, rfl⟩ := Prod.mk.inj (Option.some.inj h)
          rfl
      | _ => simp [perform] at h
  | _ =>
      -- no other call touches the challenges
      refine .kept (fun _ _ => rfl) (fun _ _ => rfl) ?_
      cases ch <;> simp only [perform, Option.some.injEq, Prod.mk.injEq, reduceCtorEq] at h
      all_goals
        obtain ⟨-, rfl⟩ := h
        rfl

/-- A move makes at most one call, and only calls touch the challenges. -/
theorem step_challenges {s s' : Config (machine C)} {m : Move (machine C)}
    (h : s.step m = some s') : s'.trace = s.trace ∧ s'.world.db = s.world.db ∨
    ∃ t e, s'.trace = (t, e) :: s.trace ∧ ChallengeStep e s.world.db s'.world.db := by
  rcases Config.step_cases h with ⟨r, -, rfl⟩ | ⟨t, ch, c, k, hist, r, w, -, -, hp, rfl⟩ |
    ⟨t, th, -, -, rfl⟩ | ⟨-, rfl⟩ | ⟨o, w, -, ho, rfl⟩
  · exact .inl ⟨rfl, rfl⟩
  · exact .inr ⟨t, ⟨c, r⟩, rfl, perform_challenges hp⟩
  · exact .inl ⟨rfl, rfl⟩
  · exact .inl ⟨rfl, rfl⟩
  · obtain rfl := Option.some.inj ho
    exact .inl ⟨rfl, rfl⟩

/-! ### Challenges along a run -/

/-- A challenge that can be used was issued when its row says. -/
theorem row_issued {s : Config (machine C)} (hs : Reach ok s) {k : String × String}
    {r : ChallengeRow} (hr : s.world.db.challenges.get k = some r) :
    ∃ u, (u, ⟨.saveChallenge k.1 k.2 r.issuedAt, .ok ()⟩) ∈ s.trace := by
  refine hs.invariant (J := fun s : Config (machine C) => ∀ k r,
    s.world.db.challenges.get k = some r →
    ∃ u, (u, ⟨.saveChallenge k.1 k.2 r.issuedAt, .ok ()⟩) ∈ s.trace) ?_ ?_ k r hr
  · intro k r hr
    cases hr
  · intro s s' m _ ih _ hst k r hr
    have hold : s.world.db.challenges.get k = some r →
        ∃ u, (u, ⟨.saveChallenge k.1 k.2 r.issuedAt, .ok ()⟩) ∈ s'.trace := by
      intro hget
      obtain ⟨u, hu⟩ := ih k r hget
      exact ⟨u, Config.trace_grows hst hu⟩
    rcases step_challenges hst with ⟨-, hdb⟩ | ⟨t, e, htr, hc⟩
    · rw [hdb] at hr
      exact hold hr
    · -- only an issue adds a row; the others remove rows or leave them
      cases hc with
      | issued identity p now he hdb =>
          rw [hdb] at hr
          rcases Db.get_saveChallenge hr with hget | ⟨rfl, rfl⟩
          · exact hold hget
          · rw [htr, he]
            exact ⟨t, List.mem_cons_self⟩
      | consumed identity p now maxAge he hdb =>
          rw [hdb] at hr
          exact hold (Db.get_consumeChallenge hr).1
      | pruned olderThan he hdb =>
          rw [hdb] at hr
          exact hold (Db.get_pruneChallenges hr)
      | kept hissue huse hdb =>
          rw [hdb] at hr
          exact hold hr

/-- A challenge that was used with success had been issued, to the same identity and at most
the maximal age before. -/
theorem use_issued {s : Config (machine C)} (hs : Reach ok s) {t : Nat} {identity p : String}
    {now maxAge : Nat}
    (h : (t, ⟨.consumeChallenge identity p now maxAge, .ok true⟩) ∈ s.trace) :
    ∃ u issue, (u, ⟨.saveChallenge identity p issue, .ok ()⟩) ∈ s.trace ∧
      Db.seconds issue ≤ now ∧ now ≤ Db.seconds issue + maxAge := by
  refine hs.invariant (J := fun s : Config (machine C) => ∀ t identity p now maxAge,
    (t, ⟨.consumeChallenge identity p now maxAge, .ok true⟩) ∈ s.trace →
    ∃ u issue, (u, ⟨.saveChallenge identity p issue, .ok ()⟩) ∈ s.trace ∧
      Db.seconds issue ≤ now ∧ now ≤ Db.seconds issue + maxAge) ?_ ?_ t identity p now maxAge h
  · intro t identity p now maxAge h
    cases h
  · intro s s' m hreach ih _ hst t identity p now maxAge h
    have hold : (t, ⟨.consumeChallenge identity p now maxAge, .ok true⟩) ∈ s.trace →
        ∃ u issue, (u, ⟨.saveChallenge identity p issue, .ok ()⟩) ∈ s'.trace ∧
          Db.seconds issue ≤ now ∧ now ≤ Db.seconds issue + maxAge := by
      intro hmem
      obtain ⟨u, issue, hu, hle⟩ := ih t identity p now maxAge hmem
      exact ⟨u, issue, Config.trace_grows hst hu, hle⟩
    rcases step_challenges hst with ⟨htr, -⟩ | ⟨u, e, htr, hc⟩
    · rw [htr] at h
      exact hold h
    · rw [htr] at h
      rcases List.mem_cons.mp h with h | h
      · obtain ⟨-, rfl⟩ := Prod.mk.inj h
        -- the event is of this step, so its row was there
        cases hc with
        | issued identity' p' now' he hdb => injection he with hcall; cases hcall
        | consumed identity' p' now' maxAge' he hdb =>
            injection he with hcall hreply
            injection hcall with hi hp hn ha
            subst hi hp hn ha
            obtain ⟨r, hr, hle⟩ := Db.consumeChallenge_true (Except.ok.inj hreply).symm
            obtain ⟨v, hv⟩ := row_issued hreach hr
            exact ⟨v, r.issuedAt, Config.trace_grows hst hv, hle⟩
        | pruned olderThan he hdb => injection he with hcall; cases hcall
        | kept hissue huse hdb =>
            have := huse identity p
            simp [uses] at this
      · exact hold h

/-- A challenge is used with success at most as often as it is issued: it takes its row, and
only issuing brings the row back. -/
theorem uses_le_issues {s : Config (machine C)} (hs : Reach ok s) (identity p : String) :
    s.trace.countP (uses identity p ·.2) ≤ s.trace.countP (issues identity p ·.2) := by
  suffices hrow : s.trace.countP (uses identity p ·.2) + (s.world.db.present identity p).toNat ≤
      s.trace.countP (issues identity p ·.2) by omega
  refine hs.invariant (J := fun s : Config (machine C) => s.trace.countP (uses identity p ·.2) +
      (s.world.db.present identity p).toNat ≤ s.trace.countP (issues identity p ·.2)) ?_ ?_
  · rfl
  · intro s s' m _ ih _ hst
    rcases step_challenges hst with ⟨htr, hdb⟩ | ⟨t, e, htr, hc⟩
    · rw [htr, hdb]
      exact ih
    · have hrow := hc.row identity p
      have hcount : ∀ q : Event Api → Bool,
          s'.trace.countP (q ·.2) = s.trace.countP (q ·.2) + (q e).toNat := by
        intro q
        rw [htr, List.countP_cons]
        cases q e <;> rfl
      rw [hcount, hcount]
      omega

/-! ### Sessions along a run -/

/-- What program `t` has done to open a session for the identity with the challenge: the
challenge was issued to the same text, used up at most five minutes later by the clock in whole
seconds, and signed under the key the identity spells. -/
structure Earned (s : Config (machine C)) (t : Nat) (identity p : String) (issue now : Nat)
    (key : PublicKey) (bytes : List UInt8) (sig : Signature) : Prop where
  issued : ∃ u, (u, ⟨.saveChallenge identity p issue, .ok ()⟩) ∈ s.trace
  clock : (t, ⟨.now, now⟩) ∈ s.trace
  used : (t, ⟨.consumeChallenge identity p (Db.seconds now) 300, .ok true⟩) ∈ s.trace
  after : Db.seconds issue ≤ Db.seconds now
  inTime : Db.seconds now ≤ Db.seconds issue + 300
  spelled : identityKey C identity = .ok key
  text : challengeBytes C p = .ok bytes
  signed : C.verifyEcdsa (sha256 bytes) sig key = .ok ()

theorem Earned.mono {s s' : Config (machine C)} {t : Nat} {identity p : String}
    {issue now : Nat} {key : PublicKey} {bytes : List UInt8} {sig : Signature}
    (h : Earned s t identity p issue now key bytes sig) (htr : ∀ x ∈ s.trace, x ∈ s'.trace) :
    Earned s' t identity p issue now key bytes sig := by
  obtain ⟨u, hu⟩ := h.issued
  exact ⟨⟨u, htr _ hu⟩, htr _ h.clock, htr _ h.used, h.after, h.inTime, h.spelled, h.text,
    h.signed⟩

theorem verifyEcdsa_replies {s : Config (machine C)} (hs : Reach ok s) {t : Nat}
    {digest : List UInt8} {sig : Signature} {key : PublicKey} {r : Except String Unit}
    (h : (t, ⟨.verifyEcdsa digest sig key, r⟩) ∈ s.trace) : r = C.verifyEcdsa digest sig key := by
  obtain ⟨hist, s₀, s₁, hm, -⟩ := hs.happened (G := fun _ _ => True) (fun _ => trivial)
    (fun _ _ _ _ _ => trivial) (fun _ _ _ _ _ _ => trivial) t _ h
  obtain ⟨ch, k, -, -, hp, -⟩ := hm.made
  have hp : perform C (.verifyEcdsa digest sig key) ch s₀.world = some (r, s₁.world) := hp
  cases ch with
  | done => exact (Prod.mk.inj (Option.some.inj hp)).1.symm
  | _ => cases hp

/-- A program that is about to save a session has earned it. -/
theorem about_to_save {s : Config (machine C)} (hs : Reach ok s) {t : Nat}
    {token identity : String} {validUntil : Nat}
    {k : Call.Reply (.saveSession token identity validUntil) → Prog Api Unit} {hist : History Api}
    (hth : s.thread t = some ⟨.call (.saveSession token identity validUntil) k, hist⟩) :
    ∃ p issue now key bytes sig, Earned s t identity p issue now key bytes sig := by
  obtain ⟨-, key, hg⟩ := hs.justified handler_justified hth
  obtain ⟨p, bytes, sig, ⟨now, huse⟩, hbytes, -, hsig⟩ := hg.signed
  obtain ⟨newer, older, hhist⟩ := List.append_of_mem huse
  obtain ⟨s₀, s₁, hm⟩ := hs.recalled hth hhist
  obtain ⟨-, n, hclock, rfl⟩ := moment_justified hm
  have hmem := hs.history_mem t _ hth
  have hnow : (⟨.now, n⟩ : Event Api) ∈ hist := by
    rw [hhist, hclock]
    exact List.mem_append_right _ (List.mem_cons_of_mem _ List.mem_cons_self)
  obtain ⟨u, issue, hu, hafter, htime⟩ := use_issued hs (hmem _ huse)
  exact ⟨p, issue, n, key, bytes, sig, ⟨u, hu⟩, hmem _ hnow, hmem _ huse, hafter, htime,
    hg.spelled, hbytes, (verifyEcdsa_replies hs (hmem _ hsig)).symm⟩

/-- Every session that was ever opened was earned. -/
theorem session_earned {s : Config (machine C)} (hs : Reach ok s) {t : Nat}
    {token identity : String} {validUntil : Nat}
    (h : (t, ⟨.saveSession token identity validUntil, .ok ()⟩) ∈ s.trace) :
    ∃ p issue now key bytes sig, Earned s t identity p issue now key bytes sig := by
  refine hs.invariant (J := fun s : Config (machine C) => ∀ t token identity validUntil,
    (t, ⟨.saveSession token identity validUntil, .ok ()⟩) ∈ s.trace →
    ∃ p issue now key bytes sig, Earned s t identity p issue now key bytes sig) ?_ ?_
    t token identity validUntil h
  · intro t token identity validUntil h
    cases h
  · intro s s' m hreach ih hm hst t token identity validUntil h
    have hold : (t, ⟨.saveSession token identity validUntil, .ok ()⟩) ∈ s.trace →
        ∃ p issue now key bytes sig, Earned s' t identity p issue now key bytes sig := by
      intro hmem
      obtain ⟨p, issue, now, key, bytes, sig, hearned⟩ := ih t token identity validUntil hmem
      exact ⟨p, issue, now, key, bytes, sig,
        hearned.mono fun _ => Config.trace_grows hst⟩
    rcases Config.step_cases hst with ⟨r, -, rfl⟩ | ⟨u, ch, c, k, hist, r, w, -, hth, -, rfl⟩ |
      ⟨u, th, -, -, rfl⟩ | ⟨-, rfl⟩ | ⟨o, w, -, -, rfl⟩
    · exact hold h
    · rcases List.mem_cons.mp h with h | h
      · obtain ⟨rfl, he⟩ := Prod.mk.inj h
        injection he with hcall
        subst hcall
        obtain ⟨p, issue, now, key, bytes, sig, hearned⟩ := about_to_save hreach hth
        exact ⟨p, issue, now, key, bytes, sig, hearned.mono fun _ => List.mem_cons_of_mem _⟩
      · exact hold h
    · exact hold h
    · exact hold h
    · exact hold h

/-- The programs that have opened a session are all different. -/
theorem openers_nodup {s : Config (machine C)} (hs : Reach ok s) :
    ((s.trace.filter (opens ·.2)).map Prod.fst).Nodup := by
  refine hs.invariant (J := fun s : Config (machine C) =>
    ((s.trace.filter (opens ·.2)).map Prod.fst).Nodup) ?_ ?_
  · exact List.nodup_nil
  · intro s s' m hreach ih hm hst
    rcases Config.step_cases hst with ⟨r, -, rfl⟩ | ⟨t, ch, c, k, hist, r, w, -, hth, -, rfl⟩ |
      ⟨t, th, -, -, rfl⟩ | ⟨-, rfl⟩ | ⟨o, w, -, -, rfl⟩
    · exact ih
    · show ((((t, (⟨c, r⟩ : Event Api)) :: s.trace).filter (opens ·.2)).map Prod.fst).Nodup
      rw [List.filter_cons]
      by_cases hopen : opens ⟨c, r⟩ = true
      · rw [if_pos hopen, List.map_cons, List.nodup_cons]
        refine ⟨fun hmem => ?_, ih⟩
        -- the program would have opened a session before
        obtain ⟨⟨u, e⟩, he, rfl⟩ := List.mem_map.mp hmem
        obtain ⟨he, hold⟩ := List.mem_filter.mp he
        obtain ⟨token, identity, validUntil, heq⟩ := opens_eq_true hopen
        injection heq with hcall
        subst hcall
        obtain ⟨hunsaved, -⟩ := hreach.justified handler_justified hth
        obtain ⟨token', identity', validUntil', rfl⟩ := opens_eq_true hold
        exact hunsaved _ _ _ (hreach.history_complete hth he)
      · rw [if_neg hopen]
        exact ih
    · exact ih
    · exact ih
    · exact ih

/-- A program uses at most one challenge up. -/
theorem used_once {s : Config (machine C)} (hs : Reach ok s) {t : Nat}
    {identity p identity' p' : String} {now maxAge now' maxAge' : Nat} {r r' : Except String Bool}
    (h : (t, ⟨.consumeChallenge identity p now maxAge, r⟩) ∈ s.trace)
    (h' : (t, ⟨.consumeChallenge identity' p' now' maxAge', r'⟩) ∈ s.trace) :
    identity = identity' ∧ p = p' := by
  rcases hs.same_program h h' with he | ⟨hist, s₀, s₁, hm, he⟩ | ⟨hist, s₀, s₁, hm, he⟩
  · injection he with hcall
    injection hcall with hi hp
    exact ⟨hi, hp⟩
  · obtain ⟨-, n, rfl, -⟩ := moment_justified hm
    simp at he
  · obtain ⟨-, n, rfl, -⟩ := moment_justified hm
    simp at he

/-- A challenge opens sessions for the identity it was issued to. -/
theorem yields_identity {s : Config (machine C)} (hs : Reach ok s) {t : Nat}
    {token identity identity' p : String} {validUntil : Nat}
    (h : (t, ⟨.saveSession token identity' validUntil, .ok ()⟩) ∈ s.trace)
    (hyield : yields s identity p (t, ⟨.saveSession token identity' validUntil, .ok ()⟩) = true) :
    identity' = identity := by
  obtain ⟨q, issue, now, key, bytes, sig, hearned⟩ := session_earned hs h
  obtain ⟨⟨u, e⟩, hy, huse⟩ := List.any_eq_true.mp (Bool.and_eq_true_iff.mp hyield).2
  obtain ⟨hthread, he⟩ := Bool.and_eq_true_iff.mp huse
  obtain rfl : u = t := beq_iff_eq.mp hthread
  obtain ⟨now', maxAge, rfl⟩ := uses_eq_true he
  exact (used_once hs hearned.used hy).1

/-- No challenge opens more sessions than it was issued times. -/
theorem yields_le_issues {s : Config (machine C)} (hs : Reach ok s) (identity p : String) :
    s.trace.countP (yields s identity p) ≤ s.trace.countP (issues identity p ·.2) := by
  refine Nat.le_trans ?_ (uses_le_issues hs identity p)
  have hnodup : ((s.trace.filter (yields s identity p)).map Prod.fst).Nodup := by
    refine (openers_nodup hs).sublist (List.Sublist.map _ ?_)
    apply List.monotone_filter_right
    intro x hx
    exact (Bool.and_eq_true_iff.mp hx).1
  have hsub : (s.trace.filter (yields s identity p)).map Prod.fst ⊆
      (s.trace.filter (uses identity p ·.2)).map Prod.fst := by
    intro t ht
    obtain ⟨x, hx, rfl⟩ := List.mem_map.mp ht
    obtain ⟨-, hyield⟩ := List.mem_filter.mp hx
    obtain ⟨y, hy, huse⟩ := List.any_eq_true.mp (Bool.and_eq_true_iff.mp hyield).2
    obtain ⟨hthread, huse⟩ := Bool.and_eq_true_iff.mp huse
    rw [← beq_iff_eq.mp hthread]
    exact List.mem_map_of_mem (List.mem_filter.mpr ⟨hy, huse⟩)
  have hlen := (List.subperm_of_subset hnodup hsub).length_le
  rwa [List.length_map, List.length_map, ← List.countP_eq_length_filter,
    ← List.countP_eq_length_filter] at hlen

/-! ### Failed attempts, and other identities -/

/-- However the program ends with an error, it has opened no session. -/
def FailsUnsaved {α : Type} (x : Ssp α) (h : History Api) : Prop :=
  Act.wp (fun _ _ => True) x (fun _ _ => True) (fun _ h' => Unsaved h') h

/-- An event that opens no session. -/
def Quiet (e : Event Api) : Prop := opens e = false

theorem Unsaved.after {h h' : History Api} (hh : Unsaved h) (he : Extends Quiet h h') :
    Unsaved h' := by
  obtain ⟨newer, rfl, hnewer⟩ := he
  intro token identity validUntil hmem
  rcases List.mem_append.mp hmem with hnew | hold
  · have hquiet : opens (⟨.saveSession token identity validUntil, .ok ()⟩ : Event Api) = false :=
      hnewer _ hnew
    cases hquiet
  · exact hh token identity validUntil hold

/-- A step that opens no session can come before. -/
theorem FailsUnsaved.bind {α β : Type} {x : Ssp α} {f : α → Ssp β} {h : History Api}
    {R : α → History Api → Prop} (hh : Unsaved h) (hx : Act.Spec (fun _ _ => True) Quiet x R h)
    (hf : ∀ a h', Unsaved h' → R a h' → FailsUnsaved (f a) h') : FailsUnsaved (x >>= f) h := by
  apply (Act.wp_bind x f).mpr
  apply Act.wp_mono hx.wp
  · rintro a h' ⟨he, hR⟩
    exact hf a h' (hh.after he) hR
  · intro e h' he
    exact hh.after he

/-- An attempt that fails has opened no session. -/
theorem verifyChallenge_failsUnsaved (identity p signatureHex : String) :
    FailsUnsaved (verifyChallenge C identity p signatureHex) [] := by
  have hnil : Unsaved [] := fun _ _ _ h => by cases h
  refine .bind hnil Act.Spec.ofExcept_eq fun key h₁ hh₁ _ => ?_
  refine .bind hh₁ (Act.Spec.tell_eq (I := Api) (c := .now) trivial fun _ => rfl) fun now h₂ hh₂ _ => ?_
  refine .bind hh₂ (Act.Spec.ask_eq (I := Api) (c := .consumeChallenge ..) trivial fun _ => rfl)
    fun fresh h₃ hh₃ _ => ?_
  by_cases hfresh : fresh = true
  · rw [hfresh]
    refine .bind hh₃ Act.Spec.ofExcept_eq fun sig h₄ hh₄ _ => ?_
    refine .bind hh₄ Act.Spec.ofExcept_eq fun bytes h₅ hh₅ _ => ?_
    refine .bind hh₅ Act.Spec.ofExcept_eq fun _ h₆ hh₆ _ => ?_
    refine .bind hh₆ (Act.Spec.mapErr (Act.Spec.ask_eq (I := Api) (c := .verifyEcdsa ..) trivial
      fun _ => rfl)) fun _ h₇ hh₇ _ => ?_
    refine .bind hh₇ (Act.Spec.tell_eq (I := Api) (c := .newUuid) trivial fun _ => rfl)
      fun uuid h₈ hh₈ _ => ?_
    refine .bind hh₈ (Act.Spec.tell_eq (I := Api) (c := .now) trivial fun _ => rfl) fun now' h₉ hh₉ _ => ?_
    -- the last call: when it fails, nothing was saved
    refine ⟨trivial, fun r => ?_⟩
    rcases r with e | u
    · intro token identity' validUntil hmem
      rcases List.mem_cons.mp hmem with hlast | hold
      · injection hlast with hcall hreply
        cases hcall
        cases hreply
      · exact hh₉ token identity' validUntil hold
    · trivial
  · rw [Bool.eq_false_iff.mpr hfresh]
    exact hh₃

/-- An attempt leaves the challenges of the other identities alone. -/
theorem attempt_others {s s₁ s₂ : Config (machine C)} {identity p signatureHex : String}
    {ch : Choice}
    (h : Later ok (s.spawn (Request.handler C (.verifyChallenge identity p signatureHex))) s₁)
    (hst : s₁.step (.run s.threads.length ch) = some s₂) :
    s₂.world.db.others identity = s₁.world.db.others identity := by
  have hwp : (Request.handler C (.verifyChallenge identity p signatureHex)).wp
      (Attempt C identity) (fun _ _ => True) [] := by
    rw [Request.handler, Prog.wp_discard]
    exact Prog.wp_mono (verifyChallenge_meets identity p signatureHex).discard.wp
      fun _ _ _ => trivial
  rcases Config.step_cases hst with ⟨r, he, -⟩ | ⟨t, ch, c, k, hist, r, w, he, hth, hp, rfl⟩ |
    ⟨t, th, he, -, -⟩ | ⟨he, -⟩ | ⟨o, w, he, -, -⟩
  · cases he
  · obtain ⟨rfl, rfl⟩ := Move.run.inj he
    -- the attempt makes only calls about its own identity
    have hcall := (Reach.spawned_wp hwp h _ hth).1
    have hdb := perform_challenges hp
    -- of the calls that write challenges it makes the one that uses one up
    cases hdb with
    | issued i q now he' hdb =>
        injection he' with hc
        subst hc
        exact hcall.elim
    | consumed i q now maxAge he' hdb =>
        injection he' with hc
        subst hc
        obtain ⟨rfl, -⟩ := hcall
        show w.db.others i = s₁.world.db.others i
        rw [hdb]
        exact Db.others_consumeChallenge
    | pruned olderThan he' hdb =>
        injection he' with hc
        subst hc
        exact hcall.elim
    | kept hissue huse hdb =>
        show w.db.others identity = s₁.world.db.others identity
        rw [Db.others, hdb, Db.others]
  · cases he
  · cases he
  · cases he

/-- **A challenge is single-use.**  Every session was earned by one challenge, issued to the
identity of the session, used at most five minutes later and signed under the identity's key; a
challenge opens sessions of its own identity only, and not more of them than it was issued
times.  An attempt that fails opens no session, and no attempt touches the challenges of other
identities. -/
theorem challenges_single_use {s : Config (machine C)} (hs : Reach anyMove s) :
    (∀ t token identity validUntil,
      (t, ⟨.saveSession token identity validUntil, .ok ()⟩) ∈ s.trace →
      ∃ p issue now key bytes sig, Earned s t identity p issue now key bytes sig) ∧
    (∀ identity p,
      s.trace.countP (yields s identity p) ≤ s.trace.countP (issues identity p ·.2) ∧
      ∀ t token identity' validUntil,
        (t, ⟨.saveSession token identity' validUntil, .ok ()⟩) ∈ s.trace →
        yields s identity p (t, ⟨.saveSession token identity' validUntil, .ok ()⟩) = true →
        identity' = identity) ∧
    ∀ identity p signatureHex,
      FailsUnsaved (verifyChallenge C identity p signatureHex) [] ∧
      ∀ s₁ s₂ ch,
        Later anyMove (s.spawn (Request.handler C (.verifyChallenge identity p signatureHex))) s₁ →
        s₁.step (.run s.threads.length ch) = some s₂ →
        s₂.world.db.others identity = s₁.world.db.others identity := by
  refine ⟨?_, ?_, ?_⟩
  · intro t token identity validUntil h
    exact session_earned hs h
  · intro identity p
    exact ⟨yields_le_issues hs identity p, fun t token identity' validUntil h hyield =>
      yields_identity hs h hyield⟩
  · intro identity p signatureHex
    exact ⟨verifyChallenge_failsUnsaved identity p signatureHex, fun s₁ s₂ ch h hst =>
      attempt_others h hst⟩

namespace Sample

/-- The text of the challenge with the nonce 7. -/
def challenge : String := String.ofList (base64Encode (encodeProtected (issued 7)))

/-- A client opens a session, and tries to open a second one with the same challenge. -/
def useTwice : List (Move (machine .sample)) :=
  clock :: openSession 0 compressed 7 ++
    .spawn (Request.verifyChallenge compressed challenge
      (String.ofList (base64Encode ((signatures.lookup 7).getD ([], [])).2))) ::
    calls 2 [.done, .done]

/-- One session has been opened, and the second attempt has been made. -/
def triedTwice : Reach.Run anyMove fun s : Config (machine .sample) =>
    decide (s.trace.countP (issues compressed challenge ·.2) = 1) &&
      (opened 1 compressed s && decide (2 < s.threads.length)) :=
  .ofMoves useTwice (by decide +kernel)

end Sample

/-- A challenge that is tried twice has opened one session. -/
theorem challenges_single_use_twice : ∃ s : Config (machine .sample), Reach anyMove s ∧
    s.trace.countP (issues Sample.compressed Sample.challenge ·.2) = 1 ∧
    s.trace.countP (yields s Sample.compressed Sample.challenge) ≤ 1 ∧
    (∃ t token validUntil,
      (t, ⟨.saveSession token Sample.compressed validUntil, .ok ()⟩) ∈ s.trace ∧
      ∃ p issue now key bytes sig, Earned s t Sample.compressed p issue now key bytes sig) ∧
    2 < s.threads.length := by
  obtain ⟨s, hs, hp⟩ := Sample.triedTwice
  obtain ⟨hissue, hp⟩ := Bool.and_eq_true_iff.mp hp
  obtain ⟨hopen, hlen⟩ := Bool.and_eq_true_iff.mp hp
  have hissue := of_decide_eq_true hissue
  obtain ⟨t, token, validUntil, digest, sig, hsave, -⟩ := Sample.signed_of_opened hopen
  obtain ⟨hearned, hcount, -⟩ := challenges_single_use hs
  exact ⟨s, hs, hissue, hissue ▸ (hcount Sample.compressed Sample.challenge).1,
    ⟨t, token, validUntil, hsave, hearned _ _ _ _ hsave⟩, of_decide_eq_true hlen⟩

end OpenSsp.Auth
