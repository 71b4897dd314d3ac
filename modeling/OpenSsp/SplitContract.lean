/-
OpenSsp/SplitContract.lean

The contract of the split programs: which calls they make, given what they have seen.

A history is `Genuine` when its database replies fit together, as those of a real database
do: the rows of one parent have one id, and a row is never further back than the program
itself has brought it.  A program submits only the plan of a row it has read and not touched
since, and its loop is over within four rounds if its history is genuine.

Main result: `handler_justified`.
-/
import OpenSsp.LeafSplit

namespace OpenSsp.LeafSplit

open Interleave

variable {S : Sdk} {h h' : History (Api S)} {e x : Event (Api S)} {A B : String → Prop}

/-! ### What a history says -/

/-- A successful query. -/
def DbOk (q : Query) (out : q.Out) : Event (Api S) := ⟨.db q, .ok out⟩

/-- The reply shows this row. -/
inductive Shows (e : Event (Api S)) (operation : SparkSplitOperation) : Prop
  | forParent (parentNodeId : String)
      (he : e = DbOk (.sparkSplitForParent parentNodeId) (some operation))
  | inserted (candidate : SparkSplitOperation)
      (he : e = DbOk (.getOrInsertSparkSplit candidate) operation)
  | incomplete (operations : List SparkSplitOperation)
      (he : e = DbOk .incompleteSparkSplits operations) (hmem : operation ∈ operations)

/-- The database replies fit together. -/
structure Genuine (h : History (Api S)) : Prop where
  parent : ∀ p operation, DbOk (.sparkSplitForParent p) (some operation) ∈ h →
    operation.parentNodeId = p
  ids : ∀ e e' operation operation', e ∈ h → e' ∈ h → Shows e operation →
    Shows e' operation' → operation.parentNodeId = operation'.parentNodeId →
    operation.operationId = operation'.operationId
  distinct : ∀ operations, DbOk .incompleteSparkSplits operations ∈ h →
    (operations.map (·.operationId)).Nodup
  forward : ∀ newer older p operation,
    h = newer ++ DbOk (.sparkSplitForParent p) (some operation) :: older →
    ∀ q out n, DbOk q out ∈ older → q.saves = some (operation.operationId, n) →
      n ≤ operation.status.stage

/-- What is genuine was genuine before. -/
theorem Genuine.older {newer : History (Api S)} (hg : Genuine (newer ++ h)) : Genuine h where
  parent p operation hm := hg.parent p operation (List.mem_append_right _ hm)
  ids e e' o o' he he' :=
    hg.ids e e' o o' (List.mem_append_right _ he) (List.mem_append_right _ he')
  distinct operations hm := hg.distinct operations (List.mem_append_right _ hm)
  forward newer' older p operation he :=
    hg.forward (newer ++ newer') older p operation (by rw [he, List.append_assoc])

/-- And before any stretch of events. -/
theorem Genuine.before {q : Event (Api S) → Prop} (hg : Genuine h') (he : Extends q h h') :
    Genuine h := by
  obtain ⟨newer, rfl, -⟩ := he
  exact hg.older

/-- The event keeps the lock, and saves progress of these operations only. -/
def Keeps (A : String → Prop) (x : Event (Api S)) : Prop :=
  (∀ l, x.call ≠ .lock l ∧ x.call ≠ .unlock l) ∧
    ∀ q id n, x.call = .db q → q.saves = some (id, n) → A id

/-- Fewer operations left open, more kept. -/
theorem Keeps.mono (hx : Keeps A x) (hAB : ∀ id, A id → B id) : Keeps B x :=
  ⟨hx.1, fun q id n hq hs => hAB id (hx.2 q id n hq hs)⟩

/-- A call that is no lock and no statement keeps everything. -/
theorem keeps_other {c : Call S} {r : c.Reply} (hl : ∀ l, c ≠ .lock l ∧ c ≠ .unlock l)
    (hq : ∀ q, c ≠ .db q) : Keeps A ⟨c, r⟩ := ⟨hl, fun q _ _ he _ => absurd he (hq q)⟩

/-- A query touches the operation it saves. -/
theorem keeps_db {q : Query} {r : (Call.db q : Call S).Reply}
    (hq : ∀ id n, q.saves = some (id, n) → A id) : Keeps A (⟨.db q, r⟩ : Event (Api S)) := by
  refine ⟨fun l => by simp, fun q' id n he hs => hq id n ?_⟩
  injection he with he
  rw [he, hs]

/-- A query that saves nothing touches none. -/
theorem keeps_quiet {q : Query} {r : (Call.db q : Call S).Reply} (hq : q.saves = none) :
    Keeps A (⟨.db q, r⟩ : Event (Api S)) := keeps_db fun id n hs => by simp [hq] at hs

/-- The event takes the lock. -/
def Takes (e : Event (Api S)) : Prop := e.call = .lock .liquidity

/-- The program has the lock. -/
def Holds (h : History (Api S)) : Prop :=
  ∃ e, Takes e ∧ Since (fun x : Event (Api S) => x.call ≠ Call.unlock .liquidity) e h

/-- The lock is held after calls that keep it. -/
theorem Holds.after (hh : Holds h) (he : Extends (Keeps A) h h') : Holds h' := by
  obtain ⟨e, ht, hs⟩ := hh
  exact ⟨e, ht, hs.after (he.mono fun x hx => (hx.1 .liquidity).2)⟩

/-- The row was read, and the program has not touched it since. -/
def Fresh (operation : SparkSplitOperation) (h : History (Api S)) : Prop :=
  ∃ e, Shows e operation ∧ Since (Keeps (· ≠ operation.operationId)) e h

/-- A fresh operation stays fresh while nobody saves it. -/
theorem Fresh.after {operation : SparkSplitOperation} (hf : Fresh operation h)
    (he : Extends (Keeps (· ≠ operation.operationId)) h h') : Fresh operation h' := by
  obtain ⟨e, hs, hsince⟩ := hf
  exact ⟨e, hs, hsince.after he⟩

/-! ### The contract -/

/-- What a task may ask for after what it has done. -/
def Justified (S : Sdk) (h : History (Api S)) : Call S → Prop
  | .db (.getOrInsertSparkSplit candidate) => candidate.status = .draft
  | .db q => ∀ id n, q.saves = some (id, n) → Holds h
  | .submitSplit operationId plan => Holds h ∧
      DbOk (.markSparkSplitSubmitting operationId) () ∈ h ∧
      (Genuine h → ∃ operation, Fresh operation h ∧ operation.operationId = operationId ∧
        (operation.status = .prepared ∨ operation.status = .submitting) ∧
        S.decodePlan operation.plan = .ok plan)
  | .exhausted => ¬ Genuine h
  | _ => True

/-- Rules for the calls. -/
theorem db_meets {q : Query} (hj : Justified S h (.db q))
    (hq : ∀ id n, q.saves = some (id, n) → A id) :
    Act.Spec (Justified S) (Keeps A) (db q) (fun out h' => h' = DbOk q out :: h) h := by
  refine (Act.Spec.ask_eq (I := Api S) (c := .db q) hj fun r => keeps_db hq).mono
    (fun _ => id) ?_
  rintro out h' - ⟨r, hr, rfl⟩
  obtain rfl : r = .ok out := hr
  rfl

/-- The wallet's calls touch no operation. -/
theorem sync_meets : Act.Spec (Justified S) (Keeps A) sync
    (fun _ h' => Extends (Keeps fun _ => False) h h') h :=
  .ask (I := Api S) trivial (fun _ => keeps_other (by simp) (by simp))
    fun _ _ _ => .one (keeps_other (by simp) (by simp))

/-- Reading the leaves saves nothing. -/
theorem listLeaves_meets : Act.Spec (Justified S) (Keeps A) listLeaves
    (fun _ h' => Extends (Keeps fun _ => False) h h') h :=
  .ask (I := Api S) trivial (fun _ => keeps_other (by simp) (by simp))
    fun _ _ _ => .one (keeps_other (by simp) (by simp))

/-! ### The resume loop -/

/-- Submitting the plan of a row that was read and not touched since. -/
theorem submit_meets {operation : SparkSplitOperation} (hheld : Holds h)
    (hfresh : Genuine h → Fresh operation h)
    (hst : operation.status = .prepared ∨ operation.status = .submitting) :
    Act.Spec (Justified S) (Keeps (· = operation.operationId)) (do
      let plan ← Act.ofExcept (S.decodePlan operation.plan)
      db (.markSparkSplitSubmitting operation.operationId)
      let submitted ← submitSplit operation.operationId plan
      let encoded ← Act.ofExcept (S.encodeSubmitted submitted)
      db (.saveSubmittedSparkSplit operation.operationId encoded)
      return false)
      (fun done h' => done = false → ∃ q out,
        DbOk q out ∈ h' ∧ q.saves = some (operation.operationId, operation.status.stage + 1)) h := by
  refine .bind Act.Spec.ofExcept_eq ?_
  rintro plan _ - ⟨hplan, rfl⟩
  refine .bind (db_meets (fun _ _ _ => hheld) (by simp [Query.saves])) ?_
  rintro _ h₁ he₁ rfl
  refine .bind (Act.Spec.ask (I := Api S) (R := fun _ _ => True) ?_
    (fun _ => keeps_other (by simp) (by simp)) fun _ _ _ => trivial) fun submitted h₂ he₂ _ => ?_
  · refine ⟨hheld.after he₁, List.mem_cons_self, fun hg => ?_⟩
    refine ⟨operation, ?_, rfl, hst, hplan⟩
    exact (hfresh (hg.before he₁)).after (.one (keeps_quiet rfl))
  refine .bind Act.Spec.ofExcept_eq ?_
  rintro encoded _ - ⟨-, rfl⟩
  refine .bind (db_meets (fun _ _ _ => (hheld.after he₁).after he₂)
    (by simp [Query.saves])) ?_
  rintro u _ - rfl
  refine .pure fun _ => ⟨.saveSubmittedSparkSplit operation.operationId encoded, u,
    List.mem_cons_self, ?_⟩
  rcases hst with hst | hst <;> rw [hst] <;> rfl

/-- A round that goes on has saved the next stage. -/
theorem resumeRound_meets {operation : SparkSplitOperation} {parent : Option TreeNode}
    (hheld : Holds h) (hfresh : Genuine h → Fresh operation h) :
    Act.Spec (Justified S) (Keeps (· = operation.operationId)) (resumeRound S operation parent)
      (fun done h' => done = false → ∃ q out,
        DbOk q out ∈ h' ∧ q.saves = some (operation.operationId, operation.status.stage + 1)) h := by
  unfold resumeRound
  split
  · next hst =>
      refine .bind Act.Spec.ofExcept_eq ?_
      rintro parent _ - ⟨-, rfl⟩
      refine .bind Act.Spec.ofExcept_eq ?_
      rintro draft _ - ⟨-, rfl⟩
      refine .bind (Act.Spec.ask (I := Api S) (R := fun _ _ => True) trivial
        (fun _ => keeps_other (by simp) (by simp)) fun _ _ _ => trivial) fun plan h₁ he₁ _ => ?_
      refine .bind Act.Spec.ofExcept_eq ?_
      rintro encoded _ - ⟨-, rfl⟩
      refine .bind (db_meets (fun _ _ _ => hheld.after he₁) (by simp [Query.saves])) ?_
      rintro u _ - rfl
      exact .pure fun _ => ⟨.savePreparedSparkSplit operation.operationId encoded, u,
        List.mem_cons_self, by rw [hst]; rfl⟩
  · next hst => exact submit_meets hheld hfresh (.inl hst)
  · next hst => exact submit_meets hheld hfresh (.inr hst)
  · next hst =>
      refine .bind Act.Spec.ofExcept_eq ?_
      rintro submitted _ - ⟨-, rfl⟩
      refine .bind (Act.Spec.ask (I := Api S) (R := fun _ _ => True) trivial
        (fun _ => keeps_other (by simp) (by simp)) fun _ _ _ => trivial) fun children h₁ he₁ _ => ?_
      refine .guard fun _ => ?_
      refine .bind (db_meets (fun _ _ _ => hheld.after he₁) (by simp [Query.saves])) ?_
      rintro u _ - rfl
      exact .pure fun _ => ⟨.markSparkSplitCompleted operation.operationId, u,
        List.mem_cons_self, by rw [hst]; rfl⟩
  · exact .pure (by simp)

/-- What a resumed operation needs: its row is fresh, and the loop has rounds enough. -/
structure Resumable (rounds : Nat) (operation : SparkSplitOperation) (h : History (Api S)) :
    Prop where
  held : Holds h
  fresh : Genuine h → Fresh operation h
  enough : Genuine h → 4 ≤ rounds + operation.status.stage

/-- The loop saves its own operation alone, each time from what it has just read. -/
theorem resumeLoop_meets (parent : Option TreeNode) (rounds : Nat) :
    ∀ (operation : SparkSplitOperation) (h : History (Api S)), Resumable rounds operation h →
    Act.Spec (Justified S) (Keeps fun _ => True) (resumeLoop S parent rounds operation)
      (fun _ h' => Genuine h' → Extends (Keeps (· = operation.operationId)) h h') h := by
  induction rounds with
  | zero =>
      intro operation h hr
      refine .tell (I := Api S) ?_ (fun _ => keeps_other (by simp) (by simp)) fun _ _ =>
        .one (keeps_other (by simp) (by simp))
      -- a row has not four stages before it
      intro hg
      have h4 := hr.enough hg
      rcases hs : operation.status <;> rw [hs] at h4 <;> simp [SplitStatus.stage] at h4
  | succ rounds ih =>
      intro operation h hr
      unfold resumeLoop
      refine .bind ((resumeRound_meets hr.held hr.fresh).mono
        (S := fun done h' => Extends (Keeps (· = operation.operationId)) h h' ∧
          (done = false → ∃ q out, DbOk q out ∈ h' ∧
            q.saves = some (operation.operationId, operation.status.stage + 1)))
        (fun x hx => hx.mono fun _ _ => trivial) fun done h' he hd => ⟨he, hd⟩) ?_
      rintro done h₁ - ⟨he₁, hsaved⟩
      cases done with
      | true => exact .pure fun _ => he₁
      | false =>
          obtain ⟨q, out, hq, hsaves⟩ := hsaved rfl
          refine .bind (db_meets (by simp [Justified, Query.saves]) (by simp [Query.saves])) ?_
          rintro again _ - rfl
          refine .bind Act.Spec.ofExcept_eq ?_
          rintro operation' _ - ⟨hagain, rfl⟩
          obtain rfl := okOr_eq_ok.mp hagain
          have he₂ : Extends (Keeps (· = operation.operationId)) h
              (DbOk (.sparkSplitForParent operation.parentNodeId) (some operation') :: h₁) :=
            he₁.cons (keeps_quiet rfl)
          -- the row that is read again is the same one
          have hid : Genuine (DbOk (.sparkSplitForParent operation.parentNodeId)
              (some operation') :: h₁) → operation'.operationId = operation.operationId := by
            intro hg
            obtain ⟨e, hshow, hsince⟩ := hr.fresh (hg.before he₂)
            exact hg.ids _ e _ _ List.mem_cons_self (he₂.mem hsince.mem) (.forParent _ rfl) hshow
              (hg.parent _ _ List.mem_cons_self)
          refine (ih operation' _ ⟨hr.held.after he₂, fun _ => ⟨_, .forParent _ rfl, .here⟩,
            fun hg => ?_⟩).mono (fun _ => id) ?_
          · have hstage := hg.forward [] h₁ _ _ rfl q out _ hq (by rw [hsaves, hid hg])
            have := hr.enough (hg.before he₂)
            omega
          · intro _ h' he hR hg
            rw [← hid (hg.before he)] at he₂ ⊢
            exact he₂.trans (hR hg)

/-- Resuming touches its own operation alone, unless it fails. -/
theorem resumeLeafSplit_meets {rounds : Nat} {operation : SparkSplitOperation}
    {parent : Option TreeNode} (hr : Resumable rounds operation h) :
    Act.Spec (Justified S) (Keeps fun _ => True) (resumeLeafSplit S rounds operation parent)
      (fun _ h' => Genuine h' → Extends (Keeps (· = operation.operationId)) h h') h := by
  unfold resumeLeafSplit
  refine .guard fun _ => ?_
  refine .bind (resumeLoop_meets parent rounds operation h hr).attempt fun r h₁ _ hR => ?_
  rcases r with error | u
  · refine .bind (Act.Spec.attempt (db_meets (by simp [Justified, Query.saves])
      (by simp [Query.saves]))) fun _ _ _ _ => ?_
    exact .throw
  · exact .pure (hR u rfl)

/-! ### The callers -/

section callers

variable {rounds : Nat} (hrounds : 4 ≤ rounds)
include hrounds

/-- A resumed split is the one that was listed. -/
theorem recoverSplit_meets {available : List TreeNode} {operation : SparkSplitOperation}
    (hheld : Holds h) (hfresh : Genuine h → Fresh operation h) :
    Act.Spec (Justified S) (Keeps fun _ => True) (recoverSplit S rounds available operation)
      (fun _ h' => Genuine h' → Extends (Keeps (· = operation.operationId)) h h') h := by
  refine .ite (fun _ => .pure fun _ => .refl h) fun _ => ?_
  exact resumeLeafSplit_meets ⟨hheld, hfresh, fun _ => by omega⟩

/-- The operations were read together and have different ids, so that one is not touched
while another one is resumed. -/
theorem recoverAll_meets {available : List TreeNode} (rest : List SparkSplitOperation) :
    ∀ h : History (Api S), Holds h → (∀ operation ∈ rest, Shows e operation) →
    (Genuine h → ∀ operation ∈ rest, Since (Keeps (· ≠ operation.operationId)) e h) →
    (Genuine h → (rest.map (·.operationId)).Nodup) →
    Act.Spec (Justified S) (Keeps fun _ => True)
      (Act.forEach (recoverSplit S rounds available) rest) (fun _ _ => True) h := by
  induction rest with
  | nil => exact fun h _ _ _ _ => .pure trivial
  | cons operation rest ih =>
      intro h hheld hshow hsince hids
      refine .bind (recoverSplit_meets hrounds hheld fun hg =>
        ⟨e, hshow _ List.mem_cons_self, hsince hg _ List.mem_cons_self⟩) fun _ h₁ he₁ hone => ?_
      refine ih h₁ (hheld.after he₁) (fun o ho => hshow o (List.mem_cons_of_mem _ ho))
        (fun hg o ho => ?_) fun hg => ?_
      · have hg₀ := hg.before he₁
        refine (hsince hg₀ o (List.mem_cons_of_mem _ ho)).after ((hone hg).mono fun x hx =>
          hx.mono fun id hid => ?_)
        have hne := (List.nodup_cons.mp (hids hg₀)).1
        intro he
        exact hne (List.mem_map.mpr ⟨o, ho, he ▸ hid⟩)
      · exact (List.nodup_cons.mp (hids (hg.before he₁))).2

/-- The splits are resumed one after the other. -/
theorem recoverIncompleteSplits_meets (hheld : Holds h) :
    Act.Spec (Justified S) (Keeps fun _ => True) (recoverIncompleteSplits S rounds)
      (fun _ _ => True) h := by
  refine .ite (fun _ => .pure trivial) fun _ => ?_
  refine .bind (db_meets (by simp [Justified, Query.saves]) (by simp [Query.saves])) ?_
  rintro operations h₁ he₁ rfl
  refine .ite (fun _ => .pure trivial) fun _ => ?_
  refine .bind sync_meets fun _ h₂ _ hsync => ?_
  refine .bind listLeaves_meets fun leaves h₃ _ hlist => ?_
  refine .bind Act.Spec.ofExcept_eq ?_
  rintro available _ - ⟨-, rfl⟩
  have hquiet := hsync.trans hlist
  refine .bind (recoverAll_meets hrounds operations _ ((hheld.after he₁).after hquiet)
    (fun o ho => .incomplete _ rfl ho) (fun _ o _ => Since.here.after (hquiet.mono fun x hx =>
      hx.mono fun _ hf => hf.elim)) fun hg => ?_) fun _ _ _ _ => sync_meets.weaken fun _ => id
  exact hg.distinct _ (hquiet.mem List.mem_cons_self)

omit hrounds in
/-- The operation found or drafted is fresh. -/
theorem findOrDraft_meets {parent : TreeNode} {childValues : List Nat} :
    Act.Spec (Justified S) (Keeps A) (findOrDraft S parent childValues) Fresh h := by
  refine .bind (db_meets (by simp [Justified, Query.saves]) (by simp [Query.saves])) ?_
  rintro found h₁ - rfl
  rcases found with - | operation
  · refine .bind (Act.Spec.ask (I := Api S) (R := fun _ _ => True) trivial
      (fun _ => keeps_other (by simp) (by simp)) fun _ _ _ => trivial) fun draft h₂ _ _ => ?_
    refine .bind Act.Spec.ofExcept_eq ?_
    rintro plan _ - ⟨-, rfl⟩
    refine .mono (db_meets ?_ (by simp [Query.saves])) (fun _ => id) ?_
    · rfl
    · rintro operation _ - rfl
      exact ⟨_, .inserted _ rfl, .here⟩
  · exact .pure ⟨_, .forParent _ rfl, .here⟩

/-- A leaf's split saves its own operation. -/
theorem executeLeafSplit_meets {parent : TreeNode} {childValues : List Nat} (hheld : Holds h) :
    Act.Spec (Justified S) (Keeps fun _ => True) (executeLeafSplit S rounds parent childValues)
      (fun _ _ => True) h := by
  unfold executeLeafSplit
  refine .guard fun _ => ?_
  refine .bind findOrDraft_meets fun operation h₁ he₁ hfresh => ?_
  refine .guard fun _ => ?_
  exact (resumeLeafSplit_meets ⟨hheld.after he₁, fun _ => hfresh, fun _ => by omega⟩).weaken
    fun _ => id

/-- Round after round the lock is held. -/
theorem splitUntil_meets {serves : List TreeNode → Bool}
    {plan : List TreeNode → Except String (TreeNode × List Nat)} {exceeded : String} (tries : Nat) :
    ∀ h : History (Api S), Holds h → Act.Spec (Justified S) (Keeps fun _ => True)
      (splitUntil S rounds serves plan exceeded tries) (fun _ _ => True) h := by
  induction tries with
  | zero => exact fun h _ => .throw
  | succ tries ih =>
      intro h hheld
      unfold splitUntil
      refine .bind listLeaves_meets fun leaves h₁ he₁ _ => ?_
      refine .bind Act.Spec.ofExcept_eq ?_
      rintro available _ - ⟨-, rfl⟩
      refine .ite (fun _ => .pure trivial) fun _ => ?_
      refine .bind Act.Spec.ofExcept_eq ?_
      rintro split _ - ⟨-, rfl⟩
      refine .bind (executeLeafSplit_meets hrounds (hheld.after he₁)) fun _ h₂ he₂ _ => ?_
      refine .bind sync_meets fun _ h₃ he₃ _ => ?_
      exact ih h₃ (((hheld.after he₁).after he₂).after he₃)

/-- Every request keeps the contract while it holds the lock. -/
theorem act_meets (r : Request) (hheld : Holds h) :
    Act.Spec (Justified S) (Keeps fun _ => True) (r.act S rounds) (fun _ _ => True) h := by
  cases r with
  | ensureExactLiquidity amountSats =>
      refine .bind (recoverIncompleteSplits_meets hrounds hheld) fun _ h₁ he₁ _ => ?_
      exact splitUntil_meets hrounds 32 h₁ (hheld.after he₁)
  | ensureDenominatedLiquidity amounts =>
      refine .bind (recoverIncompleteSplits_meets hrounds hheld) fun _ h₁ he₁ _ => ?_
      exact splitUntil_meets hrounds 32 h₁ (hheld.after he₁)
  | recoverIncompleteSplits => exact recoverIncompleteSplits_meets hrounds hheld

/-- Every handler keeps it. -/
theorem handler_justified (r : Request) :
    (r.handler S rounds).wp (Justified S) (fun _ _ => True) [] := by
  rw [Request.handler, Prog.wp_discard]
  have hspec : Act.Spec (Justified S) (fun _ => True) (locked (r.act S rounds))
      (fun _ _ => True) [] := by
    refine .bracket (T := fun _ h' => Holds h') (.tell (I := Api S) trivial (fun _ => trivial)
      fun r => ⟨⟨.lock .liquidity, r⟩, rfl, .here⟩) (fun h' _ hheld => (act_meets hrounds r hheld).weaken
      fun _ _ => trivial) fun h' _ => ?_
    exact .tell (I := Api S) trivial (fun _ => trivial) fun _ _ _ => trivial
  exact Prog.wp_mono hspec.wp fun _ _ _ => trivial

end callers

end OpenSsp.LeafSplit
