/-
OpenSsp/Lib/Sweep.lean

Workers that sweep over the unresolved records of a store: a pass queries a batch and
processes its records in turn.

* `attend` processes one record and reports its error; a pass is `List.forM` of it, in any
  monad, so that a program and its sweep in a state monad are one definition.
* `noting` records which records a pass gets to (`forM_noted`, `forM_first`).
* `Covers` says that repeated passes over an unchanged set of unresolved records get to all
  of them.

Main result: `covers_iff`, a worker that takes the first records of an order covers a store
exactly when no more than that are unresolved.
-/
import Mathlib.Data.List.Perm.Basic
import Mathlib.Data.List.Nodup
import Mathlib.Logic.Function.Iterate

namespace Interleave

variable {σ ρ κ α ε : Type}

/-! ### Sweeps -/

section

variable {m : Type → Type} [Monad m]

/-- Process a record and `report` its error; an error of the report ends the pass. -/
def attend (process : ρ → m (Except ε Unit)) (report : ρ → ε → m (Except ε Unit)) (r : ρ) :
    ExceptT ε m Unit := ExceptT.mk do
  match ← process r with
  | .ok () => return .ok ()
  | .error e => report r e

end

/-! ### Noting the records a pass gets to -/

/-- Note the record, then do as the body does. -/
def noting (body : ρ → StateM σ α) (r : ρ) : StateM (σ × List ρ) α := fun (s, seen) =>
  let (a, s') := body r s
  (a, (s', seen ++ [r]))

theorem noting_apply {body : ρ → StateM σ α} {r : ρ} {s s' : σ} {a : α} {seen : List ρ}
    (h : body r s = (a, s')) : noting body r (s, seen) = (a, (s', seen ++ [r])) := by
  show ((body r s).1, ((body r s).2, seen ++ [r])) = _
  rw [h]

/-- An action on the store that processes no record. -/
def quietly (x : StateM σ α) : StateM (σ × List ρ) α := fun (s, seen) =>
  let (a, s') := x s
  (a, (s', seen))

/-- The names of the records that were noted, and the store after the loop. -/
def swept (name : ρ → κ) (loop : StateM (σ × List ρ) α) (s : σ) : List κ × σ :=
  ((loop (s, [])).2.2.map name, (loop (s, [])).2.1)

/-- The body notes the record it is for, and goes on with the pass. -/
def GoesOn (body : ρ → ExceptT ε (StateM (σ × List ρ)) Unit) : Prop :=
  ∀ r s seen, ∃ s', (body r).run (s, seen) = (.ok (), (s', seen ++ [r]))

/-- The body notes the record it is for, whether the pass goes on or not. -/
def Notes (body : ρ → ExceptT ε (StateM (σ × List ρ)) Unit) : Prop :=
  ∀ r s seen, ∃ x s', (body r).run (s, seen) = (x, (s', seen ++ [r]))

/-- How a fallible action over a store goes on. -/
theorem bind_run {β : Type} (x : ExceptT ε (StateM σ) α) (f : α → ExceptT ε (StateM σ) β) (s : σ) :
    (x >>= f).run s =
      match x.run s with
      | (.ok a, s') => (f a).run s'
      | (.error e, s') => (.error e, s') := by
  show (match x.run s with | (a, s') => (ExceptT.bindCont f a) s') = _
  rcases x.run s with ⟨e | a, s'⟩
  · rfl
  · rfl

theorem attend_run {process : ρ → StateM σ (Except ε Unit)}
    {report : ρ → ε → StateM σ (Except ε Unit)} (r : ρ) (s : σ) :
    (attend process report r).run s =
      match process r s with
      | (.ok (), s') => (.ok (), s')
      | (.error e, s') => report r e s' := by
  show (process r >>= _) s = _
  simp only [bind, StateT.bind]
  rcases process r s with ⟨e | u, s'⟩
  · rfl
  · rfl

theorem goesOn_attend {process : ρ → StateM σ (Except ε Unit)}
    {report : ρ → ε → StateM (σ × List ρ) (Except ε Unit)}
    (hreport : ∀ r e s seen, ∃ s', report r e (s, seen) = (.ok (), (s', seen))) :
    GoesOn (attend (noting process) report) := by
  intro r s seen
  rw [attend_run]
  rcases h : process r s with ⟨e | u, s'⟩
  · rw [noting_apply h]
    exact hreport r e s' (seen ++ [r])
  · rw [noting_apply h]
    exact ⟨s', rfl⟩

theorem forM_cons_run {body : ρ → ExceptT ε (StateM σ) Unit} (r : ρ) (rs : List ρ) (s : σ) :
    ((r :: rs).forM body).run s =
      match (body r).run s with
      | (.ok (), s') => (rs.forM body).run s'
      | (.error e, s') => (.error e, s') := by
  show (body r >>= fun _ => rs.forM body).run s = _
  rw [bind_run]
  rcases (body r).run s with ⟨e | u, s'⟩
  · rfl
  · rfl

/-- What the body keeps, the pass keeps. -/
theorem forM_keeps {J : σ → Prop} {body : ρ → ExceptT ε (StateM σ) Unit}
    (hbody : ∀ r s, J s → J ((body r).run s).2) (rs : List ρ) (s : σ) (hJ : J s) :
    J ((rs.forM body).run s).2 := by
  induction rs generalizing s with
  | nil => exact hJ
  | cons r rs ih =>
      have hr := hbody r s hJ
      rw [forM_cons_run]
      rcases h : (body r).run s with ⟨e | u, s'⟩
      · rw [h] at hr
        exact hr
      · rw [h] at hr
        exact ih s' hr

/-- A pass that goes on gets to every record. -/
theorem forM_noted {body : ρ → ExceptT ε (StateM (σ × List ρ)) Unit} (hbody : GoesOn body)
    (rs : List ρ) (s : σ) (seen : List ρ) :
    ∃ s', (rs.forM body).run (s, seen) = (.ok (), (s', seen ++ rs)) := by
  induction rs generalizing s seen with
  | nil => exact ⟨s, by rw [List.append_nil]; rfl⟩
  | cons r rs ih =>
      obtain ⟨s₁, h₁⟩ := hbody r s seen
      obtain ⟨s₂, h₂⟩ := ih s₁ (seen ++ [r])
      refine ⟨s₂, ?_⟩
      rw [forM_cons_run, h₁]
      show (rs.forM body).run (s₁, seen ++ [r]) = _
      rw [h₂, List.append_assoc, List.singleton_append]

theorem swept_forM {body : ρ → ExceptT ε (StateM (σ × List ρ)) Unit} (hbody : GoesOn body)
    (name : ρ → κ) (rs : List ρ) (s : σ) : (swept name (rs.forM body).run s).1 = rs.map name := by
  obtain ⟨s', h⟩ := forM_noted hbody rs s []
  show (((rs.forM body).run (s, [])).2.2).map name = _
  rw [h, List.nil_append]

/-- A pass gets to its first record, and to no more when that record ends the pass. -/
theorem forM_first {body : ρ → ExceptT ε (StateM (σ × List ρ)) Unit} (hbody : Notes body)
    (r : ρ) (rs : List ρ) (s : σ) (seen : List ρ) :
    ∃ x s' more, (((r :: rs).forM body).run (s, seen)) = (x, (s', seen ++ r :: more)) := by
  induction rs generalizing r s seen with
  | nil =>
      obtain ⟨x, s', h⟩ := hbody r s seen
      refine ⟨x, s', [], ?_⟩
      rw [forM_cons_run, h]
      rcases x with e | u
      · rfl
      · rfl
  | cons r' rs ih =>
      obtain ⟨x, s', h⟩ := hbody r s seen
      rw [forM_cons_run, h]
      rcases x with e | u
      · exact ⟨.error e, s', [], rfl⟩
      · obtain ⟨x, s'', more, hrest⟩ := ih r' s' (seen ++ [r])
        refine ⟨x, s'', r' :: more, ?_⟩
        rw [List.append_assoc, List.singleton_append] at hrest
        exact hrest

/-! ### Coverage -/

/-- Repeated passes from `s₀` get to every unresolved record, whatever their environments do,
as long as the records that are unresolved stay the same. -/
def Covers {Env : Type} (unresolved : σ → List κ) (pass : Env → σ → List κ × σ) (s₀ : σ) : Prop :=
  ∀ (env : ℕ → Env) (s : ℕ → σ), s 0 = s₀ → (∀ n, s (n + 1) = (pass (env n) (s n)).2) →
    (∀ n k, k ∈ unresolved (s n) ↔ k ∈ unresolved s₀) →
    ∀ k ∈ unresolved s₀, ∃ n, k ∈ (pass (env n) (s n)).1

/-- **Coverage.**  When every pass gets to the first `limit` records of an order, and some
environment makes it get to no others and leave them all as they are, repeated passes cover
exactly the stores with at most `limit` unresolved records. -/
theorem covers_iff {Env : Type} {unresolved : σ → List κ} {pass : Env → σ → List κ × σ}
    {order : σ → List κ} {limit : ℕ} (hnodup : ∀ s, (unresolved s).Nodup)
    (hperm : ∀ s, (order s).Perm (unresolved s))
    (hmost : ∀ env s, (order s).take limit ⊆ (pass env s).1)
    (stuck : Env) (hstuck : ∀ s, (pass stuck s).1 ⊆ (order s).take limit)
    (hkeeps : ∀ s, order (pass stuck s).2 = order s) (s₀ : σ) :
    Covers unresolved pass s₀ ↔ (unresolved s₀).length ≤ limit := by
  constructor
  · intro hcovers
    by_contra hmany
    rw [Nat.not_le, ← (hperm s₀).length_eq] at hmany
    -- every pass is stuck with the same records
    let s : ℕ → σ := fun n => (fun s => (pass stuck s).2)^[n] s₀
    have hsucc : ∀ n, s (n + 1) = (pass stuck (s n)).2 := fun n =>
      Function.iterate_succ_apply' _ _ _
    have horder : ∀ n, order (s n) = order s₀ := by
      intro n
      induction n with
      | zero => rfl
      | succ n ih => rw [hsucc, hkeeps, ih]
    have hsame : ∀ n k, k ∈ unresolved (s n) ↔ k ∈ unresolved s₀ := by
      intro n k
      rw [← (hperm (s n)).mem_iff, ← (hperm s₀).mem_iff, horder]
    have hleft : (order s₀)[limit] ∈ unresolved s₀ :=
      (hperm s₀).mem_iff.mp (List.getElem_mem hmany)
    obtain ⟨n, hn⟩ := hcovers (fun _ => stuck) s rfl hsucc hsame _ hleft
    have htaken := hstuck (s n) hn
    rw [horder] at htaken
    obtain ⟨i, hi, hget⟩ := List.mem_take_iff_getElem.mp htaken
    have hdup := (List.Nodup.getElem_inj_iff ((hperm s₀).nodup_iff.mpr (hnodup s₀))).mp hget
    omega
  · intro hfew env s hs _ _ k hk
    refine ⟨0, hmost _ _ ?_⟩
    rw [hs, List.take_of_length_le (Nat.le_trans (Nat.le_of_eq (hperm s₀).length_eq) hfew)]
    exact (hperm s₀).mem_iff.mpr hk

end Interleave
