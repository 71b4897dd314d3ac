/-
OpenSsp/Lib/Trigger.lean

Row triggers that note which records a statement changes.

The rows of a table are the details of records: `owner r` is the record of the row `r`, if there is
one.  A trigger notes the owners of the rows whose watched columns an update changes (`changed`),
and of the rows that are inserted.  What a table says of a record is `column`, the watched columns
of its rows.

Main results: `column_update_iff` and `column_insert_iff`: a statement changes what the table says
of a record exactly when the trigger notes it.  `find?_column` and `column_key` are what a query
reads back from a column.
-/
import Mathlib.Data.List.Find
import OpenSsp.Lib.Table

namespace Interleave

variable {ι ρ γ δ : Type} [DecidableEq ι] [DecidableEq γ]

/-- What the rows say of a record. -/
def column (owner : ρ → Option ι) (keep : ρ → δ) (rows : List ρ) (i : ι) : List δ :=
  (rows.filter fun r => owner r == some i).map keep

/-- The records of the rows that `UPDATE … WHERE p` changes in a watched column. -/
def changed (owner : ρ → Option ι) (watch : ρ → γ) (p : ρ → Bool) (f : ρ → ρ) (rows : List ρ) :
    List ι :=
  (rows.filter fun r => p r && watch (f r) != watch r).filterMap owner

variable {owner : ρ → Option ι} {keep : ρ → δ} {watch : ρ → γ} {p : ρ → Bool} {f : ρ → ρ}
  {rows : List ρ} {r : ρ} {i : ι}

omit [DecidableEq ι] in
theorem mem_changed :
    i ∈ changed owner watch p f rows ↔
      ∃ r ∈ rows, owner r = some i ∧ p r = true ∧ watch (f r) ≠ watch r := by
  simp only [changed, List.mem_filterMap, List.mem_filter, Bool.and_eq_true, bne_iff_ne]
  constructor
  · rintro ⟨r, ⟨hr, hp, hw⟩, ho⟩
    exact ⟨r, hr, ho, hp, hw⟩
  · rintro ⟨r, hr, ho, hp, hw⟩
    exact ⟨r, ⟨hr, hp, hw⟩, ho⟩

/-- The rows of a record are the same after an update that keeps owners. -/
theorem column_update (hf : ∀ r, owner (f r) = owner r) :
    column owner keep (rows.map fun r => if p r then f r else r) i =
      (rows.filter fun r => owner r == some i).map fun r => keep (if p r then f r else r) := by
  have howner : ∀ r, owner (if p r then f r else r) = owner r := by
    intro r
    split
    · exact hf r
    · rfl
  rw [column, List.filter_map, List.map_map]
  congr 2
  funext r
  show (owner (if p r then f r else r) == some i) = _
  rw [howner]

theorem column_update_iff (hf : ∀ r, owner (f r) = owner r)
    (hkeep : ∀ r, p r = true → (keep (f r) = keep r ↔ watch (f r) = watch r)) :
    column owner keep (rows.map fun r => if p r then f r else r) i = column owner keep rows i ↔
      i ∉ changed owner watch p f rows := by
  rw [column_update hf, column, List.map_inj_left, mem_changed]
  constructor
  · rintro hall ⟨r, hr, ho, hp, hw⟩
    have hsame := hall r (List.mem_filter.mpr ⟨hr, by rw [ho, beq_self_eq_true]⟩)
    rw [if_pos hp] at hsame
    exact hw ((hkeep r hp).mp hsame)
  · intro hnot r hr
    obtain ⟨hr, ho⟩ := List.mem_filter.mp hr
    split
    · next hp =>
        apply (hkeep r hp).mpr
        by_contra hw
        exact hnot ⟨r, hr, beq_iff_eq.mp ho, hp, hw⟩
    · rfl

omit [DecidableEq γ] in
/-- A record whose rows are not deleted has them still. -/
theorem column_delete (h : ∀ r ∈ rows, owner r = some i → p r = false) :
    column owner keep (rows.filter fun r => !p r) i = column owner keep rows i := by
  rw [column, column, List.filter_filter]
  congr 1
  apply List.filter_congr
  intro r hr
  by_cases ho : owner r = some i
  · rw [h r hr ho, ho, beq_self_eq_true]
    rfl
  · rw [beq_eq_false_iff_ne.mpr ho, Bool.false_and]

theorem column_insert_iff :
    column owner keep (r :: rows) i = column owner keep rows i ↔ owner r ≠ some i := by
  rw [column, column]
  constructor
  · intro h ho
    have hlength := congrArg List.length h
    rw [List.filter_cons_of_pos (by rw [ho, beq_self_eq_true])] at hlength
    simp at hlength
  · intro ho
    rw [List.filter_cons_of_neg]
    rw [beq_iff_eq]
    exact ho

/-! ### Queries -/

omit [DecidableEq γ] in
/-- A query for a row of the record. -/
theorem find?_column {q : δ → Bool} :
    (column owner keep rows i).find? q =
      (rows.find? fun r => owner r == some i && q (keep r)).map keep := by
  rw [column, List.find?_map, List.find?_filter]
  congr 2
  funext r
  rw [Bool.decide_and, Bool.decide_eq_true, Bool.decide_eq_true]
  rfl

omit [DecidableEq γ] in
theorem filter_column {q : δ → Bool} :
    (column owner keep rows i).filter q =
      (rows.filter fun r => owner r == some i && q (keep r)).map keep := by
  rw [column, List.filter_map, List.filter_filter]
  congr 2
  funext r
  exact Bool.and_comm _ _

omit [DecidableEq γ] in
/-- A record that is the key of its row has one. -/
theorem column_key {key : ρ → ι} {t : Table key} :
    column (fun r => some (key r)) keep t.rows i = (t.get i).toList.map keep := by
  rw [column]
  congr 1
  -- after the row of the record, no other has its key
  have hrows : ∀ l : List ρ, (l.map key).Nodup → (l.filter fun r => some (key r) == some i) =
      (l.find? fun r => decide (key r = i)).toList := by
    intro l hnodup
    induction l with
    | nil => rfl
    | cons r l ih =>
        rw [List.map_cons, List.nodup_cons] at hnodup
        by_cases hkey : key r = i
        · rw [List.filter_cons_of_pos (by simp [hkey]), List.find?_cons_of_pos (by simp [hkey]),
            Option.toList_some, List.filter_eq_nil_iff.mpr]
          intro r' hr' howner
          apply hnodup.1
          rw [hkey, ← Option.some.inj (beq_iff_eq.mp howner)]
          exact List.mem_map_of_mem hr'
        · rw [List.filter_cons_of_neg (by simp [hkey]), List.find?_cons_of_neg (by simp [hkey]),
            ih hnodup.2]
  exact hrows t.rows t.nodup

end Interleave
