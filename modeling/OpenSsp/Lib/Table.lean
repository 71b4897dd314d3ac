/-
OpenSsp/Lib/Table.lean

Tables with a primary key: a list of rows whose keys are pairwise different.  The
key constraint is a field, so a table that violates it cannot be built; inserting is
partial, and updating has to keep the key.

Main results: `Table.mem_iff_get` and what each operation does to `get`
(`get_insert`, `get_update`, `get_delete`, `get_upsert`).
-/
import Mathlib.Data.List.Nodup

namespace Interleave

/-- Rows with pairwise different keys. -/
structure Table {κ ρ : Type} (key : ρ → κ) where
  rows : List ρ
  nodup : (rows.map key).Nodup

namespace Table

variable {κ ρ : Type} {key : ρ → κ}

/-- The table without rows. -/
def empty : Table key := ⟨[], List.nodup_nil⟩

/-- A column that `f` keeps is the same after a conditional update by `f`. -/
theorem map_column {γ : Type} {g : ρ → γ} {f : ρ → ρ} (hg : ∀ r, g (f r) = g r) (p : ρ → Bool)
    (rows : List ρ) : (rows.map fun r => if p r then f r else r).map g = rows.map g := by
  have hcolumn : (g ∘ fun r => if p r then f r else r) = g := by
    funext r
    show g (if p r then f r else r) = g r
    by_cases hp : p r
    · rw [if_pos hp, hg]
    · rw [if_neg hp]
  rw [List.map_map, hcolumn]

/-- For an update that leaves the column of the key alone. -/
theorem same_key (key : ρ → κ) (r : ρ) : key r = key r := rfl

/-- `UPDATE … WHERE p`: `f` must keep the key. -/
def update (t : Table key) (p : ρ → Bool) (f : ρ → ρ)
    (hf : ∀ r, key (f r) = key r := by intro; rfl) : Table key :=
  ⟨t.rows.map fun r => if p r then f r else r, by
    rw [map_column hf]
    exact t.nodup⟩

/-- `DELETE … WHERE p` -/
def delete (t : Table key) (p : ρ → Bool) : Table key :=
  ⟨t.rows.filter fun r => !p r, t.nodup.sublist (List.filter_sublist.map key)⟩

/-- The rows that stay are those the condition is false of. -/
theorem mem_delete {t : Table key} {p : ρ → Bool} {r : ρ} :
    r ∈ (t.delete p).rows ↔ r ∈ t.rows ∧ p r = false := by
  simp [delete]

/-- How many rows an `UPDATE … WHERE p` touches. -/
def count (t : Table key) (p : ρ → Bool) : Nat := t.rows.countP p

/-- Rows with equal keys are equal. -/
theorem eq_of_key {t : Table key} {r s : ρ} (hr : r ∈ t.rows) (hs : s ∈ t.rows)
    (h : key r = key s) : r = s :=
  List.inj_on_of_nodup_map t.nodup hr hs h

/-- Every row is the update of one, as its key stays. -/
theorem mem_update {t : Table key} {p : ρ → Bool} {f : ρ → ρ} {hf : ∀ r, key (f r) = key r}
    {r : ρ} : r ∈ (t.update p f hf).rows ↔ ∃ x ∈ t.rows, (if p x then f x else x) = r :=
  List.mem_map

/-- An update touches a row when its count is positive. -/
theorem count_pos {t : Table key} {p : ρ → Bool} (h : 0 < t.count p) :
    ∃ r ∈ t.rows, p r = true :=
  List.countP_pos_iff.mp h

/-- The rows in another form, under the same keys. -/
def map {σ : Type} {key' : σ → κ} (t : Table key) (f : ρ → σ) (hf : ∀ r, key' (f r) = key r) :
    Table key' :=
  ⟨t.rows.map f, by
    rw [List.map_map, show key' ∘ f = key from funext hf]
    exact t.nodup⟩

/-- A projection that keeps the keys can be made before or after a delete. -/
theorem delete_map {σ : Type} {key' : σ → κ} (t : Table key) (f : ρ → σ)
    (hf : ∀ r, key' (f r) = key r) (p : σ → Bool) :
    (t.map f hf).delete p = (t.delete fun r => p (f r)).map f hf := by
  unfold delete map
  congr 1
  exact List.filter_map

variable [DecidableEq κ]

/-- The row with key `k`. -/
def get (t : Table key) (k : κ) : Option ρ := t.rows.find? fun r => decide (key r = k)

/-- `INSERT`: `none` when the key is taken. -/
def insert (t : Table key) (r : ρ) : Option (Table key) :=
  if h : key r ∈ t.rows.map key then none
  else some ⟨r :: t.rows, List.nodup_cons.mpr ⟨h, t.nodup⟩⟩

/-- `INSERT … ON CONFLICT DO UPDATE`. -/
def upsert (t : Table key) (r : ρ) (f : ρ → ρ)
    (hf : ∀ r, key (f r) = key r := by intro; rfl) : Table key :=
  (t.insert r).getD (t.update (fun x => decide (key x = key r)) f hf)

/-- An empty table has no row. -/
@[simp] theorem get_empty (k : κ) : (empty : Table key).get k = none := rfl

/-- A row is there exactly when its key finds it. -/
theorem mem_iff_get {t : Table key} {r : ρ} : r ∈ t.rows ↔ t.get (key r) = some r := by
  unfold get
  constructor
  · intro hr
    rcases h : t.rows.find? fun x => decide (key x = key r) with - | r'
    · have := List.find?_eq_none.mp h r hr
      simp at this
    · have hk : key r' = key r := by simpa using List.find?_some h
      rw [List.inj_on_of_nodup_map t.nodup (List.mem_of_find?_eq_some h) hr hk]
  · exact List.mem_of_find?_eq_some

/-- A key finds its own row. -/
theorem key_of_get {t : Table key} {k : κ} {r : ρ} (h : t.get k = some r) : key r = k := by
  simpa using List.find?_some h

theorem mem_of_get {t : Table key} {k : κ} {r : ρ} (h : t.get k = some r) : r ∈ t.rows :=
  List.mem_of_find?_eq_some h

/-- The same for a lookup. -/
theorem get_map {σ : Type} {key' : σ → κ} (t : Table key) (f : ρ → σ)
    (hf : ∀ r, key' (f r) = key r) (k : κ) : (t.map f hf).get k = (t.get k).map f := by
  have hkey : ((fun s => decide (key' s = k)) ∘ f) = fun r => decide (key r = k) := by
    funext r
    show decide (key' (f r) = k) = decide (key r = k)
    rw [hf]
  rw [get, map, List.find?_map, hkey, get]

/-- Nothing is found under a key that no row has. -/
theorem get_eq_none {t : Table key} {k : κ} : t.get k = none ↔ ∀ r ∈ t.rows, key r ≠ k := by
  simp [get]

/-- An insert that succeeds has a new key, and adds one row. -/
theorem insert_eq_some {t t' : Table key} {r : ρ} (h : t.insert r = some t') :
    t.get (key r) = none ∧ t'.rows = r :: t.rows := by
  unfold insert at h
  split at h
  · simp at h
  · next hk =>
      obtain rfl := Option.some.inj h
      refine ⟨get_eq_none.mpr fun x hx hxr => hk ?_, rfl⟩
      exact hxr ▸ List.mem_map_of_mem hx

/-- One that fails meets a row with the key. -/
theorem insert_eq_none {t : Table key} {r : ρ} (h : t.insert r = none) :
    ∃ r', t.get (key r) = some r' := by
  unfold insert at h
  split at h
  · next hk =>
      obtain ⟨x, hx, hxr⟩ := List.mem_map.mp hk
      exact ⟨x, hxr ▸ mem_iff_get.mp hx⟩
  · simp at h

/-- After an insert the new key finds the new row, and every other key what it found. -/
theorem get_insert {t t' : Table key} {r : ρ} (h : t.insert r = some t') (k : κ) :
    t'.get k = if key r = k then some r else t.get k := by
  rw [get, (insert_eq_some h).2, List.find?_cons]
  split
  · next hk => rw [if_pos (by simpa using hk)]
  · next hk => rw [if_neg (by simpa using hk)]; rfl

/-- An update is seen by every lookup. -/
theorem get_update (t : Table key) (p : ρ → Bool) (f : ρ → ρ) (hf : ∀ r, key (f r) = key r)
    (k : κ) : (t.update p f hf).get k = (t.get k).map fun r => if p r then f r else r := by
  have hkey : ((fun r => decide (key r = k)) ∘ fun r => if p r then f r else r) =
      fun r => decide (key r = k) := by
    funext r
    simp only [Function.comp_apply]
    split
    · rw [hf]
    · rfl
  rw [get, update, List.find?_map, hkey, get]

/-- An update changes only rows that satisfy its condition. -/
theorem get_update_of (t : Table key) (p : ρ → Bool) (f : ρ → ρ) (hf : ∀ r, key (f r) = key r)
    {k : κ} (hp : ∀ r, key r = k → p r = false) : (t.update p f hf).get k = t.get k := by
  rw [get_update]
  rcases hg : t.get k with - | r
  · rfl
  · simp [hp r (key_of_get hg)]

/-- Nothing is left under a key all of whose rows are deleted. -/
theorem get_delete (t : Table key) (p : ρ → Bool) {k : κ} (hp : ∀ r, key r = k → p r = true) :
    (t.delete p).get k = none := by
  rw [get_eq_none]
  intro r hr hk
  have hkept := (mem_delete.mp hr).2
  rw [hp r hk] at hkept
  cases hkept

/-- A row stays when no row with its key is deleted. -/
theorem get_delete_of (t : Table key) (p : ρ → Bool) {k : κ}
    (hp : ∀ r, key r = k → p r = false) : (t.delete p).get k = t.get k := by
  rcases hget : t.get k with - | r
  · rw [get_eq_none] at hget ⊢
    exact fun r hr => hget r (mem_delete.mp hr).1
  · have hk := key_of_get hget
    rw [← hk, ← mem_iff_get, mem_delete]
    exact ⟨mem_of_get hget, hp r hk⟩

/-- An upsert inserts under a new key and updates under a known one. -/
theorem get_upsert (t : Table key) (r : ρ) (f : ρ → ρ) (hf : ∀ r, key (f r) = key r) (k : κ) :
    (t.upsert r f hf).get k =
      if key r = k then some ((t.get k).elim r f) else t.get k := by
  unfold upsert
  rcases h : t.insert r with - | t'
  · obtain ⟨x, hx⟩ := insert_eq_none h
    rw [Option.getD_none, get_update]
    split
    · next hk =>
        subst hk
        simp [hx, key_of_get hx]
    · next hk =>
        rcases hg : t.get k with - | y
        · rfl
        · have hy : key y ≠ key r := fun e => hk (e ▸ key_of_get hg)
          simp [hy]
  · rw [Option.getD_some, get_insert h]
    split
    · next hk =>
        subst hk
        rw [(insert_eq_some h).1]
        rfl
    · rfl

/-- Other keys are not touched by an upsert. -/
theorem get_upsert_of (t : Table key) (r : ρ) (f : ρ → ρ) (hf : ∀ r, key (f r) = key r) {k : κ}
    (hk : key r ≠ k) : (t.upsert r f hf).get k = t.get k := by
  rw [get_upsert, if_neg hk]

end Table

end Interleave
