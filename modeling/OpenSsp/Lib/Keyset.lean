/-
OpenSsp/Lib/Keyset.lean

Pages of rows in descending order of a key, where a page starts under the last key of the page
before.

`descending` sorts the rows and `below` drops those that are not under a cursor.  A reader who has
seen the first `m` rows holds the cursor `cursorAt m`.  Rows with greater keys than all others may
be inserted while somebody reads (`Grown`).

Main results: `descending_below`, the rows a reader has still to see, and `exists_under_chunk` and
`exists_over_chunk`, when there are rows on either side of a page.
-/
import Mathlib.Data.List.Sort

namespace Interleave

variable {α κ : Type} [LinearOrder κ] (key : α → κ)

/-- The rows from the greatest key to the least. -/
def descending (rows : List α) : List α := rows.mergeSort fun a b => decide (key b ≤ key a)

/-- The rows under a cursor; all of them when there is none. -/
def below (c : Option κ) (rows : List α) : List α :=
  rows.filter fun a => c.all fun k => decide (key a < k)

/-- The cursor of a reader who has seen the first `m` rows of `l`. -/
def cursorAt (l : List α) : Nat → Option κ
  | 0 => none
  | m + 1 => l[m]?.map key

/-- Every row is still there, and the others are over all of them. -/
structure Grown (rows rows' : List α) : Prop where
  kept : ∀ a ∈ rows, a ∈ rows'
  above : ∀ a ∈ rows', a ∉ rows → ∀ b ∈ rows, key b < key a

variable {key} {rows rows' l : List α}

/-! ### Sorted rows -/

theorem descending_perm (rows : List α) : (descending key rows).Perm rows :=
  List.mergeSort_perm rows _

@[simp] theorem mem_descending {a : α} : a ∈ descending key rows ↔ a ∈ rows :=
  List.mem_mergeSort

@[simp] theorem descending_length (rows : List α) :
    (descending key rows).length = rows.length :=
  List.length_mergeSort rows

theorem descending_pairwise (h : (rows.map key).Nodup) :
    (descending key rows).Pairwise fun a b => key b < key a := by
  have hle : (descending key rows).Pairwise fun a b => key b ≤ key a := by
    have hsort : (descending key rows).Pairwise fun a b => decide (key b ≤ key a) := by
      apply List.pairwise_mergeSort
      · intro a b c hab hbc
        rw [decide_eq_true_eq] at hab hbc ⊢
        exact hbc.trans hab
      · intro a b
        rw [Bool.or_eq_true, decide_eq_true_eq, decide_eq_true_eq]
        exact le_total (key b) (key a)
    exact hsort.imp of_decide_eq_true
  have hne : (descending key rows).Pairwise fun a b => key a ≠ key b := by
    have hnodup : ((descending key rows).map key).Nodup :=
      ((descending_perm rows).map key).nodup_iff.mpr h
    exact List.pairwise_map.mp hnodup
  exact (hle.and hne).imp fun hab => lt_of_le_of_ne hab.1 hab.2.symm

/-- Rows in descending order are known by what they are. -/
theorem eq_of_descending (key : α → κ) {l₁ l₂ : List α} (h₁ : l₁.Pairwise fun a b => key b < key a)
    (h₂ : l₂.Pairwise fun a b => key b < key a) (h : ∀ a, a ∈ l₁ ↔ a ∈ l₂) : l₁ = l₂ := by
  have hnodup : ∀ {l : List α}, (l.Pairwise fun a b => key b < key a) → l.Nodup := by
    intro l hl
    apply hl.imp
    rintro a b hab rfl
    exact lt_irrefl _ hab
  have hperm : l₁.Perm l₂ := (List.perm_ext_iff_of_nodup (hnodup h₁) (hnodup h₂)).mpr h
  apply hperm.eq_of_pairwise _ h₁ h₂
  intro a b _ _ hab hba
  exact absurd hab (lt_asymm hba)

/-! ### Rows under a cursor -/

theorem mem_below {c : Option κ} {a : α} :
    a ∈ below key c rows ↔ a ∈ rows ∧ ∀ k, c = some k → key a < k := by
  cases c with
  | none => simp [below]
  | some k => simp [below]

theorem below_nodup (c : Option κ) (h : (rows.map key).Nodup) :
    ((below key c rows).map key).Nodup :=
  h.sublist (List.filter_sublist.map key)

/-- What has been read of rows in descending order is over the cursor. -/
theorem mem_drop_iff (h : l.Pairwise fun a b => key b < key a) {m : Nat} (hm : m < l.length)
    {a : α} : a ∈ l.drop (m + 1) ↔ a ∈ l ∧ key a < key l[m] := by
  rw [List.pairwise_iff_getElem] at h
  constructor
  · intro ha
    obtain ⟨i, hi, rfl⟩ := List.mem_drop_iff_getElem.mp ha
    exact ⟨List.getElem_mem _, h m (m + 1 + i) hm (by omega) (by omega)⟩
  · rintro ⟨ha, hlt⟩
    obtain ⟨i, hi, rfl⟩ := List.mem_iff_getElem.mp ha
    apply List.mem_drop_iff_getElem.mpr
    -- a row at the cursor or before it is not under it
    have him : m < i := by
      by_contra hle
      rcases Nat.lt_or_eq_of_le (Nat.le_of_not_lt hle) with hlt' | rfl
      · exact lt_asymm hlt (h i m hi hm hlt')
      · exact lt_irrefl _ hlt
    refine ⟨i - (m + 1), by omega, ?_⟩
    congr 1
    omega

/-- A reader of the rows has still to see what is under the cursor, and of rows that were inserted
since sees none. -/
theorem descending_below (hrows : (rows.map key).Nodup) (hrows' : (rows'.map key).Nodup)
    (hgrown : Grown key rows rows') {m : Nat} (hpos : 0 < m) (hm : m ≤ rows.length) :
    descending key (below key (cursorAt key (descending key rows) m) rows') =
      (descending key rows).drop m := by
  have hsorted := descending_pairwise hrows
  obtain ⟨m, rfl⟩ : ∃ i, m = i + 1 := ⟨m - 1, by omega⟩
  have hlt : m < (descending key rows).length := by
    rw [descending_length]
    omega
  have hcursor : cursorAt key (descending key rows) (m + 1) =
      some (key (descending key rows)[m]) := by
    show (descending key rows)[m]?.map key = _
    rw [List.getElem?_eq_getElem hlt]
    rfl
  apply eq_of_descending key
  · exact descending_pairwise (below_nodup _ hrows')
  · exact hsorted.sublist (List.drop_sublist _ _)
  · intro a
    rw [mem_descending, mem_below, hcursor, mem_drop_iff hsorted hlt, mem_descending]
    constructor
    · rintro ⟨ha, hunder⟩
      have hunder := hunder _ rfl
      refine ⟨?_, hunder⟩
      by_contra hnew
      have hrow : (descending key rows)[m] ∈ rows := mem_descending.mp (List.getElem_mem _)
      exact lt_asymm hunder (hgrown.above a ha hnew _ hrow)
    · rintro ⟨ha, hunder⟩
      refine ⟨hgrown.kept a ha, ?_⟩
      rintro _ ⟨⟩
      exact hunder

@[simp] theorem below_none (rows : List α) : below key none rows = rows :=
  List.filter_true rows

/-! ### Pages -/

/-- Rows that were inserted are not under rows that were there. -/
theorem exists_under_grown (hgrown : Grown key rows rows') {page : List α}
    (hpage : ∀ b ∈ page, b ∈ rows) (hne : page ≠ []) :
    (∃ a ∈ rows', ∀ b ∈ page, key a < key b) ↔ ∃ a ∈ rows, ∀ b ∈ page, key a < key b := by
  constructor
  · rintro ⟨a, ha, hunder⟩
    refine ⟨a, ?_, hunder⟩
    by_contra hnew
    obtain ⟨b, hb⟩ := List.exists_mem_of_ne_nil page hne
    exact lt_asymm (hunder b hb) (hgrown.above a ha hnew b (hpage b hb))
  · rintro ⟨a, ha, hunder⟩
    exact ⟨a, hgrown.kept a ha, hunder⟩

section Chunk

variable (hl : l.Pairwise fun a b => key b < key a) {m n : Nat}

include hl

/-- There are rows under a page when it does not end the rows. -/
theorem exists_under_chunk (hm : m < l.length ∨ l = []) (hn : 0 < n) :
    (∃ a ∈ l, ∀ b ∈ (l.drop m).take n, key a < key b) ↔ n < (l.drop m).length := by
  rw [List.pairwise_iff_getElem] at hl
  rw [List.length_drop]
  constructor
  · rintro ⟨a, ha, hunder⟩
    obtain ⟨i, hi, rfl⟩ := List.mem_iff_getElem.mp ha
    have hm : m < l.length := by
      rcases hm with hm | rfl
      · exact hm
      · exact absurd hi (Nat.not_lt_zero i)
    by_contra hend
    have hall : (l.drop m).take n = l.drop m := by
      apply List.take_of_length_le
      rw [List.length_drop]
      omega
    rw [hall] at hunder
    -- the row would be on the page, or over it
    rcases Nat.lt_or_ge i m with him | hmi
    · have hfirst := hunder l[m] (List.mem_drop_iff_getElem.mpr ⟨0, by omega, by simp⟩)
      exact lt_asymm hfirst (hl i m hi hm him)
    · have hself := hunder l[i] (List.mem_drop_iff_getElem.mpr
        ⟨i - m, by omega, by congr 1; omega⟩)
      exact lt_irrefl _ hself
  · intro hlt
    refine ⟨l[m + n], List.getElem_mem _, ?_⟩
    intro b hb
    obtain ⟨i, hi, rfl⟩ := List.mem_take_iff_getElem.mp hb
    rw [List.getElem_drop]
    exact hl (m + i) (m + n) (by omega) (by omega) (by omega)

/-- There are rows over a page when it does not start the rows. -/
theorem exists_over_chunk (hm : m < l.length ∨ l = []) (hn : 0 < n) :
    (∃ a ∈ l, ∀ b ∈ (l.drop m).take n, key b < key a) ↔ 0 < m ∧ l ≠ [] := by
  rw [List.pairwise_iff_getElem] at hl
  constructor
  · rintro ⟨a, ha, hover⟩
    obtain ⟨i, hi, rfl⟩ := List.mem_iff_getElem.mp ha
    refine ⟨?_, List.ne_nil_of_mem ha⟩
    by_contra hzero
    obtain rfl : m = 0 := by omega
    have hfirst := hover l[0] (List.mem_take_iff_getElem.mpr ⟨0, by simp; omega, by simp⟩)
    rcases Nat.eq_zero_or_pos i with rfl | hpos
    · exact lt_irrefl _ hfirst
    · exact lt_asymm hfirst (hl 0 i (by omega) hi hpos)
  · rintro ⟨hpos, hne⟩
    have hm : m < l.length := hm.resolve_right hne
    refine ⟨l[0], List.getElem_mem _, ?_⟩
    intro b hb
    obtain ⟨i, hi, rfl⟩ := List.mem_take_iff_getElem.mp hb
    have him : m + i < l.length := by
      simp only [List.length_drop] at hi
      omega
    rw [List.getElem_drop]
    exact hl 0 (m + i) (by omega) him (by omega)

end Chunk

omit [LinearOrder κ] in
/-- The last row of a page is the cursor of its reader. -/
theorem cursorAt_chunk {m n : Nat} (h : n < (l.drop m).length) (hn : 0 < n) :
    cursorAt key l (m + n) = ((l.drop m).take n).getLast?.map key := by
  rw [List.length_drop] at h
  obtain ⟨n, rfl⟩ : ∃ i, n = i + 1 := ⟨n - 1, by omega⟩
  show l[m + n]?.map key = _
  rw [List.getLast?_eq_getElem?, List.length_take, List.length_drop,
    Nat.min_eq_left (by omega), List.getElem?_take_of_lt (by omega), List.getElem?_drop]
  rfl

end Interleave
