/-
OpenSsp/Lib/Matching.lean

How many of the things that are wanted can be had at once, each from a thing of its own.

`Matches l wanted n`: `n` members of `wanted` are found in `l`, counted with multiplicity.  The
largest such `n` is `matched l wanted`, and one more member of `l` adds to it exactly if there
were fewer of its kind than wanted.

Main results: `matches_iff` and `matched_cons`.
-/
import Mathlib.Data.List.Perm.Subperm
import Mathlib.Data.Multiset.UnionInter
import Mathlib.Data.List.Lattice

namespace Interleave

variable {α : Type} [DecidableEq α] {l l' wanted : List α} {a : α} {n : Nat}

/-- `n` of the wanted values, counted with repetition, can be taken from the list. -/
def Matches (l wanted : List α) (n : Nat) : Prop :=
  ∃ s : List α, s.Subperm l ∧ s.Subperm wanted ∧ s.length = n

/-- How many of the wanted values can be. -/
def matched (l wanted : List α) : Nat := (l.bagInter wanted).length

/-- The number is the size of the intersection as multisets. -/
theorem matched_eq_card : matched l wanted = ((l : Multiset α) ∩ (wanted : Multiset α)).card := by
  rw [Multiset.coe_inter, Multiset.coe_card]
  rfl

/-- So many can be taken as are matched, and no more. -/
theorem matches_iff : Matches l wanted n ↔ n ≤ matched l wanted := by
  constructor
  · rintro ⟨s, hl, hwanted, rfl⟩
    have hle : (s : Multiset α) ≤ (l : Multiset α) ∩ (wanted : Multiset α) :=
      Multiset.le_inter (Multiset.coe_le.mpr hl) (Multiset.coe_le.mpr hwanted)
    rw [matched_eq_card]
    exact Multiset.card_le_card hle
  · intro hn
    have hright : (l.bagInter wanted).Subperm wanted := by
      apply Multiset.coe_le.mp
      rw [← Multiset.coe_inter]
      exact Multiset.inter_le_right
    refine ⟨(l.bagInter wanted).take n, ?_, ?_, ?_⟩
    · exact ((List.take_sublist _ _).trans List.bagInter_sublist_left).subperm
    · exact (List.take_sublist _ _).subperm.trans hright
    · rw [List.length_take]
      exact Nat.min_eq_left hn

/-- The order of the list plays no part. -/
theorem matched_perm (h : l.Perm l') : matched l wanted = matched l' wanted := by
  rw [matched_eq_card, matched_eq_card, Multiset.coe_eq_coe.mpr h]

/-- One more thing is one more match if fewer of its kind are there than wanted. -/
theorem matched_cons : matched (a :: l) wanted =
    matched l wanted + if l.count a < wanted.count a then 1 else 0 := by
  rw [matched_eq_card, matched_eq_card]
  split
  · next hfew =>
      have hcons : ((a :: l : List α) : Multiset α) ∩ (wanted : Multiset α) =
          a ::ₘ ((l : Multiset α) ∩ (wanted : Multiset α)) := by
        ext b
        rw [Multiset.count_inter, Multiset.count_cons, Multiset.count_inter, Multiset.coe_count,
          Multiset.coe_count, Multiset.coe_count, List.count_cons]
        by_cases hb : b = a
        · subst hb
          simp
          omega
        · simp [hb, Ne.symm hb]
      rw [hcons, Multiset.card_cons]
  · next hmany =>
      have hsame : ((a :: l : List α) : Multiset α) ∩ (wanted : Multiset α) =
          (l : Multiset α) ∩ (wanted : Multiset α) := by
        ext b
        rw [Multiset.count_inter, Multiset.count_inter, Multiset.coe_count, Multiset.coe_count,
          Multiset.coe_count, List.count_cons]
        by_cases hb : b = a
        · subst hb
          simp
          omega
        · simp [Ne.symm hb]
      rw [hsame, Nat.add_zero]

/-- The most that can be had has gone up. -/
theorem matches_lt_iff : (∀ n, Matches l wanted n → ∃ m, n < m ∧ Matches l' wanted m) ↔
    matched l wanted < matched l' wanted := by
  constructor
  · intro h
    obtain ⟨m, hlt, hm⟩ := h _ (matches_iff.mpr (Nat.le_refl _))
    exact Nat.lt_of_lt_of_le hlt (matches_iff.mp hm)
  · intro hlt n hn
    exact ⟨_, Nat.lt_of_le_of_lt (matches_iff.mp hn) hlt, matches_iff.mpr (Nat.le_refl _)⟩

end Interleave
