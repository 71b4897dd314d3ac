/-
OpenSsp/Denominations.lean

What a split for a list of denominations gains (`plan_denomination_split`).

The planner matches the denominations in their order with whole leaves, up to the first that has
none left, and makes that one of the smallest leaf that is left and large enough (`NextSplit`).  The
leaves that later denominations match are left then, too, so that it may be one of them that is
split.  A split gains a match, or two; it loses one if the leaf is needed, that is, if there
are no more leaves of its value than requests (`Spare`).

Main result: `planDenominationSplit_progress`.
-/
import OpenSsp.LeafPlan
import OpenSsp.JustInTime
import OpenSsp.Lib.Matching

namespace OpenSsp

open Interleave

variable {leaves remaining : List TreeNode} {denominations : List Nat} {floor d v : Nat}

/-- There are more leaves of this value than requests. -/
def Spare (values denominations : List Nat) (v : Nat) : Prop :=
  denominations.count v < values.count v

/-- The first denomination that the leaves run out for, and the smallest leaf that the ones before
leave and that can be split for it. -/
structure NextSplit (values denominations : List Nat) (floor d v : Nat) : Prop where
  floorPositive : 0 < floor
  positive : 0 ∉ denominations
  aboveFloor : floor ≤ d
  covers : d + floor ≤ v
  gap : ∃ before after, denominations = before ++ d :: after ∧ before.Subperm values ∧
    values.count d = before.count d ∧ before.count v < values.count v ∧
    ∀ w, d + floor ≤ w → before.count w < values.count w → v ≤ w

/-- The rest of the split leaf is one more denomination that is asked for. -/
def RestWanted (values denominations : List Nat) (d v : Nat) : Prop :=
  (d :: values.erase v).count (v - d) < denominations.count (v - d)

/-! ### The first gap -/

/-- Matching one denomination takes one leaf of its value. -/
theorem findIdx_value {index : Nat} (h : remaining.findIdx? (·.value == d) = some index) :
    (valuesOf remaining).Perm (d :: valuesOf (remaining.eraseIdx index)) := by
  obtain ⟨hindex, hvalue, -⟩ := List.findIdx?_eq_some_iff_getElem.mp h
  have hvalue : remaining[index].value = d := by simpa using hvalue
  have hperm := ((List.getElem_cons_eraseIdx_perm hindex).map (·.value)).symm
  rw [List.map_cons, hvalue] at hperm
  exact hperm

/-- What is missing first, and what is left then. -/
theorem missingDenomination_some {remaining' : List TreeNode} (h : missingDenomination remaining denominations =
      some (d, remaining')) :
    remaining'.Subperm remaining ∧ d ∉ valuesOf remaining' ∧ ∃ before after,
      denominations = before ++ d :: after ∧
      (valuesOf remaining).Perm (before ++ valuesOf remaining') := by
  induction denominations generalizing remaining with
  | nil => cases h
  | cons denomination denominations ih =>
      unfold missingDenomination at h
      split at h
      · next index hindex =>
          obtain ⟨hsub, hnone, before, after, rfl, hperm⟩ := ih h
          refine ⟨hsub.trans (List.eraseIdx_sublist _ _).subperm, hnone, denomination :: before, after,
            rfl, ?_⟩
          exact (findIdx_value hindex).trans (hperm.cons denomination)
      · next hnone =>
          obtain ⟨rfl, rfl⟩ := Prod.mk.inj (Option.some.inj h)
          refine ⟨List.Subperm.refl _, ?_, [], denominations, rfl, List.Perm.refl _⟩
          intro hmem
          obtain ⟨leaf, hleaf, hvalue⟩ := List.mem_map.mp hmem
          have hno := List.findIdx?_eq_none_iff.mp hnone leaf hleaf
          simp [hvalue] at hno

/-- Denominations that are all there are matched; one that is not is missing. -/
theorem missingDenomination_of_gap {before : List Nat} (after : List Nat)
    (hbefore : before.Subperm (valuesOf remaining))
    (hgap : (valuesOf remaining).count d = before.count d) :
    ∃ remaining', missingDenomination remaining (before ++ d :: after) = some (d, remaining') ∧
      (valuesOf remaining).Perm (before ++ valuesOf remaining') := by
  induction before generalizing remaining with
  | nil =>
      refine ⟨remaining, ?_, List.Perm.refl _⟩
      have hnone : remaining.findIdx? (·.value == d) = none := by
        apply List.findIdx?_eq_none_iff.mpr
        intro leaf hleaf
        have hno : d ∉ valuesOf remaining := List.count_eq_zero.mp hgap
        by_contra hvalue
        exact hno (List.mem_map.mpr ⟨leaf, hleaf, by simpa using hvalue⟩)
      rw [List.nil_append, missingDenomination, hnone]
  | cons b before ih =>
      -- a leaf of the value `b` is still there, and is spent on it
      obtain ⟨index, hindex⟩ : ∃ index, remaining.findIdx? (·.value == b) = some index := by
        apply Option.isSome_iff_exists.mp
        rw [List.findIdx?_isSome]
        obtain ⟨leaf, hleaf, hvalue⟩ := List.mem_map.mp (hbefore.subset List.mem_cons_self)
        exact List.any_eq_true.mpr ⟨leaf, hleaf, by simpa using hvalue⟩
      have hperm := findIdx_value hindex
      have hbefore' : before.Subperm (valuesOf (remaining.eraseIdx index)) :=
        (List.subperm_cons b).mp (hbefore.trans hperm.subperm)
      have hgap' : (valuesOf (remaining.eraseIdx index)).count d = before.count d := by
        rw [hperm.count_eq, List.count_cons, List.count_cons] at hgap
        omega
      obtain ⟨remaining', hmissing, hrest⟩ := ih hbefore' hgap'
      refine ⟨remaining', ?_, hperm.trans (hrest.cons b)⟩
      rw [List.cons_append, missingDenomination, hindex]
      exact hmissing

/-! ### The leaf that is split -/

/-- A leaf split for `missing`, if both parts reach the floor. -/
def splitOff (missing floor : Nat) (parent : TreeNode) : Option (TreeNode × Nat × Nat) :=
  if missing + floor ≤ parent.value then some (parent, missing, parent.value - missing) else none

/-- Less change, then the smaller leaf. -/
def lessChange (a b : TreeNode × Nat × Nat) : Bool :=
  a.2.2 < b.2.2 || a.2.2 == b.2.2 && a.1.value < b.1.value

theorem lessChange_trans (a b c : TreeNode × Nat × Nat) (hab : lessChange a b)
    (hbc : lessChange b c) : lessChange a c := by
  simp only [lessChange, Bool.or_eq_true, Bool.and_eq_true, decide_eq_true_eq, beq_iff_eq] at *
  omega

theorem lessChange_irrefl (a : TreeNode × Nat × Nat) : lessChange a a = false := by
  simp [lessChange]

theorem planDenominationSplit_eq {missing : Nat} (hpositive : 0 ∉ denominations)
    (hfloor : 0 < floor) (hmissing : missingDenomination leaves denominations =
      some (missing, remaining)) (habove : floor ≤ missing) :
    planDenominationSplit leaves denominations floor =
      bestOf (splitOff missing floor) lessChange remaining := by
  have hne : denominations ≠ [] := by
    rintro rfl
    cases hmissing
  rw [planDenominationSplit, if_neg (by simp [hne, hpositive]; omega), hmissing]
  simp only
  rw [if_neg (by omega), bestOf]
  congr 1
  funext best parent
  simp only [bestStep, splitOff, checkedSub]
  by_cases hcovers : missing + floor ≤ parent.value
  · rw [if_pos (show missing ≤ parent.value by omega), if_pos hcovers]
    simp only
    exact if_congr (and_iff_right (show floor ≤ parent.value - missing by omega)) rfl rfl
  · rw [if_neg hcovers]
    split
    · next change hchange =>
        split at hchange
        · obtain rfl := Option.some.inj hchange
          rw [if_neg (by omega)]
        · cases hchange
    · rfl

theorem planDenominationSplit_missing {split : TreeNode × Nat × Nat}
    (h : planDenominationSplit leaves denominations floor = some split) :
    0 ∉ denominations ∧ 0 < floor ∧ ∃ missing remaining,
      missingDenomination leaves denominations = some (missing, remaining) ∧ floor ≤ missing := by
  unfold planDenominationSplit at h
  split at h
  · cases h
  · next hguard =>
      push Not at hguard
      split at h
      · cases h
      · next missing remaining hmissing =>
          split at h
          · cases h
          · next habove =>
              exact ⟨hguard.2.1, Nat.pos_of_ne_zero hguard.2.2, missing, remaining, hmissing,
                Nat.not_lt.mp habove⟩

/-- How often a value is left when the denominations before a gap are matched. -/
theorem count_left {before values left : List Nat} (h : values.Perm (before ++ left)) (w : Nat) :
    w ∈ left ↔ before.count w < values.count w := by
  rw [h.count_eq, List.count_append, ← List.count_pos_iff]
  omega

/-- A split is made for the first gap, of the smallest leaf that is left and large enough. -/
theorem planDenominationSplit_some {parent : TreeNode} {needed change : Nat}
    (h : planDenominationSplit leaves denominations floor = some (parent, needed, change)) :
    parent ∈ leaves ∧ change = parent.value - needed ∧
      NextSplit (valuesOf leaves) denominations floor needed parent.value := by
  obtain ⟨hpositive, hfloor, missing, remaining, hmissing, habove⟩ := planDenominationSplit_missing h
  obtain ⟨hsub, hgap, before, after, hdenominations, hperm⟩ := missingDenomination_some hmissing
  rw [planDenominationSplit_eq hpositive hfloor hmissing habove] at h
  obtain ⟨x, hx, hsplit⟩ := bestOf_mem h
  unfold splitOff at hsplit
  split at hsplit
  · next hcovers =>
      obtain ⟨rfl, rfl, rfl⟩ : x = parent ∧ missing = needed ∧ x.value - missing = change := by
        simpa using hsplit
      refine ⟨hsub.subset hx, rfl, hfloor, hpositive, habove, hcovers, before, after,
        hdenominations, ?_, ?_, ?_, ?_⟩
      · exact (List.sublist_append_left _ _).subperm.trans hperm.symm.subperm
      · rw [hperm.count_eq, List.count_append, List.count_eq_zero.mpr hgap, Nat.add_zero]
      · exact (count_left hperm x.value).mp (List.mem_map.mpr ⟨x, hx, rfl⟩)
      · intro w hw hcount
        obtain ⟨leaf, hleaf, rfl⟩ := List.mem_map.mp ((count_left hperm w).mpr hcount)
        have hbest := bestOf_le lessChange_trans lessChange_irrefl h hleaf (if_pos hw)
        simp only [lessChange, Bool.or_eq_true, Bool.and_eq_true, decide_eq_true_eq,
          beq_iff_eq] at hbest
        omega
  · cases hsplit

/-- The next split is planned. -/
theorem NextSplit.planned (h : NextSplit (valuesOf leaves) denominations floor d v) :
    ∃ parent, planDenominationSplit leaves denominations floor = some (parent, d, v - d) ∧
      parent.value = v := by
  obtain ⟨before, after, hdenominations, hbefore, hgap, hleft, hleast⟩ := h.gap
  obtain ⟨remaining, hmissing, hperm⟩ := missingDenomination_of_gap after hbefore hgap
  rw [← hdenominations] at hmissing
  have hplan := planDenominationSplit_eq h.positive h.floorPositive hmissing h.aboveFloor
  obtain ⟨leaf, hleaf, hvalue⟩ := List.mem_map.mp ((count_left hperm v).mpr hleft)
  have hsplit : splitOff d floor leaf = some (leaf, d, leaf.value - d) :=
    if_pos (by rw [hvalue]; exact h.covers)
  rcases hbest : bestOf (splitOff d floor) lessChange remaining with - | split
  · rw [bestOf_eq_none.mp hbest leaf hleaf] at hsplit
    cases hsplit
  · obtain ⟨parent, hparent, hof⟩ := bestOf_mem hbest
    have hnot := bestOf_le lessChange_trans lessChange_irrefl hbest hleaf hsplit
    unfold splitOff at hof
    split at hof
    · next hcovers =>
        obtain rfl := Option.some.inj hof
        simp only [lessChange, Bool.or_eq_true, Bool.and_eq_true, decide_eq_true_eq,
          beq_iff_eq] at hnot
        have hge := hleast parent.value hcovers
          ((count_left hperm parent.value).mp (List.mem_map.mpr ⟨parent, hparent, rfl⟩))
        have hv : parent.value = v := by omega
        exact ⟨parent, by rw [hplan, hbest, hv], hv⟩
    · cases hof

/-! ### Progress -/

/-- The wallet once a leaf is split. -/
def valuesAfter (leaves : List TreeNode) (parent : TreeNode) (needed change : Nat) : List Nat :=
  needed :: change :: valuesOf (leaves.erase parent)

/-- A split lets more denominations be matched by leaves of their own than before, and a leaf that
is needed is not split when one that is spare could be. -/
def Progress (leaves : List TreeNode) (denominations : List Nat) (floor : Nat) : Prop :=
  ∀ parent needed change,
    planDenominationSplit leaves denominations floor = some (parent, needed, change) →
    (∀ n, Matches (valuesOf leaves) denominations n →
      ∃ m, n < m ∧ Matches (valuesAfter leaves parent needed change) denominations m) ∧
    ((∃ other ∈ leaves, needed + floor ≤ other.value ∧
        Spare (valuesOf leaves) denominations other.value) →
      Spare (valuesOf leaves) denominations parent.value)

/-- What the next split gains: more matches, unless it splits a needed leaf and the rest is not
asked for. -/
theorem NextSplit.gains {parent : TreeNode} (hparent : parent ∈ leaves)
    (h : NextSplit (valuesOf leaves) denominations floor d parent.value) :
    matched (valuesOf leaves) denominations <
        matched (valuesAfter leaves parent d (parent.value - d)) denominations ↔
      Spare (valuesOf leaves) denominations parent.value ∨
        RestWanted (valuesOf leaves) denominations d parent.value := by
  obtain ⟨before, after, hdenominations, -, hgap, -⟩ := h.gap
  have hleaves : (valuesOf leaves).Perm (parent.value :: valuesOf (leaves.erase parent)) :=
    (List.perm_cons_erase hparent).map TreeNode.value
  generalize hrest : valuesOf (leaves.erase parent) = rest at hleaves
  have herase : ((valuesOf leaves).erase parent.value).Perm rest := by
    have hperm := hleaves.erase parent.value
    rwa [List.erase_cons_head] at hperm
  have hcovers := h.covers
  have hfloor := h.floorPositive
  -- the denomination is one more match
  have hd : rest.count d < denominations.count d := by
    have hcount := hleaves.count_eq d
    rw [List.count_cons_of_ne (by omega)] at hcount
    rw [hdenominations, List.count_append, List.count_cons_self]
    omega
  have hbefore : matched (valuesOf leaves) denominations = matched rest denominations +
      if rest.count parent.value < denominations.count parent.value then 1 else 0 := by
    rw [matched_perm hleaves, matched_cons]
  have hafter : matched (valuesAfter leaves parent d (parent.value - d)) denominations =
      matched rest denominations + 1 +
        if (d :: rest).count (parent.value - d) < denominations.count (parent.value - d)
          then 1 else 0 := by
    rw [valuesAfter, hrest, matched_perm (List.Perm.swap _ _ _), matched_cons, matched_cons,
      if_pos hd]
  have hspare : Spare (valuesOf leaves) denominations parent.value ↔
      ¬ rest.count parent.value < denominations.count parent.value := by
    rw [Spare, hleaves.count_eq, List.count_cons_self]
    omega
  have hwanted : RestWanted (valuesOf leaves) denominations d parent.value ↔
      (d :: rest).count (parent.value - d) < denominations.count (parent.value - d) := by
    rw [RestWanted, (herase.cons d).count_eq]
  rw [hbefore, hafter, hspare, hwanted]
  split <;> split <;> omega

/-- **Progress of a denomination split.**  It is made exactly if the next split, when there is one,
takes a leaf of which there are more than requests, or makes two denominations at once
while every leaf that is large enough is needed. -/
theorem planDenominationSplit_progress :
    Progress leaves denominations floor ↔
      ∀ d v, NextSplit (valuesOf leaves) denominations floor d v →
        Spare (valuesOf leaves) denominations v ∨
          RestWanted (valuesOf leaves) denominations d v ∧
            ∀ w, d + floor ≤ w → ¬ Spare (valuesOf leaves) denominations w := by
  constructor
  · intro hprogress d v hnext
    obtain ⟨parent, hplan, rfl⟩ := hnext.planned
    obtain ⟨hmem, -, -⟩ := planDenominationSplit_some hplan
    obtain ⟨hmore, hneeded⟩ := hprogress parent d _ hplan
    rcases (hnext.gains hmem).mp (matches_lt_iff.mp hmore) with hspare | hwanted
    · exact .inl hspare
    · by_cases hspare : Spare (valuesOf leaves) denominations parent.value
      · exact .inl hspare
      · refine .inr ⟨hwanted, fun w hw hother => hspare (hneeded ?_)⟩
        obtain ⟨other, hother', rfl⟩ := List.mem_map.mp
          (List.count_pos_iff.mp (Nat.lt_of_le_of_lt (Nat.zero_le _) hother))
        exact ⟨other, hother', hw, hother⟩
  · intro hnext parent needed change hplan
    obtain ⟨hmem, rfl, hsplit⟩ := planDenominationSplit_some hplan
    rw [matches_lt_iff, hsplit.gains hmem]
    rcases hnext needed parent.value hsplit with hspare | ⟨hwanted, hnone⟩
    · exact ⟨.inl hspare, fun _ => hspare⟩
    · refine ⟨.inr hwanted, ?_⟩
      rintro ⟨other, -, hcovers, hother⟩
      exact absurd hother (hnone other.value hcovers)

/-- A leaf of 1000 is split for 400 although 1000 is asked for next and a leaf of 2000 is spare. -/
theorem planDenominationSplit_regress :
    ¬ Progress [⟨"1", 1000, ""⟩, ⟨"2", 2000, ""⟩] [400, 1000] 330 := by
  intro hprogress
  have hplan : planDenominationSplit [⟨"1", 1000, ""⟩, ⟨"2", 2000, ""⟩] [400, 1000] 330 =
      some (⟨"1", 1000, ""⟩, 400, 600) := by decide +kernel
  have hmore := (hprogress _ _ _ hplan).1
  exact absurd (matches_lt_iff.mp hmore) (by decide +kernel)

end OpenSsp
