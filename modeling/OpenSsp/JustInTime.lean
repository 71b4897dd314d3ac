/-
OpenSsp/JustInTime.lean

What a plan for a just-in-time split is good for (`plan_just_in_time_split`), and when there is
none.

A leaf of value `parent` can be split to serve `target` next to leaves worth `existing` when both
children reach the floor (`Serves`).  The planner tries every parent, but for each one only the
selection of other leaves from the largest one down.  So a plan is sound, and the planner finds
one exactly if a selection of that kind serves the target.

Main results: `planJustInTimeSplit_sound` and `planJustInTimeSplit_complete`.
-/
import OpenSsp.LeafPlan
import OpenSsp.Lib.Greedy
import Mathlib.Data.List.Sublists

namespace OpenSsp

open Interleave

/-- The values of leaves. -/
def valuesOf (leaves : List TreeNode) : List Nat := leaves.map (·.value)

/-- A parent split for `target`, next to leaves that are worth `existing`. -/
structure Serves (target floor parent existing : Nat) : Prop where
  needed : existing + floor ≤ target
  change : target + floor ≤ parent + existing

instance {target floor parent existing : Nat} : Decidable (Serves target floor parent existing) :=
  decidable_of_iff (existing + floor ≤ target ∧ target + floor ≤ parent + existing)
    ⟨fun h => ⟨h.1, h.2⟩, fun h => ⟨h.1, h.2⟩⟩

variable {leaves : List TreeNode} {target floor : Nat}

/-! ### Selecting existing leaves -/

/-- Taking one more leaf, if it fits. -/
def selectStep (maximum : Nat) (taken : List TreeNode × Nat) (candidate : TreeNode) :
    List TreeNode × Nat :=
  match checkedAdd taken.2 candidate.value with
  | some next => if next ≤ maximum then (taken.1 ++ [candidate], next) else taken
  | none => taken

theorem selectStep_cases (maximum : Nat) (taken : List TreeNode × Nat) (candidate : TreeNode) :
    selectStep maximum taken candidate = taken ∨
      taken.2 + candidate.value ≤ maximum ∧ taken.2 + candidate.value < 2 ^ 64 ∧
      selectStep maximum taken candidate = (taken.1 ++ [candidate], taken.2 + candidate.value) := by
  unfold selectStep
  split
  · next next hnext =>
      obtain ⟨rfl, hlt⟩ := checkedAdd_eq_some hnext
      split
      · next hle => exact .inr ⟨hle, hlt, rfl⟩
      · exact .inl rfl
  · exact .inl rfl

/-- In 64 bits a leaf that fits is taken. -/
theorem selectStep_of_le {maximum : Nat} (hmax : maximum < 2 ^ 64) {taken : List TreeNode × Nat}
    {candidate : TreeNode} (hle : taken.2 + candidate.value ≤ maximum) :
    selectStep maximum taken candidate =
      (taken.1 ++ [candidate], taken.2 + candidate.value) := by
  have hadd : checkedAdd taken.2 candidate.value = some (taken.2 + candidate.value) :=
    if_pos (Nat.lt_of_le_of_lt hle hmax)
  unfold selectStep
  rw [hadd]
  exact if_pos hle

theorem selectExisting_eq (maximum : Nat) (candidates : List TreeNode) :
    selectExisting maximum candidates = candidates.foldl (selectStep maximum) ([], 0) := rfl

/-- What is selected are candidates, their sum is kept, and it stays below the maximum. -/
theorem foldl_selectStep (maximum : Nat) (candidates : List TreeNode) :
    ∀ taken : List TreeNode × Nat, ∃ more : List TreeNode, more.Sublist candidates ∧
      candidates.foldl (selectStep maximum) taken =
        (taken.1 ++ more, taken.2 + (valuesOf more).sum) ∧
      (taken.2 ≤ maximum → taken.2 + (valuesOf more).sum ≤ maximum) ∧
      (taken.2 < 2 ^ 64 → taken.2 + (valuesOf more).sum < 2 ^ 64) := by
  induction candidates with
  | nil => exact fun taken => ⟨[], .slnil, by simp [valuesOf], by simp [valuesOf], by simp [valuesOf]⟩
  | cons candidate candidates ih =>
      intro taken
      rw [List.foldl_cons]
      rcases selectStep_cases maximum taken candidate with hskip | ⟨hle, hlt, htake⟩
      · rw [hskip]
        obtain ⟨more, hmore, hrest⟩ := ih taken
        exact ⟨more, hmore.cons _, hrest⟩
      · rw [htake]
        obtain ⟨more, hmore, hfold, hmax, hrange⟩ :=
          ih (taken.1 ++ [candidate], taken.2 + candidate.value)
        refine ⟨candidate :: more, hmore.cons_cons _, ?_, fun _ => ?_, fun _ => ?_⟩
        · rw [hfold]
          simp [valuesOf, Nat.add_assoc]
        · simpa [valuesOf, Nat.add_assoc] using hmax hle
        · simpa [valuesOf, Nat.add_assoc] using hrange hlt

theorem selectExisting_spec (maximum : Nat) (candidates : List TreeNode) :
    ∃ selected, selected.Sublist candidates ∧
      selectExisting maximum candidates = (selected, (valuesOf selected).sum) ∧
      (valuesOf selected).sum ≤ maximum ∧ (valuesOf selected).sum < 2 ^ 64 := by
  obtain ⟨more, hmore, hfold, hmax, hrange⟩ := foldl_selectStep maximum candidates ([], 0)
  refine ⟨more, hmore, ?_, ?_, ?_⟩
  · rw [selectExisting_eq, hfold, List.nil_append, Nat.zero_add]
  · simpa using hmax (Nat.zero_le _)
  · simpa using hrange (by decide)

/-- Nothing is skipped for an overflow: the selection fills the room there is. -/
theorem foldl_selectStep_fill {maximum : Nat} (hmax : maximum < 2 ^ 64)
    (candidates : List TreeNode) : ∀ taken : List TreeNode × Nat, taken.2 ≤ maximum →
      valuesOf (candidates.foldl (selectStep maximum) taken).1 =
        valuesOf taken.1 ++ fill (maximum - taken.2) (valuesOf candidates) := by
  induction candidates with
  | nil => exact fun taken _ => by simp [valuesOf, fill]
  | cons candidate candidates ih =>
      intro taken htaken
      rw [List.foldl_cons, valuesOf, valuesOf, valuesOf, List.map_cons, fill]
      by_cases hle : taken.2 + candidate.value ≤ maximum
      · have hrest := ih (taken.1 ++ [candidate], taken.2 + candidate.value) hle
        rw [selectStep_of_le hmax hle, if_pos (by omega)]
        simpa [valuesOf, Nat.sub_add_eq] using hrest
      · have hskip : selectStep maximum taken candidate = taken :=
          (selectStep_cases maximum taken candidate).resolve_right fun htake => hle htake.1
        rw [hskip, if_neg (by omega)]
        exact ih taken htaken

theorem selectExisting_fill {maximum : Nat} (hmax : maximum < 2 ^ 64)
    (candidates : List TreeNode) :
    valuesOf (selectExisting maximum candidates).1 = fill maximum (valuesOf candidates) := by
  rw [selectExisting_eq, foldl_selectStep_fill hmax candidates ([], 0) (Nat.zero_le _)]
  rfl

/-! ### One parent -/

/-- The other leaves, from the largest one down. -/
def others (leaves : List TreeNode) (parentIndex : Nat) : List TreeNode :=
  (leaves.eraseIdx parentIndex).mergeSort fun a b => b.value ≤ a.value

theorem others_perm (leaves : List TreeNode) (parentIndex : Nat) :
    (others leaves parentIndex).Perm (leaves.eraseIdx parentIndex) := List.mergeSort_perm _ _

theorem others_sorted (leaves : List TreeNode) (parentIndex : Nat) :
    (valuesOf (others leaves parentIndex)).Pairwise (· ≥ ·) := by
  apply List.pairwise_map.mpr
  have htrans : ∀ a b c : TreeNode, decide (b.value ≤ a.value) = true →
      decide (c.value ≤ b.value) = true → decide (c.value ≤ a.value) = true := by
    intro a b c hab hbc
    simp only [decide_eq_true_eq] at hab hbc ⊢
    omega
  have htotal : ∀ a b : TreeNode,
      (decide (b.value ≤ a.value) || decide (a.value ≤ b.value)) = true := by
    intro a b
    simp only [Bool.or_eq_true, decide_eq_true_eq]
    omega
  have hsorted := List.pairwise_mergeSort htrans htotal (leaves.eraseIdx parentIndex)
  exact hsorted.imp fun hab => by simpa using hab

/-- With a parent there is a plan exactly if the selection next to it serves the target. -/
theorem planWithParent_eq {parentIndex : Nat} {parent : TreeNode} {selected : List TreeNode}
    {existing : Nat}
    (hselected : selectExisting (target - floor) (others leaves parentIndex) =
      (selected, existing)) (hmax : existing ≤ target - floor) :
    planWithParent leaves target floor parentIndex parent =
      if Serves target floor parent.value existing then
        some { selected, parent, neededSats := target - existing,
               changeSats := parent.value - (target - existing) }
      else none := by
  have hplan : planWithParent leaves target floor parentIndex parent =
      (checkedSub parent.value (target - existing)).bind fun changeSats =>
        if target - existing < floor ∨ changeSats < floor then none
        else some { selected, parent, neededSats := target - existing, changeSats } := by
    unfold others at hselected
    simp only [planWithParent, hselected]
    rfl
  rw [hplan]
  by_cases hserves : Serves target floor parent.value existing
  · obtain ⟨hneeded, hchange⟩ := hserves
    rw [if_pos ⟨hneeded, hchange⟩, checkedSub, if_pos (by omega), Option.bind_some,
      if_neg (by omega)]
  · rw [if_neg hserves, checkedSub]
    split
    · rw [Option.bind_some, if_pos]
      by_contra hfloors
      push Not at hfloors
      exact hserves ⟨by omega, by omega⟩
    · rfl

/-- A plan with this parent: the leaves selected next to it, and both children above the floor. -/
theorem planWithParent_some {parentIndex : Nat} {parent : TreeNode} {plan : JustInTimeSplit}
    (h : planWithParent leaves target floor parentIndex parent = some plan) :
    plan.parent = parent ∧ plan.selected.Subperm (leaves.eraseIdx parentIndex) ∧
      (valuesOf plan.selected).sum + plan.neededSats = target ∧
      plan.neededSats + plan.changeSats = parent.value ∧
      floor ≤ plan.neededSats ∧ floor ≤ plan.changeSats := by
  obtain ⟨selected, hsub, hselected, hmax, -⟩ :=
    selectExisting_spec (target - floor) (others leaves parentIndex)
  rw [planWithParent_eq hselected hmax] at h
  split at h
  · next hserves =>
      obtain ⟨hneeded, hchange⟩ := hserves
      obtain rfl := Option.some.inj h
      refine ⟨rfl, hsub.subperm.trans (others_perm leaves parentIndex).subperm, ?_, ?_, ?_, ?_⟩
      · show (valuesOf selected).sum + (target - (valuesOf selected).sum) = target
        omega
      · show target - (valuesOf selected).sum +
          (parent.value - (target - (valuesOf selected).sum)) = parent.value
        omega
      · show floor ≤ target - (valuesOf selected).sum
        omega
      · show floor ≤ parent.value - (target - (valuesOf selected).sum)
        omega
  · cases h

theorem planWithParent_none {parentIndex : Nat} {parent : TreeNode} :
    planWithParent leaves target floor parentIndex parent = none ↔
      ¬ Serves target floor parent.value
        (selectExisting (target - floor) (others leaves parentIndex)).2 := by
  obtain ⟨selected, -, hselected, hmax, -⟩ :=
    selectExisting_spec (target - floor) (others leaves parentIndex)
  rw [planWithParent_eq hselected hmax, hselected]
  split
  · next hserves => simp [hserves]
  · next hserves => simp [hserves]

/-! ### All parents -/

theorem planJustInTimeSplit_eq (htarget : 0 < target) (hfloor : 0 < floor) :
    planJustInTimeSplit leaves target floor =
      bestOf (fun x => planWithParent leaves target floor x.2 x.1) JustInTimeSplit.betterThan
        leaves.zipIdx := by
  rw [planJustInTimeSplit, if_neg (by omega), bestOf]
  congr 1
  funext best x
  simp only [bestStep]
  rcases planWithParent leaves target floor x.2 x.1 with - | plan <;> rfl

theorem planJustInTimeSplit_pos {plan : JustInTimeSplit}
    (h : planJustInTimeSplit leaves target floor = some plan) : 0 < target ∧ 0 < floor := by
  by_contra hzero
  rw [planJustInTimeSplit, if_pos (by omega)] at h
  cases h

/-- A plan is a plan with one of the leaves. -/
theorem planJustInTimeSplit_some {plan : JustInTimeSplit}
    (h : planJustInTimeSplit leaves target floor = some plan) :
    ∃ i parent, leaves[i]? = some parent ∧
      planWithParent leaves target floor i parent = some plan := by
  obtain ⟨htarget, hfloor⟩ := planJustInTimeSplit_pos h
  rw [planJustInTimeSplit_eq htarget hfloor] at h
  obtain ⟨⟨parent, i⟩, hmem, hplan⟩ := bestOf_mem h
  exact ⟨i, parent, (List.mk_mem_zipIdx_iff_getElem? ..).mp hmem, hplan⟩

/-- What a plan for `target` is: its leaves and its parent are different leaves of the wallet, and
with the first child of the parent they are worth the target. -/
structure SplitPlan (leaves : List TreeNode) (target floor : Nat) (plan : JustInTimeSplit) :
    Prop where
  leaves : ∃ i, leaves[i]? = some plan.parent ∧ plan.selected.Subperm (leaves.eraseIdx i)
  target : (valuesOf plan.selected).sum + plan.neededSats = target
  conserved : plan.neededSats + plan.changeSats = plan.parent.value
  needed : floor ≤ plan.neededSats
  change : floor ≤ plan.changeSats

/-- The wallet once the leaf at this index is split. -/
def splitLeaves (leaves : List TreeNode) (i : Nat) (needed change : TreeNode) : List TreeNode :=
  needed :: change :: leaves.eraseIdx i

/-- A split conserves what the wallet is worth. -/
theorem splitLeaves_sum {i : Nat} {parent needed change : TreeNode}
    (hparent : leaves[i]? = some parent) (hvalue : needed.value + change.value = parent.value) :
    (valuesOf (splitLeaves leaves i needed change)).sum = (valuesOf leaves).sum := by
  obtain ⟨hi, rfl⟩ := List.getElem?_eq_some_iff.mp hparent
  have hperm := (List.getElem_cons_eraseIdx_perm hi).map (·.value)
  have hsum := hperm.sum_nat
  rw [List.map_cons, List.sum_cons] at hsum
  rw [splitLeaves, valuesOf, List.map_cons, List.map_cons, List.sum_cons, List.sum_cons, valuesOf,
    ← hsum]
  omega

/-- After the split the selected leaves and the first child are worth the target. -/
theorem SplitPlan.serves {plan : JustInTimeSplit} (h : SplitPlan leaves target floor plan)
    {needed change : TreeNode} (hneeded : needed.value = plan.neededSats)
    (hchange : change.value = plan.changeSats) :
    ∃ i, leaves[i]? = some plan.parent ∧
      (valuesOf (splitLeaves leaves i needed change)).sum = (valuesOf leaves).sum ∧
      ∃ chosen, chosen.Subperm (splitLeaves leaves i needed change) ∧
        (valuesOf chosen).sum = target := by
  obtain ⟨i, hparent, hselected⟩ := h.leaves
  have hconserved := h.conserved
  refine ⟨i, hparent, splitLeaves_sum hparent (by omega), needed :: plan.selected, ?_, ?_⟩
  · apply (List.subperm_cons needed).mpr
    exact hselected.trans (List.sublist_cons_self _ _).subperm
  · have htarget := h.target
    rw [valuesOf, List.map_cons, List.sum_cons, hneeded]
    rw [valuesOf] at htarget
    omega

/-- **Soundness of the planner.**  A plan selects leaves other than its parent, splits the parent
into two children that are not below the floor, and is worth the target; the split conserves the value
of the wallet and leaves a selection of exactly the target in it.  For no parent does the
selection leave 64 bits or exceed the target it is taken from. -/
theorem planJustInTimeSplit_sound :
    (∀ plan, planJustInTimeSplit leaves target floor = some plan →
      SplitPlan leaves target floor plan ∧ 0 < floor ∧
      ∀ needed change : TreeNode, needed.value = plan.neededSats →
        change.value = plan.changeSats →
        ∃ i, leaves[i]? = some plan.parent ∧
          (valuesOf (splitLeaves leaves i needed change)).sum = (valuesOf leaves).sum ∧
          ∃ chosen, chosen.Subperm (splitLeaves leaves i needed change) ∧
            (valuesOf chosen).sum = target) ∧
    ∀ i, (selectExisting (target - floor) (others leaves i)).2 ≤ target ∧
      (selectExisting (target - floor) (others leaves i)).2 < 2 ^ 64 := by
  constructor
  · intro plan h
    obtain ⟨i, parent, hparent, hplan⟩ := planJustInTimeSplit_some h
    obtain ⟨rfl, hselected, htarget, hconserved, hneeded, hchange⟩ := planWithParent_some hplan
    have hsound : SplitPlan leaves target floor plan :=
      ⟨⟨i, hparent, hselected⟩, htarget, hconserved, hneeded, hchange⟩
    exact ⟨hsound, (planJustInTimeSplit_pos h).2, fun _ _ hn hc => hsound.serves hn hc⟩
  · intro i
    obtain ⟨selected, -, hselected, hmax, hrange⟩ :=
      selectExisting_spec (target - floor) (others leaves i)
    rw [hselected]
    exact ⟨hmax.trans (Nat.sub_le _ _), hrange⟩

/-- Serving 1500 from leaves of 400, 600 and 1000. -/
theorem planJustInTimeSplit_sound_combined :
    ∃ plan, planJustInTimeSplit [⟨"1", 400, ""⟩, ⟨"2", 600, ""⟩, ⟨"3", 1000, ""⟩] 1500 1 =
        some plan ∧
      SplitPlan [⟨"1", 400, ""⟩, ⟨"2", 600, ""⟩, ⟨"3", 1000, ""⟩] 1500 1 plan := by
  have hplan : planJustInTimeSplit [⟨"1", 400, ""⟩, ⟨"2", 600, ""⟩, ⟨"3", 1000, ""⟩] 1500 1 =
      some ⟨[⟨"3", 1000, ""⟩, ⟨"1", 400, ""⟩], ⟨"2", 600, ""⟩, 100, 500⟩ := by
    simp [planJustInTimeSplit, planWithParent, List.zipIdx, List.mergeSort,
      List.MergeSort.Internal.splitInTwo, selectExisting, checkedAdd, checkedSub,
      JustInTimeSplit.betterThan]
  exact ⟨_, hplan, (planJustInTimeSplit_sound.1 _ hplan).1⟩

/-! ### When there is no plan -/

/-- Some leaf can be split to serve the target next to some of the others. -/
def Splittable (leaves : List TreeNode) (target floor : Nat) : Prop :=
  ∃ i parent existing, leaves[i]? = some parent ∧ existing.Subperm (leaves.eraseIdx i) ∧
    Serves target floor parent.value (valuesOf existing).sum

/-- Some leaf can be split to serve the target next to others that are selected from the largest
one down. -/
def SplittableLargestFirst (leaves : List TreeNode) (target floor : Nat) : Prop :=
  ∃ i parent existing left, leaves[i]? = some parent ∧
    (existing ++ left).Perm (leaves.eraseIdx i) ∧
    LargestFirst (target - floor) (valuesOf existing) (valuesOf left) ∧
    Serves target floor parent.value (valuesOf existing).sum

/-- What is selected next to a parent is a selection from the largest leaf down. -/
theorem selectExisting_largestFirst (leaves : List TreeNode) (floor : Nat)
    (hrange : target < 2 ^ 64) (i : Nat) :
    ∃ selected left : List TreeNode,
      selectExisting (target - floor) (others leaves i) = (selected, (valuesOf selected).sum) ∧
      (selected ++ left).Perm (leaves.eraseIdx i) ∧
      LargestFirst (target - floor) (valuesOf selected) (valuesOf left) := by
  obtain ⟨selected, hsub, hselected, -⟩ := selectExisting_spec (target - floor) (others leaves i)
  have hvalues := selectExisting_fill (show target - floor < 2 ^ 64 by omega) (others leaves i)
  rw [hselected] at hvalues
  replace hvalues : valuesOf selected = _ := hvalues
  obtain ⟨left, hleft⟩ := hsub.exists_perm_append
  obtain ⟨left', hperm, hlargest⟩ := fill_largestFirst (target - floor) (others_sorted leaves i)
  refine ⟨selected, left, hselected, hleft.symm.trans (others_perm leaves i), ?_⟩
  -- both leave out the same values
  have hboth : (valuesOf left).Perm left' := by
    have hall : (valuesOf selected ++ valuesOf left).Perm (valuesOf (others leaves i)) := by
      rw [valuesOf, valuesOf, ← List.map_append]
      exact (hleft.map _).symm
    rw [hvalues] at hall
    exact (List.perm_append_left_iff _).mp (hall.trans hperm.symm)
  rw [hvalues]
  exact ⟨hlargest.fits, fun b hb => hlargest.full b (hboth.mem_iff.mp hb)⟩

theorem planJustInTimeSplit_none (htarget : 0 < target) (hfloor : 0 < floor)
    (hrange : target < 2 ^ 64) :
    planJustInTimeSplit leaves target floor = none ↔ ¬ SplittableLargestFirst leaves target floor := by
  have hroom : target - floor < 2 ^ 64 := by omega
  rw [planJustInTimeSplit_eq htarget hfloor, bestOf_eq_none]
  constructor
  · rintro hnone ⟨i, parent, existing, left, hparent, hperm, hlargest, hserves⟩
    have hno := planWithParent_none.mp
      (hnone (parent, i) ((List.mk_mem_zipIdx_iff_getElem? ..).mpr hparent))
    apply hno
    -- there is one selection from the largest leaf down
    have hvalues : (valuesOf existing ++ valuesOf left).Perm (valuesOf (others leaves i)) := by
      rw [valuesOf, valuesOf, ← List.map_append]
      exact (hperm.trans (others_perm leaves i).symm).map _
    obtain ⟨selected, -, hselected, -⟩ := selectExisting_spec (target - floor) (others leaves i)
    have hfill := selectExisting_fill hroom (others leaves i)
    rw [hselected] at hfill ⊢
    replace hfill : valuesOf selected = _ := hfill
    rw [hfill, ← hlargest.sum_eq (others_sorted leaves i) hvalues]
    exact hserves
  · rintro hnot ⟨parent, i⟩ hmem
    apply planWithParent_none.mpr
    intro hserves
    obtain ⟨selected, left, hselected, hperm, hlargest⟩ :=
      selectExisting_largestFirst leaves floor hrange i
    rw [hselected] at hserves
    exact hnot ⟨i, parent, selected, left, (List.mk_mem_zipIdx_iff_getElem? ..).mp hmem, hperm,
      hlargest, hserves⟩

/-- **Completeness of the planner.**  It finds no plan only if no split serves the target, exactly if
one of the splits that serve it, when there are any, takes the other leaves from the largest
one down. -/
theorem planJustInTimeSplit_complete (htarget : 0 < target) (hfloor : 0 < floor)
    (hrange : target < 2 ^ 64) :
    (planJustInTimeSplit leaves target floor = none → ¬ Splittable leaves target floor) ↔
      (Splittable leaves target floor → SplittableLargestFirst leaves target floor) := by
  rw [planJustInTimeSplit_none htarget hfloor hrange]
  exact not_imp_not

/-- For 600 the planner splits a leaf of 700 next to leaves of 150 and 100. -/
theorem planJustInTimeSplit_complete_three : ∃ leaves : List TreeNode,
    ((planJustInTimeSplit leaves 600 200 = none → ¬ Splittable leaves 600 200) ↔
      (Splittable leaves 600 200 → SplittableLargestFirst leaves 600 200)) ∧
    (planJustInTimeSplit leaves 600 200).map (fun plan =>
      (plan.parent.value, valuesOf plan.selected, plan.neededSats, plan.changeSats)) =
        some (700, [150, 100], 350, 350) := by
  refine ⟨[⟨"1", 700, ""⟩, ⟨"2", 100, ""⟩, ⟨"3", 150, ""⟩],
    planJustInTimeSplit_complete (by decide) (by decide) (by decide), ?_⟩
  simp [planJustInTimeSplit, planWithParent, List.zipIdx, List.mergeSort,
    List.MergeSort.Internal.splitInTwo, selectExisting, checkedAdd, checkedSub, valuesOf]

/-- A split of 700 next to two leaves of 100 serves 550, but the planner takes the leaf of 150
first. -/
theorem planJustInTimeSplit_incomplete : ∃ leaves : List TreeNode,
    (∀ chosen, chosen.Sublist leaves → (valuesOf chosen).sum ≠ 550) ∧
    planJustInTimeSplit leaves 550 330 = none ∧ Splittable leaves 550 330 := by
  refine ⟨[⟨"1", 700, ""⟩, ⟨"2", 150, ""⟩, ⟨"3", 100, ""⟩, ⟨"4", 100, ""⟩], ?_, ?_, ?_⟩
  · have hall : ∀ chosen ∈ List.sublists [(⟨"1", 700, ""⟩ : TreeNode), ⟨"2", 150, ""⟩,
        ⟨"3", 100, ""⟩, ⟨"4", 100, ""⟩], (valuesOf chosen).sum ≠ 550 := by decide
    exact fun chosen hchosen => hall chosen (List.mem_sublists.mpr hchosen)
  · simp [planJustInTimeSplit, planWithParent, List.zipIdx, List.mergeSort,
      List.MergeSort.Internal.splitInTwo, selectExisting, checkedAdd, checkedSub]
  · refine ⟨0, ⟨"1", 700, ""⟩, [⟨"3", 100, ""⟩, ⟨"4", 100, ""⟩], rfl, ?_, by decide⟩
    exact (List.sublist_cons_self _ _).subperm

end OpenSsp
