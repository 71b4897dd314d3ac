/-
OpenSsp/SwapLiquidity.lean

Splitting one leaf for the amounts of a swap (`ensure_denominated_liquidity`).

From one leaf that is worth more than the amounts, each split makes one amount, in their order,
and one leaf for the rest (`splitUntil_eval`).  As many splits as amounts are needed: no
fewer leaves serve them (`Serveable.length_lt`).  The loop looks at the leaves before each of its 32
splits, but not after the last one, so that it serves 31 amounts at most, while a swap
can ask for 32 and has its change as one more.

Main result: `ensureDenominatedLiquidity_served`.
-/
import Mathlib.Algebra.BigOperators.Group.List.Basic
import Mathlib.Data.Nat.Digits.Lemmas
import Mathlib.Logic.Equiv.List
import OpenSsp.SplitOperators
import OpenSsp.Denominations

namespace OpenSsp.LeafSplit

open Interleave

/-- Leaves are set apart for each amount, that are worth it together. -/
def Serveable (leaves : List TreeNode) (amounts : List Nat) : Prop :=
  ∃ parts : List (List TreeNode), parts.flatten.Subperm leaves ∧
    parts.map (fun part => (valuesOf part).sum) = amounts

/-- `select_leaves_by_exact_amounts` succeeds exactly when that can be done. -/
def SelectsExactly (S : Sdk) : Prop :=
  ∀ leaves amounts, S.selectsExactly leaves amounts = true ↔ Serveable leaves amounts

/-- The amounts of a counter transfer: the targets, and the change if there is any. -/
def counterAmounts (targets : List Nat) (change : Nat) : List Nat :=
  if 0 < change then targets ++ [change] else targets

/-- Each amount has a leaf of its own. -/
def Matched (leaves : List WalletLeaf) (amounts : List Nat) : Prop :=
  amounts.Subperm (leaves.map (·.value))

variable {leaves : List TreeNode} {amounts : List Nat} {floor : Nat}

/-! ### How many leaves serve the amounts -/

/-- Leaves of just the amounts serve them. -/
theorem serveable_of_subperm (h : amounts.Subperm (valuesOf leaves)) :
    Serveable leaves amounts := by
  induction amounts generalizing leaves with
  | nil => exact ⟨[], List.nil_subperm, rfl⟩
  | cons amount amounts ih =>
      obtain ⟨leaf, hleaf, rfl⟩ := List.mem_map.mp (h.subset List.mem_cons_self)
      have hperm := List.perm_cons_erase hleaf
      have hrest : amounts.Subperm (valuesOf (leaves.erase leaf)) :=
        (List.subperm_cons leaf.value).mp (h.trans (hperm.map TreeNode.value).subperm)
      obtain ⟨parts, hsub, hparts⟩ := ih hrest
      refine ⟨[leaf] :: parts, ?_, ?_⟩
      · exact ((List.subperm_cons leaf).mpr hsub).trans hperm.symm.subperm
      · rw [List.map_cons, hparts]
        rfl

/-- Leaves that are worth more than the amounts are more than these. -/
theorem Serveable.length_lt (h : Serveable leaves amounts) (hpositive : 0 ∉ amounts)
    (hmore : amounts.sum < (valuesOf leaves).sum) : amounts.length < leaves.length := by
  obtain ⟨parts, hsub, rfl⟩ := h
  have hne : ∀ part ∈ parts, 1 ≤ part.length := by
    intro part hpart
    apply List.length_pos_iff.mpr
    rintro rfl
    exact hpositive (List.mem_map.mpr ⟨[], hpart, rfl⟩)
  have hle : parts.length ≤ parts.flatten.length := by
    rw [List.length_flatten, ← List.length_map List.length]
    apply List.length_le_sum_of_one_le
    intro length hlength
    obtain ⟨part, hpart, rfl⟩ := List.mem_map.mp hlength
    exact hne part hpart
  have hflat : (valuesOf parts.flatten).sum = (parts.map fun part => (valuesOf part).sum).sum := by
    rw [valuesOf, List.map_flatten, List.sum_flatten, List.map_map]
    rfl
  have hlt : parts.flatten.length < leaves.length := by
    apply Nat.lt_of_le_of_ne hsub.length_le
    intro he
    have hperm := hsub.perm_of_length_le (Nat.le_of_eq he.symm)
    have hsum := (hperm.map TreeNode.value).sum_eq
    change (valuesOf parts.flatten).sum = (valuesOf leaves).sum at hsum
    omega
  rw [List.length_map]
  omega

/-! ### Listing leaves -/

/-- Leaves with keyshares are listed as they are. -/
theorem listed {leaves : List WalletLeaf} (h : ∀ leaf ∈ leaves, leaf.signingKeyshare ≠ none) :
    ∃ trees, leaves.mapM walletLeafToTreeNode = .ok trees ∧
      trees.map (fun tree => (tree.id, tree.value)) =
        leaves.map fun leaf => (leaf.id, leaf.value) := by
  induction leaves with
  | nil => exact ⟨[], rfl, rfl⟩
  | cons leaf leaves ih =>
      obtain ⟨trees, hmap, hsame⟩ := ih fun l hl => h l (List.mem_cons_of_mem _ hl)
      obtain ⟨share, hshare⟩ := Option.ne_none_iff_exists'.mp (h leaf List.mem_cons_self)
      refine ⟨⟨leaf.id, leaf.value, share⟩ :: trees, ?_, ?_⟩
      · rw [List.mapM_cons, walletLeafToTreeNode, hshare, hmap]
        rfl
      · rw [List.map_cons, List.map_cons, hsame]

/-- A leaf taken out of leaves with different ids. -/
theorem perm_cons_filter {leaves : List WalletLeaf} (h : (leaves.map (·.id)).Nodup)
    {leaf : WalletLeaf} (hleaf : leaf ∈ leaves) :
    leaves.Perm (leaf :: leaves.filter (·.id != leaf.id)) := by
  induction leaves with
  | nil => cases hleaf
  | cons head leaves ih =>
      rw [List.map_cons, List.nodup_cons] at h
      rcases List.mem_cons.mp hleaf with rfl | hrest
      · have hall : leaves.filter (·.id != leaf.id) = leaves := by
          apply List.filter_eq_self.mpr
          intro x hx
          have hne : x.id ≠ leaf.id := fun he => h.1 (List.mem_map.mpr ⟨x, hx, he⟩)
          simpa using hne
        rw [List.filter_cons_of_neg (by simp), hall]
      · have hne : head.id ≠ leaf.id := fun he => h.1 (List.mem_map.mpr ⟨leaf, hrest, he.symm⟩)
        rw [List.filter_cons_of_pos (by simpa using hne)]
        exact ((ih h.2 hrest).cons head).trans (List.Perm.swap _ _ _)

/-! ### The loop -/

variable {S : Sdk} {o : Operators S} {w w' : Wallet} {done todo : List Nat} {rounds rest : Nat}

/-- The split that `ensure_denominated_liquidity` makes next. -/
def denominationPlan (S : Sdk) (amounts : List Nat) (available : List TreeNode) :
    Except String (TreeNode × List Nat) :=
  match planDenominationSplit available amounts S.minimumSplitChildSats with
  | some (parent, neededSats, changeSats) => .ok (parent, [neededSats, changeSats])
  | none => .error (Spark.liquidityError
      ("swap denominations cannot be produced without creating a child below the " ++
        "configured split floor"))

/-- Its loop. -/
def denominationLoop (S : Sdk) (rounds : Nat) (amounts : List Nat) : Nat → Ssp S Unit :=
  splitUntil S rounds (fun available => S.selectsExactly available amounts)
    (denominationPlan S amounts) "denomination split reconciliation exceeded its progress limit"

theorem ensureDenominatedLiquidity_eq (S : Sdk) (rounds : Nat) (amounts : List Nat) :
    ensureDenominatedLiquidity S rounds amounts = (do
      recoverIncompleteSplits S rounds
      denominationLoop S rounds amounts 32) := rfl

/-- The amounts that are done have their leaves, and one more leaf is worth the other ones. -/
structure Serving (o : Operators S) (w : Wallet) (done todo : List Nat) (rest : Nat) : Prop where
  values : (w.leaves.map (·.value)).Perm (rest :: done)
  covers : todo.sum + S.minimumSplitChildSats ≤ rest
  idle : w.Idle o (2 * todo.length)

theorem Serving.next {d : Nat} (h : Serving o w done (d :: todo) rest)
    (hfloor : 0 < S.minimumSplitChildSats) (hamounts : amounts = done ++ d :: todo)
    (hpositive : 0 ∉ amounts) (habove : ∀ amount ∈ amounts, S.minimumSplitChildSats ≤ amount)
    {available : List TreeNode} (havailable : (valuesOf available).Perm (w.leaves.map (·.value))) :
    NextSplit (valuesOf available) amounts S.minimumSplitChildSats d rest := by
  have hperm := havailable.trans h.values
  have hcovers := h.covers
  rw [List.sum_cons] at hcovers
  refine ⟨hfloor, hpositive, habove d (by simp [hamounts]), by omega, done, todo, hamounts, ?_, ?_,
    ?_, ?_⟩
  · exact (List.sublist_cons_self rest done).subperm.trans hperm.symm.subperm
  · rw [hperm.count_eq, List.count_cons_of_ne (by omega)]
  · rw [hperm.count_eq, List.count_cons_self]
    exact Nat.lt_succ_self _
  · intro v _ hcount
    rw [hperm.count_eq, List.count_cons] at hcount
    by_cases hv : rest = v
    · exact Nat.le_of_eq hv
    · rw [if_neg (by simpa using hv)] at hcount
      exact absurd hcount (Nat.lt_irrefl _)

/-- The amounts are not served as long as one of them has no leaf. -/
theorem Serving.not_serveable {d : Nat} (h : Serving o w done (d :: todo) rest)
    (hfloor : 0 < S.minimumSplitChildSats) (hamounts : amounts = done ++ d :: todo)
    (hpositive : 0 ∉ amounts) {available : List TreeNode}
    (havailable : (valuesOf available).Perm (w.leaves.map (·.value))) :
    ¬ Serveable available amounts := by
  intro hserve
  have hperm := havailable.trans h.values
  have hcovers := h.covers
  have hsum : (valuesOf available).sum = rest + done.sum := by
    rw [hperm.sum_eq, List.sum_cons]
  have hlt := hserve.length_lt hpositive (by
    rw [hamounts, List.sum_append, hsum]
    omega)
  have hlen := hperm.length_eq
  rw [valuesOf, List.length_map, List.length_cons] at hlen
  rw [hamounts, List.length_append, List.length_cons] at hlt
  omega

/-- After the split one amount more has its leaf. -/
theorem Serving.split {d : Nat} (h : Serving o w done (d :: todo) rest) {parent : TreeNode}
    (hvalue : parent.value = rest) (hparent : (parent.id, parent.value) ∈
      w.leaves.map fun leaf => (leaf.id, leaf.value))
    (hsplit : SplitInto o parent [d, rest - d] w w') (hidle : w'.Idle o (2 * todo.length)) :
    Serving o w' (done ++ [d]) todo (rest - d) := by
  obtain ⟨leaf, hleaf, he⟩ := List.mem_map.mp hparent
  obtain ⟨hid, hval⟩ := Prod.mk.inj he
  have hcovers := h.covers
  rw [List.sum_cons] at hcovers
  have hids : (w.leaves.map (·.id)).Nodup := by
    have hdistinct := List.Nodup.of_map _ h.idle.distinct
    exact (List.nodup_append.mp hdistinct).1
  have hrest : ((w.leaves.filter (·.id != parent.id)).map (·.value)).Perm done := by
    have hout := (perm_cons_filter hids hleaf).map (·.value)
    rw [List.map_cons, hval, hvalue, hid] at hout
    exact (hout.symm.trans h.values).cons_inv
  refine ⟨?_, by omega, hidle⟩
  rw [hsplit.leaves, List.map_append]
  show (_ ++ [d, rest - d]).Perm _
  apply (hrest.append_right [d, rest - d]).trans
  rw [show done ++ [d, rest - d] = done ++ [d] ++ [rest - d] by simp]
  exact List.perm_append_singleton _ _

/-- A round lists the leaves, smaller ones first. -/
theorem splitUntil_listed (hkeyshares : ∀ leaf ∈ w.leaves, leaf.signingKeyshare ≠ none)
    (serves : List TreeNode → Bool) (plan : List TreeNode → Except String (TreeNode × List Nat))
    (exceeded : String) (tries : Nat) :
    ∃ available, (available.map fun tree => (tree.id, tree.value)).Perm
        (w.leaves.map fun leaf => (leaf.id, leaf.value)) ∧
      Act.eval o.answer (splitUntil S rounds serves plan exceeded (tries + 1)) w =
        Act.eval o.answer (if serves available then return () else do
          let split ← Act.ofExcept (plan available)
          executeLeafSplit S rounds split.1 split.2
          sync
          splitUntil S rounds serves plan exceeded tries) w := by
  obtain ⟨trees, hmap, hsame⟩ := listed hkeyshares
  refine ⟨sortLeaves trees, ?_, ?_⟩
  · rw [← hsame]
    exact (List.mergeSort_perm _ _).map _
  · rw [splitUntil, Act.eval_bind_ok eval_listLeaves, hmap, Act.eval_bind_ok (Act.eval_ofExcept _)]

/-- The values that are listed. -/
theorem listed_values {available : List TreeNode} {leaves : List WalletLeaf}
    (h : (available.map fun tree => (tree.id, tree.value)).Perm
      (leaves.map fun leaf => (leaf.id, leaf.value))) :
    (valuesOf available).Perm (leaves.map (·.value)) := by
  have hvalues := h.map Prod.snd
  rw [List.map_map, List.map_map] at hvalues
  exact hvalues

/-- As many splits as there are amounts without a leaf, if the loop can look once more. -/
theorem denominationLoop_eval (hselects : SelectsExactly S) (hservice : S.splitService = true)
    (hrounds : 4 ≤ rounds) (hfloor : 0 < S.minimumSplitChildSats) (hpositive : 0 ∉ amounts)
    (habove : ∀ amount ∈ amounts, S.minimumSplitChildSats ≤ amount) (tries : Nat) :
    ∀ {done todo : List Nat} {rest : Nat} {w : Wallet}, amounts = done ++ todo →
      Serving o w done todo rest →
      ∃ w', Act.eval o.answer (denominationLoop S rounds amounts tries) w =
          (if todo.length < tries then .ok ()
            else .error "denomination split reconciliation exceeded its progress limit", w') ∧
        (todo.length < tries → Matched w'.leaves amounts) := by
  induction tries with
  | zero => exact fun _ _ => ⟨_, rfl, fun h => absurd h (Nat.not_lt_zero _)⟩
  | succ tries ih =>
      intro done todo rest w hamounts h
      obtain ⟨available, havailable, heval⟩ := splitUntil_listed (o := o) h.idle.keyshares
        (fun available => S.selectsExactly available amounts) (denominationPlan S amounts)
        "denomination split reconciliation exceeded its progress limit" tries
      have hvalues := listed_values havailable
      rw [denominationLoop, heval]
      rcases todo with - | ⟨d, todo⟩
      · -- every amount has its leaf
        rw [List.append_nil] at hamounts
        have hsub : amounts.Subperm (w.leaves.map (·.value)) := by
          rw [hamounts]
          exact (List.sublist_cons_self rest done).subperm.trans h.values.symm.subperm
        have hserves : S.selectsExactly available amounts = true :=
          (hselects _ _).mpr (serveable_of_subperm (hsub.trans hvalues.symm.subperm))
        refine ⟨w, ?_, fun _ => hsub⟩
        rw [if_pos hserves, if_pos (show ([] : List Nat).length < tries + 1 from Nat.succ_pos _)]
        rfl
      · have hserves : ¬ S.selectsExactly available amounts = true :=
          fun hs => h.not_serveable hfloor hamounts hpositive hvalues ((hselects _ _).mp hs)
        obtain ⟨parent, hplan, hvalue⟩ := (h.next hfloor hamounts hpositive habove hvalues).planned
        have hmem := (planDenominationSplit_some hplan).1
        have hparent : (parent.id, parent.value) ∈ w.leaves.map fun leaf => (leaf.id, leaf.value) :=
          havailable.subset (List.mem_map.mpr ⟨parent, hmem, rfl⟩)
        have hidle : w.Idle o ([d, rest - d].length + 2 * todo.length) := by
          have hidle := h.idle
          rw [List.length_cons, Nat.mul_add, Nat.add_comm] at hidle
          exact hidle
        obtain ⟨leaf, hleaf, he⟩ := List.mem_map.mp hparent
        obtain ⟨w₁, hsplit, hinto, hidle₁⟩ := executeLeafSplit_eval hservice hrounds
          (List.cons_ne_nil _ _) hidle (List.mem_map.mpr ⟨leaf, hleaf, (Prod.mk.inj he).1⟩)
        have hserving := h.split hvalue hparent hinto hidle₁
        obtain ⟨w', hrest, hmatched⟩ := ih (by simp [hamounts]) hserving
        refine ⟨w', ?_, fun hlt => hmatched (by simpa using hlt)⟩
        rw [if_neg hserves]
        rw [denominationPlan, hplan]
        rw [Act.eval_bind_ok (Act.eval_ofExcept _), Act.eval_bind_ok hsplit,
          Act.eval_bind_ok eval_sync, List.length_cons]
        simp only [Nat.add_lt_add_iff_right]
        exact hrest

/-! ### The whole call -/

/-- With no split in flight there is nothing to recover. -/
theorem recoverIncompleteSplits_eval {n : Nat} (hidle : w.Idle o n) :
    Act.eval o.answer (recoverIncompleteSplits S rounds) w = (.ok (), w) := by
  have hnone : w.db.incompleteSparkSplits = [] := by
    have hfilter : w.db.splits.rows.filter (·.status != .completed) = [] := by
      apply List.filter_eq_nil_iff.mpr
      intro r hr
      simp [hidle.completed r hr]
    rw [Db.incompleteSparkSplits, hfilter, List.mergeSort_nil]
    rfl
  have hrun : Query.incompleteSparkSplits.run w.now w.db = .ok ([], w.db) := by
    show Except.ok (w.db.incompleteSparkSplits, w.db) = _
    rw [hnone]
  rw [recoverIncompleteSplits]
  split
  · rfl
  · rw [Act.eval_bind_ok (eval_db hrun)]
    rfl

variable {leaf : WalletLeaf}

/-- When splits can be made, 31 amounts are served, and no more. -/
theorem ensureDenominatedLiquidity_eval (hselects : SelectsExactly S)
    (hservice : S.splitService = true) (hrounds : 4 ≤ rounds)
    (hfloor : 0 < S.minimumSplitChildSats) (hleaf : w.leaves = [leaf]) (hpositive : 0 ∉ amounts)
    (habove : ∀ amount ∈ amounts, S.minimumSplitChildSats ≤ amount)
    (hvalue : amounts.sum + S.minimumSplitChildSats ≤ leaf.value)
    (hidle : w.Idle o (2 * amounts.length)) :
    ∃ w', Act.eval o.answer (ensureDenominatedLiquidity S rounds amounts) w =
        (if amounts.length < 32 then .ok ()
          else .error "denomination split reconciliation exceeded its progress limit", w') ∧
      (amounts.length < 32 → Matched w'.leaves amounts) := by
  have hserving : Serving o w [] amounts leaf.value :=
    ⟨by rw [hleaf]; exact List.Perm.refl _, hvalue, hidle⟩
  rw [ensureDenominatedLiquidity_eq, Act.eval_bind_ok (recoverIncompleteSplits_eval hidle)]
  exact denominationLoop_eval hselects hservice hrounds hfloor hpositive habove 32 rfl hserving

/-- The call succeeds, and each amount has a leaf of its own. -/
def ServesSwap (o : Operators S) (rounds : Nat) (w : Wallet) (amounts : List Nat) : Prop :=
  ∃ w', Act.eval o.answer (ensureDenominatedLiquidity S rounds amounts) w = (.ok (), w') ∧
    Matched w'.leaves amounts

theorem counterAmounts_positive {targets : List Nat} (change : Nat) (h : 0 ∉ targets) :
    0 ∉ counterAmounts targets change := by
  unfold counterAmounts
  split
  · next hchange =>
      intro hmem
      rcases List.mem_append.mp hmem with htarget | hzero
      · exact h htarget
      · exact absurd (List.mem_singleton.mp hzero) (Nat.ne_of_lt hchange)
  · exact h

theorem counterAmounts_ne_nil {targets : List Nat} (change : Nat) (h : targets ≠ []) :
    counterAmounts targets change ≠ [] := by
  unfold counterAmounts
  split
  · exact List.append_ne_nil_of_left_ne_nil h _
  · exact h

/-- Without splits the one leaf serves the amounts only as it is. -/
theorem ensureDenominatedLiquidity_unsplit {n : Nat} (hselects : SelectsExactly S)
    (hleaf : w.leaves = [leaf]) (hne : amounts ≠ [])
    (hvalue : amounts.sum + S.minimumSplitChildSats ≤ leaf.value) (hidle : w.Idle o n)
    (hunsplit : S.splitService = false ∨ S.minimumSplitChildSats = 0) :
    ServesSwap o rounds w amounts ↔
      S.minimumSplitChildSats = 0 ∧ amounts = [leaf.value] := by
  obtain ⟨available, havailable, heval⟩ := splitUntil_listed (o := o) hidle.keyshares
    (fun available => S.selectsExactly available amounts) (denominationPlan S amounts)
    "denomination split reconciliation exceeded its progress limit" 31
  have hvalues := listed_values havailable
  rw [hleaf] at hvalues
  have hcall : Act.eval o.answer (ensureDenominatedLiquidity S rounds amounts) w = _ :=
    (Act.eval_bind_ok (recoverIncompleteSplits_eval hidle)).trans heval
  by_cases hserves : S.selectsExactly available amounts = true
  · rw [if_pos hserves] at hcall
    constructor
    · rintro ⟨w', hok, hmatched⟩
      obtain ⟨-, rfl⟩ := Prod.mk.inj (hcall.symm.trans hok)
      rw [Matched, hleaf] at hmatched
      -- there is one leaf, so there is one amount
      obtain ⟨amount, rfl⟩ : ∃ amount, amounts = [amount] :=
        List.length_eq_one_iff.mp
          (Nat.le_antisymm hmatched.length_le (List.length_pos_iff.mpr hne))
      have hmem : amount ∈ [leaf.value] := hmatched.subset (List.mem_singleton_self _)
      rw [List.mem_singleton.mp hmem] at hvalue ⊢
      rw [List.sum_singleton] at hvalue
      exact ⟨by omega, rfl⟩
    · rintro ⟨-, rfl⟩
      refine ⟨w, hcall, ?_⟩
      rw [Matched, hleaf]
      exact List.Subperm.refl _
  · rw [if_neg hserves] at hcall
    constructor
    · rintro ⟨w', hok, -⟩
      rw [hcall] at hok
      rcases hplan : denominationPlan S amounts available with e | split
      · rw [hplan, Act.eval_bind_error (Act.eval_ofExcept _)] at hok
        cases (Prod.mk.inj hok).1
      · rcases hunsplit with hservice | hzero
        · have hthrow : Act.eval o.answer (executeLeafSplit S rounds split.1 split.2) w =
              (.error (Spark.liquidityError
                "just-in-time splitting is disabled; configure SSP_OPERATOR_HOSTS"), w) := by
            rw [executeLeafSplit, if_pos (by simp [hservice])]
            rfl
          rw [hplan, Act.eval_bind_ok (Act.eval_ofExcept _), Act.eval_bind_error hthrow] at hok
          cases (Prod.mk.inj hok).1
        · have hnone : planDenominationSplit available amounts S.minimumSplitChildSats = none :=
            if_pos (.inr (.inr hzero))
          rw [denominationPlan, hnone] at hplan
          cases hplan
    · rintro ⟨-, rfl⟩
      exact absurd ((hselects _ _).mpr (serveable_of_subperm hvalues.symm.subperm)) hserves

/-- **Serving a swap from one leaf.**  The call succeeds, and each amount has a leaf of its own,
exactly for up to 31 amounts when splits can be made, or when the leaf is the one amount. -/
theorem ensureDenominatedLiquidity_served (o : Operators S) (hselects : SelectsExactly S)
    (rounds : Nat) (hrounds : 4 ≤ rounds) (w : Wallet) (leaf : WalletLeaf)
    (hleaf : w.leaves = [leaf]) (targets : List Nat) (change : Nat) (htargets : targets ≠ [])
    (hpositive : 0 ∉ targets)
    (habove : ∀ amount ∈ counterAmounts targets change, S.minimumSplitChildSats ≤ amount)
    (hvalue : (counterAmounts targets change).sum + S.minimumSplitChildSats ≤ leaf.value)
    (hidle : w.Idle o (2 * (counterAmounts targets change).length)) :
    ServesSwap o rounds w (counterAmounts targets change) ↔
      (S.splitService = true ∧ 0 < S.minimumSplitChildSats ∧
        (counterAmounts targets change).length ≤ 31) ∨
      (S.minimumSplitChildSats = 0 ∧ counterAmounts targets change = [leaf.value]) := by
  have hne := counterAmounts_ne_nil change htargets
  have hpositive := counterAmounts_positive change hpositive
  -- with splitting each round produces one amount, without it the wallet stays as it is
  by_cases hsplit : S.splitService = true ∧ 0 < S.minimumSplitChildSats
  · obtain ⟨hservice, hfloor⟩ := hsplit
    obtain ⟨w', heval, hmatched⟩ := ensureDenominatedLiquidity_eval hselects hservice hrounds
      hfloor hleaf hpositive habove hvalue hidle
    constructor
    · rintro ⟨w'', hok, -⟩
      rw [heval] at hok
      left
      refine ⟨hservice, hfloor, ?_⟩
      -- one round for each amount and one to see that all are there: 32 rounds serve 31 amounts
      by_contra hmany
      rw [if_neg (by omega)] at hok
      cases (Prod.mk.inj hok).1
    · rintro (⟨-, -, hfew⟩ | ⟨hzero, -⟩)
      · rw [if_pos (by omega)] at heval
        exact ⟨w', heval, hmatched (by omega)⟩
      · omega
  · rw [ensureDenominatedLiquidity_unsplit hselects hleaf hne hvalue hidle]
    · constructor
      · exact .inr
      · rintro (⟨hservice, hfloor, -⟩ | h)
        · exact absurd ⟨hservice, hfloor⟩ hsplit
        · exact h
    · rcases hservice : S.splitService with - | -
      · exact .inl rfl
      · exact .inr (Nat.eq_zero_of_not_pos fun hfloor => hsplit ⟨hservice, hfloor⟩)

/-! ### An SDK that does what it is asked -/

/-- Leaves are set apart by trying every part. -/
def serves (leaves : List TreeNode) : List Nat → Bool
  | [] => true
  | amount :: amounts => leaves.sublists.any fun part =>
      (valuesOf part).sum == amount && serves (leaves.diff part) amounts

theorem serves_iff : serves leaves amounts = true ↔ Serveable leaves amounts := by
  induction amounts generalizing leaves with
  | nil =>
      constructor
      · exact fun _ => ⟨[], List.nil_subperm, rfl⟩
      · exact fun _ => rfl
  | cons amount amounts ih =>
      simp only [serves, List.any_eq_true, List.mem_sublists, Bool.and_eq_true, beq_iff_eq, ih]
      constructor
      · rintro ⟨part, hpart, rfl, parts, hsub, rfl⟩
        refine ⟨part :: parts, ?_, rfl⟩
        rw [← Multiset.coe_le] at hsub ⊢
        rw [← Multiset.coe_sub] at hsub
        rw [List.flatten_cons, ← Multiset.coe_add]
        exact (le_tsub_iff_left (Multiset.coe_le.mpr hpart.subperm)).mp hsub
      · rintro ⟨parts, hsub, hparts⟩
        rcases parts with - | ⟨part, parts⟩
        · cases hparts
        · obtain ⟨rfl, rfl⟩ := List.cons.inj hparts
          rw [List.flatten_cons] at hsub
          -- the part, in the order of the leaves
          obtain ⟨part', hperm, hpart'⟩ :=
            (List.sublist_append_left part parts.flatten).subperm.trans hsub
          refine ⟨part', hpart', (hperm.map TreeNode.value).sum_eq, parts, ?_, rfl⟩
          rw [← Multiset.coe_le] at hsub ⊢
          rw [← Multiset.coe_add] at hsub
          rw [← Multiset.coe_sub, Multiset.coe_eq_coe.mpr hperm]
          exact le_tsub_of_add_le_left hsub

/-- The characters of a text, as numbers. -/
def codes (text : String) : List Nat := text.toList.map Char.toNat

def ofCodes (codes : List Nat) : String := String.ofList (codes.map Char.ofNat)

theorem ofCodes_codes (text : String) : ofCodes (codes text) = text := by
  have hid : (Char.ofNat ∘ Char.toNat) = id := by
    funext c
    exact Char.ofNat_toNat c
  rw [ofCodes, codes, List.map_map, hid, List.map_id, String.ofList_toList]

/-- A split as a number. -/
def SplitIntent.encode (i : SplitIntent) : Nat :=
  Encodable.encode (codes i.operationId, codes i.parent.id, i.parent.value,
    codes i.parent.signingKeyshare, i.childValues)

def SplitIntent.decode (n : Nat) : Option SplitIntent :=
  (Encodable.decode (α := List Nat × List Nat × Nat × List Nat × List Nat) n).map
    fun (operationId, id, value, signingKeyshare, childValues) =>
      { operationId := ofCodes operationId, childValues,
        parent := { id := ofCodes id, value, signingKeyshare := ofCodes signingKeyshare } }

theorem SplitIntent.decode_encode (i : SplitIntent) : SplitIntent.decode i.encode = some i := by
  rw [decode, encode, Encodable.encodek, Option.map_some]
  simp only [ofCodes_codes]

def bytesOf (n : Nat) : List UInt8 := (Nat.digits 256 n).map UInt8.ofNat

def ofBytes (bytes : List UInt8) : Nat := Nat.ofDigits 256 (bytes.map UInt8.toNat)

theorem ofBytes_bytesOf (n : Nat) : ofBytes (bytesOf n) = n := by
  have hdigits : (Nat.digits 256 n).map (UInt8.toNat ∘ UInt8.ofNat) = Nat.digits 256 n := by
    apply (List.map_congr_left fun d hd => ?_).trans (List.map_id _)
    have hlt : d < 256 := Nat.digits_lt_base (by decide) hd
    show (UInt8.ofNat d).toNat = d
    rw [UInt8.toNat_ofNat']
    exact Nat.mod_eq_of_lt hlt
  rw [ofBytes, bytesOf, List.map_map, hdigits, Nat.ofDigits_digits]

/-- Every stage object is the split itself. -/
def exactSdk (floor : Nat) : Sdk where
  Draft := SplitIntent
  Plan := SplitIntent
  Submitted := SplitIntent
  encodeDraft i := .ok (bytesOf i.encode)
  decodeDraft b := okOr "invalid split" (SplitIntent.decode (ofBytes b))
  encodePlan i := .ok (bytesOf i.encode)
  decodePlan b := okOr "invalid split" (SplitIntent.decode (ofBytes b))
  encodeSubmitted i := .ok (bytesOf i.encode)
  decodeSubmitted b := okOr "invalid split" (SplitIntent.decode (ofBytes b))
  selectsExactly := serves
  minimumSplitChildSats := floor
  splitService := true

theorem exactSdk_selects (floor : Nat) : SelectsExactly (exactSdk floor) := fun _ _ => serves_iff

theorem exact_decodes (i : SplitIntent) : ∃ b, Except.ok (ε := String) (bytesOf i.encode) = .ok b ∧
    okOr "invalid split" (SplitIntent.decode (ofBytes b)) = .ok i := by
  refine ⟨_, rfl, ?_⟩
  rw [ofBytes_bytesOf, SplitIntent.decode_encode]
  rfl

/-- Operators that number the leaves. -/
def exactOperators (floor : Nat) : Operators (exactSdk floor) where
  draft := id
  plan i _ := i
  submitted := id
  planned := id
  split := id
  encryptedKeys i := i.childValues.map fun _ => [1]
  nodeId n := toString n
  signingKeyshare _ := ""
  planned_draft _ := rfl
  split_submitted _ := rfl
  keys_length i := List.length_map _
  keys_nonempty i := by simp
  draft_decodes := exact_decodes
  plan_decodes := exact_decodes
  submitted_decodes := exact_decodes

/-- A wallet of one leaf. -/
def oneLeaf (value : Nat) : Wallet where
  leaves := [⟨"leaf", value, some ""⟩]
  issued := 0
  now := 0
  db := .empty

/-- A wallet that has made no split. -/
theorem idle_of_empty {o : Operators S} {w : Wallet} {n : Nat} (hdb : w.db = .empty)
    (hkeyshares : ∀ leaf ∈ w.leaves, leaf.signingKeyshare ≠ none) (hnamed : "" ∉ w.ids o n)
    (hdistinct : ((w.ids o n).map splitOperationId).Nodup) : w.Idle o n := by
  refine ⟨?_, ?_, hkeyshares, hnamed, hdistinct, fun _ _ => ?_⟩
  · rw [hdb]
    nofun
  · rw [hdb]
    rfl
  · rw [hdb]
    nofun

theorem oneLeaf_idle {floor value n : Nat}
    (hnamed : "" ∉ (oneLeaf value).ids (exactOperators floor) n)
    (hdistinct : (((oneLeaf value).ids (exactOperators floor) n).map splitOperationId).Nodup) :
    (oneLeaf value).Idle (exactOperators floor) n :=
  idle_of_empty rfl (by simp [oneLeaf]) hnamed hdistinct

/-- Three amounts and a change of 400 are served from one leaf. -/
theorem ensureDenominatedLiquidity_served_change :
    counterAmounts [500, 330, 500] 400 = [500, 330, 500, 400] ∧
    ServesSwap (exactOperators 330) 4 (oneLeaf 2500) (counterAmounts [500, 330, 500] 400) := by
  have hidle : (oneLeaf 2500).Idle (exactOperators 330)
      (2 * (counterAmounts [500, 330, 500] 400).length) :=
    oneLeaf_idle (by decide +kernel) (by decide +kernel)
  refine ⟨rfl, ?_⟩
  exact (ensureDenominatedLiquidity_served (exactOperators 330) (exactSdk_selects 330) 4
    (Nat.le_refl 4) (oneLeaf 2500) _ rfl [500, 330, 500] 400 (by decide) (by decide) (by decide)
    (by decide) hidle).mpr (.inl ⟨rfl, by decide, by decide⟩)

/-- Thirty-two targets of 330 are more than the loop has rounds for. -/
theorem ensureDenominatedLiquidity_exceeded :
    ¬ ∀ (S : Sdk) (o : Operators S), SelectsExactly S → S.splitService = true →
      0 < S.minimumSplitChildSats → ∀ rounds ≥ 4, ∀ (w : Wallet) (leaf : WalletLeaf),
      w.leaves = [leaf] → ∀ (targets : List Nat) (change : Nat), targets ≠ [] →
      targets.length ≤ 32 → 0 ∉ targets →
      (∀ amount ∈ counterAmounts targets change, S.minimumSplitChildSats ≤ amount) →
      (counterAmounts targets change).sum + S.minimumSplitChildSats ≤ leaf.value →
      w.Idle o (2 * (counterAmounts targets change).length) →
      ServesSwap o rounds w (counterAmounts targets change) := by
  intro h
  let targets := List.replicate 32 330
  have hidle : (oneLeaf 10890).Idle (exactOperators 330) (2 * (counterAmounts targets 0).length) :=
    oneLeaf_idle (by decide +kernel) (by decide +kernel)
  have hpositive : 0 ∉ targets := by decide
  have habove : ∀ amount ∈ counterAmounts targets 0, 330 ≤ amount := by decide
  have hvalue : (counterAmounts targets 0).sum + 330 ≤ 10890 := by decide
  obtain ⟨w', hok, -⟩ := h (exactSdk 330) (exactOperators 330) (exactSdk_selects 330) rfl (by decide)
    4 (Nat.le_refl 4) (oneLeaf 10890) _ rfl targets 0 (by decide) (by decide) hpositive habove hvalue
    hidle
  obtain ⟨w'', heval, -⟩ := ensureDenominatedLiquidity_eval (exactSdk_selects 330) rfl
    (Nat.le_refl 4) (by decide) (show (oneLeaf 10890).leaves = [_] from rfl)
    (counterAmounts_positive 0 hpositive) habove hvalue hidle
  rw [heval, if_neg (by decide)] at hok
  cases (Prod.mk.inj hok).1

end OpenSsp.LeafSplit
