/-
OpenSsp/LeafPlan.lean

Planning a leaf split (`spark.rs`): when the whole leaves of the wallet cannot pay exactly,
one leaf is split into a child that is needed and a child for the change.

* `planJustInTimeSplit` serves one amount, together with leaves that exist already;
* `planDenominationSplit` makes the first requested denomination that is missing.

Values are `u64`: sums that overflow are not taken.
-/
import Mathlib.Data.List.Sort
import OpenSsp.Deployment

namespace OpenSsp

/-- A leaf as the wallet lists it. -/
structure WalletLeaf where
  id : String
  value : Nat
  signingKeyshare : Option String
deriving DecidableEq

structure TreeNode where
  id : String
  value : Nat
  signingKeyshare : String
deriving DecidableEq

def walletLeafToTreeNode (leaf : WalletLeaf) : Except String TreeNode := do
  let signingKeyshare ← okOr "available Spark leaf has no signing keyshare" leaf.signingKeyshare
  return { id := leaf.id, value := leaf.value, signingKeyshare }

structure JustInTimeSplit where
  selected : List TreeNode
  parent : TreeNode
  neededSats : Nat
  changeSats : Nat
deriving DecidableEq

/-- Take the leaves in order, each one that still fits below the maximum. -/
def selectExisting (maximum : Nat) (candidates : List TreeNode) : List TreeNode × Nat :=
  candidates.foldl (fun taken candidate =>
    match checkedAdd taken.2 candidate.value with
    | some next => if next ≤ maximum then (taken.1 ++ [candidate], next) else taken
    | none => taken) ([], 0)

/-- The plan that splits the leaf at this index. -/
def planWithParent (leaves : List TreeNode) (targetSats minimumChildSats parentIndex : Nat)
    (parent : TreeNode) : Option JustInTimeSplit := do
  let candidates := (leaves.eraseIdx parentIndex).mergeSort fun a b => b.value ≤ a.value
  let selected := selectExisting (targetSats - minimumChildSats) candidates
  let neededSats := targetSats - selected.2
  let changeSats ← checkedSub parent.value neededSats
  if neededSats < minimumChildSats ∨ changeSats < minimumChildSats then none
  else some { selected := selected.1, parent, neededSats, changeSats }

/-- Less change, then fewer leaves, then the smaller parent. -/
def JustInTimeSplit.betterThan (plan current : JustInTimeSplit) : Bool :=
  plan.changeSats < current.changeSats ||
    plan.changeSats == current.changeSats &&
      (plan.selected.length < current.selected.length ||
        plan.selected.length == current.selected.length &&
          plan.parent.value < current.parent.value)

def planJustInTimeSplit (leaves : List TreeNode) (targetSats minimumChildSats : Nat) :
    Option JustInTimeSplit :=
  if targetSats = 0 ∨ minimumChildSats = 0 then none
  else
    leaves.zipIdx.foldl (fun best parent =>
      match planWithParent leaves targetSats minimumChildSats parent.2 parent.1 with
      | some plan => if best.all plan.betterThan then some plan else best
      | none => best) none

/-- Match denominations with whole leaves, in order, up to the first that has none; answers it
with the leaves that are left. -/
def missingDenomination : List TreeNode → List Nat → Option (Nat × List TreeNode)
  | _, [] => none
  | remaining, denomination :: denominations =>
      match remaining.findIdx? (·.value == denomination) with
      | some index => missingDenomination (remaining.eraseIdx index) denominations
      | none => some (denomination, remaining)

def planDenominationSplit (leaves : List TreeNode) (denominations : List Nat)
    (minimumChildSats : Nat) : Option (TreeNode × Nat × Nat) :=
  if denominations = [] ∨ 0 ∈ denominations ∨ minimumChildSats = 0 then none
  else
    match missingDenomination leaves denominations with
    | none => none
    | some (missing, remaining) =>
        if missing < minimumChildSats then none
        else
          -- `min_by_key` keeps the first of equals
          remaining.foldl (fun best parent =>
            match checkedSub parent.value missing with
            | some change =>
                if minimumChildSats ≤ change ∧
                    best.all fun b => change < b.2.2 || change == b.2.2 && parent.value < b.1.value
                then some (parent, missing, change) else best
            | none => best) none

end OpenSsp
