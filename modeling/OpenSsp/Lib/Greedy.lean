/-
OpenSsp/Lib/Greedy.lean

Two greedy loops over a list.

* `fill` takes amounts in the order of the list, each one that still has room.  On a list
  that falls, `LargestFirst` says what comes out without saying how it is found: what is taken
  has room, and what is left out would have none next to the taken amounts that are at least as
  large.  There is one such selection.
* `bestOf` keeps the first of the best candidates it has met.

Main results: `fill_largestFirst` and `LargestFirst.sum_eq`; `bestOf_eq_none`, `bestOf_mem` and
`bestOf_le`.
-/
import Mathlib.Algebra.GroupWithZero.Nat
import Mathlib.Data.List.Basic
import Mathlib.Data.List.Perm.Basic

namespace Interleave

/-! ### Filling -/

/-- Take each value that still fits, in the order of the list. -/
def fill : Nat → List Nat → List Nat
  | _, [] => []
  | room, a :: l => if a ≤ room then a :: fill (room - a) l else fill room l

/-- What a selection from the largest amount down leaves out has no room next to what it had taken
by then. -/
structure LargestFirst (room : Nat) (taken left : List Nat) : Prop where
  fits : taken.sum ≤ room
  full : ∀ b ∈ left, room < b + (taken.filter (b ≤ ·)).sum

variable {room a : Nat} {l taken left : List Nat}

/-- What is taken from a list in falling order is the largest that fits at each point. -/
theorem fill_largestFirst (room : Nat) (hl : l.Pairwise (· ≥ ·)) :
    ∃ left, (fill room l ++ left).Perm l ∧ LargestFirst room (fill room l) left := by
  induction l generalizing room with
  | nil => exact ⟨[], .nil, ⟨Nat.zero_le _, by simp⟩⟩
  | cons a l ih =>
      obtain ⟨hhead, htail⟩ := List.pairwise_cons.mp hl
      unfold fill
      split
      · next hroom =>
          obtain ⟨left, hperm, hfits, hfull⟩ := ih (room - a) htail
          refine ⟨left, hperm.cons a, ?_, fun b hb => ?_⟩
          · rw [List.sum_cons]
            omega
          · have hba : b ≤ a := hhead b (hperm.mem_iff.mp (List.mem_append_right _ hb))
            have hb := hfull b hb
            rw [List.filter_cons_of_pos (by simpa using hba), List.sum_cons]
            omega
      · next hroom =>
          obtain ⟨left, hperm, hfits, hfull⟩ := ih room htail
          refine ⟨a :: left, List.perm_middle.trans (hperm.cons a), hfits, fun b hb => ?_⟩
          rcases List.mem_cons.mp hb with rfl | hb
          · omega
          · exact hfull b hb

/-- A value at the top of what was offered is taken when it fits. -/
theorem LargestFirst.mem (h : LargestFirst room taken left) (ha : a ≤ room)
    (hmem : a ∈ taken ++ left) (hmax : ∀ b ∈ taken, b ≤ a) : a ∈ taken := by
  rcases List.mem_append.mp hmem with htaken | hleft
  · exact htaken
  · -- it was left out for another one of its size
    have hfull := h.full a hleft
    by_contra hnot
    have hnone : taken.filter (a ≤ ·) = [] := by
      apply List.filter_eq_nil_iff.mpr
      intro b hb hab
      have hab : a ≤ b := by simpa using hab
      exact hnot (Nat.le_antisymm hab (hmax b hb) ▸ hb)
    rw [hnone, List.sum_nil] at hfull
    omega

/-- The largest amount is taken when it has room; the rest fills what it leaves. -/
theorem LargestFirst.erase (h : LargestFirst room taken left) (ha : a ∈ taken)
    (hmax : ∀ b ∈ left, b ≤ a) : LargestFirst (room - a) (taken.erase a) left := by
  have hperm := List.perm_cons_erase ha
  have hsum : taken.sum = a + (taken.erase a).sum := by rw [hperm.sum_nat, List.sum_cons]
  have hfits := h.fits
  constructor
  · omega
  · intro b hb
    have hfull := h.full b hb
    have hfilter : (taken.filter (b ≤ ·)).sum = a + ((taken.erase a).filter (b ≤ ·)).sum := by
      rw [(hperm.filter _).sum_nat, List.filter_cons_of_pos (by simpa using hmax b hb),
        List.sum_cons]
    omega

/-- There is one selection from the largest amount down. -/
theorem LargestFirst.sum_eq (h : LargestFirst room taken left) (hl : l.Pairwise (· ≥ ·))
    (hperm : (taken ++ left).Perm l) : taken.sum = (fill room l).sum := by
  induction l generalizing room taken left with
  | nil =>
      obtain ⟨rfl, -⟩ := List.append_eq_nil_iff.mp hperm.eq_nil
      rfl
  | cons a l ih =>
      obtain ⟨hhead, htail⟩ := List.pairwise_cons.mp hl
      -- the list is sorted, so its head is the largest of all
      have hmax : ∀ b ∈ taken ++ left, b ≤ a := by
        intro b hb
        rcases List.mem_cons.mp (hperm.mem_iff.mp hb) with rfl | hb
        · exact Nat.le_refl _
        · exact hhead b hb
      have hmem : a ∈ taken ++ left := hperm.mem_iff.mpr List.mem_cons_self
      unfold fill
      split
      · next hroom =>
          -- it fits: then a largest first choice has it, or one of the same size
          have ha := h.mem hroom hmem fun b hb => hmax b (List.mem_append_left _ hb)
          have hrest : (taken.erase a ++ left).Perm l := by
            apply List.Perm.cons_inv (a := a)
            exact ((List.perm_cons_erase ha).symm.append_right left).trans hperm
          rw [(List.perm_cons_erase ha).sum_nat, List.sum_cons, List.sum_cons,
            ih (h.erase ha fun b hb => hmax b (List.mem_append_right _ hb)) htail hrest]
      · next hroom =>
          -- it does not fit, so no choice has it
          have hnot : a ∉ taken := fun ha => by
            have hsum := (List.perm_cons_erase ha).sum_nat
            have hfits := h.fits
            rw [List.sum_cons] at hsum
            omega
          have ha : a ∈ left := (List.mem_append.mp hmem).resolve_left hnot
          have hrest : (taken ++ left.erase a).Perm l := by
            apply List.Perm.cons_inv (a := a)
            refine List.perm_middle.symm.trans (List.Perm.trans ?_ hperm)
            exact (List.perm_cons_erase ha).symm.append_left taken
          exact ih ⟨h.fits, fun b hb => h.full b (List.mem_of_mem_erase hb)⟩ htail hrest

/-! ### The first best -/

section best

variable {α β : Type} {f : α → Option β} {better : β → β → Bool}

/-- One more candidate. -/
def bestStep (f : α → Option β) (better : β → β → Bool) (best : Option β) (x : α) : Option β :=
  match f x with
  | some b => if best.all (better b) then some b else best
  | none => best

/-- The best of the results that `f` gives on the list. -/
def bestOf (f : α → Option β) (better : β → β → Bool) (l : List α) : Option β :=
  l.foldl (bestStep f better) none

/-- There is no best without any result. -/
theorem foldl_bestStep_none {l : List α} {best : Option β} :
    l.foldl (bestStep f better) best = none ↔ best = none ∧ ∀ x ∈ l, f x = none := by
  induction l generalizing best with
  | nil => simp
  | cons x l ih =>
      rw [List.foldl_cons, ih]
      rcases hx : f x with - | b <;> rcases best with - | c
      · simp [bestStep, hx]
      · simp [bestStep, hx]
      · simp [bestStep, hx]
      · by_cases hb : better b c <;> simp [bestStep, hx, hb]

/-- The best is one of the results. -/
theorem foldl_bestStep_mem {l : List α} {best : Option β} {r : β}
    (h : l.foldl (bestStep f better) best = some r) : best = some r ∨ ∃ x ∈ l, f x = some r := by
  induction l generalizing best with
  | nil => exact .inl h
  | cons x l ih =>
      rcases ih h with hbest | ⟨y, hy, hr⟩
      · unfold bestStep at hbest
        split at hbest
        · next b hb =>
            split at hbest
            · exact .inr ⟨x, List.mem_cons_self, by rw [hb, hbest]⟩
            · exact .inl hbest
        · exact .inl hbest
      · exact .inr ⟨y, List.mem_cons_of_mem _ hy, hr⟩

/-- A candidate is given up for a better one only. -/
theorem foldl_bestStep_better (htrans : ∀ a b c, better a b → better b c → better a c)
    {l : List α} {c r : β} (h : l.foldl (bestStep f better) (some c) = some r) :
    r = c ∨ better r c := by
  induction l generalizing c with
  | nil => exact .inl (Option.some.inj h).symm
  | cons x l ih =>
      rw [List.foldl_cons] at h
      unfold bestStep at h
      split at h
      · next b _ =>
          split at h
          · next hb =>
              have hbc : better b c := hb
              rcases ih h with rfl | hrb
              · exact .inr hbc
              · exact .inr (htrans r b c hrb hbc)
          · exact ih h
      · exact ih h

/-- Nothing before or after in the list is better; by induction on the list. -/
theorem foldl_bestStep_le (htrans : ∀ a b c, better a b → better b c → better a c)
    (hirrefl : ∀ a, better a a = false) {l : List α} {best : Option β} {r : β}
    (h : l.foldl (bestStep f better) best = some r) :
    ∀ x ∈ l, ∀ b, f x = some b → ¬ better b r := by
  induction l generalizing best with
  | nil => exact fun x hx => absurd hx List.not_mem_nil
  | cons x l ih =>
      intro y hy b hb hbr
      rcases List.mem_cons.mp hy with rfl | hy
      · rw [List.foldl_cons] at h
        simp only [bestStep, hb] at h
        split at h
        · -- the candidate was taken
          rcases foldl_bestStep_better htrans h with rfl | hrb
          · simp [hirrefl] at hbr
          · simpa [hirrefl] using htrans b r b hbr hrb
        · next hnot =>
            obtain ⟨c, rfl, hbc⟩ : ∃ c, best = some c ∧ ¬ better b c := by
              rcases best with - | c
              · exact absurd rfl hnot
              · exact ⟨c, rfl, by simpa using hnot⟩
            rcases foldl_bestStep_better htrans h with rfl | hrc
            · exact hbc hbr
            · exact hbc (htrans b r c hbr hrc)
      · exact ih h y hy b hb hbr

/-- There is no best exactly when `f` gives nothing. -/
theorem bestOf_eq_none {l : List α} : bestOf f better l = none ↔ ∀ x ∈ l, f x = none := by
  simp [bestOf, foldl_bestStep_none]

/-- The best comes from the list. -/
theorem bestOf_mem {l : List α} {r : β} (h : bestOf f better l = some r) : ∃ x ∈ l, f x = some r :=
  (foldl_bestStep_mem h).resolve_left nofun

/-- Nothing in the list is better. -/
theorem bestOf_le (htrans : ∀ a b c, better a b → better b c → better a c)
    (hirrefl : ∀ a, better a a = false) {l : List α} {r : β} (h : bestOf f better l = some r)
    {x : α} (hx : x ∈ l) {b : β} (hb : f x = some b) : ¬ better b r :=
  foldl_bestStep_le htrans hirrefl h x hx b hb

end best

end Interleave
