/-
OpenSsp/Lib/Cidr.lean

Blocks of addresses that share their first bits.

An address of `w` bits is a number below `2 ^ w`, and `⟨base, n⟩ : Block w` is `base/n` in CIDR
notation.  Code that classifies addresses compares parts of them, or takes bits out with a mask;
`contains_iff` and `mask_eq` turn both into bounds on numbers.

Main results: `Block.contains_iff` and `mask_eq`.
-/
import Mathlib.Data.Nat.Bitwise

namespace Interleave

/-- The addresses of `w` bits that have the first `length` bits of `base`. -/
structure Block (w : Nat) where
  base : Nat
  length : Nat

namespace Block

variable {w : Nat}

/-- The number of addresses. -/
def size (b : Block w) : Nat := 2 ^ (w - b.length)

def Contains (b : Block w) (address : Nat) : Prop := address / b.size = b.base / b.size

instance (b : Block w) (address : Nat) : Decidable (b.Contains address) :=
  inferInstanceAs (Decidable (_ = _))

/-- The addresses of a block follow each other. -/
theorem contains_iff (b : Block w) (address : Nat) :
    b.Contains address ↔
      b.base / b.size * b.size ≤ address ∧ address < (b.base / b.size + 1) * b.size := by
  have hsize : 0 < b.size := Nat.two_pow_pos _
  unfold Contains
  rw [Nat.div_eq_iff hsize]
  constructor
  · rintro ⟨hle, hlt⟩
    refine ⟨hle, ?_⟩
    rw [Nat.add_one_mul]
    omega
  · rintro ⟨hle, hlt⟩
    refine ⟨hle, ?_⟩
    rw [Nat.add_one_mul] at hlt
    omega

end Block

/-- A mask of leading ones leaves the first bits. -/
theorem mask_eq {w k a : Nat} (ha : a < 2 ^ w) (hk : k ≤ w) :
    a &&& (2 ^ w - 2 ^ k) = a / 2 ^ k * 2 ^ k := by
  have hmask : 2 ^ w - 2 ^ k = (2 ^ (w - k) - 1) <<< k := by
    rw [Nat.shiftLeft_eq, Nat.sub_mul, one_mul, ← Nat.pow_add, Nat.sub_add_cancel hk]
  rw [hmask, ← Nat.shiftRight_eq_div_pow, ← Nat.shiftLeft_eq]
  apply Nat.eq_of_testBit_eq
  intro i
  rw [Nat.testBit_and, Nat.testBit_shiftLeft, Nat.testBit_shiftLeft, Nat.testBit_shiftRight,
    Nat.testBit_two_pow_sub_one]
  by_cases hi : k ≤ i
  · by_cases hw : i < w
    · have hlt : i - k < w - k := by omega
      simp [hi, hlt]
    · -- there are no more bits in the address
      have hnone : a.testBit i = false :=
        Nat.testBit_lt_two_pow (lt_of_lt_of_le ha (Nat.pow_le_pow_right (by decide) (by omega)))
      simp [hi, hnone]
  · simp [hi]

end Interleave
