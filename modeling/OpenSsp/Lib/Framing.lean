/-
OpenSsp/Lib/Framing.lean

Bytes of numbers, and lists of byte strings in one.

`frame` puts the length of a byte string before it, in eight bytes, and `encode` does so for every
string of a list.  As long as the lengths fit, nothing is lost: `frame_append_inj` takes the first
string off whatever follows it, and `encode_inj` recovers the list.

Main results: `bigEndian_inj` and `encode_inj`.
-/
import Mathlib.Algebra.GroupWithZero.Nat
import OpenSsp.Lib.Sha256

namespace Interleave

open Sha256

/-! ### Numbers -/

/-- The bytes tell the number, as far as they reach. -/
theorem bigEndian_inj {n m w : Nat} (h : bigEndian n w = bigEndian m w) :
    n % 256 ^ w = m % 256 ^ w := by
  induction w generalizing n m with
  | zero => rw [Nat.pow_zero, Nat.mod_one, Nat.mod_one]
  | succ w ih =>
      obtain ⟨hhigh, hlow⟩ := List.append_inj' h rfl
      have hlow : n % 256 = m % 256 := by
        have hbyte := congrArg UInt8.toNat (List.head_eq_of_cons_eq hlow)
        rw [UInt8.toNat_ofNat', UInt8.toNat_ofNat'] at hbyte
        omega
      rw [Nat.pow_succ', Nat.mod_mul, Nat.mod_mul, hlow, ih hhigh]

/-- The bytes of a number, the lowest first. -/
def littleEndian (n w : Nat) : List UInt8 := (bigEndian n w).reverse

theorem littleEndian_length (n w : Nat) : (littleEndian n w).length = w := by
  rw [littleEndian, List.length_reverse, bigEndian_length]

theorem littleEndian_inj {n m w : Nat} (h : littleEndian n w = littleEndian m w) :
    n % 256 ^ w = m % 256 ^ w := bigEndian_inj (List.reverse_injective h)

/-! ### Frames -/

/-- The string after its length. -/
def frame (bytes : List UInt8) : List UInt8 := bigEndian bytes.length 8 ++ bytes

/-- The length has a frame's eight bytes. -/
def Short (bytes : List UInt8) : Prop := bytes.length < 256 ^ 8

/-- What follows a frame does not change what is in it. -/
theorem frame_append_inj {a b s t : List UInt8} (ha : Short a) (hb : Short b)
    (h : frame a ++ s = frame b ++ t) : a = b ∧ s = t := by
  rw [frame, frame, List.append_assoc, List.append_assoc] at h
  obtain ⟨hlength, hrest⟩ := List.append_inj h (by rw [bigEndian_length, bigEndian_length])
  have hlength : a.length = b.length := by
    have hmod := bigEndian_inj hlength
    rwa [Nat.mod_eq_of_lt ha, Nat.mod_eq_of_lt hb] at hmod
  exact List.append_inj hrest hlength

theorem frame_ne_nil (a : List UInt8) : frame a ≠ [] := by
  intro h
  have hlength := congrArg List.length h
  rw [frame, List.length_append, bigEndian_length] at hlength
  exact absurd hlength (by simp)

def encode (fields : List (List UInt8)) : List UInt8 := fields.flatMap frame

/-- The list can be read back. -/
theorem encode_inj {xs ys : List (List UInt8)} (hxs : ∀ x ∈ xs, Short x) (hys : ∀ y ∈ ys, Short y)
    (h : encode xs = encode ys) : xs = ys := by
  induction xs generalizing ys with
  | nil =>
      cases ys with
      | nil => rfl
      | cons y ys => exact absurd (List.append_eq_nil_iff.mp h.symm).1 (frame_ne_nil y)
  | cons x xs ih =>
      cases ys with
      | nil => exact absurd (List.append_eq_nil_iff.mp h).1 (frame_ne_nil x)
      | cons y ys =>
          obtain ⟨hx, hy⟩ : Short x ∧ Short y :=
            ⟨hxs x List.mem_cons_self, hys y List.mem_cons_self⟩
          obtain ⟨rfl, hrest⟩ := frame_append_inj hx hy h
          rw [ih (fun z hz => hxs z (List.mem_cons_of_mem _ hz))
            (fun z hz => hys z (List.mem_cons_of_mem _ hz)) hrest]

end Interleave
