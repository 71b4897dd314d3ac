/-
OpenSsp/Lib/Sha256.lean

SHA-256 on byte lists, written so that it evaluates: words are natural numbers below
`2 ^ 32`, the message schedule is a list grown at its head, and every loop is a fold
or a structural recursion.

Main result: `sha256_length`; the two examples are the standard test vectors.
-/
import Mathlib.Data.List.Basic

namespace Interleave

namespace Sha256

/-- The first 32 bits of the fractional parts of the cube roots of the first 64 primes. -/
def roundConstants : List Nat := [
  0x428a2f98, 0x71374491, 0xb5c0fbcf, 0xe9b5dba5, 0x3956c25b, 0x59f111f1, 0x923f82a4, 0xab1c5ed5,
  0xd807aa98, 0x12835b01, 0x243185be, 0x550c7dc3, 0x72be5d74, 0x80deb1fe, 0x9bdc06a7, 0xc19bf174,
  0xe49b69c1, 0xefbe4786, 0x0fc19dc6, 0x240ca1cc, 0x2de92c6f, 0x4a7484aa, 0x5cb0a9dc, 0x76f988da,
  0x983e5152, 0xa831c66d, 0xb00327c8, 0xbf597fc7, 0xc6e00bf3, 0xd5a79147, 0x06ca6351, 0x14292967,
  0x27b70a85, 0x2e1b2138, 0x4d2c6dfc, 0x53380d13, 0x650a7354, 0x766a0abb, 0x81c2c92e, 0x92722c85,
  0xa2bfe8a1, 0xa81a664b, 0xc24b8b70, 0xc76c51a3, 0xd192e819, 0xd6990624, 0xf40e3585, 0x106aa070,
  0x19a4c116, 0x1e376c08, 0x2748774c, 0x34b0bcb5, 0x391c0cb3, 0x4ed8aa4a, 0x5b9cca4f, 0x682e6ff3,
  0x748f82ee, 0x78a5636f, 0x84c87814, 0x8cc70208, 0x90befffa, 0xa4506ceb, 0xbef9a3f7, 0xc67178f2]

/-- Addition of 32-bit words. -/
def add (x y : Nat) : Nat := (x + y) % 4294967296

/-- Rotation to the right. -/
def rotr (n x : Nat) : Nat := (x >>> n) ||| ((x <<< (32 - n)) % 4294967296)

/-- The function `σ₀` of the schedule. -/
def smallSigma0 (x : Nat) : Nat := (rotr 7 x) ^^^ (rotr 18 x) ^^^ (x >>> 3)

/-- The function `σ₁` of the schedule. -/
def smallSigma1 (x : Nat) : Nat := (rotr 17 x) ^^^ (rotr 19 x) ^^^ (x >>> 10)

/-- The function `Σ₀` of a round. -/
def bigSigma0 (x : Nat) : Nat := (rotr 2 x) ^^^ (rotr 13 x) ^^^ (rotr 22 x)

/-- The function `Σ₁` of a round. -/
def bigSigma1 (x : Nat) : Nat := (rotr 6 x) ^^^ (rotr 11 x) ^^^ (rotr 25 x)

/-- Each bit from `y` or from `z`, as `x` says. -/
def choose (x y z : Nat) : Nat := (x &&& y) ^^^ ((4294967295 - x) &&& z)

/-- Each bit as most of the three have it. -/
def majority (x y z : Nat) : Nat := (x &&& y) ^^^ (x &&& z) ^^^ (y &&& z)

/-- Extend a message schedule, kept newest word first, by `n` words. -/
def expand : Nat → List Nat → List Nat
  | 0, w => w
  | n + 1, w =>
      expand n (add (add (smallSigma1 (w.getD 1 0)) (w.getD 6 0))
        (add (smallSigma0 (w.getD 14 0)) (w.getD 15 0)) :: w)

/-- The eight working variables. -/
structure Block where
  (a b c d e f g h : Nat)

/-- The first 32 bits of the fractional parts of the square roots of the first eight primes. -/
def initial : Block :=
  ⟨0x6a09e667, 0xbb67ae85, 0x3c6ef372, 0xa54ff53a, 0x510e527f, 0x9b05688c, 0x1f83d9ab, 0x5be0cd19⟩

/-- One round with a constant and a word of the schedule. -/
def round (s : Block) (kw : Nat × Nat) : Block :=
  let t1 := add (add (add s.h (bigSigma1 s.e)) (add (choose s.e s.f s.g) kw.1)) kw.2
  let t2 := add (bigSigma0 s.a) (majority s.a s.b s.c)
  ⟨add t1 t2, s.a, s.b, s.c, add s.d t1, s.e, s.f, s.g⟩

/-- A block of sixteen words is worked into the state. -/
def compress (s : Block) (words : List Nat) : Block :=
  let w := (expand 48 words.reverse).reverse
  let r := (roundConstants.zip w).foldl round s
  ⟨add s.a r.a, add s.b r.b, add s.c r.c, add s.d r.d,
    add s.e r.e, add s.f r.f, add s.g r.g, add s.h r.h⟩

/-- Big-endian bytes of `n`. -/
def bigEndian (n : Nat) : Nat → List UInt8
  | 0 => []
  | w + 1 => bigEndian (n / 256) w ++ [UInt8.ofNat (n % 256)]

/-- The words of a message of whole words, in big-endian order. -/
def words : List UInt8 → List Nat
  | a :: b :: c :: d :: rest =>
      (((a.toNat * 256 + b.toNat) * 256 + c.toNat) * 256 + d.toNat) :: words rest
  | _ => []

/-- A one bit, zeros, and the length in bits fill up the last block. -/
def pad (m : List UInt8) : List UInt8 :=
  m ++ [0x80] ++ List.replicate ((119 - m.length % 64) % 64) 0 ++ bigEndian (m.length * 8) 8

/-- The blocks of sixteen words. -/
def chunks : Nat → List Nat → List (List Nat)
  | 0, _ => []
  | n + 1, w => w.take 16 :: chunks n (w.drop 16)

/-- A number has as many bytes as it is given. -/
theorem bigEndian_length (n w : Nat) : (bigEndian n w).length = w := by
  induction w generalizing n with
  | zero => rfl
  | succ w ih => simp [bigEndian, ih]

end Sha256

open Sha256

/-- The digest is the state after the last block. -/
def sha256 (m : List UInt8) : List UInt8 :=
  let w := words (pad m)
  let s := (chunks (w.length / 16) w).foldl compress initial
  bigEndian s.a 4 ++ bigEndian s.b 4 ++ bigEndian s.c 4 ++ bigEndian s.d 4 ++
    bigEndian s.e 4 ++ bigEndian s.f 4 ++ bigEndian s.g 4 ++ bigEndian s.h 4

/-- A digest has 32 bytes. -/
@[simp] theorem sha256_length (m : List UInt8) : (sha256 m).length = 32 := by
  simp [sha256, bigEndian_length]

set_option maxRecDepth 10000 in
example : (sha256 [0x61, 0x62, 0x63]).take 4 = [0xba, 0x78, 0x16, 0xbf] := by decide +kernel

set_option maxRecDepth 10000 in
example : (sha256 []).take 4 = [0xe3, 0xb0, 0xc4, 0x42] := by decide +kernel

end Interleave
