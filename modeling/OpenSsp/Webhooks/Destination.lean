/-
OpenSsp/Webhooks/Destination.lean

Which addresses a webhook may be delivered to (`public_ip`, `local_test_ip`).

The code compares octets and segments, and leaves some of the ranges to the standard library.  Said
at once it is a list of blocks: an IPv4 address is public if it is in none of `reserved4`, an IPv6
address if it is global unicast and in none of `reserved6`, and an IPv4-mapped address is judged as
the IPv4 address that it holds.

Main results: `publicIp_iff` and `localTestIp_iff`.
-/
import OpenSsp.Lib.Cidr
import OpenSsp.Lib.Uuid

namespace OpenSsp.Webhooks

open Interleave

/-! ### Addresses -/

structure Ipv4Addr where
  a : UInt8
  b : UInt8
  c : UInt8
  d : UInt8
  deriving DecidableEq

structure Ipv6Addr where
  s₀ : UInt16
  s₁ : UInt16
  s₂ : UInt16
  s₃ : UInt16
  s₄ : UInt16
  s₅ : UInt16
  s₆ : UInt16
  s₇ : UInt16
  deriving DecidableEq

inductive IpAddr where
  | v4 (ip : Ipv4Addr)
  | v6 (ip : Ipv6Addr)
  deriving DecidableEq

namespace Ipv4Addr

/-- The address as a number. -/
def value (ip : Ipv4Addr) : Nat :=
  ip.a.toNat * 2 ^ 24 + ip.b.toNat * 2 ^ 16 + ip.c.toNat * 2 ^ 8 + ip.d.toNat

/-- The ranges that are private to a site. -/
def isPrivate (ip : Ipv4Addr) : Bool :=
  ip.a == 10 || (ip.a == 172 && ip.b ≥ 16 && ip.b ≤ 31) || (ip.a == 192 && ip.b == 168)

def isLoopback (ip : Ipv4Addr) : Bool := ip.a == 127

/-- The range of addresses a host takes by itself. -/
def isLinkLocal (ip : Ipv4Addr) : Bool := ip.a == 169 && ip.b == 254

def isBroadcast (ip : Ipv4Addr) : Bool := ip == ⟨255, 255, 255, 255⟩

/-- The three ranges that documents use. -/
def isDocumentation (ip : Ipv4Addr) : Bool :=
  (ip.a == 192 && ip.b == 0 && ip.c == 2) || (ip.a == 198 && ip.b == 51 && ip.c == 100) ||
    (ip.a == 203 && ip.b == 0 && ip.c == 113)

end Ipv4Addr

namespace Ipv6Addr

@[inherit_doc Ipv4Addr.value]
def value (ip : Ipv6Addr) : Nat :=
  ip.s₀.toNat * 2 ^ 112 + ip.s₁.toNat * 2 ^ 96 + ip.s₂.toNat * 2 ^ 80 + ip.s₃.toNat * 2 ^ 64 +
    ip.s₄.toNat * 2 ^ 48 + ip.s₅.toNat * 2 ^ 32 + ip.s₆.toNat * 2 ^ 16 + ip.s₇.toNat

/-- `::ffff:a.b.c.d`. -/
def toIpv4Mapped (ip : Ipv6Addr) : Option Ipv4Addr :=
  if ip.s₀ = 0 ∧ ip.s₁ = 0 ∧ ip.s₂ = 0 ∧ ip.s₃ = 0 ∧ ip.s₄ = 0 ∧ ip.s₅ = 0xffff then
    some ⟨(ip.s₆ >>> 8).toUInt8, ip.s₆.toUInt8, (ip.s₇ >>> 8).toUInt8, ip.s₇.toUInt8⟩
  else none

def isLoopback (ip : Ipv6Addr) : Bool := ip == ⟨0, 0, 0, 0, 0, 0, 0, 1⟩

/-- The range of addresses that are private to a site. -/
def isUniqueLocal (ip : Ipv6Addr) : Bool := ip.s₀ &&& 0xfe00 == 0xfc00

end Ipv6Addr

/-! ### Texts of addresses -/

/-- A decimal octet of at most three digits, without leading zeros. -/
def readOctet (cs : List Char) : Option UInt8 :=
  if cs.isEmpty ∨ 3 < cs.length ∨ ¬ cs.all Char.isDigit ∨ (1 < cs.length ∧ cs.head? = some '0') then
    none
  else
    let n := cs.foldl (fun n c => 10 * n + (c.toNat - 48)) 0
    if n < 256 then some (UInt8.ofNat n) else none

/-- Four decimal numbers between dots. -/
def readIpv4 (cs : List Char) : Option Ipv4Addr :=
  match (cs.splitOn '.').map readOctet with
  | [some a, some b, some c, some d] => some ⟨a, b, c, d⟩
  | _ => none

/-- A segment of at most four hexadecimal digits. -/
def readSegment (cs : List Char) : Option UInt16 :=
  if cs.isEmpty ∨ 4 < cs.length then none
  else (cs.mapM hexValue).map fun ds => UInt16.ofNat (ds.foldl (fun n d => 16 * n + d) 0)

/-- Segments between colons, the last two of which can be written as an IPv4 address. -/
def readSegments (mixed : Bool) : List (List Char) → Option (List UInt16)
  | [] => some []
  | [cs] =>
      match readSegment cs, readIpv4 cs with
      | some s, _ => some [s]
      | none, some ip =>
          if mixed then
            some [UInt16.ofNat (ip.a.toNat * 256 + ip.b.toNat),
              UInt16.ofNat (ip.c.toNat * 256 + ip.d.toNat)]
          else none
      | none, none => none
  | cs :: css => do
      let s ← readSegment cs
      let rest ← readSegments mixed css
      return s :: rest

/-- The text before the first `::`, and the text after it. -/
def splitDouble : List Char → Option (List Char × List Char)
  | ':' :: ':' :: cs => some ([], cs)
  | c :: cs => (splitDouble cs).map fun (head, tail) => (c :: head, tail)
  | [] => none

/-- The segments of a text between colons; the last may be an IPv4 address. -/
def segmentsOf (mixed : Bool) (cs : List Char) : Option (List UInt16) :=
  if cs.isEmpty then some [] else readSegments mixed (cs.splitOn ':')

/-- Eight segments are an address. -/
def ofSegments : List UInt16 → Option Ipv6Addr
  | [s₀, s₁, s₂, s₃, s₄, s₅, s₆, s₇] => some ⟨s₀, s₁, s₂, s₃, s₄, s₅, s₆, s₇⟩
  | _ => none

/-- In the place of `::` are the zeros that are missing, one at least. -/
def readIpv6 (cs : List Char) : Option Ipv6Addr :=
  match splitDouble cs with
  | none => (segmentsOf true cs).bind ofSegments
  | some (head, tail) => do
      let head ← segmentsOf false head
      let tail ← segmentsOf true tail
      if 8 ≤ head.length + tail.length then none
      ofSegments (head ++ List.replicate (8 - (head.length + tail.length)) 0 ++ tail)

/-- An address in either notation. -/
def parseIp (s : String) : Option IpAddr :=
  match readIpv4 s.toList with
  | some ip => some (.v4 ip)
  | none => (readIpv6 s.toList).map .v6

/-! ### `public_ip` and `local_test_ip` -/

/-- `public_ip` of an IPv4 address. -/
def publicV4 (ip : Ipv4Addr) : Bool :=
  !ip.isPrivate && !ip.isLoopback && !ip.isLinkLocal && !ip.isBroadcast && !ip.isDocumentation &&
    ip.a != 0 && ip.a < 224 && !(ip.a == 100 && (64 ≤ ip.b && ip.b ≤ 127)) &&
    !(ip.a == 198 && (ip.b == 18 || ip.b == 19)) && !(ip.a == 192 && ip.b == 0)

/-- `public_ip`; an embedded IPv4 address is judged as one. -/
def publicIp : IpAddr → Bool
  | .v4 ip => publicV4 ip
  | .v6 ip =>
      match ip.toIpv4Mapped with
      | some v4 => publicV4 v4
      | none =>
          ip.s₀ &&& 0xe000 == 0x2000 && ip.s₀ != 0x2002 &&
            !(ip.s₀ == 0x2001 && (ip.s₁ < 0x200 || ip.s₁ == 0xdb8))

/-- What a test on one machine may use. -/
def localTestV4 (ip : Ipv4Addr) : Bool := ip.isLoopback || ip.isPrivate

/-- The same for both families. -/
def localTestIp : IpAddr → Bool
  | .v4 ip => localTestV4 ip
  | .v6 ip =>
      match ip.toIpv4Mapped with
      | some ip => localTestV4 ip
      | none => ip.isLoopback || ip.isUniqueLocal

/-! ### The same as blocks -/

def block4 (a b c d length : Nat) : Block 32 := ⟨a * 2 ^ 24 + b * 2 ^ 16 + c * 2 ^ 8 + d, length⟩

/-- A block of IPv6 addresses, by its first two segments. -/
def block6 (s₀ s₁ length : Nat) : Block 128 := ⟨s₀ * 2 ^ 112 + s₁ * 2 ^ 96, length⟩

def private4 : List (Block 32) := [block4 10 0 0 0 8, block4 172 16 0 0 12, block4 192 168 0 0 16]

def loopback4 : Block 32 := block4 127 0 0 0 8

/-- The IPv4 addresses that are not public. -/
def reserved4 : List (Block 32) :=
  loopback4 :: private4 ++
    [block4 0 0 0 0 8, block4 100 64 0 0 10, block4 169 254 0 0 16, block4 192 0 0 0 16,
      block4 198 18 0 0 15, block4 198 51 100 0 24, block4 203 0 113 0 24, block4 224 0 0 0 3]

/-- The addresses that are routed at all. -/
def globalUnicast6 : Block 128 := block6 0x2000 0 3

/-- The global unicast addresses that are not public. -/
def reserved6 : List (Block 128) :=
  [block6 0x2001 0 23, block6 0x2001 0xdb8 32, block6 0x2002 0 16]

/-- The block of the embedded IPv4 addresses. -/
def mapped6 : Block 128 := ⟨0xffff * 2 ^ 32, 96⟩

def loopback6 : Block 128 := ⟨1, 128⟩

def uniqueLocal6 : Block 128 := block6 0xfc00 0 7

/-- In none of the blocks. -/
def OutOf {w : Nat} (blocks : List (Block w)) (value : Nat) : Prop :=
  ∀ b ∈ blocks, ¬ b.Contains value

/-- In one of the blocks. -/
def InOne {w : Nat} (blocks : List (Block w)) (value : Nat) : Prop := ∃ b ∈ blocks, b.Contains value

theorem outOf_cons {w : Nat} (b : Block w) (blocks : List (Block w)) (value : Nat) :
    OutOf (b :: blocks) value ↔ ¬ b.Contains value ∧ OutOf blocks value :=
  List.forall_mem_cons

theorem outOf_nil {w : Nat} (value : Nat) : OutOf ([] : List (Block w)) value := nofun

theorem outOf_append {w : Nat} (bs bs' : List (Block w)) (value : Nat) :
    OutOf (bs ++ bs') value ↔ OutOf bs value ∧ OutOf bs' value := List.forall_mem_append

theorem not_inOne {w : Nat} (blocks : List (Block w)) (value : Nat) :
    ¬ InOne blocks value ↔ OutOf blocks value := by
  simp only [InOne, OutOf, not_exists, not_and]

/-- The address is public. -/
def IpAddr.Public : IpAddr → Prop
  | .v4 ip => OutOf reserved4 ip.value
  | .v6 ip =>
      if mapped6.Contains ip.value then OutOf reserved4 (ip.value % 2 ^ 32)
      else globalUnicast6.Contains ip.value ∧ OutOf reserved6 ip.value

/-- The address is on the host itself, or on a private network. -/
def IpAddr.Local : IpAddr → Prop
  | .v4 ip => InOne (loopback4 :: private4) ip.value
  | .v6 ip =>
      if mapped6.Contains ip.value then InOne (loopback4 :: private4) (ip.value % 2 ^ 32)
      else InOne [loopback6, uniqueLocal6] ip.value

/-! ### IPv4 -/

theorem octets_lt (ip : Ipv4Addr) :
    ip.a.toNat < 256 ∧ ip.b.toNat < 256 ∧ ip.c.toNat < 256 ∧ ip.d.toNat < 256 :=
  ⟨ip.a.toNat_lt, ip.b.toNat_lt, ip.c.toNat_lt, ip.d.toNat_lt⟩

/-- A block within one first octet. -/
theorem first_octet (n : Nat) (ip : Ipv4Addr) :
    (block4 n 0 0 0 8).Contains ip.value ↔ ip.a.toNat = n := by
  obtain ⟨ha, hb, hc, hd⟩ := octets_lt ip
  simp only [Block.contains_iff, Block.size, block4, Ipv4Addr.value]
  omega

/-- A block that fixes the first octet and bounds the second. -/
theorem second_octet (n m : Nat) {k : Nat} (hk : k ≤ 8) (hm : m < 2 ^ k) (ip : Ipv4Addr) :
    (block4 n (m * 2 ^ (8 - k)) 0 0 (8 + k)).Contains ip.value ↔
      ip.a.toNat = n ∧ m * 2 ^ (8 - k) ≤ ip.b.toNat ∧ ip.b.toNat < (m + 1) * 2 ^ (8 - k) := by
  obtain ⟨ha, hb, hc, hd⟩ := octets_lt ip
  simp only [Block.contains_iff, Block.size, block4, Ipv4Addr.value]
  interval_cases k <;> simp only [Nat.reducePow, Nat.reduceSub, Nat.reduceAdd] at * <;> omega

/-- A block of the first three octets. -/
theorem third_octet (n : Nat) {m l : Nat} (hm : m < 256) (hl : l < 256) (ip : Ipv4Addr) :
    (block4 n m l 0 24).Contains ip.value ↔
      ip.a.toNat = n ∧ ip.b.toNat = m ∧ ip.c.toNat = l := by
  obtain ⟨ha, hb, hc, hd⟩ := octets_lt ip
  simp only [Block.contains_iff, Block.size, block4, Ipv4Addr.value]
  omega

theorem loopback4_iff (ip : Ipv4Addr) : ip.isLoopback = true ↔ loopback4.Contains ip.value := by
  rw [loopback4, first_octet]
  simp [Ipv4Addr.isLoopback, ← UInt8.toNat_inj]

theorem private4_iff (ip : Ipv4Addr) : ip.isPrivate = true ↔ InOne private4 ip.value := by
  have h₁₀ := first_octet 10 ip
  have h₁₇₂ := second_octet 172 1 (k := 4) (by decide) (by decide) ip
  have h₁₉₂ := second_octet 192 168 (k := 8) (by decide) (by decide) ip
  simp only [Nat.reduceSub, Nat.reducePow, Nat.reduceMul, Nat.reduceAdd] at h₁₇₂ h₁₉₂
  simp only [InOne, private4, List.mem_cons, List.not_mem_nil, or_false, exists_eq_or_imp,
    exists_eq_left, h₁₀, h₁₇₂, h₁₉₂, Ipv4Addr.isPrivate, Bool.or_eq_true, Bool.and_eq_true,
    beq_iff_eq, decide_eq_true_eq, ← UInt8.toNat_inj, UInt8.le_iff_toNat_le, ge_iff_le,
    UInt8.reduceToNat]
  omega

/-- What is broadcast or for documentation is in larger blocks that are refused anyway. -/
theorem publicV4_iff (ip : Ipv4Addr) : publicV4 ip = true ↔ OutOf reserved4 ip.value := by
  have hloop := loopback4_iff ip
  have hpriv := private4_iff ip
  -- each block, as a condition on the octets
  have h₀ := first_octet 0 ip
  have h₁₀₀ := second_octet 100 1 (k := 2) (by decide) (by decide) ip
  have h₁₆₉ := second_octet 169 254 (k := 8) (by decide) (by decide) ip
  have h₁₉₂ := second_octet 192 0 (k := 8) (by decide) (by decide) ip
  have h₁₉₈ := second_octet 198 9 (k := 7) (by decide) (by decide) ip
  have hdoc₁ := third_octet 198 (m := 51) (l := 100) (by decide) (by decide) ip
  have hdoc₂ := third_octet 203 (m := 0) (l := 113) (by decide) (by decide) ip
  simp only [Nat.reduceSub, Nat.reducePow, Nat.reduceMul, Nat.reduceAdd] at h₁₀₀ h₁₆₉ h₁₉₂ h₁₉₈
  have hhigh : (block4 224 0 0 0 3).Contains ip.value ↔ 224 ≤ ip.a.toNat := by
    obtain ⟨ha, hb, hc, hd⟩ := octets_lt ip
    simp only [Block.contains_iff, Block.size, block4, Ipv4Addr.value]
    omega
  -- the code's test of broadcasts is inside the last block
  have hbroad : ip.isBroadcast = true → 224 ≤ ip.a.toNat := by
    intro h
    rw [beq_iff_eq.mp h]
    decide
  rw [reserved4, List.cons_append, outOf_cons, outOf_append, ← not_inOne private4, ← hloop,
    ← hpriv]
  simp only [outOf_cons, outOf_nil, and_true, h₀, h₁₀₀, h₁₆₉, h₁₉₂, h₁₉₈, hdoc₁, hdoc₂, hhigh]
  simp only [publicV4, Ipv4Addr.isLinkLocal, Ipv4Addr.isDocumentation, Bool.and_eq_true,
    Bool.not_eq_true', Bool.not_eq_true, Bool.or_eq_false_iff, Bool.and_eq_false_iff,
    beq_eq_false_iff_ne, bne_iff_ne, decide_eq_true_eq, decide_eq_false_iff_not,
    ne_eq, ← UInt8.toNat_inj, UInt8.le_iff_toNat_le, UInt8.lt_iff_toNat_lt, UInt8.reduceToNat]
  constructor
  · -- the same conjunction in two orders
    rintro ⟨⟨⟨⟨⟨⟨⟨⟨⟨hprivate, hloopback⟩, hlink⟩, -⟩, ⟨-, hdoc₁⟩, hdoc₂⟩, hzero⟩, hlow⟩, hshared⟩,
      hbench⟩, hietf⟩
    exact ⟨hloopback, hprivate, hzero, by omega, by omega, by omega, by omega, by omega, by omega,
      by omega⟩
  · rintro ⟨hloopback, hprivate, hzero, hshared, hlink, hietf, hbench, hdoc₁, hdoc₂, hlow⟩
    have hbroadcast : ip.isBroadcast = false := by
      rw [← Bool.not_eq_true]
      exact fun h => hlow (hbroad h)
    exact ⟨⟨⟨⟨⟨⟨⟨⟨⟨hprivate, hloopback⟩, by omega⟩, hbroadcast⟩, ⟨by omega, by omega⟩, by omega⟩,
      hzero⟩, by omega⟩, by omega⟩, by omega⟩, by omega⟩

theorem localTestV4_iff (ip : Ipv4Addr) :
    localTestV4 ip = true ↔ InOne (loopback4 :: private4) ip.value := by
  rw [localTestV4, Bool.or_eq_true, loopback4_iff, private4_iff]
  simp only [InOne, List.mem_cons, exists_eq_or_imp]

/-! ### IPv6 -/

theorem segments_lt (ip : Ipv6Addr) :
    ip.s₀.toNat < 65536 ∧ ip.s₁.toNat < 65536 ∧ ip.s₂.toNat < 65536 ∧ ip.s₃.toNat < 65536 ∧
      ip.s₄.toNat < 65536 ∧ ip.s₅.toNat < 65536 ∧ ip.s₆.toNat < 65536 ∧ ip.s₇.toNat < 65536 :=
  ⟨ip.s₀.toNat_lt, ip.s₁.toNat_lt, ip.s₂.toNat_lt, ip.s₃.toNat_lt, ip.s₄.toNat_lt, ip.s₅.toNat_lt,
    ip.s₆.toNat_lt, ip.s₇.toNat_lt⟩

theorem mapped6_iff (ip : Ipv6Addr) :
    mapped6.Contains ip.value ↔
      ip.s₀ = 0 ∧ ip.s₁ = 0 ∧ ip.s₂ = 0 ∧ ip.s₃ = 0 ∧ ip.s₄ = 0 ∧ ip.s₅ = 0xffff := by
  obtain ⟨h₀, h₁, h₂, h₃, h₄, h₅, h₆, h₇⟩ := segments_lt ip
  simp only [Block.contains_iff, Block.size, mapped6, Ipv6Addr.value, ← UInt16.toNat_inj,
    UInt16.reduceToNat]
  omega

/-- A mapped address holds its IPv4 address in the last bits. -/
theorem toIpv4Mapped_some {ip : Ipv6Addr} {v4 : Ipv4Addr} (h : ip.toIpv4Mapped = some v4) :
    mapped6.Contains ip.value ∧ v4.value = ip.value % 2 ^ 32 := by
  obtain ⟨h₀, h₁, h₂, h₃, h₄, h₅, h₆, h₇⟩ := segments_lt ip
  rw [Ipv6Addr.toIpv4Mapped, Option.ite_none_right_eq_some] at h
  obtain ⟨hzero, hv4⟩ := h
  refine ⟨(mapped6_iff ip).mpr hzero, ?_⟩
  obtain rfl := Option.some.inj hv4
  simp only [Ipv4Addr.value, Ipv6Addr.value, UInt16.toNat_toUInt8, UInt16.toNat_shiftRight,
    UInt16.reduceToNat, Nat.shiftRight_eq_div_pow, Nat.reduceMod, Nat.reducePow]
  omega

theorem toIpv4Mapped_none {ip : Ipv6Addr} (h : ip.toIpv4Mapped = none) :
    ¬ mapped6.Contains ip.value := by
  rw [mapped6_iff]
  simpa [Ipv6Addr.toIpv4Mapped] using h

/-- The blocks by a mask of the first segment. -/
theorem globalUnicast6_iff (ip : Ipv6Addr) :
    ip.s₀ &&& 0xe000 = 0x2000 ↔ globalUnicast6.Contains ip.value := by
  obtain ⟨h₀, h₁, h₂, h₃, h₄, h₅, h₆, h₇⟩ := segments_lt ip
  have hmask := mask_eq (w := 16) (k := 13) h₀ (by decide)
  simp only [Nat.reducePow, Nat.reduceSub] at hmask
  rw [← UInt16.toNat_inj, UInt16.toNat_and]
  simp only [UInt16.reduceToNat, hmask, Block.contains_iff, Block.size, globalUnicast6, block6,
    Ipv6Addr.value]
  omega

theorem uniqueLocal6_iff (ip : Ipv6Addr) :
    ip.isUniqueLocal = true ↔ uniqueLocal6.Contains ip.value := by
  obtain ⟨h₀, h₁, h₂, h₃, h₄, h₅, h₆, h₇⟩ := segments_lt ip
  have hmask := mask_eq (w := 16) (k := 9) h₀ (by decide)
  simp only [Nat.reducePow, Nat.reduceSub] at hmask
  rw [Ipv6Addr.isUniqueLocal, beq_iff_eq, ← UInt16.toNat_inj, UInt16.toNat_and]
  simp only [UInt16.reduceToNat, hmask, Block.contains_iff, Block.size, uniqueLocal6, block6,
    Ipv6Addr.value]
  omega

theorem loopback6_iff (ip : Ipv6Addr) : ip.isLoopback = true ↔ loopback6.Contains ip.value := by
  obtain ⟨h₀, h₁, h₂, h₃, h₄, h₅, h₆, h₇⟩ := segments_lt ip
  have heq : ip.isLoopback = true ↔ ip.s₀.toNat = 0 ∧ ip.s₁.toNat = 0 ∧ ip.s₂.toNat = 0 ∧
      ip.s₃.toNat = 0 ∧ ip.s₄.toNat = 0 ∧ ip.s₅.toNat = 0 ∧ ip.s₆.toNat = 0 ∧ ip.s₇.toNat = 1 := by
    obtain ⟨s₀, s₁, s₂, s₃, s₄, s₅, s₆, s₇⟩ := ip
    simp [Ipv6Addr.isLoopback, ← UInt16.toNat_inj]
  rw [heq]
  simp only [Block.contains_iff, Block.size, loopback6, Ipv6Addr.value]
  omega

theorem reserved6_iff (ip : Ipv6Addr) :
    OutOf reserved6 ip.value ↔ ip.s₀ ≠ 0x2002 ∧
      ¬ (ip.s₀ = 0x2001 ∧ (ip.s₁ < 0x200 ∨ ip.s₁ = 0xdb8)) := by
  obtain ⟨h₀, h₁, h₂, h₃, h₄, h₅, h₆, h₇⟩ := segments_lt ip
  simp only [reserved6, outOf_cons, outOf_nil, and_true, Block.contains_iff, Block.size, block6,
    Ipv6Addr.value, ne_eq, ← UInt16.toNat_inj, UInt16.lt_iff_toNat_lt, UInt16.reduceToNat]
  omega

/-! ### Both -/

/-- **The public addresses** are those in none of the reserved blocks. -/
theorem publicIp_iff (ip : IpAddr) : publicIp ip = true ↔ ip.Public := by
  cases ip with
  | v4 ip => exact publicV4_iff ip
  | v6 ip =>
      rw [publicIp, IpAddr.Public]
      cases h : ip.toIpv4Mapped with
      | some v4 =>
          obtain ⟨hmapped, hvalue⟩ := toIpv4Mapped_some h
          rw [if_pos hmapped, ← hvalue]
          exact publicV4_iff v4
      | none =>
          rw [if_neg (toIpv4Mapped_none h), ← globalUnicast6_iff, reserved6_iff]
          simp [and_assoc, imp_iff_not_or]

/-- **The local addresses** are those of the host itself and of private networks. -/
theorem localTestIp_iff (ip : IpAddr) : localTestIp ip = true ↔ ip.Local := by
  cases ip with
  | v4 ip => exact localTestV4_iff ip
  | v6 ip =>
      rw [localTestIp, IpAddr.Local]
      cases h : ip.toIpv4Mapped with
      | some v4 =>
          obtain ⟨hmapped, hvalue⟩ := toIpv4Mapped_some h
          rw [if_pos hmapped, ← hvalue]
          exact localTestV4_iff v4
      | none =>
          rw [if_neg (toIpv4Mapped_none h)]
          show (ip.isLoopback || ip.isUniqueLocal) = true ↔ _
          rw [Bool.or_eq_true, loopback6_iff, uniqueLocal6_iff]
          simp [InOne]

example : (parseIp "::ffff:127.0.0.1").map publicIp = some false := by decide +kernel

example : (parseIp "2600::1").map publicIp = some true := by decide +kernel

end OpenSsp.Webhooks
