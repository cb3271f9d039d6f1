import Mathlib.Data.Nat.Bitwise

/-! IP prefixes over big-endian integers.

An address of a family is the integer its bytes denote in network order, below
`2 ^ bits`. A prefix keeps the leading `ones` bits of an address; masking clears the
trailing `bits - ones` bits and filling sets them. Fixed-width shifts are written over
natural numbers with the truncation of the unsigned word they model, and their counts with
Go's conversion of a signed count to an unsigned one.
-/

set_option autoImplicit false

namespace Kubernetes.Library

inductive Family where
  | ipv4
  | ipv6
  deriving DecidableEq, Repr

def Family.bits : Family → ℕ
  | .ipv4 => 32
  | .ipv6 => 128

/-- `ip.Mask(CIDRMask(ones, bits))`: keep the leading `ones` bits. -/
def maskBits (bits ones value : ℕ) : ℕ := value / 2 ^ (bits - ones) * 2 ^ (bits - ones)

/-- `ip | ^mask`: set the trailing `bits - ones` bits, giving the last address of the prefix. -/
def fillBits (bits ones value : ℕ) : ℕ := maskBits bits ones value + (2 ^ (bits - ones) - 1)

/-- Go's conversion of a signed integer to an unsigned word of `width` bits, as in
`uint32(32 - n)`: a negative value wraps to a large one. -/
def toUnsigned (width : ℕ) (value : ℤ) : ℕ := (value % 2 ^ width).toNat

/-- A shift left of a `width`-bit unsigned word: bits shifted past the top are lost, and a
count of `width` or more gives zero. -/
def shiftLeftWord (width value count : ℕ) : ℕ :=
  if width ≤ count then 0 else value * 2 ^ count % 2 ^ width

/-- A shift right of a value below `2 ^ width`; a count of the width or more gives zero. -/
def shiftRightWord (width value count : ℕ) : ℕ :=
  if width ≤ count then 0 else value / 2 ^ count

/-- An IP network `ip/ones` as `net.ParseCIDR` returns it. -/
structure IPNet where
  family : Family
  ip : ℕ
  ones : ℕ
  deriving DecidableEq, Repr

namespace IPNet

/-- `IPNet.Contains` for an address of the same family. -/
def contains (n : IPNet) (ip : ℕ) : Bool :=
  maskBits n.family.bits n.ones ip = maskBits n.family.bits n.ones n.ip

end IPNet

theorem maskBits_eq_iff {bits ones network value : ℕ} (masked : maskBits bits ones network = network) :
    maskBits bits ones value = network ↔ network ≤ value ∧ value < network + 2 ^ (bits - ones) := by
  have positive : 0 < 2 ^ (bits - ones) := Nat.two_pow_pos _
  unfold maskBits at masked ⊢
  rw [← masked, Nat.mul_left_inj positive.ne', Nat.div_eq_iff positive]
  generalize network / 2 ^ (bits - ones) * 2 ^ (bits - ones) = start
  generalize 2 ^ (bits - ones) = size at positive ⊢
  omega

theorem IPNet.contains_iff {n : IPNet} (masked : maskBits n.family.bits n.ones n.ip = n.ip) (ip : ℕ) :
    n.contains ip = true ↔ n.ip ≤ ip ∧ ip < n.ip + 2 ^ (n.family.bits - n.ones) := by
  rw [IPNet.contains, masked, decide_eq_true_iff]
  exact maskBits_eq_iff masked

theorem fillBits_of_masked {bits ones network : ℕ} (masked : maskBits bits ones network = network) :
    fillBits bits ones network = network + (2 ^ (bits - ones) - 1) := by
  rw [fillBits, masked]

/-- Two networks share an address. -/
def IPNet.Overlaps (n m : IPNet) : Prop := ∃ ip, n.contains ip = true ∧ m.contains ip = true

theorem IPNet.Overlaps.symm {n m : IPNet} (overlaps : n.Overlaps m) : m.Overlaps n :=
  let ⟨ip, inFirst, inSecond⟩ := overlaps
  ⟨ip, inSecond, inFirst⟩

end Kubernetes.Library
