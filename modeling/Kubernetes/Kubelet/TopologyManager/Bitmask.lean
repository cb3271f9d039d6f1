import Mathlib.Data.Nat.BitIndices
import Mathlib.Data.Prod.Lex

/-! The NUMA node masks of `pkg/kubelet/cm/topologymanager/bitmask`: a 64-bit word with one bit
per NUMA node. Counts, orders and bits are read through the value of the word as a natural
number.
-/

set_option autoImplicit false

namespace Kubernetes.Kubelet.TopologyManager.Bitmask

abbrev BitMask := UInt64

/-- `1 << uint64(i)`. -/
def bit (i : ℤ) : BitMask := 1 <<< i.toNat.toUInt64

/-- `Add`: every bit must lie in `0..63`; on an error the mask is left as it was. -/
def add (mask : BitMask) : List ℤ → Except String BitMask
  | [] => .ok mask
  | i :: bits => if i < 0 ∨ 64 ≤ i then .error "bit number must be in range 0-63" else add (mask ||| bit i) bits

def newBitMask (bits : List ℤ) : Except String BitMask := add 0 bits

/-- `Count`: `bits.OnesCount64`. -/
def count (s : BitMask) : ℕ := s.toNat.bitIndices.length

def isNarrowerThan (s mask : BitMask) : Bool :=
  if count s = count mask ∧ s < mask then true else count s < count mask

/-- `bitmask.And`: a copy of the first mask, which must not be nil, ANDed with the others. -/
def and (first : Option BitMask) (masks : List BitMask) : Option BitMask :=
  first.map fun s => masks.foldl (· &&& ·) s

/-! ## Bits -/

theorem toNat_bit {i : ℤ} (low : 0 ≤ i) (high : i < 64) : (bit i).toNat = 2 ^ i.toNat := by
  have small : i.toNat < 64 := by omega
  have fits : 2 ^ i.toNat < 2 ^ 64 := Nat.pow_lt_pow_right (by decide) small
  have index : i.toNat.toUInt64.toNat % 64 = i.toNat := by
    rw [Nat.toUInt64_eq, UInt64.toNat_ofNat', Nat.mod_eq_of_lt (show i.toNat < 2 ^ 64 by omega),
      Nat.mod_eq_of_lt small]
  rw [bit, UInt64.toNat_shiftLeft, UInt64.toNat_one, index, Nat.shiftLeft_eq, Nat.one_mul, Nat.mod_eq_of_lt fits]

theorem testBit_bit {i : ℤ} (low : 0 ≤ i) (high : i < 64) (j : ℕ) :
    (bit i).toNat.testBit j = true ↔ (j : ℤ) = i := by
  rw [toNat_bit low high, Nat.testBit_two_pow, decide_eq_true_iff]
  omega

theorem testBit_and (s mask : BitMask) (j : ℕ) :
    (s &&& mask).toNat.testBit j = true ↔ s.toNat.testBit j = true ∧ mask.toNat.testBit j = true := by
  rw [UInt64.toNat_and, Nat.testBit_and, Bool.and_eq_true]

theorem testBit_foldl_and (masks : List BitMask) (s : BitMask) (j : ℕ) :
    (masks.foldl (· &&& ·) s).toNat.testBit j = true ↔
      s.toNat.testBit j = true ∧ ∀ mask ∈ masks, mask.toNat.testBit j = true := by
  induction masks generalizing s with
  | nil => simp
  | cons mask masks ih =>
    rw [List.foldl_cons, ih, testBit_and]
    simp only [List.mem_cons, forall_eq_or_imp]
    tauto

theorem ext_testBit {s mask : BitMask} (same : ∀ j, s.toNat.testBit j = true ↔ mask.toNat.testBit j = true) :
    s = mask :=
  UInt64.toNat_inj.mp (Nat.eq_of_testBit_eq fun j => Bool.eq_iff_iff.mpr (same j))

theorem add_ok {bits : List ℤ} (valid : ∀ i ∈ bits, 0 ≤ i ∧ i < 64) (mask : BitMask) :
    ∃ result, add mask bits = .ok result ∧
      ∀ j : ℕ, result.toNat.testBit j = true ↔ mask.toNat.testBit j = true ∨ (j : ℤ) ∈ bits := by
  induction bits generalizing mask with
  | nil => exact ⟨mask, rfl, fun j => by simp⟩
  | cons i bits ih =>
    obtain ⟨low, high⟩ := valid i List.mem_cons_self
    obtain ⟨result, added, bitsOf⟩ := ih (fun i' member => valid i' (List.mem_cons_of_mem i member)) (mask ||| bit i)
    refine ⟨result, by rw [add, if_neg (by omega), added], fun j => ?_⟩
    rw [bitsOf, UInt64.toNat_or, Nat.testBit_or, Bool.or_eq_true, testBit_bit low high, List.mem_cons]
    tauto

theorem newBitMask_ok {bits : List ℤ} (valid : ∀ i ∈ bits, 0 ≤ i ∧ i < 64) :
    ∃ all, newBitMask bits = .ok all ∧ ∀ j : ℕ, all.toNat.testBit j = true ↔ (j : ℤ) ∈ bits := by
  obtain ⟨all, added, bitsOf⟩ := add_ok valid 0
  exact ⟨all, added, fun j => by simpa using bitsOf j⟩

/-! ## Counts -/

theorem count_pos_iff {s : BitMask} : 0 < count s ↔ ∃ j, s.toNat.testBit j = true := by
  rw [count, List.length_pos_iff_exists_mem]
  simp only [Nat.mem_bitIndices]

theorem count_eq_one_iff {s : BitMask} : count s = 1 ↔ ∃ i : ℤ, 0 ≤ i ∧ i < 64 ∧ s = bit i := by
  constructor
  · intro single
    obtain ⟨j, indices⟩ := List.length_eq_one_iff.mp single
    have value : s.toNat = 2 ^ j := by
      rw [← Nat.sum_map_two_pow_bitIndices s.toNat, indices]
      simp
    have small : j < 64 := (Nat.pow_lt_pow_iff_right (by decide)).mp (value ▸ s.toNat_lt)
    refine ⟨j, by omega, by omega, UInt64.toNat_inj.mp ?_⟩
    rw [value, toNat_bit (by omega) (by omega), Int.toNat_natCast]
  · rintro ⟨i, low, high, rfl⟩
    rw [count, toNat_bit low high, Nat.bitIndices_two_pow, List.length_singleton]

theorem isNarrowerThan_iff (s mask : BitMask) :
    isNarrowerThan s mask = true ↔ toLex (count s, s.toNat) < toLex (count mask, mask.toNat) := by
  rw [Prod.Lex.toLex_lt_toLex]
  dsimp only
  by_cases narrower : count s = count mask ∧ s < mask
  · rw [isNarrowerThan, if_pos narrower]
    exact iff_of_true rfl (.inr ⟨narrower.1, UInt64.lt_iff_toNat_lt.mp narrower.2⟩)
  · rw [UInt64.lt_iff_toNat_lt] at narrower
    rw [isNarrowerThan, if_neg (by rwa [UInt64.lt_iff_toNat_lt]), decide_eq_true_iff]
    constructor
    · exact .inl
    · rintro (fewer | both)
      · exact fewer
      · exact absurd both narrower

end Kubernetes.Kubelet.TopologyManager.Bitmask
