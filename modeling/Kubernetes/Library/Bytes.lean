import Mathlib.Data.Nat.Digits.Lemmas
import Mathlib.Combinatorics.Colex

/-! Sets of bit positions stored as big-endian bytes.

A bitmap over positions `0, 1, …` is the number `∑ i ∈ s, 2 ^ i`; it is stored as the
shortest big-endian byte string of that number and read back by folding the bytes from the
most significant one. Reading what was stored gives the set back.
-/

set_option autoImplicit false

namespace Kubernetes.Library

/-- The value of a big-endian byte string. -/
def ofBytesBE (data : List UInt8) : ℕ :=
  data.foldl (fun value byte => value * 256 + byte.toNat) 0

/-- The shortest big-endian byte string of a value; zero has no bytes. -/
def toBytesBE (value : ℕ) : List UInt8 :=
  (Nat.digits 256 value).reverse.map UInt8.ofNat

/-- The number whose set bits are the positions of `s`. -/
def bitmapOf (s : Finset ℕ) : ℕ := ∑ i ∈ s, 2 ^ i

theorem foldl_reverse_digits (digits : List ℕ) (small : ∀ digit ∈ digits, digit < 256) :
    (digits.reverse.map UInt8.ofNat).foldl (fun value byte => value * 256 + byte.toNat) 0 =
      Nat.ofDigits 256 digits := by
  induction digits with
  | nil => rfl
  | cons digit rest ih =>
    have restSmall : ∀ other ∈ rest, other < 256 := fun other member => small other (by simp [member])
    have byte : (UInt8.ofNat digit).toNat = digit := by
      simp only [UInt8.toNat_ofNat', Nat.reducePow, Nat.mod_eq_of_lt (small digit (by simp))]
    rw [List.reverse_cons, List.map_append, List.foldl_append, ih restSmall]
    simp only [List.map_cons, List.map_nil, List.foldl_cons, List.foldl_nil, byte, Nat.ofDigits_cons]
    ring

theorem ofBytesBE_toBytesBE (value : ℕ) : ofBytesBE (toBytesBE value) = value := by
  unfold ofBytesBE toBytesBE
  rw [foldl_reverse_digits _ fun digit member => Nat.digits_lt_base (by norm_num) member,
    Nat.ofDigits_digits]

theorem bitIndices_bitmapOf (s : Finset ℕ) : (bitmapOf s).bitIndices.toFinset = s :=
  Finset.toFinset_bitIndices_sum_two_pow s

end Kubernetes.Library
