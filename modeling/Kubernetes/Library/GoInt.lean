import Mathlib.Data.Int.Notation
import Mathlib.Tactic.NormNum
import Mathlib.Tactic.Ring
import Mathlib.Algebra.BigOperators.Group.List.Basic

/-! Go's `int` on a 64-bit platform.

An `int` is an integer in `[-2^63, 2^63)`. Addition, subtraction and multiplication wrap to that
range, as Go's do; below the largest `int` they are the integers' own. A `time.Duration` is such
an integer of nanoseconds, and the difference of two instants saturates to its range.
-/

set_option autoImplicit false

namespace Kubernetes.Library

def maxInt : ℤ := 2 ^ 63 - 1

def maxInt32 : ℤ := 2 ^ 31 - 1

/-- `x + y` on Go `int`s. -/
def intAdd (x y : ℤ) : ℤ := (x + y).bmod (2 ^ 64)

/-- `x - y` on Go `int`s. -/
def intSub (x y : ℤ) : ℤ := (x - y).bmod (2 ^ 64)

theorem bmod_of_fits {x : ℤ} (low : -2 ^ 63 ≤ x) (high : x ≤ maxInt) : x.bmod (2 ^ 64) = x := by
  unfold maxInt at high
  apply Int.bmod_eq_of_le <;> norm_num <;> omega

theorem intAdd_of_fits {x y : ℤ} (low : -2 ^ 63 ≤ x + y) (high : x + y ≤ maxInt) : intAdd x y = x + y :=
  bmod_of_fits low high

theorem intAdd_le_maxInt (x y : ℤ) : intAdd x y ≤ maxInt := by
  have below := Int.bmod_lt (x := x + y) (by norm_num : 0 < 2 ^ 64)
  unfold intAdd maxInt
  norm_num at below ⊢
  omega

theorem intSub_of_fits {x y : ℤ} (low : -2 ^ 63 ≤ x - y) (high : x - y ≤ maxInt) : intSub x y = x - y :=
  bmod_of_fits low high

/-- `x * y` on Go `int`s. -/
def intMul (x y : ℤ) : ℤ := (x * y).bmod (2 ^ 64)

/-- `t.Sub(u)` for instants in nanoseconds: the `Duration` between them, saturated to the
range of an `int64`. -/
def timeSub (t u : ℤ) : ℤ := max (-2 ^ 63) (min maxInt (t - u))

theorem timeSub_of_fits {t u : ℤ} (low : -2 ^ 63 ≤ t - u) (high : t - u ≤ maxInt) :
    timeSub t u = t - u := by
  unfold timeSub
  omega

/-- `x / y` on Go integers: truncated toward zero, wrapping at the one quotient that overflows,
and a run-time panic, `none`, for a zero divisor. -/
def intDiv (x y : ℤ) : Option ℤ := if y = 0 then none else some ((x.tdiv y).bmod (2 ^ 64))

/-- A sum of Go `int`s: the integers' sum, wrapped. -/
def intSum (xs : List ℤ) : ℤ := xs.sum.bmod (2 ^ 64)

@[simp] theorem intSum_nil : intSum [] = 0 := rfl

theorem intAdd_intSum (xs : List ℤ) (x : ℤ) : intAdd (intSum xs) x = intSum (xs ++ [x]) := by
  unfold intAdd intSum
  rw [Int.bmod_add_bmod, List.sum_append, List.sum_singleton]

open List in
theorem intSub_intSum {xs ys : List ℤ} {x : ℤ} (perm : xs ~ x :: ys) : intSub (intSum xs) x = intSum ys := by
  unfold intSub intSum
  rw [sub_eq_add_neg, Int.bmod_add_bmod, perm.sum_eq, List.sum_cons]
  congr 1
  ring

theorem intAdd_maxInt_one : intAdd maxInt 1 = -2 ^ 63 := by
  decide

end Kubernetes.Library
