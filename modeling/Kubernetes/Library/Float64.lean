import Mathlib.Data.Rat.Floor
import Mathlib.Algebra.Order.Field.Power
import Mathlib.Tactic.NormNum
import Mathlib.Tactic.Linarith
import Mathlib.Tactic.FieldSimp

/-! IEEE 754 binary64 arithmetic, rounding to nearest with ties to even.

A float64 value is the rational it denotes. An operation computes the exact rational result and
rounds it to the nearest multiple of the quantum of its binade: `2 ^ (e - 52)` for a leading bit
at `2 ^ e`, and never below the subnormal quantum `2 ^ -1074`. Overflow to infinity is not
modelled: the results are taken to stay below `2 ^ 1024`.
-/

set_option autoImplicit false

namespace Kubernetes.Library.Float64

/-- The exponent of the leading bit of a nonzero rational, from the bit lengths of its numerator
and denominator. -/
def leadExp (q : ℚ) : ℤ :=
  let e : ℤ := (Nat.log2 q.num.natAbs : ℤ) - Nat.log2 q.den
  if (2 : ℚ) ^ e ≤ |q| then e else e - 1

/-- `x` rounded to the nearest integer, a half to the even one. -/
def roundHalfEven (x : ℚ) : ℤ :=
  if x - ⌊x⌋ < 1 / 2 then ⌊x⌋
  else if 1 / 2 < x - ⌊x⌋ then ⌊x⌋ + 1
  else if ⌊x⌋ % 2 = 0 then ⌊x⌋ else ⌊x⌋ + 1

/-- The spacing of the float64 values around `q`. -/
def quantum (q : ℚ) : ℤ := max (leadExp q - 52) (-1074)

/-- The float64 value nearest to `q`, ties to even. -/
def roundNearest (q : ℚ) : ℚ := roundHalfEven (q / 2 ^ quantum q) * 2 ^ quantum q

/-- `float64(n)` of an integer. -/
def ofInt (n : ℤ) : ℚ := roundNearest n

/-- `a + b` in float64. -/
def add (a b : ℚ) : ℚ := roundNearest (a + b)

/-- `a - b` in float64. -/
def sub (a b : ℚ) : ℚ := roundNearest (a - b)

/-- `a * b` in float64. -/
def mul (a b : ℚ) : ℚ := roundNearest (a * b)

/-- `a / b` in float64. -/
def div (a b : ℚ) : ℚ := roundNearest (a / b)

/-- `int64(f)` of a float64 within range: the integer part, toward zero. -/
def truncate (f : ℚ) : ℤ := if 0 ≤ f then ⌊f⌋ else ⌈f⌉

/-- `math.Round`: the nearest integer, a half away from zero. -/
def round (f : ℚ) : ℚ := if 0 ≤ f then ⌊f + 1 / 2⌋ else -⌊-f + 1 / 2⌋

/-- `math.Sqrt` of a nonnegative value: its square root rounded to the nearest float64, a tie to
the even one. The root leads at half the exponent of `q`; scaled by its quantum it is `√y`,
whose integer part is that of `√⌊y⌋` and which is compared with the half-way point through
the squares. -/
def sqrt (q : ℚ) : ℚ :=
  if q ≤ 0 then 0
  else
    let k := max (leadExp q / 2 - 52) (-1074)
    let y := q / 4 ^ k
    let m : ℤ := Nat.sqrt ⌊y⌋.toNat
    let half := ((m : ℚ) + 1 / 2) ^ 2
    (if y < half then m else if half < y then m + 1 else if m % 2 = 0 then m else m + 1) * 2 ^ k

def maxFloat64 : ℚ := (2 ^ 53 - 1) * 2 ^ 971

/-! ## The exponent -/

theorem abs_eq_natAbs_div_den (q : ℚ) : |q| = (q.num.natAbs : ℚ) / q.den := by
  rw [Nat.cast_natAbs, Int.cast_abs, ← abs_of_pos (show (0 : ℚ) < q.den by exact_mod_cast q.den_pos), ← abs_div,
    Rat.num_div_den]

theorem two_zpow_natCast (k : ℕ) : (2 : ℚ) ^ (k : ℤ) = ((2 ^ k : ℕ) : ℚ) := by
  rw [zpow_natCast]
  push_cast
  rfl

theorem leadExp_spec {q : ℚ} (nonzero : q ≠ 0) : 2 ^ leadExp q ≤ |q| ∧ |q| < 2 ^ (leadExp q + 1) := by
  set a := Nat.log2 q.num.natAbs
  set b := Nat.log2 q.den
  have numPos : q.num.natAbs ≠ 0 := by simpa using Rat.num_ne_zero.mpr nonzero
  have denPos : (0 : ℚ) < q.den := by exact_mod_cast q.den_pos
  -- the numerator and the denominator lie between powers of two
  have numLow : ((2 ^ a : ℕ) : ℚ) ≤ q.num.natAbs := by exact_mod_cast Nat.log2_self_le numPos
  have numHigh : (q.num.natAbs : ℚ) < ((2 ^ (a + 1) : ℕ) : ℚ) := by exact_mod_cast Nat.lt_log2_self
  have denLow : ((2 ^ b : ℕ) : ℚ) ≤ q.den := by exact_mod_cast Nat.log2_self_le q.den_pos.ne'
  have denHigh : (q.den : ℚ) < ((2 ^ (b + 1) : ℕ) : ℚ) := by exact_mod_cast Nat.lt_log2_self
  have above : 2 ^ ((a : ℤ) - b - 1) < |q| := by
    rw [abs_eq_natAbs_div_den, lt_div_iff₀ denPos]
    calc (2 : ℚ) ^ ((a : ℤ) - b - 1) * q.den < 2 ^ ((a : ℤ) - b - 1) * ((2 ^ (b + 1) : ℕ) : ℚ) :=
          mul_lt_mul_of_pos_left denHigh (zpow_pos (by norm_num) _)
      _ = ((2 ^ a : ℕ) : ℚ) := by
          rw [← two_zpow_natCast, ← two_zpow_natCast, ← zpow_add₀ (by norm_num)]
          push_cast
          ring_nf
      _ ≤ q.num.natAbs := numLow
  have below : |q| < 2 ^ ((a : ℤ) - b + 1) := by
    rw [abs_eq_natAbs_div_den, div_lt_iff₀ denPos]
    calc (q.num.natAbs : ℚ) < ((2 ^ (a + 1) : ℕ) : ℚ) := numHigh
      _ = 2 ^ ((a : ℤ) - b + 1) * ((2 ^ b : ℕ) : ℚ) := by
          rw [← two_zpow_natCast, ← two_zpow_natCast, ← zpow_add₀ (by norm_num)]
          push_cast
          ring_nf
      _ ≤ 2 ^ ((a : ℤ) - b + 1) * q.den := mul_le_mul_of_nonneg_left denLow (zpow_pos (by norm_num) _).le
  simp only [leadExp]
  split_ifs with high
  · exact ⟨high, below⟩
  · rw [sub_add_cancel]
    exact ⟨above.le, lt_of_not_ge high⟩

theorem leadExp_lt {q : ℚ} (nonzero : q ≠ 0) {e : ℤ} (below : |q| < 2 ^ e) : leadExp q < e :=
  (zpow_lt_zpow_iff_right₀ (by norm_num : (1 : ℚ) < 2)).mp ((leadExp_spec nonzero).1.trans_lt below)

theorem quantum_le {q : ℚ} (nonzero : q ≠ 0) {e : ℤ} (below : |q| < 2 ^ e) : quantum q ≤ max (e - 53) (-1074) := by
  have lead := leadExp_lt nonzero below
  unfold quantum
  omega

/-! ## Rounding -/

theorem abs_roundHalfEven_sub_le (x : ℚ) : |(roundHalfEven x : ℚ) - x| ≤ 1 / 2 := by
  have low := Int.floor_le x
  have high := Int.lt_floor_add_one x
  unfold roundHalfEven
  rw [abs_sub_le_iff]
  split_ifs <;> push_cast <;> constructor <;> linarith

@[simp] theorem roundHalfEven_intCast (n : ℤ) : roundHalfEven n = n := by
  simp [roundHalfEven]

theorem roundHalfEven_nonneg {x : ℚ} (nonneg : 0 ≤ x) : 0 ≤ roundHalfEven x := by
  have floorNonneg := Int.floor_nonneg.mpr nonneg
  unfold roundHalfEven
  split_ifs <;> omega

theorem abs_roundNearest_sub_le (q : ℚ) : |roundNearest q - q| ≤ 2 ^ quantum q / 2 := by
  have positive : (0 : ℚ) < 2 ^ quantum q := zpow_pos (by norm_num) _
  have scaled : roundNearest q - q = ((roundHalfEven (q / 2 ^ quantum q) : ℚ) - q / 2 ^ quantum q) * 2 ^ quantum q := by
    rw [roundNearest, sub_mul, div_mul_cancel₀ _ positive.ne']
  rw [scaled, abs_mul, abs_of_pos positive]
  calc |(roundHalfEven (q / 2 ^ quantum q) : ℚ) - q / 2 ^ quantum q| * 2 ^ quantum q ≤ 1 / 2 * 2 ^ quantum q :=
        mul_le_mul_of_nonneg_right (abs_roundHalfEven_sub_le _) positive.le
    _ = 2 ^ quantum q / 2 := by ring

theorem roundNearest_nonneg {q : ℚ} (nonneg : 0 ≤ q) : 0 ≤ roundNearest q := by
  have rounded := roundHalfEven_nonneg (div_nonneg nonneg (zpow_pos (by norm_num : (0 : ℚ) < 2) (quantum q)).le)
  exact mul_nonneg (by exact_mod_cast rounded) (zpow_pos (by norm_num) _).le

@[simp] theorem roundNearest_zero : roundNearest 0 = 0 := by
  simp [roundNearest, roundHalfEven]

theorem floor_le_roundHalfEven (x : ℚ) : ⌊x⌋ ≤ roundHalfEven x := by
  unfold roundHalfEven
  split_ifs <;> omega

theorem intCast_eq_mul_zpow (n : ℤ) {k : ℤ} (nonpos : k ≤ 0) : ∃ j : ℤ, (n : ℚ) = j * 2 ^ k := by
  obtain ⟨K, hK⟩ := Int.eq_ofNat_of_zero_le (neg_nonneg.mpr nonpos)
  refine ⟨n * 2 ^ K, ?_⟩
  rw [show k = -K by omega, zpow_neg, zpow_natCast]
  push_cast
  field_simp

theorem roundNearest_intCast {n : ℤ} (small : |n| < 2 ^ 53) : roundNearest n = n := by
  rcases eq_or_ne n 0 with rfl | nonzero
  · simp
  have below : |(n : ℚ)| < 2 ^ (53 : ℤ) := by exact_mod_cast small
  have scale : quantum n ≤ 0 := (quantum_le (by exact_mod_cast nonzero) below).trans (by norm_num)
  -- the value is a whole number of quanta
  obtain ⟨j, hj⟩ := intCast_eq_mul_zpow n scale
  have whole : (n : ℚ) / 2 ^ quantum n = j := by
    rw [div_eq_iff (zpow_pos (by norm_num) _).ne']
    exact hj
  rw [roundNearest, whole, roundHalfEven_intCast, ← hj]

theorem mul_quantum_le_roundNearest {q : ℚ} {j : ℤ} (le : j * 2 ^ quantum q ≤ q) :
    (j : ℚ) * 2 ^ quantum q ≤ roundNearest q := by
  have positive : (0 : ℚ) < 2 ^ quantum q := zpow_pos (by norm_num) _
  have scaled : (j : ℚ) ≤ q / 2 ^ quantum q := (le_div_iff₀ positive).mpr le
  have rounded : j ≤ roundHalfEven (q / 2 ^ quantum q) := (Int.le_floor.mpr scaled).trans (floor_le_roundHalfEven _)
  exact mul_le_mul_of_nonneg_right (by exact_mod_cast rounded) positive.le

theorem truncate_eq {f : ℚ} {n : ℤ} (nonneg : 0 ≤ n) (low : n ≤ f) (high : f < n + 1) : truncate f = n := by
  have fNonneg : (0 : ℚ) ≤ f := (show (0 : ℚ) ≤ n by exact_mod_cast nonneg).trans low
  rw [truncate, if_pos fNonneg, Int.floor_eq_iff]
  exact ⟨low, high⟩

end Kubernetes.Library.Float64
