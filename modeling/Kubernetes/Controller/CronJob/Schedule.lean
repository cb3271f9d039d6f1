import Mathlib.Tactic.Ring
import Kubernetes.Library.GoInt
import Kubernetes.Library.Float64

/-! Missed schedule times of a CronJob (`pkg/controller/cronjob/utils.go`).

The controller asks the schedule for its first two fire times after the earliest time it has to
consider, and counts the fire times up to `now` by extrapolating the gap between those two.
Where the fire times are evenly spaced that gives the latest of them and their number; where
they are not (a list of minutes, a monthly schedule), the time it returns need not be a fire
time at all.

Instants are integers: nanoseconds from the Unix epoch. A duration read in seconds goes through
float64 as `Duration.Seconds()` computes it, and is exact below `2 ^ 24` seconds.
-/

set_option autoImplicit false

namespace Kubernetes.Controller.Cronjob

open Kubernetes.Library

def second : ℤ := 10 ^ 9

/-- `Duration.Round(m)`: to the nearest multiple of `m`, halves away from zero, saturated. -/
def durationRound (d m : ℤ) : ℤ :=
  if m ≤ 0 then d
  else if d < 0 then
    let r := -d.tmod m
    if r + r < m then d + r else if -2 ^ 63 ≤ d - m + r then d - m + r else -2 ^ 63
  else
    let r := d.tmod m
    if r + r < m then d - r else if d + m - r ≤ maxInt then d + m - r else maxInt

/-- `Duration.Seconds()`: `float64(sec) + float64(nsec)/1e9`, for the quotient and remainder of
the duration by a second. -/
def seconds (d : ℤ) : ℚ :=
  Float64.add (Float64.ofInt (d.tdiv second)) (Float64.div (Float64.ofInt (d.tmod second)) (10 ^ 9))

/-- `int64(d.Seconds())`. -/
def durationSeconds (d : ℤ) : ℤ := Float64.truncate (seconds d)

def unix (t : ℤ) : ℤ := t / second

/-- `time.Unix(sec, 0)`. -/
def timeUnix (sec : ℤ) : ℤ := sec * second

/-- `getMostRecentScheduleTime`, with `schedule` for `cron.Schedule.Next`: the latest fire time
and the number of fire times after `earliestTime` up to `now`, as it counts them. -/
def getMostRecentScheduleTime (earliestTime now : ℤ) (schedule : ℤ → ℤ) :
    Except String (Option ℤ × ℤ) :=
  let t1 := schedule earliestTime
  let t2 := schedule t1
  if now < t1 then .ok (none, 0)
  else if now < t2 then .ok (some t1, 1)
  else
    -- an invalid schedule can give two fire times less than a second apart
    let timeBetweenTwoSchedules := durationSeconds (durationRound (timeSub t2 t1) second)
    if timeBetweenTwoSchedules < 1 then
      .error "time difference between two schedules less than 1 second"
    else
      let timeElapsed := durationSeconds (timeSub now t1)
      let numberOfMissedSchedules := timeElapsed.tdiv timeBetweenTwoSchedules + 1
      let t := timeUnix (unix t1 + (numberOfMissedSchedules - 1) * timeBetweenTwoSchedules)
      .ok (some t, numberOfMissedSchedules)

structure CronJob where
  creationTimestamp : ℤ
  lastScheduleTime : Option ℤ := none
  startingDeadlineSeconds : Option ℤ := none
  deriving DecidableEq, Repr

/-- `getNextScheduleTime`: the time of the schedule to run at `now`, if any. -/
def getNextScheduleTime (cj : CronJob) (now : ℤ) (schedule : ℤ → ℤ) : Except String (Option ℤ) :=
  let earliestTime := cj.lastScheduleTime.getD cj.creationTimestamp
  let earliestTime :=
    match cj.startingDeadlineSeconds with
    | some deadline =>
      -- the controller is not going to schedule anything below this point
      let schedulingDeadline := now + intMul (-second) deadline
      if earliestTime < schedulingDeadline then schedulingDeadline else earliestTime
    | none => earliestTime
  if now < earliestTime then .ok none
  else (getMostRecentScheduleTime earliestTime now schedule).map Prod.fst

/-! ## Whole seconds of a duration -/

section Seconds

open Float64

theorem second_pos : (0 : ℤ) < second := by norm_num [second]

theorem ofInt_of_lt {n : ℤ} (nonneg : 0 ≤ n) (small : n < 2 ^ 53) : ofInt n = n :=
  roundNearest_intCast (by rw [abs_of_nonneg nonneg]; exact small)

theorem durationSeconds_mul_second {P : ℤ} (nonneg : 0 ≤ P) (small : P < 2 ^ 53) :
    durationSeconds (P * second) = P := by
  rw [durationSeconds, seconds, Int.mul_tdiv_cancel _ second_pos.ne', Int.mul_tmod_left, ofInt_of_lt nonneg small]
  simp only [Float64.div, ofInt, Int.cast_zero, roundNearest_zero, zero_div, Float64.add, add_zero]
  rw [roundNearest_intCast (by rw [abs_of_nonneg nonneg]; exact small)]
  exact truncate_eq nonneg le_rfl (by linarith)

theorem fraction_bounds {nsec : ℤ} (nonneg : 0 ≤ nsec) (below : nsec < second) :
    0 ≤ Float64.div (ofInt nsec) (10 ^ 9) ∧ Float64.div (ofInt nsec) (10 ^ 9) ≤ (10 ^ 9 - 1) / 10 ^ 9 + 2 ^ (-54 : ℤ) := by
  have short : nsec ≤ 10 ^ 9 - 1 := by unfold second at below; omega
  rw [Float64.div, ofInt_of_lt nonneg (by omega)]
  have value : (0 : ℚ) ≤ nsec / 10 ^ 9 := div_nonneg (by exact_mod_cast nonneg) (by norm_num)
  have fraction : (nsec : ℚ) / 10 ^ 9 ≤ (10 ^ 9 - 1) / 10 ^ 9 :=
    div_le_div_of_nonneg_right (by exact_mod_cast short) (by norm_num)
  refine ⟨roundNearest_nonneg value, ?_⟩
  rcases eq_or_ne nsec 0 with rfl | nonzero
  · simp only [Int.cast_zero, zero_div, roundNearest_zero]
    positivity
  -- below one the quantum is at most `2 ^ -53`
  have small : |(nsec : ℚ) / 10 ^ 9| < 2 ^ (0 : ℤ) := by
    rw [abs_of_nonneg value, zpow_zero, div_lt_one (by norm_num)]
    exact_mod_cast (show nsec < 10 ^ 9 by omega)
  have scale := quantum_le (div_ne_zero (by exact_mod_cast nonzero) (by norm_num)) small
  have half : (2 : ℚ) ^ quantum ((nsec : ℚ) / 10 ^ 9) / 2 ≤ 2 ^ (-54 : ℤ) := by
    have power : (2 : ℚ) ^ quantum ((nsec : ℚ) / 10 ^ 9) ≤ 2 ^ (-53 : ℤ) := zpow_le_zpow_right₀ (by norm_num) (by omega)
    calc (2 : ℚ) ^ quantum ((nsec : ℚ) / 10 ^ 9) / 2 ≤ 2 ^ (-53 : ℤ) / 2 := by gcongr
      _ = 2 ^ (-54 : ℤ) := by norm_num
  have error := (abs_sub_le_iff.mp (abs_roundNearest_sub_le ((nsec : ℚ) / 10 ^ 9))).1
  linarith

theorem durationSeconds_of_lt {d : ℤ} (nonneg : 0 ≤ d) (recent : d < 2 ^ 24 * second) :
    durationSeconds d = d / second := by
  have secLow : 0 ≤ d / second := Int.ediv_nonneg nonneg second_pos.le
  have secHigh : d / second < 2 ^ 24 := Int.ediv_lt_of_lt_mul second_pos recent
  obtain ⟨fracLow, fracHigh⟩ := fraction_bounds (Int.emod_nonneg d second_pos.ne') (Int.emod_lt_of_pos d second_pos)
  rw [durationSeconds, seconds, Int.tdiv_eq_ediv_of_nonneg nonneg, Int.tmod_eq_emod_of_nonneg nonneg,
    ofInt_of_lt secLow (by omega), Float64.add]
  set x := ((d / second : ℤ) : ℚ) + Float64.div (ofInt (d % second)) (10 ^ 9) with sum
  have secBelow : ((d / second : ℤ) : ℚ) ≤ 2 ^ 24 - 1 := by exact_mod_cast (show d / second ≤ 2 ^ 24 - 1 by omega)
  have xLow : ((d / second : ℤ) : ℚ) ≤ x := le_add_of_nonneg_right fracLow
  have xHigh : x ≤ (d / second : ℤ) + ((10 ^ 9 - 1) / 10 ^ 9 + 2 ^ (-54 : ℤ)) := by
    rw [sum]
    linarith
  rcases eq_or_ne x 0 with zero | nonzero
  · -- a zero duration
    have none : d / second = 0 := by
      have : ((d / second : ℤ) : ℚ) ≤ 0 := zero ▸ xLow
      exact le_antisymm (by exact_mod_cast this) secLow
    rw [zero, roundNearest_zero, none]
    exact truncate_eq le_rfl (by norm_num) (by norm_num)
  -- below `2 ^ 24` the quantum is at most `2 ^ -29`
  have small : |x| < 2 ^ (24 : ℤ) := by
    rw [abs_of_nonneg ((show (0 : ℚ) ≤ ((d / second : ℤ) : ℚ) by exact_mod_cast secLow).trans xLow)]
    have : (10 ^ 9 - 1 : ℚ) / 10 ^ 9 + 2 ^ (-54 : ℤ) < 1 := by norm_num
    norm_num
    linarith
  have scale := quantum_le nonzero small
  have half : (2 : ℚ) ^ quantum x / 2 ≤ 2 ^ (-30 : ℤ) := by
    have power : (2 : ℚ) ^ quantum x ≤ 2 ^ (-29 : ℤ) := zpow_le_zpow_right₀ (by norm_num) (by omega)
    calc (2 : ℚ) ^ quantum x / 2 ≤ 2 ^ (-29 : ℤ) / 2 := by gcongr
      _ = 2 ^ (-30 : ℤ) := by norm_num
  -- the whole seconds are a whole number of quanta, so rounding keeps the sum above them
  obtain ⟨j, whole⟩ := intCast_eq_mul_zpow (d / second) (scale.trans (by norm_num))
  have low : ((d / second : ℤ) : ℚ) ≤ roundNearest x := whole ▸ mul_quantum_le_roundNearest (whole ▸ xLow)
  have error := (abs_sub_le_iff.mp (abs_roundNearest_sub_le x)).1
  have high : roundNearest x < (d / second : ℤ) + 1 := by
    have margin : (10 ^ 9 - 1 : ℚ) / 10 ^ 9 + 2 ^ (-54 : ℤ) + 2 ^ (-30 : ℤ) < 1 := by norm_num
    linarith
  exact truncate_eq secLow low high

end Seconds

/-- A schedule whose `Next` is the least fire time after every instant. -/
structure Exact (schedule : ℤ → ℤ) (fires : ℤ → Prop) : Prop where
  fires_next : ∀ t, fires (schedule t)
  after : ∀ t, t < schedule t
  least : ∀ t s, fires s → t < s → schedule t ≤ s

section
variable {schedule : ℤ → ℤ} {fires : ℤ → Prop}

theorem fires_iff_of_spaced (exact : Exact schedule fires) {earliestTime p : ℤ} (positive : 0 < p)
    (spaced : ∀ k : ℕ, schedule (schedule earliestTime + k * p) = schedule earliestTime + (k + 1) * p)
    (s : ℤ) : fires s ∧ earliestTime < s ↔ ∃ k : ℕ, s = schedule earliestTime + k * p := by
  set t1 := schedule earliestTime
  constructor
  · rintro ⟨fired, later⟩
    have first : t1 ≤ s := exact.least earliestTime s fired later
    -- `s` lies in the gap after the `k`-th fire time; the next one is not before `s`
    obtain ⟨k, hk⟩ := Int.eq_ofNat_of_zero_le (Int.ediv_nonneg (sub_nonneg.mpr first) positive.le)
    have low : (k : ℤ) * p ≤ s - t1 := hk ▸ Int.ediv_mul_le _ positive.ne'
    have high : s - t1 < ((k : ℤ) + 1) * p := by
      rw [← hk]
      exact Int.lt_ediv_add_one_mul_self _ positive
    refine ⟨k, ?_⟩
    by_contra apart
    have gap := exact.least (t1 + k * p) s fired (by omega)
    rw [spaced k] at gap
    omega
  · rintro ⟨k, rfl⟩
    have first : earliestTime < t1 := exact.after earliestTime
    refine ⟨?_, lt_of_lt_of_le first (le_add_of_nonneg_right (mul_nonneg (Int.natCast_nonneg k) positive.le))⟩
    cases k with
    | zero => simpa [t1] using exact.fires_next earliestTime
    | succ k =>
      have next := exact.fires_next (t1 + k * p)
      rwa [spaced k, show ((k : ℤ) + 1) = ((k + 1 : ℕ) : ℤ) by push_cast; ring] at next

theorem getMostRecentScheduleTime_spaced_eq {earliestTime now p : ℤ}
    (positive : 0 < p) (whole : p % second = 0) (aligned : schedule earliestTime % second = 0)
    (spaced : ∀ k : ℕ, schedule (schedule earliestTime + k * p) = schedule earliestTime + (k + 1) * p)
    (due : schedule earliestTime ≤ now) (recent : now - schedule earliestTime < 2 ^ 24 * second) :
    getMostRecentScheduleTime earliestTime now schedule =
      .ok (some (schedule earliestTime + (now - schedule earliestTime) / p * p),
        (now - schedule earliestTime) / p + 1) := by
  unfold getMostRecentScheduleTime
  set t1 := schedule earliestTime
  have next : schedule t1 = t1 + p := by simpa using spaced 0
  simp only [next, if_neg (not_lt.mpr due)]
  by_cases within : now < t1 + p
  · -- one fire time so far
    have none_more : (now - t1) / p = 0 := Int.ediv_eq_zero_of_lt (by omega) (by omega)
    rw [if_pos within, none_more]
    simp
  rw [if_neg within]
  obtain ⟨P, rfl⟩ : ∃ P, p = P * second := ⟨p / second, (Int.ediv_mul_cancel_of_emod_eq_zero whole).symm⟩
  have fits : now - t1 ≤ maxInt := by unfold maxInt second at *; omega
  have gap : timeSub (t1 + P * second) t1 = P * second := by
    rw [timeSub_of_fits] <;> omega
  have rounded : durationRound (P * second) second = P * second := by
    have exactMultiple : (P * second).tmod second = 0 := by
      rw [Int.tmod_eq_emod_of_nonneg (by omega)]
      exact Int.mul_emod_left P second
    unfold durationRound
    simp [not_le.mpr second_pos, not_lt.mpr positive.le, exactMultiple, second_pos]
  have atLeastOne : 1 ≤ P := by
    by_contra small
    have : P * second ≤ 0 := Int.mul_nonpos_of_nonpos_of_nonneg (by omega) second_pos.le
    omega
  have wholeSeconds : durationSeconds (P * second) = P :=
    durationSeconds_mul_second (by omega) (by unfold second at *; omega)
  have elapsed : durationSeconds (timeSub now t1) = (now - t1) / second := by
    rw [timeSub_of_fits (by omega) fits, durationSeconds_of_lt (by omega) recent]
  have missed : (now - t1) / second / P = (now - t1) / (P * second) := by
    rw [Int.ediv_ediv_of_nonneg second_pos.le, mul_comm]
  simp only [gap, rounded, wholeSeconds, if_neg (not_lt.mpr atLeastOne), elapsed,
    Int.tdiv_eq_ediv_of_nonneg (Int.ediv_nonneg (sub_nonneg.mpr due) second_pos.le), missed,
    add_sub_cancel_right, timeUnix, unix]
  congr 3
  rw [add_mul, Int.ediv_mul_cancel_of_emod_eq_zero aligned]
  ring

/-- Where the fire times after `earliestTime` are evenly spaced by a whole number `p` of seconds
from a whole second on, and fewer than `2 ^ 24` seconds have passed since the first, the fire times
in `(earliestTime, now]` are the `k`-th after the first for `k` up to the number of whole gaps, and
the controller returns the last of them and their number. -/
theorem getMostRecentScheduleTime_of_spaced (exact : Exact schedule fires) {earliestTime now p : ℤ}
    (positive : 0 < p) (whole : p % second = 0) (aligned : schedule earliestTime % second = 0)
    (spaced : ∀ k : ℕ, schedule (schedule earliestTime + k * p) = schedule earliestTime + (k + 1) * p)
    (due : schedule earliestTime ≤ now) (recent : now - schedule earliestTime < 2 ^ 24 * second) :
    (∀ s, fires s ∧ earliestTime < s ∧ s ≤ now ↔
      ∃ k : ℕ, k ≤ (now - schedule earliestTime) / p ∧ s = schedule earliestTime + k * p) ∧
    getMostRecentScheduleTime earliestTime now schedule =
      .ok (some (schedule earliestTime + (now - schedule earliestTime) / p * p),
        (now - schedule earliestTime) / p + 1) := by
  refine ⟨fun s => ?_, getMostRecentScheduleTime_spaced_eq positive whole aligned spaced due recent⟩
  have upTo : ∀ k : ℕ, schedule earliestTime + k * p ≤ now ↔ (k : ℤ) ≤ (now - schedule earliestTime) / p := by
    intro k
    rw [Int.le_ediv_iff_mul_le positive]
    omega
  constructor
  · rintro ⟨fired, later, before⟩
    obtain ⟨k, rfl⟩ := (fires_iff_of_spaced exact positive spaced s).mp ⟨fired, later⟩
    exact ⟨k, (upTo k).mp before, rfl⟩
  · rintro ⟨k, within, rfl⟩
    obtain ⟨fired, later⟩ := (fires_iff_of_spaced exact positive spaced _).mpr ⟨k, rfl⟩
    exact ⟨fired, later, (upTo k).mpr within⟩

end

namespace Runs

/-- 2026-01-01T00:00:00Z. -/
def hour0 : ℤ := 1767225600 * second

def hour : ℤ := 3600 * second

/-- `0,7 * * * *`: minutes 0 and 7 of every hour. -/
def firesAtZeroAndSeven (t : ℤ) : Prop := t % hour = 0 ∨ t % hour = 420 * second

/-- Its `Next`. -/
def zeroAndSeven (t : ℤ) : ℤ :=
  let start := t - t % hour
  if t < start + 420 * second then start + 420 * second else start + hour

theorem zeroAndSeven_exact : Exact zeroAndSeven firesAtZeroAndSeven where
  fires_next t := by
    unfold zeroAndSeven firesAtZeroAndSeven hour second
    dsimp only
    split_ifs <;> omega
  after t := by
    unfold zeroAndSeven hour second
    dsimp only
    split_ifs <;> omega
  least t s fired later := by
    unfold firesAtZeroAndSeven hour second at fired
    unfold zeroAndSeven hour second
    dsimp only
    split_ifs <;> omega

/-- The run of 2025-12-31T23:07:00Z. -/
def lastRun : ℤ := hour0 - 3180 * second

def cronJob : CronJob := { creationTimestamp := hour0 - 2 * hour, lastScheduleTime := some lastRun }

def minute : ℤ := 60 * second

/-- `* * * * *`: every minute. -/
def firesEveryMinute (t : ℤ) : Prop := t % minute = 0

/-- Its `Next`. -/
def everyMinute (t : ℤ) : ℤ := t - t % minute + minute

theorem everyMinute_exact : Exact everyMinute firesEveryMinute where
  fires_next t := by
    unfold everyMinute firesEveryMinute minute second
    omega
  after t := by
    unfold everyMinute minute second
    omega
  least t s fired later := by
    unfold firesEveryMinute minute second at fired
    unfold everyMinute minute second
    omega

/-- A nanosecond before the fire time `16777320` seconds after the epoch, more than `2 ^ 24`
seconds after the first fire time. -/
def lateNow : ℤ := 16777320 * second - 1

/-- A CronJob created at the epoch that has not run. -/
def idleCronJob : CronJob := { creationTimestamp := 0 }

end Runs

theorem missed_schedules_extrapolated_across_uneven_gaps :
    Exact Runs.zeroAndSeven Runs.firesAtZeroAndSeven ∧
      (∀ s, Runs.firesAtZeroAndSeven s ∧ Runs.lastRun < s ∧ s ≤ Runs.hour0 + Runs.hour ↔
        s = Runs.hour0 ∨ s = Runs.hour0 + 420 * second ∨ s = Runs.hour0 + Runs.hour) ∧
      getMostRecentScheduleTime Runs.lastRun (Runs.hour0 + Runs.hour) Runs.zeroAndSeven =
        .ok (some (Runs.hour0 + 3360 * second), 9) ∧
      ¬Runs.firesAtZeroAndSeven (Runs.hour0 + 3360 * second) ∧
      getNextScheduleTime Runs.cronJob (Runs.hour0 + Runs.hour) Runs.zeroAndSeven =
        .ok (some (Runs.hour0 + 3360 * second)) := by
  refine ⟨Runs.zeroAndSeven_exact, fun s => ?_, by decide +kernel, ?_, by decide +kernel⟩
  · unfold Runs.firesAtZeroAndSeven Runs.lastRun Runs.hour0 Runs.hour second
    omega
  · unfold Runs.firesAtZeroAndSeven Runs.hour0 Runs.hour second
    omega

/-- Every minute, three hours after the epoch: the fire times up to `now` are the minutes, and the
controller returns the last of them and counts 180. -/
theorem getMostRecentScheduleTime_of_spaced_every_minute :
    Exact Runs.everyMinute Runs.firesEveryMinute ∧ (0 : ℤ) < Runs.minute ∧ Runs.minute % second = 0 ∧
      Runs.everyMinute 0 % second = 0 ∧
      (∀ k : ℕ, Runs.everyMinute (Runs.everyMinute 0 + k * Runs.minute) = Runs.everyMinute 0 + (k + 1) * Runs.minute) ∧
      Runs.everyMinute 0 ≤ 3 * Runs.hour ∧ 3 * Runs.hour - Runs.everyMinute 0 < 2 ^ 24 * second ∧
      (∀ s, Runs.firesEveryMinute s ∧ 0 < s ∧ s ≤ 3 * Runs.hour ↔
        ∃ k : ℕ, k ≤ (3 * Runs.hour - Runs.everyMinute 0) / Runs.minute ∧ s = Runs.everyMinute 0 + k * Runs.minute) ∧
      getMostRecentScheduleTime 0 (3 * Runs.hour) Runs.everyMinute =
        .ok (some (Runs.everyMinute 0 + (3 * Runs.hour - Runs.everyMinute 0) / Runs.minute * Runs.minute),
          (3 * Runs.hour - Runs.everyMinute 0) / Runs.minute + 1) := by
  have spaced : ∀ k : ℕ, Runs.everyMinute (Runs.everyMinute 0 + k * Runs.minute) =
      Runs.everyMinute 0 + (k + 1) * Runs.minute := by
    intro k
    unfold Runs.everyMinute Runs.minute second
    omega
  have due : Runs.everyMinute 0 ≤ 3 * Runs.hour := by decide
  have recent : 3 * Runs.hour - Runs.everyMinute 0 < 2 ^ 24 * second := by decide
  exact ⟨Runs.everyMinute_exact, by decide, by decide, by decide, spaced, due, recent,
    getMostRecentScheduleTime_of_spaced Runs.everyMinute_exact (by decide) (by decide) (by decide) spaced due recent⟩

/- With more than `2 ^ 24` seconds since the first fire time, the float64 sum in `Seconds()`
carries a fraction near one into the next second: a nanosecond before a fire time, the controller
counts that fire time and returns it, although it comes after `now`. -/
example :
    Exact Runs.everyMinute Runs.firesEveryMinute ∧
      durationSeconds (Runs.lateNow - Runs.minute) = 16777260 ∧ (Runs.lateNow - Runs.minute) / second = 16777259 ∧
      getMostRecentScheduleTime 0 Runs.lateNow Runs.everyMinute = .ok (some (Runs.lateNow + 1), 279622) ∧
      Runs.lateNow < Runs.lateNow + 1 ∧
      getNextScheduleTime Runs.idleCronJob Runs.lateNow Runs.everyMinute = .ok (some (Runs.lateNow + 1)) :=
  ⟨Runs.everyMinute_exact, by decide +kernel, by decide, by decide +kernel, by decide, by decide +kernel⟩

end Kubernetes.Controller.Cronjob
