import Mathlib.Tactic.GCongr
import Mathlib.Tactic.Ring
import Kubernetes.Library.GoInt
import Kubernetes.Scheduler.Queue.SchedulingQueue

/-! The backoff of a pod that failed to schedule (`calculateBackoffDuration` in
`pkg/scheduler/internal/queue/scheduling_queue.go`).

The loop doubles the initial duration once for each attempt after the first, and returns the
maximum as soon as a doubling would pass it. It compares `duration` with
`podMaxBackoffDuration - duration` rather than `duration + duration` with the maximum, so that
on `time.Duration`, an `int64`, nothing wraps. The model of `SchedulingQueue` computes on the
integers; here the same loop on wrapping `int64` arithmetic is shown to compute the same value,
and both are given their closed form.
-/

set_option autoImplicit false

namespace Kubernetes.Scheduler

open Kubernetes.Library

/-- The doubling loop of `calculateBackoffDuration` on `time.Duration`, where the subtraction
of the guard and the doubling wrap. -/
def doubleBackoffInt64 (maxDuration : ℤ) : ℕ → ℤ → ℤ
  | 0, duration => duration
  | rounds + 1, duration =>
    if duration > intSub maxDuration duration then maxDuration
    else doubleBackoffInt64 maxDuration rounds (intAdd duration duration)

section Doubling

variable {maxDuration : ℤ}

theorem doubleBackoff_eq_min {duration : ℤ} (positive : 0 < duration) (capped : duration ≤ maxDuration)
    (rounds : ℕ) : doubleBackoff maxDuration rounds duration = min (duration * 2 ^ rounds) maxDuration := by
  induction rounds generalizing duration with
  | zero => simp [doubleBackoff, capped]
  | succ rounds ih =>
    rw [doubleBackoff]
    split_ifs with passes
    · -- one doubling already passes the maximum, so every later power does
      have above : maxDuration ≤ duration * 2 ^ (rounds + 1) :=
        calc maxDuration ≤ duration * 2 ^ 1 := by omega
          _ ≤ duration * 2 ^ (rounds + 1) := by gcongr <;> omega
      exact (min_eq_right above).symm
    · rw [ih (by omega) (by omega), pow_succ]
      congr 1
      ring

theorem doubleBackoff_monotone {duration : ℤ} (positive : 0 < duration) (capped : duration ≤ maxDuration)
    {rounds rounds' : ℕ} (fewer : rounds ≤ rounds') :
    doubleBackoff maxDuration rounds duration ≤ doubleBackoff maxDuration rounds' duration := by
  rw [doubleBackoff_eq_min positive capped, doubleBackoff_eq_min positive capped]
  gcongr
  norm_num

theorem doubleBackoffInt64_eq {duration : ℤ} (positive : 0 < duration) (capped : duration ≤ maxDuration)
    (fits : maxDuration ≤ maxInt) (rounds : ℕ) :
    doubleBackoffInt64 maxDuration rounds duration = doubleBackoff maxDuration rounds duration := by
  induction rounds generalizing duration with
  | zero => rfl
  | succ rounds ih =>
    have difference : intSub maxDuration duration = maxDuration - duration :=
      intSub_of_fits (by omega) (by omega)
    rw [doubleBackoffInt64, doubleBackoff, difference]
    split_ifs with passes
    · rfl
    · have doubled : intAdd duration duration = duration + duration :=
        intAdd_of_fits (by omega) (by omega)
      rw [doubled, ih (by omega) (by omega)]

end Doubling

theorem calculateBackoffDuration_min (config : PriorityQueueConfig)
    (positive : 0 < config.podInitialBackoffDuration)
    (capped : config.podInitialBackoffDuration ≤ config.podMaxBackoffDuration)
    (fits : config.podMaxBackoffDuration ≤ maxInt) :
    (∀ pInfo : QueuedPodInfo,
      calculateBackoffDuration config pInfo =
          min (config.podInitialBackoffDuration * 2 ^ (max pInfo.attempts 1 - 1)) config.podMaxBackoffDuration ∧
        doubleBackoffInt64 config.podMaxBackoffDuration (pInfo.attempts - 1) config.podInitialBackoffDuration =
          calculateBackoffDuration config pInfo) ∧
    (∀ pInfo pInfo' : QueuedPodInfo, pInfo.attempts ≤ pInfo'.attempts →
      calculateBackoffDuration config pInfo ≤ calculateBackoffDuration config pInfo') ∧
    ∀ pInfo pInfo' : QueuedPodInfo, pInfo.timestamp = pInfo'.timestamp → pInfo.attempts ≤ pInfo'.attempts →
      getBackoffTime config pInfo ≤ getBackoffTime config pInfo' := by
  have monotone : ∀ pInfo pInfo' : QueuedPodInfo, pInfo.attempts ≤ pInfo'.attempts →
      calculateBackoffDuration config pInfo ≤ calculateBackoffDuration config pInfo' := by
    intro pInfo pInfo' fewer
    exact doubleBackoff_monotone positive capped (by omega)
  refine ⟨fun pInfo => ⟨?_, ?_⟩, monotone, ?_⟩
  · -- the loop runs once for each attempt after the first
    have rounds : max pInfo.attempts 1 - 1 = pInfo.attempts - 1 := by omega
    rw [rounds]
    exact doubleBackoff_eq_min positive capped _
  · exact doubleBackoffInt64_eq positive capped fits _
  · intro pInfo pInfo' same fewer
    unfold getBackoffTime
    have later := monotone pInfo pInfo' fewer
    omega

/-- With the defaults, one second doubled for each attempt after the first and capped at ten
seconds, the fourth attempt waits eight seconds. -/
theorem calculateBackoffDuration_min_default :
    0 < Runs.defaultConfig.podInitialBackoffDuration ∧
      Runs.defaultConfig.podInitialBackoffDuration ≤ Runs.defaultConfig.podMaxBackoffDuration ∧
      Runs.defaultConfig.podMaxBackoffDuration ≤ maxInt ∧
      calculateBackoffDuration Runs.defaultConfig { newQueuedPodInfo 0 Runs.web [] with attempts := 4 } =
        8000000000 := by
  have positive : 0 < Runs.defaultConfig.podInitialBackoffDuration := by decide
  have capped : Runs.defaultConfig.podInitialBackoffDuration ≤ Runs.defaultConfig.podMaxBackoffDuration := by
    decide
  have fits : Runs.defaultConfig.podMaxBackoffDuration ≤ maxInt := by decide
  refine ⟨positive, capped, fits, ?_⟩
  rw [((calculateBackoffDuration_min Runs.defaultConfig positive capped fits).1 _).1]
  decide

end Kubernetes.Scheduler
