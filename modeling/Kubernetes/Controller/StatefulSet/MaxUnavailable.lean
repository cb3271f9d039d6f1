import Kubernetes.Controller.StatefulSet.Ordering
import Kubernetes.Library.Slice

/-! The rolling update under the `MaxUnavailableStatefulSet` gate
(`updateStatefulSetAfterInvariantEstablished` in `stateful_set_control.go`), and what validation
accepts as `MaxUnavailable` (`validateRollingUpdateStatefulSet` in `apps/validation`).

With the gate the sync ends by counting the replicas that are not healthy and deleting, from the
highest ordinal down to the partition, as many outdated replicas as `MaxUnavailable` leaves room
for. `MaxUnavailable` is a percentage of the replica count rounded down, and nothing raises it
to one: a percentage that validation accepts scales to zero on a set of fewer than a hundred
replicas per percent, and then no replica is ever deleted for the update.
-/

set_option autoImplicit false

namespace Kubernetes.Controller.Statefulset

open Kubernetes.Controller.Deployment (IntOrString getScaledValueFromIntOrPercent)

/-! ## Validation -/

/-- `field.Invalid` errors, each with its field path and detail. -/
abbrev ErrorList := List (String × String)

def isNegativeErrorMsg : String := "must be greater than or equal to 0"

/-- `validation.IsValidPercent` on the string `value%`, whose digits are `value`'s: it matches
`[0-9]+%` unless `value` has a sign. -/
def isValidPercent (value : ℤ) : List String :=
  if 0 ≤ value then []
  else ["a valid percent string must be a numeric string followed by an ending '%' " ++
    "(e.g. '1%',  or '93%', regex used for validation is '[0-9]+%')"]

def validatePositiveIntOrPercent (intOrPercent : IntOrString) (fldPath : String) : ErrorList :=
  match intOrPercent with
  | .percent value => (isValidPercent value).map fun msg => (fldPath, msg)
  | .int value => if value < 0 then [(fldPath, isNegativeErrorMsg)] else []

/-- `getPercentValue`: the number of a valid percentage. -/
def getPercentValue : IntOrString → Option ℤ
  | .percent value => if isValidPercent value = [] then some value else none
  | .int _ => none

/-- `getIntOrPercentValue`; `IntValue` of a string that is not a number is 0. -/
def getIntOrPercentValue (intOrPercent : IntOrString) : ℤ :=
  match getPercentValue intOrPercent, intOrPercent with
  | some value, _ => value
  | none, .int value => value
  | none, .percent _ => 0

def isNotMoreThan100Percent (intOrPercent : IntOrString) (fldPath : String) : ErrorList :=
  match getPercentValue intOrPercent with
  | some value => if value ≤ 100 then [] else [(fldPath, "must not be greater than 100%")]
  | none => []

def validateRollingUpdateStatefulSet (partition : ℤ) (maxUnavailable : Option IntOrString)
    (fldPath : String) : ErrorList :=
  let fldPathMaxUn := fldPath ++ ".maxUnavailable"
  let allErrs := if partition < 0 then [(fldPath ++ ".partition", isNegativeErrorMsg)] else []
  match maxUnavailable with
  | none => allErrs
  | some value =>
    allErrs ++ validatePositiveIntOrPercent value fldPathMaxUn ++
      (if getIntOrPercentValue value = 0 then [(fldPathMaxUn, "cannot be 0")] else []) ++
      isNotMoreThan100Percent value fldPathMaxUn

/-- What validation accepts as `MaxUnavailable`: a positive integer, or a percentage from 1% to
100%. -/
def AcceptedMaxUnavailable : IntOrString → Prop
  | .int value => 0 < value
  | .percent value => 1 ≤ value ∧ value ≤ 100

instance (value : IntOrString) : Decidable (AcceptedMaxUnavailable value) := by
  cases value <;> unfold AcceptedMaxUnavailable <;> exact inferInstance

@[simp] theorem getPercentValue_int (value : ℤ) : getPercentValue (.int value) = none := rfl

theorem getPercentValue_percent (value : ℤ) :
    getPercentValue (.percent value) = if 0 ≤ value then some value else none := by
  by_cases nonneg : 0 ≤ value <;> simp [getPercentValue, isValidPercent, nonneg]

@[simp] theorem getIntOrPercentValue_int (value : ℤ) : getIntOrPercentValue (.int value) = value := rfl

theorem maxUnavailableErrors_eq_nil_iff (value : IntOrString) (fldPath : String) :
    validatePositiveIntOrPercent value fldPath ++
        ((if getIntOrPercentValue value = 0 then [(fldPath, "cannot be 0")] else []) ++
          isNotMoreThan100Percent value fldPath) = [] ↔
      AcceptedMaxUnavailable value := by
  cases value with
  | int value =>
    simp only [validatePositiveIntOrPercent, getIntOrPercentValue_int, isNotMoreThan100Percent,
      getPercentValue_int, AcceptedMaxUnavailable, List.append_nil, List.append_eq_nil_iff]
    by_cases negative : value < 0 <;> by_cases zero : value = 0 <;> simp [negative, zero] <;> omega
  | percent value =>
    by_cases nonneg : 0 ≤ value
    · have read : getIntOrPercentValue (.percent value) = value := by
        simp [getIntOrPercentValue, getPercentValue_percent, nonneg]
      simp only [validatePositiveIntOrPercent, isValidPercent, read, isNotMoreThan100Percent,
        getPercentValue_percent, AcceptedMaxUnavailable, if_pos nonneg, List.map_nil, List.nil_append]
      by_cases zero : value = 0 <;> by_cases atMost : value ≤ 100 <;> simp [zero, atMost]
      omega
    · -- a signed percentage fails its pattern
      simp only [validatePositiveIntOrPercent, isValidPercent, if_neg nonneg, AcceptedMaxUnavailable]
      simp only [List.map_cons, List.map_nil, List.cons_append, reduceCtorEq, false_iff, not_and]
      omega

theorem validateRollingUpdateStatefulSet_eq_nil_iff (partition : ℤ) (maxUnavailable : Option IntOrString)
    (fldPath : String) :
    validateRollingUpdateStatefulSet partition maxUnavailable fldPath = [] ↔
      0 ≤ partition ∧ ∀ value ∈ maxUnavailable, AcceptedMaxUnavailable value := by
  have partitioned : (if partition < 0 then [(fldPath ++ ".partition", isNegativeErrorMsg)] else []) = [] ↔
      0 ≤ partition := by
    split_ifs with negative <;> simp [negative, le_of_not_gt]
  cases maxUnavailable with
  | none => simp [validateRollingUpdateStatefulSet, partitioned]
  | some value =>
    have errors := maxUnavailableErrors_eq_nil_iff value (fldPath ++ ".maxUnavailable")
    simp only [validateRollingUpdateStatefulSet, List.append_assoc]
    rw [List.append_eq_nil_iff, partitioned, errors]
    simp

/-! ## The update -/

/-- What `updateStatefulSetAfterInvariantEstablished` returns: the status, which is nil where a
deletion failed, the error, and the calls made. -/
structure UpdateResult where
  status : Option StatefulSetStatus
  err : Option String
  calls : List PodControlCall

section Update

-- `isNotFound` is `errors.IsNotFound` on the pod control's errors
variable (env : Env) (isNotFound : String → Bool)

/-- A replica the update deletes: not at the update revision and not terminating. -/
def outdated (pod : Pod) : Bool := getPodRevision pod != env.updateRevision && !isTerminating pod

/-- The budget of the update: `MaxUnavailable`, 1 where unset, of the replica count rounded
down (`GetValueFromIntOrPercent` computes on an integer or an `N%` what
`GetScaledValueFromIntOrPercent` does); 1 without `RollingUpdate`. -/
def maxUnavailableOf (set : StatefulSet) : ℤ :=
  match set.partition with
  | some _ => getScaledValueFromIntOrPercent (set.maxUnavailable.getD (.int 1)) set.replicas false
  | none => 1

/-- The deleting loop over the replicas with their ordinals from the highest down, while the
ordinal is at least `updateMin` and fewer than `podsToDelete` have been deleted. -/
def deleteOutdated (updateMin podsToDelete : ℤ) : List (Pod × ℕ) → ℤ → Sync → UpdateResult
  | [], _, s => ⟨some s.status, none, s.calls⟩
  | (replica, target) :: rest, deletedPods, s =>
    if updateMin ≤ target ∧ deletedPods < podsToDelete then
      if outdated env replica then
        let s := s.call (.delete replica)
        -- a pod already gone counts as deleted
        let next := deleteOutdated updateMin podsToDelete rest (deletedPods + 1)
          { s with status := { s.status with currentReplicas := s.status.currentReplicas - 1 } }
        match env.podControl.deleteStatefulPod replica with
        | some err => if isNotFound err then next else ⟨none, some err, s.calls⟩
        | none => next
      else deleteOutdated updateMin podsToDelete rest deletedPods s
    else ⟨some s.status, none, s.calls⟩

/-- The replicas the loop may delete, in the order it meets them: the outdated ones before the
first ordinal below `updateMin`. -/
def loopCandidates (updateMin : ℤ) (replicas : List (Pod × ℕ)) : List Pod :=
  ((replicas.takeWhile fun r => decide (updateMin ≤ r.2)).filter fun r => outdated env r.1).map Prod.fst

theorem loopCandidates_cons (updateMin : ℤ) (replica : Pod) (target : ℕ) (rest : List (Pod × ℕ)) :
    loopCandidates env updateMin ((replica, target) :: rest) =
      if updateMin ≤ target then
        if outdated env replica then replica :: loopCandidates env updateMin rest
        else loopCandidates env updateMin rest
      else [] := by
  by_cases above : updateMin ≤ target <;> by_cases old : outdated env replica <;>
    simp [loopCandidates, above, old]

theorem deleteOutdated_deletes (updateMin podsToDelete : ℤ) :
    ∀ (replicas : List (Pod × ℕ)) (deletedPods : ℤ) (s : Sync),
      ∃ chosen, (deleteOutdated env isNotFound updateMin podsToDelete replicas deletedPods s).calls =
          s.calls ++ chosen.map .delete ∧
        chosen <+: (loopCandidates env updateMin replicas).take (podsToDelete - deletedPods).toNat ∧
        ((deleteOutdated env isNotFound updateMin podsToDelete replicas deletedPods s).err = none →
          chosen = (loopCandidates env updateMin replicas).take (podsToDelete - deletedPods).toNat)
  | [], _, s => ⟨[], by simp [deleteOutdated], by simp, fun _ => by simp [loopCandidates]⟩
  | (replica, target) :: rest, deletedPods, s => by
    by_cases within : updateMin ≤ target ∧ deletedPods < podsToDelete
    · obtain ⟨above, room⟩ := within
      have budget : (podsToDelete - deletedPods).toNat = (podsToDelete - (deletedPods + 1)).toNat + 1 := by
        omega
      by_cases old : outdated env replica
      · -- the replica is deleted, and the loop goes on unless the deletion failed
        have planned : (loopCandidates env updateMin ((replica, target) :: rest)).take
            (podsToDelete - deletedPods).toNat =
              replica :: (loopCandidates env updateMin rest).take (podsToDelete - (deletedPods + 1)).toNat := by
          rw [loopCandidates_cons, if_pos above, if_pos old, budget, List.take_succ_cons]
        let s' : Sync := s.call (.delete replica)
        let next : Sync := { s' with status := { s'.status with currentReplicas := s'.status.currentReplicas - 1 } }
        let result := deleteOutdated env isNotFound updateMin podsToDelete rest (deletedPods + 1) next
        let later := (loopCandidates env updateMin rest).take (podsToDelete - (deletedPods + 1)).toNat
        obtain ⟨chosen, calls, prefix_, complete⟩ :=
          deleteOutdated_deletes updateMin podsToDelete rest (deletedPods + 1) next
        have goesOn : ∃ chosen, result.calls = s.calls ++ chosen.map .delete ∧
            chosen <+: replica :: later ∧ (result.err = none → chosen = replica :: later) :=
          ⟨replica :: chosen, by rw [calls]; simp [next, s'], (List.prefix_cons_inj replica).mpr prefix_,
            fun succeeded => by rw [complete succeeded]⟩
        rw [planned]
        simp only [deleteOutdated, if_pos (And.intro above room), if_pos old]
        cases answer : env.podControl.deleteStatefulPod replica with
        | none => exact goesOn
        | some err =>
          by_cases gone : isNotFound err = true
          · simpa only [if_pos gone] using goesOn
          · simp only [if_neg gone]
            exact ⟨[replica], rfl, by simp, fun failed => absurd failed (by simp)⟩
      · have planned : loopCandidates env updateMin ((replica, target) :: rest) =
            loopCandidates env updateMin rest := by
          rw [loopCandidates_cons, if_pos above, if_neg old]
        rw [planned]
        simp only [deleteOutdated, if_pos (And.intro above room), if_neg old]
        exact deleteOutdated_deletes updateMin podsToDelete rest deletedPods s
    · -- the loop ends here: below the partition nothing is a candidate, and a spent budget takes none
      have nothing : (loopCandidates env updateMin ((replica, target) :: rest)).take
          (podsToDelete - deletedPods).toNat = [] := by
        by_cases above : updateMin ≤ target
        · have spent : (podsToDelete - deletedPods).toNat = 0 := by omega
          rw [spent, List.take_zero]
        · rw [loopCandidates_cons, if_neg above, List.take_nil]
      rw [nothing]
      simp only [deleteOutdated, if_neg within]
      exact ⟨[], by simp, by simp, fun _ => rfl⟩

def updateStatefulSetAfterInvariantEstablished (replicas : List Pod) (s : Sync) : UpdateResult :=
  let updateMin := env.set.partition.getD 0
  let maxUnavailable := maxUnavailableOf env.set
  let unavailablePods := (replicas.filter fun pod => !isHealthy pod).length
  if maxUnavailable ≤ unavailablePods then ⟨some s.status, none, s.calls⟩
  else
    deleteOutdated env isNotFound updateMin (maxUnavailable - unavailablePods) replicas.zipIdx.reverse 0 s

/-- The replicas the update may delete, from the highest ordinal down: the outdated ones with an
ordinal of at least the partition. -/
def updateCandidates (replicas : List Pod) : List Pod :=
  ((replicas.zipIdx.reverse.filter fun r => decide (env.set.partition.getD 0 ≤ r.2)).filter
    fun r => outdated env r.1).map Prod.fst

theorem loopCandidates_zipIdx (replicas : List Pod) :
    loopCandidates env (env.set.partition.getD 0) replicas.zipIdx.reverse = updateCandidates env replicas := by
  have rising : ∀ i j : ℕ, i < j → decide (env.set.partition.getD 0 ≤ i) = true →
      decide (env.set.partition.getD 0 ≤ j) = true := by
    intro i j lower above
    simp only [decide_eq_true_eq] at above ⊢
    omega
  unfold loopCandidates updateCandidates
  rw [Library.takeWhile_zipIdx_reverse replicas rising]

/-- With the gate, the update deletes the first of the outdated replicas from the highest ordinal
down to the partition, as many as `MaxUnavailable` leaves room for beside the replicas that are
not healthy; all of those unless a deletion fails. -/
theorem updateStatefulSetAfterInvariantEstablished_deletes (replicas : List Pod) (s : Sync) :
    let unavailablePods := (replicas.filter fun pod => !isHealthy pod).length
    let planned := (updateCandidates env replicas).take (maxUnavailableOf env.set - unavailablePods).toNat
    ∃ chosen, (updateStatefulSetAfterInvariantEstablished env isNotFound replicas s).calls =
        s.calls ++ chosen.map .delete ∧ chosen <+: planned ∧
      ((updateStatefulSetAfterInvariantEstablished env isNotFound replicas s).err = none → chosen = planned) := by
  intro unavailablePods planned
  unfold updateStatefulSetAfterInvariantEstablished
  dsimp only
  split_ifs with full
  · -- no room: the budget is spent before the loop
    have spent : (maxUnavailableOf env.set - unavailablePods).toNat = 0 := by omega
    exact ⟨[], by simp, by simp, fun _ => by simp [planned, spent]⟩
  · have loop := deleteOutdated_deletes env isNotFound (env.set.partition.getD 0)
      (maxUnavailableOf env.set - unavailablePods) replicas.zipIdx.reverse 0 s
    rw [loopCandidates_zipIdx, sub_zero] at loop
    exact loop

theorem updateStatefulSetAfterInvariantEstablished_of_zero (replicas : List Pod) (s : Sync)
    (zero : maxUnavailableOf env.set = 0) :
    (updateStatefulSetAfterInvariantEstablished env isNotFound replicas s).calls = s.calls := by
  unfold updateStatefulSetAfterInvariantEstablished
  dsimp only
  rw [if_pos (by omega)]

end Update

/-- The `MaxUnavailable` of a set with `RollingUpdate` that validation accepts scales to zero
exactly when it is a percentage that comes to less than one replica. -/
theorem maxUnavailableOf_eq_zero_iff {set : StatefulSet} {partition : ℤ} (rolling : set.partition = some partition)
    {fldPath : String} (validated : validateRollingUpdateStatefulSet partition set.maxUnavailable fldPath = []) :
    maxUnavailableOf set = 0 ↔ ∃ value, set.maxUnavailable = some (.percent value) ∧ value * set.replicas < 100 := by
  have accepted := ((validateRollingUpdateStatefulSet_eq_nil_iff partition set.maxUnavailable fldPath).mp validated).2
  unfold maxUnavailableOf
  rw [rolling]
  cases unavailable : set.maxUnavailable with
  | none => simp [getScaledValueFromIntOrPercent]
  | some value =>
    have valid := accepted value unavailable
    cases value with
    | int value =>
      simp only [AcceptedMaxUnavailable] at valid
      simp [getScaledValueFromIntOrPercent, valid.ne']
    | percent value =>
      simp only [AcceptedMaxUnavailable] at valid
      have product : 0 ≤ value * set.replicas := Int.mul_nonneg (by omega) (Int.natCast_nonneg _)
      simp only [Option.getD_some, getScaledValueFromIntOrPercent, Bool.false_eq_true, if_false,
        Option.some.injEq, IntOrString.percent.injEq, exists_eq_left']
      omega

/-- 5% of ten replicas passes validation and scales to zero. -/
theorem maxUnavailableOf_eq_zero_iff_five_percent :
    let set : StatefulSet := { Runs.web 10 with maxUnavailable := some (.percent 5) }
    set.partition = some 0 ∧
      validateRollingUpdateStatefulSet 0 set.maxUnavailable "spec.updateStrategy.rollingUpdate" = [] ∧
      (maxUnavailableOf set = 0 ↔ ∃ value, set.maxUnavailable = some (.percent value) ∧ value * set.replicas < 100) := by
  intro set
  have validated : validateRollingUpdateStatefulSet 0 set.maxUnavailable "spec.updateStrategy.rollingUpdate" = [] := by
    decide +kernel
  exact ⟨rfl, validated, maxUnavailableOf_eq_zero_iff rfl validated⟩

namespace Runs

/-- Ten replicas at revision web-7, rolled out to web-8 with `MaxUnavailable` at 1%. -/
def rolloutEnv : Env :=
  { webEnv 10 with
    set := { web 10 with maxUnavailable := some (.percent 1) }
    updateRevision := "web-8" }

def webReplicas : List Pod := (List.range 10).map readyPod

/-- Validation accepts 1%, every replica is healthy and outdated, and 1% of ten replicas rounds
down to none: whatever the pod control answers, the update deletes no replica, in this sync and
in every later one. -/
theorem percent_max_unavailable_stalls_rollout :
    validateRollingUpdateStatefulSet 0 rolloutEnv.set.maxUnavailable "spec.updateStrategy.rollingUpdate" = [] ∧
      (webReplicas.filter fun pod => !isHealthy pod).length = 0 ∧
      updateCandidates rolloutEnv webReplicas = webReplicas.reverse ∧
      maxUnavailableOf rolloutEnv.set = 0 ∧
      ∀ (isNotFound : String → Bool) (s : Sync),
        (updateStatefulSetAfterInvariantEstablished rolloutEnv isNotFound webReplicas s).calls = s.calls := by
  have zero : maxUnavailableOf rolloutEnv.set = 0 := by decide
  refine ⟨by decide +kernel, by decide +kernel, by decide +kernel, zero, fun isNotFound s => ?_⟩
  exact updateStatefulSetAfterInvariantEstablished_of_zero rolloutEnv isNotFound webReplicas s zero

end Runs

end Kubernetes.Controller.Statefulset
