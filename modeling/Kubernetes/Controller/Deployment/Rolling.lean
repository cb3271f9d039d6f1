import Mathlib

/-! One sync of a RollingUpdate deployment (`pkg/controller/deployment/rolling.go`): scale
the new replica set up or down, or else clean up unhealthy replicas of the old ones and scale
them down as far as availability allows.

A replica set is its spec replicas and its available replicas, with the creation timestamp
and name its order uses. Counts are exact integers. The calls to the API server succeed and
are applied to the replica sets; the functions return the replica sets as they are afterwards.
The new replica set exists. Int-or-percent values are validated, so a string is a percentage
and its number is given.
-/

set_option autoImplicit false
set_option linter.dupNamespace false

namespace Kubernetes.Controller.Deployment

inductive IntOrString where
  | int (value : ℤ)
  /-- The string `value%`. -/
  | percent (value : ℤ)
  deriving DecidableEq, Repr

/-- `getIntOrPercentValue`. -/
def IntOrString.value : IntOrString → ℤ
  | .int value => value
  | .percent value => value

/-- `intstr.GetScaledValueFromIntOrPercent` in exact arithmetic: a percentage of `total`,
rounded up or down. -/
def getScaledValueFromIntOrPercent (intOrPercent : IntOrString) (total : ℤ) (roundUp : Bool) : ℤ :=
  match intOrPercent with
  | .int value => value
  | .percent value => if roundUp then -(-(value * total) / 100) else value * total / 100

structure RollingUpdateDeployment where
  maxUnavailable : IntOrString
  maxSurge : IntOrString
  deriving DecidableEq, Repr

structure Deployment where
  replicas : ℤ
  rollingUpdate : RollingUpdateDeployment
  deriving DecidableEq, Repr

/-- What validation accepts: a non-negative size, non-negative surge and unavailability, not
both zero, and an unavailability of at most 100%. -/
def Deployment.Valid (d : Deployment) : Prop :=
  0 ≤ d.replicas ∧ 0 ≤ d.rollingUpdate.maxUnavailable.value ∧ 0 ≤ d.rollingUpdate.maxSurge.value ∧
    ¬(d.rollingUpdate.maxUnavailable.value = 0 ∧ d.rollingUpdate.maxSurge.value = 0) ∧
    (match d.rollingUpdate.maxUnavailable with
      | .percent value => value ≤ 100
      | .int _ => True)

instance (d : Deployment) : Decidable d.Valid := by
  unfold Deployment.Valid
  split <;> exact inferInstance

structure ReplicaSet where
  /-- `Spec.Replicas`. -/
  replicas : ℤ
  /-- `Status.AvailableReplicas`. -/
  availableReplicas : ℤ
  creationTimestamp : ℕ
  name : String
  deriving DecidableEq, Repr

/-! ## deploymentutil -/

/-- `ResolveFenceposts`: surge rounds up, unavailability down, and when both come to zero one
pod may be unavailable. -/
def resolveFenceposts (maxSurge maxUnavailable : IntOrString) (desired : ℤ) : ℤ × ℤ :=
  let surge := getScaledValueFromIntOrPercent maxSurge desired true
  let unavailable := getScaledValueFromIntOrPercent maxUnavailable desired false
  if surge = 0 ∧ unavailable = 0 then (surge, 1) else (surge, unavailable)

/-- `MaxUnavailable`, at most the deployment's size. -/
def maxUnavailable (d : Deployment) : ℤ :=
  if d.replicas = 0 then 0
  else
    let unavailable := (resolveFenceposts d.rollingUpdate.maxSurge d.rollingUpdate.maxUnavailable d.replicas).2
    if unavailable > d.replicas then d.replicas else unavailable

def maxSurge (d : Deployment) : ℤ :=
  (resolveFenceposts d.rollingUpdate.maxSurge d.rollingUpdate.maxUnavailable d.replicas).1

def getReplicaCountForReplicaSets (replicaSets : List ReplicaSet) : ℤ :=
  (replicaSets.map (·.replicas)).sum

def getAvailableReplicaCountForReplicaSets (replicaSets : List ReplicaSet) : ℤ :=
  (replicaSets.map (·.availableReplicas)).sum

@[simp] theorem getReplicaCountForReplicaSets_append (first second : List ReplicaSet) :
    getReplicaCountForReplicaSets (first ++ second) =
      getReplicaCountForReplicaSets first + getReplicaCountForReplicaSets second := by
  simp [getReplicaCountForReplicaSets]

@[simp] theorem getReplicaCountForReplicaSets_singleton (rs : ReplicaSet) :
    getReplicaCountForReplicaSets [rs] = rs.replicas := by
  simp [getReplicaCountForReplicaSets]

@[simp] theorem getAvailableReplicaCountForReplicaSets_append (first second : List ReplicaSet) :
    getAvailableReplicaCountForReplicaSets (first ++ second) =
      getAvailableReplicaCountForReplicaSets first + getAvailableReplicaCountForReplicaSets second := by
  simp [getAvailableReplicaCountForReplicaSets]

@[simp] theorem getAvailableReplicaCountForReplicaSets_singleton (rs : ReplicaSet) :
    getAvailableReplicaCountForReplicaSets [rs] = rs.availableReplicas := by
  simp [getAvailableReplicaCountForReplicaSets]

/-- `NewRSNewReplicas` for a RollingUpdate deployment: grow the new replica set as far as the
surge allows, but not past the deployment's size. -/
def newRSNewReplicas (d : Deployment) (allRSs : List ReplicaSet) (newRS : ReplicaSet) : ℤ :=
  let maxSurge := getScaledValueFromIntOrPercent d.rollingUpdate.maxSurge d.replicas true
  let currentPodCount := getReplicaCountForReplicaSets allRSs
  let maxTotalPods := d.replicas + maxSurge
  if currentPodCount ≥ maxTotalPods then newRS.replicas
  else
    let scaleUpCount := maxTotalPods - currentPodCount
    let scaleUpCount := min scaleUpCount (d.replicas - newRS.replicas)
    newRS.replicas + scaleUpCount

def filterActiveReplicaSets (replicaSets : List ReplicaSet) : List ReplicaSet :=
  replicaSets.filter (·.replicas > 0)

/-- `ReplicaSetsByCreationTimestamp`: the older first, and by name at the same time. -/
def creationOrder (first second : ReplicaSet) : Bool :=
  if first.creationTimestamp = second.creationTimestamp then decide (first.name < second.name)
  else decide (first.creationTimestamp < second.creationTimestamp)

def sortByCreationTimestamp (replicaSets : List ReplicaSet) : List ReplicaSet :=
  replicaSets.mergeSort fun first second => !creationOrder second first

/-! ## rolling.go -/

/-- `scaleReplicaSetAndRecordEvent`: whether the size changed, and the replica set after. -/
def scaleReplicaSetAndRecordEvent (rs : ReplicaSet) (newScale : ℤ) : Bool × ReplicaSet :=
  if rs.replicas = newScale then (false, rs) else (true, { rs with replicas := newScale })

def reconcileNewReplicaSet (allRSs : List ReplicaSet) (newRS : ReplicaSet) (d : Deployment) :
    Bool × ReplicaSet :=
  if newRS.replicas = d.replicas then (false, newRS)
  else if newRS.replicas > d.replicas then scaleReplicaSetAndRecordEvent newRS d.replicas
  else scaleReplicaSetAndRecordEvent newRS (newRSNewReplicas d allRSs newRS)

/-- The loop shared by `cleanupUnhealthyReplicas` and `scaleDownOldReplicaSetsForRollingUpdate`:
walk the replica sets until `budget` replicas are gone, pass over those without replicas and
those `skip` names, and take `amount rs remaining` from each other one. A count that would
scale up is an error and ends the loop. The result is the replica sets afterwards and the
total taken, or none for the error. -/
def scaleDownInOrder (skip : ReplicaSet → Bool) (amount : ReplicaSet → ℤ → ℤ) (budget : ℤ) :
    List ReplicaSet → ℤ → List ReplicaSet × Option ℤ
  | [], totalScaledDown => ([], some totalScaledDown)
  | targetRS :: rest, totalScaledDown =>
    if totalScaledDown ≥ budget then (targetRS :: rest, some totalScaledDown)
    else if targetRS.replicas = 0 ∨ skip targetRS then
      let next := scaleDownInOrder skip amount budget rest totalScaledDown
      (targetRS :: next.1, next.2)
    else
      let scaledDownCount := amount targetRS (budget - totalScaledDown)
      let newReplicasCount := targetRS.replicas - scaledDownCount
      if newReplicasCount > targetRS.replicas then (targetRS :: rest, none)
      else
        let next := scaleDownInOrder skip amount budget rest (totalScaledDown + scaledDownCount)
        ((scaleReplicaSetAndRecordEvent targetRS newReplicasCount).2 :: next.1, next.2)

/-- `cleanupUnhealthyReplicas`: remove up to `maxCleanupCount` replicas that are not
available, oldest replica set first. -/
def cleanupUnhealthyReplicas (oldRSs : List ReplicaSet) (maxCleanupCount : ℤ) : List ReplicaSet × Option ℤ :=
  scaleDownInOrder (fun targetRS => targetRS.replicas = targetRS.availableReplicas)
    (fun targetRS remaining => min remaining (targetRS.replicas - targetRS.availableReplicas))
    maxCleanupCount (sortByCreationTimestamp oldRSs) 0

/-- `scaleDownOldReplicaSetsForRollingUpdate`: remove the available pods above the minimum,
oldest replica set first. -/
def scaleDownOldReplicaSetsForRollingUpdate (allRSs oldRSs : List ReplicaSet) (d : Deployment) :
    List ReplicaSet × Option ℤ :=
  let minAvailable := d.replicas - maxUnavailable d
  let availablePodCount := getAvailableReplicaCountForReplicaSets allRSs
  if availablePodCount ≤ minAvailable then (oldRSs, some 0)
  else
    scaleDownInOrder (fun _ => false) (fun targetRS remaining => min targetRS.replicas remaining)
      (availablePodCount - minAvailable) (sortByCreationTimestamp oldRSs) 0

/-- `reconcileOldReplicaSets` over the active old replica sets; the errors of its two loops
are dropped, as the source drops them. -/
def reconcileOldReplicaSets (allRSs oldRSs : List ReplicaSet) (newRS : ReplicaSet) (d : Deployment) :
    Bool × List ReplicaSet :=
  let oldPodsCount := getReplicaCountForReplicaSets oldRSs
  if oldPodsCount = 0 then (false, oldRSs)
  else
    let allPodsCount := getReplicaCountForReplicaSets allRSs
    let minAvailable := d.replicas - maxUnavailable d
    let newRSUnavailablePodCount := newRS.replicas - newRS.availableReplicas
    let maxScaledDown := allPodsCount - minAvailable - newRSUnavailablePodCount
    if maxScaledDown ≤ 0 then (false, oldRSs)
    else
      let cleaned := cleanupUnhealthyReplicas oldRSs maxScaledDown
      match cleaned.2 with
      | none => (false, cleaned.1)
      | some cleanupCount =>
        let scaled := scaleDownOldReplicaSetsForRollingUpdate (cleaned.1 ++ [newRS]) cleaned.1 d
        match scaled.2 with
        | none => (false, scaled.1)
        | some scaledDownCount => (cleanupCount + scaledDownCount > 0, scaled.1)

/-- The replica sets after `rolloutRolling`: the old ones (the inactive ones untouched) and
the new one. -/
def rolloutRolling (d : Deployment) (oldRSs : List ReplicaSet) (newRS : ReplicaSet) :
    List ReplicaSet × ReplicaSet :=
  let allRSs := oldRSs ++ [newRS]
  let scaledUp := reconcileNewReplicaSet allRSs newRS d
  if scaledUp.1 then (oldRSs, scaledUp.2)
  else
    let scaledDown := reconcileOldReplicaSets allRSs (filterActiveReplicaSets oldRSs) newRS d
    (oldRSs.filter (fun rs => !decide (rs.replicas > 0)) ++ scaledDown.2, newRS)

/-! ## Scaling down without losing more available pods than replicas -/

/-- The available pods once each replica set has its new size, when a scale-down removes
unavailable pods first: a replica set keeps at most as many available pods as its size. -/
def availableAfterScaling (replicaSets : List ReplicaSet) : ℤ :=
  (replicaSets.map fun rs => min rs.availableReplicas rs.replicas).sum

@[simp] theorem availableAfterScaling_append (first second : List ReplicaSet) :
    availableAfterScaling (first ++ second) = availableAfterScaling first + availableAfterScaling second := by
  simp [availableAfterScaling]

@[simp] theorem availableAfterScaling_singleton (rs : ReplicaSet) :
    availableAfterScaling [rs] = min rs.availableReplicas rs.replicas := by
  simp [availableAfterScaling]

@[simp] theorem scaleReplicaSetAndRecordEvent_snd (rs : ReplicaSet) (newScale : ℤ) :
    (scaleReplicaSetAndRecordEvent rs newScale).2 = { rs with replicas := newScale } := by
  unfold scaleReplicaSetAndRecordEvent
  split
  next same => rw [← same]
  next => rfl

/-- Replica sets after some were scaled down: no size grows, the statuses stay, and each
available pod lost costs a replica. -/
structure Shrinks (before after : List ReplicaSet) : Prop where
  count_le : getReplicaCountForReplicaSets after ≤ getReplicaCountForReplicaSets before
  available_eq : getAvailableReplicaCountForReplicaSets after = getAvailableReplicaCountForReplicaSets before
  lost_le : availableAfterScaling before - availableAfterScaling after ≤
    getReplicaCountForReplicaSets before - getReplicaCountForReplicaSets after

namespace Shrinks

theorem refl (replicaSets : List ReplicaSet) : Shrinks replicaSets replicaSets :=
  ⟨le_rfl, rfl, by omega⟩

theorem trans {first second third : List ReplicaSet} (earlier : Shrinks first second)
    (later : Shrinks second third) : Shrinks first third where
  count_le := later.count_le.trans earlier.count_le
  available_eq := later.available_eq.trans earlier.available_eq
  lost_le := by
    have := earlier.lost_le
    have := later.lost_le
    omega

theorem of_perm {before after : List ReplicaSet} (perm : before.Perm after) : Shrinks before after where
  count_le := (perm.map _).sum_eq.ge
  available_eq := (perm.map _).sum_eq.symm
  lost_le := by
    have counts := (perm.map (·.replicas)).sum_eq
    have available := (perm.map fun rs => min rs.availableReplicas rs.replicas).sum_eq
    unfold availableAfterScaling getReplicaCountForReplicaSets
    omega

theorem cons (rs : ReplicaSet) {before after : List ReplicaSet} (rest : Shrinks before after) :
    Shrinks (rs :: before) (rs :: after) where
  count_le := by
    have := rest.count_le
    simp only [getReplicaCountForReplicaSets, List.map_cons, List.sum_cons] at this ⊢
    omega
  available_eq := by
    have := rest.available_eq
    simp only [getAvailableReplicaCountForReplicaSets, List.map_cons, List.sum_cons] at this ⊢
    omega
  lost_le := by
    have := rest.lost_le
    simp only [availableAfterScaling, getReplicaCountForReplicaSets, List.map_cons, List.sum_cons] at this ⊢
    omega

theorem cons_scaled (rs : ReplicaSet) {newScale : ℤ} (lower : newScale ≤ rs.replicas)
    {before after : List ReplicaSet} (rest : Shrinks before after) :
    Shrinks (rs :: before) ({ rs with replicas := newScale } :: after) where
  count_le := by
    have := rest.count_le
    simp only [getReplicaCountForReplicaSets, List.map_cons, List.sum_cons] at this ⊢
    omega
  available_eq := by
    have := rest.available_eq
    simp only [getAvailableReplicaCountForReplicaSets, List.map_cons, List.sum_cons] at this ⊢
    omega
  lost_le := by
    have := rest.lost_le
    simp only [availableAfterScaling, getReplicaCountForReplicaSets, List.map_cons, List.sum_cons] at this ⊢
    omega

theorem append_left (kept : List ReplicaSet) {before after : List ReplicaSet} (rest : Shrinks before after) :
    Shrinks (kept ++ before) (kept ++ after) := by
  induction kept with
  | nil => exact rest
  | cons rs kept shrinks => exact shrinks.cons rs

end Shrinks

theorem getAvailableReplicaCountForReplicaSets_nonneg {replicaSets : List ReplicaSet}
    (counted : ∀ rs ∈ replicaSets, 0 ≤ rs.availableReplicas) :
    0 ≤ getAvailableReplicaCountForReplicaSets replicaSets :=
  List.sum_nonneg (by simpa using counted)

theorem availableAfterScaling_of_le {replicaSets : List ReplicaSet}
    (bounded : ∀ rs ∈ replicaSets, rs.availableReplicas ≤ rs.replicas) :
    availableAfterScaling replicaSets = getAvailableReplicaCountForReplicaSets replicaSets := by
  unfold availableAfterScaling getAvailableReplicaCountForReplicaSets
  congr 1
  exact List.map_congr_left fun rs member => min_eq_left (bounded rs member)

/-! ## The scale-down loop -/

section ScaleDownInOrder

variable (skip : ReplicaSet → Bool) (amount : ReplicaSet → ℤ → ℤ) (budget : ℤ)

theorem scaleDownInOrder_shrinks (within : ∀ rs remaining, amount rs remaining ≤ remaining) :
    ∀ (replicaSets : List ReplicaSet) (total : ℤ), total ≤ budget →
      Shrinks replicaSets (scaleDownInOrder skip amount budget replicaSets total).1 ∧
        getReplicaCountForReplicaSets replicaSets -
          getReplicaCountForReplicaSets (scaleDownInOrder skip amount budget replicaSets total).1 ≤ budget - total
  | [], total, _ => ⟨Shrinks.refl [], by simp [scaleDownInOrder]; omega⟩
  | targetRS :: rest, total, inBudget => by
    dsimp only [scaleDownInOrder]
    split_ifs with done passed scaledUp
    · exact ⟨Shrinks.refl _, by dsimp only; omega⟩
    · obtain ⟨shrinks, removed⟩ := scaleDownInOrder_shrinks within rest total inBudget
      refine ⟨shrinks.cons targetRS, ?_⟩
      simp only [getReplicaCountForReplicaSets, List.map_cons, List.sum_cons] at removed ⊢
      omega
    · exact ⟨Shrinks.refl _, by dsimp only; omega⟩
    · -- the amount taken is within what is left of the budget
      have taken := within targetRS (budget - total)
      obtain ⟨shrinks, removed⟩ :=
        scaleDownInOrder_shrinks within rest (total + amount targetRS (budget - total)) (by omega)
      refine ⟨by simpa using shrinks.cons_scaled targetRS (by omega), ?_⟩
      simp only [scaleReplicaSetAndRecordEvent_snd, getReplicaCountForReplicaSets, List.map_cons,
        List.sum_cons] at removed ⊢
      omega

theorem scaleDownInOrder_forall (property : ReplicaSet → Prop)
    (keeps : ∀ rs remaining, property rs → 0 < remaining → ¬(rs.replicas = 0 ∨ skip rs = true) →
      rs.replicas - amount rs remaining ≤ rs.replicas →
        property { rs with replicas := rs.replicas - amount rs remaining }) :
    ∀ (replicaSets : List ReplicaSet) (total : ℤ), (∀ rs ∈ replicaSets, property rs) →
      ∀ rs ∈ (scaleDownInOrder skip amount budget replicaSets total).1, property rs
  | [], _, _ => by simp [scaleDownInOrder]
  | targetRS :: rest, total, holds => by
    have restHolds : ∀ rs ∈ rest, property rs := fun rs member => holds rs (List.mem_cons_of_mem _ member)
    dsimp only [scaleDownInOrder]
    split_ifs with done passed scaledUp
    · exact holds
    · simp only [List.mem_cons, forall_eq_or_imp]
      exact ⟨holds targetRS List.mem_cons_self, scaleDownInOrder_forall property keeps rest total restHolds⟩
    · exact holds
    · simp only [scaleReplicaSetAndRecordEvent_snd, List.mem_cons, forall_eq_or_imp]
      exact ⟨keeps targetRS _ (holds targetRS List.mem_cons_self) (by omega) passed (by omega),
        scaleDownInOrder_forall property keeps rest _ restHolds⟩

end ScaleDownInOrder

/-! ## Each part of the sync -/

/-- Counts a replica set can have: neither its size nor its available pods are negative. -/
def Counted (rs : ReplicaSet) : Prop := 0 ≤ rs.availableReplicas ∧ 0 ≤ rs.replicas

instance (rs : ReplicaSet) : Decidable (Counted rs) := inferInstanceAs (Decidable (_ ∧ _))

theorem sort_shrinks (replicaSets : List ReplicaSet) :
    Shrinks replicaSets (sortByCreationTimestamp replicaSets) :=
  Shrinks.of_perm (List.mergeSort_perm _ _).symm

section Cleanup

variable (oldRSs : List ReplicaSet) (maxCleanupCount : ℤ)

theorem cleanupUnhealthyReplicas_shrinks (positive : 0 ≤ maxCleanupCount) :
    Shrinks oldRSs (cleanupUnhealthyReplicas oldRSs maxCleanupCount).1 :=
  (sort_shrinks oldRSs).trans
    (scaleDownInOrder_shrinks _ _ _ (fun _ _ => min_le_left _ _) _ 0 positive).1

theorem cleanupUnhealthyReplicas_forall (property : ReplicaSet → Prop)
    (keeps : ∀ rs newScale, property rs → rs.availableReplicas ≤ newScale → newScale ≤ rs.replicas →
      property { rs with replicas := newScale })
    (holds : ∀ rs ∈ oldRSs, property rs) :
    ∀ rs ∈ (cleanupUnhealthyReplicas oldRSs maxCleanupCount).1, property rs := by
  apply scaleDownInOrder_forall
  · intro rs remaining held _ _ notUp
    apply keeps rs _ held _ notUp
    -- a count that does not scale up takes no more than the unavailable replicas
    have := min_le_right remaining (rs.replicas - rs.availableReplicas)
    omega
  · exact fun rs member => holds rs (List.mem_mergeSort.mp member)

end Cleanup

section ScaleDownOld

variable (allRSs oldRSs : List ReplicaSet) (d : Deployment)

theorem scaleDownOldReplicaSetsForRollingUpdate_shrinks :
    Shrinks oldRSs (scaleDownOldReplicaSetsForRollingUpdate allRSs oldRSs d).1 ∧
      getReplicaCountForReplicaSets oldRSs -
          getReplicaCountForReplicaSets (scaleDownOldReplicaSetsForRollingUpdate allRSs oldRSs d).1 ≤
        max 0 (getAvailableReplicaCountForReplicaSets allRSs - (d.replicas - maxUnavailable d)) := by
  dsimp only [scaleDownOldReplicaSetsForRollingUpdate]
  split_ifs with enough
  · exact ⟨Shrinks.refl _, by dsimp only; omega⟩
  · obtain ⟨shrinks, removed⟩ := scaleDownInOrder_shrinks (fun _ => false)
      (fun targetRS remaining => min targetRS.replicas remaining)
      (getAvailableReplicaCountForReplicaSets allRSs - (d.replicas - maxUnavailable d))
      (fun _ _ => min_le_right _ _) (sortByCreationTimestamp oldRSs) 0 (by omega)
    have sameCount : getReplicaCountForReplicaSets (sortByCreationTimestamp oldRSs) =
        getReplicaCountForReplicaSets oldRSs :=
      ((List.mergeSort_perm _ _).map _).sum_eq
    exact ⟨(sort_shrinks oldRSs).trans shrinks, by omega⟩

theorem scaleDownOldReplicaSetsForRollingUpdate_forall (holds : ∀ rs ∈ oldRSs, Counted rs) :
    ∀ rs ∈ (scaleDownOldReplicaSetsForRollingUpdate allRSs oldRSs d).1, Counted rs := by
  dsimp only [scaleDownOldReplicaSetsForRollingUpdate]
  split_ifs
  · exact holds
  · apply scaleDownInOrder_forall
    · intro rs remaining ⟨available, _⟩ _ _ _
      have := min_le_left rs.replicas remaining
      exact ⟨available, by simp only; omega⟩
    · exact fun rs member => holds rs (List.mem_mergeSort.mp member)

end ScaleDownOld

section ReconcileOld

variable (allRSs oldRSs : List ReplicaSet) (newRS : ReplicaSet) (d : Deployment)

theorem reconcileOldReplicaSets_shrinks :
    Shrinks oldRSs (reconcileOldReplicaSets allRSs oldRSs newRS d).2 := by
  dsimp only [reconcileOldReplicaSets]
  split_ifs with noOld enough
  · exact Shrinks.refl _
  · exact Shrinks.refl _
  · have cleaned := cleanupUnhealthyReplicas_shrinks oldRSs _ (not_le.mp enough).le
    split
    · exact cleaned
    · split <;> exact cleaned.trans (scaleDownOldReplicaSetsForRollingUpdate_shrinks _ _ d).1

theorem reconcileOldReplicaSets_forall (holds : ∀ rs ∈ oldRSs, Counted rs) :
    ∀ rs ∈ (reconcileOldReplicaSets allRSs oldRSs newRS d).2, Counted rs := by
  have cleaned : ∀ maxCleanupCount, ∀ rs ∈ (cleanupUnhealthyReplicas oldRSs maxCleanupCount).1, Counted rs :=
    fun maxCleanupCount => cleanupUnhealthyReplicas_forall oldRSs maxCleanupCount Counted
      (fun rs newScale ⟨available, _⟩ above _ => ⟨available, by simp only; omega⟩) holds
  dsimp only [reconcileOldReplicaSets]
  split_ifs
  · exact holds
  · exact holds
  · split
    · exact cleaned _
    · split <;> exact scaleDownOldReplicaSetsForRollingUpdate_forall _ _ d (cleaned _)

theorem reconcileOldReplicaSets_available
    (settled : ∀ rs ∈ oldRSs, rs.availableReplicas ≤ rs.replicas) :
    min (getAvailableReplicaCountForReplicaSets oldRSs + newRS.availableReplicas) (d.replicas - maxUnavailable d) ≤
      availableAfterScaling (reconcileOldReplicaSets allRSs oldRSs newRS d).2 + newRS.availableReplicas := by
  have unchanged := availableAfterScaling_of_le settled
  -- cleaning up removes unavailable replicas only
  have cleanedAvailable : ∀ maxCleanupCount, 0 ≤ maxCleanupCount →
      availableAfterScaling (cleanupUnhealthyReplicas oldRSs maxCleanupCount).1 =
        getAvailableReplicaCountForReplicaSets oldRSs := by
    intro maxCleanupCount positive
    rw [availableAfterScaling_of_le (cleanupUnhealthyReplicas_forall oldRSs maxCleanupCount _
      (fun _ _ _ above _ => above) settled)]
    exact (cleanupUnhealthyReplicas_shrinks oldRSs maxCleanupCount positive).available_eq
  dsimp only [reconcileOldReplicaSets]
  split_ifs with noOld enough
  · dsimp only
    omega
  · dsimp only
    omega
  · have positive := (not_le.mp enough).le
    have cleaned := cleanedAvailable _ positive
    have cleanedShrinks := cleanupUnhealthyReplicas_shrinks oldRSs _ positive
    generalize cleanupUnhealthyReplicas oldRSs _ = cleanup at cleaned cleanedShrinks ⊢
    split
    · dsimp only
      omega
    · -- scaling down loses at most the available pods above the minimum
      obtain ⟨scaled, removed⟩ := scaleDownOldReplicaSetsForRollingUpdate_shrinks (cleanup.1 ++ [newRS]) cleanup.1 d
      have lost := scaled.lost_le
      have available := cleanedShrinks.available_eq
      simp only [getAvailableReplicaCountForReplicaSets_append,
        getAvailableReplicaCountForReplicaSets_singleton] at removed
      generalize scaleDownOldReplicaSetsForRollingUpdate (cleanup.1 ++ [newRS]) cleanup.1 d = scaledDown
        at lost removed ⊢
      split <;> (dsimp only; omega)

end ReconcileOld

section ReconcileNew

variable (allRSs : List ReplicaSet) (newRS : ReplicaSet) (d : Deployment)

theorem getScaledValueFromIntOrPercent_nonneg {intOrPercent : IntOrString} {total : ℤ}
    (value : 0 ≤ intOrPercent.value) (positive : 0 ≤ total) (roundUp : Bool) :
    0 ≤ getScaledValueFromIntOrPercent intOrPercent total roundUp := by
  cases intOrPercent with
  | int value' => exact value
  | percent value' =>
    have product : 0 ≤ value' * total := Int.mul_nonneg value positive
    dsimp only [getScaledValueFromIntOrPercent]
    split <;> omega

theorem maxUnavailable_nonneg {d : Deployment} (valid : d.Valid) : 0 ≤ maxUnavailable d := by
  obtain ⟨sized, unavailable, -⟩ := valid
  have scaled := getScaledValueFromIntOrPercent_nonneg unavailable sized false
  dsimp only [maxUnavailable, resolveFenceposts]
  split_ifs <;> omega

theorem maxSurge_eq : maxSurge d = getScaledValueFromIntOrPercent d.rollingUpdate.maxSurge d.replicas true := by
  dsimp only [maxSurge, resolveFenceposts]
  split_ifs <;> rfl

theorem newRSNewReplicas_bounds (below : newRS.replicas < d.replicas) :
    newRS.replicas ≤ newRSNewReplicas d allRSs newRS ∧ newRSNewReplicas d allRSs newRS ≤ d.replicas ∧
      getReplicaCountForReplicaSets allRSs - newRS.replicas + newRSNewReplicas d allRSs newRS ≤
        max (getReplicaCountForReplicaSets allRSs) (d.replicas + maxSurge d) := by
  rw [maxSurge_eq]
  dsimp only [newRSNewReplicas]
  split_ifs <;> omega

theorem reconcileNewReplicaSet_availableReplicas :
    (reconcileNewReplicaSet allRSs newRS d).2.availableReplicas = newRS.availableReplicas := by
  unfold reconcileNewReplicaSet
  split_ifs <;> simp

theorem reconcileNewReplicaSet_bounds (positive : 0 ≤ newRS.replicas) (sized : 0 ≤ d.replicas) :
    let newReplicas := (reconcileNewReplicaSet allRSs newRS d).2.replicas
    0 ≤ newReplicas ∧ (newRS.replicas < newReplicas → newReplicas ≤ d.replicas) ∧
      getReplicaCountForReplicaSets allRSs - newRS.replicas + newReplicas ≤
        max (getReplicaCountForReplicaSets allRSs) (d.replicas + maxSurge d) ∧
      (newRS.replicas ≤ newReplicas ∨ newReplicas = d.replicas) := by
  dsimp only
  unfold reconcileNewReplicaSet
  split_ifs with same above
  · dsimp only
    omega
  · simp only [scaleReplicaSetAndRecordEvent_snd, or_true, and_true]
    omega
  · have := newRSNewReplicas_bounds allRSs newRS d (by omega)
    simp only [scaleReplicaSetAndRecordEvent_snd]
    omega

end ReconcileNew

/-! ## One sync -/

/-- What one sync may do to the old replica sets and the new one of a deployment. -/
structure SafeSync (d : Deployment) (oldRSs : List ReplicaSet) (newRS : ReplicaSet)
    (after : List ReplicaSet × ReplicaSet) : Prop where
  /-- No more replicas in all than before or than the surge allows. -/
  count_le : getReplicaCountForReplicaSets (after.1 ++ [after.2]) ≤
    max (getReplicaCountForReplicaSets (oldRSs ++ [newRS])) (d.replicas + maxSurge d)
  /-- The new replica set grows to the deployment's size at most. -/
  scaled_up_le : newRS.replicas < after.2.replicas → after.2.replicas ≤ d.replicas
  nonneg : ∀ rs ∈ after.2 :: after.1, 0 ≤ rs.replicas
  /-- Removing unavailable pods first, the available pods stay at the minimum or at what
  there was, when no status shows more available pods than replicas. -/
  available_le : (∀ rs ∈ newRS :: oldRSs, rs.availableReplicas ≤ rs.replicas) →
    min (getAvailableReplicaCountForReplicaSets (oldRSs ++ [newRS])) (d.replicas - maxUnavailable d) ≤
      availableAfterScaling (after.1 ++ [after.2])

theorem filter_inactive_perm (oldRSs : List ReplicaSet) :
    (oldRSs.filter (fun rs => !decide (rs.replicas > 0)) ++ filterActiveReplicaSets oldRSs).Perm oldRSs :=
  List.perm_append_comm.trans (List.filter_append_perm _ _)

section Sync

variable {d : Deployment} {oldRSs : List ReplicaSet} {newRS : ReplicaSet}
  (counts : ∀ rs ∈ newRS :: oldRSs, Counted rs)
include counts

theorem safeSync_reconcileNewReplicaSet (valid : d.Valid) :
    SafeSync d oldRSs newRS (oldRSs, (reconcileNewReplicaSet (oldRSs ++ [newRS]) newRS d).2) := by
  obtain ⟨⟨newAvailable, newPositive⟩, oldCounted⟩ := List.forall_mem_cons.mp counts
  obtain ⟨positive, scaledUp, total, lower⟩ :=
    reconcileNewReplicaSet_bounds (oldRSs ++ [newRS]) newRS d newPositive valid.1
  constructor
  · simp only [getReplicaCountForReplicaSets_append, getReplicaCountForReplicaSets_singleton] at total ⊢
    omega
  · exact scaledUp
  · simp only [List.mem_cons, forall_eq_or_imp]
    exact ⟨positive, fun rs member => (oldCounted rs member).2⟩
  · intro settled
    obtain ⟨newSettled, oldSettled⟩ := List.forall_mem_cons.mp settled
    have unavailable := maxUnavailable_nonneg valid
    have oldAvailable := availableAfterScaling_of_le oldSettled
    have oldNonneg := getAvailableReplicaCountForReplicaSets_nonneg fun rs member => (oldCounted rs member).1
    simp only [availableAfterScaling_append, availableAfterScaling_singleton,
      getAvailableReplicaCountForReplicaSets_append, getAvailableReplicaCountForReplicaSets_singleton,
      reconcileNewReplicaSet_availableReplicas]
    omega

theorem safeSync_reconcileOldReplicaSets :
    SafeSync d oldRSs newRS (oldRSs.filter (fun rs => !decide (rs.replicas > 0)) ++
      (reconcileOldReplicaSets (oldRSs ++ [newRS]) (filterActiveReplicaSets oldRSs) newRS d).2, newRS) := by
  obtain ⟨⟨newAvailable, newPositive⟩, oldCounted⟩ := List.forall_mem_cons.mp counts
  have activeCounted : ∀ rs ∈ filterActiveReplicaSets oldRSs, Counted rs :=
    fun rs member => oldCounted rs (List.mem_filter.mp member).1
  have shrinks := (Shrinks.of_perm (filter_inactive_perm oldRSs).symm).trans
    ((reconcileOldReplicaSets_shrinks (oldRSs ++ [newRS]) _ newRS d).append_left
      (oldRSs.filter fun rs => !decide (rs.replicas > 0)))
  constructor
  · have fewer := shrinks.count_le
    simp only [getReplicaCountForReplicaSets_append, getReplicaCountForReplicaSets_singleton] at fewer ⊢
    omega
  · intro grew
    exact absurd grew (lt_irrefl _)
  · simp only [List.mem_cons, List.mem_append, forall_eq_or_imp]
    refine ⟨newPositive, ?_⟩
    rintro rs (inactive | active)
    · exact (oldCounted rs (List.mem_filter.mp inactive).1).2
    · exact (reconcileOldReplicaSets_forall (oldRSs ++ [newRS]) _ newRS d activeCounted rs active).2
  · intro settled
    obtain ⟨newSettled, oldSettled⟩ := List.forall_mem_cons.mp settled
    have inactiveSettled : ∀ rs ∈ oldRSs.filter (fun rs => !decide (rs.replicas > 0)),
        rs.availableReplicas ≤ rs.replicas := fun rs member => oldSettled rs (List.mem_filter.mp member).1
    have kept := reconcileOldReplicaSets_available (oldRSs ++ [newRS]) (filterActiveReplicaSets oldRSs) newRS d
      fun rs member => oldSettled rs (List.mem_filter.mp member).1
    have inactiveAvailable := availableAfterScaling_of_le inactiveSettled
    have inactiveNonneg : 0 ≤ getAvailableReplicaCountForReplicaSets
        (oldRSs.filter fun rs => !decide (rs.replicas > 0)) :=
      getAvailableReplicaCountForReplicaSets_nonneg fun rs member => (oldCounted rs (List.mem_filter.mp member).1).1
    have parts : getAvailableReplicaCountForReplicaSets
        (oldRSs.filter (fun rs => !decide (rs.replicas > 0)) ++ filterActiveReplicaSets oldRSs) =
          getAvailableReplicaCountForReplicaSets oldRSs :=
      ((filter_inactive_perm oldRSs).map _).sum_eq
    simp only [availableAfterScaling_append, availableAfterScaling_singleton,
      getAvailableReplicaCountForReplicaSets_append, getAvailableReplicaCountForReplicaSets_singleton,
      min_eq_left newSettled] at parts ⊢
    omega

end Sync

/-- A sync of a valid deployment whose replica sets have no negative counts: the total stays
below the previous total or the surge, the new replica set grows to the deployment's size at
most, no size is negative, and, when no replica set's status shows more available pods than
replicas and a scale-down removes unavailable pods first, the available pods stay at the
minimum or at what there was. -/
theorem rollout_rolling_step_safe (d : Deployment) (valid : d.Valid) (oldRSs : List ReplicaSet)
    (newRS : ReplicaSet) (counts : ∀ rs ∈ newRS :: oldRSs, Counted rs) :
    SafeSync d oldRSs newRS (rolloutRolling d oldRSs newRS) := by
  dsimp only [rolloutRolling]
  split
  · exact safeSync_reconcileNewReplicaSet counts valid
  · exact safeSync_reconcileOldReplicaSets counts

/-- Three replicas with a quarter surge and unavailability, one old replica set of two and a
new one of one: the sync grows the new replica set. -/
theorem rollout_rolling_step_safe_three_replicas :
    let d : Deployment := ⟨3, ⟨.percent 25, .percent 25⟩⟩
    let oldRSs : List ReplicaSet := [⟨2, 2, 1, "old"⟩]
    let newRS : ReplicaSet := ⟨1, 1, 2, "new"⟩
    d.Valid ∧ (∀ rs ∈ newRS :: oldRSs, Counted rs) ∧ SafeSync d oldRSs newRS (rolloutRolling d oldRSs newRS) :=
  ⟨by decide, by decide, rollout_rolling_step_safe _ (by decide) _ _ (by decide)⟩

/-- A status that still shows more available pods than replicas: the old replica set "b" was
cut from nine replicas to eight and its status has not caught up. The sync counts its nine
available pods, scales it down to seven, and seven available pods are left of a minimum of
eight, whichever way the available pods before are counted. -/
theorem rollout_rolling_lagging_status_loses_availability :
    let d : Deployment := ⟨10, ⟨.int 2, .int 3⟩⟩
    let oldRSs : List ReplicaSet := [⟨1, 0, 1, "a"⟩, ⟨8, 9, 2, "b"⟩]
    let newRS : ReplicaSet := ⟨10, 0, 3, "c"⟩
    let after := rolloutRolling d oldRSs newRS
    d.Valid ∧ (∀ rs ∈ newRS :: oldRSs, Counted rs) ∧
      availableAfterScaling (after.1 ++ [after.2]) = 7 ∧
      min (getAvailableReplicaCountForReplicaSets (oldRSs ++ [newRS])) (d.replicas - maxUnavailable d) = 8 ∧
      min (availableAfterScaling (oldRSs ++ [newRS])) (d.replicas - maxUnavailable d) = 8 := by
  -- the replica sets are already in creation order, so neither sort moves them
  simp (disch := decide) only [rolloutRolling, reconcileOldReplicaSets, cleanupUnhealthyReplicas,
    scaleDownOldReplicaSetsForRollingUpdate, sortByCreationTimestamp, List.mergeSort_of_pairwise]
  decide

end Kubernetes.Controller.Deployment
