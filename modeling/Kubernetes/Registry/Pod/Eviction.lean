import Mathlib.Data.Finset.Card

/-! The decisions of the eviction subresource (pkg/registry/core/pod/storage/eviction.go).

A pod is what `EvictionREST.Create` reads of it: its phase, whether its Ready condition is
true, whether it has a deletion timestamp, and its resource version. A budget is one
`PodDisruptionBudget` with the status fields `checkAndDecrement` reads and writes; the
times of `DisruptedPods` are not modelled, only its keys. -/

set_option autoImplicit false
set_option linter.dupNamespace false

namespace Kubernetes.Registry.Pod.Storage

inductive PodPhase where
  | pending
  | running
  | succeeded
  | failed
  | unknown
  deriving DecidableEq, Repr

/-- `PodSucceeded` and `PodFailed`. -/
def PodPhase.terminal : PodPhase → Bool
  | .succeeded | .failed => true
  | _ => false

structure Pod where
  phase : PodPhase
  /-- `IsPodReady`: the Ready condition is true. -/
  ready : Bool
  /-- `DeletionTimestamp` is set. -/
  terminating : Bool
  resourceVersion : ℕ
  deriving DecidableEq, Repr

/-- A pod whose deletion is a disruption the budget has to pay for. -/
def Pod.Disrupting (pod : Pod) : Prop :=
  pod.phase = .running ∧ pod.ready = true ∧ pod.terminating = false

instance (pod : Pod) : Decidable pod.Disrupting := inferInstanceAs (Decidable (_ ∧ _ ∧ _))

def canIgnorePDB (pod : Pod) : Bool :=
  pod.phase == .succeeded || pod.phase == .failed || pod.phase == .pending || pod.terminating

def shouldEnforceResourceVersion (pod : Pod) : Bool :=
  if pod.phase == .succeeded || pod.phase == .failed || pod.terminating then false
  else true

structure PodDisruptionBudgetStatus (π : Type) where
  observedGeneration : ℕ
  disruptedPods : Finset π
  disruptionsAllowed : ℤ
  currentHealthy : ℤ
  desiredHealthy : ℤ
  deriving DecidableEq

structure PodDisruptionBudget (π : Type) where
  name : String
  generation : ℕ
  status : PodDisruptionBudgetStatus π
  resourceVersion : ℕ
  deriving DecidableEq

/-- The API errors `Create` returns, with their messages, causes and retry-after seconds. -/
inductive StatusError where
  | tooManyRequests (message : String) (retryAfterSeconds : ℕ) (cause : String)
  | forbidden (resource name : String) (reason : String)
  | conflict
  | notFound
  deriving DecidableEq, Repr

def maxDisruptedPodSize : ℕ := 2000

/-- `EvictionsRetry.Steps`: both retry loops run their body at most this often. -/
def evictionsRetrySteps : ℕ := 20

def createTooManyRequestsError (name : String) : StatusError :=
  .tooManyRequests "Cannot evict pod as it would violate the pod\x27s disruption budget." 10
    ("The disruption budget " ++ name ++ " is still being processed by the server.")

section CheckAndDecrement

variable {π : Type} [DecidableEq π]

/-- `checkAndDecrement` up to its `UpdateStatus` call: an error, no write (a dry run), or the
budget to write. The `DisruptionAllowed` condition it sets at zero is not modelled. -/
def checkAndDecrement (podName : π) (pdb : PodDisruptionBudget π) (dryRun : Bool) :
    Except StatusError (Option (PodDisruptionBudget π)) :=
  if pdb.status.observedGeneration < pdb.generation then .error (createTooManyRequestsError pdb.name)
  else if pdb.status.disruptionsAllowed < 0 then
    .error (.forbidden "poddisruptionbudget" pdb.name "pdb disruptions allowed is negative")
  else if pdb.status.disruptedPods.card > maxDisruptedPodSize then
    .error (.forbidden "poddisruptionbudget" pdb.name
      "DisruptedPods map too big - too many evictions not confirmed by PDB controller")
  else if pdb.status.disruptionsAllowed = 0 then
    .error (.tooManyRequests "Cannot evict pod as it would violate the pod\x27s disruption budget." 0
      ("The disruption budget " ++ pdb.name ++ " needs " ++ toString pdb.status.desiredHealthy ++
        " healthy pods and has " ++ toString pdb.status.currentHealthy ++ " currently"))
  else
    let decremented := { pdb.status with disruptionsAllowed := pdb.status.disruptionsAllowed - 1 }
    if dryRun then .ok none
    else .ok (some { pdb with status := { decremented with
      disruptedPods := insert podName decremented.disruptedPods } })

/-- What a decrement the budget accepted did: the budget allowed a disruption and had seen its
current generation, one disruption fewer is allowed now, and the pod is recorded. -/
structure Decrement (podName : π) (before after : PodDisruptionBudget π) : Prop where
  allowed : 0 < before.status.disruptionsAllowed
  observed : before.generation ≤ before.status.observedGeneration
  decremented : after.status.disruptionsAllowed = before.status.disruptionsAllowed - 1
  recorded : podName ∈ after.status.disruptedPods

theorem checkAndDecrement_eq_ok {podName : π} {pdb : PodDisruptionBudget π}
    {result : Option (PodDisruptionBudget π)}
    (accepted : checkAndDecrement podName pdb false = .ok result) :
    ∃ next, result = some next ∧ next.name = pdb.name ∧ Decrement podName pdb next := by
  unfold checkAndDecrement at accepted
  split at accepted
  · cases accepted
  split at accepted
  · cases accepted
  split at accepted
  · cases accepted
  split at accepted
  · cases accepted
  rename_i notOlder notNegative _ notZero
  simp only [Bool.false_eq_true, if_false, Except.ok.injEq] at accepted
  subst accepted
  refine ⟨_, rfl, rfl, ⟨by omega, by omega, rfl, Finset.mem_insert_self _ _⟩⟩

end CheckAndDecrement

theorem shouldEnforceResourceVersion_of_canIgnorePDB {pod : Pod} (ignored : canIgnorePDB pod = true)
    (enforced : shouldEnforceResourceVersion pod = true) :
    pod.phase = .pending ∧ pod.terminating = false := by
  obtain ⟨phase, ready, terminating, resourceVersion⟩ := pod
  cases phase <;> cases terminating <;> simp_all [canIgnorePDB, shouldEnforceResourceVersion]

theorem terminal_of_not_shouldEnforceResourceVersion {pod : Pod}
    (unenforced : shouldEnforceResourceVersion pod = false) :
    pod.phase.terminal = true ∨ pod.terminating = true := by
  obtain ⟨phase, ready, terminating, resourceVersion⟩ := pod
  cases phase <;> cases terminating <;> simp_all [shouldEnforceResourceVersion, PodPhase.terminal]

end Kubernetes.Registry.Pod.Storage
