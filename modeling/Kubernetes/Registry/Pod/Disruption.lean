import Kubernetes.Library.Transition
import Kubernetes.Registry.Pod.Eviction

/-! Concurrent evictions against one disruption budget.

Calls of `EvictionREST.Create`, without preconditions of their own and not dry runs, run
against a store of pods and one `PodDisruptionBudget` that selects all of them. Each store
access of a call is one step: the `Get` of the pod, its `Delete` with or without a
resource-version precondition, the `List` of budgets, the `UpdateStatus` of the budget (a
compare-and-swap on its resource version) and the `Get` that refreshes it after a conflict.
Between them the environment changes the status of pods, marks them terminating, and the
disruption controller writes the budget's status. Every write takes the next revision of the
store as its resource version, as etcd does. A log records the successful decrements, the
deletions with the pod as the store held it, and the controller's writes. -/

set_option autoImplicit false
set_option linter.dupNamespace false
set_option linter.unusedSectionVars false

namespace Kubernetes.Registry.Pod.Storage

open Kubernetes.Library

/-- Where a `Create` call is. The attempts are those left to the retry loop it is in. -/
inductive Stage (π : Type) where
  | idle
  | getPod (name : π) (attempts : ℕ)
  | deleteIgnorable (name : π) (attempts : ℕ) (pod : Pod)
  | listBudgets (name : π) (pod : Pod)
  | decrement (name : π) (pod : Pod) (pdb : PodDisruptionBudget π) (attempts : ℕ)
  | refresh (name : π) (pod : Pod) (attempts : ℕ)
  | delete (name : π) (pod : Pod) (updateDeletionOptions : Bool)
  | done (result : Except StatusError Unit)

inductive Event (ε π : Type) where
  | decremented (call : ε) (name : π) (before after : PodDisruptionBudget π)
  | deleted (call : ε) (name : π) (pod : Pod)
  | written (status : PodDisruptionBudgetStatus π)
  deriving DecidableEq

def Event.isDecremented {ε π : Type} : Event ε π → Bool
  | .decremented .. => true
  | _ => false

structure World (ε π : Type) where
  pods : π → Option Pod
  pdb : PodDisruptionBudget π
  revision : ℕ
  calls : ε → Stage π
  log : List (Event ε π)

inductive Input (ε π : Type) where
  | evict (call : ε) (name : π)
  | advance (call : ε)
  | setStatus (name : π) (phase : PodPhase) (ready : Bool)
  | markTerminating (name : π)
  | writeStatus (status : PodDisruptionBudgetStatus π)
  | updateSpec

namespace World

variable {ε π : Type} [DecidableEq ε] [DecidableEq π]

def setCall (w : World ε π) (e : ε) (stage : Stage π) : World ε π :=
  { w with calls := Function.update w.calls e stage }

/-- A write of a pod, at the next revision. -/
def bumpPod (w : World ε π) (name : π) (pod : Pod) : World ε π :=
  { w with pods := Function.update w.pods name (some { pod with resourceVersion := w.revision + 1 })
           revision := w.revision + 1 }

/-- A write of the budget, at the next revision. -/
def bumpBudget (w : World ε π) (pdb : PodDisruptionBudget π) : World ε π :=
  { w with pdb := { pdb with resourceVersion := w.revision + 1 }, revision := w.revision + 1 }

/-- `r.store.Delete` with a resource-version precondition: the pod it would remove, or its error. -/
def deletePod (w : World ε π) (name : π) (precondition : Option ℕ) : Except StatusError Pod :=
  match w.pods name with
  | none => .error .notFound
  | some pod =>
    match precondition with
    | some version => if pod.resourceVersion = version then .ok pod else .error .conflict
    | none => .ok pod

def removePod (w : World ε π) (e : ε) (name : π) (pod : Pod) : World ε π :=
  { w with pods := Function.update w.pods name none, log := w.log ++ [.deleted e name pod] }

/-- The successful `UpdateStatus` of a decrement. -/
def writeBudget (w : World ε π) (e : ε) (name : π) (next : PodDisruptionBudget π) : World ε π :=
  { w.bumpBudget next with log := w.log ++ [.decremented e name w.pdb { next with resourceVersion := w.revision + 1 }] }

/-- The next store access of call `e` at its stage. -/
def advance (w : World ε π) (e : ε) : Stage π → Option (World ε π)
  | .getPod name attempts =>
    match w.pods name with
    | none => some (w.setCall e (.done (.error .notFound)))
    | some pod =>
      -- a pod that can ignore its budget is deleted inside the first retry loop
      if canIgnorePDB pod then some (w.setCall e (.deleteIgnorable name attempts pod))
      else some (w.setCall e (.listBudgets name pod))
  | .deleteIgnorable name attempts pod =>
    let precondition := if shouldEnforceResourceVersion pod then some pod.resourceVersion else none
    match w.deletePod name precondition with
    | .ok deleted => some ((w.removePod e name deleted).setCall e (.done (.ok ())))
    | .error err =>
      -- `retry.OnError` runs the body again on a conflict while steps remain
      if err = .conflict ∧ 1 < attempts then some (w.setCall e (.getPod name (attempts - 1)))
      else some (w.setCall e (.done (.error err)))
  | .listBudgets name pod =>
    if !pod.ready && decide (w.pdb.status.currentHealthy ≥ w.pdb.status.desiredHealthy) &&
        decide (w.pdb.status.desiredHealthy > 0) then
      some (w.setCall e (.delete name pod true))
    else some (w.setCall e (.decrement name pod w.pdb evictionsRetrySteps))
  | .decrement name pod pdb attempts =>
    match checkAndDecrement name pdb false with
    | .error err => some (w.setCall e (.done (.error err)))
    | .ok none => some (w.setCall e (.delete name pod false))
    | .ok (some next) =>
      if w.pdb.resourceVersion = pdb.resourceVersion then
        some ((w.writeBudget e name next).setCall e (.delete name pod false))
      -- `retry.RetryOnConflict` refreshes the budget and tries again while steps remain
      else if 1 < attempts then some (w.setCall e (.refresh name pod (attempts - 1)))
      else some (w.setCall e (.done (.error .conflict)))
  | .refresh name pod attempts => some (w.setCall e (.decrement name pod w.pdb attempts))
  | .delete name pod updateDeletionOptions =>
    let precondition := if updateDeletionOptions then some pod.resourceVersion else none
    match w.deletePod name precondition with
    | .ok deleted => some ((w.removePod e name deleted).setCall e (.done (.ok ())))
    | .error err =>
      if err = .conflict ∧ updateDeletionOptions then
        some (w.setCall e (.done (.error (createTooManyRequestsError w.pdb.name))))
      else some (w.setCall e (.done (.error err)))
  | .idle | .done _ => none

/-- One step. `permitted pod phase` says which phase the environment may give a pod. -/
def step (permitted : Pod → PodPhase → Bool) (w : World ε π) : Input ε π → Option (World ε π)
  | .evict e name =>
    match w.calls e with
    | .idle => some (w.setCall e (.getPod name evictionsRetrySteps))
    | _ => none
  | .advance e => w.advance e (w.calls e)
  | .setStatus name phase ready =>
    match w.pods name with
    | some pod => if permitted pod phase then some (w.bumpPod name { pod with phase, ready }) else none
    | none => none
  | .markTerminating name =>
    match w.pods name with
    | some pod => some (w.bumpPod name { pod with terminating := true })
    | none => none
  | .writeStatus status => some { w.bumpBudget { w.pdb with status } with log := w.log ++ [.written status] }
  | .updateSpec => some (w.bumpBudget { w.pdb with generation := w.pdb.generation + 1 })

/-- No call has started, and no version is above the store's revision. -/
structure Initial (w : World ε π) : Prop where
  idle : ∀ e, w.calls e = .idle
  log : w.log = []
  podVersions : ∀ name pod, w.pods name = some pod → pod.resourceVersion ≤ w.revision
  budgetVersion : w.pdb.resourceVersion ≤ w.revision

def system (permitted : Pod → PodPhase → Bool) : System (World ε π) (Input ε π) :=
  System.ofPartial Initial (step permitted)

end World

/-- A kubelet that may move a pod to any phase. -/
def anyPhase (_ : Pod) (_ : PodPhase) : Bool := true

/-- Terminal phases are final, as the kubelet keeps them. -/
def keepsTerminal (pod : Pod) (phase : PodPhase) : Bool := !pod.phase.terminal || phase.terminal

/-! ## What every reachable world satisfies -/

namespace World

variable {ε π : Type} [DecidableEq ε] [DecidableEq π]

/-- A pod read from the store is the pod under its name while the version is the same. -/
def Fresh (w : World ε π) (name : π) (pod : Pod) : Prop :=
  pod.resourceVersion ≤ w.revision ∧ ∀ q, w.pods name = some q → q.resourceVersion = pod.resourceVersion → q = pod

/-- A budget read from the store is the stored budget while the version is the same. -/
def FreshBudget (w : World ε π) (pdb : PodDisruptionBudget π) : Prop :=
  pdb.resourceVersion ≤ w.revision ∧ (w.pdb.resourceVersion = pdb.resourceVersion → w.pdb = pdb)

/-- The pod under a name, if any, is terminal or terminating. -/
def Undisruptable (w : World ε π) (name : π) : Prop :=
  ∀ q, w.pods name = some q → q.phase.terminal = true ∨ q.terminating = true

/-- What the stage of call `e` says about the world: the pod and the budget it holds are read
from the store, a pod it deletes without precondition is terminal or terminating, a pod it
deletes under the unready precondition was not ready, and a pod it deletes after the budget
has its decrement in the log. -/
def Sound (w : World ε π) (e : ε) : Stage π → Prop
  | .deleteIgnorable name _ pod => w.Fresh name pod ∧ canIgnorePDB pod = true ∧
      (shouldEnforceResourceVersion pod = false → w.Undisruptable name)
  | .listBudgets name pod => w.Fresh name pod
  | .decrement _ _ pdb _ => w.FreshBudget pdb
  | .delete name pod updateDeletionOptions =>
      if updateDeletionOptions then w.Fresh name pod ∧ pod.ready = false
      else ∃ before after, Event.decremented e name before after ∈ w.log ∧ Decrement name before after
  | .idle | .getPod .. | .refresh .. | .done _ => True

/-- How the store moves under a call that is not the one stepping: versions only grow, the log
only grows, a pod is removed or rewritten at a new version without leaving a terminal phase or
its deletion timestamp, and the budget is kept or rewritten at a new version. -/
structure Extends (w w' : World ε π) : Prop where
  revision : w.revision ≤ w'.revision
  log : w.log <+: w'.log
  pods : ∀ name q', w'.pods name = some q' → w'.pods name = w.pods name ∨
    ∃ q, w.pods name = some q ∧ w.revision < q'.resourceVersion ∧
      (q.phase.terminal = true ∨ q.terminating = true → q'.phase.terminal = true ∨ q'.terminating = true)
  pdb : w'.pdb = w.pdb ∨ w.revision < w'.pdb.resourceVersion

theorem Fresh.extend {w w' : World ε π} {name : π} {pod : Pod} (fresh : w.Fresh name pod)
    (grows : Extends w w') : w'.Fresh name pod := by
  refine ⟨fresh.1.trans grows.revision, fun q' stored sameVersion => ?_⟩
  rcases grows.pods name q' stored with kept | ⟨q, -, newer, -⟩
  · exact fresh.2 q' (kept ▸ stored) sameVersion
  · -- a rewritten pod has a version above everything read before
    have := fresh.1
    omega

theorem FreshBudget.extend {w w' : World ε π} {pdb : PodDisruptionBudget π} (fresh : w.FreshBudget pdb)
    (grows : Extends w w') : w'.FreshBudget pdb := by
  refine ⟨fresh.1.trans grows.revision, fun sameVersion => ?_⟩
  rcases grows.pdb with kept | newer
  · rw [kept] at sameVersion ⊢
    exact fresh.2 sameVersion
  · have := fresh.1
    omega

theorem Undisruptable.extend {w w' : World ε π} {name : π} (settled : w.Undisruptable name)
    (grows : Extends w w') : w'.Undisruptable name := by
  intro q' stored
  rcases grows.pods name q' stored with kept | ⟨q, before, -, keeps⟩
  · exact settled q' (kept ▸ stored)
  · exact keeps (settled q before)

theorem Sound.extend {w w' : World ε π} {e : ε} {stage : Stage π} (sound : w.Sound e stage)
    (grows : Extends w w') : w'.Sound e stage := by
  cases stage with
  | deleteIgnorable name attempts pod =>
    obtain ⟨fresh, ignorable, settled⟩ := sound
    exact ⟨fresh.extend grows, ignorable, fun unenforced => (settled unenforced).extend grows⟩
  | listBudgets name pod => exact Fresh.extend sound grows
  | decrement name pod pdb attempts => exact FreshBudget.extend sound grows
  | delete name pod updateDeletionOptions =>
    cases updateDeletionOptions with
    | true => exact ⟨sound.1.extend grows, sound.2⟩
    | false =>
      obtain ⟨before, after, logged, decrement⟩ := sound
      exact ⟨before, after, grows.log.subset logged, decrement⟩
  | idle | getPod | refresh | done => trivial

/-- The DisruptionsAllowed the disruption controller last wrote, and the decrements since. -/
def tallyEvent : Option (ℤ × ℕ) → Event ε π → Option (ℤ × ℕ)
  | _, .written status => some (status.disruptionsAllowed, 0)
  | some (allowed, spent), .decremented .. => some (allowed, spent + 1)
  | last, _ => last

def tally (log : List (Event ε π)) : Option (ℤ × ℕ) := log.foldl tallyEvent none

structure Safe (w : World ε π) : Prop where
  podVersions : ∀ name pod, w.pods name = some pod → pod.resourceVersion ≤ w.revision
  budgetVersion : w.pdb.resourceVersion ≤ w.revision
  stages : ∀ e, w.Sound e (w.calls e)
  deletions : ∀ (k : ℕ) (e : ε) (name : π) (pod : Pod), w.log[k]? = some (Event.deleted e name pod) →
    pod.Disrupting →
    ∃ j < k, ∃ before after, w.log[j]? = some (Event.decremented e name before after) ∧
      Decrement name before after
  budget : ∀ allowed spent, tally w.log = some (allowed, spent) →
    (spent : ℤ) ≤ max allowed 0 ∧ w.pdb.status.disruptionsAllowed = allowed - spent

end World

namespace World

variable {ε π : Type} [DecidableEq ε] [DecidableEq π]

@[simp] theorem setCall_calls_self (w : World ε π) (e : ε) (stage : Stage π) :
    (w.setCall e stage).calls e = stage := by
  simp [setCall]

@[simp] theorem setCall_calls_other (w : World ε π) {e e' : ε} (stage : Stage π) (other : e' ≠ e) :
    (w.setCall e stage).calls e' = w.calls e' := by
  simp [setCall, other]

theorem tally_append (log : List (Event ε π)) (event : Event ε π) :
    tally (log ++ [event]) = tallyEvent (tally log) event := by
  simp [tally, List.foldl_append]

@[simp] theorem tallyEvent_deleted (last : Option (ℤ × ℕ)) (e : ε) (name : π) (pod : Pod) :
    tallyEvent last (Event.deleted e name pod) = last := by
  cases last <;> rfl

@[simp] theorem tallyEvent_decremented (allowed : ℤ) (spent : ℕ) (e : ε) (name : π)
    (before after : PodDisruptionBudget π) :
    tallyEvent (some (allowed, spent)) (Event.decremented e name before after) = some (allowed, spent + 1) := rfl

@[simp] theorem tallyEvent_none_decremented (e : ε) (name : π) (before after : PodDisruptionBudget π) :
    tallyEvent none (Event.decremented e name before after) = none := rfl

theorem deletePod_eq_ok {w : World ε π} {name : π} {precondition : Option ℕ} {pod : Pod}
    (deleted : w.deletePod name precondition = .ok pod) :
    w.pods name = some pod ∧ ∀ version, precondition = some version → pod.resourceVersion = version := by
  unfold deletePod at deleted
  split at deleted
  · cases deleted
  · rename_i stored found
    split at deleted
    · split at deleted
      · cases deleted
        exact ⟨found, fun _ same => by simp_all⟩
      · cases deleted
    · cases deleted
      exact ⟨found, fun _ absent => by cases absent⟩

theorem fresh_of_read {w : World ε π} {name : π} {pod : Pod}
    (versions : ∀ name pod, w.pods name = some pod → pod.resourceVersion ≤ w.revision)
    (read : w.pods name = some pod) : w.Fresh name pod :=
  ⟨versions name pod read, fun _ stored _ => Option.some.inj (stored.symm.trans read)⟩

theorem Extends.setCall (w : World ε π) (e : ε) (stage : Stage π) : Extends w (w.setCall e stage) :=
  ⟨le_rfl, List.prefix_refl _, fun _ _ _ => .inl rfl, .inl rfl⟩

theorem Safe.setCall {w : World ε π} {e : ε} {stage : Stage π} (safe : w.Safe) (sound : w.Sound e stage) :
    (w.setCall e stage).Safe := by
  refine ⟨safe.podVersions, safe.budgetVersion, fun e' => ?_, safe.deletions, safe.budget⟩
  by_cases same : e' = e
  · subst same
    rw [setCall_calls_self]
    exact sound.extend (Extends.setCall w e' stage)
  · rw [setCall_calls_other w stage same]
    exact (safe.stages e').extend (Extends.setCall w e stage)

theorem Safe.removePod {w : World ε π} {e : ε} {name : π} {pod : Pod} (safe : w.Safe)
    (paid : pod.Disrupting → ∃ j < w.log.length, ∃ before after,
      w.log[j]? = some (Event.decremented e name before after) ∧ Decrement name before after) :
    (w.removePod e name pod).Safe := by
  have grows : Extends w (w.removePod e name pod) := by
    refine ⟨le_rfl, List.prefix_append _ _, fun other q' stored => .inl ?_, .inl rfl⟩
    by_cases same : other = name
    · subst same
      simp [World.removePod] at stored
    · simp [World.removePod, same]
  refine ⟨fun other q stored => ?_, safe.budgetVersion, fun e' => (safe.stages e').extend grows, ?_, ?_⟩
  · by_cases same : other = name
    · subst same
      simp [World.removePod] at stored
    · simp only [World.removePod, Function.update_of_ne same] at stored
      exact safe.podVersions other q stored
  · intro k e' name' pod' logged disrupting
    simp only [World.removePod] at logged ⊢
    rcases Nat.lt_or_ge k w.log.length with old | new
    · -- an earlier deletion keeps its earlier decrement
      rw [List.getElem?_append_left old] at logged
      obtain ⟨j, earlier, before, after, found, decrement⟩ := safe.deletions k e' name' pod' logged disrupting
      exact ⟨j, earlier, before, after, by rw [List.getElem?_append_left (by omega)]; exact found, decrement⟩
    · -- the new deletion
      rw [List.getElem?_append_right new] at logged
      have atEnd : k = w.log.length := by
        by_contra beyond
        have : k - w.log.length ≠ 0 := by omega
        simp [this] at logged
      subst atEnd
      simp only [Nat.sub_self, List.getElem?_cons_zero, Option.some.injEq, Event.deleted.injEq] at logged
      obtain ⟨rfl, rfl, rfl⟩ := logged
      obtain ⟨j, earlier, before, after, found, decrement⟩ := paid disrupting
      exact ⟨j, earlier, before, after, by rw [List.getElem?_append_left earlier]; exact found, decrement⟩
  · intro allowed spent counted
    rw [World.removePod, tally_append, tallyEvent_deleted] at counted
    exact safe.budget allowed spent counted

theorem deletions_append {log : List (Event ε π)} {event : Event ε π}
    (deletions : ∀ (k : ℕ) (e : ε) (name : π) (pod : Pod), log[k]? = some (Event.deleted e name pod) →
      pod.Disrupting → ∃ j < k, ∃ before after, log[j]? = some (Event.decremented e name before after) ∧
        Decrement name before after)
    (notDeletion : ∀ e name pod, event ≠ Event.deleted e name pod) :
    ∀ (k : ℕ) (e : ε) (name : π) (pod : Pod), (log ++ [event])[k]? = some (Event.deleted e name pod) →
      pod.Disrupting → ∃ j < k, ∃ before after,
        (log ++ [event])[j]? = some (Event.decremented e name before after) ∧ Decrement name before after := by
  intro k e name pod logged disrupting
  rcases Nat.lt_or_ge k log.length with old | new
  · rw [List.getElem?_append_left old] at logged
    obtain ⟨j, earlier, before, after, found, decrement⟩ := deletions k e name pod logged disrupting
    exact ⟨j, earlier, before, after, by rw [List.getElem?_append_left (by omega)]; exact found, decrement⟩
  · rw [List.getElem?_append_right new] at logged
    have atEnd : k - log.length = 0 := by
      by_contra beyond
      simp [beyond] at logged
    rw [atEnd, List.getElem?_cons_zero, Option.some.injEq] at logged
    exact absurd logged (notDeletion e name pod)

theorem Safe.writeBudget {w : World ε π} {e : ε} {name : π} {next : PodDisruptionBudget π} (safe : w.Safe)
    (decrement : Decrement name w.pdb next) : (w.writeBudget e name next).Safe := by
  have grows : Extends w (w.writeBudget e name next) :=
    ⟨Nat.le_succ _, List.prefix_append _ _, fun _ _ _ => .inl rfl, .inr (Nat.lt_succ_self _)⟩
  refine ⟨fun name q stored => ?_, le_rfl, fun e' => (safe.stages e').extend grows,
    deletions_append safe.deletions (fun _ _ _ same => by cases same), ?_⟩
  · exact (safe.podVersions name q stored).trans (Nat.le_succ _)
  · intro allowed spent counted
    simp only [World.writeBudget, tally_append] at counted ⊢
    cases last : tally w.log with
    | none => simp [last] at counted
    | some tallied =>
      obtain ⟨allowed₀, spent₀⟩ := tallied
      rw [last, tallyEvent_decremented, Option.some.injEq, Prod.mk.injEq] at counted
      obtain ⟨rfl, rfl⟩ := counted
      obtain ⟨bounded, current⟩ := safe.budget allowed₀ spent₀ last
      -- the decrement needed a positive allowance, so the count since the last write stays in it
      have positive := decrement.allowed
      have lowered := decrement.decremented
      refine ⟨by omega, ?_⟩
      simp only [World.bumpBudget]
      omega

theorem Safe.bumpPod {w : World ε π} {name : π} {pod next : Pod} (safe : w.Safe)
    (stored : w.pods name = some pod)
    (keeps : pod.phase.terminal = true ∨ pod.terminating = true →
      next.phase.terminal = true ∨ next.terminating = true) :
    (w.bumpPod name next).Safe := by
  have grows : Extends w (w.bumpPod name next) := by
    refine ⟨Nat.le_succ _, List.prefix_refl _, fun other q' written => ?_, .inl rfl⟩
    by_cases same : other = name
    · subst same
      simp only [World.bumpPod, Function.update_self, Option.some.injEq] at written
      subst written
      exact .inr ⟨pod, stored, Nat.lt_succ_self _, keeps⟩
    · left
      simp [World.bumpPod, same]
  refine ⟨fun other q written => ?_, safe.budgetVersion.trans (Nat.le_succ _),
    fun e' => (safe.stages e').extend grows, safe.deletions, safe.budget⟩
  by_cases same : other = name
  · subst same
    simp only [World.bumpPod, Function.update_self, Option.some.injEq] at written
    subst written
    exact le_rfl
  · simp only [World.bumpPod, Function.update_of_ne same] at written
    exact (safe.podVersions other q written).trans (Nat.le_succ _)

theorem Safe.bumpBudget {w : World ε π} {pdb : PodDisruptionBudget π} (safe : w.Safe)
    (sameAllowance : pdb.status.disruptionsAllowed = w.pdb.status.disruptionsAllowed) :
    (w.bumpBudget pdb).Safe := by
  have grows : Extends w (w.bumpBudget pdb) :=
    ⟨Nat.le_succ _, List.prefix_refl _, fun _ _ _ => .inl rfl, .inr (Nat.lt_succ_self _)⟩
  refine ⟨fun name q stored => (safe.podVersions name q stored).trans (Nat.le_succ _), le_rfl,
    fun e' => (safe.stages e').extend grows, safe.deletions, fun allowed spent counted => ?_⟩
  obtain ⟨bounded, current⟩ := safe.budget allowed spent counted
  exact ⟨bounded, sameAllowance.trans current⟩

theorem Safe.writeStatus {w : World ε π} (safe : w.Safe) (status : PodDisruptionBudgetStatus π) :
    { w.bumpBudget { w.pdb with status } with log := w.log ++ [Event.written status] }.Safe := by
  have grows : Extends w { w.bumpBudget { w.pdb with status } with log := w.log ++ [Event.written status] } :=
    ⟨Nat.le_succ _, List.prefix_append _ _, fun _ _ _ => .inl rfl, .inr (Nat.lt_succ_self _)⟩
  refine ⟨fun name q stored => (safe.podVersions name q stored).trans (Nat.le_succ _), le_rfl,
    fun e' => (safe.stages e').extend grows, deletions_append safe.deletions (fun _ _ _ same => by cases same),
    fun allowed spent counted => ?_⟩
  simp only [tally_append, tallyEvent, Option.some.injEq, Prod.mk.injEq] at counted
  obtain ⟨rfl, rfl⟩ := counted
  simp [World.bumpBudget]

theorem not_disrupting_of_undisruptable {pod : Pod}
    (settled : pod.phase.terminal = true ∨ pod.terminating = true) : ¬pod.Disrupting := by
  rintro ⟨running, -, notTerminating⟩
  rcases settled with terminal | terminating
  · simp [running, PodPhase.terminal] at terminal
  · simp [notTerminating] at terminating

theorem Safe.advance {w w' : World ε π} {e : ε} (safe : w.Safe)
    (stepped : w.advance e (w.calls e) = some w') : w'.Safe := by
  have sound := safe.stages e
  cases stage : w.calls e with
  | idle => rw [stage] at stepped; cases stepped
  | done result => rw [stage] at stepped; cases stepped
  | getPod name attempts =>
    rw [stage] at stepped
    simp only [World.advance] at stepped
    split at stepped
    · cases stepped
      exact safe.setCall trivial
    · rename_i pod read
      have fresh := fresh_of_read safe.podVersions read
      split at stepped
      · rename_i ignorable
        cases stepped
        refine safe.setCall ⟨fresh, ignorable, fun unenforced q stored => ?_⟩
        rw [read, Option.some.injEq] at stored
        subst stored
        exact terminal_of_not_shouldEnforceResourceVersion unenforced
      · cases stepped
        exact safe.setCall fresh
  | deleteIgnorable name attempts pod =>
    rw [stage] at sound stepped
    obtain ⟨fresh, ignorable, settled⟩ := sound
    simp only [World.advance] at stepped
    split at stepped
    · rename_i deleted found
      cases stepped
      obtain ⟨stored, preconditioned⟩ := deletePod_eq_ok found
      refine (safe.removePod fun disrupting => absurd disrupting ?_).setCall trivial
      cases enforced : shouldEnforceResourceVersion pod
      · -- no precondition: the pod was terminal or terminating when read, and still is
        exact not_disrupting_of_undisruptable (settled enforced deleted stored)
      · -- under the precondition the pod deleted is the pending pod that was read
        have same := fresh.2 deleted stored (preconditioned _ (by simp [enforced]))
        subst same
        have pending := (shouldEnforceResourceVersion_of_canIgnorePDB ignorable enforced).1
        rintro ⟨running, -, -⟩
        simp [pending] at running
    · split at stepped
      · cases stepped
        exact safe.setCall trivial
      · cases stepped
        exact safe.setCall trivial
  | listBudgets name pod =>
    rw [stage] at sound stepped
    simp only [World.advance] at stepped
    split at stepped
    · rename_i unready
      cases stepped
      simp only [Bool.and_eq_true, Bool.not_eq_eq_eq_not, Bool.not_true] at unready
      exact safe.setCall ⟨sound, unready.1.1⟩
    · cases stepped
      exact safe.setCall ⟨safe.budgetVersion, fun _ => rfl⟩
  | decrement name pod pdb attempts =>
    rw [stage] at sound stepped
    simp only [World.advance] at stepped
    split at stepped
    · cases stepped
      exact safe.setCall trivial
    · rename_i dryRun
      obtain ⟨_, written, -⟩ := checkAndDecrement_eq_ok dryRun
      cases written
    · rename_i next accepted
      obtain ⟨next', same, -, decrement⟩ := checkAndDecrement_eq_ok accepted
      cases same
      split at stepped
      · rename_i current
        cases stepped
        obtain rfl := sound.2 current
        refine (safe.writeBudget decrement).setCall
          ⟨w.pdb, _, List.mem_append_right _ (List.mem_singleton_self _), ?_⟩
        exact ⟨decrement.allowed, decrement.observed, decrement.decremented, decrement.recorded⟩
      · split at stepped
        · cases stepped
          exact safe.setCall trivial
        · cases stepped
          exact safe.setCall trivial
  | refresh name pod attempts =>
    rw [stage] at stepped
    cases stepped
    exact safe.setCall ⟨safe.budgetVersion, fun _ => rfl⟩
  | delete name pod updateDeletionOptions =>
    rw [stage] at sound stepped
    simp only [World.advance] at stepped
    split at stepped
    · rename_i deleted found
      cases stepped
      obtain ⟨stored, preconditioned⟩ := deletePod_eq_ok found
      refine (safe.removePod fun disrupting => ?_).setCall trivial
      cases updateDeletionOptions with
      | true =>
        obtain ⟨fresh, unready⟩ := sound
        have same := fresh.2 deleted stored (preconditioned _ rfl)
        subst same
        exact absurd disrupting.2.1 (by simp [unready])
      | false =>
        obtain ⟨before, after, logged, decrement⟩ := sound
        obtain ⟨j, found⟩ := List.mem_iff_getElem?.mp logged
        exact ⟨j, (List.getElem?_eq_some_iff.mp found).1, before, after, found, decrement⟩
    · split at stepped
      · cases stepped
        exact safe.setCall trivial
      · cases stepped
        exact safe.setCall trivial

section Environment

variable {permitted : Pod → PodPhase → Bool}

theorem Safe.step
    (keeps : ∀ pod phase, permitted pod phase = true → pod.phase.terminal = true → phase.terminal = true)
    {w w' : World ε π} {input : Input ε π} (safe : w.Safe) (stepped : w.step permitted input = some w') :
    w'.Safe := by
  cases input with
  | evict e name =>
    simp only [World.step] at stepped
    split at stepped
    · cases stepped
      exact safe.setCall trivial
    · cases stepped
  | advance e => exact safe.advance stepped
  | setStatus name phase ready =>
    simp only [World.step] at stepped
    split at stepped
    · rename_i pod stored
      split at stepped
      · rename_i allowed
        cases stepped
        refine safe.bumpPod stored fun settled => ?_
        rcases settled with terminal | terminating
        · exact .inl (keeps pod phase allowed terminal)
        · exact .inr terminating
      · cases stepped
    · cases stepped
  | markTerminating name =>
    simp only [World.step] at stepped
    split at stepped
    · rename_i pod stored
      cases stepped
      exact safe.bumpPod stored fun _ => .inr rfl
    · cases stepped
  | writeStatus status =>
    cases stepped
    exact safe.writeStatus status
  | updateSpec =>
    cases stepped
    exact safe.bumpBudget rfl

theorem safe_initial {w : World ε π} (initial : w.Initial) : w.Safe where
  podVersions := initial.podVersions
  budgetVersion := initial.budgetVersion
  stages e := by rw [initial.idle e]; trivial
  deletions _ _ _ _ logged := by simp [initial.log] at logged
  budget _ _ counted := by simp [initial.log, tally] at counted

theorem safe_invariant
    (keeps : ∀ pod phase, permitted pod phase = true → pod.phase.terminal = true → phase.terminal = true) :
    (system (ε := ε) (π := π) permitted).Invariant Safe :=
  System.Inductive.invariant
    ⟨fun _ initial => safe_initial initial, fun _ _ _ safe stepped => safe.step keeps stepped⟩

end Environment

theorem foldl_tallyEvent (window : List (Event ε π))
    (quiet : ∀ event ∈ window, ∀ status, event ≠ Event.written status) (allowed : ℤ) (spent : ℕ) :
    window.foldl tallyEvent (some (allowed, spent)) =
      some (allowed, spent + window.countP Event.isDecremented) := by
  induction window generalizing spent with
  | nil => rfl
  | cons event rest ih =>
    have restQuiet : ∀ other ∈ rest, ∀ status, other ≠ Event.written status :=
      fun other member => quiet other (List.mem_cons_of_mem _ member)
    cases event with
    | decremented e name before after =>
      rw [List.foldl_cons, tallyEvent_decremented, ih restQuiet, List.countP_cons_of_pos (by rfl),
        Nat.add_right_comm, Nat.add_assoc]
    | deleted e name pod =>
      rw [List.foldl_cons, tallyEvent_deleted, ih restQuiet, List.countP_cons_of_neg (by simp [Event.isDecremented])]
    | written status => exact absurd rfl (quiet _ List.mem_cons_self status)

theorem tally_window (before window : List (Event ε π)) (status : PodDisruptionBudgetStatus π)
    (quiet : ∀ event ∈ window, ∀ status, event ≠ Event.written status) :
    tally (before ++ Event.written status :: window) =
      some (status.disruptionsAllowed, window.countP Event.isDecremented) := by
  rw [tally, List.foldl_append, List.foldl_cons]
  simp only [tallyEvent]
  rw [foldl_tallyEvent window quiet, Nat.zero_add]

end World

/-! ## Evictions pay for the disruptions they cause -/

theorem keepsTerminal_keeps (pod : Pod) (phase : PodPhase) (permitted : keepsTerminal pod phase = true)
    (terminal : pod.phase.terminal = true) : phase.terminal = true := by
  simpa [keepsTerminal, terminal] using permitted

/-- In an environment that never moves a pod out of a terminal phase, every eviction that
deletes a running, ready pod without a deletion timestamp has first made its own successful
compare-and-swap of the budget, which took a positive allowance of a budget that had seen
its generation down by one and recorded the pod; and after any status write of the disruption
controller, the decrements stay within the allowance it wrote. -/
theorem eviction_decrements_before_disrupting {ε π : Type} [DecidableEq ε] [DecidableEq π]
    (permitted : Pod → PodPhase → Bool)
    (keeps : ∀ pod phase, permitted pod phase = true → pod.phase.terminal = true → phase.terminal = true)
    {w : World ε π} (reachable : (World.system permitted).Reachable w) :
    (∀ (k : ℕ) (e : ε) (name : π) (pod : Pod), w.log[k]? = some (Event.deleted e name pod) →
      pod.Disrupting → ∃ j < k, ∃ before after,
        w.log[j]? = some (Event.decremented e name before after) ∧ Decrement name before after) ∧
    (∀ previous window status, w.log = previous ++ Event.written status :: window →
      (∀ event ∈ window, ∀ status, event ≠ Event.written status) →
      window.countP Event.isDecremented ≤ status.disruptionsAllowed.toNat) := by
  have safe := World.safe_invariant keeps w reachable
  refine ⟨safe.deletions, fun previous window status split quiet => ?_⟩
  have counted := World.tally_window previous window status quiet
  rw [← split] at counted
  have bounded := (safe.budget _ _ counted).1
  omega

def runningPod : Pod := ⟨.running, true, false, 1⟩

def openBudget : PodDisruptionBudget Unit := ⟨"web", 1, ⟨1, ∅, 1, 2, 1⟩, 2⟩

def servingWorld : World Unit Unit := ⟨fun _ => some runningPod, openBudget, 2, fun _ => .idle, []⟩

theorem servingWorld_initial : servingWorld.Initial :=
  ⟨fun _ => rfl, rfl, fun _ pod read => by cases read; decide, by decide⟩

/-- One eviction of the running pod: it reads the pod and the budget, decrements, and deletes. -/
def evictionTrace : List (Input Unit Unit) := [.evict () (), .advance (), .advance (), .advance (), .advance ()]

theorem eviction_decrements_before_disrupting_run :
    ∃ w : World Unit Unit, (∀ pod phase, keepsTerminal pod phase = true → pod.phase.terminal = true →
        phase.terminal = true) ∧ (World.system keepsTerminal).Reachable w ∧
      (∃ pod, w.log[1]? = some (Event.deleted () () pod) ∧ pod.Disrupting) ∧
      ((∀ (k : ℕ) (e : Unit) (name : Unit) (pod : Pod), w.log[k]? = some (Event.deleted e name pod) →
        pod.Disrupting → ∃ j < k, ∃ before after,
          w.log[j]? = some (Event.decremented e name before after) ∧ Decrement name before after) ∧
      (∀ previous window status, w.log = previous ++ Event.written status :: window →
        (∀ event ∈ window, ∀ status, event ≠ Event.written status) →
        window.countP Event.isDecremented ≤ status.disruptionsAllowed.toNat)) :=
  have reachable := System.reachable_of_runPartial servingWorld_initial evictionTrace rfl
  ⟨_, keepsTerminal_keeps, reachable, ⟨_, rfl, by decide⟩,
    eviction_decrements_before_disrupting keepsTerminal keepsTerminal_keeps reachable⟩

/-! ## A failed pod that runs again is deleted without its budget -/

def failedPod : Pod := ⟨.failed, false, false, 1⟩

/-- A budget that allows no disruption. -/
def exhaustedBudget : PodDisruptionBudget Unit := ⟨"web", 1, ⟨1, ∅, 0, 1, 2⟩, 2⟩

def failedWorld : World Unit Unit := ⟨fun _ => some failedPod, exhaustedBudget, 2, fun _ => .idle, []⟩

theorem failedWorld_initial : failedWorld.Initial :=
  ⟨fun _ => rfl, rfl, fun _ pod read => by cases read; decide, by decide⟩

/-- The eviction reads the failed pod, which may skip its budget and gets no precondition; the
pod then reports running and ready before the delete. -/
def restartTrace : List (Input Unit Unit) :=
  [.evict () (), .advance (), .setStatus () .running true, .advance ()]

theorem eviction_deletes_restarted_pod_without_budget :
    ∃ w : World Unit Unit, (World.system anyPhase).Reachable w ∧
      ∃ (k : ℕ) (e : Unit) (name : Unit) (pod : Pod), w.log[k]? = some (Event.deleted e name pod) ∧
        pod.Disrupting ∧ ¬∃ j < k, ∃ before after, w.log[j]? = some (Event.decremented e name before after) :=
  ⟨_, System.reachable_of_runPartial failedWorld_initial restartTrace rfl, 0, (), (), _, rfl, by decide,
    by simp⟩

end Kubernetes.Registry.Pod.Storage
