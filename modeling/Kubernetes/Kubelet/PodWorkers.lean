import Mathlib.Data.Int.Notation
import Mathlib.Data.Nat.Notation
import Mathlib.Tactic.SplitIfs
import Kubernetes.Library.Transition

/-! The kubelet's pod workers for one pod UID (pod_workers.go): UpdatePod hands work to the
UID's worker through a one-slot channel, or leaves it in lastUndeliveredWorkUpdate while the
worker is busy; the worker loop takes work from the channel, asks allowPodStart whether the pod
may start, calls one of the sync functions, and on its return completes the phase and passes
on the undelivered work.

The sync functions, the runtime status cache and the static-pod start check of other UIDs
with the same full name are the environment: each call returns what the environment chooses.
Times are modelled as set or unset, and contexts, metrics, the work queue and the completion
channels of kill requests are left out, since nothing here reads them back. -/

set_option autoImplicit false
set_option linter.dupNamespace false

namespace Kubernetes.Kubelet.PodWorkers

open Library

inductive SyncPodType
  | syncPodSync
  | syncPodUpdate
  | syncPodCreate
  | syncPodKill
  deriving DecidableEq, Repr

inductive PodPhase
  | pending
  | running
  | succeeded
  | failed
  | unknown
  deriving DecidableEq, Repr

/-- What the pod workers read of a pod; `version` tells apart the objects passed to UpdatePod. -/
structure Pod where
  version : ℕ
  phase : PodPhase
  deletionTimestamp : Bool
  deletionGracePeriodSeconds : Option ℤ
  terminationGracePeriodSeconds : Option ℤ
  static : Bool
  deriving DecidableEq, Repr

structure KillPodOptions where
  evict : Bool
  podTerminationGracePeriodSecondsOverride : Option ℤ
  deriving DecidableEq, Repr

/-- UpdatePodOptions. `runningPod` marks a kill of a pod known only to the runtime (RunningPod
set and Pod nil); `pod` then stands for RunningPod.ToAPIPod(). -/
structure UpdatePodOptions where
  updateType : SyncPodType
  pod : Pod
  runningPod : Bool
  killPodOptions : Option KillPodOptions
  deriving DecidableEq, Repr

inductive PodWorkType
  | syncPodWork
  | terminatingPodWork
  | terminatedPodWork
  deriving DecidableEq, Repr

structure PodWork where
  workType : PodWorkType
  options : UpdatePodOptions
  deriving DecidableEq, Repr

structure PodSyncStatus where
  working : Bool
  terminatingAt : Bool
  startedTerminating : Bool
  deleted : Bool
  gracePeriod : ℤ
  evicted : Bool
  terminatedAt : Bool
  finished : Bool
  restartRequested : Bool
  deriving DecidableEq, Repr

/-- A call of one of the sync functions, with the pod it was given. -/
inductive SyncCall
  | syncPod (pod : Pod)
  | syncTerminatingPod (pod : Pod)
  | syncTerminatedPod (pod : Pod)
  deriving DecidableEq, Repr

/-- The worker goroutine: waiting on its channel (knowing whether the pod has started), or
inside the sync function for an update. -/
inductive Worker
  | waiting (podStarted : Bool)
  | syncing (update : PodWork)
  deriving DecidableEq, Repr

/-- The pod workers' state for one UID. -/
structure PodWorkers where
  podSyncStatus : Option PodSyncStatus
  /-- podUpdates[uid]: no channel, or the channel with its one-slot buffer. -/
  podUpdates : Option (Option PodWork)
  lastUndeliveredWorkUpdate : Option PodWork
  worker : Option Worker
  /-- The sync functions called so far, in order. -/
  calls : List SyncCall
  deriving DecidableEq, Repr

/-- What a sync function returned: nil, an error, context.Canceled, or (syncPodFn only) a
terminal pod with no error. -/
inductive SyncResult
  | success
  | failure
  | canceled
  | terminal
  deriving DecidableEq, Repr

/-! ## UpdatePod -/

/-- The status of a UID seen for the first time: a pod in a terminal phase whose cached runtime
status is terminal starts out finished. -/
def newPodSyncStatus (pod : Pod) (isRuntimePod cacheTerminal : Bool) : PodSyncStatus :=
  if !isRuntimePod ∧ (pod.phase = .failed ∨ pod.phase = .succeeded) ∧ cacheTerminal then
    { working := false, terminatingAt := true, startedTerminating := true, deleted := false,
      gracePeriod := 0, evicted := false, terminatedAt := true, finished := true,
      restartRequested := false }
  else
    { working := false, terminatingAt := false, startedTerminating := false, deleted := false,
      gracePeriod := 0, evicted := false, terminatedAt := false, finished := false,
      restartRequested := false }

/-- The transition to terminating, and whether the update made it. -/
def requestTermination (status : PodSyncStatus) (options : UpdatePodOptions) : PodSyncStatus × Bool :=
  if status.terminatingAt then (status, false)
  else if options.runningPod then ({ status with deleted := true, terminatingAt := true }, true)
  else if options.pod.deletionTimestamp then ({ status with deleted := true, terminatingAt := true }, true)
  else if options.pod.phase = .failed ∨ options.pod.phase = .succeeded then
    ({ status with terminatingAt := true }, true)
  else if options.updateType = .syncPodKill then
    match options.killPodOptions with
    | some kill =>
      if kill.evict then ({ status with evicted := true, terminatingAt := true }, true)
      else ({ status with terminatingAt := true }, true)
    | none => ({ status with terminatingAt := true }, true)
  else (status, false)

/-- A grace period only decreases, defaults to the pod's, and is at least 1; the flag tells
whether an earlier grace period was shortened. -/
def calculateEffectiveGracePeriod (status : PodSyncStatus) (pod : Pod) (options : KillPodOptions) :
    ℤ × Bool :=
  let lower (gracePeriod : ℤ) : Option ℤ → ℤ
    | some override => if gracePeriod = 0 ∨ override < gracePeriod then override else gracePeriod
    | none => gracePeriod
  let gracePeriod := lower (lower status.gracePeriod pod.deletionGracePeriodSeconds)
    options.podTerminationGracePeriodSecondsOverride
  let gracePeriod := match pod.terminationGracePeriodSeconds with
    | some seconds => if gracePeriod = 0 then seconds else gracePeriod
    | none => gracePeriod
  let gracePeriod := if gracePeriod < 1 then 1 else gracePeriod
  (gracePeriod, status.gracePeriod ≠ 0 ∧ status.gracePeriod ≠ gracePeriod)

/-- The work an update becomes and the status it leaves; none when a runtime-only kill of a
terminated pod is ignored. Once terminating, every update is a kill. -/
def workFor (status : PodSyncStatus) (options : UpdatePodOptions) : Option (PodWork × PodSyncStatus) :=
  if status.terminatedAt then
    if options.runningPod then none
    else some (⟨.terminatedPodWork, { options with killPodOptions := none }⟩, status)
  else if status.terminatingAt then
    let kill := options.killPodOptions.getD ⟨false, none⟩
    let gracePeriod := (calculateEffectiveGracePeriod status options.pod kill).1
    some (⟨.terminatingPodWork,
        { options with killPodOptions := some { kill with podTerminationGracePeriodSecondsOverride := some gracePeriod } }⟩,
      { status with gracePeriod := gracePeriod })
  else some (⟨.syncPodWork, { options with killPodOptions := none }⟩, status)

namespace PodWorkers

/-- The first work for a UID creates its channel and starts its worker goroutine. -/
def ensureWorker (p : PodWorkers) : PodWorkers :=
  if p.podUpdates.isNone then { p with podUpdates := some none, worker := some (.waiting false) } else p

/-- Hand work to the worker: into the channel when it is idle (a full slot would block the
sender, so no state follows), otherwise as the undelivered update, replacing any earlier one. -/
def dispatch (p : PodWorkers) (status : PodSyncStatus) (work : PodWork) : Option PodWorkers :=
  let p := p.ensureWorker
  if !status.working then
    match p.podUpdates with
    | some none => some { p with podSyncStatus := some { status with working := true },
                                 podUpdates := some (some work) }
    | _ => none
  else some { p with podSyncStatus := some status, lastUndeliveredWorkUpdate := some work }

def updatePod (p : PodWorkers) (options : UpdatePodOptions) (cacheTerminal : Bool) : Option PodWorkers :=
  -- runtime pods can only be killed
  if options.runningPod ∧ options.updateType ≠ .syncPodKill then some p
  else
    let status := p.podSyncStatus.getD (newPodSyncStatus options.pod options.runningPod cacheTerminal)
    let p := { p with podSyncStatus := some status }
    if status.terminatingAt ∧ options.updateType = .syncPodCreate then
      some { p with podSyncStatus := some { status with restartRequested := true } }
    else if status.finished then some p
    else
      let status := (requestTermination status options).1
      let p := { p with podSyncStatus := some status }
      match workFor status options with
      | none => some p
      | some work => p.dispatch work.2 work.1

/-! ## The worker loop -/

/-- allowPodStart, with allowStaticPodStart's answer given: whether the pod may start now,
whether it ever may, and the status after the check (a refused static pod stops working). -/
def allowPodStart (status : Option PodSyncStatus) (pod : Pod) (allowStaticPodStart : Bool) :
    Bool × Bool × Option PodSyncStatus :=
  if !pod.static then (true, true, status)
  else match status with
    | none => (false, false, none)
    | some status =>
      if status.terminatingAt then (false, false, some status)
      else if !allowStaticPodStart then (false, true, some { status with working := false })
      else (true, true, some status)

def cleanupPodUpdates (p : PodWorkers) : PodWorkers :=
  { p with podUpdates := none, lastUndeliveredWorkUpdate := none }

def acknowledgeTerminating (p : PodWorkers) : PodWorkers :=
  { p with podSyncStatus := p.podSyncStatus.map fun status =>
      if status.terminatingAt ∧ !status.startedTerminating then { status with startedTerminating := true }
      else status }

def syncCallFor (update : PodWork) : SyncCall :=
  match update.workType with
  | .terminatedPodWork => .syncTerminatedPod update.options.pod
  | .terminatingPodWork => .syncTerminatingPod update.options.pod
  | .syncPodWork => .syncPod update.options.pod

/-- Call the sync function for an update (a terminating one first acknowledges termination). -/
def startSync (p : PodWorkers) (update : PodWork) : PodWorkers :=
  let p := if update.workType = .terminatingPodWork then p.acknowledgeTerminating else p
  { p with worker := some (.syncing update), calls := p.calls ++ [syncCallFor update] }

def completeUnstartedTerminated (p : PodWorkers) : PodWorkers :=
  let p := p.cleanupPodUpdates
  { p with podSyncStatus := p.podSyncStatus.map fun status =>
      { status with finished := true, working := false, terminatedAt := true } }

/-- The head of managePodLoop: take the next work from the channel, and unless the pod may not
start, call its sync function. -/
def receive (p : PodWorkers) (allowStaticPodStart : Bool) : Option PodWorkers :=
  match p.worker, p.podUpdates with
  | some (.waiting podStarted), some (some update) =>
    let p := { p with podUpdates := some none }
    if podStarted then some (p.startSync update)
    else
      let allowed := allowPodStart p.podSyncStatus update.options.pod allowStaticPodStart
      let p := { p with podSyncStatus := allowed.2.2 }
      -- a pod terminated before it could start is cleaned up and the worker exits
      if !allowed.2.1 then some { p.completeUnstartedTerminated with worker := none }
      else if !allowed.1 then some p
      else some ({ p with worker := some (.waiting true) }.startSync update)
  | _, _ => none

def completeSync (p : PodWorkers) (pod : Pod) : PodWorkers :=
  { p with
    podSyncStatus := p.podSyncStatus.map fun status =>
      { status with terminatingAt := true, startedTerminating := true }
    lastUndeliveredWorkUpdate := some ⟨.terminatingPodWork, ⟨.syncPodSync, pod, false, none⟩⟩ }

def completeTerminating (p : PodWorkers) (pod : Pod) : PodWorkers :=
  { p with
    podSyncStatus := p.podSyncStatus.map fun status => { status with terminatedAt := true }
    lastUndeliveredWorkUpdate := some ⟨.terminatedPodWork, ⟨.syncPodSync, pod, false, none⟩⟩ }

def completeTerminatingRuntimePod (p : PodWorkers) : PodWorkers :=
  let p : PodWorkers := { p with podSyncStatus := p.podSyncStatus.map fun status =>
      { status with terminatedAt := true, finished := true, working := false } }
  p.cleanupPodUpdates

def completeTerminated (p : PodWorkers) : PodWorkers :=
  let p := p.cleanupPodUpdates
  { p with podSyncStatus := p.podSyncStatus.map fun status =>
      { status with finished := true, working := false } }

/-- completeWorkQueueNext: the undelivered work goes into the channel, or the worker stops
working. -/
def completeWorkQueueNext (p : PodWorkers) : Option PodWorkers :=
  match p.lastUndeliveredWorkUpdate with
  | some workUpdate =>
    match p.podUpdates with
    | some none => some { p with podUpdates := some (some workUpdate), lastUndeliveredWorkUpdate := none }
    | _ => none
  | none => some { p with podSyncStatus := p.podSyncStatus.map fun status => { status with working := false } }

/-- The end of a loop iteration: back to the channel, then completeWorkQueueNext. -/
def completeWork (p : PodWorkers) : Option PodWorkers :=
  { p with worker := some (.waiting true) }.completeWorkQueueNext

/-- The sync function returns: complete the phase it finished, and let the worker go on or
exit. -/
def finish (p : PodWorkers) (result : SyncResult) : Option PodWorkers :=
  match p.worker with
  | some (.syncing update) =>
    match result, update.workType with
    | .terminal, .syncPodWork => (p.completeSync update.options.pod).completeWork
    | .terminal, _ => none
    | .canceled, _ | .failure, _ => p.completeWork
    | .success, .terminatedPodWork => some { p.completeTerminated with worker := none }
    | .success, .terminatingPodWork =>
      -- pods known only to the runtime are done once their containers are stopped
      if update.options.runningPod then some { p.completeTerminatingRuntimePod with worker := none }
      else (p.completeTerminating update.options.pod).completeWork
    | .success, .syncPodWork => p.completeWork
  | _ => none

/-- SyncKnownPods for this UID: a finished worker that is no longer desired, or that a pod with
the same UID asked to restart, is forgotten. -/
def syncKnownPods (p : PodWorkers) (known : Bool) : PodWorkers :=
  match p.podSyncStatus with
  | some status =>
    if (!known || status.restartRequested) && status.finished then
      { p.cleanupPodUpdates with podSyncStatus := none }
    else p
  | none => p

/-! ## Runs -/

inductive Call
  | updatePod (options : UpdatePodOptions) (cacheTerminal : Bool)
  | syncKnownPods (known : Bool)
  | receive (allowStaticPodStart : Bool)
  | finish (result : SyncResult)
  deriving DecidableEq, Repr

def step (p : PodWorkers) : Call → Option PodWorkers
  | .updatePod options cacheTerminal => p.updatePod options cacheTerminal
  | .syncKnownPods known => some (p.syncKnownPods known)
  | .receive allowStaticPodStart => p.receive allowStaticPodStart
  | .finish result => p.finish result

def initial : PodWorkers := ⟨none, none, none, none, []⟩

end PodWorkers

def system : System PodWorkers PodWorkers.Call :=
  System.ofPartial (· = PodWorkers.initial) PodWorkers.step

/-! ## Grace periods -/

/-- One lowering in \x60calculateEffectiveGracePeriod\x60: a request replaces the grace period so
far when that is unset or longer. -/
def lowerGracePeriod (gracePeriod : ℤ) : Option ℤ → ℤ
  | some override => if gracePeriod = 0 ∨ override < gracePeriod then override else gracePeriod
  | none => gracePeriod

/-- The end of \x60calculateEffectiveGracePeriod\x60: an unset grace period defaults to the pod's,
and the result is at least 1. -/
def settleGracePeriod (gracePeriod : ℤ) (terminationGracePeriodSeconds : Option ℤ) : ℤ :=
  let gracePeriod := match terminationGracePeriodSeconds with
    | some seconds => if gracePeriod = 0 then seconds else gracePeriod
    | none => gracePeriod
  if gracePeriod < 1 then 1 else gracePeriod

theorem calculateEffectiveGracePeriod_fst (status : PodSyncStatus) (pod : Pod) (options : KillPodOptions) :
    (calculateEffectiveGracePeriod status pod options).1 =
      settleGracePeriod (lowerGracePeriod (lowerGracePeriod status.gracePeriod pod.deletionGracePeriodSeconds)
        options.podTerminationGracePeriodSecondsOverride) pod.terminationGracePeriodSeconds := rfl

theorem settleGracePeriod_of_pos {gracePeriod : ℤ} (positive : 1 ≤ gracePeriod) (seconds : Option ℤ) :
    settleGracePeriod gracePeriod seconds = gracePeriod := by
  cases seconds with
  | none => simp only [settleGracePeriod]; rw [if_neg (by omega)]
  | some seconds => simp only [settleGracePeriod]; rw [if_neg (by omega), if_neg (by omega)]

theorem lowerGracePeriod_le_self {gracePeriod : ℤ} (set : gracePeriod ≠ 0) (request : Option ℤ) :
    lowerGracePeriod gracePeriod request ≤ gracePeriod := by
  cases request with
  | none => exact Int.le_refl _
  | some override =>
    simp only [lowerGracePeriod]
    split_ifs with lower <;> omega

theorem lowerGracePeriod_le_request (gracePeriod : ℤ) {override : ℤ} :
    lowerGracePeriod gracePeriod (some override) ≤ override := by
  simp only [lowerGracePeriod]
  split_ifs with lower <;> omega

theorem lowerGracePeriod_pos {gracePeriod : ℤ} {request : Option ℤ} (set : 1 ≤ gracePeriod ∨ gracePeriod = 0)
    (positive : ∀ override, request = some override → 1 ≤ override) :
    1 ≤ lowerGracePeriod gracePeriod request ∨ (gracePeriod = 0 ∧ request = none) := by
  cases request with
  | none =>
    rcases set with set | unset
    · exact .inl set
    · exact .inr ⟨unset, rfl⟩
  | some override =>
    have atLeastOne := positive override rfl
    simp only [lowerGracePeriod]
    split_ifs with lower <;> omega

/-- With every request at least 1, the grace period never grows once set, and is at most every
request the update carries. -/
theorem calculateEffectiveGracePeriod_le {status : PodSyncStatus} {pod : Pod} {options : KillPodOptions}
    (set : 1 ≤ status.gracePeriod ∨ status.gracePeriod = 0)
    (deletion : ∀ g, pod.deletionGracePeriodSeconds = some g → 1 ≤ g)
    (override : ∀ g, options.podTerminationGracePeriodSecondsOverride = some g → 1 ≤ g) :
    (status.gracePeriod ≠ 0 → (calculateEffectiveGracePeriod status pod options).1 ≤ status.gracePeriod) ∧
    (∀ g, (pod.deletionGracePeriodSeconds = some g ∨ options.podTerminationGracePeriodSecondsOverride = some g) →
      (calculateEffectiveGracePeriod status pod options).1 ≤ g) := by
  rw [calculateEffectiveGracePeriod_fst]
  have firstSet := lowerGracePeriod_pos set deletion
  have secondSet := lowerGracePeriod_pos (firstSet.imp id fun unset => by rw [unset.2]; exact unset.1) override
  refine ⟨fun known => ?_, fun g requested => ?_⟩
  · -- a grace period so far stays at least 1 through both lowerings
    have firstPos := firstSet.resolve_right fun unset => known unset.1
    have secondPos := secondSet.resolve_right fun unset => by omega
    rw [settleGracePeriod_of_pos secondPos]
    exact Int.le_trans (lowerGracePeriod_le_self (by omega) _) (lowerGracePeriod_le_self known _)
  rcases requested with fromDeletion | fromOverride
  · have firstPos := firstSet.resolve_right fun unset => by simp [fromDeletion] at unset
    have secondPos := secondSet.resolve_right fun unset => by omega
    rw [settleGracePeriod_of_pos secondPos]
    have lowered : lowerGracePeriod status.gracePeriod (some g) ≤ g := lowerGracePeriod_le_request _
    rw [← fromDeletion] at lowered
    exact Int.le_trans (lowerGracePeriod_le_self (by omega) _) lowered
  · have secondPos := secondSet.resolve_right fun unset => by simp [fromOverride] at unset
    rw [settleGracePeriod_of_pos secondPos, fromOverride]
    exact lowerGracePeriod_le_request _

/-- A grace period of 30 s so far, a deletion with 10 s and an eviction asking for 20 s: the
grace period becomes 10 s. -/
theorem calculateEffectiveGracePeriod_le_after_deletion :
    let pod : Pod := ⟨2, .running, true, some 10, some 30, false⟩
    let status : PodSyncStatus := { newPodSyncStatus pod false false with gracePeriod := 30 }
    let options : KillPodOptions := ⟨true, some 20⟩
    (1 ≤ status.gracePeriod ∨ status.gracePeriod = 0) ∧
      (∀ g, pod.deletionGracePeriodSeconds = some g → 1 ≤ g) ∧
      (∀ g, options.podTerminationGracePeriodSecondsOverride = some g → 1 ≤ g) ∧
      (calculateEffectiveGracePeriod status pod options).1 = 10 ∧
      (status.gracePeriod ≠ 0 → (calculateEffectiveGracePeriod status pod options).1 ≤ status.gracePeriod) ∧
      ∀ g, (pod.deletionGracePeriodSeconds = some g ∨ options.podTerminationGracePeriodSecondsOverride = some g) →
        (calculateEffectiveGracePeriod status pod options).1 ≤ g := by
  intro pod status options
  have set : 1 ≤ status.gracePeriod ∨ status.gracePeriod = 0 := by decide
  have deletion : ∀ g, pod.deletionGracePeriodSeconds = some g → 1 ≤ g := by
    intro g given
    cases given
    decide
  have override : ∀ g, options.podTerminationGracePeriodSecondsOverride = some g → 1 ≤ g := by
    intro g given
    cases given
    decide
  exact ⟨set, deletion, override, by decide, calculateEffectiveGracePeriod_le set deletion override⟩

/-! ## Termination flags only move forward -/

/-- Every termination flag set in one status is set in the other. -/
structure FlagsKept (before after : PodSyncStatus) : Prop where
  terminatingAt : before.terminatingAt = true → after.terminatingAt = true
  startedTerminating : before.startedTerminating = true → after.startedTerminating = true
  terminatedAt : before.terminatedAt = true → after.terminatedAt = true
  finished : before.finished = true → after.finished = true

theorem FlagsKept.refl (status : PodSyncStatus) : FlagsKept status status :=
  ⟨id, id, id, id⟩

theorem FlagsKept.trans {first second third : PodSyncStatus} (earlier : FlagsKept first second)
    (later : FlagsKept second third) : FlagsKept first third :=
  ⟨later.terminatingAt ∘ earlier.terminatingAt, later.startedTerminating ∘ earlier.startedTerminating,
    later.terminatedAt ∘ earlier.terminatedAt, later.finished ∘ earlier.finished⟩

theorem flagsKept_of_set {before after : PodSyncStatus}
    (terminatingAt : after.terminatingAt = before.terminatingAt ∨ after.terminatingAt = true)
    (startedTerminating : after.startedTerminating = before.startedTerminating ∨ after.startedTerminating = true)
    (terminatedAt : after.terminatedAt = before.terminatedAt ∨ after.terminatedAt = true)
    (finished : after.finished = before.finished ∨ after.finished = true) : FlagsKept before after where
  terminatingAt set := by rcases terminatingAt with same | now <;> simp_all
  startedTerminating set := by rcases startedTerminating with same | now <;> simp_all
  terminatedAt set := by rcases terminatedAt with same | now <;> simp_all
  finished set := by rcases finished with same | now <;> simp_all

theorem requestTermination_flagsKept (status : PodSyncStatus) (options : UpdatePodOptions) :
    FlagsKept status (requestTermination status options).1 := by
  have terminating : ∀ after : PodSyncStatus, after.terminatingAt = true →
      after.startedTerminating = status.startedTerminating → after.terminatedAt = status.terminatedAt →
      after.finished = status.finished → FlagsKept status after :=
    fun _ set started terminated finished =>
      flagsKept_of_set (.inr set) (.inl started) (.inl terminated) (.inl finished)
  unfold requestTermination
  split_ifs
  · exact FlagsKept.refl _
  · exact terminating _ rfl rfl rfl rfl
  · exact terminating _ rfl rfl rfl rfl
  · exact terminating _ rfl rfl rfl rfl
  · split
    · split
      · exact terminating _ rfl rfl rfl rfl
      · exact terminating _ rfl rfl rfl rfl
    · exact terminating _ rfl rfl rfl rfl
  · exact FlagsKept.refl _

theorem workFor_flagsKept {status : PodSyncStatus} {options : UpdatePodOptions}
    {work : PodWork × PodSyncStatus} (found : workFor status options = some work) :
    FlagsKept status work.2 := by
  unfold workFor at found
  split_ifs at found
  · cases found
    exact FlagsKept.refl _
  · cases found
    exact flagsKept_of_set (.inl rfl) (.inl rfl) (.inl rfl) (.inl rfl)
  · cases found
    exact FlagsKept.refl _

/-- The status, if there was one, is still there afterwards, with its flags kept. -/
def StatusKept (before after : Option PodSyncStatus) : Prop :=
  ∀ status, before = some status → ∃ status', after = some status' ∧ FlagsKept status status'

theorem StatusKept.refl (status : Option PodSyncStatus) : StatusKept status status :=
  fun status present => ⟨status, present, FlagsKept.refl status⟩

theorem StatusKept.trans {first second third : Option PodSyncStatus} (earlier : StatusKept first second)
    (later : StatusKept second third) : StatusKept first third := by
  intro status present
  obtain ⟨middle, stored, kept⟩ := earlier status present
  obtain ⟨last, final, keptLater⟩ := later middle stored
  exact ⟨last, final, kept.trans keptLater⟩

theorem statusKept_map {change : PodSyncStatus → PodSyncStatus} (status : Option PodSyncStatus)
    (kept : ∀ status, FlagsKept status (change status)) : StatusKept status (status.map change) := by
  intro before present
  exact ⟨change before, by rw [present]; rfl, kept before⟩

namespace PodWorkers

theorem statusKept_allowPodStart (status : Option PodSyncStatus) (pod : Pod) (allowStaticPodStart : Bool) :
    StatusKept status (allowPodStart status pod allowStaticPodStart).2.2 := by
  intro before present
  subst present
  simp only [allowPodStart]
  split_ifs <;> exact ⟨_, rfl, flagsKept_of_set (.inl rfl) (.inl rfl) (.inl rfl) (.inl rfl)⟩

theorem statusKept_startSync (p : PodWorkers) (update : PodWork) :
    StatusKept p.podSyncStatus (p.startSync update).podSyncStatus := by
  unfold startSync
  split
  · refine statusKept_map _ fun status => ?_
    split
    · exact flagsKept_of_set (.inl rfl) (.inr rfl) (.inl rfl) (.inl rfl)
    · exact FlagsKept.refl _
  · exact StatusKept.refl _

theorem statusKept_completeWorkQueueNext {p p' : PodWorkers} (completed : p.completeWorkQueueNext = some p') :
    StatusKept p.podSyncStatus p'.podSyncStatus := by
  unfold completeWorkQueueNext at completed
  split at completed
  · split at completed <;> cases completed
    exact StatusKept.refl _
  · cases completed
    exact statusKept_map _ fun _ => flagsKept_of_set (.inl rfl) (.inl rfl) (.inl rfl) (.inl rfl)

theorem statusKept_completeWork {p p' : PodWorkers} (completed : p.completeWork = some p') :
    StatusKept p.podSyncStatus p'.podSyncStatus := by
  unfold completeWork at completed
  have kept := statusKept_completeWorkQueueNext completed
  exact kept

theorem statusKept_dispatch {p p' : PodWorkers} {status : PodSyncStatus} {work : PodWork}
    (dispatched : p.dispatch status work = some p') :
    ∃ status', p'.podSyncStatus = some status' ∧ FlagsKept status status' := by
  dsimp only [dispatch] at dispatched
  split at dispatched
  · split at dispatched
    · cases dispatched
      exact ⟨_, rfl, flagsKept_of_set (.inl rfl) (.inl rfl) (.inl rfl) (.inl rfl)⟩
    · cases dispatched
  · cases dispatched
    exact ⟨status, rfl, FlagsKept.refl status⟩

theorem statusKept_updatePod {p p' : PodWorkers} {options : UpdatePodOptions} {cacheTerminal : Bool}
    (updated : p.updatePod options cacheTerminal = some p') : StatusKept p.podSyncStatus p'.podSyncStatus := by
  intro status present
  dsimp only [updatePod] at updated
  rw [present, Option.getD_some] at updated
  split_ifs at updated
  · cases updated
    exact ⟨status, present, FlagsKept.refl status⟩
  · cases updated
    exact ⟨_, rfl, flagsKept_of_set (.inl rfl) (.inl rfl) (.inl rfl) (.inl rfl)⟩
  · cases updated
    exact ⟨status, rfl, FlagsKept.refl status⟩
  · -- the status after the transition to terminating, then after choosing the work
    have requested := requestTermination_flagsKept status options
    split at updated
    · cases updated
      exact ⟨_, rfl, requested⟩
    next work found =>
      obtain ⟨final, stored, kept⟩ := statusKept_dispatch updated
      exact ⟨final, stored, requested.trans ((workFor_flagsKept found).trans kept)⟩

theorem statusKept_receive {p p' : PodWorkers} {allowStaticPodStart : Bool}
    (received : p.receive allowStaticPodStart = some p') : StatusKept p.podSyncStatus p'.podSyncStatus := by
  unfold receive at received
  split at received
  next podStarted update worker channel =>
    have allowed := statusKept_allowPodStart p.podSyncStatus update.options.pod allowStaticPodStart
    split at received
    · cases received
      exact statusKept_startSync { p with podUpdates := some none } update
    · dsimp only at received
      split_ifs at received
      · -- a pod terminated before it could start is marked finished
        cases received
        refine allowed.trans (statusKept_map _ fun _ => ?_)
        exact flagsKept_of_set (.inl rfl) (.inl rfl) (.inr rfl) (.inr rfl)
      · cases received
        exact allowed
      · cases received
        have started := statusKept_startSync
          { p with podUpdates := some none, worker := some (.waiting true),
                   podSyncStatus := (allowPodStart p.podSyncStatus update.options.pod allowStaticPodStart).2.2 }
          update
        exact allowed.trans started
  next => cases received

theorem statusKept_finish {p p' : PodWorkers} {result : SyncResult} (finished : p.finish result = some p') :
    StatusKept p.podSyncStatus p'.podSyncStatus := by
  unfold finish at finished
  split at finished
  next update worker =>
    split at finished
    · refine StatusKept.trans ?_ (statusKept_completeWork finished)
      exact statusKept_map _ fun _ => flagsKept_of_set (.inr rfl) (.inr rfl) (.inl rfl) (.inl rfl)
    · cases finished
    · exact statusKept_completeWork finished
    · exact statusKept_completeWork finished
    · cases finished
      exact statusKept_map _ fun _ => flagsKept_of_set (.inl rfl) (.inl rfl) (.inl rfl) (.inr rfl)
    · split at finished
      · cases finished
        exact statusKept_map _ fun _ => flagsKept_of_set (.inl rfl) (.inl rfl) (.inr rfl) (.inr rfl)
      · refine StatusKept.trans ?_ (statusKept_completeWork finished)
        exact statusKept_map _ fun _ => flagsKept_of_set (.inl rfl) (.inl rfl) (.inr rfl) (.inl rfl)
    · exact statusKept_completeWork finished
  next => cases finished

theorem syncKnownPods_cases (p : PodWorkers) (known : Bool) :
    p.syncKnownPods known = p ∨ (p.syncKnownPods known).podSyncStatus = none := by
  unfold syncKnownPods
  split
  · split_ifs
    · exact .inr rfl
    · exact .inl rfl
  · exact .inl rfl

end PodWorkers

/-- While the UID's status exists, no step clears terminatingAt, startedTerminating,
terminatedAt or finished. -/
theorem step_keeps_termination_flags {p p' : PodWorkers} {call : PodWorkers.Call}
    (stepped : PodWorkers.step p call = some p') {status status' : PodSyncStatus}
    (before : p.podSyncStatus = some status) (after : p'.podSyncStatus = some status') :
    FlagsKept status status' := by
  have kept : StatusKept p.podSyncStatus p'.podSyncStatus ∨ p'.podSyncStatus = none := by
    cases call with
    | updatePod options cacheTerminal => exact .inl (PodWorkers.statusKept_updatePod stepped)
    | syncKnownPods known =>
      cases stepped
      rcases PodWorkers.syncKnownPods_cases p known with same | forgotten
      · rw [same]
        exact .inl (StatusKept.refl _)
      · exact .inr forgotten
    | receive allowStaticPodStart => exact .inl (PodWorkers.statusKept_receive stepped)
    | finish result => exact .inl (PodWorkers.statusKept_finish stepped)
  rcases kept with kept | forgotten
  · obtain ⟨final, stored, flags⟩ := kept status before
    rw [after, Option.some.injEq] at stored
    subst stored
    exact flags
  · rw [after] at forgotten
    cases forgotten

/-! ## A static pod whose start is refused -/

namespace Runs

def staticPod (version : ℕ) : Pod := ⟨version, .running, false, none, none, true⟩

def update (updateType : SyncPodType) (version : ℕ) : PodWorkers.Call :=
  .updatePod ⟨updateType, staticPod version, false, none⟩ false

def runFrom (calls : List PodWorkers.Call) : PodWorkers :=
  (System.runPartial PodWorkers.step PodWorkers.initial calls).getD PodWorkers.initial

/-- Version 1 is sent to the worker and version 2 waits as undelivered work; the worker is
refused the start and stops working; version 3 is sent, the pod starts and syncs it, and
then the waiting version 2 is delivered. -/
def refusedStart : List PodWorkers.Call :=
  [update .syncPodCreate 1, update .syncPodUpdate 2, .receive false, update .syncPodUpdate 3,
    .receive true, .finish .success, .receive true]

theorem static_pod_refusal_syncs_older_version :
    system.Reachable (runFrom refusedStart) ∧
      (runFrom refusedStart).calls = [.syncPod (staticPod 3), .syncPod (staticPod 2)] :=
  ⟨System.reachable_of_runPartial rfl refusedStart rfl, by decide⟩

/-- A running pod with a termination grace period of 30 seconds, and the same pod deleted by the
API server with a deletion grace period of 10 seconds. -/
def runningPod : Pod := ⟨1, .running, false, none, some 30, false⟩

def deletedPod : Pod := ⟨2, .running, true, some 10, some 30, false⟩

/-- The pod is deleted while its worker syncs it, and the worker starts terminating it with 10
seconds; a hard eviction then kills it through killPodNow with the override 0. -/
def deleteThenEvict : List PodWorkers.Call :=
  [.updatePod ⟨.syncPodCreate, runningPod, false, none⟩ false, .receive true,
   .updatePod ⟨.syncPodUpdate, deletedPod, false, none⟩ false, .finish .canceled, .receive true,
   .updatePod ⟨.syncPodKill, deletedPod, false, some ⟨true, some 0⟩⟩ false, .finish .canceled, .receive true]

/-- The eviction's kill reaches the pod already terminating, and keeps its termination flags. -/
theorem step_keeps_termination_flags_on_eviction :
    PodWorkers.step (runFrom (deleteThenEvict.take 5))
        (.updatePod ⟨.syncPodKill, deletedPod, false, some ⟨true, some 0⟩⟩ false) =
      some (runFrom (deleteThenEvict.take 6)) ∧
      ∃ status status', (runFrom (deleteThenEvict.take 5)).podSyncStatus = some status ∧
        (runFrom (deleteThenEvict.take 6)).podSyncStatus = some status' ∧ FlagsKept status status' := by
  have stepped : PodWorkers.step (runFrom (deleteThenEvict.take 5))
      (.updatePod ⟨.syncPodKill, deletedPod, false, some ⟨true, some 0⟩⟩ false) =
        some (runFrom (deleteThenEvict.take 6)) := by decide
  obtain ⟨status, before⟩ := Option.isSome_iff_exists.mp
    (show (runFrom (deleteThenEvict.take 5)).podSyncStatus.isSome = true by decide)
  obtain ⟨status', after⟩ := Option.isSome_iff_exists.mp
    (show (runFrom (deleteThenEvict.take 6)).podSyncStatus.isSome = true by decide)
  exact ⟨stepped, status, status', before, after, step_keeps_termination_flags stepped before after⟩

theorem hard_eviction_raises_grace_period :
    system.Reachable (runFrom (deleteThenEvict.take 5)) ∧ system.Reachable (runFrom deleteThenEvict) ∧
      (runFrom (deleteThenEvict.take 5)).worker =
        some (.syncing ⟨.terminatingPodWork, ⟨.syncPodUpdate, deletedPod, false, some ⟨false, some 10⟩⟩⟩) ∧
      (runFrom deleteThenEvict).worker =
        some (.syncing ⟨.terminatingPodWork, ⟨.syncPodKill, deletedPod, false, some ⟨true, some 30⟩⟩⟩) ∧
      (runFrom deleteThenEvict).podSyncStatus.map PodSyncStatus.gracePeriod = some 30 :=
  ⟨System.reachable_of_runPartial rfl (deleteThenEvict.take 5) rfl,
    System.reachable_of_runPartial rfl deleteThenEvict rfl, by decide, by decide, by decide⟩

end Runs

end Kubernetes.Kubelet.PodWorkers
