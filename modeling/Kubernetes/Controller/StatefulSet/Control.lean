import Kubernetes.Controller.StatefulSet.Utils

/-! One sync of a StatefulSet (`defaultStatefulSetControl.updateStatefulSet` in
`pkg/controller/statefulset/stateful_set_control.go`).

The sync sorts the set's pods into the replicas, one slot per ordinal below `Spec.Replicas`
(filled with new pods where none exists), and the condemned pods above. It then walks the
replicas, recreating failed pods and creating missing ones, walks the condemned pods from the
highest ordinal down, and last deletes the highest replica not at the update revision. Under
`OrderedReady` each walk returns at the first pod it has to act on or wait for. The pod control's
calls are recorded in the order the sync makes them, with their answers taken from the pod
control. The path of the `MaxUnavailableStatefulSet` gate is not modelled.
-/

set_option autoImplicit false

namespace Kubernetes.Controller.Statefulset

structure Features where
  statefulSetMinReadySeconds : Bool
  statefulSetAutoDeletePVC : Bool

/-- The pod control's answers: an error or none for the writes, a verdict or an error for the
claim queries. -/
structure PodControl where
  createStatefulPod : Pod → Option String
  deleteStatefulPod : Pod → Option String
  updateStatefulPod : Pod → Option String
  podClaimIsStale : Pod → Except String Bool
  claimsMatchRetentionPolicy : Pod → Except String Bool
  updatePodClaimForRetentionPolicy : Pod → Option String

/-- A write the sync asks of the pod control. -/
inductive PodControlCall where
  | create (pod : Pod)
  | delete (pod : Pod)
  | update (pod : Pod)
  | updatePodClaim (pod : Pod)
  deriving DecidableEq, Repr

structure StatefulSetStatus where
  observedGeneration : ℤ
  replicas : ℤ
  readyReplicas : ℤ
  currentReplicas : ℤ
  updatedReplicas : ℤ
  availableReplicas : ℤ
  currentRevision : String
  updateRevision : String
  collisionCount : ℤ
  deriving DecidableEq, Repr

/-- What a sync is given besides the pods. -/
structure Env where
  set : StatefulSet
  currentRevision : String
  updateRevision : String
  collisionCount : ℤ
  features : Features
  podControl : PodControl
  /-- `metav1.Now()` in seconds, read once for the sync. -/
  now : ℤ

/-- The status so far and the calls made so far. -/
structure Sync where
  status : StatefulSetStatus
  calls : List PodControlCall

/-- What `updateStatefulSet` returns, with the calls it made. -/
structure SyncResult where
  status : StatefulSetStatus
  err : Option String
  calls : List PodControlCall

def Sync.call (s : Sync) (c : PodControlCall) : Sync := { s with calls := s.calls ++ [c] }

def Sync.stop (s : Sync) (err : Option String) : SyncResult := ⟨s.status, err, s.calls⟩

@[simp] theorem Sync.calls_call (s : Sync) (c : PodControlCall) : (s.call c).calls = s.calls ++ [c] := rfl

@[simp] theorem Sync.calls_stop (s : Sync) (err : Option String) : (s.stop err).calls = s.calls := rfl

section Sync

variable (env : Env)

/-- The current and updated counts move by `delta` for a pod at either revision. -/
def StatefulSetStatus.countRevision (status : StatefulSetStatus) (delta : ℤ) (pod : Pod) : StatefulSetStatus :=
  { status with
    currentReplicas := status.currentReplicas + if getPodRevision pod = env.currentRevision then delta else 0
    updatedReplicas := status.updatedReplicas + if getPodRevision pod = env.updateRevision then delta else 0 }

/-! ## Sorting the pods -/

/-- One round of the counting in the partition loop. -/
def countPod (status : StatefulSetStatus) (pod : Pod) : StatefulSetStatus :=
  let status := { status with replicas := status.replicas + 1 }
  let status :=
    if isRunningAndReady pod then
      let status := { status with readyReplicas := status.readyReplicas + 1 }
      if env.features.statefulSetMinReadySeconds then
        if isRunningAndAvailable pod env.set.minReadySeconds env.now then
          { status with availableReplicas := status.availableReplicas + 1 }
        else status
      -- without the gate every ready replica counts as available
      else { status with availableReplicas := status.readyReplicas }
    else status
  if isCreated pod && !isTerminating pod then status.countRevision env 1 pod else status

/-- One round of the slotting in the partition loop: a pod with an ordinal below the replica
count takes its ordinal's slot. -/
def placeReplica (replicaCount : ℕ) (slots : List (Option Pod)) (pod : Pod) : List (Option Pod) :=
  let ord := getOrdinal pod
  if 0 ≤ ord ∧ ord < replicaCount then slots.set ord.toNat (some pod) else slots

/-- The replicas: each ordinal's pod, or a new pod where there is none. -/
def replicasOf (pods : List Pod) : List Pod :=
  (pods.foldl (placeReplica env.set.replicas) (List.replicate env.set.replicas none)).mapIdx fun ord slot =>
    slot.getD (newVersionedStatefulSetPod env.set env.currentRevision env.updateRevision ord)

/-- The condemned pods, by ascending ordinal. -/
def condemnedOf (pods : List Pod) : List Pod :=
  (pods.filter fun pod => decide ((env.set.replicas : ℤ) ≤ getOrdinal pod)).insertionSort ascendingOrdinal

/-! ## The walk over the replicas -/

/-- With the `StatefulSetAutoDeletePVC` gate, a pod whose claim is stale waits for the next round. -/
def podClaimCheck (replica : Pod) (s : Sync) : Except SyncResult Unit :=
  if env.features.statefulSetAutoDeletePVC then
    match env.podControl.podClaimIsStale replica with
    | .error err => .error (s.stop (some err))
    | .ok true => .error (s.stop none)
    | .ok false => .ok ()
  else .ok ()

/-- A replica that does not exist is created; under `OrderedReady` the sync then returns. -/
def createReplica (monotonic : Bool) (replica : Pod) (s : Sync) : Except SyncResult (Sync × Pod) :=
  match podClaimCheck env replica s with
  | .error result => .error result
  | .ok () =>
    let s := s.call (.create replica)
    match env.podControl.createStatefulPod replica with
    | some err => .error (s.stop (some err))
    | none =>
      let s := { s with status := { s.status.countRevision env 1 replica with replicas := s.status.replicas + 1 } }
      if monotonic then .error (s.stop none) else .ok (s, replica)

/-- With the `StatefulSetAutoDeletePVC` gate, whether the replica's claims match the retention
policy. -/
def retentionMatch (replica : Pod) : Bool :=
  if env.features.statefulSetAutoDeletePVC then
    -- an error of the claims check counts as a match
    match env.podControl.claimsMatchRetentionPolicy replica with
    | .ok matched => matched
    | .error _ => true
  else true

/-- A replica that exists is waited for until it runs, is ready and is available, and is then
brought in line with the set. -/
def checkReplica (monotonic : Bool) (replica : Pod) (s : Sync) : Except SyncResult (Sync × Pod) :=
  if isTerminating replica && monotonic then .error (s.stop none)
  else if !isRunningAndReady replica && monotonic then .error (s.stop none)
  else if env.features.statefulSetMinReadySeconds &&
      !isRunningAndAvailable replica env.set.minReadySeconds env.now && monotonic then .error (s.stop none)
  else
    if identityMatches env.set replica && storageMatches env.set replica && retentionMatch env replica then
      .ok (s, replica)
    else
      let s := s.call (.update replica)
      match env.podControl.updateStatefulPod replica with
      | some err => .error (s.stop (some err))
      | none => .ok (s, replica)

/-- A failed replica is deleted and replaced by a new pod of its ordinal. -/
def recreateFailed (i : ℕ) (replica : Pod) (s : Sync) : Except SyncResult (Sync × Pod) :=
  if isFailed replica then
    let s := s.call (.delete replica)
    match env.podControl.deleteStatefulPod replica with
    | some err => .error (s.stop (some err))
    | none =>
      .ok ({ s with status := { s.status.countRevision env (-1) replica with replicas := s.status.replicas - 1 } },
        newVersionedStatefulSetPod env.set env.currentRevision env.updateRevision i)
  else .ok (s, replica)

/-- One round of the walk over the replicas, at ordinal `i`. -/
def examineReplica (monotonic : Bool) (i : ℕ) (replica : Pod) (s : Sync) : Except SyncResult (Sync × Pod) :=
  match recreateFailed env i replica s with
  | .error result => .error result
  | .ok (s, replica) =>
    if !isCreated replica then createReplica env monotonic replica s else checkReplica env monotonic replica s

/-- The walk over the replicas from ordinal `i`, with the replicas it leaves behind. -/
def examineReplicas (monotonic : Bool) : ℕ → List Pod → Sync → Except SyncResult (Sync × List Pod)
  | _, [], s => .ok (s, [])
  | i, replica :: rest, s =>
    match examineReplica env monotonic i replica s with
    | .error result => .error result
    | .ok (s, replica) =>
      match examineReplicas monotonic (i + 1) rest s with
      | .error result => .error result
      | .ok (s, rest) => .ok (s, replica :: rest)

/-! ## The condemned pods -/

/-- The owner references of the condemned pods' claims, where the claims do not match the
retention policy. -/
def updateCondemnedClaims : List Pod → Sync → Except SyncResult Sync
  | [], s => .ok s
  | pod :: rest, s =>
    match env.podControl.claimsMatchRetentionPolicy pod with
    | .error err => .error (s.stop (some err))
    | .ok true => updateCondemnedClaims rest s
    | .ok false =>
      let s := s.call (.updatePodClaim pod)
      match env.podControl.updatePodClaimForRetentionPolicy pod with
      | some err => .error (s.stop (some err))
      | none => updateCondemnedClaims rest s

/-- The scale down, over the condemned pods from the highest ordinal. -/
def scaleDown (monotonic : Bool) (firstUnhealthyPod : Option Pod) : List Pod → Sync → Except SyncResult Sync
  | [], s => .ok s
  | target :: rest, s =>
    if isTerminating target then
      if monotonic then .error (s.stop none) else scaleDown monotonic firstUnhealthyPod rest s
    -- only the first unhealthy pod is deleted without being ready
    else if !isRunningAndReady target && monotonic && firstUnhealthyPod != some target then .error (s.stop none)
    else if env.features.statefulSetMinReadySeconds &&
        !isRunningAndAvailable target env.set.minReadySeconds env.now && monotonic &&
        firstUnhealthyPod != some target then .error (s.stop none)
    else
      let s := s.call (.delete target)
      match env.podControl.deleteStatefulPod target with
      | some err => .error (s.stop (some err))
      | none =>
        let s := { s with status := s.status.countRevision env (-1) target }
        if monotonic then .error (s.stop none) else scaleDown monotonic firstUnhealthyPod rest s

/-! ## The rolling update -/

/-- The sweep from the highest replica down to `updateMin`, over the replicas with their
ordinals in descending order. -/
def rollingUpdate (updateMin : ℤ) : List (Pod × ℕ) → Sync → SyncResult
  | [], s => s.stop none
  | (replica, target) :: rest, s =>
    if (target : ℤ) < updateMin then s.stop none
    else if getPodRevision replica != env.updateRevision && !isTerminating replica then
      let s := s.call (.delete replica)
      ⟨{ s.status with currentReplicas := s.status.currentReplicas - 1 },
        env.podControl.deleteStatefulPod replica, s.calls⟩
    -- wait for unhealthy pods on update
    else if !isHealthy replica then s.stop none
    else rollingUpdate updateMin rest s

def updateStatefulSet (pods : List Pod) : SyncResult :=
  let set := env.set
  let status : StatefulSetStatus :=
    pods.foldl (countPod env)
      ⟨set.generation, 0, 0, 0, 0, 0, env.currentRevision, env.updateRevision, env.collisionCount⟩
  let replicas := replicasOf env pods
  let condemned := condemnedOf env pods
  let firstUnhealthyPod := (replicas ++ condemned).find? fun pod => !isHealthy pod
  -- a set being deleted only has its status updated
  if set.deletionTimestamp.isSome then ⟨status, none, []⟩
  else
    let monotonic := !allowsBurst set
    match examineReplicas env monotonic 0 replicas ⟨status, []⟩ with
    | .error result => result
    | .ok (s, replicas) =>
      let claimsUpdated :=
        if env.features.statefulSetAutoDeletePVC then updateCondemnedClaims env condemned s else .ok s
      match claimsUpdated with
      | .error result => result
      | .ok s =>
        match scaleDown env monotonic firstUnhealthyPod condemned.reverse s with
        | .error result => result
        | .ok s =>
          -- pods of an OnDelete set are updated when they are deleted by hand
          if set.updateStrategyType = .onDelete then s.stop none
          else
            let updateMin := set.partition.getD 0
            rollingUpdate env updateMin replicas.zipIdx.reverse s

end Sync

end Kubernetes.Controller.Statefulset
