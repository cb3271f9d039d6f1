import Mathlib.Data.List.Sort
import Mathlib.Data.Int.Notation
import Kubernetes.Library.Strconv
import Kubernetes.Controller.Deployment.Rolling

/-! The StatefulSet controller's view of its pods (`pkg/controller/statefulset/stateful_set_utils.go`).

A pod of a set is named after the set and its ordinal; the controller reads the ordinal back
from the name with a regular expression and a 32-bit parse, and decides what to do with a pod
from its phase, its ready condition, its deletion timestamp and its revision label.
-/

set_option autoImplicit false

namespace Kubernetes.Controller.Statefulset

open Kubernetes.Library

inductive PodPhase
  | unset
  | pending
  | running
  | succeeded
  | failed
  | unknown
  deriving DecidableEq, Repr

structure PodReadyCondition where
  status : Bool
  /-- `none` for the zero time. -/
  lastTransitionTime : Option ℤ
  deriving DecidableEq, Repr

structure Pod where
  «namespace» : String
  name : String
  labels : List (String × String) := []
  /-- Volumes by name, with the claim of those a PersistentVolumeClaim backs. -/
  volumes : List (String × Option String) := []
  phase : PodPhase := .unset
  readyCondition : Option PodReadyCondition := none
  deletionTimestamp : Option ℤ := none
  deriving DecidableEq, Repr

inductive PodManagementPolicyType
  | orderedReady
  | parallel
  deriving DecidableEq, Repr

inductive StatefulSetUpdateStrategyType
  | rollingUpdate
  | onDelete
  deriving DecidableEq, Repr

structure StatefulSet where
  «namespace» : String
  name : String
  generation : ℤ := 0
  deletionTimestamp : Option ℤ := none
  replicas : ℕ
  podManagementPolicy : PodManagementPolicyType := .orderedReady
  updateStrategyType : StatefulSetUpdateStrategyType := .rollingUpdate
  /-- `RollingUpdate.Partition`, where `RollingUpdate` is set. -/
  partition : Option ℤ := some 0
  /-- `RollingUpdate.MaxUnavailable`, an int-or-percent value as the deployment has it. -/
  maxUnavailable : Option Deployment.IntOrString := none
  minReadySeconds : ℤ := 0
  /-- The names of the volume claim templates. -/
  volumeClaimTemplates : List String := []
  statusCurrentReplicas : ℤ := 0
  deriving DecidableEq, Repr

def statefulSetRevisionLabel : String := "controller-revision-hash"

def statefulSetPodNameLabel : String := "statefulset.kubernetes.io/pod-name"

/-! ## Names and ordinals -/

/-- `strconv.ParseInt(digits, 10, 32)` of a run of decimal digits, -1 where it is out of range. -/
def parseOrdinal (digits : List Char) : ℤ :=
  let value := digits.foldl (fun n c => 10 * n + (c.toNat - '0'.toNat)) 0
  if value < 2 ^ 31 then value else -1

/-- `getParentNameAndOrdinal`: a name matching "(.*)-([0-9]+)$" is cut at the dash before its
trailing digits. -/
def getParentNameAndOrdinal (name : String) : String × ℤ :=
  let reversed := name.toList.reverse
  let digits := reversed.takeWhile Char.isDigit
  match reversed.drop digits.length with
  | '-' :: parent => if digits.isEmpty then ("", -1) else (String.ofList parent.reverse, parseOrdinal digits.reverse)
  | _ => ("", -1)

def getOrdinal (pod : Pod) : ℤ := (getParentNameAndOrdinal pod.name).2

def getPodName (set : StatefulSet) (ordinal : ℤ) : String := set.name ++ "-" ++ toString ordinal

theorem toList_getPodName (set : StatefulSet) (k : ℕ) :
    (getPodName set k).toList = set.name.toList ++ '-' :: Nat.toDigits 10 k := by
  rw [getPodName, String.toList_append, String.toList_append, toList_toString]
  simp

theorem getPodName_inj (set : StatefulSet) {k k' : ℕ} (same : getPodName set k = getPodName set k') :
    k = k' := by
  have digits : Nat.toDigits 10 k = Nat.toDigits 10 k' := by
    have names := congrArg String.toList same
    rw [toList_getPodName, toList_getPodName] at names
    exact List.cons_injective (List.append_cancel_left names)
  rw [← foldl_toDigits k, ← foldl_toDigits k', digits]

theorem getParentNameAndOrdinal_getPodName (set : StatefulSet) {k : ℕ} (small : k < 2 ^ 31) :
    getParentNameAndOrdinal (getPodName set k) = (set.name, (k : ℤ)) := by
  have reversed : (getPodName set k).toList.reverse =
      (Nat.toDigits 10 k).reverse ++ '-' :: set.name.toList.reverse := by
    simp [toList_getPodName]
  have allDigits : ∀ c ∈ (Nat.toDigits 10 k).reverse, c.isDigit = true := fun c member =>
    Nat.isDigit_of_mem_toDigits (by decide) (by decide) (List.mem_reverse.mp member)
  have taken : (getPodName set k).toList.reverse.takeWhile Char.isDigit = (Nat.toDigits 10 k).reverse := by
    rw [reversed, List.takeWhile_append_of_pos allDigits, List.takeWhile_cons_of_neg (by decide),
      List.append_nil]
  have rest : (getPodName set k).toList.reverse.drop (Nat.toDigits 10 k).reverse.length =
      '-' :: set.name.toList.reverse := by
    rw [reversed, List.drop_left' rfl]
  have nonempty : (Nat.toDigits 10 k).reverse.isEmpty = false := by
    simp [Nat.toDigits_ne_nil]
  simp only [getParentNameAndOrdinal, taken, rest, nonempty, List.reverse_reverse, String.ofList_toList,
    parseOrdinal, foldl_toDigits]
  -- what is left is the bound of the 32-bit parse
  simp
  omega

theorem getOrdinal_of_name {set : StatefulSet} {pod : Pod} {k : ℕ} (small : k < 2 ^ 31)
    (named : pod.name = getPodName set k) : getOrdinal pod = k := by
  rw [getOrdinal, named, getParentNameAndOrdinal_getPodName set small]

def getPersistentVolumeClaimName (set : StatefulSet) (claim : String) (ordinal : ℤ) : String :=
  claim ++ "-" ++ set.name ++ "-" ++ toString ordinal

/-- `identityMatches`: the pod's name, namespace and pod-name label are those of its ordinal. -/
def identityMatches (set : StatefulSet) (pod : Pod) : Bool :=
  let (parent, ordinal) := getParentNameAndOrdinal pod.name
  0 ≤ ordinal && set.name == parent && pod.name == getPodName set ordinal && pod.namespace == set.namespace &&
    (pod.labels.lookup statefulSetPodNameLabel).getD "" == pod.name

/-- `storageMatches`: every claim template has a volume backed by the ordinal's claim. -/
def storageMatches (set : StatefulSet) (pod : Pod) : Bool :=
  let ordinal := getOrdinal pod
  0 ≤ ordinal && set.volumeClaimTemplates.all fun claim =>
    -- the map of volumes by name keeps the last volume of a name
    match pod.volumes.reverse.lookup claim with
    | some (some claimName) => claimName == getPersistentVolumeClaimName set claim ordinal
    | _ => false

/-! ## What the controller reads off a pod -/

def isPodReady (pod : Pod) : Bool :=
  match pod.readyCondition with
  | some condition => condition.status
  | none => false

/-- `podutil.IsPodAvailable`, with times in seconds. -/
def isPodAvailable (pod : Pod) (minReadySeconds now : ℤ) : Bool :=
  isPodReady pod && (minReadySeconds == 0 ||
    match pod.readyCondition with
    | some ⟨_, some since⟩ => since + minReadySeconds < now
    | _ => false)

def isRunningAndReady (pod : Pod) : Bool := pod.phase == .running && isPodReady pod

def isRunningAndAvailable (pod : Pod) (minReadySeconds now : ℤ) : Bool := isPodAvailable pod minReadySeconds now

def isCreated (pod : Pod) : Bool := pod.phase != .unset

def isFailed (pod : Pod) : Bool := pod.phase == .failed

def isTerminating (pod : Pod) : Bool := pod.deletionTimestamp.isSome

def isHealthy (pod : Pod) : Bool := isRunningAndReady pod && !isTerminating pod

def allowsBurst (set : StatefulSet) : Bool := set.podManagementPolicy == .parallel

def getPodRevision (pod : Pod) : String := (pod.labels.lookup statefulSetRevisionLabel).getD ""

def setPodRevision (pod : Pod) (revision : String) : Pod :=
  { pod with labels := (statefulSetRevisionLabel, revision) :: pod.labels }

/-- `newStatefulSetPod`: the template's pod (its own contents are not modelled) under the
ordinal's identity and claims. -/
def newStatefulSetPod (set : StatefulSet) (ordinal : ℤ) : Pod :=
  let name := getPodName set ordinal
  { «namespace» := set.namespace
    name
    labels := [(statefulSetPodNameLabel, name)]
    volumes := set.volumeClaimTemplates.map fun claim => (claim, some (getPersistentVolumeClaimName set claim ordinal)) }

/-- `newVersionedStatefulSetPod`, with the set at both revisions: the revisions differ only in
the pod template, which is not modelled. -/
def newVersionedStatefulSetPod (set : StatefulSet) (currentRevision updateRevision : String) (ordinal : ℤ) : Pod :=
  if (set.updateStrategyType == .rollingUpdate && (set.partition.isNone && ordinal < set.statusCurrentReplicas)) ||
      (match set.partition with
       | some partition => ordinal < partition
       | none => false) then
    setPodRevision (newStatefulSetPod set ordinal) currentRevision
  else setPodRevision (newStatefulSetPod set ordinal) updateRevision

theorem newVersionedStatefulSetPod_eq (set : StatefulSet) (currentRevision updateRevision : String)
    (ordinal : ℤ) : ∃ revision, newVersionedStatefulSetPod set currentRevision updateRevision ordinal =
      setPodRevision (newStatefulSetPod set ordinal) revision := by
  unfold newVersionedStatefulSetPod
  split_ifs
  · exact ⟨currentRevision, rfl⟩
  · exact ⟨updateRevision, rfl⟩

@[simp] theorem name_newVersionedStatefulSetPod (set : StatefulSet) (currentRevision updateRevision : String)
    (ordinal : ℤ) : (newVersionedStatefulSetPod set currentRevision updateRevision ordinal).name =
      getPodName set ordinal := by
  obtain ⟨revision, eq⟩ := newVersionedStatefulSetPod_eq set currentRevision updateRevision ordinal
  rw [eq]
  rfl

@[simp] theorem isCreated_newVersionedStatefulSetPod (set : StatefulSet) (currentRevision updateRevision : String)
    (ordinal : ℤ) : isCreated (newVersionedStatefulSetPod set currentRevision updateRevision ordinal) = false := by
  obtain ⟨revision, eq⟩ := newVersionedStatefulSetPod_eq set currentRevision updateRevision ordinal
  rw [eq]
  rfl

def ascendingOrdinal (pod other : Pod) : Prop := getOrdinal pod ≤ getOrdinal other

instance : DecidableRel ascendingOrdinal := fun pod other =>
  inferInstanceAs (Decidable (getOrdinal pod ≤ getOrdinal other))

end Kubernetes.Controller.Statefulset
