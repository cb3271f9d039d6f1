import Mathlib.Data.Fintype.Card
import Mathlib.Data.Finset.Union
import Kubernetes.Library.Transition
import Kubernetes.Kubelet.CpuManager.Distributed

/-! The static policy of the kubelet's CPU manager (pkg/kubelet/cm/cpumanager/policy_static.go).

CPU sets are finite sets of CPU ids. Pods and container names are finite types, so that the
loops over the assignments are unions over all of them. What `guaranteedCPUs` computes from the
pod's QoS class and requests is the `numCPUs` of a call, and the NUMA nodes of the topology
manager's hint are its `numaAffinity`. A call that never returns, an allocator loop that does
not end or a division by zero, is `none`: the manager has no next state. -/

set_option autoImplicit false

namespace Kubernetes.Kubelet.CpuManager

open Kubernetes.Library

/-- `state.State`: the exclusive assignments by pod and container, and the default (shared) set. -/
structure CPUState (ρ κ : Type) where
  assignments : ρ → κ → Option (Finset ℤ)
  defaultCPUSet : Finset ℤ

/-- `StaticPolicyOptions`: `full-pcpus-only` and `distribute-cpus-across-numa`. -/
structure StaticPolicyOptions where
  fullPhysicalCPUsOnly : Bool
  distributeCPUsAcrossNUMA : Bool

structure StaticPolicy where
  topology : CPUTopology
  reserved : Finset ℤ
  options : StaticPolicyOptions

/-- `staticPolicy.takeByTopology`: the distributing allocator when the options ask for it, in
groups of whole cores under `full-pcpus-only`, and the packing one otherwise. -/
def takeByTopology (topology : CPUTopology) (options : StaticPolicyOptions) (availableCPUs : Finset ℤ)
    (numCPUs : ℤ) : ExceptT String Option (Finset ℤ) :=
  if options.distributeCPUsAcrossNUMA then
    let cpuGroupSize : ℤ := if options.fullPhysicalCPUsOnly then topology.cpusPerCore else 1
    ExceptT.mk (takeByTopologyNUMADistributed topology availableCPUs numCPUs cpuGroupSize)
  else ExceptT.mk (some (takeByTopologyNUMAPacked topology availableCPUs numCPUs))

/-- The state the policy works on: the CPU manager's state and the policy's `cpusToReuse`. -/
structure Manager (ρ κ : Type) where
  state : CPUState ρ κ
  cpusToReuse : ρ → Option (Finset ℤ)

/-- `validateState`'s errors; the sets are those its messages print. -/
inductive ValidationError where
  /-- "default cpuset cannot be empty" -/
  | defaultEmpty
  /-- "not all reserved cpus: ... are present in defaultCpuSet: ..." -/
  | reservedNotInDefault (reserved defaultCPUSet : Finset ℤ)
  /-- "pod: ..., container: ... cpuset: ... overlaps with default cpuset ..." -/
  | overlapsDefault (defaultCPUSet : Finset ℤ)
  /-- "current set of available CPUs ... doesn't match with CPUs in state ..." -/
  | cpusMismatch (topology known : Finset ℤ)
  deriving DecidableEq

inductive AllocateError where
  | smtAlignment (requestedCPUs cpusPerCore : ℕ)
  | takeByTopology (message : String)
  deriving DecidableEq

variable {ρ κ : Type} [Fintype ρ] [DecidableEq ρ] [Fintype κ] [DecidableEq κ]

namespace CPUState

def setCPUSet (s : CPUState ρ κ) (podUID : ρ) (containerName : κ) (cset : Finset ℤ) : CPUState ρ κ :=
  { s with assignments :=
      Function.update s.assignments podUID (Function.update (s.assignments podUID) containerName (some cset)) }

def delete (s : CPUState ρ κ) (podUID : ρ) (containerName : κ) : CPUState ρ κ :=
  { s with assignments :=
      Function.update s.assignments podUID (Function.update (s.assignments podUID) containerName none) }

/-- The CPUs assigned to the containers of one pod. -/
def assignedTo (s : CPUState ρ κ) (podUID : ρ) : Finset ℤ :=
  Finset.univ.biUnion fun name => (s.assignments podUID name).getD ∅

/-- The CPUs of all assignments, the `UnionAll` of `validateState`. -/
def assigned (s : CPUState ρ κ) : Finset ℤ := Finset.univ.biUnion s.assignedTo

end CPUState

variable (policy : StaticPolicy)

def validateState (s : CPUState ρ κ) : Except ValidationError (CPUState ρ κ) :=
  if s.defaultCPUSet = ∅ then
    -- an empty state is initialised with all CPUs shared
    if ∃ podUID name, (s.assignments podUID name).isSome then .error .defaultEmpty
    else .ok { s with defaultCPUSet := policy.topology.cpuDetails.cpus }
  else if policy.reserved ∩ s.defaultCPUSet ≠ policy.reserved then
    .error (.reservedNotInDefault policy.reserved s.defaultCPUSet)
  else if ∃ podUID name, (s.defaultCPUSet ∩ (s.assignments podUID name).getD ∅).Nonempty then
    .error (.overlapsDefault s.defaultCPUSet)
  else if s.defaultCPUSet ∪ s.assigned ≠ policy.topology.cpuDetails.cpus then
    .error (.cpusMismatch policy.topology.cpuDetails.cpus (s.defaultCPUSet ∪ s.assigned))
  else .ok s

/-- The conditions `validateState` checks of a state it does not initialise. -/
structure Valid (s : CPUState ρ κ) : Prop where
  reserved : policy.reserved ⊆ s.defaultCPUSet
  disjoint : ∀ podUID name cset, s.assignments podUID name = some cset → Disjoint s.defaultCPUSet cset
  covers : s.defaultCPUSet ∪ s.assigned = policy.topology.cpuDetails.cpus

def getAllocatableCPUs (s : CPUState ρ κ) : Finset ℤ := s.defaultCPUSet \ policy.reserved

/-- `updateCPUsToReuse`: only the pod allocating keeps reusable CPUs; an init container's CPUs
become reusable, an app container's stop being. -/
def updateCPUsToReuse (cpusToReuse : ρ → Option (Finset ℤ)) (podUID : ρ) (initContainers : List κ)
    (containerName : κ) (cset : Finset ℤ) : ρ → Option (Finset ℤ) :=
  let kept := fun uid => if uid = podUID then cpusToReuse uid else none
  let current := (kept podUID).getD ∅
  if containerName ∈ initContainers then Function.update kept podUID (some (current ∪ cset))
  else Function.update kept podUID (some (current \ cset))

/-- `allocateCPUs`: CPUs of the hinted NUMA nodes first, the rest from what is left; they
leave the default set. -/
def allocateCPUs (s : CPUState ρ κ) (numCPUs : ℕ) (numaAffinity : Option (List ℤ))
    (reusableCPUs : Finset ℤ) : ExceptT String Option (Finset ℤ × CPUState ρ κ) := do
  let allocatableCPUs := getAllocatableCPUs policy s ∪ reusableCPUs
  let result ← (match numaAffinity with
    | none => pure ∅
    | some nodes =>
      let alignedCPUs := nodes.foldl (fun aligned node =>
        aligned ∪ (allocatableCPUs ∩ policy.topology.cpuDetails.cpusInNUMANodes [node])) ∅
      takeByTopology policy.topology policy.options alignedCPUs (min numCPUs alignedCPUs.card : ℕ))
  let remainingCPUs ← takeByTopology policy.topology policy.options (allocatableCPUs \ result)
    ((numCPUs : ℤ) - result.card)
  let result := result ∪ remainingCPUs
  pure (result, { s with defaultCPUSet := s.defaultCPUSet \ result })

/-- `Allocate` for a container wanting `numCPUs` exclusive CPUs (zero: the shared pool), with
the NUMA nodes of its topology hint. On an error nothing changes. -/
def allocate (m : Manager ρ κ) (podUID : ρ) (initContainers : List κ) (containerName : κ) (numCPUs : ℕ)
    (numaAffinity : Option (List ℤ)) : ExceptT AllocateError Option (Manager ρ κ) :=
  if numCPUs = 0 then pure m
  -- `numCPUs % CPUsPerCore()` divides by zero
  else if policy.options.fullPhysicalCPUsOnly ∧ policy.topology.cpusPerCore = 0 then ExceptT.mk none
  else if policy.options.fullPhysicalCPUsOnly ∧ numCPUs % policy.topology.cpusPerCore ≠ 0 then
    throw (.smtAlignment numCPUs policy.topology.cpusPerCore)
  else
    match m.state.assignments podUID containerName with
    | some cset =>
      -- the container is already in the state: only the reusable CPUs are updated
      pure { m with cpusToReuse := updateCPUsToReuse m.cpusToReuse podUID initContainers containerName cset }
    | none => do
      let (cset, s) ← (allocateCPUs policy m.state numCPUs numaAffinity ((m.cpusToReuse podUID).getD ∅)).adapt
        .takeByTopology
      pure { state := s.setCPUSet podUID containerName cset
             cpusToReuse := updateCPUsToReuse m.cpusToReuse podUID initContainers containerName cset }

def getAssignedCPUsOfSiblings (s : CPUState ρ κ) (podUID : ρ) (containerName : κ) : Finset ℤ :=
  Finset.univ.biUnion fun name => if containerName = name then ∅ else (s.assignments podUID name).getD ∅

/-- `RemoveContainer`: the CPUs no sibling uses go back to the default set. -/
def removeContainer (s : CPUState ρ κ) (podUID : ρ) (containerName : κ) : CPUState ρ κ :=
  let cpusInUse := getAssignedCPUsOfSiblings s podUID containerName
  match s.assignments podUID containerName with
  | some toRelease =>
    let s := s.delete podUID containerName
    { s with defaultCPUSet := s.defaultCPUSet ∪ (toRelease \ cpusInUse) }
  | none => s

inductive Call (ρ κ : Type) where
  | allocate (podUID : ρ) (initContainers : List κ) (containerName : κ) (numCPUs : ℕ)
      (numaAffinity : Option (List ℤ))
  | removeContainer (podUID : ρ) (containerName : κ)

/-- One call; a failed `Allocate` leaves the manager as it was. -/
def Manager.step (m : Manager ρ κ) : Call ρ κ → Option (Manager ρ κ)
  | .allocate podUID initContainers containerName numCPUs numaAffinity =>
    (allocate policy m podUID initContainers containerName numCPUs numaAffinity).run.map fun
      | .ok next => next
      | .error _ => m
  | .removeContainer podUID containerName => some { m with state := removeContainer m.state podUID containerName }

/-- A state `validateState` accepted at `Start`, with no reusable CPUs yet. -/
def Started (m : Manager ρ κ) : Prop :=
  (∃ s, validateState policy s = .ok m.state) ∧ ∀ podUID, m.cpusToReuse podUID = none

/-- Runs of the policy from the states `start` allows. -/
def system (start : Manager ρ κ → Prop) : System (Manager ρ κ) (Call ρ κ) :=
  System.ofPartial start fun m call => m.step policy call

end Kubernetes.Kubelet.CpuManager
