import Mathlib.Data.Fintype.Option
import Mathlib.Algebra.BigOperators.Group.Finset.Basic
import Kubernetes.Library.Sweep
import Kubernetes.Library.Transition

/-! The static policy of the kubelet's memory manager (pkg/kubelet/cm/memorymanager/policy_static.go)
and its state (state/state.go, state/state_mem.go).

NUMA nodes are their ids. A machine state maps every id to a node state; the ids of the
machine's topology are the keys of the Go map, and `areMachineStatesEqual` compares the two
states there. Resources are regular memory and one hugepage resource per page size; every node
has a table for every resource (a node without pages of one size has an empty one). A bit mask
is the list of its bits in increasing order, as `GetBits` returns it. Pods and container names
are finite types. What `getRequestedResources` keeps of a container (its memory and hugepage
requests) is the list `requests`, in the map's iteration order; a Guaranteed container always
requests memory. -/

set_option autoImplicit false

namespace Kubernetes.Kubelet.MemoryManager

open Kubernetes.Library

inductive ResourceName (η : Type) where
  | memory
  | hugePages (pageSize : η)
  deriving DecidableEq

instance {η : Type} [Fintype η] : Fintype (ResourceName η) :=
  Fintype.ofEquiv (Option η)
    { toFun := fun | none => .memory | some size => .hugePages size
      invFun := fun | .memory => none | .hugePages size => some size
      left_inv := fun | none => rfl | some _ => rfl
      right_inv := fun | .memory => rfl | .hugePages _ => rfl }

structure MemoryTable where
  totalMemSize : ℕ
  systemReserved : ℕ
  allocatable : ℕ
  reserved : ℕ
  free : ℕ
  deriving DecidableEq

structure NUMANodeState (η : Type) where
  numberOfAssignments : ℤ
  memoryMap : ResourceName η → MemoryTable
  /-- The node and the nodes it is grouped with for a multi-NUMA allocation. -/
  cells : List ℕ

abbrev NUMANodeMap (η : Type) := ℕ → NUMANodeState η

structure Block (η : Type) where
  numaAffinity : List ℕ
  type : ResourceName η
  size : ℕ
  deriving DecidableEq

abbrev ContainerMemoryAssignments (ρ κ η : Type) := ρ → κ → Option (List (Block η))

structure MemoryState (ρ κ η : Type) where
  machineState : NUMANodeMap η
  assignments : ContainerMemoryAssignments ρ κ η

/-- `cadvisorapi.MachineInfo` as `getDefaultMachineState` reads it: the topology's node ids,
each node's memory and the total size (`NumPages * PageSize * 1024`) of its pages of each size. -/
structure MachineInfo (η : Type) where
  nodes : List ℕ
  memory : ℕ → ℕ
  hugePages : ℕ → η → ℕ

structure StaticPolicy (η : Type) where
  machineInfo : MachineInfo η
  systemReserved : ℕ → ResourceName η → ℕ

/-- The pod as `Allocate` reads it. -/
structure Pod (ρ κ : Type) where
  uid : ρ
  /-- `GetPodQOS(pod) == PodQOSGuaranteed`. -/
  guaranteed : Bool
  initContainers : List κ

structure TopologyHint where
  /-- The bits of the mask; `none` is a nil affinity. -/
  numaNodeAffinity : Option (List ℕ)
  preferred : Bool
  deriving DecidableEq

/-- `initContainersReusableMemory`, by pod, mask and resource; an absent entry reads as zero. -/
abbrev ReusableMemory (ρ η : Type) := ρ → List ℕ → ResourceName η → ℕ

variable {ρ κ η : Type} [DecidableEq ρ] [DecidableEq κ] [Fintype η] [DecidableEq η]

namespace ContainerMemoryAssignments

def setMemoryBlocks (assignments : ContainerMemoryAssignments ρ κ η) (podUID : ρ) (containerName : κ)
    (blocks : List (Block η)) : ContainerMemoryAssignments ρ κ η :=
  Function.update assignments podUID (Function.update (assignments podUID) containerName (some blocks))

def delete (assignments : ContainerMemoryAssignments ρ κ η) (podUID : ρ) (containerName : κ) :
    ContainerMemoryAssignments ρ κ η :=
  Function.update assignments podUID (Function.update (assignments podUID) containerName none)

end ContainerMemoryAssignments

variable (policy : StaticPolicy η)

def getResourceSystemReserved (nodeID : ℕ) (resourceName : ResourceName η) : ℕ :=
  policy.systemReserved nodeID resourceName

def getDefaultMachineState : NUMANodeMap η := fun nodeID =>
  { numberOfAssignments := 0
    memoryMap := fun
      | .hugePages size =>
        let systemReserved := getResourceSystemReserved policy nodeID (.hugePages size)
        let totalHugepagesSize := policy.machineInfo.hugePages nodeID size
        let allocatable := totalHugepagesSize - systemReserved
        ⟨totalHugepagesSize, systemReserved, allocatable, 0, allocatable⟩
      | .memory =>
        let systemReserved := getResourceSystemReserved policy nodeID .memory
        -- the memory taken by hugepages is not allocatable as regular memory
        let allocatable := policy.machineInfo.memory nodeID - systemReserved -
          ∑ size, policy.machineInfo.hugePages nodeID size
        ⟨policy.machineInfo.memory nodeID, systemReserved, allocatable, 0, allocatable⟩
    cells := [nodeID] }

/-! ## Hints -/

/-- `IterateBitMasks`' inner `iterate`: the masks of `size` bits of `bits`, in its order. -/
def iterateBitMasks : List ℕ → ℕ → List (List ℕ)
  | _, 0 => [[]]
  | [], _ + 1 => []
  | bit :: bits, size + 1 => (iterateBitMasks bits size).map (bit :: ·) ++ iterateBitMasks bits (size + 1)

/-- `IterateBitMasks`: all non-empty masks over `bits`, the smaller first. -/
def bitMasks (bits : List ℕ) : List (List ℕ) :=
  (List.range' 1 bits.length).flatMap (iterateBitMasks bits)

/-- The numeric value of a mask. -/
def maskValue (bits : List ℕ) : ℕ := (bits.map (2 ^ ·)).sum

def isNarrowerThan (bits mask : List ℕ) : Bool :=
  (bits.length == mask.length && maskValue bits < maskValue mask) || bits.length < mask.length

def areGroupsEqual (group1 group2 : List ℕ) : Bool :=
  group1.insertionSort (· ≤ ·) == group2.insertionSort (· ≤ ·)

/-- `isHintInGroup` on sorted lists: `hint` is a subsequence of `group`. -/
def isHintInGroup : List ℕ → List ℕ → Bool
  | [], _ => true
  | _ :: _, [] => false
  | bit :: hint, node :: group => if node = bit then isHintInGroup hint group else isHintInGroup (bit :: hint) group

def isNUMAAffinitiesEqual (numaAffinity1 numaAffinity2 : List ℕ) : Bool :=
  numaAffinity1.all (· ∈ numaAffinity2) && numaAffinity2.all (· ∈ numaAffinity1)

def isHintPreferred (maskBits : List ℕ) (minAffinitySize : ℕ) : Bool := maskBits.length == minAffinitySize

def getPodReusableMemory (reusable : ReusableMemory ρ η) (podUID : ρ) (numaAffinity : List ℕ)
    (resourceName : ResourceName η) : ℕ :=
  reusable podUID numaAffinity resourceName

/-- The free (or allocatable) memory of one resource over the nodes of a mask. -/
def totalSize (size : MemoryTable → ℕ) (machineState : NUMANodeMap η) (maskBits : List ℕ)
    (resourceName : ResourceName η) : ℕ :=
  (maskBits.map fun nodeID => size ((machineState nodeID).memoryMap resourceName)).sum

/-- Whether `calculateHints` offers a mask: its nodes can hold the request, a single node is
not grouped with others, nodes of a multi-NUMA mask are used only by that same group, and
their free memory with the pod's reusable memory covers the request. -/
def admitsMask (machineState : NUMANodeMap η) (reusable : ReusableMemory ρ η) (podUID : ρ)
    (requests : List (ResourceName η × ℕ)) (maskBits : List ℕ) : Bool :=
  let singleNUMAHint := maskBits.length == 1
  !(singleNUMAHint && maskBits.any fun nodeID => 1 < (machineState nodeID).cells.length) &&
  !(maskBits.any fun nodeID => !singleNUMAHint && 0 < (machineState nodeID).numberOfAssignments &&
      ((machineState nodeID).cells.length == 1 || !areGroupsEqual (machineState nodeID).cells maskBits)) &&
  requests.all fun (resourceName, requestedSize) =>
    requestedSize ≤ totalSize MemoryTable.free machineState maskBits resourceName +
      getPodReusableMemory reusable podUID maskBits resourceName

/-- `calculateHints`: the hints for the request (the same for every resource); the smallest
masks that could hold the request are preferred. -/
def calculateHints (machineState : NUMANodeMap η) (reusable : ReusableMemory ρ η) (podUID : ρ)
    (requests : List (ResourceName η × ℕ)) : List TopologyHint :=
  let numaNodes := policy.machineInfo.nodes.insertionSort (· ≤ ·)
  let visit := fun (found : ℕ × List (List ℕ)) (maskBits : List ℕ) =>
    if requests.any fun (resourceName, requestedSize) =>
        totalSize MemoryTable.allocatable machineState maskBits resourceName < requestedSize then found
    else
      let minAffinitySize := min found.1 maskBits.length
      if admitsMask machineState reusable podUID requests maskBits then (minAffinitySize, found.2 ++ [maskBits])
      else (minAffinitySize, found.2)
  let found := (bitMasks numaNodes).foldl visit (numaNodes.length, [])
  found.2.map fun maskBits => ⟨some maskBits, isHintPreferred maskBits found.1⟩

def findBestHint (hints : List TopologyHint) : TopologyHint :=
  hints.foldl (fun bestHint hint =>
    if bestHint.numaNodeAffinity.isNone then hint
    else if hint.preferred && !bestHint.preferred then hint
    else if hint.preferred == bestHint.preferred &&
        isNarrowerThan (hint.numaNodeAffinity.getD []) (bestHint.numaNodeAffinity.getD []) then hint
    else bestHint) ⟨none, false⟩

def getDefaultHint (machineState : NUMANodeMap η) (reusable : ReusableMemory ρ η) (podUID : ρ)
    (requests : List (ResourceName η × ℕ)) : Except String TopologyHint :=
  let hints := calculateHints policy machineState reusable podUID requests
  if requests.isEmpty || hints.isEmpty then
    .error "[memorymanager] failed to get the default NUMA affinity, no NUMA nodes with enough memory is available"
  else .ok (findBestHint hints)

def isAffinitySatisfyRequest (machineState : NUMANodeMap η) (maskBits : List ℕ)
    (requests : List (ResourceName η × ℕ)) : Bool :=
  requests.all fun (resourceName, requestedSize) =>
    requestedSize ≤ totalSize MemoryTable.free machineState maskBits resourceName

def extendTopologyManagerHint (machineState : NUMANodeMap η) (reusable : ReusableMemory ρ η) (podUID : ρ)
    (requests : List (ResourceName η × ℕ)) (maskBits : List ℕ) : Except String TopologyHint :=
  let filteredHints := (calculateHints policy machineState reusable podUID requests).filter
    fun hint => isHintInGroup maskBits (hint.numaNodeAffinity.getD [])
  if filteredHints.isEmpty then
    .error "[memorymanager] failed to find NUMA nodes to extend the current topology hint"
  else .ok (findBestHint filteredHints)

/-- The hint `Allocate` reserves on: the topology manager's, or the policy's own when it has
no affinity, extended when its nodes cannot hold the request. -/
def selectHint (machineState : NUMANodeMap η) (reusable : ReusableMemory ρ η) (podUID : ρ)
    (requests : List (ResourceName η × ℕ)) (hint : TopologyHint) : Except String TopologyHint := do
  let bestHint ← if hint.numaNodeAffinity.isNone then do
      let defaultHint ← getDefaultHint policy machineState reusable podUID requests
      if !defaultHint.preferred && hint.preferred then
        .error "[memorymanager] failed to find the default preferred hint"
      pure defaultHint
    else pure hint
  if isAffinitySatisfyRequest machineState (bestHint.numaNodeAffinity.getD []) requests then pure bestHint
  else do
    let extendedHint ← extendTopologyManagerHint policy machineState reusable podUID requests
      (bestHint.numaNodeAffinity.getD [])
    if !extendedHint.preferred && bestHint.preferred then
      .error "[memorymanager] failed to find the extended preferred hint"
    pure extendedHint

/-! ## Machine state updates -/

/-- One node of `updateMachineState`'s loop: the node counts the assignment and joins the
group; it then takes what it can of what is still to reserve. -/
def reserveOnNode (numaAffinity : List ℕ) (resourceName : ResourceName η) (nodeState : NUMANodeState η)
    (requestedSize : ℕ) : NUMANodeState η × ℕ :=
  let nodeState := { nodeState with
    numberOfAssignments := nodeState.numberOfAssignments + 1
    cells := numaAffinity }
  let table := nodeState.memoryMap resourceName
  let setTable := fun (table : MemoryTable) =>
    { nodeState with memoryMap := Function.update nodeState.memoryMap resourceName table }
  if requestedSize = 0 then (nodeState, 0)
  else if table.free = 0 then (nodeState, requestedSize)
  else if requestedSize ≤ table.free then
    (setTable { table with reserved := table.reserved + requestedSize, free := table.free - requestedSize }, 0)
  else (setTable { table with reserved := table.reserved + table.free, free := 0 }, requestedSize - table.free)

def updateMachineState (machineState : NUMANodeMap η) (numaAffinity : List ℕ) (resourceName : ResourceName η)
    (requestedSize : ℕ) : NUMANodeMap η :=
  (sweep (fun _ => reserveOnNode numaAffinity resourceName) numaAffinity machineState requestedSize).1

/-- One node of `RemoveContainer`'s loop over a block: the node drops the assignment (and its
group with the last one) and gives back what it can of what is still to release. -/
def releaseOnNode (resourceName : ResourceName η) (nodeID : ℕ) (nodeState : NUMANodeState η)
    (releasedSize : ℕ) : NUMANodeState η × ℕ :=
  let numberOfAssignments := nodeState.numberOfAssignments - 1
  let nodeState := { nodeState with
    numberOfAssignments := numberOfAssignments
    cells := if numberOfAssignments = 0 then [nodeID] else nodeState.cells }
  let table := nodeState.memoryMap resourceName
  let setTable := fun (table : MemoryTable) =>
    { nodeState with memoryMap := Function.update nodeState.memoryMap resourceName table }
  if releasedSize = 0 then (nodeState, 0)
  else if table.reserved = 0 then (nodeState, releasedSize)
  else if table.reserved < releasedSize then
    (setTable { table with free := table.free + table.reserved, reserved := 0 }, releasedSize - table.reserved)
  else (setTable { table with free := table.free + releasedSize, reserved := table.reserved - releasedSize }, 0)

def releaseBlock (machineState : NUMANodeMap η) (block : Block η) : NUMANodeMap η :=
  (sweep (releaseOnNode block.type) block.numaAffinity machineState block.size).1

/-! ## Reusable memory of init containers -/

def setReusable (reusable : ReusableMemory ρ η) (podUID : ρ) (numaAffinity : List ℕ)
    (resourceName : ResourceName η) (size : ℕ) : ReusableMemory ρ η :=
  Function.update reusable podUID
    (Function.update (reusable podUID) numaAffinity (Function.update (reusable podUID numaAffinity) resourceName size))

/-- `updatePodReusableMemory`: only the pod allocating keeps reusable memory; an init
container's blocks become reusable, an app container uses reusable memory up. -/
def updatePodReusableMemory (reusable : ReusableMemory ρ η) (pod : Pod ρ κ) (containerName : κ)
    (memoryBlocks : List (Block η)) : ReusableMemory ρ η :=
  let reusable := fun uid => if pod.uid = uid then reusable uid else fun _ _ => 0
  if containerName ∈ pod.initContainers then
    memoryBlocks.foldl (fun reusable block =>
      if block.size > reusable pod.uid block.numaAffinity block.type then
        setReusable reusable pod.uid block.numaAffinity block.type block.size
      else reusable) reusable
  else
    memoryBlocks.foldl (fun reusable block =>
      let podReusableMemory := getPodReusableMemory reusable pod.uid block.numaAffinity block.type
      if podReusableMemory ≠ 0 then
        if block.size ≥ podReusableMemory then setReusable reusable pod.uid block.numaAffinity block.type 0
        else setReusable reusable pod.uid block.numaAffinity block.type (podReusableMemory - block.size)
      else reusable) reusable

/-- The inner loop of `updateInitContainersMemoryBlocks` over one init container's blocks:
blocks of the container block's type and affinity give up memory until `blockSize` is covered. -/
def shrinkBlocks (containerBlock : Block η) : List (Block η) → ℕ → List (Block η) × ℕ
  | [], blockSize => ([], blockSize)
  | initContainerBlock :: rest, blockSize =>
    if initContainerBlock.size = 0 ∨ initContainerBlock.type ≠ containerBlock.type ∨
        !isNUMAAffinitiesEqual initContainerBlock.numaAffinity containerBlock.numaAffinity then
      let shrunk := shrinkBlocks containerBlock rest blockSize
      (initContainerBlock :: shrunk.1, shrunk.2)
    else if initContainerBlock.size > blockSize then
      let shrunk := shrinkBlocks containerBlock rest 0
      ({ initContainerBlock with size := initContainerBlock.size - blockSize } :: shrunk.1, shrunk.2)
    else
      let shrunk := shrinkBlocks containerBlock rest (blockSize - initContainerBlock.size)
      ({ initContainerBlock with size := 0 } :: shrunk.1, shrunk.2)

/-- The loop over the init containers before the allocating one, for one container block. -/
def reuseInitContainerBlocks (podUID : ρ) (containerName : κ) (containerBlock : Block η) :
    List κ → ContainerMemoryAssignments ρ κ η → ℕ → ContainerMemoryAssignments ρ κ η
  | [], assignments, _ => assignments
  | initContainer :: rest, assignments, blockSize =>
    if initContainer = containerName ∨ blockSize = 0 then assignments
    else match assignments podUID initContainer with
      | none | some [] => reuseInitContainerBlocks podUID containerName containerBlock rest assignments blockSize
      | some initContainerBlocks =>
        let shrunk := shrinkBlocks containerBlock initContainerBlocks blockSize
        reuseInitContainerBlocks podUID containerName containerBlock rest
          (assignments.setMemoryBlocks podUID initContainer shrunk.1) shrunk.2

def updateInitContainersMemoryBlocks (assignments : ContainerMemoryAssignments ρ κ η) (pod : Pod ρ κ)
    (containerName : κ) (containerMemoryBlocks : List (Block η)) : ContainerMemoryAssignments ρ κ η :=
  containerMemoryBlocks.foldl (fun assignments containerBlock =>
    reuseInitContainerBlocks pod.uid containerName containerBlock pod.initContainers assignments
      containerBlock.size) assignments

/-! ## Allocate and RemoveContainer -/

/-- The policy's state: the memory manager's state and `initContainersReusableMemory`. -/
structure Manager (ρ κ η : Type) where
  state : MemoryState ρ κ η
  reusable : ReusableMemory ρ η

/-- One resource of `Allocate`'s loop over the request: its block on the mask, and the memory
reserved for it, less what the pod's init containers left to reuse. -/
def reserveRequest (reusable : ReusableMemory ρ η) (podUID : ρ) (maskBits : List ℕ)
    (reserved : List (Block η) × NUMANodeMap η) (request : ResourceName η × ℕ) : List (Block η) × NUMANodeMap η :=
  let podReusableMemory := getPodReusableMemory reusable podUID maskBits request.1
  let requestedSize := if podReusableMemory ≥ request.2 then 0 else request.2 - podReusableMemory
  (reserved.1 ++ [⟨maskBits, request.1, request.2⟩], updateMachineState reserved.2 maskBits request.1 requestedSize)

def reserveBlocks (reusable : ReusableMemory ρ η) (podUID : ρ) (maskBits : List ℕ)
    (requests : List (ResourceName η × ℕ)) (machineState : NUMANodeMap η) : List (Block η) × NUMANodeMap η :=
  requests.foldl (reserveRequest reusable podUID maskBits) ([], machineState)

/-- `Allocate` once the hint is chosen. -/
def allocateOn (m : Manager ρ κ η) (pod : Pod ρ κ) (containerName : κ) (requests : List (ResourceName η × ℕ))
    (maskBits : List ℕ) : Manager ρ κ η :=
  let reserved := reserveBlocks m.reusable pod.uid maskBits requests m.state.machineState
  { state :=
      { machineState := reserved.2
        assignments := updateInitContainersMemoryBlocks
          (m.state.assignments.setMemoryBlocks pod.uid containerName reserved.1) pod containerName reserved.1 }
    reusable := updatePodReusableMemory m.reusable pod containerName reserved.1 }

def allocate (m : Manager ρ κ η) (pod : Pod ρ κ) (containerName : κ) (requests : List (ResourceName η × ℕ))
    (hint : TopologyHint) : Except String (Manager ρ κ η) :=
  if !pod.guaranteed then .ok m
  else match m.state.assignments pod.uid containerName with
    | some blocks =>
      -- the container is already in the state: only the reusable memory is updated
      .ok { m with reusable := updatePodReusableMemory m.reusable pod containerName blocks }
    | none => do
      let bestHint ← selectHint policy m.state.machineState m.reusable pod.uid requests hint
      pure (allocateOn m pod containerName requests (bestHint.numaNodeAffinity.getD []))

def removeContainer (s : MemoryState ρ κ η) (podUID : ρ) (containerName : κ) : MemoryState ρ κ η :=
  match s.assignments podUID containerName with
  | none => s
  | some blocks =>
    { machineState := blocks.foldl releaseBlock s.machineState
      assignments := s.assignments.delete podUID containerName }

/-! ## validateState -/

/-- The loop `validateState` runs over a block's nodes is `updateMachineState`'s. -/
def replayBlock (expected : NUMANodeMap η) (b : Block η) : NUMANodeMap η :=
  updateMachineState expected b.numaAffinity b.type b.size

def replayContainer (assignments : ContainerMemoryAssignments ρ κ η) (expected : NUMANodeMap η)
    (container : ρ × κ) : NUMANodeMap η :=
  ((assignments container.1 container.2).getD []).foldl replayBlock expected

/-- The machine state `validateState` expects: the default state with the blocks of the
assignments reserved again, containers taken in `order` (the maps' iteration order). -/
def replayAssignments (assignments : ContainerMemoryAssignments ρ κ η) (order : List (ρ × κ)) : NUMANodeMap η :=
  order.foldl (replayContainer assignments) (getDefaultMachineState policy)

def areMachineStatesEqual (ms1 ms2 : NUMANodeMap η) : Bool :=
  policy.machineInfo.nodes.all fun nodeID =>
    (ms1 nodeID).numberOfAssignments == (ms2 nodeID).numberOfAssignments &&
    areGroupsEqual (ms1 nodeID).cells (ms2 nodeID).cells &&
    decide (∀ resourceName, (ms1 nodeID).memoryMap resourceName = (ms2 nodeID).memoryMap resourceName)

variable [Fintype ρ] [Fintype κ]

/-- `validateState` on the stored machine state (`none`: the empty map) and assignments; on
success the machine state the policy starts with. -/
def validateState (machineState : Option (NUMANodeMap η)) (assignments : ContainerMemoryAssignments ρ κ η)
    (order : List (ρ × κ)) : Except String (NUMANodeMap η) :=
  match machineState with
  | none =>
    if ∃ pod containerName, (assignments pod containerName).isSome then
      .error "[memorymanager] machine state can not be empty when it has memory assignments"
    else .ok (getDefaultMachineState policy)
  | some machineState =>
    if areMachineStatesEqual policy machineState (replayAssignments policy assignments order) then .ok machineState
    else .error "[memorymanager] the expected machine state is different from the real one"

/-! ## Runs -/

inductive Call (ρ κ η : Type) where
  | allocate (pod : Pod ρ κ) (containerName : κ) (requests : List (ResourceName η × ℕ)) (hint : TopologyHint)
  | removeContainer (podUID : ρ) (containerName : κ)

def Manager.step (m : Manager ρ κ η) : Call ρ κ η → Manager ρ κ η
  | .allocate pod containerName requests hint =>
    match allocate policy m pod containerName requests hint with
    | .ok next => next
    | .error _ => m
  | .removeContainer podUID containerName => { m with state := removeContainer m.state podUID containerName }

/-- The policy after `Start` on an empty state: the default machine state, no assignments and
no reusable memory. -/
def Manager.initial : Manager ρ κ η :=
  ⟨⟨getDefaultMachineState policy, fun _ _ => none⟩, fun _ _ _ => 0⟩

def system : System (Manager ρ κ η) (Call ρ κ η) :=
  System.ofPartial (· = Manager.initial policy) fun m call => some (m.step policy call)

end Kubernetes.Kubelet.MemoryManager
