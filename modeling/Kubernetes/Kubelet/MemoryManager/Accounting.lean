import Mathlib.Algebra.BigOperators.Group.Finset.Piecewise
import Mathlib.Data.Fintype.Prod
import Mathlib.Algebra.BigOperators.Group.List.Basic
import Mathlib.Tactic.Ring
import Kubernetes.Kubelet.MemoryManager.PolicyStatic
import Kubernetes.Library.Outcome

/-! What the memory manager's incremental machine state and the one `validateState` rebuilds
from the assignments have in common, over every run of the static policy.

Both count, on every node, the blocks whose affinity holds it, and both keep every table's
sizes, with the memory that is not free reserved. They place the reserved memory differently:
`Allocate` fills a group's nodes in order from their free memory at that time, `RemoveContainer`
empties them from the first node on, and the replay fills them again in the maps' order, so a
run that frees a block reserved on the first nodes of a group while another block of the group
stays leaves the two apart, and `validateState` refuses the state at the next start. -/

set_option autoImplicit false
set_option linter.unusedSectionVars false

namespace Kubernetes.Kubelet.MemoryManager

open Kubernetes.Library

variable {ρ κ η : Type} [DecidableEq ρ] [DecidableEq κ] [Fintype η] [DecidableEq η]

/-! ## Counting blocks -/

/-- How often a node is in the affinities of some blocks: what `NumberOfAssignments` counts. -/
def blockCount (blocks : List (Block η)) (nodeID : ℕ) : ℤ :=
  (blocks.map fun b => (b.numaAffinity.count nodeID : ℤ)).sum

@[simp] theorem blockCount_nil (nodeID : ℕ) : blockCount ([] : List (Block η)) nodeID = 0 := rfl

@[simp] theorem blockCount_cons (b : Block η) (blocks : List (Block η)) (nodeID : ℕ) :
    blockCount (b :: blocks) nodeID = b.numaAffinity.count nodeID + blockCount blocks nodeID := by
  simp [blockCount]

@[simp] theorem blockCount_append (blocks blocks' : List (Block η)) (nodeID : ℕ) :
    blockCount (blocks ++ blocks') nodeID = blockCount blocks nodeID + blockCount blocks' nodeID := by
  simp [blockCount]

theorem blockCount_congr {blocks blocks' : List (Block η)}
    (affinities : blocks.map Block.numaAffinity = blocks'.map Block.numaAffinity) (nodeID : ℕ) :
    blockCount blocks nodeID = blockCount blocks' nodeID := by
  have spelled (blocks : List (Block η)) :
      blockCount blocks nodeID = ((blocks.map Block.numaAffinity).map fun a => (a.count nodeID : ℤ)).sum := by
    simp [blockCount, List.map_map, Function.comp_def]
  rw [spelled, spelled, affinities]

/-- The blocks of one container, counted at a node. -/
def containerCount (assignments : ContainerMemoryAssignments ρ κ η) (nodeID : ℕ) (container : ρ × κ) : ℤ :=
  blockCount ((assignments container.1 container.2).getD []) nodeID

theorem containerCount_setMemoryBlocks (assignments : ContainerMemoryAssignments ρ κ η) (podUID : ρ)
    (containerName : κ) (blocks : List (Block η)) (nodeID : ℕ) :
    containerCount (assignments.setMemoryBlocks podUID containerName blocks) nodeID =
      Function.update (containerCount assignments nodeID) (podUID, containerName) (blockCount blocks nodeID) := by
  funext ⟨pod, name⟩
  by_cases samePod : pod = podUID
  · subst samePod
    by_cases sameName : name = containerName
    · subst sameName
      simp [containerCount, ContainerMemoryAssignments.setMemoryBlocks]
    · have other : (pod, name) ≠ (pod, containerName) := fun same => sameName (Prod.mk.inj same).2
      simp [containerCount, ContainerMemoryAssignments.setMemoryBlocks, Function.update_of_ne other,
        Function.update_of_ne sameName]
  · have other : (pod, name) ≠ (podUID, containerName) := fun same => samePod (Prod.mk.inj same).1
    simp [containerCount, ContainerMemoryAssignments.setMemoryBlocks, Function.update_of_ne other,
      Function.update_of_ne samePod]

theorem containerCount_delete (assignments : ContainerMemoryAssignments ρ κ η) (podUID : ρ)
    (containerName : κ) (nodeID : ℕ) :
    containerCount (assignments.delete podUID containerName) nodeID =
      Function.update (containerCount assignments nodeID) (podUID, containerName) 0 := by
  funext ⟨pod, name⟩
  by_cases samePod : pod = podUID
  · subst samePod
    by_cases sameName : name = containerName
    · subst sameName
      simp [containerCount, ContainerMemoryAssignments.delete]
    · have other : (pod, name) ≠ (pod, containerName) := fun same => sameName (Prod.mk.inj same).2
      simp [containerCount, ContainerMemoryAssignments.delete, Function.update_of_ne other,
        Function.update_of_ne sameName]
  · have other : (pod, name) ≠ (podUID, containerName) := fun same => samePod (Prod.mk.inj same).1
    simp [containerCount, ContainerMemoryAssignments.delete, Function.update_of_ne other,
      Function.update_of_ne samePod]

variable [Fintype ρ] [Fintype κ]

/-- The blocks of all containers, counted at a node. -/
def assignmentCount (assignments : ContainerMemoryAssignments ρ κ η) (nodeID : ℕ) : ℤ :=
  ∑ container, containerCount assignments nodeID container

theorem sum_update {ι : Type} [Fintype ι] [DecidableEq ι] (f : ι → ℤ) (i : ι) (b : ℤ) :
    ∑ x, Function.update f i b x = ∑ x, f x - f i + b := by
  rw [Finset.sum_update_of_mem (Finset.mem_univ i), Finset.sum_eq_add_sum_sdiff_singleton_of_mem (Finset.mem_univ i)]
  ring

theorem assignmentCount_setMemoryBlocks (assignments : ContainerMemoryAssignments ρ κ η) (podUID : ρ)
    (containerName : κ) (blocks : List (Block η)) (nodeID : ℕ) :
    assignmentCount (assignments.setMemoryBlocks podUID containerName blocks) nodeID =
      assignmentCount assignments nodeID - containerCount assignments nodeID (podUID, containerName) +
        blockCount blocks nodeID := by
  rw [assignmentCount, containerCount_setMemoryBlocks, sum_update, assignmentCount]

theorem assignmentCount_delete (assignments : ContainerMemoryAssignments ρ κ η) (podUID : ρ)
    (containerName : κ) (nodeID : ℕ) :
    assignmentCount (assignments.delete podUID containerName) nodeID =
      assignmentCount assignments nodeID - containerCount assignments nodeID (podUID, containerName) := by
  rw [assignmentCount, containerCount_delete, sum_update, assignmentCount, add_zero]

omit [Fintype ρ] [Fintype κ] in
theorem shrinkBlocks_affinities (containerBlock : Block η) :
    ∀ (blocks : List (Block η)) (blockSize : ℕ),
      (shrinkBlocks containerBlock blocks blockSize).1.map Block.numaAffinity = blocks.map Block.numaAffinity
  | [], _ => rfl
  | initContainerBlock :: rest, blockSize => by
    unfold shrinkBlocks
    split_ifs <;> simp [shrinkBlocks_affinities containerBlock rest]

omit [Fintype ρ] [Fintype κ] in
theorem reuseInitContainerBlocks_containerCount (podUID : ρ) (containerName : κ) (containerBlock : Block η)
    (nodeID : ℕ) :
    ∀ (initContainers : List κ) (assignments : ContainerMemoryAssignments ρ κ η) (blockSize : ℕ),
      containerCount (reuseInitContainerBlocks podUID containerName containerBlock initContainers assignments
        blockSize) nodeID = containerCount assignments nodeID
  | [], _, _ => rfl
  | initContainer :: rest, assignments, blockSize => by
    unfold reuseInitContainerBlocks
    split_ifs
    · rfl
    split
    · exact reuseInitContainerBlocks_containerCount podUID containerName containerBlock nodeID rest _ _
    · exact reuseInitContainerBlocks_containerCount podUID containerName containerBlock nodeID rest _ _
    next initContainerBlocks _ present =>
      rw [reuseInitContainerBlocks_containerCount podUID containerName containerBlock nodeID rest,
        containerCount_setMemoryBlocks]
      -- the init container's entry is rewritten with blocks of the same affinities
      have unchanged : blockCount (shrinkBlocks containerBlock initContainerBlocks blockSize).1 nodeID =
          containerCount assignments nodeID (podUID, initContainer) := by
        rw [containerCount, present, Option.getD_some]
        exact blockCount_congr (shrinkBlocks_affinities containerBlock _ _) nodeID
      rw [unchanged, Function.update_eq_self]

omit [Fintype ρ] [Fintype κ] in
theorem updateInitContainersMemoryBlocks_containerCount (pod : Pod ρ κ) (containerName : κ) (nodeID : ℕ) :
    ∀ (containerMemoryBlocks : List (Block η)) (assignments : ContainerMemoryAssignments ρ κ η),
      containerCount (updateInitContainersMemoryBlocks assignments pod containerName containerMemoryBlocks) nodeID =
        containerCount assignments nodeID
  | [], _ => rfl
  | containerBlock :: rest, assignments => by
    rw [updateInitContainersMemoryBlocks, List.foldl_cons, ← updateInitContainersMemoryBlocks,
      updateInitContainersMemoryBlocks_containerCount pod containerName nodeID rest,
      reuseInitContainerBlocks_containerCount]

theorem assignmentCount_updateInitContainersMemoryBlocks (assignments : ContainerMemoryAssignments ρ κ η)
    (pod : Pod ρ κ) (containerName : κ) (containerMemoryBlocks : List (Block η)) (nodeID : ℕ) :
    assignmentCount (updateInitContainersMemoryBlocks assignments pod containerName containerMemoryBlocks) nodeID =
      assignmentCount assignments nodeID := by
  simp only [assignmentCount, updateInitContainersMemoryBlocks_containerCount]

/-! ## Tables -/

/-- A table with the sizes of `base` in which the memory that is not free is reserved. -/
structure MemoryTable.Balanced (base table : MemoryTable) : Prop where
  totalMemSize : table.totalMemSize = base.totalMemSize
  systemReserved : table.systemReserved = base.systemReserved
  allocatable : table.allocatable = base.allocatable
  conserved : table.free + table.reserved = base.allocatable

theorem MemoryTable.Balanced.move {base table : MemoryTable} (balanced : base.Balanced table) (free reserved : ℕ)
    (moved : free + reserved = table.free + table.reserved) :
    base.Balanced { table with free := free, reserved := reserved } :=
  ⟨balanced.totalMemSize, balanced.systemReserved, balanced.allocatable, moved.trans balanced.conserved⟩

/-- Every table of a node state is balanced against the default node's. -/
def NodeBalanced (policy : StaticPolicy η) (nodeID : ℕ) (nodeState : NUMANodeState η) : Prop :=
  ∀ resourceName, ((getDefaultMachineState policy nodeID).memoryMap resourceName).Balanced
    (nodeState.memoryMap resourceName)

variable {policy : StaticPolicy η}

theorem NodeBalanced.of_memoryMap {nodeID : ℕ} {nodeState nodeState' : NUMANodeState η}
    (balanced : NodeBalanced policy nodeID nodeState) (same : nodeState'.memoryMap = nodeState.memoryMap) :
    NodeBalanced policy nodeID nodeState' := by
  intro resourceName
  rw [same]
  exact balanced resourceName

theorem NodeBalanced.update {nodeID : ℕ} {nodeState nodeState' : NUMANodeState η}
    (balanced : NodeBalanced policy nodeID nodeState) (resourceName : ResourceName η) {table : MemoryTable}
    (updated : ((getDefaultMachineState policy nodeID).memoryMap resourceName).Balanced table)
    (memoryMap : nodeState'.memoryMap = Function.update nodeState.memoryMap resourceName table) :
    NodeBalanced policy nodeID nodeState' := by
  intro other
  rw [memoryMap]
  by_cases same : other = resourceName
  · subst same
    simpa using updated
  · simpa [Function.update_of_ne same] using balanced other

theorem nodeBalanced_default (policy : StaticPolicy η) (nodeID : ℕ) :
    NodeBalanced policy nodeID (getDefaultMachineState policy nodeID) := by
  intro resourceName
  cases resourceName <;> exact ⟨rfl, rfl, rfl, Nat.add_zero _⟩

/-! ## One node -/

omit [Fintype ρ] [Fintype κ] in
@[simp] theorem reserveOnNode_numberOfAssignments (numaAffinity : List ℕ) (resourceName : ResourceName η)
    (nodeState : NUMANodeState η) (requestedSize : ℕ) :
    (reserveOnNode numaAffinity resourceName nodeState requestedSize).1.numberOfAssignments =
      nodeState.numberOfAssignments + 1 := by
  dsimp only [reserveOnNode]
  split_ifs <;> rfl

omit [Fintype ρ] [Fintype κ] in
theorem reserveOnNode_balanced (numaAffinity : List ℕ) (resourceName : ResourceName η) {nodeID : ℕ}
    {nodeState : NUMANodeState η} (requestedSize : ℕ) (balanced : NodeBalanced policy nodeID nodeState) :
    NodeBalanced policy nodeID (reserveOnNode numaAffinity resourceName nodeState requestedSize).1 := by
  have table := balanced resourceName
  dsimp only [reserveOnNode]
  split_ifs with nothing empty fits
  · exact balanced.of_memoryMap rfl
  · exact balanced.of_memoryMap rfl
  · exact balanced.update resourceName (table.move _ _ (by omega)) rfl
  · exact balanced.update resourceName (table.move _ _ (by omega)) rfl

omit [Fintype ρ] [Fintype κ] in
@[simp] theorem releaseOnNode_numberOfAssignments (resourceName : ResourceName η) (nodeID : ℕ)
    (nodeState : NUMANodeState η) (releasedSize : ℕ) :
    (releaseOnNode resourceName nodeID nodeState releasedSize).1.numberOfAssignments =
      nodeState.numberOfAssignments + -1 := by
  dsimp only [releaseOnNode]
  split_ifs <;> simp only [Int.sub_eq_add_neg]

omit [Fintype ρ] [Fintype κ] in
theorem releaseOnNode_balanced (resourceName : ResourceName η) {nodeID : ℕ} {nodeState : NUMANodeState η}
    (releasedSize : ℕ) (balanced : NodeBalanced policy nodeID nodeState) :
    NodeBalanced policy nodeID (releaseOnNode resourceName nodeID nodeState releasedSize).1 := by
  have table := balanced resourceName
  dsimp only [releaseOnNode]
  -- the group a node keeps does not touch its tables
  generalize (if nodeState.numberOfAssignments - 1 = 0 then [nodeID] else nodeState.cells) = cells
  split_ifs with nothing empty short
  · exact balanced.of_memoryMap rfl
  · exact balanced.of_memoryMap rfl
  · exact balanced.update resourceName (table.move _ _ (by omega)) rfl
  · exact balanced.update resourceName (table.move _ _ (by omega)) rfl

/-! ## Blocks -/

/-- The machine states both sides keep: every node counts `count` blocks and every table is balanced. -/
structure Tracks (policy : StaticPolicy η) (machineState : NUMANodeMap η) (count : ℕ → ℤ) : Prop where
  counts : ∀ nodeID, (machineState nodeID).numberOfAssignments = count nodeID
  balanced : ∀ nodeID, NodeBalanced policy nodeID (machineState nodeID)

omit [Fintype ρ] [Fintype κ] in
theorem tracks_default (policy : StaticPolicy η) : Tracks policy (getDefaultMachineState policy) fun _ => 0 :=
  ⟨fun _ => rfl, nodeBalanced_default policy⟩

omit [Fintype ρ] [Fintype κ] in
theorem Tracks.updateMachineState {machineState : NUMANodeMap η} {count : ℕ → ℤ}
    (tracks : Tracks policy machineState count) (numaAffinity : List ℕ) (resourceName : ResourceName η)
    (requestedSize : ℕ) :
    Tracks policy (updateMachineState machineState numaAffinity resourceName requestedSize)
      fun nodeID => count nodeID + numaAffinity.count nodeID := by
  constructor
  · intro nodeID
    rw [MemoryManager.updateMachineState, sweep_measure _ NUMANodeState.numberOfAssignments 1
      (fun _ _ _ => reserveOnNode_numberOfAssignments _ _ _ _), tracks.counts, one_mul]
  · exact sweep_preserves _ (NodeBalanced policy) (fun _ _ _ balanced => reserveOnNode_balanced _ _ _ balanced)
      _ _ _ tracks.balanced

omit [Fintype ρ] [Fintype κ] in
theorem Tracks.releaseBlock {machineState : NUMANodeMap η} {count : ℕ → ℤ}
    (tracks : Tracks policy machineState count) (block : Block η) :
    Tracks policy (MemoryManager.releaseBlock machineState block)
      fun nodeID => count nodeID - block.numaAffinity.count nodeID := by
  constructor
  · intro nodeID
    rw [MemoryManager.releaseBlock, sweep_measure _ NUMANodeState.numberOfAssignments (-1)
      (fun _ _ _ => releaseOnNode_numberOfAssignments _ _ _ _), tracks.counts]
    ring
  · exact sweep_preserves _ (NodeBalanced policy) (fun _ _ _ balanced => releaseOnNode_balanced _ _ balanced)
      _ _ _ tracks.balanced

omit [Fintype ρ] [Fintype κ] in
theorem Tracks.congr {machineState : NUMANodeMap η} {count count' : ℕ → ℤ}
    (tracks : Tracks policy machineState count) (same : ∀ nodeID, count nodeID = count' nodeID) :
    Tracks policy machineState count' :=
  ⟨fun nodeID => (tracks.counts nodeID).trans (same nodeID), tracks.balanced⟩

omit [Fintype ρ] [Fintype κ] in
theorem Tracks.reserveBlocks (reusable : ReusableMemory ρ η) (podUID : ρ) (maskBits : List ℕ) :
    ∀ (requests : List (ResourceName η × ℕ)) (reserved : List (Block η) × NUMANodeMap η) (count : ℕ → ℤ),
      Tracks policy reserved.2 (fun nodeID => count nodeID + blockCount reserved.1 nodeID) →
      let result := requests.foldl (reserveRequest reusable podUID maskBits) reserved
      Tracks policy result.2 fun nodeID => count nodeID + blockCount result.1 nodeID
  | [], _, _, tracks => tracks
  | request :: rest, reserved, count, tracks => by
    apply Tracks.reserveBlocks reusable podUID maskBits rest
    refine (tracks.updateMachineState maskBits request.1 _).congr fun nodeID => ?_
    simp only [reserveRequest, blockCount_append, blockCount_cons, blockCount_nil]
    ring

omit [Fintype ρ] [Fintype κ] in
theorem Tracks.releaseBlocks :
    ∀ (blocks : List (Block η)) {machineState : NUMANodeMap η} {count : ℕ → ℤ},
      Tracks policy machineState count →
      Tracks policy (blocks.foldl MemoryManager.releaseBlock machineState)
        fun nodeID => count nodeID - blockCount blocks nodeID
  | [], _, _, tracks => by
    refine tracks.congr fun nodeID => ?_
    rw [blockCount_nil, sub_zero]
  | block :: rest, _, _, tracks => by
    refine (Tracks.releaseBlocks rest (tracks.releaseBlock block)).congr fun nodeID => ?_
    simp only [blockCount_cons]
    ring

omit [Fintype ρ] [Fintype κ] in
theorem Tracks.replayBlocks :
    ∀ (blocks : List (Block η)) {machineState : NUMANodeMap η} {count : ℕ → ℤ},
      Tracks policy machineState count →
      Tracks policy (blocks.foldl replayBlock machineState) fun nodeID => count nodeID + blockCount blocks nodeID
  | [], _, _, tracks => by
    refine tracks.congr fun nodeID => ?_
    rw [blockCount_nil, add_zero]
  | block :: rest, _, _, tracks => by
    refine (Tracks.replayBlocks rest (tracks.updateMachineState block.numaAffinity block.type block.size)).congr
      fun nodeID => ?_
    simp only [blockCount_cons]
    ring

/-! ## Runs -/

/-- The incremental machine state counts the blocks of the assignments and balances its tables. -/
def Accounted (policy : StaticPolicy η) (m : Manager ρ κ η) : Prop :=
  Tracks policy m.state.machineState (assignmentCount m.state.assignments)

theorem accounted_initial (policy : StaticPolicy η) : Accounted policy (Manager.initial policy : Manager ρ κ η) :=
  (tracks_default policy).congr fun nodeID => by simp [assignmentCount, containerCount, Manager.initial]

theorem Accounted.allocateOn {m : Manager ρ κ η} (accounted : Accounted policy m) (pod : Pod ρ κ)
    (containerName : κ) (requests : List (ResourceName η × ℕ)) (maskBits : List ℕ)
    (absent : m.state.assignments pod.uid containerName = none) :
    Accounted policy (allocateOn m pod containerName requests maskBits) := by
  have reserved := Tracks.reserveBlocks m.reusable pod.uid maskBits requests ([], m.state.machineState)
    (assignmentCount m.state.assignments) (accounted.congr fun _ => by simp)
  refine reserved.congr fun nodeID => ?_
  have fresh : containerCount m.state.assignments nodeID (pod.uid, containerName) = 0 := by
    simp [containerCount, absent]
  dsimp only [MemoryManager.allocateOn]
  rw [assignmentCount_updateInitContainersMemoryBlocks, assignmentCount_setMemoryBlocks, fresh, sub_zero]
  rfl

theorem Accounted.removeContainer {m : Manager ρ κ η} (accounted : Accounted policy m) (podUID : ρ)
    (containerName : κ) :
    Accounted policy { m with state := MemoryManager.removeContainer m.state podUID containerName } := by
  unfold Accounted MemoryManager.removeContainer
  split
  · exact accounted
  next blocks present =>
    refine (Tracks.releaseBlocks blocks accounted).congr fun nodeID => ?_
    rw [assignmentCount_delete, containerCount, present, Option.getD_some]

omit [Fintype ρ] [Fintype κ] in
theorem allocate_eq_ok {m next : Manager ρ κ η} {pod : Pod ρ κ} {containerName : κ}
    {requests : List (ResourceName η × ℕ)} {hint : TopologyHint}
    (allocated : allocate policy m pod containerName requests hint = .ok next) :
    next.state = m.state ∨ ∃ maskBits, m.state.assignments pod.uid containerName = none ∧
      next = allocateOn m pod containerName requests maskBits := by
  unfold allocate at allocated
  split_ifs at allocated
  · cases allocated
    exact .inl rfl
  split at allocated
  · cases allocated
    exact .inl rfl
  next absent =>
    obtain ⟨bestHint, _, placed⟩ := bind_eq_ok.mp allocated
    cases placed
    exact .inr ⟨_, absent, rfl⟩

theorem Accounted.step {m : Manager ρ κ η} (accounted : Accounted policy m) :
    ∀ call, Accounted policy (m.step policy call)
  | .allocate pod containerName requests hint => by
    dsimp only [Manager.step]
    split
    next next allocated =>
      rcases allocate_eq_ok allocated with unchanged | ⟨maskBits, absent, placed⟩
      · unfold Accounted
        rw [unchanged]
        exact accounted
      · exact placed ▸ accounted.allocateOn pod containerName requests maskBits absent
    · exact accounted
  | .removeContainer podUID containerName => accounted.removeContainer podUID containerName

theorem accounted_invariant (policy : StaticPolicy η) :
    (system policy : System (Manager ρ κ η) (Call ρ κ η)).Invariant (Accounted policy) :=
  System.Inductive.invariant
    { init := fun _ initial => initial ▸ accounted_initial policy
      step := fun _ call _ accounted taken => by
        cases taken
        exact accounted.step call }

/-! ## The replay -/

/-- An iteration order of the assignments' maps: every container with blocks, once. -/
def Enumerates (assignments : ContainerMemoryAssignments ρ κ η) (order : List (ρ × κ)) : Prop :=
  order.Nodup ∧ ∀ container, container ∈ order ↔ (assignments container.1 container.2).isSome

omit [Fintype ρ] [Fintype κ] in
theorem tracks_replay (policy : StaticPolicy η) (assignments : ContainerMemoryAssignments ρ κ η) :
    ∀ (order : List (ρ × κ)) {machineState : NUMANodeMap η} {count : ℕ → ℤ},
      Tracks policy machineState count →
      Tracks policy (order.foldl (replayContainer assignments) machineState)
        fun nodeID => count nodeID + (order.map (containerCount assignments nodeID)).sum
  | [], _, _, tracks => by
    refine tracks.congr fun nodeID => ?_
    rw [List.map_nil, List.sum_nil, add_zero]
  | container :: rest, _, _, tracks => by
    refine (tracks_replay policy assignments rest (Tracks.replayBlocks _ tracks)).congr fun nodeID => ?_
    simp only [List.map_cons, List.sum_cons, containerCount]
    ring

theorem sum_order_eq_assignmentCount {assignments : ContainerMemoryAssignments ρ κ η} {order : List (ρ × κ)}
    (enumerates : Enumerates assignments order) (nodeID : ℕ) :
    (order.map (containerCount assignments nodeID)).sum = assignmentCount assignments nodeID := by
  rw [← List.sum_toFinset _ enumerates.1, assignmentCount]
  apply Finset.sum_subset (Finset.subset_univ _)
  -- a container the order leaves out has no blocks
  intro container _ left
  have absent : (assignments container.1 container.2).isSome = false := by
    simpa [enumerates.2 container] using left
  simp [containerCount, Option.not_isSome_iff_eq_none.mp (by simpa using absent)]

theorem replay_tracks (policy : StaticPolicy η) {assignments : ContainerMemoryAssignments ρ κ η}
    {order : List (ρ × κ)} (enumerates : Enumerates assignments order) :
    Tracks policy (replayAssignments policy assignments order) (assignmentCount assignments) :=
  (tracks_replay policy assignments order (tracks_default policy)).congr fun nodeID => by
    rw [sum_order_eq_assignmentCount enumerates, zero_add]

/-- After every run the incremental machine state and the one `validateState` rebuilds agree
on every node's number of assignments and on the sizes and the free plus reserved memory of
every table: they can differ only in how a table's memory is split and in the groups. -/
theorem replay_agrees_on_accounting {m : Manager ρ κ η} (reachable : (system policy).Reachable m)
    {order : List (ρ × κ)} (enumerates : Enumerates m.state.assignments order) (nodeID : ℕ)
    (resourceName : ResourceName η) :
    let incremental := m.state.machineState nodeID
    let expected := replayAssignments policy m.state.assignments order nodeID
    incremental.numberOfAssignments = expected.numberOfAssignments ∧
      (incremental.memoryMap resourceName).allocatable = (expected.memoryMap resourceName).allocatable ∧
      (incremental.memoryMap resourceName).free + (incremental.memoryMap resourceName).reserved =
        (expected.memoryMap resourceName).free + (expected.memoryMap resourceName).reserved := by
  have incremental := accounted_invariant policy m reachable
  have expected := replay_tracks policy enumerates
  refine ⟨(incremental.counts nodeID).trans (expected.counts nodeID).symm, ?_, ?_⟩
  · exact ((incremental.balanced nodeID resourceName).allocatable).trans
      (expected.balanced nodeID resourceName).allocatable.symm
  · exact ((incremental.balanced nodeID resourceName).conserved).trans
      (expected.balanced nodeID resourceName).conserved.symm

omit [Fintype ρ] [Fintype κ] in
theorem enumerates_iff_of_single {assignments : ContainerMemoryAssignments ρ κ η} {container : ρ × κ}
    (only : ∀ other : ρ × κ, (assignments other.1 other.2).isSome ↔ other = container) (order : List (ρ × κ)) :
    Enumerates assignments order ↔ order = [container] := by
  constructor
  · rintro ⟨nodup, members⟩
    have listed : ∀ other, other ∈ order ↔ other = container := fun other => (members other).trans (only other)
    cases order with
    | nil => exact absurd ((listed container).mpr rfl) List.not_mem_nil
    | cons first rest =>
      have isFirst : first = container := (listed first).mp List.mem_cons_self
      subst isFirst
      have empty : rest = [] := List.eq_nil_iff_forall_not_mem.mpr fun other member =>
        (List.nodup_cons.mp nodup).1 (((listed other).mp (List.mem_cons_of_mem _ member)) ▸ member)
      rw [empty]
  · rintro rfl
    exact ⟨List.nodup_singleton _, fun other => List.mem_singleton.trans (only other).symm⟩

/-! ## Two nodes grouped for one pod -/

/-- Two NUMA nodes of 11 bytes of memory, one of them reserved for the system on each. -/
def twoNodes : StaticPolicy Empty := ⟨⟨[0, 1], fun _ => 11, fun _ size => nomatch size⟩, fun _ _ => 1⟩

/-- A pod needing 15 bytes gets both nodes as a group; a second pod needing 3 joins the
group, the only mask left for it; the first pod's container is removed. -/
def groupedRun : Manager Bool Unit Empty :=
  let first := (Manager.initial twoNodes).step twoNodes (.allocate ⟨true, true, []⟩ () [(.memory, 15)] ⟨none, false⟩)
  let second := first.step twoNodes (.allocate ⟨false, true, []⟩ () [(.memory, 3)] ⟨none, false⟩)
  second.step twoNodes (.removeContainer true ())

theorem groupedRun_reachable : (system twoNodes).Reachable groupedRun :=
  System.reachable_of_runPartial rfl
    [.allocate ⟨true, true, []⟩ () [(.memory, 15)] ⟨none, false⟩,
      .allocate ⟨false, true, []⟩ () [(.memory, 3)] ⟨none, false⟩, .removeContainer true ()] rfl

theorem groupedRun_single :
    ∀ other : Bool × Unit, (groupedRun.state.assignments other.1 other.2).isSome ↔ other = (false, ()) := by
  decide

theorem restart_rejects_incremental_machine_state :
    (system twoNodes).Reachable groupedRun ∧
      groupedRun.state.assignments false () = some [⟨[0, 1], .memory, 3⟩] ∧
      ((groupedRun.state.machineState 0).memoryMap .memory).reserved = 0 ∧
      ((groupedRun.state.machineState 1).memoryMap .memory).reserved = 3 ∧
      (∀ order, Enumerates groupedRun.state.assignments order ↔ order = [(false, ())]) ∧
      ((replayAssignments twoNodes groupedRun.state.assignments [(false, ())] 0).memoryMap .memory).reserved = 3 ∧
      validateState twoNodes (some groupedRun.state.machineState) groupedRun.state.assignments [(false, ())] =
        .error "[memorymanager] the expected machine state is different from the real one" := by
  exact ⟨groupedRun_reachable, by decide, by decide, by decide, enumerates_iff_of_single groupedRun_single,
    by decide, rfl⟩

/-- On the same run the two machine states agree on node 1's count and on its table's totals. -/
theorem replay_agrees_on_accounting_grouped :
    (system twoNodes).Reachable groupedRun ∧ Enumerates groupedRun.state.assignments [(false, ())] ∧
      let incremental := groupedRun.state.machineState 1
      let expected := replayAssignments twoNodes groupedRun.state.assignments [(false, ())] 1
      incremental.numberOfAssignments = expected.numberOfAssignments ∧
        (incremental.memoryMap .memory).allocatable = (expected.memoryMap .memory).allocatable ∧
        (incremental.memoryMap .memory).free + (incremental.memoryMap .memory).reserved =
          (expected.memoryMap .memory).free + (expected.memoryMap .memory).reserved := by
  have enumerates := (enumerates_iff_of_single groupedRun_single [(false, ())]).mpr rfl
  exact ⟨groupedRun_reachable, enumerates, replay_agrees_on_accounting groupedRun_reachable enumerates 1 .memory⟩

end Kubernetes.Kubelet.MemoryManager
