import Kubernetes.Library.Picking
import Kubernetes.Kubelet.CpuManager.Topology

/-! The packing allocator of the CPU manager (pkg/kubelet/cm/cpumanager/cpu_assignment.go).

`cpuAccumulator` keeps the CPUs taken so far, the available CPUs not yet taken and how many
CPUs are still needed. `takeByTopologyNUMAPacked` takes whole NUMA nodes and whole sockets (the
level higher in the memory hierarchy first), then whole cores, each from a list of free ids
computed once before its loop, and then single CPUs until the request is met. The id lists are
sorted by how many available CPUs each id holds, then by the id; the order of the levels is the
`numaOrSocketsFirstFuncs` the accumulator was built with.
-/

set_option autoImplicit false

namespace Kubernetes.Kubelet.CpuManager

open Kubernetes.Library

/-- `numaFirst` or `socketsFirst`, the implementations of `numaOrSocketsFirstFuncs`. -/
inductive NumaOrSocketsFirst where
  | numaFirst
  | socketsFirst
  deriving DecidableEq, Repr

structure CPUAccumulator where
  topo : CPUTopology
  details : CPUDetails
  numCPUsNeeded : ℤ
  result : Finset ℤ
  numaOrSocketsFirst : NumaOrSocketsFirst

def newCPUAccumulator (topo : CPUTopology) (availableCPUs : Finset ℤ) (numCPUs : ℤ) : CPUAccumulator where
  topo := topo
  details := topo.cpuDetails.keepOnly availableCPUs
  numCPUsNeeded := numCPUs
  result := ∅
  numaOrSocketsFirst := if topo.numNUMANodes ≤ topo.numSockets then .numaFirst else .socketsFirst

/-- `cpuAccumulator.sort`: by the number of CPUs `getCPUs` gives for each id, then by the id. -/
def sort (ids : List ℤ) (getCPUs : List ℤ → Finset ℤ) : List ℤ :=
  ids.insertionSort fun i j =>
    (getCPUs [i]).card < (getCPUs [j]).card ∨ (getCPUs [i]).card = (getCPUs [j]).card ∧ i < j

namespace CPUAccumulator

variable (a : CPUAccumulator)

/-- `numaFirst` sorts the NUMA nodes directly; `socketsFirst` sorts the sockets, then the NUMA
nodes of each. -/
def sortAvailableNUMANodes : List ℤ :=
  match a.numaOrSocketsFirst with
  | .numaFirst => sort (toSliceNoSort a.details.numaNodes) a.details.cpusInNUMANodes
  | .socketsFirst =>
    (sort (toSliceNoSort a.details.sockets) a.details.cpusInSockets).flatMap fun socket =>
      sort (toSliceNoSort (a.details.numaNodesInSockets [socket])) a.details.cpusInNUMANodes

/-- `numaFirst` sorts the sockets of each sorted NUMA node; `socketsFirst` sorts the sockets
directly. -/
def sortAvailableSockets : List ℤ :=
  match a.numaOrSocketsFirst with
  | .numaFirst =>
    a.sortAvailableNUMANodes.flatMap fun numa =>
      sort (toSliceNoSort (a.details.socketsInNUMANodes [numa])) a.details.cpusInSockets
  | .socketsFirst => sort (toSliceNoSort a.details.sockets) a.details.cpusInSockets

/-- The cores of each sorted socket (`numaFirst`) or NUMA node (`socketsFirst`). -/
def sortAvailableCores : List ℤ :=
  match a.numaOrSocketsFirst with
  | .numaFirst =>
    a.sortAvailableSockets.flatMap fun socket =>
      sort (toSliceNoSort (a.details.coresInSockets [socket])) a.details.cpusInCores
  | .socketsFirst =>
    a.sortAvailableNUMANodes.flatMap fun numa =>
      sort (toSliceNoSort (a.details.coresInNUMANodes [numa])) a.details.cpusInCores

/-- The CPUs of each sorted core, in increasing order (`sort.Ints`). -/
def sortAvailableCPUs : List ℤ :=
  a.sortAvailableCores.flatMap fun core => (toSliceNoSort (a.details.cpusInCores [core])).insertionSort (· ≤ ·)

/-- The free checks: a group is free when as many of its CPUs are available as `reference`. -/
def isFree (cpusIn : CPUDetails → List ℤ → Finset ℤ) (reference : ℕ) (id : ℤ) : Bool :=
  (cpusIn a.details [id]).card == reference

/-- `isNUMANodeFree` compares with the CPUs the NUMA node has in the topology. -/
def isNUMANodeFree (numaID : ℤ) : Bool :=
  a.isFree CPUDetails.cpusInNUMANodes (a.topo.cpuDetails.cpusInNUMANodes [numaID]).card numaID

/-- `isSocketFree` compares with the topology's CPUs per socket. -/
def isSocketFree (socketID : ℤ) : Bool := a.isFree CPUDetails.cpusInSockets a.topo.cpusPerSocket socketID

/-- `isCoreFree` compares with the topology's CPUs per core. -/
def isCoreFree (coreID : ℤ) : Bool := a.isFree CPUDetails.cpusInCores a.topo.cpusPerCore coreID

def freeNUMANodes : List ℤ := a.sortAvailableNUMANodes.filter a.isNUMANodeFree

def freeSockets : List ℤ := a.sortAvailableSockets.filter a.isSocketFree

def freeCores : List ℤ := a.sortAvailableCores.filter a.isCoreFree

def take (cpus : Finset ℤ) : CPUAccumulator :=
  let result := a.result ∪ cpus
  { a with
    result := result
    details := a.details.keepOnly (a.details.cpus \ result)
    numCPUsNeeded := a.numCPUsNeeded - cpus.card }

def needs (n : ℤ) : Bool := a.numCPUsNeeded ≥ n

def isSatisfied : Bool := a.numCPUsNeeded < 1

def isFailed : Bool := a.numCPUsNeeded > a.details.cpus.card

/-- The loops of `takeFullNUMANodes`, `takeFullSockets` and `takeFullCores`: over the free ids,
listed once before the loop, take the whole group of each one that is still needed. -/
def takeFull (cpusIn : CPUDetails → List ℤ → Finset ℤ) (free : List ℤ) : CPUAccumulator :=
  free.foldl (fun a id =>
    let cpus := cpusIn a.topo.cpuDetails [id]
    if a.needs cpus.card then a.take cpus else a) a

def takeFullNUMANodes : CPUAccumulator := a.takeFull CPUDetails.cpusInNUMANodes a.freeNUMANodes

def takeFullSockets : CPUAccumulator := a.takeFull CPUDetails.cpusInSockets a.freeSockets

def takeFullCores : CPUAccumulator := a.takeFull CPUDetails.cpusInCores a.freeCores

def takeFullFirstLevel : CPUAccumulator :=
  match a.numaOrSocketsFirst with
  | .numaFirst => a.takeFullNUMANodes
  | .socketsFirst => a.takeFullSockets

def takeFullSecondLevel : CPUAccumulator :=
  match a.numaOrSocketsFirst with
  | .numaFirst => a.takeFullSockets
  | .socketsFirst => a.takeFullNUMANodes

/-- The loop of `takeRemainingCPUs`: one CPU at a time, until the request is met. -/
def takeRemainingCPUs.loop : List ℤ → CPUAccumulator → CPUAccumulator
  | [], a => a
  | cpu :: cpus, a =>
    let a := a.take {cpu}
    if a.isSatisfied then a else loop cpus a

def takeRemainingCPUs : CPUAccumulator := takeRemainingCPUs.loop a.sortAvailableCPUs a

end CPUAccumulator

/-- Topology-aware best fit; an error comes with the empty set, left out here. -/
def takeByTopologyNUMAPacked (topo : CPUTopology) (availableCPUs : Finset ℤ) (numCPUs : ℤ) :
    Except String (Finset ℤ) :=
  let acc := newCPUAccumulator topo availableCPUs numCPUs
  if acc.isSatisfied then .ok acc.result
  else if acc.isFailed then .error "not enough cpus available to satisfy request"
  else
    -- whole NUMA nodes and sockets, the level higher in the hierarchy first
    let acc := acc.takeFullFirstLevel
    if acc.isSatisfied then .ok acc.result
    else
      let acc := acc.takeFullSecondLevel
      if acc.isSatisfied then .ok acc.result
      else
        let acc := acc.takeFullCores
        if acc.isSatisfied then .ok acc.result
        else
          let acc := acc.takeRemainingCPUs
          if acc.isSatisfied then .ok acc.result else .error "failed to allocate cpus"

/-- What the sorted lists of the accumulator rely on: the levels nest as its order assumes, and
every core lies in one socket and one NUMA node. -/
structure Nested (mode : NumaOrSocketsFirst) (d : CPUDetails) : Prop where
  levels : match mode with
    | .numaFirst => d.Determines CPUInfo.socketID CPUInfo.numaNodeID
    | .socketsFirst => d.Determines CPUInfo.numaNodeID CPUInfo.socketID
  coreInSocket : d.Determines CPUInfo.coreID CPUInfo.socketID
  coreInNUMANode : d.Determines CPUInfo.coreID CPUInfo.numaNodeID

theorem Nested.mono {mode : NumaOrSocketsFirst} {d d' : CPUDetails} (nested : Nested mode d)
    (fewer : d'.keys ⊆ d.keys) (same : d'.info = d.info) : Nested mode d' := by
  cases mode
  · exact ⟨CPUDetails.Determines.mono nested.levels fewer same, nested.coreInSocket.mono fewer same,
      nested.coreInNUMANode.mono fewer same⟩
  · exact ⟨CPUDetails.Determines.mono nested.levels fewer same, nested.coreInSocket.mono fewer same,
      nested.coreInNUMANode.mono fewer same⟩

theorem nested_newCPUAccumulator {topo : CPUTopology} (wellFormed : topo.WellFormed) (availableCPUs : Finset ℤ)
    (numCPUs : ℤ) : Nested (newCPUAccumulator topo availableCPUs numCPUs).numaOrSocketsFirst topo.cpuDetails := by
  by_cases more : topo.numNUMANodes ≤ topo.numSockets
  · simp only [newCPUAccumulator, if_pos more]
    exact ⟨wellFormed.socketInNUMANode more, wellFormed.coreInSocket, wellFormed.coreInNUMANode⟩
  · simp only [newCPUAccumulator, if_neg more]
    exact ⟨wellFormed.numaNodeInSocket (Nat.lt_of_not_le more), wellFormed.coreInSocket, wellFormed.coreInNUMANode⟩

/-! ## Sorted lists -/

theorem enumerates_toSliceNoSort (s : Finset ℤ) : Enumerates (toSliceNoSort s) s :=
  ⟨nodup_toSliceNoSort s, fun _ => mem_toSliceNoSort⟩

theorem enumerates_sort (s : Finset ℤ) (getCPUs : List ℤ → Finset ℤ) : Enumerates (sort (toSliceNoSort s) getCPUs) s :=
  (enumerates_toSliceNoSort s).perm (List.perm_insertionSort _ _).symm

theorem enumerates_flatMap_sort {d : CPUDetails} {f g : CPUInfo → ℤ} (determines : d.Determines f g)
    {outer : List ℤ} (listed : Enumerates outer (d.every fun _ info => g info)) (getCPUs : List ℤ → Finset ℤ) :
    Enumerates (outer.flatMap fun id => sort (toSliceNoSort (d.select g (fun _ info => f info) [id])) getCPUs)
      (d.every fun _ info => f info) := by
  rw [← CPUDetails.biUnion_select g (fun _ info => f info)]
  exact listed.flatMap (fun id _ => enumerates_sort _ getCPUs) fun _ _ _ _ different =>
    determines.disjoint_select different

namespace CPUAccumulator

variable (a : CPUAccumulator)

theorem enumerates_sortAvailableNUMANodes (nested : Nested a.numaOrSocketsFirst a.details) :
    Enumerates a.sortAvailableNUMANodes a.details.numaNodes := by
  unfold sortAvailableNUMANodes
  cases mode : a.numaOrSocketsFirst with
  | numaFirst => exact enumerates_sort _ _
  | socketsFirst =>
    rw [mode] at nested
    exact enumerates_flatMap_sort nested.levels (enumerates_sort _ _) _

theorem enumerates_sortAvailableSockets (nested : Nested a.numaOrSocketsFirst a.details) :
    Enumerates a.sortAvailableSockets a.details.sockets := by
  have numaNodes := a.enumerates_sortAvailableNUMANodes nested
  unfold sortAvailableSockets
  cases mode : a.numaOrSocketsFirst with
  | numaFirst =>
    rw [mode] at nested
    exact enumerates_flatMap_sort nested.levels numaNodes _
  | socketsFirst => exact enumerates_sort _ _

theorem enumerates_sortAvailableCores (nested : Nested a.numaOrSocketsFirst a.details) :
    Enumerates a.sortAvailableCores a.details.cores := by
  have numaNodes := a.enumerates_sortAvailableNUMANodes nested
  have sockets := a.enumerates_sortAvailableSockets nested
  unfold sortAvailableCores
  cases a.numaOrSocketsFirst with
  | numaFirst => exact enumerates_flatMap_sort nested.coreInSocket sockets _
  | socketsFirst => exact enumerates_flatMap_sort nested.coreInNUMANode numaNodes _

theorem enumerates_sortAvailableCPUs (nested : Nested a.numaOrSocketsFirst a.details) :
    Enumerates a.sortAvailableCPUs a.details.keys := by
  rw [← CPUDetails.cpus_eq, CPUDetails.cpus, ← CPUDetails.biUnion_select CPUInfo.coreID]
  exact (a.enumerates_sortAvailableCores nested).flatMap
    (fun core _ => (enumerates_toSliceNoSort _).perm (List.perm_insertionSort _ _).symm)
    fun _ _ _ _ different => CPUDetails.disjoint_select_cpu _ different

/-! ## The accumulator's steps -/

variable (cpus : Finset ℤ)

@[simp] theorem take_topo : (a.take cpus).topo = a.topo := rfl

@[simp] theorem take_result : (a.take cpus).result = a.result ∪ cpus := rfl

@[simp] theorem take_numCPUsNeeded : (a.take cpus).numCPUsNeeded = a.numCPUsNeeded - cpus.card := rfl

@[simp] theorem take_numaOrSocketsFirst : (a.take cpus).numaOrSocketsFirst = a.numaOrSocketsFirst := rfl

@[simp] theorem take_details_info : (a.take cpus).details.info = a.details.info := rfl

theorem take_details_keys : (a.take cpus).details.keys = a.details.keys \ (a.result ∪ cpus) := by
  ext cpu
  simp [take, CPUDetails.cpus_eq]

theorem takeFull_cons (cpusIn : CPUDetails → List ℤ → Finset ℤ) (id : ℤ) (free : List ℤ) :
    a.takeFull cpusIn (id :: free) =
      (if a.needs (cpusIn a.topo.cpuDetails [id]).card then a.take (cpusIn a.topo.cpuDetails [id]) else a).takeFull
        cpusIn free := rfl

theorem mem_sortAvailableCPUs {cpu : ℤ} (listed : cpu ∈ a.sortAvailableCPUs) : cpu ∈ a.details.keys := by
  obtain ⟨core, _, inCore⟩ := List.mem_flatMap.mp listed
  obtain ⟨cpu', member, _, rfl⟩ := CPUDetails.mem_select.mp (mem_toSliceNoSort.mp ((List.mem_insertionSort _).mp inCore))
  exact member

end CPUAccumulator

/-! ## What the allocators take from -/

/-- What every accumulator keeps, whatever the topology: it works on `topo`, its details are
CPUs of `topo` and of `pool`, and it has taken CPUs of `pool` only. -/
structure Within (topo : CPUTopology) (pool : Finset ℤ) (a : CPUAccumulator) : Prop where
  topo_eq : a.topo = topo
  info_eq : a.details.info = topo.cpuDetails.info
  inTopology : a.details.keys ⊆ topo.cpuDetails.keys
  keys_subset : a.details.keys ⊆ pool
  result_subset : a.result ⊆ pool

namespace Within

open CPUAccumulator

variable {topo : CPUTopology} {pool : Finset ℤ} {a : CPUAccumulator}

theorem start (topo : CPUTopology) (availableCPUs : Finset ℤ) (numCPUs : ℤ) :
    Within topo availableCPUs (newCPUAccumulator topo availableCPUs numCPUs) where
  topo_eq := rfl
  info_eq := rfl
  inTopology := Finset.filter_subset _ _
  keys_subset := fun _ member => (Finset.mem_filter.mp member).2
  result_subset := Finset.empty_subset _

variable (within : Within topo pool a)
include within

theorem select_cpu_details (key : CPUInfo → ℤ) (ids : List ℤ) :
    a.details.select key (fun cpu _ => cpu) ids = topo.cpuDetails.select key (fun cpu _ => cpu) ids ∩ a.details.keys := by
  rw [CPUDetails.select_cpu, CPUDetails.select_cpu, within.info_eq]
  ext cpu
  simp only [Finset.mem_filter, Finset.mem_inter]
  constructor
  · rintro ⟨member, group⟩
    exact ⟨⟨within.inTopology member, group⟩, member⟩
  · rintro ⟨⟨_, group⟩, member⟩
    exact ⟨member, group⟩

theorem subset_of_isFree (key : CPUInfo → ℤ) {reference : ℕ} {id : ℤ}
    (size : id ∈ topo.cpuDetails.every (fun _ info => key info) →
      (topo.cpuDetails.select key (fun cpu _ => cpu) [id]).card = reference)
    (free : a.isFree (fun d ids => d.select key (fun cpu _ => cpu) ids) reference id = true) :
    topo.cpuDetails.select key (fun cpu _ => cpu) [id] ⊆ a.details.keys := by
  rw [isFree, beq_iff_eq, within.select_cpu_details] at free
  rcases (topo.cpuDetails.select key (fun cpu _ => cpu) [id]).eq_empty_or_nonempty with empty | ⟨_, member⟩
  · rw [empty]
    exact Finset.empty_subset _
  · obtain ⟨cpu, inTopology, group, rfl⟩ := CPUDetails.mem_select.mp member
    have isGroup : id ∈ topo.cpuDetails.every fun _ info => key info :=
      CPUDetails.mem_every.mpr ⟨cpu, inTopology, (List.mem_singleton.mp group)⟩
    rw [← size isGroup] at free
    exact Finset.inter_eq_left.mp (Finset.eq_of_subset_of_card_le Finset.inter_subset_left free.ge)

theorem take {cpus : Finset ℤ} (fromPool : cpus ⊆ pool) : Within topo pool (a.take cpus) where
  topo_eq := within.topo_eq
  info_eq := within.info_eq
  inTopology := by
    rw [take_details_keys]
    exact Finset.sdiff_subset.trans within.inTopology
  keys_subset := by
    rw [take_details_keys]
    exact Finset.sdiff_subset.trans within.keys_subset
  result_subset := Finset.union_subset within.result_subset fromPool

theorem takeFull (key : CPUInfo → ℤ) {free : List ℤ}
    (fresh : ∀ id ∈ free, topo.cpuDetails.select key (fun cpu _ => cpu) [id] ⊆ pool) :
    Within topo pool (a.takeFull (fun d ids => d.select key (fun cpu _ => cpu) ids) free) := by
  induction free generalizing a with
  | nil => exact within
  | cons id free ih =>
    have later : ∀ id' ∈ free, topo.cpuDetails.select key (fun cpu _ => cpu) [id'] ⊆ pool :=
      fun id' member => fresh id' (List.mem_cons_of_mem id member)
    rw [takeFull_cons, within.topo_eq]
    split
    · exact ih (within.take (fresh id List.mem_cons_self)) later
    · exact ih within later

theorem takeFullNUMANodes : Within topo pool a.takeFullNUMANodes :=
  within.takeFull CPUInfo.numaNodeID fun _ member =>
    (within.subset_of_isFree CPUInfo.numaNodeID (fun _ => by rw [within.topo_eq]; rfl)
      (List.mem_filter.mp member).2).trans within.keys_subset

theorem takeFullSockets (uniform : topo.Uniform) : Within topo pool a.takeFullSockets :=
  within.takeFull CPUInfo.socketID fun socket member =>
    (within.subset_of_isFree CPUInfo.socketID (fun isSocket => by rw [within.topo_eq]; exact uniform.socketSize socket isSocket)
      (List.mem_filter.mp member).2).trans within.keys_subset

theorem takeFullCores (uniform : topo.Uniform) : Within topo pool a.takeFullCores :=
  within.takeFull CPUInfo.coreID fun core member =>
    (within.subset_of_isFree CPUInfo.coreID (fun isCore => by rw [within.topo_eq]; exact uniform.coreSize core isCore)
      (List.mem_filter.mp member).2).trans within.keys_subset

theorem takeFullFirstLevel (uniform : topo.Uniform) : Within topo pool a.takeFullFirstLevel := by
  unfold CPUAccumulator.takeFullFirstLevel
  split
  · exact within.takeFullNUMANodes
  · exact within.takeFullSockets uniform

theorem takeFullSecondLevel (uniform : topo.Uniform) : Within topo pool a.takeFullSecondLevel := by
  unfold CPUAccumulator.takeFullSecondLevel
  split
  · exact within.takeFullSockets uniform
  · exact within.takeFullNUMANodes

theorem loop {cpus : List ℤ} (fromPool : ∀ cpu ∈ cpus, cpu ∈ pool) : Within topo pool (takeRemainingCPUs.loop cpus a) := by
  induction cpus generalizing a with
  | nil => exact within
  | cons cpu cpus ih =>
    have taken := within.take (Finset.singleton_subset_iff.mpr (fromPool cpu List.mem_cons_self))
    simp only [takeRemainingCPUs.loop]
    split
    · exact taken
    · exact ih taken fun cpu' member => fromPool cpu' (List.mem_cons_of_mem cpu member)

theorem takeRemainingCPUs : Within topo pool a.takeRemainingCPUs :=
  within.loop fun _ listed => within.keys_subset (a.mem_sortAvailableCPUs listed)

end Within

/-! ## The invariant of the packing allocator -/

/-- The invariant of the accumulator of `takeByTopologyNUMAPacked`: it works on `topo`, whose
CPUs in `pool` are available; its details are the CPUs of `pool` it has not taken; it is
picking `numCPUs` CPUs out of `pool`; and the levels of `topo` nest as its order assumes. -/
structure Allocating (topo : CPUTopology) (pool : Finset ℤ) (numCPUs : ℤ) (a : CPUAccumulator) : Prop where
  inTopology : pool ⊆ topo.cpuDetails.keys
  topo_eq : a.topo = topo
  keys_eq : a.details.keys = pool \ a.result
  info_eq : a.details.info = topo.cpuDetails.info
  picking : Picking pool numCPUs a.result a.numCPUsNeeded
  nested : Nested a.numaOrSocketsFirst topo.cpuDetails

namespace Allocating

open CPUAccumulator

variable {topo : CPUTopology} {pool : Finset ℤ} {numCPUs : ℤ} {a : CPUAccumulator}

theorem start (wellFormed : topo.WellFormed) (availableCPUs : Finset ℤ) (nonneg : 0 ≤ numCPUs)
    (enough : numCPUs ≤ (topo.cpuDetails.keepOnly availableCPUs).keys.card) :
    Allocating topo (topo.cpuDetails.keepOnly availableCPUs).keys numCPUs
      (newCPUAccumulator topo availableCPUs numCPUs) where
  inTopology := Finset.filter_subset _ _
  topo_eq := rfl
  keys_eq := Finset.sdiff_empty.symm
  info_eq := rfl
  picking := Picking.start nonneg enough
  nested := nested_newCPUAccumulator wellFormed availableCPUs numCPUs

variable (allocating : Allocating topo pool numCPUs a)
include allocating

theorem keys_subset : a.details.keys ⊆ topo.cpuDetails.keys :=
  allocating.keys_eq ▸ Finset.sdiff_subset.trans allocating.inTopology

theorem every_subset (value : ℤ → CPUInfo → ℤ) : a.details.every value ⊆ topo.cpuDetails.every value := by
  intro x member
  obtain ⟨cpu, inDetails, rfl⟩ := CPUDetails.mem_every.mp member
  exact CPUDetails.mem_every.mpr ⟨cpu, allocating.keys_subset inDetails, by rw [allocating.info_eq]⟩

theorem nested_details : Nested a.numaOrSocketsFirst a.details :=
  allocating.nested.mono allocating.keys_subset allocating.info_eq

theorem within : Within topo pool a where
  topo_eq := allocating.topo_eq
  info_eq := allocating.info_eq
  inTopology := allocating.keys_subset
  keys_subset := allocating.keys_eq ▸ Finset.sdiff_subset
  result_subset := allocating.picking.subset

theorem isFree_iff (key : CPUInfo → ℤ) {reference : ℕ} {id : ℤ}
    (size : (topo.cpuDetails.select key (fun cpu _ => cpu) [id]).card = reference) :
    a.isFree (fun d ids => d.select key (fun cpu _ => cpu) ids) reference id = true ↔
      topo.cpuDetails.select key (fun cpu _ => cpu) [id] ⊆ a.details.keys := by
  rw [isFree, beq_iff_eq, allocating.within.select_cpu_details, ← size]
  constructor
  · intro same
    exact Finset.inter_eq_left.mp (Finset.eq_of_subset_of_card_le Finset.inter_subset_left same.ge)
  · intro within
    rw [Finset.inter_eq_left.mpr within]

theorem take_keys (cpus : Finset ℤ) : (a.take cpus).details.keys = a.details.keys \ cpus := by
  rw [take_details_keys, allocating.keys_eq]
  ext cpu
  simp only [Finset.mem_sdiff, Finset.mem_union]
  tauto

theorem take {cpus : Finset ℤ} (fresh : cpus ⊆ a.details.keys) (fits : (cpus.card : ℤ) ≤ a.numCPUsNeeded) :
    Allocating topo pool numCPUs (a.take cpus) where
  inTopology := allocating.inTopology
  topo_eq := allocating.topo_eq
  keys_eq := by
    rw [allocating.take_keys, allocating.keys_eq, take_result, sdiff_sdiff_left]
    simp
  info_eq := allocating.info_eq
  picking := allocating.picking.take (allocating.keys_eq ▸ fresh) fits
  nested := allocating.nested

theorem takeFull (key : CPUInfo → ℤ) {free : List ℤ} (nodup : free.Nodup)
    (fresh : ∀ id ∈ free, topo.cpuDetails.select key (fun cpu _ => cpu) [id] ⊆ a.details.keys) :
    Allocating topo pool numCPUs (a.takeFull (fun d ids => d.select key (fun cpu _ => cpu) ids) free) := by
  induction free generalizing a with
  | nil => exact allocating
  | cons id free ih =>
    obtain ⟨notMem, nodup⟩ := List.nodup_cons.mp nodup
    have later : ∀ id' ∈ free, topo.cpuDetails.select key (fun cpu _ => cpu) [id'] ⊆ a.details.keys := fun id' member =>
      fresh id' (List.mem_cons_of_mem id member)
    rw [takeFull_cons, allocating.topo_eq]
    split
    · rename_i needed
      have taken := allocating.take (fresh id List.mem_cons_self) (by simpa [needs] using needed)
      refine ih taken nodup fun id' member => ?_
      rw [allocating.take_keys]
      exact Finset.subset_sdiff.mpr ⟨later id' member,
        CPUDetails.disjoint_select_cpu key (ne_of_mem_of_not_mem member notMem)⟩
    · exact ih allocating nodup later

theorem takeFullNUMANodes : Allocating topo pool numCPUs a.takeFullNUMANodes := by
  obtain ⟨nodup, _⟩ := a.enumerates_sortAvailableNUMANodes allocating.nested_details
  refine allocating.takeFull CPUInfo.numaNodeID (nodup.filter _) fun numa member => ?_
  have free := (List.mem_filter.mp member).2
  exact (allocating.isFree_iff CPUInfo.numaNodeID (by rw [allocating.topo_eq]; rfl)).mp free

theorem takeFullSockets (wellFormed : topo.WellFormed) : Allocating topo pool numCPUs a.takeFullSockets := by
  obtain ⟨nodup, listed⟩ := a.enumerates_sortAvailableSockets allocating.nested_details
  refine allocating.takeFull CPUInfo.socketID (nodup.filter _) fun socket member => ?_
  obtain ⟨sorted, free⟩ := List.mem_filter.mp member
  have inTopology := allocating.every_subset _ ((listed socket).mp sorted)
  have size := wellFormed.socketSize socket inTopology
  rw [← allocating.topo_eq] at size
  exact (allocating.isFree_iff CPUInfo.socketID (by rw [← allocating.topo_eq]; exact size)).mp free

theorem takeFullCores (wellFormed : topo.WellFormed) : Allocating topo pool numCPUs a.takeFullCores := by
  obtain ⟨nodup, listed⟩ := a.enumerates_sortAvailableCores allocating.nested_details
  refine allocating.takeFull CPUInfo.coreID (nodup.filter _) fun core member => ?_
  obtain ⟨sorted, free⟩ := List.mem_filter.mp member
  have inTopology := allocating.every_subset _ ((listed core).mp sorted)
  have size := wellFormed.coreSize core inTopology
  rw [← allocating.topo_eq] at size
  exact (allocating.isFree_iff CPUInfo.coreID (by rw [← allocating.topo_eq]; exact size)).mp free

theorem takeFullFirstLevel (wellFormed : topo.WellFormed) : Allocating topo pool numCPUs a.takeFullFirstLevel := by
  unfold CPUAccumulator.takeFullFirstLevel
  split
  · exact allocating.takeFullNUMANodes
  · exact allocating.takeFullSockets wellFormed

theorem takeFullSecondLevel (wellFormed : topo.WellFormed) : Allocating topo pool numCPUs a.takeFullSecondLevel := by
  unfold CPUAccumulator.takeFullSecondLevel
  split
  · exact allocating.takeFullSockets wellFormed
  · exact allocating.takeFullNUMANodes

theorem loop {cpus : List ℤ} (listed : Enumerates cpus a.details.keys) (unsatisfied : 1 ≤ a.numCPUsNeeded) :
    Allocating topo pool numCPUs (takeRemainingCPUs.loop cpus a) ∧
      (takeRemainingCPUs.loop cpus a).isSatisfied = true := by
  induction cpus generalizing a with
  | nil =>
    have enough := allocating.picking.enough
    rw [← allocating.keys_eq, listed.eq_empty, Finset.card_empty] at enough
    omega
  | cons cpu cpus ih =>
    obtain ⟨member, rest⟩ := listed.cons
    have taken := allocating.take (Finset.singleton_subset_iff.mpr member) (by simpa using unsatisfied)
    simp only [takeRemainingCPUs.loop]
    split
    · exact ⟨taken, ‹_›⟩
    · rename_i stillNeeded
      refine ih taken (by rwa [allocating.take_keys]) ?_
      simp only [isSatisfied, decide_eq_true_eq, not_lt] at stillNeeded
      exact stillNeeded

theorem takeRemainingCPUs (unsatisfied : a.isSatisfied = false) :
    Allocating topo pool numCPUs a.takeRemainingCPUs ∧ a.takeRemainingCPUs.isSatisfied = true :=
  allocating.loop (a.enumerates_sortAvailableCPUs allocating.nested_details)
    (by simpa [isSatisfied] using unsatisfied)

theorem isFailed_eq_false : a.isFailed = false := by
  have enough := allocating.picking.enough
  rw [← allocating.keys_eq, ← CPUDetails.cpus_eq] at enough
  simpa [isFailed] using enough

theorem satisfied (satisfied : a.isSatisfied = true) : a.result ⊆ pool ∧ (a.result.card : ℤ) = numCPUs :=
  ⟨allocating.picking.subset, allocating.picking.card_eq (by simpa [isSatisfied] using satisfied)⟩

end Allocating

/-! ## The packing allocator -/

section Packed

variable {topo : CPUTopology} {availableCPUs : Finset ℤ} {numCPUs : ℤ}

theorem keepOnly_keys_eq (topo : CPUTopology) (availableCPUs : Finset ℤ) :
    (topo.cpuDetails.keepOnly availableCPUs).keys = availableCPUs ∩ topo.cpuDetails.cpus := by
  rw [CPUDetails.keepOnly_keys, Finset.filter_mem_eq_inter, Finset.inter_comm, CPUDetails.cpus_eq]

theorem takeByTopologyNUMAPacked_eq_ok (wellFormed : topo.WellFormed) (nonneg : 0 ≤ numCPUs)
    (enough : numCPUs ≤ (topo.cpuDetails.keepOnly availableCPUs).keys.card) :
    ∃ s, takeByTopologyNUMAPacked topo availableCPUs numCPUs = .ok s ∧
      s ⊆ (topo.cpuDetails.keepOnly availableCPUs).keys ∧ (s.card : ℤ) = numCPUs := by
  have started := Allocating.start wellFormed availableCPUs nonneg enough
  have first := started.takeFullFirstLevel wellFormed
  have second := first.takeFullSecondLevel wellFormed
  have cores := second.takeFullCores wellFormed
  unfold takeByTopologyNUMAPacked
  simp only [started.isFailed_eq_false, Bool.false_eq_true, if_false]
  split_ifs with done₀ done₁ done₂ done₃ done₄
  · exact ⟨_, rfl, started.satisfied done₀⟩
  · exact ⟨_, rfl, first.satisfied done₁⟩
  · exact ⟨_, rfl, second.satisfied done₂⟩
  · exact ⟨_, rfl, cores.satisfied done₃⟩
  · exact ⟨_, rfl, ((cores.takeRemainingCPUs (by simpa using done₃)).1).satisfied done₄⟩
  · exact absurd (cores.takeRemainingCPUs (by simpa using done₃)).2 done₄

theorem takeByTopologyNUMAPacked_eq_error (short : (topo.cpuDetails.keepOnly availableCPUs).keys.card < numCPUs) :
    takeByTopologyNUMAPacked topo availableCPUs numCPUs = .error "not enough cpus available to satisfy request" := by
  have unsatisfied : (newCPUAccumulator topo availableCPUs numCPUs).isSatisfied = false :=
    decide_eq_false (show ¬ numCPUs < 1 by omega)
  have failed : (newCPUAccumulator topo availableCPUs numCPUs).isFailed = true := by
    simpa [CPUAccumulator.isFailed, newCPUAccumulator, CPUDetails.cpus_eq] using short
  simp only [takeByTopologyNUMAPacked, unsatisfied, failed, Bool.false_eq_true, if_false, if_true]

theorem takeByTopologyNUMAPacked_allocates (topo : CPUTopology) (wellFormed : topo.WellFormed)
    (availableCPUs : Finset ℤ) (numCPUs : ℤ) (nonneg : 0 ≤ numCPUs) :
    (numCPUs ≤ (availableCPUs ∩ topo.cpuDetails.cpus).card →
      ∃ s, takeByTopologyNUMAPacked topo availableCPUs numCPUs = .ok s ∧
        s ⊆ availableCPUs ∩ topo.cpuDetails.cpus ∧ (s.card : ℤ) = numCPUs) ∧
    ((availableCPUs ∩ topo.cpuDetails.cpus).card < numCPUs →
      takeByTopologyNUMAPacked topo availableCPUs numCPUs = .error "not enough cpus available to satisfy request") := by
  rw [← keepOnly_keys_eq]
  exact ⟨takeByTopologyNUMAPacked_eq_ok wellFormed nonneg, takeByTopologyNUMAPacked_eq_error⟩

/-- Two sockets of one NUMA node each, two cores a socket and two threads a core; a core's id
is its lowest CPU, as `getUniqueCoreID` makes it. -/
def twoSockets : CPUTopology where
  numCPUs := 8
  numCores := 4
  numSockets := 2
  numNUMANodes := 2
  cpuDetails := ⟨{0, 1, 2, 3, 4, 5, 6, 7}, fun cpu => ⟨cpu / 4, cpu / 4, cpu / 2 * 2⟩⟩

theorem twoSockets_wellFormed : twoSockets.WellFormed where
  numSockets_eq := by decide
  numNUMANodes_eq := by decide
  coreSize := by decide
  socketSize := by decide
  coreInSocket := by decide
  coreInNUMANode := by decide
  nested := by decide

theorem takeByTopologyNUMAPacked_allocates_two_sockets :
    twoSockets.WellFormed ∧ (0 : ℤ) ≤ 3 ∧
    ((3 : ℤ) ≤ (({1, 2, 3, 5, 6} : Finset ℤ) ∩ twoSockets.cpuDetails.cpus).card →
      ∃ s, takeByTopologyNUMAPacked twoSockets {1, 2, 3, 5, 6} 3 = .ok s ∧
        s ⊆ {1, 2, 3, 5, 6} ∩ twoSockets.cpuDetails.cpus ∧ (s.card : ℤ) = 3) ∧
    ((({1, 2, 3, 5, 6} : Finset ℤ) ∩ twoSockets.cpuDetails.cpus).card < (3 : ℤ) →
      takeByTopologyNUMAPacked twoSockets {1, 2, 3, 5, 6} 3 = .error "not enough cpus available to satisfy request") :=
  ⟨twoSockets_wellFormed, by decide,
    takeByTopologyNUMAPacked_allocates twoSockets twoSockets_wellFormed {1, 2, 3, 5, 6} 3 (by decide)⟩

/- No NUMA node or socket is free; the free core `{2, 3}` is taken whole, then CPU 1. -/
example : takeByTopologyNUMAPacked twoSockets {1, 2, 3, 5, 6} 3 = .ok {2, 3, 1} := by decide

theorem takeByTopologyNUMAPacked_subset (uniform : topo.Uniform) {s : Finset ℤ}
    (allocated : takeByTopologyNUMAPacked topo availableCPUs numCPUs = .ok s) : s ⊆ availableCPUs := by
  have started := Within.start topo availableCPUs numCPUs
  have first := started.takeFullFirstLevel uniform
  have second := first.takeFullSecondLevel uniform
  have cores := second.takeFullCores uniform
  have remaining := cores.takeRemainingCPUs
  simp only [takeByTopologyNUMAPacked] at allocated
  split_ifs at allocated
  · cases allocated
    exact started.result_subset
  · cases allocated
    exact first.result_subset
  · cases allocated
    exact second.result_subset
  · cases allocated
    exact cores.result_subset
  · cases allocated
    exact remaining.result_subset

end Packed

end Kubernetes.Kubelet.CpuManager
