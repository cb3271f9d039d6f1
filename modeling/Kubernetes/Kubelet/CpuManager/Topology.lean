import Mathlib.Data.Finset.Card
import Mathlib.Data.Finset.Union
import Mathlib.Data.List.Sort

/-! The CPU topology of the kubelet's CPU manager (pkg/kubelet/cm/cpumanager/topology).

`CPUDetails` maps each CPU to its NUMA node, socket and core: it is its set of CPUs with the
information of each. Every query collects one id (or the CPU itself) of the CPUs whose id at
some level is among those given. A `cpuset.CPUSet` is the finite set of its elements.
`Discover` builds the topology from cadvisor's description of the machine; `WellFormed` is what
the allocators assume of the result.
-/

set_option autoImplicit false

namespace Kubernetes.Kubelet.CpuManager

/-- `CPUSet.ToSliceNoSort`: the elements of a set, listed in increasing order. Go lists them in
the order of a map; every caller sorts the slice again by a total order, so that order never
shows. -/
def toSliceNoSort (s : Finset ℤ) : List ℤ :=
  Quot.liftOn s.val (fun l => l.insertionSort (· ≤ ·)) fun _ _ perm =>
    ((List.perm_insertionSort _ _).trans ((perm : List.Perm _ _).trans (List.perm_insertionSort _ _).symm)).eq_of_sortedLE
      List.sortedLE_insertionSort List.sortedLE_insertionSort

theorem mem_toSliceNoSort {s : Finset ℤ} {x : ℤ} : x ∈ toSliceNoSort s ↔ x ∈ s := by
  rcases s with ⟨⟨l⟩, _⟩
  show x ∈ l.insertionSort (· ≤ ·) ↔ x ∈ (l : Multiset ℤ)
  rw [List.mem_insertionSort, Multiset.mem_coe]

theorem nodup_toSliceNoSort (s : Finset ℤ) : (toSliceNoSort s).Nodup := by
  rcases s with ⟨⟨l⟩, nodup⟩
  exact (List.perm_insertionSort _ l).nodup_iff.mpr nodup

/-- `CPUInfo`: the NUMA node, socket and core of a CPU. -/
structure CPUInfo where
  numaNodeID : ℤ
  socketID : ℤ
  coreID : ℤ
  deriving DecidableEq, Repr

/-- `CPUDetails`, a map from CPU ids to their `CPUInfo`: its keys, and the value at each. -/
structure CPUDetails where
  keys : Finset ℤ
  info : ℤ → CPUInfo

namespace CPUDetails

variable (d : CPUDetails)

def keepOnly (cpus : Finset ℤ) : CPUDetails := ⟨d.keys.filter (· ∈ cpus), d.info⟩

/-- The loop of every id query: `value` of each CPU whose id at the level `key` is one of `ids`. -/
def select (key : CPUInfo → ℤ) (value : ℤ → CPUInfo → ℤ) (ids : List ℤ) : Finset ℤ :=
  (d.keys.filter fun cpu => key (d.info cpu) ∈ ids).image fun cpu => value cpu (d.info cpu)

/-- The loop of `NUMANodes`, `Sockets`, `Cores` and `CPUs`: `value` of every CPU. -/
def every (value : ℤ → CPUInfo → ℤ) : Finset ℤ := d.keys.image fun cpu => value cpu (d.info cpu)

def numaNodes : Finset ℤ := d.every fun _ info => info.numaNodeID

def sockets : Finset ℤ := d.every fun _ info => info.socketID

def cores : Finset ℤ := d.every fun _ info => info.coreID

def cpus : Finset ℤ := d.every fun cpu _ => cpu

def numaNodesInSockets (ids : List ℤ) : Finset ℤ := d.select CPUInfo.socketID (fun _ info => info.numaNodeID) ids

def cpusInSockets (ids : List ℤ) : Finset ℤ := d.select CPUInfo.socketID (fun cpu _ => cpu) ids

def socketsInNUMANodes (ids : List ℤ) : Finset ℤ := d.select CPUInfo.numaNodeID (fun _ info => info.socketID) ids

def coresInNUMANodes (ids : List ℤ) : Finset ℤ := d.select CPUInfo.numaNodeID (fun _ info => info.coreID) ids

def coresInSockets (ids : List ℤ) : Finset ℤ := d.select CPUInfo.socketID (fun _ info => info.coreID) ids

def cpusInNUMANodes (ids : List ℤ) : Finset ℤ := d.select CPUInfo.numaNodeID (fun cpu _ => cpu) ids

def cpusInCores (ids : List ℤ) : Finset ℤ := d.select CPUInfo.coreID (fun cpu _ => cpu) ids

/-- The id of a CPU at the level `f` determines its id at the level `g`: every group of `f`
lies in one group of `g`. -/
def Determines (f g : CPUInfo → ℤ) : Prop :=
  ∀ cpu ∈ d.keys, ∀ cpu' ∈ d.keys, f (d.info cpu) = f (d.info cpu') → g (d.info cpu) = g (d.info cpu')

instance (f g : CPUInfo → ℤ) : Decidable (d.Determines f g) :=
  inferInstanceAs (Decidable (∀ cpu ∈ d.keys, ∀ cpu' ∈ d.keys, f (d.info cpu) = f (d.info cpu') → g (d.info cpu) = g (d.info cpu')))

variable {d}

@[simp] theorem keepOnly_keys (cpus : Finset ℤ) : (d.keepOnly cpus).keys = d.keys.filter (· ∈ cpus) := rfl

@[simp] theorem keepOnly_info (cpus : Finset ℤ) : (d.keepOnly cpus).info = d.info := rfl

@[simp] theorem mem_select {key : CPUInfo → ℤ} {value : ℤ → CPUInfo → ℤ} {ids : List ℤ} {x : ℤ} :
    x ∈ d.select key value ids ↔ ∃ cpu ∈ d.keys, key (d.info cpu) ∈ ids ∧ value cpu (d.info cpu) = x := by
  simp [select, and_assoc]

@[simp] theorem mem_every {value : ℤ → CPUInfo → ℤ} {x : ℤ} :
    x ∈ d.every value ↔ ∃ cpu ∈ d.keys, value cpu (d.info cpu) = x := by
  simp [every]

theorem cpus_eq : d.cpus = d.keys := by
  simp [cpus, every]

theorem select_cpu (key : CPUInfo → ℤ) (ids : List ℤ) :
    d.select key (fun cpu _ => cpu) ids = d.keys.filter fun cpu => key (d.info cpu) ∈ ids := by
  simp [select]

theorem disjoint_select {key : CPUInfo → ℤ} {value : ℤ → CPUInfo → ℤ}
    (determines : ∀ cpu ∈ d.keys, ∀ cpu' ∈ d.keys, value cpu (d.info cpu) = value cpu' (d.info cpu') →
      key (d.info cpu) = key (d.info cpu'))
    {id id' : ℤ} (different : id ≠ id') : Disjoint (d.select key value [id]) (d.select key value [id']) := by
  refine Finset.disjoint_left.mpr fun x inFirst inSecond => different ?_
  obtain ⟨cpu, member, group, rfl⟩ := mem_select.mp inFirst
  obtain ⟨cpu', member', group', same⟩ := mem_select.mp inSecond
  rw [List.mem_singleton] at group group'
  rw [← group, ← group', determines cpu member cpu' member' same.symm]

theorem disjoint_select_cpu (key : CPUInfo → ℤ) {id id' : ℤ} (different : id ≠ id') :
    Disjoint (d.select key (fun cpu _ => cpu) [id]) (d.select key (fun cpu _ => cpu) [id']) :=
  disjoint_select (fun _ _ _ _ same => congrArg (fun cpu => key (d.info cpu)) same) different

theorem biUnion_select (key : CPUInfo → ℤ) (value : ℤ → CPUInfo → ℤ) :
    (d.every fun _ info => key info).biUnion (fun id => d.select key value [id]) = d.every value := by
  ext x
  simp only [Finset.mem_biUnion, mem_every, mem_select, List.mem_singleton]
  constructor
  · rintro ⟨_, _, cpu, member, _, rfl⟩
    exact ⟨cpu, member, rfl⟩
  · rintro ⟨cpu, member, rfl⟩
    exact ⟨_, ⟨cpu, member, rfl⟩, cpu, member, rfl, rfl⟩

theorem Determines.disjoint_select {f g : CPUInfo → ℤ} (determines : d.Determines f g) {id id' : ℤ}
    (different : id ≠ id') :
    Disjoint (d.select g (fun _ info => f info) [id]) (d.select g (fun _ info => f info) [id']) :=
  CPUDetails.disjoint_select determines different

theorem Determines.mono {f g : CPUInfo → ℤ} (determines : d.Determines f g) {d' : CPUDetails}
    (fewer : d'.keys ⊆ d.keys) (same : d'.info = d.info) : d'.Determines f g := by
  intro cpu member cpu' member'
  rw [same]
  exact determines cpu (fewer member) cpu' (fewer member')

theorem Determines.symm_of_card_le {f g : CPUInfo → ℤ} (determines : d.Determines f g)
    (le : (d.every fun _ info => f info).card ≤ (d.every fun _ info => g info).card) : d.Determines g f := by
  set pairs := d.keys.image fun cpu => (f (d.info cpu), g (d.info cpu))
  have firsts : (d.every fun _ info => f info) = pairs.image Prod.fst := by
    rw [Finset.image_image]
    rfl
  have seconds : (d.every fun _ info => g info) = pairs.image Prod.snd := by
    rw [Finset.image_image]
    rfl
  have byFirst : Set.InjOn Prod.fst (pairs : Set (ℤ × ℤ)) := by
    intro p inP q inQ same
    obtain ⟨cpu, member, rfl⟩ := Finset.mem_image.mp inP
    obtain ⟨cpu', member', rfl⟩ := Finset.mem_image.mp inQ
    exact Prod.ext same (determines cpu member cpu' member' same)
  have bySecond : Set.InjOn Prod.snd (pairs : Set (ℤ × ℤ)) := by
    refine Finset.card_image_iff.mp (le_antisymm Finset.card_image_le ?_)
    calc pairs.card = (pairs.image Prod.fst).card := (Finset.card_image_of_injOn byFirst).symm
      _ ≤ (pairs.image Prod.snd).card := by rwa [← firsts, ← seconds]
  intro cpu member cpu' member' same
  have paired := bySecond (Finset.mem_image_of_mem _ member) (Finset.mem_image_of_mem _ member') same
  exact congrArg Prod.fst paired

end CPUDetails

/-- `CPUTopology`: the counts of CPUs, cores, sockets and NUMA nodes, and the CPU details. -/
structure CPUTopology where
  numCPUs : ℕ
  numCores : ℕ
  numSockets : ℕ
  numNUMANodes : ℕ
  cpuDetails : CPUDetails

namespace CPUTopology

variable (topo : CPUTopology)

def cpusPerCore : ℕ := if topo.numCores = 0 then 0 else topo.numCPUs / topo.numCores

def cpusPerSocket : ℕ := if topo.numSockets = 0 then 0 else topo.numCPUs / topo.numSockets

/-- What the allocators assume of a topology: `Discover` counts the sockets and the NUMA nodes
of the CPUs it lists, every core has `CPUsPerCore` CPUs and every socket `CPUsPerSocket`, the
core ids of `getUniqueCoreID` keep the threads of a core in one socket and one NUMA node, and
either every socket lies in one NUMA node or every NUMA node in one socket. -/
structure WellFormed : Prop where
  numSockets_eq : topo.numSockets = topo.cpuDetails.sockets.card
  numNUMANodes_eq : topo.numNUMANodes = topo.cpuDetails.numaNodes.card
  coreSize : ∀ core ∈ topo.cpuDetails.cores, (topo.cpuDetails.cpusInCores [core]).card = topo.cpusPerCore
  socketSize : ∀ socket ∈ topo.cpuDetails.sockets, (topo.cpuDetails.cpusInSockets [socket]).card = topo.cpusPerSocket
  coreInSocket : topo.cpuDetails.Determines CPUInfo.coreID CPUInfo.socketID
  coreInNUMANode : topo.cpuDetails.Determines CPUInfo.coreID CPUInfo.numaNodeID
  nested : topo.cpuDetails.Determines CPUInfo.socketID CPUInfo.numaNodeID ∨
    topo.cpuDetails.Determines CPUInfo.numaNodeID CPUInfo.socketID

/-- What the free checks of the allocators compare with: every core has `CPUsPerCore` CPUs and
every socket `CPUsPerSocket`. -/
structure Uniform : Prop where
  coreSize : ∀ core ∈ topo.cpuDetails.cores, (topo.cpuDetails.cpusInCores [core]).card = topo.cpusPerCore
  socketSize : ∀ socket ∈ topo.cpuDetails.sockets, (topo.cpuDetails.cpusInSockets [socket]).card = topo.cpusPerSocket

instance : Decidable topo.Uniform :=
  decidable_of_iff ((∀ core ∈ topo.cpuDetails.cores, (topo.cpuDetails.cpusInCores [core]).card = topo.cpusPerCore) ∧
      ∀ socket ∈ topo.cpuDetails.sockets, (topo.cpuDetails.cpusInSockets [socket]).card = topo.cpusPerSocket)
    ⟨fun ⟨cores, sockets⟩ => ⟨cores, sockets⟩, fun uniform => ⟨uniform.coreSize, uniform.socketSize⟩⟩

variable {topo}

theorem WellFormed.socketInNUMANode (wellFormed : topo.WellFormed) (more : topo.numNUMANodes ≤ topo.numSockets) :
    topo.cpuDetails.Determines CPUInfo.socketID CPUInfo.numaNodeID := by
  rcases wellFormed.nested with socketInNUMANode | numaNodeInSocket
  · exact socketInNUMANode
  · rw [wellFormed.numSockets_eq, wellFormed.numNUMANodes_eq] at more
    exact numaNodeInSocket.symm_of_card_le more

theorem WellFormed.numaNodeInSocket (wellFormed : topo.WellFormed) (fewer : topo.numSockets < topo.numNUMANodes) :
    topo.cpuDetails.Determines CPUInfo.numaNodeID CPUInfo.socketID := by
  rcases wellFormed.nested with socketInNUMANode | numaNodeInSocket
  · rw [wellFormed.numSockets_eq, wellFormed.numNUMANodes_eq] at fewer
    exact socketInNUMANode.symm_of_card_le fewer.le
  · exact numaNodeInSocket

end CPUTopology

end Kubernetes.Kubelet.CpuManager
