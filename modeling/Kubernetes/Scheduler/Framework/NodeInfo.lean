import Mathlib.Data.Finset.Union
import Mathlib.Data.List.Perm.Basic
import Mathlib.Algebra.Order.BigOperators.Group.List
import Kubernetes.Library.GoInt
import Kubernetes.Library.Slice
import Kubernetes.Library.Transition
import Kubernetes.Scheduler.Framework.Types

/-! The scheduler's aggregates of the pods on a node (`NodeInfo` in
`pkg/scheduler/framework/types.go`).

`AddPodInfo` adds what `calculateResource` computes for the pod to the requested totals, appends
the pod to `Pods` and, if it has affinity, to `PodsWithAffinity` and
`PodsWithRequiredAntiAffinity`, binds its host ports in `UsedPorts`, counts its claims in
`PVCRefCounts`, and bumps `Generation`. `RemovePod` undoes each of these: it subtracts, takes
the pod out of the three slices by moving the last element into its place, releases its host
ports and uncounts its claims.

The totals are `int64`s and wrap; `Resource.ScalarResources` and `PVCRefCounts` are maps, read
here as functions, a name a map lacks reading 0 as a Go map read does. `UsedPorts` is a set of
(ip, protocol, port) triples: two pods binding the same triple share one entry, and removing
either releases it.
-/

set_option autoImplicit false

namespace Kubernetes.Scheduler

open Kubernetes.Library

/-! ## Resource names (`schedutil.IsScalarResourceName` and `v1helper`) -/

def resourceCPU : String := "cpu"
def resourceMemory : String := "memory"
def resourcePods : String := "pods"
def resourceEphemeralStorage : String := "ephemeral-storage"

/-- `IsPrefixedNativeResource`: the name is in the `kubernetes.io/` namespace. -/
def isPrefixedNativeResource (name : String) : Bool := decide ("kubernetes.io/".toList <:+: name.toList)

/-- `IsNativeResource`: an unqualified name, or one in the `kubernetes.io/` namespace. -/
def isNativeResource (name : String) : Bool := !name.toList.contains '/' || isPrefixedNativeResource name

/-- `[a-z0-9]`. -/
def isDNS1123LabelChar (c : Char) : Bool := c.isLower || c.isDigit

/-- `dns1123LabelFmt`: `[a-z0-9]([-a-z0-9]*[a-z0-9])?`. -/
def matchesDNS1123Label (label : List Char) : Bool :=
  match label.head?, label.getLast? with
  | some first, some last =>
    isDNS1123LabelChar first && isDNS1123LabelChar last && label.all fun c => isDNS1123LabelChar c || c == '-'
  | _, _ => false

/-- `IsDNS1123Subdomain` returns no error: labels joined by dots, at most 253 long. Lengths are
counted in characters, which for the ASCII values the patterns accept are the bytes Go counts. -/
def isDNS1123Subdomain (value : List Char) : Bool :=
  decide (value.length ≤ 253) && (value.splitOn '.').all matchesDNS1123Label

/-- `qualifiedNameFmt`: `([A-Za-z0-9][-A-Za-z0-9_.]*)?[A-Za-z0-9]`. -/
def matchesQualifiedName (name : List Char) : Bool :=
  match name.head?, name.getLast? with
  | some first, some last =>
    first.isAlphanum && last.isAlphanum && name.all fun c => c.isAlphanum || c == '-' || c == '_' || c == '.'
  | _, _ => false

/-- `validation.IsQualifiedName` returns no error: a name of at most 63, after an optional DNS
subdomain and a slash. -/
def isQualifiedName (value : List Char) : Bool :=
  let nameValid (name : List Char) : Bool := !name.isEmpty && decide (name.length ≤ 63) && matchesQualifiedName name
  match value.splitOn '/' with
  | [name] => nameValid name
  | [pfx, name] => !pfx.isEmpty && isDNS1123Subdomain pfx && nameValid name
  | _ => false

/-- `IsExtendedResourceName`: a qualified name outside `kubernetes.io/` that stays qualified
under the quota prefix `requests.`. -/
def isExtendedResourceName (name : String) : Bool :=
  if isNativeResource name || decide ("requests.".toList <+: name.toList) then false
  else isQualifiedName ("requests.".toList ++ name.toList)

def isHugePageResourceName (name : String) : Bool := decide ("hugepages-".toList <+: name.toList)

def isAttachableVolumeResourceName (name : String) : Bool :=
  decide ("attachable-volumes-".toList <+: name.toList)

def isScalarResourceName (name : String) : Bool :=
  isExtendedResourceName name || isHugePageResourceName name || isPrefixedNativeResource name ||
    isAttachableVolumeResourceName name

/-! ## `Resource` and `calculateResource` -/

/-- `Resource`. `ScalarResources` is read as a function. -/
@[ext]
structure Resource where
  milliCPU : ℤ := 0
  memory : ℤ := 0
  ephemeralStorage : ℤ := 0
  allowedPodNumber : ℤ := 0
  scalarResources : String → ℤ := fun _ => 0

def Resource.setScalar (r : Resource) (name : String) (quantity : ℤ) : Resource :=
  { r with scalarResources := Function.update r.scalarResources name quantity }

def Resource.addScalar (r : Resource) (name : String) (quantity : ℤ) : Resource :=
  r.setScalar name (intAdd (r.scalarResources name) quantity)

/-- `Resource.Add`, with the `LocalStorageCapacityIsolation` gate `isolation`. -/
def Resource.add (isolation : Bool) (r : Resource) (rl : ResourceList) : Resource :=
  rl.foldl (fun r entry =>
    let (rName, rQuant) := entry
    if rName = resourceCPU then { r with milliCPU := intAdd r.milliCPU rQuant.milliValue }
    else if rName = resourceMemory then { r with memory := intAdd r.memory rQuant.value }
    else if rName = resourcePods then { r with allowedPodNumber := intAdd r.allowedPodNumber rQuant.value }
    else if rName = resourceEphemeralStorage then
      -- without the gate pods request no disk
      if isolation then { r with ephemeralStorage := intAdd r.ephemeralStorage rQuant.value } else r
    else if isScalarResourceName rName then r.addScalar rName rQuant.value
    else r) r

def Resource.setMaxResource (isolation : Bool) (r : Resource) (rl : ResourceList) : Resource :=
  rl.foldl (fun r entry =>
    let (rName, rQuantity) := entry
    if rName = resourceMemory then { r with memory := max r.memory rQuantity.value }
    else if rName = resourceCPU then { r with milliCPU := max r.milliCPU rQuantity.milliValue }
    else if rName = resourceEphemeralStorage then
      if isolation then { r with ephemeralStorage := max r.ephemeralStorage rQuantity.value } else r
    else if isScalarResourceName rName then r.setScalar rName (max (r.scalarResources rName) rQuantity.value)
    else r) r

def defaultMilliCPURequest : ℤ := 100
def defaultMemoryRequest : ℤ := 200 * 1024 * 1024

/-- `schedutil.GetNonzeroRequests`: a CPU or memory request that is not set counts as the
default. -/
def getNonzeroRequests (requests : ResourceList) : ℤ × ℤ :=
  ((requests.lookup resourceCPU).elim defaultMilliCPURequest Quantity.milliValue,
    (requests.lookup resourceMemory).elim defaultMemoryRequest Quantity.value)

/-- `calculateResource`: the containers' requests summed, raised to each init container's, and
the overhead added; beside it the same for CPU and memory with unset requests at their
defaults. -/
def calculateResource (isolation : Bool) (pod : Pod) : Resource × ℤ × ℤ :=
  let containers := pod.spec.containers.foldl (fun (acc : Resource × ℤ × ℤ) c =>
    let (non0CPUReq, non0MemReq) := getNonzeroRequests c.requests
    (acc.1.add isolation c.requests, intAdd acc.2.1 non0CPUReq, intAdd acc.2.2 non0MemReq)) ({}, 0, 0)
  let initContainers := pod.spec.initContainers.foldl (fun (acc : Resource × ℤ × ℤ) ic =>
    let (non0CPUReq, non0MemReq) := getNonzeroRequests ic.requests
    (acc.1.setMaxResource isolation ic.requests, max acc.2.1 non0CPUReq, max acc.2.2 non0MemReq)) containers
  match pod.spec.overhead with
  | none => initContainers
  | some overhead =>
    (initContainers.1.add isolation overhead,
      (overhead.lookup resourceCPU).elim initContainers.2.1 fun q => intAdd initContainers.2.1 q.milliValue,
      (overhead.lookup resourceMemory).elim initContainers.2.2 fun q => intAdd initContainers.2.2 q.value)

/-- The totals with a pod's resources added (`intAdd`) or taken away (`intSub`) field by field,
as `AddPodInfo` and `RemovePod` write them: all but `AllowedPodNumber`. Ranging over the pod's
scalar resources changes the names it holds; at the others it adds or takes away 0, which leaves
an `int64` as it is. -/
def Resource.combine (op : ℤ → ℤ → ℤ) (total res : Resource) : Resource :=
  { total with
    milliCPU := op total.milliCPU res.milliCPU
    memory := op total.memory res.memory
    ephemeralStorage := op total.ephemeralStorage res.ephemeralStorage
    scalarResources := fun rName => op (total.scalarResources rName) (res.scalarResources rName) }

/-- The non-zero totals with a pod's non-zero CPU and memory added or taken away. -/
def Resource.combineNonZero (op : ℤ → ℤ → ℤ) (total : Resource) (non0CPU non0Mem : ℤ) : Resource :=
  { total with milliCPU := op total.milliCPU non0CPU, memory := op total.memory non0Mem }

/-! ## Host ports (`HostPortInfo`) -/

structure ProtocolPort where
  protocol : String
  port : ℤ
  deriving DecidableEq, Repr

def defaultBindAllHostIP : String := "0.0.0.0"
def protocolTCP : String := "TCP"

/-- `NewProtocolPort`: TCP unless a protocol is given. -/
def newProtocolPort (protocol : String) (port : ℤ) : ProtocolPort :=
  ⟨if protocol = "" then protocolTCP else protocol, port⟩

/-- `HostPortInfo`: the protocol and port pairs bound on each IP. A map from IPs to sets that
`Remove` keeps free of empty sets is a set of (ip, protocol and port) triples. -/
abbrev HostPortInfo := Finset (String × ProtocolPort)

/-- The triple `Add` and `Remove` file a binding under, after `sanitize` fills in the IP that
binds all and TCP. -/
def hostTriple (ip protocol : String) (port : ℤ) : String × ProtocolPort :=
  (if ip = "" then defaultBindAllHostIP else ip, newProtocolPort (if protocol = "" then protocolTCP else protocol) port)

/-- `HostPortInfo.Add`: ports that are not positive bind nothing. -/
def HostPortInfo.add (h : HostPortInfo) (ip protocol : String) (port : ℤ) : HostPortInfo :=
  if port ≤ 0 then h else insert (hostTriple ip protocol port) h

def HostPortInfo.remove (h : HostPortInfo) (ip protocol : String) (port : ℤ) : HostPortInfo :=
  if port ≤ 0 then h else h.erase (hostTriple ip protocol port)

def updateUsedPorts (usedPorts : HostPortInfo) (pod : Pod) (add : Bool) : HostPortInfo :=
  pod.spec.containers.foldl (fun used container =>
    container.ports.foldl (fun used podPort =>
      if add then HostPortInfo.add used podPort.hostIP podPort.protocol podPort.hostPort
      else HostPortInfo.remove used podPort.hostIP podPort.protocol podPort.hostPort) used) usedPorts

/-! ## Claims (`updatePVCRefCounts`) -/

/-- The key a claim is counted under: the pod's namespace and the claim's name. -/
def claimKey (podNamespace claimName : String) : String := podNamespace ++ "/" ++ claimName

/-- `NodeInfo.updatePVCRefCounts`. A count that falls to zero is deleted, and reads 0 again. -/
def updatePVCRefCounts (counts : String → ℤ) (pod : Pod) (add : Bool) : String → ℤ :=
  pod.spec.volumes.foldl (fun counts v =>
    match v.persistentVolumeClaim with
    | none => counts
    | some claimName =>
      let key := claimKey pod.namespace claimName
      if add then Function.update counts key (counts key + 1)
      else
        let count := counts key - 1
        Function.update counts key (if count ≤ 0 then 0 else count)) counts

/-! ## `NodeInfo` -/

/-- The node a `NodeInfo` describes, by its name and labels. -/
structure Node where
  name : String
  labels : Labels := []
  deriving DecidableEq, Repr

/-- `NodeInfo`, without `Allocatable` and `ImageStates`, which adding and removing pods leave
alone. -/
structure NodeInfo where
  node : Option Node
  pods : List PodInfo
  podsWithAffinity : List PodInfo
  podsWithRequiredAntiAffinity : List PodInfo
  usedPorts : HostPortInfo
  requested : Resource
  nonZeroRequested : Resource
  pvcRefCounts : String → ℤ
  generation : ℤ

/-- `nextGeneration`: the package's counter advanced, which is also the value returned. -/
def nextGeneration (generation : ℤ) : ℤ := intAdd generation 1

/-- `NewNodeInfo()`, its generation being what `nextGeneration` returned. -/
def newNodeInfo (generation : ℤ) : NodeInfo where
  node := none
  pods := []
  podsWithAffinity := []
  podsWithRequiredAntiAffinity := []
  usedPorts := ∅
  requested := {}
  nonZeroRequested := {}
  pvcRefCounts := fun _ => 0
  generation := generation

def podWithAffinity (p : Pod) : Bool :=
  match p.spec.affinity with
  | some affinity => affinity.podAffinity.isSome || affinity.podAntiAffinity.isSome
  | none => false

def podWithRequiredAntiAffinity (p : Pod) : Bool :=
  match p.spec.affinity with
  | some { podAntiAffinity := some antiAffinity, .. } =>
    !antiAffinity.requiredDuringSchedulingIgnoredDuringExecution.isEmpty
  | _ => false

/-- `GetPodKey`: the pod's UID. -/
def getPodKey (pod : Pod) : Except String String :=
  if pod.uid = "" then .error "cannot get cache key for pod with empty UID" else .ok pod.uid

/-- Whether a slice entry is stored under key `k`; an entry whose key cannot be read is
skipped. -/
def hasKey (k : String) (podInfo : PodInfo) : Bool :=
  match getPodKey podInfo.pod with
  | .ok k2 => k == k2
  | .error _ => false

/-- `removeFromSlice`: the first entry under key `k` gives way to the last. -/
def removeFromSlice (s : List PodInfo) (k : String) : List PodInfo :=
  match s.findIdx? (hasKey k) with
  | some i => swapRemove s i
  | none => s

namespace NodeInfo

/-- `AddPodInfo`; `generation` is what `nextGeneration` returned. -/
def addPodInfo (isolation : Bool) (n : NodeInfo) (podInfo : PodInfo) (generation : ℤ) : NodeInfo :=
  let calculated := calculateResource isolation podInfo.pod
  { n with
    requested := n.requested.combine intAdd calculated.1
    nonZeroRequested := n.nonZeroRequested.combineNonZero intAdd calculated.2.1 calculated.2.2
    pods := n.pods ++ [podInfo]
    podsWithAffinity := if podWithAffinity podInfo.pod then n.podsWithAffinity ++ [podInfo] else n.podsWithAffinity
    podsWithRequiredAntiAffinity :=
      if podWithRequiredAntiAffinity podInfo.pod then n.podsWithRequiredAntiAffinity ++ [podInfo]
      else n.podsWithRequiredAntiAffinity
    usedPorts := updateUsedPorts n.usedPorts podInfo.pod true
    pvcRefCounts := updatePVCRefCounts n.pvcRefCounts podInfo.pod true
    generation := generation }

def addPod (isolation : Bool) (n : NodeInfo) (pod : Pod) (generation : ℤ) : NodeInfo :=
  n.addPodInfo isolation (newPodInfo pod) generation

/-- What `RemovePod` returns besides `nil`. -/
inductive RemovePodError where
  | podKey (err : String)
  /-- "no corresponding pod %s in pods of node %s". -/
  | noCorrespondingPod (podName nodeName : String)
  deriving DecidableEq, Repr

def RemovePodError.error : RemovePodError → String
  | .podKey err => err
  | .noCorrespondingPod podName nodeName => "no corresponding pod " ++ podName ++ " in pods of node " ++ nodeName

/-- `RemovePod`: the `NodeInfo` as the call leaves it, and the error it returns, if any;
`generation` is what `nextGeneration` returns if the pod is found. The affinity slices are
updated before the pod is looked for. Naming the node of a `NodeInfo` without one in the error
dereferences nil: the call panics, and the result is `none`. `resetSlicesIfEmpty` turns empty
slices into nil ones, which the model does not tell apart. -/
def removePod (isolation : Bool) (n : NodeInfo) (pod : Pod) (generation : ℤ) :
    Option (NodeInfo × Option RemovePodError) :=
  match getPodKey pod with
  | .error err => some (n, some (.podKey err))
  | .ok k =>
    let n := if podWithAffinity pod then { n with podsWithAffinity := removeFromSlice n.podsWithAffinity k } else n
    let n := if podWithRequiredAntiAffinity pod then
        { n with podsWithRequiredAntiAffinity := removeFromSlice n.podsWithRequiredAntiAffinity k }
      else n
    match n.pods.findIdx? (hasKey k) with
    | some i =>
      let calculated := calculateResource isolation pod
      some ({ n with
        pods := swapRemove n.pods i
        requested := n.requested.combine intSub calculated.1
        nonZeroRequested := n.nonZeroRequested.combineNonZero intSub calculated.2.1 calculated.2.2
        usedPorts := updateUsedPorts n.usedPorts pod false
        pvcRefCounts := updatePVCRefCounts n.pvcRefCounts pod false
        generation := generation }, none)
    | none => n.node.map fun node => (n, some (.noCorrespondingPod pod.name node.name))

/-- `SetNode`; `generation` is what `nextGeneration` returned. -/
def setNode (n : NodeInfo) (node : Node) (generation : ℤ) : NodeInfo :=
  { n with node := some node, generation := generation }

/-- `RemoveNode`: the node object goes, the pods stay. -/
def removeNode (n : NodeInfo) (generation : ℤ) : NodeInfo :=
  { n with node := none, generation := generation }

/-- The aggregates recomputed: `AddPod` of each pod of `Pods`, in order, on a `NodeInfo` without
pods. -/
def recomputed (isolation : Bool) (n : NodeInfo) : NodeInfo :=
  (n.pods.map PodInfo.pod).foldl (fun m pod => m.addPod isolation pod (nextGeneration m.generation))
    (newNodeInfo n.generation)

end NodeInfo

/-! ## The aggregates of a list of pods

What the aggregates of a `NodeInfo` holding some pods should be, in closed form: the totals are
the wrapped sums over the pods, the ports the triples some pod binds, the claim counts the number
of the pods' volumes from each claim. Adding a pod and taking a pod away move each closed form
from one list to the other. -/

section Aggregates

variable (isolation : Bool)

/-- The requested totals of a list of pods, each field summed and wrapped. -/
def requestedOf (pods : List Pod) : Resource where
  milliCPU := intSum (pods.map fun pod => (calculateResource isolation pod).1.milliCPU)
  memory := intSum (pods.map fun pod => (calculateResource isolation pod).1.memory)
  ephemeralStorage := intSum (pods.map fun pod => (calculateResource isolation pod).1.ephemeralStorage)
  scalarResources := fun rName => intSum (pods.map fun pod => (calculateResource isolation pod).1.scalarResources rName)

def nonZeroRequestedOf (pods : List Pod) : Resource where
  milliCPU := intSum (pods.map fun pod => (calculateResource isolation pod).2.1)
  memory := intSum (pods.map fun pod => (calculateResource isolation pod).2.2)

theorem requestedOf_add (pods : List Pod) (pod : Pod) :
    (requestedOf isolation pods).combine intAdd (calculateResource isolation pod).1 =
      requestedOf isolation (pods ++ [pod]) := by
  ext <;> simp [requestedOf, Resource.combine, intAdd_intSum]

open List in
theorem requestedOf_remove {pods rest : List Pod} {pod : Pod} (perm : pods ~ pod :: rest) :
    (requestedOf isolation pods).combine intSub (calculateResource isolation pod).1 = requestedOf isolation rest := by
  ext <;> simp [requestedOf, Resource.combine, intSub_intSum (perm.map _)]

theorem nonZeroRequestedOf_add (pods : List Pod) (pod : Pod) :
    (nonZeroRequestedOf isolation pods).combineNonZero intAdd (calculateResource isolation pod).2.1
        (calculateResource isolation pod).2.2 = nonZeroRequestedOf isolation (pods ++ [pod]) := by
  ext <;> simp [nonZeroRequestedOf, Resource.combineNonZero, intAdd_intSum]

open List in
theorem nonZeroRequestedOf_remove {pods rest : List Pod} {pod : Pod} (perm : pods ~ pod :: rest) :
    (nonZeroRequestedOf isolation pods).combineNonZero intSub (calculateResource isolation pod).2.1
        (calculateResource isolation pod).2.2 = nonZeroRequestedOf isolation rest := by
  ext <;> simp [nonZeroRequestedOf, Resource.combineNonZero, intSub_intSum (perm.map _)]

end Aggregates

/-- The triples a pod's containers bind. -/
def podHostPorts (pod : Pod) : HostPortInfo :=
  (((pod.spec.containers.flatMap Container.ports).filter fun podPort => 0 < podPort.hostPort).map
    fun podPort => hostTriple podPort.hostIP podPort.protocol podPort.hostPort).toFinset

def hostPortsOf (pods : List Pod) : HostPortInfo := pods.toFinset.biUnion podHostPorts

theorem mem_hostPortsOf {pods : List Pod} {triple : String × ProtocolPort} :
    triple ∈ hostPortsOf pods ↔ ∃ pod ∈ pods, triple ∈ podHostPorts pod := by
  simp [hostPortsOf]

theorem updateUsedPorts_eq (usedPorts : HostPortInfo) (pod : Pod) (add : Bool) :
    updateUsedPorts usedPorts pod add = (pod.spec.containers.flatMap Container.ports).foldl (fun used podPort =>
      if add then HostPortInfo.add used podPort.hostIP podPort.protocol podPort.hostPort
      else HostPortInfo.remove used podPort.hostIP podPort.protocol podPort.hostPort) usedPorts := by
  rw [updateUsedPorts, List.foldl_flatMap]

theorem updateUsedPorts_add (usedPorts : HostPortInfo) (pod : Pod) :
    updateUsedPorts usedPorts pod true = usedPorts ∪ podHostPorts pod := by
  rw [updateUsedPorts_eq, podHostPorts]
  generalize pod.spec.containers.flatMap Container.ports = podPorts
  -- one port at a time: a positive one is inserted, the others bind nothing
  induction podPorts generalizing usedPorts with
  | nil => simp
  | cons podPort rest ih =>
    rw [List.foldl_cons, ih, if_pos rfl, HostPortInfo.add]
    split_ifs with unbound
    · simp [show ¬ 0 < podPort.hostPort by omega]
    · simp [show 0 < podPort.hostPort by omega, Finset.insert_union, Finset.union_insert]

theorem updateUsedPorts_remove (usedPorts : HostPortInfo) (pod : Pod) :
    updateUsedPorts usedPorts pod false = usedPorts \ podHostPorts pod := by
  rw [updateUsedPorts_eq, podHostPorts]
  generalize pod.spec.containers.flatMap Container.ports = podPorts
  induction podPorts generalizing usedPorts with
  | nil => simp
  | cons podPort rest ih =>
    rw [List.foldl_cons, ih, if_neg Bool.false_ne_true, HostPortInfo.remove]
    split_ifs with unbound
    · simp [show ¬ 0 < podPort.hostPort by omega]
    · simp [show 0 < podPort.hostPort by omega, Finset.sdiff_insert, Finset.erase_sdiff_comm]

theorem hostPortsOf_add (pods : List Pod) (pod : Pod) :
    hostPortsOf pods ∪ podHostPorts pod = hostPortsOf (pods ++ [pod]) := by
  ext triple
  simp [mem_hostPortsOf, or_and_right, exists_or]

open List in
theorem sdiff_subset_hostPortsOf {pods rest : List Pod} {pod : Pod} (perm : pods ~ pod :: rest) :
    hostPortsOf pods \ podHostPorts pod ⊆ hostPortsOf rest := by
  intro triple member
  obtain ⟨bound, released⟩ := Finset.mem_sdiff.mp member
  obtain ⟨other, stored, binds⟩ := mem_hostPortsOf.mp bound
  rcases List.mem_cons.mp (perm.subset stored) with same | kept
  · exact absurd (same ▸ binds) released
  · exact mem_hostPortsOf.mpr ⟨other, kept, binds⟩

open List in
theorem hostPortsOf_remove {pods rest : List Pod} {pod : Pod} (perm : pods ~ pod :: rest)
    (apart : Disjoint (podHostPorts pod) (hostPortsOf rest)) :
    hostPortsOf pods \ podHostPorts pod = hostPortsOf rest := by
  refine (sdiff_subset_hostPortsOf perm).antisymm fun triple member => Finset.mem_sdiff.mpr ⟨?_, ?_⟩
  · obtain ⟨other, kept, binds⟩ := mem_hostPortsOf.mp member
    exact mem_hostPortsOf.mpr ⟨other, perm.symm.subset (List.mem_cons_of_mem _ kept), binds⟩
  · exact Finset.disjoint_right.mp apart member

/-- The claims a pod counts, one for each volume from a claim. -/
def podClaims (pod : Pod) : List String :=
  pod.spec.volumes.filterMap fun v => v.persistentVolumeClaim.map (claimKey pod.namespace)

/-- The number of the pods' volumes from each claim. -/
def pvcRefCountsOf (pods : List Pod) (key : String) : ℤ :=
  (pods.map fun pod => ((podClaims pod).count key : ℤ)).sum

theorem updatePVCRefCounts_add (counts : String → ℤ) (pod : Pod) :
    updatePVCRefCounts counts pod true = fun key => counts key + (podClaims pod).count key := by
  rw [updatePVCRefCounts, podClaims]
  generalize pod.spec.volumes = volumes
  induction volumes generalizing counts with
  | nil => simp
  | cons v rest ih =>
    rw [List.foldl_cons, ih]
    funext key
    cases claim : v.persistentVolumeClaim with
    | none => simp [claim]
    | some claimName =>
      by_cases same : key = claimKey pod.namespace claimName
      · subst same
        simp [claim]
        ring
      · simp [claim, Function.update_of_ne same, Ne.symm same]

theorem updatePVCRefCounts_remove (counts : String → ℤ) (pod : Pod)
    (counted : ∀ key, ((podClaims pod).count key : ℤ) ≤ counts key) :
    updatePVCRefCounts counts pod false = fun key => counts key - (podClaims pod).count key := by
  rw [updatePVCRefCounts]
  rw [podClaims] at counted ⊢
  dsimp only
  generalize pod.spec.volumes = volumes at counted ⊢
  induction volumes generalizing counts with
  | nil => simp
  | cons v rest ih =>
    rw [List.foldl_cons]
    cases claim : v.persistentVolumeClaim with
    | none =>
      simp only [claim, List.filterMap_cons, Option.map_none] at counted ⊢
      exact ih counts counted
    | some claimName =>
      simp only [claim, List.filterMap_cons, Option.map_some, List.count_cons, beq_iff_eq] at counted ⊢
      have first := counted (claimKey pod.namespace claimName)
      simp only [if_true] at first
      -- the count is at least one, so the decrement never needs the clamp
      have clamp : (if counts (claimKey pod.namespace claimName) - 1 ≤ 0 then 0
          else counts (claimKey pod.namespace claimName) - 1) = counts (claimKey pod.namespace claimName) - 1 := by
        have : (0 : ℤ) ≤ ((rest.filterMap fun v => v.persistentVolumeClaim.map (claimKey pod.namespace)).count
          (claimKey pod.namespace claimName) : ℕ) := Int.natCast_nonneg _
        split_ifs <;> omega
      rw [if_neg Bool.false_ne_true, clamp]
      have lowered : ∀ key, ((rest.filterMap fun v => v.persistentVolumeClaim.map (claimKey pod.namespace)).count key : ℤ) ≤
          Function.update counts (claimKey pod.namespace claimName) (counts (claimKey pod.namespace claimName) - 1) key := by
        intro key
        by_cases same : key = claimKey pod.namespace claimName
        · subst same
          rw [Function.update_self]
          push_cast at first
          omega
        · have other := counted key
          rw [if_neg (Ne.symm same)] at other
          rw [Function.update_of_ne same]
          simpa using other
      rw [ih _ lowered]
      funext key
      by_cases same : key = claimKey pod.namespace claimName
      · subst same
        simp only [Function.update_self, if_true]
        push_cast
        ring
      · simp [Function.update_of_ne same, Ne.symm same]

theorem pvcRefCountsOf_add (pods : List Pod) (pod : Pod) :
    updatePVCRefCounts (pvcRefCountsOf pods) pod true = pvcRefCountsOf (pods ++ [pod]) := by
  rw [updatePVCRefCounts_add]
  funext key
  simp [pvcRefCountsOf]

open List in
theorem pvcRefCountsOf_remove {pods rest : List Pod} {pod : Pod} (perm : pods ~ pod :: rest) :
    updatePVCRefCounts (pvcRefCountsOf pods) pod false = pvcRefCountsOf rest := by
  have split : ∀ key, pvcRefCountsOf pods key = (podClaims pod).count key + pvcRefCountsOf rest key := by
    intro key
    rw [pvcRefCountsOf, (perm.map _).sum_eq, List.map_cons, List.sum_cons, pvcRefCountsOf]
  have counted : ∀ key, ((podClaims pod).count key : ℤ) ≤ pvcRefCountsOf pods key := by
    intro key
    have : 0 ≤ pvcRefCountsOf rest key := List.sum_nonneg (by simp)
    rw [split]
    omega
  rw [updatePVCRefCounts_remove _ _ counted]
  funext key
  rw [split]
  ring

/-! ## What a pod's spec decides

`RemovePod` is given a pod, not the stored one: what it takes away is computed from the pod it
is given. All of it reads the pod's namespace and spec only. -/

section Congr

variable {pod pod' : Pod}

theorem calculateResource_congr (isolation : Bool) (spec : pod.spec = pod'.spec) :
    calculateResource isolation pod = calculateResource isolation pod' := by
  unfold calculateResource
  rw [spec]

theorem updateUsedPorts_congr (spec : pod.spec = pod'.spec) (usedPorts : HostPortInfo) (add : Bool) :
    updateUsedPorts usedPorts pod add = updateUsedPorts usedPorts pod' add := by
  unfold updateUsedPorts
  rw [spec]

theorem updatePVCRefCounts_congr (ns : pod.namespace = pod'.namespace) (spec : pod.spec = pod'.spec)
    (counts : String → ℤ) (add : Bool) : updatePVCRefCounts counts pod add = updatePVCRefCounts counts pod' add := by
  unfold updatePVCRefCounts
  rw [ns, spec]

theorem podWithAffinity_congr (spec : pod.spec = pod'.spec) : podWithAffinity pod = podWithAffinity pod' := by
  unfold podWithAffinity
  rw [spec]

theorem podWithRequiredAntiAffinity_congr (spec : pod.spec = pod'.spec) :
    podWithRequiredAntiAffinity pod = podWithRequiredAntiAffinity pod' := by
  unfold podWithRequiredAntiAffinity
  rw [spec]

end Congr

/-! ## Finding a pod by key -/

theorem hasKey_iff {k : String} {podInfo : PodInfo} : hasKey k podInfo = true ↔ podInfo.pod.uid ≠ "" ∧ podInfo.pod.uid = k := by
  unfold hasKey getPodKey
  by_cases empty : podInfo.pod.uid = ""
  · simp [empty]
  · simp only [empty, if_false, beq_iff_eq, ne_eq, not_false_eq_true, true_and]
    exact eq_comm

theorem findIdx?_hasKey {s : List PodInfo} (unique : (s.map fun podInfo => podInfo.pod.uid).Nodup) {q : PodInfo}
    (member : q ∈ s) (keyed : q.pod.uid ≠ "") :
    ∃ i, ∃ inside : i < s.length, s.findIdx? (hasKey q.pod.uid) = some i ∧ s[i] = q := by
  have found : (s.findIdx? (hasKey q.pod.uid)).isSome := by
    rw [List.findIdx?_isSome, List.any_eq_true]
    exact ⟨q, member, hasKey_iff.mpr ⟨keyed, rfl⟩⟩
  obtain ⟨i, index⟩ := Option.isSome_iff_exists.mp found
  obtain ⟨inside, matched, -⟩ := List.findIdx?_eq_some_iff_getElem.mp index
  exact ⟨i, inside, index, List.inj_on_of_nodup_map unique (List.getElem_mem inside) member (hasKey_iff.mp matched).2⟩

open List in
theorem removeFromSlice_perm {s pods rest : List PodInfo} {q : PodInfo} {keep : PodInfo → Bool}
    (slice : s ~ pods.filter keep) (unique : (pods.map fun podInfo => podInfo.pod.uid).Nodup)
    (perm : pods ~ q :: rest) (kept : keep q = true) (keyed : q.pod.uid ≠ "") :
    removeFromSlice s q.pod.uid ~ rest.filter keep := by
  have filtered : pods.filter keep ~ q :: rest.filter keep := by
    have := perm.filter keep
    rwa [List.filter_cons_of_pos kept] at this
  have uniqueSlice : (s.map fun podInfo => podInfo.pod.uid).Nodup :=
    (unique.sublist ((List.filter_sublist (p := keep)).map _)).perm (slice.map _).symm
  have member : q ∈ s := slice.symm.subset (filtered.symm.subset List.mem_cons_self)
  obtain ⟨i, inside, index, found⟩ := findIdx?_hasKey uniqueSlice member keyed
  unfold removeFromSlice
  rw [index]
  have swapped := perm_cons_swapRemove inside
  rw [found] at swapped
  exact (swapped.symm.trans (slice.trans filtered)).cons_inv

/-! ## Adding and removing pods -/

namespace NodeInfo

variable {isolation : Bool}

open List

/-- What `AddPod` of the pods of a list, in order, leaves: the aggregates of exactly those
pods. -/
structure Recomputes (isolation : Bool) (m : NodeInfo) (pods : List Pod) : Prop where
  requested : m.requested = requestedOf isolation pods
  nonZeroRequested : m.nonZeroRequested = nonZeroRequestedOf isolation pods
  pvcRefCounts : m.pvcRefCounts = pvcRefCountsOf pods
  usedPorts : m.usedPorts = hostPortsOf pods
  pods : m.pods = pods.map newPodInfo
  podsWithAffinity : m.podsWithAffinity = m.pods.filter fun podInfo => podWithAffinity podInfo.pod
  podsWithRequiredAntiAffinity :
    m.podsWithRequiredAntiAffinity = m.pods.filter fun podInfo => podWithRequiredAntiAffinity podInfo.pod

theorem Recomputes.new (generation : ℤ) : (newNodeInfo generation).Recomputes isolation [] where
  requested := by ext <;> rfl
  nonZeroRequested := by ext <;> rfl
  pvcRefCounts := rfl
  usedPorts := rfl
  pods := rfl
  podsWithAffinity := rfl
  podsWithRequiredAntiAffinity := rfl

theorem Recomputes.addPod {m : NodeInfo} {pods : List Pod} (recomputes : m.Recomputes isolation pods)
    (pod : Pod) (generation : ℤ) : (m.addPod isolation pod generation).Recomputes isolation (pods ++ [pod]) where
  requested := by
    simp only [NodeInfo.addPod, addPodInfo, recomputes.requested]
    exact requestedOf_add isolation pods pod
  nonZeroRequested := by
    simp only [NodeInfo.addPod, addPodInfo, recomputes.nonZeroRequested]
    exact nonZeroRequestedOf_add isolation pods pod
  pvcRefCounts := by
    simp only [NodeInfo.addPod, addPodInfo, recomputes.pvcRefCounts]
    exact pvcRefCountsOf_add pods pod
  usedPorts := by
    simp only [NodeInfo.addPod, addPodInfo, recomputes.usedPorts, updateUsedPorts_add]
    exact hostPortsOf_add pods pod
  pods := by simp [NodeInfo.addPod, addPodInfo, recomputes.pods]
  podsWithAffinity := by
    simp only [NodeInfo.addPod, addPodInfo, recomputes.podsWithAffinity, List.filter_append]
    split_ifs <;> simp [*]
  podsWithRequiredAntiAffinity := by
    simp only [NodeInfo.addPod, addPodInfo, recomputes.podsWithRequiredAntiAffinity, List.filter_append]
    split_ifs <;> simp [*]

theorem recomputes_recomputed (n : NodeInfo) : (n.recomputed isolation).Recomputes isolation (n.pods.map PodInfo.pod) := by
  unfold recomputed
  suffices loop : ∀ (pods done : List Pod) (m : NodeInfo), m.Recomputes isolation done →
      (pods.foldl (fun m pod => m.addPod isolation pod (nextGeneration m.generation)) m).Recomputes isolation
        (done ++ pods) from
    loop _ [] _ (Recomputes.new n.generation)
  intro pods
  induction pods with
  | nil =>
    intro done m recomputes
    simpa using recomputes
  | cons pod rest ih =>
    intro done m recomputes
    simpa using ih (done ++ [pod]) _ (recomputes.addPod pod _)

/-- The aggregates of a `NodeInfo` hold what its pods make up: the totals and the claim counts
are those of the pods, the affinity slices hold the pods with affinity in some order, and every
port in `UsedPorts` is bound by a pod. Its pods are as `NewPodInfo` made them, and have distinct,
non-empty keys. -/
structure Accounts (isolation : Bool) (n : NodeInfo) : Prop where
  requested : n.requested = requestedOf isolation (n.pods.map PodInfo.pod)
  nonZeroRequested : n.nonZeroRequested = nonZeroRequestedOf isolation (n.pods.map PodInfo.pod)
  pvcRefCounts : n.pvcRefCounts = pvcRefCountsOf (n.pods.map PodInfo.pod)
  usedPorts : n.usedPorts ⊆ hostPortsOf (n.pods.map PodInfo.pod)
  podsWithAffinity : n.podsWithAffinity ~ n.pods.filter fun podInfo => podWithAffinity podInfo.pod
  podsWithRequiredAntiAffinity :
    n.podsWithRequiredAntiAffinity ~ n.pods.filter fun podInfo => podWithRequiredAntiAffinity podInfo.pod
  processed : ∀ podInfo ∈ n.pods, podInfo = newPodInfo podInfo.pod
  keyed : ∀ podInfo ∈ n.pods, podInfo.pod.uid ≠ ""
  unique : (n.pods.map fun podInfo => podInfo.pod.uid).Nodup

theorem Accounts.new (generation : ℤ) : (newNodeInfo generation).Accounts isolation where
  requested := by ext <;> rfl
  nonZeroRequested := by ext <;> rfl
  pvcRefCounts := rfl
  usedPorts := fun _ member => absurd member (Finset.notMem_empty _)
  podsWithAffinity := .refl _
  podsWithRequiredAntiAffinity := .refl _
  processed := by simp [newNodeInfo]
  keyed := by simp [newNodeInfo]
  unique := List.nodup_nil

theorem perm_append_filter {s pods : List PodInfo} {keep : PodInfo → Bool} (slice : s ~ pods.filter keep)
    (podInfo : PodInfo) :
    (if keep podInfo then s ++ [podInfo] else s) ~ (pods ++ [podInfo]).filter keep := by
  rw [List.filter_append]
  split_ifs with kept
  · simpa [kept] using slice.append_right [podInfo]
  · simpa [kept] using slice

theorem Accounts.addPod {n : NodeInfo} (accounts : n.Accounts isolation) {pod : Pod} (keyed : pod.uid ≠ "")
    (fresh : ∀ q ∈ n.pods, q.pod.uid ≠ pod.uid) (generation : ℤ) :
    (n.addPod isolation pod generation).Accounts isolation where
  requested := by
    simp only [NodeInfo.addPod, addPodInfo, accounts.requested, List.map_append, List.map_singleton]
    exact requestedOf_add isolation _ pod
  nonZeroRequested := by
    simp only [NodeInfo.addPod, addPodInfo, accounts.nonZeroRequested, List.map_append, List.map_singleton]
    exact nonZeroRequestedOf_add isolation _ pod
  pvcRefCounts := by
    simp only [NodeInfo.addPod, addPodInfo, accounts.pvcRefCounts, List.map_append, List.map_singleton]
    exact pvcRefCountsOf_add _ pod
  usedPorts := by
    simp only [NodeInfo.addPod, addPodInfo, updateUsedPorts_add, List.map_append, List.map_singleton]
    rw [← hostPortsOf_add]
    exact Finset.union_subset_union accounts.usedPorts (Finset.Subset.refl _)
  podsWithAffinity := perm_append_filter accounts.podsWithAffinity (newPodInfo pod)
  podsWithRequiredAntiAffinity := perm_append_filter accounts.podsWithRequiredAntiAffinity (newPodInfo pod)
  processed := by
    intro podInfo member
    rcases List.mem_append.mp member with stored | added
    · exact accounts.processed podInfo stored
    · rw [List.mem_singleton.mp added]
      rfl
  keyed := by
    intro podInfo member
    rcases List.mem_append.mp member with stored | added
    · exact accounts.keyed podInfo stored
    · rw [List.mem_singleton.mp added]
      exact keyed
  unique := by
    simp only [NodeInfo.addPod, addPodInfo, List.map_append, List.map_singleton]
    refine List.nodup_append.mpr ⟨accounts.unique, List.nodup_singleton _, ?_⟩
    simp only [List.mem_map, List.mem_singleton]
    rintro _ ⟨q, stored, rfl⟩ _ rfl
    exact fresh q stored

theorem removePod_of_found {n : NodeInfo} {pod : Pod} {i : ℕ} (keyed : pod.uid ≠ "")
    (found : n.pods.findIdx? (hasKey pod.uid) = some i) (generation : ℤ) :
    n.removePod isolation pod generation = some ({ n with
      podsWithAffinity :=
        if podWithAffinity pod then removeFromSlice n.podsWithAffinity pod.uid else n.podsWithAffinity
      podsWithRequiredAntiAffinity :=
        if podWithRequiredAntiAffinity pod then removeFromSlice n.podsWithRequiredAntiAffinity pod.uid
        else n.podsWithRequiredAntiAffinity
      pods := swapRemove n.pods i
      requested := n.requested.combine intSub (calculateResource isolation pod).1
      nonZeroRequested := n.nonZeroRequested.combineNonZero intSub (calculateResource isolation pod).2.1
        (calculateResource isolation pod).2.2
      usedPorts := updateUsedPorts n.usedPorts pod false
      pvcRefCounts := updatePVCRefCounts n.pvcRefCounts pod false
      generation := generation }, none) := by
  unfold removePod
  rw [getPodKey, if_neg keyed]
  dsimp only
  -- the affinity slices are updated first, which leaves `Pods` where the pod is found
  by_cases affinity : podWithAffinity pod <;> by_cases anti : podWithRequiredAntiAffinity pod <;>
    simp [affinity, anti, found]

theorem perm_removeFromSlice {s pods rest : List PodInfo} {q : PodInfo} {keep : PodInfo → Bool}
    (slice : s ~ pods.filter keep) (unique : (pods.map fun podInfo => podInfo.pod.uid).Nodup)
    (perm : pods ~ q :: rest) (keyed : q.pod.uid ≠ "") :
    (if keep q then removeFromSlice s q.pod.uid else s) ~ rest.filter keep := by
  split_ifs with kept
  · exact removeFromSlice_perm slice unique perm kept keyed
  · have filtered := perm.filter keep
    rw [List.filter_cons_of_neg kept] at filtered
    exact slice.trans filtered

theorem Accounts.removePod {n : NodeInfo} (accounts : n.Accounts isolation) {pod : Pod} {q : PodInfo}
    (stored : q ∈ n.pods) (uid : q.pod.uid = pod.uid) (ns : q.pod.namespace = pod.namespace)
    (spec : q.pod.spec = pod.spec) (generation : ℤ) :
    ∃ n', n.removePod isolation pod generation = some (n', none) ∧ n'.Accounts isolation ∧
      n'.generation = generation ∧ n.pods ~ q :: n'.pods ∧ n'.usedPorts = n.usedPorts \ podHostPorts q.pod := by
  have keyed := accounts.keyed q stored
  obtain ⟨i, inside, found, atIndex⟩ := findIdx?_hasKey accounts.unique stored keyed
  have perm : n.pods ~ q :: swapRemove n.pods i := atIndex ▸ perm_cons_swapRemove inside
  have pods : n.pods.map PodInfo.pod ~ q.pod :: (swapRemove n.pods i).map PodInfo.pod := by
    simpa using perm.map PodInfo.pod
  refine ⟨_, removePod_of_found (uid ▸ keyed) (uid ▸ found) generation, ?_, rfl, perm, ?_⟩
  -- what is taken away is computed from the pod given, which has the stored pod's spec
  all_goals simp only [← uid, ← calculateResource_congr isolation spec, ← podWithAffinity_congr spec,
    ← podWithRequiredAntiAffinity_congr spec, ← updateUsedPorts_congr spec, ← updatePVCRefCounts_congr ns spec]
  · refine { requested := ?requested, nonZeroRequested := ?nonZeroRequested, pvcRefCounts := ?pvcRefCounts,
               usedPorts := ?usedPorts, podsWithAffinity := ?podsWithAffinity,
               podsWithRequiredAntiAffinity := ?podsWithRequiredAntiAffinity, processed := ?processed,
               keyed := ?keyed, unique := ?unique }
    case requested =>
      rw [accounts.requested]
      exact requestedOf_remove isolation pods
    case nonZeroRequested =>
      rw [accounts.nonZeroRequested]
      exact nonZeroRequestedOf_remove isolation pods
    case pvcRefCounts =>
      rw [accounts.pvcRefCounts]
      exact pvcRefCountsOf_remove pods
    case usedPorts =>
      rw [updateUsedPorts_remove]
      exact (Finset.sdiff_subset_sdiff accounts.usedPorts (Finset.Subset.refl _)).trans
        (sdiff_subset_hostPortsOf pods)
    case podsWithAffinity => exact perm_removeFromSlice accounts.podsWithAffinity accounts.unique perm keyed
    case podsWithRequiredAntiAffinity =>
      exact perm_removeFromSlice accounts.podsWithRequiredAntiAffinity accounts.unique perm keyed
    case processed =>
      exact fun podInfo kept => accounts.processed podInfo (perm.symm.subset (List.mem_cons_of_mem _ kept))
    case keyed => exact fun podInfo kept => accounts.keyed podInfo (perm.symm.subset (List.mem_cons_of_mem _ kept))
    case unique =>
      have distinct := accounts.unique.perm (perm.map fun podInfo => podInfo.pod.uid)
      exact (List.nodup_cons.mp distinct).2
  · exact updateUsedPorts_remove _ _

theorem Accounts.map_newPodInfo {n : NodeInfo} (accounts : n.Accounts isolation) :
    (n.pods.map PodInfo.pod).map newPodInfo = n.pods := by
  rw [List.map_map]
  exact (List.map_congr_left fun podInfo stored => (accounts.processed podInfo stored).symm).trans (List.map_id _)

theorem removePod_cases {n n' : NodeInfo} {pod : Pod} {generation : ℤ} {err : Option RemovePodError}
    (removed : n.removePod isolation pod generation = some (n', err)) :
    (err.isSome ∧ n'.pods = n.pods ∧ n'.node = n.node ∧ n'.generation = n.generation) ∨
      (err = none ∧ pod.uid ≠ "" ∧ ∃ i, n.pods.findIdx? (hasKey pod.uid) = some i ∧
        n'.pods = swapRemove n.pods i ∧ n'.node = n.node ∧ n'.generation = generation) := by
  unfold removePod at removed
  by_cases keyed : pod.uid = ""
  · simp only [getPodKey, keyed, if_true, Option.some.injEq, Prod.mk.injEq] at removed
    obtain ⟨rfl, rfl⟩ := removed
    exact .inl ⟨rfl, rfl, rfl, rfl⟩
  · simp only [getPodKey, keyed, if_false] at removed
    -- the affinity slices are updated first; neither touches `Pods`
    split at removed
    · rename_i i found
      simp only [Option.some.injEq, Prod.mk.injEq] at removed
      obtain ⟨rfl, rfl⟩ := removed
      refine .inr ⟨rfl, keyed, i, ?_, ?_, ?_, rfl⟩ <;> split_ifs at found ⊢ <;> simp_all
    · simp only [Option.map_eq_some_iff, Prod.mk.injEq] at removed
      obtain ⟨_, -, rfl, rfl⟩ := removed
      refine .inl ⟨rfl, ?_, ?_, ?_⟩ <;> split_ifs <;> rfl

theorem removePod_of_mem {n : NodeInfo} {pod : Pod} {q : PodInfo} (stored : q ∈ n.pods) (keyed : pod.uid ≠ "")
    (same : q.pod.uid = pod.uid) (generation : ℤ) :
    ∃ n', n.removePod isolation pod generation = some (n', none) := by
  have found : (n.pods.findIdx? (hasKey pod.uid)).isSome := by
    rw [List.findIdx?_isSome, List.any_eq_true]
    exact ⟨q, stored, hasKey_iff.mpr ⟨same ▸ keyed, same⟩⟩
  obtain ⟨i, index⟩ := Option.isSome_iff_exists.mp found
  exact ⟨_, removePod_of_found keyed index generation⟩

/-- `UsedPorts` is a set: of two stored pods binding the same triple, removing one releases the
triple, though the other still binds it. -/
theorem Accounts.removePod_releases_shared {n : NodeInfo} (accounts : n.Accounts isolation) {q q' : PodInfo}
    (stored : q ∈ n.pods) (other : q' ∈ n.pods) (distinct : q.pod.uid ≠ q'.pod.uid)
    {triple : String × ProtocolPort} (bound : triple ∈ podHostPorts q.pod) (shared : triple ∈ podHostPorts q'.pod)
    (generation : ℤ) :
    ∃ n', n.removePod isolation q.pod generation = some (n', none) ∧ q' ∈ n'.pods ∧ triple ∉ n'.usedPorts ∧
      triple ∈ (n'.recomputed isolation).usedPorts := by
  obtain ⟨n', removed, -, -, perm, released⟩ := accounts.removePod stored rfl rfl rfl generation
  have kept : q' ∈ n'.pods := by
    rcases List.mem_cons.mp (perm.subset other) with same | kept
    · exact absurd (congrArg (fun podInfo => podInfo.pod.uid) same).symm distinct
    · exact kept
  refine ⟨n', removed, kept, fun member => ?_, ?_⟩
  · rw [released] at member
    exact (Finset.mem_sdiff.mp member).2 bound
  · rw [(recomputes_recomputed n').usedPorts]
    exact mem_hostPortsOf.mpr ⟨q'.pod, List.mem_map_of_mem kept, shared⟩

end NodeInfo

end Kubernetes.Scheduler
