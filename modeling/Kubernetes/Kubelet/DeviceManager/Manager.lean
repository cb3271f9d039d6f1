import Mathlib.Data.Fintype.Prod
import Mathlib.Data.Finset.Card
import Mathlib.Data.Finset.Union
import Kubernetes.Library.Transition

/-! The kubelet's device manager (pkg/kubelet/cm/devicemanager/manager.go, pod_devices.go): the
devices plugins report, the devices marked in use, and what is recorded for each container.

Pods, containers, resources and device ids are finite types. A device's topology is the list of
its NUMA nodes (`none` for a nil `Topology`, also for a device the plugin did not list). What
`podDevices` records is the set of device ids of each pod, container and resource; the devices
by NUMA node and the allocation response are left out, since every response recorded is a
non-nil element of a gRPC list. The plugins are registered once for all: `endpoints` says which
resources have one and whether it offers `GetPreferredAllocation`. A call carries what the world
answers during it: the active pods, the topology hint, and each plugin RPC's outcome. Go's map
iteration is the parameter `iterate`, the order in which a set's devices are visited. -/

set_option autoImplicit false

namespace Kubernetes.Kubelet.DeviceManager

open Kubernetes.Library

/-- `podDevices.devs`. -/
abbrev PodDevices (ρ κ τ δ : Type) := ρ → κ → τ → Option (Finset δ)

structure ManagerImpl (ρ κ τ δ : Type) where
  healthyDevices : τ → Option (Finset δ)
  allDevices : τ → δ → Option (List ℕ)
  allocatedDevices : τ → Option (Finset δ)
  podDevices : PodDevices ρ κ τ δ
  /-- `devicesToReuse`; an absent entry reads as the empty set. -/
  devicesToReuse : ρ → τ → Finset δ
  pendingAdmissionPod : Option ρ

structure Pod (ρ κ : Type) where
  uid : ρ
  initContainers : List κ

structure Container (κ τ : Type) where
  name : κ
  /-- The extended-resource limits, in the map's iteration order. -/
  limits : List (τ × ℕ)

/-- The error `Allocate` returns, with what its message prints. -/
inductive AllocateError (ρ κ τ : Type) where
  | changedRequest (podUID : ρ) (contName : κ) (resource : τ) (before after : ℕ)
  | unregistered (resource : τ)
  | unavailable (resource : τ) (requested available : ℕ)
  | allocatedLess (requested got : ℕ)
  | endpointNotFound (resource : τ)
  | getPreferredAllocationFailed (message : String)
  | unknownDevicePlugin (resource : τ)
  /-- The plugin's `Allocate` RPC failed; its error is returned as it is. -/
  | allocateFailed (message : String)
  /-- "no containers return in allocation response" -/
  | noContainerResponses
  | checkpoint (message : String)
  deriving DecidableEq

/-- What the plugins answer during one `Allocate` call. -/
structure PluginResponses (τ δ : Type) where
  /-- The device ids of the first container response of `GetPreferredAllocation`. -/
  preferredAllocation : τ → Except String (Finset δ)
  /-- The number of container responses of `Allocate`. -/
  allocate : τ → Except String ℕ
  writeCheckpoint : Except String Unit

variable {ρ κ τ δ : Type} [DecidableEq ρ] [DecidableEq κ] [DecidableEq τ] [DecidableEq δ]

namespace PodDevices

def insert (pdev : PodDevices ρ κ τ δ) (podUID : ρ) (contName : κ) (resource : τ) (devices : Finset δ) :
    PodDevices ρ κ τ δ :=
  Function.update pdev podUID
    (Function.update (pdev podUID) contName (Function.update (pdev podUID contName) resource (some devices)))

def delete (pdev : PodDevices ρ κ τ δ) (pods : ρ → Bool) : PodDevices ρ κ τ δ :=
  fun podUID => if pods podUID then fun _ _ => none else pdev podUID

def containerDevices (pdev : PodDevices ρ κ τ δ) (podUID : ρ) (contName : κ) (resource : τ) : Option (Finset δ) :=
  pdev podUID contName resource

variable [Fintype ρ] [Fintype κ] [Fintype τ]

/-- The pods with a record. -/
def hasPod (pdev : PodDevices ρ κ τ δ) (podUID : ρ) : Bool :=
  decide (∃ contName resource, (pdev podUID contName resource).isSome)

/-- `devices`: by resource, the union of what is recorded; a resource with a record has an entry. -/
def devices (pdev : PodDevices ρ κ τ δ) (resource : τ) : Option (Finset δ) :=
  if ∃ podUID contName, (pdev podUID contName resource).isSome then
    some (Finset.univ.biUnion fun (container : ρ × κ) => (pdev container.1 container.2 resource).getD ∅)
  else none

end PodDevices

def addContainerAllocatedResources (pdev : PodDevices ρ κ τ δ) (podUID : ρ) (contName : κ)
    (allocatedResources : τ → Finset δ) : τ → Finset δ :=
  fun resource => allocatedResources resource ∪ (pdev podUID contName resource).getD ∅

def removeContainerAllocatedResources (pdev : PodDevices ρ κ τ δ) (podUID : ρ) (contName : κ)
    (allocatedResources : τ → Finset δ) : τ → Finset δ :=
  fun resource => allocatedResources resource \ (pdev podUID contName resource).getD ∅

variable [Fintype δ]

def genericDeviceUpdateCallback (m : ManagerImpl ρ κ τ δ) (resourceName : τ)
    (devices : List (δ × Bool × Option (List ℕ))) : ManagerImpl ρ κ τ δ :=
  { m with
    healthyDevices := Function.update m.healthyDevices resourceName
      (some ((devices.filter fun dev => dev.2.1).map Prod.fst).toFinset)
    allDevices := Function.update m.allDevices resourceName
      (devices.foldl (fun known dev => Function.update known dev.1 dev.2.2) fun _ => none) }

variable [Fintype ρ] [Fintype κ] [Fintype τ]

/-- `UpdateAllocatedDevices` with all sources ready: the records of pods neither active nor
being admitted are dropped, and the devices in use are rebuilt from the records left. -/
def updateAllocatedDevices (m : ManagerImpl ρ κ τ δ) (activePods : List ρ) : ManagerImpl ρ κ τ δ :=
  let activeAndAdmittedPods := activePods ++ m.pendingAdmissionPod.toList
  let podsToBeRemoved := fun podUID => m.podDevices.hasPod podUID && podUID ∉ activeAndAdmittedPods
  if ∀ podUID, podsToBeRemoved podUID = false then m
  else
    let podDevices := m.podDevices.delete podsToBeRemoved
    { m with podDevices := podDevices, allocatedDevices := podDevices.devices }

def isDevicePluginResource (m : ManagerImpl ρ κ τ δ) (resource : τ) : Bool :=
  (m.healthyDevices resource).isSome || (m.allocatedDevices resource).isSome

def deviceHasTopologyAlignment (m : ManagerImpl ρ κ τ δ) (resource : τ) : Bool :=
  decide (∃ device, (m.allDevices resource device).isSome)

/-- `filterByAffinity`: the available devices on a NUMA node of the hint, those only on other
nodes, and those without a node. The Go code sorts the nodes with the hint's first and the
node-less ones last and files a device under the first node that has it; only which of the three
groups that node is in matters, since the result is three sets. -/
def filterByAffinity (m : ManagerImpl ρ κ τ δ) (resource : τ) (hint : Option (List ℕ)) (available : Finset δ) :
    Finset δ × Finset δ × Finset δ :=
  match hint with
  | some affinity =>
    if deviceHasTopologyAlignment m resource then
      let nodes := fun device => (m.allDevices resource device).getD []
      (available.filter fun device => ∃ node ∈ nodes device, node ∈ affinity,
        available.filter fun device => nodes device ≠ [] ∧ ∀ node ∈ nodes device, node ∉ affinity,
        available.filter fun device => nodes device = [])
    else (∅, ∅, available)
  | none => (∅, ∅, available)

/-- The local state of `devicesToAllocate`: the resource's devices in use, the devices taken for
the container, and how many are still needed. -/
structure Picking (δ : Type) where
  inUse : Finset δ
  allocated : Finset δ
  needed : ℕ

/-- The loop of `allocateRemainingFrom` over the devices to visit; `true` once none is needed. -/
def takeDevices : List δ → Picking δ → Picking δ × Bool
  | [], picking => (picking, false)
  | device :: rest, picking =>
    let picking := ⟨insert device picking.inUse, insert device picking.allocated, picking.needed - 1⟩
    if picking.needed = 0 then (picking, true) else takeDevices rest picking

variable (iterate : Finset δ → List δ)

def allocateRemainingFrom (devices : Finset δ) (picking : Picking δ) : Picking δ × Bool :=
  takeDevices (iterate (devices \ picking.allocated)) picking

/-- `allocateRemainingFrom` on each set in turn, until one of them completes the request. -/
def allocateFromTiers : List (Finset δ) → Picking δ → Picking δ × Bool
  | [], picking => (picking, false)
  | devices :: rest, picking =>
    let taken := allocateRemainingFrom iterate devices picking
    if taken.2 then taken else allocateFromTiers rest taken.1

variable (endpoints : τ → Option Bool)

def callGetPreferredAllocationIfAvailable (resource : τ) (response : Except String (Finset δ)) :
    Except (AllocateError ρ κ τ) (Finset δ) :=
  match endpoints resource with
  | none => .error (.endpointNotFound resource)
  | some false => .ok ∅
  | some true =>
    match response with
    | .error message => .error (.getPreferredAllocationFailed message)
    | .ok preferred => .ok preferred

/-- The devices still to take once the pod's reusable devices did not suffice: from the aligned
ones with the plugin's preference when they suffice, else all aligned ones, then the preferred,
the unaligned and the node-less ones. -/
def pickAvailable (m : ManagerImpl ρ κ τ δ) (resource : τ) (required : ℕ) (hint : Option (List ℕ))
    (preferredResponse : Except String (Finset δ)) (healthy : Finset δ) (picking : Picking δ) :
    Picking δ × Except (AllocateError ρ κ τ) (Option (Finset δ)) :=
  let available := healthy \ picking.inUse
  let done := fun (taken : Picking δ × Bool) =>
    if taken.2 then (taken.1, .ok (some taken.1.allocated))
    else (taken.1, .error (.allocatedLess required (required - taken.1.needed)))
  if available.card < picking.needed then
    (picking, .error (.unavailable resource picking.needed available.card))
  else
    let filtered := filterByAffinity m resource hint available
    let aligned := filtered.1
    let unaligned := filtered.2.1
    let noAffinity := filtered.2.2
    if picking.needed < aligned.card then
      match callGetPreferredAllocationIfAvailable endpoints resource preferredResponse with
      | .error err => (picking, .error err)
      | .ok preferred => done (allocateFromTiers iterate [preferred ∩ aligned, aligned] picking)
    else
      let taken := allocateRemainingFrom iterate aligned picking
      if taken.2 then (taken.1, .ok (some taken.1.allocated))
      else
        match callGetPreferredAllocationIfAvailable endpoints resource preferredResponse with
        | .error err => (taken.1, .error err)
        | .ok preferred => done (allocateFromTiers iterate [preferred ∩ available, unaligned, noAffinity] taken.1)

/-- `devicesToAllocate` once the resource is known to be registered: the pod's reusable devices
first, then the available ones. -/
def pickDevices (m : ManagerImpl ρ κ τ δ) (resource : τ) (required : ℕ) (reusableDevices : Finset δ)
    (hint : Option (List ℕ)) (preferredResponse : Except String (Finset δ)) (healthy : Finset δ) :
    Picking δ × Except (AllocateError ρ κ τ) (Option (Finset δ)) :=
  let taken := allocateRemainingFrom iterate reusableDevices ⟨(m.allocatedDevices resource).getD ∅, ∅, required⟩
  if taken.2 then (taken.1, .ok (some taken.1.allocated))
  else pickAvailable iterate endpoints m resource required hint preferredResponse healthy taken.1

/-- `devicesToAllocate`: the devices to allocate (`none`: no `Allocate` RPC is needed). The
devices it takes are marked in use as it takes them, whatever it returns. -/
def devicesToAllocate (m : ManagerImpl ρ κ τ δ) (podUID : ρ) (contName : κ) (resource : τ) (required : ℕ)
    (reusableDevices : Finset δ) (hint : Option (List ℕ)) (preferredResponse : Except String (Finset δ)) :
    ManagerImpl ρ κ τ δ × Except (AllocateError ρ κ τ) (Option (Finset δ)) :=
  match m.podDevices.containerDevices podUID contName resource with
  | some devices =>
    if required ≠ devices.card then (m, .error (.changedRequest podUID contName resource devices.card required))
    else (m, .ok none)
  | none =>
    if required = 0 then (m, .ok none)
    else match m.healthyDevices resource with
      | none => (m, .error (.unregistered resource))
      | some healthy =>
        let picked := pickDevices iterate endpoints m resource required reusableDevices hint preferredResponse healthy
        ({ m with allocatedDevices := Function.update m.allocatedDevices resource (some picked.1.inUse) }, picked.2)

/-- `allocateContainerResources` from the resource `limits` onwards; it returns the state with
the error, since a failed call keeps what it changed. -/
def allocateContainerResources (pod : Pod ρ κ) (container : Container κ τ) (devicesToReuse : τ → Finset δ)
    (activePods : List ρ) (hint : Option (List ℕ)) (responses : PluginResponses τ δ) :
    List (τ × ℕ) → ManagerImpl ρ κ τ δ → Bool → Bool → ManagerImpl ρ κ τ δ × Option (AllocateError ρ κ τ)
  | [], m, _, needsUpdateCheckpoint =>
    if needsUpdateCheckpoint then
      match responses.writeCheckpoint with
      | .ok () => (m, none)
      | .error message => (m, some (.checkpoint message))
    else (m, none)
  | (resource, needed) :: limits, m, allocatedDevicesUpdated, needsUpdateCheckpoint =>
    let next := allocateContainerResources pod container devicesToReuse activePods hint responses limits
    if !isDevicePluginResource m resource then next m allocatedDevicesUpdated needsUpdateCheckpoint
    else
      -- stranded devices are collected once before the first device plugin resource
      let m := if allocatedDevicesUpdated then m else updateAllocatedDevices m activePods
      match devicesToAllocate iterate endpoints m pod.uid container.name resource needed (devicesToReuse resource)
          hint (responses.preferredAllocation resource) with
      | (m, .error err) => (m, some err)
      | (m, .ok none) => next m true needsUpdateCheckpoint
      | (m, .ok (some allocDevices)) =>
        if allocDevices = ∅ then next m true needsUpdateCheckpoint
        else
          let restored := { m with allocatedDevices := m.podDevices.devices }
          match endpoints resource with
          | none => (restored, some (.unknownDevicePlugin resource))
          | some _ =>
            match responses.allocate resource with
            | .error message => (restored, some (.allocateFailed message))
            | .ok 0 => (m, some .noContainerResponses)
            | .ok (_ + 1) =>
              next { m with podDevices := m.podDevices.insert pod.uid container.name resource allocDevices }
                true true

/-- `Allocate`: the pod becomes the one being admitted and the only one with reusable devices;
an init container's devices become reusable by the containers after it, an app container's
stop being. -/
def allocate (m : ManagerImpl ρ κ τ δ) (pod : Pod ρ κ) (container : Container κ τ) (activePods : List ρ)
    (hint : Option (List ℕ)) (responses : PluginResponses τ δ) : ManagerImpl ρ κ τ δ × Option (AllocateError ρ κ τ) :=
  let m := { m with
    pendingAdmissionPod := some pod.uid
    devicesToReuse := fun podUID => if podUID = pod.uid then m.devicesToReuse podUID else fun _ => ∅ }
  let allocated := allocateContainerResources iterate endpoints pod container (m.devicesToReuse pod.uid) activePods
    hint responses container.limits m false false
  match allocated with
  | (m, some err) => (m, some err)
  | (m, none) =>
    let reuse := if container.name ∈ pod.initContainers then addContainerAllocatedResources else
      removeContainerAllocatedResources
    let devicesToReuse := reuse m.podDevices pod.uid container.name (m.devicesToReuse pod.uid)
    ({ m with devicesToReuse := Function.update m.devicesToReuse pod.uid devicesToReuse }, none)

/-! ## Runs -/

inductive Call (ρ κ τ δ : Type) where
  | deviceUpdate (resourceName : τ) (devices : List (δ × Bool × Option (List ℕ)))
  | updateAllocatedDevices (activePods : List ρ)
  | allocate (pod : Pod ρ κ) (container : Container κ τ) (activePods : List ρ) (hint : Option (List ℕ))
      (responses : PluginResponses τ δ)

def ManagerImpl.step (m : ManagerImpl ρ κ τ δ) : Call ρ κ τ δ → ManagerImpl ρ κ τ δ
  | .deviceUpdate resourceName devices => genericDeviceUpdateCallback m resourceName devices
  | .updateAllocatedDevices activePods => updateAllocatedDevices m activePods
  | .allocate pod container activePods hint responses =>
    (allocate iterate endpoints m pod container activePods hint responses).1

/-- A new manager: nothing reported, in use, recorded or reusable. -/
def ManagerImpl.empty : ManagerImpl ρ κ τ δ :=
  ⟨fun _ => none, fun _ _ => none, fun _ => none, fun _ _ _ => none, fun _ _ => ∅, none⟩

def system : System (ManagerImpl ρ κ τ δ) (Call ρ κ τ δ) :=
  System.ofPartial (· = ManagerImpl.empty) fun m call => some (m.step iterate endpoints call)

end Kubernetes.Kubelet.DeviceManager
