import Mathlib.Data.Finset.Union
import Kubernetes.Library.FiniteMap
import Kubernetes.Library.Transition

/-! kube-proxy's service tracking (`pkg/proxy/service.go`): the informer's service events are
coalesced per service by the `ServiceChangeTracker` into a pair of service maps, the one the
proxy last applied and the one of the last version, and `ServiceMap.Update` applies the pending
pairs to the proxy's `ServiceMap`, reporting the cluster IPs of UDP ports that went away.

A Go map whose entries are only looked up is a `Finmap`; the tracker's items, which `apply`
visits in Go's unspecified order, are an `AList`, and `apply` takes the order it visits them
in. `reflect.DeepEqual` of two service maps is their equality: it would tell a nil map from an
empty one, which only keeps a change that applies nothing. A service port's cluster IP is the
string the service gives, which is what `net.IP.String` prints back for a valid address. The
fields of `BaseServiceInfo` that filter address lists by IP family (external IPs, load balancer
source ranges and ingress IPs) and the hints annotation are left out; nothing here reads them.
-/

set_option autoImplicit false

namespace Kubernetes.Proxy

open Kubernetes.Library

/-! ## The API objects -/

namespace V1

inductive Protocol where
  | TCP
  | UDP
  | SCTP
  deriving DecidableEq, Repr

inductive ServiceType where
  | ClusterIP
  | NodePort
  | LoadBalancer
  | ExternalName
  deriving DecidableEq, Repr

inductive ServiceAffinity where
  | None
  | ClientIP
  deriving DecidableEq, Repr

inductive TrafficPolicy where
  | Cluster
  | Local
  deriving DecidableEq, Repr

inductive IPFamily where
  | IPv4
  | IPv6
  deriving DecidableEq, Repr

structure ServicePort where
  name : String
  protocol : Protocol
  port : ℤ
  nodePort : ℤ
  deriving DecidableEq, Repr

structure Service where
  «namespace» : String
  name : String
  type : ServiceType
  clusterIP : String
  clusterIPs : List String
  ipFamilies : List IPFamily
  ports : List ServicePort
  sessionAffinity : ServiceAffinity
  /-- `SessionAffinityConfig.ClientIP.TimeoutSeconds`, which the API server sets when the
  affinity is `ClientIP`. -/
  timeoutSeconds : ℤ
  externalTrafficPolicy : TrafficPolicy
  internalTrafficPolicy : Option TrafficPolicy
  healthCheckNodePort : ℤ
  deriving DecidableEq, Repr

end V1

open V1

structure NamespacedName where
  «namespace» : String
  name : String
  deriving DecidableEq, Repr

def V1.Service.namespacedName (service : Service) : NamespacedName := ⟨service.«namespace», service.name⟩

structure ServicePortName where
  namespacedName : NamespacedName
  port : String
  protocol : Protocol
  deriving DecidableEq, Repr

/-- The `ServicePort` interface, as far as the change tracking reads it. -/
class ServicePort (P : Type) where
  clusterIP : P → String
  protocol : P → Protocol

structure BaseServiceInfo where
  clusterIP : String
  port : ℤ
  protocol : Protocol
  nodePort : ℤ
  sessionAffinityType : ServiceAffinity
  stickyMaxAgeSeconds : ℤ
  healthCheckNodePort : ℤ
  externalPolicyLocal : Bool
  internalPolicyLocal : Bool
  internalTrafficPolicy : Option TrafficPolicy
  deriving DecidableEq, Repr

instance : ServicePort BaseServiceInfo := ⟨BaseServiceInfo.clusterIP, BaseServiceInfo.protocol⟩

/-! ## Service helpers -/

def isServiceIPSet (service : Service) : Bool :=
  service.clusterIP != "None" && service.clusterIP != ""

/-- `utilproxy.ShouldSkipService`: no cluster IP, or an ExternalName service. -/
def shouldSkipService (service : Service) : Bool :=
  !isServiceIPSet service || service.type == .ExternalName

/-- `netutils.IsIPv6String` on an address the API server validated: IPv6 addresses are the
ones written with colons. -/
def isIPv6String (ip : String) : Bool := ip.toList.contains ':'

/-- The loop of `GetClusterIPByFamily` over `IPFamilies` and `ClusterIPs` side by side: the
cluster IP at the first index of the family, if there is one. -/
def clusterIPOfFamily (ipFamily : IPFamily) : List IPFamily → List String → String
  | [], _ => ""
  | _ :: families, [] => clusterIPOfFamily ipFamily families []
  | family :: families, clusterIP :: clusterIPs =>
    if family = ipFamily then clusterIP else clusterIPOfFamily ipFamily families clusterIPs

def getClusterIPByFamily (ipFamily : IPFamily) (service : Service) : String :=
  if service.ipFamilies = [] then
    if service.clusterIP = "" ∨ service.clusterIP = "None" then ""
    else if (ipFamily == .IPv6) == isIPv6String service.clusterIP then service.clusterIP
    else ""
  else clusterIPOfFamily ipFamily service.ipFamilies service.clusterIPs

def externalPolicyLocal (service : Service) : Bool :=
  (service.type == .LoadBalancer || service.type == .NodePort) &&
    service.externalTrafficPolicy == .Local

def internalPolicyLocal (service : Service) : Bool := service.internalTrafficPolicy == some .Local

def needsHealthCheck (service : Service) : Bool :=
  service.type == .LoadBalancer && externalPolicyLocal service

/-! ## The change tracker -/

/-- `ServiceMap`: the service ports the proxy programs, by name. -/
abbrev ServiceMap (P : Type) := Finmap fun _ : ServicePortName => P

/-- What a `ServiceChangeTracker` is built with: its IP family, the proxier's
`makeServiceInfo` (the identity on `BaseServiceInfo` where the proxier gives none) and the
`ServiceInternalTrafficPolicy` gate. -/
structure TrackerConfig (P : Type) where
  ipFamily : IPFamily
  makeServiceInfo : V1.ServicePort → Service → BaseServiceInfo → P
  serviceInternalTrafficPolicy : Bool

structure ServiceChange (P : Type) where
  previous : ServiceMap P
  current : ServiceMap P
  deriving DecidableEq

structure ServiceChangeTracker (P : Type) where
  items : AList fun _ : NamespacedName => ServiceChange P

section Tracker

variable {P : Type} (sct : TrackerConfig P)

def newBaseServiceInfo (port : V1.ServicePort) (service : Service) : BaseServiceInfo :=
  { clusterIP := getClusterIPByFamily sct.ipFamily service
    port := port.port
    protocol := port.protocol
    nodePort := port.nodePort
    sessionAffinityType := service.sessionAffinity
    stickyMaxAgeSeconds := if service.sessionAffinity = .ClientIP then service.timeoutSeconds else 0
    -- a service that needs a health check but has no health check node port keeps 0
    healthCheckNodePort := if needsHealthCheck service then service.healthCheckNodePort else 0
    externalPolicyLocal := externalPolicyLocal service
    internalPolicyLocal := sct.serviceInternalTrafficPolicy && internalPolicyLocal service
    internalTrafficPolicy := service.internalTrafficPolicy }

/-- `serviceToServiceMap`: one entry per port, a later port of the same name and protocol
replacing an earlier one; nothing for a missing or skipped service or one without a cluster IP
of the tracker's family. -/
def serviceToServiceMap : Option Service → ServiceMap P
  | none => ∅
  | some service =>
    if shouldSkipService service then ∅
    else if getClusterIPByFamily sct.ipFamily service = "" then ∅
    else
      service.ports.foldl (fun serviceMap servicePort =>
        serviceMap.insert ⟨service.namespacedName, servicePort.name, servicePort.protocol⟩
          (sct.makeServiceInfo servicePort service (newBaseServiceInfo sct servicePort service))) ∅

variable [DecidableEq P]

/-- `ServiceChangeTracker.Update`: the change of the service keeps the map it started from
and takes the map of `current`; a change that ends where it started is dropped. Returns
whether changes are pending. -/
def ServiceChangeTracker.update (tracker : ServiceChangeTracker P) (previous current : Option Service) :
    ServiceChangeTracker P × Bool :=
  match current.or previous with
  | none => (tracker, false)
  | some svc =>
    let namespacedName := svc.namespacedName
    let change : ServiceChange P :=
      match tracker.items.lookup namespacedName with
      | some change => change
      | none => { previous := serviceToServiceMap sct previous, current := ∅ }
    let change := { change with current := serviceToServiceMap sct current }
    let items :=
      if change.previous = change.current then tracker.items.erase namespacedName
      else tracker.items.insert namespacedName change
    (⟨items⟩, !items.entries.isEmpty)

end Tracker

/-! ## Applying the changes -/

section Apply

variable {P : Type} [ServicePort P]

/-- `ServiceMap.merge`: every entry of `other` is written into the map. -/
def ServiceMap.merge (sm other : ServiceMap P) : ServiceMap P := other ∪ sm

/-- `ServiceMap.filter`: the entries whose key `other` has are deleted. -/
def ServiceMap.filter (sm other : ServiceMap P) : ServiceMap P := sm \ other

/-- The cluster IP `unmerge` reports for a port it deletes: a UDP port's. -/
def udpClusterIP : Option P → Finset String
  | some info => if ServicePort.protocol info = .UDP then {ServicePort.clusterIP info} else ∅
  | none => ∅

@[simp] theorem mem_udpClusterIP (ip : String) (before : Option P) :
    ip ∈ udpClusterIP before ↔
      ∃ info, before = some info ∧ ServicePort.protocol info = .UDP ∧ ServicePort.clusterIP info = ip := by
  cases before with
  | none => simp [udpClusterIP]
  | some info =>
    by_cases udp : ServicePort.protocol info = .UDP
    · simp [udpClusterIP, udp, eq_comm]
    · simp [udpClusterIP, udp]

/-- `ServiceMap.unmerge`: the keys of `other` are deleted, and the cluster IPs of the UDP
ports among them are added to the stale set. -/
def ServiceMap.unmerge (sm other : ServiceMap P) (UDPStaleClusterIP : Finset String) :
    ServiceMap P × Finset String :=
  (sm \ other, UDPStaleClusterIP ∪ other.keys.biUnion fun svcPortName => udpClusterIP (sm.lookup svcPortName))

/-- One pending change applied: its current map merged in, then the ports only its previous
map has unmerged. -/
def ServiceMap.applyChange (state : ServiceMap P × Finset String) (change : ServiceChange P) :
    ServiceMap P × Finset String :=
  let sm := state.1.merge change.current
  let previous := change.previous.filter change.current
  sm.unmerge previous state.2

/-- `ServiceMap.apply`, visiting the changes in the order given. -/
def ServiceMap.apply (sm : ServiceMap P) (changes : List (Σ _ : NamespacedName, ServiceChange P))
    (UDPStaleClusterIP : Finset String) : ServiceMap P × Finset String :=
  changes.foldl (fun state change => ServiceMap.applyChange state change.2) (sm, UDPStaleClusterIP)

/-- `ServiceMap.Update`: the map after the changes, and `UDPStaleClusterIP`. -/
def ServiceMap.update (sm : ServiceMap P) (changes : List (Σ _ : NamespacedName, ServiceChange P)) :
    ServiceMap P × Finset String :=
  sm.apply changes ∅

end Apply

/-! ## Lookups through a sync -/

section Lookups

variable {P : Type}

/-- The keys of a map all name ports of one service. -/
def Owned (namespacedName : NamespacedName) (sm : ServiceMap P) : Prop :=
  ∀ svcPortName ∈ sm, svcPortName.namespacedName = namespacedName

theorem owned_serviceToServiceMap (sct : TrackerConfig P) {namespacedName : NamespacedName}
    {service : Option Service} (named : ∀ svc ∈ service, svc.namespacedName = namespacedName) :
    Owned namespacedName (serviceToServiceMap sct service) := by
  intro svcPortName member
  cases service with
  | none => exact absurd member (Finmap.notMem_empty)
  | some svc =>
    simp only [serviceToServiceMap] at member
    split_ifs at member
    · exact absurd member (Finmap.notMem_empty)
    · exact absurd member (Finmap.notMem_empty)
    · -- every port of the service is keyed by the service's name
      obtain (empty | ⟨port, _, keyed⟩) := (mem_foldl_insert _ _ _ _ _).mp member
      · exact absurd empty (Finmap.notMem_empty)
      · rw [← keyed]
        exact named svc rfl

/-- What a change leaves at a key: the current map's entry, nothing for a key only the
previous map has, and the entry before for any other key. -/
def ServiceChange.lookupAfter (change : ServiceChange P) (before : Option P)
    (svcPortName : ServicePortName) : Option P :=
  if svcPortName ∈ change.current then change.current.lookup svcPortName
  else if svcPortName ∈ change.previous then none
  else before

theorem lookupAfter_previous (change : ServiceChange P) (svcPortName : ServicePortName) :
    change.lookupAfter (change.previous.lookup svcPortName) svcPortName =
      change.current.lookup svcPortName := by
  unfold ServiceChange.lookupAfter
  split_ifs with current previous
  · rfl
  · rw [Finmap.lookup_eq_none.mpr current]
  · rw [Finmap.lookup_eq_none.mpr previous, Finmap.lookup_eq_none.mpr current]

theorem lookupAfter_of_notMem {change : ServiceChange P} {svcPortName : ServicePortName}
    (notPrevious : svcPortName ∉ change.previous) (notCurrent : svcPortName ∉ change.current)
    (before : Option P) : change.lookupAfter before svcPortName = before := by
  simp [ServiceChange.lookupAfter, notPrevious, notCurrent]

section Fold

variable (changes : List (Σ _ : NamespacedName, ServiceChange P))

/-- The changes of a sync: one per service, each keyed by ports of its own service. -/
structure Separate : Prop where
  nodupKeys : changes.NodupKeys
  owned : ∀ change ∈ changes, Owned change.1 change.2.previous ∧ Owned change.1 change.2.current

theorem Separate.tail {change : Σ _ : NamespacedName, ServiceChange P}
    {changes : List (Σ _ : NamespacedName, ServiceChange P)} (separate : Separate (change :: changes)) :
    Separate changes where
  nodupKeys := (List.nodupKeys_cons.mp separate.nodupKeys).2
  owned := fun other member => separate.owned other (List.mem_cons_of_mem _ member)

theorem Separate.lookupAfter_other {change : Σ _ : NamespacedName, ServiceChange P}
    {changes : List (Σ _ : NamespacedName, ServiceChange P)} (separate : Separate (change :: changes))
    {svcPortName : ServicePortName} (other : svcPortName.namespacedName ≠ change.1) (before : Option P) :
    change.2.lookupAfter before svcPortName = before := by
  obtain ⟨previous, current⟩ := separate.owned change List.mem_cons_self
  exact lookupAfter_of_notMem (fun member => other (previous _ member))
    (fun member => other (current _ member)) before

variable [ServicePort P]

theorem lookup_applyChange (state : ServiceMap P × Finset String) (change : ServiceChange P)
    (svcPortName : ServicePortName) :
    (ServiceMap.applyChange state change).1.lookup svcPortName =
      change.lookupAfter (state.1.lookup svcPortName) svcPortName := by
  simp only [ServiceMap.applyChange, ServiceMap.merge, ServiceMap.filter, ServiceMap.unmerge,
    ServiceChange.lookupAfter, lookup_sdiff, mem_sdiff, lookup_union_eq_or]
  by_cases current : svcPortName ∈ change.current
  · obtain ⟨info, found⟩ := Finmap.mem_iff.mp current
    simp [current, found]
  · simp [current, Finmap.lookup_eq_none.mpr current]

theorem mem_applyChange_stale (state : ServiceMap P × Finset String) (change : ServiceChange P)
    (ip : String) :
    ip ∈ (ServiceMap.applyChange state change).2 ↔ ip ∈ state.2 ∨
      ∃ svcPortName ∈ change.previous, svcPortName ∉ change.current ∧
        ip ∈ udpClusterIP (state.1.lookup svcPortName) := by
  simp only [ServiceMap.applyChange, ServiceMap.merge, ServiceMap.filter, ServiceMap.unmerge,
    Finset.mem_union, Finset.mem_biUnion, Finmap.mem_keys, mem_sdiff]
  -- a port only the previous map has was not written by the merge
  constructor
  · rintro (stale | ⟨svcPortName, ⟨previous, notCurrent⟩, udp⟩)
    · exact Or.inl stale
    · rw [Finmap.lookup_union_right notCurrent] at udp
      exact Or.inr ⟨svcPortName, previous, notCurrent, udp⟩
  · rintro (stale | ⟨svcPortName, previous, notCurrent, udp⟩)
    · exact Or.inl stale
    · rw [← Finmap.lookup_union_right notCurrent] at udp
      exact Or.inr ⟨svcPortName, ⟨previous, notCurrent⟩, udp⟩

theorem lookup_foldl_applyChange (separate : Separate changes) (state : ServiceMap P × Finset String)
    (svcPortName : ServicePortName) :
    (changes.foldl (fun state change => ServiceMap.applyChange state change.2) state).1.lookup svcPortName =
      match changes.dlookup svcPortName.namespacedName with
      | some change => change.lookupAfter (state.1.lookup svcPortName) svcPortName
      | none => state.1.lookup svcPortName := by
  induction changes generalizing state with
  | nil => rfl
  | cons change rest ih =>
    rw [List.foldl_cons, ih separate.tail, lookup_applyChange]
    by_cases same : svcPortName.namespacedName = change.1
    · -- the change is the only one of its service
      have absent : rest.dlookup svcPortName.namespacedName = none := by
        rw [List.dlookup_eq_none, same]
        exact (List.nodupKeys_cons.mp separate.nodupKeys).1
      obtain ⟨name, change⟩ := change
      dsimp only at same
      subst same
      rw [absent, List.dlookup_cons_eq]
    · rw [separate.lookupAfter_other same, List.dlookup_cons_ne _ _ same]

theorem mem_foldl_applyChange_stale (separate : Separate changes) (state : ServiceMap P × Finset String)
    (ip : String) :
    ip ∈ (changes.foldl (fun state change => ServiceMap.applyChange state change.2) state).2 ↔
      ip ∈ state.2 ∨ ∃ change ∈ changes, ∃ svcPortName ∈ change.2.previous,
        svcPortName ∉ change.2.current ∧ ip ∈ udpClusterIP (state.1.lookup svcPortName) := by
  induction changes generalizing state with
  | nil => simp
  | cons change rest ih =>
    rw [List.foldl_cons, ih separate.tail, mem_applyChange_stale]
    -- the later changes read ports the first change did not touch
    have untouched : ∀ other ∈ rest, ∀ svcPortName ∈ other.2.previous,
        (ServiceMap.applyChange state change.2).1.lookup svcPortName = state.1.lookup svcPortName := by
      intro other member svcPortName previous
      rw [lookup_applyChange]
      apply separate.lookupAfter_other
      rw [(separate.tail.owned other member).1 svcPortName previous]
      intro same
      exact (List.nodupKeys_cons.mp separate.nodupKeys).1 (same ▸ List.mem_keys_of_mem member)
    constructor
    · rintro ((stale | first) | ⟨other, member, svcPortName, previous, notCurrent, udp⟩)
      · exact Or.inl stale
      · exact Or.inr ⟨change, List.mem_cons_self, first⟩
      · rw [untouched other member svcPortName previous] at udp
        exact Or.inr ⟨other, List.mem_cons_of_mem _ member, svcPortName, previous, notCurrent, udp⟩
    · rintro (stale | ⟨other, member, svcPortName, previous, notCurrent, udp⟩)
      · exact Or.inl (Or.inl stale)
      · rcases List.mem_cons.mp member with same | member
        · subst same
          exact Or.inl (Or.inr ⟨svcPortName, previous, notCurrent, udp⟩)
        · rw [← untouched other member svcPortName previous] at udp
          exact Or.inr ⟨other, member, svcPortName, previous, notCurrent, udp⟩

end Fold

end Lookups

/-! ## The proxy and its informer -/

structure State (P : Type) where
  /-- The last version the informer delivered of each live service. -/
  services : Finmap fun _ : NamespacedName => Service
  tracker : ServiceChangeTracker P
  serviceMap : ServiceMap P

inductive Event (P : Type) where
  /-- The informer's handlers call `ServiceChangeTracker.Update`. -/
  | serviceUpdate (previous current : Option Service)
  /-- The proxier's sync calls `ServiceMap.Update`, which visits the pending changes in `order`. -/
  | sync (order : List (Σ _ : NamespacedName, ServiceChange P))

/-- The informer's cache once it delivered an event. -/
def deliver (services : Finmap fun _ : NamespacedName => Service) (previous current : Option Service) :
    Finmap fun _ : NamespacedName => Service :=
  match current, previous with
  | some current, _ => services.insert current.namespacedName current
  | none, some previous => services.erase previous.namespacedName
  | none, none => services

/-- The informer delivers the versions of a service in order: `previous` is the version it
delivered last, none for an add, and a delete is of a live service. -/
def InformerConsistent (services : Finmap fun _ : NamespacedName => Service)
    (previous current : Option Service) : Prop :=
  match current, previous with
  | some current, previous => services.lookup current.namespacedName = previous
  | none, some previous => services.lookup previous.namespacedName = some previous
  | none, none => True

section System

variable {P : Type} (sct : TrackerConfig P)

def State.Admissible (s : State P) : Event P → Prop
  | .serviceUpdate previous current => InformerConsistent s.services previous current
  | .sync order => order.Perm s.tracker.items.entries

def State.step [ServicePort P] [DecidableEq P] (s : State P) : Event P → State P
  | .serviceUpdate previous current =>
    { s with
      services := deliver s.services previous current
      tracker := (s.tracker.update sct previous current).1 }
  | .sync order => { s with tracker := ⟨∅⟩, serviceMap := (s.serviceMap.update order).1 }

def State.initial : State P := ⟨∅, ⟨∅⟩, ∅⟩

def system [ServicePort P] [DecidableEq P] : System (State P) (Event P) :=
  System.ofStep State.initial State.Admissible (State.step sct)

theorem InformerConsistent.lookup_eq {services : Finmap fun _ : NamespacedName => Service}
    {previous current : Option Service} (consistent : InformerConsistent services previous current)
    {svc : Service} (delivered : current.or previous = some svc) :
    services.lookup svc.namespacedName = previous := by
  cases current with
  | some current =>
    cases delivered
    exact consistent
  | none =>
    cases previous with
    | none => cases delivered
    | some previous =>
      cases delivered
      exact consistent

theorem lookup_deliver (services : Finmap fun _ : NamespacedName => Service)
    {previous current : Option Service} {svc : Service} (delivered : current.or previous = some svc)
    (namespacedName : NamespacedName) :
    (deliver services previous current).lookup namespacedName =
      if namespacedName = svc.namespacedName then current else services.lookup namespacedName := by
  cases current with
  | some current =>
    cases delivered
    by_cases same : namespacedName = svc.namespacedName
    · subst same
      simp [deliver]
    · simp [deliver, same, Finmap.lookup_insert_of_ne _ same]
  | none =>
    cases previous with
    | none => cases delivered
    | some previous =>
      cases delivered
      by_cases same : namespacedName = svc.namespacedName
      · subst same
        simp [deliver]
      · simp [deliver, same, Finmap.lookup_erase_ne same]

/-- The map a service's change starts from: the pending change's, or the map of `previous`. -/
def ServiceChangeTracker.startingMap (tracker : ServiceChangeTracker P) (namespacedName : NamespacedName)
    (previous : Option Service) : ServiceMap P :=
  match tracker.items.lookup namespacedName with
  | some change => change.previous
  | none => serviceToServiceMap sct previous

theorem lookup_update_items [DecidableEq P] (tracker : ServiceChangeTracker P)
    {previous current : Option Service} {svc : Service} (delivered : current.or previous = some svc)
    (namespacedName : NamespacedName) :
    (tracker.update sct previous current).1.items.lookup namespacedName =
      if namespacedName = svc.namespacedName then
        (if tracker.startingMap sct svc.namespacedName previous = serviceToServiceMap sct current then none
        else some ⟨tracker.startingMap sct svc.namespacedName previous, serviceToServiceMap sct current⟩)
      else tracker.items.lookup namespacedName := by
  simp only [ServiceChangeTracker.update, ServiceChangeTracker.startingMap, delivered]
  by_cases same : namespacedName = svc.namespacedName
  · subst same
    rcases Option.eq_none_or_eq_some (tracker.items.lookup svc.namespacedName) with found | ⟨pending, found⟩ <;>
      simp only [found] <;> split_ifs <;> simp [AList.lookup_erase, AList.lookup_insert]
  · split_ifs <;> simp [AList.lookup_erase_ne same, AList.lookup_insert_ne same]

/-- The proxy's state while changes are pending: each pending change goes from the map the
proxy applied to the map of the service's last version, and the ports of a service without
a pending change are as its last version gives them. -/
structure Tracked (s : State P) : Prop where
  named : ∀ namespacedName service, s.services.lookup namespacedName = some service →
    service.namespacedName = namespacedName
  current_eq : ∀ namespacedName change, s.tracker.items.lookup namespacedName = some change →
    change.current = serviceToServiceMap sct (s.services.lookup namespacedName)
  previous_owned : ∀ namespacedName change, s.tracker.items.lookup namespacedName = some change →
    Owned namespacedName change.previous
  serviceMap_eq : ∀ svcPortName, s.serviceMap.lookup svcPortName =
    match s.tracker.items.lookup svcPortName.namespacedName with
    | some change => change.previous.lookup svcPortName
    | none => (serviceToServiceMap sct (s.services.lookup svcPortName.namespacedName)).lookup svcPortName

variable {sct}

theorem tracked_initial : Tracked sct (State.initial : State P) where
  named := by simp [State.initial]
  current_eq := by simp [State.initial]
  previous_owned := by simp [State.initial]
  serviceMap_eq := by simp [State.initial, serviceToServiceMap]

variable {s : State P}

theorem Tracked.owned_latest (tracked : Tracked sct s) (namespacedName : NamespacedName) :
    Owned namespacedName (serviceToServiceMap sct (s.services.lookup namespacedName)) :=
  owned_serviceToServiceMap sct fun svc found => tracked.named namespacedName svc found

theorem Tracked.separate (tracked : Tracked sct s) {order : List (Σ _ : NamespacedName, ServiceChange P)}
    (perm : order.Perm s.tracker.items.entries) : Separate order where
  nodupKeys := (List.perm_nodupKeys perm).mpr s.tracker.items.nodupKeys
  owned := by
    intro change member
    have found : s.tracker.items.lookup change.1 = some change.2 :=
      AList.mem_lookup_iff.mpr (perm.mem_iff.mp member)
    refine ⟨tracked.previous_owned _ _ found, ?_⟩
    rw [tracked.current_eq _ _ found]
    exact tracked.owned_latest change.1

theorem Tracked.lookup_startingMap (tracked : Tracked sct s) {previous current : Option Service}
    (consistent : InformerConsistent s.services previous current) {svc : Service}
    (delivered : current.or previous = some svc) {svcPortName : ServicePortName}
    (own : svcPortName.namespacedName = svc.namespacedName) :
    s.serviceMap.lookup svcPortName = (s.tracker.startingMap sct svc.namespacedName previous).lookup svcPortName := by
  have before := tracked.serviceMap_eq svcPortName
  rw [own] at before
  unfold ServiceChangeTracker.startingMap
  cases pending : s.tracker.items.lookup svc.namespacedName with
  | none =>
    rw [pending, consistent.lookup_eq delivered] at before
    exact before
  | some change =>
    rw [pending] at before
    exact before

theorem Tracked.owned_startingMap (tracked : Tracked sct s) {previous current : Option Service}
    (consistent : InformerConsistent s.services previous current) {svc : Service}
    (delivered : current.or previous = some svc) :
    Owned svc.namespacedName (s.tracker.startingMap sct svc.namespacedName previous) := by
  unfold ServiceChangeTracker.startingMap
  cases pending : s.tracker.items.lookup svc.namespacedName with
  | none =>
    have latest := tracked.owned_latest svc.namespacedName
    rw [consistent.lookup_eq delivered] at latest
    exact latest
  | some change => exact tracked.previous_owned _ _ pending

theorem Tracked.serviceUpdate [ServicePort P] [DecidableEq P] (tracked : Tracked sct s)
    {previous current : Option Service} (consistent : InformerConsistent s.services previous current) :
    Tracked sct (s.step sct (.serviceUpdate previous current)) := by
  rcases delivered : current.or previous with _ | svc
  · -- a call with neither version changes nothing
    obtain ⟨rfl, rfl⟩ : current = none ∧ previous = none := by
      cases current <;> cases previous <;> simp_all
    simpa [State.step, deliver, ServiceChangeTracker.update] using tracked
  · have services := lookup_deliver s.services delivered
    have items := lookup_update_items sct s.tracker delivered
    constructor
    · intro namespacedName service found
      rw [State.step, services] at found
      split_ifs at found with same
      · -- the delivered version is `current`, which is `svc`
        subst found
        rw [same]
        simp [Option.or] at delivered
        rw [delivered]
      · exact tracked.named _ _ found
    · intro namespacedName change found
      simp only [State.step] at found ⊢
      rw [items] at found
      rw [services]
      split_ifs at found ⊢ with same
      · cases found
        rfl
      · exact tracked.current_eq _ _ found
    · intro namespacedName change found
      simp only [State.step] at found
      rw [items] at found
      split_ifs at found with same
      · cases found
        rw [same]
        exact tracked.owned_startingMap consistent delivered
      · exact tracked.previous_owned _ _ found
    · intro svcPortName
      simp only [State.step]
      rw [items, services]
      by_cases own : svcPortName.namespacedName = svc.namespacedName
      · -- the proxy's map still has the map the change starts from
        have start := tracked.lookup_startingMap consistent delivered own
        simp only [own, if_true]
        split_ifs with agree
        · rw [start, agree]
        · exact start
      · simp only [own, if_false]
        exact tracked.serviceMap_eq svcPortName

variable [ServicePort P]

theorem Tracked.lookup_update (tracked : Tracked sct s) {order : List (Σ _ : NamespacedName, ServiceChange P)}
    (perm : order.Perm s.tracker.items.entries) (svcPortName : ServicePortName) :
    (s.serviceMap.update order).1.lookup svcPortName =
      (serviceToServiceMap sct (s.services.lookup svcPortName.namespacedName)).lookup svcPortName := by
  have before := tracked.serviceMap_eq svcPortName
  have entries : s.tracker.items.entries.dlookup svcPortName.namespacedName =
      s.tracker.items.lookup svcPortName.namespacedName := rfl
  rw [ServiceMap.update, ServiceMap.apply, lookup_foldl_applyChange order (tracked.separate perm),
    List.perm_dlookup _ (tracked.separate perm).nodupKeys perm, entries]
  cases pending : s.tracker.items.lookup svcPortName.namespacedName with
  | none =>
    rw [pending] at before
    exact before
  | some change =>
    rw [pending] at before
    dsimp only at before ⊢
    rw [before, lookupAfter_previous, tracked.current_eq _ _ pending]

theorem Tracked.mem_update_stale (tracked : Tracked sct s)
    {order : List (Σ _ : NamespacedName, ServiceChange P)} (perm : order.Perm s.tracker.items.entries)
    (ip : String) :
    ip ∈ (s.serviceMap.update order).2 ↔ ∃ svcPortName info, s.serviceMap.lookup svcPortName = some info ∧
      ServicePort.protocol info = .UDP ∧ ServicePort.clusterIP info = ip ∧
        (s.serviceMap.update order).1.lookup svcPortName = none := by
  have separate := tracked.separate perm
  rw [ServiceMap.update, ServiceMap.apply, mem_foldl_applyChange_stale order separate]
  simp only [Finset.notMem_empty, false_or, mem_udpClusterIP]
  constructor
  · rintro ⟨change, member, svcPortName, previous, notCurrent, info, found, udp, addressed⟩
    refine ⟨svcPortName, info, found, udp, addressed, ?_⟩
    have owner := (separate.owned change member).1 svcPortName previous
    rw [lookup_foldl_applyChange order separate, owner, List.mem_dlookup separate.nodupKeys member]
    simp [ServiceChange.lookupAfter, notCurrent, previous]
  · rintro ⟨svcPortName, info, found, udp, addressed, gone⟩
    have before := tracked.serviceMap_eq svcPortName
    have entries : s.tracker.items.entries.dlookup svcPortName.namespacedName =
        s.tracker.items.lookup svcPortName.namespacedName := rfl
    rw [lookup_foldl_applyChange order separate, List.perm_dlookup _ separate.nodupKeys perm,
      entries] at gone
    cases pending : s.tracker.items.lookup svcPortName.namespacedName with
    | none =>
      rw [pending] at gone
      dsimp only at gone
      rw [found] at gone
      cases gone
    | some change =>
      rw [pending] at gone before
      dsimp only at gone before
      have previousFound : change.previous.lookup svcPortName = some info := by
        rw [← before]
        exact found
      rw [before, lookupAfter_previous] at gone
      have member : (⟨svcPortName.namespacedName, change⟩ : Σ _ : NamespacedName, ServiceChange P) ∈ order :=
        perm.mem_iff.mpr (AList.mem_lookup_iff.mp pending)
      exact ⟨_, member, svcPortName, Finmap.mem_of_lookup_eq_some previousFound,
        Finmap.lookup_eq_none.mp gone, info, found, udp, addressed⟩

theorem Tracked.sync [DecidableEq P] (tracked : Tracked sct s)
    {order : List (Σ _ : NamespacedName, ServiceChange P)} (perm : order.Perm s.tracker.items.entries) :
    Tracked sct (s.step sct (.sync order)) where
  named := tracked.named
  current_eq := by simp [State.step]
  previous_owned := by simp [State.step]
  serviceMap_eq := by
    intro svcPortName
    simp only [State.step, AList.lookup_empty]
    exact tracked.lookup_update perm svcPortName

theorem Tracked.step [DecidableEq P] (tracked : Tracked sct s) {input : Event P}
    (admitted : s.Admissible input) : Tracked sct (s.step sct input) := by
  cases input with
  | serviceUpdate previous current => exact tracked.serviceUpdate admitted
  | sync order => exact tracked.sync admitted

theorem tracked_invariant [DecidableEq P] : (system sct).Invariant (Tracked sct) :=
  System.Inductive.invariant
    { init := fun _ initial => initial ▸ tracked_initial
      step := fun _ _ _ tracked ⟨admitted, next⟩ => next ▸ tracked.step admitted }

/-- After every `ServiceMap.Update`, whatever events the informer delivered in order and
whatever syncs came before, each service port maps to what the last version of its live
service gives it, which is the union of the maps of the live services, and the reported
cluster IPs are exactly those of the UDP ports the map had before the sync and has no more. -/
theorem service_map_update_refines_recomputation [DecidableEq P] (sct : TrackerConfig P) {s : State P}
    (reachable : (system sct).Reachable s) {order : List (Σ _ : NamespacedName, ServiceChange P)}
    (perm : order.Perm s.tracker.items.entries) :
    let result := s.serviceMap.update order
    (∀ svcPortName, result.1.lookup svcPortName =
        (serviceToServiceMap sct (s.services.lookup svcPortName.namespacedName)).lookup svcPortName) ∧
      ∀ ip, ip ∈ result.2 ↔ ∃ svcPortName info, s.serviceMap.lookup svcPortName = some info ∧
        ServicePort.protocol info = .UDP ∧ ServicePort.clusterIP info = ip ∧
          result.1.lookup svcPortName = none := by
  have tracked := tracked_invariant s reachable
  exact ⟨tracked.lookup_update perm, tracked.mem_update_stale perm⟩

end System

namespace Runs

/-- An IPv4 proxy without service info of its own. -/
def baseTracker : TrackerConfig BaseServiceInfo := ⟨.IPv4, fun _ _ base => base, false⟩

def dnsService : Service where
  «namespace» := "kube-system"
  name := "kube-dns"
  type := .ClusterIP
  clusterIP := "10.96.0.10"
  clusterIPs := ["10.96.0.10"]
  ipFamilies := [.IPv4]
  ports := [⟨"dns", .UDP, 53, 0⟩, ⟨"dns-tcp", .TCP, 53, 0⟩]
  sessionAffinity := .None
  timeoutSeconds := 0
  externalTrafficPolicy := .Cluster
  internalTrafficPolicy := none
  healthCheckNodePort := 0

def added : State BaseServiceInfo :=
  State.initial.step baseTracker (.serviceUpdate none (some dnsService))

/-- The DNS service is added, synced, and deleted. -/
def deleted : State BaseServiceInfo :=
  System.run (State.step baseTracker) State.initial
    [.serviceUpdate none (some dnsService), .sync added.tracker.items.entries,
      .serviceUpdate (some dnsService) none]

theorem deleted_reachable : (system baseTracker).Reachable deleted :=
  System.reachable_of_run _
    ⟨by simp [State.Admissible, InformerConsistent, State.initial], List.Perm.refl _,
      by simp [State.Admissible, InformerConsistent, State.step, deliver, State.initial], trivial⟩

/-- The sync after the delete. -/
theorem service_map_update_refines_recomputation_after_delete :
    let result := deleted.serviceMap.update deleted.tracker.items.entries
    (∀ svcPortName, result.1.lookup svcPortName =
        (serviceToServiceMap baseTracker (deleted.services.lookup svcPortName.namespacedName)).lookup
          svcPortName) ∧
      ∀ ip, ip ∈ result.2 ↔ ∃ svcPortName info, deleted.serviceMap.lookup svcPortName = some info ∧
        ServicePort.protocol info = .UDP ∧ ServicePort.clusterIP info = ip ∧
          result.1.lookup svcPortName = none :=
  service_map_update_refines_recomputation baseTracker deleted_reachable (List.Perm.refl _)

/-- The sync reports the DNS service's cluster IP once, for its UDP port. -/
example : (deleted.serviceMap.update deleted.tracker.items.entries).2 = {"10.96.0.10"} := by decide

end Runs

end Kubernetes.Proxy
