import Mathlib
import Kubernetes.Proxy.Service

/-! kube-proxy's EndpointSlice cache (`pkg/proxy/endpointslicecache.go`): per service, the
slices the proxy applied and those updated since, and the endpoints map computed from a
service's applied slices.

Go maps that are only looked up or walked where the order cannot matter are `AList`s. Where
the order matters, in `getEndpointsMap`'s walk over a service's slices, the walk takes the
slices in the order given. `sort.Sort` is insertion sort, as Go sorts up to twelve elements;
on longer lists the two differ only in the order of equal keys, which only decides whether a
slice counts as changed. An endpoint
port as stored has its name and protocol defaulted, so only its number may be missing.
-/

set_option autoImplicit false

namespace Kubernetes.Proxy

open V1

namespace Discovery

inductive AddressType where
  | IPv4
  | IPv6
  | FQDN
  deriving DecidableEq, Repr

structure EndpointConditions where
  ready : Option Bool
  serving : Option Bool
  terminating : Option Bool
  deriving DecidableEq, Repr

structure Endpoint where
  addresses : List String
  conditions : EndpointConditions
  /-- The zone names of `Hints.ForZones`, when there are hints. -/
  hints : Option (List String)
  nodeName : Option String
  zone : Option String
  deriving DecidableEq, Repr

structure EndpointPort where
  name : String
  protocol : Protocol
  port : Option ℤ
  deriving DecidableEq, Repr

structure EndpointSlice where
  «namespace» : String
  name : String
  /-- The `kubernetes.io/service-name` label. -/
  serviceName : Option String
  addressType : AddressType
  endpoints : List Endpoint
  ports : List EndpointPort
  deriving DecidableEq, Repr

end Discovery

open Discovery

/-! ## Endpoints as the proxier sees them -/

structure BaseEndpointInfo where
  endpoint : String
  isLocal : Bool
  zoneHints : Finset String
  ready : Bool
  serving : Bool
  terminating : Bool
  nodeName : String
  zone : String
  deriving DecidableEq

/-- The `Endpoint` interface, as far as the endpoints tracking reads it. -/
class Endpoint (E : Type) where
  string : E → String
  getIsLocal : E → Bool
  isReady : E → Bool
  equal : E → E → Bool

instance : Endpoint BaseEndpointInfo where
  string info := info.endpoint
  getIsLocal info := info.isLocal
  isReady info := info.ready
  equal info other := info.endpoint == other.endpoint && info.isLocal == other.isLocal &&
    info.ready == other.ready

/-- `net.JoinHostPort`: an IPv6 address is bracketed. -/
def joinHostPort (host : String) (port : ℤ) : String :=
  if host.toList.contains ':' then "[" ++ host ++ "]:" ++ toString port else host ++ ":" ++ toString port

def newBaseEndpointInfo (ip nodeName zone : String) (port : ℤ) (isLocal ready serving terminating : Bool)
    (zoneHints : Finset String) : BaseEndpointInfo :=
  { endpoint := joinHostPort ip port, isLocal, ready, serving, terminating, zoneHints, nodeName, zone }

/-! ## Slices as the cache keeps them -/

structure EndpointInfo where
  addresses : List String
  nodeName : Option String
  zone : Option String
  zoneHints : Finset String
  ready : Bool
  serving : Bool
  terminating : Bool
  deriving DecidableEq

structure EndpointSliceInfo where
  ports : List EndpointPort
  endpoints : List EndpointInfo
  remove : Bool
  deriving DecidableEq

/-- `sort.Sort(byPort(...))`. Once there are two ports every port takes part in a comparison,
and `Less` dereferences both port numbers: a missing one panics. -/
def sortByPort (ports : List EndpointPort) : Option (List EndpointPort) :=
  if 2 ≤ ports.length ∧ ∃ port ∈ ports, port.port = none then none
  else some (ports.insertionSort fun first second => first.port.getD 0 ≤ second.port.getD 0)

/-- `sort.Sort(byAddress(...))`. -/
def sortByAddress (endpoints : List EndpointInfo) : List EndpointInfo :=
  endpoints.insertionSort fun first second =>
    String.intercalate "," first.addresses ≤ String.intercalate "," second.addresses

section Config

/-- What an `EndpointSliceCache` is built with, and the `TopologyAwareHints` gate. -/
structure CacheConfig (E : Type) where
  makeEndpointInfo : BaseEndpointInfo → ServicePortName → E
  hostname : String
  ipFamily : IPFamily
  topologyAwareHints : Bool

variable {E : Type} (cache : CacheConfig E)

def newEndpointInfo (endpoint : Discovery.Endpoint) : EndpointInfo :=
  { addresses := endpoint.addresses
    zone := endpoint.zone
    nodeName := endpoint.nodeName
    ready := endpoint.conditions.ready.getD true
    serving := endpoint.conditions.serving.getD true
    terminating := endpoint.conditions.terminating.getD false
    zoneHints :=
      match endpoint.hints with
      | some zones => if cache.topologyAwareHints then zones.toFinset else ∅
      | none => ∅ }

/-- `newEndpointSliceInfo`; none where sorting the ports panics. A removed slice keeps no
endpoints. -/
def newEndpointSliceInfo (endpointSlice : EndpointSlice) (remove : Bool) : Option EndpointSliceInfo := do
  let ports ← sortByPort endpointSlice.ports
  let endpoints := if remove then [] else sortByAddress (endpointSlice.endpoints.map (newEndpointInfo cache))
  pure { ports, endpoints, remove }

-- a second port with its number left open, as the API allows, makes the proxy panic
example : newEndpointSliceInfo (⟨fun info _ => info, "node-a", .IPv4, false⟩ : CacheConfig BaseEndpointInfo)
    ⟨"default", "dns-open", some "dns", .IPv4, [], [⟨"any", .TCP, none⟩, ⟨"dns", .UDP, some 53⟩]⟩ false = none := by
  decide

def isLocal (hostname : String) : Bool := cache.hostname.length > 0 && hostname == cache.hostname

/-- `addEndpoints`: an endpoint per address and port, the first of a string kept unless a
later one is local. -/
def addEndpoints (svcPortName : ServicePortName) (portNum : ℤ)
    (endpointSet : AList fun _ : String => E) (endpoints : List EndpointInfo) : AList fun _ : String => E :=
  endpoints.foldl (fun endpointSet endpoint =>
    match endpoint.addresses with
    | [] => endpointSet
    | address :: _ =>
      -- an address of the other family is left out
      if (cache.ipFamily == .IPv6) != isIPv6String address then endpointSet
      else
        let local_ := match endpoint.nodeName with
          | some nodeName => isLocal cache nodeName
          | none => false
        let endpointInfo := newBaseEndpointInfo address (endpoint.nodeName.getD "") (endpoint.zone.getD "")
          portNum local_ endpoint.ready endpoint.serving endpoint.terminating endpoint.zoneHints
        if endpointInfo.endpoint ∉ endpointSet ∨ local_ = true then
          endpointSet.insert endpointInfo.endpoint (cache.makeEndpointInfo endpointInfo svcPortName)
        else endpointSet) endpointSet

/-- `endpointInfoByServicePort`, walking the slices in the order given. -/
def endpointInfoByServicePort (serviceNN : NamespacedName) (slices : List EndpointSliceInfo) :
    AList fun _ : ServicePortName => AList fun _ : String => E :=
  slices.foldl (fun endpointInfoBySP sliceInfo =>
    sliceInfo.ports.foldl (fun endpointInfoBySP port =>
      match port.port with
      | none => endpointInfoBySP
      | some portNum =>
        if portNum = 0 then endpointInfoBySP
        else
          let svcPortName : ServicePortName := ⟨serviceNN, port.name, port.protocol⟩
          endpointInfoBySP.insert svcPortName
            (addEndpoints cache svcPortName portNum ((endpointInfoBySP.lookup svcPortName).getD ∅)
              sliceInfo.endpoints)) endpointInfoBySP) ∅

end Config

/-- `EndpointsMap`: the endpoints of each service port. -/
abbrev EndpointsMap (E : Type) := Finmap fun _ : ServicePortName => List E

/-- `endpointsMapFromEndpointInfo`: the ports with endpoints, each with its endpoints ordered by
their strings. -/
def endpointsMapFromEndpointInfo {E : Type}
    (endpointInfoBySP : AList fun _ : ServicePortName => AList fun _ : String => E) : EndpointsMap E :=
  List.toFinmap (endpointInfoBySP.entries.filterMap fun entry =>
    if entry.2.entries = [] then none
    else some ⟨entry.1, ((entry.2.entries.insertionSort fun first second => first.1 ≤ second.1).map
      Sigma.snd)⟩)

/-- `getEndpointsMap`, walking the slices in the order given. -/
def getEndpointsMap {E : Type} (cache : CacheConfig E) (serviceNN : NamespacedName)
    (slices : List EndpointSliceInfo) : EndpointsMap E :=
  endpointsMapFromEndpointInfo (endpointInfoByServicePort cache serviceNN slices)

/-! ## The cache -/

structure EndpointSliceTracker where
  applied : AList fun _ : String => EndpointSliceInfo
  pending : AList fun _ : String => EndpointSliceInfo

/-- `trackerByServiceMap`. -/
abbrev EndpointSliceCache := AList fun _ : NamespacedName => EndpointSliceTracker

inductive CacheKeyError where
  /-- "no kubernetes.io/service-name label set on endpoint slice: <name>" -/
  | noServiceName (sliceName : String)
  /-- "expected EndpointSlice name and namespace to be set: <slice>" -/
  | unnamed
  deriving DecidableEq, Repr

def endpointSliceCacheKeys (endpointSlice : EndpointSlice) : Except CacheKeyError (NamespacedName × String) :=
  match endpointSlice.serviceName with
  | none => .error (.noServiceName endpointSlice.name)
  | some serviceName =>
    if serviceName = "" then .error (.noServiceName endpointSlice.name)
    else if endpointSlice.«namespace» = "" ∨ endpointSlice.name = "" then .error .unnamed
    else .ok (⟨endpointSlice.«namespace», serviceName⟩, endpointSlice.name)

/-- `esInfoChanged`: compared with the pending value if there is one, else with the applied
one; a slice the cache does not have changes it unless it is removed. -/
def esInfoChanged (trackers : EndpointSliceCache) (serviceKey : NamespacedName) (sliceKey : String)
    (esInfo : EndpointSliceInfo) : Bool :=
  match trackers.lookup serviceKey with
  | some tracker =>
    match tracker.pending.lookup sliceKey, tracker.applied.lookup sliceKey with
    | some pendingInfo, _ => esInfo != pendingInfo
    | none, some appliedInfo => esInfo != appliedInfo
    | none, none => !esInfo.remove
  | none => !esInfo.remove

/-- `updatePending`; none where building the slice's info panics. -/
def updatePending {E : Type} (cache : CacheConfig E) (trackers : EndpointSliceCache)
    (endpointSlice : EndpointSlice) (remove : Bool) : Option (EndpointSliceCache × Bool) :=
  match endpointSliceCacheKeys endpointSlice with
  | .error _ => some (trackers, false)
  | .ok (serviceKey, sliceKey) => do
    let esInfo ← newEndpointSliceInfo cache endpointSlice remove
    let tracker := (trackers.lookup serviceKey).getD ⟨∅, ∅⟩
    let trackers := trackers.insert serviceKey tracker
    let changed := esInfoChanged trackers serviceKey sliceKey esInfo
    if changed then
      pure (trackers.insert serviceKey { tracker with pending := tracker.pending.insert sliceKey esInfo }, true)
    else pure (trackers, false)

/-- The pending slices of a service made applied: a removed one is dropped. -/
def applyPending (tracker : EndpointSliceTracker) : AList fun _ : String => EndpointSliceInfo :=
  tracker.pending.entries.foldl (fun applied slice =>
    if slice.2.remove then applied.erase slice.1 else applied.insert slice.1 slice.2) tracker.applied

structure EndpointsChange (E : Type) where
  previous : EndpointsMap E
  current : EndpointsMap E

/-- How a sync walks a service's slices: the applied slices before and after, in an order
Go's map iteration picks. -/
abbrev SliceOrder := NamespacedName → Bool → List (Σ _ : String, EndpointSliceInfo) →
  List (Σ _ : String, EndpointSliceInfo)

/-- `checkoutChanges`: for each service with pending slices, the endpoints map of its applied
slices before and after they take the pending ones. -/
def checkoutChanges {E : Type} (cache : CacheConfig E) (order : SliceOrder) (trackers : EndpointSliceCache) :
    EndpointSliceCache × List (EndpointsChange E) :=
  trackers.entries.foldl (fun (trackers, changes) entry =>
    let serviceNN := entry.1
    let esTracker := entry.2
    if esTracker.pending.entries = [] then (trackers, changes)
    else
      let previous := getEndpointsMap cache serviceNN ((order serviceNN false esTracker.applied.entries).map Sigma.snd)
      let applied := applyPending esTracker
      let current := getEndpointsMap cache serviceNN ((order serviceNN true applied.entries).map Sigma.snd)
      (trackers.insert serviceNN ⟨applied, ∅⟩, changes ++ [⟨previous, current⟩])) (trackers, [])

end Kubernetes.Proxy
