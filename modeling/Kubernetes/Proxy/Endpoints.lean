import Kubernetes.Proxy.EndpointSliceCache

/-! kube-proxy's endpoints tracking (`pkg/proxy/endpoints.go`) over the EndpointSlice cache:
`EndpointSliceUpdate` records a slice as pending, and `EndpointsMap.Update` checks the pending
slices out and applies, for each service with changes, the endpoints map of its applied slices
before and after in place of the old one, reporting the UDP endpoints and service ports whose
conntrack entries are stale.
-/

set_option autoImplicit false

namespace Kubernetes.Proxy

open Kubernetes.Library V1 Discovery

structure ServiceEndpoint where
  endpoint : String
  servicePortName : ServicePortName
  deriving DecidableEq, Repr

section Apply

variable {E : Type} [Endpoint E]

/-- `detectStaleConnections`: the ready UDP endpoints of the old map that no endpoint of the
new map under the same port is `Equal` to, and the UDP ports that go from no ready endpoint to
some. -/
def detectStaleConnections (oldEndpointsMap newEndpointsMap : EndpointsMap E) :
    Finset ServiceEndpoint × Finset ServicePortName :=
  let staleEndpoints := (oldEndpointsMap.entries.bind fun entry =>
    if entry.1.protocol ≠ .UDP then 0
    else ((entry.2.filter fun ep => Endpoint.isReady ep &&
        !((newEndpointsMap.lookup entry.1).getD []).any fun other => Endpoint.equal other ep).map
          fun ep => (⟨Endpoint.string ep, entry.1⟩ : ServiceEndpoint) : Multiset ServiceEndpoint)).toFinset
  let staleServiceNames := ((newEndpointsMap.entries.filter fun entry =>
    entry.1.protocol = .UDP ∧ 0 < (entry.2.filter Endpoint.isReady).length ∧
      (((oldEndpointsMap.lookup entry.1).getD []).filter Endpoint.isReady).length = 0).map
        Sigma.fst).toFinset
  (staleEndpoints, staleServiceNames)

/-- `EndpointsMap.unmerge`: the ports of `other` are deleted. -/
def EndpointsMap.unmerge (em other : EndpointsMap E) : EndpointsMap E := em \ other

/-- `EndpointsMap.merge`: the ports of `other` are written. -/
def EndpointsMap.merge (em other : EndpointsMap E) : EndpointsMap E := other ∪ em

/-- The loop of `EndpointsMap.apply` over the checked-out changes. -/
def EndpointsMap.apply (em : EndpointsMap E) (changes : List (EndpointsChange E)) :
    EndpointsMap E × Finset ServiceEndpoint × Finset ServicePortName :=
  changes.foldl (fun state change =>
    let em := (state.1.unmerge change.previous).merge change.current
    let stale := detectStaleConnections change.previous change.current
    (em, state.2.1 ∪ stale.1, state.2.2 ∪ stale.2)) (em, ∅, ∅)

def supportedEndpointSliceAddressTypes : AddressType → Bool
  | .IPv4 => true
  | .IPv6 => true
  | .FQDN => false

/-- `EndpointChangeTracker.EndpointSliceUpdate`; none where building the slice's info panics. -/
def endpointSliceUpdate (cache : CacheConfig E) (trackers : EndpointSliceCache)
    (endpointSlice : EndpointSlice) (removeSlice : Bool) : Option (EndpointSliceCache × Bool) :=
  if !supportedEndpointSliceAddressTypes endpointSlice.addressType then some (trackers, false)
  else
    match endpointSliceCacheKeys endpointSlice with
    | .error _ => some (trackers, false)
    | .ok _ => updatePending cache trackers endpointSlice removeSlice

/-- `EndpointsMap.Update`: the cache after the checkout, the map, `StaleEndpoints` and
`StaleServiceNames`. -/
def EndpointsMap.update (em : EndpointsMap E) (cache : CacheConfig E) (order : SliceOrder)
    (trackers : EndpointSliceCache) :
    EndpointSliceCache × EndpointsMap E × Finset ServiceEndpoint × Finset ServicePortName :=
  let checkedOut := checkoutChanges cache order trackers
  (checkedOut.1, em.apply checkedOut.2)

end Apply

/-! ## The proxy and its EndpointSlice informer -/

structure EndpointsState (E : Type) where
  trackers : EndpointSliceCache
  endpointsMap : EndpointsMap E

inductive EndpointsEvent where
  | endpointSliceUpdate (endpointSlice : EndpointSlice) (removeSlice : Bool)
  /-- `EndpointsMap.Update`, walking each service's slices in `order`, which visits each slice
  once. -/
  | sync (order : SliceOrder) (visitsEach : ∀ serviceNN after slices, (order serviceNN after slices).Perm slices)

section System

variable {E : Type} [Endpoint E] (cache : CacheConfig E)

/-- One call; none where the proxy panics. -/
def EndpointsState.step (s : EndpointsState E) : EndpointsEvent → Option (EndpointsState E)
  | .endpointSliceUpdate endpointSlice removeSlice =>
    (endpointSliceUpdate cache s.trackers endpointSlice removeSlice).map fun updated =>
      { s with trackers := updated.1 }
  | .sync order _ =>
    let updated := s.endpointsMap.update cache order s.trackers
    some { trackers := updated.1, endpointsMap := updated.2.1 }

def EndpointsState.initial : EndpointsState E := ⟨∅, ∅⟩

def endpointsSystem : System (EndpointsState E) EndpointsEvent :=
  System.ofPartial (· = EndpointsState.initial) (EndpointsState.step cache)

end System

namespace Runs

/-- An IPv4 proxy on node-a without endpoint info of its own. -/
def baseCache : CacheConfig BaseEndpointInfo := ⟨fun info _ => info, "node-a", .IPv4, false⟩

def dnsEndpoint (ready : Bool) : Discovery.Endpoint :=
  ⟨["10.0.0.1"], ⟨some ready, some ready, some false⟩, none, some "node-b", none⟩

def dnsSlice (name : String) (endpoints : List Discovery.Endpoint) : EndpointSlice :=
  ⟨"default", name, some "dns", .IPv4, endpoints, [⟨"dns", .UDP, some 53⟩]⟩

def dnsPort : ServicePortName := ⟨⟨"default", "dns"⟩, "dns", .UDP⟩

def walkInOrder : SliceOrder := fun _ _ slices => slices

def walkReversed : SliceOrder := fun _ _ slices => slices.reverse

/-- Two slices of the DNS service carry the endpoint 10.0.0.1, ready in dns-a and not in
dns-b; the first sync walks dns-a first, then dns-a drops the endpoint. -/
def disagreeing : List EndpointsEvent :=
  [.endpointSliceUpdate (dnsSlice "dns-a" [dnsEndpoint true]) false,
    .endpointSliceUpdate (dnsSlice "dns-b" [dnsEndpoint false]) false,
    .sync walkInOrder fun _ _ _ => List.Perm.refl _,
    .endpointSliceUpdate (dnsSlice "dns-a" []) false]

def beforeSecondSync : EndpointsState BaseEndpointInfo :=
  (System.runPartial (EndpointsState.step baseCache) EndpointsState.initial disagreeing).get (by decide +kernel)

/-- The map has the endpoint ready; the second sync walks dns-b first, so the endpoint the
change starts from is dns-b's, not ready, and the ready endpoint the map had, which the new map
has only as not ready, is not reported stale. -/
theorem stale_endpoint_lost_when_slices_disagree :
    (endpointsSystem baseCache).Reachable beforeSecondSync ∧
      let updated := beforeSecondSync.endpointsMap.update baseCache walkReversed beforeSecondSync.trackers
      ∃ ep ∈ (beforeSecondSync.endpointsMap.lookup dnsPort).getD [], Endpoint.isReady ep = true ∧
        (∀ other ∈ (updated.2.1.lookup dnsPort).getD [], Endpoint.equal other ep = false) ∧
        (⟨Endpoint.string ep, dnsPort⟩ : ServiceEndpoint) ∉ updated.2.2.1 :=
  ⟨System.reachable_of_runPartial rfl disagreeing (Option.some_get _).symm, by decide +kernel⟩

/-- dns-a and dns-b as the cache applies them: the service's endpoints map walking dns-a first
holds 10.0.0.1:53 ready, and walking dns-b first holds it not ready. -/
theorem endpoints_map_follows_slice_order :
    ∃ dnsA dnsB, newEndpointSliceInfo baseCache (dnsSlice "dns-a" [dnsEndpoint true]) false = some dnsA ∧
      newEndpointSliceInfo baseCache (dnsSlice "dns-b" [dnsEndpoint false]) false = some dnsB ∧
      ((getEndpointsMap baseCache ⟨"default", "dns"⟩ [dnsA, dnsB]).lookup dnsPort).map
        (List.map Endpoint.isReady) = some [true] ∧
      ((getEndpointsMap baseCache ⟨"default", "dns"⟩ [dnsB, dnsA]).lookup dnsPort).map
        (List.map Endpoint.isReady) = some [false] :=
  ⟨_, _, rfl, rfl, by decide +kernel, by decide +kernel⟩

end Runs

end Kubernetes.Proxy
