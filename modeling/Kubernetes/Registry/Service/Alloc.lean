import Kubernetes.Registry.Service.Operation
import Kubernetes.Library.Prefix

/-! Allocation of cluster IPs and node ports when a service is created (`storage/alloc.go`).

`allocateCreate` defaults the IP family fields, then allocates the cluster IPs of every
family in the iteration order of a Go map, then the node ports through a
`PortAllocationOperation`, and returns a transaction whose `Revert` undoes what was
allocated. The allocators are shared state: every function returns them as they stand
after the call, also when it fails, since Go writes them in place.

Addresses are the strings of the service spec. `ParseIPSloppy` and the family tests of
`k8s.io/utils/net` are the parameter `parseIP` (`none` for a string that does not parse),
and the field validation `ValidateServiceClusterIPsRelatedFields` of `apis/core/validation`
is the parameter `validateServiceClusterIPsRelatedFields`. The iteration order of a map
keyed by family is an input: the families of the map are visited in the order of a list.
-/

set_option autoImplicit false
set_option linter.dupNamespace false

namespace Kubernetes.Registry.Service.Storage

open Kubernetes.Library

inductive ServiceType where
  | clusterIP
  | nodePort
  | loadBalancer
  | externalName
  deriving DecidableEq, Repr

inductive IPFamilyPolicy where
  | singleStack
  | preferDualStack
  | requireDualStack
  deriving DecidableEq, Repr

inductive ServiceExternalTrafficPolicy where
  | cluster
  | local
  deriving DecidableEq, Repr

structure ServicePort where
  port : ℕ
  nodePort : ℕ
  deriving DecidableEq, Repr

/-- The fields of a service that allocation reads or writes. `allocateLoadBalancerNodePorts`
is the pointer the source dereferences; defaulting sets it for load balancers. Only
whether the selector is empty matters. -/
structure Service where
  name : String
  type : ServiceType
  clusterIP : String
  clusterIPs : List String
  ipFamilies : List Family
  ipFamilyPolicy : Option IPFamilyPolicy
  selector : List (String × String)
  ports : List ServicePort
  healthCheckNodePort : ℕ
  externalTrafficPolicy : ServiceExternalTrafficPolicy
  allocateLoadBalancerNodePorts : Bool
  deriving DecidableEq, Repr

/-- A `field.Error` of type `Invalid`: the path and the detail text. -/
structure FieldError where
  field : String
  detail : String
  deriving DecidableEq, Repr

/-- `errors.NewInvalid(api.Kind("Service"), name, el)` and `errors.NewInternalError`. A
method call on the missing allocator of an unconfigured family is a nil dereference in the
source; `nilAllocator` stands for that panic. -/
inductive ServiceError where
  | invalid (name : String) (errors : List FieldError)
  | internal (message : String)
  | nilAllocator (family : Family)
  deriving DecidableEq, Repr

def clusterIPNone : String := "None"

/-- The value of `api.IPFamily`, with `"unknown"` for an address of no family. -/
def ipFamilyName : Option Family → String
  | some .ipv4 => "IPv4"
  | some .ipv6 => "IPv6"
  | none => "unknown"

def otherFamily : Family → Family
  | .ipv4 => .ipv6
  | .ipv6 => .ipv4

structure Allocators where
  serviceIPAllocatorsByFamily : Family → Option Range
  defaultServiceIPFamily : Family
  serviceNodePorts : Pool ℕ

namespace Allocators

def configured (al : Allocators) (family : Family) : Bool :=
  (al.serviceIPAllocatorsByFamily family).isSome

/-- `len(al.serviceIPAllocatorsByFamily)`. -/
def configuredCount (al : Allocators) : ℕ :=
  [Family.ipv4, Family.ipv6].countP al.configured

def setRange (al : Allocators) (family : Family) (range : Range) : Allocators :=
  { al with serviceIPAllocatorsByFamily := Function.update al.serviceIPAllocatorsByFamily family (some range) }

end Allocators

/-! ## Defaulting of the IP family fields on create -/

/-- The policy a created service gets when it names none: headless services without a
selector default to dual stack. -/
def defaultIPFamilyPolicy (service : Service) : IPFamilyPolicy :=
  match service.ipFamilyPolicy with
  | some policy => policy
  | none =>
    if service.clusterIP = clusterIPNone ∧ service.selector = [] then .requireDualStack
    else .singleStack

section Defaulting

variable (parseIP : String → Option Family)

/-- The loop of `initIPFamilyFields` that infers `IPFamilies[i]` from `ClusterIPs[i]` for
each `i` past the families given; it stops at `"None"`. -/
def inferIPFamilies (al : Allocators) :
    ℕ → List String → List FieldError × List Family → List FieldError × List Family
  | _, [], acc => acc
  | i, ip :: rest, (errors, families) =>
    if ip = clusterIPNone then (errors, families)
    else
      let family := parseIP ip
      let acc :=
        if i < families.length then (errors, families)
        else match family with
          | some found =>
            if al.configured found then (errors, families ++ [found])
            else (errors ++ [⟨"spec.clusterIPs[" ++ toString i ++ "]",
              ipFamilyName family ++ " is not configured on this cluster"⟩], families)
          | none => (errors ++ [⟨"spec.clusterIPs[" ++ toString i ++ "]",
              ipFamilyName family ++ " is not configured on this cluster"⟩], families)
      inferIPFamilies al (i + 1) rest acc

/-- The families of the list that have no allocator. -/
def unconfiguredFamilies (al : Allocators) (families : List Family) : List FieldError :=
  (families.zipIdx.filter fun (family, _) => !al.configured family).map fun (_, i) =>
    ⟨"spec.ipFamilies[" ++ toString i ++ "]", "not configured on this cluster"⟩

variable (validateServiceClusterIPsRelatedFields : Service → List FieldError)

/-- `initIPFamilyFields(After{service}, Before{nil})`: the create path, with no old service. -/
def initIPFamilyFields (al : Allocators) (service : Service) : Except ServiceError Service :=
  if service.type = .externalName then .ok service
  else
    let policy := defaultIPFamilyPolicy service
    let service := { service with ipFamilyPolicy := some policy }
    let invalid := validateServiceClusterIPsRelatedFields service
    if invalid ≠ [] then .error (.invalid service.name invalid)
    else
      let singleStackErrors : List FieldError :=
        if policy = .singleStack then
          (if service.clusterIPs.length = 2 then [⟨"spec.ipFamilyPolicy",
            "must be \x27RequireDualStack\x27 or \x27PreferDualStack\x27 when multiple cluster IPs are specified"⟩]
            else []) ++
          (if service.ipFamilies.length = 2 then [⟨"spec.ipFamilyPolicy",
            "must be \x27RequireDualStack\x27 or \x27PreferDualStack\x27 when multiple IP families are specified"⟩]
            else [])
        else []
      let (errors, families) :=
        inferIPFamilies parseIP al 0 service.clusterIPs (singleStackErrors, service.ipFamilies)
      if errors ≠ [] then .error (.invalid service.name errors)
      else if service.clusterIP = clusterIPNone ∧ service.selector = [] then
        -- headless and selectorless: any families are allowed, and one more is added
        -- unless the policy is single stack
        let families := if families = [] then [al.defaultServiceIPFamily] else families
        let families :=
          match families with
          | [first] => if policy ≠ .singleStack then [first, otherFamily first] else families
          | _ => families
        .ok { service with ipFamilies := families }
      else
        let errors :=
          (if policy = .requireDualStack ∧ al.configuredCount < 2 then
            [⟨"spec.ipFamilyPolicy", "this cluster is not configured for dual-stack services"⟩]
            else []) ++ unconfiguredFamilies al families
        if errors ≠ [] then .error (.invalid service.name errors)
        else
          let families := if families = [] then [al.defaultServiceIPFamily] else families
          let families :=
            match families with
            | [first] =>
              if policy ≠ .singleStack ∧ al.configuredCount = 2 then [first, otherFamily first]
              else families
            | _ => families
          .ok { service with ipFamilies := families }

end Defaulting

/-! ## Transactions -/

/-- A `transaction`: what to do to the allocators on `Commit` and on `Revert`. The callbacks
act on the allocators as they stand when they are called. -/
structure Transaction where
  commit : Allocators → Allocators
  revert : Allocators → Allocators

/-- `metaTransaction`: the members in order. -/
def metaTransaction (txns : List Transaction) : Transaction where
  commit al := txns.foldl (fun al txn => txn.commit al) al
  revert al := txns.foldl (fun al txn => txn.revert al) al

/-! ## Cluster IPs -/

/-- What `allocIPs` and `allocClusterIPs` return: the address allocated for each family so
far, the error that stopped the loop if any, and the allocators as the loop left them. -/
structure IPAllocation where
  allocated : Family → Option String
  err : Option ServiceError
  allocators : Allocators

section ClusterIPs

variable (parseIP : String → Option Family)

/-- The body of the loop of `allocIPs` for one family. -/
def allocIP (service : Service) (dryRun : Bool) (al : Allocators) (family : Family) (ip : String) :
    Except ServiceError (String × Allocators) :=
  match al.serviceIPAllocatorsByFamily family with
  | none => .error (.nilAllocator family)
  | some range =>
    if ip = "" then
      match range.allocateNext dryRun with
      | .error err => .error (.internal ("failed to allocate a serviceIP: " ++ err.ipMessage ""))
      | .ok (address, range) => .ok (address, al.setRange family range)
    else if parseIP ip = none then .error (.internal ("failed to parse service IP \"" ++ ip ++ "\""))
    else
      match range.allocate dryRun ip with
      | .error err => .error (.invalid service.name
          [⟨"spec.clusterIPs", "failed to allocate IP " ++ ip ++ ": " ++ err.ipMessage ip⟩])
      | .ok range => .ok (ip, al.setRange family range)

/-- `allocIPs`: the families of `toAlloc` in iteration order. The first failure ends the
loop, and the addresses allocated before it are returned with the error. -/
def allocIPs (service : Service) (dryRun : Bool) (toAlloc : Family → Option String) :
    List Family → (Family → Option String) → Allocators → IPAllocation
  | [], allocated, al => ⟨allocated, none, al⟩
  | family :: rest, allocated, al =>
    match toAlloc family with
    | none => allocIPs service dryRun toAlloc rest allocated al
    | some ip =>
      match allocIP parseIP service dryRun al family ip with
      | .error err => ⟨allocated, some err, al⟩
      | .ok (address, next) =>
        allocIPs service dryRun toAlloc rest (Function.update allocated family (some address)) next

/-- The map `toAlloc[IPFamilies[i]] = ClusterIPs[i]`; a later family overwrites an earlier one. -/
def familyAddresses (families : List Family) (clusterIPs : List String) : Family → Option String :=
  (families.zip clusterIPs).foldl (fun toAlloc (family, ip) => Function.update toAlloc family (some ip))
    fun _ => none

/-- The loop that writes each allocated address into `ClusterIPs[i]` of its family, and into
`ClusterIP` for the first family. -/
def assignClusterIPs (service : Service) (allocated : Family → Option String) : Service :=
  { service with
    clusterIPs := service.clusterIPs.mapIdx fun i current =>
      match service.ipFamilies[i]? with
      | some family => (allocated family).getD current
      | none => current
    clusterIP :=
      match service.ipFamilies.head? with
      | some family => (allocated family).getD service.clusterIP
      | none => service.clusterIP }

/-- `allocClusterIPs`. External names and headless services get no address; otherwise
`ClusterIPs` is padded with empty markers up to the number of families, and the addresses
are written back only if every family succeeded. -/
def allocClusterIPs (service : Service) (dryRun : Bool) (order : List Family) (al : Allocators) :
    IPAllocation × Service :=
  if service.type = .externalName then (⟨fun _ => none, none, al⟩, service)
  else if service.clusterIPs.head? = some clusterIPNone then (⟨fun _ => none, none, al⟩, service)
  else
    let clusterIPs :=
      service.clusterIPs ++ List.replicate (service.ipFamilies.length - service.clusterIPs.length) ""
    let service := { service with clusterIPs }
    let result := allocIPs parseIP service dryRun (familyAddresses service.ipFamilies clusterIPs)
      order (fun _ => none) al
    match result.err with
    | none => (result, assignClusterIPs service result.allocated)
    | some _ => (result, service)

/-- `releaseIPs`: a family with no allocator is skipped, and an address that does not parse
ends the loop with an error. `Release` itself never fails. -/
def releaseIPs (toRelease : Family → Option String) :
    List Family → Allocators → Option ServiceError × Allocators
  | [], al => (none, al)
  | family :: rest, al =>
    match toRelease family with
    | none => releaseIPs toRelease rest al
    | some ip =>
      match al.serviceIPAllocatorsByFamily family with
      | none => releaseIPs toRelease rest al
      | some range =>
        if parseIP ip = none then (some (.internal ("failed to parse service IP \"" ++ ip ++ "\"")), al)
        else releaseIPs toRelease rest (al.setRange family (range.release ip))

/-- `txnAllocClusterIPs`. On failure the addresses `allocClusterIPs` did allocate are
dropped with the rest of its result: nothing releases them. -/
def txnAllocClusterIPs (service : Service) (dryRun : Bool) (order : List Family) (al : Allocators) :
    Except ServiceError (Transaction × Service) × Allocators :=
  let (result, service) := allocClusterIPs parseIP service dryRun order al
  match result.err with
  | some err => (.error err, result.allocators)
  | none =>
    let txn : Transaction :=
      { commit := id
        revert := fun al => if dryRun then al else (releaseIPs parseIP result.allocated order al).2 }
    (.ok (txn, service), result.allocators)

end ClusterIPs

/-! ## Node ports -/

def shouldAllocateNodePorts (service : Service) : Bool :=
  match service.type with
  | .nodePort => true
  | .loadBalancer => service.allocateLoadBalancerNodePorts
  | _ => false

/-- `findRequestedNodePort`: the node port some entry with this port number asks for. -/
def findRequestedNodePort (port : ℕ) : List ServicePort → ℕ
  | [] => 0
  | servicePort :: rest =>
    if port = servicePort.port ∧ servicePort.nodePort ≠ 0 then servicePort.nodePort
    else findRequestedNodePort port rest

def requestsOnlyLocalTraffic (service : Service) : Bool :=
  (service.type = .loadBalancer ∨ service.type = .nodePort) ∧ service.externalTrafficPolicy = .local

def needsHealthCheck (service : Service) : Bool :=
  service.type = .loadBalancer ∧ requestsOnlyLocalTraffic service

/-- The variables of the loop of `initNodePorts`: the ports as rewritten so far, the map
`svcPortToNodePort` (0 for a missing key), and the operation with its allocator. -/
structure NodePortsState where
  ports : List ServicePort
  svcPortToNodePort : ℕ → ℕ
  op : PortAllocationOperation
  pa : Pool ℕ

def nodePortField (i : ℕ) : String := "spec.ports[" ++ toString i ++ "].nodePort"

/-- The body of the loop of `initNodePorts` for `service.Spec.Ports[i]`. A failure leaves
the loop variables as they were. -/
def initNodePort (service : Service) (state : NodePortsState) (i : ℕ) :
    Except ServiceError NodePortsState :=
  match state.ports[i]? with
  | none => .ok state
  | some servicePort =>
    if servicePort.nodePort = 0 ∧ !shouldAllocateNodePorts service then .ok state
    else
      let allocatedNodePort := state.svcPortToNodePort servicePort.port
      if allocatedNodePort = 0 then
        let np := findRequestedNodePort servicePort.port state.ports
        if np ≠ 0 then
          match state.op.allocate state.pa np with
          | .error err => .error (.invalid service.name [⟨nodePortField i, err.portMessage⟩])
          | .ok (op, pa) =>
            .ok { ports := state.ports.set i { servicePort with nodePort := np }
                  svcPortToNodePort := Function.update state.svcPortToNodePort servicePort.port np
                  op, pa }
        else
          match state.op.allocateNext state.pa with
          | .error err => .error (.internal ("failed to allocate a nodePort: " ++ err.portMessage))
          | .ok (nodePort, op, pa) =>
            .ok { ports := state.ports.set i { servicePort with nodePort := nodePort }
                  svcPortToNodePort := Function.update state.svcPortToNodePort servicePort.port nodePort
                  op, pa }
      else if servicePort.nodePort ≠ allocatedNodePort then
        -- the port number already has a node port: an entry without one shares it, an
        -- entry asking for another one allocates that one too
        if servicePort.nodePort = 0 then
          .ok { state with ports := state.ports.set i { servicePort with nodePort := allocatedNodePort } }
        else
          match state.op.allocate state.pa servicePort.nodePort with
          | .error err => .error (.invalid service.name [⟨nodePortField i, err.portMessage⟩])
          | .ok (op, pa) => .ok { state with op, pa }
      else .ok state

/-- The loop over the indices of the ports; on failure, the variables as the failing
iteration found them. -/
def initNodePortsFrom (service : Service) : List ℕ → NodePortsState → NodePortsState × Option ServiceError
  | [], state => (state, none)
  | i :: rest, state =>
    match initNodePort service state i with
    | .error err => (state, some err)
    | .ok next => initNodePortsFrom service rest next

def initNodePorts (service : Service) (op : PortAllocationOperation) (pa : Pool ℕ) :
    NodePortsState × Option ServiceError :=
  initNodePortsFrom service (List.range service.ports.length) ⟨service.ports, fun _ => 0, op, pa⟩

/-- `allocHealthCheckNodePort`; its errors are plain texts, which the caller wraps. -/
def allocHealthCheckNodePort (service : Service) (op : PortAllocationOperation) (pa : Pool ℕ) :
    Except String (Service × PortAllocationOperation × Pool ℕ) :=
  if service.healthCheckNodePort ≠ 0 then
    match op.allocate pa service.healthCheckNodePort with
    | .error err => .error ("failed to allocate requested HealthCheck NodePort " ++
        toString service.healthCheckNodePort ++ ": " ++ err.portMessage)
    | .ok (op, pa) => .ok (service, op, pa)
  else
    match op.allocateNext pa with
    | .error err => .error ("failed to allocate a HealthCheck NodePort 0: " ++ err.portMessage)
    | .ok (port, op, pa) => .ok ({ service with healthCheckNodePort := port }, op, pa)

/-- The callbacks of `txnAllocNodePorts`, over the operation as it stands when the
transaction is returned. -/
def nodePortsTransaction (op : PortAllocationOperation) : Transaction where
  commit al :=
    let (committed, pa) := op.commit al.serviceNodePorts
    { al with serviceNodePorts := committed.finish pa }
  revert al := { al with serviceNodePorts := op.finish al.serviceNodePorts }

/-- The first step of `txnAllocNodePorts`: only node-port and load-balancer services get
node ports. -/
def initServiceNodePorts (service : Service) (op : PortAllocationOperation) (pa : Pool ℕ) :
    NodePortsState × Option ServiceError :=
  if service.type = .nodePort ∨ service.type = .loadBalancer then initNodePorts service op pa
  else (⟨service.ports, fun _ => 0, op, pa⟩, none)

/-- `txnAllocNodePorts`. A failure reverts the operation at once. -/
def txnAllocNodePorts (service : Service) (dryRun : Bool) (al : Allocators) :
    Except ServiceError (Transaction × Service) × Allocators :=
  match initServiceNodePorts service (startOperation dryRun) al.serviceNodePorts with
  | (state, some err) => (.error err, { al with serviceNodePorts := state.op.finish state.pa })
  | (state, none) =>
    let service := { service with ports := state.ports }
    if needsHealthCheck service then
      match allocHealthCheckNodePort service state.op state.pa with
      | .error message =>
        (.error (.internal message), { al with serviceNodePorts := state.op.finish state.pa })
      | .ok (service, op, pa) =>
        (.ok (nodePortsTransaction op, service), { al with serviceNodePorts := pa })
    else (.ok (nodePortsTransaction state.op, service), { al with serviceNodePorts := state.pa })

/-! ## Create -/

section Create

variable (parseIP : String → Option Family)
  (validateServiceClusterIPsRelatedFields : Service → List FieldError)

/-- `allocateCreate`. The deferred `result.Revert()` runs on every failure, over the
transactions collected so far. -/
def allocateCreate (order : List Family) (service : Service) (dryRun : Bool) (al : Allocators) :
    Except ServiceError (Transaction × Service) × Allocators :=
  match initIPFamilyFields parseIP validateServiceClusterIPsRelatedFields al service with
  | .error err => (.error err, (metaTransaction []).revert al)
  | .ok service =>
    match txnAllocClusterIPs parseIP service dryRun order al with
    | (.error err, al) => (.error err, (metaTransaction []).revert al)
    | (.ok (ipTxn, service), al) =>
      match txnAllocNodePorts service dryRun al with
      | (.error err, al) => (.error err, (metaTransaction [ipTxn]).revert al)
      | (.ok (portTxn, service), al) => (.ok (metaTransaction [ipTxn, portTxn], service), al)

end Create

end Kubernetes.Registry.Service.Storage
