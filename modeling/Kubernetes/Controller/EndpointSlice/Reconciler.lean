import Kubernetes.Library.Keyed

/-! The EndpointSlice controller's packing of a service's endpoints into slices for one port
mapping (`reconciler.reconcileByPortMapping` in `pkg/controller/endpointslice/reconciler.go`).

The desired endpoints are an `EndpointSet`, a map from each endpoint's hash (its sorted addresses
and hostname) to the endpoint. The reconciler takes them out of the set in three passes: it keeps
in each existing slice the endpoints still desired, in their desired versions; it tops up the
slices it already has to update, fullest first; and it fits what is left into one unchanged slice
that has room for all of it, or into new slices.

Where Go leaves an order open, a map iteration or an unstable sort, the model takes the order as
an input: `Orders` gives the slices to top up after the sort and the unchanged slices as the name
set lists them, and the desired set pops its values in the store's order, which any order of
insertion can give. The hash is taken to be the object it is computed from.
-/

set_option autoImplicit false

namespace Kubernetes.Controller.Endpointslice

open Kubernetes.Library

/-! ## Endpoints -/

structure EndpointConditions where
  ready : Option Bool
  serving : Option Bool
  terminating : Option Bool
  deriving DecidableEq, Repr

structure Endpoint where
  addresses : List String
  hostname : Option String := none
  conditions : EndpointConditions
  /-- `TargetRef`, as `DeepEqual` with the resource version ignored compares it. -/
  targetRef : Option String := none
  nodeName : Option String := none
  zone : Option String := none
  deriving DecidableEq, Repr

/-- The object `hashEndpoint` hashes: the sorted addresses and the hostname, "" where unset. -/
abbrev EndpointHash := List String × String

def hashEndpoint (endpoint : Endpoint) : EndpointHash :=
  (endpoint.addresses.mergeSort fun first second => decide (first ≤ second), endpoint.hostname.getD "")

/-- `boolPtrChanged` and `stringPtrChanged`: one pointer is nil and the other not, or the values
differ. -/
def ptrChanged {α : Type} [DecidableEq α] (ptr1 ptr2 : Option α) : Bool :=
  ptr1.isNone != ptr2.isNone ||
    match ptr1, ptr2 with
    | some value1, some value2 => value1 != value2
    | _, _ => false

def boolPtrChanged (ptr1 ptr2 : Option Bool) : Bool := ptrChanged ptr1 ptr2

def stringPtrChanged (ptr1 ptr2 : Option String) : Bool := ptrChanged ptr1 ptr2

/-- Both pointers set, to different values: how `Serving` and `Terminating` are compared, so that
an unset condition matches any. -/
def bothSetAndDiffer (ptr1 ptr2 : Option Bool) : Bool :=
  match ptr1, ptr2 with
  | some value1, some value2 => value1 != value2
  | _, _ => false

/-- `EndpointsEqualBeyondHash`: the fields the hash leaves out agree, where an unset `Serving`
or `Terminating` agrees with anything. -/
def endpointsEqualBeyondHash (ep1 ep2 : Endpoint) : Bool :=
  !stringPtrChanged ep1.nodeName ep2.nodeName &&
    !stringPtrChanged ep1.zone ep2.zone &&
    !boolPtrChanged ep1.conditions.ready ep2.conditions.ready &&
    !bothSetAndDiffer ep1.conditions.serving ep2.conditions.serving &&
    !bothSetAndDiffer ep1.conditions.terminating ep2.conditions.terminating &&
    ep1.targetRef == ep2.targetRef

/-- `EndpointSet`: the endpoints by their hash. -/
abbrev EndpointSet := Keyed Endpoint hashEndpoint

/-! ## Slices and their labels -/

structure EndpointSlice where
  /-- "" for a slice not created yet, which is given a generated name. -/
  name : String
  /-- A map, as its entries. -/
  labels : List (String × String)
  endpoints : List Endpoint
  deriving DecidableEq, Repr

structure Service where
  name : String
  labels : List (String × String)
  clusterIP : String

def labelServiceName : String := "kubernetes.io/service-name"

def labelManagedBy : String := "endpointslice.kubernetes.io/managed-by"

def isHeadlessService : String := "service.kubernetes.io/headless"

def controllerName : String := "endpointslice-controller.k8s.io"

def isReservedLabelKey (label : String) : Bool :=
  label == labelServiceName || label == labelManagedBy || label == isHeadlessService

def isServiceIPSet (service : Service) : Bool := service.clusterIP != "None" && service.clusterIP != ""

/-- `labels[key] = value` on a map given by its entries. -/
def setLabel (labels : List (String × String)) (key value : String) : List (String × String) :=
  labels.filter (·.1 != key) ++ [(key, value)]

/-- `setEndpointSliceLabels`: the service's labels with the reserved ones set, and whether the
slice's labels other than the reserved ones differ from the service's. -/
def setEndpointSliceLabels (epSlice : EndpointSlice) (service : Service) : List (String × String) × Bool :=
  let epLabels := epSlice.labels.filter fun label => !isReservedLabelKey label.1
  let svcLabels := service.labels.filter fun label => !isReservedLabelKey label.1
  -- `DeepEqual` on two maps: the same entries
  let updated := !decide (epLabels ⊆ svcLabels ∧ svcLabels ⊆ epLabels)
  let svcLabels :=
    if !isServiceIPSet service then setLabel svcLabels isHeadlessService ""
    else svcLabels.filter (·.1 != isHeadlessService)
  (setLabel (setLabel svcLabels labelServiceName service.name) labelManagedBy controllerName, updated)

/-- `newEndpointSlice`: no endpoints yet, and no name until the API server generates one. -/
def newEndpointSlice (service : Service) : EndpointSlice :=
  let epSlice : EndpointSlice := ⟨"", [], []⟩
  { epSlice with labels := (setEndpointSliceLabels epSlice service).1 }

/-- `getSliceToFill`: the slice that the endpoints fill closest to full, the first of those
equally close; none where no slice has room for them all. -/
def getSliceToFill (endpointSlices : List EndpointSlice) (numEndpoints maxEndpoints : ℕ) :
    Option EndpointSlice :=
  go endpointSlices maxEndpoints none
where
  go : List EndpointSlice → ℤ → Option EndpointSlice → Option EndpointSlice
    | [], _, closestSlice => closestSlice
    | endpointSlice :: rest, closestDiff, closestSlice =>
      let currentDiff : ℤ := maxEndpoints - (numEndpoints + endpointSlice.endpoints.length)
      if 0 ≤ currentDiff ∧ currentDiff < closestDiff then
        if currentDiff = 0 then some endpointSlice else go rest currentDiff (some endpointSlice)
      else go rest closestDiff closestSlice

/-! ## The reconciler -/

structure Reconciler where
  maxEndpointsPerSlice : ℕ

/-- The orders Go leaves open: the slices to top up after `UnsortedList` and
`sort.Sort(endpointSliceEndpointLen(...))`, and the names of the unchanged slices as
`UnsortedList` gives them. -/
structure Orders where
  byLength : List EndpointSlice → List EndpointSlice
  unchanged : List String → List String

/-- The state of the passes: `slicesByName`, the three name sets, the count of endpoints removed,
what is left of the desired set, and the slices to create. -/
structure Pass where
  slicesByName : String → Option EndpointSlice
  sliceNamesUnchanged : List String
  sliceNamesToUpdate : List String
  sliceNamesToDelete : List String
  numRemoved : ℕ
  desiredSet : EndpointSet
  slicesToCreate : List EndpointSlice

/-- `sets.String.Insert` on the names as a list. -/
def insertName (names : List String) (name : String) : List String := names.insert name

/-- The scan of one existing slice's endpoints: the desired versions of those still desired, in
order, whether one of them differs beyond its hash, and the desired set without them. -/
def keepDesired : List Endpoint → EndpointSet → List Endpoint × Bool × EndpointSet
  | [], desiredSet => ([], false, desiredSet)
  | endpoint :: rest, desiredSet =>
    match desiredSet.get (hashEndpoint endpoint) with
    | some got =>
      -- once an endpoint has been found in a slice it is no longer handled
      let (newEndpoints, endpointUpdated, desiredSet) :=
        keepDesired rest (desiredSet.erase (hashEndpoint endpoint))
      (got :: newEndpoints, !endpointsEqualBeyondHash got endpoint || endpointUpdated, desiredSet)
    | none => keepDesired rest desiredSet

section Passes

variable (service : Service)

/-- One round of the first pass, over an existing slice. -/
def reconcileExisting (pass : Pass) (existingSlice : EndpointSlice) : Pass :=
  let name := existingSlice.name
  let pass := { pass with slicesByName := Function.update pass.slicesByName name (some existingSlice) }
  let (newEndpoints, endpointUpdated, desiredSet) := keepDesired existingSlice.endpoints pass.desiredSet
  let pass := { pass with desiredSet }
  let (labels, labelsChanged) := setEndpointSliceLabels existingSlice service
  if endpointUpdated || existingSlice.endpoints.length != newEndpoints.length then
    let pass :=
      if newEndpoints.length < existingSlice.endpoints.length then
        { pass with numRemoved := pass.numRemoved + (existingSlice.endpoints.length - newEndpoints.length) }
      else pass
    if newEndpoints.length = 0 then { pass with sliceNamesToDelete := insertName pass.sliceNamesToDelete name }
    else
      let epSlice := { existingSlice with endpoints := newEndpoints, labels }
      { pass with
        slicesByName := Function.update pass.slicesByName name (some epSlice)
        sliceNamesToUpdate := insertName pass.sliceNamesToUpdate name }
  else if labelsChanged then
    let epSlice := { existingSlice with labels }
    { pass with
      slicesByName := Function.update pass.slicesByName name (some epSlice)
      sliceNamesToUpdate := insertName pass.sliceNamesToUpdate name }
  else { pass with sliceNamesUnchanged := insertName pass.sliceNamesUnchanged name }

variable (r : Reconciler) (orders : Orders)

/-- `for desiredSet.Len() > 0 && len(endpoints) < maxEndpointsPerSlice`: append popped endpoints
while there is room. -/
def fillSlice (endpoints : List Endpoint) (desiredSet : EndpointSet) : List Endpoint × EndpointSet :=
  if endpoints.length < r.maxEndpointsPerSlice then
    match popped : desiredSet.popAny with
    | some (endpoint, rest) =>
      have : rest.size < desiredSet.size := by
        have smaller := Keyed.size_popAny popped
        omega
      fillSlice (endpoints ++ [endpoint]) rest
    | none => (endpoints, desiredSet)
  else (endpoints, desiredSet)
termination_by desiredSet.size

/-- The second pass: top up the slices to update, in the order the sort leaves them. -/
def fillSlicesToUpdate (pass : Pass) : Pass :=
  let slices := orders.byLength (pass.sliceNamesToUpdate.filterMap pass.slicesByName)
  slices.foldl (fun pass slice =>
    let (endpoints, desiredSet) := fillSlice r slice.endpoints pass.desiredSet
    { pass with
      slicesByName := Function.update pass.slicesByName slice.name (some { slice with endpoints })
      desiredSet }) pass

/-- One round of the third pass: fill the unchanged slice `getSliceToFill` picks when the rest
fits below the limit, or a new slice. -/
def placeRound (pass : Pass) : Pass :=
  let picked :=
    if pass.desiredSet.size < r.maxEndpointsPerSlice ∧ pass.sliceNamesUnchanged ≠ [] then
      getSliceToFill ((orders.unchanged pass.sliceNamesUnchanged).filterMap pass.slicesByName)
        pass.desiredSet.size r.maxEndpointsPerSlice
    else none
  let sliceToFill := picked.getD (newEndpointSlice service)
  let (endpoints, desiredSet) := fillSlice r sliceToFill.endpoints pass.desiredSet
  let sliceToFill := { sliceToFill with endpoints }
  -- the copy of a picked slice is stored under its name, and the fill writes into it
  let pass := { pass with
    slicesByName :=
      if picked.isSome then Function.update pass.slicesByName sliceToFill.name (some sliceToFill)
      else pass.slicesByName
    desiredSet }
  -- a new slice has no name yet
  if sliceToFill.name != "" then
    { pass with
      sliceNamesToUpdate := insertName pass.sliceNamesToUpdate sliceToFill.name
      sliceNamesUnchanged := pass.sliceNamesUnchanged.erase sliceToFill.name }
  else { pass with slicesToCreate := pass.slicesToCreate ++ [sliceToFill] }

/-- The third pass, `for desiredSet.Len() > 0`, for at most `fuel` rounds: none where rounds are
left when the fuel is spent, which stands for the loop that never ends when no slice may hold an
endpoint. -/
def placeRemaining : ℕ → Pass → Option Pass
  | fuel, pass =>
    if pass.desiredSet.size = 0 then some pass
    else
      match fuel with
      | 0 => none
      | fuel + 1 => placeRemaining fuel (placeRound service r orders pass)

/-- What `reconcileByPortMapping` returns. -/
structure Reconciled where
  slicesToCreate : List EndpointSlice
  slicesToUpdate : List EndpointSlice
  slicesToDelete : List EndpointSlice
  numAdded : ℕ
  numRemoved : ℕ

/-- `reconcileByPortMapping`, with as many rounds of the third pass as endpoints are left for
it. -/
def reconcileByPortMapping (existingSlices : List EndpointSlice) (desiredSet : EndpointSet) :
    Option Reconciled :=
  let pass := existingSlices.foldl (reconcileExisting service) ⟨fun _ => none, [], [], [], 0, desiredSet, []⟩
  let numAdded := pass.desiredSet.size
  let pass :=
    if 0 < pass.desiredSet.size ∧ pass.sliceNamesToUpdate ≠ [] then fillSlicesToUpdate r orders pass
    else pass
  (placeRemaining service r orders pass.desiredSet.size pass).map fun pass =>
    ⟨pass.slicesToCreate, pass.sliceNamesToUpdate.filterMap pass.slicesByName,
      pass.sliceNamesToDelete.filterMap pass.slicesByName, numAdded, pass.numRemoved⟩

end Passes

end Kubernetes.Controller.Endpointslice
