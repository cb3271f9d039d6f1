import Mathlib.Data.List.AList
import Kubernetes.Scheduler.Preemption.SelectVictims

/-! The hard constraints of pod topology spread (`filtering.go` and `common.go` in
`pkg/scheduler/framework/plugins/podtopologyspread`).

PreFilter counts, for each constraint, the pods matching its selector on the nodes that pass the
pod's required node affinity and carry the key of every constraint, by topology pair. It records
how many domains each key has and, in two critical paths per key, the domains with the fewest
matching pods. The `AddPod` and `RemovePod` extensions move a pair's count by one and update its
key's paths; Filter checks the count of the node's domain, with the pod itself, against the
least count of the key.

Go maps are `AList`s. The paths are filled by ranging over the pair counts, which Go does in no
fixed order: that walk takes the entries in the order given. The required node affinity is what
`GetRequiredNodeAffinity(pod).Match` makes of a node, a parse error reading as no match, and the
default selector is what `helper.DefaultSelector` builds from the services and controllers of the
pod. Updating the paths of a key that has none would dereference nil in Go; the model leaves the
paths as they are there, and every constraint's key has its paths from PreFilter on.
-/

set_option autoImplicit false

namespace Kubernetes.Scheduler.Podtopologyspread

open Kubernetes.Library Kubernetes.Scheduler.Defaultpreemption

def errReasonConstraintsNotMatch : String := "node(s) didn't match pod topology spread constraints"

def errReasonNodeLabelNotMatch : String := errReasonConstraintsNotMatch ++ " (missing required label)"

/-- What `getPreFilterState` reports where PreFilter wrote no state. -/
def errReadPreFilterState : String := "reading \"PreFilterPodTopologySpread\" from cycleState: not found"

@[ext]
structure TopologyPair where
  key : String
  value : String
  deriving DecidableEq, Repr

/-- The plugin's `topologySpreadConstraint`: a constraint with its selector parsed. -/
structure TopologySpreadConstraint where
  maxSkew : ℤ
  topologyKey : String
  selector : Selector
  minDomains : ℤ
  deriving DecidableEq, Repr

/-- `PodTopologySpread`, by what filtering reads of it. -/
structure PodTopologySpread where
  defaultConstraints : List Scheduler.TopologySpreadConstraint
  enableMinDomainsInPodTopologySpread : Bool

/-! ## `common.go` -/

/-- `nodeLabelsMatchSpreadConstraints`: the node carries every constraint's key. -/
def nodeLabelsMatchSpreadConstraints (nodeLabels : Labels) (constraints : List TopologySpreadConstraint) : Bool :=
  constraints.all fun c => (nodeLabels.lookup c.topologyKey).isSome

/-- `filterTopologySpreadConstraints`: the constraints of the action given, with their selectors
parsed; the first selector that does not parse fails the whole list. -/
def filterTopologySpreadConstraints (action : UnsatisfiableConstraintAction)
    (enableMinDomainsInPodTopologySpread : Bool) :
    List Scheduler.TopologySpreadConstraint → Except String (List TopologySpreadConstraint)
  | [] => .ok []
  | c :: constraints =>
    if c.whenUnsatisfiable = action then
      match c.labelSelector with
      | .error err => .error err
      | .ok selector =>
        -- a nil `MinDomains` is taken as 1
        let minDomains := if enableMinDomainsInPodTopologySpread then c.minDomains.getD 1 else 1
        (filterTopologySpreadConstraints action enableMinDomainsInPodTopologySpread constraints).map
          (⟨c.maxSkew, c.topologyKey, selector, minDomains⟩ :: ·)
    else filterTopologySpreadConstraints action enableMinDomainsInPodTopologySpread constraints

/-- `countPodsMatchSelector`: the pods of the namespace, not terminating, that the selector
matches. -/
def countPodsMatchSelector (podInfos : List PodInfo) (selector : Selector) (ns : String) : ℕ :=
  podInfos.countP fun p => p.pod.deletionTimestamp.isNone && p.pod.namespace == ns && selector.matches p.pod.labels

/-- `buildDefaultConstraints`: the plugin's default constraints of the action, each with the
pod's default selector; none where that selector is empty. -/
def buildDefaultConstraints (pl : PodTopologySpread) (defaultSelector : Selector)
    (action : UnsatisfiableConstraintAction) : Except String (List TopologySpreadConstraint) :=
  match filterTopologySpreadConstraints action pl.enableMinDomainsInPodTopologySpread pl.defaultConstraints with
  | .error err => .error err
  | .ok [] => .ok []
  | .ok constraints =>
    if defaultSelector.empty then .ok []
    else .ok (constraints.map fun c => { c with selector := defaultSelector })

/-! ## Critical paths -/

structure CriticalPath where
  topologyValue : String
  matchNum : ℤ
  deriving DecidableEq, Repr

/-- `criticalPaths`: `paths[0]` and `paths[1]`. -/
structure CriticalPaths where
  first : CriticalPath
  second : CriticalPath
  deriving DecidableEq, Repr

def newCriticalPaths : CriticalPaths := ⟨⟨"", maxInt32⟩, ⟨"", maxInt32⟩⟩

/-- The swap of `paths[0]` and `paths[1]` where the first has the larger count. -/
def CriticalPaths.order (p : CriticalPaths) : CriticalPaths :=
  if p.first.matchNum > p.second.matchNum then ⟨p.second, p.first⟩ else p

def CriticalPaths.update (p : CriticalPaths) (tpVal : String) (num : ℤ) : CriticalPaths :=
  if tpVal = p.first.topologyValue then { p with first := { p.first with matchNum := num } }.order
  else if tpVal = p.second.topologyValue then { p with second := { p.second with matchNum := num } }.order
  -- `tpVal` has no path: `paths[1]` takes `paths[0]` where `tpVal` takes `paths[0]`
  else if num < p.first.matchNum then ⟨⟨tpVal, num⟩, p.first⟩
  else if num < p.second.matchNum then { p with second := ⟨tpVal, num⟩ }
  else p

/-! ## The state -/

structure PreFilterState where
  constraints : List TopologySpreadConstraint
  tpKeyToCriticalPaths : AList fun _ : String => CriticalPaths
  tpKeyToDomainsNum : AList fun _ : String => ℕ
  tpPairToMatchNum : AList fun _ : TopologyPair => ℤ

/-- `preFilterState.minMatchNum`: the global minimum of a key, which is 0 where fewer domains than
`minDomains` are eligible. -/
def PreFilterState.minMatchNum (s : PreFilterState) (tpKey : String) (minDomains : ℤ)
    (enableMinDomainsInPodTopologySpread : Bool) : Except String ℤ :=
  match s.tpKeyToCriticalPaths.lookup tpKey with
  | none => .error "failed to retrieve path by topology key"
  | some paths =>
    if !enableMinDomainsInPodTopologySpread then .ok paths.first.matchNum
    else
      match s.tpKeyToDomainsNum.lookup tpKey with
      | none => .error "failed to retrieve the number of domains by topology key"
      | some domainsNum => if (domainsNum : ℤ) < minDomains then .ok 0 else .ok paths.first.matchNum

/-- `TpKeyToCriticalPaths[pair.key].update(pair.value, num)`. -/
def updatePaths (paths : AList fun _ : String => CriticalPaths) (pair : TopologyPair) (num : ℤ) :
    AList fun _ : String => CriticalPaths :=
  match paths.lookup pair.key with
  | some p => paths.insert pair.key (p.update pair.value num)
  | none => paths

/-- One round of the loop of `updateWithPod`: where the constraint matches the pod, move the count
of the constraint's pair of the node by `delta` and record the new count in the key's paths. -/
def PreFilterState.updateWithConstraint (s : PreFilterState) (updatedPod : Pod) (node : Node) (delta : ℤ)
    (constraint : TopologySpreadConstraint) : PreFilterState :=
  if !constraint.selector.matches updatedPod.labels then s
  else
    let pair : TopologyPair := ⟨constraint.topologyKey, (node.labels.lookup constraint.topologyKey).getD ""⟩
    let num := (s.tpPairToMatchNum.lookup pair).getD 0 + delta
    { s with
      tpPairToMatchNum := s.tpPairToMatchNum.insert pair num
      tpKeyToCriticalPaths := updatePaths s.tpKeyToCriticalPaths pair num }

/-- `preFilterState.updateWithPod`: for a pod of the preemptor's namespace on a node that carries
every key, the loop over the constraints. -/
def PreFilterState.updateWithPod (s : PreFilterState) (updatedPod preemptorPod : Pod) (node : Option Node)
    (delta : ℤ) : PreFilterState :=
  match node with
  | none => s
  | some node =>
    if updatedPod.namespace ≠ preemptorPod.namespace then s
    else if !nodeLabelsMatchSpreadConstraints node.labels s.constraints then s
    else s.constraints.foldl (fun s constraint => s.updateWithConstraint updatedPod node delta constraint) s

/-! ## PreFilter -/

/-- The order the walk over the pair counts takes their entries in. -/
abbrev PairOrder := List (Σ _ : TopologyPair, ℤ) → List (Σ _ : TopologyPair, ℤ)

/-- The pair counts of one node, `tpCountsByNode[i]`: each constraint's count under the node's pair
for the constraint's key, a later constraint of the same key overwriting an earlier one. Empty for
a node PreFilter skips. -/
def tpCountsOfNode (constraints : List TopologySpreadConstraint) (pod : Pod) (requiredNodeAffinity : Node → Bool)
    (nodeInfo : NodeInfo) : AList fun _ : TopologyPair => ℤ :=
  match nodeInfo.node with
  | none => ∅
  | some node =>
    if !requiredNodeAffinity node then ∅
    else if !nodeLabelsMatchSpreadConstraints node.labels constraints then ∅
    else
      constraints.foldl (fun tpCounts c =>
        tpCounts.insert ⟨c.topologyKey, (node.labels.lookup c.topologyKey).getD ""⟩
          (countPodsMatchSelector nodeInfo.pods c.selector pod.namespace)) ∅

/-- `s.TpPairToMatchNum[tp] += count` for each pair count of a node. -/
def addTpCounts (tpPairToMatchNum tpCounts : AList fun _ : TopologyPair => ℤ) : AList fun _ : TopologyPair => ℤ :=
  tpCounts.entries.foldl (fun m entry => m.insert entry.1 ((m.lookup entry.1).getD 0 + entry.2)) tpPairToMatchNum

/-- `TpKeyToDomainsNum`: how many pairs each key has. -/
def domainsNumOf (tpPairToMatchNum : AList fun _ : TopologyPair => ℤ) : AList fun _ : String => ℕ :=
  tpPairToMatchNum.entries.foldl (fun m entry => m.insert entry.1.key ((m.lookup entry.1.key).getD 0 + 1)) ∅

/-- What `calPreFilterState` computes once it has non-empty constraints. -/
def preFilterStateFor (pl : PodTopologySpread) (requiredNodeAffinity : Node → Bool) (order : PairOrder)
    (allNodes : List NodeInfo) (pod : Pod) (constraints : List TopologySpreadConstraint) : PreFilterState :=
  let tpPairToMatchNum := allNodes.foldl
    (fun m nodeInfo => addTpCounts m (tpCountsOfNode constraints pod requiredNodeAffinity nodeInfo)) ∅
  let tpKeyToDomainsNum := if pl.enableMinDomainsInPodTopologySpread then domainsNumOf tpPairToMatchNum else ∅
  let paths := constraints.foldl (fun paths c => paths.insert c.topologyKey newCriticalPaths) ∅
  let paths := (order tpPairToMatchNum.entries).foldl (fun paths entry => updatePaths paths entry.1 entry.2) paths
  ⟨constraints, paths, tpKeyToDomainsNum, tpPairToMatchNum⟩

/-- `calPreFilterState`: an empty state where the pod has no hard constraints. -/
def calPreFilterState (pl : PodTopologySpread) (defaultSelector : Selector) (requiredNodeAffinity : Node → Bool)
    (order : PairOrder) (allNodes : List NodeInfo) (pod : Pod) : Except String PreFilterState := do
  let constraints ←
    if pod.spec.topologySpreadConstraints ≠ [] then
      (filterTopologySpreadConstraints .doNotSchedule pl.enableMinDomainsInPodTopologySpread
          pod.spec.topologySpreadConstraints).mapError ("obtaining pod's hard topology spread constraints: " ++ ·)
    else
      (buildDefaultConstraints pl defaultSelector .doNotSchedule).mapError
        ("setting default hard topology spread constraints: " ++ ·)
  if constraints = [] then return ⟨[], ∅, ∅, ∅⟩
  return preFilterStateFor pl requiredNodeAffinity order allNodes pod constraints

/-! ## The extensions and Filter -/

/-- `AddPod`: the cycle state's entry afterwards, and the status. -/
def addPod (state : Option PreFilterState) (podToSchedule : Pod) (podInfoToAdd : PodInfo) (nodeInfo : NodeInfo) :
    Option PreFilterState × Status :=
  match state with
  | none => (none, ⟨.error, [errReadPreFilterState]⟩)
  | some s => (some (s.updateWithPod podInfoToAdd.pod podToSchedule nodeInfo.node 1), ⟨.success, []⟩)

def removePod (state : Option PreFilterState) (podToSchedule : Pod) (podInfoToRemove : PodInfo) (nodeInfo : NodeInfo) :
    Option PreFilterState × Status :=
  match state with
  | none => (none, ⟨.error, [errReadPreFilterState]⟩)
  | some s => (some (s.updateWithPod podInfoToRemove.pod podToSchedule nodeInfo.node (-1)), ⟨.success, []⟩)

/-- The loop of Filter over the constraints: the first that fails decides; one whose global
minimum cannot be read is skipped. -/
def filterConstraints (pl : PodTopologySpread) (s : PreFilterState) (pod : Pod) (node : Node) :
    List TopologySpreadConstraint → Status
  | [] => ⟨.success, []⟩
  | c :: constraints =>
    match node.labels.lookup c.topologyKey with
    | none => ⟨.unschedulableAndUnresolvable, [errReasonNodeLabelNotMatch]⟩
    | some tpVal =>
      let selfMatchNum : ℤ := if c.selector.matches pod.labels then 1 else 0
      match s.minMatchNum c.topologyKey c.minDomains pl.enableMinDomainsInPodTopologySpread with
      | .error _ => filterConstraints pl s pod node constraints
      | .ok minMatchNum =>
        let matchNum := (s.tpPairToMatchNum.lookup ⟨c.topologyKey, tpVal⟩).getD 0
        if matchNum + selfMatchNum - minMatchNum > c.maxSkew then ⟨.unschedulable, [errReasonConstraintsNotMatch]⟩
        else filterConstraints pl s pod node constraints

def filter (pl : PodTopologySpread) (state : Option PreFilterState) (pod : Pod) (nodeInfo : NodeInfo) : Status :=
  match nodeInfo.node with
  | none => ⟨.error, ["node not found"]⟩
  | some node =>
    match state with
    | none => ⟨.error, [errReadPreFilterState]⟩
    | some s =>
      -- an empty state tolerates every pod
      if s.constraints = [] then ⟨.success, []⟩ else filterConstraints pl s pod node s.constraints

end Kubernetes.Scheduler.Podtopologyspread
