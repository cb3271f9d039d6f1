import Kubernetes.Library.LinkedList
import Kubernetes.Library.Transition
import Kubernetes.Scheduler.Cache.NodeTree

/-! The scheduler's cache (`cacheImpl` in `pkg/scheduler/internal/cache/cache.go`).

The cache keeps the pods it was told of by key (`podStates`), the keys of the pods the scheduler
assumed on a node before their binding was observed (`assumedPods`), a `NodeInfo` for every node
that has a node object or pods (`nodes`), those `NodeInfo`s in a doubly linked list from the most
recently updated (`headNode`), and the zone tree of the node names. Every update of a `NodeInfo`
takes the next value of the framework package's `generation` counter, which the cache's state
carries here. The image states, the metrics and the `Clone` a call returns are left out.

A call that ends the process (`os.Exit`, a nil dereference) returns `none`. Pointers to list
items are the names the items are stored under (see `Kubernetes.Library.LinkedList`). Times are
nanoseconds, and `time.Add` adds.
-/

set_option autoImplicit false

namespace Kubernetes.Scheduler.Cache

open Kubernetes.Library Kubernetes.Scheduler

structure PodState where
  pod : Pod
  /-- Used by an assumed pod to determine its expiration. -/
  deadline : Option ℤ := none
  /-- Used to block the cache from expiring an assumed pod while its binding runs. -/
  bindingFinished : Bool := false

structure CacheImpl where
  ttl : ℤ
  assumedPods : Finset String
  podStates : AList fun _ : String => PodState
  nodes : Cells String NodeInfo
  headNode : Option String
  nodeTree : NodeTree
  /-- The framework package's `generation`. -/
  generation : ℤ

namespace CacheImpl

/-- `newCache`, with the counter where the process left it. -/
def newCache (ttl generation : ℤ) : CacheImpl := ⟨ttl, ∅, ∅, ∅, none, NodeTree.empty, generation⟩

/-- A call of `nextGeneration()`; the counter's new value is what it returns. -/
def nextGen (c : CacheImpl) : CacheImpl := { c with generation := nextGeneration c.generation }

def moveNodeInfoToHead (c : CacheImpl) (name : String) : CacheImpl :=
  let moved := moveToHead c.nodes c.headNode name
  { c with nodes := moved.1, headNode := moved.2 }

def removeNodeInfoFromList (c : CacheImpl) (name : String) : CacheImpl :=
  let removed := unlink c.nodes c.headNode name
  { c with nodes := removed.1, headNode := removed.2 }

/-- `cache.nodes[name] = newNodeInfoListItem(framework.NewNodeInfo())` where the name has no
`NodeInfo` yet. -/
def ensureNodeInfo (c : CacheImpl) (name : String) : CacheImpl :=
  match c.nodes.lookup name with
  | some _ => c
  | none =>
    let c := c.nextGen
    { c with nodes := c.nodes.insert name ({ info := newNodeInfo c.generation } : Cell String NodeInfo) }

/-- A write to the `NodeInfo` of `name` that takes the next generation. -/
def updateNodeInfo (c : CacheImpl) (name : String) (f : NodeInfo → ℤ → NodeInfo) : CacheImpl :=
  let c := c.nextGen
  { c with nodes := modifyInfo c.nodes name fun info => f info c.generation }

/-! ### What the helpers change -/

@[simp] theorem nextGen_podStates (c : CacheImpl) : c.nextGen.podStates = c.podStates := rfl
@[simp] theorem nextGen_assumedPods (c : CacheImpl) : c.nextGen.assumedPods = c.assumedPods := rfl
@[simp] theorem nextGen_nodes (c : CacheImpl) : c.nextGen.nodes = c.nodes := rfl
@[simp] theorem nextGen_headNode (c : CacheImpl) : c.nextGen.headNode = c.headNode := rfl
@[simp] theorem nextGen_nodeTree (c : CacheImpl) : c.nextGen.nodeTree = c.nodeTree := rfl
@[simp] theorem nextGen_generation (c : CacheImpl) : c.nextGen.generation = nextGeneration c.generation := rfl

@[simp] theorem moveNodeInfoToHead_podStates (c : CacheImpl) (name : String) :
    (c.moveNodeInfoToHead name).podStates = c.podStates := rfl
@[simp] theorem moveNodeInfoToHead_assumedPods (c : CacheImpl) (name : String) :
    (c.moveNodeInfoToHead name).assumedPods = c.assumedPods := rfl
@[simp] theorem moveNodeInfoToHead_nodeTree (c : CacheImpl) (name : String) :
    (c.moveNodeInfoToHead name).nodeTree = c.nodeTree := rfl
@[simp] theorem moveNodeInfoToHead_generation (c : CacheImpl) (name : String) :
    (c.moveNodeInfoToHead name).generation = c.generation := rfl
@[simp] theorem infoOf_moveNodeInfoToHead (c : CacheImpl) (name j : String) :
    infoOf (c.moveNodeInfoToHead name).nodes j = infoOf c.nodes j :=
  infoOf_moveToHead _ _ _ _

@[simp] theorem removeNodeInfoFromList_podStates (c : CacheImpl) (name : String) :
    (c.removeNodeInfoFromList name).podStates = c.podStates := rfl
@[simp] theorem removeNodeInfoFromList_assumedPods (c : CacheImpl) (name : String) :
    (c.removeNodeInfoFromList name).assumedPods = c.assumedPods := rfl
@[simp] theorem removeNodeInfoFromList_nodeTree (c : CacheImpl) (name : String) :
    (c.removeNodeInfoFromList name).nodeTree = c.nodeTree := rfl
@[simp] theorem removeNodeInfoFromList_generation (c : CacheImpl) (name : String) :
    (c.removeNodeInfoFromList name).generation = c.generation := rfl
theorem infoOf_removeNodeInfoFromList (c : CacheImpl) (name j : String) :
    infoOf (c.removeNodeInfoFromList name).nodes j = if j = name then none else infoOf c.nodes j :=
  infoOf_unlink _ _ _ _

@[simp] theorem ensureNodeInfo_podStates (c : CacheImpl) (name : String) :
    (c.ensureNodeInfo name).podStates = c.podStates := by
  unfold ensureNodeInfo
  split <;> rfl
@[simp] theorem ensureNodeInfo_assumedPods (c : CacheImpl) (name : String) :
    (c.ensureNodeInfo name).assumedPods = c.assumedPods := by
  unfold ensureNodeInfo
  split <;> rfl
@[simp] theorem ensureNodeInfo_nodeTree (c : CacheImpl) (name : String) :
    (c.ensureNodeInfo name).nodeTree = c.nodeTree := by
  unfold ensureNodeInfo
  split <;> rfl
@[simp] theorem ensureNodeInfo_headNode (c : CacheImpl) (name : String) :
    (c.ensureNodeInfo name).headNode = c.headNode := by
  unfold ensureNodeInfo
  split <;> rfl

theorem infoOf_ensureNodeInfo (c : CacheImpl) (name j : String) :
    infoOf (c.ensureNodeInfo name).nodes j =
      if j = name ∧ infoOf c.nodes name = none then some (newNodeInfo (nextGeneration c.generation))
      else infoOf c.nodes j := by
  unfold ensureNodeInfo
  cases found : c.nodes.lookup name with
  | some cell =>
    have present : infoOf c.nodes name ≠ none := by simp [infoOf, found]
    simp [present]
  | none =>
    by_cases same : j = name
    · subst same
      simp [infoOf, found]
    · simp [same, infoOf, AList.lookup_insert_ne same]

@[simp] theorem updateNodeInfo_podStates (c : CacheImpl) (name : String) (f : NodeInfo → ℤ → NodeInfo) :
    (c.updateNodeInfo name f).podStates = c.podStates := rfl
@[simp] theorem updateNodeInfo_assumedPods (c : CacheImpl) (name : String) (f : NodeInfo → ℤ → NodeInfo) :
    (c.updateNodeInfo name f).assumedPods = c.assumedPods := rfl
@[simp] theorem updateNodeInfo_nodeTree (c : CacheImpl) (name : String) (f : NodeInfo → ℤ → NodeInfo) :
    (c.updateNodeInfo name f).nodeTree = c.nodeTree := rfl
@[simp] theorem updateNodeInfo_headNode (c : CacheImpl) (name : String) (f : NodeInfo → ℤ → NodeInfo) :
    (c.updateNodeInfo name f).headNode = c.headNode := rfl
@[simp] theorem updateNodeInfo_generation (c : CacheImpl) (name : String) (f : NodeInfo → ℤ → NodeInfo) :
    (c.updateNodeInfo name f).generation = nextGeneration c.generation := rfl

theorem infoOf_updateNodeInfo (c : CacheImpl) (name j : String) (f : NodeInfo → ℤ → NodeInfo) :
    infoOf (c.updateNodeInfo name f).nodes j =
      if j = name then (infoOf c.nodes name).map (f · (nextGeneration c.generation)) else infoOf c.nodes j := by
  by_cases same : j = name
  · subst same
    simp [updateNodeInfo, infoOf_modifyInfo_self]
  · simp [same, updateNodeInfo, infoOf_modifyInfo_ne _ same]

section Pods

variable (isolation : Bool)

def addPod (c : CacheImpl) (pod : Pod) (assumePod : Bool) : Except String CacheImpl :=
  match getPodKey pod with
  | .error err => .error err
  | .ok key =>
    let c := c.ensureNodeInfo pod.spec.nodeName
    let c := c.updateNodeInfo pod.spec.nodeName fun info => info.addPod isolation pod
    let c := c.moveNodeInfoToHead pod.spec.nodeName
    let c := { c with podStates := c.podStates.insert key { pod := pod } }
    .ok (if assumePod then { c with assumedPods := insert key c.assumedPods } else c)

/-- `removePod`, with the error it returns; `none` where `RemovePod` panics. A pod whose node has
no `NodeInfo` is forgotten all the same. -/
def removePod (c : CacheImpl) (pod : Pod) : Option (CacheImpl × Option String) :=
  match getPodKey pod with
  | .error err => some (c, some err)
  | .ok key =>
    let name := pod.spec.nodeName
    let forget := fun (c : CacheImpl) =>
      ({ c with podStates := c.podStates.erase key, assumedPods := c.assumedPods.erase key }, (none : Option String))
    match c.nodes.lookup name with
    | none => some (forget c)
    | some n =>
      match n.info.removePod isolation pod (nextGeneration c.generation) with
      | none => none
      | some (info, some err) =>
        -- the affinity slices were updated before the pod was looked for
        some ({ c with nodes := modifyInfo c.nodes name fun _ => info }, some err.error)
      | some (info, none) =>
        let c := c.nextGen
        let c := { c with nodes := modifyInfo c.nodes name fun _ => info }
        let c := if info.pods = [] ∧ info.node = none then c.removeNodeInfoFromList name
          else c.moveNodeInfoToHead name
        some (forget c)

def updatePod (c : CacheImpl) (oldPod newPod : Pod) : Option (CacheImpl × Option String) :=
  match c.removePod isolation oldPod with
  | some (c, none) =>
    match c.addPod isolation newPod false with
    | .ok c => some (c, none)
    | .error err => some (c, some err)
  | removed => removed

def assumePod (c : CacheImpl) (pod : Pod) : Except String CacheImpl :=
  match getPodKey pod with
  | .error err => .error err
  | .ok key =>
    if key ∈ c.podStates then .error ("pod " ++ key ++ " is in the cache, so can't be assumed")
    else c.addPod isolation pod true

/-- `finishBinding`: an assumed pod may expire `ttl` after `now`. -/
def finishBinding (c : CacheImpl) (pod : Pod) (now : ℤ) : Except String CacheImpl :=
  match getPodKey pod with
  | .error err => .error err
  | .ok key =>
    match c.podStates.lookup key with
    | some currState =>
      if key ∈ c.assumedPods then
        let finished := { currState with bindingFinished := true, deadline := some (now + c.ttl) }
        .ok { c with podStates := c.podStates.insert key finished }
      else .ok c
    | none => .ok c

def forgetPod (c : CacheImpl) (pod : Pod) : Option (CacheImpl × Option String) :=
  match getPodKey pod with
  | .error err => some (c, some err)
  | .ok key =>
    let notAssumed := "pod " ++ key ++ " wasn't assumed so cannot be forgotten"
    match c.podStates.lookup key with
    | some currState =>
      if currState.pod.spec.nodeName ≠ pod.spec.nodeName then
        some (c, some ("pod " ++ key ++ " was assumed on " ++ pod.spec.nodeName ++ " but assigned to " ++
          currState.pod.spec.nodeName))
      else if key ∈ c.assumedPods then c.removePod isolation pod
      else some (c, some notAssumed)
    | none => some (c, some notAssumed)

/-- `AddPod`: the errors of `updatePod` and `addPod` are logged, not returned. -/
def AddPod (c : CacheImpl) (pod : Pod) : Option (CacheImpl × Option String) :=
  match getPodKey pod with
  | .error err => some (c, some err)
  | .ok key =>
    match c.podStates.lookup key with
    | some currState =>
      if key ∈ c.assumedPods then
        if currState.pod.spec.nodeName ≠ pod.spec.nodeName then
          -- the pod was added to another node than it was assumed on
          (c.updatePod isolation currState.pod pod).map fun updated => (updated.1, none)
        else
          let added := { currState with deadline := none, pod := pod }
          some ({ c with assumedPods := c.assumedPods.erase key, podStates := c.podStates.insert key added }, none)
      else some (c, some ("pod " ++ key ++ " was already in added state"))
    | none =>
      -- the pod expired: it is added back
      match c.addPod isolation pod false with
      | .ok c => some (c, none)
      | .error _ => some (c, none)

/-- `UpdatePod`: a pod moved to another node ends the process. -/
def UpdatePod (c : CacheImpl) (oldPod newPod : Pod) : Option (CacheImpl × Option String) :=
  match getPodKey oldPod with
  | .error err => some (c, some err)
  | .ok key =>
    let notAdded := "pod " ++ key ++ " is not added to scheduler cache, so cannot be updated"
    match c.podStates.lookup key with
    | some currState =>
      if key ∉ c.assumedPods then
        if currState.pod.spec.nodeName ≠ newPod.spec.nodeName then none
        else c.updatePod isolation oldPod newPod
      else some (c, some notAdded)
    | none => some (c, some notAdded)

/-- `RemovePod`: the stored pod is removed; a delete event naming another node than the stored
pod's, other than the empty name, ends the process. -/
def RemovePod (c : CacheImpl) (pod : Pod) : Option (CacheImpl × Option String) :=
  match getPodKey pod with
  | .error err => some (c, some err)
  | .ok key =>
    match c.podStates.lookup key with
    | none => some (c, some ("pod " ++ key ++ " is not found in scheduler cache, so cannot be removed from it"))
    | some currState =>
      if currState.pod.spec.nodeName ≠ pod.spec.nodeName ∧ pod.spec.nodeName ≠ "" then none
      else c.removePod isolation currState.pod

/-- One turn of `cleanupAssumedPods`: an assumed pod whose binding finished and whose deadline
passed is removed, its error logged; a key without a state ends the process, as does reading the
deadline of a pod that has none. -/
def cleanupStep (now : ℤ) (c : CacheImpl) (key : String) : Option CacheImpl :=
  match c.podStates.lookup key with
  | none => none
  | some ps =>
    if !ps.bindingFinished then some c
    else
      match ps.deadline with
      | none => none
      | some deadline => if now > deadline then (c.removePod isolation ps.pod).map Prod.fst else some c

/-- `cleanupAssumedPods`, over the assumed keys in the order the map walk takes them. -/
def cleanupAssumedPods (c : CacheImpl) (now : ℤ) (keys : List String) : Option CacheImpl :=
  keys.foldlM (cleanupStep isolation now) c

end Pods

/-! ## Nodes -/

def addNode (c : CacheImpl) (node : Node) : CacheImpl :=
  let c := c.ensureNodeInfo node.name
  let c := c.moveNodeInfoToHead node.name
  let c := { c with nodeTree := c.nodeTree.addNode node }
  c.updateNodeInfo node.name fun info => info.setNode node

/-- `UpdateNode`; `none` where the tree's `updateNode` dereferences a nil old node. -/
def updateNode (c : CacheImpl) (oldNode : Option Node) (newNode : Node) : Option CacheImpl :=
  let c := match c.nodes.lookup newNode.name with
    | some _ => c
    | none =>
      let c := c.ensureNodeInfo newNode.name
      { c with nodeTree := c.nodeTree.addNode newNode }
  let c := c.moveNodeInfoToHead newNode.name
  (c.nodeTree.updateNode oldNode newNode).map fun nodeTree =>
    { c with nodeTree := nodeTree }.updateNodeInfo newNode.name fun info => info.setNode newNode

/-- `RemoveNode`: a `NodeInfo` that still has pods stays, without its node object. -/
def removeNode (c : CacheImpl) (node : Node) : CacheImpl × Option String :=
  match c.nodes.lookup node.name with
  | none => (c, some ("node " ++ node.name ++ " is not found"))
  | some n =>
    let c := c.updateNodeInfo node.name fun info => info.removeNode
    let c := if n.info.pods = [] then c.removeNodeInfoFromList node.name else c.moveNodeInfoToHead node.name
    let removed := c.nodeTree.removeNode node
    ({ c with nodeTree := removed.1 }, removed.2)

/-! ## Runs -/

/-- The calls on the cache, and `elsewhere`: another `NodeInfo` of the process takes the next
generation. -/
inductive Call where
  | assumePod (pod : Pod)
  | finishBinding (pod : Pod) (now : ℤ)
  | forgetPod (pod : Pod)
  | addPod (pod : Pod)
  | updatePod (oldPod newPod : Pod)
  | removePod (pod : Pod)
  | addNode (node : Node)
  | updateNode (oldNode : Option Node) (newNode : Node)
  | removeNode (node : Node)
  | cleanupAssumedPods (now : ℤ) (keys : List String)
  | elsewhere

/-- The cache after a call, whatever the call returns; `none` where the process ends. -/
def step (isolation : Bool) (c : CacheImpl) : Call → Option CacheImpl
  | .assumePod pod => some ((c.assumePod isolation pod).toOption.getD c)
  | .finishBinding pod now => some ((c.finishBinding pod now).toOption.getD c)
  | .forgetPod pod => (c.forgetPod isolation pod).map Prod.fst
  | .addPod pod => (c.AddPod isolation pod).map Prod.fst
  | .updatePod oldPod newPod => (c.UpdatePod isolation oldPod newPod).map Prod.fst
  | .removePod pod => (c.RemovePod isolation pod).map Prod.fst
  | .addNode node => some (c.addNode node)
  | .updateNode oldNode newNode => c.updateNode oldNode newNode
  | .removeNode node => some (c.removeNode node).1
  | .cleanupAssumedPods now keys => c.cleanupAssumedPods isolation now keys
  | .elsewhere => some c.nextGen

/-- The cache from `newCache` on, under every sequence of calls with any arguments. -/
def system (isolation : Bool) : System CacheImpl Call :=
  System.ofPartial (fun c => ∃ ttl generation, c = newCache ttl generation) (step isolation)

end CacheImpl

end Kubernetes.Scheduler.Cache
