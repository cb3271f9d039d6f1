import Kubernetes.Scheduler.Framework.NodeInfo

/-! The victims of a preemption on one node (`DefaultPreemption.SelectVictimsOnNode` and
`filterPodsWithPDBViolation` in `pkg/scheduler/framework/plugins/defaultpreemption`).

The selection first takes every pod of lower priority than the preemptor off the node. Its loop
ranges over `nodeInfo.Pods` while `RemovePod` shortens that slice by moving its last element
into the hole: the range holds the array and the length the slice had when the loop began, and
reads each slot of that array when it comes to it, so it reads what `RemovePod` wrote there. If
the preemptor then fits, the pods taken off are sorted, split into those whose eviction violates
a disruption budget and the others, and put back one at a time: a pod stays where the preemptor
still fits with it, and is a victim where it does not.

The filter plugins are a function of the pods on the node, as they are where the `AddPod` and
`RemovePod` extensions keep the cycle state equal to its recomputation; the extensions then
succeed. The order `sort.Slice` leaves the pods in is an input.
-/

set_option autoImplicit false

namespace Kubernetes.Scheduler.Defaultpreemption

open Kubernetes.Scheduler Kubernetes.Scheduler.NodeInfo

/-! ## Statuses -/

inductive Code where
  | success
  | error
  | unschedulable
  | unschedulableAndUnresolvable
  | wait
  | skip
  deriving DecidableEq, Repr

/-- `framework.Status`, by its code and reasons. -/
structure Status where
  code : Code
  reasons : List String
  deriving DecidableEq, Repr

def Status.isSuccess (status : Status) : Bool := status.code == .success

def asStatus (err : RemovePodError) : Status := ⟨.error, [err.error]⟩

/-! ## Disruption budgets -/

/-- A `PodDisruptionBudget`, with what the classification reads. The selector is what
`LabelSelectorAsSelector` makes of the spec's, none where it fails; `DisruptedPods` is the set of
its keys. -/
structure PodDisruptionBudget where
  «namespace» : String
  selector : Option Selector
  disruptedPods : List String
  disruptionsAllowed : ℤ
  deriving DecidableEq, Repr

/-- Whether the loop over the budgets gets past its `continue`s for a pod with labels: a budget of
the pod's namespace whose selector is valid, not empty and matches the pod, and that has not
processed the pod's eviction yet. -/
def countsAgainst (pdb : PodDisruptionBudget) (pod : Pod) : Bool :=
  if pdb.namespace ≠ pod.namespace then false
  else
    match pdb.selector with
    -- an invalid selector matches nothing
    | none => false
    | some selector =>
      if selector.empty || !selector.matches pod.labels then false
      else !pdb.disruptedPods.contains pod.name

/-- The budgets left once a pod is counted: `pdbsAllowed[i]--` on an `int32`, for each budget
that counts the pod. -/
def decrementBudgets (pdbs : List PodDisruptionBudget) (pod : Pod) (pdbsAllowed : List ℤ) : List ℤ :=
  List.zipWith (fun pdb allowed => if countsAgainst pdb pod then (allowed - 1).bmod (2 ^ 32) else allowed)
    pdbs pdbsAllowed

/-- Whether a budget that counts the pod is below zero once it is counted. -/
def violatesBudget (pdbs : List PodDisruptionBudget) (pod : Pod) (pdbsAllowed : List ℤ) : Bool :=
  (List.zipWith (fun pdb allowed => countsAgainst pdb pod && decide (allowed < 0)) pdbs pdbsAllowed).or

/-- `filterPodsWithPDBViolation`: the pods, in their order, split into those whose eviction takes a
budget below zero and the others. A pod without labels matches no budget. -/
def filterPodsWithPDBViolation (podInfos : List PodInfo) (pdbs : List PodDisruptionBudget) :
    List PodInfo × List PodInfo :=
  go podInfos (pdbs.map (·.disruptionsAllowed)) [] []
where
  go : List PodInfo → List ℤ → List PodInfo → List PodInfo → List PodInfo × List PodInfo
    | [], _, violatingPodInfos, nonViolatingPodInfos => (violatingPodInfos, nonViolatingPodInfos)
    | podInfo :: rest, pdbsAllowed, violatingPodInfos, nonViolatingPodInfos =>
      let pod := podInfo.pod
      let pdbsAllowed := if pod.labels.isEmpty then pdbsAllowed else decrementBudgets pdbs pod pdbsAllowed
      if !pod.labels.isEmpty && violatesBudget pdbs pod pdbsAllowed then
        go rest pdbsAllowed (violatingPodInfos ++ [podInfo]) nonViolatingPodInfos
      else go rest pdbsAllowed violatingPodInfos (nonViolatingPodInfos ++ [podInfo])

/-! ## The selection -/

section Select

variable (isolation : Bool) (runFilter : List Pod → Status)

/-- The first loop: round `j` reads slot `j` of the array the range holds, and takes the pod there
off the node if its priority is lower. A removal leaves the array holding the shortened slice
followed by the slots past it. The result is the node, the potential victims and the error
that ends the loop; none where `RemovePod` panics. -/
def removeLowerPriority (priority : ℤ) :
    List ℕ → List PodInfo → NodeInfo → List PodInfo → Option (NodeInfo × List PodInfo × Option RemovePodError)
  | [], _, nodeInfo, potentialVictims => some (nodeInfo, potentialVictims, none)
  | j :: rounds, backing, nodeInfo, potentialVictims =>
    match backing[j]? with
    | none => some (nodeInfo, potentialVictims, none)
    | some pi =>
      if podPriority pi.pod < priority then
        let potentialVictims := potentialVictims ++ [pi]
        match nodeInfo.removePod isolation pi.pod (nextGeneration nodeInfo.generation) with
        | none => none
        | some (nodeInfo, some err) => some (nodeInfo, potentialVictims, some err)
        | some (nodeInfo, none) =>
          removeLowerPriority priority rounds (nodeInfo.pods ++ backing.drop nodeInfo.pods.length) nodeInfo
            potentialVictims
      else removeLowerPriority priority rounds backing nodeInfo potentialVictims

/-- `reprievePod`: put the pod back, and where the preemptor no longer fits take it off again as a
victim. The result is the node, the victims, whether the preemptor fits and the error. -/
def reprievePod (nodeInfo : NodeInfo) (victims : List Pod) (pi : PodInfo) :
    Option (NodeInfo × List Pod × Bool × Option RemovePodError) :=
  let nodeInfo := nodeInfo.addPodInfo isolation pi (nextGeneration nodeInfo.generation)
  let fits := (runFilter (nodeInfo.pods.map PodInfo.pod)).isSuccess
  if !fits then
    match nodeInfo.removePod isolation pi.pod (nextGeneration nodeInfo.generation) with
    | none => none
    | some (nodeInfo, some err) => some (nodeInfo, victims, false, some err)
    | some (nodeInfo, none) => some (nodeInfo, victims ++ [pi.pod], fits, none)
  else some (nodeInfo, victims, fits, none)

/-- The loop over the violating pods (`counted`), which counts the victims, or over the others. -/
def reprieveAll (counted : Bool) :
    List PodInfo → NodeInfo → List Pod → ℕ → Option (NodeInfo × List Pod × ℕ × Option RemovePodError)
  | [], nodeInfo, victims, numViolatingVictim => some (nodeInfo, victims, numViolatingVictim, none)
  | pi :: rest, nodeInfo, victims, numViolatingVictim =>
    match reprievePod isolation runFilter nodeInfo victims pi with
    | none => none
    | some (nodeInfo, victims, _, some err) => some (nodeInfo, victims, numViolatingVictim, some err)
    | some (nodeInfo, victims, fits, none) =>
      reprieveAll counted rest nodeInfo victims (if counted && !fits then numViolatingVictim + 1 else numViolatingVictim)

/-- `SelectVictimsOnNode`: the node as the selection leaves it, the victims, how many of them
violate a budget, and the status; none where a call panics. `sortByImportance` is the order
`sort.Slice` with `MoreImportantPod` leaves the pods in. -/
def selectVictimsOnNode (sortByImportance : List PodInfo → List PodInfo) (pod : Pod) (nodeInfo : NodeInfo)
    (pdbs : List PodDisruptionBudget) : Option (NodeInfo × List Pod × ℕ × Status) :=
  match removeLowerPriority isolation (podPriority pod) (List.range nodeInfo.pods.length) nodeInfo.pods nodeInfo []
    with
  | none => none
  | some (nodeInfo, _, some err) => some (nodeInfo, [], 0, asStatus err)
  | some (nodeInfo, potentialVictims, none) =>
    -- the node's state did not change, so it need not be filtered again
    if potentialVictims = [] then
      some (nodeInfo, [], 0, ⟨.unschedulableAndUnresolvable, ["No preemption victims found for incoming pod"]⟩)
    else
      let status := runFilter (nodeInfo.pods.map PodInfo.pod)
      if !status.isSuccess then some (nodeInfo, [], 0, status)
      else
        let (violatingVictims, nonViolatingVictims) :=
          filterPodsWithPDBViolation (sortByImportance potentialVictims) pdbs
        match reprieveAll isolation runFilter true violatingVictims nodeInfo [] 0 with
        | none => none
        | some (nodeInfo, _, _, some err) => some (nodeInfo, [], 0, asStatus err)
        | some (nodeInfo, victims, numViolatingVictim, none) =>
          match reprieveAll isolation runFilter false nonViolatingVictims nodeInfo victims numViolatingVictim with
          | none => none
          | some (nodeInfo, _, _, some err) => some (nodeInfo, [], 0, asStatus err)
          | some (nodeInfo, victims, numViolatingVictim, none) =>
            some (nodeInfo, victims, numViolatingVictim, ⟨.success, []⟩)

end Select

end Kubernetes.Scheduler.Defaultpreemption
