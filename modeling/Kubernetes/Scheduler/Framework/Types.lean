import Mathlib

/-! The scheduler's view of a pod (`pkg/scheduler/framework/types.go`).

A pod enters the scheduler wrapped in a `PodInfo`, which holds the pod's required affinity
terms in the processed form the plugins read, and in the queue in a `QueuedPodInfo`, which adds
the queue's timestamps, the number of attempts and the plugins that rejected the pod. Label
selectors and their matching follow `k8s.io/apimachinery/pkg/labels` as vendored.
-/

set_option autoImplicit false

namespace Kubernetes.Scheduler

/-! ## Labels and selectors -/

/-- A `labels.Set`; a key's value is its first binding. -/
abbrev Labels := List (String × String)

inductive Operator where
  | doesNotExist | equals | doubleEquals | «in» | notEquals | notIn | «exists» | greaterThan | lessThan
  deriving DecidableEq, Repr

/-- The digits of a decimal numeral; none if there is none or one is not a digit. -/
def parseDecimal (digits : List Char) : Option ℕ :=
  if digits ≠ [] ∧ digits.all Char.isDigit then
    some (digits.foldl (fun n c => 10 * n + (c.toNat - '0'.toNat)) 0)
  else none

/-- `strconv.ParseInt(s, 10, 64)`: an optional sign, decimal digits, and the 64-bit range. -/
def parseInt64 (s : String) : Option ℤ :=
  let value : Option ℤ := match s.toList with
    | '-' :: digits => (parseDecimal digits).map fun n => -(n : ℤ)
    | '+' :: digits => (parseDecimal digits).map fun n => (n : ℤ)
    | digits => (parseDecimal digits).map fun n => (n : ℤ)
  value.filter fun v => decide (-2 ^ 63 ≤ v ∧ v < 2 ^ 63)

structure Requirement where
  key : String
  operator : Operator
  strValues : List String
  deriving DecidableEq, Repr

def Requirement.matches (r : Requirement) (ls : Labels) : Bool :=
  match r.operator with
  | .in | .equals | .doubleEquals =>
    match ls.lookup r.key with
    | none => false
    | some value => r.strValues.contains value
  | .notIn | .notEquals =>
    match ls.lookup r.key with
    | none => true
    | some value => !r.strValues.contains value
  | .exists => (ls.lookup r.key).isSome
  | .doesNotExist => (ls.lookup r.key).isNone
  | .greaterThan | .lessThan =>
    match (ls.lookup r.key).bind parseInt64 with
    | none => false
    | some lsValue =>
      -- exactly one value, and an integer
      match r.strValues with
      | [value] =>
        match parseInt64 value with
        | none => false
        | some rValue =>
          (r.operator == .greaterThan && lsValue > rValue) || (r.operator == .lessThan && lsValue < rValue)
      | _ => false

/-- A `labels.Selector`: `labels.Nothing()` or the conjunction of requirements. -/
inductive Selector where
  | nothing
  | internal (requirements : List Requirement)
  deriving DecidableEq, Repr

def Selector.matches : Selector → Labels → Bool
  | .nothing, _ => false
  | .internal requirements, ls => requirements.all fun r => r.matches ls

/-- `Selector.Empty`: a selector of no requirements, which matches everything. -/
def Selector.empty : Selector → Bool
  | .nothing => false
  | .internal requirements => requirements.isEmpty

/-- A processed `v1.PodAffinityTerm`. -/
structure AffinityTerm where
  namespaces : List String
  selector : Selector
  topologyKey : String
  namespaceSelector : Selector
  deriving DecidableEq, Repr

/-! ## Containers, resources and volumes -/

/-- A `resource.Quantity`, by what `MilliValue` returns: its value in thousandths, rounded up.
That determines `Value` too, the value rounded up to a whole unit. -/
structure Quantity where
  milliValue : ℤ
  deriving DecidableEq, Repr

def Quantity.value (q : Quantity) : ℤ := -(-q.milliValue / 1000)

/-- A `v1.ResourceList`: quantities by resource name. -/
abbrev ResourceList := List (String × Quantity)

/-- A `v1.ContainerPort`, down to the host side of the binding. -/
structure ContainerPort where
  hostPort : ℤ := 0
  hostIP : String := ""
  protocol : String := ""
  deriving DecidableEq, Repr

structure Container where
  /-- `Resources.Requests`. -/
  requests : ResourceList := []
  ports : List ContainerPort := []
  deriving DecidableEq, Repr

/-- `v1.PodAffinity` or `v1.PodAntiAffinity`. -/
structure PodAffinityRules where
  requiredDuringSchedulingIgnoredDuringExecution : List AffinityTerm := []
  preferredDuringSchedulingIgnoredDuringExecution : List AffinityTerm := []
  deriving DecidableEq, Repr

/-- `v1.Affinity`, without the node affinity nothing here reads. -/
structure Affinity where
  podAffinity : Option PodAffinityRules := none
  podAntiAffinity : Option PodAffinityRules := none
  deriving DecidableEq, Repr

structure Volume where
  /-- The claim name of a `PersistentVolumeClaim` source; none for any other source. -/
  persistentVolumeClaim : Option String := none
  deriving DecidableEq, Repr

/-! ## Pods -/

inductive UnsatisfiableConstraintAction where
  | doNotSchedule
  | scheduleAnyway
  deriving DecidableEq, Repr

/-- A `v1.TopologySpreadConstraint`. The label selector is what `LabelSelectorAsSelector` makes of
it: the selector, or the error text. -/
structure TopologySpreadConstraint where
  maxSkew : ℤ
  topologyKey : String
  whenUnsatisfiable : UnsatisfiableConstraintAction
  labelSelector : Except String Selector
  minDomains : Option ℤ := none
  deriving DecidableEq, Repr

structure PodSpec where
  nodeName : String := ""
  priority : Option ℤ := none
  /-- The required pod-affinity terms as `getAffinityTerms` returns them for the spec. -/
  requiredAffinityTerms : List AffinityTerm := []
  requiredAntiAffinityTerms : List AffinityTerm := []
  containers : List Container := []
  initContainers : List Container := []
  overhead : Option ResourceList := none
  affinity : Option Affinity := none
  volumes : List Volume := []
  topologySpreadConstraints : List TopologySpreadConstraint := []
  deriving DecidableEq, Repr

structure PodStatus where
  phase : String := ""
  nominatedNodeName : String := ""
  /-- `StartTime`, unset until the kubelet starts the pod. -/
  startTime : Option ℤ := none
  deriving DecidableEq, Repr

structure Pod where
  «namespace» : String
  name : String
  uid : String
  labels : Labels := []
  /-- `DeletionTimestamp`, set once the pod is terminating. -/
  deletionTimestamp : Option ℤ := none
  resourceVersion : String := ""
  generation : ℤ := 0
  finalizers : List String := []
  spec : PodSpec := {}
  status : PodStatus := {}
  deriving DecidableEq, Repr

/-- A pod's namespace and name: the identity both queue key functions encode. -/
structure PodKey where
  «namespace» : String
  name : String
  deriving DecidableEq, Repr

def Pod.key (pod : Pod) : PodKey := ⟨pod.namespace, pod.name⟩

/-- `klog.KObj(pod)` as it prints. -/
def kObj (pod : Pod) : String :=
  if pod.namespace = "" then pod.name else pod.namespace ++ "/" ++ pod.name

def AffinityTerm.matches (term : AffinityTerm) (pod : Pod) (nsLabels : Labels) : Bool :=
  if term.namespaces.contains pod.namespace || term.namespaceSelector.matches nsLabels then
    term.selector.matches pod.labels
  else false

def podPriority (pod : Pod) : ℤ := pod.spec.priority.getD 0

structure PodInfo where
  pod : Pod
  requiredAffinityTerms : List AffinityTerm
  requiredAntiAffinityTerms : List AffinityTerm
  deriving DecidableEq, Repr

def newPodInfo (pod : Pod) : PodInfo :=
  ⟨pod, pod.spec.requiredAffinityTerms, pod.spec.requiredAntiAffinityTerms⟩

/-- `PodInfo.Update`: the same pod (by UID) keeps its terms, another is processed anew. -/
def PodInfo.update (pi : PodInfo) (pod : Pod) : PodInfo :=
  if pi.pod.uid = pod.uid then { pi with pod := pod } else newPodInfo pod

@[simp] theorem PodInfo.update_pod (pi : PodInfo) (pod : Pod) : (pi.update pod).pod = pod := by
  unfold PodInfo.update
  split <;> rfl

structure QueuedPodInfo where
  podInfo : PodInfo
  timestamp : ℤ
  attempts : ℕ
  initialAttemptTimestamp : ℤ
  unschedulablePlugins : List String
  deriving DecidableEq, Repr

/-- `podInfoKeyFunc`, and `GetPodFullName` of the pod. -/
def QueuedPodInfo.key (pInfo : QueuedPodInfo) : PodKey := pInfo.podInfo.pod.key

@[simp] theorem QueuedPodInfo.podInfo_pod_key (pInfo : QueuedPodInfo) : pInfo.podInfo.pod.key = pInfo.key := rfl

/-! ## Cluster events -/

/-- A `ClusterEvent`: the resource's kind, a bit mask of `ActionType`s, and a label. -/
structure ClusterEvent where
  resource : String
  actionType : ℕ
  label : String
  deriving DecidableEq, Repr

namespace ActionType

def add : ℕ := 1
def update : ℕ := 4 ||| 8 ||| 16 ||| 32
def all : ℕ := 63

end ActionType

def wildCard : String := "*"

def ClusterEvent.isWildCard (ce : ClusterEvent) : Bool := ce.resource == wildCard && ce.actionType == ActionType.all

end Kubernetes.Scheduler
