import Kubernetes.Scheduler.Framework.NodeInfo

/-! A node's `NodeInfo` over a run of `AddPod` and `RemovePod` calls.

The scheduler's cache adds a pod under a key the node does not hold yet, and removes a pod as it
stored it. Over every such run the totals, the claim counts and the affinity slices of the
`NodeInfo` are what `AddPod` of its current pods recomputes (the slices in some order), and
`UsedPorts` holds no triple the current pods do not bind. It can lack one they bind: when two
pods bind the same triple, removing one releases it. Over runs in which no two stored pods bind
a common triple, `UsedPorts` is the recomputed set.

Every mutation sets `Generation` to the next value of one counter the whole package shares, so
`Generation` grows as long as that `int64` does not wrap.
-/

set_option autoImplicit false

namespace Kubernetes.Scheduler

open Kubernetes.Library

/-- A `NodeInfo` and the package's `generation` counter. -/
structure World where
  nodeInfo : NodeInfo
  generation : ℤ

inductive Op where
  | addPod (pod : Pod)
  | removePod (pod : Pod)
  /-- Another `NodeInfo` takes the next generation. -/
  | elsewhere

namespace World

variable (isolation : Bool)

/-- A call, and the counter it leaves: `RemovePod` advances it only when it finds the pod, and a
panic leaves everything as it was. -/
def step (w : World) : Op → World
  | .addPod pod => ⟨w.nodeInfo.addPod isolation pod (nextGeneration w.generation), nextGeneration w.generation⟩
  | .removePod pod =>
    match w.nodeInfo.removePod isolation pod (nextGeneration w.generation) with
    | some (n, none) => ⟨n, nextGeneration w.generation⟩
    | some (n, some _) => ⟨n, w.generation⟩
    | none => w
  | .elsewhere => ⟨w.nodeInfo, nextGeneration w.generation⟩

/-- The calls the cache makes: a pod is added under a non-empty key no stored pod has, and a pod
is removed with the key, namespace and spec of a stored one; no call finds the counter at
`math.MaxInt64`. With `apart`, a pod added binds no triple a stored pod binds. -/
def admissible (apart : Bool) (w : World) : Op → Prop
  | .addPod pod => w.generation < maxInt ∧ pod.uid ≠ "" ∧ (∀ q ∈ w.nodeInfo.pods, q.pod.uid ≠ pod.uid) ∧
      (apart = true → ∀ q ∈ w.nodeInfo.pods, Disjoint (podHostPorts q.pod) (podHostPorts pod))
  | .removePod pod => w.generation < maxInt ∧
      ∃ q ∈ w.nodeInfo.pods, q.pod.uid = pod.uid ∧ q.pod.namespace = pod.namespace ∧ q.pod.spec = pod.spec
  | .elsewhere => w.generation < maxInt

/-- A `NodeInfo` made by `NewNodeInfo` at any value of the counter, and the admitted calls. -/
def system (apart : Bool) : System World Op where
  init w := -2 ^ 63 ≤ w.generation ∧ w.generation ≤ maxInt ∧ w.nodeInfo = newNodeInfo w.generation
  step w op w' := admissible apart w op ∧ w' = step isolation w op

/-- The aggregates account for the pods, and no `NodeInfo` is ahead of the counter. -/
structure Invariant (w : World) : Prop where
  accounts : w.nodeInfo.Accounts isolation
  low : -2 ^ 63 ≤ w.generation
  high : w.generation ≤ maxInt
  generation : w.nodeInfo.generation ≤ w.generation

/-- The stored pods bind disjoint sets of triples, and `UsedPorts` is their union. -/
structure PortsApart (w : World) : Prop where
  apart : (w.nodeInfo.pods.map PodInfo.pod).Pairwise fun a b => Disjoint (podHostPorts a) (podHostPorts b)
  usedPorts : w.nodeInfo.usedPorts = hostPortsOf (w.nodeInfo.pods.map PodInfo.pod)

variable {isolation}

theorem nextGeneration_of_lt {generation : ℤ} (low : -2 ^ 63 ≤ generation) (below : generation < maxInt) :
    nextGeneration generation = generation + 1 :=
  intAdd_of_fits (by omega) (by omega)

theorem step_addPod (w : World) (pod : Pod) :
    w.step isolation (.addPod pod) =
      ⟨w.nodeInfo.addPod isolation pod (nextGeneration w.generation), nextGeneration w.generation⟩ := rfl

theorem step_removePod {w : World} {pod : Pod} {n : NodeInfo}
    (removed : w.nodeInfo.removePod isolation pod (nextGeneration w.generation) = some (n, none)) :
    w.step isolation (.removePod pod) = ⟨n, nextGeneration w.generation⟩ := by
  simp [step, removed]

theorem admissible_below {apart : Bool} {w : World} {op : Op} (admitted : w.admissible apart op) :
    w.generation < maxInt := by
  cases op with
  | addPod pod => exact admitted.1
  | removePod pod => exact admitted.1
  | elsewhere => exact admitted

theorem Invariant.step {apart : Bool} {w : World} (inv : w.Invariant isolation) {op : Op}
    (admitted : w.admissible apart op) :
    (w.step isolation op).Invariant isolation ∧
      (op ≠ .elsewhere → w.nodeInfo.generation < (w.step isolation op).nodeInfo.generation) := by
  have below := admissible_below admitted
  have next := nextGeneration_of_lt inv.low below
  have low := inv.low
  have ahead := inv.generation
  cases op with
  | addPod pod =>
    obtain ⟨-, keyed, fresh, -⟩ := admitted
    rw [step_addPod, next]
    refine ⟨⟨inv.accounts.addPod keyed fresh _, ?_, ?_, le_refl _⟩, fun _ => ?_⟩
    · show -2 ^ 63 ≤ w.generation + 1
      omega
    · show w.generation + 1 ≤ maxInt
      omega
    · show w.nodeInfo.generation < w.generation + 1
      omega
  | removePod pod =>
    obtain ⟨-, q, stored, uid, ns, spec⟩ := admitted
    obtain ⟨n, removed, accounts, generation, -, -⟩ := inv.accounts.removePod stored uid ns spec (nextGeneration w.generation)
    rw [step_removePod removed, next]
    rw [next] at generation
    refine ⟨⟨accounts, ?_, ?_, generation.le⟩, fun _ => ?_⟩
    · show -2 ^ 63 ≤ w.generation + 1
      omega
    · show w.generation + 1 ≤ maxInt
      omega
    · show w.nodeInfo.generation < n.generation
      omega
  | elsewhere =>
    refine ⟨⟨inv.accounts, ?_, ?_, ?_⟩, fun other => absurd rfl other⟩
    · show -2 ^ 63 ≤ nextGeneration w.generation
      omega
    · show nextGeneration w.generation ≤ maxInt
      omega
    · show w.nodeInfo.generation ≤ nextGeneration w.generation
      omega

theorem PortsApart.step {w : World} (inv : w.Invariant isolation) (ports : w.PortsApart) {op : Op}
    (admitted : w.admissible true op) : (w.step isolation op).PortsApart := by
  cases op with
  | addPod pod =>
    obtain ⟨-, -, -, apart⟩ := admitted
    rw [step_addPod]
    constructor
    · show ((w.nodeInfo.pods ++ [newPodInfo pod]).map PodInfo.pod).Pairwise _
      rw [List.map_append, List.map_singleton]
      refine List.pairwise_append.mpr ⟨ports.apart, List.pairwise_singleton _ _, ?_⟩
      simp only [List.mem_map, List.mem_singleton]
      rintro _ ⟨q, stored, rfl⟩ _ rfl
      exact apart rfl q stored
    · show updateUsedPorts w.nodeInfo.usedPorts pod true = hostPortsOf ((w.nodeInfo.pods ++ [newPodInfo pod]).map PodInfo.pod)
      rw [updateUsedPorts_add, ports.usedPorts, List.map_append, List.map_singleton]
      exact hostPortsOf_add _ pod
  | removePod pod =>
    obtain ⟨-, q, stored, uid, ns, spec⟩ := admitted
    obtain ⟨n, removed, -, -, perm, released⟩ := inv.accounts.removePod stored uid ns spec (nextGeneration w.generation)
    rw [step_removePod removed]
    have pods := perm.map PodInfo.pod
    rw [List.map_cons] at pods
    -- the pod taken away binds no triple a remaining pod binds
    obtain ⟨separate, rest⟩ := List.pairwise_cons.mp (pods.pairwise ports.apart fun apart => apart.symm)
    refine ⟨rest, ?_⟩
    show n.usedPorts = hostPortsOf (n.pods.map PodInfo.pod)
    rw [released, ports.usedPorts]
    refine hostPortsOf_remove pods ?_
    rw [hostPortsOf, Finset.disjoint_biUnion_right]
    exact fun other kept => separate other (List.mem_toFinset.mp kept)
  | elsewhere => exact ⟨ports.apart, ports.usedPorts⟩

theorem Invariant.initial {apart : Bool} {w : World} (initial : (system isolation apart).init w) :
    w.Invariant isolation := by
  obtain ⟨low, high, made⟩ := initial
  refine ⟨?_, low, high, ?_⟩
  · rw [made]
    exact NodeInfo.Accounts.new _
  · rw [made]
    exact Int.le_refl _

theorem invariant (apart : Bool) : (system isolation apart).Invariant (Invariant isolation) :=
  System.Inductive.invariant
    ⟨fun _ initial => Invariant.initial initial, fun _ _ _ inv ⟨admitted, next⟩ => next ▸ (inv.step admitted).1⟩

theorem portsApart : (system isolation true).Invariant PortsApart := by
  refine System.Invariant.of_step (invariant true) (fun w initial => ?_) fun w op _ inv ports ⟨admitted, next⟩ => ?_
  · obtain ⟨-, -, made⟩ := initial
    constructor <;> rw [made]
    · exact List.Pairwise.nil
    · rfl
  · rw [next]
    exact ports.step inv admitted

end World

open World in
open List in
theorem nodeInfo_aggregates_recomputed (isolation : Bool) :
    (∀ apart w, (system isolation apart).Reachable w →
      w.nodeInfo.requested = (w.nodeInfo.recomputed isolation).requested ∧
      w.nodeInfo.nonZeroRequested = (w.nodeInfo.recomputed isolation).nonZeroRequested ∧
      w.nodeInfo.pvcRefCounts = (w.nodeInfo.recomputed isolation).pvcRefCounts ∧
      w.nodeInfo.podsWithAffinity ~ (w.nodeInfo.recomputed isolation).podsWithAffinity ∧
      w.nodeInfo.podsWithRequiredAntiAffinity ~ (w.nodeInfo.recomputed isolation).podsWithRequiredAntiAffinity ∧
      w.nodeInfo.usedPorts ⊆ (w.nodeInfo.recomputed isolation).usedPorts ∧
      ∀ op w', (system isolation apart).step w op w' → op ≠ .elsewhere →
        w.nodeInfo.generation < w'.nodeInfo.generation) ∧
    ∀ w, (system isolation true).Reachable w →
      w.nodeInfo.usedPorts = (w.nodeInfo.recomputed isolation).usedPorts := by
  refine ⟨fun apart w reachable => ?_, fun w reachable => ?_⟩
  · have inv := invariant apart w reachable
    have recomputes : (w.nodeInfo.recomputed isolation).Recomputes isolation (w.nodeInfo.pods.map PodInfo.pod) :=
      NodeInfo.recomputes_recomputed w.nodeInfo
    have pods : (w.nodeInfo.recomputed isolation).pods = w.nodeInfo.pods := by
      rw [recomputes.pods, inv.accounts.map_newPodInfo]
    refine ⟨inv.accounts.requested.trans recomputes.requested.symm,
      inv.accounts.nonZeroRequested.trans recomputes.nonZeroRequested.symm,
      inv.accounts.pvcRefCounts.trans recomputes.pvcRefCounts.symm, ?_, ?_, ?_, ?_⟩
    · rw [recomputes.podsWithAffinity, pods]
      exact inv.accounts.podsWithAffinity
    · rw [recomputes.podsWithRequiredAntiAffinity, pods]
      exact inv.accounts.podsWithRequiredAntiAffinity
    · rw [recomputes.usedPorts]
      exact inv.accounts.usedPorts
    · rintro op w' ⟨admitted, rfl⟩ mutates
      exact (inv.step admitted).2 mutates
  · rw [(portsApart w reachable).usedPorts, (NodeInfo.recomputes_recomputed w.nodeInfo).usedPorts]

namespace Runs

/-- A pod of a deployment, binding host port 80. -/
def portPod (uid : String) : Pod where
  «namespace» := "default"
  name := "web-" ++ uid
  uid := uid
  spec := { containers := [{ requests := [(resourceCPU, ⟨250⟩)], ports := [{ hostPort := 80 }] }] }

/-- Two such pods added, and the first removed. -/
def sharedPortWorld : World :=
  System.run (World.step true) ⟨newNodeInfo 1, 1⟩
    [.addPod (portPod "a"), .addPod (portPod "b"), .removePod (portPod "a")]

theorem sharedPortWorld_reachable : (World.system true false).Reachable sharedPortWorld := by
  refine @System.Reachable.run World Op (World.system true false) (World.admissible false) (World.step true)
    (fun _ _ admitted => ⟨admitted, rfl⟩) _ (.init ⟨by decide, by decide, rfl⟩) _ ?_
  simp only [System.Admits, World.admissible]
  decide

/-- The two pods added, before either is removed. -/
def bothPortsWorld : World :=
  System.run (World.step true) ⟨newNodeInfo 1, 1⟩ [.addPod (portPod "a"), .addPod (portPod "b")]

theorem bothPortsWorld_reachable : (World.system true false).Reachable bothPortsWorld := by
  refine @System.Reachable.run World Op (World.system true false) (World.admissible false) (World.step true)
    (fun _ _ admitted => ⟨admitted, rfl⟩) _ (.init ⟨by decide, by decide, rfl⟩) _ ?_
  simp only [System.Admits, World.admissible]
  decide

/-- Both pods bind port 80 on every IP; removing the first releases the triple. -/
theorem removePod_releases_shared_two_pods :
    let n := bothPortsWorld.nodeInfo
    let triple : String × ProtocolPort := (defaultBindAllHostIP, ⟨protocolTCP, 80⟩)
    n.Accounts true ∧ newPodInfo (portPod "a") ∈ n.pods ∧ newPodInfo (portPod "b") ∈ n.pods ∧
      (portPod "a").uid ≠ (portPod "b").uid ∧ triple ∈ podHostPorts (portPod "a") ∧
      triple ∈ podHostPorts (portPod "b") ∧
      ∃ n', n.removePod true (portPod "a") 3 = some (n', none) ∧ newPodInfo (portPod "b") ∈ n'.pods ∧
        triple ∉ n'.usedPorts ∧ triple ∈ (n'.recomputed true).usedPorts := by
  intro n triple
  have accounts : n.Accounts true := (World.invariant false bothPortsWorld bothPortsWorld_reachable).accounts
  have stored : newPodInfo (portPod "a") ∈ n.pods := by decide
  have other : newPodInfo (portPod "b") ∈ n.pods := by decide
  have bound : triple ∈ podHostPorts (portPod "a") := by decide
  have shared : triple ∈ podHostPorts (portPod "b") := by decide
  exact ⟨accounts, stored, other, by decide, bound, shared,
    NodeInfo.Accounts.removePod_releases_shared accounts stored other (by decide) bound shared 3⟩

end Runs

/-- The remaining pod binds port 80 on every IP, but `UsedPorts` no longer holds it. -/
theorem removePod_releases_shared_host_port :
    (World.system true false).Reachable Runs.sharedPortWorld ∧
      Runs.sharedPortWorld.nodeInfo.pods.map PodInfo.pod = [Runs.portPod "b"] ∧
      Runs.sharedPortWorld.nodeInfo.usedPorts = ∅ ∧
      (Runs.sharedPortWorld.nodeInfo.recomputed true).usedPorts = {(defaultBindAllHostIP, ⟨protocolTCP, 80⟩)} :=
  ⟨Runs.sharedPortWorld_reachable, by decide, by decide, by decide⟩

/-- There the requested CPU is still right: the quarter core of the remaining pod. -/
theorem nodeInfo_aggregates_recomputed_shared_port :
    Runs.sharedPortWorld.nodeInfo.requested = (Runs.sharedPortWorld.nodeInfo.recomputed true).requested ∧
      (Runs.sharedPortWorld.nodeInfo.recomputed true).requested.milliCPU = 250 :=
  ⟨((nodeInfo_aggregates_recomputed true).1 false _ Runs.sharedPortWorld_reachable).1, by decide⟩

end Kubernetes.Scheduler
