import Kubernetes.Scheduler.PodTopologySpread.Spread

/-! The PreFilter extensions over a run of calls, and Filter.

Preemption tries a node by taking pods off it and putting some back, and keeps the cycle state in
step through `AddPod` and `RemovePod`. Each call moves one pair of each key, the pair of the
call's node, so where the calls are on nodes that share one domain for each key, the counts of a
key only change at one domain and the critical paths keep the least count. Where the calls are
moreover for live pods on nodes of the snapshot that pass the pod's required node affinity, each
pair keeps the domain count of the skew rule, and Filter decides the rule. A terminating pod,
which PreFilter does not count, is still added and removed by the extensions.
-/

set_option autoImplicit false

namespace Kubernetes.Scheduler.Podtopologyspread

open Kubernetes.Library Kubernetes.Library.Slots Kubernetes.Scheduler.Defaultpreemption

/-- A call of an extension on the cycle state's entry. -/
def Extension.run (podToSchedule : Pod) (state : Option PreFilterState) : Extension → Option PreFilterState
  | .addPod podInfo nodeInfo => (Podtopologyspread.addPod state podToSchedule podInfo nodeInfo).1
  | .removePod podInfo nodeInfo => (Podtopologyspread.removePod state podToSchedule podInfo nodeInfo).1

/-- The cycle state's entry after the calls, in order. -/
def runExtensions (podToSchedule : Pod) (state : Option PreFilterState) (calls : List Extension) :
    Option PreFilterState :=
  calls.foldl (fun state call => call.run podToSchedule state) state

theorem Extension.run_some (podToSchedule : Pod) (s : PreFilterState) (call : Extension) :
    call.run podToSchedule (some s) =
      some (s.updateWithPod call.podInfo.pod podToSchedule call.nodeInfo.node call.delta) := by
  cases call <;> rfl

/-! ## One key of the state -/

/-- What a state holds of one key: its counts by value, and its paths. -/
def PreFilterState.keyView (s : PreFilterState) (key : String) : (String → Option ℤ) × Option CriticalPaths :=
  (s.counts key, s.tpKeyToCriticalPaths.lookup key)

section Round

variable {s t : PreFilterState} {updatedPod : Pod} {node : Node} {delta : ℤ} {c : TopologySpreadConstraint}
  {key : String}

@[simp] theorem updateWithConstraint_constraints :
    (s.updateWithConstraint updatedPod node delta c).constraints = s.constraints := by
  unfold PreFilterState.updateWithConstraint
  split_ifs <;> rfl

@[simp] theorem updateWithConstraint_domainsNum :
    (s.updateWithConstraint updatedPod node delta c).tpKeyToDomainsNum = s.tpKeyToDomainsNum := by
  unfold PreFilterState.updateWithConstraint
  split_ifs <;> rfl

theorem keyView_updateWithConstraint_of_ne (other : c.topologyKey ≠ key) :
    (s.updateWithConstraint updatedPod node delta c).keyView key = s.keyView key := by
  unfold PreFilterState.updateWithConstraint
  split_ifs
  · rfl
  · simp only [PreFilterState.keyView, lookup_updatePaths, if_neg other]
    congr 1
    funext v
    exact AList.lookup_insert_ne fun same => other (congrArg TopologyPair.key same).symm

theorem keyView_updateWithConstraint_congr (same : s.keyView c.topologyKey = t.keyView c.topologyKey) :
    (s.updateWithConstraint updatedPod node delta c).keyView c.topologyKey =
      (t.updateWithConstraint updatedPod node delta c).keyView c.topologyKey := by
  have counts : s.counts c.topologyKey = t.counts c.topologyKey := congrArg Prod.fst same
  have paths : s.tpKeyToCriticalPaths.lookup c.topologyKey = t.tpKeyToCriticalPaths.lookup c.topologyKey :=
    congrArg Prod.snd same
  unfold PreFilterState.updateWithConstraint
  split_ifs
  · exact same
  · set pair : TopologyPair := ⟨c.topologyKey, (node.labels.lookup c.topologyKey).getD ""⟩
    have atNode : s.tpPairToMatchNum.lookup pair = t.tpPairToMatchNum.lookup pair := congrFun counts pair.value
    refine Prod.ext ?_ ?_
    · funext v
      show (s.tpPairToMatchNum.insert pair _).lookup ⟨c.topologyKey, v⟩ =
        (t.tpPairToMatchNum.insert pair _).lookup ⟨c.topologyKey, v⟩
      by_cases atV : v = pair.value
      · have atPair : (⟨c.topologyKey, v⟩ : TopologyPair) = pair := by rw [atV]
        rw [atPair, AList.lookup_insert, AList.lookup_insert, atNode]
      · have apart : (⟨c.topologyKey, v⟩ : TopologyPair) ≠ pair := fun pairs => atV (congrArg TopologyPair.value pairs)
        rw [AList.lookup_insert_ne apart, AList.lookup_insert_ne apart]
        exact congrFun counts v
    · show (updatePaths s.tpKeyToCriticalPaths pair _).lookup c.topologyKey =
        (updatePaths t.tpKeyToCriticalPaths pair _).lookup c.topologyKey
      rw [lookup_updatePaths, lookup_updatePaths, paths, atNode]

theorem keyView_foldl_of_notMem :
    ∀ {constraints : List TopologySpreadConstraint} {s : PreFilterState}, key ∉ constraints.map (·.topologyKey) →
      (constraints.foldl (fun s c => s.updateWithConstraint updatedPod node delta c) s).keyView key = s.keyView key
  | [], _, _ => rfl
  | c :: constraints, s, absent => by
    rw [List.map_cons, List.mem_cons, not_or] at absent
    rw [List.foldl_cons, keyView_foldl_of_notMem absent.2,
      keyView_updateWithConstraint_of_ne fun same => absent.1 same.symm]

theorem keyView_foldl_updateWithConstraint {constraints : List TopologySpreadConstraint}
    (distinct : (constraints.map (·.topologyKey)).Nodup) (listed : c ∈ constraints) :
    (constraints.foldl (fun s c => s.updateWithConstraint updatedPod node delta c) s).keyView c.topologyKey =
      (s.updateWithConstraint updatedPod node delta c).keyView c.topologyKey := by
  obtain ⟨before, after, rfl⟩ := List.append_of_mem listed
  rw [List.map_append, List.map_cons, List.nodup_append, List.nodup_cons] at distinct
  have notBefore : c.topologyKey ∉ before.map (·.topologyKey) :=
    fun member => distinct.2.2 _ member _ List.mem_cons_self rfl
  rw [List.foldl_append, List.foldl_cons, keyView_foldl_of_notMem distinct.2.1.1]
  exact keyView_updateWithConstraint_congr (keyView_foldl_of_notMem notBefore)

theorem keyView_updateWithConstraint_self :
    (s.updateWithConstraint updatedPod node delta c).keyView c.topologyKey =
      if c.selector.matches updatedPod.labels = true then
        let num := (s.counts c.topologyKey (domainOf c.topologyKey node)).getD 0 + delta
        (Function.update (s.counts c.topologyKey) (domainOf c.topologyKey node) (some num),
          (s.tpKeyToCriticalPaths.lookup c.topologyKey).map fun p => p.update (domainOf c.topologyKey node) num)
      else s.keyView c.topologyKey := by
  unfold PreFilterState.updateWithConstraint
  by_cases matched : c.selector.matches updatedPod.labels = true
  · rw [if_neg (by simpa using matched), if_pos matched]
    refine Prod.ext ?_ ?_ <;> dsimp only [PreFilterState.keyView]
    · funext v
      show (s.tpPairToMatchNum.insert _ _).lookup ⟨c.topologyKey, v⟩ = _
      by_cases atV : v = domainOf c.topologyKey node
      · subst atV
        rw [Function.update_self]
        exact AList.lookup_insert _
      · rw [Function.update_of_ne atV]
        exact AList.lookup_insert_ne fun pairs => atV (congrArg TopologyPair.value pairs)
    · exact (lookup_updatePaths _ _ _ _).trans (if_pos rfl)
  · rw [if_pos (by simpa using matched), if_neg matched]

theorem foldl_updateWithConstraint_constraints :
    ∀ (constraints : List TopologySpreadConstraint) (s : PreFilterState),
      (constraints.foldl (fun s c => s.updateWithConstraint updatedPod node delta c) s).constraints = s.constraints
  | [], _ => rfl
  | c :: constraints, s => by
    rw [List.foldl_cons, foldl_updateWithConstraint_constraints constraints, updateWithConstraint_constraints]

theorem foldl_updateWithConstraint_domainsNum :
    ∀ (constraints : List TopologySpreadConstraint) (s : PreFilterState),
      (constraints.foldl (fun s c => s.updateWithConstraint updatedPod node delta c) s).tpKeyToDomainsNum =
        s.tpKeyToDomainsNum
  | [], _ => rfl
  | c :: constraints, s => by
    rw [List.foldl_cons, foldl_updateWithConstraint_domainsNum constraints, updateWithConstraint_domainsNum]

end Round

section Call

variable {s : PreFilterState} {updatedPod preemptorPod : Pod} {delta : ℤ}

@[simp] theorem updateWithPod_constraints (nodeOpt : Option Node) :
    (s.updateWithPod updatedPod preemptorPod nodeOpt delta).constraints = s.constraints := by
  unfold PreFilterState.updateWithPod
  cases nodeOpt with
  | none => rfl
  | some node =>
    dsimp only
    split_ifs
    · rfl
    · rfl
    · exact foldl_updateWithConstraint_constraints _ _

@[simp] theorem updateWithPod_domainsNum (nodeOpt : Option Node) :
    (s.updateWithPod updatedPod preemptorPod nodeOpt delta).tpKeyToDomainsNum = s.tpKeyToDomainsNum := by
  unfold PreFilterState.updateWithPod
  cases nodeOpt with
  | none => rfl
  | some node =>
    dsimp only
    split_ifs
    · rfl
    · rfl
    · exact foldl_updateWithConstraint_domainsNum _ _

theorem keyView_updateWithPod (distinct : (s.constraints.map (·.topologyKey)).Nodup) {c : TopologySpreadConstraint}
    (listed : c ∈ s.constraints) (nodeOpt : Option Node) :
    (s.updateWithPod updatedPod preemptorPod nodeOpt delta).keyView c.topologyKey =
      match nodeOpt with
      | some node =>
        if updatedPod.namespace = preemptorPod.namespace ∧ nodeLabelsMatchSpreadConstraints node.labels s.constraints = true ∧
            c.selector.matches updatedPod.labels = true then
          let num := (s.counts c.topologyKey (domainOf c.topologyKey node)).getD 0 + delta
          (Function.update (s.counts c.topologyKey) (domainOf c.topologyKey node) (some num),
            (s.tpKeyToCriticalPaths.lookup c.topologyKey).map fun p => p.update (domainOf c.topologyKey node) num)
        else s.keyView c.topologyKey
      | none => s.keyView c.topologyKey := by
  unfold PreFilterState.updateWithPod
  cases nodeOpt with
  | none => rfl
  | some node =>
    dsimp only
    by_cases sameNamespace : updatedPod.namespace = preemptorPod.namespace
    · by_cases keyed : nodeLabelsMatchSpreadConstraints node.labels s.constraints = true
      · rw [if_neg (not_not.mpr sameNamespace), if_neg (by simpa using keyed),
          keyView_foldl_updateWithConstraint distinct listed, keyView_updateWithConstraint_self]
        by_cases matched : c.selector.matches updatedPod.labels = true
        · rw [if_pos matched, if_pos ⟨sameNamespace, keyed, matched⟩]
        · rw [if_neg matched, if_neg fun moved => matched moved.2.2]
      · rw [if_neg (not_not.mpr sameNamespace), if_pos (by simpa using keyed), if_neg fun moved => keyed moved.2.1]
    · rw [if_pos sameNamespace, if_neg fun moved => sameNamespace moved.1]

end Call

/-! ## The calls on a state -/

/-- The state the calls leave, where PreFilter left one. -/
def PreFilterState.withCalls (s : PreFilterState) (podToSchedule : Pod) (calls : List Extension) : PreFilterState :=
  calls.foldl (fun s call => s.updateWithPod call.podInfo.pod podToSchedule call.nodeInfo.node call.delta) s

theorem runExtensions_some (podToSchedule : Pod) :
    ∀ (calls : List Extension) (s : PreFilterState),
      runExtensions podToSchedule (some s) calls = some (s.withCalls podToSchedule calls)
  | [], _ => rfl
  | call :: calls, s => by
    rw [runExtensions, List.foldl_cons, Extension.run_some]
    exact runExtensions_some podToSchedule calls _

@[simp] theorem withCalls_cons (s : PreFilterState) (podToSchedule : Pod) (call : Extension) (calls : List Extension) :
    s.withCalls podToSchedule (call :: calls) =
      (s.updateWithPod call.podInfo.pod podToSchedule call.nodeInfo.node call.delta).withCalls podToSchedule calls :=
  rfl

@[simp] theorem withCalls_constraints (podToSchedule : Pod) :
    ∀ (calls : List Extension) (s : PreFilterState), (s.withCalls podToSchedule calls).constraints = s.constraints
  | [], _ => rfl
  | call :: calls, s => by rw [withCalls_cons, withCalls_constraints podToSchedule calls, updateWithPod_constraints]

@[simp] theorem withCalls_domainsNum (podToSchedule : Pod) :
    ∀ (calls : List Extension) (s : PreFilterState),
      (s.withCalls podToSchedule calls).tpKeyToDomainsNum = s.tpKeyToDomainsNum
  | [], _ => rfl
  | call :: calls, s => by rw [withCalls_cons, withCalls_domainsNum podToSchedule calls, updateWithPod_domainsNum]

/-! ## The paths over a run -/

/-- What the paths of a key keep, read off the key's view: the counts are at most `bound`, and the
paths hold the least of them, the second slot being right about domain `d`. -/
structure PathsTracked (view : (String → Option ℤ) × Option CriticalPaths) (d : String) (bound : ℕ) : Prop where
  bounded : ∀ v n, view.1 v = some n → n ≤ bound
  paths : ∃ p, view.2 = some p ∧ Least view.1 maxInt32 p.toSlots ∧ SecondFor view.1 d p.toSlots

section Tracked

variable {view : (String → Option ℤ) × Option CriticalPaths} {d : String} {bound : ℕ}

theorem PathsTracked.mono (tracked : PathsTracked view d bound) {bound' : ℕ} (le : bound ≤ bound') :
    PathsTracked view d bound' where
  bounded v n found := (tracked.bounded v n found).trans (by exact_mod_cast le)
  paths := tracked.paths

theorem PathsTracked.record (tracked : PathsTracked view d bound) {delta : ℤ} (unit : delta ≤ 1)
    (room : (bound : ℤ) + 1 < maxInt32) :
    PathsTracked
      (Function.update view.1 d (some ((view.1 d).getD 0 + delta)),
        view.2.map fun p => p.update d ((view.1 d).getD 0 + delta)) d (bound + 1) := by
  obtain ⟨p, found, least, second⟩ := tracked.paths
  set num := (view.1 d).getD 0 + delta
  have numLe : num ≤ bound + 1 := by
    cases atD : view.1 d with
    | none => simp only [num, atD, Option.getD_none]; omega
    | some n =>
      have := tracked.bounded d n atD
      simp only [num, atD, Option.getD_some]
      omega
  obtain ⟨least', second'⟩ := least.record second (show num < maxInt32 by omega)
  refine ⟨fun v n moved => ?_, p.update d num, by rw [found]; rfl, ?_⟩
  · dsimp only at moved
    by_cases atD : v = d
    · subst atD
      rw [Function.update_self, Option.some_inj] at moved
      push_cast
      omega
    · rw [Function.update_of_ne atD] at moved
      have := tracked.bounded v n moved
      push_cast
      omega
  · rw [toSlots_update]
    exact ⟨least', second'⟩

theorem PathsTracked.hold (tracked : PathsTracked view d bound) (room : (bound : ℤ) < maxInt32) :
    ∃ p, view.2 = some p ∧ p.first.matchNum ≤ p.second.matchNum ∧ (∀ v n, view.1 v = some n → p.first.matchNum ≤ n) ∧
      ((∃ v n, view.1 v = some n) → view.1 p.first.topologyValue = some p.first.matchNum) := by
  obtain ⟨p, found, least, -⟩ := tracked.paths
  have below : Below view.1 maxInt32 := fun v n counted => (tracked.bounded v n counted).trans_lt room
  exact ⟨p, found, least.ordered, least.le, fun ⟨_, _, counted⟩ => least.first_found below counted⟩

end Tracked

section Run

variable {updatedPod preemptorPod : Pod} {c : TopologySpreadConstraint} {d : String} {bound : ℕ}

theorem PathsTracked.updateWithPod {s : PreFilterState} (distinct : (s.constraints.map (·.topologyKey)).Nodup)
    (listed : c ∈ s.constraints) {nodeOpt : Option Node} (onD : ∀ node, nodeOpt = some node → domainOf c.topologyKey node = d)
    {delta : ℤ} (unit : delta ≤ 1) (room : (bound : ℤ) + 1 < maxInt32)
    (tracked : PathsTracked (s.keyView c.topologyKey) d bound) :
    PathsTracked ((s.updateWithPod updatedPod preemptorPod nodeOpt delta).keyView c.topologyKey) d (bound + 1) := by
  rw [keyView_updateWithPod distinct listed]
  cases nodeOpt with
  | none => exact tracked.mono (Nat.le_succ bound)
  | some node =>
    dsimp only
    split_ifs
    · rw [onD node rfl]
      exact tracked.record unit room
    · exact tracked.mono (Nat.le_succ bound)

theorem PathsTracked.withCalls (podToSchedule : Pod) {calls : List Extension} {s : PreFilterState}
    (distinct : (s.constraints.map (·.topologyKey)).Nodup) (listed : c ∈ s.constraints)
    (onD : ∀ call ∈ calls, ∀ node, call.nodeInfo.node = some node → domainOf c.topologyKey node = d)
    (room : (bound : ℤ) + calls.length < maxInt32) (tracked : PathsTracked (s.keyView c.topologyKey) d bound) :
    PathsTracked ((s.withCalls podToSchedule calls).keyView c.topologyKey) d (bound + calls.length) := by
  -- induction on the calls, the state and the bound moving on with each call
  induction calls generalizing s bound with
  | nil => exact tracked
  | cons call calls ih =>
    have unit : call.delta ≤ 1 := by cases call <;> simp [Extension.delta]
    rw [List.length_cons, Nat.cast_add, Nat.cast_one] at room
    have step : PathsTracked ((s.updateWithPod call.podInfo.pod podToSchedule call.nodeInfo.node call.delta).keyView
        c.topologyKey) d (bound + 1) :=
      PathsTracked.updateWithPod distinct listed (onD call List.mem_cons_self) unit (by omega) tracked
    have rest := ih (by rwa [updateWithPod_constraints]) (by rwa [updateWithPod_constraints])
      (fun call member => onD call (List.mem_cons_of_mem _ member)) (by push_cast; omega) step
    rw [withCalls_cons, List.length_cons, ← add_assoc, add_right_comm]
    exact rest

end Run

section PreFilter

variable {requiredNodeAffinity : Node → Bool} {constraints : List TopologySpreadConstraint} {pod : Pod}
  (pl : PodTopologySpread) {order : PairOrder} (allNodes : List NodeInfo)

theorem PathsTracked.preFilter (ordered : ∀ entries, (order entries).Perm entries)
    (distinct : (constraints.map (·.topologyKey)).Nodup) {c : TopologySpreadConstraint} (listed : c ∈ constraints)
    (d : String) (small : (podCount allNodes : ℤ) < maxInt32) :
    PathsTracked ((preFilterStateFor pl requiredNodeAffinity order allNodes pod constraints).keyView c.topologyKey) d
      (podCount allNodes) := by
  have bounded : ∀ v n, (preFilterStateFor pl requiredNodeAffinity order allNodes pod constraints).counts
      c.topologyKey v = some n → n ≤ podCount allNodes := by
    intro v n counted
    rw [preFilterStateFor_counts pl order allNodes distinct listed] at counted
    split_ifs at counted
    cases counted
    simpa using domainCount_le requiredNodeAffinity constraints pod.namespace allNodes [] c v
  obtain ⟨p, found, least, second⟩ := preFilterStateFor_paths pl allNodes ordered listed
    fun v n counted => (bounded v n counted).trans_lt small
  exact ⟨bounded, p, found, least, second.of_second⟩

end PreFilter

/-- The invariant of the critical paths: each constraint's key has paths, the first with the least
count of the key's pairs, which is the count of the first path's pair where the key has any, and
the second with a count no less. -/
def CriticalPathsHold (s : PreFilterState) : Prop :=
  ∀ c ∈ s.constraints, ∃ paths, s.tpKeyToCriticalPaths.lookup c.topologyKey = some paths ∧
    paths.first.matchNum ≤ paths.second.matchNum ∧
    (∀ v n, s.counts c.topologyKey v = some n → paths.first.matchNum ≤ n) ∧
    ((∃ v n, s.counts c.topologyKey v = some n) →
      s.counts c.topologyKey paths.first.topologyValue = some paths.first.matchNum)

theorem criticalPaths_hold_after_extensions {pl : PodTopologySpread} {defaultSelector : Selector}
    {requiredNodeAffinity : Node → Bool} {order : PairOrder} {allNodes : List NodeInfo} {pod : Pod}
    {s : PreFilterState} {calls : List Extension}
    (ok : calPreFilterState pl defaultSelector requiredNodeAffinity order allNodes pod = .ok s)
    (ordered : ∀ entries, (order entries).Perm entries) (distinct : (s.constraints.map (·.topologyKey)).Nodup)
    (oneDomain : ∀ c ∈ s.constraints, ∃ d,
      ∀ call ∈ calls, ∀ node, call.nodeInfo.node = some node → domainOf c.topologyKey node = d)
    (small : (podCount allNodes : ℤ) + calls.length < maxInt32) :
    ∃ s', runExtensions pod (some s) calls = some s' ∧ CriticalPathsHold s' := by
  refine ⟨s.withCalls pod calls, runExtensions_some pod calls s, fun c listed => ?_⟩
  rw [withCalls_constraints] at listed
  obtain ⟨d, onD⟩ := oneDomain c listed
  have start : PathsTracked (s.keyView c.topologyKey) d (podCount allNodes) := by
    obtain ⟨unconstrained, -⟩ | ⟨-, built⟩ := calPreFilterState_ok ok
    · rw [unconstrained] at listed
      cases listed
    · rw [built]
      exact PathsTracked.preFilter pl allNodes ordered distinct listed d (by omega)
  exact (PathsTracked.withCalls pod distinct listed onD small start).hold (by push_cast; exact small)

namespace Runs

def webSelector : Selector := .internal [⟨"app", .equals, ["web"]⟩]

/-- One zone constraint of the pod, as the pod spec states it. -/
def zoneConstraint : Scheduler.TopologySpreadConstraint :=
  { maxSkew := 1, topologyKey := "zone", whenUnsatisfiable := .doNotSchedule, labelSelector := .ok webSelector }

def incoming : Pod :=
  { «namespace» := "default", name := "incoming", uid := "uid-incoming", labels := [("app", "web")],
    spec := { priority := some 10, topologySpreadConstraints := [zoneConstraint] } }

def running : Pod := { «namespace» := "default", name := "running", uid := "uid-running", labels := [("app", "web")] }

/-- A pod being deleted, which PreFilter does not count. -/
def terminating : Pod :=
  { «namespace» := "default", name := "terminating", uid := "uid-terminating", labels := [("app", "web")],
    deletionTimestamp := some 0 }

def zoneA : Node := { name := "node-a", labels := [("zone", "a")] }

def nodeA : NodeInfo := { (newNodeInfo 0) with node := some zoneA, pods := [newPodInfo running, newPodInfo terminating] }

def zoneB : Node := { name := "node-b", labels := [("zone", "b")] }

def nodeB : NodeInfo := { (newNodeInfo 0) with node := some zoneB }

def spreadPlugin : PodTopologySpread := ⟨[], false⟩

/-- PreFilter's state for the incoming pod on the two zones. -/
def zoneState : PreFilterState :=
  preFilterStateFor spreadPlugin (fun _ => true) id [nodeA, nodeB] incoming [⟨1, "zone", webSelector, 1⟩]

theorem zoneState_ok :
    calPreFilterState spreadPlugin (.internal []) (fun _ => true) id [nodeA, nodeB] incoming = .ok zoneState :=
  rfl

/-- Calls on node A: a pod taken off and put back, and the terminating pod taken off. -/
def zoneCalls : List Extension :=
  [.removePod (newPodInfo running) nodeA, .removePod (newPodInfo terminating) nodeA, .addPod (newPodInfo running) nodeA]

theorem paths_hold_on_two_zones :
    calPreFilterState spreadPlugin (.internal []) (fun _ => true) id [nodeA, nodeB] incoming = .ok zoneState ∧
      (∀ entries : List (Σ _ : TopologyPair, ℤ), (id entries).Perm entries) ∧
      (zoneState.constraints.map (·.topologyKey)).Nodup ∧
      (∀ c ∈ zoneState.constraints, ∃ d,
        ∀ call ∈ zoneCalls, ∀ node, call.nodeInfo.node = some node → domainOf c.topologyKey node = d) ∧
      (podCount [nodeA, nodeB] : ℤ) + zoneCalls.length < maxInt32 ∧
      ∃ s', runExtensions incoming (some zoneState) zoneCalls = some s' ∧ CriticalPathsHold s' := by
  have oneDomain : ∀ c ∈ zoneState.constraints, ∃ d,
      ∀ call ∈ zoneCalls, ∀ node, call.nodeInfo.node = some node → domainOf c.topologyKey node = d := by
    intro c _
    refine ⟨domainOf c.topologyKey zoneA, fun call member node found => ?_⟩
    simp only [zoneCalls, List.mem_cons, List.not_mem_nil, or_false] at member
    rcases member with rfl | rfl | rfl <;> cases found <;> rfl
  have small : (podCount [nodeA, nodeB] : ℤ) + zoneCalls.length < maxInt32 := by decide
  exact ⟨zoneState_ok, fun _ => List.Perm.refl _, by decide, oneDomain, small,
    criticalPaths_hold_after_extensions zoneState_ok (fun _ => List.Perm.refl _) (by decide) oneDomain small⟩

end Runs

/-! ## The counts over a run -/

/-- A call the rule counts as PreFilter counts the snapshot: of a live pod, on a node of the
snapshot that passes the pod's required node affinity. -/
structure Extension.Counted (requiredNodeAffinity : Node → Bool) (allNodes : List NodeInfo) (call : Extension) :
    Prop where
  live : call.podInfo.pod.deletionTimestamp = none
  onSnapshot : ∀ node, call.nodeInfo.node = some node →
    requiredNodeAffinity node = true ∧ ∃ nodeInfo ∈ allNodes, nodeInfo.node = some node

/-- The counts the rule gives a key after the calls `done`: one for each domain of the key. -/
def ruleCounts (requiredNodeAffinity : Node → Bool) (constraints : List TopologySpreadConstraint) (ns : String)
    (allNodes : List NodeInfo) (done : List Extension) (c : TopologySpreadConstraint) (v : String) : Option ℤ :=
  if v ∈ domains requiredNodeAffinity constraints allNodes c.topologyKey then
    some (domainCount requiredNodeAffinity constraints ns allNodes done c v)
  else none

section Counted

variable {requiredNodeAffinity : Node → Bool} {allNodes : List NodeInfo} {c : TopologySpreadConstraint}

theorem Extension.Counted.onDomains {call : Extension} (counted : call.Counted requiredNodeAffinity allNodes)
    {constraints : List TopologySpreadConstraint} {node : Node}
    (eligible : eligibleNode requiredNodeAffinity constraints call.nodeInfo = some node) (key : String) :
    domainOf key node ∈ domains requiredNodeAffinity constraints allNodes key := by
  obtain ⟨found, passes, keyed⟩ := eligibleNode_eq_some.mp eligible
  obtain ⟨-, nodeInfo, member, same⟩ := counted.onSnapshot node found
  exact domainOf_mem_domains member (eligibleNode_eq_some.mpr ⟨same, passes, keyed⟩) key

theorem counts_updateWithPod {s : PreFilterState} {updatedPod preemptorPod : Pod} {delta : ℤ}
    (distinct : (s.constraints.map (·.topologyKey)).Nodup) (listed : c ∈ s.constraints) (nodeOpt : Option Node) :
    (s.updateWithPod updatedPod preemptorPod nodeOpt delta).counts c.topologyKey =
      match nodeOpt with
      | some node =>
        if updatedPod.namespace = preemptorPod.namespace ∧ nodeLabelsMatchSpreadConstraints node.labels s.constraints = true ∧
            c.selector.matches updatedPod.labels = true then
          Function.update (s.counts c.topologyKey) (domainOf c.topologyKey node)
            (some ((s.counts c.topologyKey (domainOf c.topologyKey node)).getD 0 + delta))
        else s.counts c.topologyKey
      | none => s.counts c.topologyKey := by
  show ((s.updateWithPod updatedPod preemptorPod nodeOpt delta).keyView c.topologyKey).1 = _
  rw [keyView_updateWithPod distinct listed]
  cases nodeOpt with
  | none => rfl
  | some node =>
    dsimp only
    split_ifs <;> rfl

theorem counts_updateWithPod_ruleCounts {s : PreFilterState} {preemptorPod : Pod} {done : List Extension}
    {call : Extension} (distinct : (s.constraints.map (·.topologyKey)).Nodup) (listed : c ∈ s.constraints)
    (counted : call.Counted requiredNodeAffinity allNodes)
    (tracks : s.counts c.topologyKey = ruleCounts requiredNodeAffinity s.constraints preemptorPod.namespace allNodes done c) :
    (s.updateWithPod call.podInfo.pod preemptorPod call.nodeInfo.node call.delta).counts c.topologyKey =
      ruleCounts requiredNodeAffinity s.constraints preemptorPod.namespace allNodes (done ++ [call]) c := by
  have tracksAt (v : String) : s.counts c.topologyKey v =
      if v ∈ domains requiredNodeAffinity s.constraints allNodes c.topologyKey then
        some (domainCount requiredNodeAffinity s.constraints preemptorPod.namespace allNodes done c v)
      else none := congrFun tracks v
  funext v
  rw [counts_updateWithPod distinct listed]
  unfold ruleCounts
  rw [domainCount_append_call]
  cases found : call.nodeInfo.node with
  | none =>
    have ineligible : eligibleNode requiredNodeAffinity s.constraints call.nodeInfo = none := by
      simp [eligibleNode, found]
    rw [ineligible, add_zero]
    exact tracksAt v
  | some node =>
    dsimp only
    have passes := (counted.onSnapshot node found).1
    by_cases keyed : nodeLabelsMatchSpreadConstraints node.labels s.constraints = true
    · have eligible : eligibleNode requiredNodeAffinity s.constraints call.nodeInfo = some node :=
        eligibleNode_eq_some.mpr ⟨found, passes, keyed⟩
      have inDomains := counted.onDomains eligible c.topologyKey
      rw [eligible]
      dsimp only
      by_cases moved : call.podInfo.pod.namespace = preemptorPod.namespace ∧
          c.selector.matches call.podInfo.pod.labels = true
      · -- the state moves the count of the node's domain, as the rule does
        have countsIt := (countsFor_of_live counted.live).mpr moved
        rw [if_pos ⟨moved.1, keyed, moved.2⟩]
        by_cases atV : v = domainOf c.topologyKey node
        · subst atV
          rw [Function.update_self, tracksAt, if_pos inDomains, if_pos inDomains, if_pos ⟨rfl, countsIt⟩]
          rfl
        · have apart : ¬(domainOf c.topologyKey node = v ∧
              countsFor preemptorPod.namespace c.selector call.podInfo.pod = true) := fun counts => atV counts.1.symm
          rw [Function.update_of_ne atV, tracksAt, if_neg apart, add_zero]
      · -- the pod is of another namespace or not matched: neither moves
        have still : ¬(call.podInfo.pod.namespace = preemptorPod.namespace ∧
            nodeLabelsMatchSpreadConstraints node.labels s.constraints = true ∧
              c.selector.matches call.podInfo.pod.labels = true) := fun moves => moved ⟨moves.1, moves.2.2⟩
        have apart : ¬(domainOf c.topologyKey node = v ∧
            countsFor preemptorPod.namespace c.selector call.podInfo.pod = true) :=
          fun counts => moved ((countsFor_of_live counted.live).mp counts.2)
        rw [if_neg still, if_neg apart, add_zero, tracksAt]
    · -- a node without every key: neither moves
      have still : ¬(call.podInfo.pod.namespace = preemptorPod.namespace ∧
          nodeLabelsMatchSpreadConstraints node.labels s.constraints = true ∧
            c.selector.matches call.podInfo.pod.labels = true) := fun moves => keyed moves.2.1
      have ineligible : eligibleNode requiredNodeAffinity s.constraints call.nodeInfo = none := by
        simp [eligibleNode, found, keyed]
      rw [if_neg still, ineligible, add_zero, tracksAt]

theorem counts_withCalls_ruleCounts (podToSchedule : Pod) {calls : List Extension} {s : PreFilterState}
    {done : List Extension} (distinct : (s.constraints.map (·.topologyKey)).Nodup) (listed : c ∈ s.constraints)
    (counted : ∀ call ∈ calls, call.Counted requiredNodeAffinity allNodes)
    (tracks : s.counts c.topologyKey = ruleCounts requiredNodeAffinity s.constraints podToSchedule.namespace allNodes done c) :
    (s.withCalls podToSchedule calls).counts c.topologyKey =
      ruleCounts requiredNodeAffinity s.constraints podToSchedule.namespace allNodes (done ++ calls) c := by
  -- induction on the calls, with the calls done growing by the one made
  induction calls generalizing s done with
  | nil => rw [List.append_nil]; exact tracks
  | cons call calls ih =>
    have step := counts_updateWithPod_ruleCounts distinct listed (counted call List.mem_cons_self) tracks
    have same : (s.updateWithPod call.podInfo.pod podToSchedule call.nodeInfo.node call.delta).constraints =
        s.constraints := updateWithPod_constraints _
    rw [← same] at step distinct listed
    rw [withCalls_cons, ih distinct listed (fun call member => counted call (List.mem_cons_of_mem _ member)) step,
      updateWithPod_constraints, List.append_assoc, List.singleton_append]

end Counted

/-! ## Filter -/

theorem filterConstraints_isSuccess (pl : PodTopologySpread) (s : PreFilterState) (pod : Pod) (node : Node) :
    ∀ constraints : List TopologySpreadConstraint,
      (filterConstraints pl s pod node constraints).isSuccess = true ↔
        ∀ c ∈ constraints, ∃ v, node.labels.lookup c.topologyKey = some v ∧
          ∀ m, s.minMatchNum c.topologyKey c.minDomains pl.enableMinDomainsInPodTopologySpread = .ok m →
            (s.tpPairToMatchNum.lookup ⟨c.topologyKey, v⟩).getD 0 + (if c.selector.matches pod.labels then 1 else 0) - m ≤
              c.maxSkew
  | [] => by simp [filterConstraints, Status.isSuccess]
  | c :: constraints => by
    rw [List.forall_mem_cons, ← filterConstraints_isSuccess pl s pod node constraints, filterConstraints]
    cases node.labels.lookup c.topologyKey with
    | none => simp [Status.isSuccess]
    | some v =>
      dsimp only
      cases s.minMatchNum c.topologyKey c.minDomains pl.enableMinDomainsInPodTopologySpread with
      | error => simp
      | ok m =>
        dsimp only
        by_cases skewed : (s.tpPairToMatchNum.lookup ⟨c.topologyKey, v⟩).getD 0 +
            (if c.selector.matches pod.labels then 1 else 0) - m > c.maxSkew
        · rw [if_pos skewed]
          simp only [Option.some_inj, exists_eq_left', Except.ok.injEq, forall_eq']
          exact ⟨fun failed => absurd failed (by decide), fun ⟨within, _⟩ => absurd within (not_le.mpr skewed)⟩
        · rw [if_neg skewed]
          simp only [Option.some_inj, exists_eq_left', Except.ok.injEq, forall_eq']
          exact ⟨fun passed => ⟨not_lt.mp skewed, passed⟩, fun ⟨_, passed⟩ => passed⟩

section Minimum

variable {requiredNodeAffinity : Node → Bool} {constraints : List TopologySpreadConstraint} {ns : String}
  {allNodes : List NodeInfo} {calls : List Extension} {c : TopologySpreadConstraint} {s : PreFilterState}
  {p : CriticalPaths} {enable : Bool}

theorem minMatchNum_of_nonempty (found : s.tpKeyToCriticalPaths.lookup c.topologyKey = some p)
    (domainsNum : s.tpKeyToDomainsNum.lookup c.topologyKey =
      if enable ∧ (domains requiredNodeAffinity constraints allNodes c.topologyKey).Nonempty then
        some (domains requiredNodeAffinity constraints allNodes c.topologyKey).card else none)
    (nonempty : (domains requiredNodeAffinity constraints allNodes c.topologyKey).Nonempty) :
    s.minMatchNum c.topologyKey c.minDomains enable =
      .ok (if enable ∧ ((domains requiredNodeAffinity constraints allNodes c.topologyKey).card : ℤ) < c.minDomains then 0
        else p.first.matchNum) := by
  unfold PreFilterState.minMatchNum
  rw [found]
  cases enable with
  | false => simp
  | true =>
    rw [domainsNum, if_pos ⟨rfl, nonempty⟩]
    simp only [Bool.not_true, Bool.false_eq_true, if_false, true_and]
    split_ifs <;> rfl

theorem globalMinimum_of_nonempty (least : Least (ruleCounts requiredNodeAffinity constraints ns allNodes calls c)
      maxInt32 p.toSlots)
    (bounded : Below (ruleCounts requiredNodeAffinity constraints ns allNodes calls c) maxInt32)
    (nonempty : (domains requiredNodeAffinity constraints allNodes c.topologyKey).Nonempty) :
    globalMinimum requiredNodeAffinity constraints ns enable allNodes calls c =
      ((if enable ∧ ((domains requiredNodeAffinity constraints allNodes c.topologyKey).card : ℤ) < c.minDomains then 0
        else p.first.matchNum : ℤ) : WithTop ℤ) := by
  unfold globalMinimum
  by_cases few : enable = true ∧ ((domains requiredNodeAffinity constraints allNodes c.topologyKey).card : ℤ) < c.minDomains
  · rw [if_pos few, if_pos few]
  · rw [if_neg few, if_neg few]
    exact least.min_image bounded nonempty

theorem skew_within_iff (positive : 1 ≤ c.maxSkew) (found : s.tpKeyToCriticalPaths.lookup c.topologyKey = some p)
    (least : Least (ruleCounts requiredNodeAffinity constraints ns allNodes calls c) maxInt32 p.toSlots)
    (bounded : Below (ruleCounts requiredNodeAffinity constraints ns allNodes calls c) maxInt32)
    (tracks : s.counts c.topologyKey = ruleCounts requiredNodeAffinity constraints ns allNodes calls c)
    (domainsNum : s.tpKeyToDomainsNum.lookup c.topologyKey =
      if enable ∧ (domains requiredNodeAffinity constraints allNodes c.topologyKey).Nonempty then
        some (domains requiredNodeAffinity constraints allNodes c.topologyKey).card else none)
    (onDomains : ∀ call ∈ calls, ∀ node, eligibleNode requiredNodeAffinity constraints call.nodeInfo = some node →
      domainOf c.topologyKey node ∈ domains requiredNodeAffinity constraints allNodes c.topologyKey)
    (v : String) {self : ℤ} (selfLe : self ≤ 1) :
    (∀ m, s.minMatchNum c.topologyKey c.minDomains enable = .ok m →
        (s.tpPairToMatchNum.lookup ⟨c.topologyKey, v⟩).getD 0 + self - m ≤ c.maxSkew) ↔
      ∀ m : ℤ, globalMinimum requiredNodeAffinity constraints ns enable allNodes calls c = m →
        domainCount requiredNodeAffinity constraints ns allNodes calls c v + self - c.maxSkew ≤ m := by
  have countAt : (s.tpPairToMatchNum.lookup ⟨c.topologyKey, v⟩).getD 0 =
      domainCount requiredNodeAffinity constraints ns allNodes calls c v := by
    show (s.counts c.topologyKey v).getD 0 = _
    rw [tracks]
    unfold ruleCounts
    split_ifs with inDomains
    · rfl
    · exact (domainCount_of_notMem inDomains onDomains).symm
  rw [countAt]
  rcases (domains requiredNodeAffinity constraints allNodes c.topologyKey).eq_empty_or_nonempty with empty | nonempty
  · -- no domain: the count is 0, the first path at `MaxInt32`, and both tests pass
    have zero : domainCount requiredNodeAffinity constraints ns allNodes calls c v = 0 :=
      domainCount_of_notMem (by simp [empty]) onDomains
    have top : p.first.matchNum = maxInt32 := least.first_top fun v => by simp [ruleCounts, empty]
    have passes : ∀ m, s.minMatchNum c.topologyKey c.minDomains enable = .ok m → self - m ≤ c.maxSkew := by
      unfold PreFilterState.minMatchNum
      rw [found, domainsNum, empty]
      cases enable with
      | false =>
        simp only [Bool.not_false, if_true, Except.ok.injEq, forall_eq', top, maxInt32]
        omega
      | true => simp
    have fits : ∀ m : ℤ, globalMinimum requiredNodeAffinity constraints ns enable allNodes calls c = m →
        self - c.maxSkew ≤ m := by
      intro m found
      unfold globalMinimum at found
      split_ifs at found
      · rw [WithTop.coe_inj] at found
        omega
      · rw [empty, Finset.image_empty, Finset.min_empty] at found
        cases found
    rw [zero, zero_add]
    exact iff_of_true passes fits
  · rw [minMatchNum_of_nonempty found domainsNum nonempty, globalMinimum_of_nonempty least bounded nonempty]
    simp only [Except.ok.injEq, WithTop.coe_inj, forall_eq']
    omega

end Minimum

section Decides

variable {requiredNodeAffinity : Node → Bool} {constraints : List TopologySpreadConstraint}
  (pl : PodTopologySpread) (pod : Pod) {order : PairOrder} {allNodes : List NodeInfo} {calls : List Extension}

theorem filter_withCalls_isSuccess (ordered : ∀ entries, (order entries).Perm entries)
    (distinct : (constraints.map (·.topologyKey)).Nodup) (constrained : constraints ≠ [])
    (positive : ∀ c ∈ constraints, 1 ≤ c.maxSkew) (counted : ∀ call ∈ calls, call.Counted requiredNodeAffinity allNodes)
    (oneDomain : ∀ c ∈ constraints, ∃ d,
      ∀ call ∈ calls, ∀ node, call.nodeInfo.node = some node → domainOf c.topologyKey node = d)
    (small : (podCount allNodes : ℤ) + calls.length < maxInt32) {nodeInfo : NodeInfo} {node : Node}
    (found : nodeInfo.node = some node) :
    (filter pl (some ((preFilterStateFor pl requiredNodeAffinity order allNodes pod constraints).withCalls pod calls))
        pod nodeInfo).isSuccess = true ↔
      fitsSpread requiredNodeAffinity constraints pl.enableMinDomainsInPodTopologySpread allNodes calls pod node =
        true := by
  set start := preFilterStateFor pl requiredNodeAffinity order allNodes pod constraints
  have sameConstraints : (start.withCalls pod calls).constraints = constraints := withCalls_constraints pod calls start
  unfold filter
  rw [found]
  dsimp only
  rw [sameConstraints, if_neg constrained, filterConstraints_isSuccess, fitsSpread, List.all_eq_true]
  refine forall₂_congr fun c listed => ?_
  obtain ⟨d, onD⟩ := oneDomain c listed
  -- what the calls leave of the key: paths kept right and the rule's counts
  have tracked : PathsTracked ((start.withCalls pod calls).keyView c.topologyKey) d (podCount allNodes + calls.length) :=
    PathsTracked.withCalls pod distinct listed onD small
      (PathsTracked.preFilter pl allNodes ordered distinct listed d (by omega))
  have startCounts : start.counts c.topologyKey =
      ruleCounts requiredNodeAffinity start.constraints pod.namespace allNodes [] c :=
    funext (preFilterStateFor_counts pl order allNodes distinct listed)
  have tracks := counts_withCalls_ruleCounts pod distinct listed counted startCounts
  rw [List.nil_append] at tracks
  obtain ⟨p, foundPaths, least, -⟩ := tracked.paths
  have bounded : Below (ruleCounts requiredNodeAffinity constraints pod.namespace allNodes calls c) maxInt32 :=
    fun v n counts => (tracked.bounded v n (show (start.withCalls pod calls).counts c.topologyKey v = some n by
      rw [tracks]; exact counts)).trans_lt (by push_cast; exact small)
  have domainsNum : (start.withCalls pod calls).tpKeyToDomainsNum.lookup c.topologyKey =
      if pl.enableMinDomainsInPodTopologySpread ∧ (domains requiredNodeAffinity constraints allNodes c.topologyKey).Nonempty
      then some (domains requiredNodeAffinity constraints allNodes c.topologyKey).card else none := by
    rw [withCalls_domainsNum]
    exact preFilterStateFor_domainsNum pl order allNodes distinct listed
  have selfLe : (if c.selector.matches pod.labels then 1 else 0 : ℤ) ≤ 1 := by split_ifs <;> decide
  cases node.labels.lookup c.topologyKey with
  | none => simp
  | some v =>
    simp only [Option.some_inj, exists_eq_left']
    rw [skew_within_iff (positive c listed) foundPaths (tracks ▸ least) bounded tracks domainsNum
      (fun call member _ eligible => (counted call member).onDomains eligible c.topologyKey) v selfLe]
    -- the rule passes a key without a global minimum
    cases globalMinimum requiredNodeAffinity constraints pod.namespace pl.enableMinDomainsInPodTopologySpread allNodes
      calls c with
    | top => simp
    | coe minimum => simp

end Decides

theorem filter_decides_skew_rule {pl : PodTopologySpread} {defaultSelector : Selector}
    {requiredNodeAffinity : Node → Bool} {order : PairOrder} {allNodes : List NodeInfo} {pod : Pod}
    {s : PreFilterState} {calls : List Extension}
    (ok : calPreFilterState pl defaultSelector requiredNodeAffinity order allNodes pod = .ok s)
    (ordered : ∀ entries, (order entries).Perm entries) (distinct : (s.constraints.map (·.topologyKey)).Nodup)
    (positive : ∀ c ∈ s.constraints, 1 ≤ c.maxSkew)
    (counted : ∀ call ∈ calls, call.Counted requiredNodeAffinity allNodes)
    (oneDomain : ∀ c ∈ s.constraints, ∃ d,
      ∀ call ∈ calls, ∀ node, call.nodeInfo.node = some node → domainOf c.topologyKey node = d)
    (small : (podCount allNodes : ℤ) + calls.length < maxInt32) {nodeInfo : NodeInfo} {node : Node}
    (found : nodeInfo.node = some node) :
    (filter pl (runExtensions pod (some s) calls) pod nodeInfo).isSuccess = true ↔
      fitsSpread requiredNodeAffinity s.constraints pl.enableMinDomainsInPodTopologySpread allNodes calls pod node =
        true := by
  rw [runExtensions_some]
  obtain ⟨unconstrained, -⟩ | ⟨constrained, built⟩ := calPreFilterState_ok ok
  · -- an empty state: Filter passes every node, as the rule over no constraint does
    have passes : (filter pl (some (s.withCalls pod calls)) pod nodeInfo).isSuccess = true := by
      unfold filter
      rw [found]
      dsimp only
      rw [withCalls_constraints, if_pos unconstrained]
      rfl
    rw [unconstrained]
    exact iff_of_true passes rfl
  · have decides := filter_withCalls_isSuccess pl pod ordered distinct constrained positive counted oneDomain small found
    rw [← built] at decides
    exact decides

namespace Runs

/-- A pod of zone A taken off node A for the incoming pod. -/
def liveCall : Extension := .removePod (newPodInfo running) nodeA

theorem filter_decides_on_two_zones :
    calPreFilterState spreadPlugin (.internal []) (fun _ => true) id [nodeA, nodeB] incoming = .ok zoneState ∧
      (∀ entries : List (Σ _ : TopologyPair, ℤ), (id entries).Perm entries) ∧
      (zoneState.constraints.map (·.topologyKey)).Nodup ∧ (∀ c ∈ zoneState.constraints, 1 ≤ c.maxSkew) ∧
      (∀ call ∈ [liveCall], call.Counted (fun _ => true) [nodeA, nodeB]) ∧
      (∀ c ∈ zoneState.constraints, ∃ d,
        ∀ call ∈ [liveCall], ∀ node, call.nodeInfo.node = some node → domainOf c.topologyKey node = d) ∧
      (podCount [nodeA, nodeB] : ℤ) + [liveCall].length < maxInt32 ∧ nodeA.node = some zoneA ∧
      ((filter spreadPlugin (runExtensions incoming (some zoneState) [liveCall]) incoming nodeA).isSuccess = true ↔
        fitsSpread (fun _ => true) zoneState.constraints false [nodeA, nodeB] [liveCall] incoming zoneA = true) := by
  have counted : ∀ call ∈ [liveCall], call.Counted (fun _ => true) [nodeA, nodeB] := by
    intro call member
    rw [List.mem_singleton] at member
    subst member
    exact ⟨rfl, fun node found => ⟨rfl, nodeA, List.mem_cons_self, found⟩⟩
  have oneDomain : ∀ c ∈ zoneState.constraints, ∃ d,
      ∀ call ∈ [liveCall], ∀ node, call.nodeInfo.node = some node → domainOf c.topologyKey node = d := by
    intro c _
    refine ⟨domainOf c.topologyKey zoneA, fun call member node found => ?_⟩
    rw [List.mem_singleton] at member
    subst member
    cases found
    rfl
  have small : (podCount [nodeA, nodeB] : ℤ) + [liveCall].length < maxInt32 := by decide
  exact ⟨zoneState_ok, fun _ => List.Perm.refl _, by decide, by decide, counted, oneDomain, small, rfl,
    filter_decides_skew_rule zoneState_ok (fun _ => List.Perm.refl _) (by decide) (by decide) counted oneDomain small
      rfl⟩

/-- Taking the terminating pod off node A lowers zone A's count, which PreFilter never raised for
it: Filter then passes node A, which the rule, and Filter before the call, reject. -/
theorem removing_terminating_pod_passes_filter :
    calPreFilterState spreadPlugin (.internal []) (fun _ => true) id [nodeA, nodeB] incoming = .ok zoneState ∧
      (filter spreadPlugin (some zoneState) incoming nodeA).isSuccess = false ∧
      (filter spreadPlugin (runExtensions incoming (some zoneState) [.removePod (newPodInfo terminating) nodeA])
        incoming nodeA).isSuccess = true ∧
      fitsSpread (fun _ => true) zoneState.constraints false [nodeA, nodeB]
        [.removePod (newPodInfo terminating) nodeA] incoming zoneA = false :=
  ⟨zoneState_ok, by decide +kernel, by decide +kernel, by decide +kernel⟩

end Runs

end Kubernetes.Scheduler.Podtopologyspread
