import Mathlib.Data.Finset.Card
import Mathlib.Data.Finset.Max
import Mathlib.Algebra.BigOperators.Ring.Finset
import Kubernetes.Library.LeastCounts
import Kubernetes.Library.Tally
import Kubernetes.Scheduler.PodTopologySpread.Filtering

/-! The skew rule the hard spread constraints state, and what PreFilter records of it.

The rule counts, for each constraint and each domain of its key, the pods the constraint's
selector matches on the nodes that pass the pod's required node affinity and carry every key,
moved by the pods the extension calls add and remove on such nodes. The node's domain, with the
pod where the selector matches it, may then exceed the least count of the key by `maxSkew` at
most; with the feature on, the least count is 0 where fewer domains than `minDomains` are
eligible. PreFilter records exactly those counts for the snapshot, one domain count per pair, the
number of domains of each key, and paths whose first has the least count of its key, whatever
order the walk over the pairs takes.
-/

set_option autoImplicit false

namespace Kubernetes.Scheduler.Podtopologyspread

open Kubernetes.Library Kubernetes.Library.Slots

/-- A call of a PreFilter extension, as preemption makes them while it tries a node. -/
inductive Extension where
  | addPod (podInfo : PodInfo) (nodeInfo : NodeInfo)
  | removePod (podInfo : PodInfo) (nodeInfo : NodeInfo)

def Extension.podInfo : Extension → PodInfo
  | .addPod podInfo _ | .removePod podInfo _ => podInfo

def Extension.nodeInfo : Extension → NodeInfo
  | .addPod _ nodeInfo | .removePod _ nodeInfo => nodeInfo

/-- How a call moves a count. -/
def Extension.delta : Extension → ℤ
  | .addPod .. => 1
  | .removePod .. => -1

/-! ## The rule -/

section Rule

variable (requiredNodeAffinity : Node → Bool) (constraints : List TopologySpreadConstraint) (ns : String)

/-- The node the spreading counts: one that passes the pod's required node affinity and carries
every constraint's key. -/
def eligibleNode (nodeInfo : NodeInfo) : Option Node :=
  nodeInfo.node.filter fun node => requiredNodeAffinity node && nodeLabelsMatchSpreadConstraints node.labels constraints

/-- A node's domain for a key. -/
def domainOf (key : String) (node : Node) : String := (node.labels.lookup key).getD ""

/-- A pod a selector counts: of the namespace, not terminating, and matched. -/
def countsFor (selector : Selector) (pod : Pod) : Bool :=
  pod.deletionTimestamp.isNone && pod.namespace == ns && selector.matches pod.labels

/-- A constraint's count in domain `v`: the pods it counts on the eligible nodes of the domain,
with one more or one less for each such pod a call adds to or removes from such a node. -/
def domainCount (allNodes : List NodeInfo) (calls : List Extension) (c : TopologySpreadConstraint) (v : String) : ℤ :=
  (allNodes.map fun nodeInfo =>
      match eligibleNode requiredNodeAffinity constraints nodeInfo with
      | some node =>
        if domainOf c.topologyKey node = v then ((nodeInfo.pods.countP fun p => countsFor ns c.selector p.pod : ℕ) : ℤ)
        else 0
      | none => 0).sum +
    (calls.map fun call =>
      match eligibleNode requiredNodeAffinity constraints call.nodeInfo with
      | some node => if domainOf c.topologyKey node = v ∧ countsFor ns c.selector call.podInfo.pod then call.delta else 0
      | none => 0).sum

/-- The domains of a key: its values on the eligible nodes. -/
def domains (allNodes : List NodeInfo) (key : String) : Finset String :=
  ((allNodes.filterMap (eligibleNode requiredNodeAffinity constraints)).map (domainOf key)).toFinset

/-- The global minimum of a constraint: 0 where the feature is on and fewer domains than
`minDomains` are eligible, otherwise the least domain count, `⊤` where the key has no domain. -/
def globalMinimum (enableMinDomains : Bool) (allNodes : List NodeInfo) (calls : List Extension)
    (c : TopologySpreadConstraint) : WithTop ℤ :=
  if enableMinDomains ∧ ((domains requiredNodeAffinity constraints allNodes c.topologyKey).card : ℤ) < c.minDomains then
    ((0 : ℤ) : WithTop ℤ)
  else ((domains requiredNodeAffinity constraints allNodes c.topologyKey).image
    (domainCount requiredNodeAffinity constraints ns allNodes calls c)).min

/-- The skew rule on a node: it carries each constraint's key, and its domain's count, with the pod
where the selector matches it, is at most `maxSkew` above the global minimum. -/
def fitsSpread (enableMinDomains : Bool) (allNodes : List NodeInfo) (calls : List Extension) (pod : Pod) (node : Node) :
    Bool :=
  constraints.all fun c =>
    match node.labels.lookup c.topologyKey with
    | none => false
    | some v =>
      let selfMatchNum : ℤ := if c.selector.matches pod.labels then 1 else 0
      match globalMinimum requiredNodeAffinity constraints pod.namespace enableMinDomains allNodes calls c with
      | ⊤ => true
      | (minimum : ℤ) =>
        decide (domainCount requiredNodeAffinity constraints pod.namespace allNodes calls c v + selfMatchNum - c.maxSkew ≤
          minimum)

end Rule

/-- The pods of the snapshot. -/
def podCount (allNodes : List NodeInfo) : ℕ := (allNodes.map fun nodeInfo => nodeInfo.pods.length).sum

theorem domainCount_le (requiredNodeAffinity : Node → Bool) (constraints : List TopologySpreadConstraint) (ns : String)
    (allNodes : List NodeInfo) (calls : List Extension) (c : TopologySpreadConstraint) (v : String) :
    domainCount requiredNodeAffinity constraints ns allNodes calls c v ≤ podCount allNodes + calls.length := by
  have snapshot : ((allNodes.map fun nodeInfo =>
      match eligibleNode requiredNodeAffinity constraints nodeInfo with
      | some node =>
        if domainOf c.topologyKey node = v then ((nodeInfo.pods.countP fun p => countsFor ns c.selector p.pod : ℕ) : ℤ)
        else 0
      | none => 0).sum : ℤ) ≤ (((allNodes.map fun nodeInfo => nodeInfo.pods.length).sum : ℕ) : ℤ) := by
    rw [Nat.cast_list_sum, List.map_map]
    refine List.sum_le_sum fun nodeInfo _ => ?_
    have counted := List.countP_le_length (l := nodeInfo.pods) (p := fun p => countsFor ns c.selector p.pod)
    split
    · split_ifs <;> simp [counted]
    · simp
  have moved : ((calls.map fun call =>
      match eligibleNode requiredNodeAffinity constraints call.nodeInfo with
      | some node => if domainOf c.topologyKey node = v ∧ countsFor ns c.selector call.podInfo.pod then call.delta else 0
      | none => 0).sum : ℤ) ≤ (calls.length : ℤ) := by
    have ones : (calls.map fun _ => (1 : ℤ)).sum = calls.length := by simp
    rw [← ones]
    refine List.sum_le_sum fun call _ => ?_
    have unit : call.delta ≤ 1 := by cases call <;> simp [Extension.delta]
    split
    · split_ifs <;> simp [unit]
    · simp
  exact add_le_add snapshot moved

/-- The counts a state holds under a key, by value. -/
def PreFilterState.counts (s : PreFilterState) (key : String) (v : String) : Option ℤ :=
  s.tpPairToMatchNum.lookup ⟨key, v⟩

/-! ## The pair counts -/

section Counts

variable {requiredNodeAffinity : Node → Bool} {constraints : List TopologySpreadConstraint} {pod : Pod}

theorem eligibleNode_eq_some {nodeInfo : NodeInfo} {node : Node} :
    eligibleNode requiredNodeAffinity constraints nodeInfo = some node ↔
      nodeInfo.node = some node ∧ requiredNodeAffinity node = true ∧
        nodeLabelsMatchSpreadConstraints node.labels constraints = true := by
  simp [eligibleNode, Option.filter_eq_some_iff]

theorem tpCountsOfNode_eq (nodeInfo : NodeInfo) :
    tpCountsOfNode constraints pod requiredNodeAffinity nodeInfo =
      match eligibleNode requiredNodeAffinity constraints nodeInfo with
      | none => ∅
      | some node =>
        constraints.foldl (fun tpCounts c => tpCounts.insert ⟨c.topologyKey, domainOf c.topologyKey node⟩
          (countPodsMatchSelector nodeInfo.pods c.selector pod.namespace)) ∅ := by
  unfold tpCountsOfNode eligibleNode
  cases nodeInfo.node with
  | none => rfl
  | some node =>
    cases affine : requiredNodeAffinity node <;> cases keyed : nodeLabelsMatchSpreadConstraints node.labels constraints <;>
      simp [affine, keyed, domainOf, Option.filter]

theorem lookup_tpCountsOfNode (distinct : (constraints.map (·.topologyKey)).Nodup) {c : TopologySpreadConstraint}
    (listed : c ∈ constraints) (nodeInfo : NodeInfo) (v : String) :
    (tpCountsOfNode constraints pod requiredNodeAffinity nodeInfo).lookup ⟨c.topologyKey, v⟩ =
      (eligibleNode requiredNodeAffinity constraints nodeInfo).bind fun node =>
        if domainOf c.topologyKey node = v then some (countPodsMatchSelector nodeInfo.pods c.selector pod.namespace : ℤ)
        else none := by
  rw [tpCountsOfNode_eq]
  cases eligibleNode requiredNodeAffinity constraints nodeInfo with
  | none => rfl
  | some node =>
    have pairs : (constraints.map fun c => (⟨c.topologyKey, domainOf c.topologyKey node⟩ : TopologyPair)).Nodup :=
      List.Nodup.of_map TopologyPair.key (by simpa [Function.comp_def] using distinct)
    dsimp only [Option.bind_some]
    split_ifs with atV
    · rw [← atV]
      exact lookup_foldl_insert_of_mem _ pairs listed ∅
    · rw [lookup_foldl_insert_of_notMem]
      · rfl
      intro c' _ same
      rw [TopologyPair.mk.injEq] at same
      exact atV (same.1 ▸ same.2)

theorem lookup_addTpCounts (m t : AList fun _ : TopologyPair => ℤ) (p : TopologyPair) :
    (addTpCounts m t).lookup p = if p ∈ t then some ((m.lookup p).getD 0 + (t.lookup p).getD 0) else m.lookup p := by
  have listed : (∃ e ∈ t.entries, e.1 = p) ↔ p ∈ t := by
    rw [AList.mem_keys, AList.keys, List.mem_keys]
    exact ⟨fun ⟨e, member, same⟩ => ⟨e.2, same ▸ member⟩, fun ⟨n, member⟩ => ⟨_, member, rfl⟩⟩
  rw [addTpCounts, lookup_foldl_add Sigma.fst Sigma.snd p t.entries m, sum_filter_key p t.entries t.nodupKeys]
  simp only [listed]
  rfl

theorem lookup_foldl_addTpCounts (tpCounts : NodeInfo → AList fun _ : TopologyPair => ℤ) (p : TopologyPair) :
    ∀ (nodes : List NodeInfo) (m : AList fun _ : TopologyPair => ℤ),
      (nodes.foldl (fun m nodeInfo => addTpCounts m (tpCounts nodeInfo)) m).lookup p =
        if ∃ nodeInfo ∈ nodes, p ∈ tpCounts nodeInfo then
          some ((m.lookup p).getD 0 + (nodes.map fun nodeInfo => ((tpCounts nodeInfo).lookup p).getD 0).sum)
        else m.lookup p
  | [], m => by simp
  | nodeInfo :: nodes, m => by
    rw [List.foldl_cons, lookup_foldl_addTpCounts tpCounts p nodes, lookup_addTpCounts]
    by_cases counted : p ∈ tpCounts nodeInfo
    · rw [if_pos (show ∃ n ∈ nodeInfo :: nodes, p ∈ tpCounts n from ⟨nodeInfo, List.mem_cons_self, counted⟩),
        if_pos counted]
      by_cases later : ∃ n ∈ nodes, p ∈ tpCounts n
      · rw [if_pos later]
        simp [add_assoc]
      · -- no later node counts the pair
        have zero : (nodes.map fun n => ((tpCounts n).lookup p).getD 0).sum = 0 :=
          List.sum_eq_zero fun x member => by
            obtain ⟨n, listed, rfl⟩ := List.mem_map.mp member
            rw [AList.lookup_eq_none.mpr fun mem => later ⟨n, listed, mem⟩]
            rfl
        rw [if_neg later]
        simp [zero]
    · have absent : (tpCounts nodeInfo).lookup p = none := AList.lookup_eq_none.mpr counted
      simp [counted, absent]

theorem preFilterStateFor_counts (pl : PodTopologySpread) (order : PairOrder) (allNodes : List NodeInfo)
    (distinct : (constraints.map (·.topologyKey)).Nodup) {c : TopologySpreadConstraint} (listed : c ∈ constraints)
    (v : String) :
    (preFilterStateFor pl requiredNodeAffinity order allNodes pod constraints).counts c.topologyKey v =
      if v ∈ domains requiredNodeAffinity constraints allNodes c.topologyKey then
        some (domainCount requiredNodeAffinity constraints pod.namespace allNodes [] c v)
      else none := by
  have counted (nodeInfo : NodeInfo) :
      ⟨c.topologyKey, v⟩ ∈ tpCountsOfNode constraints pod requiredNodeAffinity nodeInfo ↔
        ∃ node, eligibleNode requiredNodeAffinity constraints nodeInfo = some node ∧ domainOf c.topologyKey node = v := by
    rw [← AList.lookup_isSome, lookup_tpCountsOfNode distinct listed]
    cases eligibleNode requiredNodeAffinity constraints nodeInfo <;> simp
  have each (nodeInfo : NodeInfo) :
      ((tpCountsOfNode constraints pod requiredNodeAffinity nodeInfo).lookup ⟨c.topologyKey, v⟩).getD 0 =
        match eligibleNode requiredNodeAffinity constraints nodeInfo with
        | some node => if domainOf c.topologyKey node = v then
            ((nodeInfo.pods.countP fun p => countsFor pod.namespace c.selector p.pod : ℕ) : ℤ) else 0
        | none => 0 := by
    rw [lookup_tpCountsOfNode distinct listed]
    cases eligibleNode requiredNodeAffinity constraints nodeInfo with
    | none => rfl
    | some node =>
      dsimp only [Option.bind_some]
      split_ifs <;> rfl
  have inDomains : v ∈ domains requiredNodeAffinity constraints allNodes c.topologyKey ↔
      ∃ nodeInfo ∈ allNodes, ⟨c.topologyKey, v⟩ ∈ tpCountsOfNode constraints pod requiredNodeAffinity nodeInfo := by
    simp only [domains, List.mem_toFinset, List.mem_map, List.mem_filterMap, counted]
    constructor
    · rintro ⟨node, ⟨nodeInfo, member, eligible⟩, atV⟩
      exact ⟨nodeInfo, member, node, eligible, atV⟩
    · rintro ⟨nodeInfo, member, node, eligible, atV⟩
      exact ⟨node, ⟨nodeInfo, member, eligible⟩, atV⟩
  unfold PreFilterState.counts preFilterStateFor
  dsimp only
  rw [lookup_foldl_addTpCounts, domainCount, List.map_nil, List.sum_nil, add_zero, AList.lookup_empty,
    Option.getD_none, zero_add, List.map_congr_left fun nodeInfo _ => each nodeInfo]
  exact if_congr inDomains.symm rfl rfl

theorem values_nodup {entries : List (Σ _ : TopologyPair, ℤ)} (distinctPairs : entries.NodupKeys) (key : String) :
    ((entries.filter fun e => e.1.key = key).map fun e => e.1.value).Nodup := by
  refine List.Nodup.map_on (fun x xKeyed y yKeyed same => ?_) (distinctPairs.nodup.filter _)
  obtain ⟨xMember, xKey⟩ := List.mem_filter.mp xKeyed
  obtain ⟨yMember, yKey⟩ := List.mem_filter.mp yKeyed
  exact distinctPairs.eq_of_fst_eq xMember yMember
    (TopologyPair.ext ((of_decide_eq_true xKey).trans (of_decide_eq_true yKey).symm) same)

theorem preFilterStateFor_counts_isSome (pl : PodTopologySpread) (order : PairOrder) (allNodes : List NodeInfo)
    (distinct : (constraints.map (·.topologyKey)).Nodup) {c : TopologySpreadConstraint} (listed : c ∈ constraints)
    (v : String) :
    ((preFilterStateFor pl requiredNodeAffinity order allNodes pod constraints).counts c.topologyKey v).isSome ↔
      v ∈ domains requiredNodeAffinity constraints allNodes c.topologyKey := by
  rw [preFilterStateFor_counts pl order allNodes distinct listed]
  split_ifs with inDomains <;> simp [inDomains]

theorem preFilterStateFor_domainsNum (pl : PodTopologySpread) (order : PairOrder) (allNodes : List NodeInfo)
    (distinct : (constraints.map (·.topologyKey)).Nodup) {c : TopologySpreadConstraint} (listed : c ∈ constraints) :
    (preFilterStateFor pl requiredNodeAffinity order allNodes pod constraints).tpKeyToDomainsNum.lookup c.topologyKey =
      if pl.enableMinDomainsInPodTopologySpread ∧ (domains requiredNodeAffinity constraints allNodes c.topologyKey).Nonempty
      then some (domains requiredNodeAffinity constraints allNodes c.topologyKey).card else none := by
  set s := preFilterStateFor pl requiredNodeAffinity order allNodes pod constraints with built
  set keyed := s.tpPairToMatchNum.entries.filter fun e => e.1.key = c.topologyKey
  have entry {v : String} {n : ℤ} : (⟨⟨c.topologyKey, v⟩, n⟩ : Σ _ : TopologyPair, ℤ) ∈ s.tpPairToMatchNum.entries ↔
      s.counts c.topologyKey v = some n :=
    AList.mem_lookup_iff.symm
  have values : (keyed.map fun e => e.1.value).toFinset = domains requiredNodeAffinity constraints allNodes c.topologyKey := by
    ext v
    rw [List.mem_toFinset, ← preFilterStateFor_counts_isSome pl order allNodes distinct listed, ← built,
      Option.isSome_iff_exists]
    simp only [keyed, List.mem_map, List.mem_filter, decide_eq_true_eq]
    constructor
    · rintro ⟨⟨⟨key, v⟩, n⟩, ⟨member, rfl⟩, rfl⟩
      exact ⟨n, entry.mp member⟩
    · rintro ⟨n, found⟩
      exact ⟨⟨⟨c.topologyKey, v⟩, n⟩, ⟨entry.mpr found, rfl⟩, rfl⟩
  have distinctValues : (keyed.map fun e => e.1.value).Nodup :=
    values_nodup s.tpPairToMatchNum.nodupKeys c.topologyKey
  have nonempty : (∃ e ∈ s.tpPairToMatchNum.entries, e.1.key = c.topologyKey) ↔
      (domains requiredNodeAffinity constraints allNodes c.topologyKey).Nonempty := by
    rw [← values]
    constructor
    · rintro ⟨e, member, key⟩
      exact ⟨e.1.value, List.mem_toFinset.mpr (List.mem_map.mpr ⟨e, List.mem_filter.mpr ⟨member, decide_eq_true key⟩, rfl⟩)⟩
    · rintro ⟨v, found⟩
      obtain ⟨e, keyedE, -⟩ := List.mem_map.mp (List.mem_toFinset.mp found)
      obtain ⟨member, key⟩ := List.mem_filter.mp keyedE
      exact ⟨e, member, of_decide_eq_true key⟩
  have card : keyed.length = (domains requiredNodeAffinity constraints allNodes c.topologyKey).card := by
    rw [← values, List.toFinset_card_of_nodup distinctValues, List.length_map]
  show (if pl.enableMinDomainsInPodTopologySpread then domainsNumOf s.tpPairToMatchNum else ∅).lookup c.topologyKey = _
  by_cases enabled : pl.enableMinDomainsInPodTopologySpread = true
  · rw [if_pos enabled, domainsNumOf, lookup_foldl_add (fun e : Σ _ : TopologyPair, ℤ => e.1.key) (fun _ => 1)]
    by_cases any : (domains requiredNodeAffinity constraints allNodes c.topologyKey).Nonempty
    · rw [if_pos (nonempty.mpr any), if_pos ⟨enabled, any⟩]
      simp [← card, keyed]
    · rw [if_neg (mt nonempty.mp any), if_neg fun both => any both.2]
      rfl
  · rw [if_neg enabled, if_neg fun both => enabled both.1]
    rfl

end Counts

/-! ## The calls the rule counts -/

section Calls

variable {requiredNodeAffinity : Node → Bool} {constraints : List TopologySpreadConstraint} {ns : String}
  {allNodes : List NodeInfo}

theorem domainCount_append_call (calls : List Extension) (call : Extension) (c : TopologySpreadConstraint)
    (v : String) :
    domainCount requiredNodeAffinity constraints ns allNodes (calls ++ [call]) c v =
      domainCount requiredNodeAffinity constraints ns allNodes calls c v +
        match eligibleNode requiredNodeAffinity constraints call.nodeInfo with
        | some node => if domainOf c.topologyKey node = v ∧ countsFor ns c.selector call.podInfo.pod then call.delta else 0
        | none => 0 := by
  simp only [domainCount, List.map_append, List.sum_append, List.map_cons, List.map_nil, List.sum_cons, List.sum_nil,
    add_zero, add_assoc]

theorem countsFor_of_live {selector : Selector} {pod : Pod} (live : pod.deletionTimestamp = none) :
    countsFor ns selector pod = true ↔ pod.namespace = ns ∧ selector.matches pod.labels = true := by
  simp [countsFor, live]

theorem domainOf_mem_domains {nodeInfo : NodeInfo} (member : nodeInfo ∈ allNodes) {node : Node}
    (eligible : eligibleNode requiredNodeAffinity constraints nodeInfo = some node) (key : String) :
    domainOf key node ∈ domains requiredNodeAffinity constraints allNodes key := by
  simp only [domains, List.mem_toFinset, List.mem_map, List.mem_filterMap]
  exact ⟨node, ⟨nodeInfo, member, eligible⟩, rfl⟩

theorem domainCount_of_notMem {calls : List Extension} {c : TopologySpreadConstraint} {v : String}
    (absent : v ∉ domains requiredNodeAffinity constraints allNodes c.topologyKey)
    (onDomains : ∀ call ∈ calls, ∀ node, eligibleNode requiredNodeAffinity constraints call.nodeInfo = some node →
      domainOf c.topologyKey node ∈ domains requiredNodeAffinity constraints allNodes c.topologyKey) :
    domainCount requiredNodeAffinity constraints ns allNodes calls c v = 0 := by
  unfold domainCount
  rw [List.sum_eq_zero, List.sum_eq_zero, add_zero]
  · -- the calls
    intro x moved
    obtain ⟨call, listed, rfl⟩ := List.mem_map.mp moved
    cases eligible : eligibleNode requiredNodeAffinity constraints call.nodeInfo with
    | none => rfl
    | some node =>
      have apart : domainOf c.topologyKey node ≠ v := fun same => absent (same ▸ onDomains call listed node eligible)
      simp only [apart, false_and, if_false]
  · -- the snapshot
    intro x counted
    obtain ⟨nodeInfo, member, rfl⟩ := List.mem_map.mp counted
    cases eligible : eligibleNode requiredNodeAffinity constraints nodeInfo with
    | none => rfl
    | some node =>
      have apart : domainOf c.topologyKey node ≠ v :=
        fun same => absent (same ▸ domainOf_mem_domains member eligible c.topologyKey)
      simp only [apart, if_false]

end Calls

theorem calPreFilterState_ok {pl : PodTopologySpread} {defaultSelector : Selector} {requiredNodeAffinity : Node → Bool}
    {order : PairOrder} {allNodes : List NodeInfo} {pod : Pod} {s : PreFilterState}
    (ok : calPreFilterState pl defaultSelector requiredNodeAffinity order allNodes pod = .ok s) :
    s.constraints = [] ∧ s = ⟨[], ∅, ∅, ∅⟩ ∨
      s.constraints ≠ [] ∧ s = preFilterStateFor pl requiredNodeAffinity order allNodes pod s.constraints := by
  unfold calPreFilterState at ok
  simp only [bind, Except.bind, pure, Except.pure] at ok
  -- the pod's own constraints or the defaults: either way a failure stops PreFilter
  split at ok <;> split at ok <;> try contradiction
  all_goals
    split_ifs at ok with unconstrained
    · cases ok
      exact .inl ⟨rfl, rfl⟩
    · cases ok
      exact .inr ⟨unconstrained, rfl⟩

/-! ## The critical paths -/

/-- The paths as the slots of a tracker of the least count. -/
def CriticalPaths.toSlots (p : CriticalPaths) : Slots String ℤ :=
  ⟨⟨p.first.topologyValue, p.first.matchNum⟩, ⟨p.second.topologyValue, p.second.matchNum⟩⟩

theorem toSlots_update (p : CriticalPaths) (v : String) (n : ℤ) : (p.update v n).toSlots = p.toSlots.record v n := by
  unfold CriticalPaths.update CriticalPaths.order Slots.record CriticalPaths.toSlots
  dsimp only
  by_cases atFirst : v = p.first.topologyValue
  · rw [if_pos atFirst, if_pos atFirst]
    subst atFirst
    split_ifs <;> rfl
  by_cases atSecond : v = p.second.topologyValue
  · rw [if_neg atFirst, if_neg atFirst, if_pos atSecond, if_pos atSecond]
    subst atSecond
    split_ifs <;> rfl
  · rw [if_neg atFirst, if_neg atFirst, if_neg atSecond, if_neg atSecond]
    split_ifs <;> rfl

theorem lookup_updatePaths (paths : AList fun _ : String => CriticalPaths) (pair : TopologyPair) (num : ℤ) (key : String) :
    (updatePaths paths pair num).lookup key =
      if pair.key = key then (paths.lookup key).map fun p => p.update pair.value num else paths.lookup key := by
  unfold updatePaths
  by_cases same : pair.key = key
  · subst same
    cases found : paths.lookup pair.key <;> simp [found, AList.lookup_insert]
  · cases paths.lookup pair.key <;> simp [same, AList.lookup_insert_ne (Ne.symm same)]

theorem lookup_foldl_updatePaths (key : String) :
    ∀ (entries : List (Σ _ : TopologyPair, ℤ)) (paths : AList fun _ : String => CriticalPaths),
      (entries.foldl (fun paths entry => updatePaths paths entry.1 entry.2) paths).lookup key =
        (paths.lookup key).map fun p =>
          ((entries.filter fun entry => entry.1.key = key).foldl (fun p entry => p.update entry.1.value entry.2) p)
  | [], paths => by simp
  | entry :: entries, paths => by
    rw [List.foldl_cons, lookup_foldl_updatePaths key entries, lookup_updatePaths]
    by_cases same : entry.1.key = key
    · rw [if_pos same]
      cases paths.lookup key <;> simp [same]
    · rw [if_neg same]
      simp [same]

theorem toSlots_foldl_update :
    ∀ (entries : List (Σ _ : TopologyPair, ℤ)) (p : CriticalPaths),
      (entries.foldl (fun p entry => p.update entry.1.value entry.2) p).toSlots =
        p.toSlots.recordAll (entries.map fun entry => (entry.1.value, entry.2))
  | [], _ => rfl
  | entry :: entries, p => by
    rw [List.foldl_cons, toSlots_foldl_update entries, toSlots_update, List.map_cons, recordAll_cons]


theorem newCriticalPaths_toSlots : newCriticalPaths.toSlots = ⟨⟨"", maxInt32⟩, ⟨"", maxInt32⟩⟩ := rfl

theorem lookup_foldl_newCriticalPaths {constraints : List TopologySpreadConstraint} {c : TopologySpreadConstraint}
    (listed : c ∈ constraints) :
    (constraints.foldl (fun (paths : AList fun _ : String => CriticalPaths) c =>
        paths.insert c.topologyKey newCriticalPaths) ∅).lookup c.topologyKey = some newCriticalPaths := by
  have present : (constraints.reverse.find? fun c' => c'.topologyKey = c.topologyKey).isSome :=
    List.find?_isSome.mpr ⟨c, List.mem_reverse.mpr listed, by simp⟩
  obtain ⟨found, first⟩ := Option.isSome_iff_exists.mp present
  rw [lookup_foldl_insert, first]
  rfl

section Paths

variable {requiredNodeAffinity : Node → Bool} {constraints : List TopologySpreadConstraint} {pod : Pod}
  (pl : PodTopologySpread) {order : PairOrder} (allNodes : List NodeInfo)

theorem preFilterStateFor_paths (ordered : ∀ entries, (order entries).Perm entries)
    {c : TopologySpreadConstraint} (listed : c ∈ constraints)
    (bounded : Below ((preFilterStateFor pl requiredNodeAffinity order allNodes pod constraints).counts c.topologyKey)
      maxInt32) :
    ∃ paths, (preFilterStateFor pl requiredNodeAffinity order allNodes pod constraints).tpKeyToCriticalPaths.lookup
        c.topologyKey = some paths ∧
      Least ((preFilterStateFor pl requiredNodeAffinity order allNodes pod constraints).counts c.topologyKey)
        maxInt32 paths.toSlots ∧
      SecondFor ((preFilterStateFor pl requiredNodeAffinity order allNodes pod constraints).counts c.topologyKey)
        paths.toSlots.first.value paths.toSlots := by
  set s := preFilterStateFor pl requiredNodeAffinity order allNodes pod constraints with built
  set walk := order s.tpPairToMatchNum.entries
  -- the walk visits the key's pairs, each once
  set visited := (walk.filter fun e => e.1.key = c.topologyKey).map fun e => (e.1.value, e.2)
  have walked : walk.Perm s.tpPairToMatchNum.entries := ordered _
  have listedPair {v : String} {n : ℤ} : (v, n) ∈ visited ↔ s.counts c.topologyKey v = some n := by
    simp only [visited, List.mem_map, List.mem_filter, decide_eq_true_eq, Prod.mk.injEq]
    constructor
    · rintro ⟨⟨⟨key, v⟩, n⟩, ⟨member, rfl⟩, rfl, rfl⟩
      exact AList.mem_lookup_iff.mpr (walked.subset member)
    · intro found
      exact ⟨⟨⟨c.topologyKey, v⟩, n⟩, ⟨walked.symm.subset (AList.mem_lookup_iff.mp found), rfl⟩, rfl, rfl⟩
  have distinctValues : (visited.map Prod.fst).Nodup := by
    simpa [visited, Function.comp_def] using
      values_nodup ((List.perm_nodupKeys walked).mpr s.tpPairToMatchNum.nodupKeys) c.topologyKey
  have counts : visit (fun _ => none) visited = s.counts c.topologyKey := by
    funext v
    apply Option.ext
    intro n
    rw [visit_eq_some _ distinctValues, listedPair]
    simp
  have start : Least (fun _ => none) maxInt32 newCriticalPaths.toSlots := least_start ""
  obtain ⟨least, second⟩ := Least.recordAll distinctValues (fun _ _ => rfl)
    (fun entry member => bounded entry.1 entry.2 (listedPair.mp member)) (fun _ _ found => by cases found)
    start fun _ _ _ found => by cases found
  refine ⟨(walk.filter fun e => e.1.key = c.topologyKey).foldl (fun p e => p.update e.1.value e.2) newCriticalPaths,
    ?_, ?_⟩
  · show ((order s.tpPairToMatchNum.entries).foldl (fun paths entry => updatePaths paths entry.1 entry.2)
      (constraints.foldl (fun paths c => paths.insert c.topologyKey newCriticalPaths) ∅)).lookup c.topologyKey = _
    rw [lookup_foldl_updatePaths, lookup_foldl_newCriticalPaths listed]
    rfl
  · rw [toSlots_foldl_update, newCriticalPaths_toSlots, ← counts]
    exact ⟨least, second⟩

end Paths

end Kubernetes.Scheduler.Podtopologyspread
