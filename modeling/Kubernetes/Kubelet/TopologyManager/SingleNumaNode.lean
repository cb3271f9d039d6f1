import Kubernetes.Kubelet.TopologyManager.Policy

/-! The single-numa-node policy of the topology manager
(`pkg/kubelet/cm/topologymanager/policy_single_numa_node.go`): keep the preferred hints for no
NUMA node or for one, merge them, and admit the pod when the best merge is preferred.
-/

set_option autoImplicit false

namespace Kubernetes.Kubelet.TopologyManager

open Kubernetes.Library Bitmask

structure SingleNumaNodePolicy where
  numaNodes : List ℤ

/-- One iteration of the inner loop of `filterSingleNumaHints`: the two appends of the source. -/
def singleNumaStep (hint : TopologyHint) : List TopologyHint :=
  (if hint.numaNodeAffinity = none ∧ hint.preferred then [hint] else []) ++
    (if hint.numaNodeAffinity ≠ none ∧ count hint.mask = 1 ∧ hint.preferred then [hint] else [])

def filterSingleNumaHints (allResourcesHints : List (List TopologyHint)) : List (List TopologyHint) :=
  allResourcesHints.map fun oneResourceHints => oneResourceHints.flatMap singleNumaStep

namespace SingleNumaNodePolicy

def canAdmitPodResult (hint : TopologyHint) : Bool := hint.preferred

/-- `Merge`. A best hint for all NUMA nodes becomes a hint without affinity; `IsEqual`
dereferences both masks. -/
def merge (p : SingleNumaNodePolicy) (providersHints : List ProviderHints) : Option (TopologyHint × Bool) := do
  let filteredHints := filterProvidersHints providersHints
  let singleNumaHints := filterSingleNumaHints filteredHints
  let bestHint ← mergeFilteredHints p.numaNodes singleNumaHints
  let defaultAffinity ← (newBitMask p.numaNodes).toOption
  let bestAffinity ← bestHint.numaNodeAffinity
  let bestHint := if bestAffinity == defaultAffinity then ⟨none, bestHint.preferred⟩ else bestHint
  pure (bestHint, canAdmitPodResult bestHint)

end SingleNumaNodePolicy

/-! ## What the policy admits -/

/-- A hint the policy keeps: preferred, and for no NUMA node or for one. -/
def SingleNuma (hint : TopologyHint) : Prop :=
  hint.preferred = true ∧ (hint.numaNodeAffinity = none ∨ ∃ i, 0 ≤ i ∧ i < 64 ∧ hint.numaNodeAffinity = some (bit i))

/-- Every resource's hints offer NUMA node `n`: a preferred hint for `n` alone or without affinity. -/
def Offers (filteredHints : List (List TopologyHint)) (n : ℤ) : Prop :=
  ∀ hints ∈ filteredHints, ∃ hint ∈ hints, hint.preferred = true ∧
    (hint.numaNodeAffinity = none ∨ hint.numaNodeAffinity = some (bit n))

/-- Every resource's hints hold a preferred hint without affinity. -/
def NoPreference (filteredHints : List (List TopologyHint)) : Prop :=
  ∀ hints ∈ filteredHints, (⟨none, true⟩ : TopologyHint) ∈ hints

theorem mem_singleNumaStep {hint x : TopologyHint} : x ∈ singleNumaStep hint ↔ x = hint ∧ SingleNuma hint := by
  obtain ⟨_ | affinity, preferred⟩ := hint
  · cases preferred <;> simp [singleNumaStep, SingleNuma]
  · -- one NUMA node is a count of one
    have single := @count_eq_one_iff affinity
    by_cases one : count affinity = 1 <;> cases preferred <;>
      simp [singleNumaStep, SingleNuma, TopologyHint.mask, one, ← single]

theorem mem_flatMap_singleNumaStep {hints : List TopologyHint} {x : TopologyHint} :
    x ∈ hints.flatMap singleNumaStep ↔ x ∈ hints ∧ SingleNuma x := by
  simp only [List.mem_flatMap, mem_singleNumaStep]
  constructor
  · rintro ⟨hint, member, rfl, single⟩
    exact ⟨member, single⟩
  · rintro ⟨member, single⟩
    exact ⟨x, member, rfl, single⟩

theorem lt_of_testBit {s : BitMask} {j : ℕ} (set : s.toNat.testBit j = true) : j < 64 := by
  by_contra above
  have clear := Nat.testBit_lt_two_pow (Nat.lt_of_lt_of_le s.toNat_lt (Nat.pow_le_pow_right (by decide)
    (Nat.le_of_not_lt above)))
  rw [clear] at set
  cases set

theorem mergeSpec_single {all : BitMask} {p : List TopologyHint} (single : ∀ hint ∈ p, SingleNuma hint)
    {j : ℕ} (left : (mergeSpec all p).mask.toNat.testBit j = true) :
    (mergeSpec all p).preferred = true ∧ all.toNat.testBit j = true ∧
      (∀ hint ∈ p, hint.numaNodeAffinity = none ∨ hint.numaNodeAffinity = some (bit j)) ∧
      ((mergeSpec all p).mask = all ∨ (mergeSpec all p).mask = bit j) := by
  have merged : (mergeSpec all p).mask = (p.filterMap (·.numaNodeAffinity)).foldl (· &&& ·) all := rfl
  rw [merged, testBit_foldl_and] at left
  obtain ⟨inAll, inEvery⟩ := left
  have small := lt_of_testBit inAll
  have names : ∀ hint ∈ p, hint.numaNodeAffinity = none ∨ hint.numaNodeAffinity = some (bit j) := by
    intro hint member
    obtain ⟨-, none | ⟨i, low, high, affinity⟩⟩ := single hint member
    · exact .inl none
    · have same := (testBit_bit low high j).mp (inEvery (bit i) (List.mem_filterMap.mpr ⟨hint, member, affinity⟩))
      rw [affinity, same]
      exact .inr rfl
  have everyBit : ∀ a ∈ p.filterMap (·.numaNodeAffinity), a = bit j := by
    intro a member
    obtain ⟨hint, member, affinity⟩ := List.mem_filterMap.mp member
    rcases names hint member with none | some
    · rw [none] at affinity
      cases affinity
    · exact Option.some.inj (affinity.symm.trans some)
  refine ⟨?_, inAll, names, ?_⟩
  · simp only [mergeSpec, decide_eq_true_eq]
    exact ⟨fun hint member => (single hint member).1,
      fun a member b member' => (everyBit a member).trans (everyBit b member').symm⟩
  · rcases affinities : p.filterMap (·.numaNodeAffinity) with _ | ⟨a, rest⟩
    · left
      rw [merged, affinities, List.foldl_nil]
    · -- the AND of the bit of j with all NUMA nodes, which hold j
      right
      rw [merged, affinities]
      refine ext_testBit fun k => ?_
      rw [testBit_foldl_and, testBit_bit (by omega) (by omega)]
      rw [affinities] at everyBit
      constructor
      · rintro ⟨-, each⟩
        simpa [everyBit a List.mem_cons_self, testBit_bit (show (0 : ℤ) ≤ j by omega) (by omega)] using
          each a List.mem_cons_self
      · intro same
        have jk : k = j := by omega
        subst jk
        exact ⟨inAll, fun b member => (everyBit b member) ▸ (testBit_bit (by omega) (by omega) k).mpr rfl⟩

section Candidates

variable {all : BitMask} {numaNodes : List ℤ} {filteredHints : List (List TopologyHint)}

theorem candidate_single (bits : ∀ j : ℕ, all.toNat.testBit j = true ↔ (j : ℤ) ∈ numaNodes) {hint : TopologyHint}
    (candidate : Candidate all (filterSingleNumaHints filteredHints) hint) :
    hint.preferred = true ∧ ∃ n ∈ numaNodes, Offers filteredHints n ∧ (hint.mask = all ∨ hint.mask = bit n) := by
  obtain ⟨p, chosen, rfl, positive⟩ := candidate
  have single : ∀ x ∈ p, SingleNuma x := fun x member => by
    obtain ⟨l, kept, inKept⟩ := exists_of_mem_choice chosen member
    obtain ⟨l', -, rfl⟩ := List.mem_map.mp kept
    exact (mem_flatMap_singleNumaStep.mp inKept).2
  obtain ⟨j, left⟩ := count_pos_iff.mp positive
  obtain ⟨preferred, inAll, names, mask⟩ := mergeSpec_single single left
  refine ⟨preferred, j, (bits j).mp inAll, fun l inFiltered => ?_, mask⟩
  obtain ⟨x, inP, inKept⟩ := exists_choice_of_mem chosen (List.mem_map_of_mem inFiltered)
  obtain ⟨inList, xSingle⟩ := mem_flatMap_singleNumaStep.mp inKept
  exact ⟨x, inList, xSingle.1, names x inP⟩

theorem candidate_of_offers (bits : ∀ j : ℕ, all.toNat.testBit j = true ↔ (j : ℤ) ∈ numaNodes) {n : ℤ}
    (member : n ∈ numaNodes) (valid : 0 ≤ n ∧ n < 64) (offers : Offers filteredHints n) :
    ∃ hint, Candidate all (filterSingleNumaHints filteredHints) hint := by
  have each : ∀ l ∈ filterSingleNumaHints filteredHints, ∃ x ∈ l,
      x.preferred = true ∧ (x.numaNodeAffinity = none ∨ x.numaNodeAffinity = some (bit n)) := by
    intro l kept
    obtain ⟨l', inFiltered, rfl⟩ := List.mem_map.mp kept
    obtain ⟨x, inList, preferred, affinity⟩ := offers l' inFiltered
    refine ⟨x, mem_flatMap_singleNumaStep.mpr ⟨inList, preferred, ?_⟩, preferred, affinity⟩
    rcases affinity with none | some
    · exact .inl none
    · exact .inr ⟨n, valid.1, valid.2, some⟩
  obtain ⟨p, chosen⟩ := exists_forall₂_of_forall_exists each
  refine ⟨mergeSpec all p, p, chosen.imp fun _ _ => And.left, rfl, count_pos_iff.mpr ⟨n.toNat, ?_⟩⟩
  -- n is left: all NUMA nodes hold it, and so does every affinity
  have nodeBit : ((n.toNat : ℕ) : ℤ) = n := Int.toNat_of_nonneg valid.1
  rw [show (mergeSpec all p).mask = (p.filterMap (·.numaNodeAffinity)).foldl (· &&& ·) all from rfl,
    testBit_foldl_and]
  refine ⟨(bits n.toNat).mpr (nodeBit ▸ member), fun a inAffinities => ?_⟩
  obtain ⟨x, inP, affinity⟩ := List.mem_filterMap.mp inAffinities
  obtain ⟨l, -, -, -, named⟩ := exists_of_mem_choice chosen inP
  rcases named with none | some
  · rw [none] at affinity
    cases affinity
  · rw [some] at affinity
    cases affinity
    exact (testBit_bit valid.1 valid.2 n.toNat).mpr nodeBit

end Candidates

theorem merge_eq {policy : SingleNumaNodePolicy} {all : BitMask} (created : newBitMask policy.numaNodes = .ok all)
    {providersHints : List ProviderHints} {best : TopologyHint} {mask : BitMask}
    (merged : mergeFilteredHints policy.numaNodes (filterSingleNumaHints (filterProvidersHints providersHints)) =
      some best)
    (affinity : best.numaNodeAffinity = some mask) :
    policy.merge providersHints =
      some (if mask = all then ⟨none, best.preferred⟩ else best, best.preferred) := by
  simp only [SingleNumaNodePolicy.merge, merged, created, affinity, Except.toOption, Option.bind_eq_bind,
    Option.bind_some, Option.pure_def, beq_iff_eq, SingleNumaNodePolicy.canAdmitPodResult]
  split_ifs <;> rfl

/-- On NUMA nodes in `0..63`, at least one, the policy admits exactly when no resource has a
preference or every resource offers one same NUMA node, and an admitted hint is without affinity
or for one offered NUMA node. -/
theorem single_numa_node_admission (policy : SingleNumaNodePolicy) (nonempty : policy.numaNodes ≠ [])
    (valid : ∀ n ∈ policy.numaNodes, 0 ≤ n ∧ n < 64) (providersHints : List ProviderHints) :
    ∃ hint admitted, policy.merge providersHints = some (hint, admitted) ∧
      (admitted = true ↔ NoPreference (filterProvidersHints providersHints) ∨
        ∃ n ∈ policy.numaNodes, Offers (filterProvidersHints providersHints) n) ∧
      (admitted = true → hint.numaNodeAffinity = none ∨
        ∃ n ∈ policy.numaNodes, hint.numaNodeAffinity = some (bit n) ∧ Offers (filterProvidersHints providersHints) n) := by
  obtain ⟨all, created, bits⟩ := newBitMask_ok valid
  -- no preference anywhere offers every NUMA node
  have offered : NoPreference (filterProvidersHints providersHints) ∨
      (∃ n ∈ policy.numaNodes, Offers (filterProvidersHints providersHints) n) →
      ∃ n ∈ policy.numaNodes, Offers (filterProvidersHints providersHints) n := by
    rintro (none | some)
    · obtain ⟨n, member⟩ := List.exists_mem_of_ne_nil policy.numaNodes nonempty
      exact ⟨n, member, fun l inFiltered => ⟨_, none l inFiltered, rfl, .inl rfl⟩⟩
    · exact some
  have merged := mergeFilteredHints_eq created (filterSingleNumaHints (filterProvidersHints providersHints))
  rcases chosen : (mergedCandidates all (filterSingleNumaHints (filterProvidersHints providersHints))).argmin
      (hintKey (maxOfMinAffinityCounts (filterSingleNumaHints (filterProvidersHints providersHints)))) with _ | m
  · -- no merge leaves a NUMA node: all NUMA nodes, not preferred, without affinity
    rw [chosen, Option.getD_none] at merged
    refine ⟨_, _, merge_eq created merged rfl, ?_, fun refused => by cases refused⟩
    simp only [Bool.false_eq_true, false_iff]
    intro offers
    obtain ⟨n, member, offers⟩ := offered offers
    obtain ⟨hint, candidate⟩ := candidate_of_offers bits member (valid n member) offers
    simpa [List.argmin_eq_none.mp chosen] using mem_mergedCandidates.mpr candidate
  · -- the best merge is preferred and for all NUMA nodes or one offered node
    rw [chosen, Option.getD_some] at merged
    have candidate := mem_mergedCandidates.mp (List.argmin_mem chosen)
    obtain ⟨preferred, n, member, offers, mask⟩ := candidate_single bits candidate
    have affinity : m.numaNodeAffinity = some m.mask := by
      obtain ⟨mask', set⟩ := Option.isSome_iff_exists.mp candidate.isSome
      simp [TopologyHint.mask, set]
    refine ⟨_, _, merge_eq created merged affinity, iff_of_true preferred (.inr ⟨n, member, offers⟩),
      fun _ => ?_⟩
    split_ifs with isAll
    · exact .inl rfl
    · rcases mask with sameAll | isBit
      · exact absurd sameAll isAll
      · exact .inr ⟨n, member, isBit ▸ affinity, offers⟩

theorem single_numa_node_admission_two_nodes :
    ([0, 1] : List ℤ) ≠ [] ∧ (∀ n ∈ ([0, 1] : List ℤ), 0 ≤ n ∧ n < 64) ∧
      ∃ hint admitted, SingleNumaNodePolicy.merge ⟨[0, 1]⟩ [[some [⟨some 2, true⟩, ⟨some 3, true⟩]]] = some (hint, admitted) ∧
        (admitted = true ↔ NoPreference (filterProvidersHints [[some [⟨some 2, true⟩, ⟨some 3, true⟩]]]) ∨
          ∃ n ∈ ([0, 1] : List ℤ), Offers (filterProvidersHints [[some [⟨some 2, true⟩, ⟨some 3, true⟩]]]) n) ∧
        (admitted = true → hint.numaNodeAffinity = none ∨
          ∃ n ∈ ([0, 1] : List ℤ), hint.numaNodeAffinity = some (bit n) ∧
            Offers (filterProvidersHints [[some [⟨some 2, true⟩, ⟨some 3, true⟩]]]) n) :=
  ⟨by decide, by decide, single_numa_node_admission ⟨[0, 1]⟩ (by decide) (by decide) _⟩

/-- No NUMA node: a pod with no preference anywhere is refused. -/
theorem single_numa_node_refuses_without_nodes :
    NoPreference (filterProvidersHints [[]]) ∧ SingleNumaNodePolicy.merge ⟨[]⟩ [[]] = some (⟨none, false⟩, false) :=
  ⟨by simp [NoPreference, filterProvidersHints], by decide⟩

end Kubernetes.Kubelet.TopologyManager
