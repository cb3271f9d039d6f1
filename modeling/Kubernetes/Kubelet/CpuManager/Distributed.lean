import Kubernetes.Library.Float64
import Kubernetes.Library.Outcome
import Kubernetes.Kubelet.CpuManager.CpuAssignment

/-! The distributing allocator of the CPU manager (pkg/kubelet/cm/cpumanager/cpu_assignment.go).

`takeByTopologyNUMADistributed` spreads a request evenly over as few NUMA nodes as it can. For
each number of NUMA nodes from the least that could hold the request it visits every
combination of that many, keeps those with room for an even share in groups of `cpuGroupSize`,
and scores each by the standard deviation of what the NUMA nodes keep once the shares and the
remainder are taken, the remainder spread over the best subset of the combination. The best
combination is taken with the packing allocator, NUMA node by NUMA node; with none, the whole
request is packed.

The scores are float64 values as Go computes them, each operation rounded on its own. Go lists
the values of a map in an order of its own; the model lists them in the order of the sorted NUMA
nodes, which can only move the last bit of a sum. A remainder loop that takes no group repeats
forever: `none`. Go's integer division truncates, as `Int.tdiv` does.
-/

set_option autoImplicit false

namespace Kubernetes.Kubelet.CpuManager

open Kubernetes.Library

/-! ## The balance score -/

/-- `mean`, rounded to three decimals. -/
def mean (xs : List ℤ) : ℚ :=
  let sum := xs.foldl (fun sum x => Float64.add sum (Float64.ofInt x)) 0
  let m := Float64.div sum (Float64.ofInt xs.length)
  Float64.div (Float64.round (Float64.mul m 1000)) 1000

def standardDeviation (xs : List ℤ) : ℚ :=
  let m := mean xs
  let sum := xs.foldl (fun sum x =>
    Float64.add sum (Float64.mul (Float64.sub (Float64.ofInt x) m) (Float64.sub (Float64.ofInt x) m))) 0
  let s := Float64.sqrt (Float64.div sum (Float64.ofInt xs.length))
  Float64.div (Float64.round (Float64.mul s 1000)) 1000

/-! ## Combinations -/

/-- The combinations of `k` elements of `n`, in the order of `iterateCombinations`: those with
the first element, then those without it. -/
def combinations : ℕ → List ℤ → List (List ℤ)
  | 0, _ => [[]]
  | _ + 1, [] => []
  | k + 1, x :: xs => (combinations k xs).map (x :: ·) ++ combinations (k + 1) xs

def iterateCombinations (n : List ℤ) (k : ℤ) : List (List ℤ) :=
  if k < 1 then [] else combinations k.toNat n

/-- The length at which `append` last moved a combination of `k` elements to an array of its
own. A full slice of ints doubles its capacity (0, 1, 2, 4, 8, ... up to 512), so the arrays are
new at lengths 1, 2, 3, 5, 9, ...; the elements past this length are written in place by every
later combination with the same first ones. -/
def freshLength (k : ℕ) : ℕ := if k ≤ 1 then k else 2 ^ Nat.log2 (k - 1) + 1

/-- A combination kept from a visit, read after the visits `visited`: its elements past
`freshLength` are those of the last visit with the same first ones. -/
def readBack (visited : List (List ℤ)) (k : ℕ) (combo : List ℤ) : List ℤ :=
  ((visited.filter fun other => other.take (freshLength k) == combo.take (freshLength k)).getLast?).getD combo

/-! ## The remainder loops -/

section Remainder

variable {σ : Type} (hasRoom : σ → ℤ → Bool) (takeGroup : σ → ℤ → σ) (cpuGroupSize : ℤ)

/-- One pass of `for _, numa := range numas`: each NUMA node with room for a group gives one,
until nothing remains. -/
def remainderPass : List ℤ → σ × ℤ → σ × ℤ
  | [], state => state
  | numa :: numas, (s, remainder) =>
    if remainder = 0 then (s, remainder)
    else if hasRoom s numa then remainderPass numas (takeGroup s numa, remainder - cpuGroupSize)
    else remainderPass numas (s, remainder)

/-- `for remainder > 0 { ... }` around the pass; `none` when it never ends. -/
def distributeRemainder (numas : List ℤ) (s : σ) (remainder : ℤ) : Option σ :=
  (whilePositive (remainderPass hasRoom takeGroup cpuGroupSize numas) Prod.snd (s, remainder)).map Prod.fst

variable {hasRoom takeGroup cpuGroupSize}

theorem remainderPass_invariant {keeps : σ → Prop} (step : ∀ s numa, keeps s → keeps (takeGroup s numa)) :
    ∀ (numas : List ℤ) (state : σ × ℤ), keeps state.1 →
      keeps (remainderPass hasRoom takeGroup cpuGroupSize numas state).1
  | [], _, start => start
  | numa :: numas, (s, remainder), start => by
    simp only [remainderPass]
    split_ifs
    · exact start
    · exact remainderPass_invariant step numas _ (step s numa start)
    · exact remainderPass_invariant step numas _ start

theorem distributeRemainder_invariant {keeps : σ → Prop} (step : ∀ s numa, keeps s → keeps (takeGroup s numa))
    {numas : List ℤ} {s final : σ} {remainder : ℤ} (start : keeps s)
    (ends : distributeRemainder hasRoom takeGroup cpuGroupSize numas s remainder = some final) : keeps final := by
  obtain ⟨state, loop, rfl⟩ := Option.map_eq_some_iff.mp ends
  exact @whilePositive_invariant (σ × ℤ) _ _ (fun state => keeps state.1) (remainderPass_invariant step numas) _ _
    start loop

end Remainder

/-! ## The accumulator's NUMA nodes -/

namespace CPUAccumulator

variable (a : CPUAccumulator)

/-- The CPUs of a NUMA node still available. -/
def availableIn (numa : ℤ) : ℤ := (a.details.cpusInNUMANodes [numa]).card

/-- `cpus, _ := takeByTopologyNUMAPacked(a.topo, a.details.CPUsInNUMANodes(numa), numCPUs)`,
then `a.take(cpus)`: on an error the set is empty. -/
def takePacked (numa numCPUs : ℤ) : CPUAccumulator :=
  a.take (match takeByTopologyNUMAPacked a.topo (a.details.cpusInNUMANodes [numa]) numCPUs with
    | .ok cpus => cpus
    | .error _ => ∅)

/-- The fewest and the most NUMA nodes that could hold the request in groups. -/
def rangeNUMANodesNeededToSatisfy (cpuGroupSize : ℤ) : ℤ × ℤ :=
  let numNUMANodes : ℤ := a.topo.cpuDetails.numaNodes.card
  let numNUMANodesAvailable : ℤ := a.details.numaNodes.card
  let numCPUs : ℤ := a.topo.cpuDetails.cpus.card
  let numCPUGroups := (numCPUs - 1).tdiv cpuGroupSize + 1
  let numCPUGroupsPerNUMANode := (numCPUGroups - 1).tdiv numNUMANodes + 1
  let numCPUGroupsNeeded := (a.numCPUsNeeded - 1).tdiv cpuGroupSize + 1
  let minNUMAs := (numCPUGroupsNeeded - 1).tdiv numCPUGroupsPerNUMANode + 1
  let maxNUMAs := min numCPUGroupsNeeded numNUMANodesAvailable
  (minNUMAs, maxNUMAs)

end CPUAccumulator

/-! ## The search -/

/-- `bestBalance`, `bestRemainder` and `bestCombo` of the visits of one size. -/
structure Best where
  balance : ℚ
  remainder : Option (List ℤ)
  combo : Option (List ℤ)

section Search

variable (acc : CPUAccumulator) (numas : List ℤ) (numCPUs cpuGroupSize : ℤ)

/-- The visit of a subset of `remainderCombo`: one that could hold the remainder has the
remainder loop simulated over it, and a lower balance than the best so far wins. -/
def remainderVisit (availableAfterAllocation : ℤ → ℤ) (remainder : ℤ) (best : ℚ × Option (List ℤ))
    (subset : List ℤ) : Option (ℚ × Option (List ℤ)) :=
  if (subset.map availableAfterAllocation).sum < remainder then some best
  else do
    let after ← distributeRemainder (fun available numa => cpuGroupSize ≤ available numa)
      (fun available numa => Function.update available numa (available numa - cpuGroupSize)) cpuGroupSize
      subset availableAfterAllocation remainder
    let balance := standardDeviation (numas.dedup.map after)
    pure (if balance < best.1 then (balance, some subset) else best)

/-- The subsets of `remainderCombo` by size, the largest first, while there is a remainder. -/
def remainderSearch (availableAfterAllocation : ℤ → ℤ) (remainder : ℤ) (remainderCombo : List ℤ)
    (start : ℚ × Option (List ℤ)) : Option (ℚ × Option (List ℤ)) :=
  if remainder ≤ 0 then some start
  else
    ((List.range remainderCombo.length).reverse.map (· + 1)).foldlM (fun best (k : ℕ) => do
      let visited := iterateCombinations remainderCombo k
      let best ← visited.foldlM (remainderVisit numas cpuGroupSize availableAfterAllocation remainder) best
      -- a subset kept in this round reads as its array does once the round is over
      pure (best.1, best.2.map fun subset => if subset.length = k then readBack visited k subset else subset))
      start

/-- The visit of a combination: one with room for the request in groups and for an even share
on each of its NUMA nodes is scored, and a lower score than the best so far wins. -/
def comboVisit (best : Best) (combo : List ℤ) : Option Best :=
  if ((acc.details.cpusInNUMANodes combo).card : ℤ) < numCPUs then some best
  else if (combo.map fun numa => (acc.availableIn numa).tdiv cpuGroupSize).sum * cpuGroupSize < numCPUs then
    some best
  else
    let distribution := (numCPUs.tdiv combo.length).tdiv cpuGroupSize * cpuGroupSize
    if combo.any fun numa => acc.availableIn numa < distribution then some best
    else
      let availableAfterAllocation := fun numa => acc.availableIn numa - distribution * combo.count numa
      let remainder := numCPUs - distribution * combo.length
      let remainderCombo := combo.filter fun numa => cpuGroupSize ≤ availableAfterAllocation numa
      let start : ℚ × Option (List ℤ) :=
        if remainder = 0 then (standardDeviation (numas.dedup.map availableAfterAllocation), none)
        else (Float64.maxFloat64, none)
      (remainderSearch numas cpuGroupSize availableAfterAllocation remainder remainderCombo start).map fun found =>
        if found.1 < best.balance then ⟨found.1, found.2, some combo⟩ else best

/-- The visits of `iterateCombinations`, which stop at the first visit after a balance of 0:
the visits made and the best found. -/
def visitCombinations : List (List ℤ) → Best → Option (List (List ℤ) × Best)
  | [], best => some ([], best)
  | combo :: combos, best =>
    if best.balance = 0 then some ([combo], best)
    else do
      let best ← comboVisit acc numas numCPUs cpuGroupSize best combo
      let (visited, best) ← visitCombinations combos best
      pure (combo :: visited, best)

/-- The best combination of `k` NUMA nodes and the subset for its remainder, read once the
visits are over. -/
def bestCombination (k : ℤ) : Option (Option (List ℤ × Option (List ℤ))) :=
  (visitCombinations acc numas numCPUs cpuGroupSize (iterateCombinations numas k) ⟨Float64.maxFloat64, none, none⟩).map
    fun (visited, best) => best.combo.map fun combo => (readBack visited k.toNat combo, best.remainder)

/-- Taking a combination: an even share from each NUMA node, then the remainder a group at a
time over its subset. -/
def takeCombination (combo : List ℤ) (remainderSet : Option (List ℤ)) : Option (Except String (Finset ℤ)) :=
  let distribution := (numCPUs.tdiv combo.length).tdiv cpuGroupSize * cpuGroupSize
  let shared := combo.foldl (fun acc numa => acc.takePacked numa distribution) acc
  let remainder := numCPUs - distribution * combo.length
  (distributeRemainder (fun acc numa => cpuGroupSize ≤ acc.availableIn numa)
      (fun acc numa => acc.takePacked numa cpuGroupSize) cpuGroupSize (remainderSet.getD []) shared remainder).map
    fun acc =>
      if 0 < acc.numCPUsNeeded then
        .error ("accounting error, not enough CPUs allocated, remaining: " ++ toString acc.numCPUsNeeded)
      else if acc.numCPUsNeeded < 0 then
        .error ("accounting error, too many CPUs allocated, remaining: " ++ toString acc.numCPUsNeeded)
      else .ok acc.result

/-- `for k := minNUMAs; k <= maxNUMAs; k++`: the first size with a best combination is taken,
and with none the request is packed. -/
def trySizes (fallback : Except String (Finset ℤ)) : List ℤ → Option (Except String (Finset ℤ))
  | [] => some fallback
  | k :: ks =>
    (bestCombination acc numas numCPUs cpuGroupSize k).bind fun
      | none => trySizes fallback ks
      | some (combo, remainderSet) => takeCombination acc numCPUs cpuGroupSize combo remainderSet

end Search

/-- `none` when the call never returns: a remainder loop that takes no group, or a group size of
zero, which divides by zero. -/
def takeByTopologyNUMADistributed (topo : CPUTopology) (availableCPUs : Finset ℤ) (numCPUs cpuGroupSize : ℤ) :
    Option (Except String (Finset ℤ)) :=
  if cpuGroupSize = 0 then none
  else if numCPUs.tmod cpuGroupSize ≠ 0 then some (takeByTopologyNUMAPacked topo availableCPUs numCPUs)
  else
    let acc := newCPUAccumulator topo availableCPUs numCPUs
    if acc.isSatisfied then some (.ok acc.result)
    else if acc.isFailed then some (.error "not enough cpus available to satisfy request")
    else
      let numas := acc.sortAvailableNUMANodes
      let range := acc.rangeNUMANodesNeededToSatisfy cpuGroupSize
      trySizes acc numas numCPUs cpuGroupSize (takeByTopologyNUMAPacked topo availableCPUs numCPUs)
        ((List.range (range.2 - range.1 + 1).toNat).map fun i : ℕ => range.1 + (i : ℤ))


/-! ## What the distributing allocator takes from -/

section Subset

variable {topo : CPUTopology} {pool : Finset ℤ}

theorem cpusInNUMANodes_subset_keys (d : CPUDetails) (ids : List ℤ) : d.cpusInNUMANodes ids ⊆ d.keys := by
  rw [CPUDetails.cpusInNUMANodes, CPUDetails.select_cpu]
  exact Finset.filter_subset _ _

theorem Within.takePacked (uniform : topo.Uniform) {a : CPUAccumulator} (within : Within topo pool a)
    (numa numCPUs : ℤ) : Within topo pool (a.takePacked numa numCPUs) := by
  unfold CPUAccumulator.takePacked
  refine within.take ?_
  split
  · rename_i cpus allocated
    rw [within.topo_eq] at allocated
    exact (takeByTopologyNUMAPacked_subset uniform allocated).trans
      ((cpusInNUMANodes_subset_keys _ _).trans within.keys_subset)
  · exact Finset.empty_subset _

theorem Within.foldl_takePacked (uniform : topo.Uniform) (numCPUs : ℤ) :
    ∀ (numas : List ℤ) {a : CPUAccumulator}, Within topo pool a →
      Within topo pool (numas.foldl (fun acc numa => acc.takePacked numa numCPUs) a)
  | [], _, within => within
  | numa :: numas, _, within => Within.foldl_takePacked uniform numCPUs numas (within.takePacked uniform numa numCPUs)

variable (uniform : topo.Uniform) {acc : CPUAccumulator} (within : Within topo pool acc)
  {numas : List ℤ} {numCPUs cpuGroupSize : ℤ}
include uniform within

theorem takeCombination_subset {combo : List ℤ} {remainderSet : Option (List ℤ)} {s : Finset ℤ}
    (taken : takeCombination acc numCPUs cpuGroupSize combo remainderSet = some (.ok s)) : s ⊆ pool := by
  simp only [takeCombination] at taken
  obtain ⟨final, ends, result⟩ := Option.map_eq_some_iff.mp taken
  have finalWithin := distributeRemainder_invariant (fun _ numa stepWithin => stepWithin.takePacked uniform numa _)
    (within.foldl_takePacked uniform _ combo) ends
  split_ifs at result
  cases result
  exact finalWithin.result_subset

theorem trySizes_subset {fallback : Except String (Finset ℤ)} (packed : ∀ s, fallback = .ok s → s ⊆ pool) :
    ∀ {ks : List ℤ} {s : Finset ℤ}, trySizes acc numas numCPUs cpuGroupSize fallback ks = some (.ok s) → s ⊆ pool
  | [], s, tried => packed s (Option.some.inj tried)
  | k :: ks, s, tried => by
    obtain ⟨found, _, next⟩ := Option.bind_eq_some_iff.mp tried
    cases found with
    | none => exact trySizes_subset packed next
    | some pair => exact takeCombination_subset uniform within next

end Subset

theorem takeByTopologyNUMADistributed_subset {topo : CPUTopology} (uniform : topo.Uniform) {availableCPUs : Finset ℤ}
    {numCPUs cpuGroupSize : ℤ} {s : Finset ℤ}
    (allocated : takeByTopologyNUMADistributed topo availableCPUs numCPUs cpuGroupSize = some (.ok s)) :
    s ⊆ availableCPUs := by
  have packed : ∀ s, takeByTopologyNUMAPacked topo availableCPUs numCPUs = .ok s → s ⊆ availableCPUs :=
    fun _ => takeByTopologyNUMAPacked_subset uniform
  have started := Within.start topo availableCPUs numCPUs
  unfold takeByTopologyNUMADistributed at allocated
  by_cases zero : cpuGroupSize = 0
  · rw [if_pos zero] at allocated
    cases allocated
  by_cases uneven : numCPUs.tmod cpuGroupSize ≠ 0
  · rw [if_neg zero, if_pos uneven] at allocated
    exact packed s (Option.some.inj allocated)
  rw [if_neg zero, if_neg uneven] at allocated
  dsimp only at allocated
  split_ifs at allocated
  · cases allocated
    exact started.result_subset
  · cases allocated
  · exact trySizes_subset uniform started packed allocated

/-! ## A remainder loop that never ends -/

/-- Four NUMA nodes of one socket each, three cores a socket and two threads a core; a core's
id is its lowest CPU. -/
def fourNUMANodes : CPUTopology where
  numCPUs := 24
  numCores := 12
  numSockets := 4
  numNUMANodes := 4
  cpuDetails := ⟨(Finset.range 24).image Nat.cast, fun cpu => ⟨cpu / 6, cpu / 6, cpu / 2 * 2⟩⟩

theorem fourNUMANodes_wellFormed : fourNUMANodes.WellFormed where
  numSockets_eq := by decide
  numNUMANodes_eq := by decide
  coreSize := by decide
  socketSize := by decide
  coreInSocket := by decide
  coreInNUMANode := by decide
  nested := by decide

/-- One thread of NUMA nodes 0 and 1 is taken, one core of NUMA node 2 and two of NUMA node 3. -/
def unevenlyAvailable : Finset ℤ := {1, 2, 3, 4, 5, 7, 8, 9, 10, 11, 14, 15, 16, 17, 22, 23}

/- Twelve CPUs in whole cores go two cores each to the three NUMA nodes with the most. -/
example : (takeByTopologyNUMADistributed fourNUMANodes unevenlyAvailable 12 2).bind Except.toOption =
    some {2, 3, 4, 5, 8, 9, 10, 11, 14, 15, 16, 17} := by
  decide +kernel

/-- Fourteen CPUs in whole cores: no three NUMA nodes hold seven free cores, so all four get an
even share of two and a remainder of six is left. NUMA nodes 0 and 1 keep six CPUs between them,
enough by count, but three each: the simulated loop takes one core from each and then finds no
room for the last two CPUs, forever. -/
theorem distributed_remainder_loop_never_ends :
    fourNUMANodes.WellFormed ∧ fourNUMANodes.cpusPerCore = 2 ∧ (14 : ℤ) ≤ unevenlyAvailable.card ∧
      takeByTopologyNUMADistributed fourNUMANodes unevenlyAvailable 14 fourNUMANodes.cpusPerCore = none :=
  ⟨fourNUMANodes_wellFormed, by decide, by decide, by decide +kernel⟩

end Kubernetes.Kubelet.CpuManager
