import Mathlib
import Kubernetes.Kubelet.CpuManager.PolicyStatic
import Kubernetes.Library.Outcome

/-! Exclusive CPUs stay exclusive under the static policy.

`validateState` checks that the reserved CPUs are shared, that no assignment overlaps the
shared set and that the two together are the topology's CPUs. What keeps these conditions
over `Allocate` and `RemoveContainer` is one more fact it does not check: assignments of
different pods share no CPU. A container takes its CPUs from the shared set and from the
CPUs its own pod may reuse, and a removed container gives back only what its siblings do
not use; both are safe exactly when no other pod holds those CPUs. -/

set_option autoImplicit false
set_option linter.unusedSectionVars false

namespace Kubernetes.Kubelet.CpuManager

open Kubernetes.Library

variable {ρ κ : Type} [Fintype ρ] [DecidableEq ρ] [Fintype κ] [DecidableEq κ]

namespace CPUState

theorem mem_assignedTo {s : CPUState ρ κ} {podUID : ρ} {cpu : ℤ} :
    cpu ∈ s.assignedTo podUID ↔ ∃ name cset, s.assignments podUID name = some cset ∧ cpu ∈ cset := by
  simp only [assignedTo, Finset.mem_biUnion, Finset.mem_univ, true_and]
  constructor
  · rintro ⟨name, member⟩
    cases assigned : s.assignments podUID name with
    | none => simp [assigned] at member
    | some cset => exact ⟨name, cset, assigned, by simpa [assigned] using member⟩
  · rintro ⟨name, cset, assigned, member⟩
    exact ⟨name, by simpa [assigned] using member⟩

theorem mem_assigned {s : CPUState ρ κ} {cpu : ℤ} :
    cpu ∈ s.assigned ↔ ∃ podUID name cset, s.assignments podUID name = some cset ∧ cpu ∈ cset := by
  simp [assigned, mem_assignedTo]

theorem subset_assignedTo {s : CPUState ρ κ} {podUID : ρ} {name : κ} {cset : Finset ℤ}
    (assigned : s.assignments podUID name = some cset) : cset ⊆ s.assignedTo podUID :=
  fun _ member => mem_assignedTo.mpr ⟨name, cset, assigned, member⟩

theorem assignedTo_subset_assigned (s : CPUState ρ κ) (podUID : ρ) : s.assignedTo podUID ⊆ s.assigned :=
  fun cpu member => by
    obtain ⟨name, cset, found, inSet⟩ := mem_assignedTo.mp member
    exact mem_assigned.mpr ⟨podUID, name, cset, found, inSet⟩

@[simp] theorem setCPUSet_assignments (s : CPUState ρ κ) (podUID : ρ) (containerName : κ)
    (cset : Finset ℤ) (other : ρ) (name : κ) :
    (s.setCPUSet podUID containerName cset).assignments other name =
      if other = podUID ∧ name = containerName then some cset else s.assignments other name := by
  by_cases samePod : other = podUID
  · subst samePod
    by_cases sameName : name = containerName
    · subst sameName
      simp [setCPUSet]
    · simp [setCPUSet, sameName]
  · simp [setCPUSet, samePod]

@[simp] theorem setCPUSet_defaultCPUSet (s : CPUState ρ κ) (podUID : ρ) (containerName : κ) (cset : Finset ℤ) :
    (s.setCPUSet podUID containerName cset).defaultCPUSet = s.defaultCPUSet := rfl

@[simp] theorem delete_defaultCPUSet (s : CPUState ρ κ) (podUID : ρ) (containerName : κ) :
    (s.delete podUID containerName).defaultCPUSet = s.defaultCPUSet := rfl

@[simp] theorem delete_assignments (s : CPUState ρ κ) (podUID : ρ) (containerName : κ) (other : ρ) (name : κ) :
    (s.delete podUID containerName).assignments other name =
      if other = podUID ∧ name = containerName then none else s.assignments other name := by
  by_cases samePod : other = podUID
  · subst samePod
    by_cases sameName : name = containerName
    · subst sameName
      simp [delete]
    · simp [delete, sameName]
  · simp [delete, samePod]

end CPUState

theorem mem_getAssignedCPUsOfSiblings {s : CPUState ρ κ} {podUID : ρ} {containerName : κ} {cpu : ℤ} :
    cpu ∈ getAssignedCPUsOfSiblings s podUID containerName ↔
      ∃ name cset, name ≠ containerName ∧ s.assignments podUID name = some cset ∧ cpu ∈ cset := by
  simp only [getAssignedCPUsOfSiblings, Finset.mem_biUnion, Finset.mem_univ, true_and]
  constructor
  · rintro ⟨name, member⟩
    by_cases same : containerName = name
    · simp [same] at member
    · cases assigned : s.assignments podUID name with
      | none => simp [same, assigned] at member
      | some cset => exact ⟨name, cset, Ne.symm same, assigned, by simpa [same, assigned] using member⟩
  · rintro ⟨name, cset, other, assigned, member⟩
    exact ⟨name, by simpa [Ne.symm other, assigned] using member⟩

/-- Assignments of different pods share no CPU. -/
def PodsDisjoint (s : CPUState ρ κ) : Prop :=
  ∀ podUID podUID' name name' cset cset', podUID ≠ podUID' → s.assignments podUID name = some cset →
    s.assignments podUID' name' = some cset' → Disjoint cset cset'

variable (policy : StaticPolicy)

/-- What holds of every state the policy reaches: `validateState`'s conditions, no CPU shared
between pods, and the CPUs a pod may reuse are not reserved and are shared or its own. -/
structure Exclusive (m : Manager ρ κ) : Prop where
  valid : Valid policy m.state
  pods : PodsDisjoint m.state
  reusable : ∀ podUID cset, m.cpusToReuse podUID = some cset →
    Disjoint cset policy.reserved ∧ cset ⊆ m.state.defaultCPUSet ∪ m.state.assignedTo podUID

variable {policy}

theorem Valid.disjoint_reserved {s : CPUState ρ κ} (valid : Valid policy s) {podUID : ρ} {name : κ}
    {cset : Finset ℤ} (assigned : s.assignments podUID name = some cset) : Disjoint cset policy.reserved :=
  ((valid.disjoint podUID name cset assigned).mono_left valid.reserved).symm

/-! ## What one call does -/

section Calls

theorem takeByTopology_subset {topology : CPUTopology} (uniform : topology.Uniform) (options : StaticPolicyOptions)
    {cpus result : Finset ℤ} {numCPUs : ℤ}
    (taken : (takeByTopology topology options cpus numCPUs).run = some (.ok result)) : result ⊆ cpus := by
  unfold takeByTopology at taken
  split at taken
  · exact takeByTopologyNUMADistributed_subset uniform taken
  · exact takeByTopologyNUMAPacked_subset uniform (Option.some.inj taken)

theorem foldl_aligned_subset (allocatableCPUs : Finset ℤ) (cpusInNUMANodes : List ℤ → Finset ℤ) (nodes : List ℤ) :
    ∀ aligned : Finset ℤ, nodes.foldl (fun aligned node => aligned ∪ (allocatableCPUs ∩ cpusInNUMANodes [node]))
      aligned ⊆ aligned ∪ allocatableCPUs := by
  induction nodes with
  | nil => intro aligned; exact Finset.subset_union_left
  | cons node rest ih =>
    intro aligned
    refine (ih _).trans ?_
    intro cpu member
    simp only [Finset.mem_union, Finset.mem_inter] at member ⊢
    tauto

theorem allocateCPUs_eq_ok (uniform : policy.topology.Uniform) {s next : CPUState ρ κ} {numCPUs : ℕ}
    {numaAffinity : Option (List ℤ)} {reusableCPUs cset : Finset ℤ}
    (allocated : (allocateCPUs policy s numCPUs numaAffinity reusableCPUs).run = some (.ok (cset, next))) :
    cset ⊆ getAllocatableCPUs policy s ∪ reusableCPUs ∧
      next = { s with defaultCPUSet := s.defaultCPUSet \ cset } := by
  unfold allocateCPUs at allocated
  obtain ⟨aligned, alignedOk, finished⟩ := exceptT_bind_eq_some_ok.mp allocated
  obtain ⟨remaining, remainingOk, finished⟩ := exceptT_bind_eq_some_ok.mp finished
  simp only [ExceptT.run_pure] at finished
  obtain ⟨rfl, rfl⟩ := finished
  -- whatever the aligned CPUs are, the rest is taken from the allocatable CPUs left
  have alignedSub : aligned ⊆ getAllocatableCPUs policy s ∪ reusableCPUs := by
    cases numaAffinity with
    | none =>
      simp only [ExceptT.run_pure, Option.pure_def, Option.some.injEq, Except.ok.injEq] at alignedOk
      rw [← alignedOk]
      exact Finset.empty_subset _
    | some nodes =>
      refine (takeByTopology_subset uniform _ alignedOk).trans ?_
      simpa using foldl_aligned_subset (getAllocatableCPUs policy s ∪ reusableCPUs)
        policy.topology.cpuDetails.cpusInNUMANodes nodes ∅
  exact ⟨Finset.union_subset alignedSub ((takeByTopology_subset uniform _ remainingOk).trans Finset.sdiff_subset), rfl⟩

end Calls

namespace CPUState

theorem assignedTo_setCPUSet {s : CPUState ρ κ} {podUID : ρ} {containerName : κ} (cset : Finset ℤ)
    (absent : s.assignments podUID containerName = none) (other : ρ) :
    (s.setCPUSet podUID containerName cset).assignedTo other =
      s.assignedTo other ∪ if other = podUID then cset else ∅ := by
  ext cpu
  simp only [mem_assignedTo, setCPUSet_assignments, Finset.mem_union]
  constructor
  · rintro ⟨name, found, assigned, member⟩
    split at assigned
    · rename_i same
      obtain ⟨rfl, rfl⟩ := same
      cases assigned
      simp [member]
    · exact .inl ⟨name, found, assigned, member⟩
  · rintro (⟨name, found, assigned, member⟩ | member)
    · refine ⟨name, found, ?_, member⟩
      have different : ¬(other = podUID ∧ name = containerName) := by
        rintro ⟨rfl, rfl⟩
        simp [absent] at assigned
      simp [different, assigned]
    · split at member
      · rename_i same
        exact ⟨containerName, cset, by simp [same], member⟩
      · simp at member

theorem assigned_setCPUSet {s : CPUState ρ κ} {podUID : ρ} {containerName : κ} (cset : Finset ℤ)
    (absent : s.assignments podUID containerName = none) :
    (s.setCPUSet podUID containerName cset).assigned = s.assigned ∪ cset := by
  ext cpu
  simp only [assigned, Finset.mem_biUnion, Finset.mem_univ, true_and, assignedTo_setCPUSet cset absent,
    Finset.mem_union]
  constructor
  · rintro ⟨other, member | member⟩
    · exact .inl ⟨other, member⟩
    · split at member
      · exact .inr member
      · simp at member
  · rintro (⟨other, member⟩ | member)
    · exact ⟨other, .inl member⟩
    · exact ⟨podUID, .inr (by simpa using member)⟩

theorem mem_assignedTo_delete {s : CPUState ρ κ} {podUID : ρ} {containerName : κ} {other : ρ} {cpu : ℤ} :
    cpu ∈ (s.delete podUID containerName).assignedTo other ↔
      ∃ name cset, ¬(other = podUID ∧ name = containerName) ∧ s.assignments other name = some cset ∧
        cpu ∈ cset := by
  simp only [mem_assignedTo, delete_assignments]
  constructor
  · rintro ⟨name, cset, found, member⟩
    split at found
    · cases found
    · rename_i kept
      exact ⟨name, cset, kept, found, member⟩
  · rintro ⟨name, cset, kept, found, member⟩
    exact ⟨name, cset, by simp [kept, found], member⟩

end CPUState

theorem released_or_assigned {s : CPUState ρ κ} {podUID : ρ} {containerName : κ} {toRelease : Finset ℤ}
    (found : s.assignments podUID containerName = some toRelease) {other : ρ} {name : κ} {cset : Finset ℤ}
    (assigned : s.assignments other name = some cset) {cpu : ℤ} (member : cpu ∈ cset) :
    cpu ∈ toRelease \ getAssignedCPUsOfSiblings s podUID containerName ∨
      cpu ∈ (s.delete podUID containerName).assignedTo other := by
  by_cases removed : other = podUID ∧ name = containerName
  · obtain ⟨rfl, rfl⟩ := removed
    rw [found, Option.some.injEq] at assigned
    subst assigned
    by_cases inUse : cpu ∈ getAssignedCPUsOfSiblings s other name
    · -- a sibling still uses it
      obtain ⟨sibling, siblingSet, different, siblingFound, inSibling⟩ :=
        mem_getAssignedCPUsOfSiblings.mp inUse
      exact .inr (CPUState.mem_assignedTo_delete.mpr
        ⟨sibling, siblingSet, fun same => different same.2, siblingFound, inSibling⟩)
    · exact .inl (Finset.mem_sdiff.mpr ⟨member, inUse⟩)
  · exact .inr (CPUState.mem_assignedTo_delete.mpr ⟨name, cset, removed, assigned, member⟩)

theorem updateCPUsToReuse_eq_some {cpusToReuse : ρ → Option (Finset ℤ)} {podUID : ρ} {initContainers : List κ}
    {containerName : κ} {cset : Finset ℤ} {other : ρ} {reusable : Finset ℤ}
    (found : updateCPUsToReuse cpusToReuse podUID initContainers containerName cset other = some reusable) :
    other = podUID ∧ reusable ⊆ (cpusToReuse podUID).getD ∅ ∪ cset := by
  unfold updateCPUsToReuse at found
  by_cases same : other = podUID
  · subst same
    refine ⟨rfl, ?_⟩
    split at found
    · simp only [Function.update_self, Option.some.injEq, if_true] at found
      exact found ▸ Finset.Subset.refl _
    · simp only [Function.update_self, Option.some.injEq, if_true] at found
      exact found ▸ Finset.sdiff_subset.trans Finset.subset_union_left
  · split at found <;> simp [same] at found

/-! ## Each call keeps the CPUs exclusive -/

section Preservation

variable {m : Manager ρ κ}

theorem Exclusive.reusableOf (exclusive : Exclusive policy m) (podUID : ρ) :
    Disjoint ((m.cpusToReuse podUID).getD ∅) policy.reserved ∧
      (m.cpusToReuse podUID).getD ∅ ⊆ m.state.defaultCPUSet ∪ m.state.assignedTo podUID := by
  cases found : m.cpusToReuse podUID with
  | none => exact ⟨Finset.disjoint_empty_left _, Finset.empty_subset _⟩
  | some reusable => exact exclusive.reusable podUID reusable found

theorem Exclusive.disjoint_owned (exclusive : Exclusive policy m) {podUID other : ρ} (different : other ≠ podUID)
    {name : κ} {cset : Finset ℤ} (assigned : m.state.assignments other name = some cset) :
    Disjoint (m.state.defaultCPUSet ∪ m.state.assignedTo podUID) cset := by
  refine Finset.disjoint_union_left.mpr ⟨exclusive.valid.disjoint other name cset assigned, ?_⟩
  refine Finset.disjoint_left.mpr fun cpu owned inOther => ?_
  obtain ⟨ownName, ownSet, ownFound, inOwn⟩ := CPUState.mem_assignedTo.mp owned
  exact Finset.disjoint_left.mp (exclusive.pods podUID other ownName name ownSet cset (Ne.symm different)
    ownFound assigned) inOwn inOther

theorem Exclusive.assign (exclusive : Exclusive policy m) {podUID : ρ} {containerName : κ} {cset : Finset ℤ}
    (absent : m.state.assignments podUID containerName = none)
    (taken : cset ⊆ getAllocatableCPUs policy m.state ∪ (m.cpusToReuse podUID).getD ∅)
    (initContainers : List κ) :
    Exclusive policy
      ⟨({ m.state with defaultCPUSet := m.state.defaultCPUSet \ cset }).setCPUSet podUID containerName cset,
        updateCPUsToReuse m.cpusToReuse podUID initContainers containerName cset⟩ := by
  obtain ⟨reuseUnreserved, reuseOwned⟩ := exclusive.reusableOf podUID
  have valid := exclusive.valid
  -- the CPUs taken are shared or the pod's own, and none is reserved
  have owned : cset ⊆ m.state.defaultCPUSet ∪ m.state.assignedTo podUID :=
    taken.trans (Finset.union_subset (Finset.sdiff_subset.trans Finset.subset_union_left) reuseOwned)
  have unreserved : Disjoint cset policy.reserved := by
    refine Finset.disjoint_left.mpr fun cpu member reserved => ?_
    rcases Finset.mem_union.mp (taken member) with allocatable | reusable
    · exact (Finset.mem_sdiff.mp allocatable).2 reserved
    · exact Finset.disjoint_left.mp reuseUnreserved reusable reserved
  have absent' : ({ m.state with defaultCPUSet := m.state.defaultCPUSet \ cset } : CPUState ρ κ).assignments
      podUID containerName = none := absent
  refine ⟨⟨?_, ?_, ?_⟩, ?_, ?_⟩
  · intro cpu reserved
    exact Finset.mem_sdiff.mpr ⟨valid.reserved reserved, fun member => Finset.disjoint_left.mp unreserved member reserved⟩
  · intro other name assignment found
    simp only [CPUState.setCPUSet_assignments] at found
    split at found
    · cases found
      exact Finset.sdiff_disjoint
    · exact (valid.disjoint other name assignment found).mono_left Finset.sdiff_subset
  · rw [CPUState.assigned_setCPUSet cset absent', ← valid.covers]
    ext cpu
    simp only [CPUState.setCPUSet_defaultCPUSet, Finset.mem_union, Finset.mem_sdiff]
    have ownedCPU : cpu ∈ cset → cpu ∈ m.state.defaultCPUSet ∨ cpu ∈ m.state.assigned := fun member => by
      rcases Finset.mem_union.mp (owned member) with shared | own
      · exact .inl shared
      · exact .inr (CPUState.assignedTo_subset_assigned _ _ own)
    tauto
  · intro first second firstName secondName firstSet secondSet different firstFound secondFound
    simp only [CPUState.setCPUSet_assignments] at firstFound secondFound
    split at firstFound <;> split at secondFound
    · rename_i firstNew secondNew
      exact absurd (firstNew.1.trans secondNew.1.symm) different
    · rename_i firstNew _
      cases firstFound
      exact (exclusive.disjoint_owned (firstNew.1 ▸ Ne.symm different) secondFound).mono_left owned
    · rename_i _ secondNew
      cases secondFound
      exact ((exclusive.disjoint_owned (secondNew.1 ▸ different) firstFound).mono_left owned).symm
    · exact exclusive.pods first second firstName secondName firstSet secondSet different firstFound secondFound
  · intro other reusable found
    obtain ⟨rfl, within⟩ := updateCPUsToReuse_eq_some found
    refine ⟨(Finset.disjoint_union_left.mpr ⟨reuseUnreserved, unreserved⟩).mono_left within, ?_⟩
    rw [CPUState.assignedTo_setCPUSet cset absent', if_pos rfl]
    refine within.trans (Finset.union_subset ?_ ?_)
    · intro cpu member
      have := reuseOwned member
      simp only [CPUState.setCPUSet_defaultCPUSet, Finset.mem_union, Finset.mem_sdiff] at this ⊢
      tauto
    · exact Finset.subset_union_right.trans Finset.subset_union_right

theorem Exclusive.removeContainer (exclusive : Exclusive policy m) (podUID : ρ) (containerName : κ) :
    Exclusive policy { m with state := removeContainer m.state podUID containerName } := by
  unfold CpuManager.removeContainer
  split
  · rename_i toRelease found
    have valid := exclusive.valid
    refine ⟨⟨?_, ?_, ?_⟩, ?_, ?_⟩
    · exact valid.reserved.trans Finset.subset_union_left
    · intro other name cset kept
      simp only [CPUState.delete_assignments] at kept
      split at kept
      · cases kept
      · rename_i notRemoved
        refine Finset.disjoint_union_left.mpr ⟨valid.disjoint other name cset kept, ?_⟩
        by_cases samePod : other = podUID
        · -- a sibling's CPUs are in use, so none of them is given back
          subst samePod
          have sibling : name ≠ containerName := fun same => notRemoved ⟨rfl, same⟩
          refine Finset.sdiff_disjoint.mono_right fun cpu member => ?_
          exact mem_getAssignedCPUsOfSiblings.mpr ⟨name, cset, sibling, kept, member⟩
        · exact (exclusive.pods podUID other containerName name toRelease cset (Ne.symm samePod) found
            kept).mono_left Finset.sdiff_subset
    · rw [← valid.covers]
      ext cpu
      simp only [CPUState.delete_defaultCPUSet, Finset.mem_union, CPUState.mem_assigned,
        CPUState.delete_assignments]
      constructor
      · rintro ((shared | released) | ⟨other, name, cset, kept, member⟩)
        · exact .inl shared
        · exact .inr ⟨podUID, containerName, toRelease, found, (Finset.mem_sdiff.mp released).1⟩
        · split at kept
          · cases kept
          · exact .inr ⟨other, name, cset, kept, member⟩
      · rintro (shared | ⟨other, name, cset, assigned, member⟩)
        · exact .inl (.inl shared)
        · rcases released_or_assigned found assigned member with released | stillAssigned
          · exact .inl (.inr released)
          · obtain ⟨name', cset', kept, found', member'⟩ := CPUState.mem_assignedTo_delete.mp stillAssigned
            exact .inr ⟨other, name', cset', by simp [kept, found'], member'⟩
    · intro first second firstName secondName firstSet secondSet different firstFound secondFound
      simp only [CPUState.delete_assignments] at firstFound secondFound
      split at firstFound
      · cases firstFound
      · split at secondFound
        · cases secondFound
        · exact exclusive.pods first second firstName secondName firstSet secondSet different firstFound
            secondFound
    · intro other reusable found'
      obtain ⟨unreserved, owned⟩ := exclusive.reusable other reusable found'
      refine ⟨unreserved, fun cpu member => ?_⟩
      simp only [CPUState.delete_defaultCPUSet, Finset.mem_union]
      rcases Finset.mem_union.mp (owned member) with shared | own
      · exact .inl (.inl shared)
      · obtain ⟨name, cset, assigned, inSet⟩ := CPUState.mem_assignedTo.mp own
        rcases released_or_assigned found assigned inSet with released | stillAssigned
        · exact .inl (.inr released)
        · exact .inr stillAssigned
  · exact exclusive

theorem Exclusive.allocate (uniform : policy.topology.Uniform) (exclusive : Exclusive policy m)
    {next : Manager ρ κ} {podUID : ρ} {initContainers : List κ} {containerName : κ} {numCPUs : ℕ}
    {numaAffinity : Option (List ℤ)}
    (allocated : (allocate policy m podUID initContainers containerName numCPUs numaAffinity).run =
      some (.ok next)) : Exclusive policy next := by
  unfold CpuManager.allocate at allocated
  split_ifs at allocated
  · cases allocated
    exact exclusive
  · cases allocated
  · cases allocated
  split at allocated
  · -- already assigned: only the reusable CPUs change, by CPUs the pod holds
    rename_i cset present
    cases allocated
    obtain ⟨reuseUnreserved, reuseOwned⟩ := exclusive.reusableOf podUID
    refine ⟨exclusive.valid, exclusive.pods, fun other reusable found => ?_⟩
    obtain ⟨rfl, within⟩ := updateCPUsToReuse_eq_some found
    refine ⟨(Finset.disjoint_union_left.mpr
      ⟨reuseUnreserved, exclusive.valid.disjoint_reserved present⟩).mono_left within, ?_⟩
    exact within.trans (Finset.union_subset reuseOwned
      ((CPUState.subset_assignedTo present).trans Finset.subset_union_right))
  · rename_i absent
    obtain ⟨⟨cset, s⟩, taken, finished⟩ := exceptT_bind_eq_some_ok.mp allocated
    simp only [ExceptT.run_pure] at finished
    cases finished
    obtain ⟨chosen, rfl⟩ := allocateCPUs_eq_ok uniform (exceptT_adapt_eq_some_ok.mp taken)
    exact exclusive.assign absent chosen initContainers

theorem Exclusive.step (uniform : policy.topology.Uniform) (exclusive : Exclusive policy m) {call : Call ρ κ}
    {next : Manager ρ κ} (stepped : m.step policy call = some next) : Exclusive policy next := by
  cases call with
  | allocate podUID initContainers containerName numCPUs numaAffinity =>
    obtain ⟨outcome, allocated, rfl⟩ := Option.map_eq_some_iff.mp stepped
    cases outcome with
    | ok next => exact exclusive.allocate uniform allocated
    | error _ => exact exclusive
  | removeContainer podUID containerName =>
    cases stepped
    exact exclusive.removeContainer podUID containerName

end Preservation

/-! ## Every reachable state keeps the CPUs exclusive -/

theorem validateState_eq_ok (reservedCPUs : policy.reserved ⊆ policy.topology.cpuDetails.cpus)
    {s started : CPUState ρ κ} (accepted : validateState policy s = .ok started) :
    Valid policy started ∧ started.assignments = s.assignments := by
  unfold validateState at accepted
  split at accepted
  · split at accepted
    · cases accepted
    · rename_i noAssignment
      cases accepted
      have unassigned : ∀ podUID name cset, s.assignments podUID name ≠ some cset :=
        fun podUID name cset found => noAssignment ⟨podUID, name, by simp [found]⟩
      refine ⟨⟨reservedCPUs, fun podUID name cset found => absurd found (unassigned podUID name cset), ?_⟩, rfl⟩
      refine Finset.union_eq_left.mpr fun cpu member => ?_
      obtain ⟨podUID, name, cset, found, -⟩ := CPUState.mem_assigned.mp member
      exact absurd found (unassigned podUID name cset)
  · rename_i nonEmpty
    split at accepted
    · cases accepted
    · rename_i reservedShared
      split at accepted
      · cases accepted
      · rename_i noOverlap
        split at accepted
        · cases accepted
        · rename_i covers
          cases accepted
          refine ⟨⟨Finset.inter_eq_left.mp (not_not.mp reservedShared), fun podUID name cset found => ?_,
            not_not.mp covers⟩, rfl⟩
          rw [Finset.disjoint_iff_inter_eq_empty]
          by_contra overlapping
          exact noOverlap ⟨podUID, name, by simpa [found] using Finset.nonempty_iff_ne_empty.mpr overlapping⟩

theorem exclusive_of_started (reservedCPUs : policy.reserved ⊆ policy.topology.cpuDetails.cpus) {m : Manager ρ κ}
    (started : Started policy m) (disjoint : PodsDisjoint m.state) : Exclusive policy m := by
  obtain ⟨⟨s, accepted⟩, noReuse⟩ := started
  refine ⟨(validateState_eq_ok reservedCPUs accepted).1, disjoint, fun podUID cset found => ?_⟩
  rw [noReuse podUID] at found
  cases found

theorem exclusive_invariant (uniform : policy.topology.Uniform)
    (reservedCPUs : policy.reserved ⊆ policy.topology.cpuDetails.cpus) :
    (system policy fun m : Manager ρ κ => Started policy m ∧ PodsDisjoint m.state).Invariant (Exclusive policy) :=
  System.Inductive.invariant
    ⟨fun _ started => exclusive_of_started reservedCPUs started.1 started.2,
      fun _ _ _ exclusive stepped => exclusive.step uniform stepped⟩

end Kubernetes.Kubelet.CpuManager
