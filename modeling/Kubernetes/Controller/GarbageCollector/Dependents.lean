import Kubernetes.Controller.GarbageCollector.GraphBuilder

/-! The two directions of the dependency graph as relations between UIDs: an owner's node
lists a dependent, and a dependent's node refers to an owner. Each update of the graph
(write, delete, adding a dependent to owners, removing it) is described once by what it does
to these relations, to the observed nodes and to the nodes stored; the invariants of the
graph are proved from these descriptions only. -/

set_option autoImplicit false

namespace Kubernetes.Controller.GarbageCollector.GraphBuilder

variable (gb : GraphBuilder)

/-- The node stored under an owner UID lists a dependent UID. -/
def HasDependent (owner dependent : String) : Prop :=
  ∃ n, gb.uidToNode owner = some n ∧ dependent ∈ n.dependents

/-- The node stored under a dependent UID has an owner reference to a UID. -/
def Refers (dependent owner : String) : Prop :=
  ∃ n, gb.uidToNode dependent = some n ∧ owner ∈ n.owners.map (·.uid)

/-- A node stored under the UID that an informer event has observed. -/
def Observed (uid : String) : Prop :=
  ∃ n, gb.uidToNode uid = some n ∧ n.virtual = false

variable {gb}

theorem hasDependent_of_uidToNode {owner : String} {n : Node} (present : gb.uidToNode owner = some n)
    (dependent : String) : gb.HasDependent owner dependent ↔ dependent ∈ n.dependents := by
  simp [HasDependent, present]

theorem refers_of_uidToNode {dependent : String} {n : Node} (present : gb.uidToNode dependent = some n)
    (owner : String) : gb.Refers dependent owner ↔ owner ∈ n.owners.map (·.uid) := by
  simp [Refers, present]

theorem observed_of_uidToNode {uid : String} {n : Node} (present : gb.uidToNode uid = some n) :
    gb.Observed uid ↔ n.virtual = false := by
  simp [Observed, present]

/-! ## Write and delete -/

section WriteDelete

variable (n : Node) (key owner dependent uid : String)

theorem hasDependent_write :
    (gb.write n).HasDependent owner dependent ↔
      if owner = n.identity.uid then dependent ∈ n.dependents else gb.HasDependent owner dependent := by
  by_cases same : owner = n.identity.uid <;> simp [HasDependent, same]

theorem refers_write :
    (gb.write n).Refers dependent owner ↔
      if dependent = n.identity.uid then owner ∈ n.owners.map (·.uid) else gb.Refers dependent owner := by
  by_cases same : dependent = n.identity.uid <;> simp [Refers, same]

theorem observed_write :
    (gb.write n).Observed uid ↔ if uid = n.identity.uid then n.virtual = false else gb.Observed uid := by
  by_cases same : uid = n.identity.uid <;> simp [Observed, same]

theorem hasDependent_write_same {n m : Node} (present : gb.uidToNode m.identity.uid = some n)
    (sameDependents : m.dependents = n.dependents) :
    (gb.write m).HasDependent owner dependent ↔ gb.HasDependent owner dependent := by
  rw [hasDependent_write]
  split
  next same => rw [same, hasDependent_of_uidToNode present, sameDependents]
  next => rfl

theorem refers_write_same {n m : Node} (present : gb.uidToNode m.identity.uid = some n)
    (sameOwners : m.owners = n.owners) :
    (gb.write m).Refers dependent owner ↔ gb.Refers dependent owner := by
  rw [refers_write]
  split
  next same => rw [same, refers_of_uidToNode present, sameOwners]
  next => rfl

theorem observed_write_same {n m : Node} (present : gb.uidToNode m.identity.uid = some n)
    (sameVirtual : m.virtual = n.virtual) : (gb.write m).Observed uid ↔ gb.Observed uid := by
  rw [observed_write]
  split
  next same => rw [same, observed_of_uidToNode present, sameVirtual]
  next => rfl

theorem hasDependent_delete : (gb.delete key).HasDependent owner dependent ↔ owner ≠ key ∧ gb.HasDependent owner dependent := by
  by_cases same : owner = key <;> simp [HasDependent, same]

theorem refers_delete :
    (gb.delete key).Refers dependent owner ↔ dependent ≠ key ∧ gb.Refers dependent owner := by
  by_cases same : dependent = key <;> simp [Refers, same]

theorem observed_delete : (gb.delete key).Observed uid ↔ uid ≠ key ∧ gb.Observed uid := by
  by_cases same : uid = key <;> simp [Observed, same]

end WriteDelete

/-! ## Adding a dependent to its owners -/

section AddDependent

variable (n : Node) (owner : OwnerReference) (key dependent uid : String)

theorem hasDependent_addDependentToOwner :
    (addDependentToOwner n gb owner).HasDependent key dependent ↔
      gb.HasDependent key dependent ∨ (key = owner.uid ∧ dependent = n.identity.uid) := by
  by_cases same : key = owner.uid
  · subst same
    cases present : gb.uidToNode owner.uid <;>
      simp [HasDependent, addDependentToOwner_uidToNode, present, or_comm]
  · simp [HasDependent, addDependentToOwner_uidToNode, same]

theorem refers_addDependentToOwner :
    (addDependentToOwner n gb owner).Refers dependent key ↔ gb.Refers dependent key := by
  by_cases same : dependent = owner.uid
  · subst same
    cases present : gb.uidToNode owner.uid <;> simp [Refers, addDependentToOwner_uidToNode, present]
  · simp [Refers, addDependentToOwner_uidToNode, same]

theorem observed_addDependentToOwner :
    (addDependentToOwner n gb owner).Observed uid ↔ gb.Observed uid := by
  by_cases same : uid = owner.uid
  · subst same
    cases present : gb.uidToNode owner.uid <;> simp [Observed, addDependentToOwner_uidToNode, present]
  · simp [Observed, addDependentToOwner_uidToNode, same]

theorem hasDependent_addDependentToOwners :
    ∀ (owners : List OwnerReference) (gb : GraphBuilder),
      (gb.addDependentToOwners n owners).HasDependent key dependent ↔
        gb.HasDependent key dependent ∨ (key ∈ owners.map (·.uid) ∧ dependent = n.identity.uid)
  | [], _ => by simp [addDependentToOwners]
  | first :: rest, gb => by
    change (addDependentToOwners (addDependentToOwner n gb first) n rest).HasDependent key dependent ↔ _
    rw [hasDependent_addDependentToOwners rest, hasDependent_addDependentToOwner]
    simp only [List.map_cons, List.mem_cons]
    tauto

theorem refers_addDependentToOwners :
    ∀ (owners : List OwnerReference) (gb : GraphBuilder),
      (gb.addDependentToOwners n owners).Refers dependent key ↔ gb.Refers dependent key
  | [], _ => Iff.rfl
  | first :: rest, gb => by
    change (addDependentToOwners (addDependentToOwner n gb first) n rest).Refers dependent key ↔ _
    rw [refers_addDependentToOwners rest, refers_addDependentToOwner]

theorem observed_addDependentToOwners :
    ∀ (owners : List OwnerReference) (gb : GraphBuilder),
      (gb.addDependentToOwners n owners).Observed uid ↔ gb.Observed uid
  | [], _ => Iff.rfl
  | first :: rest, gb => by
    change (addDependentToOwners (addDependentToOwner n gb first) n rest).Observed uid ↔ _
    rw [observed_addDependentToOwners rest, observed_addDependentToOwner]

theorem addDependentToOwners_nodes (holds : String → Node → Prop)
    (added : ∀ key node dependent, holds key node → holds key (node.addDependent dependent))
    (owners : List OwnerReference) (created : ∀ owner ∈ owners, holds owner.uid (virtualNode owner n))
    (before : ∀ key node, gb.uidToNode key = some node → holds key node) :
    ∀ key node, (gb.addDependentToOwners n owners).uidToNode key = some node → holds key node := by
  apply Library.foldl_preserves _ (fun gb => ∀ key node, gb.uidToNode key = some node → holds key node)
    owners gb before
  intro owner member current stored key node present
  rw [addDependentToOwner_uidToNode] at present
  split at present
  next same =>
    subst same
    cases found : current.uidToNode owner.uid <;> simp only [found, Option.getD_none, Option.getD_some,
      Option.some.injEq] at present <;> subst present
    · exact added _ _ _ (created owner member)
    · exact added _ _ _ (stored _ _ found)
  next => exact stored key node present

end AddDependent

/-! ## Removing a dependent from its owners -/

section RemoveDependent

variable (n : Node) (key dependent uid : String)

@[simp] theorem deleteDependent_idem (node : Node) (dependent : String) :
    (node.deleteDependent dependent).deleteDependent dependent = node.deleteDependent dependent := by
  simp [Node.deleteDependent, List.filter_filter]

theorem removeDependentFromOwners_uidToNode :
    ∀ (owners : List OwnerReference) (gb : GraphBuilder),
      (gb.removeDependentFromOwners n owners).uidToNode key =
        if key ∈ owners.map (·.uid) then (gb.uidToNode key).map (·.deleteDependent n.identity.uid)
        else gb.uidToNode key
  | [], _ => by simp [removeDependentFromOwners]
  | first :: rest, gb => by
    change (removeDependentFromOwners (gb.modify first.uid (·.deleteDependent n.identity.uid)) n rest).uidToNode key = _
    rw [removeDependentFromOwners_uidToNode rest]
    by_cases same : key = first.uid
    · subst same
      by_cases later : first.uid ∈ rest.map (·.uid) <;> simp [later, Option.map_map, Function.comp_def]
    · simp [same]

theorem hasDependent_removeDependentFromOwners (owners : List OwnerReference) :
    (gb.removeDependentFromOwners n owners).HasDependent key dependent ↔
      gb.HasDependent key dependent ∧ ¬(key ∈ owners.map (·.uid) ∧ dependent = n.identity.uid) := by
  unfold HasDependent
  rw [removeDependentFromOwners_uidToNode]
  by_cases named : key ∈ owners.map (·.uid)
  · simp only [named, if_true, true_and]
    cases gb.uidToNode key <;> simp
  · simp [named]

theorem refers_removeDependentFromOwners (owners : List OwnerReference) :
    (gb.removeDependentFromOwners n owners).Refers dependent key ↔ gb.Refers dependent key := by
  unfold Refers
  rw [removeDependentFromOwners_uidToNode]
  split <;> cases gb.uidToNode dependent <;> simp

theorem observed_removeDependentFromOwners (owners : List OwnerReference) :
    (gb.removeDependentFromOwners n owners).Observed uid ↔ gb.Observed uid := by
  unfold Observed
  rw [removeDependentFromOwners_uidToNode]
  split <;> cases gb.uidToNode uid <;> simp

theorem removeDependentFromOwners_nodes (holds : String → Node → Prop)
    (removed : ∀ key node dependent, holds key node → holds key (node.deleteDependent dependent))
    (owners : List OwnerReference) (before : ∀ key node, gb.uidToNode key = some node → holds key node) :
    ∀ key node, (gb.removeDependentFromOwners n owners).uidToNode key = some node → holds key node := by
  intro key node present
  rw [removeDependentFromOwners_uidToNode] at present
  split at present
  · obtain ⟨stored, found, rfl⟩ := Option.map_eq_some_iff.mp present
    exact removed _ _ _ (before _ _ found)
  · exact before _ _ present

end RemoveDependent

end Kubernetes.Controller.GarbageCollector.GraphBuilder
