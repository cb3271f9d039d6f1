import Mathlib.Data.List.Dedup
import Mathlib.Logic.Function.Basic
import Kubernetes.Library.Transition

/-! The garbage collector's dependency graph (graph.go, graph_builder.go): the nodes keyed by
UID, the owner references of each node and the dependents each owner collects, and
processGraphChanges, which applies one informer event (or one virtual delete event that the
collector sends itself when an owner is absent) to the graph.

The queues the builder fills (attemptToDelete, attemptToOrphan, absentOwnerCache) and the
deletion flags are not modelled: nothing here reads them back. A node's dependents are kept as
the UIDs of the dependent nodes; the source keeps node pointers, and a node is replaced by a
copy only while it is virtual, when no node lists it as a dependent. -/

set_option autoImplicit false

namespace Kubernetes.Controller.GarbageCollector

structure OwnerReference where
  apiVersion : String
  kind : String
  name : String
  uid : String
  controller : Option Bool
  blockOwnerDeletion : Option Bool
  deriving DecidableEq, Inhabited, Repr

/-- objectReference: the coordinates of an owner reference and a namespace. -/
structure ObjectReference extends OwnerReference where
  namespace_ : String
  deriving DecidableEq, Repr

structure Node where
  identity : ObjectReference
  /-- The UIDs of the nodes that name this node as an owner. -/
  dependents : List String
  virtual : Bool
  owners : List OwnerReference
  deriving DecidableEq, Repr

/-- What processGraphChanges reads of an event's object: its group-version and kind (from
the event) and the object's own metadata. -/
structure Object where
  apiVersion : String
  kind : String
  name : String
  uid : String
  namespace_ : String
  ownerReferences : List OwnerReference
  deriving DecidableEq, Repr

inductive EventType
  | addEvent
  | updateEvent
  | deleteEvent
  deriving DecidableEq, Repr

structure Event where
  virtual : Bool
  eventType : EventType
  obj : Object
  deriving DecidableEq, Repr

structure GraphBuilder where
  uidToNode : String → Option Node

def ownerReferenceCoordinates (ref : OwnerReference) : OwnerReference :=
  { uid := ref.uid, name := ref.name, kind := ref.kind, apiVersion := ref.apiVersion,
    controller := none, blockOwnerDeletion := none }

def ownerReferenceMatchesCoordinates (a b : OwnerReference) : Bool :=
  a.uid = b.uid && a.name = b.name && a.kind = b.kind && a.apiVersion = b.apiVersion

def identityFromEvent (event : Event) : ObjectReference :=
  { apiVersion := event.obj.apiVersion, kind := event.obj.kind, uid := event.obj.uid,
    name := event.obj.name, controller := none, blockOwnerDeletion := none,
    namespace_ := event.obj.namespace_ }

@[simp] theorem identityFromEvent_uid (event : Event) : (identityFromEvent event).uid = event.obj.uid :=
  rfl

namespace Node

@[simps]
def markObserved (n : Node) : Node := { n with virtual := false }

@[simps]
def addDependent (n : Node) (dependent : String) : Node :=
  { n with dependents := n.dependents.insert dependent }

@[simps]
def deleteDependent (n : Node) (dependent : String) : Node :=
  { n with dependents := n.dependents.filter (· ≠ dependent) }

end Node

namespace GraphBuilder

/-- concurrentUIDToNode.Write: a node is stored under the UID of its identity. -/
def write (gb : GraphBuilder) (n : Node) : GraphBuilder :=
  ⟨Function.update gb.uidToNode n.identity.uid (some n)⟩

def delete (gb : GraphBuilder) (uid : String) : GraphBuilder :=
  ⟨Function.update gb.uidToNode uid none⟩

/-- Apply a change to the node stored under a UID, if there is one. -/
def modify (gb : GraphBuilder) (uid : String) (change : Node → Node) : GraphBuilder :=
  ⟨Function.update gb.uidToNode uid ((gb.uidToNode uid).map change)⟩

@[simp] theorem write_uidToNode (gb : GraphBuilder) (n : Node) (uid : String) :
    (gb.write n).uidToNode uid = if uid = n.identity.uid then some n else gb.uidToNode uid :=
  Function.update_apply ..

@[simp] theorem delete_uidToNode (gb : GraphBuilder) (key uid : String) :
    (gb.delete key).uidToNode uid = if uid = key then none else gb.uidToNode uid :=
  Function.update_apply ..

@[simp] theorem modify_uidToNode (gb : GraphBuilder) (key : String) (change : Node → Node) (uid : String) :
    (gb.modify key change).uidToNode uid =
      if uid = key then (gb.uidToNode uid).map change else gb.uidToNode uid := by
  by_cases same : uid = key
  · subst same
    simp [modify]
  · simp [modify, same]

theorem write_write (gb : GraphBuilder) {n n' : Node} (sameUID : n'.identity.uid = n.identity.uid) :
    (gb.write n).write n' = gb.write n' := by
  simp only [write, sameUID, Function.update_idem]

def getDependents (gb : GraphBuilder) (n : Node) : List Node :=
  n.dependents.filterMap gb.uidToNode

/-- The virtual node addDependentToOwners creates for an owner not in the graph yet, with the
owner reference's coordinates and the dependent's namespace. -/
def virtualNode (owner : OwnerReference) (n : Node) : Node :=
  { identity := { ownerReferenceCoordinates owner with namespace_ := n.identity.namespace_ },
    dependents := [], virtual := true, owners := [] }

/-- One owner of addDependentToOwners. -/
def addDependentToOwner (n : Node) (gb : GraphBuilder) (owner : OwnerReference) : GraphBuilder :=
  let gb := match gb.uidToNode owner.uid with
    | some _ => gb
    | none => gb.write (virtualNode owner n)
  gb.modify owner.uid (·.addDependent n.identity.uid)

@[simp] theorem virtualNode_uid (owner : OwnerReference) (n : Node) :
    (virtualNode owner n).identity.uid = owner.uid :=
  rfl

@[simp] theorem virtualNode_dependents (owner : OwnerReference) (n : Node) :
    (virtualNode owner n).dependents = [] :=
  rfl

@[simp] theorem virtualNode_virtual (owner : OwnerReference) (n : Node) :
    (virtualNode owner n).virtual = true :=
  rfl

@[simp] theorem virtualNode_owners (owner : OwnerReference) (n : Node) :
    (virtualNode owner n).owners = [] :=
  rfl

theorem addDependentToOwner_uidToNode (n : Node) (gb : GraphBuilder) (owner : OwnerReference)
    (uid : String) :
    (addDependentToOwner n gb owner).uidToNode uid =
      if uid = owner.uid then
        some (((gb.uidToNode uid).getD (virtualNode owner n)).addDependent n.identity.uid)
      else gb.uidToNode uid := by
  unfold addDependentToOwner
  by_cases same : uid = owner.uid
  · subst same
    cases present : gb.uidToNode owner.uid <;> simp [present]
  · cases gb.uidToNode owner.uid <;> simp [same]

def addDependentToOwners (gb : GraphBuilder) (n : Node) (owners : List OwnerReference) :
    GraphBuilder :=
  owners.foldl (addDependentToOwner n) gb

def insertNode (gb : GraphBuilder) (n : Node) : GraphBuilder :=
  (gb.write n).addDependentToOwners n n.owners

def removeDependentFromOwners (gb : GraphBuilder) (n : Node) (owners : List OwnerReference) :
    GraphBuilder :=
  owners.foldl (fun gb owner => gb.modify owner.uid (·.deleteDependent n.identity.uid)) gb

def removeNode (gb : GraphBuilder) (n : Node) : GraphBuilder :=
  (gb.delete n.identity.uid).removeDependentFromOwners n n.owners

end GraphBuilder

structure OwnerRefPair where
  oldRef : OwnerReference
  newRef : OwnerReference
  deriving DecidableEq, Repr

/-- oldUIDToRef in referencesDiffs: a later reference with the same UID overwrites an
earlier one, and a missing UID reads as the zero reference. -/
def oldUIDToRef (old : List OwnerReference) (uid : String) : OwnerReference :=
  (old.reverse.find? (·.uid = uid)).getD default

/-- One new reference in referencesDiffs, with the old UIDs not yet matched, the added
references and the changed pairs so far. -/
def referencesDiffsStep (old : List OwnerReference)
    (state : List String × List OwnerReference × List OwnerRefPair) (value : OwnerReference) :
    List String × List OwnerReference × List OwnerRefPair :=
  if value.uid ∈ state.1 then
    (state.1.erase value.uid, state.2.1,
      if oldUIDToRef old value.uid ≠ value then state.2.2 ++ [⟨oldUIDToRef old value.uid, value⟩]
      else state.2.2)
  else (state.1, state.2.1 ++ [value], state.2.2)

/-- The added, removed and changed owner references, matched by UID; the removed ones are
those of the old UIDs no new reference names. -/
def referencesDiffs (old new : List OwnerReference) :
    List OwnerReference × List OwnerReference × List OwnerRefPair :=
  let final := new.foldl (referencesDiffsStep old) ((old.map (·.uid)).dedup, [], [])
  (final.2.1, final.1.map (oldUIDToRef old), final.2.2)

section ReferencesDiffs

variable (old : List OwnerReference)

theorem oldUIDToRef_spec {uid : String} (present : uid ∈ old.map (·.uid)) :
    oldUIDToRef old uid ∈ old ∧ (oldUIDToRef old uid).uid = uid := by
  obtain ⟨ref, found⟩ : ∃ ref, old.reverse.find? (·.uid = uid) = some ref := by
    apply Option.isSome_iff_exists.mp
    rw [List.find?_isSome]
    simpa using present
  have matched : ref.uid = uid := by simpa using List.find?_some found
  simp only [oldUIDToRef, found, Option.getD_some]
  exact ⟨List.mem_reverse.mp (List.mem_of_find?_eq_some found), matched⟩

theorem foldl_referencesDiffsStep_pending :
    ∀ (new : List OwnerReference) (state : List String × List OwnerReference × List OwnerRefPair),
      state.1.Nodup →
        (new.foldl (referencesDiffsStep old) state).1.Nodup ∧
          ∀ uid, uid ∈ (new.foldl (referencesDiffsStep old) state).1 ↔
            uid ∈ state.1 ∧ uid ∉ new.map (·.uid)
  | [], _, nodup => ⟨nodup, by simp⟩
  | value :: rest, state, nodup => by
    have step : (referencesDiffsStep old state value).1.Nodup ∧
        ∀ uid, uid ∈ (referencesDiffsStep old state value).1 ↔ uid ∈ state.1 ∧ uid ≠ value.uid := by
      unfold referencesDiffsStep
      split
      · exact ⟨nodup.erase _, fun uid => by rw [nodup.mem_erase_iff, and_comm]⟩
      · refine ⟨nodup, fun uid => ⟨fun member => ⟨member, ?_⟩, And.left⟩⟩
        rintro rfl
        contradiction
    obtain ⟨nodupRest, memRest⟩ := foldl_referencesDiffsStep_pending rest _ step.1
    refine ⟨nodupRest, fun uid => ?_⟩
    rw [List.foldl_cons, memRest, step.2]
    simp only [List.map_cons, List.mem_cons, not_or]
    tauto

theorem foldl_referencesDiffsStep_appends :
    ∀ (new : List OwnerReference) (state : List String × List OwnerReference × List OwnerRefPair),
      state.2.1 <+: (new.foldl (referencesDiffsStep old) state).2.1 ∧
        state.2.2 <+: (new.foldl (referencesDiffsStep old) state).2.2
  | [], _ => ⟨List.prefix_refl _, List.prefix_refl _⟩
  | value :: rest, state => by
    have step : state.2.1 <+: (referencesDiffsStep old state value).2.1 ∧
        state.2.2 <+: (referencesDiffsStep old state value).2.2 := by
      unfold referencesDiffsStep
      split
      · refine ⟨List.prefix_refl _, ?_⟩
        split
        · exact List.prefix_append _ _
        · exact List.prefix_refl _
      · exact ⟨List.prefix_append _ _, List.prefix_refl _⟩
    obtain ⟨added, changed⟩ := foldl_referencesDiffsStep_appends rest (referencesDiffsStep old state value)
    exact ⟨step.1.trans added, step.2.trans changed⟩

theorem foldl_referencesDiffsStep_added_mem :
    ∀ (new : List OwnerReference) (state : List String × List OwnerReference × List OwnerRefPair)
      (ref : OwnerReference), ref ∈ (new.foldl (referencesDiffsStep old) state).2.1 →
        ref ∈ state.2.1 ∨ ref ∈ new
  | [], _, _, member => .inl member
  | value :: rest, state, ref, member => by
    rcases foldl_referencesDiffsStep_added_mem rest _ ref member with earlier | later
    · unfold referencesDiffsStep at earlier
      split at earlier
      · exact .inl earlier
      · rcases List.mem_append.mp earlier with before | last
        · exact .inl before
        · exact .inr (by simp_all)
    · exact .inr (List.mem_cons_of_mem _ later)

theorem foldl_referencesDiffsStep_mem_added :
    ∀ (new : List OwnerReference) (state : List String × List OwnerReference × List OwnerRefPair)
      (ref : OwnerReference), ref ∈ new → ref.uid ∉ state.1 →
        ref ∈ (new.foldl (referencesDiffsStep old) state).2.1
  | value :: rest, state, ref, member, unmatched => by
    rw [List.foldl_cons]
    rcases List.mem_cons.mp member with rfl | later
    · apply (foldl_referencesDiffsStep_appends old rest _).1.subset
      simp [referencesDiffsStep, unmatched]
    · apply foldl_referencesDiffsStep_mem_added rest _ ref later
      unfold referencesDiffsStep
      split
      · exact fun pending => unmatched (List.mem_of_mem_erase pending)
      · exact unmatched

theorem foldl_referencesDiffsStep_unchanged :
    ∀ (new : List OwnerReference) (state : List String × List OwnerReference × List OwnerRefPair),
      (new.foldl (referencesDiffsStep old) state).2.1 = [] →
        (new.foldl (referencesDiffsStep old) state).2.2 = [] →
          ∀ ref ∈ new, oldUIDToRef old ref.uid = ref
  | [], _, _, _ => by simp
  | value :: rest, state, noneAdded, noneChanged => by
    rw [List.foldl_cons] at noneAdded noneChanged
    obtain ⟨added, changed⟩ := foldl_referencesDiffsStep_appends old rest (referencesDiffsStep old state value)
    rw [noneAdded, List.prefix_nil] at added
    rw [noneChanged, List.prefix_nil] at changed
    intro ref member
    rcases List.mem_cons.mp member with rfl | later
    · unfold referencesDiffsStep at added changed
      by_cases pending : ref.uid ∈ state.1
      · simp only [pending, if_true] at changed
        by_contra differs
        simp [differs] at changed
      · simp [pending] at added
    · exact foldl_referencesDiffsStep_unchanged rest _ noneAdded noneChanged ref later

theorem referencesDiffs_nil_left (new : List OwnerReference) : referencesDiffs [] new = (new, [], []) := by
  have loop : ∀ (rest added : List OwnerReference),
      rest.foldl (referencesDiffsStep []) ([], added, []) = ([], added ++ rest, []) := by
    intro rest
    induction rest with
    | nil => simp
    | cons value rest ih =>
      intro added
      simp [referencesDiffsStep, ih]
  simp [referencesDiffs, loop]

variable {old}

theorem referencesDiffs_added_mem {new : List OwnerReference} {ref : OwnerReference}
    (added : ref ∈ (referencesDiffs old new).1) : ref ∈ new := by
  simpa using foldl_referencesDiffsStep_added_mem old new _ ref added

theorem referencesDiffs_mem_added {new : List OwnerReference} {ref : OwnerReference}
    (member : ref ∈ new) (fresh : ref.uid ∉ old.map (·.uid)) : ref ∈ (referencesDiffs old new).1 :=
  foldl_referencesDiffsStep_mem_added old new _ ref member (by simpa using fresh)

theorem referencesDiffs_removed {new : List OwnerReference} {uid : String} :
    uid ∈ (referencesDiffs old new).2.1.map (·.uid) ↔ uid ∈ old.map (·.uid) ∧ uid ∉ new.map (·.uid) := by
  obtain ⟨-, pending⟩ := foldl_referencesDiffsStep_pending old new
    ((old.map (·.uid)).dedup, [], []) (List.nodup_dedup _)
  have unmatched : ∀ key ∈ (new.foldl (referencesDiffsStep old) ((old.map (·.uid)).dedup, [], [])).1,
      (oldUIDToRef old key).uid = key := fun key member =>
    (oldUIDToRef_spec old (List.mem_dedup.mp ((pending key).mp member).1)).2
  simp only [referencesDiffs]
  rw [List.map_map, List.mem_map]
  constructor
  · rintro ⟨key, member, rfl⟩
    obtain ⟨kept, unnamed⟩ := (pending key).mp member
    rw [Function.comp_apply, unmatched key member]
    exact ⟨List.mem_dedup.mp kept, unnamed⟩
  · rintro ⟨kept, unnamed⟩
    have member := (pending uid).mpr ⟨List.mem_dedup.mpr kept, unnamed⟩
    exact ⟨uid, member, unmatched uid member⟩

theorem referencesDiffs_eq_nil {new : List OwnerReference} (distinct : (old.map (·.uid)).Nodup)
    (same : referencesDiffs old new = ([], [], [])) (ref : OwnerReference) : ref ∈ old ↔ ref ∈ new := by
  have noneAdded : (referencesDiffs old new).1 = [] := by rw [same]
  have noneRemoved : (referencesDiffs old new).2.1 = [] := by rw [same]
  have noneChanged : (referencesDiffs old new).2.2 = [] := by rw [same]
  have unchanged := foldl_referencesDiffsStep_unchanged old new _ noneAdded noneChanged
  constructor
  · intro member
    have named : ref.uid ∈ new.map (·.uid) := by
      by_contra unnamed
      have removed := referencesDiffs_removed.mpr ⟨List.mem_map_of_mem member, unnamed⟩
      rw [noneRemoved] at removed
      simp at removed
    obtain ⟨other, otherMember, sameUID⟩ := List.mem_map.mp named
    have equal : oldUIDToRef old ref.uid = other := sameUID ▸ unchanged other otherMember
    have kept := (oldUIDToRef_spec old (List.mem_map_of_mem member)).1
    rw [equal] at kept
    rw [List.inj_on_of_nodup_map distinct member kept sameUID.symm]
    exact otherMember
  · intro member
    have named : ref.uid ∈ old.map (·.uid) := by
      by_contra fresh
      have added := referencesDiffs_mem_added member fresh
      rw [noneAdded] at added
      simp at added
    have kept := (oldUIDToRef_spec old named).1
    rwa [unchanged ref member] at kept

theorem referencesDiffs_named {new : List OwnerReference} {uid : String} :
    uid ∈ new.map (·.uid) ↔
      (uid ∈ old.map (·.uid) ∨ uid ∈ (referencesDiffs old new).1.map (·.uid)) ∧
        uid ∉ (referencesDiffs old new).2.1.map (·.uid) := by
  rw [referencesDiffs_removed]
  constructor
  · intro named
    refine ⟨?_, fun removed => removed.2 named⟩
    by_cases kept : uid ∈ old.map (·.uid)
    · exact .inl kept
    · obtain ⟨ref, member, rfl⟩ := List.mem_map.mp named
      exact .inr (List.mem_map_of_mem (referencesDiffs_mem_added member kept))
  · rintro ⟨kept | added, notRemoved⟩
    · by_contra unnamed
      exact notRemoved ⟨kept, unnamed⟩
    · obtain ⟨ref, member, rfl⟩ := List.mem_map.mp added
      exact List.mem_map_of_mem (referencesDiffs_added_mem member)

end ReferencesDiffs

/-- Split dependents into those with an owner reference matching the identity and those with
one for its UID that does not; a dependent can be in both. -/
def partitionDependents (dependents : List Node) (matchOwnerIdentity : ObjectReference) :
    List Node × List Node :=
  let ownerIsNamespaced := matchOwnerIdentity.namespace_ ≠ ""
  dependents.foldl (fun (matching, nonmatching) dep =>
    let (foundMatch, foundMismatch) :=
      if ownerIsNamespaced ∧ matchOwnerIdentity.namespace_ ≠ dep.identity.namespace_ then (false, true)
      else dep.owners.foldl (fun (foundMatch, foundMismatch) ownerRef =>
        if ownerRef.uid = matchOwnerIdentity.uid then
          if ownerReferenceMatchesCoordinates ownerRef matchOwnerIdentity.toOwnerReference then
            (true, foundMismatch)
          else (foundMatch, true)
        else (foundMatch, foundMismatch)) (false, false)
    (if foundMatch then matching ++ [dep] else matching,
      if foundMismatch then nonmatching ++ [dep] else nonmatching)) ([], [])

def referenceLessThan (a b : ObjectReference) : Bool :=
  if a.kind ≠ b.kind then a.kind < b.kind
  else if a.apiVersion ≠ b.apiVersion then a.apiVersion < b.apiVersion
  else if a.namespace_ ≠ b.namespace_ then a.namespace_ < b.namespace_
  else if a.name ≠ b.name then a.name < b.name
  else if a.uid ≠ b.uid then a.uid < b.uid
  else false

/-- The earlier of a reference and the current pick (referenceLessThan), the reference itself
when nothing is picked yet. -/
def earliest (ref : ObjectReference) : Option ObjectReference → ObjectReference
  | some current => if referenceLessThan ref current then ref else current
  | none => ref

/-- One owner reference of one dependent in getAlternateOwnerIdentity: the alternates seen,
the first alternate and the first that follows the verified absent identity. -/
def alternateOwnerIdentityStep (verifiedAbsentIdentity : ObjectReference) (dep : Node)
    (state : List ObjectReference × Option ObjectReference × Option ObjectReference)
    (ownerRef : OwnerReference) :
    List ObjectReference × Option ObjectReference × Option ObjectReference :=
  let absentIdentityIsClusterScoped := verifiedAbsentIdentity.namespace_ = ""
  if ownerRef.uid ≠ verifiedAbsentIdentity.uid then state
  else if ownerReferenceMatchesCoordinates ownerRef verifiedAbsentIdentity.toOwnerReference ∧
      (absentIdentityIsClusterScoped ∨ verifiedAbsentIdentity.namespace_ = dep.identity.namespace_) then
    state
  else
    let ref : ObjectReference :=
      { ownerReferenceCoordinates ownerRef with namespace_ := dep.identity.namespace_ }
    -- a cluster-scoped apiVersion/kind has no namespace in the alternate identity
    let ref := if absentIdentityIsClusterScoped ∧ ref.apiVersion = verifiedAbsentIdentity.apiVersion ∧
        ref.kind = verifiedAbsentIdentity.kind then { ref with namespace_ := "" } else ref
    if ref ∈ state.1 then state
    else
      (ref :: state.1, some (earliest ref state.2.1),
        if referenceLessThan verifiedAbsentIdentity ref then some (earliest ref state.2.2)
        else state.2.2)

def getAlternateOwnerIdentity (deps : List Node) (verifiedAbsentIdentity : ObjectReference) :
    Option ObjectReference :=
  let final := deps.foldl (fun state dep =>
    dep.owners.foldl (alternateOwnerIdentityStep verifiedAbsentIdentity dep) state)
    ([verifiedAbsentIdentity], none, none)
  match final.2.2 with
  | some firstFollowing => some firstFollowing
  | none => final.2.1

theorem earliest_cases (ref : ObjectReference) (current : Option ObjectReference) :
    earliest ref current = ref ∨ current = some (earliest ref current) := by
  cases current with
  | none => exact .inl rfl
  | some current =>
    by_cases less : referenceLessThan ref current = true
    · exact .inl (by simp [earliest, less])
    · exact .inr (by simp [earliest, less])

/-- The picks of getAlternateOwnerIdentity so far all carry the verified absent UID. -/
def PicksUID (uid : String) (state : List ObjectReference × Option ObjectReference × Option ObjectReference) :
    Prop :=
  ∀ pick, state.2.1 = some pick ∨ state.2.2 = some pick → pick.uid = uid

theorem alternateOwnerIdentityStep_picksUID (verifiedAbsentIdentity : ObjectReference) (dep : Node)
    (state : List ObjectReference × Option ObjectReference × Option ObjectReference)
    (ownerRef : OwnerReference) (picked : PicksUID verifiedAbsentIdentity.uid state) :
    PicksUID verifiedAbsentIdentity.uid (alternateOwnerIdentityStep verifiedAbsentIdentity dep state ownerRef) := by
  -- the only new picks are alternates built from a reference to the verified UID
  have candidate : ∀ ref : ObjectReference, ref.uid = ownerRef.uid → ownerRef.uid = verifiedAbsentIdentity.uid →
      PicksUID verifiedAbsentIdentity.uid (ref :: state.1, some (earliest ref state.2.1),
        if referenceLessThan verifiedAbsentIdentity ref then some (earliest ref state.2.2) else state.2.2) := by
    intro ref refUID sameUID pick chosen
    simp only at chosen
    rcases chosen with first | following
    · rcases earliest_cases ref state.2.1 with own | earlier
      · rw [← Option.some.inj first, own, refUID, sameUID]
      · exact picked pick (.inl (earlier.trans first))
    · split at following
      · rcases earliest_cases ref state.2.2 with own | earlier
        · rw [← Option.some.inj following, own, refUID, sameUID]
        · exact picked pick (.inr (earlier.trans following))
      · exact picked pick (.inr following)
  dsimp only [alternateOwnerIdentityStep]
  split
  next => exact picked
  next sameUID =>
    split
    next => exact picked
    next =>
      split <;> split
      all_goals first
        | exact picked
        | (refine candidate _ ?_ (not_not.mp sameUID); rfl)

theorem getAlternateOwnerIdentity_uid {deps : List Node} {verifiedAbsentIdentity ref : ObjectReference}
    (found : getAlternateOwnerIdentity deps verifiedAbsentIdentity = some ref) :
    ref.uid = verifiedAbsentIdentity.uid := by
  have picked := Library.foldl_preserves _ (PicksUID verifiedAbsentIdentity.uid) deps ([verifiedAbsentIdentity], none, none)
    (by simp [PicksUID])
    fun dep _ state holds => Library.foldl_preserves _ _ dep.owners state holds
      fun ownerRef _ current kept => alternateOwnerIdentityStep_picksUID _ dep current ownerRef kept
  dsimp only [getAlternateOwnerIdentity] at found
  split at found
  next following => exact picked ref (.inr (following.trans found))
  next => exact picked ref (.inl found)

/-- enqueueVirtualDeleteEvent: the delete event the collector sends itself for a node whose
object the API server does not have. -/
def virtualDeleteEvent (ref : ObjectReference) : Event :=
  { virtual := true, eventType := .deleteEvent,
    obj := { apiVersion := ref.apiVersion, kind := ref.kind, name := ref.name, uid := ref.uid,
             namespace_ := ref.namespace_, ownerReferences := [] } }

namespace GraphBuilder

/-- The start of processGraphChanges: the node stored under the event's UID, and a virtual
one marked observed when an informer event names it, under the observed identity. -/
def observeNode (gb : GraphBuilder) (event : Event) : GraphBuilder × Option Node :=
  match gb.uidToNode event.obj.uid with
  | some existingNode =>
    if !event.virtual && existingNode.virtual then
      let observedIdentity := identityFromEvent event
      -- a copy with the observed identity replaces a virtual node whose identity differs
      let existingNode :=
        if observedIdentity ≠ existingNode.identity then { existingNode with identity := observedIdentity }
        else existingNode
      let existingNode := existingNode.markObserved
      (gb.write existingNode, some existingNode)
    else (gb, some existingNode)
  | none => (gb, none)

/-- An add or update event for a node already in the graph: its owners are replaced when the
references differ, and it joins and leaves its owners' dependents by the difference. -/
def updateOwners (gb : GraphBuilder) (existingNode : Node) (owners : List OwnerReference) :
    GraphBuilder :=
  let diffs := referencesDiffs existingNode.owners owners
  if diffs.1 ≠ [] ∨ diffs.2.1 ≠ [] ∨ diffs.2.2 ≠ [] then
    let existingNode := { existingNode with owners := owners }
    ((gb.write existingNode).addDependentToOwners existingNode diffs.1).removeDependentFromOwners
      existingNode diffs.2.1
  else gb

/-- A delete event for a node in the graph. A virtual delete event keeps a virtual node that
some dependent names with other coordinates (under another of those identities when the
deleted one was its own) and keeps an observed node whose identity it does not match. -/
def processDeleteEvent (gb : GraphBuilder) (event : Event) (existingNode : Node) :
    GraphBuilder :=
  if event.virtual then
    let deletedIdentity := identityFromEvent event
    if existingNode.virtual then
      let nonmatchingDependents := (partitionDependents (gb.getDependents existingNode) deletedIdentity).2
      if nonmatchingDependents ≠ [] then
        if existingNode.identity = deletedIdentity then
          match getAlternateOwnerIdentity nonmatchingDependents deletedIdentity with
          | some replacementIdentity => gb.write { existingNode with identity := replacementIdentity }
          | none => gb
        else gb
      else gb.removeNode existingNode
    else if existingNode.identity ≠ deletedIdentity then gb
    else gb.removeNode existingNode
  else gb.removeNode existingNode

def processGraphChanges (gb : GraphBuilder) (event : Event) : GraphBuilder :=
  let observed := gb.observeNode event
  match event.eventType, observed.2 with
  | .addEvent, none | .updateEvent, none =>
    observed.1.insertNode
      { identity := identityFromEvent event, dependents := [], virtual := false,
        owners := event.obj.ownerReferences }
  | .addEvent, some existingNode | .updateEvent, some existingNode =>
    observed.1.updateOwners existingNode event.obj.ownerReferences
  | .deleteEvent, none => observed.1
  | .deleteEvent, some existingNode => observed.1.processDeleteEvent event existingNode

variable {gb : GraphBuilder} {event : Event} {n : Node}

theorem observeNode_of_absent (absent : gb.uidToNode event.obj.uid = none) :
    gb.observeNode event = (gb, none) := by
  simp [observeNode, absent]

theorem observeNode_of_present (present : gb.uidToNode event.obj.uid = some n)
    (kept : event.virtual = true ∨ n.virtual = false) : gb.observeNode event = (gb, some n) := by
  rcases kept with virtualEvent | observed
  · simp [observeNode, present, virtualEvent]
  · simp [observeNode, present, observed]

theorem observeNode_of_virtual (present : gb.uidToNode event.obj.uid = some n)
    (informed : event.virtual = false) (virtual : n.virtual = true) :
    gb.observeNode event =
      (gb.write { n with identity := identityFromEvent event, virtual := false },
        some { n with identity := identityFromEvent event, virtual := false }) := by
  have observed : (if identityFromEvent event ≠ n.identity then { n with identity := identityFromEvent event }
      else n).markObserved = { n with identity := identityFromEvent event, virtual := false } := by
    split_ifs with differs
    · rfl
    · rw [not_not.mp differs]
      rfl
  unfold observeNode
  rw [present]
  dsimp only
  rw [if_pos (by simp [informed, virtual]), observed]

theorem processGraphChanges_of_absent (absent : gb.uidToNode event.obj.uid = none) :
    gb.processGraphChanges event =
      if event.eventType = .deleteEvent then gb
      else gb.insertNode
        { identity := identityFromEvent event, dependents := [], virtual := false,
          owners := event.obj.ownerReferences } := by
  rcases event with ⟨virtual, eventType, obj⟩
  cases eventType <;> simp [processGraphChanges, observeNode_of_absent absent]

theorem processGraphChanges_of_present (present : gb.uidToNode event.obj.uid = some n)
    (kept : event.virtual = true ∨ n.virtual = false) :
    gb.processGraphChanges event =
      if event.eventType = .deleteEvent then gb.processDeleteEvent event n
      else gb.updateOwners n event.obj.ownerReferences := by
  rcases event with ⟨virtual, eventType, obj⟩
  cases eventType <;> simp [processGraphChanges, observeNode_of_present present kept]

theorem processGraphChanges_of_virtual (present : gb.uidToNode event.obj.uid = some n)
    (informed : event.virtual = false) (virtual : n.virtual = true) :
    gb.processGraphChanges event =
      let observed := { n with identity := identityFromEvent event, virtual := false }
      if event.eventType = .deleteEvent then (gb.write observed).processDeleteEvent event observed
      else (gb.write observed).updateOwners observed event.obj.ownerReferences := by
  rcases event with ⟨eventVirtual, eventType, obj⟩
  cases eventType <;> simp [processGraphChanges, observeNode_of_virtual present informed virtual]

theorem updateOwners_of_same {owners : List OwnerReference}
    (same : referencesDiffs n.owners owners = ([], [], [])) : gb.updateOwners n owners = gb := by
  simp [updateOwners, same]

theorem updateOwners_of_differs {owners : List OwnerReference}
    (differs : referencesDiffs n.owners owners ≠ ([], [], [])) :
    gb.updateOwners n owners =
      ((gb.write { n with owners := owners }).addDependentToOwners { n with owners := owners }
        (referencesDiffs n.owners owners).1).removeDependentFromOwners { n with owners := owners }
        (referencesDiffs n.owners owners).2.1 := by
  dsimp only [updateOwners]
  generalize referencesDiffs n.owners owners = diffs at differs ⊢
  obtain ⟨added, removed, changed⟩ := diffs
  rw [if_pos]
  by_contra unchanged
  simp only [not_or, not_not] at unchanged
  obtain ⟨rfl, rfl, rfl⟩ := unchanged
  exact differs rfl

theorem processDeleteEvent_of_informed (informed : event.virtual = false) :
    gb.processDeleteEvent event n = gb.removeNode n := by
  simp [processDeleteEvent, informed]

theorem processDeleteEvent_of_virtual (virtualEvent : event.virtual = true) (virtual : n.virtual = true) :
    gb.processDeleteEvent event n = gb ∨
      (∃ replacement : ObjectReference, replacement.uid = event.obj.uid ∧
        gb.processDeleteEvent event n = gb.write { n with identity := replacement }) ∨
      gb.processDeleteEvent event n = gb.removeNode n := by
  dsimp only [processDeleteEvent]
  simp only [virtualEvent, virtual, if_true]
  split
  next =>
    split
    next =>
      split
      next replacement found =>
        exact .inr (.inl ⟨replacement, (getAlternateOwnerIdentity_uid found).trans rfl, rfl⟩)
      next => exact .inl rfl
    next => exact .inl rfl
  next => exact .inr (.inr rfl)

end GraphBuilder

end Kubernetes.Controller.GarbageCollector
