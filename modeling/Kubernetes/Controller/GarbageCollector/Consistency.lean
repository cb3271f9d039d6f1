import Kubernetes.Controller.GarbageCollector.Dependents

/-! The graph builder in its environment. Objects have fixed UIDs and coordinates; each is
added, updated and deleted in its own order, and the events of different objects interleave
in any way. The collector sends virtual delete events for UIDs whose objects the API server
does not have; which UIDs it may send them for is a parameter of the system.

When a virtual delete event may come only for a UID whose object is deleted or never existed,
every reachable graph agrees with the objects: its observed nodes are the live objects, with
their identities and owner references, and an observed node's dependents are exactly the
nodes that refer to it. A virtual delete for an object whose add is still to come breaks the
last part, and the node of an object keeps its owner references in the order it first saw
them, whatever order later updates list them in. -/

set_option autoImplicit false

namespace Kubernetes.Controller.GarbageCollector

open Library GraphBuilder

inductive Status
  | unborn
  | live
  | deleted
  | absent
  deriving DecidableEq, Repr

/-- The object is gone for good: deleted, or never created. -/
def Status.gone : Status → Bool
  | .deleted | .absent => true
  | .unborn | .live => false

structure Coordinates where
  apiVersion : String
  kind : String
  name : String
  namespace_ : String

structure World where
  graph : GraphBuilder
  status : String → Status
  /-- The owner references of each object's last processed event. -/
  owners : String → List OwnerReference

inductive Input
  | add (uid : String) (ownerReferences : List OwnerReference)
  | update (uid : String) (ownerReferences : List OwnerReference)
  | delete (uid : String)
  | virtualDelete (identity : ObjectReference)

section Environment

variable (coordinates : String → Coordinates)

def objectOf (uid : String) (ownerReferences : List OwnerReference) : Object :=
  { apiVersion := (coordinates uid).apiVersion, kind := (coordinates uid).kind,
    name := (coordinates uid).name, uid := uid, namespace_ := (coordinates uid).namespace_,
    ownerReferences := ownerReferences }

/-- The identity an informer event gives the object with a UID. -/
def identityOf (uid : String) : ObjectReference :=
  identityFromEvent ⟨false, .addEvent, objectOf coordinates uid []⟩

@[simp] theorem identityFromEvent_objectOf (virtual : Bool) (eventType : EventType) (uid : String)
    (ownerReferences : List OwnerReference) :
    identityFromEvent ⟨virtual, eventType, objectOf coordinates uid ownerReferences⟩ =
      identityOf coordinates uid :=
  rfl

@[simp] theorem identityOf_uid (uid : String) : (identityOf coordinates uid).uid = uid :=
  rfl

@[simp] theorem objectOf_ownerReferences (uid : String) (ownerReferences : List OwnerReference) :
    (objectOf coordinates uid ownerReferences).ownerReferences = ownerReferences :=
  rfl

/-- No two references to one UID, each with the coordinates of the object with that UID. -/
def WellFormed (ownerReferences : List OwnerReference) : Prop :=
  (ownerReferences.map (·.uid)).Nodup ∧
    ∀ ref ∈ ownerReferences, ref.apiVersion = (coordinates ref.uid).apiVersion ∧
      ref.kind = (coordinates ref.uid).kind ∧ ref.name = (coordinates ref.uid).name

instance (ownerReferences : List OwnerReference) : Decidable (WellFormed coordinates ownerReferences) :=
  inferInstanceAs (Decidable (_ ∧ _))

variable (allowVirtualDelete : Status → Bool)

def World.step (w : World) : Input → Option World
  | .add uid refs =>
    if w.status uid = .unborn ∧ WellFormed coordinates refs then
      some ⟨w.graph.processGraphChanges ⟨false, .addEvent, objectOf coordinates uid refs⟩,
        Function.update w.status uid .live, Function.update w.owners uid refs⟩
    else none
  | .update uid refs =>
    if w.status uid = .live ∧ WellFormed coordinates refs then
      some ⟨w.graph.processGraphChanges ⟨false, .updateEvent, objectOf coordinates uid refs⟩,
        w.status, Function.update w.owners uid refs⟩
    else none
  | .delete uid =>
    if w.status uid = .live then
      some ⟨w.graph.processGraphChanges ⟨false, .deleteEvent, objectOf coordinates uid (w.owners uid)⟩,
        Function.update w.status uid .deleted, w.owners⟩
    else none
  | .virtualDelete identity =>
    if allowVirtualDelete (w.status identity.uid) then
      some { w with graph := w.graph.processGraphChanges (virtualDeleteEvent identity) }
    else none

def World.Initial (w : World) : Prop :=
  (∀ uid, w.graph.uidToNode uid = none) ∧ ∀ uid, w.status uid = .unborn ∨ w.status uid = .absent

def system : System World Input :=
  System.ofPartial World.Initial (World.step coordinates allowVirtualDelete)

end Environment

/-! ## What the graph should be -/

section Invariant

variable (coordinates : String → Coordinates)

/-- The graph agrees with the objects: the observed nodes are the live objects, with their
identities and (up to order) their owner references; an observed node lists exactly the nodes
that refer to it; and every listed dependent has a node. -/
structure Consistent (w : World) : Prop where
  observed : ∀ uid, w.graph.Observed uid ↔ w.status uid = .live
  identity : ∀ uid n, w.graph.uidToNode uid = some n → n.virtual = false →
    n.identity = identityOf coordinates uid
  owners : ∀ uid n, w.graph.uidToNode uid = some n → n.virtual = false →
    ∀ ref, ref ∈ n.owners ↔ ref ∈ w.owners uid
  dependents : ∀ uid n, w.graph.uidToNode uid = some n → n.virtual = false →
    ∀ dependent node, w.graph.uidToNode dependent = some node →
      (dependent ∈ n.dependents ↔ n.identity.uid ∈ node.owners.map (·.uid))
  stored : ∀ uid n, w.graph.uidToNode uid = some n → ∀ dependent ∈ n.dependents,
    ∃ node, w.graph.uidToNode dependent = some node

/-- What the invariant says of each stored node: it is stored under its own UID, its owner
references name distinct UIDs, a virtual node refers to nothing, and an observed node has its
object's identity and owner references. -/
structure NodeShape (owners : String → List OwnerReference) (uid : String) (n : Node) : Prop where
  keyed : n.identity.uid = uid
  distinct : (n.owners.map (·.uid)).Nodup
  virtualOwners : n.virtual = true → n.owners = []
  identity : n.virtual = false → n.identity = identityOf coordinates uid
  ownerReferences : n.virtual = false → ∀ ref, ref ∈ n.owners ↔ ref ∈ owners uid

/-- The inductive invariant: node shapes, observed nodes, and the dependents lists exact for
every owner whose object is not gone (for a gone one, only sound). -/
structure Tracked (w : World) : Prop where
  shaped : ∀ uid n, w.graph.uidToNode uid = some n → NodeShape coordinates w.owners uid n
  observed : ∀ uid, w.graph.Observed uid ↔ w.status uid = .live
  sound : ∀ owner dependent, w.graph.HasDependent owner dependent → w.graph.Refers dependent owner
  complete : ∀ owner dependent, (w.status owner).gone = false →
    w.graph.Refers dependent owner → w.graph.HasDependent owner dependent

variable {coordinates}

theorem NodeShape.congr {owners owners' : String → List OwnerReference} {uid : String} {n n' : Node}
    (shape : NodeShape coordinates owners uid n) (identity : n'.identity = n.identity)
    (virtual : n'.virtual = n.virtual) (sameOwners : n'.owners = n.owners)
    (sameRefs : owners' uid = owners uid) : NodeShape coordinates owners' uid n' where
  keyed := by rw [identity]; exact shape.keyed
  distinct := by rw [sameOwners]; exact shape.distinct
  virtualOwners observed := by rw [sameOwners]; exact shape.virtualOwners (virtual ▸ observed)
  identity observed := by rw [identity]; exact shape.identity (virtual ▸ observed)
  ownerReferences observed := by
    rw [sameOwners, sameRefs]
    exact shape.ownerReferences (virtual ▸ observed)

theorem NodeShape.addDependent {owners : String → List OwnerReference} {uid : String} {n : Node}
    (dependent : String) (shape : NodeShape coordinates owners uid n) :
    NodeShape coordinates owners uid (n.addDependent dependent) :=
  shape.congr rfl rfl rfl rfl

theorem NodeShape.deleteDependent {owners : String → List OwnerReference} {uid : String} {n : Node}
    (dependent : String) (shape : NodeShape coordinates owners uid n) :
    NodeShape coordinates owners uid (n.deleteDependent dependent) :=
  shape.congr rfl rfl rfl rfl

theorem nodeShape_virtualNode (owners : String → List OwnerReference) (owner : OwnerReference) (n : Node) :
    NodeShape coordinates owners owner.uid (virtualNode owner n) where
  keyed := rfl
  distinct := List.nodup_nil
  virtualOwners _ := rfl
  identity observed := nomatch observed
  ownerReferences observed := nomatch observed

variable {w : World}

theorem Tracked.virtual_of_not_live (tracked : Tracked coordinates w) {uid : String} {n : Node}
    (present : w.graph.uidToNode uid = some n) (notLive : w.status uid ≠ .live) : n.virtual = true := by
  cases virtual : n.virtual
  · exact absurd ((tracked.observed uid).mp ⟨n, present, virtual⟩) notLive
  · rfl

theorem Tracked.not_refers_of_not_live (tracked : Tracked coordinates w) {uid : String}
    (notLive : w.status uid ≠ .live) (owner : String) : ¬w.graph.Refers uid owner := by
  rintro ⟨n, present, named⟩
  rw [(tracked.shaped uid n present).virtualOwners (tracked.virtual_of_not_live present notLive)] at named
  simp at named

theorem tracked_initial (initial : World.Initial w) : Tracked coordinates w where
  shaped uid n present := by simp [initial.1 uid] at present
  observed uid := by
    rcases initial.2 uid with status | status <;> simp [Observed, initial.1 uid, status]
  sound owner _ listed := by
    obtain ⟨n, present, _⟩ := listed
    simp [initial.1 owner] at present
  complete _ dependent _ refers := by
    obtain ⟨n, present, _⟩ := refers
    simp [initial.1 dependent] at present

theorem Tracked.removeNode (tracked : Tracked coordinates w) {uid : String} {n : Node}
    (present : w.graph.uidToNode uid = some n) (status : String → Status) (gone : (status uid).gone = true)
    (others : ∀ other, other ≠ uid → status other = w.status other) :
    Tracked coordinates ⟨w.graph.removeNode n, status, w.owners⟩ := by
  have keyed : n.identity.uid = uid := (tracked.shaped uid n present).keyed
  have notLive : status uid ≠ .live := by
    intro live
    rw [live] at gone
    contradiction
  unfold GraphBuilder.removeNode
  rw [keyed]
  constructor
  case shaped =>
    dsimp only
    refine removeDependentFromOwners_nodes n (NodeShape coordinates w.owners)
      (fun _ _ dependent shape => shape.deleteDependent dependent) n.owners ?_
    intro key node stored
    simp only [delete_uidToNode] at stored
    split at stored
    · contradiction
    · exact tracked.shaped key node stored
  case observed =>
    intro key
    dsimp only
    rw [observed_removeDependentFromOwners, observed_delete]
    by_cases same : key = uid
    · simp [same, notLive]
    · rw [others key same, ← tracked.observed key]
      simp [same]
  case sound =>
    intro owner dependent listed
    dsimp only at listed ⊢
    rw [hasDependent_removeDependentFromOwners, hasDependent_delete, keyed] at listed
    rw [refers_removeDependentFromOwners, refers_delete]
    obtain ⟨⟨-, listedBefore⟩, notRemoved⟩ := listed
    refine ⟨?_, tracked.sound owner dependent listedBefore⟩
    rintro rfl
    exact notRemoved ⟨(refers_of_uidToNode present owner).mp (tracked.sound owner _ listedBefore), rfl⟩
  case complete =>
    intro owner dependent notGone refers
    dsimp only at notGone refers ⊢
    rw [refers_removeDependentFromOwners, refers_delete] at refers
    rw [hasDependent_removeDependentFromOwners, hasDependent_delete, keyed]
    have kept : owner ≠ uid := by
      rintro rfl
      rw [gone] at notGone
      contradiction
    rw [others owner kept] at notGone
    exact ⟨⟨kept, tracked.complete owner dependent notGone refers.2⟩, fun ⟨_, same⟩ => refers.1 same⟩

theorem Tracked.replaceIdentity (tracked : Tracked coordinates w) {uid : String} {n : Node}
    (present : w.graph.uidToNode uid = some n) (virtual : n.virtual = true)
    (replacement : ObjectReference) (sameUID : replacement.uid = uid) :
    Tracked coordinates { w with graph := w.graph.write { n with identity := replacement } } := by
  have stored : w.graph.uidToNode ({ n with identity := replacement } : Node).identity.uid = some n := by
    rw [← present, ← sameUID]
  constructor
  case shaped =>
    intro key node found
    simp only [write_uidToNode] at found
    split at found
    next same =>
      cases found
      have shape := tracked.shaped uid n present
      exact { keyed := same.symm
              distinct := shape.distinct
              virtualOwners := fun _ => shape.virtualOwners virtual
              identity := fun observed => by simp [virtual] at observed
              ownerReferences := fun observed => by simp [virtual] at observed }
    next => exact tracked.shaped key node found
  case observed =>
    intro key
    rw [observed_write_same _ stored rfl]
    exact tracked.observed key
  case sound =>
    intro owner dependent
    rw [hasDependent_write_same _ _ stored rfl, refers_write_same _ _ stored rfl]
    exact tracked.sound owner dependent
  case complete =>
    intro owner dependent notGone
    rw [hasDependent_write_same _ _ stored rfl, refers_write_same _ _ stored rfl]
    exact tracked.complete owner dependent notGone

theorem Tracked.add_graph (tracked : Tracked coordinates w) {uid : String} (refs : List OwnerReference)
    (notLive : w.status uid ≠ .live) :
    ∃ dependents : List String, (∀ dependent, dependent ∈ dependents ↔ w.graph.HasDependent uid dependent) ∧
      w.graph.processGraphChanges ⟨false, .addEvent, objectOf coordinates uid refs⟩ =
        (w.graph.write ⟨identityOf coordinates uid, dependents, false, refs⟩).addDependentToOwners
          ⟨identityOf coordinates uid, dependents, false, refs⟩ refs := by
  cases present : w.graph.uidToNode uid with
  | none =>
    refine ⟨[], fun dependent => by simp [HasDependent, present], ?_⟩
    rw [@processGraphChanges_of_absent w.graph ⟨false, .addEvent, objectOf coordinates uid refs⟩ present,
      if_neg (by simp)]
    rfl
  | some n =>
    have virtual := tracked.virtual_of_not_live present notLive
    have noOwners := (tracked.shaped uid n present).virtualOwners virtual
    refine ⟨n.dependents, fun dependent => (hasDependent_of_uidToNode present dependent).symm, ?_⟩
    rw [@processGraphChanges_of_virtual w.graph ⟨false, .addEvent, objectOf coordinates uid refs⟩ n present
      rfl virtual]
    dsimp only
    rw [if_neg (by simp)]
    simp only [identityFromEvent_objectOf, objectOf_ownerReferences]
    -- the virtual node had no owners, so every reference of the object is added
    have diffs : referencesDiffs n.owners refs = (refs, [], []) := by
      rw [noOwners]
      exact referencesDiffs_nil_left refs
    by_cases noRefs : refs = []
    · subst noRefs
      rw [@updateOwners_of_same _ ⟨identityOf coordinates uid, n.dependents, false, n.owners⟩ _ diffs]
      have observedNode : ({ n with identity := identityOf coordinates uid, virtual := false } : Node) =
          ⟨identityOf coordinates uid, n.dependents, false, []⟩ := by
        rw [← noOwners]
      rw [observedNode]
      rfl
    · rw [updateOwners_of_differs (by rw [diffs]; simpa using noRefs), diffs]
      dsimp only
      rw [write_write]
      · rfl
      · rfl

theorem Tracked.add (tracked : Tracked coordinates w) {uid : String} {refs : List OwnerReference}
    (unborn : w.status uid = .unborn) (wellFormed : WellFormed coordinates refs) :
    Tracked coordinates ⟨w.graph.processGraphChanges ⟨false, .addEvent, objectOf coordinates uid refs⟩,
      Function.update w.status uid .live, Function.update w.owners uid refs⟩ := by
  have notLive : w.status uid ≠ .live := by
    rw [unborn]
    decide
  obtain ⟨dependents, listed, graph⟩ := tracked.add_graph refs notLive
  rw [graph]
  set added : Node := ⟨identityOf coordinates uid, dependents, false, refs⟩ with addedNode
  have addedUID : added.identity.uid = uid := by
    rw [addedNode]
    rfl
  -- the new node lists what the virtual node it replaces listed
  have listsWritten : ∀ owner dependent, (w.graph.write added).HasDependent owner dependent ↔
      w.graph.HasDependent owner dependent := by
    intro owner dependent
    rw [hasDependent_write]
    split
    next same =>
      rw [same]
      exact listed dependent
    next => rfl
  constructor
  case shaped =>
    refine addDependentToOwners_nodes added (NodeShape coordinates (Function.update w.owners uid refs))
      (fun _ _ dependent shape => shape.addDependent dependent) refs
      (fun owner _ => nodeShape_virtualNode _ owner added) ?_
    intro key node stored
    rw [write_uidToNode] at stored
    split at stored
    next same =>
      cases stored
      have self : key = uid := same
      subst self
      exact { keyed := rfl
              distinct := wellFormed.1
              virtualOwners := fun virtual => nomatch virtual
              identity := fun _ => rfl
              ownerReferences := fun _ ref => by simp [addedNode] }
    next other => exact (tracked.shaped key node stored).congr rfl rfl rfl (Function.update_of_ne other _ _)
  case observed =>
    intro key
    dsimp only
    rw [observed_addDependentToOwners, observed_write, addedUID]
    by_cases same : key = uid
    · subst same
      simp [addedNode]
    · rw [if_neg same, Function.update_of_ne same]
      exact tracked.observed key
  case sound =>
    intro owner dependent isListed
    dsimp only at isListed ⊢
    rw [hasDependent_addDependentToOwners, listsWritten] at isListed
    rw [refers_addDependentToOwners, refers_write, addedUID]
    rcases isListed with before | ⟨named, rfl⟩
    · have refers := tracked.sound owner dependent before
      split
      next same => exact absurd (same ▸ refers) (tracked.not_refers_of_not_live notLive owner)
      next => exact refers
    · simpa [addedNode] using named
  case complete =>
    intro owner dependent notGone refers
    dsimp only at notGone refers ⊢
    rw [refers_addDependentToOwners, refers_write] at refers
    rw [hasDependent_addDependentToOwners, listsWritten]
    split at refers
    next same => exact .inr ⟨refers, same⟩
    next =>
      have stillThere : (w.status owner).gone = false := by
        by_cases self : owner = uid
        · rw [self, unborn]
          rfl
        · rwa [Function.update_of_ne self] at notGone
      exact .inl (tracked.complete owner dependent stillThere refers)

theorem Tracked.sameReferences (tracked : Tracked coordinates w) {uid : String} {n : Node}
    {refs : List OwnerReference} (present : w.graph.uidToNode uid = some n)
    (sameMembers : ∀ ref, ref ∈ n.owners ↔ ref ∈ refs) :
    Tracked coordinates ⟨w.graph, w.status, Function.update w.owners uid refs⟩ where
  shaped key node stored := by
    by_cases same : key = uid
    · subst same
      rw [present] at stored
      cases stored
      have shape := tracked.shaped key n present
      exact { shape with
              ownerReferences := fun _ ref => by
                simp only [Function.update_self]
                exact sameMembers ref }
    · exact (tracked.shaped key node stored).congr rfl rfl rfl (Function.update_of_ne same _ _)
  observed := tracked.observed
  sound := tracked.sound
  complete := tracked.complete

theorem Tracked.changedReferences (tracked : Tracked coordinates w) {uid : String} {n : Node}
    {refs : List OwnerReference} (present : w.graph.uidToNode uid = some n) (observed : n.virtual = false)
    (distinct : (refs.map (·.uid)).Nodup) :
    Tracked coordinates ⟨((w.graph.write { n with owners := refs }).addDependentToOwners { n with owners := refs }
        (referencesDiffs n.owners refs).1).removeDependentFromOwners { n with owners := refs }
        (referencesDiffs n.owners refs).2.1,
      w.status, Function.update w.owners uid refs⟩ := by
  have shape := tracked.shaped uid n present
  set changed : Node := { n with owners := refs } with changedNode
  have keyed : changed.identity.uid = uid := shape.keyed
  have stored : w.graph.uidToNode changed.identity.uid = some n := by rw [keyed, present]
  constructor
  case shaped =>
    refine removeDependentFromOwners_nodes changed (NodeShape coordinates (Function.update w.owners uid refs))
      (fun _ _ dependent shape => shape.deleteDependent dependent) _ ?_
    refine addDependentToOwners_nodes changed (NodeShape coordinates (Function.update w.owners uid refs))
      (fun _ _ dependent shape => shape.addDependent dependent) _
      (fun owner _ => nodeShape_virtualNode _ owner changed) ?_
    intro key node found
    rw [write_uidToNode] at found
    split at found
    next same =>
      cases found
      rw [keyed] at same
      subst same
      exact { keyed := keyed
              distinct := distinct
              virtualOwners := fun virtual => by simp [changedNode, observed] at virtual
              identity := fun _ => shape.identity observed
              ownerReferences := fun _ ref => by simp [changedNode] }
    next other =>
      rw [keyed] at other
      exact (tracked.shaped key node found).congr rfl rfl rfl (Function.update_of_ne other _ _)
  case observed =>
    intro key
    dsimp only
    rw [observed_removeDependentFromOwners, observed_addDependentToOwners, observed_write_same _ stored rfl]
    exact tracked.observed key
  case sound =>
    intro owner dependent isListed
    dsimp only at isListed ⊢
    rw [hasDependent_removeDependentFromOwners, hasDependent_addDependentToOwners, hasDependent_write_same _ _ stored rfl] at isListed
    rw [refers_removeDependentFromOwners, refers_addDependentToOwners, refers_write]
    obtain ⟨listedOrAdded, notRemoved⟩ := isListed
    split
    next self =>
      refine referencesDiffs_named.mpr ⟨?_, fun removed => notRemoved ⟨removed, self⟩⟩
      rcases listedOrAdded with before | ⟨added, -⟩
      · have refers := tracked.sound owner dependent before
        rw [self] at refers
        exact .inl ((refers_of_uidToNode stored owner).mp refers)
      · exact .inr added
    next other =>
      rcases listedOrAdded with before | ⟨-, self⟩
      · exact tracked.sound owner dependent before
      · exact absurd self other
  case complete =>
    intro owner dependent notGone refers
    dsimp only at notGone refers ⊢
    rw [refers_removeDependentFromOwners, refers_addDependentToOwners, refers_write] at refers
    rw [hasDependent_removeDependentFromOwners, hasDependent_addDependentToOwners, hasDependent_write_same _ _ stored rfl]
    split at refers
    next self =>
      obtain ⟨keptOrAdded, notRemoved⟩ := referencesDiffs_named.mp refers
      refine ⟨?_, fun ⟨removed, _⟩ => notRemoved removed⟩
      rcases keptOrAdded with kept | added
      · have before := (refers_of_uidToNode stored owner).mpr kept
        rw [← self] at before
        exact .inl (tracked.complete owner dependent notGone before)
      · exact .inr ⟨added, self⟩
    next other => exact ⟨.inl (tracked.complete owner dependent notGone refers), fun ⟨_, self⟩ => other self⟩

theorem Tracked.update (tracked : Tracked coordinates w) {uid : String} {refs : List OwnerReference}
    (live : w.status uid = .live) (wellFormed : WellFormed coordinates refs) :
    Tracked coordinates ⟨w.graph.processGraphChanges ⟨false, .updateEvent, objectOf coordinates uid refs⟩,
      w.status, Function.update w.owners uid refs⟩ := by
  obtain ⟨n, present, observed⟩ := (tracked.observed uid).mpr live
  rw [@processGraphChanges_of_present w.graph ⟨false, .updateEvent, objectOf coordinates uid refs⟩ n present
    (.inr observed), if_neg (by simp)]
  simp only [objectOf_ownerReferences]
  by_cases same : referencesDiffs n.owners refs = ([], [], [])
  · rw [updateOwners_of_same same]
    exact tracked.sameReferences present (referencesDiffs_eq_nil (tracked.shaped uid n present).distinct same)
  · rw [updateOwners_of_differs same]
    exact tracked.changedReferences present observed wellFormed.1

theorem Tracked.delete (tracked : Tracked coordinates w) {uid : String} (live : w.status uid = .live) :
    Tracked coordinates
      ⟨w.graph.processGraphChanges ⟨false, .deleteEvent, objectOf coordinates uid (w.owners uid)⟩,
        Function.update w.status uid .deleted, w.owners⟩ := by
  obtain ⟨n, present, observed⟩ := (tracked.observed uid).mpr live
  rw [@processGraphChanges_of_present w.graph ⟨false, .deleteEvent, objectOf coordinates uid (w.owners uid)⟩
    n present (.inr observed), if_pos rfl,
    @processDeleteEvent_of_informed w.graph ⟨false, .deleteEvent, objectOf coordinates uid (w.owners uid)⟩ n rfl]
  exact tracked.removeNode present _ (by simp [Status.gone]) fun _ other => Function.update_of_ne other _ _

theorem Tracked.virtualDelete (tracked : Tracked coordinates w) (identity : ObjectReference)
    (gone : (w.status identity.uid).gone = true) :
    Tracked coordinates { w with graph := w.graph.processGraphChanges (virtualDeleteEvent identity) } := by
  have notLive : w.status identity.uid ≠ .live := by
    intro live
    rw [live] at gone
    contradiction
  cases present : w.graph.uidToNode identity.uid with
  | none =>
    rw [@processGraphChanges_of_absent w.graph (virtualDeleteEvent identity) present,
      if_pos (show (virtualDeleteEvent identity).eventType = .deleteEvent from rfl)]
    exact tracked
  | some n =>
    have virtual := tracked.virtual_of_not_live present notLive
    rw [@processGraphChanges_of_present w.graph (virtualDeleteEvent identity) n present (.inl rfl),
      if_pos (show (virtualDeleteEvent identity).eventType = .deleteEvent from rfl)]
    rcases @processDeleteEvent_of_virtual w.graph (virtualDeleteEvent identity) n rfl virtual with
      unchanged | ⟨replacement, sameUID, replaced⟩ | removed
    · rw [unchanged]
      exact tracked
    · rw [replaced]
      exact tracked.replaceIdentity present virtual replacement sameUID
    · rw [removed]
      exact tracked.removeNode present w.status gone fun _ _ => rfl

theorem Tracked.step (tracked : Tracked coordinates w) {input : Input} {next : World}
    (stepped : World.step coordinates Status.gone w input = some next) : Tracked coordinates next := by
  cases input with
  | add uid refs =>
    simp only [World.step] at stepped
    split_ifs at stepped with admitted
    cases stepped
    exact tracked.add admitted.1 admitted.2
  | update uid refs =>
    simp only [World.step] at stepped
    split_ifs at stepped with admitted
    cases stepped
    exact tracked.update admitted.1 admitted.2
  | delete uid =>
    simp only [World.step] at stepped
    split_ifs at stepped with admitted
    cases stepped
    exact tracked.delete admitted
  | virtualDelete identity =>
    simp only [World.step] at stepped
    split_ifs at stepped with admitted
    cases stepped
    exact tracked.virtualDelete identity admitted

theorem tracked_invariant : (system coordinates Status.gone).Invariant (Tracked coordinates) :=
  System.Inductive.invariant ⟨fun _ initial => tracked_initial initial, fun _ _ _ tracked stepped => tracked.step stepped⟩

theorem Tracked.consistent (tracked : Tracked coordinates w) : Consistent coordinates w where
  observed := tracked.observed
  identity uid n present observed := (tracked.shaped uid n present).identity observed
  owners uid n present observed := (tracked.shaped uid n present).ownerReferences observed
  dependents uid n present observed dependent node stored := by
    have live := (tracked.observed uid).mp ⟨n, present, observed⟩
    have notGone : (w.status uid).gone = false := by
      rw [live]
      rfl
    rw [(tracked.shaped uid n present).keyed, ← hasDependent_of_uidToNode present, ← refers_of_uidToNode stored]
    exact ⟨tracked.sound uid dependent, tracked.complete uid dependent notGone⟩
  stored uid n present dependent listed := by
    obtain ⟨node, found, -⟩ := tracked.sound uid dependent ((hasDependent_of_uidToNode present dependent).mpr listed)
    exact ⟨node, found⟩

/-- When virtual delete events come only for UIDs whose objects are deleted or never existed,
the graph agrees with the objects after every event. -/
theorem graph_consistent_when_virtual_deletes_follow_absence (coordinates : String → Coordinates)
    (w : World) (reachable : (system coordinates Status.gone).Reachable w) : Consistent coordinates w :=
  (tracked_invariant w reachable).consistent

end Invariant

/-! ## Runs on fixed inputs -/

namespace Runs

/-- ConfigMaps in one namespace, each named by its UID. -/
def configMaps : String → Coordinates := fun uid => ⟨"v1", "ConfigMap", uid, "default"⟩

def ownerReferenceTo (uid : String) : OwnerReference := ⟨"v1", "ConfigMap", uid, uid, none, none⟩

def emptyWorld : World := ⟨⟨fun _ => none⟩, fun _ => .unborn, fun _ => []⟩

theorem emptyWorld_initial : World.Initial emptyWorld :=
  ⟨fun _ => rfl, fun _ => .inl rfl⟩

/-- The world a list of inputs leads to from the empty one. -/
def runFrom (allowVirtualDelete : Status → Bool) (inputs : List Input) : World :=
  (System.runPartial (World.step configMaps allowVirtualDelete) emptyWorld inputs).getD emptyWorld

/-- A dependent and its owner come and go, and the collector confirms the owner is gone. -/
def churn : List Input :=
  [.add "d" [ownerReferenceTo "o"], .add "o" [], .update "d" [], .delete "o",
    .virtualDelete (identityOf configMaps "o")]

theorem graph_consistent_after_churn : Consistent configMaps (runFrom Status.gone churn) :=
  graph_consistent_when_virtual_deletes_follow_absence configMaps _
    (System.reachable_of_runPartial emptyWorld_initial churn rfl)

/-- The dependent comes first and makes a virtual node for its owner; the collector finds no
owner yet and removes the virtual node; then the owner is added. -/
def orphaning : List Input :=
  [.add "d" [ownerReferenceTo "o"], .virtualDelete (identityOf configMaps "o"), .add "o" []]

/-- The dependent's update lists its owners in another order. -/
def reordering : List Input :=
  [.add "o" [], .add "p" [], .add "d" [ownerReferenceTo "o", ownerReferenceTo "p"],
    .update "d" [ownerReferenceTo "p", ownerReferenceTo "o"]]

theorem virtual_delete_before_add_loses_dependent :
    (system configMaps (· != .live)).Reachable (runFrom (· != .live) orphaning) ∧
      (runFrom (· != .live) orphaning).status "o" = .live ∧
      (runFrom (· != .live) orphaning).graph.uidToNode "o" =
        some ⟨identityOf configMaps "o", [], false, []⟩ ∧
      (runFrom (· != .live) orphaning).graph.uidToNode "d" =
        some ⟨identityOf configMaps "d", [], false, [ownerReferenceTo "o"]⟩ ∧
      (system configMaps (· != .live)).Reachable (runFrom (· != .live) reordering) ∧
      (runFrom (· != .live) reordering).owners "d" = [ownerReferenceTo "p", ownerReferenceTo "o"] ∧
      ((runFrom (· != .live) reordering).graph.uidToNode "d").map (·.owners) =
        some [ownerReferenceTo "o", ownerReferenceTo "p"] :=
  ⟨System.reachable_of_runPartial emptyWorld_initial orphaning rfl, by decide, by decide, by decide,
    System.reachable_of_runPartial emptyWorld_initial reordering rfl, by decide, by decide⟩

end Runs

end Kubernetes.Controller.GarbageCollector
