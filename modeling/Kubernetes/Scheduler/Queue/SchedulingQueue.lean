import Kubernetes.Library.Keyed
import Kubernetes.Library.Transition
import Kubernetes.Scheduler.Framework.Types

/-! The scheduler's `PriorityQueue` (`pkg/scheduler/internal/queue/scheduling_queue.go`).

A pod waiting to be scheduled sits in `activeQ`, the heap the scheduler pops from, in
`podBackoffQ`, a heap ordered by the end of each pod's backoff, or in `unschedulablePods`,
a map. All three are keyed by the pod's namespace and name. The operations run under the
queue's lock, so the queue is a state machine whose inputs are the calls with their
arguments, the clock's reading for the calls that read it, and the order in which a loop over
the map visits it.
-/

set_option autoImplicit false

namespace Kubernetes.Scheduler

open Kubernetes.Library

/-- `heap.Heap` of queued pods: its items by key. -/
abbrev Heap := Keyed QueuedPodInfo QueuedPodInfo.key

/-- `UnschedulablePods`: its `podInfoMap`. -/
abbrev UnschedulablePods := Keyed QueuedPodInfo QueuedPodInfo.key

/-- `Heap.Add` and `Heap.Update`: the item under the object's key becomes the object. -/
def Heap.add (h : Heap) (obj : QueuedPodInfo) : Heap := h.put obj

/-- `Heap.Delete`, given the object's key. -/
def Heap.delete (h : Heap) (k : PodKey) : Except String Heap :=
  if k ∈ h then .ok (h.erase k) else .error "object not found"

/-- `Heap.Delete` whose error the caller ignores: a missing pod leaves the heap as it is. -/
def Heap.drop (h : Heap) (k : PodKey) : Heap :=
  match h.delete k with
  | .ok h' => h'
  | .error _ => h

/-- `Heap.Peek`: an item that no item is `less` than. Among such items the heap returns the
one its layout puts on top, the model the first in the store's order. -/
def Heap.peek (less : QueuedPodInfo → QueuedPodInfo → Bool) (h : Heap) : Option QueuedPodInfo :=
  h.values.foldl (fun best item =>
    match best with
    | none => some item
    | some current => if less item current then some item else some current) none

def Heap.pop (less : QueuedPodInfo → QueuedPodInfo → Bool) (h : Heap) :
    Except String (QueuedPodInfo × Heap) :=
  match h.peek less with
  | some obj => .ok (obj, h.erase obj.key)
  | none => .error "object was removed from heap data"

def UnschedulablePods.addOrUpdate (u : UnschedulablePods) (pInfo : QueuedPodInfo) : UnschedulablePods :=
  u.put pInfo

def UnschedulablePods.delete (u : UnschedulablePods) (pod : Pod) : UnschedulablePods := u.erase pod.key

def UnschedulablePods.get (u : UnschedulablePods) (pod : Pod) : Option QueuedPodInfo := Keyed.get u pod.key

structure PriorityQueue where
  activeQ : Heap
  podBackoffQ : Heap
  unschedulablePods : UnschedulablePods
  schedulingCycle : ℤ
  moveRequestCycle : ℤ
  closed : Bool

/-- What the queue is built with: the profile's `QueueSort` less function, the backoff
durations, and the plugins registered for each cluster event. Times are nanoseconds. -/
structure PriorityQueueConfig where
  lessFn : QueuedPodInfo → QueuedPodInfo → Bool
  podInitialBackoffDuration : ℤ
  podMaxBackoffDuration : ℤ
  podMaxInUnschedulablePodsDuration : ℤ
  clusterEventMap : List (ClusterEvent × List String)

def newPriorityQueue : PriorityQueue where
  activeQ := .empty
  podBackoffQ := .empty
  unschedulablePods := .empty
  schedulingCycle := 0
  moveRequestCycle := -1
  closed := false

def queueClosed : String := "scheduling queue is closed"

def assignedPodAdd : ClusterEvent := ⟨"Pod", ActionType.add, "AssignedPodAdd"⟩

def assignedPodUpdate : ClusterEvent := ⟨"Pod", ActionType.update, "AssignedPodUpdate"⟩

def unschedulableTimeout : ClusterEvent := ⟨wildCard, ActionType.all, "UnschedulableTimeout"⟩

/-- `PrioritySort.Less`: higher priority first, then the earlier timestamp. -/
def prioritySortLess (pInfo1 pInfo2 : QueuedPodInfo) : Bool :=
  let p1 := podPriority pInfo1.podInfo.pod
  let p2 := podPriority pInfo2.podInfo.pod
  p1 > p2 || (p1 == p2 && pInfo1.timestamp < pInfo2.timestamp)

/-- The order in which a loop visits the values of a Go map. -/
abbrev MapOrder := List QueuedPodInfo → List QueuedPodInfo

def newQueuedPodInfo (now : ℤ) (pod : Pod) (plugins : List String) : QueuedPodInfo :=
  ⟨newPodInfo pod, now, 0, now, plugins⟩

/-- `updatePod`: the queued pod's `PodInfo` updated in place. -/
def updatePod (oldPodInfo : QueuedPodInfo) (newPod : Pod) : QueuedPodInfo :=
  { oldPodInfo with podInfo := oldPodInfo.podInfo.update newPod }

@[simp] theorem updatePod_pod (oldPodInfo : QueuedPodInfo) (newPod : Pod) :
    (updatePod oldPodInfo newPod).podInfo.pod = newPod := by
  simp [updatePod]

@[simp] theorem updatePod_key (oldPodInfo : QueuedPodInfo) (newPod : Pod) :
    (updatePod oldPodInfo newPod).key = newPod.key := by
  rw [← QueuedPodInfo.podInfo_pod_key, updatePod_pod]

/-- The pod with the fields `isPodUpdated` ignores cleared. -/
def strip (pod : Pod) : Pod :=
  { pod with resourceVersion := "", generation := 0, status := {}, finalizers := [] }

def isPodUpdated (oldPod newPod : Pod) : Bool := strip oldPod != strip newPod

/-- `intersect`, walking the smaller set. -/
def intersect (x y : List String) : Bool :=
  if x.length > y.length then y.any x.contains else x.any y.contains

/-- The doubling loop of `calculateBackoffDuration`, run `rounds` times from `duration`. -/
def doubleBackoff (maxDuration : ℤ) : ℕ → ℤ → ℤ
  | 0, duration => duration
  | rounds + 1, duration =>
    if duration > maxDuration - duration then maxDuration else doubleBackoff maxDuration rounds (duration + duration)

section Config

variable (config : PriorityQueueConfig)

/-- `calculateBackoffDuration`: one doubling for each attempt after the first. -/
def calculateBackoffDuration (pInfo : QueuedPodInfo) : ℤ :=
  doubleBackoff config.podMaxBackoffDuration (pInfo.attempts - 1) config.podInitialBackoffDuration

def getBackoffTime (pInfo : QueuedPodInfo) : ℤ := pInfo.timestamp + calculateBackoffDuration config pInfo

def isPodBackingoff (now : ℤ) (pInfo : QueuedPodInfo) : Bool := getBackoffTime config pInfo > now

def podsCompareBackoffCompleted (pInfo1 pInfo2 : QueuedPodInfo) : Bool :=
  getBackoffTime config pInfo1 < getBackoffTime config pInfo2

def podMatchesEvent (pInfo : QueuedPodInfo) (clusterEvent : ClusterEvent) : Bool :=
  clusterEvent.isWildCard || config.clusterEventMap.any fun (evt, nameSet) =>
    (evt.isWildCard || (evt.resource == clusterEvent.resource && evt.actionType &&& clusterEvent.actionType != 0)) &&
      intersect nameSet pInfo.unschedulablePlugins

namespace PriorityQueue

variable (p : PriorityQueue)

def add (now : ℤ) (pod : Pod) : PriorityQueue :=
  let pInfo := newQueuedPodInfo now pod []
  let p := { p with activeQ := p.activeQ.add pInfo }
  let p := if (p.unschedulablePods.get pod).isSome then
      { p with unschedulablePods := p.unschedulablePods.delete pod }
    else p
  -- the pod leaves the backoff queue if it was backing off
  { p with podBackoffQ := p.podBackoffQ.drop pInfo.key }

/-- `activate`: the pod moves to activeQ if it is in unschedulablePods or the backoff queue. -/
def activate (pod : Pod) : PriorityQueue × Bool :=
  if (Keyed.get p.activeQ pod.key).isSome then (p, false)
  else
    match (p.unschedulablePods.get pod).or (Keyed.get p.podBackoffQ pod.key) with
    | none => (p, false)
    | some pInfo =>
      ({ p with activeQ := p.activeQ.add pInfo, unschedulablePods := p.unschedulablePods.delete pod,
                podBackoffQ := p.podBackoffQ.drop pInfo.key }, true)

/-- `Activate`, over the pods in the order the loop visits them. -/
def activatePods (pods : List Pod) : PriorityQueue :=
  (pods.foldl (fun (state : PriorityQueue × Bool) pod =>
    let activated := state.1.activate pod
    (activated.1, state.2 || activated.2)) (p, false)).1

def addUnschedulableIfNotPresent (now : ℤ) (pInfo : QueuedPodInfo) (podSchedulingCycle : ℤ) :
    Except String PriorityQueue :=
  let pod := pInfo.podInfo.pod
  if (p.unschedulablePods.get pod).isSome then
    .error ("Pod " ++ kObj pod ++ " is already present in unschedulable queue")
  else if pInfo.key ∈ p.activeQ then
    .error ("Pod " ++ kObj pod ++ " is already present in the active queue")
  else if pInfo.key ∈ p.podBackoffQ then
    .error ("Pod " ++ kObj pod ++ " is already present in the backoff queue")
  else
    -- the timestamp is refreshed since the pod is re-added
    let pInfo := { pInfo with timestamp := now }
    if p.moveRequestCycle ≥ podSchedulingCycle then .ok { p with podBackoffQ := p.podBackoffQ.add pInfo }
    else .ok { p with unschedulablePods := p.unschedulablePods.addOrUpdate pInfo }

/-- The loop of `flushBackoffQCompleted`, with room for `fuel` rounds. -/
def flushBackoffQCompletedLoop (now : ℤ) : ℕ → PriorityQueue → PriorityQueue
  | 0, p => p
  | fuel + 1, p =>
    match p.podBackoffQ.peek (podsCompareBackoffCompleted config) with
    | none => p
    | some rawPodInfo =>
      if getBackoffTime config rawPodInfo > now then p
      else
        match p.podBackoffQ.pop (podsCompareBackoffCompleted config) with
        | .error _ => p
        | .ok (_, podBackoffQ) =>
          flushBackoffQCompletedLoop now fuel { p with podBackoffQ, activeQ := p.activeQ.add rawPodInfo }

/-- `flushBackoffQCompleted`; each round pops one pod, so the loop has a round per pod. -/
def flushBackoffQCompleted (now : ℤ) : PriorityQueue :=
  flushBackoffQCompletedLoop config now p.podBackoffQ.size p

/-- One round of the loop of `movePodsToActiveOrBackoffQueue`. -/
def movePod (now : ℤ) (event : ClusterEvent) (pInfo : QueuedPodInfo) : PriorityQueue :=
  -- a pod rejected by plugins the event does not concern stays
  if !pInfo.unschedulablePlugins.isEmpty && !podMatchesEvent config pInfo event then p
  else if isPodBackingoff config now pInfo then
    { p with podBackoffQ := p.podBackoffQ.add pInfo,
             unschedulablePods := p.unschedulablePods.delete pInfo.podInfo.pod }
  else
    { p with activeQ := p.activeQ.add pInfo,
             unschedulablePods := p.unschedulablePods.delete pInfo.podInfo.pod }

def movePodsToActiveOrBackoffQueue (now : ℤ) (podInfoList : List QueuedPodInfo) (event : ClusterEvent) :
    PriorityQueue :=
  let p := podInfoList.foldl (fun p pInfo => p.movePod config now event pInfo) p
  { p with moveRequestCycle := p.schedulingCycle }

def moveAllToActiveOrBackoffQueue (now : ℤ) (event : ClusterEvent) (preCheck : Option (Pod → Bool))
    (order : MapOrder) : PriorityQueue :=
  let unschedulablePods := (order p.unschedulablePods.values).filter fun pInfo =>
    match preCheck with
    | none => true
    | some check => check pInfo.podInfo.pod
  p.movePodsToActiveOrBackoffQueue config now unschedulablePods event

def getUnschedulablePodsWithMatchingAffinityTerm (pod : Pod) (nsLabels : Labels) (order : MapOrder) :
    List QueuedPodInfo :=
  (order p.unschedulablePods.values).filter fun pInfo =>
    pInfo.podInfo.requiredAffinityTerms.any fun term => term.matches pod nsLabels

def assignedPodAdded (now : ℤ) (pod : Pod) (nsLabels : Labels) (order : MapOrder) : PriorityQueue :=
  p.movePodsToActiveOrBackoffQueue config now (p.getUnschedulablePodsWithMatchingAffinityTerm pod nsLabels order)
    assignedPodAdd

def assignedPodUpdated (now : ℤ) (pod : Pod) (nsLabels : Labels) (order : MapOrder) : PriorityQueue :=
  p.movePodsToActiveOrBackoffQueue config now (p.getUnschedulablePodsWithMatchingAffinityTerm pod nsLabels order)
    assignedPodUpdate

def flushUnschedulablePodsLeftover (now : ℤ) (order : MapOrder) : PriorityQueue :=
  let podsToMove := (order p.unschedulablePods.values).filter fun pInfo =>
    now - pInfo.timestamp > config.podMaxInUnschedulablePodsDuration
  if podsToMove.length > 0 then p.movePodsToActiveOrBackoffQueue config now podsToMove unschedulableTimeout
  else p

/-- `Pop`; none while it blocks on an empty, open queue. -/
def pop : Option (Except String (QueuedPodInfo × PriorityQueue)) :=
  if p.activeQ.size = 0 then
    if p.closed then some (.error queueClosed) else none
  else
    some <| match p.activeQ.pop config.lessFn with
      | .error err => .error err
      | .ok (pInfo, activeQ) =>
        .ok ({ pInfo with attempts := pInfo.attempts + 1 },
          { p with activeQ, schedulingCycle := p.schedulingCycle + 1 })

/-- `Update`; none where it dereferences a nil `oldPod`. -/
def update (now : ℤ) (oldPod : Option Pod) (newPod : Pod) : Option PriorityQueue :=
  let inHeaps : Option PriorityQueue := oldPod.bind fun old =>
    match Keyed.get p.activeQ old.key with
    | some oldPodInfo => some { p with activeQ := p.activeQ.add (updatePod oldPodInfo newPod) }
    | none =>
      match Keyed.get p.podBackoffQ old.key with
      | some oldPodInfo => some { p with podBackoffQ := p.podBackoffQ.add (updatePod oldPodInfo newPod) }
      | none => none
  match inHeaps with
  | some p => some p
  | none =>
    match p.unschedulablePods.get newPod with
    | some usPodInfo =>
      -- the pod info is updated in place, so the delete below is by the new pod
      let pInfo := updatePod usPodInfo newPod
      match oldPod with
      | none => none
      | some old =>
        if isPodUpdated old newPod then
          if isPodBackingoff config now usPodInfo then
            some { p with podBackoffQ := p.podBackoffQ.add pInfo,
                          unschedulablePods := p.unschedulablePods.delete pInfo.podInfo.pod }
          else
            some { p with activeQ := p.activeQ.add pInfo,
                          unschedulablePods := p.unschedulablePods.delete pInfo.podInfo.pod }
        else some { p with unschedulablePods := p.unschedulablePods.addOrUpdate pInfo }
    | none => some { p with activeQ := p.activeQ.add (newQueuedPodInfo now newPod []) }

/-- `Delete`: from activeQ, or else from the two others. -/
def delete (pod : Pod) : PriorityQueue :=
  match p.activeQ.delete pod.key with
  | .ok activeQ => { p with activeQ }
  | .error _ =>
    { p with podBackoffQ := p.podBackoffQ.drop pod.key, unschedulablePods := p.unschedulablePods.delete pod }

def close : PriorityQueue := { p with closed := true }

end PriorityQueue

end Config

/-! ## The queues' stores, key by key -/

@[simp] theorem newQueuedPodInfo_key (now : ℤ) (pod : Pod) (plugins : List String) :
    (newQueuedPodInfo now pod plugins).key = pod.key := rfl

namespace Heap

variable {h : Heap} {k k' : PodKey} {obj : QueuedPodInfo}

@[simp] theorem mem_add : k ∈ h.add obj ↔ k = obj.key ∨ k ∈ h := Keyed.mem_put

theorem drop_eq_erase (h : Heap) (k : PodKey) : h.drop k = h.erase k := by
  by_cases present : k ∈ h
  · simp [drop, delete, present]
  · simp [drop, delete, present, Keyed.erase_of_notMem present]

@[simp] theorem mem_drop : k' ∈ h.drop k ↔ k' ≠ k ∧ k' ∈ h := by
  rw [drop_eq_erase, Keyed.mem_erase]

theorem foldl_best_mem (less : QueuedPodInfo → QueuedPodInfo → Bool) :
    ∀ (items : List QueuedPodInfo) (best : Option QueuedPodInfo) {found : QueuedPodInfo},
      items.foldl (fun best item =>
        match best with
        | none => some item
        | some current => if less item current then some item else some current) best = some found →
      best = some found ∨ found ∈ items := by
  intro items
  induction items with
  | nil => exact fun best _ kept => Or.inl kept
  | cons item rest ih =>
    intro best found kept
    rw [List.foldl_cons] at kept
    rcases ih _ kept with chosen | later
    · -- the round that saw `item` kept either `item` or the earlier best
      cases best with
      | none => exact Or.inr (by simp_all)
      | some current =>
        dsimp only at chosen
        split_ifs at chosen
        · exact Or.inr (by simp_all)
        · exact Or.inl chosen
    · exact Or.inr (List.mem_cons_of_mem item later)

theorem get_of_peek {less : QueuedPodInfo → QueuedPodInfo → Bool} (peeked : h.peek less = some obj) :
    Keyed.get h obj.key = some obj := by
  rcases foldl_best_mem less h.values none peeked with fresh | listed
  · cases fresh
  · exact Keyed.get_of_mem_values listed

theorem pop_eq {less : QueuedPodInfo → QueuedPodInfo → Bool} {popped : QueuedPodInfo} {rest : Heap}
    (taken : h.pop less = .ok (popped, rest)) : h.peek less = some popped ∧ rest = h.erase popped.key := by
  unfold pop at taken
  split at taken
  · cases taken
    exact ⟨‹_›, rfl⟩
  · cases taken

end Heap

namespace UnschedulablePods

variable {u : UnschedulablePods} {k : PodKey} {pod : Pod} {pInfo : QueuedPodInfo}

@[simp] theorem mem_delete : k ∈ u.delete pod ↔ k ≠ pod.key ∧ k ∈ u := Keyed.mem_erase

@[simp] theorem mem_addOrUpdate : k ∈ u.addOrUpdate pInfo ↔ k = pInfo.key ∨ k ∈ u := Keyed.mem_put

theorem get_eq : u.get pod = Keyed.get u pod.key := rfl

end UnschedulablePods

/-! ## Where a pod is queued -/

inductive SubQueue where
  | activeQ
  | podBackoffQ
  | unschedulablePods
  deriving DecidableEq, Repr

namespace PriorityQueue

/-- Whether the queue `q` of `p` holds the pod with key `k`. -/
def holds (p : PriorityQueue) : SubQueue → PodKey → Bool
  | .activeQ, k => decide (k ∈ p.activeQ)
  | .podBackoffQ, k => decide (k ∈ p.podBackoffQ)
  | .unschedulablePods, k => decide (k ∈ p.unschedulablePods)

/-- Every pod is in at most one of the three queues. -/
def Exclusive (p : PriorityQueue) : Prop :=
  ∀ k q q', p.holds q k → p.holds q' k → q = q'

/-- `p'` is `p` with the pod `k` in `target` alone (in none for `none`) and every other pod
where it was. -/
def Relocated (p p' : PriorityQueue) (k : PodKey) (target : Option SubQueue) : Prop :=
  ∀ q k', p'.holds q k' = if k' = k then decide (target = some q) else p.holds q k'

/-- Every pod `p'` queues was queued by `p`, or is `added`. -/
def Confined (p p' : PriorityQueue) (added : PodKey → Prop) : Prop :=
  ∀ q k, p'.holds q k → (∃ q', p.holds q' k) ∨ added k

variable {p p' p'' : PriorityQueue} {k k' : PodKey} {target : Option SubQueue} {added : PodKey → Prop}

theorem holds_eq_of_queues (active : p'.activeQ = p.activeQ) (backoff : p'.podBackoffQ = p.podBackoffQ)
    (unschedulable : p'.unschedulablePods = p.unschedulablePods) : p'.holds = p.holds := by
  funext q k
  cases q <;> simp [holds, active, backoff, unschedulable]

theorem Exclusive.of_holds (same : p'.holds = p.holds) (exclusive : p.Exclusive) : p'.Exclusive := by
  rw [Exclusive, same]
  exact exclusive

theorem Exclusive.notMem_of_mem_activeQ (exclusive : p.Exclusive) (active : k ∈ p.activeQ) :
    k ∉ p.podBackoffQ ∧ k ∉ p.unschedulablePods := by
  constructor
  · intro backoff
    cases exclusive k .activeQ .podBackoffQ (by simpa [holds]) (by simpa [holds])
  · intro unschedulable
    cases exclusive k .activeQ .unschedulablePods (by simpa [holds]) (by simpa [holds])

theorem Exclusive.notMem_of_mem_podBackoffQ (exclusive : p.Exclusive) (backoff : k ∈ p.podBackoffQ) :
    k ∉ p.activeQ ∧ k ∉ p.unschedulablePods := by
  constructor
  · intro active
    cases exclusive k .podBackoffQ .activeQ (by simpa [holds]) (by simpa [holds])
  · intro unschedulable
    cases exclusive k .podBackoffQ .unschedulablePods (by simpa [holds]) (by simpa [holds])

theorem Exclusive.notMem_of_mem_unschedulablePods (exclusive : p.Exclusive)
    (unschedulable : k ∈ p.unschedulablePods) : k ∉ p.activeQ ∧ k ∉ p.podBackoffQ := by
  constructor
  · intro active
    cases exclusive k .unschedulablePods .activeQ (by simpa [holds]) (by simpa [holds])
  · intro backoff
    cases exclusive k .unschedulablePods .podBackoffQ (by simpa [holds]) (by simpa [holds])

theorem Relocated.holds_of_ne (relocated : Relocated p p' k target) (other : k' ≠ k) (q : SubQueue) :
    p'.holds q k' = p.holds q k' := by
  rw [relocated, if_neg other]

theorem Relocated.exclusive (relocated : Relocated p p' k target) (exclusive : p.Exclusive) :
    p'.Exclusive := by
  intro k' q q' held held'
  rw [relocated] at held held'
  by_cases same : k' = k
  · simp only [same, if_true, decide_eq_true_eq] at held held'
    exact Option.some.inj (held.symm.trans held')
  · simp only [same, if_false] at held held'
    exact exclusive k' q q' held held'

theorem Relocated.confined (relocated : Relocated p p' k target) : Confined p p' (· = k) := by
  intro q k' held
  by_cases same : k' = k
  · exact Or.inr same
  · rw [relocated.holds_of_ne same] at held
    exact Or.inl ⟨q, held⟩

theorem Relocated.confined_of_none (relocated : Relocated p p' k none) : Confined p p' fun _ => False := by
  intro q k' held
  by_cases same : k' = k
  · rw [relocated, if_pos same] at held
    simp at held
  · rw [relocated.holds_of_ne same] at held
    exact Or.inl ⟨q, held⟩

theorem Relocated.confined_of_queued (relocated : Relocated p p' k target) (queued : ∃ q, p.holds q k) :
    Confined p p' fun _ => False := by
  intro q k' held
  rcases relocated.confined q k' held with found | same
  · exact Or.inl found
  · subst same
    exact Or.inl queued

theorem Confined.refl : Confined p p added := fun q _ held => Or.inl ⟨q, held⟩

theorem Confined.of_holds (same : p'.holds = p.holds) : Confined p p' added := by
  intro q k held
  rw [same] at held
  exact Or.inl ⟨q, held⟩

theorem Confined.trans (first : Confined p p' added) (second : Confined p' p'' added) :
    Confined p p'' added := by
  intro q k held
  rcases second q k held with ⟨q', held'⟩ | fresh
  · exact first q' k held'
  · exact Or.inr fresh

theorem Confined.mono {wider : PodKey → Prop} (confined : Confined p p' added)
    (implies : ∀ k, added k → wider k) : Confined p p' wider := by
  intro q k held
  rcases confined q k held with found | fresh
  · exact Or.inl found
  · exact Or.inr (implies k fresh)

/-! ## What each operation does to where pods are queued -/

section Operations

variable (config : PriorityQueueConfig) (p : PriorityQueue)

theorem add_eq (now : ℤ) (pod : Pod) :
    p.add now pod = { p with activeQ := p.activeQ.add (newQueuedPodInfo now pod []),
                             unschedulablePods := p.unschedulablePods.delete pod,
                             podBackoffQ := p.podBackoffQ.erase pod.key } := by
  by_cases present : (p.unschedulablePods.get pod).isSome
  · simp [add, present, Heap.drop_eq_erase]
  · have absent : pod.key ∉ p.unschedulablePods := by
      rwa [Keyed.mem_iff_isSome]
    simp [add, present, Heap.drop_eq_erase, UnschedulablePods.delete, Keyed.erase_of_notMem absent]

theorem relocated_add (now : ℤ) (pod : Pod) : Relocated p (p.add now pod) pod.key (some .activeQ) := by
  intro q k'
  rw [add_eq]
  by_cases same : k' = pod.key <;> cases q <;> simp [holds, same]

theorem relocated_activate (pod : Pod) :
    (p.activate pod).1 = p ∨
      (∃ q, p.holds q pod.key) ∧ Relocated p (p.activate pod).1 pod.key (some .activeQ) := by
  by_cases active : (Keyed.get p.activeQ pod.key).isSome
  · simp [activate, active]
  rcases found : (p.unschedulablePods.get pod).or (Keyed.get p.podBackoffQ pod.key) with _ | pInfo
  · simp [activate, active, found]
  have fromStore : (p.unschedulablePods.get pod = some pInfo) ∨ Keyed.get p.podBackoffQ pod.key = some pInfo := by
    rcases Option.or_eq_some_iff.mp found with fromUnschedulable | ⟨_, fromBackoff⟩
    · exact Or.inl fromUnschedulable
    · exact Or.inr fromBackoff
  have sameKey : pInfo.key = pod.key := by
    rcases fromStore with stored | stored
    · exact Keyed.key_of_get stored
    · exact Keyed.key_of_get stored
  have queued : ∃ q, p.holds q pod.key := by
    rcases fromStore with stored | stored
    · exact ⟨.unschedulablePods, by simpa [holds] using Keyed.mem_of_get stored⟩
    · exact ⟨.podBackoffQ, by simpa [holds] using Keyed.mem_of_get stored⟩
  have notActive : pod.key ∉ p.activeQ := by rwa [Keyed.mem_iff_isSome]
  refine Or.inr ⟨queued, fun q k' => ?_⟩
  by_cases same : k' = pod.key <;> cases q <;> simp [activate, active, found, holds, same, sameKey, notActive]

theorem relocated_addUnschedulableIfNotPresent {now : ℤ} {pInfo : QueuedPodInfo} {podSchedulingCycle : ℤ}
    (added : p.addUnschedulableIfNotPresent now pInfo podSchedulingCycle = .ok p') :
    Relocated p p' pInfo.key
      (some (if p.moveRequestCycle ≥ podSchedulingCycle then .podBackoffQ else .unschedulablePods)) := by
  dsimp only [addUnschedulableIfNotPresent] at added
  split_ifs at added with unschedulable active backoff moved
  all_goals cases added
  all_goals
    have notUnschedulable : pInfo.key ∉ p.unschedulablePods := by
      rwa [Keyed.mem_iff_isSome]
    have key : ({ pInfo with timestamp := now } : QueuedPodInfo).key = pInfo.key := rfl
    intro q k'
    by_cases same : k' = pInfo.key <;> cases q <;>
      simp [holds, same, moved, active, backoff, notUnschedulable, key]

theorem relocated_delete (exclusive : p.Exclusive) (pod : Pod) : Relocated p (p.delete pod) pod.key none := by
  by_cases active : pod.key ∈ p.activeQ
  · -- the pod is in activeQ, so in neither of the others
    obtain ⟨notBackoff, notUnschedulable⟩ := exclusive.notMem_of_mem_activeQ active
    intro q k'
    by_cases same : k' = pod.key <;> cases q <;>
      simp [delete, Heap.delete, active, holds, same, notBackoff, notUnschedulable]
  · intro q k'
    by_cases same : k' = pod.key <;> cases q <;> simp [delete, Heap.delete, active, holds, same]

theorem relocated_pop (exclusive : p.Exclusive) {pInfo : QueuedPodInfo}
    (popped : p.pop config = some (.ok (pInfo, p'))) :
    pInfo.key ∈ p.activeQ ∧ Relocated p p' pInfo.key none := by
  unfold pop at popped
  split_ifs at popped with empty
  · cases popped
  rcases taken : p.activeQ.pop config.lessFn with err | ⟨obj, activeQ⟩
  · simp [taken] at popped
  simp only [taken, Option.some.injEq, Except.ok.injEq, Prod.mk.injEq] at popped
  obtain ⟨rfl, rfl⟩ := popped
  obtain ⟨peeked, rfl⟩ := Heap.pop_eq taken
  have active : obj.key ∈ p.activeQ := Keyed.mem_of_get (Heap.get_of_peek peeked)
  obtain ⟨notBackoff, notUnschedulable⟩ := exclusive.notMem_of_mem_activeQ active
  have key : ({ obj with attempts := obj.attempts + 1 } : QueuedPodInfo).key = obj.key := rfl
  refine ⟨active, fun q k' => ?_⟩
  by_cases same : k' = obj.key <;> cases q <;> simp [holds, same, notBackoff, notUnschedulable, key]

theorem relocated_update (exclusive : p.Exclusive) {now : ℤ} {oldPod newPod : Pod}
    (sameKey : oldPod.key = newPod.key) (updated : p.update config now (some oldPod) newPod = some p') :
    ∃ target, Relocated p p' newPod.key (some target) := by
  simp only [update, Option.bind_some, sameKey] at updated
  rcases inActive : Keyed.get p.activeQ newPod.key with _ | oldPodInfo
  · rcases inBackoff : Keyed.get p.podBackoffQ newPod.key with _ | oldPodInfo
    · -- in neither heap: the pod leaves unschedulablePods or is added to activeQ
      have notActive : newPod.key ∉ p.activeQ := Keyed.get_eq_none.mp inActive
      have notBackoff : newPod.key ∉ p.podBackoffQ := Keyed.get_eq_none.mp inBackoff
      simp only [inActive, inBackoff, UnschedulablePods.get_eq] at updated
      rcases inUnschedulable : Keyed.get p.unschedulablePods newPod.key with _ | usPodInfo
      · have notUnschedulable : newPod.key ∉ p.unschedulablePods := Keyed.get_eq_none.mp inUnschedulable
        simp only [inUnschedulable, Option.some.injEq] at updated
        subst updated
        refine ⟨.activeQ, fun q k' => ?_⟩
        by_cases same : k' = newPod.key <;> cases q <;>
          simp [holds, same, notActive, notBackoff, notUnschedulable]
      · simp only [inUnschedulable] at updated
        split_ifs at updated with changed backingOff <;> cases updated
        · refine ⟨.podBackoffQ, fun q k' => ?_⟩
          by_cases same : k' = newPod.key <;> cases q <;> simp [holds, same, notActive]
        · refine ⟨.activeQ, fun q k' => ?_⟩
          by_cases same : k' = newPod.key <;> cases q <;> simp [holds, same, notBackoff]
        · refine ⟨.unschedulablePods, fun q k' => ?_⟩
          by_cases same : k' = newPod.key <;> cases q <;> simp [holds, same, notActive, notBackoff]
    · -- updated in the backoff heap
      have backoff : newPod.key ∈ p.podBackoffQ := Keyed.mem_of_get inBackoff
      obtain ⟨notActive, notUnschedulable⟩ := exclusive.notMem_of_mem_podBackoffQ backoff
      simp only [inActive, inBackoff, Option.some.injEq] at updated
      subst updated
      refine ⟨.podBackoffQ, fun q k' => ?_⟩
      by_cases same : k' = newPod.key <;> cases q <;> simp [holds, same, notActive, notUnschedulable]
  · -- updated in activeQ
    have active : newPod.key ∈ p.activeQ := Keyed.mem_of_get inActive
    obtain ⟨notBackoff, notUnschedulable⟩ := exclusive.notMem_of_mem_activeQ active
    simp only [inActive, Option.some.injEq] at updated
    subst updated
    refine ⟨.activeQ, fun q k' => ?_⟩
    by_cases same : k' = newPod.key <;> cases q <;> simp [holds, same, notBackoff, notUnschedulable]

theorem relocated_movePod {now : ℤ} {event : ClusterEvent} {pInfo : QueuedPodInfo}
    (notActive : pInfo.key ∉ p.activeQ) (notBackoff : pInfo.key ∉ p.podBackoffQ) :
    p.movePod config now event pInfo = p ∨
      ∃ target, Relocated p (p.movePod config now event pInfo) pInfo.key (some target) := by
  unfold movePod
  split_ifs with skipped backingOff
  · exact Or.inl rfl
  · refine Or.inr ⟨.podBackoffQ, fun q k' => ?_⟩
    by_cases same : k' = pInfo.key <;> cases q <;> simp [holds, same, notActive]
  · refine Or.inr ⟨.activeQ, fun q k' => ?_⟩
    by_cases same : k' = pInfo.key <;> cases q <;> simp [holds, same, notBackoff]

theorem relocated_flushRound (exclusive : p.Exclusive) {rawPodInfo : QueuedPodInfo}
    (peeked : p.podBackoffQ.peek (podsCompareBackoffCompleted config) = some rawPodInfo) :
    rawPodInfo.key ∈ p.podBackoffQ ∧
      Relocated p { p with podBackoffQ := p.podBackoffQ.erase rawPodInfo.key,
                           activeQ := p.activeQ.add rawPodInfo } rawPodInfo.key (some .activeQ) := by
  have backoff : rawPodInfo.key ∈ p.podBackoffQ := Keyed.mem_of_get (Heap.get_of_peek peeked)
  obtain ⟨notActive, notUnschedulable⟩ := exclusive.notMem_of_mem_podBackoffQ backoff
  refine ⟨backoff, fun q k' => ?_⟩
  by_cases same : k' = rawPodInfo.key <;> cases q <;> simp [holds, same, notUnschedulable]

end Operations

/-! ## The loops -/

section Loops

variable (config : PriorityQueueConfig)

theorem foldl_movePod_keeps (now : ℤ) (event : ClusterEvent) :
    ∀ (podInfoList : List QueuedPodInfo) (p : PriorityQueue), p.Exclusive →
      (podInfoList.map QueuedPodInfo.key).Nodup →
      (∀ pInfo ∈ podInfoList, pInfo.key ∈ p.unschedulablePods) →
      (podInfoList.foldl (fun p pInfo => p.movePod config now event pInfo) p).Exclusive ∧
        Confined p (podInfoList.foldl (fun p pInfo => p.movePod config now event pInfo) p) fun _ => False := by
  intro podInfoList
  induction podInfoList with
  | nil => exact fun p exclusive _ _ => ⟨exclusive, .refl⟩
  | cons pInfo rest ih =>
    intro p exclusive distinct listed
    have queued : pInfo.key ∈ p.unschedulablePods := listed pInfo List.mem_cons_self
    obtain ⟨notActive, notBackoff⟩ := exclusive.notMem_of_mem_unschedulablePods queued
    obtain ⟨fresh, distinct⟩ := List.nodup_cons.mp distinct
    -- the round moves `pInfo`'s pod and leaves the pods still to visit in unschedulablePods
    have round : (p.movePod config now event pInfo).Exclusive ∧
        Confined p (p.movePod config now event pInfo) (fun _ => False) ∧
        ∀ other ∈ rest, other.key ∈ (p.movePod config now event pInfo).unschedulablePods := by
      rcases relocated_movePod config p notActive notBackoff with same | ⟨target, relocated⟩
      · rw [same]
        exact ⟨exclusive, .refl, fun other member => listed other (List.mem_cons_of_mem _ member)⟩
      · refine ⟨relocated.exclusive exclusive,
          relocated.confined_of_queued ⟨.unschedulablePods, by simpa [holds] using queued⟩, ?_⟩
        intro other member
        have distinctKey : other.key ≠ pInfo.key := by
          rintro same
          exact fresh (same ▸ List.mem_map_of_mem member)
        have held := relocated.holds_of_ne distinctKey .unschedulablePods
        simpa [holds, listed other (List.mem_cons_of_mem _ member)] using held
    obtain ⟨exclusive', confined, listed'⟩ := round
    obtain ⟨exclusive'', confined'⟩ := ih _ exclusive' distinct listed'
    exact ⟨exclusive'', confined.trans confined'⟩

variable {config} {p : PriorityQueue}

theorem movePodsToActiveOrBackoffQueue_keeps (exclusive : p.Exclusive) {now : ℤ}
    {podInfoList : List QueuedPodInfo} {event : ClusterEvent}
    (distinct : (podInfoList.map QueuedPodInfo.key).Nodup)
    (listed : ∀ pInfo ∈ podInfoList, pInfo.key ∈ p.unschedulablePods) :
    (p.movePodsToActiveOrBackoffQueue config now podInfoList event).Exclusive ∧
      Confined p (p.movePodsToActiveOrBackoffQueue config now podInfoList event) fun _ => False := by
  obtain ⟨exclusive', confined⟩ := foldl_movePod_keeps config now event podInfoList p exclusive distinct listed
  have same : (p.movePodsToActiveOrBackoffQueue config now podInfoList event).holds =
      (podInfoList.foldl (fun p pInfo => p.movePod config now event pInfo) p).holds :=
    holds_eq_of_queues rfl rfl rfl
  exact ⟨exclusive'.of_holds same, confined.trans (.of_holds same)⟩

theorem visited_unschedulablePods (p : PriorityQueue) {order : MapOrder} (visitsEach : ∀ l, (order l).Perm l)
    (keep : QueuedPodInfo → Bool) :
    (((order p.unschedulablePods.values).filter keep).map QueuedPodInfo.key).Nodup ∧
      ∀ pInfo ∈ (order p.unschedulablePods.values).filter keep, pInfo.key ∈ p.unschedulablePods := by
  have perm := visitsEach p.unschedulablePods.values
  constructor
  · exact (List.filter_sublist.map _).nodup ((perm.map _).nodup_iff.mpr Keyed.nodup_keys_values)
  · intro pInfo member
    exact Keyed.mem_of_mem_values (perm.mem_iff.mp (List.mem_of_mem_filter member))

theorem flushBackoffQCompletedLoop_keeps (now : ℤ) :
    ∀ (fuel : ℕ) (p : PriorityQueue), p.Exclusive →
      (flushBackoffQCompletedLoop config now fuel p).Exclusive ∧
        Confined p (flushBackoffQCompletedLoop config now fuel p) fun _ => False := by
  intro fuel
  induction fuel with
  | zero => exact fun p exclusive => ⟨exclusive, .refl⟩
  | succ fuel ih =>
    intro p exclusive
    rcases peeked : p.podBackoffQ.peek (podsCompareBackoffCompleted config) with _ | rawPodInfo
    · simp only [flushBackoffQCompletedLoop, peeked]
      exact ⟨exclusive, .refl⟩
    by_cases due : getBackoffTime config rawPodInfo > now
    · simp only [flushBackoffQCompletedLoop, peeked, due, if_true]
      exact ⟨exclusive, .refl⟩
    rcases taken : p.podBackoffQ.pop (podsCompareBackoffCompleted config) with err | ⟨popped, podBackoffQ⟩
    · simp only [flushBackoffQCompletedLoop, peeked, due, if_false, taken]
      exact ⟨exclusive, .refl⟩
    obtain ⟨peeked', rfl⟩ := Heap.pop_eq taken
    obtain rfl : popped = rawPodInfo := Option.some.inj (peeked'.symm.trans peeked)
    simp only [flushBackoffQCompletedLoop, peeked, due, if_false, taken]
    obtain ⟨backoff, relocated⟩ := relocated_flushRound config p exclusive peeked
    obtain ⟨exclusive', confined⟩ := ih _ (relocated.exclusive exclusive)
    exact ⟨exclusive', (relocated.confined_of_queued ⟨.podBackoffQ, by simpa [holds] using backoff⟩).trans confined⟩

theorem activatePods_keeps (exclusive : p.Exclusive) (pods : List Pod) :
    (p.activatePods pods).Exclusive ∧ Confined p (p.activatePods pods) fun _ => False := by
  -- the loop carries the queue and whether a pod was activated
  suffices loop : ∀ (state : PriorityQueue × Bool), state.1.Exclusive →
      let final := pods.foldl (fun (state : PriorityQueue × Bool) pod =>
        let activated := state.1.activate pod
        (activated.1, state.2 || activated.2)) state
      final.1.Exclusive ∧ Confined state.1 final.1 fun _ => False from
    loop (p, false) exclusive
  induction pods with
  | nil => exact fun state exclusive => ⟨exclusive, .refl⟩
  | cons pod rest ih =>
    intro state exclusive
    rw [List.foldl_cons]
    have round : (state.1.activate pod).1.Exclusive ∧ Confined state.1 (state.1.activate pod).1 fun _ => False := by
      rcases relocated_activate state.1 pod with same | ⟨queued, relocated⟩
      · rw [same]
        exact ⟨exclusive, .refl⟩
      · exact ⟨relocated.exclusive exclusive, relocated.confined_of_queued queued⟩
    obtain ⟨exclusive', confined'⟩ :=
      ih ((state.1.activate pod).1, state.2 || (state.1.activate pod).2) round.1
    exact ⟨exclusive', round.2.trans confined'⟩

end Loops

end PriorityQueue

/-! ## The queue under its callers -/

/-- A call on the queue, with the clock's reading where the call reads it and the order in
which a loop over unschedulablePods visits it. -/
inductive QueueEvent where
  | add (now : ℤ) (pod : Pod)
  /-- The informer passes the old object, under the new one's namespace and name. -/
  | update (now : ℤ) (oldPod newPod : Pod) (sameKey : oldPod.key = newPod.key)
  | delete (pod : Pod)
  | pop
  | addUnschedulableIfNotPresent (now : ℤ) (pInfo : QueuedPodInfo) (podSchedulingCycle : ℤ)
  | activate (pods : List Pod)
  | moveAllToActiveOrBackoffQueue (now : ℤ) (event : ClusterEvent) (preCheck : Option (Pod → Bool))
      (order : MapOrder) (visitsEach : ∀ l, (order l).Perm l)
  | assignedPodAdded (now : ℤ) (pod : Pod) (nsLabels : Labels) (order : MapOrder)
      (visitsEach : ∀ l, (order l).Perm l)
  | assignedPodUpdated (now : ℤ) (pod : Pod) (nsLabels : Labels) (order : MapOrder)
      (visitsEach : ∀ l, (order l).Perm l)
  | flushBackoffQCompleted (now : ℤ)
  | flushUnschedulablePodsLeftover (now : ℤ) (order : MapOrder) (visitsEach : ∀ l, (order l).Perm l)
  | close

/-- The pod a call puts into the queue whether or not it was there. -/
def QueueEvent.addedKey : QueueEvent → Option PodKey
  | .add _ pod => some pod.key
  | .update _ _ newPod _ => some newPod.key
  | .addUnschedulableIfNotPresent _ pInfo _ => some pInfo.key
  | _ => none

section System

variable (config : PriorityQueueConfig)

/-- One call; none while `Pop` blocks. A call that returns an error leaves the queue as it was. -/
def PriorityQueue.step (p : PriorityQueue) : QueueEvent → Option PriorityQueue
  | .add now pod => some (p.add now pod)
  | .update now oldPod newPod _ => p.update config now (some oldPod) newPod
  | .delete pod => some (p.delete pod)
  | .pop => (p.pop config).map fun
      | .ok (_, popped) => popped
      | .error _ => p
  | .addUnschedulableIfNotPresent now pInfo podSchedulingCycle =>
    match p.addUnschedulableIfNotPresent now pInfo podSchedulingCycle with
    | .ok added => some added
    | .error _ => some p
  | .activate pods => some (p.activatePods pods)
  | .moveAllToActiveOrBackoffQueue now event preCheck order _ =>
    some (p.moveAllToActiveOrBackoffQueue config now event preCheck order)
  | .assignedPodAdded now pod nsLabels order _ => some (p.assignedPodAdded config now pod nsLabels order)
  | .assignedPodUpdated now pod nsLabels order _ => some (p.assignedPodUpdated config now pod nsLabels order)
  | .flushBackoffQCompleted now => some (p.flushBackoffQCompleted config now)
  | .flushUnschedulablePodsLeftover now order _ => some (p.flushUnschedulablePodsLeftover config now order)
  | .close => some p.close

def queueSystem : System PriorityQueue QueueEvent :=
  System.ofPartial (· = newPriorityQueue) (PriorityQueue.step config)

namespace PriorityQueue

variable {config} {p p' : PriorityQueue}

theorem exclusive_newPriorityQueue : newPriorityQueue.Exclusive := by
  intro k q q' held
  cases q <;> simp [holds, newPriorityQueue] at held

theorem step_keeps (exclusive : p.Exclusive) {e : QueueEvent} (stepped : p.step config e = some p') :
    p'.Exclusive ∧ Confined p p' fun k => e.addedKey = some k := by
  -- the loops and the calls that move queued pods queue nothing new
  have moved : ∀ {p''}, p''.Exclusive ∧ Confined p p'' (fun _ => False) →
      p''.Exclusive ∧ Confined p p'' fun k => e.addedKey = some k :=
    fun kept => ⟨kept.1, kept.2.mono fun _ => False.elim⟩
  cases e with
  | add now pod =>
    cases stepped
    have relocated := relocated_add p now pod
    exact ⟨relocated.exclusive exclusive, relocated.confined.mono fun k same => by simp [QueueEvent.addedKey, same]⟩
  | update now oldPod newPod sameKey =>
    obtain ⟨target, relocated⟩ := relocated_update config p exclusive sameKey stepped
    exact ⟨relocated.exclusive exclusive, relocated.confined.mono fun k same => by simp [QueueEvent.addedKey, same]⟩
  | delete pod =>
    cases stepped
    have relocated := relocated_delete p exclusive pod
    exact moved ⟨relocated.exclusive exclusive, relocated.confined_of_none⟩
  | pop =>
    rcases popped : p.pop config with _ | (err | ⟨pInfo, popped'⟩)
    · simp [step, popped] at stepped
    · -- a closed, empty queue returns its error
      simp only [step, popped, Option.map_some, Option.some.injEq] at stepped
      subst stepped
      exact ⟨exclusive, .refl⟩
    · simp only [step, popped, Option.map_some, Option.some.injEq] at stepped
      subst stepped
      exact moved ⟨(relocated_pop config p exclusive popped).2.exclusive exclusive,
        (relocated_pop config p exclusive popped).2.confined_of_none⟩
  | addUnschedulableIfNotPresent now pInfo podSchedulingCycle =>
    rcases added : p.addUnschedulableIfNotPresent now pInfo podSchedulingCycle with err | added'
    · simp only [step, added, Option.some.injEq] at stepped
      subst stepped
      exact ⟨exclusive, .refl⟩
    · simp only [step, added, Option.some.injEq] at stepped
      subst stepped
      have relocated := relocated_addUnschedulableIfNotPresent p added
      exact ⟨relocated.exclusive exclusive,
        relocated.confined.mono fun k same => by simp [QueueEvent.addedKey, same]⟩
  | activate pods =>
    cases stepped
    exact moved (activatePods_keeps exclusive pods)
  | moveAllToActiveOrBackoffQueue now event preCheck order visitsEach =>
    cases stepped
    obtain ⟨distinct, listed⟩ := visited_unschedulablePods p visitsEach _
    exact moved (movePodsToActiveOrBackoffQueue_keeps exclusive distinct listed)
  | assignedPodAdded now pod nsLabels order visitsEach =>
    cases stepped
    obtain ⟨distinct, listed⟩ := visited_unschedulablePods p visitsEach _
    exact moved (movePodsToActiveOrBackoffQueue_keeps exclusive distinct listed)
  | assignedPodUpdated now pod nsLabels order visitsEach =>
    cases stepped
    obtain ⟨distinct, listed⟩ := visited_unschedulablePods p visitsEach _
    exact moved (movePodsToActiveOrBackoffQueue_keeps exclusive distinct listed)
  | flushBackoffQCompleted now =>
    cases stepped
    exact moved (flushBackoffQCompletedLoop_keeps now _ p exclusive)
  | flushUnschedulablePodsLeftover now order visitsEach =>
    cases stepped
    dsimp only [flushUnschedulablePodsLeftover]
    split_ifs
    · obtain ⟨distinct, listed⟩ := visited_unschedulablePods p visitsEach _
      exact moved (movePodsToActiveOrBackoffQueue_keeps exclusive distinct listed)
    · exact ⟨exclusive, .refl⟩
  | close =>
    cases stepped
    have same : p.close.holds = p.holds := holds_eq_of_queues rfl rfl rfl
    exact ⟨exclusive.of_holds same, .of_holds same⟩

theorem exclusive_invariant : (queueSystem config).Invariant Exclusive :=
  System.Inductive.invariant
    { init := fun _ initial => initial ▸ exclusive_newPriorityQueue
      step := fun _ _ _ exclusive stepped => (step_keeps exclusive stepped).1 }

theorem runPartial_keeps_out {k : PodKey} (events : List QueueEvent) :
    ∀ {p after : PriorityQueue}, p.Exclusive → (∀ q, p.holds q k = false) →
      (∀ e ∈ events, e.addedKey ≠ some k) →
      System.runPartial (PriorityQueue.step config) p events = some after → ∀ q, after.holds q k = false := by
  induction events with
  | nil =>
    intro p after _ out _ ran
    cases ran
    exact out
  | cons e rest ih =>
    intro p after exclusive out notAdded ran
    simp only [System.runPartial, Option.bind_eq_some_iff] at ran
    obtain ⟨next, stepped, ran⟩ := ran
    obtain ⟨exclusive', confined⟩ := step_keeps exclusive stepped
    -- the call queues the pod only if it was queued or the call adds it
    have out' : ∀ q, next.holds q k = false := by
      intro q
      by_contra held
      rcases confined q k (by simpa using held) with ⟨q', held'⟩ | fresh
      · simp [out q'] at held'
      · exact notAdded e List.mem_cons_self fresh
    exact ih exclusive' out' (fun e' member => notAdded e' (List.mem_cons_of_mem e member)) ran

end PriorityQueue

end System

/-- The queue keeps every pod, by namespace and name, in at most one of activeQ, podBackoffQ and
unschedulablePods, and a pod `Pop` returns is in none of them through any calls that do not add
it again. -/
theorem scheduling_queue_pods_exclusive (config : PriorityQueueConfig) {p : PriorityQueue}
    (reachable : (queueSystem config).Reachable p) :
    p.Exclusive ∧
      ∀ pInfo popped, p.pop config = some (.ok (pInfo, popped)) →
        ∀ events after, (∀ e ∈ events, e.addedKey ≠ some pInfo.key) →
          System.runPartial (PriorityQueue.step config) popped events = some after →
          ∀ q, after.holds q pInfo.key = false := by
  have exclusive := PriorityQueue.exclusive_invariant p reachable
  refine ⟨exclusive, fun pInfo popped taken events after notAdded ran => ?_⟩
  obtain ⟨_, relocated⟩ := PriorityQueue.relocated_pop config p exclusive taken
  have out : ∀ q, popped.holds q pInfo.key = false := by
    intro q
    rw [relocated, if_pos rfl]
    simp
  exact PriorityQueue.runPartial_keeps_out events (relocated.exclusive exclusive) out notAdded ran

namespace Runs

/-- The defaults of `NewPriorityQueue` with the `PrioritySort` plugin and no plugin registered
for an event. -/
def defaultConfig : PriorityQueueConfig where
  lessFn := prioritySortLess
  podInitialBackoffDuration := 1000000000
  podMaxBackoffDuration := 10000000000
  podMaxInUnschedulablePodsDuration := 300000000000
  clusterEventMap := []

def web : Pod := { «namespace» := "default", name := "web", uid := "web-1" }

def batch : Pod := { «namespace» := "default", name := "batch", uid := "batch-1", spec := { priority := some 10 } }

/-- Two pods are added, the higher-priority one is popped, fails, and returns as unschedulable. -/
def scheduled : List QueueEvent :=
  [.add 0 web, .add 1 batch, .pop,
    .addUnschedulableIfNotPresent 2 (newQueuedPodInfo 1 batch ["NodeResourcesFit"]) 1]

def afterFailure : PriorityQueue :=
  (System.runPartial (PriorityQueue.step defaultConfig) newPriorityQueue scheduled).get (by decide +kernel)

theorem afterFailure_reachable : (queueSystem defaultConfig).Reachable afterFailure :=
  System.reachable_of_runPartial rfl scheduled (Option.some_get _).symm

-- the higher-priority pod was popped first and is back as unschedulable; the other waits
example : afterFailure.holds .unschedulablePods batch.key = true ∧ afterFailure.holds .activeQ web.key = true ∧
    afterFailure.holds .activeQ batch.key = false := by
  decide +kernel

theorem scheduling_queue_pods_exclusive_after_failure :
    (queueSystem defaultConfig).Reachable afterFailure ∧
      afterFailure.Exclusive ∧
        ∀ pInfo popped, afterFailure.pop defaultConfig = some (.ok (pInfo, popped)) →
          ∀ events after, (∀ e ∈ events, e.addedKey ≠ some pInfo.key) →
            System.runPartial (PriorityQueue.step defaultConfig) popped events = some after →
            ∀ q, after.holds q pInfo.key = false :=
  ⟨afterFailure_reachable, scheduling_queue_pods_exclusive defaultConfig afterFailure_reachable⟩

end Runs

end Kubernetes.Scheduler
