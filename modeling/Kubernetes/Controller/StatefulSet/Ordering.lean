import Kubernetes.Controller.StatefulSet.Control
import Kubernetes.Library.Transition

/-! What one `OrderedReady` sync can write.

Under `OrderedReady` each walk of the sync returns at the first pod it acts on or waits for. So
a sync writes, besides pod and claim updates, the writes of the one replica the walk over the
replicas stopped at, or, once every replica runs and is ready, one deletion: of the condemned
pod with the highest ordinal, or of a replica for the rolling update.
-/

set_option autoImplicit false

namespace Kubernetes.Controller.Statefulset

def PodControlCall.created : PodControlCall → Option Pod
  | .create pod => some pod
  | _ => none

def PodControlCall.deleted : PodControlCall → Option Pod
  | .delete pod => some pod
  | _ => none

/-- The pods a list of calls creates. -/
def creates (calls : List PodControlCall) : List Pod := calls.filterMap PodControlCall.created

/-- The pods a list of calls deletes. -/
def deletes (calls : List PodControlCall) : List Pod := calls.filterMap PodControlCall.deleted

@[simp] theorem creates_nil : creates [] = [] := rfl

@[simp] theorem deletes_nil : deletes [] = [] := rfl

@[simp] theorem creates_append (calls calls' : List PodControlCall) :
    creates (calls ++ calls') = creates calls ++ creates calls' := List.filterMap_append

@[simp] theorem deletes_append (calls calls' : List PodControlCall) :
    deletes (calls ++ calls') = deletes calls ++ deletes calls' := List.filterMap_append

@[simp] theorem creates_cons (c : PodControlCall) (calls : List PodControlCall) :
    creates (c :: calls) = (c.created.toList ++ creates calls) := by
  cases c <;> rfl

@[simp] theorem deletes_cons (c : PodControlCall) (calls : List PodControlCall) :
    deletes (c :: calls) = (c.deleted.toList ++ deletes calls) := by
  cases c <;> rfl

/-- Calls that neither create nor delete a pod. -/
def Quiet (calls : List PodControlCall) : Prop := creates calls = [] ∧ deletes calls = []

theorem Quiet.nil : Quiet [] := ⟨rfl, rfl⟩

theorem Quiet.append {calls calls' : List PodControlCall} (quiet : Quiet calls) (quiet' : Quiet calls') :
    Quiet (calls ++ calls') := by
  simp [Quiet, quiet.1, quiet.2, quiet'.1, quiet'.2]

theorem quiet_update (pod : Pod) : Quiet [.update pod] := ⟨rfl, rfl⟩

theorem quiet_updatePodClaim (pod : Pod) : Quiet [.updatePodClaim pod] := ⟨rfl, rfl⟩

section Walks

variable (env : Env)

/-- A replica the walk over the replicas passes under `OrderedReady`. -/
structure Passing (pod : Pod) : Prop where
  not_terminating : isTerminating pod = false
  running_and_ready : isRunningAndReady pod = true
  available : env.features.statefulSetMinReadySeconds = true →
    isRunningAndAvailable pod env.set.minReadySeconds env.now = true

/-- The writes of the round at ordinal `i` in which the walk over the replicas stops. -/
inductive StopCalls (i : ℕ) (replica : Pod) : List PodControlCall → Prop
  | wait : StopCalls i replica []
  | update : StopCalls i replica [.update replica]
  | create : isCreated replica = false → StopCalls i replica [.create replica]
  | delete : isFailed replica = true → StopCalls i replica [.delete replica]
  | recreate : isFailed replica = true →
      StopCalls i replica [.delete replica, .create (newVersionedStatefulSetPod env.set env.currentRevision env.updateRevision i)]

theorem Passing.running {pod : Pod} (passing : Passing env pod) : pod.phase = .running := by
  have ready := passing.running_and_ready
  simp only [isRunningAndReady, Bool.and_eq_true, beq_iff_eq] at ready
  exact ready.1

theorem Passing.created {pod : Pod} (passing : Passing env pod) : isCreated pod = true := by
  simp [isCreated, passing.running]

theorem Passing.not_failed {pod : Pod} (passing : Passing env pod) : isFailed pod = false := by
  simp [isFailed, passing.running]

variable {env} {i : ℕ} {replica replica' : Pod} {s s' : Sync} {result : SyncResult}

theorem podClaimCheck_error (checked : podClaimCheck env replica s = .error result) : result.calls = s.calls := by
  unfold podClaimCheck at checked
  split_ifs at checked
  split at checked <;> cases checked <;> rfl

theorem createReplica_ok (created : createReplica env true replica s = .ok (s', replica')) : False := by
  rcases checked : podClaimCheck env replica s with stopped | ⟨⟩
  · simp [createReplica, checked] at created
  · rcases answer : env.podControl.createStatefulPod replica with _ | err <;>
      simp [createReplica, checked, answer] at created

theorem createReplica_error (created : createReplica env true replica s = .error result) :
    result.calls = s.calls ∨ result.calls = s.calls ++ [.create replica] := by
  rcases checked : podClaimCheck env replica s with stopped | ⟨⟩
  · -- the claim check stops the round before the create
    simp only [createReplica, checked, Except.error.injEq] at created
    subst created
    exact Or.inl (podClaimCheck_error checked)
  · right
    rcases answer : env.podControl.createStatefulPod replica with _ | err <;>
      simp [createReplica, checked, answer, Except.error.injEq] at created <;>
      (subst created; rfl)

theorem checkReplica_ok (checked : checkReplica env true replica s = .ok (s', replica')) :
    replica' = replica ∧ Passing env replica ∧ ∃ updates, s'.calls = s.calls ++ updates ∧ Quiet updates := by
  unfold checkReplica at checked
  split_ifs at checked with terminating unready unavailable matched
  · cases checked
    exact ⟨rfl, ⟨by simpa using terminating, by simpa using unready, fun gate => by simpa [gate] using unavailable⟩,
      [], by simp, Quiet.nil⟩
  · split at checked
    · cases checked
    · cases checked
      exact ⟨rfl, ⟨by simpa using terminating, by simpa using unready, fun gate => by simpa [gate] using unavailable⟩,
        [.update replica], rfl, quiet_update replica⟩

theorem checkReplica_error (checked : checkReplica env true replica s = .error result) :
    result.calls = s.calls ∨ result.calls = s.calls ++ [.update replica] := by
  unfold checkReplica at checked
  split_ifs at checked
  · cases checked; exact Or.inl rfl
  · cases checked; exact Or.inl rfl
  · cases checked; exact Or.inl rfl
  · split at checked
    · cases checked; exact Or.inr rfl
    · cases checked

theorem recreateFailed_ok (recreated : recreateFailed env i replica s = .ok (s', replica')) :
    (isFailed replica = false ∧ s' = s ∧ replica' = replica) ∨
      (isFailed replica = true ∧ s'.calls = s.calls ++ [.delete replica] ∧
        replica' = newVersionedStatefulSetPod env.set env.currentRevision env.updateRevision i) := by
  unfold recreateFailed at recreated
  split_ifs at recreated with failed
  · right
    split at recreated
    · cases recreated
    · cases recreated
      exact ⟨failed, rfl, rfl⟩
  · cases recreated
    exact Or.inl ⟨by simpa using failed, rfl, rfl⟩

theorem recreateFailed_error (recreated : recreateFailed env i replica s = .error result) :
    isFailed replica = true ∧ result.calls = s.calls ++ [.delete replica] := by
  unfold recreateFailed at recreated
  split_ifs at recreated with failed
  split at recreated
  · cases recreated
    exact ⟨failed, rfl⟩
  · cases recreated

theorem examineReplica_ok (examined : examineReplica env true i replica s = .ok (s', replica')) :
    replica' = replica ∧ Passing env replica ∧ ∃ updates, s'.calls = s.calls ++ updates ∧ Quiet updates := by
  rcases recreated : recreateFailed env i replica s with result | ⟨s₁, replica₁⟩
  · simp [examineReplica, recreated] at examined
  simp only [examineReplica, recreated] at examined
  split_ifs at examined with fresh
  · exact (createReplica_ok examined).elim
  -- a recreated replica is a new pod, which the round would have created
  have created : isCreated replica₁ = true := by simpa using fresh
  rcases recreateFailed_ok recreated with ⟨_, rfl, rfl⟩ | ⟨_, _, rfl⟩
  · exact checkReplica_ok examined
  · simp at created

theorem examineReplica_error (examined : examineReplica env true i replica s = .error result) :
    ∃ tail, result.calls = s.calls ++ tail ∧ StopCalls env i replica tail := by
  rcases recreated : recreateFailed env i replica s with stopped | ⟨s₁, replica₁⟩
  · simp only [examineReplica, recreated, Except.error.injEq] at examined
    subst examined
    obtain ⟨failed, calls⟩ := recreateFailed_error recreated
    exact ⟨_, calls, .delete failed⟩
  simp only [examineReplica, recreated] at examined
  rcases recreateFailed_ok recreated with ⟨_, rfl, rfl⟩ | ⟨failed, deleted, rfl⟩
  · split_ifs at examined with fresh
    · have fresh : isCreated replica₁ = false := by simpa using fresh
      rcases createReplica_error examined with calls | calls
      · exact ⟨[], by simp [calls], .wait⟩
      · exact ⟨_, calls, .create fresh⟩
    · rcases checkReplica_error examined with calls | calls
      · exact ⟨[], by simp [calls], .wait⟩
      · exact ⟨_, calls, .update⟩
  · -- the failed replica was deleted, and its replacement is created in the same round
    rw [if_pos (by simp)] at examined
    rcases createReplica_error examined with calls | calls
    · exact ⟨_, calls.trans deleted, .delete failed⟩
    · exact ⟨_, by simp [calls, deleted], .recreate failed⟩

theorem examineReplicas_ok : ∀ {i : ℕ} {replicas replicas' : List Pod} {s s' : Sync},
    examineReplicas env true i replicas s = .ok (s', replicas') →
    replicas' = replicas ∧ (∀ pod ∈ replicas, Passing env pod) ∧
      ∃ updates, s'.calls = s.calls ++ updates ∧ Quiet updates
  | _, [], _, _, _, walked => by
    cases walked
    exact ⟨rfl, by simp, [], by simp, Quiet.nil⟩
  | i, replica :: rest, replicas', s, s', walked => by
    rcases examined : examineReplica env true i replica s with result | ⟨s₁, replica₁⟩
    · simp [examineReplicas, examined] at walked
    rcases walkedRest : examineReplicas env true (i + 1) rest s₁ with result | ⟨s₂, rest₂⟩
    · simp [examineReplicas, examined, walkedRest] at walked
    simp only [examineReplicas, examined, walkedRest, Except.ok.injEq, Prod.mk.injEq] at walked
    obtain ⟨rfl, rfl⟩ := walked
    obtain ⟨rfl, passing, updates, calls, quiet⟩ := examineReplica_ok examined
    obtain ⟨rfl, passingRest, updates', calls', quiet'⟩ := examineReplicas_ok walkedRest
    refine ⟨rfl, ?_, updates ++ updates', by simp [calls', calls], quiet.append quiet'⟩
    simpa [passing] using passingRest

theorem examineReplicas_error : ∀ {i : ℕ} {replicas : List Pod} {s : Sync} {result : SyncResult},
    examineReplicas env true i replicas s = .error result →
    ∃ passed stopped rest, replicas = passed ++ stopped :: rest ∧ (∀ pod ∈ passed, Passing env pod) ∧
      ∃ updates tail, result.calls = s.calls ++ updates ++ tail ∧ Quiet updates ∧
        StopCalls env (i + passed.length) stopped tail
  | _, [], _, _, walked => by cases walked
  | i, replica :: rest, s, result, walked => by
    rcases examined : examineReplica env true i replica s with stopped | ⟨s₁, replica₁⟩
    · -- the walk stops at this replica
      simp only [examineReplicas, examined, Except.error.injEq] at walked
      subst walked
      obtain ⟨tail, calls, stop⟩ := examineReplica_error examined
      exact ⟨[], replica, rest, rfl, by simp, [], tail, by simp [calls], Quiet.nil, stop⟩
    obtain ⟨rfl, passing, updates, calls, quiet⟩ := examineReplica_ok examined
    rcases walkedRest : examineReplicas env true (i + 1) rest s₁ with stopped | ⟨s₂, rest₂⟩
    · simp only [examineReplicas, examined, walkedRest, Except.error.injEq] at walked
      subst walked
      obtain ⟨passed, stopped, rest', split, passingRest, updates', tail, calls', quiet', stop⟩ :=
        examineReplicas_error walkedRest
      refine ⟨replica₁ :: passed, stopped, rest', by simp [split], ?_, updates ++ updates', tail,
        by simp [calls', calls], quiet.append quiet', ?_⟩
      · simpa [passing] using passingRest
      · simpa [Nat.add_assoc, Nat.add_comm 1] using stop
    · simp [examineReplicas, examined, walkedRest] at walked

end Walks

/-! ## The replicas and the condemned pods -/

section Sorting

variable {env : Env} {pods : List Pod}

theorem length_placeReplica (replicaCount : ℕ) (slots : List (Option Pod)) (pod : Pod) :
    (placeReplica replicaCount slots pod).length = slots.length := by
  simp only [placeReplica]
  split_ifs <;> simp

theorem placeReplica_slot {replicaCount : ℕ} {slots : List (Option Pod)} {pod : Pod}
    (slotted : ∀ (j : ℕ) p, slots[j]? = some (some p) → p ∈ pods ∧ getOrdinal p = j) (member : pod ∈ pods) :
    ∀ (j : ℕ) p, (placeReplica replicaCount slots pod)[j]? = some (some p) → p ∈ pods ∧ getOrdinal p = j := by
  intro j p found
  simp only [placeReplica] at found
  split_ifs at found with inRange
  · rw [List.getElem?_set] at found
    split_ifs at found with same
    · cases found
      exact ⟨member, by omega⟩
    · exact slotted j p found
  · exact slotted j p found

@[simp] theorem length_replicasOf : (replicasOf env pods).length = env.set.replicas := by
  have slots := Library.foldl_preserves (placeReplica env.set.replicas) (fun slots => slots.length = env.set.replicas)
    pods (List.replicate env.set.replicas none) (by simp)
    fun pod _ slots sized => by rw [length_placeReplica, sized]
  simp [replicasOf, slots]

theorem replicasOf_slot {j : ℕ} {replica : Pod} (slot : (replicasOf env pods)[j]? = some replica) :
    (replica ∈ pods ∧ getOrdinal replica = j) ∨
      replica = newVersionedStatefulSetPod env.set env.currentRevision env.updateRevision j := by
  have slotted := Library.foldl_preserves (placeReplica env.set.replicas)
    (fun slots => ∀ (j : ℕ) p, slots[j]? = some (some p) → p ∈ pods ∧ getOrdinal p = j)
    pods (List.replicate env.set.replicas none) (by simp [List.getElem?_replicate])
    fun pod member slots slotted => placeReplica_slot slotted member
  simp only [replicasOf, List.getElem?_mapIdx, Option.map_eq_some_iff] at slot
  obtain ⟨filled, found, rfl⟩ := slot
  cases filled with
  | none => exact .inr rfl
  | some pod => exact .inl (slotted j pod found)

theorem replicasOf_mem {j : ℕ} {replica : Pod} (slot : (replicasOf env pods)[j]? = some replica)
    (created : isCreated replica = true) : replica ∈ pods ∧ getOrdinal replica = j := by
  rcases replicasOf_slot slot with found | rfl
  · exact found
  · simp at created

theorem slot_of_split {passed rest : List Pod} {replica : Pod}
    (split : replicasOf env pods = passed ++ replica :: rest) :
    (replicasOf env pods)[passed.length]? = some replica := by
  simp [split]

instance : Std.Total ascendingOrdinal := ⟨fun pod other => le_total (getOrdinal pod) (getOrdinal other)⟩

instance : IsTrans Pod ascendingOrdinal := ⟨fun _ _ _ => le_trans⟩

theorem mem_condemnedOf {pod : Pod} :
    pod ∈ condemnedOf env pods ↔ pod ∈ pods ∧ (env.set.replicas : ℤ) ≤ getOrdinal pod := by
  simp [condemnedOf, List.mem_insertionSort]

theorem condemnedOf_top {target : Pod} {rest : List Pod} (top : (condemnedOf env pods).reverse = target :: rest) :
    ∀ pod ∈ condemnedOf env pods, getOrdinal pod ≤ getOrdinal target := by
  have sorted := List.pairwise_insertionSort ascendingOrdinal
    (pods.filter fun pod => decide ((env.set.replicas : ℤ) ≤ getOrdinal pod))
  rw [← condemnedOf, ← List.reverse_reverse (condemnedOf env pods), List.pairwise_reverse, top,
    List.pairwise_cons] at sorted
  intro pod member
  rw [← List.mem_reverse, top, List.mem_cons] at member
  rcases member with rfl | later
  · exact le_refl _
  · exact sorted.1 pod later

end Sorting

/-! ## The rest of the sync -/

section Tail

variable {env : Env}

/-- The calls of a part of the sync, whether it returned early or went on. -/
def syncCalls : Except SyncResult Sync → List PodControlCall
  | .error result => result.calls
  | .ok s => s.calls

theorem updateCondemnedClaims_quiet : ∀ (condemned : List Pod) (s : Sync),
    ∃ updates, syncCalls (updateCondemnedClaims env condemned s) = s.calls ++ updates ∧ Quiet updates
  | [], s => ⟨[], by simp [updateCondemnedClaims, syncCalls], Quiet.nil⟩
  | pod :: rest, s => by
    cases matched : env.podControl.claimsMatchRetentionPolicy pod with
    | error err => exact ⟨[], by simp [updateCondemnedClaims, matched, syncCalls], Quiet.nil⟩
    | ok policyMatched =>
      cases policyMatched
      · cases answer : env.podControl.updatePodClaimForRetentionPolicy pod with
        | some err =>
          exact ⟨[.updatePodClaim pod], by simp [updateCondemnedClaims, matched, answer, syncCalls],
            quiet_updatePodClaim pod⟩
        | none =>
          obtain ⟨updates, calls, quiet⟩ := updateCondemnedClaims_quiet rest (s.call (.updatePodClaim pod))
          refine ⟨.updatePodClaim pod :: updates, ?_, (quiet_updatePodClaim pod).append quiet⟩
          simp [updateCondemnedClaims, matched, answer, calls]
      · obtain ⟨updates, calls, quiet⟩ := updateCondemnedClaims_quiet rest s
        exact ⟨updates, by simp [updateCondemnedClaims, matched, calls], quiet⟩

theorem scaleDown_cons (firstUnhealthyPod : Option Pod) (target : Pod) (rest : List Pod) (s : Sync) :
    ∃ result, scaleDown env true firstUnhealthyPod (target :: rest) s = .error result ∧
      (result.calls = s.calls ∨ result.calls = s.calls ++ [.delete target]) := by
  simp only [scaleDown]
  split_ifs
  · exact ⟨_, rfl, .inl rfl⟩
  · exact ⟨_, rfl, .inl rfl⟩
  · exact ⟨_, rfl, .inl rfl⟩
  · split
    · exact ⟨_, rfl, .inr rfl⟩
    · exact ⟨_, rfl, .inr rfl⟩

theorem rollingUpdate_calls (updateMin : ℤ) : ∀ (replicas : List (Pod × ℕ)) (s : Sync),
    (rollingUpdate env updateMin replicas s).calls = s.calls ∨
      ∃ replica t, (replica, t) ∈ replicas ∧
        (rollingUpdate env updateMin replicas s).calls = s.calls ++ [.delete replica]
  | [], _ => .inl rfl
  | (replica, t) :: rest, s => by
    simp only [rollingUpdate]
    split_ifs
    · exact .inl rfl
    · exact .inr ⟨replica, t, by simp, rfl⟩
    · exact .inl rfl
    · rcases rollingUpdate_calls updateMin rest s with same | ⟨other, t', member, calls⟩
      · exact .inl same
      · exact .inr ⟨other, t', by simp [member], calls⟩

theorem claimsUpdated_quiet (gate : Bool) (condemned : List Pod) (s : Sync) :
    ∃ updates, syncCalls (if gate = true then updateCondemnedClaims env condemned s else .ok s) =
      s.calls ++ updates ∧ Quiet updates := by
  split
  · exact updateCondemnedClaims_quiet condemned s
  · exact ⟨[], by simp [syncCalls], Quiet.nil⟩

end Tail

/-! ## One sync -/

section Sync

variable (env : Env)

/-- The pods one `OrderedReady` sync creates and deletes: those of the round the walk over the
replicas stops in, or, once every replica passes, one condemned pod or one replica to update. -/
inductive Writes (pods : List Pod) : List Pod → List Pod → Prop
  | none : Writes pods [] []
  | create {passed rest : List Pod} {replica : Pod} : replicasOf env pods = passed ++ replica :: rest →
      (∀ pod ∈ passed, Passing env pod) → isCreated replica = false → Writes pods [replica] []
  | delete {passed rest : List Pod} {replica : Pod} : replicasOf env pods = passed ++ replica :: rest →
      isFailed replica = true → Writes pods [] [replica]
  | recreate {passed rest : List Pod} {replica : Pod} : replicasOf env pods = passed ++ replica :: rest →
      (∀ pod ∈ passed, Passing env pod) → isFailed replica = true →
      Writes pods [newVersionedStatefulSetPod env.set env.currentRevision env.updateRevision passed.length] [replica]
  | scaleDown {target : Pod} {rest : List Pod} : (∀ pod ∈ replicasOf env pods, Passing env pod) →
      (condemnedOf env pods).reverse = target :: rest → Writes pods [] [target]
  | update {replica : Pod} {t : ℕ} : (∀ pod ∈ replicasOf env pods, Passing env pod) →
      (replica, t) ∈ (replicasOf env pods).zipIdx → Writes pods [] [replica]

variable {env} {pods : List Pod}

theorem StopCalls.writes {passed rest : List Pod} {replica : Pod} {tail : List PodControlCall}
    (stop : StopCalls env passed.length replica tail) (split : replicasOf env pods = passed ++ replica :: rest)
    (passing : ∀ pod ∈ passed, Passing env pod) : Writes env pods (creates tail) (deletes tail) := by
  cases stop with
  | wait => exact .none
  | update => exact .none
  | create fresh => exact .create split passing fresh
  | delete failed => exact .delete split failed
  | recreate failed => exact .recreate split passing failed

theorem updateStatefulSet_writes (pods : List Pod) (policy : env.set.podManagementPolicy = .orderedReady)
    (live : env.set.deletionTimestamp = none) :
    Writes env pods (creates (updateStatefulSet env pods).calls) (deletes (updateStatefulSet env pods).calls) := by
  suffices shape : ∃ updates tail, (updateStatefulSet env pods).calls = updates ++ tail ∧ Quiet updates ∧
      Writes env pods (creates tail) (deletes tail) by
    obtain ⟨updates, tail, calls, quiet, writes⟩ := shape
    rw [calls, creates_append, deletes_append, quiet.1, quiet.2]
    exact writes
  have monotonic : (!allowsBurst env.set) = true := by simp [allowsBurst, policy]
  simp only [updateStatefulSet, live, monotonic, Option.isSome_none, Bool.false_eq_true, ↓reduceIte]
  split
  next result walked =>
    obtain ⟨passed, stopped, rest, split, passing, updates, tail, calls, quiet, stop⟩ := examineReplicas_error walked
    have stop : StopCalls env passed.length stopped tail := by simpa using stop
    exact ⟨updates, tail, by simpa using calls, quiet, stop.writes split passing⟩
  next s replicas walked =>
    obtain ⟨rfl, passing, updates, calls, quiet⟩ := examineReplicas_ok walked
    obtain ⟨claimUpdates, claimCalls, claimQuiet⟩ :=
      claimsUpdated_quiet env.features.statefulSetAutoDeletePVC (condemnedOf env pods) s
    have quietSoFar := quiet.append claimQuiet
    split
    next result claimed =>
      rw [claimed] at claimCalls
      exact ⟨updates ++ claimUpdates, [], by simpa [syncCalls, calls] using claimCalls, quietSoFar, .none⟩
    next s' claimed =>
      rw [claimed] at claimCalls
      simp only [syncCalls] at claimCalls
      rcases top : (condemnedOf env pods).reverse with _ | ⟨target, rest⟩
      · -- nothing to scale down: the update
        simp only [scaleDown]
        split_ifs
        · exact ⟨updates ++ claimUpdates, [], by simp [claimCalls, calls], quietSoFar, .none⟩
        rcases @rollingUpdate_calls env (env.set.partition.getD 0) (replicasOf env pods).zipIdx.reverse s' with
          same | ⟨replica, t, member, deleted⟩
        · exact ⟨updates ++ claimUpdates, [], by simp [same, claimCalls, calls], quietSoFar, .none⟩
        · exact ⟨updates ++ claimUpdates, [.delete replica], by simp [deleted, claimCalls, calls], quietSoFar,
            .update passing (List.mem_reverse.mp member)⟩
      · obtain ⟨result, scaled, scaledCalls⟩ := @scaleDown_cons env
          ((replicasOf env pods ++ condemnedOf env pods).find? fun pod => !isHealthy pod) target rest s'
        rw [scaled]
        rcases scaledCalls with same | deleted
        · exact ⟨updates ++ claimUpdates, [], by simp [same, claimCalls, calls], quietSoFar, .none⟩
        · exact ⟨updates ++ claimUpdates, [.delete target], by simp [deleted, claimCalls, calls], quietSoFar,
            .scaleDown passing top⟩

end Sync

/-! ## What one sync guarantees -/

/-- The ordering guarantees of one `OrderedReady` sync, for pods named for their ordinals. -/
structure OrderedReadyGuarantees (env : Env) (pods : List Pod) (calls : List PodControlCall) : Prop where
  atMostOneCreate : (creates calls).length ≤ 1
  atMostOneDelete : (deletes calls).length ≤ 1
  -- a sync that creates and deletes replaces a failed pod by a new pod of its ordinal
  recreates : ∀ created ∈ creates calls, ∀ deleted ∈ deletes calls, isFailed deleted = true ∧
    ∃ i : ℕ, created.name = getPodName env.set i ∧ deleted.name = getPodName env.set i
  createsInOrder : ∀ created ∈ creates calls, ∃ i : ℕ, created.name = getPodName env.set i ∧
    ∀ j < i, ∃ pod ∈ pods, pod.name = getPodName env.set j ∧ isFailed pod = false ∧ Passing env pod
  scalesDownFromTop : ∀ deleted ∈ deletes calls, ∀ k : ℕ, deleted.name = getPodName env.set k →
    env.set.replicas ≤ k →
      (∀ pod ∈ pods, ∀ j : ℕ, pod.name = getPodName env.set j → j ≤ k) ∧
      ∀ j < env.set.replicas, ∃ pod ∈ pods, pod.name = getPodName env.set j ∧ isFailed pod = false ∧
        Passing env pod

section Named

variable {env : Env} {pods : List Pod}
  (named : ∀ pod ∈ pods, ∃ k : ℕ, k < 2 ^ 31 ∧ pod.name = getPodName env.set k)
include named

theorem ordinal_of_name {pod : Pod} {j : ℕ} (member : pod ∈ pods) (name : pod.name = getPodName env.set j) :
    getOrdinal pod = j := by
  obtain ⟨k, small, named⟩ := named pod member
  rw [getOrdinal_of_name small named, getPodName_inj env.set (named.symm.trans name)]

theorem replica_name {j : ℕ} {replica : Pod} (slot : (replicasOf env pods)[j]? = some replica) :
    replica.name = getPodName env.set j := by
  rcases replicasOf_slot slot with ⟨member, ordinal⟩ | rfl
  · obtain ⟨k, small, name⟩ := named replica member
    have same : k = j := by
      have := getOrdinal_of_name small name
      omega
    rw [name, same]
  · simp

theorem passing_slot {j : ℕ} {replica : Pod} (slot : (replicasOf env pods)[j]? = some replica)
    (passing : Passing env replica) :
    ∃ pod ∈ pods, pod.name = getPodName env.set j ∧ isFailed pod = false ∧ Passing env pod :=
  ⟨replica, (replicasOf_mem slot passing.created).1, replica_name named slot, passing.not_failed, passing⟩

theorem replica_ordinal_lt {j k : ℕ} {replica : Pod} (slot : (replicasOf env pods)[j]? = some replica)
    (name : replica.name = getPodName env.set k) : k < env.set.replicas := by
  have below : j < (replicasOf env pods).length := (List.getElem?_eq_some_iff.mp slot).1
  have same : j = k := getPodName_inj env.set ((replica_name named slot).symm.trans name)
  simpa [same] using below

theorem passed_named {passed rest : List Pod} {replica : Pod}
    (split : replicasOf env pods = passed ++ replica :: rest) (passing : ∀ pod ∈ passed, Passing env pod) :
    ∀ j < passed.length, ∃ pod ∈ pods, pod.name = getPodName env.set j ∧ isFailed pod = false ∧
      Passing env pod := by
  intro j below
  have slot : (replicasOf env pods)[j]? = some passed[j] := by
    rw [split, List.getElem?_append_left below, List.getElem?_eq_getElem below]
  exact passing_slot named slot (passing _ (List.getElem_mem below))

theorem replicas_named (passing : ∀ pod ∈ replicasOf env pods, Passing env pod) :
    ∀ j < env.set.replicas, ∃ pod ∈ pods, pod.name = getPodName env.set j ∧ isFailed pod = false ∧
      Passing env pod := by
  intro j below
  have below : j < (replicasOf env pods).length := by simpa using below
  exact passing_slot named (List.getElem?_eq_getElem below) (passing _ (List.getElem_mem below))

variable {created deleted : List Pod}

theorem Writes.recreates (writes : Writes env pods created deleted) :
    ∀ pod ∈ created, ∀ gone ∈ deleted, isFailed gone = true ∧
      ∃ i : ℕ, pod.name = getPodName env.set i ∧ gone.name = getPodName env.set i := by
  intro pod made gone removed
  cases writes with
  | recreate split _ failed =>
    rw [List.mem_singleton] at made removed
    subst made removed
    exact ⟨failed, _, by simp, replica_name named (slot_of_split split)⟩
  | create => simp at removed
  | _ => simp at made

theorem Writes.createsInOrder (writes : Writes env pods created deleted) :
    ∀ pod ∈ created, ∃ i : ℕ, pod.name = getPodName env.set i ∧
      ∀ j < i, ∃ pod ∈ pods, pod.name = getPodName env.set j ∧ isFailed pod = false ∧ Passing env pod := by
  intro pod made
  cases writes with
  | create split passing _ =>
    rw [List.mem_singleton] at made
    subst made
    exact ⟨_, replica_name named (slot_of_split split), passed_named named split passing⟩
  | recreate split passing _ =>
    rw [List.mem_singleton] at made
    subst made
    exact ⟨_, by simp, passed_named named split passing⟩
  | _ => simp at made

theorem Writes.scalesDownFromTop (writes : Writes env pods created deleted) :
    ∀ gone ∈ deleted, ∀ k : ℕ, gone.name = getPodName env.set k → env.set.replicas ≤ k →
      (∀ pod ∈ pods, ∀ j : ℕ, pod.name = getPodName env.set j → j ≤ k) ∧
      ∀ j < env.set.replicas, ∃ pod ∈ pods, pod.name = getPodName env.set j ∧ isFailed pod = false ∧
        Passing env pod := by
  intro gone removed k name above
  cases writes with
  | scaleDown passing top =>
    rw [List.mem_singleton] at removed
    subst removed
    have condemned : gone ∈ condemnedOf env pods := by
      rw [← List.mem_reverse, top]
      exact List.mem_cons_self
    have goneOrdinal := ordinal_of_name named (mem_condemnedOf.mp condemned).1 name
    refine ⟨fun pod member j podName => ?_, replicas_named named passing⟩
    have podOrdinal := ordinal_of_name named member podName
    by_cases low : j < env.set.replicas
    · omega
    · have highest := condemnedOf_top top pod (mem_condemnedOf.mpr ⟨member, by omega⟩)
      omega
  | delete split _ =>
    rw [List.mem_singleton] at removed
    subst removed
    exact absurd above (Nat.not_le.mpr (replica_ordinal_lt named (slot_of_split split) name))
  | recreate split _ _ =>
    rw [List.mem_singleton] at removed
    subst removed
    exact absurd above (Nat.not_le.mpr (replica_ordinal_lt named (slot_of_split split) name))
  | update _ member =>
    rw [List.mem_singleton] at removed
    subst removed
    exact absurd above (Nat.not_le.mpr (replica_ordinal_lt named (List.mem_zipIdx_iff_getElem?.mp member) name))
  | _ => simp at removed

end Named

theorem Writes.length_creates {env : Env} {pods created deleted : List Pod} (writes : Writes env pods created deleted) :
    created.length ≤ 1 := by
  cases writes <;> simp

theorem Writes.length_deletes {env : Env} {pods created deleted : List Pod} (writes : Writes env pods created deleted) :
    deleted.length ≤ 1 := by
  cases writes <;> simp

theorem ordered_ready_sync_guarantees (env : Env) (pods : List Pod)
    (policy : env.set.podManagementPolicy = .orderedReady) (live : env.set.deletionTimestamp = none)
    (named : ∀ pod ∈ pods, ∃ k : ℕ, k < 2 ^ 31 ∧ pod.name = getPodName env.set k) :
    OrderedReadyGuarantees env pods (updateStatefulSet env pods).calls := by
  have writes := updateStatefulSet_writes pods policy live
  exact ⟨writes.length_creates, writes.length_deletes, writes.recreates named, writes.createsInOrder named,
    writes.scalesDownFromTop named⟩

namespace Runs

/-- A pod control whose calls all succeed. -/
def succeeding : PodControl where
  createStatefulPod _ := none
  deleteStatefulPod _ := none
  updateStatefulPod _ := none
  podClaimIsStale _ := .ok false
  claimsMatchRetentionPolicy _ := .ok true
  updatePodClaimForRetentionPolicy _ := none

def web (replicas : ℕ) : StatefulSet := { «namespace» := "default", name := "web", replicas }

def webEnv (replicas : ℕ) : Env where
  set := web replicas
  currentRevision := "web-7"
  updateRevision := "web-7"
  collisionCount := 0
  features := ⟨false, false⟩
  podControl := succeeding
  now := 100

/-- A pod of the set at ordinal `k` that runs and is ready. -/
def readyPod (k : ℕ) : Pod where
  «namespace» := "default"
  name := getPodName (web 0) k
  labels := [(statefulSetRevisionLabel, "web-7"), (statefulSetPodNameLabel, getPodName (web 0) k)]
  phase := .running
  readyCondition := some ⟨true, some 0⟩

/-- With the pods of ordinals 0 and 2 ready, the sync creates the pod of ordinal 1 and nothing else. -/
example : (updateStatefulSet (webEnv 3) [readyPod 0, readyPod 2]).calls =
    [.create (newVersionedStatefulSetPod (web 3) "web-7" "web-7" 1)] := by
  decide +kernel

theorem ordered_ready_sync_guarantees_gap :
    (∀ pod ∈ [readyPod 0, readyPod 2], ∃ k : ℕ, k < 2 ^ 31 ∧ pod.name = getPodName (webEnv 3).set k) ∧
      OrderedReadyGuarantees (webEnv 3) [readyPod 0, readyPod 2]
        (updateStatefulSet (webEnv 3) [readyPod 0, readyPod 2]).calls := by
  have named : ∀ pod ∈ [readyPod 0, readyPod 2], ∃ k : ℕ, k < 2 ^ 31 ∧ pod.name = getPodName (webEnv 3).set k := by
    intro pod member
    simp only [List.mem_cons, List.not_mem_nil, or_false] at member
    rcases member with rfl | rfl
    · exact ⟨0, by decide, rfl⟩
    · exact ⟨2, by decide, rfl⟩
  exact ⟨named, ordered_ready_sync_guarantees (webEnv 3) _ rfl rfl named⟩

/-- A pod whose ordinal does not fit the 32-bit parse reads as ordinal -1 and is neither a replica
nor condemned: with one replica, the sync deletes the pod of ordinal 1 although a pod of a higher
ordinal exists. -/
theorem ordered_ready_sync_overflowing_ordinal :
    (∀ pod ∈ [readyPod 0, readyPod 1, readyPod 2147483648], ∃ k : ℕ, pod.name = getPodName (webEnv 1).set k) ∧
      ¬ OrderedReadyGuarantees (webEnv 1) [readyPod 0, readyPod 1, readyPod 2147483648]
        (updateStatefulSet (webEnv 1) [readyPod 0, readyPod 1, readyPod 2147483648]).calls := by
  refine ⟨fun pod member => ?_, fun guarantees => ?_⟩
  · simp only [List.mem_cons, List.not_mem_nil, or_false] at member
    rcases member with rfl | rfl | rfl
    · exact ⟨0, rfl⟩
    · exact ⟨1, rfl⟩
    · exact ⟨2147483648, rfl⟩
  have deleted : readyPod 1 ∈ deletes (updateStatefulSet (webEnv 1)
      [readyPod 0, readyPod 1, readyPod 2147483648]).calls := by
    decide +kernel
  have highest := (guarantees.scalesDownFromTop _ deleted 1 rfl (le_refl 1)).1 (readyPod 2147483648)
    (by simp) 2147483648 rfl
  omega

end Runs

end Kubernetes.Controller.Statefulset
