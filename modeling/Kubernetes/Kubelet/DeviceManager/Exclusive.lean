import Mathlib.Data.Finset.Lattice.Basic
import Kubernetes.Kubelet.DeviceManager.Manager

/-! What the device manager keeps over every run: a device recorded for a container is marked in
use, and no device is recorded for containers of two different pods.

The devices `devicesToAllocate` takes come from the pod's reusable devices or from the healthy
devices not in use; the devices in use include every recorded one, and a pod's reusable devices
are recorded for no other pod. The converse, that every device in use is recorded, fails: a plugin
answering `Allocate` with no container response leaves the devices taken for the call in use
with no record, and nothing frees them while no pod with a record goes away. -/

set_option autoImplicit false
set_option linter.unusedSectionVars false

namespace Kubernetes.Kubelet.DeviceManager

open Kubernetes.Library

variable {ρ κ τ δ : Type} [DecidableEq ρ] [DecidableEq κ] [DecidableEq τ] [DecidableEq δ]
  [Fintype ρ] [Fintype κ] [Fintype τ] [Fintype δ]

/-- The devices of a resource marked in use. -/
def inUse (m : ManagerImpl ρ κ τ δ) (resource : τ) : Finset δ := (m.allocatedDevices resource).getD ∅

def markInUse (m : ManagerImpl ρ κ τ δ) (resource : τ) (devices : Finset δ) : ManagerImpl ρ κ τ δ :=
  { m with allocatedDevices := Function.update m.allocatedDevices resource (some devices) }

/-! ## Picking devices -/

/-- A picking that started from the devices `start` in use and took devices of `pool` only. -/
def Picked (start pool : Finset δ) (picking : Picking δ) : Prop :=
  picking.allocated ⊆ pool ∧ picking.inUse = start ∪ picking.allocated

/-- Go's map iteration visits the members of the set. -/
def Visits (iterate : Finset δ → List δ) : Prop := ∀ devices device, device ∈ iterate devices → device ∈ devices

variable {iterate : Finset δ → List δ} {start pool : Finset δ}

theorem Picked.takeDevices : ∀ (devices : List δ) {picking : Picking δ}, Picked start pool picking →
    (∀ device ∈ devices, device ∈ pool) → Picked start pool (DeviceManager.takeDevices devices picking).1
  | [], _, picked, _ => picked
  | device :: rest, picking, picked, within => by
    have taken : Picked start pool ⟨insert device picking.inUse, insert device picking.allocated, picking.needed - 1⟩ :=
      ⟨Finset.insert_subset (within device List.mem_cons_self) picked.1, by rw [picked.2, Finset.union_insert]⟩
    dsimp only [DeviceManager.takeDevices]
    split_ifs
    · exact taken
    · exact Picked.takeDevices rest taken fun other member => within other (List.mem_cons_of_mem _ member)

theorem Picked.allocateRemainingFrom (visits : Visits iterate) {devices : Finset δ} {picking : Picking δ}
    (picked : Picked start pool picking) (within : devices ⊆ pool) :
    Picked start pool (DeviceManager.allocateRemainingFrom iterate devices picking).1 :=
  picked.takeDevices _ fun device member => within (Finset.mem_sdiff.mp (visits _ device member)).1

theorem Picked.allocateFromTiers (visits : Visits iterate) :
    ∀ (tiers : List (Finset δ)) {picking : Picking δ}, Picked start pool picking → (∀ tier ∈ tiers, tier ⊆ pool) →
      Picked start pool (DeviceManager.allocateFromTiers iterate tiers picking).1
  | [], _, picked, _ => picked
  | tier :: rest, picking, picked, within => by
    have taken := picked.allocateRemainingFrom visits (within tier List.mem_cons_self)
    dsimp only [DeviceManager.allocateFromTiers]
    split_ifs
    · exact taken
    · exact Picked.allocateFromTiers visits rest taken fun other member => within other (List.mem_cons_of_mem _ member)

theorem Picked.inUse_superset {picking : Picking δ} (picked : Picked start pool picking) : start ⊆ picking.inUse := by
  rw [picked.2]
  exact Finset.subset_union_left

theorem filterByAffinity_subset (m : ManagerImpl ρ κ τ δ) (resource : τ) (hint : Option (List ℕ))
    (available : Finset δ) :
    (filterByAffinity m resource hint available).1 ⊆ available ∧
      (filterByAffinity m resource hint available).2.1 ⊆ available ∧
      (filterByAffinity m resource hint available).2.2 ⊆ available := by
  unfold filterByAffinity
  split
  · split_ifs
    · exact ⟨Finset.filter_subset _ _, Finset.filter_subset _ _, Finset.filter_subset _ _⟩
    · exact ⟨Finset.empty_subset _, Finset.empty_subset _, subset_rfl⟩
  · exact ⟨Finset.empty_subset _, Finset.empty_subset _, subset_rfl⟩

/-- The picking a step of `devicesToAllocate` ends with took devices of `pool`, and the devices
it returns are the ones it took. -/
def PickResult {ε : Type} (start pool : Finset δ) (result : Picking δ × Except ε (Option (Finset δ))) : Prop :=
  Picked start pool result.1 ∧ ∀ devices, result.2 = .ok (some devices) → devices = result.1.allocated

theorem pickResult_of_done {ε : Type} {taken : Picking δ × Bool} (picked : Picked start pool taken.1) (error : ε) :
    PickResult start pool
      (if taken.2 then (taken.1, .ok (some taken.1.allocated)) else (taken.1, .error error)) := by
  split_ifs
  · exact ⟨picked, fun _ returned => by cases returned; rfl⟩
  · exact ⟨picked, fun _ returned => by cases returned⟩

variable (endpoints : τ → Option Bool)

theorem pickAvailable_result (visits : Visits iterate) (m : ManagerImpl ρ κ τ δ) (resource : τ) (required : ℕ)
    (hint : Option (List ℕ)) (preferredResponse : Except String (Finset δ)) (healthy : Finset δ)
    {picking : Picking δ} (picked : Picked start pool picking) (fresh : healthy \ start ⊆ pool) :
    PickResult start pool (pickAvailable iterate endpoints m resource required hint preferredResponse healthy picking) := by
  -- every tier is a set of available devices, healthy ones outside what was in use at the start
  have available : healthy \ picking.inUse ⊆ pool :=
    (Finset.sdiff_subset_sdiff subset_rfl picked.inUse_superset).trans fresh
  obtain ⟨aligned, unaligned, noAffinity⟩ := filterByAffinity_subset m resource hint (healthy \ picking.inUse)
  have taken := picked.allocateRemainingFrom visits (aligned.trans available)
  dsimp only [pickAvailable]
  split_ifs with short few complete
  · exact ⟨picked, fun _ returned => by cases returned⟩
  · split
    · exact ⟨picked, fun _ returned => by cases returned⟩
    · apply pickResult_of_done
      refine picked.allocateFromTiers visits _ fun tier member => ?_
      simp only [List.mem_cons, List.not_mem_nil, or_false] at member
      rcases member with rfl | rfl
      · exact Finset.inter_subset_right.trans (aligned.trans available)
      · exact aligned.trans available
  · exact ⟨taken, fun _ returned => by cases returned; rfl⟩
  · split
    · exact ⟨taken, fun _ returned => by cases returned⟩
    · apply pickResult_of_done
      refine taken.allocateFromTiers visits _ fun tier member => ?_
      simp only [List.mem_cons, List.not_mem_nil, or_false] at member
      rcases member with rfl | rfl | rfl
      · exact Finset.inter_subset_right.trans available
      · exact unaligned.trans available
      · exact noAffinity.trans available

theorem pickDevices_result (visits : Visits iterate) (m : ManagerImpl ρ κ τ δ) (resource : τ) (required : ℕ)
    (reusableDevices : Finset δ) (hint : Option (List ℕ)) (preferredResponse : Except String (Finset δ))
    (healthy : Finset δ) :
    PickResult (inUse m resource) (reusableDevices ∪ (healthy \ inUse m resource))
      (pickDevices iterate endpoints m resource required reusableDevices hint preferredResponse healthy) := by
  have start : Picked (inUse m resource) (reusableDevices ∪ (healthy \ inUse m resource))
      ⟨(m.allocatedDevices resource).getD ∅, ∅, required⟩ :=
    ⟨Finset.empty_subset _, (Finset.union_empty _).symm⟩
  have taken := start.allocateRemainingFrom visits Finset.subset_union_left
  dsimp only [pickDevices]
  split_ifs
  · exact ⟨taken, fun _ returned => by cases returned; rfl⟩
  · exact pickAvailable_result endpoints visits m resource required hint preferredResponse healthy taken
      Finset.subset_union_right

theorem devicesToAllocate_cases (visits : Visits iterate) (m : ManagerImpl ρ κ τ δ) (podUID : ρ) (contName : κ)
    (resource : τ) (required : ℕ) (reusableDevices : Finset δ) (hint : Option (List ℕ))
    (preferredResponse : Except String (Finset δ)) :
    let result := devicesToAllocate iterate endpoints m podUID contName resource required reusableDevices hint
      preferredResponse
    (result.1 = m ∧ ∀ devices, result.2 ≠ .ok (some devices)) ∨
      ∃ picking : Picking δ, Picked (inUse m resource)
          (reusableDevices ∪ ((m.healthyDevices resource).getD ∅ \ inUse m resource)) picking ∧
        result.1 = markInUse m resource picking.inUse ∧ ∀ devices, result.2 = .ok (some devices) → devices = picking.allocated := by
  unfold devicesToAllocate
  split
  · split_ifs
    · exact .inl ⟨rfl, fun _ returned => by cases returned⟩
    · exact .inl ⟨rfl, fun _ returned => by cases returned⟩
  split_ifs
  · exact .inl ⟨rfl, fun _ returned => by cases returned⟩
  split
  · exact .inl ⟨rfl, fun _ returned => by cases returned⟩
  next healthy known =>
    have picked := pickDevices_result endpoints visits m resource required reusableDevices hint preferredResponse healthy
    rw [known, Option.getD_some]
    exact .inr ⟨_, picked.1, rfl, picked.2⟩

/-! ## The invariant -/

/-- Every recorded device is in use, and no device is recorded for two pods or reusable by a
pod while recorded for another. -/
structure Exclusive (m : ManagerImpl ρ κ τ δ) : Prop where
  recorded : ∀ podUID contName resource devices, m.podDevices podUID contName resource = some devices →
    devices ⊆ inUse m resource
  pods : ∀ podUID podUID' contName contName' resource devices devices', podUID ≠ podUID' →
    m.podDevices podUID contName resource = some devices → m.podDevices podUID' contName' resource = some devices' →
      Disjoint devices devices'
  reusable : ∀ podUID podUID' contName resource devices, podUID ≠ podUID' →
    m.podDevices podUID' contName resource = some devices → Disjoint (m.devicesToReuse podUID resource) devices

theorem exclusive_empty : Exclusive (ManagerImpl.empty : ManagerImpl ρ κ τ δ) where
  recorded _ _ _ _ absent := by simp [ManagerImpl.empty] at absent
  pods _ _ _ _ _ _ _ _ absent := by simp [ManagerImpl.empty] at absent
  reusable _ _ _ _ _ _ absent := by simp [ManagerImpl.empty] at absent

theorem mem_devices {pdev : PodDevices ρ κ τ δ} {podUID : ρ} {contName : κ} {resource : τ} {devices : Finset δ}
    (recorded : pdev podUID contName resource = some devices) : devices ⊆ (pdev.devices resource).getD ∅ := by
  have present : ∃ podUID contName, (pdev podUID contName resource).isSome := ⟨podUID, contName, by simp [recorded]⟩
  intro device member
  simp only [PodDevices.devices, present, if_true, Option.getD_some, Finset.mem_biUnion, Finset.mem_univ, true_and]
  exact ⟨(podUID, contName), by simpa [recorded] using member⟩

theorem Exclusive.restore {m : ManagerImpl ρ κ τ δ} (exclusive : Exclusive m) :
    Exclusive { m with allocatedDevices := m.podDevices.devices } :=
  ⟨fun _ _ _ _ recorded => mem_devices recorded, exclusive.pods, exclusive.reusable⟩

theorem Exclusive.markInUse {m : ManagerImpl ρ κ τ δ} (exclusive : Exclusive m) {resource : τ} {devices : Finset δ}
    (grows : inUse m resource ⊆ devices) : Exclusive (DeviceManager.markInUse m resource devices) := by
  refine ⟨fun podUID contName other recorded found => ?_, exclusive.pods, exclusive.reusable⟩
  have before := exclusive.recorded podUID contName other recorded found
  by_cases same : other = resource
  · subst same
    simpa [inUse, DeviceManager.markInUse] using before.trans grows
  · simpa [inUse, DeviceManager.markInUse, Function.update_of_ne same] using before

theorem Exclusive.delete {m : ManagerImpl ρ κ τ δ} (exclusive : Exclusive m) (pods : ρ → Bool) :
    Exclusive { m with podDevices := m.podDevices.delete pods, allocatedDevices := (m.podDevices.delete pods).devices } := by
  have kept : ∀ {podUID contName resource devices},
      m.podDevices.delete pods podUID contName resource = some devices → m.podDevices podUID contName resource = some devices := by
    intro podUID contName resource devices found
    unfold PodDevices.delete at found
    by_cases removed : pods podUID = true
    · simp [removed] at found
    · simpa [removed] using found
  refine ⟨fun _ _ _ _ recorded => mem_devices recorded, ?_, ?_⟩
  · intro podUID podUID' contName contName' resource devices devices' different recorded recorded'
    exact exclusive.pods _ _ _ _ _ _ _ different (kept recorded) (kept recorded')
  · intro podUID podUID' contName resource devices different recorded
    exact exclusive.reusable _ _ _ _ _ different (kept recorded)

theorem Exclusive.updateAllocatedDevices {m : ManagerImpl ρ κ τ δ} (exclusive : Exclusive m) (activePods : List ρ) :
    Exclusive (DeviceManager.updateAllocatedDevices m activePods) := by
  dsimp only [DeviceManager.updateAllocatedDevices]
  split_ifs
  · exact exclusive
  · exact exclusive.delete _

theorem Exclusive.insert {m : ManagerImpl ρ κ τ δ} (exclusive : Exclusive m) {podUID : ρ} {contName : κ} {resource : τ}
    {devices : Finset δ} (marked : devices ⊆ inUse m resource)
    (others : ∀ podUID' contName' devices', podUID' ≠ podUID → m.podDevices podUID' contName' resource = some devices' →
      Disjoint devices devices')
    (pruned : ∀ podUID', podUID' ≠ podUID → Disjoint (m.devicesToReuse podUID' resource) devices) :
    Exclusive { m with podDevices := m.podDevices.insert podUID contName resource devices } := by
  have cases : ∀ {pod name other found}, m.podDevices.insert podUID contName resource devices pod name other = some found →
      (pod = podUID ∧ other = resource ∧ found = devices) ∨ m.podDevices pod name other = some found := by
    intro pod name other found recorded
    unfold PodDevices.insert at recorded
    by_cases samePod : pod = podUID
    · subst samePod
      by_cases sameName : name = contName
      · subst sameName
        by_cases sameResource : other = resource
        · subst sameResource
          simp only [Function.update_self, Option.some.injEq] at recorded
          exact .inl ⟨rfl, rfl, recorded.symm⟩
        · simp only [Function.update_self, Function.update_of_ne sameResource] at recorded
          exact .inr recorded
      · simp only [Function.update_self, Function.update_of_ne sameName] at recorded
        exact .inr recorded
    · simp only [Function.update_of_ne samePod] at recorded
      exact .inr recorded
  refine ⟨fun pod name other found recorded => ?_, fun pod pod' name name' other found found' different recorded recorded' => ?_,
    fun pod pod' name other found different recorded => ?_⟩
  · rcases cases recorded with ⟨-, rfl, rfl⟩ | before
    · exact marked
    · exact exclusive.recorded _ _ _ _ before
  · rcases cases recorded with ⟨rfl, rfl, rfl⟩ | before
    · rcases cases recorded' with ⟨same, -, -⟩ | before'
      · exact absurd same.symm different
      · exact others _ _ _ (Ne.symm different) before'
    · rcases cases recorded' with ⟨rfl, rfl, rfl⟩ | before'
      · exact (others _ _ _ different before).symm
      · exact exclusive.pods _ _ _ _ _ _ _ different before before'
  · rcases cases recorded with ⟨rfl, rfl, rfl⟩ | before
    · exact pruned _ different
    · exact exclusive.reusable _ _ _ _ _ different before

/-! ## Calls -/

/-- Only the pod being admitted has reusable devices. -/
def Pruned (podUID : ρ) (m : ManagerImpl ρ κ τ δ) : Prop := ∀ other, other ≠ podUID → ∀ resource, m.devicesToReuse other resource = ∅

theorem Exclusive.devicesToAllocate (visits : Visits iterate) {m : ManagerImpl ρ κ τ δ} (exclusive : Exclusive m)
    (podUID : ρ) (contName : κ) (resource : τ) (required : ℕ) (hint : Option (List ℕ))
    (preferredResponse : Except String (Finset δ)) :
    let result := DeviceManager.devicesToAllocate iterate endpoints m podUID contName resource required
      (m.devicesToReuse podUID resource) hint preferredResponse
    Exclusive result.1 ∧ result.1.podDevices = m.podDevices ∧ result.1.devicesToReuse = m.devicesToReuse ∧
      ∀ devices, result.2 = .ok (some devices) → devices ⊆ inUse result.1 resource ∧
        ∀ podUID' contName' devices', podUID' ≠ podUID → m.podDevices podUID' contName' resource = some devices' →
          Disjoint devices devices' := by
  dsimp only
  rcases devicesToAllocate_cases endpoints visits m podUID contName resource required (m.devicesToReuse podUID resource)
    hint preferredResponse with ⟨unchanged, nothing⟩ | ⟨picking, picked, marked, returned⟩
  · rw [unchanged]
    exact ⟨exclusive, rfl, rfl, fun devices found => absurd found (nothing devices)⟩
  · rw [marked]
    refine ⟨exclusive.markInUse picked.inUse_superset, rfl, rfl, fun devices found => ⟨?_, ?_⟩⟩
    · rw [returned devices found, picked.2]
      simp [inUse, DeviceManager.markInUse]
    · intro podUID' contName' devices' different recorded
      rw [returned devices found]
      -- another pod's devices are in use and not reusable by this pod
      have inUse' := exclusive.recorded _ _ _ _ recorded
      have notReusable := exclusive.reusable _ _ _ _ _ (Ne.symm different) recorded
      refine Finset.disjoint_left.mpr fun device taken other => ?_
      rcases Finset.mem_union.mp (picked.1 taken) with reused | healthy
      · exact Finset.disjoint_left.mp notReusable reused other
      · exact (Finset.mem_sdiff.mp healthy).2 (inUse' other)

omit [Fintype δ] in
theorem Exclusive.setReusable {m : ManagerImpl ρ κ τ δ} (exclusive : Exclusive m) (podUID : ρ) (reusable : τ → Finset δ)
    (apart : ∀ podUID' contName resource devices, podUID ≠ podUID' → m.podDevices podUID' contName resource = some devices →
      Disjoint (reusable resource) devices) :
    Exclusive { m with devicesToReuse := Function.update m.devicesToReuse podUID reusable } := by
  refine ⟨exclusive.recorded, exclusive.pods, fun pod pod' contName resource devices different recorded => ?_⟩
  by_cases same : pod = podUID
  · subst same
    simpa using apart _ _ _ _ different recorded
  · simpa [Function.update_of_ne same] using exclusive.reusable _ _ _ _ _ different recorded

theorem Exclusive.record (visits : Visits iterate) {m : ManagerImpl ρ κ τ δ} (exclusive : Exclusive m) {podUID : ρ}
    (pruned : Pruned podUID m) (contName : κ) (resource : τ) (required : ℕ) (hint : Option (List ℕ))
    (preferredResponse : Except String (Finset δ)) (devices : Finset δ)
    (returned : (DeviceManager.devicesToAllocate iterate endpoints m podUID contName resource required
      (m.devicesToReuse podUID resource) hint preferredResponse).2 = .ok (some devices)) :
    let marked := (DeviceManager.devicesToAllocate iterate endpoints m podUID contName resource required
      (m.devicesToReuse podUID resource) hint preferredResponse).1
    Exclusive { marked with podDevices := marked.podDevices.insert podUID contName resource devices } := by
  obtain ⟨exclusive', records, reuse, fresh⟩ :=
    Exclusive.devicesToAllocate endpoints visits exclusive podUID contName resource required hint preferredResponse
  obtain ⟨inUse', others⟩ := fresh devices returned
  refine exclusive'.insert inUse' (fun podUID' contName' devices' different recorded => ?_) fun podUID' different => ?_
  · rw [records] at recorded
    exact others _ _ _ different recorded
  · rw [reuse, pruned _ different]
    exact Finset.disjoint_empty_left _

theorem Exclusive.allocateContainerResources (visits : Visits iterate) (pod : Pod ρ κ) (container : Container κ τ)
    (reusable : τ → Finset δ) (activePods : List ρ) (hint : Option (List ℕ)) (responses : PluginResponses τ δ) :
    ∀ (limits : List (τ × ℕ)) (m : ManagerImpl ρ κ τ δ) (updated needsUpdateCheckpoint : Bool),
      Exclusive m → Pruned pod.uid m → m.devicesToReuse pod.uid = reusable →
      let result := DeviceManager.allocateContainerResources iterate endpoints pod container reusable activePods hint
        responses limits m updated needsUpdateCheckpoint
      Exclusive result.1 ∧ result.1.devicesToReuse = m.devicesToReuse
  | [], m, _, needsUpdateCheckpoint, exclusive, _, _ => by
    dsimp only [DeviceManager.allocateContainerResources]
    split
    · split <;> exact ⟨exclusive, rfl⟩
    · exact ⟨exclusive, rfl⟩
  | (resource, needed) :: limits, m, updated, needsUpdateCheckpoint, exclusive, pruned, reuse => by
    have next := Exclusive.allocateContainerResources visits pod container reusable activePods hint responses limits
    dsimp only [DeviceManager.allocateContainerResources]
    split
    · exact next m _ _ exclusive pruned reuse
    -- the stranded devices collected first, when they are
    obtain ⟨collected, same⟩ : Exclusive (if updated then m else DeviceManager.updateAllocatedDevices m activePods) ∧
        (if updated then m else DeviceManager.updateAllocatedDevices m activePods).devicesToReuse = m.devicesToReuse := by
      split_ifs
      · exact ⟨exclusive, rfl⟩
      · refine ⟨exclusive.updateAllocatedDevices activePods, ?_⟩
        dsimp only [DeviceManager.updateAllocatedDevices]
        split_ifs <;> rfl
    generalize (if updated then m else DeviceManager.updateAllocatedDevices m activePods) = m₁ at collected same
    have pruned₁ : Pruned pod.uid m₁ := fun other different => by rw [same]; exact pruned other different
    have reuse₁ : reusable resource = m₁.devicesToReuse pod.uid resource := by rw [same, reuse]
    obtain ⟨exclusive₂, records₂, reuse₂, _⟩ :=
      Exclusive.devicesToAllocate endpoints visits collected pod.uid container.name resource needed hint
        (responses.preferredAllocation resource)
    have recorded := fun devices (returned : _ = _) =>
      Exclusive.record endpoints visits collected pruned₁ container.name resource needed hint
        (responses.preferredAllocation resource) devices returned
    rw [reuse₁] at ⊢
    generalize DeviceManager.devicesToAllocate iterate endpoints m₁ pod.uid container.name resource needed
      (m₁.devicesToReuse pod.uid resource) hint (responses.preferredAllocation resource) = result
      at exclusive₂ records₂ reuse₂ recorded
    obtain ⟨m₂, answer⟩ := result
    have keeps : m₂.devicesToReuse = m.devicesToReuse := reuse₂.trans same
    have pruned₂ : Pruned pod.uid m₂ := fun other different => by rw [keeps]; exact pruned other different
    have reuse₂' : m₂.devicesToReuse pod.uid = reusable := by rw [keeps, reuse]
    rcases answer with err | _ | devices
    · exact ⟨exclusive₂, keeps⟩
    · exact (next m₂ _ _ exclusive₂ pruned₂ reuse₂').imp_right fun kept => kept.trans keeps
    · dsimp only
      split_ifs
      · exact (next m₂ _ _ exclusive₂ pruned₂ reuse₂').imp_right fun kept => kept.trans keeps
      split
      · exact ⟨exclusive₂.restore, keeps⟩
      split
      · exact ⟨exclusive₂.restore, keeps⟩
      · exact ⟨exclusive₂, keeps⟩
      · exact (next _ _ _ (recorded devices rfl) pruned₂ reuse₂').imp_right fun kept => kept.trans keeps

theorem Exclusive.allocate (visits : Visits iterate) {m : ManagerImpl ρ κ τ δ} (exclusive : Exclusive m) (pod : Pod ρ κ)
    (container : Container κ τ) (activePods : List ρ) (hint : Option (List ℕ)) (responses : PluginResponses τ δ) :
    Exclusive (DeviceManager.allocate iterate endpoints m pod container activePods hint responses).1 := by
  -- only the pod being admitted keeps reusable devices
  have prunedState : Exclusive { m with
      pendingAdmissionPod := some pod.uid
      devicesToReuse := fun podUID => if podUID = pod.uid then m.devicesToReuse podUID else fun _ => ∅ } := by
    refine ⟨exclusive.recorded, exclusive.pods, fun podUID podUID' contName resource devices different recorded => ?_⟩
    dsimp only
    split_ifs
    · exact exclusive.reusable _ _ _ _ _ different recorded
    · exact Finset.disjoint_empty_left _
  have pruned : Pruned pod.uid { m with
      pendingAdmissionPod := some pod.uid
      devicesToReuse := fun podUID => if podUID = pod.uid then m.devicesToReuse podUID else fun _ => ∅ } :=
    fun other different resource => by simp [different]
  obtain ⟨allocated, keeps⟩ := Exclusive.allocateContainerResources endpoints visits pod container _ activePods hint
    responses container.limits _ false false prunedState pruned rfl
  dsimp only [DeviceManager.allocate]
  split
  next m₂ _ result => exact result ▸ allocated
  next m₂ result =>
    rw [result] at allocated keeps
    apply allocated.setReusable
    intro podUID' contName resource devices different recorded
    have reusable := allocated.reusable _ _ _ _ _ different recorded
    split_ifs
    · -- an init container's own devices join the reusable ones
      exact Finset.disjoint_union_left.mpr ⟨reusable, by
        cases own : m₂.podDevices pod.uid container.name resource with
        | none => exact Finset.disjoint_empty_left _
        | some ownDevices => exact allocated.pods _ _ _ _ _ _ _ different own recorded⟩
    · exact Finset.disjoint_of_subset_left Finset.sdiff_subset reusable

theorem Exclusive.step (visits : Visits iterate) {m : ManagerImpl ρ κ τ δ} (exclusive : Exclusive m) :
    ∀ call, Exclusive (m.step iterate endpoints call)
  | .deviceUpdate _ _ => ⟨exclusive.recorded, exclusive.pods, exclusive.reusable⟩
  | .updateAllocatedDevices activePods => exclusive.updateAllocatedDevices activePods
  | .allocate pod container activePods hint responses =>
    exclusive.allocate endpoints visits pod container activePods hint responses

theorem exclusive_invariant (visits : Visits iterate) :
    (system iterate endpoints : System (ManagerImpl ρ κ τ δ) (Call ρ κ τ δ)).Invariant Exclusive :=
  System.Inductive.invariant
    { init := fun _ initial => initial ▸ exclusive_empty
      step := fun _ call _ exclusive taken => by
        cases taken
        exact exclusive.step endpoints visits call }

/-- In every state a run reaches, a device recorded for a container is marked in use, and no
device is recorded for containers of two different pods. -/
theorem recorded_devices_exclusive (visits : Visits iterate) {m : ManagerImpl ρ κ τ δ}
    (reachable : (system iterate endpoints).Reachable m) :
    (∀ podUID contName resource devices, m.podDevices podUID contName resource = some devices →
      devices ⊆ (m.allocatedDevices resource).getD ∅) ∧
    ∀ podUID podUID' contName contName' resource devices devices', podUID ≠ podUID' →
      m.podDevices podUID contName resource = some devices → m.podDevices podUID' contName' resource = some devices' →
        Disjoint devices devices' :=
  ⟨(exclusive_invariant endpoints visits m reachable).recorded, (exclusive_invariant endpoints visits m reachable).pods⟩

/-! ## A plugin answering with no container response -/

/-- The iteration over the one device's sets. -/
def oneDevice (devices : Finset Unit) : List Unit := if () ∈ devices then [()] else []

/-- A registered plugin without `GetPreferredAllocation`. -/
def plainEndpoint : Unit → Option Bool := fun _ => some false

/-- A plugin whose `Allocate` answers with no container response. -/
def emptyAllocateResponse : PluginResponses Unit Unit := ⟨fun _ => .ok ∅, fun _ => .ok 0, .ok ()⟩

def servingResponse : PluginResponses Unit Unit := ⟨fun _ => .ok ∅, fun _ => .ok 1, .ok ()⟩

def singlePod : Pod Unit Bool := ⟨(), []⟩

/-- The plugin reports its one healthy device. -/
def reportedManager : ManagerImpl Unit Bool Unit Unit :=
  ManagerImpl.empty.step oneDevice plainEndpoint (.deviceUpdate () [((), true, none)])

/-- The first container's allocation fails with the device in use, and the device manager then
collects stranded devices. -/
def strandedManager : ManagerImpl Unit Bool Unit Unit :=
  (reportedManager.step oneDevice plainEndpoint (.allocate singlePod ⟨true, [((), 1)]⟩ [()] none emptyAllocateResponse)).step
    oneDevice plainEndpoint (.updateAllocatedDevices [()])

theorem allocate_strands_devices_without_record :
    (system oneDevice plainEndpoint).Reachable strandedManager ∧
      (DeviceManager.allocate oneDevice plainEndpoint reportedManager singlePod ⟨true, [((), 1)]⟩ [()] none
        emptyAllocateResponse).2 = some .noContainerResponses ∧
      strandedManager.allocatedDevices () = some {()} ∧
      strandedManager.podDevices.devices () = none ∧
      (DeviceManager.allocate oneDevice plainEndpoint strandedManager singlePod ⟨false, [((), 1)]⟩ [()] none
        servingResponse).2 = some (.unavailable () 1 0) :=
  ⟨System.reachable_of_runPartial rfl
      [.deviceUpdate () [((), true, none)], .allocate singlePod ⟨true, [((), 1)]⟩ [()] none emptyAllocateResponse,
        .updateAllocatedDevices [()]] rfl,
    by decide, by decide, by decide, by decide⟩

theorem oneDevice_visits : Visits oneDevice := by
  intro devices device listed
  unfold oneDevice at listed
  split_ifs at listed with present
  · exact (List.mem_singleton.mp listed) ▸ present
  · cases listed

/-- With a plugin that answers, the container gets the device: the record is the device in use. -/
theorem recorded_devices_exclusive_served :
    let served := reportedManager.step oneDevice plainEndpoint
      (.allocate singlePod ⟨true, [((), 1)]⟩ [()] none servingResponse)
    Visits oneDevice ∧ (system oneDevice plainEndpoint).Reachable served ∧
      served.podDevices () true () = some {()} ∧
      (∀ podUID contName resource devices, served.podDevices podUID contName resource = some devices →
        devices ⊆ (served.allocatedDevices resource).getD ∅) ∧
      ∀ podUID podUID' contName contName' resource devices devices', podUID ≠ podUID' →
        served.podDevices podUID contName resource = some devices →
          served.podDevices podUID' contName' resource = some devices' → Disjoint devices devices' := by
  intro served
  have reachable : (system oneDevice plainEndpoint).Reachable served :=
    System.reachable_of_runPartial rfl
      [.deviceUpdate () [((), true, none)], .allocate singlePod ⟨true, [((), 1)]⟩ [()] none servingResponse] rfl
  exact ⟨oneDevice_visits, reachable, by decide,
    recorded_devices_exclusive plainEndpoint oneDevice_visits reachable⟩

end Kubernetes.Kubelet.DeviceManager
