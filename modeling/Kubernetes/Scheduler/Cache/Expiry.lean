import Kubernetes.Scheduler.Cache.Cache

/-! What the cache's calls do to its pods, and the expiry of assumed pods.

Each call leaves the pods as they were, stores a pod under its key on its node, or forgets the
pod under a key and takes it off its node. Over every run of calls, whatever their arguments,
every assumed key has a state, a pod whose binding finished has a deadline, and the `NodeInfo` of
an assumed pod's node holds it; so `cleanupAssumedPods` never ends the process, whatever order
the map walk takes, and afterwards no assumed pod whose binding finished has a deadline before
`now`.
-/

set_option autoImplicit false

namespace Kubernetes.Scheduler.Cache

open Kubernetes.Library Kubernetes.Scheduler

namespace CacheImpl

/-- The keys of the pods the `NodeInfo` of `name` holds; none where it has no `NodeInfo`. -/
def podKeysOn (c : CacheImpl) (name : String) : List String :=
  ((infoOf c.nodes name).map fun info => info.pods.map fun podInfo => podInfo.pod.uid).getD []

/-! ## The effects of the calls on the pods -/

/-- The states, the assumed keys and the keys each `NodeInfo` holds are as they were. -/
structure KeepsPods (c c' : CacheImpl) : Prop where
  podStates : c'.podStates = c.podStates
  assumedPods : c'.assumedPods = c.assumedPods
  podKeysOn : c'.podKeysOn = c.podKeysOn

/-- The pod under `key` is forgotten, and taken off the `NodeInfo` of `name`. -/
structure Forgets (c c' : CacheImpl) (name key : String) : Prop where
  podStates : c'.podStates = c.podStates.erase key
  assumedPods : c'.assumedPods = c.assumedPods.erase key
  podKeysOn : ∀ j, (c'.podKeysOn j).Perm (if j = name then (c.podKeysOn name).erase key else c.podKeysOn j)

/-- The pod is stored under `key`, assumed if `assumePod`, and added to its node's `NodeInfo`. -/
structure Stores (c c' : CacheImpl) (pod : Pod) (key : String) (assumePod : Bool) : Prop where
  podStates : c'.podStates = c.podStates.insert key { pod := pod }
  assumedPods : c'.assumedPods = if assumePod then insert key c.assumedPods else c.assumedPods
  podKeysOn : c'.podKeysOn = Function.update c.podKeysOn pod.spec.nodeName (c.podKeysOn pod.spec.nodeName ++ [key])

theorem KeepsPods.refl (c : CacheImpl) : KeepsPods c c := ⟨rfl, rfl, rfl⟩

theorem KeepsPods.trans {c₁ c₂ c₃ : CacheImpl} (first : KeepsPods c₁ c₂) (second : KeepsPods c₂ c₃) :
    KeepsPods c₁ c₃ :=
  ⟨second.podStates.trans first.podStates, second.assumedPods.trans first.assumedPods,
    second.podKeysOn.trans first.podKeysOn⟩

theorem Forgets.mem_podKeysOn {c c' : CacheImpl} {name key : String} (forgets : Forgets c c' name key)
    {j k : String} (other : k ≠ key) : k ∈ c'.podKeysOn j ↔ k ∈ c.podKeysOn j := by
  rw [(forgets.podKeysOn j).mem_iff]
  split_ifs with same
  · rw [same, List.mem_erase_of_ne other]
  · rfl

theorem Forgets.lookup {c c' : CacheImpl} {name key : String} (forgets : Forgets c c' name key) {k : String}
    (other : k ≠ key) : c'.podStates.lookup k = c.podStates.lookup k := by
  rw [forgets.podStates, AList.lookup_erase_ne other]

theorem Forgets.mem_assumedPods {c c' : CacheImpl} {name key : String} (forgets : Forgets c c' name key)
    {k : String} : k ∈ c'.assumedPods ↔ k ≠ key ∧ k ∈ c.assumedPods := by
  rw [forgets.assumedPods, Finset.mem_erase]

theorem Stores.mem_assumedPods {c c' : CacheImpl} {pod : Pod} {key : String} {assumePod : Bool}
    (stores : Stores c c' pod key assumePod) {k : String} (other : k ≠ key) :
    k ∈ c'.assumedPods ↔ k ∈ c.assumedPods := by
  rw [stores.assumedPods]
  split_ifs
  · exact ⟨fun member => (Finset.mem_insert.mp member).resolve_left other, Finset.mem_insert_of_mem⟩
  · rfl

theorem Stores.mem_podKeysOn {c c' : CacheImpl} {pod : Pod} {key : String} {assumePod : Bool}
    (stores : Stores c c' pod key assumePod) {j k : String} (held : k ∈ c.podKeysOn j) : k ∈ c'.podKeysOn j := by
  rw [stores.podKeysOn]
  by_cases same : j = pod.spec.nodeName
  · subst same
    simp [held]
  · simp [same, held]

/-! ### The helpers -/

theorem podKeysOn_of_infoOf {c c' : CacheImpl} (same : ∀ j, infoOf c'.nodes j = infoOf c.nodes j) :
    c'.podKeysOn = c.podKeysOn := by
  funext j
  simp [podKeysOn, same j]

@[simp] theorem podKeysOn_moveNodeInfoToHead (c : CacheImpl) (name : String) :
    (c.moveNodeInfoToHead name).podKeysOn = c.podKeysOn :=
  podKeysOn_of_infoOf fun j => infoOf_moveNodeInfoToHead c name j

@[simp] theorem podKeysOn_nextGen (c : CacheImpl) : c.nextGen.podKeysOn = c.podKeysOn := rfl

@[simp] theorem podKeysOn_ensureNodeInfo (c : CacheImpl) (name : String) :
    (c.ensureNodeInfo name).podKeysOn = c.podKeysOn := by
  funext j
  simp only [podKeysOn, infoOf_ensureNodeInfo]
  split_ifs with made
  · rw [made.1, made.2]
    rfl
  · rfl

theorem podKeysOn_removeNodeInfoFromList {c : CacheImpl} {name : String} (empty : c.podKeysOn name = []) :
    (c.removeNodeInfoFromList name).podKeysOn = c.podKeysOn := by
  funext j
  simp only [podKeysOn, infoOf_removeNodeInfoFromList]
  split_ifs with same
  · rw [same, ← podKeysOn, empty]
    rfl
  · rfl

theorem podKeysOn_updateNodeInfo {c : CacheImpl} {name : String} {f : NodeInfo → ℤ → NodeInfo}
    (keeps : ∀ info generation, (f info generation).pods = info.pods) :
    (c.updateNodeInfo name f).podKeysOn = c.podKeysOn := by
  funext j
  simp only [podKeysOn, infoOf_updateNodeInfo]
  split_ifs with same
  · subst same
    cases infoOf c.nodes j <;> simp [keeps]
  · rfl

theorem infoOf_ensureNodeInfo_isSome (c : CacheImpl) (name : String) :
    (infoOf (c.ensureNodeInfo name).nodes name).isSome := by
  rw [infoOf_ensureNodeInfo]
  split_ifs with made
  · rfl
  · simp only [true_and] at made
    exact Option.ne_none_iff_isSome.mp made

theorem podKeysOn_eq_of_nodes {c c' : CacheImpl} (same : c'.nodes = c.nodes) : c'.podKeysOn = c.podKeysOn := by
  unfold podKeysOn
  rw [same]

/-! ### The pod calls -/

section Pods

variable {isolation : Bool}

theorem podKeysOn_updateNodeInfo_addPod {c : CacheImpl} {name : String} (present : (infoOf c.nodes name).isSome)
    (pod : Pod) :
    (c.updateNodeInfo name fun info => info.addPod isolation pod).podKeysOn =
      Function.update c.podKeysOn name (c.podKeysOn name ++ [pod.uid]) := by
  obtain ⟨info, found⟩ := Option.isSome_iff_exists.mp present
  funext j
  by_cases same : j = name
  · subst same
    simp [podKeysOn, infoOf_updateNodeInfo, found, NodeInfo.addPod, NodeInfo.addPodInfo, newPodInfo]
  · simp [podKeysOn, infoOf_updateNodeInfo, same]

theorem addPod_spec {c c' : CacheImpl} {pod : Pod} {assumePod : Bool}
    (added : c.addPod isolation pod assumePod = .ok c') :
    ∃ key, getPodKey pod = .ok key ∧ key = pod.uid ∧ Stores c c' pod key assumePod := by
  unfold addPod at added
  cases keyOf : getPodKey pod with
  | error err => simp [keyOf] at added
  | ok key =>
    simp only [keyOf, Except.ok.injEq] at added
    subst added
    have keyIsUid : key = pod.uid := by
      unfold getPodKey at keyOf
      split_ifs at keyOf
      exact (Except.ok.inj keyOf).symm
    -- the pod is appended to the `NodeInfo` the name now has
    have appended := @podKeysOn_updateNodeInfo_addPod isolation _ _
      (infoOf_ensureNodeInfo_isSome c pod.spec.nodeName) pod
    rw [podKeysOn_ensureNodeInfo, ← keyIsUid] at appended
    refine ⟨key, rfl, keyIsUid, ⟨by split_ifs <;> simp, by split_ifs <;> simp, ?_⟩⟩
    have moved := (podKeysOn_moveNodeInfoToHead _ pod.spec.nodeName).trans appended
    split_ifs <;> exact (podKeysOn_eq_of_nodes rfl).trans moved

theorem keys_swapRemove_perm {pods : List PodInfo} {key : String} {i : ℕ}
    (found : pods.findIdx? (hasKey key) = some i) :
    ((swapRemove pods i).map fun podInfo => podInfo.pod.uid).Perm
      ((pods.map fun podInfo => podInfo.pod.uid).erase key) := by
  obtain ⟨inside, matched, -⟩ := List.findIdx?_eq_some_iff_getElem.mp found
  have split := (perm_cons_swapRemove inside).map fun podInfo : PodInfo => podInfo.pod.uid
  rw [List.map_cons, (hasKey_iff.mp matched).2] at split
  have member : key ∈ pods.map fun podInfo => podInfo.pod.uid := split.symm.subset List.mem_cons_self
  exact (split.symm.trans (List.perm_cons_erase member)).cons_inv

theorem podKeysOn_replace {c : CacheImpl} {name : String} {n : Cell String NodeInfo}
    (found : c.nodes.lookup name = some n) (info : NodeInfo) (j : String) :
    ({ c with nodes := modifyInfo c.nodes name fun _ => info } : CacheImpl).podKeysOn j =
      if j = name then info.pods.map fun podInfo => podInfo.pod.uid else c.podKeysOn j := by
  by_cases same : j = name
  · subst same
    simp only [podKeysOn, infoOf_modifyInfo_self, if_true]
    simp [infoOf, found]
  · simp [podKeysOn, infoOf_modifyInfo_ne _ same, same]

theorem podKeysOn_forget (c : CacheImpl) (podStates : AList fun _ : String => PodState)
    (assumedPods : Finset String) :
    ({ c with podStates := podStates, assumedPods := assumedPods } : CacheImpl).podKeysOn = c.podKeysOn := rfl

theorem podKeysOn_of_lookup_none {c : CacheImpl} {name : String} (missing : c.nodes.lookup name = none) :
    c.podKeysOn name = [] := by
  simp [podKeysOn, infoOf, missing]

theorem podKeysOn_of_lookup {c : CacheImpl} {name : String} {n : Cell String NodeInfo}
    (found : c.nodes.lookup name = some n) : c.podKeysOn name = n.info.pods.map fun podInfo => podInfo.pod.uid := by
  simp [podKeysOn, infoOf, found]

theorem removePod_spec {c c' : CacheImpl} {pod : Pod} {err : Option String}
    (removed : c.removePod isolation pod = some (c', err)) :
    (err.isSome ∧ KeepsPods c c') ∨
      (err = none ∧ ∃ key, getPodKey pod = .ok key ∧ key = pod.uid ∧ Forgets c c' pod.spec.nodeName key) := by
  unfold removePod at removed
  cases keyOf : getPodKey pod with
  | error e =>
    simp only [keyOf, Option.some.injEq, Prod.mk.injEq] at removed
    obtain ⟨rfl, rfl⟩ := removed
    exact .inl ⟨rfl, KeepsPods.refl c⟩
  | ok key =>
    have keyIsUid : key = pod.uid := by
      unfold getPodKey at keyOf
      split_ifs at keyOf
      exact (Except.ok.inj keyOf).symm
    simp only [keyOf] at removed
    cases found : c.nodes.lookup pod.spec.nodeName with
    | none =>
      -- a node without a `NodeInfo`: the pod is forgotten all the same
      simp only [found, Option.some.injEq, Prod.mk.injEq] at removed
      obtain ⟨rfl, rfl⟩ := removed
      refine .inr ⟨rfl, key, rfl, keyIsUid, rfl, rfl, fun j => ?_⟩
      rw [podKeysOn_forget]
      split_ifs with same
      · rw [same, podKeysOn_of_lookup_none found]
        rfl
      · rfl
    | some n =>
      simp only [found] at removed
      cases inner : n.info.removePod isolation pod (nextGeneration c.generation) with
      | none => simp [inner] at removed
      | some result =>
        obtain ⟨info, innerErr⟩ := result
        rcases NodeInfo.removePod_cases inner with ⟨failed, samePods, -, -⟩ | ⟨rfl, -, i, index, pods, -, -⟩
        · -- `RemovePod` failed: only the affinity slices changed
          obtain ⟨e, rfl⟩ := Option.isSome_iff_exists.mp failed
          simp only [inner, Option.some.injEq, Prod.mk.injEq] at removed
          obtain ⟨rfl, rfl⟩ := removed
          refine .inl ⟨rfl, rfl, rfl, ?_⟩
          funext j
          rw [podKeysOn_replace found, samePods, ← podKeysOn_of_lookup found]
          split_ifs with same
          · rw [same]
          · rfl
        · simp only [inner, Option.some.injEq, Prod.mk.injEq] at removed
          obtain ⟨rfl, rfl⟩ := removed
          refine .inr ⟨rfl, key, rfl, keyIsUid, by split_ifs <;> rfl, by split_ifs <;> rfl, fun j => ?_⟩
          have replaced := podKeysOn_replace (c := c.nextGen) found info
          -- a `NodeInfo` left without pods or node goes; the keys are those it had
          have listed : (if info.pods = [] ∧ info.node = none then
              ({ c.nextGen with nodes := modifyInfo c.nextGen.nodes pod.spec.nodeName fun _ => info } : CacheImpl).removeNodeInfoFromList pod.spec.nodeName
            else ({ c.nextGen with nodes := modifyInfo c.nextGen.nodes pod.spec.nodeName fun _ => info } : CacheImpl).moveNodeInfoToHead pod.spec.nodeName).podKeysOn =
              ({ c.nextGen with nodes := modifyInfo c.nextGen.nodes pod.spec.nodeName fun _ => info } : CacheImpl).podKeysOn := by
            split_ifs with gone
            · refine podKeysOn_removeNodeInfoFromList ?_
              rw [replaced, if_pos rfl, gone.1]
              rfl
            · exact podKeysOn_moveNodeInfoToHead _ _
          rw [podKeysOn_forget, listed, replaced, pods, podKeysOn_of_lookup found]
          split_ifs with same
          · exact keys_swapRemove_perm (keyIsUid ▸ index)
          · rfl

theorem removePod_of_held {c : CacheImpl} {pod : Pod} (keyed : pod.uid ≠ "")
    (held : pod.uid ∈ c.podKeysOn pod.spec.nodeName) : ∃ c', c.removePod isolation pod = some (c', none) := by
  cases found : c.nodes.lookup pod.spec.nodeName with
  | none =>
    rw [podKeysOn_of_lookup_none found] at held
    cases held
  | some n =>
    rw [podKeysOn_of_lookup found] at held
    obtain ⟨q, stored, same⟩ := List.mem_map.mp held
    obtain ⟨info, inner⟩ : ∃ info, n.info.removePod isolation pod (nextGeneration c.generation) = some (info, none) :=
      NodeInfo.removePod_of_mem stored keyed same _
    have keyOf : getPodKey pod = .ok pod.uid := by simp [getPodKey, keyed]
    simp only [removePod, keyOf, found, inner]
    exact ⟨_, rfl⟩

end Pods


/-! ## What keeps `cleanupAssumedPods` running -/

/-- Every state is stored under its pod's key, every assumed key has a state, an assumed pod whose
binding finished has a deadline, and the `NodeInfo` of an assumed pod's node holds its key. -/
structure ExpirySafe (c : CacheImpl) : Prop where
  keyed : ∀ key ps, c.podStates.lookup key = some ps → getPodKey ps.pod = .ok key
  assumed : ∀ key ∈ c.assumedPods, key ∈ c.podStates
  deadline : ∀ key ∈ c.assumedPods, ∀ ps, c.podStates.lookup key = some ps → ps.bindingFinished = true →
    ps.deadline.isSome
  held : ∀ key ∈ c.assumedPods, ∀ ps, c.podStates.lookup key = some ps → key ∈ c.podKeysOn ps.pod.spec.nodeName

theorem expirySafe_newCache (ttl generation : ℤ) : (newCache ttl generation).ExpirySafe where
  keyed := by simp [newCache]
  assumed := by simp [newCache]
  deadline := by simp [newCache]
  held := by simp [newCache]

theorem ExpirySafe.keeps {c c' : CacheImpl} (safe : c.ExpirySafe) (keeps : KeepsPods c c') : c'.ExpirySafe := by
  obtain ⟨podStates, assumedPods, podKeysOn⟩ := keeps
  exact ⟨podStates ▸ safe.keyed, podStates ▸ assumedPods ▸ safe.assumed, podStates ▸ assumedPods ▸ safe.deadline,
    podKeysOn ▸ podStates ▸ assumedPods ▸ safe.held⟩

theorem ExpirySafe.forgets {c c' : CacheImpl} {name key : String} (safe : c.ExpirySafe)
    (forgets : Forgets c c' name key) : c'.ExpirySafe where
  keyed := fun k ps found => by
    by_cases same : k = key
    · rw [forgets.podStates, same, AList.lookup_erase] at found
      cases found
    · exact safe.keyed k ps (forgets.lookup same ▸ found)
  assumed := fun k member => by
    obtain ⟨other, member⟩ := forgets.mem_assumedPods.mp member
    rw [forgets.podStates, AList.mem_erase]
    exact ⟨other, safe.assumed k member⟩
  deadline := fun k member ps found finished => by
    obtain ⟨other, member⟩ := forgets.mem_assumedPods.mp member
    exact safe.deadline k member ps (forgets.lookup other ▸ found) finished
  held := fun k member ps found => by
    obtain ⟨other, member⟩ := forgets.mem_assumedPods.mp member
    exact (forgets.mem_podKeysOn other).mpr (safe.held k member ps (forgets.lookup other ▸ found))

theorem ExpirySafe.stores {c c' : CacheImpl} {pod : Pod} {key : String} {assumePod : Bool} (safe : c.ExpirySafe)
    (keyOf : getPodKey pod = .ok key) (stores : Stores c c' pod key assumePod) : c'.ExpirySafe where
  keyed := fun k ps found => by
    rw [stores.podStates] at found
    by_cases same : k = key
    · subst same
      rw [AList.lookup_insert, Option.some.injEq] at found
      exact found ▸ keyOf
    · exact safe.keyed k ps (by rwa [AList.lookup_insert_ne same] at found)
  assumed := fun k member => by
    rw [stores.podStates, AList.mem_insert]
    by_cases same : k = key
    · exact .inl same
    · exact .inr (safe.assumed k ((stores.mem_assumedPods same).mp member))
  deadline := fun k member ps found finished => by
    rw [stores.podStates] at found
    by_cases same : k = key
    · -- a pod just stored has not finished binding
      subst same
      rw [AList.lookup_insert, Option.some.injEq] at found
      rw [← found] at finished
      cases finished
    · rw [AList.lookup_insert_ne same] at found
      exact safe.deadline k ((stores.mem_assumedPods same).mp member) ps found finished
  held := fun k member ps found => by
    rw [stores.podStates] at found
    by_cases same : k = key
    · subst same
      rw [AList.lookup_insert, Option.some.injEq] at found
      rw [← found, stores.podKeysOn]
      simp
    · rw [AList.lookup_insert_ne same] at found
      exact stores.mem_podKeysOn (safe.held k ((stores.mem_assumedPods same).mp member) ps found)

theorem ExpirySafe.restate {c : CacheImpl} (safe : c.ExpirySafe) {key : String} {ps ps' : PodState}
    (found : c.podStates.lookup key = some ps) (keyOf : getPodKey ps'.pod = .ok key) {assumedPods : Finset String}
    (fewer : assumedPods ⊆ c.assumedPods)
    (kept : key ∈ assumedPods → ps'.pod.spec.nodeName = ps.pod.spec.nodeName ∧
      (ps'.bindingFinished = true → ps'.deadline.isSome)) :
    ({ c with podStates := c.podStates.insert key ps', assumedPods := assumedPods } : CacheImpl).ExpirySafe where
  keyed := fun k ps'' stored => by
    by_cases same : k = key
    · subst same
      rw [AList.lookup_insert, Option.some.injEq] at stored
      exact stored ▸ keyOf
    · exact safe.keyed k ps'' (by rwa [AList.lookup_insert_ne same] at stored)
  assumed := fun k member => (AList.mem_insert _).mpr (.inr (safe.assumed k (fewer member)))
  deadline := fun k member ps'' stored finished => by
    by_cases same : k = key
    · subst same
      rw [AList.lookup_insert, Option.some.injEq] at stored
      exact stored ▸ (kept member).2 (stored ▸ finished)
    · rw [AList.lookup_insert_ne same] at stored
      exact safe.deadline k (fewer member) ps'' stored finished
  held := fun k member ps'' stored => by
    by_cases same : k = key
    · subst same
      rw [AList.lookup_insert, Option.some.injEq] at stored
      rw [← stored, (kept member).1]
      exact safe.held k (fewer member) ps found
    · rw [AList.lookup_insert_ne same] at stored
      exact safe.held k (fewer member) ps'' stored

section Calls

variable {isolation : Bool}

theorem ExpirySafe.removePod {c c' : CacheImpl} (safe : c.ExpirySafe) {pod : Pod} {err : Option String}
    (removed : c.removePod isolation pod = some (c', err)) : c'.ExpirySafe := by
  rcases removePod_spec removed with ⟨-, keeps⟩ | ⟨-, key, -, -, forgets⟩
  · exact safe.keeps keeps
  · exact safe.forgets forgets

theorem ExpirySafe.addPod {c c' : CacheImpl} (safe : c.ExpirySafe) {pod : Pod} {assumePod : Bool}
    (added : c.addPod isolation pod assumePod = .ok c') : c'.ExpirySafe := by
  obtain ⟨key, keyOf, -, stores⟩ := addPod_spec added
  exact safe.stores keyOf stores

theorem ExpirySafe.updatePod {c c' : CacheImpl} (safe : c.ExpirySafe) {oldPod newPod : Pod} {err : Option String}
    (updated : c.updatePod isolation oldPod newPod = some (c', err)) : c'.ExpirySafe := by
  unfold CacheImpl.updatePod at updated
  cases removed : c.removePod isolation oldPod with
  | none => simp [removed] at updated
  | some result =>
    obtain ⟨c₁, removeErr⟩ := result
    have safe₁ := safe.removePod removed
    cases removeErr with
    | some e =>
      simp only [removed, Option.some.injEq, Prod.mk.injEq] at updated
      exact updated.1 ▸ safe₁
    | none =>
      simp only [removed] at updated
      cases added : c₁.addPod isolation newPod false with
      | error e =>
        simp only [added, Option.some.injEq, Prod.mk.injEq] at updated
        exact updated.1 ▸ safe₁
      | ok c₂ =>
        simp only [added, Option.some.injEq, Prod.mk.injEq] at updated
        exact updated.1 ▸ safe₁.addPod added

theorem ExpirySafe.assumePod {c c' : CacheImpl} (safe : c.ExpirySafe) {pod : Pod}
    (assumed : c.assumePod isolation pod = .ok c') : c'.ExpirySafe := by
  unfold CacheImpl.assumePod at assumed
  cases keyOf : getPodKey pod with
  | error e => simp [keyOf] at assumed
  | ok key =>
    simp only [keyOf] at assumed
    split_ifs at assumed
    exact safe.addPod assumed

theorem ExpirySafe.finishBinding {c c' : CacheImpl} (safe : c.ExpirySafe) {pod : Pod} {now : ℤ}
    (finished : c.finishBinding pod now = .ok c') : c'.ExpirySafe := by
  unfold CacheImpl.finishBinding at finished
  cases keyOf : getPodKey pod with
  | error e => simp [keyOf] at finished
  | ok key =>
    simp only [keyOf] at finished
    cases found : c.podStates.lookup key with
    | none =>
      simp only [found, Except.ok.injEq] at finished
      exact finished ▸ safe
    | some currState =>
      simp only [found] at finished
      split_ifs at finished
      · cases finished
        refine safe.restate found ?_ subset_rfl fun _ => ⟨rfl, fun _ => rfl⟩
        exact safe.keyed key currState found
      · cases finished
        exact safe

theorem ExpirySafe.forgetPod {c c' : CacheImpl} (safe : c.ExpirySafe) {pod : Pod} {err : Option String}
    (forgot : c.forgetPod isolation pod = some (c', err)) : c'.ExpirySafe := by
  unfold CacheImpl.forgetPod at forgot
  cases keyOf : getPodKey pod with
  | error e =>
    simp only [keyOf, Option.some.injEq, Prod.mk.injEq] at forgot
    exact forgot.1 ▸ safe
  | ok key =>
    simp only [keyOf] at forgot
    cases found : c.podStates.lookup key with
    | none =>
      simp only [found, Option.some.injEq, Prod.mk.injEq] at forgot
      exact forgot.1 ▸ safe
    | some currState =>
      simp only [found] at forgot
      split_ifs at forgot
      · simp only [Option.some.injEq, Prod.mk.injEq] at forgot
        exact forgot.1 ▸ safe
      · exact safe.removePod forgot
      · simp only [Option.some.injEq, Prod.mk.injEq] at forgot
        exact forgot.1 ▸ safe

theorem ExpirySafe.AddPod {c c' : CacheImpl} (safe : c.ExpirySafe) {pod : Pod} {err : Option String}
    (added : c.AddPod isolation pod = some (c', err)) : c'.ExpirySafe := by
  unfold CacheImpl.AddPod at added
  cases keyOf : getPodKey pod with
  | error e =>
    simp only [keyOf, Option.some.injEq, Prod.mk.injEq] at added
    exact added.1 ▸ safe
  | ok key =>
    simp only [keyOf] at added
    cases found : c.podStates.lookup key with
    | none =>
      -- an expired pod is added back
      simp only [found] at added
      cases stored : c.addPod isolation pod false with
      | error e =>
        simp only [stored, Option.some.injEq, Prod.mk.injEq] at added
        exact added.1 ▸ safe
      | ok c₁ =>
        simp only [stored, Option.some.injEq, Prod.mk.injEq] at added
        exact added.1 ▸ safe.addPod stored
    | some currState =>
      simp only [found] at added
      split_ifs at added
      · obtain ⟨⟨c₁, e⟩, updated, moved⟩ := Option.map_eq_some_iff.mp added
        simp only [Prod.mk.injEq] at moved
        exact moved.1 ▸ safe.updatePod updated
      · -- the assumed pod is confirmed on its node: it is no longer assumed
        simp only [Option.some.injEq, Prod.mk.injEq] at added
        exact added.1 ▸ safe.restate found keyOf (Finset.erase_subset _ _) fun member =>
          absurd member (Finset.notMem_erase _ _)
      · simp only [Option.some.injEq, Prod.mk.injEq] at added
        exact added.1 ▸ safe

theorem ExpirySafe.UpdatePod {c c' : CacheImpl} (safe : c.ExpirySafe) {oldPod newPod : Pod} {err : Option String}
    (updated : c.UpdatePod isolation oldPod newPod = some (c', err)) : c'.ExpirySafe := by
  unfold CacheImpl.UpdatePod at updated
  cases keyOf : getPodKey oldPod with
  | error e =>
    simp only [keyOf, Option.some.injEq, Prod.mk.injEq] at updated
    exact updated.1 ▸ safe
  | ok key =>
    simp only [keyOf] at updated
    cases found : c.podStates.lookup key with
    | none =>
      simp only [found, Option.some.injEq, Prod.mk.injEq] at updated
      exact updated.1 ▸ safe
    | some currState =>
      simp only [found] at updated
      by_cases assumed : key ∈ c.assumedPods
      · rw [if_neg (not_not.mpr assumed), Option.some.injEq, Prod.mk.injEq] at updated
        exact updated.1 ▸ safe
      · rw [if_pos assumed] at updated
        split_ifs at updated
        exact safe.updatePod updated

theorem ExpirySafe.RemovePod {c c' : CacheImpl} (safe : c.ExpirySafe) {pod : Pod} {err : Option String}
    (removed : c.RemovePod isolation pod = some (c', err)) : c'.ExpirySafe := by
  unfold CacheImpl.RemovePod at removed
  cases keyOf : getPodKey pod with
  | error e =>
    simp only [keyOf, Option.some.injEq, Prod.mk.injEq] at removed
    exact removed.1 ▸ safe
  | ok key =>
    simp only [keyOf] at removed
    cases found : c.podStates.lookup key with
    | none =>
      simp only [found, Option.some.injEq, Prod.mk.injEq] at removed
      exact removed.1 ▸ safe
    | some currState =>
      simp only [found] at removed
      split_ifs at removed
      exact safe.removePod removed

theorem ExpirySafe.cleanupStep {c c' : CacheImpl} (safe : c.ExpirySafe) {now : ℤ} {key : String}
    (stepped : cleanupStep isolation now c key = some c') : c'.ExpirySafe := by
  unfold CacheImpl.cleanupStep at stepped
  cases found : c.podStates.lookup key with
  | none => simp [found] at stepped
  | some ps =>
    simp only [found] at stepped
    split_ifs at stepped
    · cases stepped
      exact safe
    · cases deadline : ps.deadline with
      | none => simp [deadline] at stepped
      | some d =>
        simp only [deadline] at stepped
        split_ifs at stepped
        · obtain ⟨⟨c₁, e⟩, removed, rfl⟩ := Option.map_eq_some_iff.mp stepped
          exact safe.removePod removed
        · cases stepped
          exact safe

theorem ExpirySafe.cleanupAssumedPods {now : ℤ} : ∀ (keys : List String) {c c' : CacheImpl}, c.ExpirySafe →
    c.cleanupAssumedPods isolation now keys = some c' → c'.ExpirySafe
  | [], c, c', safe, cleaned => by
    cases cleaned
    exact safe
  | key :: keys, c, c', safe, cleaned => by
    simp only [CacheImpl.cleanupAssumedPods, List.foldlM_cons, Option.bind_eq_bind, Option.bind_eq_some_iff] at cleaned
    obtain ⟨c₁, stepped, rest⟩ := cleaned
    exact ExpirySafe.cleanupAssumedPods keys (safe.cleanupStep stepped) rest

end Calls

/-! ### The node calls keep the pods -/

theorem keepsPods_ensureNodeInfo (c : CacheImpl) (name : String) : KeepsPods c (c.ensureNodeInfo name) :=
  ⟨by simp, by simp, by simp⟩

theorem keepsPods_moveNodeInfoToHead (c : CacheImpl) (name : String) : KeepsPods c (c.moveNodeInfoToHead name) :=
  ⟨rfl, rfl, by simp⟩

theorem keepsPods_updateNodeInfo (c : CacheImpl) (name : String) {f : NodeInfo → ℤ → NodeInfo}
    (keeps : ∀ info generation, (f info generation).pods = info.pods) : KeepsPods c (c.updateNodeInfo name f) :=
  ⟨rfl, rfl, podKeysOn_updateNodeInfo keeps⟩

theorem keepsPods_nodeTree (c : CacheImpl) (nodeTree : NodeTree) : KeepsPods c { c with nodeTree := nodeTree } :=
  ⟨rfl, rfl, rfl⟩

theorem keepsPods_addNode (c : CacheImpl) (node : Node) : KeepsPods c (c.addNode node) :=
  ((((keepsPods_ensureNodeInfo c _).trans (keepsPods_moveNodeInfoToHead _ _)).trans (keepsPods_nodeTree _ _)).trans
    (keepsPods_updateNodeInfo _ _ fun _ _ => rfl))

theorem keepsPods_updateNode {c c' : CacheImpl} {oldNode : Option Node} {newNode : Node}
    (updated : c.updateNode oldNode newNode = some c') : KeepsPods c c' := by
  unfold CacheImpl.updateNode at updated
  obtain ⟨nodeTree, -, rfl⟩ := Option.map_eq_some_iff.mp updated
  refine (((?_ : KeepsPods c _).trans (keepsPods_moveNodeInfoToHead _ _)).trans (keepsPods_nodeTree _ _)).trans
    (keepsPods_updateNodeInfo _ _ fun _ _ => rfl)
  split
  · exact KeepsPods.refl c
  · exact (keepsPods_ensureNodeInfo c _).trans (keepsPods_nodeTree _ _)

theorem keepsPods_removeNode (c : CacheImpl) (node : Node) : KeepsPods c (c.removeNode node).1 := by
  unfold CacheImpl.removeNode
  cases found : c.nodes.lookup node.name with
  | none => exact KeepsPods.refl c
  | some n =>
    simp only
    have removed := keepsPods_updateNodeInfo c node.name (f := fun info generation => info.removeNode generation)
      fun _ _ => rfl
    refine KeepsPods.trans ?_ (keepsPods_nodeTree _ _)
    split_ifs with empty
    · -- a `NodeInfo` without pods leaves the list
      refine removed.trans ⟨rfl, rfl, podKeysOn_removeNodeInfoFromList ?_⟩
      rw [removed.podKeysOn, podKeysOn_of_lookup found, empty]
      rfl
    · exact removed.trans (keepsPods_moveNodeInfoToHead _ _)

/-! ## Every run, and `cleanupAssumedPods` -/

section Runs

variable {isolation : Bool}

theorem ExpirySafe.step {c c' : CacheImpl} (safe : c.ExpirySafe) {call : Call}
    (stepped : c.step isolation call = some c') : c'.ExpirySafe := by
  cases call with
  | assumePod pod =>
    simp only [CacheImpl.step, Option.some.injEq] at stepped
    cases assumed : c.assumePod isolation pod with
    | error e =>
      simp only [assumed, Except.toOption, Option.getD_none] at stepped
      exact stepped ▸ safe
    | ok c₁ =>
      simp only [assumed, Except.toOption, Option.getD_some] at stepped
      exact stepped ▸ safe.assumePod assumed
  | finishBinding pod now =>
    simp only [CacheImpl.step, Option.some.injEq] at stepped
    cases finished : c.finishBinding pod now with
    | error e =>
      simp only [finished, Except.toOption, Option.getD_none] at stepped
      exact stepped ▸ safe
    | ok c₁ =>
      simp only [finished, Except.toOption, Option.getD_some] at stepped
      exact stepped ▸ safe.finishBinding finished
  | forgetPod pod =>
    obtain ⟨⟨c₁, e⟩, forgot, rfl⟩ := Option.map_eq_some_iff.mp stepped
    exact safe.forgetPod forgot
  | addPod pod =>
    obtain ⟨⟨c₁, e⟩, added, rfl⟩ := Option.map_eq_some_iff.mp stepped
    exact safe.AddPod added
  | updatePod oldPod newPod =>
    obtain ⟨⟨c₁, e⟩, updated, rfl⟩ := Option.map_eq_some_iff.mp stepped
    exact safe.UpdatePod updated
  | removePod pod =>
    obtain ⟨⟨c₁, e⟩, removed, rfl⟩ := Option.map_eq_some_iff.mp stepped
    exact safe.RemovePod removed
  | addNode node =>
    cases stepped
    exact safe.keeps (keepsPods_addNode c node)
  | updateNode oldNode newNode => exact safe.keeps (keepsPods_updateNode stepped)
  | removeNode node =>
    cases stepped
    exact safe.keeps (keepsPods_removeNode c node)
  | cleanupAssumedPods now keys => exact ExpirySafe.cleanupAssumedPods keys safe stepped
  | elsewhere =>
    cases stepped
    exact safe.keeps ⟨rfl, rfl, rfl⟩

theorem expirySafe_of_reachable : (system isolation).Invariant ExpirySafe :=
  System.Inductive.invariant ⟨fun _ ⟨ttl, generation, made⟩ => made ▸ expirySafe_newCache ttl generation,
    fun _ _ _ safe stepped => safe.step stepped⟩

/-- An assumed pod whose binding finished and whose deadline is before `now`. -/
def Expired (c : CacheImpl) (now : ℤ) (key : String) : Prop :=
  key ∈ c.assumedPods ∧ ∃ ps, c.podStates.lookup key = some ps ∧ ps.bindingFinished = true ∧
    ∃ deadline, ps.deadline = some deadline ∧ now > deadline

theorem getPodKey_eq_ok {pod : Pod} {key : String} (keyOf : getPodKey pod = .ok key) : pod.uid = key ∧ key ≠ "" := by
  unfold getPodKey at keyOf
  split_ifs at keyOf with empty
  cases keyOf
  exact ⟨rfl, empty⟩

theorem cleanupStep_spec {c : CacheImpl} (safe : c.ExpirySafe) (now : ℤ) {key : String}
    (assumed : key ∈ c.assumedPods) :
    ∃ c', c.cleanupStep isolation now key = some c' ∧ ¬c'.Expired now key ∧ c'.assumedPods ⊆ c.assumedPods ∧
      ∀ k, k ≠ key → c'.podStates.lookup k = c.podStates.lookup k ∧ (k ∈ c'.assumedPods ↔ k ∈ c.assumedPods) := by
  obtain ⟨ps, found⟩ := Option.isSome_iff_exists.mp (AList.lookup_isSome.mpr (safe.assumed key assumed))
  unfold CacheImpl.cleanupStep
  simp only [found]
  cases finished : ps.bindingFinished with
  | false =>
    refine ⟨c, by simp, fun ⟨_, ps', found', finished', _⟩ => ?_, subset_rfl,
      fun _ _ => ⟨rfl, Iff.rfl⟩⟩
    rw [found, Option.some.injEq] at found'
    rw [← found', finished] at finished'
    cases finished'
  | true =>
    obtain ⟨deadline, hasDeadline⟩ := Option.isSome_iff_exists.mp (safe.deadline key assumed ps found finished)
    simp only [Bool.not_true, Bool.false_eq_true, if_false, hasDeadline]
    by_cases passed : now > deadline
    · -- expired: the `NodeInfo` of its node holds it, so the removal goes through
      obtain ⟨uid, keyed⟩ := getPodKey_eq_ok (safe.keyed key ps found)
      obtain ⟨c', removed⟩ : ∃ c', c.removePod isolation ps.pod = some (c', none) :=
        removePod_of_held (uid ▸ keyed) (uid ▸ safe.held key assumed ps found)
      rcases removePod_spec removed with ⟨failed, -⟩ | ⟨-, key', -, same, forgets⟩
      · cases failed
      · rw [same, uid] at forgets
        refine ⟨c', by rw [if_pos passed, removed]; rfl, fun expired => ?_, fun k member => ?_,
          fun k other => ⟨forgets.lookup other, ?_⟩⟩
        · exact (forgets.mem_assumedPods.mp expired.1).1 rfl
        · exact (forgets.mem_assumedPods.mp member).2
        · rw [forgets.mem_assumedPods]
          exact ⟨fun held => held.2, fun held => ⟨other, held⟩⟩
    · refine ⟨c, by rw [if_neg passed], fun ⟨_, ps', found', _, d, hasD, late⟩ => passed ?_, subset_rfl,
        fun _ _ => ⟨rfl, Iff.rfl⟩⟩
      rw [found, Option.some.injEq] at found'
      rw [← found', hasDeadline, Option.some.injEq] at hasD
      exact hasD ▸ late

theorem cleanupLoop_spec (now : ℤ) : ∀ (keys : List String) {c : CacheImpl}, c.ExpirySafe → keys.Nodup →
    (∀ key ∈ keys, key ∈ c.assumedPods) →
    ∃ c', c.cleanupAssumedPods isolation now keys = some c' ∧ c'.ExpirySafe ∧ c'.assumedPods ⊆ c.assumedPods ∧
      (∀ key ∈ keys, ¬c'.Expired now key) ∧
      ∀ k, k ∉ keys → c'.podStates.lookup k = c.podStates.lookup k ∧ (k ∈ c'.assumedPods ↔ k ∈ c.assumedPods)
  | [], c, safe, _, _ => ⟨c, rfl, safe, subset_rfl, by simp, fun _ _ => ⟨rfl, Iff.rfl⟩⟩
  | key :: keys, c, safe, distinct, assumed => by
    obtain ⟨notLater, distinct⟩ := List.nodup_cons.mp distinct
    obtain ⟨c₁, stepped, gone, fewer₁, frame₁⟩ := cleanupStep_spec safe now (assumed key List.mem_cons_self)
    -- the keys still to visit are still assumed
    have later : ∀ k ∈ keys, k ∈ c₁.assumedPods := fun k listed =>
      ((frame₁ k fun same => notLater (same ▸ listed)).2).mpr (assumed k (List.mem_cons_of_mem key listed))
    obtain ⟨c', cleaned, safe', fewer', visited, frame'⟩ :=
      cleanupLoop_spec now keys (safe.cleanupStep stepped) distinct later
    refine ⟨c', ?_, safe', fewer'.trans fewer₁, fun k listed => ?_, fun k notIn => ?_⟩
    · simp only [CacheImpl.cleanupAssumedPods, List.foldlM_cons, Option.bind_eq_bind]
      rw [stepped, Option.bind_some]
      exact cleaned
    · rcases List.mem_cons.mp listed with rfl | listed
      · -- the key visited first is not visited again, and its state stays
        intro expired
        obtain ⟨same, sameMember⟩ := frame' k notLater
        exact gone ⟨sameMember.mp expired.1, by rw [← same]; exact expired.2⟩
      · exact visited k listed
    · simp only [List.mem_cons, not_or] at notIn
      obtain ⟨other, notIn⟩ := notIn
      exact ⟨(frame' k notIn).1.trans (frame₁ k other).1, (frame' k notIn).2.trans (frame₁ k other).2⟩

theorem cleanupAssumedPods_of_reachable {c : CacheImpl} (reachable : (system isolation).Reachable c) (now : ℤ)
    {keys : List String} (distinct : keys.Nodup) (walk : ∀ key, key ∈ keys ↔ key ∈ c.assumedPods) :
    ∃ c', c.cleanupAssumedPods isolation now keys = some c' ∧ c'.assumedPods ⊆ c.assumedPods ∧
      ∀ key ∈ c'.assumedPods, ∀ ps, c'.podStates.lookup key = some ps → ps.bindingFinished = true →
        ∃ deadline, ps.deadline = some deadline ∧ now ≤ deadline := by
  have safe := expirySafe_of_reachable c reachable
  obtain ⟨c', cleaned, safe', fewer, visited, -⟩ :=
    cleanupLoop_spec now keys safe distinct fun key listed => (walk key).mp listed
  refine ⟨c', cleaned, fewer, fun key member ps found finished => ?_⟩
  obtain ⟨deadline, hasDeadline⟩ := Option.isSome_iff_exists.mp (safe'.deadline key member ps found finished)
  exact ⟨deadline, hasDeadline, not_lt.mp fun passed =>
    visited key ((walk key).mpr (fewer member)) ⟨member, ps, found, finished, deadline, hasDeadline, passed⟩⟩

end Runs

namespace Runs

def web : Pod := { «namespace» := "default", name := "web", uid := "uid-web", spec := { nodeName := "node-a" } }

/-- The cache of a scheduler with a `ttl` of 30 that assumed `web` and finished its binding at time 100. -/
def bound : CacheImpl :=
  let assumed := ((newCache 30 0).assumePod false web).toOption.getD (newCache 30 0)
  (assumed.finishBinding web 100).toOption.getD assumed

theorem bound_reachable : (system false).Reachable bound :=
  .step (.finishBinding web 100) (.step (.assumePod web) (.init ⟨30, 0, rfl⟩) rfl) rfl

theorem bound_assumedPods : bound.assumedPods = {"uid-web"} := by decide

theorem cleans_bound : (system false).Reachable bound ∧
    ∃ c', bound.cleanupAssumedPods false 200 ["uid-web"] = some c' ∧ c'.assumedPods ⊆ bound.assumedPods ∧
      ∀ key ∈ c'.assumedPods, ∀ ps, c'.podStates.lookup key = some ps → ps.bindingFinished = true →
        ∃ deadline, ps.deadline = some deadline ∧ 200 ≤ deadline :=
  ⟨bound_reachable, cleanupAssumedPods_of_reachable bound_reachable 200 (by decide)
    fun key => by simp [bound_assumedPods]⟩

-- the deadline 130 has passed at 200, so the pod is removed
example : (bound.cleanupAssumedPods false 200 ["uid-web"]).map (·.assumedPods) = some ∅ := by decide

end Runs

end CacheImpl

end Kubernetes.Scheduler.Cache
