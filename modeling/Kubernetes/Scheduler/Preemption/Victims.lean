import Kubernetes.Scheduler.Preemption.SelectVictims

/-! What the victims of a preemption on a node are.

The first loop of `SelectVictimsOnNode` reads, at round `j`, slot `j` of the array the range took.
`RemovePod` writes only at the slot where it finds the pod and the slots below the slice's new
end, and it finds the pod of round `j` at slot `j` or below: the pods of the node have distinct
keys, and slot `j` still holds that pod wherever the slice reaches it. So each slot from the
round's on holds what it held when the loop began, and the loop meets every pod of the node once,
in order, each still on the node when it is taken off.

Where the filter plugins fit the preemptor on a set of pods whenever they fit it on a larger one,
the reprieve keeps the preemptor fitting after each pod it handles, and a victim is a pod the
preemptor did not fit with, alongside pods that all stay on the node: so it does not fit with that
victim back on the node as the selection leaves it.

A pod is classed as violating where, counted after the pods before it in the sorted order, it
takes a budget that counts it below zero; the budgets are `int32`s and wrap.
-/

set_option autoImplicit false

namespace Kubernetes.Scheduler.Defaultpreemption

open Kubernetes.Library Kubernetes.Scheduler Kubernetes.Scheduler.NodeInfo

/-- Whether a pod's priority is below the preemptor's. -/
def lowerPriority (priority : ℤ) (pi : PodInfo) : Bool := decide (podPriority pi.pod < priority)

/-! ## The first loop -/

section FirstLoop

variable {isolation : Bool} {priority : ℤ} {orig : List PodInfo}

/-- The first loop at round `j` over the pods `orig` the node held: the array holds the pods from
slot `j` on as it did, the slice is a prefix of the array, the node holds the pods from slot `j`
on and the earlier ones not of lower priority, and the potential victims are the earlier ones of
lower priority. -/
structure Ranging (isolation : Bool) (priority : ℤ) (orig : List PodInfo) (j : ℕ) (backing : List PodInfo)
    (nodeInfo : NodeInfo) (potentialVictims : List PodInfo) : Prop where
  length : backing.length = orig.length
  untouched : backing.drop j = orig.drop j
  slice : nodeInfo.pods <+: backing
  pods : nodeInfo.pods.Perm ((orig.take j).filter (fun pi => !lowerPriority priority pi) ++ orig.drop j)
  victims : potentialVictims = (orig.take j).filter (lowerPriority priority)
  accounts : nodeInfo.Accounts isolation

theorem ranging_start {nodeInfo : NodeInfo} (accounts : nodeInfo.Accounts isolation) :
    Ranging isolation priority nodeInfo.pods 0 nodeInfo.pods nodeInfo [] where
  length := rfl
  untouched := rfl
  slice := List.prefix_refl _
  pods := by simp
  victims := by simp
  accounts := accounts

theorem Ranging.read {j : ℕ} {backing : List PodInfo} {nodeInfo : NodeInfo} {potentialVictims : List PodInfo}
    (ranging : Ranging isolation priority orig j backing nodeInfo potentialVictims) (inside : j < orig.length) :
    backing[j]? = some orig[j] := by
  have slot := congrArg (·[0]?) ranging.untouched
  simpa [List.getElem?_drop, List.getElem?_eq_getElem inside] using slot

theorem Ranging.take_succ {j : ℕ} (inside : j < orig.length) (p : PodInfo → Bool) :
    (orig.take (j + 1)).filter p = (orig.take j).filter p ++ [orig[j]].filter p := by
  rw [List.take_add_one, List.getElem?_eq_getElem inside, Option.toList_some, List.filter_append]

theorem Ranging.skip {j : ℕ} {backing : List PodInfo} {nodeInfo : NodeInfo} {potentialVictims : List PodInfo}
    (ranging : Ranging isolation priority orig j backing nodeInfo potentialVictims) (inside : j < orig.length)
    (kept : lowerPriority priority orig[j] = false) :
    Ranging isolation priority orig (j + 1) backing nodeInfo potentialVictims where
  length := ranging.length
  untouched := by rw [← List.drop_drop, ranging.untouched, List.drop_drop]
  slice := ranging.slice
  pods := by
    rw [Ranging.take_succ inside, List.filter_singleton, kept, Bool.not_false, cond_true, List.append_assoc,
      List.singleton_append, ← List.drop_eq_getElem_cons inside]
    exact ranging.pods
  victims := by rw [Ranging.take_succ inside, List.filter_singleton, kept, cond_false, List.append_nil,
    ranging.victims]
  accounts := ranging.accounts

theorem Ranging.mem {j : ℕ} {backing : List PodInfo} {nodeInfo : NodeInfo} {potentialVictims : List PodInfo}
    (ranging : Ranging isolation priority orig j backing nodeInfo potentialVictims) (inside : j < orig.length) :
    orig[j] ∈ nodeInfo.pods := by
  refine ranging.pods.symm.subset (List.mem_append_right _ ?_)
  rw [List.drop_eq_getElem_cons inside]
  exact List.mem_cons_self

theorem Ranging.found {j : ℕ} {backing : List PodInfo} {nodeInfo : NodeInfo} {potentialVictims : List PodInfo}
    (ranging : Ranging isolation priority orig j backing nodeInfo potentialVictims) (inside : j < orig.length) :
    ∃ i, ∃ within : i < nodeInfo.pods.length,
      nodeInfo.pods.findIdx? (hasKey orig[j].pod.uid) = some i ∧ nodeInfo.pods[i] = orig[j] ∧ i ≤ j := by
  have member := ranging.mem inside
  have keyed := ranging.accounts.keyed _ member
  obtain ⟨i, within, found, atI⟩ := findIdx?_hasKey ranging.accounts.unique member keyed
  refine ⟨i, within, found, atI, Nat.le_of_not_lt fun later => ?_⟩
  -- the slice reaches slot `j`, which holds the pod, and the search stops at the first match
  obtain ⟨_, _, first⟩ := List.findIdx?_eq_some_iff_getElem.mp found
  have reaches : j < nodeInfo.pods.length := Nat.lt_trans later within
  have atJ : nodeInfo.pods[j] = orig[j] := by
    rw [ranging.slice.getElem reaches]
    exact Option.some.inj ((List.getElem?_eq_getElem _).symm.trans (ranging.read inside))
  exact first j later (hasKey_iff.mpr ⟨atJ ▸ keyed, by rw [atJ]⟩)

theorem Ranging.remove {j : ℕ} {backing : List PodInfo} {nodeInfo : NodeInfo} {potentialVictims : List PodInfo}
    (ranging : Ranging isolation priority orig j backing nodeInfo potentialVictims) (inside : j < orig.length)
    (lower : lowerPriority priority orig[j] = true) (generation : ℤ) :
    ∃ removed, nodeInfo.removePod isolation orig[j].pod generation = some (removed, none) ∧
      Ranging isolation priority orig (j + 1) (removed.pods ++ backing.drop removed.pods.length) removed
        (potentialVictims ++ [orig[j]]) := by
  obtain ⟨i, within, found, atI, early⟩ := ranging.found inside
  have member := ranging.mem inside
  obtain ⟨removed, removal, accounts, -, perm, -⟩ := ranging.accounts.removePod member rfl rfl rfl generation
  have swapped : removed.pods = swapRemove nodeInfo.pods i := by
    rw [removePod_of_found (ranging.accounts.keyed _ member) found generation] at removal
    rw [← (Prod.mk.inj (Option.some.inj removal)).1]
  have shorter := length_swapRemove within
  -- the array now holds the slice with its last pod moved into slot `i`, at most `j`
  obtain ⟨last, atLast⟩ : ∃ last, nodeInfo.pods[nodeInfo.pods.length - 1]? = some last :=
    ⟨_, List.getElem?_eq_getElem (by omega)⟩
  have array : removed.pods ++ backing.drop removed.pods.length = backing.set i last := by
    rw [swapped, show (swapRemove nodeInfo.pods i).length = nodeInfo.pods.length - 1 by omega]
    exact swapRemove_append_drop ranging.slice within atLast
  refine ⟨removed, removal, ?_⟩
  rw [array]
  constructor
  · rw [List.length_set, ranging.length]
  · rw [List.drop_set_of_lt (show i < j + 1 by omega), ← List.drop_drop, ranging.untouched, List.drop_drop]
  · rw [← array]
    exact List.prefix_append _ _
  · -- the pod leaves the pods from slot `j` on, and is not among the earlier ones kept
    rw [Ranging.take_succ inside, List.filter_singleton, lower, Bool.not_true, cond_false, List.append_nil]
    have split := ranging.pods
    rw [List.drop_eq_getElem_cons inside] at split
    exact (perm.symm.trans (split.trans List.perm_middle)).cons_inv
  · rw [Ranging.take_succ inside, List.filter_singleton, lower, cond_true, ranging.victims]
  · exact accounts

theorem Ranging.run : ∀ (k j : ℕ) (backing : List PodInfo) (nodeInfo : NodeInfo) (potentialVictims : List PodInfo),
    j + k = orig.length → Ranging isolation priority orig j backing nodeInfo potentialVictims →
    ∃ removed, removeLowerPriority isolation priority (List.range' j k) backing nodeInfo potentialVictims =
        some (removed, orig.filter (lowerPriority priority), none) ∧
      removed.pods.Perm (orig.filter fun pi => !lowerPriority priority pi) ∧ removed.Accounts isolation
  | 0, j, backing, nodeInfo, potentialVictims, ended, ranging => by
    have all : orig.take j = orig := List.take_of_length_le (by omega)
    have none : orig.drop j = [] := List.drop_of_length_le (by omega)
    refine ⟨nodeInfo, ?_, ?_, ranging.accounts⟩
    · rw [List.range'_zero, removeLowerPriority, ranging.victims, all]
    · simpa [all, none] using ranging.pods
  | k + 1, j, backing, nodeInfo, potentialVictims, ended, ranging => by
    have inside : j < orig.length := by omega
    rw [List.range'_succ, removeLowerPriority, ranging.read inside]
    dsimp only
    by_cases lower : lowerPriority priority orig[j] = true
    · obtain ⟨removed, removal, next⟩ := ranging.remove inside lower (nextGeneration nodeInfo.generation)
      rw [if_pos (of_decide_eq_true lower), removal]
      exact Ranging.run k (j + 1) _ removed _ (by omega) next
    · rw [if_neg fun below => lower (decide_eq_true below)]
      exact Ranging.run k (j + 1) backing nodeInfo potentialVictims (by omega)
        (ranging.skip inside (Bool.eq_false_iff.mpr lower))

theorem removeLowerPriority_takes_lower (priority : ℤ) {nodeInfo : NodeInfo} (accounts : nodeInfo.Accounts isolation) :
    ∃ removed, removeLowerPriority isolation priority (List.range nodeInfo.pods.length) nodeInfo.pods nodeInfo [] =
        some (removed, nodeInfo.pods.filter (lowerPriority priority), none) ∧
      removed.pods.Perm (nodeInfo.pods.filter fun pi => !lowerPriority priority pi) ∧ removed.Accounts isolation := by
  rw [List.range_eq_range']
  exact Ranging.run _ 0 _ _ _ (Nat.zero_add _) (ranging_start accounts)

end FirstLoop

/-! ## The reprieve -/

/-- The filters fit the preemptor with fewer pods wherever they fit it with more: taking pods off
a node never turns a fit into a misfit. -/
def FitsWithFewer (runFilter : List Pod → Status) : Prop :=
  ∀ pods pods' : List Pod, pods ⊆ pods' → (runFilter pods').isSuccess = true → (runFilter pods).isSuccess = true

section Reprieve

variable {isolation : Bool} {runFilter : List Pod → Status}

theorem FitsWithFewer.perm (fewer : FitsWithFewer runFilter) {pods pods' : List Pod} (perm : pods.Perm pods') :
    (runFilter pods).isSuccess = (runFilter pods').isSuccess :=
  Bool.eq_iff_iff.mpr ⟨fewer _ _ perm.symm.subset, fewer _ _ perm.subset⟩

/-- The reprieve so far, over the pods `orig` the node held before the first loop: the node, the
victims so far and the pods still to handle hold those pods between them; the preemptor fits on
the node, and would not with any victim back on it. -/
structure Reprieving (isolation : Bool) (runFilter : List Pod → Status) (orig rest : List PodInfo)
    (nodeInfo : NodeInfo) (victims : List Pod) : Prop where
  accounts : nodeInfo.Accounts isolation
  whole : ∃ victimInfos, victims = victimInfos.map PodInfo.pod ∧ (nodeInfo.pods ++ victimInfos ++ rest).Perm orig
  fits : (runFilter (nodeInfo.pods.map PodInfo.pod)).isSuccess = true
  minimal : ∀ v ∈ victims, (runFilter (nodeInfo.pods.map PodInfo.pod ++ [v])).isSuccess = false

variable {original : NodeInfo}

theorem Reprieving.fresh (origin : original.Accounts isolation) {pi : PodInfo} {rest : List PodInfo}
    {nodeInfo : NodeInfo} {victims : List Pod}
    (reprieving : Reprieving isolation runFilter original.pods (pi :: rest) nodeInfo victims) :
    ∀ q ∈ nodeInfo.pods, q.pod.uid ≠ pi.pod.uid := by
  obtain ⟨victimInfos, -, whole⟩ := reprieving.whole
  have distinct : ((pi :: (nodeInfo.pods ++ victimInfos ++ rest)).map fun q => q.pod.uid).Nodup :=
    origin.unique.perm ((List.perm_middle.symm.trans whole).map _).symm
  intro q stored same
  rw [List.map_cons, List.nodup_cons] at distinct
  exact distinct.1 (same ▸ List.mem_map_of_mem (List.mem_append_left _ (List.mem_append_left _ stored)))

theorem Reprieving.reprieve (fewer : FitsWithFewer runFilter) (origin : original.Accounts isolation)
    {pi : PodInfo} {rest : List PodInfo} {nodeInfo : NodeInfo} {victims : List Pod}
    (reprieving : Reprieving isolation runFilter original.pods (pi :: rest) nodeInfo victims) :
    ∃ nodeInfo' fits, reprievePod isolation runFilter nodeInfo victims pi =
        some (nodeInfo', (if fits then victims else victims ++ [pi.pod]), fits, none) ∧
      Reprieving isolation runFilter original.pods rest nodeInfo' (if fits then victims else victims ++ [pi.pod]) := by
  obtain ⟨victimInfos, named, whole⟩ := reprieving.whole
  have member : pi ∈ original.pods := whole.subset (by simp)
  set added := nodeInfo.addPodInfo isolation pi (nextGeneration nodeInfo.generation) with added_def
  have asAdd : added = nodeInfo.addPod isolation pi.pod (nextGeneration nodeInfo.generation) := by
    rw [added_def, NodeInfo.addPod, ← origin.processed pi member]
  have addedAccounts : added.Accounts isolation :=
    asAdd ▸ reprieving.accounts.addPod (origin.keyed pi member) (reprieving.fresh origin) _
  have addedPods : added.pods = nodeInfo.pods ++ [pi] := rfl
  unfold reprievePod
  dsimp only
  rw [← added_def]
  cases fits : (runFilter (added.pods.map PodInfo.pod)).isSuccess
  · -- the preemptor does not fit with the pod, which goes back off as a victim
    obtain ⟨removed, removal, accounts, -, perm, -⟩ :=
      addedAccounts.removePod (q := pi) (by simp [addedPods]) rfl rfl rfl (nextGeneration added.generation)
    have back : removed.pods.Perm nodeInfo.pods := by
      rw [addedPods] at perm
      exact (perm.symm.trans (List.perm_append_singleton _ _)).cons_inv
    refine ⟨removed, false, by simp [removal], accounts, ⟨victimInfos ++ [pi], by simp [named], ?_⟩, ?_, ?_⟩
    · have moved : (removed.pods ++ (victimInfos ++ [pi]) ++ rest).Perm (nodeInfo.pods ++ victimInfos ++ pi :: rest) := by
        simpa only [List.append_assoc, List.singleton_append] using back.append_right (victimInfos ++ pi :: rest)
      exact moved.trans whole
    · rw [fewer.perm (back.map _)]
      exact reprieving.fits
    · intro v listed
      rcases List.mem_append.mp listed with earlier | now
      · rw [fewer.perm ((back.map _).append_right _)]
        exact reprieving.minimal v earlier
      · -- the victim just taken off is the pod the preemptor did not fit with
        rw [List.mem_singleton.mp now]
        have again : (removed.pods.map PodInfo.pod ++ [pi.pod]).Perm (added.pods.map PodInfo.pod) := by
          simpa using ((List.perm_append_singleton pi removed.pods).trans perm.symm).map PodInfo.pod
        rw [fewer.perm again]
        exact fits
  · -- the pod stays, and every victim still does not fit beside the pods now on the node
    refine ⟨added, true, by simp, addedAccounts, ⟨victimInfos, named, ?_⟩, fits, fun v listed => ?_⟩
    · have moved : (added.pods ++ victimInfos ++ rest).Perm (nodeInfo.pods ++ victimInfos ++ pi :: rest) := by
        rw [addedPods, List.append_assoc, List.append_assoc, List.append_assoc, List.singleton_append]
        exact List.Perm.append_left _ List.perm_middle.symm
      exact moved.trans whole
    · cases grown : (runFilter (added.pods.map PodInfo.pod ++ [v])).isSuccess
      · rfl
      · have fewerPods : nodeInfo.pods.map PodInfo.pod ++ [v] ⊆ added.pods.map PodInfo.pod ++ [v] := by
          intro q listed
          simp only [addedPods, List.map_append, List.mem_append] at listed ⊢
          tauto
        exact (fewer _ _ fewerPods grown).symm.trans (reprieving.minimal v listed)

theorem Reprieving.reprieveAll (fewer : FitsWithFewer runFilter) (origin : original.Accounts isolation)
    (counted : Bool) :
    ∀ (list rest : List PodInfo) (nodeInfo : NodeInfo) (victims : List Pod) (numViolatingVictim : ℕ),
      Reprieving isolation runFilter original.pods (list ++ rest) nodeInfo victims →
      ∃ (nodeInfo' : NodeInfo) (newVictims : List PodInfo),
        reprieveAll isolation runFilter counted list nodeInfo victims numViolatingVictim =
          some (nodeInfo', victims ++ newVictims.map PodInfo.pod,
            numViolatingVictim + (if counted then newVictims.length else 0), none) ∧
        newVictims.Sublist list ∧
        Reprieving isolation runFilter original.pods rest nodeInfo' (victims ++ newVictims.map PodInfo.pod)
  | [], rest, nodeInfo, victims, numViolatingVictim, reprieving =>
    ⟨nodeInfo, [], by simp [Defaultpreemption.reprieveAll], List.Sublist.slnil, by simpa using reprieving⟩
  | pi :: list, rest, nodeInfo, victims, numViolatingVictim, reprieving => by
    obtain ⟨next, fits, reprieved, nextReprieving⟩ := reprieving.reprieve fewer origin
    rw [Defaultpreemption.reprieveAll, reprieved]
    dsimp only
    cases fits
    · -- the pod is a victim
      simp only [Bool.false_eq_true, if_false, Bool.not_false, Bool.and_true] at nextReprieving ⊢
      obtain ⟨final, newVictims, ran, sublist, finalReprieving⟩ :=
        Reprieving.reprieveAll fewer origin counted list rest next (victims ++ [pi.pod])
          (if counted then numViolatingVictim + 1 else numViolatingVictim) (by simpa using nextReprieving)
      refine ⟨final, pi :: newVictims, ?_, sublist.cons_cons pi, by simpa using finalReprieving⟩
      have named : victims ++ [pi.pod] ++ newVictims.map PodInfo.pod = victims ++ (pi :: newVictims).map PodInfo.pod := by
        simp
      have count : (if counted then numViolatingVictim + 1 else numViolatingVictim) +
          (if counted then newVictims.length else 0) =
          numViolatingVictim + (if counted then (pi :: newVictims).length else 0) := by
        cases counted <;> simp only [if_true, Bool.false_eq_true, if_false, List.length_cons]
        omega
      rw [ran, named, count]
    · simp only [if_true, Bool.not_true, Bool.and_false, Bool.false_eq_true, if_false] at nextReprieving ⊢
      obtain ⟨final, newVictims, ran, sublist, finalReprieving⟩ :=
        Reprieving.reprieveAll fewer origin counted list rest next victims numViolatingVictim nextReprieving
      refine ⟨final, newVictims, ?_, sublist.cons pi, finalReprieving⟩
      rw [ran]

theorem reprieving_start {priority : ℤ} {removed : NodeInfo}
    (accounts : removed.Accounts isolation)
    (kept : removed.pods.Perm (original.pods.filter fun pi => !lowerPriority priority pi))
    (fits : (runFilter (removed.pods.map PodInfo.pod)).isSuccess = true) {candidates : List PodInfo}
    (taken : candidates.Perm (original.pods.filter (lowerPriority priority))) :
    Reprieving isolation runFilter original.pods candidates removed [] where
  accounts := accounts
  whole := by
    refine ⟨[], rfl, ?_⟩
    rw [List.append_nil]
    exact ((kept.append taken).trans List.perm_append_comm).trans (List.filter_append_perm _ _)
  fits := fits
  minimal := by simp

theorem Reprieving.finished (fewer : FitsWithFewer runFilter) {nodeInfo : NodeInfo} {victims : List Pod}
    (reprieving : Reprieving isolation runFilter original.pods [] nodeInfo victims) :
    (nodeInfo.pods.map PodInfo.pod).Perm ((original.pods.map PodInfo.pod).diff victims) ∧
      (runFilter (nodeInfo.pods.map PodInfo.pod)).isSuccess = true ∧
      ∀ v ∈ victims, (runFilter ((original.pods.map PodInfo.pod).diff (victims.erase v))).isSuccess = false := by
  obtain ⟨victimInfos, named, whole⟩ := reprieving.whole
  have split : (original.pods.map PodInfo.pod).Perm (nodeInfo.pods.map PodInfo.pod ++ victims) := by
    simpa [named] using (whole.map PodInfo.pod).symm
  refine ⟨(diff_perm_of_perm_append split).symm, reprieving.fits, fun v listed => ?_⟩
  have back : (original.pods.map PodInfo.pod).Perm (nodeInfo.pods.map PodInfo.pod ++ [v] ++ victims.erase v) := by
    rw [List.append_assoc, List.singleton_append]
    exact split.trans ((List.perm_cons_erase listed).append_left _)
  rw [fewer.perm (diff_perm_of_perm_append back)]
  exact reprieving.minimal v listed

end Reprieve

/-! ## The budget classification -/

section Budgets

variable (pdbs : List PodDisruptionBudget)

/-- What a budget has left once the pods `before` are counted: `DisruptionsAllowed`, less one for
each pod with labels it counts, as an `int32`. -/
def budgetAfter (pdb : PodDisruptionBudget) (before : List Pod) : ℤ :=
  let counted := before.countP fun pod => !pod.labels.isEmpty && countsAgainst pdb pod
  if counted = 0 then pdb.disruptionsAllowed else (pdb.disruptionsAllowed - counted).bmod (2 ^ 32)

/-- Whether a pod with labels, counted after the pods `before`, takes a budget that counts it
below zero. -/
def violatesAfter (before : List Pod) (pod : Pod) : Bool :=
  !pod.labels.isEmpty && pdbs.any fun pdb => countsAgainst pdb pod && decide (budgetAfter pdb (before ++ [pod]) < 0)

theorem decrementBudgets_budgetAfter (before : List Pod) {pod : Pod} (labelled : pod.labels.isEmpty = false) :
    decrementBudgets pdbs pod (pdbs.map fun pdb => budgetAfter pdb before) =
      pdbs.map fun pdb => budgetAfter pdb (before ++ [pod]) := by
  rw [decrementBudgets, List.zipWith_map_right, List.zipWith_self]
  refine List.map_congr_left fun pdb _ => ?_
  by_cases counts : countsAgainst pdb pod = true
  · -- one more pod counted: the first decrement, or one more on a decremented budget
    simp only [counts, if_true, budgetAfter, List.countP_append, List.countP_singleton, labelled,
      Bool.not_false, Bool.true_and, Nat.add_eq_zero_iff, one_ne_zero, and_false, if_false]
    split_ifs with none
    · rw [none]
      rfl
    · rw [Int.bmod_sub_bmod, sub_sub, Nat.cast_add, Nat.cast_one]
  · simp [counts, budgetAfter, List.countP_append]

theorem budgetAfter_unlabelled (pdb : PodDisruptionBudget) (before : List Pod) {pod : Pod}
    (unlabelled : pod.labels.isEmpty = true) : budgetAfter pdb (before ++ [pod]) = budgetAfter pdb before := by
  simp [budgetAfter, List.countP_append, unlabelled]

theorem go_classifies (whole : List PodInfo) : ∀ (rest : List PodInfo) (n : ℕ) (violating nonViolating : List PodInfo),
    whole.drop n = rest →
    filterPodsWithPDBViolation.go pdbs rest (pdbs.map fun pdb => budgetAfter pdb ((whole.take n).map PodInfo.pod))
        violating nonViolating =
      (violating ++ ((rest.zipIdx n).filter fun entry =>
          violatesAfter pdbs ((whole.take entry.2).map PodInfo.pod) entry.1.pod).map Prod.fst,
        nonViolating ++ ((rest.zipIdx n).filter fun entry =>
          !violatesAfter pdbs ((whole.take entry.2).map PodInfo.pod) entry.1.pod).map Prod.fst)
  | [], _, violating, nonViolating, _ => by simp [filterPodsWithPDBViolation.go]
  | pi :: rest, n, violating, nonViolating, dropped => by
    have inside : n < whole.length := by
      have := congrArg List.length dropped
      simp only [List.length_drop, List.length_cons] at this
      omega
    have atN : whole[n] = pi := by
      have := List.drop_eq_getElem_cons inside
      rw [dropped, List.cons.injEq] at this
      exact this.1.symm
    have later : whole.drop (n + 1) = rest := by
      have := List.drop_eq_getElem_cons inside
      rw [dropped, List.cons.injEq] at this
      exact this.2.symm
    have grown : (whole.take (n + 1)).map PodInfo.pod = (whole.take n).map PodInfo.pod ++ [pi.pod] := by
      rw [List.take_add_one, List.getElem?_eq_getElem inside, atN]
      simp
    -- the budgets after this pod, whether it has labels or not
    have budgets : (if pi.pod.labels.isEmpty then pdbs.map fun pdb => budgetAfter pdb ((whole.take n).map PodInfo.pod)
        else decrementBudgets pdbs pi.pod (pdbs.map fun pdb => budgetAfter pdb ((whole.take n).map PodInfo.pod))) =
        pdbs.map fun pdb => budgetAfter pdb ((whole.take (n + 1)).map PodInfo.pod) := by
      rw [grown]
      cases labelled : pi.pod.labels.isEmpty
      · exact decrementBudgets_budgetAfter pdbs _ labelled
      · simp only [if_true]
        exact List.map_congr_left fun pdb _ => (budgetAfter_unlabelled pdb _ labelled).symm
    have decided : (!pi.pod.labels.isEmpty && violatesBudget pdbs pi.pod
        (pdbs.map fun pdb => budgetAfter pdb ((whole.take (n + 1)).map PodInfo.pod))) =
        violatesAfter pdbs ((whole.take n).map PodInfo.pod) pi.pod := by
      rw [violatesAfter, violatesBudget, List.zipWith_map_right, List.zipWith_self, grown]
      simp [List.or, List.any_map]
    rw [filterPodsWithPDBViolation.go, budgets, decided, List.zipIdx_cons]
    by_cases violates : violatesAfter pdbs ((whole.take n).map PodInfo.pod) pi.pod = true
    · rw [if_pos violates, go_classifies whole rest (n + 1) _ _ later]
      simp only [List.filter_cons, violates, Bool.not_true, Bool.false_eq_true, if_true, if_false]
      simp
    · rw [if_neg violates, go_classifies whole rest (n + 1) _ _ later]
      simp only [List.filter_cons, Bool.eq_false_iff.mpr violates, Bool.not_false, Bool.false_eq_true, if_true,
        if_false]
      simp

theorem filterPodsWithPDBViolation_eq (podInfos : List PodInfo) :
    filterPodsWithPDBViolation podInfos pdbs =
      ((podInfos.zipIdx.filter fun entry =>
          violatesAfter pdbs ((podInfos.take entry.2).map PodInfo.pod) entry.1.pod).map Prod.fst,
        (podInfos.zipIdx.filter fun entry =>
          !violatesAfter pdbs ((podInfos.take entry.2).map PodInfo.pod) entry.1.pod).map Prod.fst) := by
  have start : (pdbs.map fun pdb => budgetAfter pdb ((podInfos.take 0).map PodInfo.pod)) =
      pdbs.map (·.disruptionsAllowed) := by
    simp [budgetAfter]
  rw [filterPodsWithPDBViolation, ← start, go_classifies pdbs podInfos podInfos 0 [] [] rfl]
  simp

theorem filterPodsWithPDBViolation_perm (podInfos : List PodInfo) :
    ((filterPodsWithPDBViolation podInfos pdbs).1 ++ (filterPodsWithPDBViolation podInfos pdbs).2).Perm podInfos := by
  rw [filterPodsWithPDBViolation_eq, ← List.map_append]
  have split := List.filter_append_perm (fun entry : PodInfo × ℕ =>
    violatesAfter pdbs ((podInfos.take entry.2).map PodInfo.pod) entry.1.pod) podInfos.zipIdx
  simpa [List.unzip_zipIdx_eq_prod] using split.map Prod.fst

end Budgets

/-! ## The selection -/

theorem count_violating {violating nonViolating firstVictims secondVictims : List PodInfo}
    (distinct : ((violating ++ nonViolating).map PodInfo.pod).Nodup) (first : firstVictims.Sublist violating)
    (second : secondVictims.Sublist nonViolating) :
    ((firstVictims.map PodInfo.pod ++ secondVictims.map PodInfo.pod).filter
        fun v => v ∈ violating.map PodInfo.pod).length = firstVictims.length := by
  rw [List.map_append] at distinct
  have all : (firstVictims.map PodInfo.pod).filter (fun v => v ∈ violating.map PodInfo.pod) =
      firstVictims.map PodInfo.pod :=
    List.filter_eq_self.mpr fun v listed => decide_eq_true ((first.map _).subset listed)
  have none : (secondVictims.map PodInfo.pod).filter (fun v => v ∈ violating.map PodInfo.pod) = [] :=
    List.filter_eq_nil_iff.mpr fun v listed inViolating =>
      List.disjoint_of_nodup_append distinct (of_decide_eq_true inViolating) ((second.map _).subset listed)
  rw [List.filter_append, all, none, List.append_nil, List.length_map]

/-- The selection on a node whose `NodeInfo` the cache keeps in account, with filters that fit the
preemptor with fewer pods wherever they fit it with more: the first loop takes off exactly the
pods of lower priority, each once; where the selection succeeds, the victims are some of those
pods, the node holds its other pods, the preemptor fits on it and not with any one victim put back,
and the count is of the victims the budgets class as violating. -/
theorem selectVictimsOnNode_sound_and_minimal (isolation : Bool) (runFilter : List Pod → Status)
    (sortByImportance : List PodInfo → List PodInfo) (pod : Pod) (nodeInfo : NodeInfo)
    (pdbs : List PodDisruptionBudget) (accounts : nodeInfo.Accounts isolation) (fewer : FitsWithFewer runFilter)
    (sorted : ∀ podInfos, (sortByImportance podInfos).Perm podInfos) :
    (∃ removed, removeLowerPriority isolation (podPriority pod) (List.range nodeInfo.pods.length) nodeInfo.pods
          nodeInfo [] = some (removed, nodeInfo.pods.filter (lowerPriority (podPriority pod)), none) ∧
        removed.pods.Perm (nodeInfo.pods.filter fun pi => !lowerPriority (podPriority pod) pi)) ∧
      ∃ final victims numViolatingVictim status,
        selectVictimsOnNode isolation runFilter sortByImportance pod nodeInfo pdbs =
          some (final, victims, numViolatingVictim, status) ∧
        (status.isSuccess = true →
          victims.Subperm ((nodeInfo.pods.filter (lowerPriority (podPriority pod))).map PodInfo.pod) ∧
          (final.pods.map PodInfo.pod).Perm ((nodeInfo.pods.map PodInfo.pod).diff victims) ∧
          (runFilter (final.pods.map PodInfo.pod)).isSuccess = true ∧
          (∀ v ∈ victims, (runFilter ((nodeInfo.pods.map PodInfo.pod).diff (victims.erase v))).isSuccess = false) ∧
          numViolatingVictim = (victims.filter fun v => v ∈ (filterPodsWithPDBViolation
            (sortByImportance (nodeInfo.pods.filter (lowerPriority (podPriority pod)))) pdbs).1.map PodInfo.pod).length) := by
  obtain ⟨removed, loop, kept, removedAccounts⟩ := removeLowerPriority_takes_lower (podPriority pod) accounts
  refine ⟨⟨removed, loop, kept⟩, ?_⟩
  unfold selectVictimsOnNode
  rw [loop]
  dsimp only
  generalize classified : filterPodsWithPDBViolation
    (sortByImportance (nodeInfo.pods.filter (lowerPriority (podPriority pod)))) pdbs = split
  obtain ⟨violating, nonViolating⟩ := split
  dsimp only
  split_ifs with none misfit
  · exact ⟨removed, [], 0, _, rfl, fun success => absurd success (by decide)⟩
  · exact ⟨removed, [], 0, _, rfl, fun success => by simp [success] at misfit⟩
  -- the pods taken off are handled in two loops, the violating ones first
  have candidates : (violating ++ nonViolating).Perm (nodeInfo.pods.filter (lowerPriority (podPriority pod))) := by
    have split := filterPodsWithPDBViolation_perm pdbs (sortByImportance (nodeInfo.pods.filter (lowerPriority (podPriority pod))))
    rw [classified] at split
    exact split.trans (sorted _)
  have start : Reprieving isolation runFilter nodeInfo.pods (violating ++ nonViolating) removed [] :=
    reprieving_start removedAccounts kept (by simpa using misfit) candidates
  obtain ⟨mid, firstVictims, firstRan, firstSublist, midReprieving⟩ :=
    Reprieving.reprieveAll fewer accounts true violating nonViolating removed [] 0 start
  obtain ⟨final, secondVictims, secondRan, secondSublist, finalReprieving⟩ :=
    Reprieving.reprieveAll fewer accounts false nonViolating [] mid ([] ++ firstVictims.map PodInfo.pod)
      (0 + if true then firstVictims.length else 0) (by simpa using midReprieving)
  rw [firstRan]
  dsimp only
  rw [secondRan]
  dsimp only
  refine ⟨final, _, _, _, rfl, fun _ => ?_⟩
  obtain ⟨remaining, fits, minimal⟩ := finalReprieving.finished fewer
  refine ⟨?_, remaining, fits, minimal, ?_⟩
  · have chosen := ((firstSublist.append secondSublist).map PodInfo.pod).subperm.trans
      (candidates.map PodInfo.pod).subperm
    simpa using chosen
  · -- the pods of the node are distinct, and so are those taken off
    have distinct : ((violating ++ nonViolating).map PodInfo.pod).Nodup := by
      have pods : (nodeInfo.pods.map PodInfo.pod).Nodup :=
        List.Nodup.of_map (fun pod : Pod => pod.uid) (by simpa [Function.comp_def] using accounts.unique)
      exact (pods.sublist (List.filter_sublist.map _)).perm (candidates.map _).symm
    simpa using (count_violating distinct firstSublist secondSublist).symm

namespace Runs

/-- Two pods of the default priority on a node, and a preemptor of priority 10 that fits on the
node unless the big pod is on it. -/
def smallPod : Pod := { «namespace» := "default", name := "small", uid := "uid-small" }

def bigPod : Pod := { «namespace» := "default", name := "big", uid := "uid-big" }

def preemptor : Pod :=
  { «namespace» := "default", name := "preemptor", uid := "uid-preemptor", spec := { priority := some 10 } }

def fitsWithoutBig (pods : List Pod) : Status :=
  if bigPod ∈ pods then ⟨.unschedulable, ["Insufficient cpu"]⟩ else ⟨.success, []⟩

def twoPodNode : NodeInfo := ((newNodeInfo 0).addPod false smallPod 1).addPod false bigPod 2

theorem twoPodNode_accounts : twoPodNode.Accounts false :=
  ((Accounts.new 0).addPod (by decide) (by decide) 1).addPod (by decide) (by decide) 2

theorem fitsWithoutBig_fitsWithFewer : FitsWithFewer fitsWithoutBig := by
  intro pods pods' within fits
  unfold fitsWithoutBig at fits ⊢
  split_ifs at fits with big
  · exact absurd fits (by decide)
  · rw [if_neg fun small => big (within small)]
    rfl

theorem selects_on_two_pod_node :
    twoPodNode.Accounts false ∧ FitsWithFewer fitsWithoutBig ∧ (∀ podInfos : List PodInfo, (id podInfos).Perm podInfos) ∧
    (∃ removed, removeLowerPriority false (podPriority preemptor) (List.range twoPodNode.pods.length) twoPodNode.pods
          twoPodNode [] = some (removed, twoPodNode.pods.filter (lowerPriority (podPriority preemptor)), none) ∧
        removed.pods.Perm (twoPodNode.pods.filter fun pi => !lowerPriority (podPriority preemptor) pi)) ∧
      ∃ final victims numViolatingVictim status,
        selectVictimsOnNode false fitsWithoutBig id preemptor twoPodNode [] =
          some (final, victims, numViolatingVictim, status) ∧
        (status.isSuccess = true →
          victims.Subperm ((twoPodNode.pods.filter (lowerPriority (podPriority preemptor))).map PodInfo.pod) ∧
          (final.pods.map PodInfo.pod).Perm ((twoPodNode.pods.map PodInfo.pod).diff victims) ∧
          (fitsWithoutBig (final.pods.map PodInfo.pod)).isSuccess = true ∧
          (∀ v ∈ victims, (fitsWithoutBig ((twoPodNode.pods.map PodInfo.pod).diff (victims.erase v))).isSuccess = false) ∧
          numViolatingVictim = (victims.filter fun v => v ∈ (filterPodsWithPDBViolation
            (id (twoPodNode.pods.filter (lowerPriority (podPriority preemptor))))
              []).1.map PodInfo.pod).length) :=
  ⟨twoPodNode_accounts, fitsWithoutBig_fitsWithFewer, fun _ => List.Perm.refl _,
    selectVictimsOnNode_sound_and_minimal false fitsWithoutBig id preemptor twoPodNode [] twoPodNode_accounts
      fitsWithoutBig_fitsWithFewer fun _ => List.Perm.refl _⟩

/-- A pod without a UID, which `AddPod` takes and `RemovePod` cannot key. -/
def unkeyedPod : Pod := { «namespace» := "default", name := "unkeyed", uid := "" }

def unkeyedNode : NodeInfo := (newNodeInfo 0).addPod false unkeyedPod 1

/-- The first loop stops at the pod of lower priority it cannot take off, and the selection fails
with the error of its key. -/
theorem unkeyed_pod_stops_first_loop :
    (∃ removed, removeLowerPriority false (podPriority preemptor) (List.range unkeyedNode.pods.length)
        unkeyedNode.pods unkeyedNode [] =
      some (removed, unkeyedNode.pods.filter (lowerPriority (podPriority preemptor)),
        some (.podKey "cannot get cache key for pod with empty UID"))) ∧
    (selectVictimsOnNode false fitsWithoutBig id preemptor unkeyedNode []).map (·.2.2.2) =
      some ⟨.error, ["cannot get cache key for pod with empty UID"]⟩ := by
  have stopped : (removeLowerPriority false (podPriority preemptor) (List.range unkeyedNode.pods.length)
      unkeyedNode.pods unkeyedNode []).map (·.2) =
      some (unkeyedNode.pods.filter (lowerPriority (podPriority preemptor)),
        some (.podKey "cannot get cache key for pod with empty UID")) := by decide +kernel
  obtain ⟨⟨removed, rest⟩, ran, named⟩ := Option.map_eq_some_iff.mp stopped
  refine ⟨⟨removed, ?_⟩, by decide +kernel⟩
  rw [ran, ← named]

end Runs

end Kubernetes.Scheduler.Defaultpreemption
