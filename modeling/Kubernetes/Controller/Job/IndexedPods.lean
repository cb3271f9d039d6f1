import Mathlib
import Kubernetes.Controller.Job.OrderedIntervals

/-! The completion indexes of the active pods of an indexed Job, from
`pkg/controller/job/indexed_job_utils.go`.

`firstPendingIndexes` chooses the indexes of the pods to create: the first indexes below
`completions` that no succeeded interval and no active pod holds. It merges the active pods'
indexes into the succeeded intervals with `withOrderedIndexes` and walks a candidate index past
the merged intervals. `appendDuplicatedIndexPodsForRemoval` chooses the pods to delete: it
sorts the active pods by index and keeps one pod of every index below `completions`.

The pods are of any type with their annotations. The two calls of `sort.Sort` are parameters:
which of the pods of one index is kept depends on `controller.ActivePods`, and the results below
hold for any order of equal keys.
-/

set_option autoImplicit false

namespace Kubernetes.Controller.Job

open Kubernetes.Library

def unknownCompletionIndex : ℤ := -1

/-- `batch.JobCompletionIndexAnnotation`, the key of the annotation. -/
def jobCompletionIndexKey : String := "batch.kubernetes.io/job-completion-index"

/-- `getCompletionIndex`; a nil map reads as a map without the annotation. -/
def getCompletionIndex (annotations : List (String × String)) : ℤ :=
  match annotations.lookup jobCompletionIndexKey with
  | none => unknownCompletionIndex
  | some v =>
    match atoi v.toList with
    | .error _ => unknownCompletionIndex
    | .ok i => if i < 0 then unknownCompletionIndex else i

section Pods

variable {Pod : Type} (annotations : Pod → List (String × String))

/-! ## Pending indexes -/

/-- A fill loop of `firstPendingIndexes`:
`for ; candidate < completions && len(result) < count && candidate < bound; candidate++`, with
`slots` the room left in `result`. The candidate stays below `completions`, so `candidate++`
does not wrap. -/
def firstPendingIndexes.fill (completions bound : ℤ) : ℕ → ℤ → List ℤ → ℤ × List ℤ
  | 0, candidate, result => (candidate, result)
  | slots + 1, candidate, result =>
    if candidate < completions ∧ candidate < bound then fill completions bound slots (candidate + 1) (result ++ [candidate])
    else (candidate, result)

/-- One iteration of the loop of `firstPendingIndexes` over the non-pending intervals: fill up
to the interval's start, then move the candidate past its end. -/
def firstPendingIndexes.skip (count completions : ℤ) (state : ℤ × List ℤ) (sInterval : Interval) : ℤ × List ℤ :=
  let (candidate, result) := fill completions sInterval.first (count - state.2.length).toNat state.1 state.2
  (if candidate < intAdd sInterval.last 1 then intAdd sInterval.last 1 else candidate, result)

/-- `firstPendingIndexes`; `none` is the panic of `make([]int, 0, count)` on a negative
`count`. -/
def firstPendingIndexes (activePods : List Pod) (succeededIndexes : OrderedIntervals) (count completions : ℤ) :
    Option (List ℤ) :=
  if count = 0 then some []
  else if count < 0 then none
  else
    let active : List ℤ := (activePods.map fun p => getCompletionIndex (annotations p)).filter (· ≠ unknownCompletionIndex)
    -- `active.List()`: the distinct elements of the set in increasing order
    let nonPending := succeededIndexes.withOrderedIndexes (active.dedup.insertionSort (· ≤ ·))
    let (candidate, result) := nonPending.foldl (firstPendingIndexes.skip count completions) (0, [])
    -- the last loop has no bound of its own: `completions` bounds it already
    some (firstPendingIndexes.fill completions completions (count - result.length).toNat candidate result).2

/-! ## Pods with duplicated indexes -/

/-- `appendPodsWithSameIndexForRemovalAndRemaining`, with `sort.Sort(controller.ActivePods(pods))`
as `sortActivePods`; `none` is the panic of `pods[:len(pods)-1]` on no pods. -/
def appendPodsWithSameIndexForRemovalAndRemaining (sortActivePods : List Pod → List Pod) (rm left pods : List Pod)
    (ix : ℤ) : Option (List Pod × List Pod) :=
  if ix = unknownCompletionIndex then some (rm ++ pods, left)
  else
    match pods with
    | [] => none
    | [pod] => some (rm, left ++ [pod])
    | _ =>
      let pods := sortActivePods pods
      some (rm ++ pods.dropLast, left ++ pods.getLast?.toList)

/-- The loop of `appendDuplicatedIndexPodsForRemoval` over the sorted pods, with `group` the
pods from `firstRepeatPos` on, all of index `lastIndex`. -/
def appendDuplicatedIndexPodsForRemoval.loop (sortActivePods : List Pod → List Pod) (completions : ℤ) :
    List Pod → List Pod → List Pod → List Pod → ℤ → Option (List Pod × List Pod)
  | [], rm, left, group, lastIndex =>
    appendPodsWithSameIndexForRemovalAndRemaining sortActivePods rm left group lastIndex
  | p :: pods, rm, left, group, lastIndex =>
    let ix := getCompletionIndex (annotations p)
    if ix ≥ completions then
      -- `rm = append(rm, pods[i:]...)` and `break`
      appendPodsWithSameIndexForRemovalAndRemaining sortActivePods (rm ++ p :: pods) left group lastIndex
    else if ix ≠ lastIndex then
      match appendPodsWithSameIndexForRemovalAndRemaining sortActivePods rm left group lastIndex with
      | none => none
      | some (rm, left) => loop sortActivePods completions pods rm left [p] ix
    else loop sortActivePods completions pods rm left (group ++ [p]) lastIndex

/-- `appendDuplicatedIndexPodsForRemoval`, with `sort.Sort(byCompletionIndex(pods))` as
`sortByCompletionIndex`. -/
def appendDuplicatedIndexPodsForRemoval (sortByCompletionIndex sortActivePods : List Pod → List Pod)
    (rm left pods : List Pod) (completions : ℤ) : Option (List Pod × List Pod) :=
  appendDuplicatedIndexPodsForRemoval.loop annotations sortActivePods completions (sortByCompletionIndex pods) rm left []
    unknownCompletionIndex

end Pods

/-! ## The candidate cursor of `firstPendingIndexes` -/

namespace firstPendingIndexes

section Cursor

variable {completions : ℤ} {nonPending : Finset ℤ}

/-- The indexes below `c` that `firstPendingIndexes` may choose, in increasing order: those
below `completions` outside the non-pending indexes. -/
def pendingBelow (completions : ℤ) (nonPending : Finset ℤ) (c : ℕ) : List ℤ :=
  ((List.range c).map fun k : ℕ => (k : ℤ)).filter fun i => i < completions ∧ i ∉ nonPending

theorem pendingBelow_succ (c : ℕ) :
    pendingBelow completions nonPending (c + 1) =
      pendingBelow completions nonPending c ++ if (c : ℤ) < completions ∧ (c : ℤ) ∉ nonPending then [(c : ℤ)] else [] := by
  rw [pendingBelow, List.range_succ, List.map_append, List.filter_append]
  split_ifs with pending <;> simp [pendingBelow, pending]

theorem pendingBelow_of_none {c d : ℕ} (le : c ≤ d)
    (none : ∀ i : ℤ, c ≤ i → i < d → ¬(i < completions ∧ i ∉ nonPending)) :
    pendingBelow completions nonPending d = pendingBelow completions nonPending c := by
  induction d, le using Nat.le_induction with
  | base => rfl
  | succ d le ih =>
    rw [pendingBelow_succ, ih fun i low high => none i low (by omega),
      if_neg (none d (by exact_mod_cast le) (by push_cast; omega)), List.append_nil]

theorem pendingBelow_extends {c d : ℕ} (le : c ≤ d) :
    pendingBelow completions nonPending c <+: pendingBelow completions nonPending d := by
  induction d, le using Nat.le_induction with
  | base => exact List.prefix_refl _
  | succ d le ih =>
    rw [pendingBelow_succ]
    exact ih.trans (List.prefix_append _ _)

theorem take_pendingBelow_of_full {count c d : ℕ} (le : c ≤ d)
    (full : count ≤ (pendingBelow completions nonPending c).length) :
    (pendingBelow completions nonPending d).take count = (pendingBelow completions nonPending c).take count := by
  obtain ⟨more, extended⟩ := @pendingBelow_extends completions nonPending c d le
  rw [← extended, List.take_append_of_le_length full]

end Cursor

/-- The state of the candidate cursor: the result holds the first `count` pending indexes
below the candidate. -/
def Filled (completions : ℤ) (nonPending : Finset ℤ) (count : ℕ) (candidate : ℤ) (result : List ℤ) : Prop :=
  0 ≤ candidate ∧ result = (pendingBelow completions nonPending candidate.toNat).take count

section Fill

variable {completions : ℤ} {nonPending : Finset ℤ} {count : ℕ}

theorem fill_filled {bound : ℤ} (slots : ℕ) {candidate : ℤ} {result : List ℤ}
    (filled : Filled completions nonPending count candidate result)
    (free : ∀ i : ℤ, candidate ≤ i → i < bound → i ∉ nonPending) (room : slots = count - result.length) :
    Filled completions nonPending count (fill completions bound slots candidate result).1
        (fill completions bound slots candidate result).2 ∧
      candidate ≤ (fill completions bound slots candidate result).1 ∧
      ((fill completions bound slots candidate result).1 < bound →
        completions ≤ (fill completions bound slots candidate result).1 ∨
          count ≤ (fill completions bound slots candidate result).2.length) := by
  induction slots generalizing candidate result with
  | zero =>
    refine ⟨filled, le_refl _, fun _ => .inr ?_⟩
    simp only [fill]
    omega
  | succ slots ih =>
    obtain ⟨nonneg, taken⟩ := filled
    rw [fill]
    split_ifs with continues
    · -- the candidate is pending and there is room: it is appended
      have short : result.length < count := by omega
      have whole : result = pendingBelow completions nonPending candidate.toNat := by
        rw [taken] at short ⊢
        rw [List.length_take] at short
        exact List.take_of_length_le (by omega)
      have pending : (candidate.toNat : ℤ) < completions ∧ (candidate.toNat : ℤ) ∉ nonPending := by
        rw [Int.toNat_of_nonneg nonneg]
        exact ⟨continues.1, free candidate (le_refl _) continues.2⟩
      have grown : result ++ [candidate] =
          (pendingBelow completions nonPending (candidate + 1).toNat).take count := by
        rw [show (candidate + 1).toNat = candidate.toNat + 1 by omega, pendingBelow_succ, if_pos pending,
          Int.toNat_of_nonneg nonneg, ← whole, List.take_of_length_le (by simp; omega)]
      obtain ⟨filled', moved, stops⟩ := ih ⟨by omega, grown⟩ (fun i low high => free i (by omega) high)
        (by simp; omega)
      exact ⟨filled', by omega, stops⟩
    · refine ⟨⟨nonneg, taken⟩, le_refl _, fun below => .inl ?_⟩
      simp only at below ⊢
      omega

theorem skip_filled {count : ℤ} (nonnegCount : 0 ≤ count) {state : ℤ × List ℤ}
    (filled : Filled completions nonPending count.toNat state.1 state.2) {sInterval : Interval}
    (valid : 0 ≤ sInterval.first ∧ sInterval.first ≤ sInterval.last) (fits : sInterval.last < maxInt)
    (covered : ∀ i, sInterval.first ≤ i → i ≤ sInterval.last → i ∈ nonPending)
    (free : ∀ i : ℤ, state.1 ≤ i → i < sInterval.first → i ∉ nonPending) :
    Filled completions nonPending count.toNat (skip count completions state sInterval).1
        (skip count completions state sInterval).2 ∧
      sInterval.last < (skip count completions state sInterval).1 ∧ state.1 ≤ (skip count completions state sInterval).1 := by
  have next : intAdd sInterval.last 1 = sInterval.last + 1 := intAdd_of_fits (by omega) (by omega)
  obtain ⟨filled', moved, stops⟩ := fill_filled ((count - state.2.length).toNat) filled free (by omega)
  rcases filling : fill completions sInterval.first (count - state.2.length).toNat state.1 state.2 with
    ⟨candidate, result⟩
  rw [filling] at filled' moved stops
  dsimp only at filled' moved stops
  simp only [skip, filling, next]
  split_ifs with jumps
  · -- the candidate jumps past the interval's end
    obtain ⟨nonneg, taken⟩ := filled'
    refine ⟨⟨by omega, ?_⟩, by omega, by omega⟩
    rw [taken]
    by_cases full : count.toNat ≤ result.length
    · rw [taken, List.length_take] at full
      exact (take_pendingBelow_of_full (by omega) (by omega)).symm
    · have none : ∀ i : ℤ, candidate.toNat ≤ i → i < (sInterval.last + 1).toNat →
          ¬(i < completions ∧ i ∉ nonPending) := by
        rintro i low high ⟨below, outside⟩
        rcases lt_or_ge candidate sInterval.first with short | reached
        · rcases stops short with past | full'
          · omega
          · exact full full'
        · exact outside (covered i (by omega) (by omega))
      rw [pendingBelow_of_none (by omega) none]
  · exact ⟨filled', by omega, by omega⟩

theorem foldl_skip_filled {count : ℤ} (nonnegCount : 0 ≤ count) {intervals : OrderedIntervals}
    (normalized : Normalized intervals) (fits : ∀ J ∈ intervals, J.last < maxInt)
    (covered : ∀ J ∈ intervals, ∀ i, J.first ≤ i → i ≤ J.last → i ∈ nonPending) {state : ℤ × List ℤ}
    (filled : Filled completions nonPending count.toNat state.1 state.2)
    (ahead : ∀ i, state.1 ≤ i → i ∈ nonPending → ∃ J ∈ intervals, J.first ≤ i ∧ i ≤ J.last) :
    Filled completions nonPending count.toNat (intervals.foldl (skip count completions) state).1
        (intervals.foldl (skip count completions) state).2 ∧
      ∀ i, (intervals.foldl (skip count completions) state).1 ≤ i → i ∉ nonPending := by
  induction intervals generalizing state with
  | nil =>
    refine ⟨filled, fun i after member => ?_⟩
    obtain ⟨J, inNil, -⟩ := ahead i after member
    cases inNil
  | cons sInterval intervals ih =>
    obtain ⟨valid, before, normalizedRest⟩ := Normalized.cons_iff.mp normalized
    have free : ∀ i : ℤ, state.1 ≤ i → i < sInterval.first → i ∉ nonPending := by
      intro i after short member
      obtain ⟨J, inIntervals, starts, ends⟩ := ahead i after member
      rcases List.mem_cons.mp inIntervals with rfl | later
      · omega
      · have := before J later
        omega
    obtain ⟨filled', past, moved⟩ := skip_filled nonnegCount filled valid (fits sInterval List.mem_cons_self)
      (covered sInterval List.mem_cons_self) free
    rw [List.foldl_cons]
    refine ih normalizedRest (fun J later => fits J (List.mem_cons_of_mem _ later))
      (fun J later => covered J (List.mem_cons_of_mem _ later)) filled' fun i after member => ?_
    obtain ⟨J, inIntervals, starts, ends⟩ := ahead i (by omega) member
    rcases List.mem_cons.mp inIntervals with rfl | later
    · omega
    · exact ⟨J, later, starts, ends⟩

end Fill

theorem pendingBelow_eq_sort {completions : ℤ} {nonPending P : Finset ℤ}
    (members : ∀ i, i ∈ P ↔ 0 ≤ i ∧ i < completions ∧ i ∉ nonPending) :
    pendingBelow completions nonPending completions.toNat = P.sort (· ≤ ·) := by
  have increasing : ((List.range completions.toNat).map fun k : ℕ => (k : ℤ)).Pairwise (· < ·) :=
    List.pairwise_map.mpr (List.pairwise_lt_range.imp fun less => by exact_mod_cast less)
  have nodup : (pendingBelow completions nonPending completions.toNat).Nodup :=
    (increasing.imp ne_of_lt).filter _
  apply List.Perm.eq_of_sortedLE ((increasing.imp le_of_lt).filter _).sortedLE (Finset.sortedLT_sort P).sortedLE
  refine (List.perm_ext_iff_of_nodup nodup (Finset.sort_nodup _ _)).mpr fun i => ?_
  rw [Finset.mem_sort, members, pendingBelow, List.mem_filter, List.mem_map]
  simp only [List.mem_range, decide_eq_true_eq]
  constructor
  · rintro ⟨⟨k, below, rfl⟩, pending⟩
    exact ⟨by omega, pending⟩
  · rintro ⟨nonneg, pending⟩
    exact ⟨⟨i.toNat, by omega, by simp [nonneg]⟩, pending⟩

theorem fill_foldl_skip {count completions : ℤ} (nonnegCount : 0 ≤ count) {nonPending : OrderedIntervals}
    (normalized : Normalized nonPending) (fits : ∀ J ∈ nonPending, J.last < maxInt) :
    (fill completions completions (count - (nonPending.foldl (skip count completions) (0, [])).2.length).toNat
        (nonPending.foldl (skip count completions) (0, [])).1 (nonPending.foldl (skip count completions) (0, [])).2).2 =
      (pendingBelow completions nonPending.indexes completions.toNat).take count.toNat := by
  have start : Filled completions nonPending.indexes count.toNat (0, ([] : List ℤ)).1 (0, ([] : List ℤ)).2 :=
    ⟨le_refl 0, by simp [pendingBelow]⟩
  obtain ⟨filled, past⟩ := foldl_skip_filled nonnegCount normalized fits
    (fun J member i starts ends => OrderedIntervals.mem_indexes.mpr ⟨J, member, starts, ends⟩) start
    (fun i _ member => OrderedIntervals.mem_indexes.mp member)
  generalize nonPending.foldl (skip count completions) (0, []) = state at filled past ⊢
  -- the last fill loop meets no non-pending index
  obtain ⟨⟨nonneg, taken⟩, -, stops⟩ :=
    fill_filled ((count - state.2.length).toNat) filled (fun i after _ => past i after) (by omega)
  generalize fill completions completions (count - state.2.length).toNat state.1 state.2 = final at nonneg taken stops ⊢
  rw [taken]
  rcases lt_or_ge final.1 completions with short | done
  · -- stopped for want of room
    have full := (stops short).resolve_left (not_le.mpr short)
    rw [taken, List.length_take] at full
    exact (take_pendingBelow_of_full (by omega) (by omega)).symm
  · -- every pending index is below the candidate
    rw [@pendingBelow_of_none completions nonPending.indexes completions.toNat final.1.toNat (by omega)
      fun i low _ ⟨below, _⟩ => by omega]

end firstPendingIndexes

theorem getCompletionIndex_cases (annotations : List (String × String)) :
    getCompletionIndex annotations = unknownCompletionIndex ∨
      (0 ≤ getCompletionIndex annotations ∧ getCompletionIndex annotations ≤ maxInt) := by
  unfold getCompletionIndex
  split
  · exact .inl rfl
  · split
    · exact .inl rfl
    · rename_i i read
      have := atoi_bounds read
      split_ifs with negative
      · exact .inl rfl
      · exact .inr ⟨by omega, by unfold maxInt; omega⟩

section Pods

variable {Pod : Type} (annotations : Pod → List (String × String))

open firstPendingIndexes in
theorem firstPendingIndexes_eq (activePods : List Pod) (succeededIndexes : OrderedIntervals) (count completions : ℤ)
    (normalized : Normalized succeededIndexes) (fits : ∀ iv ∈ succeededIndexes, iv.last < maxInt)
    (belowMaxInt : ∀ p ∈ activePods, getCompletionIndex (annotations p) ≠ maxInt) (nonnegCount : 0 ≤ count) :
    firstPendingIndexes annotations activePods succeededIndexes count completions =
      some ((((Finset.Ico 0 completions).filter fun i =>
        i ∉ succeededIndexes.indexes ∧ ∀ p ∈ activePods, getCompletionIndex (annotations p) ≠ i).sort (· ≤ ·)).take
          count.toNat) := by
  by_cases zero : count = 0
  · simp [firstPendingIndexes, zero]
  rw [firstPendingIndexes, if_neg zero, if_neg (not_lt.mpr nonnegCount)]
  dsimp only
  set sorted := ((activePods.map fun p => getCompletionIndex (annotations p)).filter
    (· ≠ unknownCompletionIndex)).dedup.insertionSort (· ≤ ·)
  set nonPending := succeededIndexes.withOrderedIndexes sorted
  -- `active.List()` lists the known indexes of the pods, increasing and below `math.MaxInt`
  have members : ∀ ix, ix ∈ sorted ↔ (∃ p ∈ activePods, getCompletionIndex (annotations p) = ix) ∧
      ix ≠ unknownCompletionIndex := by
    intro ix
    simp [sorted, List.mem_insertionSort, List.mem_dedup]
  have increasing : sorted.Pairwise (· < ·) := by
    have nodup : sorted.Nodup := (List.perm_insertionSort _ _).nodup_iff.mpr (List.nodup_dedup _)
    exact ((List.pairwise_insertionSort _ _).and nodup).imp fun ⟨le, ne⟩ => lt_of_le_of_ne le ne
  have valid : ∀ ix ∈ sorted, 0 ≤ ix ∧ ix < maxInt := by
    intro ix member
    obtain ⟨⟨p, inPods, rfl⟩, known⟩ := (members _).mp member
    rcases getCompletionIndex_cases (annotations p) with unknown | ⟨nonneg, le⟩
    · exact absurd unknown known
    · exact ⟨nonneg, lt_of_le_of_ne le (belowMaxInt p inPods)⟩
  obtain ⟨merged, mergedFits, union⟩ := OrderedIntervals.withOrderedIndexes_spec normalized fits increasing valid
  rw [fill_foldl_skip nonnegCount merged mergedFits, pendingBelow_eq_sort fun i => ?_]
  rw [Finset.mem_filter, Finset.mem_Ico, union, Finset.mem_union, List.mem_toFinset, members]
  constructor
  · rintro ⟨⟨nonneg, below⟩, notSucceeded, noPod⟩
    exact ⟨nonneg, below, fun member => member.elim notSucceeded fun ⟨⟨p, inPods, same⟩, _⟩ => noPod p inPods same⟩
  · rintro ⟨nonneg, below, outside⟩
    refine ⟨⟨nonneg, below⟩, fun member => outside (.inl member), fun p inPods same => outside (.inr ⟨⟨p, inPods, same⟩, ?_⟩)⟩
    unfold unknownCompletionIndex
    omega

theorem firstPendingIndexes_eq_three :
    Normalized [⟨3, 4⟩] ∧ (∀ iv ∈ [(⟨3, 4⟩ : Interval)], iv.last < maxInt) ∧
    (∀ p ∈ [[(jobCompletionIndexKey, "1")], [("x", "3")], [(jobCompletionIndexKey, "7")]],
      getCompletionIndex (id p) ≠ maxInt) ∧ (0 : ℤ) ≤ 3 ∧
    firstPendingIndexes id [[(jobCompletionIndexKey, "1")], [("x", "3")], [(jobCompletionIndexKey, "7")]]
        [⟨3, 4⟩] 3 8 =
      some ((((Finset.Ico 0 8).filter fun i => i ∉ OrderedIntervals.indexes [⟨3, 4⟩] ∧
        ∀ p ∈ [[(jobCompletionIndexKey, "1")], [("x", "3")], [(jobCompletionIndexKey, "7")]],
          getCompletionIndex (id p) ≠ i).sort (· ≤ ·)).take (3 : ℤ).toNat) :=
  ⟨by decide, by decide, by decide, by decide, firstPendingIndexes_eq id _ _ 3 8 (by decide) (by decide) (by decide) (by decide)⟩

example : firstPendingIndexes id [[(jobCompletionIndexKey, "1")], [("x", "3")], [(jobCompletionIndexKey, "7")]]
    [⟨3, 4⟩] 3 8 = some [0, 2, 5] := by
  decide

/-- An active pod of index `math.MaxInt` merges with the succeeded indexes below it into an
interval whose end wraps when the candidate is moved past it: with every smaller index
succeeded, index 0 is chosen although it succeeded. -/
theorem firstPendingIndexes_maxInt_pod :
    firstPendingIndexes id [[(jobCompletionIndexKey, "9223372036854775807")]] [⟨0, maxInt - 1⟩] 1 maxInt =
      some [0] ∧ (0 : ℤ) ∈ OrderedIntervals.indexes [⟨0, maxInt - 1⟩] :=
  ⟨by decide, by simp [maxInt]⟩

/-! ## Keeping one pod of every index -/

/-- What `appendDuplicatedIndexPodsForRemoval` appends for `pods`: together the removed and the
kept pods are the pods, and one pod of every index below `completions` among them is kept. -/
def Splits (completions : ℤ) (pods removed kept : List Pod) : Prop :=
  (removed ++ kept).Perm pods ∧ ∀ i, kept.countP (fun p => getCompletionIndex (annotations p) = i) =
    if 0 ≤ i ∧ i < completions ∧ ∃ p ∈ pods, getCompletionIndex (annotations p) = i then 1 else 0

/-- The state of the loop of `appendDuplicatedIndexPodsForRemoval` after the pods `done ++ group`:
the pods before the group are split; the group holds the pods of `lastIndex`, which is an index
below `completions` or unknown, above the indexes before it and at most those still to visit. -/
structure Scanning (completions : ℤ) (done group rest removed kept : List Pod) (lastIndex : ℤ) : Prop where
  split : Splits annotations completions done removed kept
  group_index : ∀ p ∈ group, getCompletionIndex (annotations p) = lastIndex
  group_nonempty : group ≠ [] ∨ lastIndex = unknownCompletionIndex
  lastIndex_valid : lastIndex = unknownCompletionIndex ∨ (0 ≤ lastIndex ∧ lastIndex < completions)
  done_below : ∀ p ∈ done, getCompletionIndex (annotations p) < lastIndex
  rest_above : ∀ p ∈ rest, lastIndex ≤ getCompletionIndex (annotations p)
  rest_sorted : rest.Pairwise fun a b => getCompletionIndex (annotations a) ≤ getCompletionIndex (annotations b)

variable {sortActivePods : List Pod → List Pod}

theorem appendPodsWithSameIndex_split (reorders : ∀ pods, (sortActivePods pods).Perm pods) (rm left group : List Pod)
    {ix : ℤ} (nonempty : group ≠ [] ∨ ix = unknownCompletionIndex) :
    ∃ removed kept, appendPodsWithSameIndexForRemovalAndRemaining sortActivePods rm left group ix =
        some (rm ++ removed, left ++ kept) ∧
      (removed ++ kept).Perm group ∧ kept.length = if ix = unknownCompletionIndex then 0 else 1 := by
  unfold appendPodsWithSameIndexForRemovalAndRemaining
  split_ifs with unknown
  · exact ⟨group, [], by simp, by simp, rfl⟩
  · match group, nonempty with
    | [], nonempty => exact absurd (nonempty.resolve_left (not_not.mpr rfl)) unknown
    | [pod], _ => exact ⟨[], [pod], by simp, by simp, rfl⟩
    | first :: second :: more, _ =>
      -- the pods of the index in `ActivePods` order: all but the last are removed
      have sorted := reorders (first :: second :: more)
      have nonemptySorted : sortActivePods (first :: second :: more) ≠ [] := fun empty => by
        simpa [empty] using sorted.length_eq
      refine ⟨(sortActivePods (first :: second :: more)).dropLast,
        (sortActivePods (first :: second :: more)).getLast?.toList, rfl, ?_, ?_⟩
      · rw [List.getLast?_eq_some_getLast nonemptySorted, Option.toList_some, List.dropLast_append_getLast]
        exact sorted
      · simp [List.getLast?_eq_some_getLast nonemptySorted]

theorem countP_kept_group {group kept : List Pod} {lastIndex : ℤ} (inGroup : ∀ p ∈ kept, p ∈ group)
    (groupIndex : ∀ p ∈ group, getCompletionIndex (annotations p) = lastIndex)
    (length : kept.length = if lastIndex = unknownCompletionIndex then 0 else 1) (i : ℤ) :
    kept.countP (fun p => getCompletionIndex (annotations p) = i) =
      if lastIndex ≠ unknownCompletionIndex ∧ lastIndex = i then 1 else 0 := by
  by_cases same : lastIndex = i
  · rw [List.countP_eq_length.mpr fun p member => by simp [groupIndex p (inGroup p member), same], length]
    split_ifs <;> simp_all
  · rw [List.countP_eq_zero.mpr fun p member => by simp [groupIndex p (inGroup p member), same]]
    simp [same]

theorem Scanning.flush {completions : ℤ} {done group rest removed kept : List Pod} {lastIndex : ℤ}
    (scanning : Scanning annotations completions done group rest removed kept lastIndex) {flushedOut flushedIn : List Pod}
    (perm : (flushedOut ++ flushedIn).Perm group)
    (length : flushedIn.length = if lastIndex = unknownCompletionIndex then 0 else 1) :
    Splits annotations completions (done ++ group) (removed ++ flushedOut) (kept ++ flushedIn) := by
  refine ⟨?_, fun i => ?_⟩
  · have reordered : (removed ++ flushedOut ++ (kept ++ flushedIn)).Perm (removed ++ kept ++ (flushedOut ++ flushedIn)) := by
      simpa only [List.append_assoc] using (List.perm_append_comm_assoc flushedOut kept flushedIn).append_left removed
    exact reordered.trans (scanning.split.1.append perm)
  · have groupCount := countP_kept_group annotations (fun p member => perm.subset (List.mem_append_right _ member))
      scanning.group_index length i
    rw [List.countP_append, scanning.split.2 i, groupCount]
    by_cases same : lastIndex = i
    · subst same
      have noneBefore : ¬∃ p ∈ done, getCompletionIndex (annotations p) = lastIndex := fun ⟨p, member, index⟩ =>
        absurd index (scanning.done_below p member).ne
      rcases scanning.lastIndex_valid with unknown | ⟨nonneg, below⟩
      · simp [unknown, unknownCompletionIndex]
      · have unknownNe : lastIndex ≠ unknownCompletionIndex := by unfold unknownCompletionIndex; omega
        obtain ⟨p, member⟩ := List.exists_mem_of_ne_nil _ (scanning.group_nonempty.resolve_right unknownNe)
        simp only [noneBefore, and_false, if_false, unknownNe, ne_eq, not_false_eq_true, and_self, if_true,
          zero_add]
        rw [if_pos ⟨nonneg, below, p, List.mem_append_right _ member, scanning.group_index p member⟩]
    · -- the group holds no pod of another index
      have notInGroup : ∀ p ∈ group, getCompletionIndex (annotations p) ≠ i := fun p member =>
        (scanning.group_index p member).trans_ne same
      simp only [same, and_false, if_false, add_zero]
      congr 1
      apply propext
      constructor
      · rintro ⟨nonneg, below, p, member, index⟩
        exact ⟨nonneg, below, p, List.mem_append_left _ member, index⟩
      · rintro ⟨nonneg, below, p, member, index⟩
        exact ⟨nonneg, below, p, (List.mem_append.mp member).resolve_right fun inGroup => notInGroup p inGroup index,
          index⟩

theorem Splits.append_past {completions : ℤ} {pods removed kept : List Pod}
    (splits : Splits annotations completions pods removed kept) {extra : List Pod}
    (past : ∀ p ∈ extra, completions ≤ getCompletionIndex (annotations p)) {removed' : List Pod}
    (reordered : removed'.Perm (removed ++ extra)) :
    Splits annotations completions (pods ++ extra) removed' kept := by
  refine ⟨?_, fun i => ?_⟩
  · have moved : (removed ++ extra ++ kept).Perm (removed ++ kept ++ extra) := by
      simpa only [List.append_assoc] using List.perm_append_comm.append_left removed
    exact (reordered.append_right kept).trans (moved.trans (splits.1.append_right extra))
  · rw [splits.2 i]
    congr 1
    apply propext
    constructor
    · rintro ⟨nonneg, below, p, member, index⟩
      exact ⟨nonneg, below, p, List.mem_append_left _ member, index⟩
    · rintro ⟨nonneg, below, p, member, index⟩
      refine ⟨nonneg, below, p, (List.mem_append.mp member).resolve_right fun inExtra => ?_, index⟩
      have := past p inExtra
      omega

theorem Scanning.loop (reorders : ∀ pods, (sortActivePods pods).Perm pods) {completions : ℤ} {rest : List Pod} :
    ∀ {done group removed kept : List Pod} {lastIndex : ℤ},
      Scanning annotations completions done group rest removed kept lastIndex → ∀ rm left : List Pod,
      ∃ removed' kept', appendDuplicatedIndexPodsForRemoval.loop annotations sortActivePods completions rest
          (rm ++ removed) (left ++ kept) group lastIndex = some (rm ++ removed', left ++ kept') ∧
        Splits annotations completions (done ++ group ++ rest) removed' kept' := by
  induction rest with
  | nil =>
    intro done group removed kept lastIndex scanning rm left
    obtain ⟨flushedOut, flushedIn, flushed, perm, length⟩ :=
      appendPodsWithSameIndex_split reorders (rm ++ removed) (left ++ kept) group scanning.group_nonempty
    refine ⟨removed ++ flushedOut, kept ++ flushedIn, by simpa [appendDuplicatedIndexPodsForRemoval.loop] using flushed, ?_⟩
    simpa using scanning.flush annotations perm length
  | cons p rest ih =>
    intro done group removed kept lastIndex scanning rm left
    obtain ⟨above, sortedRest⟩ := List.pairwise_cons.mp scanning.rest_sorted
    rw [appendDuplicatedIndexPodsForRemoval.loop]
    split_ifs with past new
    · -- the pods from `p` on are at or above `completions`: all removed, then the group flushed
      obtain ⟨flushedOut, flushedIn, flushed, perm, length⟩ :=
        appendPodsWithSameIndex_split reorders (rm ++ removed ++ p :: rest) (left ++ kept) group scanning.group_nonempty
      refine ⟨removed ++ (p :: rest) ++ flushedOut, kept ++ flushedIn, by simpa using flushed, ?_⟩
      have splits := (scanning.flush annotations perm length).append_past annotations
        (fun q member => by
          rcases List.mem_cons.mp member with rfl | later
          · exact past
          · exact past.trans (above q later))
        (by simpa only [List.append_assoc] using (List.perm_append_comm.append_left removed))
      simpa using splits
    · -- a new index: the group is flushed and `p` starts the next one
      obtain ⟨flushedOut, flushedIn, flushed, perm, length⟩ :=
        appendPodsWithSameIndex_split reorders (rm ++ removed) (left ++ kept) group scanning.group_nonempty
      rw [flushed]
      dsimp only
      have increases : lastIndex < getCompletionIndex (annotations p) :=
        lt_of_le_of_ne (scanning.rest_above p List.mem_cons_self) (Ne.symm new)
      have scanning' : Scanning annotations completions (done ++ group) [p] rest (removed ++ flushedOut)
          (kept ++ flushedIn) (getCompletionIndex (annotations p)) :=
        { split := scanning.flush annotations perm length
          group_index := by simp
          group_nonempty := .inl (List.cons_ne_nil _ _)
          lastIndex_valid := by
            rcases getCompletionIndex_cases (annotations p) with unknown | ⟨nonneg, -⟩
            · exact .inl unknown
            · exact .inr ⟨nonneg, not_le.mp past⟩
          done_below := fun q member => by
            rcases List.mem_append.mp member with before | inGroup
            · exact (scanning.done_below q before).trans increases
            · rw [scanning.group_index q inGroup]
              exact increases
          rest_above := above
          rest_sorted := sortedRest }
      obtain ⟨removed', kept', looped, splits⟩ := ih scanning' rm left
      refine ⟨removed', kept', by simpa only [List.append_assoc] using looped, by simpa using splits⟩
    · -- the same index: `p` joins the group
      obtain rfl : getCompletionIndex (annotations p) = lastIndex := not_not.mp new
      have scanning' : Scanning annotations completions done (group ++ [p]) rest removed kept
          (getCompletionIndex (annotations p)) :=
        { split := scanning.split
          group_index := fun q member => by
            rcases List.mem_append.mp member with inGroup | isP
            · exact scanning.group_index q inGroup
            · rw [List.mem_singleton.mp isP]
          group_nonempty := .inl (by simp)
          lastIndex_valid := scanning.lastIndex_valid
          done_below := scanning.done_below
          rest_above := above
          rest_sorted := sortedRest }
      obtain ⟨removed', kept', looped, splits⟩ := ih scanning' rm left
      exact ⟨removed', kept', looped, by simpa using splits⟩

/-- `appendDuplicatedIndexPodsForRemoval` appends every pod once: to `left` one pod of every
index below `completions` present among the pods, to `rm` all the others, that is the pods with
no or an invalid index, those at or above `completions` and all but one of every repeated
index. -/
theorem appendDuplicatedIndexPodsForRemoval_partitions (sortByCompletionIndex sortActivePods : List Pod → List Pod)
    (sortsByIndex : ∀ pods, (sortByCompletionIndex pods).Perm pods ∧
      (sortByCompletionIndex pods).Pairwise fun a b => getCompletionIndex (annotations a) ≤ getCompletionIndex (annotations b))
    (reorders : ∀ pods, (sortActivePods pods).Perm pods) (rm left pods : List Pod) (completions : ℤ) :
    ∃ removed kept, appendDuplicatedIndexPodsForRemoval annotations sortByCompletionIndex sortActivePods rm left pods
        completions = some (rm ++ removed, left ++ kept) ∧
      (removed ++ kept).Perm pods ∧
      ∀ i, kept.countP (fun p => getCompletionIndex (annotations p) = i) =
          (if 0 ≤ i ∧ i < completions ∧ ∃ p ∈ pods, getCompletionIndex (annotations p) = i then 1 else 0) ∧
        removed.countP (fun p => getCompletionIndex (annotations p) = i) =
          pods.countP (fun p => getCompletionIndex (annotations p) = i) -
            (if 0 ≤ i ∧ i < completions ∧ ∃ p ∈ pods, getCompletionIndex (annotations p) = i then 1 else 0) := by
  obtain ⟨sortedPerm, sorted⟩ := sortsByIndex pods
  have start : Scanning annotations completions [] [] (sortByCompletionIndex pods) [] [] unknownCompletionIndex :=
    { split := ⟨List.Perm.refl _, fun i => by simp⟩
      group_index := by simp
      group_nonempty := .inr rfl
      lastIndex_valid := .inl rfl
      done_below := by simp
      rest_above := fun p _ => by
        rcases getCompletionIndex_cases (annotations p) with unknown | ⟨nonneg, -⟩
        · exact unknown.ge
        · unfold unknownCompletionIndex
          omega
      rest_sorted := sorted }
  obtain ⟨removed, kept, looped, splitsSorted, keptSorted⟩ := start.loop annotations reorders rm left
  simp only [List.append_nil, List.nil_append] at looped splitsSorted keptSorted
  have split : (removed ++ kept).Perm pods := splitsSorted.trans sortedPerm
  refine ⟨removed, kept, looped, split, fun i => ?_⟩
  have keptCount : kept.countP (fun p => getCompletionIndex (annotations p) = i) =
      if 0 ≤ i ∧ i < completions ∧ ∃ p ∈ pods, getCompletionIndex (annotations p) = i then 1 else 0 := by
    simp only [keptSorted i, sortedPerm.mem_iff]
  have counted := split.countP_eq fun p => getCompletionIndex (annotations p) = i
  rw [List.countP_append] at counted
  exact ⟨keptCount, by omega⟩

example : appendDuplicatedIndexPodsForRemoval id
    (fun pods => pods.insertionSort fun a b => getCompletionIndex a ≤ getCompletionIndex b) id [] []
    [[(jobCompletionIndexKey, "1")], [("x", "y")], [(jobCompletionIndexKey, "9")]] 5 =
      some ([[("x", "y")], [(jobCompletionIndexKey, "9")]], [[(jobCompletionIndexKey, "1")]]) := by
  decide

theorem appendDuplicatedIndexPodsForRemoval_partitions_example :
    (∀ pods : List (List (String × String)),
      (pods.insertionSort fun a b => getCompletionIndex a ≤ getCompletionIndex b).Perm pods ∧
      (pods.insertionSort fun a b => getCompletionIndex a ≤ getCompletionIndex b).Pairwise
        fun a b => getCompletionIndex (id a) ≤ getCompletionIndex (id b)) ∧
    (∀ pods : List (List (String × String)), (id pods).Perm pods) ∧
    ∃ removed kept, appendDuplicatedIndexPodsForRemoval id
        (fun pods => pods.insertionSort fun a b => getCompletionIndex a ≤ getCompletionIndex b) id [] []
        [[(jobCompletionIndexKey, "1")], [], [(jobCompletionIndexKey, "1")]] 5 =
        some ([] ++ removed, [] ++ kept) ∧
      (removed ++ kept).Perm [[(jobCompletionIndexKey, "1")], [], [(jobCompletionIndexKey, "1")]] ∧
      ∀ i, kept.countP (fun p => getCompletionIndex (id p) = i) =
          (if 0 ≤ i ∧ i < 5 ∧ ∃ p ∈ [[(jobCompletionIndexKey, "1")], [], [(jobCompletionIndexKey, "1")]],
            getCompletionIndex (id p) = i then 1 else 0) ∧
        removed.countP (fun p => getCompletionIndex (id p) = i) =
          List.countP (fun p => getCompletionIndex (id p) = i)
              [[(jobCompletionIndexKey, "1")], [], [(jobCompletionIndexKey, "1")]] -
            (if 0 ≤ i ∧ i < 5 ∧ ∃ p ∈ [[(jobCompletionIndexKey, "1")], [], [(jobCompletionIndexKey, "1")]],
              getCompletionIndex (id p) = i then 1 else 0) := by
  have sortsByIndex : ∀ pods : List (List (String × String)),
      (pods.insertionSort fun a b => getCompletionIndex a ≤ getCompletionIndex b).Perm pods ∧
      (pods.insertionSort fun a b => getCompletionIndex a ≤ getCompletionIndex b).Pairwise
        fun a b => getCompletionIndex (id a) ≤ getCompletionIndex (id b) := fun pods =>
    ⟨List.perm_insertionSort _ _,
      @List.pairwise_insertionSort _ (fun a b => getCompletionIndex a ≤ getCompletionIndex b) _
        ⟨fun _ _ => le_total _ _⟩ ⟨fun _ _ _ => le_trans⟩ pods⟩
  exact ⟨sortsByIndex, fun _ => List.Perm.refl _,
    appendDuplicatedIndexPodsForRemoval_partitions id _ id sortsByIndex (fun _ => List.Perm.refl _) [] [] _ 5⟩

end Pods

end Kubernetes.Controller.Job
