import Mathlib
import Kubernetes.Library.GoInt
import Kubernetes.Library.Strconv
import Kubernetes.Library.Lexicographic
import Kubernetes.Library.Outcome

/-! The order in which a ReplicaSet gives up pods (`ActivePodsWithRanks` in
`pkg/controller/controller_utils.go`, `getPodsToDelete` in `pkg/controller/replicaset/replica_set.go`).

A ReplicaSet with more pods than it wants ranks each pod by the number of active related pods
on its node, sorts the pods with `ActivePodsWithRanks.Less` and deletes the first ones. `Less`
checks eight rules in turn, each on one key of the two pods. With `LogarithmicScaleDown` on,
rules 6 and 8 compare times in buckets of powers of two and decide a tie inside a bucket by
UID, where equal times fall through to the next rule.

An instant is an integer: nanoseconds from the zero instant of `time.Time`, the one `IsZero`
tests for.
-/

set_option autoImplicit false

namespace Kubernetes.Controller.Replicaset

open Kubernetes.Library

inductive PodPhase
  | unset
  | pending
  | running
  | succeeded
  | failed
  | unknown
  deriving DecidableEq, Repr

inductive ConditionStatus
  | conditionTrue
  | conditionFalse
  | conditionUnknown
  deriving DecidableEq, Repr

structure PodCondition where
  type : String
  status : ConditionStatus
  lastTransitionTime : ℤ := 0
  deriving DecidableEq, Repr

structure Pod where
  uid : String
  nodeName : String := ""
  phase : PodPhase := .unset
  conditions : List PodCondition := []
  annotations : List (String × String) := []
  /-- The restart count of each container status. -/
  restartCounts : List ℤ := []
  creationTimestamp : ℤ := 0
  deletionTimestamp : Option ℤ := none
  deriving DecidableEq, Repr

/-- The feature gates `Less` reads. -/
structure Features where
  podDeletionCost : Bool
  logarithmicScaleDown : Bool
  deriving DecidableEq, Repr

/-- Both gates are beta and on by default (`pkg/features/kube_features.go`). -/
def defaultFeatures : Features := ⟨true, true⟩

def podReady : String := "Ready"

def podDeletionCost : String := "controller.kubernetes.io/pod-deletion-cost"

/-! ## The pods' keys -/

/-- `podutil.GetPodCondition`: the first condition of a type. -/
def getPodCondition (pod : Pod) (conditionType : String) : Option PodCondition :=
  pod.conditions.find? (·.type = conditionType)

def isPodReady (pod : Pod) : Bool :=
  match getPodCondition pod podReady with
  | some condition => condition.status = .conditionTrue
  | none => false

def isPodActive (pod : Pod) : Bool :=
  pod.phase ≠ .succeeded ∧ pod.phase ≠ .failed ∧ pod.deletionTimestamp = none

def podPhaseToOrdinal : PodPhase → ℕ
  | .pending => 0
  | .unknown => 1
  | .running => 2
  | _ => 0

def podReadyTime (pod : Pod) : ℤ :=
  if isPodReady pod then
    match pod.conditions.find? (fun c => c.type = podReady ∧ c.status = .conditionTrue) with
    | some c => c.lastTransitionTime
    | none => 0
  else 0

def maxContainerRestarts (pod : Pod) : ℤ :=
  pod.restartCounts.foldl (fun maxRestarts restartCount => max maxRestarts restartCount) 0

def validFirstDigit (str : List Char) : Bool :=
  match str with
  | [] => false
  | c :: _ => c = '-' ∨ (c = '0' ∧ str = ['0']) ∨ ('1' ≤ c ∧ c ≤ '9')

inductive DeletionCostError
  | invalidValue (value : List Char)
  | parse (err : NumError)
  deriving DecidableEq, Repr

/-- `helper.GetDeletionCostFromPodAnnotations`: the cost, 0 on an error. -/
def getDeletionCostFromPodAnnotations (annotations : List (String × String)) :
    ℤ × Option DeletionCostError :=
  match annotations.lookup podDeletionCost with
  | none => (0, none)
  | some value =>
    -- values that start with a plus sign or leading zeros are not valid
    if !validFirstDigit value.toList then (0, some (.invalidValue value.toList))
    else
      match parseInt value.toList 32 with
      | .error err => (0, some (.parse err))
      | .ok i => (i, none)

/-- The cost `Less` reads, ignoring the error. -/
def deletionCost (pod : Pod) : ℤ := (getDeletionCostFromPodAnnotations pod.annotations).1

/-! ## Times -/

/-- `afterOrZero`: the zero time is after every other. -/
def afterOrZero (t1 t2 : ℤ) : Bool :=
  if t1 = 0 ∨ t2 = 0 then t1 = 0 else t2 < t1

def milliseconds (d : ℤ) : ℤ := d.tdiv 1000000

/-- `int64(math.Log2(float64(d)))` for a positive duration `d`, taken as `⌊log₂ d⌋`: what the
floating-point computation gives for every duration below `2^53` ns. -/
def log2Rank (d : ℤ) : ℤ := Nat.log 2 d.toNat

def logarithmicRankDiff (t1 t2 now : ℤ) : ℤ :=
  let d1 := timeSub now t1
  let d2 := timeSub now t2
  let r1 := if 0 < d1 then log2Rank d1 else -1
  let r2 := if 0 < d2 then log2Rank d2 else -1
  r1 - r2

/-- Rules 6 and 8 for two different times: the later first, on a logarithmic scale where the
gate is on and `now` is set, the lower UID first inside one bucket. Go compares strings byte by
byte, which on UTF-8 is the order of their characters. -/
def compareTimes (features : Features) (now : ℤ) (uid1 uid2 : String) (t1 t2 : ℤ) : Bool :=
  if !features.logarithmicScaleDown then afterOrZero t1 t2
  else if now = 0 ∨ t1 = 0 ∨ t2 = 0 then afterOrZero t1 t2
  else
    let rankDiff := logarithmicRankDiff t1 t2 now
    if rankDiff = 0 then decide (uid1.toList < uid2.toList) else decide (rankDiff < 0)

/-! ## `Less` -/

/-- `ActivePodsWithRanks.Less` on two pods and their ranks. -/
def lessPods (features : Features) (now : ℤ) (pi : Pod) (ri : ℤ) (pj : Pod) (rj : ℤ) : Bool :=
  -- 1. Unassigned < assigned
  if pi.nodeName ≠ pj.nodeName ∧ (pi.nodeName = "" ∨ pj.nodeName = "") then pi.nodeName = ""
  -- 2. PodPending < PodUnknown < PodRunning
  else if podPhaseToOrdinal pi.phase ≠ podPhaseToOrdinal pj.phase then
    podPhaseToOrdinal pi.phase < podPhaseToOrdinal pj.phase
  -- 3. Not ready < ready
  else if isPodReady pi ≠ isPodReady pj then !isPodReady pi
  -- 4. lower pod-deletion-cost < higher pod-deletion cost, where the gate is on
  else if features.podDeletionCost ∧ deletionCost pi ≠ deletionCost pj then
    deletionCost pi < deletionCost pj
  -- 5. Doubled up < not doubled up
  else if ri ≠ rj then rj < ri
  -- 6. Been ready for empty time < less time < more time
  else if isPodReady pi ∧ isPodReady pj ∧ podReadyTime pi ≠ podReadyTime pj then
    compareTimes features now pi.uid pj.uid (podReadyTime pi) (podReadyTime pj)
  -- 7. Pods with containers with higher restart counts < lower restart counts
  else if maxContainerRestarts pi ≠ maxContainerRestarts pj then
    maxContainerRestarts pj < maxContainerRestarts pi
  -- 8. Empty creation time pods < newer pods < older pods
  else if pi.creationTimestamp ≠ pj.creationTimestamp then
    compareTimes features now pi.uid pj.uid pi.creationTimestamp pj.creationTimestamp
  else false

/-- `Less` on a pod paired with its rank. -/
def lessEntries (features : Features) (now : ℤ) (a b : Pod × ℤ) : Bool :=
  lessPods features now a.1 a.2 b.1 b.2

/-- `ActivePodsWithRanks`: pods, a rank for each and the reference time. -/
structure ActivePodsWithRanks where
  pods : List Pod
  rank : List ℤ
  now : ℤ
  lengths : rank.length = pods.length

namespace ActivePodsWithRanks

def less (features : Features) (s : ActivePodsWithRanks) (i j : Fin s.pods.length) : Bool :=
  lessPods features s.now s.pods[i] (s.rank.get (i.cast s.lengths.symm))
    s.pods[j] (s.rank.get (j.cast s.lengths.symm))

/-- The pods with their ranks, the pairs `Swap` moves together. -/
def entries (s : ActivePodsWithRanks) : List (Pod × ℤ) := s.pods.zip s.rank

end ActivePodsWithRanks

/-! ## The documented order

Without the logarithmic scale, the eight rules compare one key each. -/

/-- Times ordered zero first, then the later first. -/
def timeKey (t : ℤ) : WithBot ℤ := if t = 0 then ⊥ else ((-t : ℤ) : WithBot ℤ)

/-- The eight rules as keys compared in turn. -/
def deletionOrder (features : Features) : Pod × ℤ → Pod × ℤ → Bool :=
  thenBy (fun e : Pod × ℤ => decide (e.1.nodeName ≠ "")) <|
  thenBy (fun e : Pod × ℤ => podPhaseToOrdinal e.1.phase) <|
  thenBy (fun e : Pod × ℤ => isPodReady e.1) <|
  thenBy (fun e : Pod × ℤ => if features.podDeletionCost then deletionCost e.1 else 0) <|
  thenBy (fun e : Pod × ℤ => -e.2) <|
  thenBy (fun e : Pod × ℤ => if isPodReady e.1 then timeKey (podReadyTime e.1) else ⊥) <|
  thenBy (fun e : Pod × ℤ => -maxContainerRestarts e.1) <|
  thenBy (fun e : Pod × ℤ => timeKey e.1.creationTimestamp) noOrder

theorem deletionOrder_strictWeak (features : Features) : StrictWeak (deletionOrder features) := by
  unfold deletionOrder
  repeat apply StrictWeak.thenBy
  exact strictWeak_noOrder

theorem timeKey_inj {t1 t2 : ℤ} : timeKey t1 = timeKey t2 ↔ t1 = t2 := by
  unfold timeKey
  split_ifs with zero1 zero2 zero2
  · simp [zero1, zero2]
  · simp [zero1, Ne.symm zero2]
  · simp [zero1, zero2]
  · simp

theorem afterOrZero_eq {t1 t2 : ℤ} (differ : t1 ≠ t2) :
    afterOrZero t1 t2 = decide (timeKey t1 < timeKey t2) := by
  unfold afterOrZero timeKey
  by_cases zero1 : t1 = 0
  · have : t2 ≠ 0 := fun zero2 => differ (zero1.trans zero2.symm)
    simp [zero1, this]
  · by_cases zero2 : t2 = 0
    · simp [zero1, zero2]
    · simp [zero1, zero2]

theorem compareTimes_of_plain {features : Features} {now : ℤ}
    (plain : features.logarithmicScaleDown = false ∨ now = 0) (uid1 uid2 : String) (t1 t2 : ℤ) :
    compareTimes features now uid1 uid2 t1 t2 = afterOrZero t1 t2 := by
  unfold compareTimes
  rcases plain with off | zero
  · simp [off]
  · simp [zero]

theorem not_eq_decide_lt {x y : Bool} (differ : x ≠ y) : (!x) = decide (x < y) := by
  cases x <;> cases y <;> simp_all

theorem lessEntries_eq_deletionOrder {features : Features} {now : ℤ}
    (plain : features.logarithmicScaleDown = false ∨ now = 0) :
    lessEntries features now = deletionOrder features := by
  funext a b
  unfold lessEntries lessPods deletionOrder
  apply ite_eq_thenBy
  · by_cases ea : a.1.nodeName = "" <;> by_cases eb : b.1.nodeName = ""
    · simp [ea, eb]
    · simp [ea, eb, Ne.symm eb]
    · simp [ea, eb]
    · simp [ea, eb]
  · intro differ
    by_cases ea : a.1.nodeName = "" <;> by_cases eb : b.1.nodeName = "" <;> simp [ea, eb] at differ ⊢
  intro _
  apply ite_eq_thenBy
  · exact Iff.rfl
  · exact fun _ => rfl
  intro _
  apply ite_eq_thenBy
  · exact Iff.rfl
  · exact not_eq_decide_lt
  intro sameReady
  apply ite_eq_thenBy
  · cases features.podDeletionCost <;> simp
  · rintro ⟨on, -⟩
    simp [on]
  intro _
  apply ite_eq_thenBy
  · simp
  · simp
  intro _
  apply ite_eq_thenBy
  · cases ready : isPodReady a.1 <;> simp_all [timeKey_inj]
  · rintro ⟨readyA, readyB, differ⟩
    rw [compareTimes_of_plain plain, afterOrZero_eq differ]
    simp [readyA, readyB]
  intro _
  apply ite_eq_thenBy
  · simp
  · simp
  intro _
  apply ite_eq_thenBy
  · simp [timeKey_inj]
  · intro differ
    rw [compareTimes_of_plain plain, afterOrZero_eq differ]
  intro _
  rfl

theorem lessEntries_strictWeak {features : Features} {now : ℤ}
    (plain : features.logarithmicScaleDown = false ∨ now = 0) :
    StrictWeak (lessEntries features now) := by
  rw [lessEntries_eq_deletionOrder plain]
  exact deletionOrder_strictWeak features

/-! ## Choosing the pods to delete -/

/-- `getPodsRankedByRelatedPodsOnSameNode`: each pod ranked by the number of active related pods
on its node. -/
def getPodsRankedByRelatedPodsOnSameNode (podsToRank relatedPods : List Pod) (now : ℤ) :
    ActivePodsWithRanks :=
  let podsOnNode : String → ℤ := relatedPods.foldl (fun podsOnNode pod =>
      if isPodActive pod then Function.update podsOnNode pod.nodeName (podsOnNode pod.nodeName + 1)
      else podsOnNode) fun _ => 0
  { pods := podsToRank
    rank := podsToRank.map fun pod => podsOnNode pod.nodeName
    now := now
    lengths := List.length_map _ }

/-- `sort.Sort` leaves the pods, each with its rank, in some order. -/
def Permutes (sort : ActivePodsWithRanks → List (Pod × ℤ)) : Prop :=
  ∀ s, List.Perm (sort s) s.entries

/-- What `sort.Sort` promises besides: where `Less` is a strict weak order, no pod ends up less
than a pod before it. -/
structure SortContract (features : Features) (sort : ActivePodsWithRanks → List (Pod × ℤ)) :
    Prop where
  permutes : Permutes sort
  sorted : ∀ s, StrictWeak (lessEntries features s.now) →
    (sort s).Pairwise fun a b => lessEntries features s.now b a = false

/-- The creation time of the youngest ready pod, the zero time where none is ready. -/
def youngestReadyTime (filteredPods : List Pod) : ℤ :=
  filteredPods.foldl (fun youngestTime pod =>
    if youngestTime < pod.creationTimestamp ∧ isPodReady pod then pod.creationTimestamp
    else youngestTime) 0

/-- `reportSortingDeletionAgeRatioMetric`: the ratio of each ready pod's age to the youngest
ready pod's, for the pods to delete, in whole milliseconds; `none` where it panics. -/
def reportSortingDeletionAgeRatioMetric (now : ℤ) (filteredPods : List Pod) (diff : ℕ) :
    Option (List ℤ) :=
  let youngestTime := youngestReadyTime filteredPods
  ((filteredPods.take diff).filter isPodReady).mapM fun pod =>
    intDiv (milliseconds (timeSub now pod.creationTimestamp)) (milliseconds (timeSub now youngestTime))

/-- `getPodsToDelete`, with `sort` for `sort.Sort`, `now` for the reference time of the ranks and
`clock` for the metric's reading of the clock; `none` where it panics. The caller passes
`diff ≤ len(filteredPods)`. -/
def getPodsToDelete (sort : ActivePodsWithRanks → List (Pod × ℤ)) (now clock : ℤ)
    (filteredPods relatedPods : List Pod) (diff : ℕ) : Option (List Pod) :=
  -- no need to sort the pods if all of them are to be deleted
  if diff < filteredPods.length then
    -- `sort.Sort` reorders `filteredPods` itself, through the slice `podsWithRanks.Pods`
    let sorted :=
      (sort (getPodsRankedByRelatedPodsOnSameNode filteredPods relatedPods now)).map Prod.fst
    (reportSortingDeletionAgeRatioMetric clock sorted diff).map fun _ => sorted.take diff
  else some (filteredPods.take diff)

theorem map_fst_entries (s : ActivePodsWithRanks) : s.entries.map Prod.fst = s.pods :=
  List.map_fst_zip (le_of_eq s.lengths.symm)

theorem Permutes.map_fst {sort : ActivePodsWithRanks → List (Pod × ℤ)} (perm : Permutes sort)
    (s : ActivePodsWithRanks) : List.Perm ((sort s).map Prod.fst) s.pods := by
  have moved := (perm s).map Prod.fst
  rwa [map_fst_entries] at moved

theorem youngestReadyTime_perm {pods pods' : List Pod} (perm : List.Perm pods pods') :
    youngestReadyTime pods = youngestReadyTime pods' := by
  unfold youngestReadyTime
  apply perm.foldl_eq'
  intro x _ y _ t
  have step : ∀ (t : ℤ) (pod : Pod),
      (if t < pod.creationTimestamp ∧ isPodReady pod then pod.creationTimestamp else t) =
        if isPodReady pod then max t pod.creationTimestamp else t := by
    intro t pod
    by_cases ready : isPodReady pod
    · simp only [ready, and_true, if_true]
      split_ifs <;> omega
    · simp [ready]
  simp only [step]
  by_cases rx : isPodReady x <;> by_cases ry : isPodReady y <;> simp [rx, ry, max_right_comm]

theorem reportSortingDeletionAgeRatioMetric_isSome {clock : ℤ} {pods : List Pod} {diff : ℕ}
    (divisor : milliseconds (timeSub clock (youngestReadyTime pods)) ≠ 0) :
    (reportSortingDeletionAgeRatioMetric clock pods diff).isSome :=
  mapM_isSome fun _ _ => by simp [intDiv, divisor]

theorem reportSortingDeletionAgeRatioMetric_eq_none {clock : ℤ} {pods : List Pod} {diff : ℕ}
    (divisor : milliseconds (timeSub clock (youngestReadyTime pods)) = 0) {pod : Pod}
    (deleted : pod ∈ pods.take diff) (ready : isPodReady pod = true) :
    reportSortingDeletionAgeRatioMetric clock pods diff = none :=
  mapM_eq_none (List.mem_filter.mpr ⟨deleted, ready⟩) (by simp [intDiv, divisor])

section
variable {sort : ActivePodsWithRanks → List (Pod × ℤ)} {now clock : ℤ}
  {filteredPods relatedPods : List Pod} {diff : ℕ}

theorem getPodsToDelete_of_permutes (perm : Permutes sort) (fewer : diff < filteredPods.length)
    (divisor : milliseconds (timeSub clock (youngestReadyTime filteredPods)) ≠ 0) :
    getPodsToDelete sort now clock filteredPods relatedPods diff =
      some (((sort (getPodsRankedByRelatedPodsOnSameNode filteredPods relatedPods now)).map
        Prod.fst).take diff) := by
  unfold getPodsToDelete
  rw [if_pos fewer]
  set sorted := (sort (getPodsRankedByRelatedPodsOnSameNode filteredPods relatedPods now)).map
    Prod.fst
  have same : youngestReadyTime sorted = youngestReadyTime filteredPods := youngestReadyTime_perm
    (perm.map_fst (getPodsRankedByRelatedPodsOnSameNode filteredPods relatedPods now))
  have runs : (reportSortingDeletionAgeRatioMetric clock sorted diff).isSome :=
    reportSortingDeletionAgeRatioMetric_isSome (same ▸ divisor)
  obtain ⟨ratios, reported⟩ := Option.isSome_iff_exists.mp runs
  simp only [reported, Option.map_some]

theorem getPodsToDelete_eq_none (perm : Permutes sort) (fewer : diff < filteredPods.length)
    (positive : 0 < diff) (ready : ∀ pod ∈ filteredPods, isPodReady pod = true)
    (divisor : milliseconds (timeSub clock (youngestReadyTime filteredPods)) = 0) :
    getPodsToDelete sort now clock filteredPods relatedPods diff = none := by
  have moved := perm.map_fst (getPodsRankedByRelatedPodsOnSameNode filteredPods relatedPods now)
  set sorted := (sort (getPodsRankedByRelatedPodsOnSameNode filteredPods relatedPods now)).map
    Prod.fst
  obtain ⟨first, rest, split⟩ : ∃ first rest, sorted = first :: rest := by
    cases h : sorted with
    | nil =>
      have lengths := moved.length_eq
      rw [h] at lengths
      simp only [List.length_nil, getPodsRankedByRelatedPodsOnSameNode] at lengths
      omega
    | cons first rest => exact ⟨first, rest, rfl⟩
  have deleted : first ∈ sorted.take diff := by
    rw [split]
    obtain ⟨n, rfl⟩ := Nat.exists_eq_add_of_lt positive
    simp
  have firstReady : isPodReady first = true :=
    ready first (moved.subset (List.mem_of_mem_take deleted))
  have panics := reportSortingDeletionAgeRatioMetric_eq_none
    ((youngestReadyTime_perm moved).symm ▸ divisor) deleted firstReady
  unfold getPodsToDelete
  rw [if_pos fewer]
  simp only [sorted] at panics
  simp only [panics, Option.map_none]

/-- With `LogarithmicScaleDown` off, a sort that keeps its contract deletes `diff` pods and keeps
none less than a pod it deletes, where the metric does not divide by zero. -/
theorem getPodsToDelete_keeps_order {features : Features} (off : features.logarithmicScaleDown = false)
    (contract : SortContract features sort) (fewer : diff < filteredPods.length)
    (divisor : milliseconds (timeSub clock (youngestReadyTime filteredPods)) ≠ 0) :
    ∃ sorted, List.Perm sorted (getPodsRankedByRelatedPodsOnSameNode filteredPods relatedPods now).entries ∧
      getPodsToDelete sort now clock filteredPods relatedPods diff =
        some ((sorted.take diff).map Prod.fst) ∧
      ∀ kept ∈ sorted.drop diff, ∀ victim ∈ sorted.take diff,
        lessEntries features now kept victim = false := by
  set s := getPodsRankedByRelatedPodsOnSameNode filteredPods relatedPods now
  have ordered := contract.sorted s (lessEntries_strictWeak (.inl off))
  rw [← List.take_append_drop diff (sort s), List.pairwise_append] at ordered
  refine ⟨sort s, contract.permutes s, ?_, fun kept kept_mem victim victim_mem =>
    ordered.2.2 victim victim_mem kept kept_mem⟩
  rw [getPodsToDelete_of_permutes contract.permutes fewer divisor, List.map_take]

end

theorem mergeSort_sortContract (features : Features) :
    SortContract features fun s => s.entries.mergeSort fun a b => !lessEntries features s.now b a where
  permutes _ := List.mergeSort_perm _ _
  sorted s order := order.pairwise_mergeSort s.entries

namespace Runs

/-- 2026-01-01T00:00:00Z. -/
def now : ℤ := 63902822400 * 10 ^ 9

def readySince (t : ℤ) : PodCondition :=
  { type := podReady, status := .conditionTrue, lastTransitionTime := t }

/-- A running pod on `node-1` created ten seconds before `now`. -/
def cyclePod (uid : String) (restarts readyAt : ℤ) : Pod :=
  { uid := uid, nodeName := "node-1", phase := .running, conditions := [readySince readyAt],
    restartCounts := [restarts], creationTimestamp := now - 10 * 10 ^ 9 }

/-- Ready for 3 s, 3 s and 4 s: both ages fall in the bucket `[2^31, 2^32)` ns. The first two are
ready since the same instant and fall through to their restart counts. -/
def cyclePods : List Pod :=
  [cyclePod "c" 1 (now - 3 * 10 ^ 9), cyclePod "a" 0 (now - 3 * 10 ^ 9),
    cyclePod "b" 0 (now - 4 * 10 ^ 9)]

def cycle : ActivePodsWithRanks := getPodsRankedByRelatedPodsOnSameNode cyclePods cyclePods now

/-- A ready pod created at `now`. -/
def skewPod (uid : String) : Pod :=
  { uid := uid, nodeName := "node-1", phase := .running, conditions := [readySince now],
    creationTimestamp := now }

def skewPods : List Pod := [skewPod "a", skewPod "b"]

/-- The controller's clock half a millisecond past the pods' creation. -/
def skewedClock : ℤ := now + 500000

theorem cycle_ahead : ∀ e ∈ cycle.entries, ∃ kept ∈ cycle.entries,
    kept.1 ≠ e.1 ∧ lessEntries defaultFeatures now kept e = true := by
  decide

/-- Without the logarithmic buckets merge sort orders the three pods strictly: the pod deleted has
none of the two kept less than it. -/
theorem getPodsToDelete_keeps_order_without_buckets :
    let features : Features := ⟨true, false⟩
    let sort := fun s : ActivePodsWithRanks => s.entries.mergeSort fun a b => !lessEntries features s.now b a
    features.logarithmicScaleDown = false ∧ SortContract features sort ∧ 1 < cyclePods.length ∧
      milliseconds (timeSub now (youngestReadyTime cyclePods)) ≠ 0 ∧
      ∃ sorted, List.Perm sorted cycle.entries ∧
        getPodsToDelete sort now now cyclePods cyclePods 1 = some ((sorted.take 1).map Prod.fst) ∧
        ∀ kept ∈ sorted.drop 1, ∀ victim ∈ sorted.take 1, lessEntries features now kept victim = false := by
  intro features sort
  have divisor : milliseconds (timeSub now (youngestReadyTime cyclePods)) ≠ 0 := by decide
  exact ⟨rfl, mergeSort_sortContract features, by decide, divisor,
    getPodsToDelete_keeps_order rfl (mergeSort_sortContract features) (by decide) divisor⟩

end Runs

theorem deletion_order_cycles_and_age_ratio_divides_by_zero :
    (Runs.cycle.less defaultFeatures ⟨0, by decide⟩ ⟨1, by decide⟩ = true ∧
      Runs.cycle.less defaultFeatures ⟨1, by decide⟩ ⟨2, by decide⟩ = true ∧
      Runs.cycle.less defaultFeatures ⟨2, by decide⟩ ⟨0, by decide⟩ = true ∧
      Runs.cycle.less defaultFeatures ⟨0, by decide⟩ ⟨2, by decide⟩ = false) ∧
    (∀ sort, Permutes sort → ∃ victims,
      getPodsToDelete sort Runs.now Runs.now Runs.cyclePods Runs.cyclePods 1 = some victims ∧
      ∃ kept ∈ Runs.cycle.entries, kept.1 ∉ victims ∧ ∃ victim ∈ Runs.cycle.entries,
        victim.1 ∈ victims ∧ lessEntries defaultFeatures Runs.now kept victim = true) ∧
    ∀ sort, Permutes sort →
      getPodsToDelete sort Runs.now Runs.skewedClock Runs.skewPods Runs.skewPods 1 = none := by
  refine ⟨by decide, ?_, ?_⟩
  · intro sort perm
    rw [getPodsToDelete_of_permutes perm (by decide) (by decide)]
    -- the pod the sort puts first is the one deleted, and its predecessor in the cycle is kept
    obtain ⟨first, rest, split⟩ : ∃ first rest, sort Runs.cycle = first :: rest := by
      cases h : sort Runs.cycle with
      | nil =>
        have lengths := (perm Runs.cycle).length_eq
        rw [h] at lengths
        exact absurd lengths (by decide)
      | cons first rest => exact ⟨first, rest, rfl⟩
    have mem : first ∈ Runs.cycle.entries := (perm Runs.cycle).subset (split ▸ List.mem_cons_self)
    obtain ⟨kept, kept_mem, differ, less⟩ := Runs.cycle_ahead first mem
    refine ⟨_, rfl, kept, kept_mem, ?_, first, mem, ?_, less⟩
    · change kept.1 ∉ ((sort Runs.cycle).map Prod.fst).take 1
      simp [split, differ]
    · change first.1 ∈ ((sort Runs.cycle).map Prod.fst).take 1
      simp [split]
  · intro sort perm
    exact getPodsToDelete_eq_none perm (by decide) (by decide) (by decide) (by decide)

end Kubernetes.Controller.Replicaset
