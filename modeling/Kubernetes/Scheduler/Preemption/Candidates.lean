import Kubernetes.Library.GoInt
import Kubernetes.Library.LeastKeys
import Kubernetes.Library.Tally
import Kubernetes.Scheduler.Framework.Types

/-! Choosing the node to preempt on (`pickOneNodeForPreemption` and `SelectCandidate` in
`pkg/scheduler/framework/preemption`, `GetEarliestPodStartTime` in `pkg/scheduler/util`).

Among the candidate nodes, each with its victims, the choice keeps the nodes with the fewest
victims whose eviction violates a disruption budget, then those whose most important victim has
the lowest priority, then the lowest sum of victim priorities, each shifted by `2^31`, then the
fewest victims, and of the nodes left takes the first whose most important victims started
latest. The passes read `victims.Pods[0]`; the model returns `none` where such a read falls
outside a slice. A pod that has not started counts from the clock, read anew at each call of
`GetPodStartTime`: the readings of one choice are a sequence that does not decrease.
-/

set_option autoImplicit false

namespace Kubernetes.Scheduler.Preemption

open Kubernetes.Library

structure Victims where
  pods : List Pod
  numPDBViolations : ℤ

/-- The wall clock during one choice: `reading k` is what the `k`-th call of `time.Now()` returns.
Readings do not decrease, and all are taken by `last`. -/
structure Clock where
  reading : ℕ → ℤ
  last : ℤ
  monotone : Monotone reading
  bounded : ∀ k, reading k ≤ last

/-- `util.GetPodStartTime` with `reads` readings of the clock taken so far: the pod's start, or the
next reading for a pod that has not started. -/
def getPodStartTime (clock : Clock) (pod : Pod) (reads : ℕ) : ℤ × ℕ :=
  match pod.status.startTime with
  | some start => (start, reads)
  | none => (clock.reading reads, reads + 1)

/-- One round of `GetEarliestPodStartTime`: the earliest start and the highest priority so far,
and the readings taken. -/
def earliestStep (clock : Clock) (acc : ℤ × ℤ × ℕ) (pod : Pod) : ℤ × ℤ × ℕ :=
  if podPriority pod = acc.2.1 then
    let first := getPodStartTime clock pod acc.2.2
    if first.1 < acc.1 then
      -- `earliestPodStartTime = GetPodStartTime(pod)` calls it a second time
      let second := getPodStartTime clock pod first.2
      (second.1, acc.2.1, second.2)
    else (acc.1, acc.2.1, first.2)
  else if podPriority pod > acc.2.1 then
    let start := getPodStartTime clock pod acc.2.2
    (start.1, podPriority pod, start.2)
  else acc

/-- `util.GetEarliestPodStartTime`: `none` for victims without pods. The loop ranges over every
pod, the first included. -/
def getEarliestPodStartTime (clock : Clock) (victims : Victims) (reads : ℕ) : Option ℤ × ℕ :=
  match victims.pods with
  | [] => (none, reads)
  | first :: _ =>
    let start := getPodStartTime clock first reads
    let result := victims.pods.foldl (earliestStep clock) (start.1, podPriority first, start.2)
    (some result.1, result.2.2)

/-! ## Start times against the clock -/

/-- The start of a pod, one that has not started counting from `now`. -/
def startFrom (now : ℤ) (pod : Pod) : ℤ := pod.status.startTime.getD now

/-- No start time of the pods falls inside the window of the readings: each is at most the first
reading or at least the last bound. -/
def Clock.Settled (clock : Clock) (pods : List Pod) : Prop :=
  ∀ pod ∈ pods, ∀ start, pod.status.startTime = some start → start ≤ clock.reading 0 ∨ clock.last ≤ start

theorem Clock.settled_of_reading_eq {clock : Clock} (still : clock.reading 0 = clock.last) (pods : List Pod) :
    clock.Settled pods := fun _ _ start _ => still ▸ le_total start (clock.reading 0)

theorem Clock.first_le (clock : Clock) (k : ℕ) : clock.reading 0 ≤ clock.reading k :=
  clock.monotone (Nat.zero_le k)

theorem startFrom_mono (pod : Pod) {now now' : ℤ} (le : now ≤ now') : startFrom now pod ≤ startFrom now' pod := by
  unfold startFrom
  cases pod.status.startTime <;> simp [le]

theorem getPodStartTime_of_started (clock : Clock) {pod : Pod} {start : ℤ} (started : pod.status.startTime = some start)
    (reads : ℕ) : getPodStartTime clock pod reads = (start, reads) := by
  simp only [getPodStartTime, started]

theorem getPodStartTime_of_waiting (clock : Clock) {pod : Pod} (waiting : pod.status.startTime = none) (reads : ℕ) :
    getPodStartTime clock pod reads = (clock.reading reads, reads + 1) := by
  simp only [getPodStartTime, waiting]

theorem getPodStartTime_fst (clock : Clock) (pod : Pod) (reads : ℕ) :
    (getPodStartTime clock pod reads).1 = startFrom (clock.reading reads) pod := by
  cases started : pod.status.startTime with
  | some start => simp [getPodStartTime_of_started clock started, startFrom, started]
  | none => simp [getPodStartTime_of_waiting clock started, startFrom, started]

theorem le_getPodStartTime_snd (clock : Clock) (pod : Pod) (reads : ℕ) : reads ≤ (getPodStartTime clock pod reads).2 := by
  cases started : pod.status.startTime with
  | some start => simp [getPodStartTime_of_started clock started]
  | none => simp [getPodStartTime_of_waiting clock started]

theorem getPodStartTime_between (clock : Clock) (pod : Pod) (reads : ℕ) :
    startFrom (clock.reading 0) pod ≤ (getPodStartTime clock pod reads).1 ∧
      (getPodStartTime clock pod reads).1 ≤ startFrom clock.last pod := by
  rw [getPodStartTime_fst]
  exact ⟨startFrom_mono pod (clock.first_le reads), startFrom_mono pod (clock.bounded reads)⟩

theorem getPodStartTime_ahead (clock : Clock) {pod : Pod} (settled : clock.Settled [pod]) (reads : ℕ) :
    ∀ k, (getPodStartTime clock pod reads).2 ≤ k → clock.reading k < (getPodStartTime clock pod reads).1 →
      clock.reading (k + 1) ≤ (getPodStartTime clock pod reads).1 := by
  intro k after below
  cases started : pod.status.startTime with
  | some start =>
    rw [getPodStartTime_of_started clock started] at below ⊢
    rcases settled pod List.mem_cons_self start started with early | late
    · exact absurd ((early.trans (clock.first_le k)).trans_lt below) (lt_irrefl _)
    · exact (clock.bounded _).trans late
  | none =>
    rw [getPodStartTime_of_waiting clock started] at after below
    exact absurd below (not_lt.mpr (clock.monotone (by omega)))

/-! ## The loop of `GetEarliestPodStartTime` -/

/-- What the loop keeps over the pods `seen`: the highest priority among them and a start, between
the bounds of one pod of that priority and no later than any pod of it counted from the last bound,
below which no reading to come falls without the next one too. -/
structure EarliestInv (clock : Clock) (seen : List Pod) (acc : ℤ × ℤ × ℕ) : Prop where
  kept : ∃ pod ∈ seen, podPriority pod = acc.2.1 ∧ startFrom (clock.reading 0) pod ≤ acc.1 ∧
    acc.1 ≤ startFrom clock.last pod
  highest : ∀ pod ∈ seen, podPriority pod ≤ acc.2.1 ∧ (podPriority pod = acc.2.1 → acc.1 ≤ startFrom clock.last pod)
  ahead : ∀ k, acc.2.2 ≤ k → clock.reading k < acc.1 → clock.reading (k + 1) ≤ acc.1

section Earliest

variable {clock : Clock}

theorem EarliestInv.restart {seen : List Pod} {pod : Pod} (settled : clock.Settled [pod]) (reads : ℕ)
    (lower : ∀ other ∈ seen, podPriority other < podPriority pod) :
    EarliestInv clock (seen ++ [pod])
      ((getPodStartTime clock pod reads).1, podPriority pod, (getPodStartTime clock pod reads).2) := by
  obtain ⟨fromFirst, toLast⟩ := getPodStartTime_between clock pod reads
  refine ⟨⟨pod, by simp, rfl, fromFirst, toLast⟩, fun other member => ?_, getPodStartTime_ahead clock settled reads⟩
  rcases List.mem_append.mp member with old | last
  · exact ⟨(lower other old).le, fun same => absurd same (lower other old).ne⟩
  · rw [List.mem_singleton.mp last]
    exact ⟨le_rfl, fun _ => toLast⟩

theorem second_read_le {acc : ℤ × ℤ × ℕ} (ahead : ∀ k, acc.2.2 ≤ k → clock.reading k < acc.1 →
    clock.reading (k + 1) ≤ acc.1) {pod : Pod} (earlier : (getPodStartTime clock pod acc.2.2).1 < acc.1) :
    (getPodStartTime clock pod (getPodStartTime clock pod acc.2.2).2).1 ≤ acc.1 := by
  cases started : pod.status.startTime with
  | some start =>
    rw [getPodStartTime_of_started clock started] at earlier ⊢
    rw [getPodStartTime_of_started clock started]
    exact earlier.le
  | none =>
    rw [getPodStartTime_of_waiting clock started] at earlier ⊢
    rw [getPodStartTime_of_waiting clock started]
    exact ahead acc.2.2 le_rfl earlier

theorem EarliestInv.step {seen : List Pod} {acc : ℤ × ℤ × ℕ} (inv : EarliestInv clock seen acc) {pod : Pod}
    (settled : clock.Settled [pod]) : EarliestInv clock (seen ++ [pod]) (earliestStep clock acc pod) := by
  obtain ⟨⟨kept, member, keptPriority, keptFrom, keptTo⟩, highest, ahead⟩ := inv
  have widen : ∀ {other}, other ∈ seen → other ∈ seen ++ [pod] := fun member => List.mem_append_left _ member
  dsimp only [earliestStep]
  split_ifs with same earlier greater
  · -- a pod of the kept priority read earlier than the kept start: its second read is kept
    obtain ⟨fromFirst, toLast⟩ := getPodStartTime_between clock pod (getPodStartTime clock pod acc.2.2).2
    have second := second_read_le ahead earlier
    refine ⟨⟨pod, by simp, same, fromFirst, toLast⟩, fun other member' => ?_,
      getPodStartTime_ahead clock settled _⟩
    rcases List.mem_append.mp member' with old | last
    · exact ⟨(highest other old).1, fun tie => second.trans ((highest other old).2 tie)⟩
    · rw [List.mem_singleton.mp last]
      exact ⟨same.le, fun _ => toLast⟩
  · -- a later read of a pod of the kept priority leaves the kept start
    have toLast := (getPodStartTime_between clock pod acc.2.2).2
    refine ⟨⟨kept, widen member, keptPriority, keptFrom, keptTo⟩, fun other member' => ?_,
      fun k after => ahead k ((le_getPodStartTime_snd clock pod acc.2.2).trans after)⟩
    rcases List.mem_append.mp member' with old | last
    · exact highest other old
    · rw [List.mem_singleton.mp last]
      exact ⟨same.le, fun _ => (not_lt.mp earlier).trans toLast⟩
  · -- a higher priority restarts the loop at the pod
    exact EarliestInv.restart settled acc.2.2 fun other member => ((highest other member).1.trans_lt greater)
  · -- a lower priority is passed over
    refine ⟨⟨kept, widen member, keptPriority, keptFrom, keptTo⟩, fun other member' => ?_, ahead⟩
    rcases List.mem_append.mp member' with old | last
    · exact highest other old
    · rw [List.mem_singleton.mp last]
      have lower : podPriority pod < acc.2.1 := lt_of_le_of_ne (not_lt.mp greater) same
      exact ⟨lower.le, fun tie => absurd tie lower.ne⟩

theorem EarliestInv.foldl {seen : List Pod} {acc : ℤ × ℤ × ℕ} (inv : EarliestInv clock seen acc) {pods : List Pod}
    (settled : clock.Settled pods) : EarliestInv clock (seen ++ pods) (pods.foldl (earliestStep clock) acc) := by
  induction pods generalizing seen acc with
  | nil => simpa using inv
  | cons pod pods ih =>
    rw [List.foldl_cons, ← List.singleton_append, ← List.append_assoc]
    exact ih (inv.step fun other member => settled other (by simp [List.mem_singleton.mp member]))
      fun other member => settled other (List.mem_cons_of_mem _ member)

/-- For victims with pods, `GetEarliestPodStartTime` returns a start between the bounds of a pod of
the highest priority among them, and no later than any pod of that priority counted from the last
bound, wherever in the choice the clock is read. -/
theorem getEarliestPodStartTime_spec (clock : Clock) {victims : Victims} (nonempty : victims.pods ≠ [])
    (settled : clock.Settled victims.pods) (reads : ℕ) :
    ∃ pod ∈ victims.pods, ∃ earliest, (getEarliestPodStartTime clock victims reads).1 = some earliest ∧
      startFrom (clock.reading 0) pod ≤ earliest ∧ earliest ≤ startFrom clock.last pod ∧
      ∀ other ∈ victims.pods, podPriority other ≤ podPriority pod ∧
        (podPriority other = podPriority pod → earliest ≤ startFrom clock.last other) := by
  obtain ⟨first, rest, pods⟩ := List.exists_cons_of_ne_nil nonempty
  have firstSettled : clock.Settled [first] := fun other member => settled other (by simp [pods, List.mem_singleton.mp member])
  -- the loop ranges over every pod, the first included, from the first pod's start and priority
  have start := (@EarliestInv.restart clock [] first firstSettled reads (by simp)).foldl settled
  obtain ⟨⟨pod, member, priority, fromFirst, toLast⟩, highest, -⟩ := start
  have listed : ∀ {other}, other ∈ [] ++ [first] ++ victims.pods ↔ other ∈ victims.pods := by simp [pods]
  refine ⟨pod, listed.mp member, _, by simp only [getEarliestPodStartTime, pods], fromFirst, toLast, fun other member' => ?_⟩
  rw [priority]
  exact highest other (listed.mpr member')

end Earliest

/-- What the last pass compares: the earliest start among a node's most important victims, those
that have not started counting from `now`. -/
def earliestStart (now : ℤ) (node : String × Victims) : ℤ :=
  match node.2.pods with
  | [] => now
  | first :: _ => (node.2.pods.foldl (leastOfGreatestStep podPriority (startFrom now)) (startFrom now first, podPriority first)).1

theorem earliestStart_spec (now : ℤ) {node : String × Victims} (nonempty : node.2.pods ≠ []) :
    ∃ pod ∈ node.2.pods, earliestStart now node = startFrom now pod ∧
      ∀ other ∈ node.2.pods, podPriority other ≤ podPriority pod ∧
        (podPriority other = podPriority pod → startFrom now pod ≤ startFrom now other) := by
  obtain ⟨first, rest, pods⟩ := List.exists_cons_of_ne_nil nonempty
  obtain ⟨pod, member, kept, best⟩ :=
    foldl_leastOfGreatestStep podPriority (startFrom now) first (first :: rest)
  have listed : ∀ {other}, other ∈ first :: first :: rest ↔ other ∈ node.2.pods := by simp [pods]
  refine ⟨pod, listed.mp member, ?_, fun other member' => best other (listed.mpr member')⟩
  simp only [earliestStart, pods, kept]

theorem getEarliestPodStartTime_between (clock : Clock) {node : String × Victims} (nonempty : node.2.pods ≠ [])
    (settled : clock.Settled node.2.pods) (reads : ℕ) :
    ∃ earliest, (getEarliestPodStartTime clock node.2 reads).1 = some earliest ∧
      earliestStart (clock.reading 0) node ≤ earliest ∧ earliest ≤ earliestStart clock.last node := by
  obtain ⟨pod, member, earliest, found, fromFirst, toLast, highest⟩ :=
    getEarliestPodStartTime_spec clock nonempty settled reads
  refine ⟨earliest, found, ?_, ?_⟩
  · -- the earliest start from the first reading is at a pod of the same highest priority
    obtain ⟨low, lowMember, lowEq, lowBest⟩ := earliestStart_spec (clock.reading 0) nonempty
    have tie : podPriority pod = podPriority low := le_antisymm (lowBest pod member).1 (highest low lowMember).1
    rw [lowEq]
    exact ((lowBest pod member).2 tie).trans fromFirst
  · obtain ⟨high, highMember, highEq, highBest⟩ := earliestStart_spec clock.last nonempty
    have tie : podPriority high = podPriority pod := le_antisymm (highest high highMember).1 (highBest pod member).1
    rw [highEq]
    exact (highest high highMember).2 tie

namespace Runs

/-- Two pods of one priority that started at different times. -/
def earlyPod : Pod :=
  { «namespace» := "default", name := "early", uid := "uid-early", spec := { priority := some 5 },
    status := { startTime := some 100 } }

def latePod : Pod :=
  { «namespace» := "default", name := "late", uid := "uid-late", spec := { priority := some 5 },
    status := { startTime := some 200 } }

/-- A clock that stands at 0. -/
def stillClock : Clock := ⟨fun _ => 0, 0, monotone_const, fun _ => le_rfl⟩

theorem earliest_of_two_pods :
    (⟨[latePod, earlyPod], 0⟩ : Victims).pods ≠ [] ∧ stillClock.Settled [latePod, earlyPod] ∧
      ∃ pod ∈ [latePod, earlyPod], ∃ earliest,
        (getEarliestPodStartTime stillClock ⟨[latePod, earlyPod], 0⟩ 0).1 = some earliest ∧
        startFrom (stillClock.reading 0) pod ≤ earliest ∧ earliest ≤ startFrom stillClock.last pod ∧
        ∀ other ∈ [latePod, earlyPod], podPriority other ≤ podPriority pod ∧
          (podPriority other = podPriority pod → earliest ≤ startFrom stillClock.last other) :=
  have nonempty : (⟨[latePod, earlyPod], 0⟩ : Victims).pods ≠ [] := List.cons_ne_nil _ _
  have settled := Clock.settled_of_reading_eq rfl [latePod, earlyPod]
  ⟨nonempty, settled, getEarliestPodStartTime_spec stillClock nonempty settled 0⟩

/-- A pod that has not started, of the same priority as one that started at 10. -/
def waitingPod : Pod :=
  { «namespace» := "default", name := "waiting", uid := "uid-waiting", spec := { priority := some 5 } }

def startedAtTen : Pod := { waitingPod with name := "started", uid := "uid-started", status := { startTime := some 10 } }

/-- A clock read at 9 and then at 11. -/
def passingClock : Clock where
  reading k := if k = 0 then 9 else 11
  last := 11
  monotone := fun a b le => by beta_reduce; split_ifs <;> omega
  bounded := fun k => by split_ifs <;> omega

/- Where a start time falls inside the window of the readings, the first read of a pod that has
not started can fall below it and the second above: `GetEarliestPodStartTime` returns 11 although
a pod of the highest priority started at 10. -/
example :
    (getEarliestPodStartTime passingClock ⟨[startedAtTen, waitingPod], 0⟩ 0).1 = some 11 ∧
      startedAtTen.status.startTime = some 10 ∧ podPriority startedAtTen = podPriority waitingPod := by
  decide

end Runs

/-- The priority of `victims.Pods[0]`. -/
def highestPodPriority (victims : Victims) : Option ℤ := victims.pods.head?.map podPriority

/-- The sum the third pass compares, in `int64`. -/
def sumPriorities (victims : Victims) : ℤ :=
  victims.pods.foldl (fun sum pod => intAdd sum (podPriority pod + (maxInt32 + 1))) 0

/-- One round of the last pass: a node whose victims started strictly later takes the place of the
one kept; a node without a start time is passed over. -/
def latestStep (clock : Clock) (acc : ((String × Victims) × ℤ) × ℕ) (node : String × Victims) :
    ((String × Victims) × ℤ) × ℕ :=
  let found := getEarliestPodStartTime clock node.2 acc.2
  match found.1 with
  | none => (acc.1, found.2)
  | some earliest => if acc.1.2 < earliest then ((node, earliest), found.2) else (acc.1, found.2)

/-- `if lenNodes == 1 { return minNodes[0] }`, and otherwise the next pass. -/
def returnSingle (minNodes : List (String × Victims)) (next : List (String × Victims) → Option String) :
    Option String :=
  match minNodes with
  | [node] => some node.1
  | _ => next minNodes

/-- The first pass: the nodes with the fewest victims whose eviction violates a budget. -/
def minNumPDBViolatingNodes (nodes : List (String × Victims)) : List (String × Victims) :=
  (keepLeast (fun node : String × Victims => node.2.numPDBViolations) maxInt32 nodes).2

/-- The second pass: the nodes whose most important victim has the lowest priority. -/
def minHighestPriorityNodes (nodes : List (String × Victims)) : List (String × Victims) :=
  (keepLeast (fun node : String × Victims => (highestPodPriority node.2).getD 0) maxInt32 nodes).2

/-- The third pass: the nodes of least sum of victim priorities. -/
def minSumPrioritiesNodes (nodes : List (String × Victims)) : List (String × Victims) :=
  (keepLeast (fun node : String × Victims => sumPriorities node.2) maxInt nodes).2

/-- The fourth pass: the nodes with the fewest victims. -/
def minNumPodsNodes (nodes : List (String × Victims)) : List (String × Victims) :=
  (keepLeast (fun node : String × Victims => (node.2.pods.length : ℤ)) maxInt32 nodes).2

/-- The last pass: the first node kept, replaced by each later node whose victims started later.
The clock is read from the start of the choice: no pass before reads it. -/
def pickLatest (clock : Clock) (minNodes : List (String × Victims)) : Option String :=
  match minNodes with
  | [] => none
  | first :: rest =>
    let found := getEarliestPodStartTime clock first.2 0
    match found.1 with
    | none => some first.1
    | some latest => some (rest.foldl (latestStep clock) ((first, latest), found.2)).1.1.1

/-- `pickOneNodeForPreemption`, the map walked in the order of `nodesToVictims`. -/
def pickOneNodeForPreemption (clock : Clock) (nodesToVictims : List (String × Victims)) : Option String :=
  if nodesToVictims = [] then some "" else
  returnSingle (minNumPDBViolatingNodes nodesToVictims) fun minNodes1 =>
    -- the second pass reads `victims.Pods[0]` of every node kept
    if minNodes1.any fun node => node.2.pods.isEmpty then none else
    returnSingle (minHighestPriorityNodes minNodes1) fun minNodes2 =>
      returnSingle (minSumPrioritiesNodes minNodes2) fun minNodes1 =>
        returnSingle (minNumPodsNodes minNodes1) (pickLatest clock)

/-- Victims as the node choice reads them: at least one pod, each priority an `int32`, and a count
within `int32`. -/
structure Victims.WellFormed (victims : Victims) : Prop where
  nonempty : victims.pods ≠ []
  priorities : ∀ pod ∈ victims.pods, podPriority pod ≤ maxInt32
  count : (victims.pods.length : ℤ) ≤ maxInt32

/-- What the four passes compare, in their order. -/
def rank (victims : Victims) : ℤ ×ₗ ℤ ×ₗ ℤ ×ₗ ℤ :=
  toLex (victims.numPDBViolations, toLex ((highestPodPriority victims).getD 0,
    toLex (sumPriorities victims, (victims.pods.length : ℤ))))

section Passes

theorem highestPodPriority_le {victims : Victims} (wellFormed : victims.WellFormed) :
    (highestPodPriority victims).getD 0 ≤ maxInt32 := by
  obtain ⟨nonempty, priorities, -⟩ := wellFormed
  obtain ⟨first, rest, pods⟩ := List.exists_cons_of_ne_nil nonempty
  simpa [highestPodPriority, pods] using priorities first (pods ▸ List.mem_cons_self)

theorem sumPriorities_le (victims : Victims) : sumPriorities victims ≤ maxInt := by
  unfold sumPriorities
  rcases List.eq_nil_or_concat victims.pods with empty | ⟨pods, last, split⟩
  · simp [empty, maxInt]
  · rw [split, List.concat_eq_append, List.foldl_append, List.foldl_cons, List.foldl_nil]
    exact intAdd_le_maxInt _ _

theorem leastOf_minNodes (nodes : List (String × Victims)) :
    LeastOf (fun node : String × Victims => rank node.2) nodes
      (minNumPodsNodes (minSumPrioritiesNodes (minHighestPriorityNodes (minNumPDBViolatingNodes nodes)))) :=
  (leastOf_keepLeast _ _ _).lex ((leastOf_keepLeast _ _ _).lex ((leastOf_keepLeast _ _ _).lex
    (leastOf_keepLeast _ _ _)))

theorem minNumPDBViolatingNodes_subset (nodes : List (String × Victims)) : minNumPDBViolatingNodes nodes ⊆ nodes :=
  keepLeast_subset _ _ _

theorem minHighestPriorityNodes_subset (nodes : List (String × Victims)) : minHighestPriorityNodes nodes ⊆ nodes :=
  keepLeast_subset _ _ _

theorem minSumPrioritiesNodes_subset (nodes : List (String × Victims)) : minSumPrioritiesNodes nodes ⊆ nodes :=
  keepLeast_subset _ _ _

theorem minNodes_ne_nil {nodes : List (String × Victims)}
    (reached : ∃ node ∈ nodes, node.2.numPDBViolations ≤ maxInt32) (wellFormed : ∀ node ∈ nodes, node.2.WellFormed) :
    minNumPodsNodes (minSumPrioritiesNodes (minHighestPriorityNodes (minNumPDBViolatingNodes nodes))) ≠ [] := by
  obtain ⟨node, member, below⟩ := reached
  have first := keepLeast_ne_nil (fun node : String × Victims => node.2.numPDBViolations) member below
  obtain ⟨node₁, kept₁⟩ := List.exists_mem_of_ne_nil _ first
  have fits₁ := wellFormed _ (minNumPDBViolatingNodes_subset nodes kept₁)
  have second := keepLeast_ne_nil (fun node : String × Victims => (highestPodPriority node.2).getD 0) kept₁
    (highestPodPriority_le fits₁)
  obtain ⟨node₂, kept₂⟩ := List.exists_mem_of_ne_nil _ second
  have third := keepLeast_ne_nil (fun node : String × Victims => sumPriorities node.2) kept₂ (sumPriorities_le _)
  obtain ⟨node₃, kept₃⟩ := List.exists_mem_of_ne_nil _ third
  have fits₃ := wellFormed _ (minNumPDBViolatingNodes_subset nodes (minHighestPriorityNodes_subset _
    (minSumPrioritiesNodes_subset _ kept₃)))
  exact keepLeast_ne_nil (fun node : String × Victims => (node.2.pods.length : ℤ)) kept₃ fits₃.count

end Passes

section Choice

variable (clock : Clock)

theorem returnSingle_of_single {minNodes : List (String × Victims)} {next : List (String × Victims) → Option String}
    (single : ∀ node, minNodes = [node] → next [node] = some node.1) : returnSingle minNodes next = next minNodes := by
  rcases minNodes with _ | ⟨node, _ | ⟨second, rest⟩⟩
  · rfl
  · exact (single node rfl).symm
  · rfl

theorem pickLatest_singleton (node : String × Victims) : pickLatest clock [node] = some node.1 := by
  simp only [pickLatest, List.foldl_nil]
  split <;> rfl

/-- The last pass's reading of a node's earliest start through the clock. -/
def earliestRead (node : String × Victims) (reads : ℕ) : ℤ × ℕ :=
  ((getEarliestPodStartTime clock node.2 reads).1.getD 0, (getEarliestPodStartTime clock node.2 reads).2)

theorem foldl_latestStep {rest : List (String × Victims)} (nonempty : ∀ node ∈ rest, node.2.pods ≠ [])
    (acc : ((String × Victims) × ℤ) × ℕ) :
    rest.foldl (latestStep clock) acc = rest.foldl (greaterReadStep (earliestRead clock)) acc := by
  induction rest generalizing acc with
  | nil => rfl
  | cons node rest ih =>
    obtain ⟨first, others, pods⟩ := List.exists_cons_of_ne_nil (nonempty node List.mem_cons_self)
    have step : latestStep clock acc node = greaterReadStep (earliestRead clock) acc node := by
      simp only [latestStep, greaterReadStep, earliestRead, getEarliestPodStartTime, pods, Option.getD_some]
    rw [List.foldl_cons, List.foldl_cons, step]
    exact ih (fun node member => nonempty node (List.mem_cons_of_mem _ member)) _

theorem pickLatest_spec {first : String × Victims} {rest : List (String × Victims)}
    (nonempty : ∀ node ∈ first :: rest, node.2.pods ≠ []) (settled : ∀ node ∈ first :: rest, clock.Settled node.2.pods) :
    ∃ before chosen after, first :: rest = before ++ chosen :: after ∧ pickLatest clock (first :: rest) = some chosen.1 ∧
      (∀ node ∈ first :: rest, earliestStart (clock.reading 0) node ≤ earliestStart clock.last chosen) ∧
      ∀ node ∈ before, earliestStart (clock.reading 0) node < earliestStart clock.last chosen := by
  obtain ⟨latest, found, fromFirst, toLast⟩ :=
    getEarliestPodStartTime_between clock (nonempty first List.mem_cons_self) (settled first List.mem_cons_self) 0
  -- every later node's reading lies between its two earliest starts
  have within : ∀ node ∈ rest, ∀ reads, earliestStart (clock.reading 0) node ≤ (earliestRead clock node reads).1 ∧
      (earliestRead clock node reads).1 ≤ earliestStart clock.last node := by
    intro node member reads
    obtain ⟨earliest, found', low, high⟩ := getEarliestPodStartTime_between clock
      (nonempty node (List.mem_cons_of_mem _ member)) (settled node (List.mem_cons_of_mem _ member)) reads
    simp only [earliestRead, found', Option.getD_some]
    exact ⟨low, high⟩
  obtain ⟨before, after, split, below, strictly⟩ := foldl_greaterReadStep_spec (earliestStart (clock.reading 0))
    (earliestStart clock.last) fromFirst toLast (getEarliestPodStartTime clock first.2 0).2 within
  refine ⟨before, _, after, split, ?_, below, strictly⟩
  simp only [pickLatest, found]
  rw [foldl_latestStep clock fun node member => nonempty node (List.mem_cons_of_mem _ member)]

theorem pickOneNodeForPreemption_eq_pickLatest {nodesToVictims : List (String × Victims)} (nonempty : nodesToVictims ≠ [])
    (wellFormed : ∀ node ∈ nodesToVictims, node.2.WellFormed) :
    pickOneNodeForPreemption clock nodesToVictims =
      pickLatest clock (minNumPodsNodes (minSumPrioritiesNodes (minHighestPriorityNodes
        (minNumPDBViolatingNodes nodesToVictims)))) := by
  have victims₁ : ¬(minNumPDBViolatingNodes nodesToVictims).any (fun node => node.2.pods.isEmpty) := by
    simpa using fun node member => (wellFormed node (minNumPDBViolatingNodes_subset _ member)).nonempty
  unfold pickOneNodeForPreemption
  rw [if_neg nonempty]
  -- where a pass keeps a single node, every later pass keeps it too, and the early return agrees
  rw [returnSingle_of_single fun node single => ?first]
  case first =>
    have member : node ∈ minNumPDBViolatingNodes nodesToVictims := by rw [single]; exact List.mem_singleton_self node
    have fits := wellFormed node (minNumPDBViolatingNodes_subset _ member)
    simp only [List.any_cons, List.any_nil, Bool.or_false, List.isEmpty_iff, fits.nonempty, if_false]
    rw [minHighestPriorityNodes, keepLeast_singleton (fun node : String × Victims => (highestPodPriority node.2).getD 0)
      (highestPodPriority_le fits)]
    rfl
  rw [if_neg victims₁]
  rw [returnSingle_of_single fun node _ => ?second]
  case second =>
    rw [minSumPrioritiesNodes, keepLeast_singleton (fun node : String × Victims => sumPriorities node.2)
      (sumPriorities_le node.2)]
    rfl
  rw [returnSingle_of_single fun node single => ?third]
  case third =>
    have member : node ∈ minSumPrioritiesNodes (minHighestPriorityNodes (minNumPDBViolatingNodes nodesToVictims)) := by
      rw [single]; exact List.mem_singleton_self node
    have fits := wellFormed node (minNumPDBViolatingNodes_subset _ (minHighestPriorityNodes_subset _
      (minSumPrioritiesNodes_subset _ member)))
    rw [minNumPodsNodes, keepLeast_singleton (fun node : String × Victims => (node.2.pods.length : ℤ)) fits.count]
    rfl
  rw [returnSingle_of_single fun node _ => pickLatest_singleton clock node]

theorem pickOneNodeForPreemption_picks_latest {nodesToVictims : List (String × Victims)}
    (reached : ∃ node ∈ nodesToVictims, node.2.numPDBViolations ≤ maxInt32)
    (wellFormed : ∀ node ∈ nodesToVictims, node.2.WellFormed)
    (settled : ∀ node ∈ nodesToVictims, clock.Settled node.2.pods) :
    ∃ minNodes before chosen after, LeastOf (fun node : String × Victims => rank node.2) nodesToVictims minNodes ∧
      minNodes = before ++ chosen :: after ∧ pickOneNodeForPreemption clock nodesToVictims = some chosen.1 ∧
      (∀ node ∈ minNodes, earliestStart (clock.reading 0) node ≤ earliestStart clock.last chosen) ∧
      ∀ node ∈ before, earliestStart (clock.reading 0) node < earliestStart clock.last chosen := by
  have least := leastOf_minNodes nodesToVictims
  obtain ⟨first, rest, kept⟩ := List.exists_cons_of_ne_nil (minNodes_ne_nil reached wellFormed)
  rw [kept] at least
  obtain ⟨before, chosen, after, split, picked, latest, earlier⟩ := pickLatest_spec clock
    (fun node member => (wellFormed node (least.subset member)).nonempty)
    (fun node member => settled node (least.subset member))
  refine ⟨first :: rest, before, chosen, after, least, split, ?_, latest, earlier⟩
  rw [pickOneNodeForPreemption_eq_pickLatest clock (List.ne_nil_of_mem reached.choose_spec.1) wellFormed, kept, picked]

/-- For every order of the walk over the map and every clock, the node chosen is one of least rank.
No node of that rank has victims that started later, those not started counting from the first
reading against the chosen node's from the last bound, and every such node before it in the walk
started strictly earlier. Some node must be within the first pass's bound and all victims well
formed; otherwise a pass reads outside a slice. -/
theorem pickOneNodeForPreemption_least {nodesToVictims : List (String × Victims)}
    (reached : ∃ node ∈ nodesToVictims, node.2.numPDBViolations ≤ maxInt32)
    (wellFormed : ∀ node ∈ nodesToVictims, node.2.WellFormed)
    (settled : ∀ node ∈ nodesToVictims, clock.Settled node.2.pods) :
    ∃ before chosen after, nodesToVictims = before ++ chosen :: after ∧
      pickOneNodeForPreemption clock nodesToVictims = some chosen.1 ∧
      (∀ node ∈ nodesToVictims, rank chosen.2 ≤ rank node.2) ∧
      (∀ node ∈ nodesToVictims, rank node.2 = rank chosen.2 →
        earliestStart (clock.reading 0) node ≤ earliestStart clock.last chosen) ∧
      ∀ node ∈ before, rank node.2 = rank chosen.2 →
        earliestStart (clock.reading 0) node < earliestStart clock.last chosen := by
  obtain ⟨minNodes, beforeKept, chosen, afterKept, least, split, picked, latest, earlier⟩ :=
    pickOneNodeForPreemption_picks_latest clock reached wellFormed settled
  have kept : chosen ∈ minNodes := by rw [split]; simp
  -- the walk meets the nodes of the chosen rank in the order the passes keep them
  obtain ⟨before, after, walk, keptBefore⟩ := least.exists_split split
  refine ⟨before, chosen, after, walk, picked, fun node member => least.le kept member,
    fun node member same => latest node ?_, fun node member same => earlier node (keptBefore node member same)⟩
  rw [least.eq_filter kept]
  exact List.mem_filter.mpr ⟨member, decide_eq_true same⟩

end Choice

namespace Runs

/-- Two nodes whose single victims tie on every key but their start times. -/
def twoNodes : List (String × Victims) := [("node-a", ⟨[earlyPod], 0⟩), ("node-b", ⟨[latePod], 0⟩)]

theorem twoNodes_wellFormed : ∀ node ∈ twoNodes, node.2.WellFormed := by
  intro node member
  simp only [twoNodes, List.mem_cons, List.not_mem_nil, or_false] at member
  rcases member with rfl | rfl
  · exact ⟨by simp, by simp [earlyPod, podPriority, maxInt32], by simp [maxInt32]⟩
  · exact ⟨by simp, by simp [latePod, podPriority, maxInt32], by simp [maxInt32]⟩

theorem picks_latest_of_two_nodes :
    (∃ node ∈ twoNodes, node.2.numPDBViolations ≤ maxInt32) ∧ (∀ node ∈ twoNodes, node.2.WellFormed) ∧
      (∀ node ∈ twoNodes, stillClock.Settled node.2.pods) ∧
      ∃ before chosen after, twoNodes = before ++ chosen :: after ∧
        pickOneNodeForPreemption stillClock twoNodes = some chosen.1 ∧
        (∀ node ∈ twoNodes, rank chosen.2 ≤ rank node.2) ∧
        (∀ node ∈ twoNodes, rank node.2 = rank chosen.2 →
          earliestStart (stillClock.reading 0) node ≤ earliestStart stillClock.last chosen) ∧
        ∀ node ∈ before, rank node.2 = rank chosen.2 →
          earliestStart (stillClock.reading 0) node < earliestStart stillClock.last chosen :=
  have reached : ∃ node ∈ twoNodes, node.2.numPDBViolations ≤ maxInt32 := ⟨_, List.mem_cons_self, by decide⟩
  have settled : ∀ node ∈ twoNodes, stillClock.Settled node.2.pods :=
    fun node _ => Clock.settled_of_reading_eq rfl node.2.pods
  ⟨reached, twoNodes_wellFormed, settled, pickOneNodeForPreemption_least stillClock reached twoNodes_wellFormed settled⟩

example : pickOneNodeForPreemption stillClock twoNodes = some "node-b" := by decide

/-- A clock that moves on by one at each reading until 10. -/
def tickingClock : Clock where
  reading k := min k 10
  last := 10
  monotone := fun _ _ le => min_le_min_right _ (by exact_mod_cast le)
  bounded := fun _ => min_le_right _ _

/-- Of two nodes whose victims have not started, the later in the walk is read later. -/
example : pickOneNodeForPreemption tickingClock
    [("node-a", ⟨[waitingPod], 0⟩), ("node-b", ⟨[{ waitingPod with name := "waiting-b" }], 0⟩)] =
      some "node-b" := by decide

end Runs

/-- A preemption candidate: the node the preemptor is nominated to and the victims there. -/
structure Candidate where
  name : String
  victims : Victims

/-- `DefaultPreemption.CandidatesToVictimsMap`: a later candidate on a node replaces an earlier. -/
def candidatesToVictimsMap (candidates : List Candidate) : AList fun _ : String => Victims :=
  candidates.foldl (fun m c => m.insert c.name c.victims) ∅

/-- The order a walk over the victims map takes its entries in. -/
abbrev VictimsOrder := List (Σ _ : String, Victims) → List (Σ _ : String, Victims)

/-- `Evaluator.SelectCandidate`: `some none` for no candidate, `none` where the choice panics. -/
def selectCandidate (order : VictimsOrder) (clock : Clock) (candidates : List Candidate) :
    Option (Option Candidate) :=
  match candidates with
  | [] => some none
  | [c] => some (some c)
  | first :: _ =>
    let victimsMap := candidatesToVictimsMap candidates
    (pickOneNodeForPreemption clock ((order victimsMap.entries).map fun e => (e.1, e.2))).map fun candidateNode =>
      match victimsMap.lookup candidateNode with
      | some victims => some ⟨candidateNode, victims⟩
      | none => some first

section Select

variable (clock : Clock)

theorem candidatesToVictimsMap_entries {candidates : List Candidate} (distinct : (candidates.map Candidate.name).Nodup) :
    (candidatesToVictimsMap candidates).entries =
      (candidates.map fun c => (⟨c.name, c.victims⟩ : Σ _ : String, Victims)).reverse := by
  unfold candidatesToVictimsMap
  rw [entries_foldl_insert Candidate.name Candidate.victims candidates ∅ distinct fun _ _ => AList.notMem_empty _]
  exact List.append_nil _

theorem selectCandidate_least (order : VictimsOrder) {candidates : List Candidate}
    (ordered : ∀ entries, (order entries).Perm entries) (distinct : (candidates.map Candidate.name).Nodup)
    (reached : ∃ c ∈ candidates, c.victims.numPDBViolations ≤ maxInt32)
    (wellFormed : ∀ c ∈ candidates, c.victims.WellFormed) (settled : ∀ c ∈ candidates, clock.Settled c.victims.pods) :
    ∃ chosen ∈ candidates, selectCandidate order clock candidates = some (some chosen) ∧
      ∀ c ∈ candidates, rank chosen.victims ≤ rank c.victims ∧
        (rank c.victims = rank chosen.victims →
          earliestStart (clock.reading 0) (c.name, c.victims) ≤ earliestStart clock.last (chosen.name, chosen.victims)) := by
  rcases candidates with _ | ⟨only, _ | ⟨second, rest⟩⟩
  · simp at reached
  · -- a single candidate is returned as it is
    refine ⟨only, List.mem_cons_self, rfl, fun c listed => ?_⟩
    rw [List.mem_singleton.mp listed]
    obtain ⟨nonempty, -, -⟩ := wellFormed only List.mem_cons_self
    obtain ⟨earliest, -, low, high⟩ := getEarliestPodStartTime_between clock
      (show (only.name, only.victims).2.pods ≠ [] from nonempty) (settled only List.mem_cons_self) 0
    exact ⟨le_rfl, fun _ => low.trans high⟩
  · set candidates := only :: second :: rest
    set nodes := (order (candidatesToVictimsMap candidates).entries).map fun e => (e.1, e.2)
    have visits : ∀ node, node ∈ nodes ↔ ∃ c ∈ candidates, (c.name, c.victims) = node := by
      intro node
      have perm : nodes.Perm (candidates.map fun c => (c.name, c.victims)) := by
        refine ((ordered _).map _).trans ?_
        rw [candidatesToVictimsMap_entries distinct, List.map_reverse, List.map_map]
        exact List.reverse_perm _
      simp [perm.mem_iff]
    have reached' : ∃ node ∈ nodes, node.2.numPDBViolations ≤ maxInt32 := by
      obtain ⟨c, listed, below⟩ := reached
      exact ⟨_, (visits _).mpr ⟨c, listed, rfl⟩, below⟩
    have wellFormed' : ∀ node ∈ nodes, node.2.WellFormed := by
      intro node member
      obtain ⟨c, listed, rfl⟩ := (visits node).mp member
      exact wellFormed c listed
    have settled' : ∀ node ∈ nodes, clock.Settled node.2.pods := by
      intro node member
      obtain ⟨c, listed, rfl⟩ := (visits node).mp member
      exact settled c listed
    obtain ⟨minNodes, _, chosen, _, least, split, picked, latest, -⟩ :=
      pickOneNodeForPreemption_picks_latest clock reached' wellFormed' settled'
    have kept : chosen ∈ minNodes := by rw [split]; simp
    obtain ⟨c, listed, named⟩ := (visits _).mp (least.subset kept)
    refine ⟨c, listed, ?_, fun c' listed' => ⟨?_, ?_⟩⟩
    · have found : (candidatesToVictimsMap candidates).lookup c.name = some c.victims :=
        lookup_foldl_insert_of_mem Candidate.victims distinct listed ∅
      simp only [selectCandidate, candidates]
      rw [show (order (candidatesToVictimsMap candidates).entries).map (fun e => (e.1, e.2)) = nodes from rfl, picked,
        ← named, Option.map_some]
      simp only [candidates] at found
      rw [found]
    · have below := least.le kept ((visits _).mpr ⟨c', listed', rfl⟩)
      rw [← named] at below
      exact below
    · intro same
      have member : (c'.name, c'.victims) ∈ minNodes := by
        rw [least.eq_filter kept]
        exact List.mem_filter.mpr ⟨(visits _).mpr ⟨c', listed', rfl⟩, decide_eq_true (named ▸ same)⟩
      have later := latest _ member
      rw [← named] at later
      exact later

end Select

end Kubernetes.Scheduler.Preemption
