import Kubernetes.Library.Outcome
import Kubernetes.Library.Slice
import Kubernetes.Scheduler.Preemption.Candidates
import Kubernetes.Scheduler.Preemption.SelectVictims

/-! The dry run of a preemption (`DryRunPreemption` and `candidateList` in
`pkg/scheduler/framework/preemption`).

The dry run checks the potential nodes in parallel, from a random offset round the list. A check
that finds victims claims a slot of one of two candidate lists by an atomic counter, by whether
its victims violate a disruption budget; the other checks write the node's status under a lock.
Only the order the checks record their results in decides what the run returns, so a run is that
order: a list of distinct pieces. A piece is left out where no worker started it before the run
was cancelled, and every property below holds whichever pieces are left out. The selection of
victims on a node is the plugin's, an input.
-/

set_option autoImplicit false

namespace Kubernetes.Scheduler.Preemption

open Kubernetes.Library Kubernetes.Scheduler.Defaultpreemption

/-! ## Candidate lists -/

/-- `candidateList`: the last slot claimed, from `-1`, and the slots. -/
structure CandidateList where
  idx : ℤ
  items : List (Option Candidate)

def newCandidateList (size : ℕ) : CandidateList := ⟨-1, List.replicate size none⟩

/-- `candidateList.add`: a slot past the end is claimed and not written. -/
def CandidateList.add (cl : CandidateList) (c : Candidate) : CandidateList :=
  let idx := cl.idx + 1
  if idx < cl.items.length then ⟨idx, cl.items.set idx.toNat (some c)⟩ else { cl with idx }

def CandidateList.size (cl : CandidateList) : ℕ := min (cl.idx + 1).toNat cl.items.length

/-- `candidateList.get`, once every add has completed. -/
def CandidateList.get (cl : CandidateList) : List Candidate := (cl.items.take cl.size).reduceOption

theorem foldl_add_eq (size : ℕ) (cs : List Candidate) :
    cs.foldl CandidateList.add (newCandidateList size) =
      ⟨cs.length - 1, (cs.take size).map some ++ List.replicate (size - cs.length) none⟩ := by
  induction cs using List.reverseRecOn with
  | nil => simp [newCandidateList]
  | append_singleton cs c ih =>
    rw [List.foldl_append, ih, List.foldl_cons, List.foldl_nil, CandidateList.add]
    have length : ((cs.take size).map some ++ List.replicate (size - cs.length) (none : Option Candidate)).length =
        size := by simp; omega
    simp only [length, List.length_append, List.length_singleton, Nat.cast_add, Nat.cast_one, sub_add_cancel]
    by_cases fits : cs.length < size
    · -- the claimed slot is the first free one
      have free : size - cs.length = (size - (cs.length + 1)) + 1 := by omega
      rw [if_pos (by exact_mod_cast fits), List.take_of_length_le (by omega : cs.length ≤ size),
        List.take_of_length_le (by simp; omega : (cs ++ [c]).length ≤ size), free, List.replicate_succ]
      simp [List.set_append_right]
    · rw [if_neg (by exact_mod_cast fits), List.take_append_of_le_length (by omega : size ≤ cs.length)]
      simp only [CandidateList.mk.injEq, add_sub_cancel_right, true_and]
      congr 2
      omega

theorem get_foldl_add (size : ℕ) (cs : List Candidate) :
    (cs.foldl CandidateList.add (newCandidateList size)).get = cs.take size := by
  rw [foldl_add_eq, CandidateList.get, CandidateList.size]
  have claimed : ((cs.length : ℤ) - 1 + 1).toNat = cs.length := by omega
  simp only [claimed, List.length_append, List.length_map, List.length_take, List.length_replicate]
  rw [List.take_append_of_le_length (by simp; omega), List.take_of_length_le (by simp)]
  simp [List.reduceOption]

/-! ## The dry run -/

/-- What the checks share: the two candidate lists, the statuses of the nodes that gave no
candidate, and the errors among those statuses. -/
structure DryRunState where
  nonViolatingCandidates : CandidateList
  violatingCandidates : CandidateList
  nodeStatuses : AList fun _ : String => Status
  errs : List String

/-- The status of a node whose victims came back empty. -/
def noVictimStatus (name : String) : Status :=
  ⟨.error, ["expected at least one victim pod on node \"" ++ name ++ "\""]⟩

/-- What one check records: the candidate in the list its violations choose, or the node's
status, with the message of an error status. -/
def record (state : DryRunState) : Candidate ⊕ String × Status → DryRunState
  | .inl c =>
    if c.victims.numPDBViolations = 0 then
      { state with nonViolatingCandidates := state.nonViolatingCandidates.add c }
    else { state with violatingCandidates := state.violatingCandidates.add c }
  | .inr (name, status) =>
    { state with
      errs := if status.code = .error then state.errs ++ [", ".intercalate status.reasons] else state.errs
      nodeStatuses := state.nodeStatuses.insert name status }

section DryRun

variable (selectVictimsOnNode : NodeInfo → Option (List Pod × ℕ × Status)) (potentialNodes : List NodeInfo)
  (offset : ℕ)

/-- The work of `checkNode` for piece `i` before it records anything: a candidate, or the node's
name and status; none where it panics. -/
def checkPiece (i : ℕ) : Option (Candidate ⊕ String × Status) := do
  let nodeInfoCopy ← potentialNodes[(offset + i) % potentialNodes.length]?
  -- `nodeInfoCopy.Node().Name` dereferences the node
  let node ← nodeInfoCopy.node
  let (pods, numPDBViolations, status) ← selectVictimsOnNode nodeInfoCopy
  if status.isSuccess ∧ pods ≠ [] then return .inl ⟨node.name, ⟨pods, numPDBViolations⟩⟩
  let status := if status.isSuccess ∧ pods = [] then noVictimStatus node.name else status
  return .inr (node.name, status)

def checkNode (state : DryRunState) (i : ℕ) : Option DryRunState :=
  (checkPiece selectVictimsOnNode potentialNodes offset i).map (record state)

/-- `DryRunPreemption`, the checks recording their results in the order of `checked`: the
candidates, the statuses of the other nodes, and the errors. -/
def dryRunPreemption (numCandidates : ℕ) (checked : List ℕ) :
    Option (List Candidate × (AList fun _ : String => Status) × List String) := do
  let state ← checked.foldlM (checkNode selectVictimsOnNode potentialNodes offset)
    ⟨newCandidateList numCandidates, newCandidateList numCandidates, ∅, []⟩
  return (state.nonViolatingCandidates.get ++ state.violatingCandidates.get, state.nodeStatuses, state.errs)

/-- The candidates the checks of a run find, in the order they record them. -/
def foundCandidates (checked : List ℕ) : List Candidate :=
  checked.filterMap fun i => (checkPiece selectVictimsOnNode potentialNodes offset i).bind Sum.getLeft?

theorem record_nonViolating (outcomes : List (Candidate ⊕ String × Status)) (state : DryRunState) :
    (outcomes.foldl record state).nonViolatingCandidates =
      ((outcomes.filterMap Sum.getLeft?).filter fun c => c.victims.numPDBViolations = 0).foldl CandidateList.add
        state.nonViolatingCandidates := by
  induction outcomes generalizing state with
  | nil => rfl
  | cons outcome outcomes ih =>
    rcases outcome with c | ⟨name, status⟩
    · by_cases clean : c.victims.numPDBViolations = 0 <;> simp [record, clean, ih]
    · simp [record, ih, List.filterMap_cons]

theorem record_violating (outcomes : List (Candidate ⊕ String × Status)) (state : DryRunState) :
    (outcomes.foldl record state).violatingCandidates =
      ((outcomes.filterMap Sum.getLeft?).filter fun c => c.victims.numPDBViolations ≠ 0).foldl CandidateList.add
        state.violatingCandidates := by
  induction outcomes generalizing state with
  | nil => rfl
  | cons outcome outcomes ih =>
    rcases outcome with c | ⟨name, status⟩
    · by_cases clean : c.victims.numPDBViolations = 0 <;> simp [record, clean, ih]
    · simp [record, ih, List.filterMap_cons]

theorem dryRunPreemption_eq {numCandidates : ℕ} {checked : List ℕ} {candidates : List Candidate}
    {nodeStatuses : AList fun _ : String => Status} {errs : List String}
    (ran : dryRunPreemption selectVictimsOnNode potentialNodes offset numCandidates checked =
      some (candidates, nodeStatuses, errs)) :
    candidates =
      ((foundCandidates selectVictimsOnNode potentialNodes offset checked).filter
          fun c => c.victims.numPDBViolations = 0).take numCandidates ++
        ((foundCandidates selectVictimsOnNode potentialNodes offset checked).filter
          fun c => c.victims.numPDBViolations ≠ 0).take numCandidates := by
  unfold dryRunPreemption checkNode at ran
  rw [foldlM_map_eq] at ran
  cases computed : checked.mapM (checkPiece selectVictimsOnNode potentialNodes offset) with
  | none => simp [computed] at ran
  | some outcomes =>
    simp only [computed, Option.map_some, Option.bind_eq_bind, Option.bind_some, Option.pure_def,
      Option.some.injEq, Prod.mk.injEq] at ran
    -- the candidates found are those among the outcomes, in the same order
    have found : foundCandidates selectVictimsOnNode potentialNodes offset checked = outcomes.filterMap Sum.getLeft? := by
      have pieces := forall₂_of_mapM_eq_some computed
      unfold foundCandidates
      clear computed ran
      induction pieces with
      | nil => rfl
      | cons piece _ ih => simp [List.filterMap_cons, piece, ih]
    rw [← ran.1, record_nonViolating, record_violating, found]
    simp only [get_foldl_add]

theorem checkPiece_eq_inl {i : ℕ} {c : Candidate}
    (found : checkPiece selectVictimsOnNode potentialNodes offset i = some (.inl c)) :
    ∃ (nodeInfo : NodeInfo) (node : Node) (status : Status) (numPDBViolations : ℕ), potentialNodes[(offset + i) % potentialNodes.length]? = some nodeInfo ∧
      nodeInfo.node = some node ∧ c = ⟨node.name, ⟨c.victims.pods, numPDBViolations⟩⟩ ∧
      selectVictimsOnNode nodeInfo = some (c.victims.pods, numPDBViolations, status) ∧
      status.isSuccess = true ∧ c.victims.pods ≠ [] := by
  unfold checkPiece at found
  cases piece : potentialNodes[(offset + i) % potentialNodes.length]? with
  | none => simp [piece] at found
  | some nodeInfo =>
    cases named : nodeInfo.node with
    | none => simp [piece, named] at found
    | some node =>
      cases selected : selectVictimsOnNode nodeInfo with
      | none => simp [piece, named, selected] at found
      | some result =>
        obtain ⟨pods, numPDBViolations, status⟩ := result
        simp only [piece, named, selected, Option.bind_eq_bind, Option.bind_some, Option.pure_def] at found
        split_ifs at found with success
        · cases found
          exact ⟨nodeInfo, node, status, numPDBViolations, rfl, named, rfl, selected, success.1, success.2⟩
        all_goals simp at found

theorem mod_offset_inj {n i j : ℕ} (below_i : i < n) (below_j : j < n) (same : (offset + i) % n = (offset + j) % n) :
    i = j := by
  have congruent : i ≡ j [MOD n] := Nat.ModEq.add_left_cancel' offset same
  rwa [Nat.ModEq, Nat.mod_eq_of_lt below_i, Nat.mod_eq_of_lt below_j] at congruent

theorem bind_getLeft?_eq_some {i : ℕ} {c : Candidate} :
    (checkPiece selectVictimsOnNode potentialNodes offset i).bind Sum.getLeft? = some c ↔
      checkPiece selectVictimsOnNode potentialNodes offset i = some (.inl c) := by
  rcases checkPiece selectVictimsOnNode potentialNodes offset i with _ | _ | _ <;> simp

theorem foundCandidates_names_nodup {checked : List ℕ} (distinct : checked.Nodup)
    (pieces : ∀ i ∈ checked, i < potentialNodes.length)
    (named : (potentialNodes.map fun nodeInfo => nodeInfo.node.map Node.name).Nodup) :
    ((foundCandidates selectVictimsOnNode potentialNodes offset checked).map Candidate.name).Nodup := by
  unfold foundCandidates
  rw [List.map_filterMap]
  have place : ∀ {i} {c : Candidate}, (checkPiece selectVictimsOnNode potentialNodes offset i).bind Sum.getLeft? = some c →
      (potentialNodes.map fun nodeInfo => nodeInfo.node.map Node.name)[(offset + i) % potentialNodes.length]? =
        some (some c.name) := by
    intro i c found
    obtain ⟨nodeInfo, node, _, _, at_i, node_i, named_c, -⟩ :=
      checkPiece_eq_inl selectVictimsOnNode potentialNodes offset
        ((bind_getLeft?_eq_some selectVictimsOnNode potentialNodes offset).mp found)
    rw [List.getElem?_map, at_i, named_c]
    simp [node_i]
  refine nodup_filterMap distinct fun i member_i j member_j name from_i from_j => ?_
  obtain ⟨c, found_i, rfl⟩ := Option.mem_map.mp from_i
  obtain ⟨c', found_j, same⟩ := Option.mem_map.mp from_j
  have below : (offset + i) % potentialNodes.length < (potentialNodes.map fun nodeInfo => nodeInfo.node.map Node.name).length := by
    rw [List.length_map]
    exact Nat.mod_lt _ (Nat.zero_lt_of_lt (pieces i member_i))
  have places := (place found_i).trans (same ▸ place found_j).symm
  rw [List.getElem?_inj below named] at places
  exact mod_offset_inj offset (pieces i member_i) (pieces j member_j) places

theorem mem_foundCandidates {checked : List ℕ} {c : Candidate}
    (found : c ∈ foundCandidates selectVictimsOnNode potentialNodes offset checked) :
    c.victims.pods ≠ [] ∧ ∃ nodeInfo ∈ potentialNodes, ∃ (node : Node) (status : Status) (numPDBViolations : ℕ),
      nodeInfo.node = some node ∧ node.name = c.name ∧ c.victims.numPDBViolations = numPDBViolations ∧
      selectVictimsOnNode nodeInfo = some (c.victims.pods, numPDBViolations, status) ∧ status.isSuccess = true := by
  obtain ⟨i, -, from_i⟩ := List.mem_filterMap.mp found
  obtain ⟨nodeInfo, node, status, numPDBViolations, at_i, node_i, named_c, selected, success, victims⟩ :=
    checkPiece_eq_inl selectVictimsOnNode potentialNodes offset
      ((bind_getLeft?_eq_some selectVictimsOnNode potentialNodes offset).mp from_i)
  refine ⟨victims, nodeInfo, List.mem_of_getElem? at_i, node, status, numPDBViolations, node_i, ?_, ?_, selected, success⟩
  · rw [named_c]
  · rw [named_c]

theorem dryRunPreemption_isSome {numCandidates : ℕ} {checked : List ℕ} (pieces : ∀ i ∈ checked, i < potentialNodes.length)
    (total : ∀ nodeInfo ∈ potentialNodes, nodeInfo.node.isSome ∧ (selectVictimsOnNode nodeInfo).isSome) :
    (dryRunPreemption selectVictimsOnNode potentialNodes offset numCandidates checked).isSome := by
  have runs : (checked.mapM (checkPiece selectVictimsOnNode potentialNodes offset)).isSome := by
    refine mapM_isSome fun i member => ?_
    have place : (offset + i) % potentialNodes.length < potentialNodes.length :=
      Nat.mod_lt _ (Nat.zero_lt_of_lt (pieces i member))
    obtain ⟨hasNode, selects⟩ := total _ (List.getElem_mem place)
    obtain ⟨node, named⟩ := Option.isSome_iff_exists.mp hasNode
    obtain ⟨⟨pods, numPDBViolations, status⟩, selected⟩ := Option.isSome_iff_exists.mp selects
    unfold checkPiece
    simp only [List.getElem?_eq_getElem place, named, selected, Option.bind_eq_bind, Option.bind_some, Option.pure_def]
    split_ifs <;> rfl
  unfold dryRunPreemption checkNode
  rw [foldlM_map_eq]
  obtain ⟨outcomes, computed⟩ := Option.isSome_iff_exists.mp runs
  simp [computed]

theorem dryRunPreemption_names_nodup {numCandidates : ℕ} {checked : List ℕ} (distinct : checked.Nodup)
    (pieces : ∀ i ∈ checked, i < potentialNodes.length)
    (named : (potentialNodes.map fun nodeInfo => nodeInfo.node.map Node.name).Nodup)
    {candidates : List Candidate} {nodeStatuses : AList fun _ : String => Status} {errs : List String}
    (ran : dryRunPreemption selectVictimsOnNode potentialNodes offset numCandidates checked =
      some (candidates, nodeStatuses, errs)) :
    (candidates.map Candidate.name).Nodup := by
  set found := foundCandidates selectVictimsOnNode potentialNodes offset checked
  -- the two lists take from the two parts of what was found
  have parts : ((found.filter fun c => c.victims.numPDBViolations = 0) ++
      (found.filter fun c => c.victims.numPDBViolations ≠ 0)).Perm found := by
    simpa using List.filter_append_perm (fun c : Candidate => decide (c.victims.numPDBViolations = 0)) found
  have taken : candidates.Sublist ((found.filter fun c => c.victims.numPDBViolations = 0) ++
      (found.filter fun c => c.victims.numPDBViolations ≠ 0)) := by
    rw [dryRunPreemption_eq selectVictimsOnNode potentialNodes offset ran]
    exact (List.take_sublist _ _).append (List.take_sublist _ _)
  exact ((parts.map Candidate.name).nodup_iff.mpr
    (foundCandidates_names_nodup selectVictimsOnNode potentialNodes offset distinct pieces named)).sublist
      (taken.map Candidate.name)

theorem mem_foundCandidates_of_mem {numCandidates : ℕ} {checked : List ℕ} {candidates : List Candidate}
    {nodeStatuses : AList fun _ : String => Status} {errs : List String}
    (ran : dryRunPreemption selectVictimsOnNode potentialNodes offset numCandidates checked =
      some (candidates, nodeStatuses, errs)) {c : Candidate} (member : c ∈ candidates) :
    c ∈ foundCandidates selectVictimsOnNode potentialNodes offset checked := by
  rw [dryRunPreemption_eq selectVictimsOnNode potentialNodes offset ran] at member
  rcases List.mem_append.mp member with clean | violating
  · exact (List.mem_filter.mp (List.mem_of_mem_take clean)).1
  · exact (List.mem_filter.mp (List.mem_of_mem_take violating)).1

/-- For every order the checks record their results in, the dry run returns: the candidates found
without violations, then those with, at most `numCandidates` of each and in the order found; on
distinct nodes; each where the selection of victims succeeded with victims. -/
theorem dryRunPreemption_spec {numCandidates : ℕ} {checked : List ℕ} (distinct : checked.Nodup)
    (pieces : ∀ i ∈ checked, i < potentialNodes.length)
    (named : (potentialNodes.map fun nodeInfo => nodeInfo.node.map Node.name).Nodup)
    (total : ∀ nodeInfo ∈ potentialNodes, nodeInfo.node.isSome ∧ (selectVictimsOnNode nodeInfo).isSome) :
    ∃ candidates nodeStatuses errs,
      dryRunPreemption selectVictimsOnNode potentialNodes offset numCandidates checked =
        some (candidates, nodeStatuses, errs) ∧
      candidates =
        ((foundCandidates selectVictimsOnNode potentialNodes offset checked).filter
            fun c => c.victims.numPDBViolations = 0).take numCandidates ++
          ((foundCandidates selectVictimsOnNode potentialNodes offset checked).filter
            fun c => c.victims.numPDBViolations ≠ 0).take numCandidates ∧
      (candidates.map Candidate.name).Nodup ∧
      ∀ c ∈ candidates, c.victims.pods ≠ [] ∧ ∃ nodeInfo ∈ potentialNodes, ∃ (node : Node) (status : Status)
        (numPDBViolations : ℕ), nodeInfo.node = some node ∧ node.name = c.name ∧
          c.victims.numPDBViolations = numPDBViolations ∧
          selectVictimsOnNode nodeInfo = some (c.victims.pods, numPDBViolations, status) ∧ status.isSuccess = true := by
  obtain ⟨⟨candidates, nodeStatuses, errs⟩, ran⟩ :=
    Option.isSome_iff_exists.mp (dryRunPreemption_isSome selectVictimsOnNode potentialNodes offset pieces total)
  have split := dryRunPreemption_eq selectVictimsOnNode potentialNodes offset ran
  refine ⟨candidates, nodeStatuses, errs, ran, split,
    dryRunPreemption_names_nodup selectVictimsOnNode potentialNodes offset distinct pieces named ran, fun c member => ?_⟩
  exact mem_foundCandidates selectVictimsOnNode potentialNodes offset
    (mem_foundCandidates_of_mem selectVictimsOnNode potentialNodes offset ran member)

/-- For every order the dry run's checks record their results in, every order of the walk over the
victims map and every clock, the dry run returns, and `SelectCandidate` over the candidates it found
returns one of least rank. No candidate of that rank has victims that started later, those not
started counting from the first reading against the chosen one's from the last bound. The plugin's
selection gives `int32` priorities, counts of victims and violations within `int32`, and victims
whose start times fall outside the window of the readings. -/
theorem dryRunPreemption_selectCandidate_least (order : VictimsOrder) (clock : Clock) {numCandidates : ℕ}
    {checked : List ℕ} (ordered : ∀ entries, (order entries).Perm entries) (distinct : checked.Nodup)
    (pieces : ∀ i ∈ checked, i < potentialNodes.length)
    (named : (potentialNodes.map fun nodeInfo => nodeInfo.node.map Node.name).Nodup)
    (total : ∀ nodeInfo ∈ potentialNodes, nodeInfo.node.isSome ∧ (selectVictimsOnNode nodeInfo).isSome)
    (bounded : ∀ nodeInfo pods numPDBViolations status,
      selectVictimsOnNode nodeInfo = some (pods, numPDBViolations, status) →
        (∀ pod ∈ pods, podPriority pod ≤ maxInt32) ∧ (pods.length : ℤ) ≤ maxInt32 ∧ numPDBViolations ≤ pods.length)
    (settled : ∀ nodeInfo pods numPDBViolations status,
      selectVictimsOnNode nodeInfo = some (pods, numPDBViolations, status) → clock.Settled pods) :
    ∃ candidates nodeStatuses errs,
      dryRunPreemption selectVictimsOnNode potentialNodes offset numCandidates checked =
        some (candidates, nodeStatuses, errs) ∧
      (candidates ≠ [] → ∃ best ∈ candidates, selectCandidate order clock candidates = some (some best) ∧
        ∀ c ∈ candidates, rank best.victims ≤ rank c.victims ∧
          (rank c.victims = rank best.victims →
            earliestStart (clock.reading 0) (c.name, c.victims) ≤
              earliestStart clock.last (best.name, best.victims))) := by
  obtain ⟨⟨candidates, nodeStatuses, errs⟩, ran⟩ :=
    Option.isSome_iff_exists.mp (dryRunPreemption_isSome selectVictimsOnNode potentialNodes offset pieces total)
  refine ⟨candidates, nodeStatuses, errs, ran, fun found => ?_⟩
  have selected : ∀ c ∈ candidates, c.victims.WellFormed ∧ c.victims.numPDBViolations ≤ c.victims.pods.length ∧
      clock.Settled c.victims.pods := by
    intro c member
    obtain ⟨victims, _, -, _, _, numPDBViolations, -, -, counted, gave, -⟩ :=
      mem_foundCandidates selectVictimsOnNode potentialNodes offset
        (mem_foundCandidates_of_mem selectVictimsOnNode potentialNodes offset ran member)
    obtain ⟨priorities, count, violations⟩ := bounded _ _ _ _ gave
    exact ⟨⟨victims, priorities, count⟩, counted ▸ by exact_mod_cast violations, settled _ _ _ _ gave⟩
  obtain ⟨first, listed⟩ := List.exists_mem_of_ne_nil candidates found
  have reached : ∃ c ∈ candidates, c.victims.numPDBViolations ≤ maxInt32 :=
    ⟨first, listed, (selected first listed).2.1.trans (selected first listed).1.count⟩
  exact selectCandidate_least clock order ordered
    (dryRunPreemption_names_nodup selectVictimsOnNode potentialNodes offset distinct pieces named ran) reached
    (fun c member => (selected c member).1) fun c member => (selected c member).2.2

end DryRun

namespace Runs

/-- Two potential nodes, the early pod's victims on the first and the late pod's on the second. -/
def nodeA : NodeInfo := { newNodeInfo 0 with node := some { name := "node-a" } }

def nodeB : NodeInfo := { newNodeInfo 0 with node := some { name := "node-b" } }

def selectOnTwoNodes (nodeInfo : NodeInfo) : Option (List Pod × ℕ × Status) :=
  if nodeInfo.node.map Node.name = some "node-a" then some ([earlyPod], 0, ⟨.success, []⟩)
  else some ([latePod], 0, ⟨.success, []⟩)

theorem twoNodes_named : ([nodeA, nodeB].map fun nodeInfo => nodeInfo.node.map Node.name).Nodup := by
  simp [nodeA, nodeB]

theorem twoNodes_total : ∀ nodeInfo ∈ [nodeA, nodeB], nodeInfo.node.isSome ∧ (selectOnTwoNodes nodeInfo).isSome := by
  intro nodeInfo member
  simp only [List.mem_cons, List.not_mem_nil, or_false] at member
  rcases member with rfl | rfl <;> simp [nodeA, nodeB, selectOnTwoNodes]

theorem selectOnTwoNodes_bounded : ∀ nodeInfo pods numPDBViolations status,
    selectOnTwoNodes nodeInfo = some (pods, numPDBViolations, status) →
      (∀ pod ∈ pods, podPriority pod ≤ maxInt32) ∧ (pods.length : ℤ) ≤ maxInt32 ∧ numPDBViolations ≤ pods.length := by
  intro nodeInfo pods numPDBViolations status gave
  unfold selectOnTwoNodes at gave
  split_ifs at gave
  · cases gave
    exact ⟨by simp [earlyPod, podPriority, maxInt32], by simp [maxInt32], by simp⟩
  · cases gave
    exact ⟨by simp [latePod, podPriority, maxInt32], by simp [maxInt32], by simp⟩

theorem dry_run_on_two_nodes :
    [1, 0].Nodup ∧ (∀ i ∈ [1, 0], i < [nodeA, nodeB].length) ∧
      ([nodeA, nodeB].map fun nodeInfo => nodeInfo.node.map Node.name).Nodup ∧
      (∀ nodeInfo ∈ [nodeA, nodeB], nodeInfo.node.isSome ∧ (selectOnTwoNodes nodeInfo).isSome) ∧
      ∃ candidates nodeStatuses errs,
        dryRunPreemption selectOnTwoNodes [nodeA, nodeB] 1 2 [1, 0] = some (candidates, nodeStatuses, errs) ∧
        candidates =
          ((foundCandidates selectOnTwoNodes [nodeA, nodeB] 1 [1, 0]).filter
              fun c => c.victims.numPDBViolations = 0).take 2 ++
            ((foundCandidates selectOnTwoNodes [nodeA, nodeB] 1 [1, 0]).filter
              fun c => c.victims.numPDBViolations ≠ 0).take 2 ∧
        (candidates.map Candidate.name).Nodup ∧
        ∀ c ∈ candidates, c.victims.pods ≠ [] ∧ ∃ nodeInfo ∈ [nodeA, nodeB], ∃ (node : Node) (status : Status)
          (numPDBViolations : ℕ), nodeInfo.node = some node ∧ node.name = c.name ∧
            c.victims.numPDBViolations = numPDBViolations ∧
            selectOnTwoNodes nodeInfo = some (c.victims.pods, numPDBViolations, status) ∧ status.isSuccess = true :=
  have distinct : [1, 0].Nodup := by decide
  have pieces : ∀ i ∈ [1, 0], i < [nodeA, nodeB].length := by decide
  ⟨distinct, pieces, twoNodes_named, twoNodes_total,
    dryRunPreemption_spec selectOnTwoNodes [nodeA, nodeB] 1 distinct pieces twoNodes_named twoNodes_total⟩

example : (dryRunPreemption selectOnTwoNodes [nodeA, nodeB] 1 1 [1, 0]).map (·.1.map Candidate.name) =
    some ["node-a"] := by decide

theorem preempts_latest_of_two_nodes :
    (∀ entries : List (Σ _ : String, Victims), (id entries).Perm entries) ∧ [1, 0].Nodup ∧
      (∀ i ∈ [1, 0], i < [nodeA, nodeB].length) ∧
      ([nodeA, nodeB].map fun nodeInfo => nodeInfo.node.map Node.name).Nodup ∧
      (∀ nodeInfo ∈ [nodeA, nodeB], nodeInfo.node.isSome ∧ (selectOnTwoNodes nodeInfo).isSome) ∧
      (∀ nodeInfo pods numPDBViolations status,
        selectOnTwoNodes nodeInfo = some (pods, numPDBViolations, status) →
          (∀ pod ∈ pods, podPriority pod ≤ maxInt32) ∧ (pods.length : ℤ) ≤ maxInt32 ∧
            numPDBViolations ≤ pods.length) ∧
      (∀ nodeInfo pods numPDBViolations status,
        selectOnTwoNodes nodeInfo = some (pods, numPDBViolations, status) → stillClock.Settled pods) ∧
      ∃ candidates nodeStatuses errs,
        dryRunPreemption selectOnTwoNodes [nodeA, nodeB] 1 2 [1, 0] = some (candidates, nodeStatuses, errs) ∧
        (candidates ≠ [] → ∃ best ∈ candidates, selectCandidate id stillClock candidates = some (some best) ∧
          ∀ c ∈ candidates, rank best.victims ≤ rank c.victims ∧
            (rank c.victims = rank best.victims →
              earliestStart (stillClock.reading 0) (c.name, c.victims) ≤
                earliestStart stillClock.last (best.name, best.victims))) :=
  have distinct : [1, 0].Nodup := by decide
  have pieces : ∀ i ∈ [1, 0], i < [nodeA, nodeB].length := by decide
  have settled : ∀ nodeInfo pods numPDBViolations status,
      selectOnTwoNodes nodeInfo = some (pods, numPDBViolations, status) → stillClock.Settled pods :=
    fun _ pods _ _ _ => Clock.settled_of_reading_eq rfl pods
  ⟨fun _ => List.Perm.refl _, distinct, pieces, twoNodes_named, twoNodes_total, selectOnTwoNodes_bounded, settled,
    dryRunPreemption_selectCandidate_least selectOnTwoNodes [nodeA, nodeB] 1 id stillClock (fun _ => List.Perm.refl _)
      distinct pieces twoNodes_named twoNodes_total selectOnTwoNodes_bounded settled⟩

end Runs

end Kubernetes.Scheduler.Preemption
