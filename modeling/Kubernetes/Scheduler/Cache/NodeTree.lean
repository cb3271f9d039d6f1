import Kubernetes.Library.Slice
import Kubernetes.Scheduler.Framework.NodeInfo

/-! The scheduler cache's zone tree (`nodeTree` in `pkg/scheduler/internal/cache` and `GetZoneKey`
in `component-helpers/node/topology`).

The tree keeps the names of the nodes by zone, the zones in the order they were first met, and a
count of the names. Its calls keep the count equal to the names held and the zones equal to the
keys of the tree; where they are, `list` reads the zones in turns, the `j`-th name of each zone in
the `j`-th turn, and returns every name the tree holds, without error. The loop of `list` is
given enough fuel for every tree, which `list_isSome` shows. `%q` in the error texts is taken as
plain quotes.
-/

set_option autoImplicit false

namespace Kubernetes.Scheduler.Cache

open Kubernetes.Library Kubernetes.Scheduler

def labelFailureDomainBetaZone : String := "failure-domain.beta.kubernetes.io/zone"
def labelTopologyZone : String := "topology.kubernetes.io/zone"
def labelFailureDomainBetaRegion : String := "failure-domain.beta.kubernetes.io/region"
def labelTopologyRegion : String := "topology.kubernetes.io/region"

/-- `GetZoneKey`: the region and zone labels, the deprecated keys first; empty for neither. -/
def getZoneKey (node : Node) : String :=
  let zone := (node.labels.lookup labelFailureDomainBetaZone).getD ((node.labels.lookup labelTopologyZone).getD "")
  let region :=
    (node.labels.lookup labelFailureDomainBetaRegion).getD ((node.labels.lookup labelTopologyRegion).getD "")
  if region = "" ∧ zone = "" then "" else region ++ ":\x00:" ++ zone

structure NodeTree where
  tree : AList fun _ : String => List String
  zones : List String
  numNodes : ℤ

namespace NodeTree

/-- `newNodeTree(nil)`. -/
def empty : NodeTree := ⟨∅, [], 0⟩

/-- The names of a zone; a zone the map lacks reads as nil. -/
def names (nt : NodeTree) (zone : String) : List String := (nt.tree.lookup zone).getD []

/-- `addNode`: a name already in its zone is left as it is. -/
def addNode (nt : NodeTree) (n : Node) : NodeTree :=
  let zone := getZoneKey n
  match nt.tree.lookup zone with
  | some na =>
    if n.name ∈ na then nt
    else { nt with tree := nt.tree.insert zone (na ++ [n.name]), numNodes := nt.numNodes + 1 }
  | none => { nt with zones := nt.zones ++ [zone], tree := nt.tree.insert zone [n.name], numNodes := nt.numNodes + 1 }

def removeZone (nt : NodeTree) (zone : String) : NodeTree :=
  { nt with tree := nt.tree.erase zone, zones := nt.zones.erase zone }

def notFound (name zone : String) : String := "node \"" ++ name ++ "\" in group \"" ++ zone ++ "\" was not found"

/-- `removeNode`: the tree, and the error where the name is not in its zone. -/
def removeNode (nt : NodeTree) (n : Node) : NodeTree × Option String :=
  let zone := getZoneKey n
  match nt.tree.lookup zone with
  | some na =>
    match na.idxOf? n.name with
    | some i =>
      let nt := { nt with tree := nt.tree.insert zone (na.eraseIdx i) }
      let nt := if na.eraseIdx i = [] then nt.removeZone zone else nt
      ({ nt with numNodes := nt.numNodes - 1 }, none)
    | none => (nt, some (notFound n.name zone))
  | none => (nt, some (notFound n.name zone))

/-- `updateNode`; none where a zone change dereferences a nil old node. -/
def updateNode (nt : NodeTree) (old : Option Node) (new : Node) : Option NodeTree :=
  let oldZone := match old with
    | some old => getZoneKey old
    | none => ""
  if oldZone = getZoneKey new then some nt
  else match old with
    | none => none
    | some old => some ((nt.removeNode old).1.addNode new)

/-- The body of the inner loop of `list` for one zone: its `nodeIndex`-th name, if it has one;
the count of exhausted zones grows in the turn that reaches the zone's end. -/
def visitZone (nt : NodeTree) (nodeIndex : ℕ) (acc : List String × ℕ) (zone : String) : List String × ℕ :=
  let na := nt.names zone
  if h : nodeIndex < na.length then (acc.1 ++ [na.get ⟨nodeIndex, h⟩], acc.2)
  else (acc.1, if nodeIndex = na.length then acc.2 + 1 else acc.2)

/-- One turn of `list`, over the zones in order. -/
def turn (nt : NodeTree) (nodeIndex : ℕ) (acc : List String × ℕ) : List String × ℕ :=
  nt.zones.foldl (nt.visitZone nodeIndex) acc

def zonesExhausted : String := "all zones exhausted before reaching count of nodes expected"

/-- The loop of `list` from turn `nodeIndex`. -/
def listFrom (nt : NodeTree) : ℕ → ℕ → List String → ℕ → Option (List String × Option String)
  | 0, _, _, _ => none
  | fuel + 1, nodeIndex, nodesList, numExhaustedZones =>
    if (nodesList.length : ℤ) < nt.numNodes then
      if numExhaustedZones ≥ nt.zones.length then some (nodesList, some zonesExhausted)
      else
        let (nodesList, numExhaustedZones) := nt.turn nodeIndex (nodesList, numExhaustedZones)
        nt.listFrom fuel (nodeIndex + 1) nodesList numExhaustedZones
    else some (nodesList, none)

/-- `list`: the names in turns over the zones, and the error where the zones run out before the
count. -/
def list (nt : NodeTree) : Option (List String × Option String) :=
  if nt.zones = [] then some ([], none)
  else nt.listFrom ((nt.zones.map fun zone => (nt.names zone).length).sum + 2) 0 [] 0

/-! ## The tree's invariant -/

/-- The zones are the keys of the tree, each once, and the count is the number of names held. -/
structure WellFormed (nt : NodeTree) : Prop where
  distinct : nt.zones.Nodup
  keys : ∀ zone, zone ∈ nt.tree ↔ zone ∈ nt.zones
  count : nt.numNodes = ((nt.zones.map nt.names).map List.length).sum

theorem wellFormed_empty : empty.WellFormed where
  distinct := List.nodup_nil
  keys := by simp [empty]
  count := rfl

theorem names_insert (nt : NodeTree) (zone : String) (na : List String) (zones : List String) (count : ℤ)
    (z : String) : (⟨nt.tree.insert zone na, zones, count⟩ : NodeTree).names z = if z = zone then na else nt.names z := by
  by_cases same : z = zone
  · subst same
    simp [names]
  · simp [names, same, AList.lookup_insert_ne same]

theorem sum_map_update {zones : List String} (distinct : zones.Nodup) {zone : String} (member : zone ∈ zones)
    (f : String → ℕ) (a : ℕ) :
    (zones.map fun z => if z = zone then a else f z).sum + f zone = (zones.map f).sum + a := by
  induction zones with
  | nil => cases member
  | cons z zones ih =>
    rw [List.nodup_cons] at distinct
    by_cases same : z = zone
    · subst same
      have others : (zones.map fun y => if y = z then a else f y) = zones.map f :=
        List.map_congr_left fun (y : String) (listed : y ∈ zones) =>
          if_neg fun (equal : y = z) => distinct.1 (equal ▸ listed)
      simp only [List.map_cons, List.sum_cons, others, ite_true]
      omega
    · have later := ih distinct.2 ((List.mem_cons.mp member).resolve_left (Ne.symm same))
      simp only [List.map_cons, List.sum_cons, if_neg same]
      omega

theorem sum_map_update_of_notMem {zones : List String} {zone : String} (absent : zone ∉ zones) (f : String → ℕ)
    (a : ℕ) : (zones.map fun z => if z = zone then a else f z).sum = (zones.map f).sum := by
  rw [List.map_congr_left fun (z : String) (listed : z ∈ zones) =>
    if_neg fun (same : z = zone) => absent (same ▸ listed)]

theorem count_insert {nt : NodeTree} (wellFormed : nt.WellFormed) {zone : String} (member : zone ∈ nt.zones)
    (na : List String) :
    ((nt.zones.map ({ nt with tree := nt.tree.insert zone na } : NodeTree).names).map List.length).sum +
        (nt.names zone).length = nt.numNodes + na.length := by
  simp only [List.map_map, Function.comp_def, names_insert, apply_ite List.length]
  rw [wellFormed.count, List.map_map]
  exact_mod_cast sum_map_update wellFormed.distinct member (fun z => (nt.names z).length) na.length

theorem WellFormed.mem_of_lookup {nt : NodeTree} (wellFormed : nt.WellFormed) {zone : String} {na : List String}
    (found : nt.tree.lookup zone = some na) : zone ∈ nt.zones :=
  (wellFormed.keys zone).mp (AList.lookup_isSome.mp (by simp [found]))

theorem names_of_lookup {nt : NodeTree} {zone : String} {na : List String} (found : nt.tree.lookup zone = some na) :
    nt.names zone = na := by
  simp [names, found]

theorem WellFormed.addNode {nt : NodeTree} (wellFormed : nt.WellFormed) (n : Node) : (nt.addNode n).WellFormed := by
  unfold NodeTree.addNode
  cases found : nt.tree.lookup (getZoneKey n) with
  | some na =>
    have member := wellFormed.mem_of_lookup found
    have held := names_of_lookup found
    simp only [found]
    split_ifs with already
    · exact wellFormed
    · -- the zone's names grow by one
      refine ⟨wellFormed.distinct, fun zone => ?_, ?_⟩
      · simp only [AList.mem_insert, wellFormed.keys]
        exact ⟨fun listed => listed.elim (· ▸ member) id, Or.inr⟩
      have count := count_insert wellFormed member (na ++ [n.name])
      simp only [held, List.length_append, List.length_singleton] at count
      simp only [List.map_map, Function.comp_def, names_insert, apply_ite List.length] at count ⊢
      push_cast at count ⊢
      omega
  | none =>
    -- a new zone, put last
    have absent : getZoneKey n ∉ nt.zones := fun member =>
      absurd ((wellFormed.keys _).mpr member) (by simp [← AList.lookup_isSome, found])
    simp only [found]
    refine ⟨wellFormed.distinct.append (List.nodup_singleton _) (by simpa using absent), fun zone => ?_, ?_⟩
    · simp [AList.mem_insert, wellFormed.keys, or_comm]
    · simp only [List.map_append, List.map_map, Function.comp_def, names_insert, apply_ite List.length,
        List.map_singleton, List.sum_append, List.sum_singleton, ite_true, List.length_singleton]
      rw [sum_map_update_of_notMem absent, wellFormed.count, List.map_map]
      push_cast
      rfl

theorem names_erase_insert (nt : NodeTree) (zone : String) (na : List String) (zones : List String) (count : ℤ)
    {z : String} (other : z ≠ zone) :
    (⟨(nt.tree.insert zone na).erase zone, zones, count⟩ : NodeTree).names z = nt.names z := by
  simp [names, AList.lookup_erase_ne other, AList.lookup_insert_ne other]

theorem WellFormed.removeNode {nt : NodeTree} (wellFormed : nt.WellFormed) (n : Node) :
    (nt.removeNode n).1.WellFormed := by
  unfold NodeTree.removeNode
  cases found : nt.tree.lookup (getZoneKey n) with
  | none => simpa [found] using wellFormed
  | some na =>
    cases index : na.idxOf? n.name with
    | none => simpa [found, index] using wellFormed
    | some i =>
      have member := wellFormed.mem_of_lookup found
      have held := names_of_lookup found
      have shorter : (na.eraseIdx i).length + 1 = na.length := by
        obtain ⟨inside, -⟩ := List.idxOf?_eq_some_iff.mp index
        rw [List.length_eraseIdx_of_lt inside]
        omega
      simp only [found, index]
      split_ifs with emptied
      · -- the zone's last name goes, and the zone with it
        have others : ∀ z ∈ nt.zones.erase (getZoneKey n), z ≠ getZoneKey n := fun z listed =>
          ((wellFormed.distinct.mem_erase_iff).mp listed).1
        refine ⟨wellFormed.distinct.erase _, fun zone => ?_, ?_⟩
        · simp only [removeZone, AList.mem_erase, AList.mem_insert, wellFormed.distinct.mem_erase_iff,
            wellFormed.keys]
          exact and_congr_right fun other => or_iff_right other
        · have count := List.sum_map_erase (fun z => (nt.names z).length) member
          simp only [removeZone, List.map_map, Function.comp_def]
          rw [List.map_congr_left fun z listed => congrArg List.length (names_erase_insert nt _ _ _ _ (others z listed)),
            wellFormed.count, List.map_map, Function.comp_def, ← count, held, ← shorter, emptied]
          simp
      · -- the zone keeps some names
        refine ⟨wellFormed.distinct, fun zone => ?_, ?_⟩
        · simp only [AList.mem_insert, wellFormed.keys]
          exact ⟨fun listed => listed.elim (· ▸ member) id, Or.inr⟩
        · have count := count_insert wellFormed member (na.eraseIdx i)
          simp only [held, List.map_map, Function.comp_def, names_insert, apply_ite List.length] at count ⊢
          push_cast at count ⊢
          omega

theorem WellFormed.updateNode {nt nt' : NodeTree} (wellFormed : nt.WellFormed) {old : Option Node} {new : Node}
    (updated : nt.updateNode old new = some nt') : nt'.WellFormed := by
  unfold NodeTree.updateNode at updated
  dsimp only at updated
  split_ifs at updated
  · cases updated
    exact wellFormed
  · cases old with
    | none => cases updated
    | some old =>
      cases updated
      exact (wellFormed.removeNode old).addNode new

/-! ## Listing the names -/

/-- The names of the first `r` turns over the zones, the `j`-th name of each zone in turn `j`. -/
def roundRobin (nt : NodeTree) (r : ℕ) : List String := (List.range r).flatMap (column (nt.zones.map nt.names))

/-- The zones whose names run out before turn `r`. -/
def exhaustedBefore (nt : NodeTree) (r : ℕ) : ℕ := nt.zones.countP fun zone => (nt.names zone).length < r

theorem foldl_visitZone (nt : NodeTree) (r : ℕ) : ∀ (zones : List String) (acc : List String) (k : ℕ),
    zones.foldl (nt.visitZone r) (acc, k) =
      (acc ++ column (zones.map nt.names) r, k + zones.countP fun zone => (nt.names zone).length = r)
  | [], acc, k => by simp [column]
  | zone :: zones, acc, k => by
    have column_cons : column ((zone :: zones).map nt.names) r = (nt.names zone)[r]?.toList ++
        column (zones.map nt.names) r := by
      cases read : (nt.names zone)[r]? <;> simp [column, read]
    rw [List.foldl_cons, visitZone, column_cons, List.countP_cons]
    by_cases inside : r < (nt.names zone).length
    · rw [dif_pos inside, foldl_visitZone nt r zones, List.getElem?_eq_getElem inside]
      simp [inside.ne']
    · rw [dif_neg inside, foldl_visitZone nt r zones, List.getElem?_eq_none (Nat.le_of_not_lt inside)]
      by_cases exact : r = (nt.names zone).length
      · simp [exact]
        omega
      · simp [exact, Ne.symm exact]

theorem countP_lt_add_countP_eq {α : Type} (f : α → ℕ) (r : ℕ) : ∀ l : List α,
    l.countP (fun a => f a < r) + l.countP (fun a => f a = r) = l.countP fun a => f a < r + 1
  | [] => rfl
  | a :: l => by
    have rest := countP_lt_add_countP_eq f r l
    simp only [List.countP_cons, decide_eq_true_eq]
    split_ifs <;> omega

theorem turn_roundRobin (nt : NodeTree) (r : ℕ) :
    nt.turn r (nt.roundRobin r, nt.exhaustedBefore r) = (nt.roundRobin (r + 1), nt.exhaustedBefore (r + 1)) := by
  rw [turn, foldl_visitZone, roundRobin, roundRobin, List.range_succ, List.flatMap_append, List.flatMap_singleton,
    exhaustedBefore, exhaustedBefore, countP_lt_add_countP_eq]

theorem length_roundRobin (nt : NodeTree) (r : ℕ) :
    (nt.roundRobin r).length = ((nt.zones.map nt.names).map fun na => min r na.length).sum := by
  rw [roundRobin, (flatMap_column_perm r _).length_eq, List.length_flatMap]
  simp only [List.length_take]

theorem sum_min_lt_iff {α : Type} (r : ℕ) : ∀ slices : List (List α),
    (slices.map fun s => min r s.length).sum < (slices.map List.length).sum ↔ ∃ s ∈ slices, r < s.length
  | [] => by simp
  | s :: slices => by
    have rest := sum_min_lt_iff r slices
    have bounded : (slices.map fun s => min r s.length).sum ≤ (slices.map List.length).sum :=
      List.sum_le_sum fun s _ => min_le_right r s.length
    simp only [List.map_cons, List.sum_cons, List.mem_cons, exists_eq_or_imp, ← rest]
    omega

theorem WellFormed.listFrom_roundRobin {nt : NodeTree} (wellFormed : nt.WellFormed) : ∀ (fuel r : ℕ),
    r ≤ ((nt.zones.map nt.names).map List.length).sum →
    ((nt.zones.map nt.names).map List.length).sum + 1 ≤ fuel + r →
    ∃ n, (∀ zone ∈ nt.zones, (nt.names zone).length ≤ n) ∧
      nt.listFrom fuel r (nt.roundRobin r) (nt.exhaustedBefore r) = some (nt.roundRobin n, none)
  | 0, r, early, enough => by omega
  | fuel + 1, r, early, enough => by
    have gathered := length_roundRobin nt r
    have count := wellFormed.count
    rw [listFrom]
    by_cases short : ((nt.roundRobin r).length : ℤ) < nt.numNodes
    · -- a zone has a name beyond turn `r`, so it is not exhausted yet
      obtain ⟨na, listed, longer⟩ := (sum_min_lt_iff r (nt.zones.map nt.names)).mp (by omega)
      obtain ⟨zone, member, rfl⟩ := List.mem_map.mp listed
      have open_ : nt.exhaustedBefore r < nt.zones.length :=
        lt_of_le_of_ne List.countP_le_length fun all =>
          Nat.lt_asymm longer (decide_eq_true_iff.mp (List.countP_eq_length.mp all zone member))
      have within : (nt.names zone).length ≤ ((nt.zones.map nt.names).map List.length).sum :=
        List.le_sum_of_mem (List.mem_map_of_mem listed)
      rw [if_pos short, if_neg (Nat.not_le_of_lt open_), turn_roundRobin]
      exact wellFormed.listFrom_roundRobin fuel (r + 1) (by omega) (by omega)
    · refine ⟨r, fun zone member => Nat.le_of_not_lt fun longer => short ?_, by rw [if_neg short]⟩
      have fewer := (sum_min_lt_iff r _).mpr ⟨_, List.mem_map_of_mem member, longer⟩
      omega

theorem WellFormed.list_eq {nt : NodeTree} (wellFormed : nt.WellFormed) :
    ∃ n, (∀ zone ∈ nt.zones, (nt.names zone).length ≤ n) ∧ nt.list = some (nt.roundRobin n, none) := by
  unfold NodeTree.list
  split_ifs with noZones
  · exact ⟨0, by simp [noZones], rfl⟩
  · have total : (nt.zones.map fun zone => (nt.names zone).length).sum = ((nt.zones.map nt.names).map List.length).sum := by
      rw [List.map_map, Function.comp_def]
    have noneYet : nt.exhaustedBefore 0 = 0 := by simp [exhaustedBefore]
    obtain ⟨n, bounded, listed⟩ := wellFormed.listFrom_roundRobin
      ((nt.zones.map fun zone => (nt.names zone).length).sum + 2) 0 (Nat.zero_le _) (by omega)
    rw [noneYet] at listed
    exact ⟨n, bounded, listed⟩

theorem roundRobin_perm (nt : NodeTree) {n : ℕ} (bounded : ∀ zone ∈ nt.zones, (nt.names zone).length ≤ n) :
    (nt.roundRobin n).Perm (nt.zones.flatMap nt.names) := by
  refine (flatMap_column_perm n _).trans (List.Perm.of_eq ?_)
  rw [List.flatMap_map]
  exact List.flatMap_congr fun zone member => List.take_of_length_le (bounded zone member)

/-! ## Runs of the tree -/

/-- The calls the cache makes on its tree. -/
inductive Call where
  | addNode (n : Node)
  | removeNode (n : Node)
  | updateNode (old : Option Node) (new : Node)

/-- One call; `none` where `updateNode` panics. The error of `removeNode` leaves the tree as it
was. -/
def step (nt : NodeTree) : Call → Option NodeTree
  | .addNode n => some (nt.addNode n)
  | .removeNode n => some (nt.removeNode n).1
  | .updateNode old new => nt.updateNode old new

/-- The tree from `newNodeTree(nil)` on. -/
def system : System NodeTree Call := System.ofPartial (· = empty) step

theorem wellFormed_of_reachable : system.Invariant WellFormed := by
  refine System.Inductive.invariant ⟨fun nt initial => initial ▸ wellFormed_empty, ?_⟩
  intro nt call next wellFormed stepped
  cases call with
  | addNode n =>
    cases stepped
    exact wellFormed.addNode n
  | removeNode n =>
    cases stepped
    exact wellFormed.removeNode n
  | updateNode old new => exact wellFormed.updateNode stepped

theorem list_of_reachable {nt : NodeTree} (reachable : system.Reachable nt) :
    ∃ n, nt.list = some (nt.roundRobin n, none) ∧ (nt.roundRobin n).Perm (nt.zones.flatMap nt.names) ∧
      ((nt.roundRobin n).length : ℤ) = nt.numNodes := by
  have wellFormed := wellFormed_of_reachable nt reachable
  obtain ⟨n, bounded, listed⟩ := wellFormed.list_eq
  have perm := nt.roundRobin_perm bounded
  refine ⟨n, listed, perm, ?_⟩
  rw [perm.length_eq, List.length_flatMap, wellFormed.count, List.map_map]
  rfl

namespace Runs

def zoneLabels (zone : String) : Labels := [(labelTopologyRegion, "region-1"), (labelTopologyZone, zone)]

/-- Two nodes in one zone and one in another; the first node then moves to the second zone. -/
def twoZones : NodeTree :=
  ((((empty.addNode ⟨"node-a", zoneLabels "zone-a"⟩).addNode ⟨"node-b", zoneLabels "zone-a"⟩).addNode
    ⟨"node-c", zoneLabels "zone-b"⟩).removeNode ⟨"node-a", zoneLabels "zone-a"⟩).1.addNode
    ⟨"node-a", zoneLabels "zone-b"⟩

theorem twoZones_reachable : system.Reachable twoZones :=
  .step (.updateNode (some ⟨"node-a", zoneLabels "zone-a"⟩) ⟨"node-a", zoneLabels "zone-b"⟩)
    (.step (.addNode ⟨"node-c", zoneLabels "zone-b"⟩) (.step (.addNode ⟨"node-b", zoneLabels "zone-a"⟩)
      (.step (.addNode ⟨"node-a", zoneLabels "zone-a"⟩) (.init rfl) rfl) rfl) rfl) rfl

theorem lists_two_zones : system.Reachable twoZones ∧
    ∃ n, twoZones.list = some (twoZones.roundRobin n, none) ∧
      (twoZones.roundRobin n).Perm (twoZones.zones.flatMap twoZones.names) ∧
      ((twoZones.roundRobin n).length : ℤ) = twoZones.numNodes :=
  ⟨twoZones_reachable, list_of_reachable twoZones_reachable⟩

example : twoZones.list = some (["node-b", "node-c", "node-a"], none) := by decide

end Runs

end NodeTree

end Kubernetes.Scheduler.Cache
