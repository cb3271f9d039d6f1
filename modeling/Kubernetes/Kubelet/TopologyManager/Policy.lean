import Mathlib
import Kubernetes.Library.Choice
import Kubernetes.Kubelet.TopologyManager.Bitmask

/-! The merge of NUMA affinity hints that the topology manager's policies share
(`pkg/kubelet/cm/topologymanager/policy.go`).

Every hint provider gives, for each resource, the hints it can satisfy. `filterProvidersHints`
lists them, and `mergeFilteredHints` merges every way of taking one hint of each list and keeps
the best merge by `compareHints`. A Go map is walked in no fixed order, so a provider is the
list of its resources' hints in the order the walk met them. A panic is `none`: `bitmask.And`
on the nil mask that `NewBitMask` returns when a NUMA node lies outside `0..63`.
-/

set_option autoImplicit false

namespace Kubernetes.Kubelet.TopologyManager

open Kubernetes.Library Bitmask

structure TopologyHint where
  numaNodeAffinity : Option BitMask
  preferred : Bool
  deriving DecidableEq, Repr

/-- The affinity of a hint that has one. Go reads it only where it is set: on a merged hint, or
after a nil check. -/
def TopologyHint.mask (hint : TopologyHint) : BitMask := hint.numaNodeAffinity.getD 0

/-- One iteration of the loop of `mergePermutation`: collect the affinity of a hint that has
one, and keep the merge preferred while every hint is preferred and every affinity equals the
first. -/
def mergeStep (state : Bool × List BitMask) (hint : TopologyHint) : Bool × List BitMask :=
  match hint.numaNodeAffinity with
  | some affinity =>
    let numaAffinities := state.2 ++ [affinity]
    (state.1 && affinity == numaAffinities.headD affinity && hint.preferred, numaAffinities)
  | none => (state.1 && hint.preferred, state.2)

def mergePermutation (numaNodes : List ℤ) (permutation : List TopologyHint) : Option TopologyHint :=
  let defaultAffinity := (newBitMask numaNodes).toOption
  let merged := permutation.foldl mergeStep (true, [])
  (Bitmask.and defaultAffinity merged.2).map fun mergedAffinity => ⟨some mergedAffinity, merged.1⟩

/-- A provider's hints: each resource's hints, `none` for a nil list, in the order the map was
walked. -/
abbrev ProviderHints := List (Option (List TopologyHint))

def filterProvidersHints (providersHints : List ProviderHints) : List (List TopologyHint) :=
  providersHints.flatMap fun hints =>
    if hints = [] then [[⟨none, true⟩]]
    else hints.map fun
      | none => [⟨none, true⟩]
      | some [] => [⟨none, false⟩]
      | some resourceHints => resourceHints

/-- One iteration of the loop of `narrowestHint`, which skips the hints without affinity. -/
def narrowestStep (narrowest : Option TopologyHint) (hint : TopologyHint) : Option TopologyHint :=
  if hint.numaNodeAffinity = none then narrowest
  else
    let narrowest := narrowest.getD hint
    if isNarrowerThan hint.mask narrowest.mask then some hint else some narrowest

def narrowestHint (hints : List TopologyHint) : Option TopologyHint := hints.foldl narrowestStep none

def maxOfMinAffinityCounts (filteredHints : List (List TopologyHint)) : ℕ :=
  filteredHints.foldl (fun maxOfMinCount resourceHints =>
    match narrowestHint resourceHints with
    | none => maxOfMinCount
    | some narrowest => if count narrowest.mask > maxOfMinCount then count narrowest.mask else maxOfMinCount) 0

def compareHints (bestNonPreferredAffinityCount : ℕ) (current : Option TopologyHint) (candidate : TopologyHint) :
    Option TopologyHint :=
  let best := bestNonPreferredAffinityCount
  if count candidate.mask = 0 then current
  else match current with
  | none => some candidate
  | some current =>
    if !current.preferred && candidate.preferred then some candidate
    else if current.preferred && !candidate.preferred then some current
    else if current.preferred && candidate.preferred then
      if isNarrowerThan candidate.mask current.mask then some candidate else some current
    -- both non-preferred: case 1
    else if count current.mask > best then
      if isNarrowerThan candidate.mask current.mask then some candidate else some current
    -- case 2
    else if count current.mask = best then
      if count candidate.mask ≠ best then some current
      else if isNarrowerThan candidate.mask current.mask then some candidate else some current
    -- cases 3a, 3b, 3ca, 3cb and 3cc
    else if count candidate.mask > best then some current
    else if count candidate.mask = best then some candidate
    else if count candidate.mask > count current.mask then some candidate
    else if count candidate.mask < count current.mask then some current
    else if isNarrowerThan candidate.mask current.mask then some candidate else some current

/-- The permutations in the order the callback sees them: the loop over the first provider's
hints outermost. -/
def iterateAllProviderTopologyHints (allProviderHints : List (List TopologyHint)) : List (List TopologyHint) :=
  choices allProviderHints

def mergeFilteredHints (numaNodes : List ℤ) (filteredHints : List (List TopologyHint)) : Option TopologyHint := do
  let bestNonPreferredAffinityCount := maxOfMinAffinityCounts filteredHints
  let bestHint ← (iterateAllProviderTopologyHints filteredHints).foldlM (fun bestHint permutation => do
      let mergedHint ← mergePermutation numaNodes permutation
      pure (compareHints bestNonPreferredAffinityCount bestHint mergedHint)) none
  pure (bestHint.getD ⟨(newBitMask numaNodes).toOption, false⟩)

/-! ## What the merge is for -/

/-- A merge of one hint per provider: the AND of all NUMA nodes with every affinity that is set,
preferred when every hint is preferred and the affinities that are set are all equal. -/
def mergeSpec (all : BitMask) (permutation : List TopologyHint) : TopologyHint :=
  let affinities := permutation.filterMap (·.numaNodeAffinity)
  ⟨some (affinities.foldl (· &&& ·) all),
    decide ((∀ hint ∈ permutation, hint.preferred = true) ∧ ∀ a ∈ affinities, ∀ b ∈ affinities, a = b)⟩

/-- A merge of one hint of each list that leaves some NUMA node. -/
def Candidate (all : BitMask) (filteredHints : List (List TopologyHint)) (hint : TopologyHint) : Prop :=
  ∃ permutation, List.Forall₂ (· ∈ ·) permutation filteredHints ∧ mergeSpec all permutation = hint ∧
    0 < count hint.mask

/-- The place of a non-preferred count: `best` first, then the counts below it from the largest,
then the counts above it from the smallest. -/
def nonPreferredRank (best c : ℕ) : ℕ := if c = best then 0 else if c < best then best - c else c

/-- The best merge: the narrowest preferred merge if there is one; otherwise the first
non-preferred merge by `nonPreferredRank` and then by value; otherwise all NUMA nodes, not
preferred. -/
structure BestMerge (all : BitMask) (best : ℕ) (filteredHints : List (List TopologyHint)) (hint : TopologyHint) :
    Prop where
  preferred : (∃ h, Candidate all filteredHints h ∧ h.preferred = true) →
    Candidate all filteredHints hint ∧ hint.preferred = true ∧
      ∀ h, Candidate all filteredHints h → h.preferred = true → isNarrowerThan h.mask hint.mask = false
  nonPreferred : (¬∃ h, Candidate all filteredHints h ∧ h.preferred = true) → (∃ h, Candidate all filteredHints h) →
    Candidate all filteredHints hint ∧ hint.preferred = false ∧
      ∀ h, Candidate all filteredHints h →
        toLex (nonPreferredRank best (count hint.mask), hint.mask.toNat) ≤
          toLex (nonPreferredRank best (count h.mask), h.mask.toNat)
  noCandidate : (¬∃ h, Candidate all filteredHints h) → hint = ⟨some all, false⟩

/-- The order `compareHints` keeps the best by: preferred merges first, the narrowest first; then
the non-preferred merges by `nonPreferredRank`, then by value. -/
def hintKey (best : ℕ) (hint : TopologyHint) : ℕ ×ₗ ℕ ×ₗ ℕ :=
  if hint.preferred then toLex (0, toLex (count hint.mask, hint.mask.toNat))
  else toLex (1, toLex (nonPreferredRank best (count hint.mask), hint.mask.toNat))

/-! ## `compareHints` keeps the least key -/

theorem compareHints_nonPreferred (best : ℕ) (current candidate : TopologyHint) :
    (if count current.mask > best then
        if isNarrowerThan candidate.mask current.mask then some candidate else some current
      else if count current.mask = best then
        if count candidate.mask ≠ best then some current
        else if isNarrowerThan candidate.mask current.mask then some candidate else some current
      else if count candidate.mask > best then some current
      else if count candidate.mask = best then some candidate
      else if count candidate.mask > count current.mask then some candidate
      else if count candidate.mask < count current.mask then some current
      else if isNarrowerThan candidate.mask current.mask then some candidate else some current) =
    if toLex (nonPreferredRank best (count candidate.mask), candidate.mask.toNat) <
        toLex (nonPreferredRank best (count current.mask), current.mask.toNat) then some candidate
    else some current := by
  have narrower := isNarrowerThan_iff candidate.mask current.mask
  rw [Prod.Lex.toLex_lt_toLex] at narrower
  simp only [Prod.Lex.toLex_lt_toLex] at narrower ⊢
  unfold nonPreferredRank
  split_ifs <;> first | rfl | (exfalso; simp only [narrower, true_and, lt_self_iff_false, false_or] at *; omega)

theorem compareHints_eq (best : ℕ) (current : Option TopologyHint) (candidate : TopologyHint) :
    compareHints best current candidate =
      if 0 < count candidate.mask then List.argAux (fun a b => hintKey best a < hintKey best b) current candidate
      else current := by
  unfold compareHints
  dsimp only
  by_cases empty : count candidate.mask = 0
  · rw [if_pos empty, if_neg (by omega)]
  rw [if_neg empty, if_pos (Nat.pos_of_ne_zero empty)]
  cases current with
  | none => rfl
  | some current =>
    obtain ⟨currentAffinity, currentPreferred⟩ := current
    obtain ⟨candidateAffinity, candidatePreferred⟩ := candidate
    simp only [List.argAux, hintKey]
    cases currentPreferred <;> cases candidatePreferred
    · -- both non-preferred: the eight cases
      simp only [Bool.not_false, Bool.and_false, Bool.false_and, Bool.false_eq_true, if_false]
      rw [compareHints_nonPreferred]
      simp only [Prod.Lex.toLex_lt_toLex, lt_self_iff_false, true_and, false_or]
    · -- a preferred candidate replaces a non-preferred hint
      simp [Prod.Lex.toLex_lt_toLex]
    · simp [Prod.Lex.toLex_lt_toLex]
    · -- both preferred: the narrower
      simp only [Bool.not_true, Bool.false_and, Bool.false_eq_true, if_false, Bool.and_false, Bool.and_self, if_true]
      simp [isNarrowerThan_iff, Prod.Lex.toLex_lt_toLex]

/-! ## `mergePermutation` meets `mergeSpec` -/

theorem foldl_mergeStep_snd (permutation : List TopologyHint) (state : Bool × List BitMask) :
    (permutation.foldl mergeStep state).2 = state.2 ++ permutation.filterMap (·.numaNodeAffinity) := by
  induction permutation generalizing state with
  | nil => simp
  | cons hint permutation ih =>
    rw [List.foldl_cons, ih]
    cases affinity : hint.numaNodeAffinity <;> simp [mergeStep, affinity]

theorem foldl_mergeStep_fst_of_first (permutation : List TopologyHint) (preferred : Bool) (first : BitMask)
    (rest : List BitMask) :
    (permutation.foldl mergeStep (preferred, first :: rest)).1 = true ↔
      preferred = true ∧ (∀ hint ∈ permutation, hint.preferred = true) ∧
        ∀ a ∈ permutation.filterMap (·.numaNodeAffinity), a = first := by
  induction permutation generalizing preferred rest with
  | nil => simp
  | cons hint permutation ih =>
    rw [List.foldl_cons]
    cases affinity : hint.numaNodeAffinity with
    | none =>
      simp only [mergeStep, affinity]
      rw [ih]
      simp [affinity]
      tauto
    | some a =>
      simp only [mergeStep, affinity, List.cons_append, List.headD_cons]
      rw [ih]
      simp [affinity]
      tauto

theorem foldl_mergeStep_fst (permutation : List TopologyHint) (preferred : Bool) :
    (permutation.foldl mergeStep (preferred, [])).1 = true ↔
      preferred = true ∧ (∀ hint ∈ permutation, hint.preferred = true) ∧
        ∀ a ∈ permutation.filterMap (·.numaNodeAffinity), ∀ b ∈ permutation.filterMap (·.numaNodeAffinity), a = b := by
  induction permutation generalizing preferred with
  | nil => simp
  | cons hint permutation ih =>
    rw [List.foldl_cons]
    cases affinity : hint.numaNodeAffinity with
    | none =>
      simp only [mergeStep, affinity]
      rw [ih]
      simp [affinity]
      tauto
    | some first =>
      simp only [mergeStep, affinity, List.nil_append, List.headD_cons, beq_self_eq_true, Bool.and_true]
      rw [foldl_mergeStep_fst_of_first]
      simp only [Bool.and_eq_true, List.mem_cons, forall_eq_or_imp, List.filterMap_cons, affinity]
      constructor
      · rintro ⟨⟨preferredBefore, hintPreferred⟩, restPreferred, equalFirst⟩
        refine ⟨preferredBefore, ⟨hintPreferred, restPreferred⟩, ⟨trivial, fun b member => (equalFirst b member).symm⟩,
          fun a member => ⟨equalFirst a member, fun b member' => (equalFirst a member).trans (equalFirst b member').symm⟩⟩
      · rintro ⟨preferredBefore, ⟨hintPreferred, restPreferred⟩, -, equalRest⟩
        exact ⟨⟨preferredBefore, hintPreferred⟩, restPreferred, fun a member => (equalRest a member).1⟩

theorem mergePermutation_eq {numaNodes : List ℤ} {all : BitMask} (created : newBitMask numaNodes = .ok all)
    (permutation : List TopologyHint) : mergePermutation numaNodes permutation = some (mergeSpec all permutation) := by
  have preferred : (permutation.foldl mergeStep (true, [])).1 =
      decide ((∀ hint ∈ permutation, hint.preferred = true) ∧
        ∀ a ∈ permutation.filterMap (·.numaNodeAffinity), ∀ b ∈ permutation.filterMap (·.numaNodeAffinity), a = b) := by
    rw [Bool.eq_iff_iff, decide_eq_true_iff, foldl_mergeStep_fst]
    simp
  simp only [mergePermutation, created, Except.toOption, Bitmask.and, Option.map_some, foldl_mergeStep_snd,
    List.nil_append, preferred, mergeSpec]

theorem mergeSpec_perm (all : BitMask) {p p' : List TopologyHint} (reordered : p.Perm p') :
    mergeSpec all p = mergeSpec all p' := by
  have affinities := reordered.filterMap (·.numaNodeAffinity)
  have anded : (p.filterMap (·.numaNodeAffinity)).foldl (· &&& ·) all =
      (p'.filterMap (·.numaNodeAffinity)).foldl (· &&& ·) all :=
    affinities.foldl_eq' (fun x _ y _ z => by rw [UInt64.and_assoc, UInt64.and_comm x y, ← UInt64.and_assoc]) all
  simp only [mergeSpec, anded, reordered.mem_iff, affinities.mem_iff]

/-! ## `mergeFilteredHints` keeps the best merge -/

/-- The merges that leave a NUMA node, in the order the callback meets them. -/
def mergedCandidates (all : BitMask) (filteredHints : List (List TopologyHint)) : List TopologyHint :=
  ((choices filteredHints).map (mergeSpec all)).filter fun hint => 0 < count hint.mask

theorem mem_mergedCandidates {all : BitMask} {filteredHints : List (List TopologyHint)} {hint : TopologyHint} :
    hint ∈ mergedCandidates all filteredHints ↔ Candidate all filteredHints hint := by
  simp only [mergedCandidates, List.mem_filter, List.mem_map, mem_choices, Candidate, decide_eq_true_eq]
  constructor
  · rintro ⟨⟨p, chosen, rfl⟩, positive⟩
    exact ⟨p, chosen, rfl, positive⟩
  · rintro ⟨p, chosen, rfl, positive⟩
    exact ⟨⟨p, chosen, rfl⟩, positive⟩

theorem mergeFilteredHints_eq {numaNodes : List ℤ} {all : BitMask} (created : newBitMask numaNodes = .ok all)
    (filteredHints : List (List TopologyHint)) :
    mergeFilteredHints numaNodes filteredHints =
      some (((mergedCandidates all filteredHints).argmin (hintKey (maxOfMinAffinityCounts filteredHints))).getD
        ⟨some all, false⟩) := by
  simp only [mergeFilteredHints, iterateAllProviderTopologyHints, mergePermutation_eq created, compareHints_eq,
    Option.bind_eq_bind, Option.bind_some, List.foldlM_pure]
  simp only [Option.pure_def, Option.bind_some, created, Except.toOption, mergedCandidates, List.argmin,
    List.foldl_filter, List.foldl_map, decide_eq_true_eq]

theorem Candidate.isSome {all : BitMask} {filteredHints : List (List TopologyHint)} {hint : TopologyHint}
    (candidate : Candidate all filteredHints hint) : hint.numaNodeAffinity.isSome := by
  obtain ⟨p, -, rfl, -⟩ := candidate
  rfl

theorem hintKey_inj (best : ℕ) {hint hint' : TopologyHint} (set : hint.numaNodeAffinity.isSome)
    (set' : hint'.numaNodeAffinity.isSome) (same : hintKey best hint = hintKey best hint') : hint = hint' := by
  obtain ⟨_ | mask, preferred⟩ := hint
  · cases set
  obtain ⟨_ | mask', preferred'⟩ := hint'
  · cases set'
  have sameValue : mask.toNat = mask'.toNat := by
    cases preferred <;> cases preferred' <;> simp_all [hintKey, TopologyHint.mask]
  have samePreferred : preferred = preferred' := by
    cases preferred <;> cases preferred' <;> simp_all [hintKey]
  rw [UInt64.toNat_inj.mp sameValue, samePreferred]

theorem bestMerge_argmin (all : BitMask) (best : ℕ) (filteredHints : List (List TopologyHint)) :
    BestMerge all best filteredHints
      (((mergedCandidates all filteredHints).argmin (hintKey best)).getD ⟨some all, false⟩) := by
  rcases chosen : (mergedCandidates all filteredHints).argmin (hintKey best) with _ | m
  · -- no merge leaves a NUMA node
    have none : ¬∃ h, Candidate all filteredHints h := fun ⟨h, candidate⟩ => by
      simpa [List.argmin_eq_none.mp chosen] using mem_mergedCandidates.mpr candidate
    exact ⟨fun ⟨h, candidate, _⟩ => absurd ⟨h, candidate⟩ none, fun _ some => absurd some none, fun _ => rfl⟩
  show BestMerge all best filteredHints m
  have member : Candidate all filteredHints m := mem_mergedCandidates.mp (List.argmin_mem chosen)
  have least : ∀ h, Candidate all filteredHints h → hintKey best m ≤ hintKey best h :=
    fun h candidate => List.le_of_mem_argmin (mem_mergedCandidates.mpr candidate) chosen
  refine ⟨fun ⟨h, candidate, preferred⟩ => ?_, fun noPreferred _ => ?_, fun none => absurd ⟨m, member⟩ none⟩
  · -- a preferred merge ranks before every non-preferred one
    have mPreferred : m.preferred = true := by
      by_contra notPreferred
      have below := least h candidate
      simp [hintKey, preferred, notPreferred, Prod.Lex.toLex_le_toLex] at below
    refine ⟨member, mPreferred, fun h' candidate' preferred' => ?_⟩
    have below := least h' candidate'
    simp only [hintKey, mPreferred, preferred', if_true, Prod.Lex.toLex_le_toLex, lt_self_iff_false, true_and,
      false_or] at below
    rw [Bool.eq_false_iff, Ne, isNarrowerThan_iff, Prod.Lex.toLex_lt_toLex]
    dsimp only
    omega
  · have mNotPreferred : m.preferred = false := by
      by_contra preferred
      exact noPreferred ⟨m, member, by simpa using preferred⟩
    refine ⟨member, mNotPreferred, fun h candidate => ?_⟩
    have hNotPreferred : h.preferred = false := by
      by_contra preferred
      exact noPreferred ⟨h, candidate, by simpa using preferred⟩
    have below := least h candidate
    simpa only [hintKey, mNotPreferred, hNotPreferred, Bool.false_eq_true, if_false, Prod.Lex.toLex_le_toLex,
      lt_self_iff_false, true_and, false_or] using below

/-! ## The order of the providers and of their hints does not matter -/

theorem candidate_iff_of_reordering {all : BitMask} {ls ls' : List (List TopologyHint)}
    (reordered : Reordering ls ls') (hint : TopologyHint) : Candidate all ls hint ↔ Candidate all ls' hint := by
  -- one direction suffices: the other is the reversed reordering
  have oneWay : ∀ {ls ls' : List (List TopologyHint)}, Reordering ls ls' → Candidate all ls hint →
      Candidate all ls' hint := by
    rintro ls ls' reordered ⟨p, chosen, rfl, positive⟩
    obtain ⟨p', perm, chosen'⟩ := reordered.exists_choice chosen
    exact ⟨p', chosen', (mergeSpec_perm all perm).symm, positive⟩
  exact ⟨oneWay reordered, oneWay reordered.symm⟩

theorem narrowestHint_eq (hints : List TopologyHint) :
    narrowestHint hints = (hints.filter (·.numaNodeAffinity.isSome)).argmin
      fun hint => toLex (count hint.mask, hint.mask.toNat) := by
  rw [narrowestHint, List.argmin, List.foldl_filter]
  congr
  funext narrowest hint
  cases affinity : hint.numaNodeAffinity with
  | none => simp [narrowestStep, affinity]
  | some a =>
    cases narrowest with
    | none => simp [narrowestStep, affinity, List.argAux]
    | some current => simp [narrowestStep, affinity, List.argAux, isNarrowerThan_iff]

theorem narrowestHint_count_perm {hints hints' : List TopologyHint} (reordered : hints.Perm hints') :
    (narrowestHint hints).map (fun hint => count hint.mask) = (narrowestHint hints').map fun hint => count hint.mask := by
  have same : ∀ hint, hint ∈ hints.filter (·.numaNodeAffinity.isSome) ↔ hint ∈ hints'.filter (·.numaNodeAffinity.isSome) :=
    fun hint => by simp [reordered.mem_iff]
  have sameKey := congrArg (Option.map fun key => (ofLex key).1)
    (map_argmin_eq_of_mem_iff (fun hint : TopologyHint => toLex (count hint.mask, hint.mask.toNat)) same)
  simpa [narrowestHint_eq, Option.map_map, Function.comp_def] using sameKey

theorem maxOfMinAffinityCounts_eq (filteredHints : List (List TopologyHint)) :
    maxOfMinAffinityCounts filteredHints =
      filteredHints.foldl (fun maxOfMinCount hints =>
        max maxOfMinCount (((narrowestHint hints).map fun hint => count hint.mask).getD 0)) 0 := by
  rw [maxOfMinAffinityCounts]
  congr
  funext maxOfMinCount hints
  cases narrowestHint hints with
  | none => simp
  | some narrowest =>
    simp only [Option.map_some, Option.getD_some]
    split_ifs <;> omega

theorem foldl_max_narrowest_forall₂ {ls ls' : List (List TopologyHint)} (reordered : List.Forall₂ List.Perm ls ls')
    (start : ℕ) :
    ls.foldl (fun maxOfMinCount hints =>
        max maxOfMinCount (((narrowestHint hints).map fun hint => count hint.mask).getD 0)) start =
      ls'.foldl (fun maxOfMinCount hints =>
        max maxOfMinCount (((narrowestHint hints).map fun hint => count hint.mask).getD 0)) start := by
  induction reordered generalizing start with
  | nil => rfl
  | cons perm _ ih =>
    simp only [List.foldl_cons]
    rw [narrowestHint_count_perm perm, ih]

theorem maxOfMinAffinityCounts_reordering {ls ls' : List (List TopologyHint)} (reordered : Reordering ls ls') :
    maxOfMinAffinityCounts ls = maxOfMinAffinityCounts ls' := by
  obtain ⟨mid, outer, inner⟩ := reordered
  rw [maxOfMinAffinityCounts_eq, maxOfMinAffinityCounts_eq, outer.foldl_eq' (fun _ _ _ _ _ => by omega) 0]
  exact foldl_max_narrowest_forall₂ inner 0

/-! ## The merge meets its specification -/

/-- For NUMA nodes in `0..63`, `mergeFilteredHints` returns the best merge of one hint per
provider, and the same for every order of the providers and of each provider's hints. -/
theorem mergeFilteredHints_best {numaNodes : List ℤ} (valid : ∀ n ∈ numaNodes, 0 ≤ n ∧ n < 64)
    (filteredHints : List (List TopologyHint)) :
    ∃ all hint, (∀ j : ℕ, all.toNat.testBit j = true ↔ (j : ℤ) ∈ numaNodes) ∧
      mergeFilteredHints numaNodes filteredHints = some hint ∧
      BestMerge all (maxOfMinAffinityCounts filteredHints) filteredHints hint ∧
      ∀ reordered, Reordering filteredHints reordered → mergeFilteredHints numaNodes reordered = some hint := by
  obtain ⟨all, created, bits⟩ := newBitMask_ok valid
  refine ⟨all, _, bits, mergeFilteredHints_eq created filteredHints, bestMerge_argmin all _ filteredHints,
    fun reordered reordering => ?_⟩
  rw [mergeFilteredHints_eq created, ← maxOfMinAffinityCounts_reordering reordering]
  have sameMerges : ∀ hint, hint ∈ mergedCandidates all reordered ↔ hint ∈ mergedCandidates all filteredHints :=
    fun hint => by rw [mem_mergedCandidates, mem_mergedCandidates, candidate_iff_of_reordering reordering]
  rw [argmin_eq_of_mem_iff _ sameMerges fun a member b member' same =>
    hintKey_inj _ (mem_mergedCandidates.mp member).isSome (mem_mergedCandidates.mp member').isSome same]

theorem mergeFilteredHints_best_two_nodes :
    (∀ n ∈ ([0, 1] : List ℤ), 0 ≤ n ∧ n < 64) ∧
      ∃ all hint, (∀ j : ℕ, all.toNat.testBit j = true ↔ (j : ℤ) ∈ ([0, 1] : List ℤ)) ∧
        mergeFilteredHints [0, 1] [[⟨some 1, true⟩, ⟨some 3, false⟩], [⟨none, true⟩]] = some hint ∧
        BestMerge all (maxOfMinAffinityCounts [[⟨some 1, true⟩, ⟨some 3, false⟩], [⟨none, true⟩]])
          [[⟨some 1, true⟩, ⟨some 3, false⟩], [⟨none, true⟩]] hint ∧
        ∀ reordered, Reordering [[⟨some 1, true⟩, ⟨some 3, false⟩], [⟨none, true⟩]] reordered →
          mergeFilteredHints [0, 1] reordered = some hint :=
  ⟨by decide, mergeFilteredHints_best (by decide) _⟩

/-- A NUMA node outside `0..63`: `NewBitMask` fails, and `bitmask.And` panics on its nil mask. -/
theorem mergeFilteredHints_panics_on_node_64 : mergeFilteredHints [64] [[⟨none, true⟩]] = none := by
  decide

end Kubernetes.Kubelet.TopologyManager
