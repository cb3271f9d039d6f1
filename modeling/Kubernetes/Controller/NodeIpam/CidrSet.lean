import Mathlib.Data.Finset.Card
import Mathlib.Tactic.Positivity
import Kubernetes.Library.Transition
import Kubernetes.Library.CyclicScan
import Kubernetes.Library.Prefix
import Kubernetes.Library.Outcome

/-! The node CIDR allocator of `pkg/controller/nodeipam/ipam/cidrset/cidr_set.go`.

A `CidrSet` cuts a cluster CIDR into `maxCIDRs` node blocks and tracks the used ones in
a bitmap, modelled by the finite set of its set bits. `maxCIDRs`, `allocatedCIDRs`,
`nextCandidate` and the loop bounds are Go `int`s. The results below take mask sizes within the
width of the cluster's family, where the block count `1 << uint32(d)` is not negative.
-/

set_option autoImplicit false

namespace Kubernetes.Controller.NodeIpam

open Kubernetes.Library

/-- `clusterSubnetMaxDiff`: the bitmap limit for IPv6 clusters. -/
def clusterSubnetMaxDiff : ℕ := 16

inductive CidrSetError where
  /-- `ErrCIDRRangeNoCIDRsRemaining`. -/
  | noCIDRsRemaining
  /-- `ErrCIDRSetSubNetTooBig`. -/
  | subNetTooBig
  /-- "cidr %v is out the range of cluster cidr %v". -/
  | outOfClusterRange (cidr : IPNet)
  /-- "CIDR: %v/%v is out of the range of CIDR allocator". -/
  | outOfAllocatorRange (ip nodeMaskSize : ℕ)
  /-- "invalid IP: %v", for the nil IP that masking by a nil mask gives. -/
  | invalidIP
  deriving DecidableEq, Repr

def CidrSetError.message : CidrSetError → String
  | .noCIDRsRemaining =>
    "CIDR allocation failed; there are no remaining CIDRs left to allocate in the accepted range"
  | .subNetTooBig => "New CIDR set failed; the node CIDR size is too big"
  | .outOfClusterRange _ => "cidr is out the range of cluster cidr"
  | .outOfAllocatorRange _ _ => "is out of the range of CIDR allocator"
  | .invalidIP => "invalid IP: <nil>"

structure CidrSet where
  clusterCIDR : IPNet
  clusterMaskSize : ℕ
  nodeMaskSize : ℕ
  maxCIDRs : ℤ
  allocatedCIDRs : ℤ
  nextCandidate : ℤ
  used : Finset ℕ
  deriving DecidableEq

/-- `1 << uint32(subNetMaskSize - clusterMaskSize)` as a 64-bit `int`: the count is taken
modulo `2 ^ 32`, a count of 63 reaches the sign bit and a larger one shifts the bit out. -/
def blockCount (clusterMaskSize subNetMaskSize : ℕ) : ℤ :=
  let count := ((subNetMaskSize : ℤ) - clusterMaskSize) % 2 ^ 32
  if count < 63 then 2 ^ count.toNat else if count = 63 then -2 ^ 63 else 0

def newCIDRSet (clusterCIDR : IPNet) (subNetMaskSize : ℕ) : Except CidrSetError CidrSet :=
  let clusterMaskSize := clusterCIDR.ones
  if clusterCIDR.family = .ipv6 ∧ clusterSubnetMaxDiff < subNetMaskSize - clusterMaskSize then
    .error .subNetTooBig
  else
    .ok { clusterCIDR, clusterMaskSize, nodeMaskSize := subNetMaskSize,
          maxCIDRs := blockCount clusterMaskSize subNetMaskSize,
          allocatedCIDRs := 0, nextCandidate := 0, used := ∅ }

/-- The probing loop of `AllocateNext`: at most `fuel` probes from `candidate`. -/
def scanCandidate (used : Finset ℕ) (maxCIDRs : ℤ) : ℕ → ℤ → ℤ
  | 0, candidate => candidate
  | fuel + 1, candidate =>
    if candidate.toNat ∉ used then candidate
    else scanCandidate used maxCIDRs fuel ((candidate + 1).tmod maxCIDRs)

namespace CidrSet

def indexToCIDRBlock (s : CidrSet) (index : ℕ) : IPNet :=
  match s.clusterCIDR.family with
  | .ipv4 =>
    let j := shiftLeftWord 32 (index % 2 ^ 32) (toUnsigned 32 (32 - s.nodeMaskSize))
    { family := .ipv4, ip := s.clusterCIDR.ip ||| j, ones := s.nodeMaskSize }
  | .ipv6 =>
    let leftClusterIP := s.clusterCIDR.ip / 2 ^ 64
    let rightClusterIP := s.clusterCIDR.ip % 2 ^ 64
    let index64 := index % 2 ^ 64
    let halves : ℕ × ℕ :=
      if s.nodeMaskSize ≤ 64 then
        (leftClusterIP ||| shiftLeftWord 64 index64 (toUnsigned 64 (64 - s.nodeMaskSize)), rightClusterIP)
      else
        -- the index straddles the halves when the cluster prefix ends in the left one
        let btl := toUnsigned 64 (s.nodeMaskSize - 64)
        let left :=
          if s.clusterMaskSize < 64 ∧ btl < Nat.size index64 then
            leftClusterIP ||| shiftRightWord 64 index64 btl
          else leftClusterIP
        (left, rightClusterIP ||| shiftLeftWord 64 index64 (toUnsigned 64 (128 - s.nodeMaskSize)))
    { family := .ipv6, ip := halves.1 * 2 ^ 64 + halves.2, ones := s.nodeMaskSize }

/-- `getIndexForIP`: the block index of an address, as an unsigned word compared with
`maxCIDRs` converted to the same width. -/
def getIndexForIP (s : CidrSet) (family : Family) (ip : ℕ) : Except CidrSetError ℤ :=
  match family with
  | .ipv4 =>
    let cidrIndex : ℕ :=
      shiftRightWord 32 ((s.clusterCIDR.ip ^^^ ip) % 2 ^ 32) (toUnsigned 32 (32 - s.nodeMaskSize))
    if (s.maxCIDRs % 2 ^ 32).toNat ≤ cidrIndex then .error (.outOfAllocatorRange ip s.nodeMaskSize)
    else .ok (cidrIndex : ℤ)
  | .ipv6 =>
    let cidrIndex : ℕ :=
      shiftRightWord 128 (s.clusterCIDR.ip ^^^ ip) (toUnsigned 64 (128 - s.nodeMaskSize)) % 2 ^ 64
    if (s.maxCIDRs % 2 ^ 64).toNat ≤ cidrIndex then .error (.outOfAllocatorRange ip s.nodeMaskSize)
    else .ok (cidrIndex : ℤ)

/-- `getBeginingAndEndIndices`: the block indices a CIDR overlaps. A CIDR of the other
family is contained in neither direction. -/
def getBeginingAndEndIndices (s : CidrSet) (cidr : IPNet) : Except CidrSetError (ℤ × ℤ) :=
  let bits := s.clusterCIDR.family.bits
  if cidr.family ≠ s.clusterCIDR.family ∨
      (!s.clusterCIDR.contains (maskBits bits s.clusterMaskSize cidr.ip) &&
        !cidr.contains (maskBits bits cidr.ones s.clusterCIDR.ip)) then
    .error (.outOfClusterRange cidr)
  else if s.clusterMaskSize < cidr.ones then
    -- past the width `net.CIDRMask` gives a nil node mask, and masking by it a nil IP
    if bits < s.nodeMaskSize then .error .invalidIP
    else do
      let begin ← s.getIndexForIP cidr.family (maskBits bits s.nodeMaskSize cidr.ip)
      let last ← s.getIndexForIP cidr.family (maskBits bits s.nodeMaskSize (fillBits bits cidr.ones cidr.ip))
      pure (begin, last)
  else .ok (0, s.maxCIDRs - 1)

/-- The indices of `for i := begin; i <= end; i++`. -/
def indexRange (begin last : ℤ) : List ℤ :=
  (List.range (last + 1 - begin).toNat).map fun k : ℕ => begin + k

/-- One iteration of `Occupy`: the counter changes only with the bit. -/
def occupyIndex (s : CidrSet) (i : ℤ) : CidrSet :=
  if i.toNat ∉ s.used then { s with used := insert i.toNat s.used, allocatedCIDRs := s.allocatedCIDRs + 1 }
  else s

/-- One iteration of `Release`. -/
def releaseIndex (s : CidrSet) (i : ℤ) : CidrSet :=
  if i.toNat ∈ s.used then { s with used := s.used.erase i.toNat, allocatedCIDRs := s.allocatedCIDRs - 1 }
  else s

def occupy (s : CidrSet) (cidr : IPNet) : Except CidrSetError Unit × CidrSet :=
  match s.getBeginingAndEndIndices cidr with
  | .error e => (.error e, s)
  | .ok (begin, last) => (.ok (), (indexRange begin last).foldl occupyIndex s)

def release (s : CidrSet) (cidr : IPNet) : Except CidrSetError Unit × CidrSet :=
  match s.getBeginingAndEndIndices cidr with
  | .error e => (.error e, s)
  | .ok (begin, last) => (.ok (), (indexRange begin last).foldl releaseIndex s)

/-- `AllocateNext`: the block of the first free candidate from `nextCandidate`. -/
def allocateNext (s : CidrSet) : Except CidrSetError IPNet × CidrSet :=
  if s.allocatedCIDRs = s.maxCIDRs then (.error .noCIDRsRemaining, s)
  else
    let candidate := scanCandidate s.used s.maxCIDRs s.maxCIDRs.toNat s.nextCandidate
    (.ok (s.indexToCIDRBlock candidate.toNat),
      { s with nextCandidate := (candidate + 1).tmod s.maxCIDRs,
               used := insert candidate.toNat s.used,
               allocatedCIDRs := s.allocatedCIDRs + 1 })

end CidrSet

inductive Operation where
  | allocateNext
  | occupy (cidr : IPNet)
  | release (cidr : IPNet)
  deriving DecidableEq

namespace CidrSet

def apply (s : CidrSet) : Operation → CidrSet
  | .allocateNext => s.allocateNext.2
  | .occupy cidr => (s.occupy cidr).2
  | .release cidr => (s.release cidr).2

/-- Runs of a set created by `NewCIDRSet`; every call is admitted. -/
def system (created : CidrSet) : System CidrSet Operation :=
  System.ofStep created (fun _ _ => True) apply

end CidrSet

/-! ## The representation invariant -/

theorem blockCount_nonneg {clusterMaskSize subNetMaskSize : ℕ}
    (notTooLong : (subNetMaskSize : ℤ) - clusterMaskSize ≤ 62)
    (notTooShort : (clusterMaskSize : ℤ) - subNetMaskSize ≤ 2 ^ 32 - 64) :
    0 ≤ blockCount clusterMaskSize subNetMaskSize := by
  unfold blockCount
  dsimp only
  split
  · positivity
  · split <;> omega

theorem newCIDRSet_maxCIDRs_nonneg {clusterCIDR : IPNet} {subNetMaskSize : ℕ} {created : CidrSet}
    (clusterFits : clusterCIDR.ones ≤ clusterCIDR.family.bits)
    (nodeFits : subNetMaskSize ≤ clusterCIDR.family.bits)
    (newed : newCIDRSet clusterCIDR subNetMaskSize = .ok created) : 0 ≤ created.maxCIDRs := by
  unfold newCIDRSet at newed
  dsimp only at newed
  split at newed
  · simp at newed
  · rename_i accepted
    simp only [Except.ok.injEq] at newed
    subst newed
    apply blockCount_nonneg
    · cases family : clusterCIDR.family with
      | ipv4 => simp only [family, Family.bits] at nodeFits; omega
      | ipv6 => simp only [family, clusterSubnetMaxDiff, true_and, not_lt] at accepted; omega
    · cases family : clusterCIDR.family <;> simp only [family, Family.bits] at clusterFits <;> omega

namespace CidrSet

/-- Counter, bitmap and cursor agree, and every set bit names a block. -/
structure Consistent (s : CidrSet) : Prop where
  nonneg : 0 ≤ s.maxCIDRs
  count : s.allocatedCIDRs = s.used.card
  inRange : ∀ i ∈ s.used, (i : ℤ) < s.maxCIDRs
  cursorNonneg : 0 ≤ s.nextCandidate
  cursorInRange : s.nextCandidate < s.maxCIDRs ∨ s.maxCIDRs = 0

theorem getIndexForIP_bounds {s : CidrSet} {family : Family} {ip : ℕ} {index : ℤ}
    (nonneg : 0 ≤ s.maxCIDRs) (found : s.getIndexForIP family ip = .ok index) :
    0 ≤ index ∧ index < s.maxCIDRs := by
  unfold getIndexForIP at found
  cases family with
  | ipv4 =>
    dsimp only at found
    split at found
    · simp at found
    · rename_i inRange
      simp only [Except.ok.injEq] at found
      omega
  | ipv6 =>
    dsimp only at found
    split at found
    · simp at found
    · rename_i inRange
      simp only [Except.ok.injEq] at found
      omega

theorem getBeginingAndEndIndices_bounds {s : CidrSet} {cidr : IPNet} {begin last : ℤ}
    (nonneg : 0 ≤ s.maxCIDRs) (found : s.getBeginingAndEndIndices cidr = .ok (begin, last)) :
    0 ≤ begin ∧ last < s.maxCIDRs := by
  unfold getBeginingAndEndIndices at found
  dsimp only at found
  split at found
  · simp at found
  · split at found
    · split at found
      · simp at found
      obtain ⟨first, beginFound, found⟩ := bind_eq_ok.mp found
      obtain ⟨second, lastFound, same⟩ := map_eq_ok.mp found
      obtain ⟨rfl, rfl⟩ := Prod.mk.inj same
      exact ⟨(getIndexForIP_bounds nonneg beginFound).1, (getIndexForIP_bounds nonneg lastFound).2⟩
    · simp only [Except.ok.injEq, Prod.mk.injEq] at found
      omega

theorem mem_indexRange {begin last i : ℤ} : i ∈ indexRange begin last ↔ begin ≤ i ∧ i ≤ last := by
  simp only [indexRange, List.mem_map, List.mem_range]
  constructor
  · rintro ⟨k, below, rfl⟩
    omega
  · rintro ⟨above, below⟩
    exact ⟨(i - begin).toNat, by omega, by omega⟩

@[simp] theorem occupyIndex_maxCIDRs (s : CidrSet) (i : ℤ) : (s.occupyIndex i).maxCIDRs = s.maxCIDRs := by
  unfold occupyIndex; split <;> rfl

@[simp] theorem releaseIndex_maxCIDRs (s : CidrSet) (i : ℤ) : (s.releaseIndex i).maxCIDRs = s.maxCIDRs := by
  unfold releaseIndex; split <;> rfl

theorem occupyIndex_consistent {s : CidrSet} (consistent : s.Consistent) {i : ℤ}
    (above : 0 ≤ i) (below : i < s.maxCIDRs) : (s.occupyIndex i).Consistent := by
  unfold occupyIndex
  split
  · rename_i absent
    obtain ⟨nonneg, count, inRange, cursorNonneg, cursorInRange⟩ := consistent
    refine ⟨nonneg, ?_, ?_, cursorNonneg, cursorInRange⟩
    · simp only [Finset.card_insert_of_notMem absent, count]
      push_cast
      rfl
    · intro j member
      rcases Finset.mem_insert.mp member with rfl | member
      · show ((i.toNat : ℕ) : ℤ) < s.maxCIDRs
        omega
      · exact inRange j member
  · exact consistent

theorem releaseIndex_consistent {s : CidrSet} (consistent : s.Consistent) (i : ℤ) :
    (s.releaseIndex i).Consistent := by
  unfold releaseIndex
  split
  · rename_i present
    obtain ⟨nonneg, count, inRange, cursorNonneg, cursorInRange⟩ := consistent
    have positive : 0 < s.used.card := Finset.card_pos.mpr ⟨_, present⟩
    refine ⟨nonneg, ?_, fun j member => inRange j (Finset.mem_of_mem_erase member),
      cursorNonneg, cursorInRange⟩
    simp only [Finset.card_erase_of_mem present, count]
    omega
  · exact consistent

theorem occupy_consistent {s : CidrSet} (consistent : s.Consistent) (cidr : IPNet) :
    (s.occupy cidr).2.Consistent := by
  unfold occupy
  split
  · exact consistent
  · rename_i begin last found
    obtain ⟨above, below⟩ := getBeginingAndEndIndices_bounds consistent.nonneg found
    have preserved := foldl_preserves occupyIndex
      (fun current => current.Consistent ∧ current.maxCIDRs = s.maxCIDRs) (indexRange begin last) s
      ⟨consistent, rfl⟩ (by
        rintro i member current ⟨currentConsistent, sameMax⟩
        obtain ⟨lo, hi⟩ := mem_indexRange.mp member
        exact ⟨occupyIndex_consistent currentConsistent (by omega) (by omega), by simp [sameMax]⟩)
    exact preserved.1

theorem release_consistent {s : CidrSet} (consistent : s.Consistent) (cidr : IPNet) :
    (s.release cidr).2.Consistent := by
  unfold release
  split
  · exact consistent
  · exact foldl_preserves releaseIndex Consistent _ s consistent
      fun i _ current currentConsistent => releaseIndex_consistent currentConsistent i

theorem scanCandidate_eq_advanceCursor (used : Finset ℕ) {length : ℕ} (positive : 0 < length) :
    ∀ (fuel cursor : ℕ), scanCandidate used length fuel cursor =
      (advanceCursor length (fun position => position ∉ used) fuel cursor : ℤ)
  | 0, cursor => rfl
  | fuel + 1, cursor => by
    simp only [scanCandidate, advanceCursor, Int.toNat_natCast, decide_eq_true_eq]
    split
    · rfl
    · rw [← Int.natCast_one, ← Int.natCast_add, ← Int.ofNat_tmod]
      exact scanCandidate_eq_advanceCursor used positive fuel _

theorem exists_free_block {s : CidrSet} (consistent : s.Consistent)
    (notFull : s.allocatedCIDRs ≠ s.maxCIDRs) :
    ∃ length : ℕ, s.maxCIDRs = length ∧ ∃ position < length, position ∉ s.used := by
  obtain ⟨length, sameLength⟩ := Int.eq_ofNat_of_zero_le consistent.nonneg
  refine ⟨length, sameLength, ?_⟩
  by_contra someFree
  have allUsed : ∀ position < length, position ∈ s.used := by
    simpa only [not_exists, not_and, not_not] using someFree
  have covered : Finset.range length ⊆ s.used := fun position member =>
    allUsed position (Finset.mem_range.mp member)
  have bounded : s.used ⊆ Finset.range length := fun position member =>
    Finset.mem_range.mpr (by have := consistent.inRange position member; omega)
  have sameCard : s.used.card = length := by
    have lower := Finset.card_le_card covered
    have upper := Finset.card_le_card bounded
    rw [Finset.card_range] at lower upper
    omega
  exact notFull (by rw [consistent.count, sameCard, sameLength])

theorem allocateNext_eq_of_not_full {s : CidrSet} (consistent : s.Consistent)
    (notFull : s.allocatedCIDRs ≠ s.maxCIDRs) :
    ∃ candidate : ℕ, (candidate : ℤ) < s.maxCIDRs ∧ candidate ∉ s.used ∧
      s.allocateNext = (.ok (s.indexToCIDRBlock candidate),
        { s with nextCandidate := ((candidate : ℤ) + 1).tmod s.maxCIDRs,
                 used := insert candidate s.used, allocatedCIDRs := s.allocatedCIDRs + 1 }) := by
  obtain ⟨length, sameLength, position, inRange, free⟩ := exists_free_block consistent notFull
  have positive : 0 < length := by omega
  obtain ⟨cursor, sameCursor⟩ := Int.eq_ofNat_of_zero_le consistent.cursorNonneg
  have cursorInRange : cursor < length := by
    rcases consistent.cursorInRange with below | empty <;> omega
  let free : ℕ → Bool := fun candidate => candidate ∉ s.used
  have picked : free (advanceCursor length free length cursor) = true :=
    advanceCursor_free cursorInRange ⟨position, inRange, by simpa [free]⟩
  have pickedInRange : advanceCursor length free length cursor < length :=
    advanceCursor_lt length cursorInRange
  have notFull' : s.allocatedCIDRs ≠ (length : ℤ) := sameLength ▸ notFull
  refine ⟨advanceCursor length free length cursor, by omega, by simpa [free] using picked, ?_⟩
  simp only [allocateNext, notFull', if_false, sameLength, sameCursor, Int.toNat_natCast,
    scanCandidate_eq_advanceCursor s.used positive]
  rfl

theorem allocateNext_consistent {s : CidrSet} (consistent : s.Consistent) : s.allocateNext.2.Consistent := by
  by_cases full : s.allocatedCIDRs = s.maxCIDRs
  · simpa [allocateNext, full] using consistent
  · obtain ⟨candidate, inRange, free, returned⟩ := allocateNext_eq_of_not_full consistent full
    rw [returned]
    obtain ⟨nonneg, count, used, cursorNonneg, -⟩ := consistent
    have positive : 0 < s.maxCIDRs := by omega
    refine ⟨nonneg, ?_, ?_, ?_, .inl ?_⟩
    · simp only [Finset.card_insert_of_notMem free, count]
      push_cast
      rfl
    · intro i member
      rcases Finset.mem_insert.mp member with rfl | member
      · exact inRange
      · exact used i member
    · rw [Int.tmod_eq_emod_of_nonneg (by omega)]
      exact Int.emod_nonneg _ (by omega)
    · rw [Int.tmod_eq_emod_of_nonneg (by omega)]
      exact Int.emod_lt_of_pos _ positive

theorem apply_consistent {s : CidrSet} (consistent : s.Consistent) (operation : Operation) :
    (s.apply operation).Consistent := by
  cases operation with
  | allocateNext => exact allocateNext_consistent consistent
  | occupy cidr => exact occupy_consistent consistent cidr
  | release cidr => exact release_consistent consistent cidr

theorem newCIDRSet_consistent {clusterCIDR : IPNet} {subNetMaskSize : ℕ} {created : CidrSet}
    (clusterFits : clusterCIDR.ones ≤ clusterCIDR.family.bits)
    (nodeFits : subNetMaskSize ≤ clusterCIDR.family.bits)
    (newed : newCIDRSet clusterCIDR subNetMaskSize = .ok created) : created.Consistent := by
  have nonneg := newCIDRSet_maxCIDRs_nonneg clusterFits nodeFits newed
  unfold newCIDRSet at newed
  dsimp only at newed
  split at newed
  · simp at newed
  · simp only [Except.ok.injEq] at newed
    subst newed
    exact ⟨nonneg, by simp, by simp, le_rfl, by dsimp only at nonneg ⊢; omega⟩

theorem allocateNext_error_iff {s : CidrSet} (consistent : s.Consistent) :
    s.allocateNext.1 = .error .noCIDRsRemaining ↔ ∀ i : ℕ, (i : ℤ) < s.maxCIDRs → i ∈ s.used := by
  constructor
  · intro exhausted
    by_cases full : s.allocatedCIDRs = s.maxCIDRs
    · intro i inRange
      by_contra free
      obtain ⟨length, sameLength⟩ := Int.eq_ofNat_of_zero_le consistent.nonneg
      have bounded : insert i s.used ⊆ Finset.range length := by
        intro position member
        rcases Finset.mem_insert.mp member with rfl | member
        · exact Finset.mem_range.mpr (by omega)
        · exact Finset.mem_range.mpr (by have := consistent.inRange position member; omega)
      have atMost := Finset.card_le_card bounded
      rw [Finset.card_insert_of_notMem free, Finset.card_range] at atMost
      have := consistent.count
      omega
    · obtain ⟨candidate, -, -, returned⟩ := allocateNext_eq_of_not_full consistent full
      rw [returned] at exhausted
      simp at exhausted
  · intro allUsed
    by_contra notExhausted
    have full : s.allocatedCIDRs ≠ s.maxCIDRs := fun full => notExhausted (by simp [allocateNext, full])
    obtain ⟨length, sameLength, position, inRange, free⟩ := exists_free_block consistent full
    exact free (allUsed position (by omega))

end CidrSet

/-! ## Whole runs -/

open CidrSet

/-- In every state a set made by `NewCIDRSet` reaches, the counter equals the number of
used blocks and every used bit is below `maxCIDRs`; `AllocateNext` reports exhaustion
exactly when every block is used, and otherwise hands out the block of an index that was
free and marks that index. -/
theorem cidrSet_allocation_sound {clusterCIDR : IPNet} {subNetMaskSize : ℕ} {created : CidrSet}
    (clusterFits : clusterCIDR.ones ≤ clusterCIDR.family.bits)
    (nodeFits : subNetMaskSize ≤ clusterCIDR.family.bits)
    (newed : newCIDRSet clusterCIDR subNetMaskSize = .ok created)
    {s : CidrSet} (reachable : (system created).Reachable s) :
    s.allocatedCIDRs = s.used.card ∧ (∀ i ∈ s.used, (i : ℤ) < s.maxCIDRs) ∧
      (s.allocateNext.1 = .error .noCIDRsRemaining ↔ ∀ i : ℕ, (i : ℤ) < s.maxCIDRs → i ∈ s.used) ∧
      ∀ block, s.allocateNext.1 = .ok block →
        ∃ candidate : ℕ, (candidate : ℤ) < s.maxCIDRs ∧ candidate ∉ s.used ∧
          block = s.indexToCIDRBlock candidate ∧ s.allocateNext.2.used = insert candidate s.used := by
  have consistent : s.Consistent := by
    refine System.Inductive.invariant ⟨?_, ?_⟩ s reachable
    · rintro state rfl
      exact newCIDRSet_consistent clusterFits nodeFits newed
    · rintro state operation next consistent ⟨-, rfl⟩
      exact apply_consistent consistent operation
  refine ⟨consistent.count, consistent.inRange, allocateNext_error_iff consistent, ?_⟩
  intro block returned
  by_cases full : s.allocatedCIDRs = s.maxCIDRs
  · simp [allocateNext, full] at returned
  · obtain ⟨candidate, inRange, free, allocated⟩ := allocateNext_eq_of_not_full consistent full
    rw [allocated] at returned ⊢
    simp only [Except.ok.injEq] at returned
    exact ⟨candidate, inRange, free, returned.symm, rfl⟩

/-- `NewCIDRSet(10.0.0.0/24, 26)`, then `AllocateNext`, `Occupy(10.0.0.128/26)` and
`Release(10.0.0.0/26)`: of the four blocks only block 2 is left in use. -/
theorem cidrSet_allocation_sound_ten_slash_24 :
    let cluster : IPNet := ⟨.ipv4, 167772160, 24⟩
    let created : CidrSet := ⟨cluster, 24, 26, 4, 0, 0, ∅⟩
    let s := System.run apply created
      [.allocateNext, .occupy ⟨.ipv4, 167772288, 26⟩, .release ⟨.ipv4, 167772160, 26⟩]
    cluster.ones ≤ cluster.family.bits ∧ 26 ≤ cluster.family.bits ∧
      newCIDRSet cluster 26 = .ok created ∧ s = ⟨cluster, 24, 26, 4, 1, 1, {2}⟩ ∧
      (s.allocatedCIDRs = s.used.card ∧ (∀ i ∈ s.used, (i : ℤ) < s.maxCIDRs) ∧
        (s.allocateNext.1 = .error .noCIDRsRemaining ↔ ∀ i : ℕ, (i : ℤ) < s.maxCIDRs → i ∈ s.used) ∧
        ∀ block, s.allocateNext.1 = .ok block →
          ∃ candidate : ℕ, (candidate : ℤ) < s.maxCIDRs ∧ candidate ∉ s.used ∧
            block = s.indexToCIDRBlock candidate ∧ s.allocateNext.2.used = insert candidate s.used) :=
  ⟨by decide, by decide, rfl, by decide,
    @cidrSet_allocation_sound ⟨.ipv4, 167772160, 24⟩ 26 _ (by decide) (by decide) rfl _
      (System.reachable_of_run _ ⟨trivial, trivial, trivial, trivial⟩)⟩

end Kubernetes.Controller.NodeIpam
