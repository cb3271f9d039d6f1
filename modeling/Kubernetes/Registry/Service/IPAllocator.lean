import Kubernetes.Library.Prefix
import Kubernetes.Registry.Allocator.Bitmap

/-! The IP range of `pkg/registry/core/service/ipallocator`: the addresses of a service CIDR
that can be handed out, each stored as an offset of an allocation bitmap.

An address is the integer of its family (`Library.Prefix`), and `netutils.BigForIP`,
`AddIPOffset` and `GetIndexedIP` are integer arithmetic on it. `calculateIPOffset` converts
the difference with `big.Int.Int64`, which keeps the low 64 bits. The range is built over the
in-memory bitmap of `NewInMemory`; the metrics are left out.
-/

set_option autoImplicit false

namespace Kubernetes.Registry.Service.IPAllocator

open Kubernetes.Library Kubernetes.Registry.Allocator

/-- `netutils.RangeSize`: the number of addresses of the subnet, none for the IPv4 /31 and
/32 and the IPv6 /127 and /128, and `math.MaxInt64` where the count would overflow. -/
def rangeSize (cidr : IPNet) : ℤ :=
  let bits := cidr.family.bits
  if bits = 32 ∧ bits - cidr.ones ≥ 31 ∨ bits = 128 ∧ bits - cidr.ones ≥ 127 then 0
  else if bits - cidr.ones ≥ 63 then 2 ^ 63 - 1
  else 2 ^ (bits - cidr.ones)

/-- `calculateRangeOffset`: `min(max(16, cidrSize/16), 256)`, or 0 for fewer than 16
addresses. -/
def calculateRangeOffset (cidr : IPNet) : ℤ :=
  let cidrSize := rangeSize cidr
  if cidrSize < 16 then 0
  else
    let offset := cidrSize / 16
    if offset < 16 then 16
    else if offset > 256 then 256
    else offset

def maximum (a b : ℤ) : ℤ := if a > b then a else b

structure Range where
  net : IPNet
  /-- The address of offset 0, one past the network address. -/
  base : ℕ
  max : ℕ
  family : Family
  alloc : AllocationBitmap
  deriving DecidableEq

/-- `New` over the bitmap of `NewInMemory`; `rangeSpec` is `cidr.String()`. -/
def new (cidr : IPNet) (rangeSpec : String) (serviceIPStaticSubrange : Bool) : Range :=
  let size := rangeSize cidr
  let size := match cidr.family with
    -- the bitmap of an IPv6 range has at most 65536 bits
    | .ipv6 => if size > 65536 then 65536 else size
    -- the IPv4 broadcast address is never handed out
    | .ipv4 => size - 1
  -- nor is the network address
  let size := size - 1
  let max := (maximum 0 size).toNat
  let offset := if serviceIPStaticSubrange then calculateRangeOffset cidr else 0
  { net := cidr, base := cidr.ip + 1, max, family := cidr.family,
    alloc := newAllocationMapWithOffset max rangeSpec offset.toNat }

/-- `calculateIPOffset`: `big.Int.Int64` of the difference. -/
def calculateIPOffset (base ip : ℕ) : ℤ := (Int64.ofInt ((ip : ℤ) - base)).toInt

def addIPOffset (base offset : ℕ) : ℕ := base + offset

/-- `netutils.GetIndexedIP`: the address `index` past the subnet's, if the subnet contains it. -/
def getIndexedIP (subnet : IPNet) (index : ℕ) : Option ℕ :=
  let ip := addIPOffset subnet.ip index
  if subnet.contains ip then some ip else none

/-- The errors of `Allocate` and `AllocateNext`: `ErrNotInRange` with the address and the
valid range, `ErrAllocated`, `ErrFull`, and an error of the bitmap. -/
inductive RangeError where
  | notInRange (ip : ℕ) (validRange : String)
  | allocated
  | full
  | bitmap (message : String)
  deriving DecidableEq, Repr

def errMismatchedNetwork : String := "the provided network does not match the current range"

namespace Range

/-- `contains`: whether the address is in the range, and its offset. -/
def contains (r : Range) (ip : ℕ) : Bool × ℕ :=
  if !r.net.contains ip then (false, 0)
  else
    let offset := calculateIPOffset r.base ip
    if offset < 0 ∨ offset ≥ r.max then (false, 0) else (true, offset.toNat)

/-- `allocate(ip, false)`. The valid range of the error is `r.net.String()`, the text New
gave the bitmap as its range. -/
def allocate (r : Range) (ip : ℕ) : Except RangeError Range :=
  let found := r.contains ip
  if !found.1 then .error (.notInRange ip r.alloc.rangeSpec)
  else
    match r.alloc.allocate found.2 with
    | (.error message, _) => .error (.bitmap message)
    | (.ok false, _) => .error .allocated
    | (.ok true, alloc) => .ok { r with alloc }

/-- `allocateNext(false)`: the address of the offset the bitmap picks, or `ErrFull`; `none`
is a panic of the bitmap's strategy. -/
def allocateNext (r : Range) (draws : Draws) : Option (Except RangeError ℕ) × Range :=
  match r.alloc.allocateNext draws with
  | (some (offset, true), alloc) => (some (.ok (addIPOffset r.base offset)), { r with alloc })
  | (some (_, false), alloc) => (some (.error .full), { r with alloc })
  | (none, alloc) => (none, { r with alloc })

/-- `release(ip, false)`: an address out of the range is ignored. -/
def release (r : Range) (ip : ℕ) : Range :=
  let found := r.contains ip
  if !found.1 then r else { r with alloc := r.alloc.release found.2 }

def has (r : Range) (ip : ℕ) : Bool :=
  let found := r.contains ip
  if !found.1 then false else r.alloc.has found.2

/-- `ForEach`: the address of each allocated offset in increasing order, nil where the
subnet does not contain it. -/
def forEach (r : Range) : List (Option ℕ) :=
  (bitmapOf r.alloc.allocated).bitIndices.map fun offset => getIndexedIP r.net (offset + 1)

/-- `Restore`: a snapshot of another network is refused. -/
def restore (r : Range) (net : IPNet) (data : List UInt8) : Except String Range :=
  if net ≠ r.net then .error errMismatchedNetwork
  else
    match r.alloc.restore r.alloc.rangeSpec data with
    | (.error message, _) => .error ("restoring snapshot encountered " ++ message)
    | (.ok (), alloc) => .ok { r with alloc }

end Range

/-! ## Runs of one range -/

inductive Operation where
  | allocate (ip : ℕ)
  | allocateNext (draws : Draws)
  | release (ip : ℕ)
  | restore (net : IPNet) (data : List UInt8)
  deriving DecidableEq

namespace Range

/-- A failed call leaves the range as it was. -/
def apply (r : Range) : Operation → Range
  | .allocate ip => match r.allocate ip with
    | .ok next => next
    | .error _ => r
  | .allocateNext draws => (r.allocateNext draws).2
  | .release ip => r.release ip
  | .restore net data => match r.restore net data with
    | .ok next => next
    | .error _ => r

/-- Only the random draws are constrained, as in the bitmap's runs. -/
def Admissible (r : Range) : Operation → Prop
  | .allocateNext draws => draws.Valid r.alloc.max r.alloc.offset
  | _ => True

end Range

def system (cidr : IPNet) (rangeSpec : String) (serviceIPStaticSubrange : Bool) : System Range Operation :=
  System.ofStep (new cidr rangeSpec serviceIPStaticSubrange) Range.Admissible Range.apply

/-! ## The size of a range and its static subrange -/

section Size

variable (cidr : IPNet) (rangeSpec : String)

theorem rangeSize_nonneg : 0 ≤ rangeSize cidr := by
  dsimp only [rangeSize]
  split_ifs <;> positivity

theorem rangeSize_le : rangeSize cidr ≤ 2 ^ (cidr.family.bits - cidr.ones) := by
  dsimp only [rangeSize]
  split_ifs with special overflow
  · positivity
  · calc (2 : ℤ) ^ 63 - 1 ≤ 2 ^ 63 := by norm_num
      _ ≤ 2 ^ (cidr.family.bits - cidr.ones) := pow_le_pow_right₀ (by norm_num) overflow
  · exact le_rfl

theorem rangeSize_cases (notSixteen : cidr.family.bits - cidr.ones ≠ 4) :
    rangeSize cidr < 16 ∨ 32 ≤ rangeSize cidr := by
  dsimp only [rangeSize]
  split_ifs with special overflow
  · exact .inl (by norm_num)
  · exact .inr (by norm_num)
  · rcases Nat.lt_or_gt_of_ne notSixteen with small | large
    · left
      calc (2 : ℤ) ^ (cidr.family.bits - cidr.ones) < 2 ^ 4 := pow_lt_pow_right₀ (by norm_num) small
        _ = 16 := by norm_num
    · right
      calc (32 : ℤ) = 2 ^ 5 := by norm_num
        _ ≤ 2 ^ (cidr.family.bits - cidr.ones) := pow_le_pow_right₀ (by norm_num) large

theorem rangeSize_of_sixteen (sixteen : cidr.family.bits - cidr.ones = 4) : rangeSize cidr = 16 := by
  simp [rangeSize, sixteen]

theorem new_max_lt (static : Bool) :
    (new cidr rangeSpec static).max < 2 ^ (cidr.family.bits - cidr.ones) := by
  have nonneg := rangeSize_nonneg cidr
  have bounded := rangeSize_le cidr
  have positive : (0 : ℤ) < 2 ^ (cidr.family.bits - cidr.ones) := by positivity
  zify
  simp only [new, maximum]
  generalize rangeSize cidr = size at nonneg bounded
  generalize (2 : ℤ) ^ (cidr.family.bits - cidr.ones) = count at positive bounded ⊢
  split <;> split_ifs <;> omega

theorem new_max_of_ipv4 (static : Bool) (ipv4 : cidr.family = .ipv4) :
    (new cidr rangeSpec static).max + 2 ≤ 2 ^ (cidr.family.bits - cidr.ones) ∨
      (new cidr rangeSpec static).max = 0 := by
  have bounded := rangeSize_le cidr
  zify
  generalize (2 : ℤ) ^ (cidr.family.bits - cidr.ones) = count at bounded ⊢
  simp only [new, maximum, ipv4]
  generalize rangeSize cidr = size at bounded
  split_ifs <;> omega

theorem calculateRangeOffset_fits_iff :
    (calculateRangeOffset cidr = 0 ∨ calculateRangeOffset cidr < (new cidr rangeSpec true).max) ↔
      cidr.family.bits - cidr.ones ≠ 4 := by
  by_cases sixteen : cidr.family.bits - cidr.ones = 4
  · -- an offset of 16 over 14 addresses (IPv4) or 15 (IPv6)
    have size := rangeSize_of_sixteen cidr sixteen
    simp only [sixteen, ne_eq, not_true_eq_false, iff_false, not_or]
    simp only [calculateRangeOffset, new, size, maximum]
    cases cidr.family <;> norm_num
  · simp only [sixteen, ne_eq, not_false_eq_true, iff_true]
    have size := rangeSize_cases cidr sixteen
    simp only [calculateRangeOffset, new, maximum]
    generalize rangeSize cidr = cidrSize at size
    cases cidr.family <;> simp only <;> split_ifs <;> omega

end Size

/-! ## Runs change only the bitmap -/

section Runs

variable (cidr : IPNet) (rangeSpec : String) (static : Bool)

@[simp] theorem new_net : (new cidr rangeSpec static).net = cidr := rfl

@[simp] theorem new_base : (new cidr rangeSpec static).base = cidr.ip + 1 := rfl

@[simp] theorem new_alloc_max : (new cidr rangeSpec static).alloc.max = (new cidr rangeSpec static).max := rfl

namespace Range

variable {cidr rangeSpec static}

theorem allocate_eq_ok {r r' : Range} {ip : ℕ} (allocated : r.allocate ip = .ok r') :
    ∃ k, r.contains ip = (true, k) ∧ (r.alloc.allocate k).1 = .ok true ∧
      r' = { r with alloc := (r.alloc.allocate k).2 } := by
  dsimp only [allocate] at allocated
  split_ifs at allocated with outside
  split at allocated
  · cases allocated
  · cases allocated
  next alloc returned =>
    cases allocated
    refine ⟨(r.contains ip).2, Prod.ext ?_ rfl, by rw [returned], by rw [returned]⟩
    simpa using outside

theorem allocateNext_snd (r : Range) (draws : Draws) :
    (r.allocateNext draws).2 = { r with alloc := (r.alloc.allocateNext draws).2 } := by
  unfold allocateNext
  split <;> rename_i returned <;> rw [returned]

theorem allocateNext_fst_eq_none (r : Range) (draws : Draws) :
    (r.allocateNext draws).1 = none ↔ (r.alloc.allocateNext draws).1 = none := by
  unfold allocateNext
  split <;> rename_i returned <;> simp [returned]

theorem allocateNext_eq_ok {r r' : Range} {draws : Draws} {ip : ℕ}
    (handed : r.allocateNext draws = (some (.ok ip), r')) :
    ∃ k, k < r.alloc.max ∧ ip = addIPOffset r.base k := by
  unfold allocateNext at handed
  split at handed
  next k alloc returned =>
    obtain ⟨picked, -⟩ := AllocationBitmap.allocateNext_found returned
    obtain ⟨-, upper | lower⟩ := allocateBit_found picked
    · exact ⟨k, upper.2.1, by simp_all⟩
    · exact ⟨k, by omega, by simp_all⟩
  · simp at handed
  · simp at handed

theorem apply_cases (r : Range) (operation : Operation) (admissible : r.Admissible operation) :
    r.apply operation = r ∨
      ∃ step, r.alloc.Admissible step ∧ r.apply operation = { r with alloc := r.alloc.apply step } := by
  cases operation with
  | allocate ip =>
    dsimp only [apply]
    split
    next next allocated =>
      obtain ⟨k, -, -, rfl⟩ := allocate_eq_ok allocated
      exact .inr ⟨.allocate k, trivial, rfl⟩
    · exact .inl rfl
  | allocateNext draws => exact .inr ⟨.allocateNext draws, admissible, allocateNext_snd r draws⟩
  | release ip =>
    dsimp only [apply, release]
    split
    · exact .inl rfl
    · exact .inr ⟨.release (r.contains ip).2, trivial, rfl⟩
  | restore net data =>
    dsimp only [apply, restore]
    split_ifs
    · exact .inl rfl
    · -- a snapshot of the same network, which the bitmap takes or refuses
      rcases returned : r.alloc.restore r.alloc.rangeSpec data with ⟨result, alloc⟩
      cases result with
      | error message => exact .inl rfl
      | ok _ =>
        refine .inr ⟨.restore r.alloc.rangeSpec data, trivial, ?_⟩
        simp only [AllocationBitmap.apply, returned]

end Range

/-- A state of a range: New's range over a reachable state of its bitmap. -/
def Built (r : Range) : Prop :=
  ∃ alloc, r = { new cidr rangeSpec static with alloc } ∧
    (AllocationBitmap.system (new cidr rangeSpec static).max rangeSpec
      (new cidr rangeSpec static).alloc.offset).Reachable alloc

theorem built_invariant : (system cidr rangeSpec static).Invariant (Built cidr rangeSpec static) := by
  apply System.Inductive.invariant
  constructor
  · rintro r rfl
    exact ⟨_, rfl, .init rfl⟩
  · rintro r operation next ⟨alloc, rfl, reachable⟩ ⟨admissible, rfl⟩
    rcases Range.apply_cases _ operation admissible with same | ⟨step, allowed, stepped⟩
    · rw [same]
      exact ⟨alloc, rfl, reachable⟩
    · rw [stepped]
      exact ⟨_, rfl, .step step reachable ⟨allowed, rfl⟩⟩

/-- Outside sixteen addresses, `AllocateNext` is defined in every state of a range with a
static subrange: the bitmap's upper block is not empty, or the range has no address at all. -/
theorem allocateNext_defined (notSixteen : cidr.family.bits - cidr.ones ≠ 4) {r : Range}
    (reachable : (system cidr rangeSpec true).Reachable r) (draws : Draws) :
    (r.allocateNext draws).1 ≠ none := by
  obtain ⟨alloc, rfl, allocReachable⟩ := built_invariant cidr rangeSpec true r reachable
  rw [Ne, Range.allocateNext_fst_eq_none]
  have fits := (calculateRangeOffset_fits_iff cidr rangeSpec).mpr notSixteen
  have offset : (new cidr rangeSpec true).alloc.offset = (calculateRangeOffset cidr).toNat := rfl
  by_cases inRange : (new cidr rangeSpec true).alloc.offset < (new cidr rangeSpec true).max
  · exact AllocationBitmap.allocateNext_never_panics inRange allocReachable draws
  · -- the offset is 0 and so is the size: the bitmap is full from the start
    have empty : (new cidr rangeSpec true).max = 0 := by omega
    obtain ⟨sameMax, -, sameOffset⟩ := AllocationBitmap.configured_invariant _ _ _ alloc allocReachable
    have consistent := AllocationBitmap.countConsistent_of_offset_le_one (by omega) alloc allocReachable
    have full : (alloc.max : ℤ) ≤ alloc.count := by
      rw [sameMax, empty, consistent]
      exact Int.natCast_nonneg _
    rw [AllocationBitmap.allocateNext_of_full full]
    simp

/-- A /24 with a static subrange, after one address was handed out. -/
theorem allocateNext_defined_slash_24 :
    let cidr : IPNet := ⟨.ipv4, 167772160, 24⟩
    let r := System.run Range.apply (new cidr "10.0.0.0/24" true) [.allocateNext ⟨3, 1⟩]
    cidr.family.bits - cidr.ones ≠ 4 ∧ (system cidr "10.0.0.0/24" true).Reachable r ∧
      (r.allocateNext ⟨200, 5⟩).1 ≠ none := by
  intro cidr r
  have reachable : (system cidr "10.0.0.0/24" true).Reachable r :=
    System.reachable_of_run _ ⟨by unfold Range.Admissible; decide, trivial⟩
  exact ⟨by decide, reachable, allocateNext_defined cidr "10.0.0.0/24" (by decide) reachable _⟩

end Runs

/-! ## Addresses and offsets of a service range -/

/-- A service CIDR as the apiserver takes it: the network address of a prefix, which
`net.ParseCIDR` returns, with at most 20 host bits (`validateMaxCIDRRange`). -/
structure ServiceCIDR where
  toIPNet : IPNet
  masked : maskBits toIPNet.family.bits toIPNet.ones toIPNet.ip = toIPNet.ip
  hostBits_le : toIPNet.family.bits - toIPNet.ones ≤ 20

theorem calculateIPOffset_of_fits {base ip : ℕ} (low : -2 ^ 63 ≤ (ip : ℤ) - base)
    (high : (ip : ℤ) - base < 2 ^ 63) : calculateIPOffset base ip = ip - base := by
  rw [calculateIPOffset, Int64.toInt_ofInt]
  apply Int.bmod_eq_of_le
  · norm_num [Int64.size]
    linarith
  · norm_num [Int64.size]
    linarith

section ServiceRange

variable (cidr : ServiceCIDR) (rangeSpec : String) (static : Bool)

theorem new_contains_eq_true_iff (ip k : ℕ) :
    (new cidr.toIPNet rangeSpec static).contains ip = (true, k) ↔
      cidr.toIPNet.ip < ip ∧ k = ip - (cidr.toIPNet.ip + 1) ∧ k < (new cidr.toIPNet rangeSpec static).max := by
  have below := new_max_lt cidr.toIPNet rangeSpec static
  have small : 2 ^ (cidr.toIPNet.family.bits - cidr.toIPNet.ones) ≤ 2 ^ 20 :=
    Nat.pow_le_pow_right (by norm_num) cidr.hostBits_le
  have within := IPNet.contains_iff cidr.masked ip
  rw [Range.contains, new_net, new_base]
  generalize (new cidr.toIPNet rangeSpec static).max = max at below ⊢
  generalize 2 ^ (cidr.toIPNet.family.bits - cidr.toIPNet.ones) = count at below small within
  by_cases inside : cidr.toIPNet.contains ip = true
  · -- an address of the CIDR is at most 2^20 from the base, so its offset is exact
    have bounds := within.mp inside
    have offset : calculateIPOffset (cidr.toIPNet.ip + 1) ip = ip - (cidr.toIPNet.ip + 1 : ℤ) := by
      apply calculateIPOffset_of_fits <;> push_cast <;> omega
    simp only [inside, Bool.not_true, Bool.false_eq_true, if_false, offset]
    split_ifs with outside
    · simp only [Prod.mk.injEq, Bool.false_eq_true, false_and, false_iff]
      omega
    · simp only [Prod.mk.injEq, true_and]
      omega
  · -- an address past the range is past the CIDR
    simp only [inside, Bool.not_false, if_true, Prod.mk.injEq, Bool.false_eq_true, false_and, false_iff]
    intro ⟨after, offset, inRange⟩
    exact inside (within.mpr (by omega))

theorem new_contains_ne_broadcast {ip k : ℕ} (contained : (new cidr.toIPNet rangeSpec static).contains ip = (true, k))
    (ipv4 : cidr.toIPNet.family = .ipv4) :
    ip ≠ fillBits cidr.toIPNet.family.bits cidr.toIPNet.ones cidr.toIPNet.ip := by
  obtain ⟨after, offset, inRange⟩ := (new_contains_eq_true_iff cidr rangeSpec static ip k).mp contained
  have size := new_max_of_ipv4 cidr.toIPNet rangeSpec static ipv4
  rw [fillBits_of_masked cidr.masked]
  omega

theorem new_contains_addIPOffset {k : ℕ} (inRange : k < (new cidr.toIPNet rangeSpec static).max) :
    (new cidr.toIPNet rangeSpec static).contains (addIPOffset (new cidr.toIPNet rangeSpec static).base k) =
      (true, k) := by
  rw [new_contains_eq_true_iff, new_base, addIPOffset]
  omega

theorem getIndexedIP_succ {k : ℕ} (inRange : k < (new cidr.toIPNet rangeSpec static).max) :
    getIndexedIP cidr.toIPNet (k + 1) = some (addIPOffset (cidr.toIPNet.ip + 1) k) := by
  have below := new_max_lt cidr.toIPNet rangeSpec static
  have inside : cidr.toIPNet.contains (addIPOffset cidr.toIPNet.ip (k + 1)) = true := by
    rw [IPNet.contains_iff cidr.masked, addIPOffset]
    omega
  rw [getIndexedIP, if_pos inside, addIPOffset, addIPOffset]
  congr 1
  omega

theorem contains_of_handed_out {s : Range} (reachable : (system cidr.toIPNet rangeSpec static).Reachable s)
    {ip : ℕ} (handed : (∃ s', s.allocate ip = .ok s') ∨ ∃ draws s', s.allocateNext draws = (some (.ok ip), s')) :
    ∃ k, (new cidr.toIPNet rangeSpec static).contains ip = (true, k) := by
  obtain ⟨alloc, rfl, allocReachable⟩ := built_invariant cidr.toIPNet rangeSpec static s reachable
  rcases handed with ⟨s', allocated⟩ | ⟨draws, s', picked⟩
  · obtain ⟨k, contained, -⟩ := Range.allocate_eq_ok allocated
    exact ⟨k, contained⟩
  · obtain ⟨k, inRange, rfl⟩ := Range.allocateNext_eq_ok picked
    obtain ⟨sameMax, -, -⟩ := AllocationBitmap.configured_invariant _ _ _ alloc allocReachable
    exact ⟨k, new_contains_addIPOffset cidr rangeSpec static (sameMax ▸ inRange)⟩

end ServiceRange

theorem Range.has_of_allocate {r r' : Range} {ip : ℕ} (allocated : r.allocate ip = .ok r') : r'.has ip = true := by
  obtain ⟨k, contained, taken, rfl⟩ := Range.allocate_eq_ok allocated
  have same : ({ r with alloc := (r.alloc.allocate k).2 } : Range).contains ip = (true, k) := contained
  simp [Range.has, same, AllocationBitmap.has, AllocationBitmap.allocate_mem taken]

/-- In a service range the offsets `[0, max)` are the addresses strictly between the network
address and the IPv4 broadcast address, read the same way by `contains`, `AllocateNext` and
`ForEach`. So an address `Allocate` takes is `Has`, and no call hands out the network or the
IPv4 broadcast address. -/
theorem service_range_offsets_match_addresses (cidr : ServiceCIDR) (rangeSpec : String) (static : Bool) :
    let r := new cidr.toIPNet rangeSpec static
    let broadcast := fillBits cidr.toIPNet.family.bits cidr.toIPNet.ones cidr.toIPNet.ip
    (∀ ip k, r.contains ip = (true, k) ↔
        cidr.toIPNet.ip < ip ∧ ¬(cidr.toIPNet.family = .ipv4 ∧ ip = broadcast) ∧
          k = ip - (cidr.toIPNet.ip + 1) ∧ k < r.max) ∧
      (∀ k < r.max, getIndexedIP cidr.toIPNet (k + 1) = some (addIPOffset r.base k) ∧
        r.contains (addIPOffset r.base k) = (true, k)) ∧
      ∀ s, (system cidr.toIPNet rangeSpec static).Reachable s →
        (∀ ip s', s.allocate ip = .ok s' → s'.has ip = true) ∧
        ∀ ip, ((∃ s', s.allocate ip = .ok s') ∨ ∃ draws s', s.allocateNext draws = (some (.ok ip), s')) →
          ip ≠ cidr.toIPNet.ip ∧ ¬(cidr.toIPNet.family = .ipv4 ∧ ip = broadcast) := by
  intro r broadcast
  have contains_iff : ∀ ip k, r.contains ip = (true, k) ↔
      cidr.toIPNet.ip < ip ∧ ¬(cidr.toIPNet.family = .ipv4 ∧ ip = broadcast) ∧
        k = ip - (cidr.toIPNet.ip + 1) ∧ k < r.max := by
    intro ip k
    constructor
    · intro contained
      obtain ⟨after, offset, inRange⟩ := (new_contains_eq_true_iff cidr rangeSpec static ip k).mp contained
      exact ⟨after, fun ⟨ipv4, last⟩ => new_contains_ne_broadcast cidr rangeSpec static contained ipv4 last,
        offset, inRange⟩
    · rintro ⟨after, -, offset, inRange⟩
      exact (new_contains_eq_true_iff cidr rangeSpec static ip k).mpr ⟨after, offset, inRange⟩
  refine ⟨contains_iff, fun k inRange => ⟨getIndexedIP_succ cidr rangeSpec static inRange,
    new_contains_addIPOffset cidr rangeSpec static inRange⟩, fun s reachable => ⟨?_, ?_⟩⟩
  · intro ip s' allocated
    exact Range.has_of_allocate allocated
  · intro ip handed
    obtain ⟨k, contained⟩ := contains_of_handed_out cidr rangeSpec static reachable handed
    obtain ⟨after, notBroadcast, -⟩ := (contains_iff ip k).mp contained
    exact ⟨Nat.ne_of_gt after, notBroadcast⟩

theorem new_max_le_of_ipv6 (cidr : IPNet) (rangeSpec : String) (static : Bool) (ipv6 : cidr.family = .ipv6) :
    (new cidr rangeSpec static).max ≤ 65535 := by
  simp only [new, maximum, ipv6]
  split_ifs <;> omega

/-- Past 64 host bits `calculateIPOffset` wraps: the address 2^64 past an address of the range
has the same offset, so without the bound of a service CIDR `contains` confuses the two. -/
theorem contains_wraps_past_int64 (cidr : IPNet) (rangeSpec : String) (static : Bool)
    (masked : maskBits cidr.family.bits cidr.ones cidr.ip = cidr.ip) (wide : 65 ≤ cidr.family.bits - cidr.ones)
    {k : ℕ} (inRange : k < (new cidr rangeSpec static).max) :
    (new cidr rangeSpec static).contains (addIPOffset (new cidr rangeSpec static).base k + 2 ^ 64) = (true, k) := by
  have ipv6 : cidr.family = .ipv6 := by
    cases family : cidr.family with
    | ipv4 =>
      rw [family, Family.bits] at wide
      omega
    | ipv6 => rfl
  have small := new_max_le_of_ipv6 cidr rangeSpec static ipv6
  have large : 2 ^ 65 ≤ 2 ^ (cidr.family.bits - cidr.ones) := Nat.pow_le_pow_right (by norm_num) wide
  have inside : cidr.contains (cidr.ip + 1 + k + 2 ^ 64) = true := by
    rw [IPNet.contains_iff masked]
    omega
  have offset : calculateIPOffset (cidr.ip + 1) (cidr.ip + 1 + k + 2 ^ 64) = k := by
    have difference : ((cidr.ip + 1 + k + 2 ^ 64 : ℕ) : ℤ) - ((cidr.ip + 1 : ℕ) : ℤ) = k + (Int64.size : ℕ) := by
      push_cast [Int64.size]
      ring
    rw [calculateIPOffset, Int64.toInt_ofInt, difference, Int.add_bmod_right]
    apply Int.bmod_eq_of_le
    · norm_num [Int64.size]
    · norm_num [Int64.size]
      omega
  rw [Range.contains, new_net, new_base, addIPOffset, if_neg (by rw [inside]; decide), offset]
  dsimp only
  rw [if_neg (by omega)]
  simp

/-- In fd00::/48 the address 2^64 past the first one of the range reads as offset 0. -/
theorem contains_wraps_past_int64_fd00 :
    let cidr : IPNet := ⟨.ipv6, 0xfd00 * 2 ^ 112, 48⟩
    maskBits cidr.family.bits cidr.ones cidr.ip = cidr.ip ∧ 65 ≤ cidr.family.bits - cidr.ones ∧
      0 < (new cidr "fd00::/48" false).max ∧
      (new cidr "fd00::/48" false).contains (addIPOffset (new cidr "fd00::/48" false).base 0 + 2 ^ 64) = (true, 0) := by
  intro cidr
  have masked : maskBits cidr.family.bits cidr.ones cidr.ip = cidr.ip := by decide
  have wide : 65 ≤ cidr.family.bits - cidr.ones := by decide
  have inRange : 0 < (new cidr "fd00::/48" false).max := by decide
  exact ⟨masked, wide, inRange, contains_wraps_past_int64 cidr "fd00::/48" false masked wide inRange⟩

/-! ## A sixteen-address range with a static subrange -/

/-- For an IPv4 /28 or an IPv6 /124 the static subrange takes 16 offsets of a range of 14 or
15, so the bitmap's upper block is empty and the first `AllocateNext` calls `rand.Intn` with a
non-positive bound, whatever it would draw. -/
theorem static_subrange_exceeds_sixteen_address_range (family : Family) (ip : ℕ) (rangeSpec : String)
    (draws : Draws) :
    let cidr : IPNet := ⟨family, ip, family.bits - 4⟩
    calculateRangeOffset cidr = 16 ∧ (new cidr rangeSpec true).max < 16 ∧
      ((new cidr rangeSpec true).allocateNext draws).1 = none := by
  intro cidr
  cases family <;>
    simp [cidr, calculateRangeOffset, new, rangeSize, maximum, Family.bits, Range.allocateNext,
      AllocationBitmap.allocateNext, allocateBit, newAllocationMapWithOffset]

end Kubernetes.Registry.Service.IPAllocator
