import Mathlib.Data.Finset.Card
import Mathlib.Data.Nat.BitIndices
import Kubernetes.Library.Transition
import Kubernetes.Library.CyclicScan
import Kubernetes.Library.Bytes

/-! The allocation bitmap of `pkg/registry/core/service/allocator/bitmap.go`.

An `AllocationBitmap` hands out the offsets `0, …, max - 1`. The `*big.Int` bitmap is
modelled by the finite set of its set bits and `count` by a Go `int`. Randomness enters
only through `rand.Intn`, whose results are inputs of `AllocateNext` constrained to the
range the standard library documents. A panic of `rand.Intn` leaves the bitmap as it
was, since the deferred unlock runs and nothing has been written yet.
-/

set_option autoImplicit false

namespace Kubernetes.Registry.Allocator

open Kubernetes.Library

/-- The integer a big-endian byte string denotes, as `big.Int.SetBytes` reads it. -/
def setBytes (data : List UInt8) : ℕ :=
  data.foldl (fun value byte => value * 256 + byte.toNat) 0

/-- Offsets of the set bits of a value. -/
def bitsOf (value : ℕ) : Finset ℕ := value.bitIndices.toFinset

/-- `countBits`: the number of set bits of a value. -/
def countBits (value : ℕ) : ℕ := value.bitIndices.length

theorem countBits_eq_card (value : ℕ) : countBits value = (bitsOf value).card := by
  simp [countBits, bitsOf, List.toFinset_card_of_nodup Nat.bitIndices_nodup]

structure AllocationBitmap where
  /-- `randomScanStrategyWithOffset.offset`: the size of the reserved lower block. -/
  offset : ℕ
  max : ℕ
  rangeSpec : String
  count : ℤ
  allocated : Finset ℕ
  deriving DecidableEq

def newAllocationMapWithOffset (max : ℕ) (rangeSpec : String) (offset : ℕ) : AllocationBitmap :=
  { offset, max, rangeSpec, count := 0, allocated := ∅ }

def newAllocationMap (max : ℕ) (rangeSpec : String) : AllocationBitmap :=
  newAllocationMapWithOffset max rangeSpec 0

/-- The numbers one `AllocateBit` call draws: `rand.Intn(max - offset)` for the upper
range and, once that range is full, `rand.Intn(offset)` for the lower one. -/
structure Draws where
  upperStart : ℕ
  lowerStart : ℕ
  deriving DecidableEq

/-- `rand.Intn(n)` returns a number of `[0, n)`; a draw from an empty range never returns. -/
def Draws.Valid (draws : Draws) (max offset : ℕ) : Prop :=
  draws.upperStart < max - offset ∧ (0 < offset → draws.lowerStart < offset)

instance (draws : Draws) (max offset : ℕ) : Decidable (draws.Valid max offset) :=
  inferInstanceAs (Decidable (_ ∧ _))

/-- `randomScanStrategyWithOffset.AllocateBit`. The lower scan probes `(start + i) % offset`
and returns the loop counter `i`, as the source does. `none` is the panic of `rand.Intn`
on a non-positive bound. -/
def allocateBit (offset : ℕ) (allocated : Finset ℕ) (max : ℕ) (count : ℤ) (draws : Draws) :
    Option (ℕ × Bool) :=
  if (max : ℤ) ≤ count then some (0, false)
  else
    let subrangeMax := max - offset
    if subrangeMax = 0 then none
    else
      match firstWrapped subrangeMax draws.upperStart (fun position => offset + position ∉ allocated) with
      | some i => some (offset + (draws.upperStart + i) % subrangeMax, true)
      | none =>
        if offset = 0 then none
        else
          match firstWrapped offset draws.lowerStart (fun position => position ∉ allocated) with
          | some i => some (i, true)
          | none => some (0, false)

namespace AllocationBitmap

def outOfRangeMessage (offset max : ℕ) : String :=
  "offset " ++ toString offset ++ " out of range [0," ++ toString max ++ "]"

def rangeMismatchMessage : String := "the provided range does not match the current range"

/-- `Allocate`: reserve one offset. -/
def allocate (r : AllocationBitmap) (offset : ℕ) : Except String Bool × AllocationBitmap :=
  if r.max ≤ offset then (.error (outOfRangeMessage offset r.max), r)
  else if offset ∈ r.allocated then (.ok false, r)
  else (.ok true, { r with allocated := insert offset r.allocated, count := r.count + 1 })

/-- `AllocateNext`: the offset the strategy picks, and whether one was found; `none` when
the strategy panics. -/
def allocateNext (r : AllocationBitmap) (draws : Draws) : Option (ℕ × Bool) × AllocationBitmap :=
  match allocateBit r.offset r.allocated r.max r.count draws with
  | some (next, true) =>
    (some (next, true), { r with count := r.count + 1, allocated := insert next r.allocated })
  | some (_, false) => (some (0, false), r)
  | none => (none, r)

/-- `Release`: releasing a free offset is a no-op. -/
def release (r : AllocationBitmap) (offset : ℕ) : AllocationBitmap :=
  if offset ∈ r.allocated then { r with allocated := r.allocated.erase offset, count := r.count - 1 }
  else r

/-- `Restore`: replace the bitmap by a snapshot of the same range. -/
def restore (r : AllocationBitmap) (rangeSpec : String) (data : List UInt8) :
    Except String Unit × AllocationBitmap :=
  if r.rangeSpec ≠ rangeSpec then (.error rangeMismatchMessage, r)
  else (.ok (), { r with allocated := bitsOf (setBytes data), count := countBits (setBytes data) })

/-- `Snapshot`: the range and `allocated.Bytes()`, the big-endian bytes of the bitmap. -/
def snapshot (r : AllocationBitmap) : String × List UInt8 :=
  (r.rangeSpec, toBytesBE (bitmapOf r.allocated))

def has (r : AllocationBitmap) (offset : ℕ) : Bool := decide (offset ∈ r.allocated)

def free (r : AllocationBitmap) : ℤ := r.max - r.count

end AllocationBitmap

/-- The calls a client can make on an allocation bitmap. -/
inductive Operation where
  | allocate (offset : ℕ)
  | allocateNext (draws : Draws)
  | release (offset : ℕ)
  | restore (rangeSpec : String) (data : List UInt8)
  deriving DecidableEq

namespace AllocationBitmap

def apply (r : AllocationBitmap) : Operation → AllocationBitmap
  | .allocate offset => (r.allocate offset).2
  | .allocateNext draws => (r.allocateNext draws).2
  | .release offset => r.release offset
  | .restore rangeSpec data => (r.restore rangeSpec data).2

/-- Only the random draws are constrained: they lie where `rand.Intn` puts them. -/
def Admissible (r : AllocationBitmap) : Operation → Prop
  | .allocateNext draws => draws.Valid r.max r.offset
  | _ => True

instance (r : AllocationBitmap) : (operation : Operation) → Decidable (r.Admissible operation)
  | .allocate _ => inferInstanceAs (Decidable True)
  | .allocateNext draws => inferInstanceAs (Decidable (draws.Valid r.max r.offset))
  | .release _ => inferInstanceAs (Decidable True)
  | .restore _ _ => inferInstanceAs (Decidable True)

/-- Runs of one bitmap from `NewAllocationMapWithOffset(max, rangeSpec, offset)`. -/
def system (max : ℕ) (rangeSpec : String) (offset : ℕ) : System AllocationBitmap Operation :=
  System.ofStep (newAllocationMapWithOffset max rangeSpec offset) Admissible apply

/-- The representation invariant of the source comment: `count` is the number of set bits. -/
def CountConsistent (r : AllocationBitmap) : Prop := r.count = r.allocated.card

@[simp] theorem apply_offset (r : AllocationBitmap) (operation : Operation) :
    (r.apply operation).offset = r.offset := by
  cases operation <;> simp only [apply, allocate, allocateNext, release, restore] <;>
    repeat (first | split | rfl)

@[simp] theorem apply_max (r : AllocationBitmap) (operation : Operation) :
    (r.apply operation).max = r.max := by
  cases operation <;> simp only [apply, allocate, allocateNext, release, restore] <;>
    repeat (first | split | rfl)

end AllocationBitmap


/-! ## What one `AllocateBit` call can return -/

section Strategy
variable {offset max k : ℕ} {allocated : Finset ℕ} {count : ℤ} {draws : Draws} {found : Bool}

theorem allocateBit_found (returned : allocateBit offset allocated max count draws = some (k, true)) :
    count < max ∧
      ((offset ≤ k ∧ k < max ∧ k ∉ allocated) ∨
        (0 < offset ∧ offset < max ∧ k < offset ∧ (draws.lowerStart + k) % offset ∉ allocated ∧
          ∀ position, offset ≤ position → position < max → position ∈ allocated)) := by
  unfold allocateBit at returned
  split at returned
  · simp at returned
  · rename_i belowMax
    refine ⟨lt_of_not_ge belowMax, ?_⟩
    simp only at returned
    split at returned
    · simp at returned
    · rename_i nonempty
      split at returned
      · rename_i i upperFound
        simp only [Option.some.injEq, Prod.mk.injEq, and_true] at returned
        subst returned
        have wrapped := Nat.mod_lt (draws.upperStart + i) (Nat.pos_of_ne_zero nonempty)
        exact .inl ⟨Nat.le_add_right _ _, by omega, by simpa using firstWrapped_free upperFound⟩
      · rename_i upperFull
        split at returned
        · simp at returned
        · rename_i offsetPositive
          split at returned
          · rename_i i lowerFound
            simp only [Option.some.injEq, Prod.mk.injEq, and_true] at returned
            subst returned
            refine .inr ⟨Nat.pos_of_ne_zero offsetPositive, by omega, firstWrapped_lt lowerFound,
              by simpa using firstWrapped_free lowerFound, fun position above inRange => ?_⟩
            rw [firstWrapped_eq_none_iff] at upperFull
            simpa [Nat.add_sub_cancel' above] using upperFull (position - offset) (by omega)
          · simp at returned

theorem allocateBit_eq_none (panicked : allocateBit offset allocated max count draws = none) :
    max - offset = 0 ∨
      (offset = 0 ∧ count < max ∧ ∀ position < max, position ∈ allocated) := by
  unfold allocateBit at panicked
  split at panicked
  · simp at panicked
  · rename_i belowMax
    simp only at panicked
    split at panicked
    · rename_i empty
      exact .inl empty
    · split at panicked
      · simp at panicked
      · rename_i upperFull
        split at panicked
        · rename_i noOffset
          subst noOffset
          rw [firstWrapped_eq_none_iff] at upperFull
          exact .inr ⟨rfl, lt_of_not_ge belowMax, fun position inRange => by
            simpa using upperFull position (by omega)⟩
        · split at panicked <;> simp at panicked

end Strategy

namespace AllocationBitmap

/-! ## One call at a time -/

theorem allocateNext_found {r next : AllocationBitmap} {draws : Draws} {k : ℕ}
    (returned : r.allocateNext draws = (some (k, true), next)) :
    allocateBit r.offset r.allocated r.max r.count draws = some (k, true) ∧
      next = { r with count := r.count + 1, allocated := insert k r.allocated } := by
  unfold allocateNext at returned
  split at returned
  · rename_i picked found
    simp only [Prod.mk.injEq, Option.some.injEq, and_true] at returned
    obtain ⟨rfl, rfl⟩ := returned
    exact ⟨found, rfl⟩
  · simp at returned
  · simp at returned

theorem allocateNext_unchanged {r next : AllocationBitmap} {draws : Draws} {result : Option (ℕ × Bool)}
    (returned : r.allocateNext draws = (result, next)) (notFound : ∀ k, result ≠ some (k, true)) :
    next = r := by
  unfold allocateNext at returned
  split at returned
  · obtain ⟨rfl, -⟩ := Prod.mk.inj returned
    exact absurd rfl (notFound _)
  · exact (Prod.mk.inj returned).2.symm
  · exact (Prod.mk.inj returned).2.symm

theorem allocate_mem {r : AllocationBitmap} {offset : ℕ} (taken : (r.allocate offset).1 = .ok true) :
    offset ∈ (r.allocate offset).2.allocated := by
  unfold allocate at taken ⊢
  split_ifs at taken ⊢
  · cases taken
  · exact Finset.mem_insert_self offset _

theorem allocate_consistent {r : AllocationBitmap} (consistent : r.CountConsistent) (offset : ℕ) :
    (r.allocate offset).2.CountConsistent := by
  unfold allocate
  split
  · exact consistent
  · split
    · exact consistent
    · rename_i _ absent
      simp [CountConsistent, Finset.card_insert_of_notMem absent, consistent.symm]

theorem release_consistent {r : AllocationBitmap} (consistent : r.CountConsistent) (offset : ℕ) :
    (r.release offset).CountConsistent := by
  unfold release
  split
  · rename_i present
    have positive : 0 < r.allocated.card := Finset.card_pos.mpr ⟨offset, present⟩
    unfold CountConsistent at consistent ⊢
    simp only [Finset.card_erase_of_mem present]
    omega
  · exact consistent

theorem restore_consistent (r : AllocationBitmap) (rangeSpec : String) (data : List UInt8) :
    r.CountConsistent → (r.restore rangeSpec data).2.CountConsistent := by
  intro consistent
  unfold restore
  split
  · exact consistent
  · simp [CountConsistent, countBits_eq_card]

theorem restore_snapshot (r other : AllocationBitmap) (sameRange : other.rangeSpec = r.rangeSpec) :
    (other.restore r.snapshot.1 r.snapshot.2).2 =
      { other with allocated := r.allocated, count := r.allocated.card } := by
  have decoded : setBytes (toBytesBE (bitmapOf r.allocated)) = bitmapOf r.allocated :=
    ofBytesBE_toBytesBE _
  have bits : bitsOf (bitmapOf r.allocated) = r.allocated := bitIndices_bitmapOf r.allocated
  simp only [restore, snapshot, sameRange, ne_eq, not_true_eq_false, if_false, decoded,
    countBits_eq_card, bits]

theorem allocateNext_consistent {r : AllocationBitmap} (consistent : r.CountConsistent)
    (draws : Draws) (handsOutFree : ∀ k, (r.allocateNext draws).1 = some (k, true) → k ∉ r.allocated) :
    (r.allocateNext draws).2.CountConsistent := by
  cases returned : r.allocateNext draws with
  | mk result next =>
    by_cases found : ∃ k, result = some (k, true)
    · obtain ⟨k, rfl⟩ := found
      obtain ⟨-, rfl⟩ := allocateNext_found returned
      have absent := handsOutFree k (by rw [returned])
      unfold CountConsistent at consistent ⊢
      rw [Finset.card_insert_of_notMem absent]
      push_cast
      omega
    · rw [allocateNext_unchanged returned (fun k same => found ⟨k, same⟩)]
      exact consistent

end AllocationBitmap

/-! ## Whole runs -/

namespace AllocationBitmap

/-- The configuration of a bitmap is fixed at construction. -/
def Configured (max : ℕ) (rangeSpec : String) (offset : ℕ) (r : AllocationBitmap) : Prop :=
  r.max = max ∧ r.rangeSpec = rangeSpec ∧ r.offset = offset

@[simp] theorem apply_rangeSpec (r : AllocationBitmap) (operation : Operation) :
    (r.apply operation).rangeSpec = r.rangeSpec := by
  cases operation <;> simp only [apply, allocate, allocateNext, release, restore] <;>
    repeat (first | split | rfl)

theorem configured_invariant (max : ℕ) (rangeSpec : String) (offset : ℕ) :
    (system max rangeSpec offset).Invariant (Configured max rangeSpec offset) := by
  apply System.Inductive.invariant
  constructor
  · rintro state rfl
    exact ⟨rfl, rfl, rfl⟩
  · rintro state operation next ⟨same, sameSpec, sameOffset⟩ ⟨-, rfl⟩
    exact ⟨(apply_max _ _).trans same, (apply_rangeSpec _ _).trans sameSpec,
      (apply_offset _ _).trans sameOffset⟩

theorem allocateNext_free_of_offset_le_one {r : AllocationBitmap} {draws : Draws} {k : ℕ}
    (small : r.offset ≤ 1) (returned : (r.allocateNext draws).1 = some (k, true)) :
    k < r.max ∧ k ∉ r.allocated := by
  obtain ⟨picked, -⟩ := allocateNext_found (Prod.ext_iff.mpr ⟨returned, rfl⟩)
  rcases (allocateBit_found picked).2 with ⟨-, inRange, absent⟩ |
    ⟨positive, nonempty, below, probed, -⟩
  · exact ⟨inRange, absent⟩
  · have one : r.offset = 1 := by omega
    have zero : k = 0 := by omega
    subst zero
    refine ⟨by omega, ?_⟩
    simpa [one, Nat.mod_one] using probed

theorem countConsistent_of_offset_le_one {max : ℕ} {rangeSpec : String} {offset : ℕ}
    (small : offset ≤ 1) :
    (system max rangeSpec offset).Invariant CountConsistent := by
  refine System.Invariant.of_step (configured_invariant max rangeSpec offset) ?_ ?_
  · rintro state rfl
    simp [CountConsistent, newAllocationMapWithOffset]
  · rintro r operation next ⟨-, -, sameOffset⟩ consistent ⟨-, rfl⟩
    cases operation with
    | allocate k => exact allocate_consistent consistent k
    | allocateNext draws =>
      exact allocateNext_consistent consistent draws fun k returned =>
        (allocateNext_free_of_offset_le_one (sameOffset ▸ small) returned).2
    | release k => exact release_consistent consistent k
    | restore rangeSpec data => exact restore_consistent r rangeSpec data consistent

theorem allocateNext_of_full {r : AllocationBitmap} (full : (r.max : ℤ) ≤ r.count) (draws : Draws) :
    (r.allocateNext draws).1 = some (0, false) := by
  simp [allocateNext, allocateBit, full]

theorem allocateNext_never_panics {max : ℕ} {rangeSpec : String} {offset : ℕ}
    (inRange : offset < max) {r : AllocationBitmap} (reachable : (system max rangeSpec offset).Reachable r)
    (draws : Draws) : (r.allocateNext draws).1 ≠ none := by
  obtain ⟨sameMax, -, sameOffset⟩ := configured_invariant max rangeSpec offset r reachable
  intro panicked
  have strategyPanicked : allocateBit r.offset r.allocated r.max r.count draws = none := by
    unfold allocateNext at panicked
    split at panicked <;> simp_all
  rcases allocateBit_eq_none strategyPanicked with empty | ⟨noOffset, belowMax, full⟩
  · omega
  · have consistent := countConsistent_of_offset_le_one (by omega) r reachable
    have covered : Finset.range r.max ⊆ r.allocated := fun position member =>
      full position (Finset.mem_range.mp member)
    have atLeast := Finset.card_le_card covered
    rw [Finset.card_range] at atLeast
    unfold CountConsistent at consistent
    omega

end AllocationBitmap

/-! ## The reserved block hands out taken offsets -/

namespace AllocationBitmap

/-- `Allocate(2)` and `Allocate(0)` on `NewAllocationMapWithOffset(3, "test", 2)`: the
upper range `{2}` is full and offset `1` is the only free one. -/
def reservedBlockFilled : AllocationBitmap :=
  System.run apply (newAllocationMapWithOffset 3 "test" 2) [.allocate 2, .allocate 0]

/-- From there, with `rand.Intn(2)` drawing `1` for the lower scan, `AllocateNext` probes
offset `1`, finds it free and returns the loop counter `0`, which is taken; the count then
exceeds the number of set bits in a reachable state. -/
theorem allocateNext_returns_allocated_offset :
    let draws : Draws := ⟨0, 1⟩
    (system 3 "test" 2).Reachable reservedBlockFilled ∧
      draws.Valid reservedBlockFilled.max reservedBlockFilled.offset ∧
      0 ∈ reservedBlockFilled.allocated ∧
      (reservedBlockFilled.allocateNext draws).1 = some (0, true) ∧
      (system 3 "test" 2).Reachable (reservedBlockFilled.allocateNext draws).2 ∧
      ¬ (reservedBlockFilled.allocateNext draws).2.CountConsistent := by
  intro draws
  have reachable : (system 3 "test" 2).Reachable reservedBlockFilled :=
    System.reachable_of_run _ (by simp [System.Admits, Admissible])
  have valid : draws.Valid reservedBlockFilled.max reservedBlockFilled.offset := by decide
  refine ⟨reachable, valid, by decide, by decide, .step (.allocateNext draws) reachable ⟨valid, rfl⟩, ?_⟩
  simp only [CountConsistent]
  decide

end AllocationBitmap

end Kubernetes.Registry.Allocator
