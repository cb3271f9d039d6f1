import Mathlib.Data.Finset.Basic

/-! The range allocators behind services.

`ipallocator.Range` and `portallocator.PortAllocator` map an item of their range to an
offset of an allocation bitmap. The service storage code sees a range only through
`Allocate`, `AllocateNext`, `Release` and `Has`, so a range is modelled by its membership
test, its allocated items, and the item the bitmap's strategy hands out next from a given
allocated set. A range is lawful when that item is in the range and free; rollback
arguments rest on nothing else.
-/

set_option autoImplicit false

namespace Kubernetes.Registry.Service

/-- The errors `Allocate` and `AllocateNext` return: `ErrFull`, `ErrAllocated` and
`ErrNotInRange` with the text of the valid range. -/
inductive AllocError where
  | full
  | allocated
  | notInRange (validRange : String)
  deriving DecidableEq, Repr

/-- The texts of `ipallocator`'s errors for the address `ip`. -/
def AllocError.ipMessage (ip : String) : AllocError → String
  | .full => "range is full"
  | .allocated => "provided IP is already allocated"
  | .notInRange validRange =>
    "the provided IP (" ++ ip ++ ") is not in the valid range. The range of valid IPs is " ++ validRange

/-- The texts of `portallocator`'s errors. -/
def AllocError.portMessage : AllocError → String
  | .full => "range is full"
  | .allocated => "provided port is already allocated"
  | .notInRange validPorts =>
    "provided port is not in the valid range. The range of valid ports is " ++ validPorts

@[ext]
structure Pool (α : Type) where
  validRange : String
  contains : α → Bool
  next : Finset α → Option α
  allocated : Finset α

namespace Pool

variable {α : Type}

/-- The strategy behind `AllocateNext` hands out a free item of the range. -/
def Lawful (pool : Pool α) : Prop :=
  ∀ allocated item, pool.next allocated = some item → pool.contains item ∧ item ∉ allocated

/-- Two pools over the same range with the same strategy. -/
structure SameRange (pool other : Pool α) : Prop where
  validRange : pool.validRange = other.validRange
  contains : pool.contains = other.contains
  next : pool.next = other.next

theorem SameRange.refl (pool : Pool α) : SameRange pool pool := ⟨rfl, rfl, rfl⟩

theorem SameRange.trans {pool middle other : Pool α} (first : SameRange pool middle)
    (second : SameRange middle other) : SameRange pool other :=
  ⟨first.validRange.trans second.validRange, first.contains.trans second.contains,
    first.next.trans second.next⟩

theorem SameRange.eq {pool other : Pool α} (same : SameRange pool other)
    (allocated : pool.allocated = other.allocated) : pool = other :=
  Pool.ext same.validRange same.contains same.next allocated

theorem SameRange.lawful {pool other : Pool α} (same : SameRange pool other)
    (lawful : other.Lawful) : pool.Lawful := by
  intro allocated item chosen
  rw [same.next] at chosen
  rw [same.contains]
  exact lawful allocated item chosen

variable [DecidableEq α]

def allocate (pool : Pool α) (item : α) : Except AllocError (Pool α) :=
  if !pool.contains item then .error (.notInRange pool.validRange)
  else if item ∈ pool.allocated then .error .allocated
  else .ok { pool with allocated := insert item pool.allocated }

def allocateNext (pool : Pool α) : Except AllocError (α × Pool α) :=
  match pool.next pool.allocated with
  | none => .error .full
  | some item => .ok (item, { pool with allocated := insert item pool.allocated })

/-- Releasing an item outside the range, or one that is not allocated, changes nothing. -/
def release (pool : Pool α) (item : α) : Pool α :=
  if pool.contains item then { pool with allocated := pool.allocated.erase item } else pool

def has (pool : Pool α) (item : α) : Bool :=
  pool.contains item && decide (item ∈ pool.allocated)

theorem allocate_eq_ok {pool next : Pool α} {item : α} :
    pool.allocate item = .ok next ↔
      pool.contains item = true ∧ item ∉ pool.allocated ∧
        next = { pool with allocated := insert item pool.allocated } := by
  unfold allocate
  by_cases inRange : pool.contains item = true
  · by_cases taken : item ∈ pool.allocated
    · simp [inRange, taken]
    · simp only [inRange, Bool.not_true, Bool.false_eq_true, if_false, taken, if_false,
        not_false_eq_true, true_and]
      exact ⟨fun same => (Except.ok.inj same).symm, fun same => same ▸ rfl⟩
  · simp [inRange]

theorem allocateNext_eq_ok {pool next : Pool α} {item : α} :
    pool.allocateNext = .ok (item, next) ↔
      pool.next pool.allocated = some item ∧
        next = { pool with allocated := insert item pool.allocated } := by
  unfold allocateNext
  cases chosen : pool.next pool.allocated with
  | none => simp
  | some found =>
    simp only [Except.ok.injEq, Prod.mk.injEq, Option.some.injEq]
    constructor
    · rintro ⟨rfl, rfl⟩
      exact ⟨rfl, rfl⟩
    · rintro ⟨rfl, rfl⟩
      exact ⟨rfl, rfl⟩

theorem sameRange_release (pool : Pool α) (item : α) : SameRange (pool.release item) pool := by
  unfold release
  split
  · exact ⟨rfl, rfl, rfl⟩
  · exact SameRange.refl pool

theorem release_allocated {pool : Pool α} {item : α} (inRange : pool.contains item = true) :
    (pool.release item).allocated = pool.allocated.erase item := by
  simp [release, inRange]

theorem release_insert {pool : Pool α} {item : α} (inRange : pool.contains item = true)
    (free : item ∉ pool.allocated) :
    ({ pool with allocated := insert item pool.allocated } : Pool α).release item = pool := by
  simp [release, inRange, Finset.erase_insert free]

theorem foldl_release (items : List α) :
    ∀ pool : Pool α, (∀ item ∈ items, pool.contains item = true) →
      SameRange (items.foldl release pool) pool ∧
        (items.foldl release pool).allocated = pool.allocated \ items.toFinset := by
  induction items with
  | nil => intro pool _; simp [SameRange.refl]
  | cons item rest ih =>
    intro pool inRange
    have released := sameRange_release pool item
    have restInRange : ∀ other ∈ rest, (pool.release item).contains other = true := by
      intro other member
      rw [released.contains]
      exact inRange other (List.mem_cons_of_mem item member)
    obtain ⟨same, allocated⟩ := ih (pool.release item) restInRange
    refine ⟨same.trans released, ?_⟩
    rw [List.foldl_cons, allocated, release_allocated (inRange item List.mem_cons_self)]
    ext other
    simp only [Finset.mem_sdiff, Finset.mem_erase, List.toFinset_cons, Finset.mem_insert]
    tauto

end Pool

/-- An `ipallocator.Range`: the pool of its addresses and the network address of its CIDR,
which a dry run's `AllocateNext` answers. -/
structure Range extends Pool String where
  cidrIP : String

namespace Range

/-- `Range.allocate(ip, dryRun)`: a dry run only checks that the address is in the range. -/
def allocate (range : Range) (dryRun : Bool) (ip : String) : Except AllocError Range :=
  if dryRun then
    if range.contains ip then .ok range else .error (.notInRange range.validRange)
  else
    (range.toPool.allocate ip).map fun pool => { range with toPool := pool }

/-- `Range.allocateNext(dryRun)`: a dry run answers the network address without a search. -/
def allocateNext (range : Range) (dryRun : Bool) : Except AllocError (String × Range) :=
  if dryRun then .ok (range.cidrIP, range)
  else range.toPool.allocateNext.map fun (ip, pool) => (ip, { range with toPool := pool })

def release (range : Range) (ip : String) : Range :=
  { range with toPool := range.toPool.release ip }

theorem release_insert {range : Range} {ip : String} (inRange : range.contains ip = true)
    (free : ip ∉ range.allocated) :
    ({ range with allocated := insert ip range.allocated } : Range).release ip = range := by
  have restored := Pool.release_insert inRange free
  simp only [release] at restored ⊢
  rw [restored]

end Range

end Kubernetes.Registry.Service
