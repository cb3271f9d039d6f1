import Kubernetes.Registry.Service.Pool
import Kubernetes.Library.Outcome

/-! `portallocator.PortAllocationOperation`.

An operation allocates node ports at once and records them, so that `Finish` can release
them again unless `Commit` ran first; releases asked for with `ReleaseDeferred` wait for
`Commit`. In a dry run the allocator is never written, and the operation only remembers
the ports it would have taken. The allocator is passed to each call: it is the shared
`op.pa` that the operation mutates.

The main fact is `Tracks`: a live operation's allocator holds exactly the ports it held at
the start plus the ports the operation recorded, each of them free at the start, so a
rollback gives the starting allocator back.
-/

set_option autoImplicit false

namespace Kubernetes.Registry.Service

structure PortAllocationOperation where
  allocated : List ℕ
  releaseDeferred : List ℕ
  shouldRollback : Bool
  dryRun : Bool
  deriving DecidableEq, Repr

def startOperation (dryRun : Bool) : PortAllocationOperation := ⟨[], [], true, dryRun⟩

namespace PortAllocationOperation

/-- Release every recorded port. `Release` of a port allocator never fails, so the error
list the source collects stays empty. -/
def rollback (op : PortAllocationOperation) (pa : Pool ℕ) : Pool ℕ :=
  if op.dryRun then pa else op.allocated.foldl Pool.release pa

def finish (op : PortAllocationOperation) (pa : Pool ℕ) : Pool ℕ :=
  if op.shouldRollback then op.rollback pa else pa

/-- A dry run returns before clearing `shouldRollback`; its later `Finish` rolls back nothing. -/
def commit (op : PortAllocationOperation) (pa : Pool ℕ) : PortAllocationOperation × Pool ℕ :=
  if op.dryRun then (op, pa)
  else ({ op with shouldRollback := false }, op.releaseDeferred.foldl Pool.release pa)

def allocate (op : PortAllocationOperation) (pa : Pool ℕ) (port : ℕ) :
    Except AllocError (PortAllocationOperation × Pool ℕ) :=
  if op.dryRun then
    if pa.has port then .error .allocated
    else if port ∈ op.allocated then .error .allocated
    else .ok ({ op with allocated := op.allocated ++ [port] }, pa)
  else
    (pa.allocate port).map fun next => ({ op with allocated := op.allocated ++ [port] }, next)

/-- In a dry run the source scans upwards from the largest recorded port (or from 32768)
while the port is below 100, and otherwise records `lastPort + 1` whatever it is. -/
def allocateNext (op : PortAllocationOperation) (pa : Pool ℕ) :
    Except AllocError (ℕ × PortAllocationOperation × Pool ℕ) :=
  if op.dryRun then
    let lastPort := if op.allocated = [] then 32768 else op.allocated.foldl max 0
    let candidates := List.range' (lastPort + 1) (100 - (lastPort + 1))
    match candidates.find? fun port => (op.allocate pa port).toBool with
    | some port => .ok (port, { op with allocated := op.allocated ++ [port] }, pa)
    | none => .ok (lastPort + 1, { op with allocated := op.allocated ++ [lastPort + 1] }, pa)
  else
    pa.allocateNext.map fun (port, next) => (port, { op with allocated := op.allocated ++ [port] }, next)

/-! ## Dry runs never write the allocator -/

section DryRun

variable {op next : PortAllocationOperation} {pa after : Pool ℕ}

theorem allocate_dryRun {port : ℕ} (dry : op.dryRun = true)
    (allocated : op.allocate pa port = .ok (next, after)) : after = pa ∧ next.dryRun = true := by
  simp only [allocate, dry, if_true] at allocated
  split at allocated
  · cases allocated
  · split at allocated
    · cases allocated
    · cases allocated
      exact ⟨rfl, rfl⟩

theorem allocateNext_dryRun {port : ℕ} (dry : op.dryRun = true)
    (allocated : op.allocateNext pa = .ok (port, next, after)) : after = pa ∧ next.dryRun = true := by
  simp only [allocateNext, dry, if_true] at allocated
  split at allocated
  · cases allocated
    exact ⟨rfl, rfl⟩
  · cases allocated
    exact ⟨rfl, rfl⟩

theorem finish_dryRun (dry : op.dryRun = true) : op.finish pa = pa := by
  simp [finish, rollback, dry]

end DryRun

/-! ## Live operations -/

/-- What a live, uncommitted operation has done to its allocator since it started from
`start`: the recorded ports are distinct, were free at the start and are in the range, and
the allocator holds `start`'s ports and exactly those. -/
structure Tracks (start : Pool ℕ) (op : PortAllocationOperation) (pa : Pool ℕ) : Prop where
  live : op.dryRun = false
  pending : op.shouldRollback = true
  sameRange : pa.SameRange start
  nodup : op.allocated.Nodup
  fresh : ∀ port ∈ op.allocated, port ∉ start.allocated
  inRange : ∀ port ∈ op.allocated, start.contains port = true
  allocated : pa.allocated = start.allocated ∪ op.allocated.toFinset
  noDeferred : op.releaseDeferred = []

section Tracks

variable {start pa after : Pool ℕ} {op next : PortAllocationOperation}

theorem tracks_start (start : Pool ℕ) : Tracks start (startOperation false) start where
  live := rfl
  pending := rfl
  sameRange := Pool.SameRange.refl start
  nodup := List.nodup_nil
  fresh := by simp [startOperation]
  inRange := by simp [startOperation]
  allocated := by simp [startOperation]
  noDeferred := rfl

theorem Tracks.record (tracks : Tracks start op pa) {port : ℕ} (inRange : pa.contains port = true)
    (free : port ∉ pa.allocated) :
    Tracks start { op with allocated := op.allocated ++ [port] }
      { pa with allocated := insert port pa.allocated } := by
  -- a port free now is neither one of `start`'s nor one the operation recorded
  have notStart : port ∉ start.allocated := fun member =>
    free (tracks.allocated ▸ Finset.mem_union_left _ member)
  have notRecorded : port ∉ op.allocated := fun member =>
    free (tracks.allocated ▸ Finset.mem_union_right _ (List.mem_toFinset.mpr member))
  refine ⟨tracks.live, tracks.pending, ⟨tracks.sameRange.validRange, tracks.sameRange.contains,
    tracks.sameRange.next⟩, ?_, ?_, ?_, ?_, tracks.noDeferred⟩
  · exact List.nodup_append.mpr ⟨tracks.nodup, List.nodup_singleton port,
      fun a member b same => by rw [List.mem_singleton] at same; exact same ▸ fun eq => notRecorded (eq ▸ member)⟩
  · intro other member
    rcases List.mem_append.mp member with recorded | added
    · exact tracks.fresh other recorded
    · rw [List.mem_singleton.mp added]
      exact notStart
  · intro other member
    rcases List.mem_append.mp member with recorded | added
    · exact tracks.inRange other recorded
    · rw [List.mem_singleton.mp added, ← tracks.sameRange.contains]
      exact inRange
  · rw [tracks.allocated]
    ext other
    simp only [Finset.mem_insert, Finset.mem_union, List.mem_toFinset, List.mem_append,
      List.mem_singleton]
    tauto

theorem Tracks.allocate (tracks : Tracks start op pa) {port : ℕ}
    (allocated : op.allocate pa port = .ok (next, after)) : Tracks start next after := by
  unfold PortAllocationOperation.allocate at allocated
  rw [if_neg (by simp [tracks.live])] at allocated
  obtain ⟨pool, taken, same⟩ := Kubernetes.Library.map_eq_ok.mp allocated
  obtain ⟨inRange, free, rfl⟩ := Pool.allocate_eq_ok.mp taken
  cases same
  exact tracks.record inRange free

theorem Tracks.allocateNext (lawful : start.Lawful) (tracks : Tracks start op pa) {port : ℕ}
    (allocated : op.allocateNext pa = .ok (port, next, after)) : Tracks start next after := by
  unfold PortAllocationOperation.allocateNext at allocated
  rw [if_neg (by simp [tracks.live])] at allocated
  obtain ⟨⟨chosen, pool⟩, taken, same⟩ := Kubernetes.Library.map_eq_ok.mp allocated
  obtain ⟨handed, rfl⟩ := Pool.allocateNext_eq_ok.mp taken
  simp only [Prod.mk.injEq] at same
  obtain ⟨rfl, rfl, rfl⟩ := same
  obtain ⟨inRange, free⟩ := tracks.sameRange.lawful lawful _ _ handed
  exact tracks.record inRange free

theorem Tracks.finish_eq (tracks : Tracks start op pa) : op.finish pa = start := by
  simp only [finish, tracks.pending, if_true, rollback, tracks.live, Bool.false_eq_true, if_false]
  have inRange : ∀ port ∈ op.allocated, pa.contains port = true := fun port member => by
    rw [tracks.sameRange.contains]
    exact tracks.inRange port member
  obtain ⟨same, allocated⟩ := Pool.foldl_release op.allocated pa inRange
  apply (same.trans tracks.sameRange).eq
  rw [allocated, tracks.allocated]
  ext port
  simp only [Finset.mem_sdiff, Finset.mem_union, List.mem_toFinset]
  constructor
  · rintro ⟨kept | recorded, notRecorded⟩
    · exact kept
    · exact absurd recorded notRecorded
  · intro kept
    exact ⟨Or.inl kept, fun recorded => tracks.fresh port recorded kept⟩

end Tracks

/-! ## Calls made on an operation -/

/-- One call a caller makes on the operation: `Allocate` or `AllocateNext` that succeeded,
or none. Failed calls leave the operation and its allocator as they were. -/
def Call (before after : PortAllocationOperation × Pool ℕ) : Prop :=
  after = before ∨ (∃ port, before.1.allocate before.2 port = .ok after) ∨
    ∃ port, before.1.allocateNext before.2 = .ok (port, after)

/-- Any number of calls. -/
def Calls : PortAllocationOperation × Pool ℕ → PortAllocationOperation × Pool ℕ → Prop :=
  Relation.ReflTransGen Call

theorem Tracks.calls {start : Pool ℕ} (lawful : start.Lawful) {before after : PortAllocationOperation × Pool ℕ}
    (calls : Calls before after) (tracks : Tracks start before.1 before.2) : Tracks start after.1 after.2 := by
  induction calls with
  | refl => exact tracks
  | tail _ call ih =>
    rcases call with same | ⟨port, allocated⟩ | ⟨port, allocated⟩
    · exact same ▸ ih
    · exact ih.allocate allocated
    · exact ih.allocateNext lawful allocated

theorem Calls.dryRun {before after : PortAllocationOperation × Pool ℕ} (calls : Calls before after)
    (dry : before.1.dryRun = true) : after.2 = before.2 ∧ after.1.dryRun = true := by
  induction calls with
  | refl => exact ⟨rfl, dry⟩
  | tail _ call ih =>
    obtain ⟨samePool, stillDry⟩ := ih
    rcases call with same | ⟨port, allocated⟩ | ⟨port, allocated⟩
    · exact same ▸ ⟨samePool, stillDry⟩
    · obtain ⟨unchanged, dry⟩ := allocate_dryRun stillDry allocated
      exact ⟨unchanged.trans samePool, dry⟩
    · obtain ⟨unchanged, dry⟩ := allocateNext_dryRun stillDry allocated
      exact ⟨unchanged.trans samePool, dry⟩

theorem Calls.allocate {before after : PortAllocationOperation × Pool ℕ} {port : ℕ}
    (allocated : before.1.allocate before.2 port = .ok after) : Calls before after :=
  Relation.ReflTransGen.single (.inr (.inl ⟨port, allocated⟩))

theorem Calls.allocateNext {before after : PortAllocationOperation × Pool ℕ} {port : ℕ}
    (allocated : before.1.allocateNext before.2 = .ok (port, after)) : Calls before after :=
  Relation.ReflTransGen.single (.inr (.inr ⟨port, allocated⟩))

end PortAllocationOperation

end Kubernetes.Registry.Service
