import Kubernetes.Registry.Allocator.Bitmap

/-! Allocation bitmaps persisted under one storage key (`allocator/storage/storage.go`).

Every API server holds an `Etcd` allocator: an in-memory `AllocationBitmap`, the resource
version it last read (`last`) and its lock. `Allocate`, `AllocateNext` and `Release` go
through `tryUpdate`, which hands an update function to `GuaranteedUpdate`. The storage
layer is a compare-and-swap on the stored object: it reads the object, runs the update
function on it, and writes the result if the version is still the one read; otherwise it
reads again and reruns the function. The update function restores the bitmap from the
object unless the version read is `last`, runs the method on the bitmap, sets `last` to
the version read and returns the snapshot to write.

Several instances share the key. A step of the model is one instance taking a call, one
run of the update function, or one compare-and-swap, so that every interleaving of the
instances' reads and writes is a run of the model. Replies and committed bitmap
operations are recorded in the order they happen.
-/

set_option autoImplicit false

namespace Kubernetes.Registry.Allocator.Storage

open Kubernetes.Library

/-- `api.RangeAllocation` as storage holds it. The version `0` is the empty version of a
key that does not exist; every write gives a version above the one it replaced. -/
structure RangeAllocation where
  resourceVersion : ℕ
  range : String
  data : List UInt8
  deriving DecidableEq, Repr

/-- The methods of `Etcd` that write the key. -/
inductive Call where
  | allocate (offset : ℕ)
  | allocateNext
  | release (item : ℕ)
  deriving DecidableEq, Repr

/-- What a method returns: the offset and `ok` of `Allocate` or `AllocateNext` with a nil
error, nil from `Release`, or an error. -/
inductive Reply where
  | allocated (offset : ℕ) (ok : Bool)
  | released
  | failed (message : String)
  deriving DecidableEq, Repr

/-- The bitmap operation a call performs, with the draws of its `AllocateNext`. -/
def Call.operation (draws : Draws) : Call → Operation
  | .allocate offset => .allocate offset
  | .allocateNext => .allocateNext draws
  | .release item => .release item

/-- The closure a method passes to `tryUpdate`, run on the bitmap: it fails with the
method's reply (`errorUnableToAllocate` becomes `ok = false` with a nil error), or it leaves
the new bitmap and the reply to give once written. `none` is a panic of `rand.Intn`. -/
def Call.run (call : Call) (draws : Draws) (alloc : AllocationBitmap) :
    Option (Except Reply (AllocationBitmap × Reply)) :=
  match call with
  | .allocate offset =>
    match alloc.allocate offset with
    | (.error message, _) => some (.error (.failed message))
    | (.ok false, _) => some (.error (.allocated offset false))
    | (.ok true, next) => some (.ok (next, .allocated offset true))
  | .allocateNext =>
    match alloc.allocateNext draws with
    | (some (offset, true), next) => some (.ok (next, .allocated offset true))
    | (some (offset, false), _) => some (.error (.allocated offset false))
    | (none, _) => none
  | .release item => some (.ok (alloc.release item, .released))

/-- What the update function decided: write the object, with the bitmap operation it
performed and the reply to give once the write succeeds, or stop with a reply. -/
inductive Update where
  | write (object : RangeAllocation) (operation : Operation) (reply : Reply)
  | stop (reply : Reply)

def cannotAllocateMessage (resource : String) : String :=
  "cannot allocate resources of type " ++ resource ++ " at this time"

/-- The update function of `tryUpdate` on the object `existing`, for an instance with
bitmap `alloc` that last read version `last`: the new bitmap, the new `last`, and the
decision. -/
def tryUpdate (resource : String) (call : Call) (draws : Draws) (alloc : AllocationBitmap)
    (last : ℕ) (existing : RangeAllocation) : Option (AllocationBitmap × ℕ × Update) :=
  if existing.resourceVersion = 0 then
    some (alloc, last, .stop (.failed (cannotAllocateMessage resource)))
  else
    let restored :=
      if existing.resourceVersion ≠ last then alloc.restore existing.range existing.data
      else (.ok (), alloc)
    match restored with
    | (.error message, alloc) => some (alloc, last, .stop (.failed message))
    | (.ok (), alloc) =>
      match call.run draws alloc with
      | none => none
      | some (.error reply) => some (alloc, last, .stop reply)
      | some (.ok (next, reply)) =>
        some (next, existing.resourceVersion,
          .write { existing with range := next.snapshot.1, data := next.snapshot.2 }
            (call.operation draws) reply)

/-- Where an instance is in a call: free, holding its lock before a read, or holding the
result of the update function on the version `read` until the compare-and-swap. -/
inductive Phase where
  | idle
  | busy (call : Call)
  | swapping (call : Call) (read : ℕ) (object : RangeAllocation) (operation : Operation) (reply : Reply)

structure Etcd where
  alloc : AllocationBitmap
  last : ℕ
  phase : Phase

/-- The key, the instances that share it, the replies in the order the calls returned, and
the bitmap operations in the order their writes succeeded. -/
structure Cluster (ι : Type) where
  store : RangeAllocation
  instances : ι → Etcd
  replies : List (ι × Call × Reply)
  history : List Operation

inductive Input (ι : Type) where
  | invoke (server : ι) (call : Call)
  | attempt (server : ι) (draws : Draws)
  | swap (server : ι)

namespace Cluster

variable {ι : Type} [DecidableEq ι]

def setInstance (s : Cluster ι) (i : ι) (e : Etcd) : Cluster ι :=
  { s with instances := Function.update s.instances i e }

/-- One step: an idle instance takes a call; a busy instance reads the key and runs the
update function, with draws where `rand.Intn` puts them; a swapping instance writes if
the key is still at the version it read, and otherwise reads again. -/
def step (resource : String) (s : Cluster ι) : Input ι → Option (Cluster ι)
  | .invoke i call =>
    match (s.instances i).phase with
    | .idle => some (s.setInstance i { s.instances i with phase := .busy call })
    | _ => none
  | .attempt i draws =>
    match (s.instances i).phase with
    | .busy call =>
      if draws.Valid (s.instances i).alloc.max (s.instances i).alloc.offset then
        match tryUpdate resource call draws (s.instances i).alloc (s.instances i).last s.store with
        | none => none
        | some (alloc, last, .stop reply) =>
          some { s.setInstance i ⟨alloc, last, .idle⟩ with replies := s.replies ++ [(i, call, reply)] }
        | some (alloc, last, .write object operation reply) =>
          some (s.setInstance i ⟨alloc, last, .swapping call s.store.resourceVersion object operation reply⟩)
      else none
    | _ => none
  | .swap i =>
    match (s.instances i).phase with
    | .swapping call read object operation reply =>
      if s.store.resourceVersion = read then
        some { s.setInstance i { s.instances i with phase := .idle } with
          store := { object with resourceVersion := read + 1 }
          replies := s.replies ++ [(i, call, reply)]
          history := s.history ++ [operation] }
      else some (s.setInstance i { s.instances i with phase := .busy call })
    | _ => none

/-- Instances created by `NewEtcd` over a configured bitmap, before any call. -/
def initial (config : AllocationBitmap) (stored : RangeAllocation) : Cluster ι where
  store := stored
  instances := fun _ => ⟨config, 0, .idle⟩
  replies := []
  history := []

def system (resource : String) (config : AllocationBitmap) (stored : RangeAllocation) :
    System (Cluster ι) (Input ι) :=
  System.ofPartial (fun s => s = initial config stored) (step resource)

end Cluster

/-! ## The bitmap each run of the update function sees -/

/-- Two bitmaps of one configuration. -/
structure SameConfig (r other : AllocationBitmap) : Prop where
  offset : r.offset = other.offset
  max : r.max = other.max
  rangeSpec : r.rangeSpec = other.rangeSpec

theorem SameConfig.trans {r middle other : AllocationBitmap} (first : SameConfig r middle)
    (second : SameConfig middle other) : SameConfig r other :=
  ⟨first.offset.trans second.offset, first.max.trans second.max, first.rangeSpec.trans second.rangeSpec⟩

theorem sameConfig_apply (r : AllocationBitmap) (operation : Operation) : SameConfig (r.apply operation) r :=
  ⟨r.apply_offset operation, r.apply_max operation, r.apply_rangeSpec operation⟩

theorem sameConfig_restore (r : AllocationBitmap) (rangeSpec : String) (data : List UInt8) :
    SameConfig (r.restore rangeSpec data).2 r := by
  unfold AllocationBitmap.restore
  split
  · exact ⟨rfl, rfl, rfl⟩
  · exact ⟨rfl, rfl, rfl⟩

theorem restore_congr {r other : AllocationBitmap} (same : SameConfig r other) {rangeSpec : String}
    (sameSpec : r.rangeSpec = rangeSpec) (data : List UInt8) :
    (r.restore rangeSpec data).2 = (other.restore rangeSpec data).2 := by
  have otherMatches : other.rangeSpec = rangeSpec := same.rangeSpec ▸ sameSpec
  simp only [AllocationBitmap.restore, sameSpec, otherMatches, ne_eq, not_true_eq_false, if_false,
    same.offset, same.max]

theorem Call.run_ok {call : Call} {draws : Draws} {alloc next : AllocationBitmap} {reply : Reply}
    (ran : call.run draws alloc = some (.ok (next, reply))) : next = alloc.apply (call.operation draws) := by
  cases call with
  | allocate offset =>
    simp only [Call.run] at ran
    split at ran
    · cases ran
    · cases ran
    · rename_i allocated
      cases ran
      simp [Call.operation, AllocationBitmap.apply, allocated]
  | allocateNext =>
    simp only [Call.run] at ran
    split at ran
    · rename_i allocated
      cases ran
      simp [Call.operation, AllocationBitmap.apply, allocated]
    · cases ran
    · cases ran
  | release item =>
    simp only [Call.run, Option.some.injEq, Except.ok.injEq, Prod.mk.injEq] at ran
    rw [← ran.1]
    rfl

theorem sameConfig_refresh {alloc : AllocationBitmap} {existing : RangeAllocation} {last : ℕ}
    {result : Except String Unit × AllocationBitmap}
    (found : (if existing.resourceVersion ≠ last then alloc.restore existing.range existing.data
      else (.ok (), alloc)) = result) : SameConfig result.2 alloc := by
  rw [← found]
  split
  · exact sameConfig_restore alloc _ _
  · exact ⟨rfl, rfl, rfl⟩

theorem tryUpdate_write {resource : String} {call : Call} {draws : Draws}
    {alloc next : AllocationBitmap} {last last' : ℕ} {existing object : RangeAllocation}
    {operation : Operation} {reply : Reply}
    (wrote : tryUpdate resource call draws alloc last existing = some (next, last', .write object operation reply)) :
    existing.resourceVersion ≠ 0 ∧ last' = existing.resourceVersion ∧ operation = call.operation draws ∧
      ∃ restored, (if existing.resourceVersion ≠ last then alloc.restore existing.range existing.data
          else (.ok (), alloc)) = (.ok (), restored) ∧
        next = restored.apply operation ∧
        object = { existing with range := next.snapshot.1, data := next.snapshot.2 } := by
  unfold tryUpdate at wrote
  split at wrote
  · cases wrote
  · rename_i present
    dsimp only at wrote
    split at wrote
    · cases wrote
    · rename_i restored found
      split at wrote
      · cases wrote
      · cases wrote
      · rename_i reply ran
        simp only [Option.some.injEq, Prod.mk.injEq, Update.write.injEq] at wrote
        obtain ⟨rfl, rfl, rfl, rfl, rfl⟩ := wrote
        exact ⟨present, rfl, rfl, restored, found, Call.run_ok ran, rfl⟩

theorem tryUpdate_stop {resource : String} {call : Call} {draws : Draws}
    {alloc next : AllocationBitmap} {last last' : ℕ} {existing : RangeAllocation} {reply : Reply}
    (stopped : tryUpdate resource call draws alloc last existing = some (next, last', .stop reply)) :
    last' = last ∧ SameConfig next alloc := by
  unfold tryUpdate at stopped
  split at stopped
  · cases stopped
    exact ⟨rfl, ⟨rfl, rfl, rfl⟩⟩
  · dsimp only at stopped
    split at stopped
    · rename_i message restored found
      cases stopped
      exact ⟨rfl, sameConfig_refresh found⟩
    · rename_i restored found
      split at stopped
      · cases stopped
      · cases stopped
        exact ⟨rfl, sameConfig_refresh found⟩
      · cases stopped

/-! ## What one step can do -/

namespace Cluster

variable {ι : Type} [DecidableEq ι]

@[simp] theorem setInstance_self (s : Cluster ι) (i : ι) (e : Etcd) : (s.setInstance i e).instances i = e := by
  simp [setInstance]

@[simp] theorem setInstance_other (s : Cluster ι) {i j : ι} (e : Etcd) (other : j ≠ i) :
    (s.setInstance i e).instances j = s.instances j := by
  simp [setInstance, Function.update_of_ne other]

@[simp] theorem setInstance_store (s : Cluster ι) (i : ι) (e : Etcd) : (s.setInstance i e).store = s.store := rfl

@[simp] theorem setInstance_history (s : Cluster ι) (i : ι) (e : Etcd) :
    (s.setInstance i e).history = s.history := rfl

theorem step_cases {resource : String} {s next : Cluster ι} {input : Input ι}
    (stepped : step resource s input = some next) :
    (∃ i call, (s.instances i).phase = .idle ∧
      next = s.setInstance i { s.instances i with phase := .busy call }) ∨
    (∃ i call draws alloc last reply, (s.instances i).phase = .busy call ∧
      tryUpdate resource call draws (s.instances i).alloc (s.instances i).last s.store =
        some (alloc, last, .stop reply) ∧
      next = { s.setInstance i ⟨alloc, last, .idle⟩ with replies := s.replies ++ [(i, call, reply)] }) ∨
    (∃ i call draws alloc last object operation reply, (s.instances i).phase = .busy call ∧
      tryUpdate resource call draws (s.instances i).alloc (s.instances i).last s.store =
        some (alloc, last, .write object operation reply) ∧
      next = s.setInstance i ⟨alloc, last, .swapping call s.store.resourceVersion object operation reply⟩) ∨
    (∃ i call read object operation reply,
      (s.instances i).phase = .swapping call read object operation reply ∧ s.store.resourceVersion = read ∧
      next = { s.setInstance i { s.instances i with phase := .idle } with
        store := { object with resourceVersion := read + 1 }
        replies := s.replies ++ [(i, call, reply)]
        history := s.history ++ [operation] }) ∨
    (∃ i call read object operation reply,
      (s.instances i).phase = .swapping call read object operation reply ∧ s.store.resourceVersion ≠ read ∧
      next = s.setInstance i { s.instances i with phase := .busy call }) := by
  cases input with
  | invoke i call =>
    simp only [step] at stepped
    split at stepped
    · rename_i idle
      cases stepped
      exact .inl ⟨i, call, idle, rfl⟩
    · cases stepped
  | attempt i draws =>
    simp only [step] at stepped
    split at stepped
    · rename_i call busy
      split at stepped
      · split at stepped
        · cases stepped
        · rename_i alloc last reply stopped
          cases stepped
          exact .inr (.inl ⟨i, call, draws, alloc, last, reply, busy, stopped, rfl⟩)
        · rename_i alloc last object operation reply wrote
          cases stepped
          exact .inr (.inr (.inl ⟨i, call, draws, alloc, last, object, operation, reply, busy, wrote, rfl⟩))
      · cases stepped
    · cases stepped
  | swap i =>
    simp only [step] at stepped
    split at stepped
    · rename_i call read object operation reply swapping
      split at stepped
      · rename_i current
        cases stepped
        exact .inr (.inr (.inr (.inl ⟨i, call, read, object, operation, reply, swapping, current, rfl⟩)))
      · rename_i conflict
        cases stepped
        exact .inr (.inr (.inr (.inr ⟨i, call, read, object, operation, reply, swapping, conflict, rfl⟩)))
    · cases stepped

end Cluster

/-! ## The persisted bitmap replays the committed operations -/

/-- What committing an operation leaves under the key: the bitmap restored from the stored
object, the operation applied to it, and its snapshot at the next version. -/
def commit (config : AllocationBitmap) (stored : RangeAllocation) (operation : Operation) :
    RangeAllocation :=
  let next := (config.restore stored.range stored.data).2.apply operation
  { resourceVersion := stored.resourceVersion + 1, range := next.snapshot.1, data := next.snapshot.2 }

/-- An instance that is not between a run of the update function and its swap. -/
def Phase.Settled : Phase → Prop
  | .swapping .. => False
  | _ => True

theorem tryUpdate_write_commit {config alloc next : AllocationBitmap} (same : SameConfig alloc config)
    {resource : String} {call : Call} {draws : Draws} {last last' : ℕ}
    {existing object : RangeAllocation} {operation : Operation} {reply : Reply}
    (stale : last < existing.resourceVersion ∨ existing.resourceVersion = 0)
    (wrote : tryUpdate resource call draws alloc last existing = some (next, last', .write object operation reply)) :
    { object with resourceVersion := existing.resourceVersion + 1 } = commit config existing operation := by
  obtain ⟨present, -, -, restored, found, rfl, rfl⟩ := tryUpdate_write wrote
  -- the version read is not the one the instance last read, so the bitmap was restored
  have notLast : existing.resourceVersion ≠ last := by omega
  rw [if_pos notLast] at found
  have sameSpec : alloc.rangeSpec = existing.range := by
    by_contra mismatch
    simp [AllocationBitmap.restore, mismatch] at found
  have restoredEq : restored = (config.restore existing.range existing.data).2 := by
    rw [← restore_congr same sameSpec, found]
  subst restoredEq
  rfl

namespace Cluster

variable {ι : Type} [DecidableEq ι]

/-- What holds of every reachable cluster: the instances keep their configuration; an
instance not about to swap has not read the current version, so its next run of the update
function restores the bitmap; a swap about to succeed writes the commit of its operation;
and the key holds the commits of the history, in order. -/
structure Coherent (config : AllocationBitmap) (stored : RangeAllocation) (s : Cluster ι) : Prop where
  configured : ∀ i, SameConfig (s.instances i).alloc config
  stale : ∀ i, (s.instances i).phase.Settled →
    (s.instances i).last < s.store.resourceVersion ∨ s.store.resourceVersion = 0
  swapping : ∀ i call read object operation reply,
    (s.instances i).phase = .swapping call read object operation reply →
      0 < read ∧ read ≤ s.store.resourceVersion ∧ (s.instances i).last = read ∧
        (s.store.resourceVersion = read →
          { object with resourceVersion := read + 1 } = commit config s.store operation)
  persisted : s.store = s.history.foldl (commit config) stored

variable {config : AllocationBitmap} {stored : RangeAllocation}

omit [DecidableEq ι] in
theorem coherent_initial (config : AllocationBitmap) (stored : RangeAllocation) :
    Coherent config stored (initial (ι := ι) config stored) where
  configured _ := ⟨rfl, rfl, rfl⟩
  stale _ _ := by
    rcases Nat.eq_zero_or_pos stored.resourceVersion with absent | present
    · exact .inr absent
    · exact .inl present
  swapping _ _ _ _ _ _ idle := by cases idle
  persisted := rfl

theorem Coherent.setInstance {s : Cluster ι} (coherent : Coherent config stored s) (i : ι) (e : Etcd)
    (configured : SameConfig e.alloc config)
    (stale : e.phase.Settled → e.last < s.store.resourceVersion ∨ s.store.resourceVersion = 0)
    (swapping : ∀ call read object operation reply, e.phase = .swapping call read object operation reply →
      0 < read ∧ read ≤ s.store.resourceVersion ∧ e.last = read ∧
        (s.store.resourceVersion = read →
          { object with resourceVersion := read + 1 } = commit config s.store operation)) :
    Coherent config stored (s.setInstance i e) := by
  refine ⟨fun j => ?_, fun j => ?_, fun j => ?_, coherent.persisted⟩
  all_goals
    by_cases same : j = i
    · subst same
      simp only [setInstance_self, setInstance_store]
      first
        | exact configured
        | exact stale
        | exact swapping
    · simp only [setInstance_other s e same, setInstance_store]
      first
        | exact coherent.configured j
        | exact coherent.stale j
        | exact coherent.swapping j

omit [DecidableEq ι] in
theorem Coherent.withReplies {s : Cluster ι} (coherent : Coherent config stored s)
    (replies : List (ι × Call × Reply)) : Coherent config stored { s with replies := replies } :=
  ⟨coherent.configured, coherent.stale, coherent.swapping, coherent.persisted⟩

theorem Coherent.step {resource : String} {s next : Cluster ι} {input : Input ι}
    (coherent : Coherent config stored s) (stepped : step resource s input = some next) :
    Coherent config stored next := by
  rcases step_cases stepped with
    ⟨i, call, idle, rfl⟩ |
    ⟨i, call, draws, alloc, last, reply, busy, stopped, rfl⟩ |
    ⟨i, call, draws, alloc, last, object, operation, reply, busy, wrote, rfl⟩ |
    ⟨i, call, read, object, operation, reply, swapping, current, rfl⟩ |
    ⟨i, call, read, object, operation, reply, swapping, conflict, rfl⟩
  · -- an invocation only marks the instance busy
    have settled : (s.instances i).phase.Settled := by simp [idle, Phase.Settled]
    exact coherent.setInstance i _ (coherent.configured i) (fun _ => coherent.stale i settled)
      (fun _ _ _ _ _ marked => by cases marked)
  · -- the update function stopped: the cache is as it was, the bitmap at most restored
    have settled : (s.instances i).phase.Settled := by simp [busy, Phase.Settled]
    obtain ⟨rfl, same⟩ := tryUpdate_stop stopped
    refine (coherent.setInstance i ⟨alloc, (s.instances i).last, .idle⟩ (same.trans (coherent.configured i))
      (fun _ => coherent.stale i settled) (fun _ _ _ _ _ idle => by cases idle)).withReplies _
  · -- the update function wrote: the instance waits to swap at the version it read
    have settled : (s.instances i).phase.Settled := by simp [busy, Phase.Settled]
    have commits := tryUpdate_write_commit (coherent.configured i) (coherent.stale i settled) wrote
    obtain ⟨present, rfl, -, restored, found, rfl, -⟩ := tryUpdate_write wrote
    have configured : SameConfig (restored.apply operation) config :=
      (sameConfig_apply restored operation).trans
        ((sameConfig_refresh found).trans (coherent.configured i))
    refine coherent.setInstance i _ configured (fun waiting => by cases waiting) ?_
    intro call' read' object' operation' reply' waiting
    simp only [Phase.swapping.injEq] at waiting
    obtain ⟨-, rfl, rfl, rfl, -⟩ := waiting
    exact ⟨Nat.pos_of_ne_zero present, le_rfl, rfl, fun _ => commits⟩
  · -- the swap succeeded: the key moves to the commit of the operation, one version on
    obtain ⟨positive, -, lastRead, commits⟩ :=
      coherent.swapping i call read object operation reply swapping
    refine ⟨fun j => ?_, fun j settled => .inl ?_, fun j call' read' object' operation' reply' waiting => ?_, ?_⟩
    · by_cases same : j = i
      · subst same
        simpa using coherent.configured j
      · simpa [same] using coherent.configured j
    · by_cases same : j = i
      · subst same
        simp only [setInstance_self]
        omega
      · -- another settled instance has read at most the version before
        simp only [setInstance_other s _ same] at settled ⊢
        have older := coherent.stale j settled
        omega
    · by_cases same : j = i
      · subst same
        simp at waiting
      · -- another waiting instance read an older version, so its swap will fail
        simp only [setInstance_other s _ same] at waiting ⊢
        obtain ⟨readPositive, readOlder, lastRead', -⟩ :=
          coherent.swapping j call' read' object' operation' reply' waiting
        exact ⟨readPositive, by omega, lastRead', fun newer => by omega⟩
    · show { object with resourceVersion := read + 1 } = (s.history ++ [operation]).foldl (commit config) stored
      rw [List.foldl_append, ← coherent.persisted]
      exact commits current
  · -- the swap failed: the instance is busy again, having read an older version
    obtain ⟨-, readOlder, lastRead, -⟩ := coherent.swapping i call read object operation reply swapping
    refine coherent.setInstance i _ (coherent.configured i) (fun _ => .inl ?_)
      (fun _ _ _ _ _ busy => by cases busy)
    show (s.instances i).last < s.store.resourceVersion
    omega

theorem coherent_invariant (resource : String) (config : AllocationBitmap) (stored : RangeAllocation) :
    (system (ι := ι) resource config stored).Invariant (Coherent config stored) :=
  System.Inductive.invariant
    { init := fun _ initial => initial ▸ coherent_initial config stored
      step := fun _ _ _ coherent stepped => coherent.step stepped }

end Cluster

/-! ## What the key holds, read as a bitmap -/

/-- The bitmap a stored object holds, as `Restore` reads it into a configured bitmap. -/
def decode (config : AllocationBitmap) (stored : RangeAllocation) : AllocationBitmap :=
  (config.restore stored.range stored.data).2

/-- An operation as the key records it: applied to the bitmap, with the count read back
from the bits, as the next `Restore` does. -/
def settle (r : AllocationBitmap) (operation : Operation) : AllocationBitmap :=
  let next := r.apply operation
  { next with count := next.allocated.card }

theorem commit_range (config : AllocationBitmap) (stored : RangeAllocation) (operation : Operation)
    (sameRange : stored.range = config.rangeSpec) : (commit config stored operation).range = config.rangeSpec := by
  simp [commit, AllocationBitmap.snapshot, AllocationBitmap.restore, sameRange]

theorem decode_commit (config : AllocationBitmap) (stored : RangeAllocation) (operation : Operation)
    (sameRange : stored.range = config.rangeSpec) :
    decode config (commit config stored operation) = settle (decode config stored) operation := by
  have same : SameConfig ((decode config stored).apply operation) config :=
    (sameConfig_apply _ operation).trans (sameConfig_restore config _ _)
  simp only [decode, commit] at same ⊢
  rw [AllocationBitmap.restore_snapshot _ _ same.rangeSpec.symm]
  obtain ⟨offset, max, rangeSpec, count, allocated⟩ := config
  simp only [settle, same.offset, same.max, same.rangeSpec]

theorem decode_foldl_commit (config : AllocationBitmap) (history : List Operation) :
    ∀ stored : RangeAllocation, stored.range = config.rangeSpec →
      decode config (history.foldl (commit config) stored) = history.foldl settle (decode config stored) := by
  induction history with
  | nil => intro _ _; rfl
  | cons operation rest ih =>
    intro stored sameRange
    rw [List.foldl_cons, List.foldl_cons, ih _ (commit_range config stored operation sameRange),
      decode_commit config stored operation sameRange]

namespace Cluster

variable {ι : Type} [DecidableEq ι] {config : AllocationBitmap} {stored : RangeAllocation}

/-- The key always holds the initial bitmap with the operations of the successful writes
applied in the order they were written. -/
theorem store_replays_history {resource : String} {s : Cluster ι}
    (reachable : (system resource config stored).Reachable s) (sameRange : stored.range = config.rangeSpec) :
    decode config s.store = s.history.foldl settle (decode config stored) := by
  rw [(coherent_invariant resource config stored s reachable).persisted]
  exact decode_foldl_commit config s.history stored sameRange

end Cluster

/-! ## Two instances report one offset -/

/-- Three offsets, the two lowest reserved for explicit requests, stored at version 1 before
any allocation. -/
def sharedRange : AllocationBitmap := newAllocationMapWithOffset 3 "test" 2

def createdKey : RangeAllocation := ⟨1, "test", []⟩

/-- The first instance takes the upper offset 2 and the reserved offset 0; the second then
asks for any offset, finds the upper range full and draws in the reserved block. -/
def doubleReportTrace : List (Input Bool) :=
  [.invoke true (.allocate 2), .attempt true ⟨0, 0⟩, .swap true,
   .invoke true (.allocate 0), .attempt true ⟨0, 0⟩, .swap true,
   .invoke false .allocateNext, .attempt false ⟨0, 1⟩, .swap false]

/-- After the trace the key reads back as its history replayed on the created key. -/
theorem store_replays_history_after_trace :
    ∃ s : Cluster Bool, (Cluster.system "serviceipallocations" sharedRange createdKey).Reachable s ∧
      createdKey.range = sharedRange.rangeSpec ∧
      decode sharedRange s.store = s.history.foldl settle (decode sharedRange createdKey) := by
  obtain ⟨s, ran⟩ : ∃ s, System.runPartial (Cluster.step "serviceipallocations") (Cluster.initial sharedRange createdKey)
      doubleReportTrace = some s := ⟨_, rfl⟩
  have reachable : (Cluster.system "serviceipallocations" sharedRange createdKey).Reachable s :=
    System.reachable_of_runPartial rfl doubleReportTrace ran
  exact ⟨s, reachable, rfl, Cluster.store_replays_history reachable rfl⟩

theorem etcd_allocateNext_reports_allocated_offset :
    ∃ s : Cluster Bool, (Cluster.system "serviceipallocations" sharedRange createdKey).Reachable s ∧
      s.replies = [(true, .allocate 2, .allocated 2 true), (true, .allocate 0, .allocated 0 true),
        (false, .allocateNext, .allocated 0 true)] :=
  ⟨_, System.reachable_of_runPartial rfl doubleReportTrace rfl, by decide⟩

/-! ## Writes that fail

The compare-and-swap of `GuaranteedUpdate` can also fail with an error that is not a
conflict (a timeout, an unavailable server): the key keeps its object and version, and the
method returns the error. The update function has already run by then, so the instance keeps
the bitmap it changed and the version it read as `last`. -/

/-- An input of the cluster, or the write of a waiting instance failing with an error other
than a conflict. -/
inductive FaultyInput (ι : Type) where
  | input (input : Input ι)
  | writeFails (server : ι) (message : String)

namespace Cluster

variable {ι : Type} [DecidableEq ι]

def faultyStep (resource : String) (s : Cluster ι) : FaultyInput ι → Option (Cluster ι)
  | .input input => s.step resource input
  | .writeFails i message =>
    match (s.instances i).phase with
    | .swapping call _ _ _ _ =>
      some { s.setInstance i { s.instances i with phase := .idle } with
        replies := s.replies ++ [(i, call, .failed message)] }
    | _ => none

def faultySystem (resource : String) (config : AllocationBitmap) (stored : RangeAllocation) :
    System (Cluster ι) (FaultyInput ι) :=
  System.ofPartial (fun s => s = initial config stored) (faultyStep resource)

end Cluster

/-- One instance asks for offset 0 and its write times out; it then asks for offset 1. The
key was not written between the two calls, so the second run of the update function finds the
version it read as `last`, skips `Restore`, and runs on the bitmap the failed call
changed. -/
def failedWriteTrace : List (FaultyInput Bool) :=
  [.input (.invoke true (.allocate 0)), .input (.attempt true ⟨0, 0⟩),
   .writeFails true "etcdserver: request timed out",
   .input (.invoke true (.allocate 1)), .input (.attempt true ⟨0, 0⟩), .input (.swap true)]

theorem etcd_failed_allocate_persisted_by_next_call :
    ∃ s : Cluster Bool, (Cluster.faultySystem "serviceipallocations" sharedRange createdKey).Reachable s ∧
      s.replies = [(true, .allocate 0, .failed "etcdserver: request timed out"),
        (true, .allocate 1, .allocated 1 true)] ∧
      s.history = [.allocate 1] ∧ (decode sharedRange s.store).allocated = {0, 1} :=
  ⟨_, System.reachable_of_runPartial rfl failedWriteTrace rfl, by decide +kernel⟩

end Kubernetes.Registry.Allocator.Storage
