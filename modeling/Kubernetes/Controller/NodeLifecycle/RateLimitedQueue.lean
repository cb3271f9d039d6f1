import Mathlib.Data.Finset.Basic
import Kubernetes.Library.ContainerHeap
import Kubernetes.Library.GoInt
import Kubernetes.Library.Lexicographic
import Kubernetes.Library.Transition

/-! The node lifecycle controller's eviction queue
(`pkg/controller/nodelifecycle/scheduler/rate_limited_queue.go`).

A `UniqueQueue` keeps timed values in a `container/heap` ordered by `ProcessAt`, beside a set of
the values it has been given. `Add` refuses a value in the set; `RemoveFromQueue` takes a value
out of the heap and leaves it in the set, so that it is not added again; `Remove` takes it out of
both. `RateLimitedTimedQueue.Try` calls a function on the head of the heap while the rate limiter
and the clock allow, takes the value out of the heap where the function succeeds and puts it
back with a later `ProcessAt` where it fails.

The calls are serialized by the controller's `evictorLock`, and `Try` holds it through its loop.
The evictor is a transition system whose steps are the calls and the rounds of `Try`'s loop,
with the rate limiter's answers, the clock's readings and the function's results as inputs.
-/

set_option autoImplicit false

namespace Kubernetes.Controller.Nodelifecycle

open Kubernetes.Library Kubernetes.Library.ContainerHeap

/-- `TimedValue`: a value to process at a designated time; the UID may be anything. -/
structure TimedValue (υ : Type) where
  value : String
  uid : υ
  addedAt : ℤ
  processAt : ℤ
  deriving DecidableEq, Repr

variable {υ : Type}

/-- `TimedQueue.Less`: the earlier `ProcessAt` first. -/
def TimedQueue.less (a b : TimedValue υ) : Bool := decide (a.processAt < b.processAt)

instance timedQueueOrder : StrictWeak (@TimedQueue.less υ) := strictWeak_byKey TimedValue.processAt

/-- `UniqueQueue`: the heap, a `TimedQueue` slice under `container/heap`, and the set of values. -/
structure UniqueQueue (υ : Type) where
  queue : List (TimedValue υ)
  set : Finset String

namespace UniqueQueue

/-- The first slot of the heap holding a value. -/
def find (q : UniqueQueue υ) (value : String) : Option ℕ := q.queue.findIdx? (·.value = value)

def add (q : UniqueQueue υ) (value : TimedValue υ) : UniqueQueue υ × Bool :=
  if value.value ∈ q.set then (q, false)
  else
    ({ queue := push (sliceInterface TimedQueue.less) q.queue value, set := insert value.value q.set },
      true)

def replace (q : UniqueQueue υ) (value : TimedValue υ) : UniqueQueue υ × Bool :=
  match q.find value.value with
  | some i =>
    let rest := (ContainerHeap.remove (sliceInterface TimedQueue.less) q.queue i).1
    ({ q with queue := push (sliceInterface TimedQueue.less) rest value }, true)
  | none => (q, false)

def removeFromQueue (q : UniqueQueue υ) (value : String) : UniqueQueue υ × Bool :=
  if value ∉ q.set then (q, false)
  else
    match q.find value with
    | some i => ({ q with queue := (ContainerHeap.remove (sliceInterface TimedQueue.less) q.queue i).1 }, true)
    | none => (q, false)

/-- `Remove`: out of the set, and out of the heap where it is there. -/
def remove (q : UniqueQueue υ) (value : String) : UniqueQueue υ × Bool :=
  if value ∉ q.set then (q, false)
  else
    let set := q.set.erase value
    match q.find value with
    | some i =>
      ({ queue := (ContainerHeap.remove (sliceInterface TimedQueue.less) q.queue i).1, set := set },
        true)
    | none => ({ q with set := set }, true)

def head (q : UniqueQueue υ) : Option (TimedValue υ) := q.queue[0]?

/-- `Clear`: a fresh heap and set where they are not empty, which is an empty heap and set. -/
def clear (_ : UniqueQueue υ) : UniqueQueue υ := { queue := [], set := ∅ }

end UniqueQueue

/-- `RateLimitedTimedQueue`; its rate limiter answers from outside. -/
structure RateLimitedTimedQueue (υ : Type) where
  queue : UniqueQueue υ

namespace RateLimitedTimedQueue

/-- `NewRateLimitedTimedQueue`. -/
def new : RateLimitedTimedQueue υ := ⟨⟨[], ∅⟩⟩

/-- `Add` at the time `now` reads. -/
def add (q : RateLimitedTimedQueue υ) (value : String) (uid : υ) (now : ℤ) :
    RateLimitedTimedQueue υ × Bool :=
  let added := q.queue.add { value := value, uid := uid, addedAt := now, processAt := now }
  (⟨added.1⟩, added.2)

def remove (q : RateLimitedTimedQueue υ) (value : String) : RateLimitedTimedQueue υ × Bool :=
  let removed := q.queue.remove value
  (⟨removed.1⟩, removed.2)

def clear (q : RateLimitedTimedQueue υ) : RateLimitedTimedQueue υ := ⟨q.queue.clear⟩

/-- One round of `Try`'s loop on the value `val` it holds, with the rate limiter's answer, the
clock's reading and `fn`'s result: the queue after it and the value the loop holds next, `none`
where the loop ends. A time plus a `Duration` is their sum in nanoseconds; `wait + 1` is a
`Duration` sum. -/
def tryRound (q : RateLimitedTimedQueue υ) (val : TimedValue υ) (accepted : Bool) (now : ℤ)
    (result : Bool × ℤ) : RateLimitedTimedQueue υ × Option (TimedValue υ) :=
  -- rate limit the queue checking
  if !accepted then (q, none)
  else if now < val.processAt then (q, none)
  else
    let queue :=
      if !result.1 then (q.queue.replace { val with processAt := now + intAdd result.2 1 }).1
      else (q.queue.removeFromQueue val.value).1
    (⟨queue⟩, queue.head)

end RateLimitedTimedQueue

/-! ## What the heap and the set keep -/

namespace UniqueQueue

/-- The heap is in order by `ProcessAt`, holds each value at most once, and only values of the
set. -/
structure Valid (q : UniqueQueue υ) : Prop where
  heap : IsHeap TimedQueue.less q.queue
  unique : (q.queue.map (·.value)).Nodup
  tracked : ∀ x ∈ q.queue, x.value ∈ q.set

variable {q : UniqueQueue υ}

theorem find_eq_some {value : String} {i : ℕ} (found : q.find value = some i) :
    ∃ inside : i < q.queue.length, q.queue[i].value = value := by
  obtain ⟨inside, holds, -⟩ := List.findIdx?_eq_some_iff_getElem.mp found
  exact ⟨inside, by simpa using holds⟩

theorem find_eq_none {value : String} (missing : q.find value = none) :
    ∀ x ∈ q.queue, x.value ≠ value := by
  intro x mem same
  have := List.findIdx?_eq_none_iff.mp missing x mem
  simp [same] at this

theorem find_head {val : TimedValue υ} (head : q.head = some val) : q.find val.value = some 0 := by
  obtain ⟨inside, first⟩ := List.getElem?_eq_some_iff.mp head
  exact List.findIdx?_eq_some_iff_getElem.mpr ⟨inside, by simp [first], fun _ below => absurd below (by omega)⟩

theorem Valid.removeAt (valid : q.Valid) {i : ℕ} (inside : i < q.queue.length) :
    let rest := (ContainerHeap.remove (sliceInterface TimedQueue.less) q.queue i).1
    IsHeap TimedQueue.less rest ∧ List.Perm (q.queue[i] :: rest) q.queue ∧
      (rest.map (·.value)).Nodup ∧ ∀ x ∈ rest, x.value ≠ q.queue[i].value := by
  intro rest
  have perm := (@remove_contents _ TimedQueue.less q.queue i inside).2
  have unique := (perm.map (·.value)).nodup_iff.mpr valid.unique
  rw [List.map_cons, List.nodup_cons] at unique
  refine ⟨isHeap_remove valid.heap inside, perm, unique.2, fun x mem same => unique.1 ?_⟩
  exact List.mem_map.mpr ⟨x, mem, same⟩

theorem Valid.add (valid : q.Valid) (value : TimedValue υ) :
    (q.add value).1.Valid ∧ q.set ⊆ (q.add value).1.set ∧
      ∀ x ∈ (q.add value).1.queue, x ∈ q.queue ∨ value.value ∉ q.set ∧ x = value := by
  unfold UniqueQueue.add
  split_ifs with mem
  · exact ⟨valid, subset_refl _, fun x kept => .inl kept⟩
  have perm := @push_perm _ TimedQueue.less q.queue value
  have fresh : value.value ∉ q.queue.map (·.value) := by
    simp only [List.mem_map, not_exists, not_and]
    intro x kept same
    exact mem (same ▸ valid.tracked x kept)
  refine ⟨⟨isHeap_push valid.heap value, ?_, ?_⟩, Finset.subset_insert _ _, ?_⟩
  · rw [(perm.map (·.value)).nodup_iff, List.map_append, List.map_singleton]
    exact List.nodup_append.mpr ⟨valid.unique, List.nodup_singleton _, by simpa using fresh⟩
  · intro x member
    rcases List.mem_append.mp (perm.subset member) with kept | added
    · exact Finset.mem_insert_of_mem (valid.tracked x kept)
    · rw [List.mem_singleton.mp added]
      exact Finset.mem_insert_self _ _
  · intro x member
    rcases List.mem_append.mp (perm.subset member) with kept | added
    · exact .inl kept
    · exact .inr ⟨mem, List.mem_singleton.mp added⟩

theorem Valid.replace (valid : q.Valid) {value : TimedValue υ} {i : ℕ}
    (found : q.find value.value = some i) :
    (q.replace value).1.Valid ∧ (q.replace value).1.set = q.set ∧
      value ∈ (q.replace value).1.queue ∧
      ∀ x ∈ (q.replace value).1.queue, x = value ∨ x ∈ q.queue ∧ x.value ≠ value.value := by
  obtain ⟨inside, same⟩ := find_eq_some found
  obtain ⟨heap, perm, unique, apart⟩ := valid.removeAt inside
  unfold UniqueQueue.replace
  rw [found]
  dsimp only
  set rest := (ContainerHeap.remove (sliceInterface TimedQueue.less) q.queue i).1
  have pushed := @push_perm _ TimedQueue.less rest value
  have mem_pushed : ∀ x, x ∈ push (sliceInterface TimedQueue.less) rest value ↔ x ∈ rest ∨ x = value := by
    intro x
    rw [pushed.mem_iff, List.mem_append, List.mem_singleton]
  have kept : ∀ x ∈ rest, x ∈ q.queue := fun x mem => perm.subset (List.mem_cons_of_mem _ mem)
  refine ⟨⟨isHeap_push heap value, ?_, ?_⟩, rfl, (mem_pushed value).mpr (.inr rfl), ?_⟩
  · rw [(pushed.map (·.value)).nodup_iff, List.map_append, List.map_singleton]
    refine List.nodup_append.mpr ⟨unique, List.nodup_singleton _, ?_⟩
    intro a inRest b inNew equal
    obtain ⟨x, mem, rfl⟩ := List.mem_map.mp inRest
    rw [List.mem_singleton] at inNew
    exact apart x mem (equal.trans (inNew.trans same.symm))
  · intro x member
    rcases (mem_pushed x).mp member with old | rfl
    · exact valid.tracked x (kept x old)
    · exact same ▸ valid.tracked _ (List.getElem_mem inside)
  · intro x member
    rcases (mem_pushed x).mp member with old | new
    · exact .inr ⟨kept x old, same ▸ apart x old⟩
    · exact .inl new

theorem Valid.removeFromQueue (valid : q.Valid) {value : String} {i : ℕ} (tracked : value ∈ q.set)
    (found : q.find value = some i) :
    (q.removeFromQueue value).1.Valid ∧ (q.removeFromQueue value).1.set = q.set ∧
      ∀ x ∈ (q.removeFromQueue value).1.queue, x ∈ q.queue ∧ x.value ≠ value := by
  obtain ⟨inside, same⟩ := find_eq_some found
  obtain ⟨heap, perm, unique, apart⟩ := valid.removeAt inside
  unfold UniqueQueue.removeFromQueue
  rw [if_neg (not_not.mpr tracked), found]
  have kept : ∀ x ∈ (ContainerHeap.remove (sliceInterface TimedQueue.less) q.queue i).1,
      x ∈ q.queue := fun x mem => perm.subset (List.mem_cons_of_mem _ mem)
  exact ⟨⟨heap, unique, fun x mem => valid.tracked x (kept x mem)⟩, rfl,
    fun x mem => ⟨kept x mem, same ▸ apart x mem⟩⟩

theorem Valid.remove (valid : q.Valid) (value : String) :
    (q.remove value).1.Valid ∧ (q.remove value).1.set = q.set.erase value ∧
      ∀ x ∈ (q.remove value).1.queue, x ∈ q.queue := by
  unfold UniqueQueue.remove
  by_cases tracked : value ∈ q.set
  swap
  · rw [if_pos tracked]
    exact ⟨valid, (Finset.erase_eq_of_notMem tracked).symm, fun x mem => mem⟩
  rw [if_neg (not_not.mpr tracked)]
  dsimp only
  cases found : q.find value with
  | none =>
    refine ⟨⟨valid.heap, valid.unique, fun x mem => ?_⟩, rfl, fun x mem => mem⟩
    exact Finset.mem_erase.mpr ⟨find_eq_none found x mem, valid.tracked x mem⟩
  | some i =>
    obtain ⟨inside, same⟩ := find_eq_some found
    obtain ⟨heap, perm, unique, apart⟩ := valid.removeAt inside
    have kept : ∀ x ∈ (ContainerHeap.remove (sliceInterface TimedQueue.less) q.queue i).1,
        x ∈ q.queue := fun x mem => perm.subset (List.mem_cons_of_mem _ mem)
    refine ⟨⟨heap, unique, fun x mem => ?_⟩, rfl, kept⟩
    exact Finset.mem_erase.mpr ⟨same ▸ apart x mem, valid.tracked x (kept x mem)⟩

end UniqueQueue

/-! ## The evictor -/

/-- A call on the evictor, or a round of `Try`'s loop, with what it reads from outside: the
clock, the rate limiter's answer and `fn`'s result. -/
inductive Call (υ : Type)
  | add (value : String) (uid : υ) (now : ℤ)
  | remove (value : String)
  | clear
  | tryStart
  | tryRound (accepted : Bool) (now : ℤ) (result : Bool × ℤ)

structure Evictor (υ : Type) where
  queue : RateLimitedTimedQueue υ
  /-- The last reading of the clock. -/
  clock : ℤ
  /-- Inside `Try`: the value its loop holds. -/
  trying : Option (TimedValue υ)

namespace Evictor

def step (e : Evictor υ) : Call υ → Evictor υ
  | .add value uid now => { e with queue := (e.queue.add value uid now).1, clock := now }
  | .remove value => { e with queue := (e.queue.remove value).1 }
  | .clear => { e with queue := e.queue.clear }
  | .tryStart => { e with trying := e.queue.queue.head }
  | .tryRound accepted now result =>
    match e.trying with
    | some val =>
      let round := e.queue.tryRound val accepted now result
      { queue := round.1, clock := if accepted then now else e.clock, trying := round.2 }
    | none => e

/-- Calls come one at a time under `evictorLock`, none while `Try` runs; the clock does not go
back, and a `Duration` is an `int64`. -/
def admissible (e : Evictor υ) : Call υ → Prop
  | .add _ _ now => e.trying = none ∧ e.clock ≤ now
  | .remove _ => e.trying = none
  | .clear => e.trying = none
  | .tryStart => e.trying = none
  | .tryRound _ now result =>
    e.trying.isSome ∧ e.clock ≤ now ∧ -2 ^ 63 ≤ result.2 ∧ result.2 ≤ maxInt

/-- The value `fn` is called on in a round of `Try`, where it is called. -/
def fnCall (e : Evictor υ) (accepted : Bool) (now : ℤ) : Option (TimedValue υ) :=
  match e.trying with
  | some val => if accepted ∧ val.processAt ≤ now then some val else none
  | none => none

end Evictor

/-- The evictor with, as ghost state, the values `fn` has processed since they were last
removed or cleared. -/
structure World (υ : Type) where
  evictor : Evictor υ
  processed : Finset String

def World.step (w : World υ) (call : Call υ) : World υ where
  evictor := w.evictor.step call
  processed :=
    match call with
    | .remove value => w.processed.erase value
    | .clear => ∅
    | .tryRound accepted now result =>
      match w.evictor.fnCall accepted now with
      | some val => if result.1 then insert val.value w.processed else w.processed
      | none => w.processed
    | _ => w.processed

/-- The evictor from `NewRateLimitedTimedQueue`, at any reading of the clock. -/
def system (υ : Type) : System (World υ) (Call υ) where
  init w := w.evictor.queue = RateLimitedTimedQueue.new ∧ w.evictor.trying = none ∧ w.processed = ∅
  step w call w' := w.evictor.admissible call ∧ w' = w.step call

/-! ## Invariants -/

theorem UniqueQueue.Valid.head_least {q : UniqueQueue υ} (valid : q.Valid) {val : TimedValue υ}
    (head : q.head = some val) : val ∈ q.queue ∧ ∀ x ∈ q.queue, val.processAt ≤ x.processAt := by
  refine ⟨List.mem_of_getElem? head, fun x mem => ?_⟩
  have later := valid.heap.root_least head x mem
  simpa [TimedQueue.less] using later

namespace RateLimitedTimedQueue

variable {q : RateLimitedTimedQueue υ} {val : TimedValue υ} {accepted : Bool} {now : ℤ}
  {result : Bool × ℤ}

theorem tryRound_of_skipped (skipped : ¬(accepted = true ∧ val.processAt ≤ now)) :
    q.tryRound val accepted now result = (q, none) := by
  unfold tryRound
  cases accepted
  · rfl
  · have early : now < val.processAt := by simpa using skipped
    simp [early]

theorem tryRound_of_called (called : accepted = true ∧ val.processAt ≤ now) :
    q.tryRound val accepted now result =
      let queue :=
        if !result.1 then (q.queue.replace { val with processAt := now + intAdd result.2 1 }).1
        else (q.queue.removeFromQueue val.value).1
      (⟨queue⟩, queue.head) := by
  unfold tryRound
  rw [called.1, if_neg (by simp), if_neg (not_lt.mpr called.2)]

end RateLimitedTimedQueue

/-- What every reachable world keeps: a valid heap, processed values in the set and out of the
heap, and `Try` holding the head. -/
structure Invariant (w : World υ) : Prop where
  valid : w.evictor.queue.queue.Valid
  processed_tracked : w.processed ⊆ w.evictor.queue.queue.set
  processed_out : ∀ x ∈ w.evictor.queue.queue.queue, x.value ∉ w.processed
  holding : ∀ val, w.evictor.trying = some val → w.evictor.queue.queue.head = some val

namespace Invariant

variable {w : World υ}

theorem initial (init : (system υ).init w) : Invariant w := by
  obtain ⟨empty, idle, none_processed⟩ := init
  refine ⟨?_, ?_, ?_, ?_⟩
  · rw [empty]
    exact ⟨fun c _ inside => absurd inside (by simp [RateLimitedTimedQueue.new]), List.nodup_nil,
      fun x mem => absurd mem List.not_mem_nil⟩
  · simp [none_processed]
  · simp [empty, RateLimitedTimedQueue.new]
  · simp [idle]

theorem add (inv : Invariant w) (idle : w.evictor.trying = none) (value : String) (uid : υ)
    (now : ℤ) : Invariant (w.step (.add value uid now)) := by
  obtain ⟨valid, grows, entries⟩ := inv.valid.add { value := value, uid := uid, addedAt := now, processAt := now }
  refine ⟨valid, inv.processed_tracked.trans grows, fun x mem => ?_, fun val holds => ?_⟩
  · rcases entries x mem with old | ⟨fresh, rfl⟩
    · exact inv.processed_out x old
    · exact fun processed => fresh (inv.processed_tracked processed)
  · simp [World.step, Evictor.step, idle] at holds

theorem remove (inv : Invariant w) (idle : w.evictor.trying = none) (value : String) :
    Invariant (w.step (.remove value)) := by
  obtain ⟨valid, erased, kept⟩ := inv.valid.remove value
  refine ⟨valid, ?_, fun x mem => ?_, fun val holds => ?_⟩
  · change w.processed.erase value ⊆ (w.evictor.queue.queue.remove value).1.set
    rw [erased]
    exact Finset.erase_subset_erase value inv.processed_tracked
  · exact fun processed => inv.processed_out x (kept x mem) (Finset.mem_of_mem_erase processed)
  · simp [World.step, Evictor.step, idle] at holds

theorem clear (idle : w.evictor.trying = none) : Invariant (w.step .clear) := by
  refine ⟨⟨fun c _ inside => absurd inside (by simp [World.step, Evictor.step,
    RateLimitedTimedQueue.clear, UniqueQueue.clear]), List.nodup_nil,
    fun x mem => absurd mem List.not_mem_nil⟩, ?_, ?_, ?_⟩
  · simp [World.step]
  · simp [World.step, Evictor.step, RateLimitedTimedQueue.clear, UniqueQueue.clear]
  · simp [World.step, Evictor.step, idle]

theorem tryStart (inv : Invariant w) : Invariant (w.step .tryStart) :=
  ⟨inv.valid, inv.processed_tracked, inv.processed_out, fun _ holds => holds⟩

theorem tryRound (inv : Invariant w) {val : TimedValue υ} (holds : w.evictor.trying = some val)
    (accepted : Bool) (now : ℤ) (result : Bool × ℤ) :
    Invariant (w.step (.tryRound accepted now result)) := by
  have head := inv.holding val holds
  have fn : w.evictor.fnCall accepted now =
      if accepted = true ∧ val.processAt ≤ now then some val else none := by
    simp [Evictor.fnCall, holds]
  by_cases called : accepted = true ∧ val.processAt ≤ now
  swap
  · -- the loop ends without calling `fn`
    have stop := @RateLimitedTimedQueue.tryRound_of_skipped _ w.evictor.queue val accepted now result called
    simp only [World.step, Evictor.step, holds, stop, fn, if_neg called]
    exact ⟨inv.valid, inv.processed_tracked, inv.processed_out, fun _ ends => by simp at ends⟩
  have round := @RateLimitedTimedQueue.tryRound_of_called _ w.evictor.queue val accepted now result called
  have member := (inv.valid.head_least head).1
  have untouched := inv.processed_out val member
  have found : w.evictor.queue.queue.find val.value = some 0 := UniqueQueue.find_head head
  simp only [World.step, Evictor.step, holds, round, fn, if_pos called]
  cases ok : result.1
  · -- `fn` failed: the head is put back with a later time
    obtain ⟨valid, same, -, entries⟩ := @UniqueQueue.Valid.replace υ w.evictor.queue.queue inv.valid
      { val with processAt := now + intAdd result.2 1 } 0 found
    refine ⟨by simpa using valid, by simpa [same] using inv.processed_tracked, fun x mem => ?_,
      fun _ next => by simpa using next⟩
    simp only [Bool.not_false, if_true] at mem
    rcases entries x mem with rfl | ⟨old, -⟩
    · exact untouched
    · exact inv.processed_out x old
  · -- `fn` succeeded: the head leaves the heap and joins the processed values
    obtain ⟨valid, same, entries⟩ := inv.valid.removeFromQueue (inv.valid.tracked val member) found
    refine ⟨by simpa using valid, ?_, fun x mem => ?_, fun _ next => by simpa using next⟩
    · simp only [Bool.not_true, Bool.false_eq_true, if_false, if_true, same]
      exact Finset.insert_subset (inv.valid.tracked val member) inv.processed_tracked
    · simp only [Bool.not_true, Bool.false_eq_true, if_false] at mem
      obtain ⟨old, other⟩ := entries x mem
      simp only [if_true, Finset.mem_insert, not_or]
      exact ⟨other, inv.processed_out x old⟩

theorem step (inv : Invariant w) {call : Call υ} (admitted : w.evictor.admissible call) :
    Invariant (w.step call) := by
  cases call with
  | add value uid now => exact inv.add admitted.1 value uid now
  | remove value => exact inv.remove admitted value
  | clear => exact clear admitted
  | tryStart => exact inv.tryStart
  | tryRound accepted now result =>
    obtain ⟨val, holds⟩ := Option.isSome_iff_exists.mp admitted.1
    exact inv.tryRound holds accepted now result

theorem fnCall_eq_some {accepted : Bool} {now : ℤ} {val : TimedValue υ}
    (called : w.evictor.fnCall accepted now = some val) :
    w.evictor.trying = some val ∧ accepted = true ∧ val.processAt ≤ now := by
  unfold Evictor.fnCall at called
  split at called
  · rename_i holding holds
    split_ifs at called with due
    cases called
    exact ⟨holds, due⟩
  · cases called

theorem called (inv : Invariant w) {accepted : Bool} {now : ℤ} {val : TimedValue υ}
    (called : w.evictor.fnCall accepted now = some val) :
    val ∈ w.evictor.queue.queue.queue ∧ val.processAt ≤ now ∧
      (∀ x ∈ w.evictor.queue.queue.queue, val.processAt ≤ x.processAt) ∧ val.value ∉ w.processed := by
  obtain ⟨holds, -, due⟩ := fnCall_eq_some called
  obtain ⟨member, least⟩ := inv.valid.head_least (inv.holding val holds)
  exact ⟨member, due, least, inv.processed_out val member⟩

theorem retried (inv : Invariant w) {accepted : Bool} {now : ℤ} {result : Bool × ℤ}
    {val : TimedValue υ} (called : w.evictor.fnCall accepted now = some val) (failed : result.1 = false) :
    ∃ x ∈ (w.step (.tryRound accepted now result)).evictor.queue.queue.queue,
      x.value = val.value ∧ x.uid = val.uid ∧ x.processAt = now + intAdd result.2 1 := by
  obtain ⟨holds, accept, due⟩ := fnCall_eq_some called
  have round := @RateLimitedTimedQueue.tryRound_of_called _ w.evictor.queue val accepted now result
    ⟨accept, due⟩
  have found : w.evictor.queue.queue.find val.value = some 0 :=
    UniqueQueue.find_head (inv.holding val holds)
  obtain ⟨-, -, put, -⟩ := @UniqueQueue.Valid.replace υ w.evictor.queue.queue inv.valid
    { val with processAt := now + intAdd result.2 1 } 0 found
  refine ⟨{ val with processAt := now + intAdd result.2 1 }, ?_, rfl, rfl, rfl⟩
  simpa [World.step, Evictor.step, holds, round, failed] using put

end Invariant

theorem invariant : (system υ).Invariant Invariant :=
  System.Inductive.invariant ⟨fun _ initial => Invariant.initial initial,
    fun _ _ _ inv ⟨admitted, next⟩ => next ▸ inv.step admitted⟩

theorem eviction_queue_processes_once (υ : Type) (w : World υ) (reachable : (system υ).Reachable w) :
    IsHeap TimedQueue.less w.evictor.queue.queue.queue ∧
      (w.evictor.queue.queue.queue.map (·.value)).Nodup ∧
      (∀ x ∈ w.evictor.queue.queue.queue, x.value ∈ w.evictor.queue.queue.set) ∧
      (∀ accepted now result val, w.evictor.fnCall accepted now = some val →
        val ∈ w.evictor.queue.queue.queue ∧ val.processAt ≤ now ∧
        (∀ x ∈ w.evictor.queue.queue.queue, val.processAt ≤ x.processAt) ∧ val.value ∉ w.processed ∧
        (result.1 = false → ∃ x ∈ (w.step (.tryRound accepted now result)).evictor.queue.queue.queue,
          x.value = val.value ∧ x.uid = val.uid ∧ x.processAt = now + intAdd result.2 1)) ∧
      ∀ value uid now, value ∈ w.processed → (w.evictor.queue.add value uid now).2 = false := by
  have inv := invariant w reachable
  refine ⟨inv.valid.heap, inv.valid.unique, inv.valid.tracked, ?_, ?_⟩
  · intro accepted now result val called
    obtain ⟨member, due, least, fresh⟩ := inv.called called
    exact ⟨member, due, least, fresh, fun failed => inv.retried called failed⟩
  · intro value uid now processed
    have tracked : value ∈ w.evictor.queue.queue.set := inv.processed_tracked processed
    simp [RateLimitedTimedQueue.add, UniqueQueue.add, tracked]

namespace Runs

def start : World String := ⟨⟨RateLimitedTimedQueue.new, 0, none⟩, ∅⟩

/-- `node-1` added at time 0, and `Try` entered. -/
def entered : World String := System.run World.step start [.add "node-1" "uid-1" 0, .tryStart]

theorem entered_reachable : (system String).Reachable entered := by
  apply @System.Reachable.run (World String) (Call String) (system String)
    (fun w call => w.evictor.admissible call) World.step (fun _ _ admitted => ⟨admitted, rfl⟩) start
    (.init ⟨rfl, rfl, rfl⟩)
  simp only [System.Admits, Evictor.admissible]
  decide

end Runs

theorem eviction_queue_processes_once_entered :
    (Runs.entered.evictor.queue.queue.queue.map (·.value)).Nodup :=
  (eviction_queue_processes_once String Runs.entered Runs.entered_reachable).2.1

/-- `fn` failing with the longest `Duration` puts the value back due 2^63 ns before `now`, since
`wait + 1` wraps, and the next round calls `fn` on it again at the same reading of the clock. -/
theorem retry_with_longest_wait_is_due_at_once :
    (system String).Reachable Runs.entered ∧
      Runs.entered.evictor.fnCall true 0 = some ⟨"node-1", "uid-1", 0, 0⟩ ∧
      (Runs.entered.step (.tryRound true 0 (false, maxInt))).evictor.queue.queue.queue =
        [⟨"node-1", "uid-1", 0, -2 ^ 63⟩] ∧
      (Runs.entered.step (.tryRound true 0 (false, maxInt))).evictor.fnCall true 0 =
        some ⟨"node-1", "uid-1", 0, -2 ^ 63⟩ := by
  refine ⟨Runs.entered_reachable, by decide, ?_, ?_⟩ <;>
    simp [Runs.entered, Runs.start, World.step, Evictor.step, Evictor.fnCall, System.run,
      RateLimitedTimedQueue.add, RateLimitedTimedQueue.tryRound, intAdd_maxInt_one] <;> decide

end Kubernetes.Controller.Nodelifecycle
