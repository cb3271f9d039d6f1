import Mathlib.Data.Finset.Card
import Mathlib.Logic.Function.Basic
import Kubernetes.Library.ContainerHeap
import Kubernetes.Library.Transition

/-! The scheduler's keyed heap (`pkg/scheduler/internal/heap/heap.go`).

`data` implements `heap.Interface`: its queue holds keys in heap order, and its map holds, for
each key, the object and the index of the key in the queue. `Swap`, `Push` and `Pop` keep those
indices as `container/heap` moves keys about; `Less` compares the objects the map holds for the
keys at two indices. `Heap` adds and removes objects under the keys its key function gives.

The representation invariant (`Data.Valid`): the map's keys are the queue's entries, without
duplicates, and each key's item holds the key's index. Under it the data's slots hold the slice
of (key, object) pairs in queue order (`Data.view`), and the data is a lawful implementation of
that slice (`lawful`), so the order results of `container/heap` carry over.
-/

set_option autoImplicit false

namespace Kubernetes.Scheduler.Internal

open Kubernetes.Library Kubernetes.Library.ContainerHeap

/-- `heapItem`: an object and the index of its key in the queue. -/
structure HeapItem (α : Type) where
  obj : α
  index : ℕ

/-- `data`: the items by key, and the keys in heap order. -/
structure Data (K α : Type) where
  items : K → Option (HeapItem α)
  queue : List K

/-- `Heap`: its data (the metric recorder is left out). -/
structure Heap (K α : Type) where
  data : Data K α

/-- The errors of the heap's methods: a `cache.KeyError` around the key function's error, or
one that `fmt.Errorf` makes. -/
inductive HeapError where
  | keyError (err : String)
  | errorf (text : String)
  deriving DecidableEq, Repr

variable {K α : Type}

namespace Data

variable [DecidableEq K] (lessFunc : α → α → Bool) (d : Data K α)

/-- `data.Less`: an index out of range, or a key without an item, compares as not less. -/
def less (i j : ℕ) : Bool :=
  if i > d.queue.length ∨ j > d.queue.length then false
  else
    match d.queue[i]?.bind d.items, d.queue[j]?.bind d.items with
    | some itemi, some itemj => lessFunc itemi.obj itemj.obj
    | _, _ => false

/-- `item.index = i` on the item under `key`, written through the map's pointer. -/
def setIndex (items : K → Option (HeapItem α)) (key : K) (i : ℕ) : K → Option (HeapItem α) :=
  fun k => if k = key then (items k).map fun item => { item with index := i } else items k

/-- `item.obj = obj` on the item under `key`, as `Heap.Add` writes through the map. -/
def setObj (items : K → Option (HeapItem α)) (key : K) (obj : α) : K → Option (HeapItem α) :=
  fun k => if k = key then (items k).map fun item => { item with obj := obj } else items k

/-- `data.Swap`: the keys at `i` and `j` change places, and then their items' indices. -/
def swap (i j : ℕ) : Data K α :=
  let queue := exchange d.queue i j
  match queue[i]?, queue[j]? with
  | some atI, some atJ => { items := setIndex (setIndex d.items atI i) atJ j, queue := queue }
  | _, _ => { d with queue := queue }

/-- `data.Push` of an `itemKeyValue`: the key's item is the object at the next index. -/
def push (keyValue : K × α) : Data K α where
  items := Function.update d.items keyValue.1 (some ⟨keyValue.2, d.queue.length⟩)
  queue := d.queue ++ [keyValue.1]

/-- `data.Pop`: the last key leaves the queue and its item the map. On an empty queue Go indexes
out of range; `container/heap` never calls it so. -/
def pop : Data K α × Option α :=
  match d.queue.getLast? with
  | none => (d, none)
  | some key =>
    match d.items key with
    | none => ({ d with queue := d.queue.dropLast }, none)
    | some item => ({ items := Function.update d.items key none, queue := d.queue.dropLast }, some item.obj)

def peek : Option α :=
  if d.queue.length > 0 then (d.queue[0]?.bind d.items).map HeapItem.obj else none

end Data

/-- (key, object) pairs compared by their objects. -/
def byObject (lessFunc : α → α → Bool) (a b : K × α) : Bool := lessFunc a.2 b.2

theorem byObject_isStrictWeakOrder (lessFunc : α → α → Bool) [IsStrictWeakOrder α fun a b => lessFunc a b = true] :
    IsStrictWeakOrder (K × α) fun a b => byObject lessFunc a b = true :=
  inferInstanceAs (IsStrictWeakOrder (K × α) (Function.onFun (fun a b => lessFunc a b = true) Prod.snd))

theorem filterMap_of_isSome {β γ : Type} {f : β → Option γ} :
    ∀ {l : List β}, (∀ x ∈ l, (f x).isSome) →
      (l.filterMap f).length = l.length ∧ ∀ p : ℕ, (l.filterMap f)[p]? = l[p]?.bind f
  | [], _ => by simp
  | x :: l, all => by
    obtain ⟨y, found⟩ := Option.isSome_iff_exists.mp (all x (by simp))
    obtain ⟨length, entries⟩ := filterMap_of_isSome (l := l) fun z member => all z (by simp [member])
    rw [List.filterMap_cons_some found]
    refine ⟨by simp [length], fun p => ?_⟩
    cases p with
    | zero => simp [found]
    | succ p => simp [entries]

namespace Data

/-- The (key, object) pairs of the queue's keys, in queue order. -/
def view (d : Data K α) : List (K × α) :=
  d.queue.filterMap fun k => ((d.items k).map HeapItem.obj).map (Prod.mk k)

/-- The representation invariant: the map's keys are the queue's entries, without duplicates,
and the item of the key at each index holds that index. -/
structure Valid (d : Data K α) : Prop where
  nodup : d.queue.Nodup
  mem_queue : ∀ k, (d.items k).isSome ↔ k ∈ d.queue
  index : ∀ i k, d.queue[i]? = some k → (d.items k).map HeapItem.index = some i

variable {d : Data K α}

theorem Valid.present (valid : d.Valid) :
    ∀ k ∈ d.queue, (((d.items k).map HeapItem.obj).map (Prod.mk k)).isSome := by
  intro k member
  simpa using (valid.mem_queue k).mpr member

theorem Valid.length_view (valid : d.Valid) : d.view.length = d.queue.length :=
  (filterMap_of_isSome valid.present).1

theorem Valid.getElem?_view (valid : d.Valid) (p : ℕ) :
    d.view[p]? = d.queue[p]?.bind fun k => ((d.items k).map HeapItem.obj).map (Prod.mk k) :=
  (filterMap_of_isSome valid.present).2 p

theorem Valid.map_fst_view (valid : d.Valid) : d.view.map Prod.fst = d.queue := by
  apply List.ext_getElem?
  intro p
  rw [List.getElem?_map, valid.getElem?_view]
  cases found : d.queue[p]? with
  | none => rfl
  | some k =>
    obtain ⟨item, stored⟩ := Option.isSome_iff_exists.mp ((valid.mem_queue k).mpr (List.mem_of_getElem? found))
    simp [stored]

theorem Valid.mem_view (valid : d.Valid) {k : K} {x : α} :
    (k, x) ∈ d.view ↔ (d.items k).map HeapItem.obj = some x := by
  unfold view
  rw [List.mem_filterMap]
  constructor
  · rintro ⟨k', _, found⟩
    simp only [Option.map_map, Option.map_eq_some_iff, Function.comp_def, Prod.mk.injEq] at found
    obtain ⟨item, stored, rfl, rfl⟩ := found
    simp [stored]
  · intro found
    refine ⟨k, (valid.mem_queue k).mp (by simpa using congrArg Option.isSome found), ?_⟩
    rw [found]
    rfl

theorem Valid.slot_unique (valid : d.Valid) {p q : ℕ} {k : K} (first : d.queue[p]? = some k)
    (second : d.queue[q]? = some k) : p = q := by
  have both := valid.index p k first
  rw [valid.index q k second] at both
  exact (Option.some.inj both).symm

theorem Valid.less_eq (lessFunc : α → α → Bool) (valid : d.Valid) {i j : ℕ} (hi : i < d.view.length)
    (hj : j < d.view.length) :
    d.less lessFunc i j = (sliceInterface (byObject lessFunc)).less d.view i j := by
  rw [valid.length_view] at hi hj
  obtain ⟨itemi, storedI⟩ := Option.isSome_iff_exists.mp ((valid.mem_queue _).mpr (List.getElem_mem hi))
  obtain ⟨itemj, storedJ⟩ := Option.isSome_iff_exists.mp ((valid.mem_queue _).mpr (List.getElem_mem hj))
  have inRange : ¬(i > d.queue.length ∨ j > d.queue.length) := by omega
  simp only [Data.less, sliceInterface, byObject, valid.getElem?_view, List.getElem?_eq_getElem hi,
    List.getElem?_eq_getElem hj, Option.bind_some, storedI, storedJ, inRange, if_false, Option.map_some]

theorem Valid.queue_index (valid : d.Valid) {key : K} {item : HeapItem α} (stored : d.items key = some item) :
    d.queue[item.index]? = some key := by
  obtain ⟨p, found⟩ := List.mem_iff_getElem?.mp ((valid.mem_queue key).mp (by simp [stored]))
  have atP := valid.index p key found
  rw [stored, Option.map_some, Option.some.injEq] at atP
  rwa [atP]

section Swap

variable [DecidableEq K]

@[simp] theorem map_obj_setIndex (items : K → Option (HeapItem α)) (key : K) (i : ℕ) (k : K) :
    (setIndex items key i k).map HeapItem.obj = (items k).map HeapItem.obj := by
  unfold setIndex
  split_ifs <;> simp [Option.map_map, Function.comp_def]

@[simp] theorem isSome_setIndex (items : K → Option (HeapItem α)) (key : K) (i : ℕ) (k : K) :
    (setIndex items key i k).isSome = (items k).isSome := by
  unfold setIndex
  split_ifs <;> simp

theorem setIndex_of_ne (items : K → Option (HeapItem α)) {key k : K} (i : ℕ) (other : k ≠ key) :
    setIndex items key i k = items k := by
  simp [setIndex, other]

theorem index_setIndex_self (items : K → Option (HeapItem α)) (key : K) (i : ℕ) (stored : (items key).isSome) :
    (setIndex items key i key).map HeapItem.index = some i := by
  obtain ⟨item, found⟩ := Option.isSome_iff_exists.mp stored
  simp [setIndex, found]

theorem Valid.swap (valid : d.Valid) {i j : ℕ} (hi : i < d.queue.length) (hj : j < d.queue.length) :
    (d.swap i j).Valid ∧ (d.swap i j).view = exchange d.view i j := by
  have atI := List.getElem?_eq_getElem hi
  have atJ := List.getElem?_eq_getElem hj
  generalize d.queue[i] = ki at atI
  generalize d.queue[j] = kj at atJ
  have swapped : d.swap i j = ⟨setIndex (setIndex d.items kj i) ki j, exchange d.queue i j⟩ := by
    unfold Data.swap
    simp only [getElem?_exchange_left hi hj, getElem?_exchange_right hi hj, atI, atJ]
  have storedI : (d.items ki).isSome := (valid.mem_queue ki).mpr (List.mem_of_getElem? atI)
  have storedJ : (d.items kj).isSome := (valid.mem_queue kj).mpr (List.mem_of_getElem? atJ)
  have perm := exchange_perm d.queue i j
  have valid' : (d.swap i j).Valid := by
    rw [swapped]
    refine ⟨perm.nodup_iff.mpr valid.nodup, fun k => ?_, fun p k found => ?_⟩
    · simp only [isSome_setIndex]
      exact (valid.mem_queue k).trans perm.mem_iff.symm
    · -- the key now at `j` got index `j` last; the one now at `i` got `i` and is another key
      dsimp only
      rw [getElem?_exchange hi hj] at found
      split_ifs at found with at_j at_i
      · rw [atI, Option.some.injEq] at found
        subst found at_j
        exact index_setIndex_self _ _ _ (by simpa using storedI)
      · rw [atJ, Option.some.injEq] at found
        subst found at_i
        have other : kj ≠ ki := fun same => at_j (valid.slot_unique atJ (by rw [same]; exact atI)).symm
        rw [setIndex_of_ne _ _ other]
        exact index_setIndex_self _ _ _ storedJ
      · rw [setIndex_of_ne _ _ fun same => at_i (valid.slot_unique found (by rw [same]; exact atI)),
          setIndex_of_ne _ _ fun same => at_j (valid.slot_unique found (by rw [same]; exact atJ))]
        exact valid.index p k found
  refine ⟨valid', List.ext_getElem? fun p => ?_⟩
  rw [valid'.getElem?_view, getElem?_exchange (by rwa [valid.length_view]) (by rwa [valid.length_view]),
    valid.getElem?_view, valid.getElem?_view, valid.getElem?_view, swapped]
  simp only [map_obj_setIndex]
  rw [getElem?_exchange hi hj]
  split_ifs <;> rfl

theorem Valid.push (valid : d.Valid) {key : K} {obj : α} (absent : d.items key = none) :
    (d.push (key, obj)).Valid ∧ (d.push (key, obj)).view = d.view ++ [(key, obj)] := by
  have fresh : key ∉ d.queue := fun member => by simpa [absent] using (valid.mem_queue key).mpr member
  have valid' : (d.push (key, obj)).Valid := by
    refine ⟨?_, fun k => ?_, fun p k found => ?_⟩
    · show (d.queue ++ [key]).Nodup
      rw [List.nodup_append]
      refine ⟨valid.nodup, List.nodup_singleton key, fun a member b single same => fresh ?_⟩
      rw [List.mem_singleton] at single
      rwa [← single, ← same]
    · by_cases same : k = key
      · subst same
        simp [Data.push]
      · simp [Data.push, same, valid.mem_queue k]
    · simp only [Data.push] at found ⊢
      rw [List.getElem?_append] at found
      split_ifs at found with inside
      · have other : k ≠ key := fun same => fresh (same ▸ List.mem_of_getElem? found)
        rw [Function.update_of_ne other]
        exact valid.index p k found
      · -- the new key, at the next index
        rw [List.getElem?_singleton] at found
        split_ifs at found with at_end
        cases found
        simp only [Function.update_self, Option.map_some, Option.some.injEq]
        omega
  refine ⟨valid', ?_⟩
  simp only [view, Data.push, List.filterMap_append]
  congr 1
  · apply List.filterMap_congr
    intro k member
    rw [Function.update_of_ne (ne_of_mem_of_not_mem member fresh)]
  · simp

theorem Valid.pop (valid : d.Valid) (nonempty : 0 < d.queue.length) :
    d.pop.1.Valid ∧ d.pop.1.view = d.view.dropLast ∧ d.pop.2 = d.view.getLast?.map Prod.snd := by
  obtain ⟨key, last⟩ : ∃ key, d.queue.getLast? = some key :=
    Option.isSome_iff_exists.mp (List.getLast?_isSome.mpr (List.ne_nil_of_length_pos nonempty))
  obtain ⟨rest, split⟩ := List.getLast?_eq_some_iff.mp last
  obtain ⟨item, stored⟩ := Option.isSome_iff_exists.mp ((valid.mem_queue key).mpr (by simp [split]))
  have nodup := valid.nodup
  rw [split, List.nodup_append] at nodup
  have fresh : key ∉ rest := fun member => nodup.2.2 key member key (by simp) rfl
  have popped : d.pop = (⟨Function.update d.items key none, rest⟩, some item.obj) := by
    simp [Data.pop, stored, split]
  have same : ∀ k ∈ rest, ((Function.update d.items key none k).map HeapItem.obj).map (Prod.mk k) =
      ((d.items k).map HeapItem.obj).map (Prod.mk k) := fun k member => by
    rw [Function.update_of_ne (ne_of_mem_of_not_mem member fresh)]
  have before : d.view = rest.filterMap (fun k => ((d.items k).map HeapItem.obj).map (Prod.mk k)) ++
      [(key, item.obj)] := by
    simp [view, split, List.filterMap_append, stored]
  rw [popped]
  dsimp only
  refine ⟨⟨nodup.1, fun k => ?_, fun p k found => ?_⟩, ?_, ?_⟩
  · by_cases at_key : k = key
    · subst at_key
      simpa using fresh
    · simp [valid.mem_queue k, split, at_key]
  · dsimp only at found ⊢
    have atP : d.queue[p]? = some k := by
      rw [split, List.getElem?_append_left (List.getElem?_eq_some_iff.mp found).1, found]
    rw [Function.update_of_ne (ne_of_mem_of_not_mem (List.mem_of_getElem? found) fresh)]
    exact valid.index p k atP
  · rw [before, List.dropLast_concat]
    exact List.filterMap_congr same
  · rw [before, List.getLast?_concat]
    rfl

theorem map_obj_swap (d : Data K α) (i j : ℕ) (k : K) :
    ((d.swap i j).items k).map HeapItem.obj = (d.items k).map HeapItem.obj := by
  unfold Data.swap
  dsimp only
  split <;> simp

theorem swap_queue (d : Data K α) (i j : ℕ) : (d.swap i j).queue = exchange d.queue i j := by
  unfold Data.swap
  dsimp only
  split <;> rfl

theorem Valid.replaceObj (valid : d.Valid) {key : K} {item : HeapItem α} (stored : d.items key = some item)
    (obj : α) :
    ({ d with items := setObj d.items key obj } : Data K α).Valid ∧
      ({ d with items := setObj d.items key obj } : Data K α).view = d.view.set item.index (key, obj) := by
  have atIndex := valid.queue_index stored
  have valid' : ({ d with items := setObj d.items key obj } : Data K α).Valid := by
    refine ⟨valid.nodup, fun k => ?_, fun p k found => ?_⟩
    · by_cases same : k = key
      · simpa [setObj, same] using valid.mem_queue key
      · simpa [setObj, same] using valid.mem_queue k
    · by_cases same : k = key
      · simpa [setObj, same, Option.map_map, Function.comp_def] using valid.index p key (same ▸ found)
      · simpa [setObj, same] using valid.index p k found
  refine ⟨valid', List.ext_getElem? fun p => ?_⟩
  rw [valid'.getElem?_view, List.getElem?_set, valid.getElem?_view]
  dsimp only
  by_cases at_index : item.index = p
  · subst at_index
    have inside : item.index < d.view.length := by
      rw [valid.length_view]
      exact (List.getElem?_eq_some_iff.mp atIndex).1
    simp [atIndex, setObj, stored, inside]
  · rw [if_neg at_index]
    cases found : d.queue[p]? with
    | none => rfl
    | some k =>
      have other : k ≠ key := fun same => at_index (valid.slot_unique atIndex (by rw [← same]; exact found))
      simp [setObj, other]

end Swap

end Data

variable [DecidableEq K]

/-- `data` as a `heap.Interface`. -/
def heapInterface (lessFunc : α → α → Bool) : Interface (Data K α) (K × α) (Option α) where
  len d := d.queue.length
  less d := d.less lessFunc
  swap d := d.swap
  push d := d.push
  pop d := d.pop

theorem lawful (lessFunc : α → α → Bool) :
    Lawful (heapInterface (K := K) lessFunc) (byObject lessFunc) Data.Valid Data.view (Option.map Prod.snd) where
  len_eq _ valid := valid.length_view.symm
  less_eq _ valid _ _ hi hj := valid.less_eq lessFunc hi hj
  swap_inv _ valid _ _ hi hj := (valid.swap (by rwa [← valid.length_view]) (by rwa [← valid.length_view])).1
  view_swap _ valid _ _ hi hj := (valid.swap (by rwa [← valid.length_view]) (by rwa [← valid.length_view])).2
  pop_inv _ valid nonempty := (valid.pop (by rwa [← valid.length_view])).1
  view_pop _ valid nonempty := (valid.pop (by rwa [← valid.length_view])).2.1
  pop_out _ valid nonempty := (valid.pop (by rwa [← valid.length_view])).2.2

namespace Heap

variable (keyFunc : α → Except String K) (lessFunc : α → α → Bool) (h : Heap K α)

def new : Heap K α := ⟨⟨fun _ => none, []⟩⟩

/-- `Heap.Add`: an object whose key is present replaces the item's object and is fixed in
place; a new one is pushed. -/
def add (obj : α) : Except HeapError (Heap K α) :=
  match keyFunc obj with
  | .error err => .error (.keyError err)
  | .ok key =>
    match h.data.items key with
    | some item =>
      let data := { h.data with items := Data.setObj h.data.items key obj }
      .ok ⟨fix (heapInterface lessFunc) data item.index⟩
    | none => .ok ⟨ContainerHeap.push (heapInterface lessFunc) h.data (key, obj)⟩

def addIfNotPresent (obj : α) : Except HeapError (Heap K α) :=
  match keyFunc obj with
  | .error err => .error (.keyError err)
  | .ok key =>
    if (h.data.items key).isSome then .ok h
    else .ok ⟨ContainerHeap.push (heapInterface lessFunc) h.data (key, obj)⟩

/-- `Heap.Update`, which is `Add`. -/
def update (obj : α) : Except HeapError (Heap K α) := h.add keyFunc lessFunc obj

def delete (obj : α) : Except HeapError (Heap K α) :=
  match keyFunc obj with
  | .error err => .error (.keyError err)
  | .ok key =>
    match h.data.items key with
    | some item => .ok ⟨(remove (heapInterface lessFunc) h.data item.index).1⟩
    | none => .error (.errorf "object not found")

def peek : Option α := h.data.peek

/-- `Heap.Pop`: the object `heap.Pop` hands out, and the heap after it. `none` where `heap.Pop`
swaps out of range on an empty queue and Go panics. -/
def pop : Option (Except HeapError α × Heap K α) :=
  if h.data.queue.length = 0 then none
  else
    let r := ContainerHeap.pop (heapInterface lessFunc) h.data
    some (match r.2 with
      | some obj => .ok obj
      | none => .error (.errorf "object was removed from heap data"), ⟨r.1⟩)

def getByKey (key : K) : Option α := (h.data.items key).map HeapItem.obj

def len : ℕ := h.data.queue.length

/-- The keys the heap holds. -/
def keys : Finset K := h.data.queue.toFinset

/-- The calls the heap serves. -/
inductive Op (α : Type) where
  | add (obj : α)
  | addIfNotPresent (obj : α)
  | update (obj : α)
  | delete (obj : α)
  | pop

/-- A call, and the heap it leaves: one that returns an error leaves the heap as it was, and `Pop`
leaves what `heap.Pop` left, whatever it returned. -/
def step (op : Op α) : Heap K α :=
  let after : Except HeapError (Heap K α) → Heap K α
    | .ok h' => h'
    | .error _ => h
  match op with
  | .add obj => after (h.add keyFunc lessFunc obj)
  | .addIfNotPresent obj => after (h.addIfNotPresent keyFunc lessFunc obj)
  | .update obj => after (h.update keyFunc lessFunc obj)
  | .delete obj => after (h.delete keyFunc lessFunc obj)
  | .pop =>
    match h.pop lessFunc with
    | some (_, h') => h'
    | none => h

/-- The heap as a component: from `New`, any call, `Pop` only on a non-empty heap. -/
def system : System (Heap K α) (Op α) :=
  System.ofStep new (fun h op => op = .pop → 0 < h.len) (step keyFunc lessFunc)

/-- The heap's invariant: the representation invariant, the pairs in heap order by their objects,
and each object under the key its key function gives. -/
structure Invariant : Prop where
  valid : h.data.Valid
  ordered : IsHeap (byObject lessFunc) h.data.view
  keyed : ∀ p ∈ h.data.view, keyFunc p.2 = .ok p.1

end Heap

/-! ## The invariant over runs -/

namespace Data

/-- What the sifts leave of the data: the queue's keys, permuted, and every key's object. -/
def SameObjects (d d' : Data K α) : Prop :=
  d'.queue.Perm d.queue ∧ ∀ k, (d'.items k).map HeapItem.obj = (d.items k).map HeapItem.obj

omit [DecidableEq K] in
theorem SameObjects.refl (d : Data K α) : SameObjects d d := ⟨.refl _, fun _ => rfl⟩

theorem SameObjects.swap {d d' : Data K α} (same : SameObjects d d') (i j : ℕ) :
    SameObjects d (d'.swap i j) :=
  ⟨by rw [swap_queue]; exact (exchange_perm _ _ _).trans same.1, fun k => (map_obj_swap _ _ _ k).trans (same.2 k)⟩

end Data

theorem toFinset_of_perm_cons {l l' : List K} {a : K} (perm : (a :: l').Perm l)
    (nodup : l.Nodup) : l'.toFinset = l.toFinset.erase a := by
  have nodup' := perm.nodup_iff.mpr nodup
  ext x
  rw [List.mem_toFinset, Finset.mem_erase, List.mem_toFinset, ← perm.mem_iff, List.mem_cons]
  constructor
  · intro member
    exact ⟨fun same => (List.nodup_cons.mp nodup').1 (same ▸ member), .inr member⟩
  · rintro ⟨ne, same | member⟩
    · exact absurd same ne
    · exact member

namespace Heap

variable {keyFunc : α → Except String K} {lessFunc : α → α → Bool} {h : Heap K α}

omit [DecidableEq K] in
theorem Invariant.initial : (new : Heap K α).Invariant keyFunc lessFunc where
  valid := ⟨List.nodup_nil, by simp [new], by simp [new]⟩
  ordered := fun _ _ inside => absurd inside (by simp [new, Data.view])
  keyed := by simp [new, Data.view]

theorem Invariant.mem_keys (inv : h.Invariant keyFunc lessFunc) {k : K} :
    k ∈ h.keys ↔ (h.data.items k).isSome := by
  rw [keys, List.mem_toFinset, inv.valid.mem_queue]

omit [DecidableEq K] in
theorem Invariant.getByKey_eq_some (inv : h.Invariant keyFunc lessFunc) {k : K} {x : α} :
    h.getByKey k = some x ↔ (k, x) ∈ h.data.view :=
  inv.valid.mem_view.symm

theorem Invariant.len_eq_card (inv : h.Invariant keyFunc lessFunc) : h.len = h.keys.card :=
  (List.toFinset_card_of_nodup inv.valid.nodup).symm

theorem sameObjects_fix (lessFunc : α → α → Bool) (d : Data K α) {i : ℕ} (inside : i < d.queue.length) :
    Data.SameObjects d (fix (heapInterface lessFunc) d i) :=
  downOrUp_keeps _ (P := Data.SameObjects d) (fun _ a b same _ _ => same.swap a b) inside (.refl d)

theorem sameObjects_push (lessFunc : α → α → Bool) (d : Data K α) (keyValue : K × α) :
    Data.SameObjects (d.push keyValue) (ContainerHeap.push (heapInterface lessFunc) d keyValue) :=
  up.loop_keeps _ (P := Data.SameObjects (d.push keyValue)) _ (fun _ a b same _ _ => same.swap a b) _ _ _
    (Nat.le_refl _) (.refl _)

omit [DecidableEq K] in
theorem Invariant.peek_eq (inv : h.Invariant keyFunc lessFunc) : h.peek = h.data.view[0]?.map Prod.snd := by
  unfold peek Data.peek
  rw [inv.valid.getElem?_view]
  split_ifs with nonempty
  · cases h.data.queue[0]? with
    | none => rfl
    | some k => simp [Option.map_map, Function.comp_def]
  · rw [List.getElem?_eq_none (by omega)]
    rfl

section Order

variable [IsStrictWeakOrder α fun a b => lessFunc a b = true]

theorem Invariant.replace (inv : h.Invariant keyFunc lessFunc) {obj : α} {key : K} (keyed : keyFunc obj = .ok key)
    {item : HeapItem α} (stored : h.data.items key = some item) :
    let h' : Heap K α := ⟨fix (heapInterface lessFunc) { h.data with items := Data.setObj h.data.items key obj } item.index⟩
    h'.Invariant keyFunc lessFunc ∧ h'.keys = h.keys ∧ ∀ k, h'.getByKey k = if k = key then some obj else h.getByKey k := by
  have := byObject_isStrictWeakOrder (K := K) lessFunc
  intro h'
  obtain ⟨valid1, view1⟩ := inv.valid.replaceObj stored obj
  have inside : item.index < h.data.queue.length := (List.getElem?_eq_some_iff.mp (inv.valid.queue_index stored)).1
  have inside' : item.index < h.data.view.length := by rwa [inv.valid.length_view]
  obtain ⟨valid', view'⟩ := (lawful lessFunc).fix_view valid1 (by rwa [view1, List.length_set])
  rw [view1] at view'
  have same := sameObjects_fix lessFunc { h.data with items := Data.setObj h.data.items key obj } inside
  refine ⟨⟨valid', ?_, fun p member => ?_⟩, List.toFinset_eq_of_perm _ _ same.1, fun k => ?_⟩
  · -- `Fix` after a change at one slot
    show IsHeap _ (Data.view _)
    rw [view']
    exact isHeap_fix inv.ordered inside' (key, obj)
  · change p ∈ Data.view _ at member
    rw [view'] at member
    rcases List.mem_or_eq_of_mem_set ((fix_perm _ _).mem_iff.mp member) with old | rfl
    · exact inv.keyed p old
    · exact keyed
  · show (Data.items _ k).map HeapItem.obj = _
    rw [same.2 k]
    by_cases at_key : k = key
    · subst at_key
      simp [Data.setObj, stored]
    · simp [Data.setObj, at_key, getByKey]

theorem Invariant.push (inv : h.Invariant keyFunc lessFunc) {obj : α} {key : K} (keyed : keyFunc obj = .ok key)
    (absent : h.data.items key = none) :
    let h' : Heap K α := ⟨ContainerHeap.push (heapInterface lessFunc) h.data (key, obj)⟩
    h'.Invariant keyFunc lessFunc ∧ h'.keys = insert key h.keys ∧
      ∀ k, h'.getByKey k = if k = key then some obj else h.getByKey k := by
  have := byObject_isStrictWeakOrder (K := K) lessFunc
  intro h'
  obtain ⟨valid1, view1⟩ : (h.data.push (key, obj)).Valid ∧
      (h.data.push (key, obj)).view = h.data.view ++ [(key, obj)] := inv.valid.push absent
  obtain ⟨valid', view'⟩ := (lawful lessFunc).push_view valid1 view1
  have same := sameObjects_push lessFunc h.data (key, obj)
  refine ⟨⟨valid', ?_, fun p member => ?_⟩, ?_, fun k => ?_⟩
  · show IsHeap _ (Data.view _)
    rw [view']
    exact isHeap_push inv.ordered (key, obj)
  · change p ∈ Data.view _ at member
    rw [view'] at member
    rcases List.mem_append.mp ((push_perm _ _).mem_iff.mp member) with old | new
    · exact inv.keyed p old
    · rw [List.mem_singleton] at new
      subst new
      exact keyed
  · show (Data.queue _).toFinset = _
    rw [List.toFinset_eq_of_perm _ _ same.1]
    simp [Data.push, keys]
  · show (Data.items _ k).map HeapItem.obj = _
    rw [same.2 k]
    by_cases at_key : k = key
    · subst at_key
      simp [Data.push]
    · simp [Data.push, at_key, getByKey]

theorem Invariant.add (inv : h.Invariant keyFunc lessFunc) {obj : α} {key : K} (keyed : keyFunc obj = .ok key) :
    ∃ h', h.add keyFunc lessFunc obj = .ok h' ∧ h'.Invariant keyFunc lessFunc ∧ h'.keys = insert key h.keys ∧
      ∀ k, h'.getByKey k = if k = key then some obj else h.getByKey k := by
  cases stored : h.data.items key with
  | some item =>
    obtain ⟨inv', sameKeys, objects⟩ := inv.replace keyed stored
    have present : key ∈ h.keys := inv.mem_keys.mpr (by simp [stored])
    exact ⟨_, by simp [Heap.add, keyed, stored], inv', by rw [sameKeys, Finset.insert_eq_of_mem present], objects⟩
  | none =>
    obtain ⟨inv', keys', objects⟩ := inv.push keyed stored
    exact ⟨_, by simp [Heap.add, keyed, stored], inv', keys', objects⟩

theorem Invariant.addIfNotPresent (inv : h.Invariant keyFunc lessFunc) {obj : α} {key : K}
    (keyed : keyFunc obj = .ok key) :
    ∃ h', h.addIfNotPresent keyFunc lessFunc obj = .ok h' ∧ h'.Invariant keyFunc lessFunc ∧
      h'.keys = insert key h.keys := by
  cases stored : h.data.items key with
  | some item =>
    have present : key ∈ h.keys := inv.mem_keys.mpr (by simp [stored])
    exact ⟨h, by simp [Heap.addIfNotPresent, keyed, stored], inv, (Finset.insert_eq_of_mem present).symm⟩
  | none =>
    obtain ⟨inv', keys', -⟩ := inv.push keyed stored
    exact ⟨_, by simp [Heap.addIfNotPresent, keyed, stored], inv', keys'⟩

omit [IsStrictWeakOrder α fun a b => lessFunc a b = true] [DecidableEq K] in
theorem Invariant.view_index (inv : h.Invariant keyFunc lessFunc) {key : K} {item : HeapItem α}
    (stored : h.data.items key = some item) : h.data.view[item.index]? = some (key, item.obj) := by
  rw [inv.valid.getElem?_view, inv.valid.queue_index stored]
  simp [stored]

omit [IsStrictWeakOrder α fun a b => lessFunc a b = true] in
theorem Invariant.keys_of_taken (inv : h.Invariant keyFunc lessFunc) {d : Data K α} (valid : d.Valid)
    {taken : K × α} (perm : (taken :: d.view).Perm h.data.view) : d.queue.toFinset = h.keys.erase taken.1 := by
  rw [← valid.map_fst_view, keys, ← inv.valid.map_fst_view]
  apply toFinset_of_perm_cons (by simpa using perm.map Prod.fst)
  rw [inv.valid.map_fst_view]
  exact inv.valid.nodup

theorem Invariant.delete (inv : h.Invariant keyFunc lessFunc) {obj : α} {key : K} (keyed : keyFunc obj = .ok key)
    (present : key ∈ h.keys) :
    ∃ h', h.delete keyFunc lessFunc obj = .ok h' ∧ h'.Invariant keyFunc lessFunc ∧ h'.keys = h.keys.erase key := by
  have := byObject_isStrictWeakOrder (K := K) lessFunc
  obtain ⟨item, stored⟩ := Option.isSome_iff_exists.mp (inv.mem_keys.mp present)
  have atIndex := inv.view_index stored
  have inside : item.index < h.data.view.length := (List.getElem?_eq_some_iff.mp atIndex).1
  obtain ⟨valid', view', -⟩ := (lawful lessFunc).remove_view inv.valid inside
  have perm : (h.data.view[item.index] :: (remove (sliceInterface (byObject lessFunc)) h.data.view item.index).1).Perm
      h.data.view := (remove_contents inside).2
  rw [← view', (List.getElem?_eq_some_iff.mp atIndex).2] at perm
  refine ⟨⟨(remove (heapInterface lessFunc) h.data item.index).1⟩, by simp [Heap.delete, keyed, stored],
    ⟨valid', ?_, fun p member => inv.keyed p (perm.subset (.tail _ member))⟩, inv.keys_of_taken valid' perm⟩
  show IsHeap _ (Data.view _)
  rw [view']
  exact isHeap_remove inv.ordered inside

theorem Invariant.pop (inv : h.Invariant keyFunc lessFunc) (nonempty : 0 < h.len) :
    ∃ x h', h.pop lessFunc = some (.ok x, h') ∧ h.peek = some x ∧ h'.Invariant keyFunc lessFunc ∧
      ∃ key, keyFunc x = .ok key ∧ h'.keys = h.keys.erase key := by
  have := byObject_isStrictWeakOrder (K := K) lessFunc
  have inside : 0 < h.data.view.length := by
    rw [inv.valid.length_view]
    exact nonempty
  obtain ⟨valid', view', out⟩ := (lawful lessFunc).pop_view inv.valid inside
  have contents := @remove_contents _ (byObject lessFunc) _ _ inside
  rw [← pop_eq_remove, ← view'] at contents
  obtain ⟨handed, perm⟩ := contents
  rw [handed, Option.map_some] at out
  have first : h.data.view[0]? = some h.data.view[0] := List.getElem?_eq_getElem inside
  refine ⟨h.data.view[0].2, ⟨(ContainerHeap.pop (heapInterface lessFunc) h.data).1⟩, ?_, by rw [inv.peek_eq, first]; rfl,
    ⟨valid', ?_, fun p member => inv.keyed p (perm.subset (.tail _ member))⟩,
    h.data.view[0].1, inv.keyed _ (List.getElem_mem inside), inv.keys_of_taken valid' perm⟩
  · have nonzero : h.data.queue.length ≠ 0 := by
      unfold len at nonempty
      omega
    simp only [Heap.pop, nonzero, if_false]
    rw [show (ContainerHeap.pop (heapInterface lessFunc) h.data).2 = some h.data.view[0].2 from out]
  · show IsHeap _ (Data.view _)
    rw [view']
    exact isHeap_pop inv.ordered

omit [DecidableEq K] in
theorem Invariant.peek_least (inv : h.Invariant keyFunc lessFunc) {x : α} (peeked : h.peek = some x) :
    (∃ k, h.getByKey k = some x) ∧ ∀ k y, h.getByKey k = some y → lessFunc y x = false := by
  have := byObject_isStrictWeakOrder (K := K) lessFunc
  rw [inv.peek_eq] at peeked
  obtain ⟨top, first, rfl⟩ := Option.map_eq_some_iff.mp peeked
  refine ⟨⟨top.1, inv.getByKey_eq_some.mpr (List.mem_of_getElem? first)⟩, fun k y found => ?_⟩
  exact inv.ordered.root_least first (k, y) (inv.getByKey_eq_some.mp found)

/-- Three numbers pushed, the least popped: the next least is on top. -/
example : (([.add 3, .add 1, .add 2, .pop] : List (Op ℕ)).foldl
    (step (K := ℕ) (fun n => .ok n) fun a b => decide (a < b)) new).peek = some 2 := by
  decide

theorem Invariant.step (inv : h.Invariant keyFunc lessFunc) (op : Op α) (admitted : op = .pop → 0 < h.len) :
    (h.step keyFunc lessFunc op).Invariant keyFunc lessFunc := by
  cases op with
  | add obj | update obj =>
    cases keyed : keyFunc obj with
    | error err => simpa [Heap.step, Heap.update, Heap.add, keyed] using inv
    | ok key =>
      obtain ⟨h', added, inv', -⟩ := inv.add keyed
      simpa [Heap.step, Heap.update, added] using inv'
  | addIfNotPresent obj =>
    cases keyed : keyFunc obj with
    | error err => simpa [Heap.step, Heap.addIfNotPresent, keyed] using inv
    | ok key =>
      obtain ⟨h', added, inv', -⟩ := inv.addIfNotPresent keyed
      simpa [Heap.step, added] using inv'
  | delete obj =>
    cases keyed : keyFunc obj with
    | error err => simpa [Heap.step, Heap.delete, keyed] using inv
    | ok key =>
      by_cases present : key ∈ h.keys
      · obtain ⟨h', deleted, inv', -⟩ := inv.delete keyed present
        simpa [Heap.step, deleted] using inv'
      · have absent : h.data.items key = none := by
          simpa [inv.mem_keys] using present
        simpa [Heap.step, Heap.delete, keyed, absent] using inv
  | pop =>
    obtain ⟨x, h', popped, -, inv', -⟩ := inv.pop (admitted rfl)
    simpa [Heap.step, popped] using inv'

end Order

end Heap

open Heap in
theorem heap_representation_invariant (keyFunc : α → Except String K) (lessFunc : α → α → Bool)
    [IsStrictWeakOrder α fun a b => lessFunc a b = true] :
    (system keyFunc lessFunc).Invariant (Invariant keyFunc lessFunc) ∧
      ∀ h : Heap K α, (system keyFunc lessFunc).Reachable h →
        (∀ x, h.peek = some x →
          (∃ k, h.getByKey k = some x) ∧ ∀ k y, h.getByKey k = some y → lessFunc y x = false) ∧
        (0 < h.len → ∃ x h', h.pop lessFunc = some (.ok x, h') ∧ h.peek = some x ∧
          ∃ k, keyFunc x = .ok k ∧ h'.keys = h.keys.erase k) ∧
        (∀ obj k, keyFunc obj = .ok k → k ∈ h.keys → ∃ h', h.add keyFunc lessFunc obj = .ok h' ∧ h'.keys = h.keys ∧
          ∀ k', h'.getByKey k' = if k' = k then some obj else h.getByKey k') ∧
        (∀ obj k, keyFunc obj = .ok k → ∃ h', h.add keyFunc lessFunc obj = .ok h' ∧ h'.keys = insert k h.keys) ∧
        (∀ obj k, keyFunc obj = .ok k →
          ∃ h', h.addIfNotPresent keyFunc lessFunc obj = .ok h' ∧ h'.keys = insert k h.keys) ∧
        (∀ obj k, keyFunc obj = .ok k → k ∈ h.keys →
          ∃ h', h.delete keyFunc lessFunc obj = .ok h' ∧ h'.keys = h.keys.erase k) ∧
        h.len = h.keys.card := by
  have invariant : (system keyFunc lessFunc).Invariant (Invariant keyFunc lessFunc) :=
    System.Inductive.invariant
      ⟨fun _ initial => initial ▸ Invariant.initial, fun _ op _ inv ⟨admitted, next⟩ => next ▸ inv.step op admitted⟩
  refine ⟨invariant, fun h reachable => ?_⟩
  have inv := invariant h reachable
  refine ⟨fun _ peeked => inv.peek_least peeked, fun nonempty => ?_, fun obj k keyed present => ?_,
    fun obj k keyed => ?_, fun obj k keyed => ?_, fun obj k keyed present => ?_, inv.len_eq_card⟩
  · obtain ⟨x, h', popped, peeked, -, k, keyed, keys'⟩ := inv.pop nonempty
    exact ⟨x, h', popped, peeked, k, keyed, keys'⟩
  · -- an existing key: its object is replaced, and the keys stay
    obtain ⟨h', added, -, keys', objects⟩ := inv.add keyed
    exact ⟨h', added, by rw [keys', Finset.insert_eq_of_mem present], objects⟩
  · obtain ⟨h', added, -, keys', -⟩ := inv.add keyed
    exact ⟨h', added, keys'⟩
  · obtain ⟨h', added, -, keys'⟩ := inv.addIfNotPresent keyed
    exact ⟨h', added, keys'⟩
  · obtain ⟨h', deleted, -, keys'⟩ := inv.delete keyed present
    exact ⟨h', deleted, keys'⟩

/-- The invariant over every run of a heap of naturals, each its own key, ordered by `<`. -/
theorem heap_representation_invariant_nat :
    (Heap.system (K := ℕ) (fun n : ℕ => .ok n) fun a b => decide (a < b)).Invariant
      (Heap.Invariant (fun n : ℕ => .ok n) fun a b => decide (a < b)) := by
  have order : IsStrictWeakOrder ℕ fun a b : ℕ => decide (a < b) = true :=
    { irrefl := fun a => by simp
      trans := fun a b c => by simp only [decide_eq_true_eq]; omega
      incomp_trans := fun a b c => by simp only [decide_eq_true_eq]; omega }
  exact (heap_representation_invariant _ _).1

end Kubernetes.Scheduler.Internal
