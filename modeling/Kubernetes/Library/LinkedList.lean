import Mathlib.Data.List.AList

/-! Doubly linked lists whose cells live in a map.

Each cell is stored under a key and names its neighbours by their keys, so that a pointer is the
key of the cell it points to and a nil pointer is `none`. A write through a pointer goes to the
cell stored under that key; a key the map lacks is a nil pointer, which the code never writes
through, and the write changes nothing. Reading a cell's links reads them from the map as it is
at that point, as a read through a pointer does.

`Chain m first order last` says that the cells of `order` are linked in that order, the first
naming `first` before it and the last naming `last` after it; a map whose keys are those of
`order`, each once, with the list's head pointer at the first, represents `order`. Taking a cell
out of the list (`detach`), putting a cell at the head (`moveToHead`) and removing a cell from the
list and the map (`unlink`) each have one lemma saying which order the map represents
afterwards.

A list in which every write to a cell stamps it from a counter and moves it to the head stays
ordered by stamp, newest first (`NewestFirst.touch`).
-/

set_option autoImplicit false

namespace Kubernetes.Library

/-- A list cell: its value and the keys of its neighbours. -/
structure Cell (κ β : Type) where
  info : β
  next : Option κ := none
  prev : Option κ := none

/-- The cells of a list, by key. -/
abbrev Cells (κ β : Type) := AList fun _ : κ => Cell κ β

section Links

variable {κ β : Type} [DecidableEq κ]

def nextOf (m : Cells κ β) (k : κ) : Option κ := (m.lookup k).bind Cell.next

def prevOf (m : Cells κ β) (k : κ) : Option κ := (m.lookup k).bind Cell.prev

def infoOf (m : Cells κ β) (k : κ) : Option β := (m.lookup k).map Cell.info

/-- `p.next = v`. -/
def setNext (m : Cells κ β) (p : κ) (v : Option κ) : Cells κ β :=
  match m.lookup p with
  | some cell => m.insert p { cell with next := v }
  | none => m

/-- `p.prev = v`. -/
def setPrev (m : Cells κ β) (p : κ) (v : Option κ) : Cells κ β :=
  match m.lookup p with
  | some cell => m.insert p { cell with prev := v }
  | none => m

/-- A write to the value of the cell at `p`, which keeps its links. -/
def modifyInfo (m : Cells κ β) (p : κ) (f : β → β) : Cells κ β :=
  match m.lookup p with
  | some cell => m.insert p { cell with info := f cell.info }
  | none => m

theorem mem_of_lookup {m : Cells κ β} {p : κ} {cell : Cell κ β} (found : m.lookup p = some cell) : p ∈ m :=
  AList.lookup_isSome.mp (by simp [found])

theorem mem_write {m : Cells κ β} {p k : κ} (f : Cell κ β → Cell κ β) :
    (k ∈ match m.lookup p with
      | some cell => m.insert p (f cell)
      | none => m) ↔ k ∈ m := by
  cases found : m.lookup p with
  | none => rfl
  | some cell =>
    simp only [AList.mem_insert]
    exact ⟨fun written => written.elim (fun same => same ▸ mem_of_lookup found) id, Or.inr⟩

theorem lookup_write_ne {m : Cells κ β} {p k : κ} (f : Cell κ β → Cell κ β) (other : k ≠ p) :
    (match m.lookup p with
      | some cell => m.insert p (f cell)
      | none => m).lookup k = m.lookup k := by
  cases m.lookup p with
  | none => rfl
  | some cell => exact AList.lookup_insert_ne other

theorem lookup_write_self {m : Cells κ β} {p : κ} {cell : Cell κ β} (f : Cell κ β → Cell κ β)
    (found : m.lookup p = some cell) :
    (match m.lookup p with
      | some cell => m.insert p (f cell)
      | none => m).lookup p = some (f cell) := by
  simp [found]

@[simp] theorem mem_setNext {m : Cells κ β} {p k : κ} {v : Option κ} : k ∈ setNext m p v ↔ k ∈ m :=
  mem_write _

@[simp] theorem mem_setPrev {m : Cells κ β} {p k : κ} {v : Option κ} : k ∈ setPrev m p v ↔ k ∈ m :=
  mem_write _

@[simp] theorem mem_modifyInfo {m : Cells κ β} {p k : κ} {f : β → β} : k ∈ modifyInfo m p f ↔ k ∈ m :=
  mem_write _

@[simp] theorem nextOf_setNext_self {m : Cells κ β} {p : κ} (member : p ∈ m) (v : Option κ) :
    nextOf (setNext m p v) p = v := by
  obtain ⟨cell, found⟩ := Option.isSome_iff_exists.mp (AList.lookup_isSome.mpr member)
  simp [nextOf, setNext, lookup_write_self _ found]

@[simp] theorem nextOf_setNext_ne (m : Cells κ β) {p k : κ} (other : k ≠ p) (v : Option κ) :
    nextOf (setNext m p v) k = nextOf m k := by
  rw [nextOf, setNext, lookup_write_ne _ other, nextOf]

@[simp] theorem prevOf_setPrev_self {m : Cells κ β} {p : κ} (member : p ∈ m) (v : Option κ) :
    prevOf (setPrev m p v) p = v := by
  obtain ⟨cell, found⟩ := Option.isSome_iff_exists.mp (AList.lookup_isSome.mpr member)
  simp [prevOf, setPrev, lookup_write_self _ found]

@[simp] theorem prevOf_setPrev_ne (m : Cells κ β) {p k : κ} (other : k ≠ p) (v : Option κ) :
    prevOf (setPrev m p v) k = prevOf m k := by
  rw [prevOf, setPrev, lookup_write_ne _ other, prevOf]

theorem read_write {γ : Type} {m : Cells κ β} {p : κ} (k : κ) (f : Cell κ β → Cell κ β)
    (read : Cell κ β → Option γ) (keeps : ∀ cell, read (f cell) = read cell) :
    ((match m.lookup p with
      | some cell => m.insert p (f cell)
      | none => m).lookup k).bind read = (m.lookup k).bind read := by
  by_cases same : k = p
  · subst same
    cases found : m.lookup k with
    | none => simp [found]
    | some cell => simp [keeps]
  · rw [lookup_write_ne _ same]

@[simp] theorem prevOf_setNext (m : Cells κ β) (p k : κ) (v : Option κ) :
    prevOf (setNext m p v) k = prevOf m k :=
  read_write k _ Cell.prev fun _ => rfl

@[simp] theorem nextOf_setPrev (m : Cells κ β) (p k : κ) (v : Option κ) :
    nextOf (setPrev m p v) k = nextOf m k :=
  read_write k _ Cell.next fun _ => rfl

@[simp] theorem infoOf_setNext (m : Cells κ β) (p k : κ) (v : Option κ) :
    infoOf (setNext m p v) k = infoOf m k := by
  simp only [infoOf, Option.map_eq_bind]
  exact read_write k _ _ fun _ => rfl

@[simp] theorem infoOf_setPrev (m : Cells κ β) (p k : κ) (v : Option κ) :
    infoOf (setPrev m p v) k = infoOf m k := by
  simp only [infoOf, Option.map_eq_bind]
  exact read_write k _ _ fun _ => rfl

@[simp] theorem nextOf_modifyInfo (m : Cells κ β) (p k : κ) (f : β → β) :
    nextOf (modifyInfo m p f) k = nextOf m k :=
  read_write k _ Cell.next fun _ => rfl

@[simp] theorem prevOf_modifyInfo (m : Cells κ β) (p k : κ) (f : β → β) :
    prevOf (modifyInfo m p f) k = prevOf m k :=
  read_write k _ Cell.prev fun _ => rfl

theorem infoOf_modifyInfo_self (m : Cells κ β) (p : κ) (f : β → β) :
    infoOf (modifyInfo m p f) p = (infoOf m p).map f := by
  cases found : m.lookup p with
  | none => simp [infoOf, modifyInfo, found]
  | some cell => simp [infoOf, modifyInfo, found]

theorem infoOf_modifyInfo_ne (m : Cells κ β) {p k : κ} (other : k ≠ p) (f : β → β) :
    infoOf (modifyInfo m p f) k = infoOf m k := by
  rw [infoOf, modifyInfo, lookup_write_ne _ other, infoOf]

end Links

theorem getLast?_cons_or {α : Type} (k : α) (l : List α) (first : Option α) :
    (k :: l).getLast?.or first = l.getLast?.or (some k) := by
  cases last : l.getLast? <;> simp [List.getLast?_cons, last]

section Chain

variable {κ β : Type} [DecidableEq κ]

/-- The cells of `order` are in the map and linked in that order, the first naming `first` as the
cell before it and the last naming `last` as the cell after it. -/
def Chain (m : Cells κ β) : Option κ → List κ → Option κ → Prop
  | _, [], _ => True
  | first, k :: rest, last =>
    k ∈ m ∧ prevOf m k = first ∧ nextOf m k = rest.head?.or last ∧ Chain m (some k) rest last

@[simp] theorem chain_nil (m : Cells κ β) (first last : Option κ) : Chain m first [] last := trivial

theorem chain_cons {m : Cells κ β} {first last : Option κ} {k : κ} {rest : List κ} :
    Chain m first (k :: rest) last ↔
      k ∈ m ∧ prevOf m k = first ∧ nextOf m k = rest.head?.or last ∧ Chain m (some k) rest last :=
  Iff.rfl

theorem chain_append (m : Cells κ β) (l₂ : List κ) : ∀ (l₁ : List κ) (first last : Option κ),
    Chain m first (l₁ ++ l₂) last ↔
      Chain m first l₁ (l₂.head?.or last) ∧ Chain m (l₁.getLast?.or first) l₂ last
  | [], first, last => by simp
  | k :: l₁, first, last => by
    rw [List.cons_append, chain_cons, chain_cons, chain_append m l₂ l₁, getLast?_cons_or, List.head?_append,
      Option.or_assoc]
    constructor
    · rintro ⟨member, before, after, front, back⟩
      exact ⟨⟨member, before, after, front⟩, back⟩
    · rintro ⟨⟨member, before, after, front⟩, back⟩
      exact ⟨member, before, after, front, back⟩

theorem Chain.congr {m m' : Cells κ β} : ∀ {first last : Option κ} {order : List κ},
    (∀ k ∈ order, k ∈ m' ∧ prevOf m' k = prevOf m k ∧ nextOf m' k = nextOf m k) →
    Chain m first order last → Chain m' first order last
  | _, _, [], _, _ => trivial
  | _, _, k :: rest, same, ⟨_, before, after, chain⟩ => by
    obtain ⟨member', before', after'⟩ := same k List.mem_cons_self
    exact ⟨member', before'.trans before, after'.trans after,
      Chain.congr (fun j listed => same j (List.mem_cons_of_mem k listed)) chain⟩

theorem Chain.mem {m : Cells κ β} {first last : Option κ} {order : List κ} (chain : Chain m first order last)
    {k : κ} (listed : k ∈ order) : k ∈ m := by
  obtain ⟨l₁, l₂, rfl⟩ := List.append_of_mem listed
  exact ((chain_append m _ l₁ first last).mp chain).2.1

theorem Chain.frame {m m' : Cells κ β} {first last : Option κ} {order : List κ} (chain : Chain m first order last)
    (keys : ∀ k, k ∈ m' ↔ k ∈ m) (links : ∀ k ∈ order, prevOf m' k = prevOf m k ∧ nextOf m' k = nextOf m k) :
    Chain m' first order last :=
  chain.congr fun k listed => ⟨(keys k).mpr (chain.mem listed), links k listed⟩

theorem Chain.setNext_last {m : Cells κ β} {first last : Option κ} {l : List κ} {p : κ} (distinct : p ∉ l)
    (chain : Chain m first (l ++ [p]) last) (last' : Option κ) : Chain (setNext m p last') first (l ++ [p]) last' := by
  rw [chain_append] at chain ⊢
  obtain ⟨front, member, before, -, -⟩ := chain
  refine ⟨front.frame (fun _ => mem_setNext) fun k listed => ?_, mem_setNext.mpr member, ?_, ?_, trivial⟩
  · have other : k ≠ p := fun same => distinct (same ▸ listed)
    exact ⟨prevOf_setNext m p k last', nextOf_setNext_ne m other last'⟩
  · rw [prevOf_setNext, before]
  · simp [member]

theorem Chain.setPrev_first {m : Cells κ β} {first last : Option κ} {p : κ} {l : List κ} (distinct : p ∉ l)
    (chain : Chain m first (p :: l) last) (first' : Option κ) : Chain (setPrev m p first') first' (p :: l) last := by
  obtain ⟨member, -, after, rest⟩ := chain
  refine ⟨mem_setPrev.mpr member, prevOf_setPrev_self member first', by rw [nextOf_setPrev, after], ?_⟩
  refine rest.frame (fun _ => mem_setPrev) fun k listed => ?_
  have other : k ≠ p := fun same => distinct (same ▸ listed)
  exact ⟨prevOf_setPrev_ne m other first', nextOf_setPrev m p k first'⟩

end Chain

section Operations

variable {κ β : Type} [DecidableEq κ]

/-- `if ni.prev != nil { ni.prev.next = ni.next }`. -/
def linkPrevToNext (m : Cells κ β) (k : κ) : Cells κ β :=
  match prevOf m k with
  | some p => setNext m p (nextOf m k)
  | none => m

/-- `if ni.next != nil { ni.next.prev = ni.prev }`. -/
def linkNextToPrev (m : Cells κ β) (k : κ) : Cells κ β :=
  match nextOf m k with
  | some q => setPrev m q (prevOf m k)
  | none => m

/-- The neighbours of the cell `k` linked to each other, as both list operations begin. -/
def detach (m : Cells κ β) (k : κ) : Cells κ β := linkNextToPrev (linkPrevToNext m k) k

/-- `head.prev = ni` where there is a head, then `ni.next = head; ni.prev = nil`. -/
def linkAtHead (m : Cells κ β) (head : Option κ) (k : κ) : Cells κ β :=
  let m := match head with
    | some h => setPrev m h (some k)
    | none => m
  setPrev (setNext m k head) k none

/-- The cell `k` moved to the head of the list; a key the map lacks leaves it as it is. -/
def moveToHead (m : Cells κ β) (head : Option κ) (k : κ) : Cells κ β × Option κ :=
  match m.lookup k with
  | none => (m, head)
  | some _ => if head = some k then (m, head) else (linkAtHead (detach m k) head k, some k)

/-- The cell `k` taken out of the list and the map, the head moving on where it was `k`. -/
def unlink (m : Cells κ β) (head : Option κ) (k : κ) : Cells κ β × Option κ :=
  match m.lookup k with
  | none => (m, head)
  | some _ =>
    let m := detach m k
    (m.erase k, if head = some k then nextOf m k else head)

@[simp] theorem mem_linkPrevToNext {m : Cells κ β} {k j : κ} : j ∈ linkPrevToNext m k ↔ j ∈ m := by
  unfold linkPrevToNext
  split <;> simp

@[simp] theorem mem_linkNextToPrev {m : Cells κ β} {k j : κ} : j ∈ linkNextToPrev m k ↔ j ∈ m := by
  unfold linkNextToPrev
  split <;> simp

@[simp] theorem mem_detach {m : Cells κ β} {k j : κ} : j ∈ detach m k ↔ j ∈ m := by
  simp [detach]

@[simp] theorem infoOf_detach (m : Cells κ β) (k j : κ) : infoOf (detach m k) j = infoOf m j := by
  unfold detach linkNextToPrev linkPrevToNext
  split <;> split <;> simp

@[simp] theorem mem_linkAtHead {m : Cells κ β} {head : Option κ} {k j : κ} : j ∈ linkAtHead m head k ↔ j ∈ m := by
  unfold linkAtHead
  split <;> simp

@[simp] theorem infoOf_linkAtHead (m : Cells κ β) (head : Option κ) (k j : κ) :
    infoOf (linkAtHead m head k) j = infoOf m j := by
  unfold linkAtHead
  split <;> simp

theorem linkPrevToNext_links {m : Cells κ β} {k j : κ} (other : prevOf m k ≠ some j) :
    prevOf (linkPrevToNext m k) j = prevOf m j ∧ nextOf (linkPrevToNext m k) j = nextOf m j := by
  unfold linkPrevToNext
  cases before : prevOf m k with
  | none => exact ⟨rfl, rfl⟩
  | some p =>
    have apart : j ≠ p := fun same => other (same ▸ before)
    exact ⟨prevOf_setNext m p j _, nextOf_setNext_ne m apart _⟩

theorem linkNextToPrev_links {m : Cells κ β} {k j : κ} (other : nextOf m k ≠ some j) :
    prevOf (linkNextToPrev m k) j = prevOf m j ∧ nextOf (linkNextToPrev m k) j = nextOf m j := by
  unfold linkNextToPrev
  cases after : nextOf m k with
  | none => exact ⟨rfl, rfl⟩
  | some q =>
    have apart : j ≠ q := fun same => other (same ▸ after)
    exact ⟨prevOf_setPrev_ne m apart _, nextOf_setPrev m q j _⟩

theorem Chain.linkPrevToNext {m : Cells κ β} {l : List κ} {k : κ} (distinct : l.Nodup)
    (front : Chain m none l (some k)) (before : prevOf m k = l.getLast?) :
    Chain (linkPrevToNext m k) none l (nextOf m k) := by
  rcases List.eq_nil_or_concat l with rfl | ⟨l', p, rfl⟩
  · trivial
  · rw [List.concat_eq_append] at distinct front before ⊢
    have last : prevOf m k = some p := by simp [before]
    have notLast : p ∉ l' := fun listed =>
      (List.nodup_append.mp distinct).2.2 p listed p (List.mem_singleton_self p) rfl
    simp only [Kubernetes.Library.linkPrevToNext, last]
    exact front.setNext_last notLast _

theorem Chain.linkNextToPrev {m : Cells κ β} {l : List κ} {k : κ} (distinct : l.Nodup)
    (back : Chain m (some k) l none) (after : nextOf m k = l.head?) :
    Chain (linkNextToPrev m k) (prevOf m k) l none := by
  cases l with
  | nil => trivial
  | cons q l =>
    have first : nextOf m k = some q := after
    simp only [Kubernetes.Library.linkNextToPrev, first]
    exact back.setPrev_first (List.nodup_cons.mp distinct).1 _

theorem chain_detach {m : Cells κ β} {l₁ l₂ : List κ} {k : κ} (distinct : (l₁ ++ k :: l₂).Nodup)
    (chain : Chain m none (l₁ ++ k :: l₂) none) :
    Chain (detach m k) none (l₁ ++ l₂) none ∧ nextOf (detach m k) k = l₂.head? := by
  obtain ⟨outside, rest⟩ := List.nodup_cons.mp (List.nodup_middle.mp distinct)
  obtain ⟨distinct₁, distinct₂, apart⟩ := List.nodup_append.mp rest
  have notFront : k ∉ l₁ := fun listed => outside (List.mem_append_left l₂ listed)
  have notBack : k ∉ l₂ := fun listed => outside (List.mem_append_right l₁ listed)
  rw [chain_append] at chain
  obtain ⟨front, -, before, after, back⟩ := chain
  rw [Option.or_none] at before after
  -- the cell before `k` now names the cell after it, and nothing else changed
  have front₁ : Chain (linkPrevToNext m k) none l₁ l₂.head? := after ▸ front.linkPrevToNext distinct₁ before
  have kept₁ : ∀ j ∉ l₁, prevOf (linkPrevToNext m k) j = prevOf m j ∧ nextOf (linkPrevToNext m k) j = nextOf m j :=
    fun j notIn => linkPrevToNext_links fun last => notIn (List.mem_of_getLast? (before ▸ last))
  have back₁ : Chain (linkPrevToNext m k) (some k) l₂ none :=
    back.frame (fun _ => mem_linkPrevToNext) fun j listed => kept₁ j fun front => apart j front j listed rfl
  have before₁ : prevOf (linkPrevToNext m k) k = l₁.getLast? := (kept₁ k notFront).1.trans before
  have after₁ : nextOf (linkPrevToNext m k) k = l₂.head? := (kept₁ k notFront).2.trans after
  have back₂ : Chain (detach m k) l₁.getLast? l₂ none := before₁ ▸ back₁.linkNextToPrev distinct₂ after₁
  have kept₂ : ∀ j ∉ l₂, prevOf (detach m k) j = prevOf (linkPrevToNext m k) j ∧
      nextOf (detach m k) j = nextOf (linkPrevToNext m k) j :=
    fun j notIn => linkNextToPrev_links fun first => notIn (List.mem_of_mem_head? (after₁ ▸ first))
  have front₂ : Chain (detach m k) none l₁ l₂.head? :=
    front₁.frame (fun _ => mem_linkNextToPrev) fun j listed => kept₂ j fun back => apart j listed j back rfl
  refine ⟨(chain_append _ _ _ _ _).mpr ⟨by rwa [Option.or_none], by rwa [Option.or_none]⟩, ?_⟩
  exact (kept₂ k notBack).2.trans after₁

theorem chain_linkAtHead {m : Cells κ β} {order : List κ} {k : κ} (distinct : order.Nodup) (fresh : k ∉ order)
    (member : k ∈ m) (chain : Chain m none order none) :
    Chain (linkAtHead m order.head? k) none (k :: order) none := by
  have front : Chain (match order.head? with
      | some h => setPrev m h (some k)
      | none => m) (some k) order none := by
    cases order with
    | nil => trivial
    | cons h rest =>
      exact chain.setPrev_first (List.nodup_cons.mp distinct).1 (some k)
  have member₁ : k ∈ (match order.head? with
      | some h => setPrev m h (some k)
      | none => m) := by
    cases order.head? <;> simpa using member
  refine ⟨by simpa [linkAtHead] using member₁, ?_, ?_, ?_⟩
  · simp [linkAtHead, member₁]
  · simp [linkAtHead, member₁]
  · refine front.frame (fun _ => by simp [linkAtHead]) fun j listed => ?_
    have other : j ≠ k := fun same => fresh (same ▸ listed)
    simp [linkAtHead, other]

/-- A map represents the list `order`: its keys are those of `order`, each once, the head is the
first and the cells are linked in that order. -/
structure Represents (m : Cells κ β) (head : Option κ) (order : List κ) : Prop where
  nodup : order.Nodup
  keys : ∀ k, k ∈ m ↔ k ∈ order
  head : head = order.head?
  chain : Chain m none order none

theorem Represents.front_nil {m : Cells κ β} {head : Option κ} {l₁ l₂ : List κ} {k : κ}
    (rep : Represents m head (l₁ ++ k :: l₂)) (atHead : head = some k) : l₁ = [] := by
  cases l₁ with
  | nil => rfl
  | cons j l₁ =>
    have same : j = k := Option.some.inj (rep.head.symm.trans atHead)
    have twice := rep.nodup
    rw [same, List.cons_append, List.nodup_cons] at twice
    exact absurd (List.mem_append_right l₁ List.mem_cons_self) twice.1

theorem Represents.head_erase {m : Cells κ β} {head : Option κ} {l₁ l₂ : List κ} {k : κ}
    (rep : Represents m head (l₁ ++ k :: l₂)) (notHead : head ≠ some k) : head = (l₁ ++ l₂).head? := by
  cases l₁ with
  | nil => exact absurd rep.head notHead
  | cons j l₁ => exact rep.head

theorem Represents.erase_eq {m : Cells κ β} {head : Option κ} {l₁ l₂ : List κ} {k : κ}
    (rep : Represents m head (l₁ ++ k :: l₂)) : (l₁ ++ k :: l₂).erase k = l₁ ++ l₂ := by
  have notFront : k ∉ l₁ := fun listed =>
    (List.nodup_cons.mp (List.nodup_middle.mp rep.nodup)).1 (List.mem_append_left l₂ listed)
  rw [List.erase_append_right _ notFront, List.erase_cons_head]

theorem Represents.moveToHead {m : Cells κ β} {head : Option κ} {order : List κ} (rep : Represents m head order)
    {k : κ} (listed : k ∈ order) :
    Represents (moveToHead m head k).1 (moveToHead m head k).2 (k :: order.erase k) := by
  obtain ⟨l₁, l₂, rfl⟩ := List.append_of_mem listed
  obtain ⟨cell, found⟩ := Option.isSome_iff_exists.mp (AList.lookup_isSome.mpr ((rep.keys k).mpr listed))
  rw [rep.erase_eq]
  by_cases atHead : head = some k
  · -- already at the head: nothing moves
    have front := rep.front_nil atHead
    subst front
    simpa [Kubernetes.Library.moveToHead, found, atHead] using rep
  · simp only [Kubernetes.Library.moveToHead, found, atHead, if_false]
    obtain ⟨outside, distinct⟩ := List.nodup_cons.mp (List.nodup_middle.mp rep.nodup)
    obtain ⟨detached, -⟩ := chain_detach rep.nodup rep.chain
    have member : k ∈ detach m k := mem_detach.mpr ((rep.keys k).mpr listed)
    refine ⟨List.nodup_cons.mpr ⟨outside, distinct⟩, fun j => ?_, rfl, ?_⟩
    · simp only [mem_linkAtHead, mem_detach, rep.keys, List.mem_cons, List.mem_append]
      exact ⟨fun held => held.elim (fun front => Or.inr (Or.inl front)) fun back => back.elim Or.inl
        (Or.inr ∘ Or.inr), fun held => held.elim (fun same => Or.inr (Or.inl same)) fun held =>
          held.elim Or.inl (Or.inr ∘ Or.inr)⟩
    · rw [rep.head_erase atHead]
      exact chain_linkAtHead distinct outside member detached

theorem Represents.unlink {m : Cells κ β} {head : Option κ} {order : List κ} (rep : Represents m head order)
    {k : κ} (listed : k ∈ order) :
    Represents (unlink m head k).1 (unlink m head k).2 (order.erase k) := by
  obtain ⟨l₁, l₂, rfl⟩ := List.append_of_mem listed
  obtain ⟨cell, found⟩ := Option.isSome_iff_exists.mp (AList.lookup_isSome.mpr ((rep.keys k).mpr listed))
  obtain ⟨outside, distinct⟩ := List.nodup_cons.mp (List.nodup_middle.mp rep.nodup)
  obtain ⟨detached, after⟩ := chain_detach rep.nodup rep.chain
  rw [rep.erase_eq]
  simp only [Kubernetes.Library.unlink, found]
  refine ⟨distinct, fun j => ?_, ?_, ?_⟩
  · simp only [AList.mem_erase, mem_detach, rep.keys, List.mem_append, List.mem_cons]
    constructor
    · rintro ⟨other, held⟩
      exact held.elim Or.inl fun held => held.elim (fun same => absurd same other) Or.inr
    · intro held
      exact ⟨fun same => outside (same ▸ List.mem_append.mpr held), held.elim Or.inl (Or.inr ∘ Or.inr)⟩
  · split_ifs with atHead
    · rw [after, rep.front_nil atHead, List.nil_append]
    · exact rep.head_erase atHead
  · -- the other cells keep their links once `k` leaves the map
    refine detached.congr fun j held => ?_
    have other : j ≠ k := fun same => outside (same ▸ held)
    refine ⟨AList.mem_erase.mpr ⟨other, detached.mem held⟩, ?_, ?_⟩ <;>
      simp [prevOf, nextOf, AList.lookup_erase_ne other]

theorem Represents.modifyInfo {m : Cells κ β} {head : Option κ} {order : List κ} (rep : Represents m head order)
    (p : κ) (f : β → β) : Represents (modifyInfo m p f) head order where
  nodup := rep.nodup
  keys := fun k => mem_modifyInfo.trans (rep.keys k)
  head := rep.head
  chain := rep.chain.frame (fun _ => mem_modifyInfo) fun k _ => ⟨prevOf_modifyInfo m p k f, nextOf_modifyInfo m p k f⟩

theorem Represents.mem_iff {m : Cells κ β} {head : Option κ} {order : List κ} (rep : Represents m head order)
    {k : κ} : k ∈ order ↔ k ∈ m :=
  (rep.keys k).symm

@[simp] theorem infoOf_moveToHead (m : Cells κ β) (head : Option κ) (k j : κ) :
    infoOf (moveToHead m head k).1 j = infoOf m j := by
  unfold moveToHead
  split
  · rfl
  · split_ifs <;> simp

theorem infoOf_unlink (m : Cells κ β) (head : Option κ) (k j : κ) :
    infoOf (unlink m head k).1 j = if j = k then none else infoOf m j := by
  unfold unlink
  cases found : m.lookup k with
  | none =>
    by_cases same : j = k
    · subst same
      simp [infoOf, found]
    · simp [same]
  | some cell =>
    by_cases same : j = k
    · subst same
      simp [infoOf]
    · simp only [same, if_false]
      rw [infoOf, AList.lookup_erase_ne same, ← infoOf, infoOf_detach]

@[simp] theorem mem_moveToHead {m : Cells κ β} {head : Option κ} {k j : κ} : j ∈ (moveToHead m head k).1 ↔ j ∈ m := by
  unfold moveToHead
  split
  · rfl
  · split_ifs <;> simp

end Operations

/-! ## Lists kept newest first -/

section Stamps

variable {κ : Type}

/-- The keys of `order` carry strictly decreasing stamps. -/
def NewestFirst (stamp : κ → ℤ) (order : List κ) : Prop :=
  order.Pairwise fun newer older => stamp older < stamp newer

theorem NewestFirst.congr {stamp stamp' : κ → ℤ} {order : List κ} (newest : NewestFirst stamp order)
    (same : ∀ k ∈ order, stamp' k = stamp k) : NewestFirst stamp' order :=
  List.Pairwise.imp_of_mem (fun {newer older} isNewer isOlder before => by
    rw [same newer isNewer, same older isOlder]
    exact before) newest

theorem NewestFirst.erase [DecidableEq κ] {stamp : κ → ℤ} {order : List κ} (newest : NewestFirst stamp order) (k : κ) :
    NewestFirst stamp (order.erase k) :=
  List.Pairwise.sublist List.erase_sublist newest

theorem NewestFirst.touch [DecidableEq κ] {stamp stamp' : κ → ℤ} {order : List κ} (newest : NewestFirst stamp order)
    (distinct : order.Nodup) {k : κ} {s : ℤ} (above : ∀ j ∈ order, stamp j < s) (stamped : stamp' k = s)
    (others : ∀ j, j ≠ k → stamp' j = stamp j) : NewestFirst stamp' (k :: order.erase k) := by
  refine List.pairwise_cons.mpr ⟨fun j listed => ?_, (newest.erase k).congr fun j listed => ?_⟩
  · obtain ⟨other, listed⟩ := (distinct.mem_erase_iff).mp listed
    rw [stamped, others j other]
    exact above j listed
  · exact others j ((distinct.mem_erase_iff).mp listed).1

end Stamps

end Kubernetes.Library
