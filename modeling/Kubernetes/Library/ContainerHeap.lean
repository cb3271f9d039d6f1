import Mathlib.Data.List.Perm.Basic
import Mathlib.Order.Defs.Unbundled

/-! Go's `container/heap`, over any implementation of `heap.Interface`.

The package keeps a binary min-heap in the slots `0 .. Len()-1` of a value it only reaches
through the interface's methods: `Less` and `Swap` on slots, and `Push` and `Pop` at the end.
`up` and `down` are its two sift loops; `Push`, `Pop`, `Remove` and `Fix` call them around the
data's own `Push` and `Pop`.

The algorithms are stated once for an arbitrary interface. The order they restore is proved on
the interface of a slice of the elements themselves (`sliceInterface`). An implementation whose
slots hold, under an invariant of its own, the elements of a slice, compares them as that slice
does and swaps them as that slice does (`Lawful`), computes what the slice computes.
-/

set_option autoImplicit false

namespace Kubernetes.Library.ContainerHeap

/-- The methods of `heap.Interface` on a state `σ`; `Push` takes a `χ` and `Pop` returns a `β`. -/
structure Interface (σ χ β : Type) where
  len : σ → ℕ
  less : σ → ℕ → ℕ → Bool
  swap : σ → ℕ → ℕ → σ
  push : σ → χ → σ
  pop : σ → σ × β

/-- The slot above `j`: `(j - 1) / 2`, which is `j` itself only at the root. -/
def parent (j : ℕ) : ℕ := (j - 1) / 2

theorem parent_lt {j : ℕ} (positive : 0 < j) : parent j < j := by
  unfold parent
  omega

theorem parent_zero : parent 0 = 0 := rfl

theorem parent_eq_iff {c i : ℕ} (positive : 0 < c) : parent c = i ↔ c = 2 * i + 1 ∨ c = 2 * i + 2 := by
  unfold parent
  omega

section Algorithms

variable {σ χ β : Type} (h : Interface σ χ β)

/-- The loop of `up`: while the element at `j` is less than its parent, swap them. Each round
takes `j` to its parent, so `j` rounds are enough: with the fuel at least `j`, it runs out only
at the root, where the loop breaks anyway. -/
def up.loop : ℕ → σ → ℕ → σ
  | 0, s, _ => s
  | fuel + 1, s, j =>
    let i := parent j
    if i = j ∨ !h.less s j i then s else up.loop fuel (h.swap s i j) i

def up (s : σ) (j : ℕ) : σ := up.loop h j s j

/-- The child of `i` that `down` compares with `i`: the right one where it is within the first
`n` slots and less than the left one, else the left one. -/
def down.lesserChild (s : σ) (i n : ℕ) : ℕ :=
  let j1 := 2 * i + 1
  if j1 + 1 < n ∧ h.less s (j1 + 1) j1 then j1 + 1 else j1

/-- The loop of `down` within the first `n` slots: while the lesser child of `i` is less than
the element at `i`, swap them. It returns the state and the slot where the loop stopped. Each
round moves `i` further from `0` and keeps it below `n`, so `n - i` rounds are enough. -/
def down.loop (n : ℕ) : ℕ → σ → ℕ → σ × ℕ
  | 0, s, i => (s, i)
  | fuel + 1, s, i =>
    if 2 * i + 1 ≥ n then (s, i)
    else
      let j := down.lesserChild h s i n
      if !h.less s j i then (s, i) else down.loop n fuel (h.swap s i j) j

/-- `down`: the state, and whether the element moved. -/
def down (s : σ) (i0 n : ℕ) : σ × Bool :=
  let r := down.loop h n (n - i0) s i0
  (r.1, i0 < r.2)

def push (s : σ) (x : χ) : σ :=
  let s := h.push s x
  up h s (h.len s - 1)

/-- `heap.Pop`, on a non-empty heap (on an empty one Go's `Swap(0, -1)` is out of range). -/
def pop (s : σ) : σ × β :=
  let n := h.len s - 1
  h.pop (down h (h.swap s 0 n) 0 n).1

/-- `if !down(h, i, n) { up(h, i) }`, the step that `Remove` and `Fix` share. -/
def downOrUp (s : σ) (i n : ℕ) : σ :=
  let r := down h s i n
  if r.2 then r.1 else up h r.1 i

/-- `heap.Remove` of the element at `i`. -/
def remove (s : σ) (i : ℕ) : σ × β :=
  let n := h.len s - 1
  if n ≠ i then h.pop (downOrUp h (h.swap s i n) i n) else h.pop s

/-- `heap.Fix` after the element at `i` changed. -/
def fix (s : σ) (i : ℕ) : σ := downOrUp h s i (h.len s)

theorem up.loop_keeps {P : σ → Prop} (top : ℕ)
    (keeps : ∀ s a b, P s → a < b → b ≤ top → P (h.swap s a b)) :
    ∀ fuel s j, j ≤ top → P s → P (up.loop h fuel s j) := by
  intro fuel
  induction fuel with
  | zero => exact fun _ _ _ holds => holds
  | succ fuel ih =>
    intro s j below holds
    rw [up.loop]
    split_ifs with stop
    · exact holds
    · have root : 0 < j := by
        by_contra atRoot
        exact stop (.inl (by rw [show j = 0 by omega, parent_zero]))
      have above := parent_lt root
      exact ih _ _ (by omega) (keeps s _ _ holds above below)

theorem down.lesserChild_cases (s : σ) (i n : ℕ) :
    down.lesserChild h s i n = 2 * i + 1 ∨ (down.lesserChild h s i n = 2 * i + 2 ∧ 2 * i + 2 < n) := by
  unfold down.lesserChild
  dsimp only
  split_ifs with right
  · exact .inr ⟨rfl, right.1⟩
  · exact .inl rfl

theorem down.loop_keeps {P : σ → Prop} {n : ℕ}
    (keeps : ∀ s a b, P s → a < b → b < n → P (h.swap s a b)) :
    ∀ fuel s i, P s → P (down.loop h n fuel s i).1 := by
  intro fuel
  induction fuel with
  | zero => exact fun _ _ holds => holds
  | succ fuel ih =>
    intro s i holds
    rw [down.loop]
    dsimp only
    split_ifs with leaf stop
    · exact holds
    · exact holds
    · apply ih
      apply keeps s _ _ holds <;> rcases down.lesserChild_cases h s i n with left | ⟨right, _⟩ <;> omega

theorem downOrUp_keeps {P : σ → Prop} {n : ℕ} (keeps : ∀ s a b, P s → a < b → b < n → P (h.swap s a b))
    {s : σ} {i : ℕ} (inside : i < n) (holds : P s) : P (downOrUp h s i n) := by
  have sifted := down.loop_keeps h keeps (n - i) s i holds
  unfold downOrUp down
  dsimp only
  split
  · exact sifted
  · exact up.loop_keeps h i (fun s a b held less atMost => keeps s a b held less (by omega)) i _ i
      (Nat.le_refl i) sifted

end Algorithms

/-! ## A slice of elements -/

section Slice

variable {α : Type}

/-- `s[i], s[j] = s[j], s[i]` on a slice; out of range it leaves the slice as it is. -/
def exchange (l : List α) (i j : ℕ) : List α :=
  match l[i]?, l[j]? with
  | some a, some b => (l.set i b).set j a
  | _, _ => l

/-- The interface of a slice of elements compared by `lt`. -/
def sliceInterface (lt : α → α → Bool) : Interface (List α) α (Option α) where
  len := List.length
  less l i j :=
    match l[i]?, l[j]? with
    | some a, some b => lt a b
    | _, _ => false
  swap := exchange
  push l a := l ++ [a]
  pop l := (l.dropLast, l.getLast?)

@[simp] theorem length_exchange (l : List α) (i j : ℕ) : (exchange l i j).length = l.length := by
  unfold exchange
  split <;> simp

theorem getElem?_exchange {l : List α} {i j : ℕ} (hi : i < l.length) (hj : j < l.length) (p : ℕ) :
    (exchange l i j)[p]? = if p = j then l[i]? else if p = i then l[j]? else l[p]? := by
  unfold exchange
  rw [List.getElem?_eq_getElem hi, List.getElem?_eq_getElem hj]
  simp only [List.getElem?_set, List.length_set]
  split_ifs <;> grind

theorem getElem?_exchange_left {l : List α} {i j : ℕ} (hi : i < l.length) (hj : j < l.length) :
    (exchange l i j)[i]? = l[j]? := by
  rw [getElem?_exchange hi hj, if_pos rfl]
  split_ifs with same
  · rw [same]
  · rfl

theorem getElem?_exchange_right {l : List α} {i j : ℕ} (hi : i < l.length) (hj : j < l.length) :
    (exchange l i j)[j]? = l[i]? := by
  rw [getElem?_exchange hi hj, if_pos rfl]

theorem getElem?_exchange_of_ne (l : List α) {i j p : ℕ} (ne_i : p ≠ i) (ne_j : p ≠ j) :
    (exchange l i j)[p]? = l[p]? := by
  unfold exchange
  split
  · simp [Ne.symm ne_i, Ne.symm ne_j]
  · rfl

open List in
theorem exchange_perm (l : List α) (i j : ℕ) : exchange l i j ~ l := by
  unfold exchange
  split
  · rename_i a b found found'
    obtain ⟨hi, rfl⟩ := List.getElem?_eq_some_iff.mp found
    obtain ⟨hj, rfl⟩ := List.getElem?_eq_some_iff.mp found'
    by_cases same : i = j
    · subst same
      simp
    -- after the first write the slot `j` still holds `l[j]`, so both writes exchange one element
    have inside : j < (l.set i l[j]).length := by simpa using hj
    have kept : (l.set i l[j])[j] = l[j] := by simp [List.getElem_set]
    calc (l.set i l[j]).set j l[i]
        _ ~ l[i] :: (l.set i l[j]).eraseIdx j := List.set_perm_cons_eraseIdx inside _
        _ ~ l[i] :: l.eraseIdx i := by
          apply List.Perm.cons
          have split_j := List.getElem_cons_eraseIdx_perm inside
          rw [kept] at split_j
          exact (List.perm_cons _).mp (split_j.trans (List.set_perm_cons_eraseIdx hi _))
        _ ~ l := List.getElem_cons_eraseIdx_perm hi
  · exact .refl l

variable {lt : α → α → Bool}

@[simp] theorem sliceInterface_len (l : List α) : (sliceInterface lt).len l = l.length := rfl

@[simp] theorem sliceInterface_swap (l : List α) (i j : ℕ) : (sliceInterface lt).swap l i j = exchange l i j :=
  rfl

@[simp] theorem sliceInterface_push (l : List α) (a : α) : (sliceInterface lt).push l a = l ++ [a] := rfl

@[simp] theorem sliceInterface_pop (l : List α) : (sliceInterface lt).pop l = (l.dropLast, l.getLast?) := rfl

theorem exchange_self (l : List α) (i : ℕ) : exchange l i i = l := by
  unfold exchange
  split
  · rename_i a b found found'
    obtain ⟨inside, rfl⟩ := List.getElem?_eq_some_iff.mp found
    rw [List.getElem?_eq_getElem inside, Option.some.injEq] at found'
    subst found'
    simp
  · rfl

open List in
theorem dropLast_perm_of_getLast? {m : List α} {x : α} (last : m.getLast? = some x) : x :: m.dropLast ~ m := by
  obtain ⟨rest, rfl⟩ := List.getLast?_eq_some_iff.mp last
  rw [List.dropLast_concat]
  exact (List.perm_append_singleton x rest).symm

/-! The sift loops only exchange slots, `up` from `j` those up to `j` and `down` within `n` those
below `n`. -/

open List in
theorem up_perm (l : List α) (j : ℕ) : up (sliceInterface lt) l j ~ l :=
  up.loop_keeps _ (P := (· ~ l)) j (fun m a b moved _ _ => (exchange_perm m a b).trans moved) j l j
    (Nat.le_refl j) (.refl l)

open List in
theorem down_loop_perm (n fuel : ℕ) (l : List α) (i : ℕ) : (down.loop (sliceInterface lt) n fuel l i).1 ~ l :=
  down.loop_keeps _ (P := (· ~ l)) (fun m a b moved _ _ => (exchange_perm m a b).trans moved) fuel l i
    (.refl l)

open List in
theorem down_perm (l : List α) (i n : ℕ) : (down (sliceInterface lt) l i n).1 ~ l :=
  down_loop_perm _ _ _ _

open List in
theorem downOrUp_perm (l : List α) (i n : ℕ) : downOrUp (sliceInterface lt) l i n ~ l := by
  unfold downOrUp down
  dsimp only
  split
  · exact down_loop_perm _ _ _ _
  · exact (up_perm _ _).trans (down_loop_perm _ _ _ _)

open List in
theorem push_perm (l : List α) (a : α) : push (sliceInterface lt) l a ~ l ++ [a] := up_perm _ _

open List in
theorem fix_perm (l : List α) (i : ℕ) : fix (sliceInterface lt) l i ~ l := downOrUp_perm _ _ _

theorem getElem?_up_of_lt {l : List α} {j k : ℕ} (after : j < k) : (up (sliceInterface lt) l j)[k]? = l[k]? :=
  up.loop_keeps _ (P := fun m => m[k]? = l[k]?) j
    (fun m _ _ same _ below => (getElem?_exchange_of_ne m (by omega) (by omega)).trans same) j l j
    (Nat.le_refl j) rfl

theorem getElem?_down_loop_of_le {n k : ℕ} (past : n ≤ k) (fuel : ℕ) (l : List α) (i : ℕ) :
    (down.loop (sliceInterface lt) n fuel l i).1[k]? = l[k]? :=
  down.loop_keeps _ (P := fun m => m[k]? = l[k]?)
    (fun m _ _ same _ below => (getElem?_exchange_of_ne m (by omega) (by omega)).trans same) fuel l i rfl

theorem getElem?_downOrUp_of_le {l : List α} {i n k : ℕ} (inside : i < n) (past : n ≤ k) :
    (downOrUp (sliceInterface lt) l i n)[k]? = l[k]? := by
  unfold downOrUp down
  dsimp only
  split
  · exact getElem?_down_loop_of_le past _ _ _
  · rw [getElem?_up_of_lt (by omega)]
    exact getElem?_down_loop_of_le past _ _ _

theorem pop_eq_remove (l : List α) : pop (sliceInterface lt) l = remove (sliceInterface lt) l 0 := by
  unfold pop remove
  dsimp only
  split_ifs with moving
  · -- from the root, `up` has nothing to do
    dsimp only [downOrUp]
    split <;> rfl
  · -- the root was the last slot: nothing is exchanged or sifted
    rw [not_not.mp moving, sliceInterface_swap, exchange_self]
    rfl

open List in
theorem remove_contents {l : List α} {i : ℕ} (inside : i < l.length) :
    (remove (sliceInterface lt) l i).2 = some l[i] ∧ l[i] :: (remove (sliceInterface lt) l i).1 ~ l := by
  unfold remove
  dsimp only
  split_ifs with moving
  · simp only [sliceInterface_len, sliceInterface_swap, sliceInterface_pop] at moving ⊢
    have perm := (@downOrUp_perm _ lt (exchange l i (l.length - 1)) i (l.length - 1)).trans
      (exchange_perm l i (l.length - 1))
    -- the element at `i` was exchanged into the last slot, which the sifts leave alone
    have last : (downOrUp (sliceInterface lt) (exchange l i (l.length - 1)) i (l.length - 1)).getLast? =
        some l[i] := by
      rw [List.getLast?_eq_getElem?, perm.length_eq, getElem?_downOrUp_of_le (by omega) (Nat.le_refl _),
        getElem?_exchange inside (by omega), if_pos rfl, List.getElem?_eq_getElem inside]
    exact ⟨last, (dropLast_perm_of_getLast? last).trans perm⟩
  · simp only [sliceInterface_len, sliceInterface_pop] at moving ⊢
    have last : l.getLast? = some l[i] := by
      rw [List.getLast?_eq_getElem?, not_not.mp moving, List.getElem?_eq_getElem inside]
    exact ⟨last, dropLast_perm_of_getLast? last⟩

end Slice

/-! ## The heap order on a slice -/

section Order

variable {α : Type} (lt : α → α → Bool)

/-- The element at slot `a` is not less than the one at slot `b`; true where a slot is empty. -/
def NotLess (l : List α) (a b : ℕ) : Prop :=
  ∀ x y, l[a]? = some x → l[b]? = some y → lt x y = false

/-- The first `n` slots are in heap order: no element is less than its parent. -/
def HeapOrdered (l : List α) (n : ℕ) : Prop :=
  ∀ c, 0 < c → c < n → NotLess lt l c (parent c)

/-- The whole slice is a heap. -/
def IsHeap (l : List α) : Prop := HeapOrdered lt l l.length

/-- What `up` needs at `j`: every slot but `j` is in order with its parent, and the children of
`j` are not less than the parent of `j`, which a swap puts above them. -/
structure UpReady (l : List α) (n j : ℕ) : Prop where
  except : ∀ c, 0 < c → c < n → c ≠ j → NotLess lt l c (parent c)
  grand : 0 < j → ∀ c, 0 < c → c < n → parent c = j → NotLess lt l c (parent j)

/-- What `down` needs at `i`, having started at `i0`: every slot that is neither `i` nor a child
of `i` is in order with its parent, the children of `i` are not less than the parent of `i`,
and once the element has moved, it is not less than its parent. -/
structure DownReady (l : List α) (n i0 i : ℕ) : Prop where
  start : i0 ≤ i
  except : ∀ c, 0 < c → c < n → c ≠ i → parent c ≠ i → NotLess lt l c (parent c)
  grand : 0 < i → ∀ c, 0 < c → c < n → parent c = i → NotLess lt l c (parent i)
  above : i0 < i → NotLess lt l i (parent i)

/-- Where `down` stops: the children of `i` are not less than the element at `i`. -/
structure DownStopped (l : List α) (n i0 i : ℕ) : Prop extends DownReady lt l n i0 i where
  children : ∀ c, 0 < c → c < n → parent c = i → NotLess lt l c i

variable {lt}

theorem NotLess.congr {l l' : List α} {a b a' b' : ℕ} (first : l'[a]? = l[a']?) (second : l'[b]? = l[b']?)
    (notLess : NotLess lt l a' b') : NotLess lt l' a b := by
  intro x y found found'
  exact notLess x y (first ▸ found) (second ▸ found')

theorem notLess_of_less {l : List α} {a b : ℕ} (less : (sliceInterface lt).less l a b = false) :
    NotLess lt l a b := by
  intro x y found found'
  simpa [sliceInterface, found, found'] using less

theorem HeapOrdered.congr {l l' : List α} {n : ℕ} (ordered : HeapOrdered lt l n)
    (same : ∀ c, c < n → l'[c]? = l[c]?) : HeapOrdered lt l' n := by
  intro c positive inside
  have above := parent_lt positive
  exact (ordered c positive inside).congr (same c inside) (same _ (by omega))

theorem HeapOrdered.mono {l : List α} {n m : ℕ} (ordered : HeapOrdered lt l n) (fewer : m ≤ n) :
    HeapOrdered lt l m :=
  fun c positive inside => ordered c positive (by omega)

theorem isHeap_dropLast {m : List α} (ordered : HeapOrdered lt m (m.length - 1)) : IsHeap lt m.dropLast := by
  unfold IsHeap
  rw [List.length_dropLast]
  exact ordered.congr fun c inside => by rw [List.getElem?_dropLast, if_pos inside]

theorem UpReady.heapOrdered {l : List α} {n j : ℕ} (ready : UpReady lt l n j)
    (stop : 0 < j → NotLess lt l j (parent j)) : HeapOrdered lt l n := by
  intro c positive inside
  by_cases at_j : c = j
  · subst at_j
    exact stop positive
  · exact ready.except c positive inside at_j

theorem DownStopped.upReady {l : List α} {n i0 i : ℕ} (stopped : DownStopped lt l n i0 i) :
    UpReady lt l n i where
  except c positive inside ne := by
    by_cases child : parent c = i
    · rw [child]
      exact stopped.children c positive inside child
    · exact stopped.except c positive inside ne child
  grand := stopped.grand

theorem DownStopped.heapOrdered {l : List α} {n i0 i : ℕ} (stopped : DownStopped lt l n i0 i)
    (moved : i0 < i) : HeapOrdered lt l n :=
  stopped.upReady.heapOrdered fun _ => stopped.above moved

theorem no_children {n i c : ℕ} (leaf : n ≤ 2 * i + 1) (positive : 0 < c) (inside : c < n) :
    parent c ≠ i := by
  rw [Ne, parent_eq_iff positive]
  omega

section StrictWeakOrder

variable [IsStrictWeakOrder α fun a b => lt a b = true]

theorem lt_false_self (a : α) : lt a a = false := by
  simpa using irrefl (r := fun a b => lt a b = true) a

theorem lt_false_of_lt {a b : α} (less : lt a b = true) : lt b a = false := by
  simpa using asymm (r := fun a b => lt a b = true) less

theorem lt_false_trans {a b c : α} (ab : lt a b = false) (bc : lt b c = false) : lt a c = false := by
  by_contra ac
  rw [Bool.not_eq_false] at ac
  cases ba : lt b a
  · cases cb : lt c b
    · -- `b` is incomparable with both, so `a` and `c` are incomparable
      have incomparable := @IsStrictWeakOrder.incomp_trans α (fun a b => lt a b = true) _ a b c
        ⟨by simp [ab], by simp [ba]⟩ ⟨by simp [bc], by simp [cb]⟩
      exact incomparable.1 ac
    · have through := IsTrans.trans (r := fun a b => lt a b = true) _ _ _ ac cb
      simp [ab] at through
  · have through := IsTrans.trans (r := fun a b => lt a b = true) _ _ _ ba ac
    simp [bc] at through

theorem NotLess.refl (l : List α) (a : ℕ) : NotLess lt l a a := by
  intro x y found found'
  rw [found] at found'
  cases found'
  exact lt_false_self x

theorem notLess_of_less_true {l : List α} {a b : ℕ} (less : (sliceInterface lt).less l a b = true) :
    NotLess lt l b a := by
  intro x y found found'
  simp only [sliceInterface, found, found'] at less
  exact lt_false_of_lt less

theorem NotLess.trans {l : List α} {a b c : ℕ} (ab : NotLess lt l a b) (bc : NotLess lt l b c)
    (inside : b < l.length) : NotLess lt l a c := by
  intro x z found found'
  have middle := List.getElem?_eq_getElem inside
  exact lt_false_trans (ab x _ found middle) (bc _ z middle found')

theorem UpReady.swap {l : List α} {n j : ℕ} (ready : UpReady lt l n j) (root : 0 < j) (inside : j < n)
    (fits : n ≤ l.length) (less : (sliceInterface lt).less l j (parent j) = true) :
    UpReady lt (exchange l (parent j) j) n (parent j) := by
  have above := parent_lt root
  have hj : j < l.length := by omega
  have hp : parent j < l.length := by omega
  have atJ : (exchange l (parent j) j)[j]? = l[parent j]? := by
    rw [getElem?_exchange hp hj, if_pos rfl]
  have atP : (exchange l (parent j) j)[parent j]? = l[j]? := by
    rw [getElem?_exchange hp hj, if_neg (by omega), if_pos rfl]
  have other : ∀ c, c ≠ parent j → c ≠ j → (exchange l (parent j) j)[c]? = l[c]? :=
    fun c ne_p ne_j => getElem?_exchange_of_ne l ne_p ne_j
  have swapped : NotLess lt l (parent j) j := notLess_of_less_true less
  constructor
  · intro c positive below ne_p
    by_cases at_j : c = j
    · subst at_j
      exact swapped.congr atJ atP
    by_cases sibling : parent c = parent j
    · -- the sibling of `j` is not less than the old parent, which is not less than the element
      -- that moved up
      have edge := ready.except c positive below at_j
      rw [sibling] at edge
      exact (edge.trans swapped hp).congr (other c ne_p at_j) (by rw [sibling, atP])
    by_cases child : parent c = j
    · exact (ready.grand root c positive below child).congr (other c ne_p at_j) (by rw [child, atJ])
    · exact (ready.except c positive below at_j).congr (other c ne_p at_j) (other _ sibling child)
  · intro positive c cpos below child
    have higher := parent_lt positive
    have atGrand : (exchange l (parent j) j)[parent (parent j)]? = l[parent (parent j)]? :=
      other _ (by omega) (by omega)
    have edge : NotLess lt l (parent j) (parent (parent j)) :=
      ready.except _ positive (by omega) (by omega)
    by_cases at_j : c = j
    · subst at_j
      exact edge.congr atJ atGrand
    · have ne_p : c ≠ parent j := by
        have := parent_lt cpos
        omega
      have sibling := ready.except c cpos below at_j
      rw [child] at sibling
      exact (sibling.trans edge hp).congr (other c ne_p at_j) atGrand

theorem lesserChild_least {l : List α} {i n : ℕ} :
    ∀ c, 0 < c → c < n → parent c = i → NotLess lt l c (down.lesserChild (sliceInterface lt) l i n) := by
  intro c positive below child
  rw [parent_eq_iff positive] at child
  unfold down.lesserChild
  dsimp only
  split_ifs with right
  · rcases child with rfl | rfl
    · exact notLess_of_less_true right.2
    · exact .refl _ _
  · rcases child with rfl | rfl
    · exact .refl _ _
    · -- the right child is within `n`, so it was not less than the left one
      have notRight : (sliceInterface lt).less l (2 * i + 1 + 1) (2 * i + 1) = false := by
        simpa [below] using right
      exact notLess_of_less notRight

theorem DownReady.swap {l : List α} {n i0 i : ℕ} (ready : DownReady lt l n i0 i) (fits : n ≤ l.length)
    (internal : 2 * i + 1 < n)
    (less : (sliceInterface lt).less l (down.lesserChild (sliceInterface lt) l i n) i = true) :
    DownReady lt (exchange l i (down.lesserChild (sliceInterface lt) l i n)) n i0
      (down.lesserChild (sliceInterface lt) l i n) := by
  have least := @lesserChild_least _ lt _ l i n
  have cases := down.lesserChild_cases (sliceInterface lt) l i n
  generalize down.lesserChild (sliceInterface lt) l i n = j at least less cases ⊢
  have jpos : 0 < j := by omega
  have below : j < n := by omega
  have child : parent j = i := by
    rw [parent_eq_iff jpos]
    omega
  have hi : i < l.length := by omega
  have hj : j < l.length := by omega
  have atI : (exchange l i j)[i]? = l[j]? := by
    rw [getElem?_exchange hi hj, if_neg (by omega), if_pos rfl]
  have atJ : (exchange l i j)[j]? = l[i]? := by
    rw [getElem?_exchange hi hj, if_pos rfl]
  have other : ∀ c, c ≠ i → c ≠ j → (exchange l i j)[c]? = l[c]? :=
    fun c ne_i ne_j => getElem?_exchange_of_ne l ne_i ne_j
  have start := ready.start
  refine ⟨by omega, ?_, ?_, ?_⟩
  · intro c positive inside ne_j parent_ne_j
    by_cases at_i : c = i
    · -- the element moved up to `i` is not less than the parent of `i`
      subst at_i
      have higher := parent_lt positive
      exact (ready.grand positive j jpos below child).congr atI (other _ (by omega) (by omega))
    by_cases sibling : parent c = i
    · exact (least c positive inside sibling).congr (other c at_i ne_j) (by rw [sibling, atI])
    · exact (ready.except c positive inside at_i sibling).congr (other c at_i ne_j)
        (other _ sibling parent_ne_j)
  · intro _ c positive inside grandchild
    have past : j < c := by
      rw [← grandchild]
      exact parent_lt positive
    have edge := ready.except c positive inside (by omega) (by omega)
    rw [grandchild] at edge
    rw [child]
    exact edge.congr (other c (by omega) (by omega)) atI
  · intro _
    rw [child]
    exact (notLess_of_less_true less).congr atJ atI

theorem up_loop_heapOrdered {n : ℕ} : ∀ fuel (l : List α) j, j ≤ fuel → j < n → n ≤ l.length →
    UpReady lt l n j → HeapOrdered lt (up.loop (sliceInterface lt) fuel l j) n := by
  intro fuel
  induction fuel with
  | zero =>
    intro l j atRoot _ _ ready
    exact ready.heapOrdered fun positive => absurd positive (by omega)
  | succ fuel ih =>
    intro l j enough inside fits ready
    rw [up.loop]
    split_ifs with stop
    · -- the loop breaks at the root, or where the element is not less than its parent
      refine ready.heapOrdered fun positive => ?_
      have ne : parent j ≠ j := Nat.ne_of_lt (parent_lt positive)
      simp only [ne, false_or, Bool.not_eq_true'] at stop
      exact notLess_of_less stop
    · simp only [not_or, Bool.not_eq_true', Bool.not_eq_false] at stop
      have root : 0 < j := by
        by_contra atRoot
        exact stop.1 (by rw [show j = 0 by omega, parent_zero])
      have above := parent_lt root
      exact ih _ _ (by omega) (by omega) (by simpa [sliceInterface] using fits) (ready.swap root inside fits stop.2)

theorem down_loop_stopped {n i0 : ℕ} : ∀ fuel (l : List α) i, n - i ≤ fuel → n ≤ l.length →
    DownReady lt l n i0 i →
      DownStopped lt (down.loop (sliceInterface lt) n fuel l i).1 n i0 (down.loop (sliceInterface lt) n fuel l i).2 := by
  intro fuel
  induction fuel with
  | zero =>
    intro l i spent _ ready
    show DownStopped lt l n i0 i
    exact ⟨ready, fun c positive inside child => absurd child (no_children (by omega) positive inside)⟩
  | succ fuel ih =>
    intro l i enough fits ready
    simp only [down.loop]
    split_ifs with leaf stop
    · exact ⟨ready, fun c positive inside child => absurd child (no_children (by omega) positive inside)⟩
    · -- the lesser child is not less than the element, so no child is
      show DownStopped lt l n i0 i
      simp only [Bool.not_eq_true'] at stop
      have cases := down.lesserChild_cases (sliceInterface lt) l i n
      refine ⟨ready, fun c positive inside child => ?_⟩
      exact (lesserChild_least c positive inside child).trans (notLess_of_less stop) (by omega)
    · simp only [Bool.not_eq_true', Bool.not_eq_false] at stop
      have cases := down.lesserChild_cases (sliceInterface lt) l i n
      exact ih _ _ (by omega) (by simpa [sliceInterface] using fits) (ready.swap fits (by omega) stop)

theorem up_heapOrdered {l : List α} {n j : ℕ} (inside : j < n) (fits : n ≤ l.length)
    (ready : UpReady lt l n j) : HeapOrdered lt (up (sliceInterface lt) l j) n :=
  up_loop_heapOrdered j l j (Nat.le_refl j) inside fits ready

theorem downOrUp_heapOrdered {l : List α} {n i : ℕ} (inside : i < n) (fits : n ≤ l.length)
    (ready : DownReady lt l n i i) : HeapOrdered lt (downOrUp (sliceInterface lt) l i n) n := by
  have stopped := down_loop_stopped (n - i) l i (Nat.le_refl _) fits ready
  unfold downOrUp down
  dsimp only
  split_ifs with moved
  · exact stopped.heapOrdered (by simpa using moved)
  · -- the element stayed at `i`, where `up` takes over
    have stayed : (down.loop (sliceInterface lt) n (n - i) l i).2 = i := by
      have := stopped.start
      simp only [decide_eq_true_eq] at moved
      omega
    rw [stayed] at stopped
    have length : (down.loop (sliceInterface lt) n (n - i) l i).1.length = l.length :=
      (down_loop_perm _ _ _ _).length_eq
    exact up_heapOrdered inside (by omega) stopped.upReady

theorem downReady_of_replaced {l m : List α} {n i : ℕ} (ordered : HeapOrdered lt l n) (inside : i < n)
    (fits : n ≤ l.length) (agree : ∀ c, c < n → c ≠ i → m[c]? = l[c]?) : DownReady lt m n i i where
  start := Nat.le_refl i
  except c positive below ne_i parent_ne := by
    have := parent_lt positive
    exact (ordered c positive below).congr (agree c below ne_i) (agree _ (by omega) parent_ne)
  grand positive c cpos below child := by
    -- through the element that was at `i`: its children were not less than it, and it was not
    -- less than its parent
    have higher := parent_lt positive
    have past : i < c := by
      rw [← child]
      exact parent_lt cpos
    have edge := ordered c cpos below
    rw [child] at edge
    exact (edge.trans (ordered i positive inside) (by omega)).congr (agree c below (by omega))
      (agree _ (by omega) (by omega))
  above moved := absurd moved (Nat.lt_irrefl i)

theorem isHeap_push {l : List α} (heap : IsHeap lt l) (a : α) : IsHeap lt (push (sliceInterface lt) l a) := by
  unfold push IsHeap
  simp only [sliceInterface_push, sliceInterface_len, List.length_append, List.length_singleton,
    Nat.add_sub_cancel]
  rw [(up_perm (l ++ [a]) l.length).length_eq, List.length_append, List.length_singleton]
  apply up_heapOrdered (Nat.lt_succ_self _) (by simp)
  constructor
  · -- below the new slot the slice is the heap it was
    intro c positive below ne
    have := parent_lt positive
    exact (heap c positive (by omega)).congr (List.getElem?_append_left (by omega))
      (List.getElem?_append_left (by omega))
  · intro _ c positive below child
    exact absurd child (no_children (by omega) positive below)

theorem isHeap_remove {l : List α} (heap : IsHeap lt l) {i : ℕ} (inside : i < l.length) :
    IsHeap lt (remove (sliceInterface lt) l i).1 := by
  unfold remove
  dsimp only
  split_ifs with moving
  · simp only [sliceInterface_len, sliceInterface_swap, sliceInterface_pop] at moving ⊢
    -- the last element, exchanged into `i`, is sifted within the slots before the last
    have ready : DownReady lt (exchange l i (l.length - 1)) (l.length - 1) i i :=
      downReady_of_replaced (heap.mono (Nat.sub_le _ _)) (by omega) (Nat.sub_le _ _)
        fun c below ne => getElem?_exchange_of_ne l ne (by omega)
    have ordered := downOrUp_heapOrdered (by omega) (by simp) ready
    apply isHeap_dropLast
    rwa [(downOrUp_perm _ _ _).length_eq, length_exchange]
  · simp only [sliceInterface_pop]
    exact isHeap_dropLast (heap.mono (Nat.sub_le _ _))

theorem isHeap_pop {l : List α} (heap : IsHeap lt l) : IsHeap lt (pop (sliceInterface lt) l).1 := by
  rcases l with _ | ⟨top, rest⟩
  · exact fun c positive inside => absurd inside (by simp [pop, down, down.loop])
  · rw [pop_eq_remove]
    exact isHeap_remove heap (by simp)

theorem isHeap_fix {l : List α} (heap : IsHeap lt l) {i : ℕ} (inside : i < l.length) (a : α) :
    IsHeap lt (fix (sliceInterface lt) (l.set i a) i) := by
  unfold fix IsHeap
  rw [(downOrUp_perm _ _ _).length_eq]
  simp only [sliceInterface_len, List.length_set]
  exact downOrUp_heapOrdered inside (by simp)
    (downReady_of_replaced heap inside (Nat.le_refl _) fun c _ ne => List.getElem?_set_ne (Ne.symm ne))

theorem IsHeap.notLess_root {l : List α} (heap : IsHeap lt l) : ∀ k, k < l.length → NotLess lt l k 0 := by
  intro k
  induction k using Nat.strongRecOn with
  | _ k ih =>
    intro inside
    rcases Nat.eq_zero_or_pos k with rfl | positive
    · exact .refl l 0
    · have above := parent_lt positive
      exact (heap k positive inside).trans (ih _ above (by omega)) (by omega)

theorem IsHeap.root_least {l : List α} (heap : IsHeap lt l) {top : α} (first : l[0]? = some top) :
    ∀ x ∈ l, lt x top = false := by
  intro x member
  obtain ⟨k, inside, rfl⟩ := List.getElem_of_mem member
  exact heap.notLess_root k inside _ _ (List.getElem?_eq_getElem inside) first

end StrictWeakOrder

end Order

/-! ## Implementations that hold a slice -/

section Lawful

variable {σ χ β α : Type} (h : Interface σ χ β) (lt : α → α → Bool) (inv : σ → Prop) (view : σ → List α)
  (out : Option α → β)

/-- An implementation whose slots hold the slice `view s` while `inv s` holds: it has as many
slots, compares two of them as the slice does, and its `Swap` and `Pop` act on the slice as the
slice's own do, keeping `inv`; `Pop` hands out what `out` makes of the slice's last element. -/
structure Lawful : Prop where
  len_eq : ∀ s, inv s → h.len s = (view s).length
  less_eq : ∀ s, inv s → ∀ i j, i < (view s).length → j < (view s).length →
    h.less s i j = (sliceInterface lt).less (view s) i j
  swap_inv : ∀ s, inv s → ∀ i j, i < (view s).length → j < (view s).length → inv (h.swap s i j)
  view_swap : ∀ s, inv s → ∀ i j, i < (view s).length → j < (view s).length →
    view (h.swap s i j) = exchange (view s) i j
  pop_inv : ∀ s, inv s → 0 < (view s).length → inv (h.pop s).1
  view_pop : ∀ s, inv s → 0 < (view s).length → view (h.pop s).1 = (view s).dropLast
  pop_out : ∀ s, inv s → 0 < (view s).length → (h.pop s).2 = out (view s).getLast?

variable {h lt inv view out}

theorem Lawful.up_loop (law : Lawful h lt inv view out) : ∀ fuel s j, inv s → j < (view s).length →
    inv (up.loop h fuel s j) ∧ view (up.loop h fuel s j) = up.loop (sliceInterface lt) fuel (view s) j := by
  intro fuel
  induction fuel with
  | zero => exact fun s _ holds _ => ⟨holds, rfl⟩
  | succ fuel ih =>
    intro s j holds inside
    have above : parent j ≤ j := by
      unfold parent
      omega
    simp only [up.loop]
    rw [law.less_eq s holds j (parent j) inside (by omega)]
    split_ifs with stop
    · exact ⟨holds, rfl⟩
    · have swapped := law.view_swap s holds (parent j) j (by omega) inside
      obtain ⟨invariant, same⟩ := ih (h.swap s (parent j) j) (parent j)
        (law.swap_inv s holds _ _ (by omega) inside) (by rw [swapped, length_exchange]; omega)
      exact ⟨invariant, by rw [same, swapped]; rfl⟩

theorem Lawful.lesserChild (law : Lawful h lt inv view out) {s : σ} {i n : ℕ} (holds : inv s)
    (fits : n ≤ (view s).length) :
    down.lesserChild h s i n = down.lesserChild (sliceInterface lt) (view s) i n := by
  unfold down.lesserChild
  dsimp only
  by_cases right : 2 * i + 1 + 1 < n
  · rw [law.less_eq s holds _ _ (by omega) (by omega)]
  · simp only [right, false_and, if_false]

theorem Lawful.down_loop (law : Lawful h lt inv view out) {n : ℕ} : ∀ fuel s i, inv s → n ≤ (view s).length →
    inv (down.loop h n fuel s i).1 ∧
      (view (down.loop h n fuel s i).1, (down.loop h n fuel s i).2) = down.loop (sliceInterface lt) n fuel (view s) i := by
  intro fuel
  induction fuel with
  | zero => exact fun s _ holds _ => ⟨holds, rfl⟩
  | succ fuel ih =>
    intro s i holds fits
    simp only [down.loop]
    by_cases leaf : 2 * i + 1 ≥ n
    · rw [if_pos leaf, if_pos leaf]
      exact ⟨holds, rfl⟩
    · have cases := down.lesserChild_cases h s i n
      rw [if_neg leaf, if_neg leaf, law.lesserChild holds fits]
      rw [law.lesserChild holds fits] at cases
      generalize down.lesserChild (sliceInterface lt) (view s) i n = j at cases ⊢
      rw [law.less_eq s holds j i (by omega) (by omega)]
      split_ifs with stop
      · exact ⟨holds, rfl⟩
      · have swapped := law.view_swap s holds i j (by omega) (by omega)
        obtain ⟨invariant, same⟩ := ih _ _ (law.swap_inv s holds i j (by omega) (by omega))
          (by rw [swapped, length_exchange]; omega)
        exact ⟨invariant, by rw [same, swapped]; rfl⟩

theorem Lawful.up_view (law : Lawful h lt inv view out) {s : σ} {j : ℕ} (holds : inv s) (inside : j < (view s).length) :
    inv (up h s j) ∧ view (up h s j) = up (sliceInterface lt) (view s) j :=
  law.up_loop j s j holds inside

theorem Lawful.downOrUp_view (law : Lawful h lt inv view out) {s : σ} {i n : ℕ} (holds : inv s) (inside : i < n)
    (fits : n ≤ (view s).length) :
    inv (downOrUp h s i n) ∧ view (downOrUp h s i n) = downOrUp (sliceInterface lt) (view s) i n := by
  obtain ⟨invariant, same⟩ := law.down_loop (n - i) s i holds fits
  simp only [Prod.ext_iff] at same
  unfold ContainerHeap.downOrUp ContainerHeap.down
  dsimp only
  rw [← same.2]
  split_ifs
  · exact ⟨invariant, same.1⟩
  · have length : (view (down.loop h n (n - i) s i).1).length = (view s).length := by
      rw [same.1]
      exact (down_loop_perm _ _ _ _).length_eq
    obtain ⟨moved, sameUp⟩ := law.up_view (j := i) invariant (by omega)
    exact ⟨moved, by rw [sameUp, same.1]⟩

theorem Lawful.down_view (law : Lawful h lt inv view out) {s : σ} {i n : ℕ} (holds : inv s)
    (fits : n ≤ (view s).length) :
    inv (down h s i n).1 ∧ view (down h s i n).1 = (down (sliceInterface lt) (view s) i n).1 := by
  obtain ⟨invariant, same⟩ := law.down_loop (n - i) s i holds fits
  exact ⟨invariant, congrArg Prod.fst same⟩

theorem Lawful.pop_step (law : Lawful h lt inv view out) {s : σ} {v : List α} (holds : inv s)
    (nonempty : 0 < v.length) (viewed : view s = v) :
    inv (h.pop s).1 ∧ view (h.pop s).1 = ((sliceInterface lt).pop v).1 ∧
      (h.pop s).2 = out ((sliceInterface lt).pop v).2 := by
  subst viewed
  exact ⟨law.pop_inv s holds nonempty, law.view_pop s holds nonempty, law.pop_out s holds nonempty⟩

theorem Lawful.push_view (law : Lawful h lt inv view out) {s : σ} {x : χ} {a : α}
    (pushed : inv (h.push s x)) (viewPushed : view (h.push s x) = view s ++ [a]) :
    inv (push h s x) ∧ view (push h s x) = push (sliceInterface lt) (view s) a := by
  unfold push
  dsimp only
  rw [law.len_eq _ pushed]
  have sifted := law.up_view (j := (view (h.push s x)).length - 1) pushed (by rw [viewPushed]; simp)
  rwa [viewPushed] at sifted ⊢

theorem Lawful.pop_view (law : Lawful h lt inv view out) {s : σ} (holds : inv s)
    (nonempty : 0 < (view s).length) :
    inv (pop h s).1 ∧ view (pop h s).1 = (pop (sliceInterface lt) (view s)).1 ∧
      (pop h s).2 = out (pop (sliceInterface lt) (view s)).2 := by
  unfold pop
  simp only [law.len_eq s holds, sliceInterface_len, sliceInterface_swap]
  have swapped := law.view_swap s holds 0 ((view s).length - 1) nonempty (by omega)
  obtain ⟨invariant, same⟩ := law.down_view (i := 0) (n := (view s).length - 1)
    (law.swap_inv s holds 0 ((view s).length - 1) nonempty (by omega)) (by rw [swapped, length_exchange]; omega)
  rw [swapped] at same
  have length : 0 < (down (sliceInterface lt) (exchange (view s) 0 ((view s).length - 1)) 0
      ((view s).length - 1)).1.length := by
    rw [(down_perm _ _ _).length_eq, length_exchange]
    exact nonempty
  exact law.pop_step invariant length same

theorem Lawful.remove_view (law : Lawful h lt inv view out) {s : σ} {i : ℕ} (holds : inv s)
    (inside : i < (view s).length) :
    inv (remove h s i).1 ∧ view (remove h s i).1 = (remove (sliceInterface lt) (view s) i).1 ∧
      (remove h s i).2 = out (remove (sliceInterface lt) (view s) i).2 := by
  have length := law.len_eq s holds
  unfold remove
  dsimp only
  split_ifs with moving moving' moving'
  · simp only [length, sliceInterface_len, sliceInterface_swap] at moving ⊢
    have swapped := law.view_swap s holds i ((view s).length - 1) inside (by omega)
    obtain ⟨invariant, same⟩ := law.downOrUp_view (law.swap_inv s holds i ((view s).length - 1) inside (by omega))
      (by omega : i < (view s).length - 1) (by rw [swapped, length_exchange]; omega)
    rw [swapped] at same
    have nonempty : 0 < (downOrUp (sliceInterface lt) (exchange (view s) i ((view s).length - 1)) i
        ((view s).length - 1)).length := by
      rw [(downOrUp_perm _ _ _).length_eq, length_exchange]
      exact Nat.zero_lt_of_lt inside
    exact law.pop_step invariant nonempty same
  · simp only [length, sliceInterface_len, ne_eq, not_not] at moving moving'
    omega
  · simp only [length, sliceInterface_len, ne_eq, not_not] at moving moving'
    omega
  · exact law.pop_step holds (Nat.zero_lt_of_lt inside) rfl

theorem Lawful.fix_view (law : Lawful h lt inv view out) {s : σ} {i : ℕ} (holds : inv s)
    (inside : i < (view s).length) :
    inv (fix h s i) ∧ view (fix h s i) = fix (sliceInterface lt) (view s) i := by
  unfold fix
  rw [law.len_eq s holds]
  exact law.downOrUp_view holds inside (Nat.le_refl _)

end Lawful

end Kubernetes.Library.ContainerHeap
