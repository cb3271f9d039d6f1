import Mathlib.Data.Prod.Lex
import Mathlib.Data.List.Induction

/-! Loops that pick elements by a key.

The first keeps the elements of least key: it starts from a bound, a smaller key restarts the kept
list and an equal key joins it. What it keeps is the elements whose key is the least of the bound
and the keys, in their order, and one such loop after another keeps the elements least by the
keys taken lexicographically. The second keeps the first element of greatest key, its key read
through a state as a clock is read, a later element replacing it only with a strictly greater
reading. The third keeps, among the elements of greatest key, the least value.
-/

set_option autoImplicit false

namespace Kubernetes.Library

variable {α ν : Type*} [LinearOrder ν]

section Least

variable (key : α → ν)

/-- One round: a smaller key restarts the kept list, an equal key joins it. -/
def keepStep (acc : ν × List α) (x : α) : ν × List α :=
  let acc := if key x < acc.1 then (key x, []) else acc
  if key x = acc.1 then (acc.1, acc.2 ++ [x]) else acc

/-- The loop from `bound` over `l`: the least key met and the elements that have it. -/
def keepLeast (bound : ν) (l : List α) : ν × List α := l.foldl (keepStep key) (bound, [])

/-- The least of `bound` and the keys of `l`. -/
def leastKey (bound : ν) (l : List α) : ν := l.foldl (fun m x => min m (key x)) bound

theorem keepLeast_append_singleton (bound : ν) (l : List α) (x : α) :
    keepLeast key bound (l ++ [x]) = keepStep key (keepLeast key bound l) x := by
  simp [keepLeast, List.foldl_append]

theorem leastKey_append_singleton (bound : ν) (l : List α) (x : α) :
    leastKey key bound (l ++ [x]) = min (leastKey key bound l) (key x) := by
  simp [leastKey, List.foldl_append]

theorem leastKey_le (bound : ν) {l : List α} {x : α} (member : x ∈ l) : leastKey key bound l ≤ key x := by
  induction l using List.reverseRecOn with
  | nil => cases member
  | append_singleton l y ih =>
    rw [leastKey_append_singleton]
    rcases List.mem_append.mp member with earlier | last
    · exact (min_le_left _ _).trans (ih earlier)
    · rw [List.mem_singleton.mp last]
      exact min_le_right _ _

theorem leastKey_eq (bound : ν) (l : List α) : leastKey key bound l = bound ∨ ∃ x ∈ l, leastKey key bound l = key x := by
  induction l using List.reverseRecOn with
  | nil => exact .inl rfl
  | append_singleton l x ih =>
    rw [leastKey_append_singleton]
    rcases le_total (leastKey key bound l) (key x) with earlier | last
    · rw [min_eq_left earlier]
      exact ih.imp_right fun ⟨y, member, same⟩ => ⟨y, List.mem_append_left _ member, same⟩
    · exact .inr ⟨x, List.mem_append_right _ List.mem_cons_self, min_eq_right last⟩

theorem keepLeast_eq (bound : ν) (l : List α) :
    keepLeast key bound l = (leastKey key bound l, l.filter fun x => key x = leastKey key bound l) := by
  induction l using List.reverseRecOn with
  | nil => rfl
  | append_singleton l x ih =>
    rw [keepLeast_append_singleton, ih, leastKey_append_singleton, List.filter_append]
    set m := leastKey key bound l
    unfold keepStep
    by_cases smaller : key x < m
    · -- a new least key: nothing kept before has it
      have none : l.filter (fun y => key y = key x) = [] :=
        List.filter_eq_nil_iff.mpr fun y member same =>
          absurd (of_decide_eq_true same ▸ leastKey_le key bound member) (not_le.mpr smaller)
      simp [smaller, min_eq_right smaller.le, none]
    · have least : min m (key x) = m := min_eq_left (not_lt.mp smaller)
      simp only [smaller, if_false, least]
      by_cases same : key x = m <;> simp [same]

theorem keepLeast_subset (bound : ν) (l : List α) : (keepLeast key bound l).2 ⊆ l := by
  rw [keepLeast_eq]
  exact List.filter_sublist.subset

theorem keepLeast_singleton {bound : ν} {x : α} (below : key x ≤ bound) : (keepLeast key bound [x]).2 = [x] := by
  rw [keepLeast_eq]
  simp [leastKey, min_eq_right below]

theorem keepLeast_ne_nil {bound : ν} {l : List α} {y : α} (member : y ∈ l) (below : key y ≤ bound) :
    (keepLeast key bound l).2 ≠ [] := by
  rw [keepLeast_eq]
  rcases leastKey_eq key bound l with atBound | ⟨x, member', least⟩
  · -- no key is below the bound: `y` has the least key
    have least : key y = leastKey key bound l := le_antisymm (below.trans atBound.ge) (leastKey_le key bound member)
    exact List.ne_nil_of_mem (List.mem_filter.mpr ⟨member, decide_eq_true least⟩)
  · exact List.ne_nil_of_mem (List.mem_filter.mpr ⟨member', decide_eq_true least.symm⟩)

end Least

section Lex

variable {μ : Type*} [LinearOrder μ]

/-- `kept` is the elements of `l` whose key is `m` for some `m` no key of `l` is below, in their
order. -/
def LeastOf (key : α → ν) (l kept : List α) : Prop :=
  ∃ m, (∀ x ∈ l, m ≤ key x) ∧ kept = l.filter fun x => key x = m

theorem leastOf_keepLeast (key : α → ν) (bound : ν) (l : List α) : LeastOf key l (keepLeast key bound l).2 :=
  ⟨leastKey key bound l, fun _ member => leastKey_le key bound member, by rw [keepLeast_eq]⟩

namespace LeastOf

variable {key : α → ν} {l kept : List α}

theorem subset (least : LeastOf key l kept) : kept ⊆ l := by
  obtain ⟨m, -, rfl⟩ := least
  exact List.filter_sublist.subset

theorem key_eq (least : LeastOf key l kept) {y : α} (kept_y : y ∈ kept) : ∃ m, (∀ x ∈ l, m ≤ key x) ∧ key y = m ∧
    kept = l.filter fun x => key x = m := by
  obtain ⟨m, below, rfl⟩ := least
  exact ⟨m, below, of_decide_eq_true (List.mem_filter.mp kept_y).2, rfl⟩

theorem le (least : LeastOf key l kept) {y x : α} (kept_y : y ∈ kept) (member : x ∈ l) : key y ≤ key x := by
  obtain ⟨m, below, same, -⟩ := least.key_eq kept_y
  exact same ▸ below x member

theorem eq_filter (least : LeastOf key l kept) {y : α} (kept_y : y ∈ kept) : kept = l.filter fun x => key x = key y := by
  obtain ⟨m, -, same, split⟩ := least.key_eq kept_y
  rw [same, split]

theorem exists_split (least : LeastOf key l kept) {before after : List α} {y : α}
    (split : kept = before ++ y :: after) :
    ∃ before' after', l = before' ++ y :: after' ∧ ∀ x ∈ before', key x = key y → x ∈ before := by
  have filtered := least.eq_filter (show y ∈ kept by rw [split]; simp)
  rw [split] at filtered
  obtain ⟨l₁, l₂, rfl, first, rest⟩ := List.append_eq_filter_iff.mp filtered
  obtain ⟨l₃, l₄, rfl, skipped, -, -⟩ := List.filter_eq_cons_iff.mp rest
  refine ⟨l₁ ++ l₃, l₄, by simp, fun x member same => ?_⟩
  rcases List.mem_append.mp member with old | skip
  · rw [← first]
    exact List.mem_filter.mpr ⟨old, decide_eq_true same⟩
  · exact absurd (decide_eq_true same) (skipped x skip)

theorem lex {key₂ : α → μ} {kept₂ : List α} (first : LeastOf key l kept) (second : LeastOf key₂ kept kept₂) :
    LeastOf (fun x => toLex (key x, key₂ x)) l kept₂ := by
  obtain ⟨m, below, rfl⟩ := first
  obtain ⟨m₂, below₂, rfl⟩ := second
  refine ⟨toLex (m, m₂), fun x member => ?_, ?_⟩
  · rcases (below x member).lt_or_eq with smaller | same
    · exact Prod.Lex.toLex_le_toLex.mpr (.inl smaller)
    · -- on a tie in the first key the element was kept, and the second key decides
      have kept_x : x ∈ l.filter fun x => key x = m := List.mem_filter.mpr ⟨member, decide_eq_true same.symm⟩
      exact Prod.Lex.toLex_le_toLex.mpr (.inr ⟨same, below₂ x kept_x⟩)
  · rw [List.filter_filter]
    refine List.filter_congr fun x _ => ?_
    simp [Bool.and_comm]

end LeastOf

end Lex

section Greatest

section GreatestRead

variable {σ : Type*} (read : α → σ → ν × σ)

/-- One round where an element's key is read through a state, as a clock is read: a strictly
greater reading takes the place of the element kept. -/
def greaterReadStep (acc : (α × ν) × σ) (x : α) : (α × ν) × σ :=
  if acc.1.2 < (read x acc.2).1 then ((x, (read x acc.2).1), (read x acc.2).2) else (acc.1, (read x acc.2).2)

variable {read} (low high : α → ν)

/-- What the loop keeps, with `seen` the elements visited: the kept element's reading lies between
its bounds, no element's lower bound exceeds it, and every element before the kept one has a lower
bound below it. -/
def GreatestReadInv (seen : List α) (acc : (α × ν) × σ) : Prop :=
  low acc.1.1 ≤ acc.1.2 ∧ acc.1.2 ≤ high acc.1.1 ∧
    ∃ before after, seen = before ++ acc.1.1 :: after ∧ (∀ y ∈ seen, low y ≤ acc.1.2) ∧ ∀ y ∈ before, low y < acc.1.2

theorem greaterReadStep_inv {seen : List α} {acc : (α × ν) × σ} (inv : GreatestReadInv low high seen acc) {x : α}
    (within : ∀ state, low x ≤ (read x state).1 ∧ (read x state).1 ≤ high x) :
    GreatestReadInv low high (seen ++ [x]) (greaterReadStep read acc x) := by
  obtain ⟨lowKept, highKept, before, after, split, below, strictly⟩ := inv
  obtain ⟨lowX, highX⟩ := within acc.2
  unfold greaterReadStep
  split_ifs with greater
  · -- a strictly greater reading: every element seen so far comes before the new one
    refine ⟨lowX, highX, seen, [], rfl, fun y member => ?_, fun y member => (below y member).trans_lt greater⟩
    rcases List.mem_append.mp member with old | last
    · exact (below y old).trans greater.le
    · rw [List.mem_singleton.mp last]
      exact lowX
  · refine ⟨lowKept, highKept, before, after ++ [x], by rw [split]; simp, fun y member => ?_, strictly⟩
    rcases List.mem_append.mp member with old | last
    · exact below y old
    · rw [List.mem_singleton.mp last]
      exact lowX.trans (not_lt.mp greater)

theorem foldl_greaterReadStep_inv {seen : List α} {acc : (α × ν) × σ} (inv : GreatestReadInv low high seen acc)
    {rest : List α} (within : ∀ x ∈ rest, ∀ state, low x ≤ (read x state).1 ∧ (read x state).1 ≤ high x) :
    GreatestReadInv low high (seen ++ rest) (rest.foldl (greaterReadStep read) acc) := by
  induction rest generalizing seen acc with
  | nil => simpa using inv
  | cons x rest ih =>
    rw [List.foldl_cons, ← List.singleton_append, ← List.append_assoc]
    exact ih (greaterReadStep_inv low high inv (within x List.mem_cons_self))
      fun y member => within y (List.mem_cons_of_mem _ member)

theorem foldl_greaterReadStep_spec {first : α} {value : ν} (lowFirst : low first ≤ value)
    (highFirst : value ≤ high first) (state : σ) {rest : List α}
    (within : ∀ x ∈ rest, ∀ state, low x ≤ (read x state).1 ∧ (read x state).1 ≤ high x) :
    ∃ before after, first :: rest = before ++ (rest.foldl (greaterReadStep read) ((first, value), state)).1.1 :: after ∧
      (∀ y ∈ first :: rest, low y ≤ high (rest.foldl (greaterReadStep read) ((first, value), state)).1.1) ∧
      ∀ y ∈ before, low y < high (rest.foldl (greaterReadStep read) ((first, value), state)).1.1 := by
  have start : GreatestReadInv low high [first] ((first, value), state) :=
    ⟨lowFirst, highFirst, [], [], rfl, by simpa using lowFirst, by simp⟩
  obtain ⟨-, highKept, before, after, split, below, strictly⟩ := foldl_greaterReadStep_inv low high start within
  exact ⟨before, after, split, fun y member => (below y member).trans highKept,
    fun y member => (strictly y member).trans_le highKept⟩

end GreatestRead

section LeastOfGreatest

variable {μ : Type*} [LinearOrder μ] (key : α → μ) (val : α → ν)

/-- One round: a greater key restarts with the element's value, an equal key keeps the lesser
value. -/
def leastOfGreatestStep (acc : ν × μ) (x : α) : ν × μ :=
  if key x = acc.2 then (if val x < acc.1 then (val x, acc.2) else acc)
  else if key x > acc.2 then (val x, key x) else acc

theorem foldl_leastOfGreatestStep (first : α) (l : List α) :
    ∃ y ∈ first :: l, l.foldl (leastOfGreatestStep key val) (val first, key first) = (val y, key y) ∧
      ∀ x ∈ first :: l, key x ≤ key y ∧ (key x = key y → val y ≤ val x) := by
  induction l using List.reverseRecOn with
  | nil => exact ⟨first, List.mem_cons_self, rfl, fun x member => by simp [List.mem_singleton.mp member]⟩
  | append_singleton l x ih =>
    obtain ⟨y, member, kept, best⟩ := ih
    rw [List.foldl_append, List.foldl_cons, List.foldl_nil, kept, leastOfGreatestStep]
    have grown : ∀ z ∈ first :: (l ++ [x]), z ∈ first :: l ∨ z = x := by
      intro z member
      rwa [← List.cons_append, List.mem_append, List.mem_singleton] at member
    have widen : ∀ {z}, z ∈ first :: l → z ∈ first :: (l ++ [x]) := fun member => by
      rw [← List.cons_append]
      exact List.mem_append_left _ member
    by_cases same : key x = key y
    · by_cases earlier : val x < val y
      · -- a tie on the key that started earlier takes the place of `y`
        refine ⟨x, by simp, by simp [same, earlier], fun z member' => ?_⟩
        rcases grown z member' with old | rfl
        · exact ⟨same ▸ (best z old).1, fun tie => earlier.le.trans ((best z old).2 (tie.trans same))⟩
        · exact ⟨le_rfl, fun _ => le_rfl⟩
      · refine ⟨y, widen member, by simp [same, earlier], fun z member' => ?_⟩
        rcases grown z member' with old | rfl
        · exact best z old
        · exact ⟨same.le, fun _ => not_lt.mp earlier⟩
    · by_cases greater : key x > key y
      · -- a greater key restarts: no element before has it
        refine ⟨x, by simp, by simp [same, greater], fun z member' => ?_⟩
        rcases grown z member' with old | rfl
        · exact ⟨(best z old).1.trans greater.le, fun tie => absurd (tie ▸ (best z old).1) (not_le.mpr greater)⟩
        · exact ⟨le_rfl, fun _ => le_rfl⟩
      · refine ⟨y, widen member, by simp [same, greater], fun z member' => ?_⟩
        rcases grown z member' with old | rfl
        · exact best z old
        · exact ⟨not_lt.mp greater, fun tie => absurd tie same⟩

end LeastOfGreatest

end Greatest

end Kubernetes.Library
