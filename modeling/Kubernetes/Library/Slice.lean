import Mathlib.Data.List.Perm.Basic

/-! Go slice idioms.

A slice whose order does not matter loses an element by moving its last element into the hole
and shortening the slice by one. What is left holds the other elements, in another order: the
element taken out and the rest are a permutation of the slice. The move writes into the array
under the slice: a loop that ranges over the slice as it was reads that array, which holds the
shortened slice followed by the slots past it, the hole filled by the last element.

A loop `for i := len(s) - 1; i >= low; i--` walks the slice with its indexes from the top down
and stops at the first index below `low`; as the indexes fall, it meets exactly the elements
whose index is at least `low`.

A loop that reads several slices in turns, the `j`-th element of each in the `j`-th turn, meets
every element of every slice once, when it takes as many turns as the longest slice is long.
-/

set_option autoImplicit false

namespace Kubernetes.Library

variable {α : Type}

/-- `s[i] = s[len(s)-1]; s = s[:len(s)-1]`. -/
def swapRemove (s : List α) (i : ℕ) : List α :=
  match s.getLast? with
  | some last => (s.set i last).dropLast
  | none => s

open List in
theorem perm_cons_dropLast {m : List α} {x : α} (last : m.getLast? = some x) : x :: m.dropLast ~ m := by
  obtain ⟨rest, rfl⟩ := List.getLast?_eq_some_iff.mp last
  rw [List.dropLast_concat]
  exact (List.perm_append_singleton x rest).symm

open List in
theorem perm_cons_swapRemove {s : List α} {i : ℕ} (inside : i < s.length) : s ~ s[i] :: swapRemove s i := by
  have last : s.getLast? = some s[s.length - 1] := by
    rw [List.getLast?_eq_getElem?, List.getElem?_eq_getElem (by omega)]
  unfold swapRemove
  rw [last]
  -- the last slot still holds the last element once `i` is overwritten with it
  have kept : (s.set i s[s.length - 1]).getLast? = some s[s.length - 1] := by
    rw [List.getLast?_eq_getElem?, List.length_set, List.getElem?_set]
    split_ifs with same
    · rfl
    · exact List.getElem?_eq_getElem (by omega)
  have moved := List.set_perm_cons_eraseIdx inside s[s.length - 1]
  have rest : (s.set i s[s.length - 1]).dropLast ~ s.eraseIdx i :=
    ((perm_cons_dropLast kept).trans moved).cons_inv
  exact (List.getElem_cons_eraseIdx_perm inside).symm.trans (rest.symm.cons _)

theorem length_swapRemove {s : List α} {i : ℕ} (inside : i < s.length) :
    (swapRemove s i).length + 1 = s.length := by
  have perm := perm_cons_swapRemove inside
  rw [perm.length_eq, List.length_cons]

theorem swapRemove_append_drop {s backing : List α} {i : ℕ} {last : α} (slice : s <+: backing)
    (inside : i < s.length) (atLast : s[s.length - 1]? = some last) :
    swapRemove s i ++ backing.drop (s.length - 1) = backing.set i last := by
  obtain ⟨rest, rfl⟩ := slice
  have lastOfSlice : s.getLast? = some last := by rw [List.getLast?_eq_getElem?, atLast]
  -- the slot past the shortened slice holds the last element, as the filled hole does
  have ends : (s.set i last).getLast? = some last := by
    rw [List.getLast?_eq_getElem?, List.length_set, List.getElem?_set]
    split_ifs with same
    · rfl
    · exact atLast
  have dropped : s.drop (s.length - 1) = [last] := by
    obtain ⟨init, rfl⟩ := List.getLast?_eq_some_iff.mp lastOfSlice
    simp
  unfold swapRemove
  rw [lastOfSlice]
  dsimp only
  rw [List.set_append_left _ _ inside, List.drop_append_of_le_length (by omega), dropped, ← List.append_assoc,
    List.dropLast_append_getLast? _ ends]

theorem diff_perm_of_perm_append [BEq α] [LawfulBEq α] {t l : List α} : ∀ {m : List α}, t.Perm (l ++ m) → (t.diff m).Perm l
  | [], perm => by simpa using perm
  | a :: m, perm => by
    rw [List.diff_cons]
    refine diff_perm_of_perm_append ?_
    have moved := perm.trans List.perm_middle
    simpa using moved.erase a

theorem pairwise_zipIdx (s : List α) (n : ℕ) : (s.zipIdx n).Pairwise fun a b => a.2 < b.2 := by
  induction s generalizing n with
  | nil => exact List.Pairwise.nil
  | cons x s ih =>
    rw [List.zipIdx_cons, List.pairwise_cons]
    refine ⟨?_, ih (n + 1)⟩
    rintro ⟨y, i⟩ later
    have above := (List.mem_zipIdx later).1
    exact Nat.lt_of_succ_le above

theorem takeWhile_eq_filter {p : α → Bool} {s : List α}
    (closed : s.Pairwise fun a b => p a = false → p b = false) : s.takeWhile p = s.filter p := by
  induction s with
  | nil => rfl
  | cons x s ih =>
    rw [List.pairwise_cons] at closed
    cases holds : p x
    · -- the walk stops here, and the filter keeps nothing after
      have none : s.filter p = [] := List.filter_eq_nil_iff.mpr fun y member => by
        simp [closed.1 y member holds]
      simp [holds, none]
    · simp [holds, ih closed.2]

theorem takeWhile_zipIdx_reverse (s : List α) {p : ℕ → Bool}
    (rising : ∀ i j, i < j → p i = true → p j = true) :
    s.zipIdx.reverse.takeWhile (fun a => p a.2) = s.zipIdx.reverse.filter fun a => p a.2 := by
  apply takeWhile_eq_filter
  refine List.pairwise_reverse.mpr ((pairwise_zipIdx s 0).imp ?_)
  intro a b lower fails
  cases holds : p a.2
  · rfl
  · rw [rising a.2 b.2 lower holds] at fails
    exact absurd fails (by decide)

theorem nodup_filterMap {β : Type} {f : α → Option β} : ∀ {s : List α}, s.Nodup →
    (∀ a ∈ s, ∀ a' ∈ s, ∀ b ∈ f a, b ∈ f a' → a = a') → (s.filterMap f).Nodup
  | [], _, _ => List.nodup_nil
  | a :: s, distinct, apart => by
    rw [List.nodup_cons] at distinct
    have rest := nodup_filterMap distinct.2 fun x member y member' =>
      apart x (List.mem_cons_of_mem a member) y (List.mem_cons_of_mem a member')
    cases made : f a with
    | none => simpa [List.filterMap_cons, made] using rest
    | some b =>
      rw [List.filterMap_cons, made]
      refine List.nodup_cons.mpr ⟨fun later => ?_, rest⟩
      obtain ⟨a', member', made'⟩ := List.mem_filterMap.mp later
      have same := apart a List.mem_cons_self a' (List.mem_cons_of_mem a member') b made made'
      exact distinct.1 (same ▸ member')

/-- The `j`-th turn over `slices`: the `j`-th element of each slice that has one. -/
def column (slices : List (List α)) (j : ℕ) : List α := slices.filterMap (·[j]?)

theorem filterMap_range_getElem? (s : List α) (n : ℕ) : (List.range n).filterMap (s[·]?) = s.take n := by
  induction n with
  | zero => rfl
  | succ n ih =>
    rw [List.range_succ, List.filterMap_append, ih, List.take_add_one]
    cases read : s[n]? <;> simp [read]

theorem flatMap_column_perm (n : ℕ) : ∀ slices : List (List α),
    ((List.range n).flatMap (column slices)).Perm (slices.flatMap (·.take n))
  | [] => by simp [column]
  | s :: slices => by
    -- each turn reads `s` first and then the other slices
    have split : column (s :: slices) = fun j => s[j]?.toList ++ column slices j := by
      funext j
      cases read : s[j]? <;> simp [column, read]
    rw [split, List.flatMap_cons]
    refine (List.flatMap_append_perm _ _ _).symm.trans (List.Perm.append ?_ (flatMap_column_perm n slices))
    rw [← List.filterMap_eq_flatMap_toList, filterMap_range_getElem?]

end Kubernetes.Library
