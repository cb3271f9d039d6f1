import Mathlib.Data.List.Range
import Mathlib.Data.List.Find

/-! Cyclic scans over the positions `0, …, length - 1`.

Allocators search a bitmap from a starting point and wrap around the end of the
range. Two loop shapes occur: a counter `i` runs over `0, …, length - 1` and the
position probed is `(start + i) % length`, or a cursor is probed and then advanced
to `(cursor + 1) % length`. Both visit every position once, so a scan of the whole
range finds a free position exactly when one exists.
-/

set_option autoImplicit false

namespace Kubernetes.Library

/-- The first loop counter `i < length` whose wrapped position `(start + i) % length`
is free; the loop `for i := 0; i < length; i++` that exits there. -/
def firstWrapped (length start : ℕ) (free : ℕ → Bool) : Option ℕ :=
  (List.range length).find? fun i => free ((start + i) % length)

/-- Probe `cursor`; while it is taken and fuel is left, advance it cyclically. The
result is the last cursor, free or not. -/
def advanceCursor (length : ℕ) (free : ℕ → Bool) : ℕ → ℕ → ℕ
  | 0, cursor => cursor
  | fuel + 1, cursor => if free cursor then cursor else advanceCursor length free fuel ((cursor + 1) % length)

section
variable {length start : ℕ} {free : ℕ → Bool}

theorem exists_wrapped_counter (start : ℕ) {position : ℕ} (inRange : position < length) :
    ∃ i < length, (start + i) % length = position := by
  have positive : 0 < length := by omega
  refine ⟨(position + (length - start % length)) % length, Nat.mod_lt _ positive, ?_⟩
  have below : start % length < length := Nat.mod_lt _ positive
  calc (start + (position + (length - start % length)) % length) % length
      = (start % length + (position + (length - start % length))) % length := by
        rw [Nat.add_mod_mod, Nat.mod_add_mod]
    _ = (position + length) % length := by congr 1; omega
    _ = position := by rw [Nat.add_mod_right, Nat.mod_eq_of_lt inRange]

theorem firstWrapped_lt {i : ℕ} (found : firstWrapped length start free = some i) : i < length := by
  have member := List.mem_of_find?_eq_some found
  simpa using member

theorem firstWrapped_free {i : ℕ} (found : firstWrapped length start free = some i) :
    free ((start + i) % length) = true := by
  simpa using List.find?_some found

theorem firstWrapped_eq_none_iff :
    firstWrapped length start free = none ↔ ∀ position < length, free position = false := by
  simp only [firstWrapped, List.find?_eq_none, List.mem_range, Bool.not_eq_true]
  constructor
  · intro none position inRange
    obtain ⟨i, counted, wraps⟩ := exists_wrapped_counter start inRange
    rw [← wraps]
    exact none i counted
  · intro allTaken i _
    have positive : 0 < length := by omega
    exact allTaken _ (Nat.mod_lt _ positive)

theorem advanceCursor_lt (fuel : ℕ) {cursor : ℕ} (inRange : cursor < length) :
    advanceCursor length free fuel cursor < length := by
  induction fuel generalizing cursor with
  | zero => exact inRange
  | succ fuel ih =>
    simp only [advanceCursor]
    split
    · exact inRange
    · exact ih (Nat.mod_lt _ (by omega))

theorem advanceCursor_free_of_ahead {fuel cursor : ℕ} (inRange : cursor < length)
    (ahead : ∃ j < fuel, free ((cursor + j) % length) = true) :
    free (advanceCursor length free fuel cursor) = true := by
  induction fuel generalizing cursor with
  | zero => obtain ⟨j, below, _⟩ := ahead; omega
  | succ fuel ih =>
    simp only [advanceCursor]
    split
    · assumption
    · rename_i probe
      obtain ⟨j, below, freeAt⟩ := ahead
      cases j with
      | zero => simp [Nat.mod_eq_of_lt inRange, probe] at freeAt
      | succ j =>
        apply ih (Nat.mod_lt _ (by omega))
        refine ⟨j, by omega, ?_⟩
        rwa [Nat.mod_add_mod, Nat.add_assoc, Nat.add_comm 1 j]

theorem advanceCursor_free {cursor : ℕ} (inRange : cursor < length)
    (exists_free : ∃ position < length, free position = true) :
    free (advanceCursor length free length cursor) = true := by
  obtain ⟨position, positionInRange, freeAt⟩ := exists_free
  obtain ⟨j, counted, wraps⟩ := exists_wrapped_counter cursor positionInRange
  exact advanceCursor_free_of_ahead inRange ⟨j, counted, wraps ▸ freeAt⟩
end

end Kubernetes.Library
