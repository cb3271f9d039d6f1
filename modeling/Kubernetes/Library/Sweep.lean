import Mathlib.Data.List.Count
import Mathlib.Logic.Function.Basic
import Mathlib.Tactic.Ring

/-! Sweeps: a loop over a list of keys that rewrites the value at each key it visits and
passes a carried value (what is left to place, to release, to count) on to the next key.

The results are the three facts such a loop is usually reasoned with: keys the list does not
name keep their value, a property of single values that every visit keeps holds of the whole
map afterwards, and a quantity every visit moves by a fixed step moves by that step times the
number of visits. -/

set_option autoImplicit false

namespace Kubernetes.Library

variable {ι α β : Type} [DecidableEq ι]

/-- Visit the keys of a list in order; a visit sees the key's current value and the carried
value, and returns the key's new value and the value carried on. -/
def sweep (visit : ι → α → β → α × β) : List ι → (ι → α) → β → (ι → α) × β
  | [], values, carry => (values, carry)
  | key :: rest, values, carry =>
    sweep visit rest (Function.update values key (visit key (values key) carry).1)
      (visit key (values key) carry).2

variable (visit : ι → α → β → α × β)

@[simp] theorem sweep_nil (values : ι → α) (carry : β) : sweep visit [] values carry = (values, carry) :=
  rfl

theorem sweep_cons (key : ι) (rest : List ι) (values : ι → α) (carry : β) :
    sweep visit (key :: rest) values carry =
      sweep visit rest (Function.update values key (visit key (values key) carry).1)
        (visit key (values key) carry).2 :=
  rfl

theorem sweep_of_not_mem {key : ι} :
    ∀ {keys : List ι} (values : ι → α) (carry : β), key ∉ keys → (sweep visit keys values carry).1 key = values key
  | [], _, _, _ => rfl
  | other :: rest, values, carry, absent => by
    have different : key ≠ other := fun same => absent (same ▸ List.mem_cons_self)
    rw [sweep_cons, sweep_of_not_mem _ _ (fun member => absent (List.mem_cons_of_mem _ member)),
      Function.update_of_ne different]

theorem sweep_preserves (holds : ι → α → Prop)
    (visited : ∀ key value carry, holds key value → holds key (visit key value carry).1) :
    ∀ (keys : List ι) (values : ι → α) (carry : β), (∀ key, holds key (values key)) →
      ∀ key, holds key ((sweep visit keys values carry).1 key)
  | [], _, _, before => before
  | first :: rest, values, carry, before => by
    rw [sweep_cons]
    apply sweep_preserves holds visited rest
    intro key
    by_cases same : key = first
    · subst same
      rw [Function.update_self]
      exact visited _ _ _ (before key)
    · rw [Function.update_of_ne same]
      exact before key

theorem sweep_measure (measure : α → ℤ) (step : ℤ)
    (visited : ∀ key value carry, measure (visit key value carry).1 = measure value + step) :
    ∀ (keys : List ι) (values : ι → α) (carry : β) (key : ι),
      measure ((sweep visit keys values carry).1 key) = measure (values key) + step * keys.count key
  | [], _, _, _ => by simp
  | first :: rest, values, carry, key => by
    rw [sweep_cons, sweep_measure measure step visited rest, List.count_cons]
    by_cases same : key = first
    · subst same
      simp only [Function.update_self, visited, beq_self_eq_true, if_true]
      push_cast
      ring
    · have other : first ≠ key := fun same' => same same'.symm
      simp only [Function.update_of_ne same, beq_iff_eq, other, if_false, Nat.add_zero]

end Kubernetes.Library
