import Mathlib.Data.List.MinMax
import Mathlib.Data.List.Perm.Basic

/-! Taking one element of each list, and keeping the best of several candidates.

`choices` lists every way to take one element of each list, in the order of nested loops with
the first list outermost. `List.argmin` keeps the first candidate of least key; when the key
tells the candidates apart, the one it keeps depends only on which candidates there are, not on
their order or their repetitions.
-/

set_option autoImplicit false

namespace Kubernetes.Library

variable {α β : Type*}

/-- Every way to take one element of each list, the loop over the first list outermost. -/
def choices : List (List α) → List (List α)
  | [] => [[]]
  | l :: ls => l.flatMap fun a => (choices ls).map (a :: ·)

theorem mem_choices {ls : List (List α)} {p : List α} : p ∈ choices ls ↔ List.Forall₂ (· ∈ ·) p ls := by
  induction ls generalizing p with
  | nil => simp [choices]
  | cons l ls ih =>
    cases p with
    | nil => simp [choices]
    | cons a p =>
      simp only [choices, List.mem_flatMap, List.mem_map, List.cons.injEq, List.forall₂_cons, ih]
      constructor
      · rintro ⟨b, member, q, chosen, rfl, rfl⟩
        exact ⟨member, chosen⟩
      · rintro ⟨member, chosen⟩
        exact ⟨a, member, p, chosen, rfl, rfl⟩

/-- `ls'` holds the lists of `ls` in another order, each with its elements in another order. -/
def Reordering (ls ls' : List (List α)) : Prop :=
  ∃ mid, ls.Perm mid ∧ List.Forall₂ List.Perm mid ls'

namespace Reordering

variable {ls ls' : List (List α)}

theorem refl (ls : List (List α)) : Reordering ls ls :=
  ⟨ls, List.Perm.refl ls, List.forall₂_same.mpr fun l _ => List.Perm.refl l⟩

theorem symm (reordered : Reordering ls ls') : Reordering ls' ls := by
  obtain ⟨mid, outer, inner⟩ := reordered
  -- reorder the elements first, then the lists
  have flipped : List.Forall₂ List.Perm ls' mid := (inner.imp fun _ _ perm => perm.symm).flip
  have composed : Relation.Comp (List.Forall₂ List.Perm) List.Perm ls' ls := ⟨mid, flipped, outer.symm⟩
  rw [List.forall₂_comp_perm_eq_perm_comp_forall₂] at composed
  exact composed

theorem exists_choice (reordered : Reordering ls ls') {p : List α} (chosen : List.Forall₂ (· ∈ ·) p ls) :
    ∃ p', p.Perm p' ∧ List.Forall₂ (· ∈ ·) p' ls' := by
  obtain ⟨mid, outer, inner⟩ := reordered
  have composed : Relation.Comp (List.Forall₂ (· ∈ ·)) List.Perm p mid := ⟨ls, chosen, outer⟩
  rw [List.forall₂_comp_perm_eq_perm_comp_forall₂] at composed
  obtain ⟨p', perm, chosen'⟩ := composed
  -- reordering inside each list keeps every element where it can be chosen
  refine ⟨p', perm, ?_⟩
  clear chosen outer perm
  induction inner generalizing p' with
  | nil => exact chosen'
  | cons listPerm _ ih =>
    cases chosen' with
    | cons member rest => exact .cons (listPerm.subset member) (ih _ rest)

end Reordering

theorem exists_of_mem_choice {R : α → β → Prop} {p : List α} {ls : List β} (related : List.Forall₂ R p ls)
    {a : α} (member : a ∈ p) : ∃ l ∈ ls, R a l := by
  induction related with
  | nil => cases member
  | cons holds _ ih =>
    rcases List.mem_cons.mp member with rfl | later
    · exact ⟨_, List.mem_cons_self, holds⟩
    · obtain ⟨l, inside, holds'⟩ := ih later
      exact ⟨l, List.mem_cons_of_mem _ inside, holds'⟩

theorem exists_choice_of_mem {R : α → β → Prop} {p : List α} {ls : List β} (related : List.Forall₂ R p ls)
    {l : β} (member : l ∈ ls) : ∃ a ∈ p, R a l := by
  have flipped : List.Forall₂ (flip R) ls p := List.Forall₂.flip related
  exact exists_of_mem_choice flipped member

theorem exists_forall₂_of_forall_exists {P : α → Prop} {ls : List (List α)} (each : ∀ l ∈ ls, ∃ a ∈ l, P a) :
    ∃ p, List.Forall₂ (fun a l => a ∈ l ∧ P a) p ls := by
  induction ls with
  | nil => exact ⟨[], .nil⟩
  | cons l ls ih =>
    obtain ⟨a, member, holds⟩ := each l List.mem_cons_self
    obtain ⟨p, chosen⟩ := ih fun l' member' => each l' (List.mem_cons_of_mem l member')
    exact ⟨a :: p, .cons ⟨member, holds⟩ chosen⟩

section Argmin

variable [LinearOrder β] (f : α → β)

theorem map_argmin_eq_of_mem_iff {l l' : List α} (same : ∀ a, a ∈ l ↔ a ∈ l') :
    (l.argmin f).map f = (l'.argmin f).map f := by
  rcases first : l.argmin f with _ | m
  · rw [List.argmin_eq_none] at first
    subst first
    have empty : l' = [] := List.eq_nil_iff_forall_not_mem.mpr fun a member => by simpa using (same a).mpr member
    rw [empty, List.argmin_nil]
  · have member : m ∈ l := List.argmin_mem first
    obtain ⟨m', second⟩ : ∃ m', l'.argmin f = some m' := by
      refine Option.ne_none_iff_exists'.mp fun none => ?_
      rw [List.argmin_eq_none] at none
      simpa [none] using (same m).mp member
    have below : f m ≤ f m' := List.le_of_mem_argmin ((same m').mpr (List.argmin_mem second)) first
    have above : f m' ≤ f m := List.le_of_mem_argmin ((same m).mp member) second
    rw [second, Option.map_some, Option.map_some, le_antisymm below above]

theorem argmin_eq_of_mem_iff {l l' : List α} (same : ∀ a, a ∈ l ↔ a ∈ l')
    (separates : ∀ a ∈ l, ∀ b ∈ l, f a = f b → a = b) : l.argmin f = l'.argmin f := by
  have sameKey := map_argmin_eq_of_mem_iff f same
  rcases first : l.argmin f with _ | m <;> rcases second : l'.argmin f with _ | m' <;>
    simp only [first, second, Option.map_none, Option.map_some, reduceCtorEq, Option.some.injEq] at sameKey
  · rfl
  · have member' : m' ∈ l := (same m').mpr (List.argmin_mem second)
    rw [separates m (List.argmin_mem first) m' member' sameKey]

end Argmin

end Kubernetes.Library
