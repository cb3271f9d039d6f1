import Mathlib.Data.List.AList
import Mathlib.Algebra.BigOperators.Group.List.Basic

/-! Lookups through loops of insertions into an `AList`.

A loop that puts one entry after another into a map leaves under each key what the last entry of
that key put there. A loop that adds amounts up under their keys leaves under each key the sum of
its amounts over what the key held before, and holds the keys it held and those it was given.
-/

set_option autoImplicit false

namespace Kubernetes.Library

variable {α β γ : Type*} [DecidableEq α]

theorem lookup_foldl_insert (f : γ → α) (g : γ → β) (a : α) :
    ∀ (l : List γ) (m : AList fun _ : α => β),
      (l.foldl (fun m x => m.insert (f x) (g x)) m).lookup a =
        ((l.reverse.find? fun x => f x = a).map g).or (m.lookup a)
  | [], m => by simp
  | x :: l, m => by
    rw [List.foldl_cons, lookup_foldl_insert f g a l, List.reverse_cons, List.find?_append]
    by_cases same : f x = a
    · subst same
      cases (l.reverse.find? fun y => f y = f x) <;> simp [AList.lookup_insert]
    · cases (l.reverse.find? fun y => f y = a) <;> simp [AList.lookup_insert_ne (Ne.symm same), same]

theorem lookup_foldl_insert_of_mem {f : γ → α} (g : γ → β) {l : List γ} (distinct : (l.map f).Nodup) {x : γ}
    (listed : x ∈ l) (m : AList fun _ : α => β) :
    (l.foldl (fun m x => m.insert (f x) (g x)) m).lookup (f x) = some (g x) := by
  have found : l.reverse.find? (fun y => f y = f x) = some x := by
    cases first : l.reverse.find? (fun y => f y = f x) with
    | none =>
      rw [List.find?_eq_none] at first
      exact absurd (by simp) (first x (List.mem_reverse.mpr listed))
    | some y =>
      have same : f y = f x := by simpa using List.find?_some first
      rw [List.inj_on_of_nodup_map distinct (List.mem_reverse.mp (List.mem_of_find?_eq_some first)) listed same]
  rw [lookup_foldl_insert, found]
  rfl

theorem entries_foldl_insert (f : γ → α) (g : γ → β) :
    ∀ (l : List γ) (m : AList fun _ : α => β), (l.map f).Nodup → (∀ x ∈ l, f x ∉ m) →
      (l.foldl (fun m x => m.insert (f x) (g x)) m).entries =
        (l.map fun x => (⟨f x, g x⟩ : Σ _ : α, β)).reverse ++ m.entries
  | [], m, _, _ => by simp
  | x :: l, m, distinct, fresh => by
    rw [List.map_cons, List.nodup_cons] at distinct
    -- the keys still to come are neither the one inserted nor held before
    have fresh' : ∀ y ∈ l, f y ∉ m.insert (f x) (g x) := by
      intro y member
      rw [AList.mem_insert]
      rintro (same | held)
      · exact distinct.1 (same ▸ List.mem_map_of_mem member)
      · exact fresh y (List.mem_cons_of_mem _ member) held
    rw [List.foldl_cons, entries_foldl_insert f g l _ distinct.2 fresh',
      AList.entries_insert_of_notMem (fresh x List.mem_cons_self)]
    simp

theorem lookup_foldl_insert_of_notMem (f : γ → α) (g : γ → β) {l : List γ} {a : α} (absent : ∀ x ∈ l, f x ≠ a)
    (m : AList fun _ : α => β) :
    (l.foldl (fun m x => m.insert (f x) (g x)) m).lookup a = m.lookup a := by
  rw [lookup_foldl_insert, List.find?_eq_none.mpr fun x listed => by simpa using absent x (List.mem_reverse.mp listed)]
  rfl

theorem lookup_foldl_add [AddCommMonoid β] (f : γ → α) (g : γ → β) (a : α) :
    ∀ (l : List γ) (m : AList fun _ : α => β),
      (l.foldl (fun m x => m.insert (f x) ((m.lookup (f x)).getD 0 + g x)) m).lookup a =
        if ∃ x ∈ l, f x = a then some ((m.lookup a).getD 0 + ((l.filter fun x => f x = a).map g).sum)
        else m.lookup a
  | [], m => by simp
  | x :: l, m => by
    rw [List.foldl_cons, lookup_foldl_add f g a l]
    by_cases same : f x = a
    · subst same
      rw [if_pos (show ∃ y ∈ x :: l, f y = f x from ⟨x, List.mem_cons_self, rfl⟩)]
      by_cases listed : ∃ y ∈ l, f y = f x
      · rw [if_pos listed]
        simp [AList.lookup_insert, add_assoc]
      · have unlisted : l.filter (fun y => f y = f x) = [] :=
          List.filter_eq_nil_iff.mpr fun y member same => listed ⟨y, member, of_decide_eq_true same⟩
        rw [if_neg listed]
        simp [AList.lookup_insert, unlisted]
    · simp [AList.lookup_insert_ne (Ne.symm same), same]

theorem sum_filter_key [AddCommMonoid β] (a : α) :
    ∀ l : List (Σ _ : α, β), l.NodupKeys → ((l.filter fun e => e.1 = a).map Sigma.snd).sum = (l.dlookup a).getD 0
  | [], _ => rfl
  | ⟨b, x⟩ :: l, nodup => by
    rw [List.nodupKeys_cons] at nodup
    by_cases same : b = a
    · subst same
      have unlisted : l.filter (fun e => e.1 = b) = [] :=
        List.filter_eq_nil_iff.mpr fun e member same => nodup.1 (of_decide_eq_true same ▸ List.mem_keys.mpr ⟨e.2, member⟩)
      simp [unlisted]
    · rw [List.dlookup_cons_ne l ⟨b, x⟩ (Ne.symm same), ← sum_filter_key a l nodup.2]
      simp [same]

end Kubernetes.Library
