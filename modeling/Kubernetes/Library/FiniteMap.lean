import Mathlib.Data.Finmap

/-! Lookups through the bulk operations of finite maps.

A map whose keys are visited in an unspecified order is a `Finmap`; what a loop over its
entries leaves behind is read back one key at a time. Mathlib gives the lookups through
`insert`, `erase` and `∪`; here are those through `\` (erasing the keys of another map), through
a list of insertions, and `∪` as an `Option.or`.
-/

set_option autoImplicit false

namespace Kubernetes.Library

variable {α : Type*} [DecidableEq α]

section Dependent

variable {β : α → Type*}

theorem lookup_foldl_erase (a : α) :
    ∀ (entries : List (Sigma β)) (s : Finmap β),
      (entries.foldl (fun s x => s.erase x.1) s).lookup a = if a ∈ entries.keys then none else s.lookup a
  | [], s => by simp
  | x :: entries, s => by
    rw [List.foldl_cons, lookup_foldl_erase a entries, List.keys_cons]
    by_cases same : a = x.1
    · subst same
      simp [Finmap.lookup_erase]
    · simp [same, Finmap.lookup_erase_ne same]

theorem lookup_sdiff (a : α) (s s' : Finmap β) :
    (s \ s').lookup a = if a ∈ s' then none else s.lookup a := by
  induction s' using Finmap.induction_on with
  | H l =>
    show (Finmap.foldl _ _ s (AList.toFinmap l)).lookup a = _
    rw [Finmap.foldl, AList.toFinmap_entries, Multiset.coe_foldl, lookup_foldl_erase]
    exact if_congr Finmap.mem_toFinmap.symm rfl rfl

theorem mem_sdiff {a : α} {s s' : Finmap β} : a ∈ s \ s' ↔ a ∈ s ∧ a ∉ s' := by
  rw [← Finmap.lookup_isSome, ← Finmap.lookup_isSome, lookup_sdiff]
  by_cases mem : a ∈ s'
  · simp [mem]
  · simp [mem]

theorem lookup_union_eq_or (a : α) (s₁ s₂ : Finmap β) :
    (s₁ ∪ s₂).lookup a = (s₁.lookup a).or (s₂.lookup a) := by
  by_cases mem : a ∈ s₁
  · obtain ⟨b, found⟩ := Finmap.mem_iff.mp mem
    rw [Finmap.lookup_union_left mem, found, Option.some_or]
  · rw [Finmap.lookup_union_right mem, Finmap.lookup_eq_none.mpr mem, Option.none_or]

end Dependent

theorem mem_foldl_insert {γ δ : Type*} (key : δ → α) (value : δ → γ) (a : α) :
    ∀ (l : List δ) (m : Finmap fun _ : α => γ),
      a ∈ l.foldl (fun m x => m.insert (key x) (value x)) m ↔ a ∈ m ∨ ∃ x ∈ l, key x = a
  | [], m => by simp
  | x :: l, m => by
    rw [List.foldl_cons, mem_foldl_insert key value a l, Finmap.mem_insert]
    simp only [List.mem_cons, exists_eq_or_imp]
    constructor
    · rintro ((same | inside) | inserted)
      · exact Or.inr (Or.inl same.symm)
      · exact Or.inl inside
      · exact Or.inr (Or.inr inserted)
    · rintro (inside | same | inserted)
      · exact Or.inl (Or.inr inside)
      · exact Or.inl (Or.inl same.symm)
      · exact Or.inr inserted

end Kubernetes.Library
