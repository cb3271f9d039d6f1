import Mathlib.Data.Finset.Card
import Mathlib.Data.Finset.Union

/-! Picking a given number of elements out of a pool, a group at a time.

An allocator that wants `wanted` elements of a pool keeps the set it has taken and the number
it still needs. It may take a group of untaken elements of the pool no larger than what it
still needs. As long as it never needs more than the pool still holds, what is taken and what
is needed add up to `wanted`, and once nothing is needed it holds exactly `wanted` elements of
the pool.

The loops of such an allocator visit lists that enumerate a set: every element once. Listing
the groups of an enumeration one after another enumerates their union when the groups are
apart.
-/

set_option autoImplicit false

namespace Kubernetes.Library

variable {α : Type*}

section Picking

variable [DecidableEq α]

/-- `taken` and `needed` are a state of picking `wanted` elements out of `pool`. -/
structure Picking (pool : Finset α) (wanted : ℤ) (taken : Finset α) (needed : ℤ) : Prop where
  subset : taken ⊆ pool
  counted : needed + taken.card = wanted
  nonneg : 0 ≤ needed
  enough : needed ≤ (pool \ taken).card

namespace Picking

variable {pool : Finset α} {wanted : ℤ} {taken : Finset α} {needed : ℤ}

theorem start (nonneg : 0 ≤ wanted) (enough : wanted ≤ pool.card) : Picking pool wanted ∅ wanted where
  subset := Finset.empty_subset pool
  counted := by simp
  nonneg := nonneg
  enough := by simpa using enough

theorem take (picking : Picking pool wanted taken needed) {group : Finset α} (fresh : group ⊆ pool \ taken)
    (fits : (group.card : ℤ) ≤ needed) : Picking pool wanted (taken ∪ group) (needed - group.card) := by
  have apart : Disjoint taken group := (Finset.subset_sdiff.mp fresh).2.symm
  have grown : (taken ∪ group).card = taken.card + group.card := Finset.card_union_of_disjoint apart
  -- what is left of the pool loses exactly the group
  have left : pool \ (taken ∪ group) = (pool \ taken) \ group := sdiff_sdiff_left.symm
  have shrunk : (pool \ (taken ∪ group)).card + group.card = (pool \ taken).card := by
    rw [left, Finset.card_sdiff_add_card_eq_card fresh]
  refine ⟨Finset.union_subset picking.subset fun a member => (Finset.mem_sdiff.mp (fresh member)).1, ?_, ?_, ?_⟩
  · have := picking.counted
    push_cast [grown]
    omega
  · omega
  · have := picking.enough
    omega

theorem card_eq (picking : Picking pool wanted taken needed) (satisfied : needed < 1) :
    (taken.card : ℤ) = wanted := by
  have := picking.counted
  have := picking.nonneg
  omega

end Picking

end Picking

/-! ## Lists that enumerate a set -/

/-- `l` lists every element of `s`, each once. -/
def Enumerates (l : List α) (s : Finset α) : Prop := l.Nodup ∧ ∀ a, a ∈ l ↔ a ∈ s

namespace Enumerates

variable {l : List α} {s : Finset α}

theorem perm (listed : Enumerates l s) {l' : List α} (perm : l.Perm l') : Enumerates l' s :=
  ⟨perm.nodup_iff.mp listed.1, fun a => perm.mem_iff.symm.trans (listed.2 a)⟩

theorem flatMap [DecidableEq α] {β : Type*} [DecidableEq β] {t : Finset β} {outer : List β} (listed : Enumerates outer t)
    {f : β → List α} {g : β → Finset α} (inner : ∀ b ∈ t, Enumerates (f b) (g b))
    (apart : ∀ b ∈ t, ∀ c ∈ t, b ≠ c → Disjoint (g b) (g c)) : Enumerates (outer.flatMap f) (t.biUnion g) := by
  refine ⟨List.nodup_flatMap.mpr ⟨fun b member => (inner b ((listed.2 b).mp member)).1, ?_⟩, fun a => ?_⟩
  · refine listed.1.pairwise_of_forall_ne fun b inB c inC different a inF inG => ?_
    have inT := (listed.2 b).mp inB
    have inT' := (listed.2 c).mp inC
    exact Finset.disjoint_left.mp (apart b inT c inT' different) (((inner b inT).2 a).mp inF)
      (((inner c inT').2 a).mp inG)
  · simp only [List.mem_flatMap, Finset.mem_biUnion]
    constructor
    · rintro ⟨b, member, inF⟩
      have inT := (listed.2 b).mp member
      exact ⟨b, inT, ((inner b inT).2 a).mp inF⟩
    · rintro ⟨b, inT, inG⟩
      exact ⟨b, (listed.2 b).mpr inT, ((inner b inT).2 a).mpr inG⟩

theorem eq_empty (listed : Enumerates [] s) : s = ∅ :=
  Finset.eq_empty_of_forall_notMem fun a member => List.not_mem_nil ((listed.2 a).mpr member)

theorem cons [DecidableEq α] {a : α} (listed : Enumerates (a :: l) s) : a ∈ s ∧ Enumerates l (s \ {a}) := by
  obtain ⟨notMem, nodup⟩ := List.nodup_cons.mp listed.1
  refine ⟨(listed.2 a).mp List.mem_cons_self, nodup, fun b => ?_⟩
  rw [Finset.mem_sdiff, Finset.mem_singleton, ← listed.2 b, List.mem_cons]
  constructor
  · intro member
    exact ⟨.inr member, fun same => notMem (same ▸ member)⟩
  · rintro ⟨head | member, different⟩
    · exact absurd head different
    · exact member

end Enumerates

end Kubernetes.Library
