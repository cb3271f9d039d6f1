import Mathlib.Data.Finset.Max

/-! The least of a family of counts, tracked in two slots.

A tracker keeps two slots, each a value and a count, the first with the least count recorded.
Recording a count for a value overwrites the value's slot if it has one, then puts the two in
order; a value without a slot takes one if its count is below that slot's. The second slot is
not always the second least count, so what the tracker knows depends on how it is fed: the first
slot holds the least count when each value is recorded once, in any order, and stays so while
the counts then change at one value only. Slots start at a count `top` above every count, which
then also marks a slot that holds no value's count.
-/

set_option autoImplicit false

namespace Kubernetes.Library

variable {α ν : Type*}

structure Slot (α ν : Type*) where
  value : α
  num : ν
  deriving DecidableEq

structure Slots (α ν : Type*) where
  first : Slot α ν
  second : Slot α ν
  deriving DecidableEq

namespace Slots

/-- A slot holds its value's count, or `top`. -/
def Holds (c : α → Option ν) (top : ν) (s : Slot α ν) : Prop := c s.value = some s.num ∨ s.num = top

section Update

variable [DecidableEq α] {c : α → Option ν} {top : ν} {d : α} {n : ν}

theorem update_eq_some {a : α} {k : ν} :
    Function.update c d (some n) a = some k ↔ a = d ∧ n = k ∨ a ≠ d ∧ c a = some k := by
  by_cases same : a = d
  · subst same
    simp
  · simp [same]

theorem holds_update_self : Holds (Function.update c d (some n)) top ⟨d, n⟩ :=
  .inl (Function.update_self d (some n) c)

theorem holds_update_of_ne {s : Slot α ν} (apart : s.value ≠ d) (holds : Holds c top s) :
    Holds (Function.update c d (some n)) top s := by
  rwa [Holds, Function.update_of_ne apart]

/-- The counts once the values listed have theirs. -/
def visit (c : α → Option ν) (entries : List (α × ν)) : α → Option ν :=
  entries.foldl (fun c entry => Function.update c entry.1 (some entry.2)) c

@[simp] theorem visit_cons (c : α → Option ν) (entry : α × ν) (entries : List (α × ν)) :
    visit c (entry :: entries) = visit (Function.update c entry.1 (some entry.2)) entries := rfl

theorem visit_eq_some : ∀ {entries : List (α × ν)} (c : α → Option ν), (entries.map Prod.fst).Nodup →
    ∀ {a : α} {k : ν}, visit c entries a = some k ↔ (a, k) ∈ entries ∨ a ∉ entries.map Prod.fst ∧ c a = some k
  | [], c, _, a, k => by simp [visit]
  | entry :: entries, c, nodup, a, k => by
    rw [List.map_cons, List.nodup_cons] at nodup
    rw [visit_cons, visit_eq_some _ nodup.2, update_eq_some]
    by_cases same : a = entry.1
    · subst same
      have listed : ∀ k', (entry.1, k') ∉ entries := fun k' member =>
        nodup.1 (List.mem_map.mpr ⟨_, member, rfl⟩)
      simp [listed, Prod.ext_iff, eq_comm]
    · simp [same, Prod.ext_iff]

end Update

variable [LinearOrder ν]

section Invariant

variable (c : α → Option ν) (top : ν)

/-- Every count is below `top`. -/
def Below : Prop := ∀ a n, c a = some n → n < top

/-- The first slot has the least count, which is its value's unless there is no count. -/
structure Least (p : Slots α ν) : Prop where
  ordered : p.first.num ≤ p.second.num
  holdsFirst : Holds c top p.first
  holdsSecond : Holds c top p.second
  le : ∀ a n, c a = some n → p.first.num ≤ n
  shared : p.first.value = p.second.value → p.second.num = top

/-- Where the first slot is `d`'s, no count but `d`'s is below the second slot's. -/
def SecondFor (d : α) (p : Slots α ν) : Prop :=
  p.first.value = d → ∀ a n, c a = some n → a ≠ d → p.second.num ≤ n

end Invariant

variable {c : α → Option ν} {top : ν} {p : Slots α ν} {d : α} {n : ν}

theorem SecondFor.of_second (second : SecondFor c p.first.value p) : SecondFor c d p := by
  intro first
  subst first
  exact second rfl

theorem least_start (a₀ : α) : Least (fun _ => none) top (⟨⟨a₀, top⟩, ⟨a₀, top⟩⟩ : Slots α ν) where
  ordered := le_rfl
  holdsFirst := .inr rfl
  holdsSecond := .inr rfl
  le _ _ found := by cases found
  shared _ := rfl

theorem Least.first_found (least : Least c top p) (bounded : Below c top) {a : α} {k : ν} (found : c a = some k) :
    c p.first.value = some p.first.num :=
  least.holdsFirst.resolve_right fun atTop => absurd (bounded a k found) (not_lt.mpr (atTop ▸ least.le a k found))

theorem Least.first_top (least : Least c top p) (uncounted : ∀ a, c a = none) : p.first.num = top :=
  least.holdsFirst.resolve_left fun found => by rw [uncounted] at found; cases found

variable [DecidableEq α]

/-- Record count `n` for value `v`. -/
def record (p : Slots α ν) (v : α) (n : ν) : Slots α ν :=
  if v = p.first.value then
    if p.second.num < n then ⟨p.second, ⟨v, n⟩⟩ else ⟨⟨v, n⟩, p.second⟩
  else if v = p.second.value then
    if n < p.first.num then ⟨⟨v, n⟩, p.first⟩ else ⟨p.first, ⟨v, n⟩⟩
  else if n < p.first.num then ⟨⟨v, n⟩, p.first⟩
  else if n < p.second.num then ⟨p.first, ⟨v, n⟩⟩
  else p

/-- Record each value's count, in the order listed. -/
def recordAll (p : Slots α ν) (entries : List (α × ν)) : Slots α ν :=
  entries.foldl (fun p entry => p.record entry.1 entry.2) p

theorem le_update {m : ν} (atD : m ≤ n) (others : ∀ a k, c a = some k → a ≠ d → m ≤ k) :
    ∀ a k, Function.update c d (some n) a = some k → m ≤ k := by
  intro a k found
  rcases update_eq_some.mp found with ⟨-, rfl⟩ | ⟨apart, found⟩
  · exact atD
  · exact others a k found apart

theorem least_lead {s : Slot α ν} (holds : Holds (Function.update c d (some n)) top s) (ordered : n ≤ s.num)
    (others : ∀ a k, c a = some k → a ≠ d → n ≤ k) (shared : d = s.value → s.num = top) :
    Least (Function.update c d (some n)) top ⟨⟨d, n⟩, s⟩ where
  ordered := ordered
  holdsFirst := holds_update_self
  holdsSecond := holds
  le := le_update le_rfl others
  shared := shared

theorem least_follow {s : Slot α ν} (apart : s.value ≠ d) (holds : Holds c top s) (ordered : s.num ≤ n)
    (others : ∀ a k, c a = some k → a ≠ d → s.num ≤ k) :
    Least (Function.update c d (some n)) top ⟨s, ⟨d, n⟩⟩ where
  ordered := ordered
  holdsFirst := holds_update_of_ne apart holds
  holdsSecond := holds_update_self
  le := le_update ordered others
  shared := fun same => absurd same apart

theorem Least.record (least : Least c top p) (second : SecondFor c d p) (below : n < top) :
    Least (Function.update c d (some n)) top (p.record d n) ∧
      SecondFor (Function.update c d (some n)) d (p.record d n) := by
  have others : ∀ a k, Function.update c d (some n) a = some k → a ≠ d → c a = some k :=
    fun a k found apart => by rwa [Function.update_of_ne apart] at found
  by_cases atFirst : d = p.first.value
  · -- the first slot is `d`'s: it takes the new count, and the slots swap where it passes the second
    have secondTop : p.second.value = d → p.second.num = top := fun same => least.shared (atFirst ▸ same.symm)
    have bound := second atFirst.symm
    by_cases up : p.second.num < n
    · have moved : p.second.value ≠ d := fun same => absurd (secondTop same ▸ up) (not_lt.mpr below.le)
      rw [Slots.record, if_pos atFirst, if_pos up]
      exact ⟨least_follow moved least.holdsSecond up.le bound, fun same => absurd same moved⟩
    · have holds : Holds (Function.update c d (some n)) top p.second := by
        by_cases same : p.second.value = d
        · exact .inr (secondTop same)
        · exact holds_update_of_ne same least.holdsSecond
      rw [Slots.record, if_pos atFirst, if_neg up]
      exact ⟨least_lead holds (not_lt.mp up) (fun a k found apart => (not_lt.mp up).trans (bound a k found apart))
          fun same => secondTop same.symm,
        fun _ a k found apart => bound a k (others a k found apart) apart⟩
  · have firstApart : p.first.value ≠ d := fun same => atFirst same.symm
    have lead : n < p.first.num → Least (Function.update c d (some n)) top ⟨⟨d, n⟩, p.first⟩ ∧
        SecondFor (Function.update c d (some n)) d ⟨⟨d, n⟩, p.first⟩ := fun low =>
      ⟨least_lead (holds_update_of_ne firstApart least.holdsFirst) low.le
          (fun a k found _ => low.le.trans (least.le a k found)) fun same => absurd same.symm firstApart,
        fun _ a k found apart => least.le a k (others a k found apart)⟩
    have follow : p.first.num ≤ n → Least (Function.update c d (some n)) top ⟨p.first, ⟨d, n⟩⟩ ∧
        SecondFor (Function.update c d (some n)) d ⟨p.first, ⟨d, n⟩⟩ := fun high =>
      ⟨least_follow firstApart least.holdsFirst high fun a k found _ => least.le a k found,
        fun same => absurd same firstApart⟩
    by_cases atSecond : d = p.second.value
    · by_cases low : n < p.first.num
      · rw [Slots.record, if_neg atFirst, if_pos atSecond, if_pos low]
        exact lead low
      · rw [Slots.record, if_neg atFirst, if_pos atSecond, if_neg low]
        exact follow (not_lt.mp low)
    · -- `d` has no slot: it takes the one its count is below, if any
      by_cases low : n < p.first.num
      · rw [Slots.record, if_neg atFirst, if_neg atSecond, if_pos low]
        exact lead low
      by_cases mid : n < p.second.num
      · rw [Slots.record, if_neg atFirst, if_neg atSecond, if_neg low, if_pos mid]
        exact follow (not_lt.mp low)
      · rw [Slots.record, if_neg atFirst, if_neg atSecond, if_neg low, if_neg mid]
        exact ⟨⟨least.ordered, holds_update_of_ne firstApart least.holdsFirst,
            holds_update_of_ne (fun same => atSecond same.symm) least.holdsSecond,
            le_update (least.ordered.trans (not_lt.mp mid)) fun a k found _ => least.le a k found, least.shared⟩,
          fun same => absurd same firstApart⟩

theorem Least.record_fresh (least : Least c top p) (second : SecondFor c p.first.value p) (bounded : Below c top)
    (fresh : c d = none) (below : n < top) :
    Least (Function.update c d (some n)) top (p.record d n) ∧
      SecondFor (Function.update c d (some n)) (p.record d n).first.value (p.record d n) := by
  obtain ⟨kept, secondD⟩ := least.record (d := d) second.of_second below
  refine ⟨kept, ?_⟩
  -- a slot of `d`'s held no count, so it held `top`
  have untracked {s : Slot α ν} (holds : Holds c top s) (same : d = s.value) : s.num = top :=
    holds.resolve_left fun found => by rw [← same, fresh] at found; cases found
  have follow (stays : p.first.num ≤ n) (apart : p.first.value ≠ d)
      (bound : ∀ a k, c a = some k → a ≠ d → a ≠ p.first.value → n ≤ k) :
      SecondFor (Function.update c d (some n)) p.first.value ⟨p.first, ⟨d, n⟩⟩ := by
    intro _ a k found other
    rcases update_eq_some.mp found with ⟨-, rfl⟩ | ⟨apart', found⟩
    · exact le_rfl
    · exact bound a k found apart' other
  by_cases atFirst : d = p.first.value
  · have up : ¬p.second.num < n := fun up =>
      absurd (lt_of_le_of_lt (untracked least.holdsFirst atFirst ▸ least.ordered) (up.trans below)) (lt_irrefl _)
    rw [Slots.record, if_pos atFirst, if_neg up] at secondD ⊢
    exact secondD
  have firstApart : p.first.value ≠ d := fun same => atFirst same.symm
  by_cases atSecond : d = p.second.value
  · by_cases low : n < p.first.num
    · rw [Slots.record, if_neg atFirst, if_pos atSecond, if_pos low] at secondD ⊢
      exact secondD
    · rw [Slots.record, if_neg atFirst, if_pos atSecond, if_neg low]
      -- the second slot held `top`, so no count but `d`'s is past the first slot's value
      refine follow (not_lt.mp low) firstApart fun a k found apart other => absurd (bounded a k found) ?_
      exact not_lt.mpr (untracked least.holdsSecond atSecond ▸ second rfl a k found other)
  by_cases low : n < p.first.num
  · rw [Slots.record, if_neg atFirst, if_neg atSecond, if_pos low] at secondD ⊢
    exact secondD
  by_cases mid : n < p.second.num
  · rw [Slots.record, if_neg atFirst, if_neg atSecond, if_neg low, if_pos mid]
    exact follow (not_lt.mp low) firstApart fun a k found _ other => mid.le.trans (second rfl a k found other)
  · rw [Slots.record, if_neg atFirst, if_neg atSecond, if_neg low, if_neg mid]
    intro _ a k found other
    rcases update_eq_some.mp found with ⟨-, rfl⟩ | ⟨-, found⟩
    · exact not_lt.mp mid
    · exact second rfl a k found other

@[simp] theorem recordAll_cons (p : Slots α ν) (entry : α × ν) (entries : List (α × ν)) :
    p.recordAll (entry :: entries) = (p.record entry.1 entry.2).recordAll entries := rfl

theorem Least.recordAll : ∀ {entries : List (α × ν)} {c : α → Option ν} {p : Slots α ν},
    (entries.map Prod.fst).Nodup → (∀ entry ∈ entries, c entry.1 = none) → (∀ entry ∈ entries, entry.2 < top) →
    Below c top → Least c top p → SecondFor c p.first.value p →
    Least (visit c entries) top (p.recordAll entries) ∧
      SecondFor (visit c entries) (p.recordAll entries).first.value (p.recordAll entries)
  | [], _, _, _, _, _, _, least, second => ⟨least, second⟩
  | entry :: entries, c, p, nodup, fresh, below, bounded, least, second => by
    rw [List.map_cons, List.nodup_cons] at nodup
    have entryBelow := below entry List.mem_cons_self
    obtain ⟨least', second'⟩ := least.record_fresh second bounded (fresh entry List.mem_cons_self) entryBelow
    -- the values still to come have no count yet
    have fresh' : ∀ later ∈ entries, Function.update c entry.1 (some entry.2) later.1 = none := by
      intro later listed
      have apart : later.1 ≠ entry.1 := fun same => nodup.1 (same ▸ List.mem_map_of_mem listed)
      rw [Function.update_of_ne apart]
      exact fresh later (List.mem_cons_of_mem _ listed)
    have bounded' : Below (Function.update c entry.1 (some entry.2)) top := by
      intro a k found
      rcases update_eq_some.mp found with ⟨-, rfl⟩ | ⟨-, found⟩
      · exact entryBelow
      · exact bounded a k found
    rw [visit_cons, recordAll_cons]
    exact Least.recordAll nodup.2 fresh' (fun later listed => below later (List.mem_cons_of_mem _ listed))
      bounded' least' second'

theorem Least.min_image {D : Finset α} {f : α → ν} (least : Least (fun a => if a ∈ D then some (f a) else none) top p)
    (bounded : Below (fun a => if a ∈ D then some (f a) else none) top) (nonempty : D.Nonempty) :
    (D.image f).min = p.first.num := by
  obtain ⟨a, member⟩ := nonempty
  have found := least.first_found bounded (show (if a ∈ D then some (f a) else none) = some (f a) from if_pos member)
  have firstIn : p.first.value ∈ D := by
    by_contra outside
    rw [if_neg outside] at found
    cases found
  rw [if_pos firstIn, Option.some_inj] at found
  refine le_antisymm (found ▸ Finset.min_le (Finset.mem_image_of_mem f firstIn)) (Finset.le_min fun b image => ?_)
  obtain ⟨b, member, rfl⟩ := Finset.mem_image.mp image
  exact WithTop.coe_le_coe.mpr (least.le b (f b) (if_pos member))

end Slots

end Kubernetes.Library
