import Mathlib

/-! Comparators made of rules checked in turn.

A Go `Less` written as a list of rules, each `if key(a) != key(b) { return key(a) < key(b) }`,
orders by the first key on which two values differ. Over keys with a linear order such a chain
is a strict weak order: a key leaves one and a strict weak order behind a key is again one.
-/

set_option autoImplicit false

namespace Kubernetes.Library

variable {α κ : Type}

/-- Order by `key`, and where the keys are equal by `rest`. -/
def thenBy [LinearOrder κ] (key : α → κ) (rest : α → α → Bool) (a b : α) : Bool :=
  if key a ≠ key b then decide (key a < key b) else rest a b

/-- The comparator that orders nothing, the end of a chain. -/
def noOrder (_ _ : α) : Bool := false

/-- A Bool comparator that is a strict weak order. -/
abbrev StrictWeak (lt : α → α → Bool) : Prop := IsStrictWeakOrder α fun a b => lt a b = true

theorem strictWeak_byKey [LinearOrder κ] (key : α → κ) : StrictWeak fun a b => decide (key a < key b) where
  irrefl a := by simp
  trans a b c := by
    simp only [decide_eq_true_eq]
    exact lt_trans
  incomp_trans a b c := by
    simp only [decide_eq_true_eq, not_lt]
    rintro ⟨ba, ab⟩ ⟨cb, bc⟩
    exact ⟨le_trans cb ba, le_trans ab bc⟩

theorem strictWeak_noOrder : StrictWeak (noOrder (α := α)) where
  irrefl _ := Bool.false_ne_true
  trans _ _ _ never := absurd never Bool.false_ne_true
  incomp_trans _ _ _ _ _ := ⟨Bool.false_ne_true, Bool.false_ne_true⟩

section
variable [LinearOrder κ] {key : α → κ} {rest : α → α → Bool} {a b c : α}

theorem thenBy_iff : thenBy key rest a b = true ↔ key a < key b ∨ key a = key b ∧ rest a b = true := by
  unfold thenBy
  by_cases same : key a = key b
  · simp [same]
  · simp only [ne_eq, same, not_false_eq_true, if_true, decide_eq_true_eq, false_and, or_false]

theorem thenBy_incomparable_iff :
    (¬thenBy key rest a b = true ∧ ¬thenBy key rest b a = true) ↔
      key a = key b ∧ ¬rest a b = true ∧ ¬rest b a = true := by
  simp only [thenBy_iff, not_or, not_and, not_lt]
  constructor
  · rintro ⟨⟨ba, ab_rest⟩, ab, ba_rest⟩
    have same := le_antisymm ab ba
    exact ⟨same, ab_rest same, ba_rest same.symm⟩
  · rintro ⟨same, ab, ba⟩
    exact ⟨⟨le_of_eq same.symm, fun _ => ab⟩, le_of_eq same, fun _ => ba⟩

theorem ite_eq_thenBy {c : Prop} [Decidable c] {r other : Bool} (cond : c ↔ key a ≠ key b)
    (result : c → r = decide (key a < key b)) (next : ¬c → other = rest a b) :
    (if c then r else other) = thenBy key rest a b := by
  unfold thenBy
  by_cases holds : c
  · rw [if_pos holds, if_pos (cond.mp holds)]
    exact result holds
  · rw [if_neg holds, if_neg fun differ => holds (cond.mpr differ)]
    exact next holds

variable (key) in
theorem StrictWeak.thenBy (order : StrictWeak rest) : StrictWeak (thenBy key rest) where
  irrefl a := by
    rw [thenBy_iff]
    rintro (lt | ⟨-, self⟩)
    · exact lt_irrefl _ lt
    · exact order.irrefl a self
  trans a b c := by
    simp only [thenBy_iff]
    rintro (ab | ⟨ab, ab_rest⟩) (bc | ⟨bc, bc_rest⟩)
    · exact .inl (lt_trans ab bc)
    · exact .inl (bc ▸ ab)
    · exact .inl (ab ▸ bc)
    · exact .inr ⟨ab.trans bc, order.trans a b c ab_rest bc_rest⟩
  incomp_trans a b c := by
    simp only [thenBy_incomparable_iff]
    rintro ⟨ab, ab_rest⟩ ⟨bc, bc_rest⟩
    exact ⟨ab.trans bc, order.incomp_trans a b c ab_rest bc_rest⟩

end

section
variable {lt : α → α → Bool}

theorem StrictWeak.not_lt_trans (order : StrictWeak lt) {a b c : α} (ba : lt b a = false)
    (cb : lt c b = false) : lt c a = false := by
  rw [Bool.eq_false_iff]
  intro ca
  by_cases bc : lt b c = true
  · exact Bool.false_ne_true (ba ▸ order.trans b c a bc ca)
  by_cases ab : lt a b = true
  · exact Bool.false_ne_true (cb ▸ order.trans c a b ca ab)
  -- `b` is incomparable with both, so `a` and `c` are incomparable
  have apart := order.incomp_trans a b c ⟨ab, by simp [ba]⟩ ⟨by simp [bc], by simp [cb]⟩
  exact apart.2 ca

theorem StrictWeak.pairwise_mergeSort (order : StrictWeak lt) (l : List α) :
    (l.mergeSort fun a b => !lt b a).Pairwise fun a b => lt b a = false := by
  have sorted := @List.pairwise_mergeSort α (fun a b => !lt b a)
    (fun a b c ab bc => by
      simp only [Bool.not_eq_true'] at ab bc ⊢
      exact order.not_lt_trans ab bc)
    (fun a b => by
      cases ab : lt a b
      · simp
      · have ba : lt b a = false := by
          rw [Bool.eq_false_iff]
          exact fun ba => order.irrefl a (order.trans a b a ab ba)
        simp [ba])
    l
  simpa using sorted

end

end Kubernetes.Library
