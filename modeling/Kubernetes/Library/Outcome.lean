import Mathlib.Logic.Basic
import Mathlib.Data.List.Forall2
import Mathlib.Data.Int.Notation

/-! Fallible computations.

Go functions that return a value and an `error` are modelled in `Except`. A chain of
such calls succeeds exactly when each call in it succeeds; the lemmas below peel a
successful chain apart one call at a time, so proofs never unfold `bind`. A loop whose body
may panic is a `mapM` in `Option`: it runs through when no step panics, and panics when one
does.
-/

set_option autoImplicit false

namespace Kubernetes.Library

variable {ε α β : Type}

@[simp] theorem bind_eq_ok {first : Except ε α} {rest : α → Except ε β} {result : β} :
    first >>= rest = .ok result ↔ ∃ value, first = .ok value ∧ rest value = .ok result := by
  cases first <;> simp [bind, Except.bind]

@[simp] theorem map_eq_ok {first : Except ε α} {transform : α → β} {result : β} :
    transform <$> first = .ok result ↔ ∃ value, first = .ok value ∧ transform value = result := by
  cases first <;> simp [Functor.map, Except.map]

@[simp] theorem exceptT_bind_eq_some_ok {first : ExceptT ε Option α} {rest : α → ExceptT ε Option β} {result : β} :
    (first >>= rest).run = some (.ok result) ↔
      ∃ value, first.run = some (.ok value) ∧ (rest value).run = some (.ok result) := by
  rcases first with _ | _ | value
  all_goals simp [ExceptT.run, bind, ExceptT.bind, ExceptT.mk, ExceptT.bindCont]

@[simp] theorem exceptT_adapt_eq_some_ok {ε' : Type} {first : ExceptT ε Option α} {f : ε → ε'} {result : α} :
    (first.adapt f).run = some (.ok result) ↔ first.run = some (.ok result) := by
  rw [ExceptT.run_adapt]
  rcases first.run with _ | _ | value
  all_goals simp [Except.mapError]

theorem mapM_isSome {f : α → Option β} {l : List α} (runs : ∀ x ∈ l, (f x).isSome) :
    (l.mapM f).isSome := by
  induction l with
  | nil => rfl
  | cons a l ih =>
    obtain ⟨b, hb⟩ := Option.isSome_iff_exists.mp (runs a List.mem_cons_self)
    obtain ⟨bs, hbs⟩ := Option.isSome_iff_exists.mp (ih fun x mem => runs x (List.mem_cons_of_mem a mem))
    simp [List.mapM_cons, hb, hbs]

theorem mapM_eq_none {f : α → Option β} {l : List α} {x : α} (mem : x ∈ l) (panics : f x = none) :
    l.mapM f = none := by
  induction l with
  | nil => cases mem
  | cons a l ih =>
    rw [List.mapM_cons]
    rcases List.mem_cons.mp mem with rfl | later
    · simp [panics]
    · cases f a <;> simp [ih later]

theorem foldlM_map_eq {σ : Type} (f : α → Option β) (update : σ → β → σ) :
    ∀ (l : List α) (init : σ), l.foldlM (fun s x => (f x).map (update s)) init = (l.mapM f).map (·.foldl update init)
  | [], _ => rfl
  | x :: l, init => by
    cases computed : f x with
    | none => simp [computed, List.mapM_cons]
    | some y =>
      rw [List.mapM_cons]
      cases rest : l.mapM f <;> simp [computed, rest, foldlM_map_eq f update l]

theorem forall₂_of_mapM_eq_some {f : α → Option β} : ∀ {l : List α} {ys : List β}, l.mapM f = some ys →
    List.Forall₂ (fun x y => f x = some y) l ys
  | [], ys, ran => by
    simp only [List.mapM_nil] at ran
    cases ran
    exact .nil
  | x :: l, ys, ran => by
    rw [List.mapM_cons] at ran
    cases computed : f x with
    | none => simp [computed] at ran
    | some y =>
      cases rest : l.mapM f with
      | none => simp [computed, rest] at ran
      | some ys' =>
        simp only [computed, rest, Option.bind_eq_bind, Option.bind_some, Option.pure_def, Option.some.injEq] at ran
        subst ran
        exact .cons computed (forall₂_of_mapM_eq_some rest)

/-! ## Loops that may run forever -/

section Forever

variable {σ : Type}

/-- `for counter > 0 { pass }`. A pass that does not lower the counter has taken nothing and
left the state as it was, so the loop would repeat it forever: that is `none`. -/
def whilePositive (pass : σ → σ) (counter : σ → ℤ) (s : σ) : Option σ :=
  if counter s ≤ 0 then some s
  else if counter (pass s) < counter s then whilePositive pass counter (pass s) else none
termination_by (counter s).toNat
decreasing_by omega

theorem whilePositive_invariant {pass : σ → σ} {counter : σ → ℤ} {keeps : σ → Prop}
    (step : ∀ s, keeps s → keeps (pass s)) {s final : σ} (start : keeps s)
    (ends : whilePositive pass counter s = some final) : keeps final := by
  induction s using whilePositive.induct pass counter with
  | case1 s done =>
    rw [whilePositive, if_pos done] at ends
    cases ends
    exact start
  | case2 s running lowered ih =>
    rw [whilePositive, if_neg running, if_pos lowered] at ends
    exact ih (step s start) ends
  | case3 s running stuck =>
    rw [whilePositive, if_neg running, if_neg stuck] at ends
    cases ends

end Forever

end Kubernetes.Library
