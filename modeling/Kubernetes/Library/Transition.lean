import Mathlib.Logic.Relation

/-! Transition systems whose steps consume an input.

A component is modelled by its initial states and a step relation labelled by the
input that drives it (a call with its arguments, a random draw, a scheduler choice).
Reachability is the closure of the initial states under steps. An invariant is
discharged once for the initial states and once for a step; every result about
whole runs of a component is assembled from these two obligations. Deterministic
components give a step function and an admissibility predicate on inputs, and a
finite list of inputs can be replayed to exhibit a concrete reachable state.
-/

set_option autoImplicit false

namespace Kubernetes.Library

/-- Initial states and a labelled step relation. -/
structure System (σ ι : Type) where
  init : σ → Prop
  step : σ → ι → σ → Prop

namespace System

variable {σ ι : Type}

/-- States produced from an initial state by finitely many steps. -/
inductive Reachable (system : System σ ι) : σ → Prop where
  | init {state : σ} : system.init state → Reachable system state
  | step {state next : σ} (input : ι) :
      Reachable system state → system.step state input next → Reachable system next

/-- A predicate that holds in every reachable state. -/
def Invariant (system : System σ ι) (property : σ → Prop) : Prop :=
  ∀ state, system.Reachable state → property state

/-- A predicate that holds initially and is kept by every step. -/
structure Inductive (system : System σ ι) (property : σ → Prop) : Prop where
  init : ∀ state, system.init state → property state
  step : ∀ state input next, property state → system.step state input next → property next

theorem Inductive.invariant {system : System σ ι} {property : σ → Prop}
    (inductive_ : system.Inductive property) : system.Invariant property := by
  intro state reachable
  induction reachable with
  | init initial => exact inductive_.init _ initial
  | step input _ taken ih => exact inductive_.step _ input _ ih taken

theorem Invariant.and {system : System σ ι} {first second : σ → Prop}
    (left : system.Invariant first) (right : system.Invariant second) :
    system.Invariant fun state => first state ∧ second state :=
  fun state reachable => ⟨left state reachable, right state reachable⟩

theorem Invariant.of_step {system : System σ ι} {known property : σ → Prop}
    (knownInvariant : system.Invariant known)
    (init : ∀ state, system.init state → property state)
    (step : ∀ state input next, known state → property state → system.step state input next →
      property next) :
    system.Invariant property := by
  intro state reachable
  induction reachable with
  | init initial => exact init _ initial
  | step input earlier taken ih => exact step _ input _ (knownInvariant _ earlier) ih taken

theorem Reachable.next {system : System σ ι} {state next : σ} {input : ι}
    (reachable : system.Reachable state) (taken : system.step state input next) :
    system.Reachable next :=
  .step input reachable taken

/-! ## Deterministic components -/

/-- A component with one initial state, a step function and the inputs it admits in
each state (for instance random draws inside the range their source documents). -/
def ofStep (initial : σ) (admissible : σ → ι → Prop) (step : σ → ι → σ) : System σ ι where
  init := fun state => state = initial
  step := fun state input next => admissible state input ∧ next = step state input

/-- Replay a list of inputs. -/
def run (step : σ → ι → σ) (state : σ) : List ι → σ
  | [] => state
  | input :: rest => run step (step state input) rest

/-- Every input of the list is admitted where it is replayed. -/
def Admits (admissible : σ → ι → Prop) (step : σ → ι → σ) : σ → List ι → Prop
  | _, [] => True
  | state, input :: rest => admissible state input ∧ Admits admissible step (step state input) rest

@[simp] theorem run_nil (step : σ → ι → σ) (state : σ) : run step state [] = state := rfl

@[simp] theorem run_cons (step : σ → ι → σ) (state : σ) (input : ι) (rest : List ι) :
    run step state (input :: rest) = run step (step state input) rest := rfl

theorem reachable_run {initial : σ} {admissible : σ → ι → Prop} {step : σ → ι → σ}
    {state : σ} (reachable : (ofStep initial admissible step).Reachable state) :
    ∀ inputs, Admits admissible step state inputs →
      (ofStep initial admissible step).Reachable (run step state inputs)
  | [], _ => reachable
  | input :: rest, ⟨admitted, admits⟩ =>
      reachable_run (.step input reachable ⟨admitted, rfl⟩) rest admits

theorem reachable_of_run {initial : σ} {admissible : σ → ι → Prop} {step : σ → ι → σ}
    (inputs : List ι) (admits : Admits admissible step initial inputs) :
    (ofStep initial admissible step).Reachable (run step initial inputs) :=
  reachable_run (.init rfl) inputs admits

theorem Reachable.run {system : System σ ι} {admissible : σ → ι → Prop} {step : σ → ι → σ}
    (steps : ∀ state input, admissible state input → system.step state input (step state input))
    {state : σ} (reachable : system.Reachable state) :
    ∀ inputs, Admits admissible step state inputs → system.Reachable (run step state inputs)
  | [], _ => reachable
  | input :: rest, ⟨admitted, admits⟩ =>
      Reachable.run steps (.step input reachable (steps state input admitted)) rest admits

/-! ## Components with a partial step function -/

/-- A component whose step function returns `none` for an input it cannot take in a state
(a call on an instance in the wrong phase, a random draw outside its range). -/
def ofPartial (init : σ → Prop) (step : σ → ι → Option σ) : System σ ι where
  init := init
  step := fun state input next => step state input = some next

/-- Replay a list of inputs through a partial step function. -/
def runPartial (step : σ → ι → Option σ) : σ → List ι → Option σ
  | state, [] => some state
  | state, input :: rest => (step state input).bind fun next => runPartial step next rest

theorem reachable_runPartial {init : σ → Prop} {step : σ → ι → Option σ} :
    ∀ (inputs : List ι) {state final : σ}, (ofPartial init step).Reachable state →
      runPartial step state inputs = some final → (ofPartial init step).Reachable final
  | [], _, _, reachable, ran => by
    cases ran
    exact reachable
  | input :: rest, state, final, reachable, ran => by
    simp only [runPartial, Option.bind_eq_some_iff] at ran
    obtain ⟨next, stepped, ran⟩ := ran
    exact reachable_runPartial rest (.step input reachable stepped) ran

theorem reachable_of_runPartial {init : σ → Prop} {step : σ → ι → Option σ} {start final : σ}
    (initial : init start) (inputs : List ι) (ran : runPartial step start inputs = some final) :
    (ofPartial init step).Reachable final :=
  reachable_runPartial inputs (.init initial) ran

end System

theorem foldl_preserves {σ α : Type} (body : σ → α → σ) (property : σ → Prop) :
    ∀ (items : List α) (state : σ), property state →
      (∀ item ∈ items, ∀ current, property current → property (body current item)) →
      property (items.foldl body state)
  | [], _, holds, _ => holds
  | item :: rest, state, holds, keeps =>
    foldl_preserves body property rest (body state item) (keeps item (by simp) state holds)
      fun other member => keeps other (by simp [member])

end Kubernetes.Library
