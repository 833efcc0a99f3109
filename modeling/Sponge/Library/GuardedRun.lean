import Mathlib.Tactic.Common

/-!
# Guarded runs of a fallible step function

A component is a state and a step function `step : σ → α → Except ε σ`: one
operation either succeeds with the next state or fails.  A **guarded run** is a
sequence of operations that all succeed and all meet a condition `guard` on the
state they are applied to.

* `GuardedRun step guard start s` — `s` is reached from `start`.
* `GuardedRun.invariant` — what holds initially and is kept by every guarded
  step holds in every state reached.
* `GuardedRun.progress` — the two-state form: a relation that is reflexive,
  transitive and met by every step relates the start to every state reached.
* `GuardedRun.reaches` — the rounds rule, for what *can* happen: if every state short of the
  goal leads to a smaller one, the goal is reached.
* `GuardedRun.mono`, `GuardedRun.translate` — the same run under a weaker guard, or in the
  operations of another step function.
* `execute`, `EndsIn`, `FailsWith`, `Admitted` — the executable counterpart on a list of
  operations, for runs that are evaluated (`GuardedRun.of_execute`).

The guard is what lets one run predicate serve both an unconditional statement
(`fun _ _ => True`) and a statement about the runs that meet a condition.

### Why failures end a run

A run stops at the first failure, because a step function in `Except` does not say what
state a failed operation leaves behind.  Where a component is still used after a failure,
its step function has to say so itself, by succeeding with that state: `Except Empty` is the
type of such a component, and then nothing is left out.

### Why runs are a relation

`execute` would do for runs on a given list of operations.  The relation forgets the list,
which is what an invariant wants: the induction is over the last step, with the guard in the
state before it. The two meet in `GuardedRun.of_execute`, which is how a run that is
evaluated by the kernel is handed to a theorem about all runs.
-/

namespace Runs

universe u v w

variable {σ : Type u} {α : Type v} {ε : Type w}

/-- The states reached from `start` by operations that succeed and meet `guard`
in the state they are applied to. -/
inductive GuardedRun (step : σ → α → Except ε σ) (guard : σ → α → Prop)
    (start : σ) : σ → Prop
  | refl : GuardedRun step guard start start
  | tail {s s' : σ} {op : α} (run : GuardedRun step guard start s)
      (admitted : guard s op) (stepped : step s op = .ok s') :
      GuardedRun step guard start s'

namespace GuardedRun

variable {step : σ → α → Except ε σ} {guard guard' : σ → α → Prop}
variable {start s s' : σ}

/-- **The invariant rule.**  A predicate that holds at the start and is kept by
every guarded step holds in every state reached. -/
theorem invariant (P : σ → Prop) (initial : P start)
    (kept : ∀ s op s', P s → guard s op → step s op = .ok s' → P s')
    (run : GuardedRun step guard start s) : P s := by
  induction run with
  | refl => exact initial
  | tail _ admitted stepped ih => exact kept _ _ _ ih admitted stepped

/-- The two-state form of the invariant rule, for quantities that only move one
way along a run. -/
theorem progress (R : σ → σ → Prop) (reflexive : ∀ s, R s s)
    (transitive : ∀ {s t u}, R s t → R t u → R s u)
    (met : ∀ s op s', guard s op → step s op = .ok s' → R s s')
    (run : GuardedRun step guard start s) : R start s := by
  induction run with
  | refl => exact reflexive start
  | tail _ admitted stepped ih =>
      exact transitive ih (met _ _ _ admitted stepped)

/-- Runs can be put one after the other. -/
theorem trans (run : GuardedRun step guard start s) (later : GuardedRun step guard s s') :
    GuardedRun step guard start s' :=
  later.invariant (GuardedRun step guard start) run fun _ _ _ before admitted stepped =>
    before.tail admitted stepped

/-- **The rounds rule.**  If from every state that keeps the invariant, and is not yet the goal, a
run leads to one that keeps it and is smaller, then the goal can be reached. -/
theorem reaches {goal : σ → Prop} (P : σ → Prop) (size : σ → ℕ)
    (round : ∀ s, P s → ¬goal s → ∃ s', GuardedRun step guard s s' ∧ P s' ∧ size s' < size s)
    (initial : P start) : ∃ s, GuardedRun step guard start s ∧ P s ∧ goal s := by
  induction hsize : size start using Nat.strongRecOn generalizing start with
  | ind k ih =>
      by_cases reached : goal start
      · exact ⟨start, .refl, initial, reached⟩
      · obtain ⟨s', run, kept, smaller⟩ := round start initial reached
        obtain ⟨s, later, result⟩ := ih (size s') (hsize ▸ smaller) kept rfl
        exact ⟨s, run.trans later, result⟩

/-- A run under a guard is a run under a weaker one. -/
theorem mono (weaker : ∀ s op, guard s op → guard' s op)
    (run : GuardedRun step guard start s) : GuardedRun step guard' start s :=
  run.invariant (GuardedRun step guard' start) .refl fun s op _ before admitted stepped =>
    .tail before (weaker s op admitted) stepped

end GuardedRun

/-- A result that is mapped to a success is one. -/
theorem ok_of_map {α : Type u} {β : Type v} {f : α → β} {result : Except ε α} {b : β}
    (h : result.map f = .ok b) : ∃ a, result = .ok a ∧ f a = b := by
  cases result with
  | ok a => exact ⟨a, rfl, Except.ok.inj h⟩
  | error e => cases h

/-- Apply a list of operations, stopping at the first failure. -/
def execute (step : σ → α → Except ε σ) : σ → List α → Except ε σ
  | s, [] => .ok s
  | s, op :: ops =>
      match step s op with
      | .ok s' => execute step s' ops
      | .error e => .error e

/-- The result is a success, in a state that satisfies `P`. -/
def EndsIn (result : Except ε σ) (P : σ → Prop) : Prop :=
  match result with
  | .ok s => P s
  | .error _ => False

instance decidableEndsIn {P : σ → Prop} [DecidablePred P] :
    ∀ result : Except ε σ, Decidable (EndsIn result P)
  | .ok s => inferInstanceAs (Decidable (P s))
  | .error _ => inferInstanceAs (Decidable False)

/-- What is decided about the result of a run, as a statement about the state it ends in. -/
theorem EndsIn.exists_ok {result : Except ε σ} {P : σ → Prop} (h : EndsIn result P) :
    ∃ s, result = .ok s ∧ P s := by
  cases result with
  | error e => exact h.elim
  | ok s => exact ⟨s, rfl, h⟩

/-- The result is this failure.  States need not be comparable for it to be decided. -/
def FailsWith (result : Except ε σ) (fault : ε) : Prop :=
  match result with
  | .ok _ => False
  | .error e => e = fault

instance decidableFailsWith [DecidableEq ε] (fault : ε) :
    ∀ result : Except ε σ, Decidable (FailsWith result fault)
  | .ok _ => inferInstanceAs (Decidable False)
  | .error e => inferInstanceAs (Decidable (e = fault))

/-- What is decided about a failure, as an equation. -/
theorem FailsWith.eq_error {result : Except ε σ} {fault : ε} (h : FailsWith result fault) :
    result = .error fault := by
  cases result with
  | error e => exact congrArg Except.error h
  | ok s => exact h.elim

/-- Every operation of the list meets the guard in the state it is applied to. -/
def Admitted (step : σ → α → Except ε σ) (guard : σ → α → Prop) :
    σ → List α → Prop
  | _, [] => True
  | s, op :: ops =>
      guard s op ∧
        match step s op with
        | .ok s' => Admitted step guard s' ops
        | .error _ => True

instance decidableAdmitted {step : σ → α → Except ε σ} {guard : σ → α → Prop}
    [∀ s op, Decidable (guard s op)] :
    ∀ (s : σ) (ops : List α), Decidable (Admitted step guard s ops)
  | _, [] => inferInstanceAs (Decidable True)
  | s, op :: ops =>
      match h : step s op with
      | .ok s' =>
          have : Decidable (Admitted step guard s' ops) := decidableAdmitted s' ops
          decidable_of_iff (guard s op ∧ Admitted step guard s' ops)
            (by simp [Admitted, h])
      | .error _ => decidable_of_iff (guard s op) (by simp [Admitted, h])

/-- A guard that always holds admits every list of operations. -/
theorem admitted_of_forall {step : σ → α → Except ε σ} {guard : σ → α → Prop}
    (always : ∀ s op, guard s op) (s : σ) (ops : List α) : Admitted step guard s ops := by
  induction ops generalizing s with
  | nil => trivial
  | cons op ops ih =>
      refine ⟨always s op, ?_⟩
      split
      · exact ih _
      · trivial

/-- So does one that looks at the operations alone and holds of those in the list. -/
theorem admitted_of_mem {step : σ → α → Except ε σ} {guard : σ → α → Prop} (s : σ) {ops : List α}
    (h : ∀ op ∈ ops, ∀ s, guard s op) : Admitted step guard s ops := by
  induction ops generalizing s with
  | nil => trivial
  | cons op ops ih =>
      obtain ⟨here, later⟩ := List.forall_mem_cons.mp h
      refine ⟨here s, ?_⟩
      split
      · exact ih _ later
      · trivial

/-- **A run in other words**: operations that stand for operations of another step function, which
may depend on the state. -/
theorem GuardedRun.translate {β : Type*} {step : σ → α → Except ε σ} {guard : σ → α → Prop}
    {step' : σ → β → Except ε σ} {guard' : σ → β → Prop} {start s : σ} (f : σ → β → α)
    (hstep : ∀ s b, step' s b = step s (f s b)) (hguard : ∀ s b, guard' s b → guard s (f s b))
    (run : GuardedRun step' guard' start s) : GuardedRun step guard start s :=
  run.invariant (GuardedRun step guard start) .refl fun s b _ before admitted stepped =>
    before.tail (hguard s b admitted) ((hstep s b).symm.trans stepped)

/-- An evaluated run is a guarded run. -/
theorem GuardedRun.of_execute {step : σ → α → Except ε σ} {guard : σ → α → Prop}
    {start s : σ} {ops : List α} (admitted : Admitted step guard start ops)
    (done : execute step start ops = .ok s) : GuardedRun step guard start s := by
  suffices continued : ∀ (ops : List α) {s s' : σ}, GuardedRun step guard start s →
      Admitted step guard s ops → execute step s ops = .ok s' →
      GuardedRun step guard start s' from continued ops .refl admitted done
  intro ops
  induction ops with
  | nil =>
      intro s s' run _ done
      cases done
      exact run
  | cons op ops ih =>
      intro s s' run admitted done
      obtain ⟨here, later⟩ := admitted
      cases stepped : step s op with
      | error e => simp [execute, stepped] at done
      | ok s₁ =>
          rw [stepped] at later
          refine ih (run.tail here stepped) later ?_
          simpa [execute, stepped] using done

end Runs
