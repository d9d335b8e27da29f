import Mathlib.Data.List.Basic
import Mathlib.Order.WellFounded

/-!
# Transition systems

Runs of a partial step function, the invariant rule for them, the same rule for the runs whose steps
all meet a condition, and a rule for runs that cannot go on for ever. A step function returns `none`
on an action that cannot be taken in a state.
-/

namespace Transition

variable {S A : Type*}

/-- Take the actions in order. -/
def run (step : S → A → Option S) : S → List A → Option S
  | s, [] => some s
  | s, a :: rest => (step s a).bind fun next => run step next rest

/-- Every action taken along the way meets `ok`, in the state it is taken in. -/
def Along (step : S → A → Option S) (ok : S → A → Prop) : S → List A → Prop
  | _, [] => True
  | s, a :: rest => ok s a ∧ ∀ next, step s a = some next → Along step ok next rest

variable {step : S → A → Option S}

@[simp] theorem run_nil (s : S) : run step s [] = some s := rfl

@[simp] theorem run_cons (s : S) (a : A) (rest : List A) :
    run step s (a :: rest) = (step s a).bind fun next => run step next rest := rfl

theorem run_append (s : S) (left right : List A) :
    run step s (left ++ right) = (run step s left).bind fun middle => run step middle right := by
  induction left generalizing s with
  | nil => rfl
  | cons a rest ih =>
    simp only [List.cons_append, run_cons, Option.bind_assoc]
    congr 1
    funext next
    exact ih next

/-- What holds initially and is preserved by each step holds after any run. -/
theorem run_invariant (inv : S → Prop)
    (preserved : ∀ s a next, inv s → step s a = some next → inv next)
    {s final : S} {actions : List A} (initial : inv s)
    (taken : run step s actions = some final) : inv final := by
  induction actions generalizing s with
  | nil =>
    cases taken
    exact initial
  | cons a rest ih =>
    obtain ⟨next, stepped, remaining⟩ := Option.bind_eq_some_iff.mp taken
    exact ih (preserved s a next initial stepped) remaining

/-- The invariant rule for runs whose steps all meet a condition. -/
theorem run_invariant_along (ok : S → A → Prop) (inv : S → Prop)
    (preserved : ∀ s a next, inv s → ok s a → step s a = some next → inv next)
    {s final : S} {actions : List A} (initial : inv s) (met : Along step ok s actions)
    (taken : run step s actions = some final) : inv final := by
  induction actions generalizing s with
  | nil =>
    cases taken
    exact initial
  | cons a rest ih =>
    obtain ⟨next, stepped, remaining⟩ := Option.bind_eq_some_iff.mp taken
    exact ih (preserved s a next initial met.1 stepped) (met.2 next stepped) remaining

/-- Two conditions that agree in every state a run passes through. -/
theorem along_congr {ok ok' : S → A → Prop} (inv : S → Prop)
    (preserved : ∀ s a next, inv s → step s a = some next → inv next)
    (same : ∀ s a, inv s → (ok s a ↔ ok' s a)) {s : S} (initial : inv s) (actions : List A) :
    Along step ok s actions ↔ Along step ok' s actions := by
  induction actions generalizing s with
  | nil => exact Iff.rfl
  | cons a rest ih =>
    refine and_congr (same s a initial) (forall_congr' fun next => ?_)
    exact imp_congr_right fun stepped => ih (preserved s a next initial stepped)

/-- A condition on the actions alone. -/
theorem along_of_forall (ok : A → Prop) {actions : List A} (all : ∀ a ∈ actions, ok a) (s : S) :
    Along step (fun _ a => ok a) s actions := by
  induction actions generalizing s with
  | nil => trivial
  | cons a rest ih =>
    exact ⟨all a List.mem_cons_self, fun next _ =>
      ih (fun b member => all b (List.mem_cons_of_mem _ member)) next⟩

/-- A condition that every step meets. -/
theorem along_of_all {ok : S → A → Prop} (all : ∀ s a, ok s a) (s : S) (actions : List A) :
    Along step ok s actions := by
  induction actions generalizing s with
  | nil => trivial
  | cons a rest ih => exact ⟨all s a, fun next _ => ih next⟩

/-- The condition, checked by running. -/
def check (step : S → A → Option S) (ok : S → A → Bool) : S → List A → Bool
  | _, [] => true
  | s, a :: rest => ok s a && (step s a).all fun next => check step ok next rest

theorem along_of_check {checked : S → A → Bool} {ok : S → A → Prop}
    (sound : ∀ s a, checked s a = true → ok s a) {s : S} {actions : List A}
    (passed : check step checked s actions = true) : Along step ok s actions := by
  induction actions generalizing s with
  | nil => trivial
  | cons a rest ih =>
    obtain ⟨first, later⟩ := (Bool.and_eq_true _ _).mp passed
    refine ⟨sound s a first, fun next stepped => ih ?_⟩
    rwa [stepped] at later

/-- Steps that lower a measure whose values do not go down for ever do not go on for ever. -/
theorem ends_of_lower {M : Type*} [Preorder M] [WellFoundedLT M] (ok : A → Prop) (inv : S → Prop)
    (measure : S → M)
    (preserved : ∀ s a next, inv s → ok a → step s a = some next → inv next)
    (lowers : ∀ s a next, inv s → ok a → step s a = some next → measure next < measure s)
    {states : ℕ → S} {actions : ℕ → A} (initial : inv (states 0)) :
    ¬ ∀ n, ok (actions n) ∧ step (states n) (actions n) = some (states (n + 1)) := by
  intro goes
  have kept : ∀ n, inv (states n) := by
    intro n
    induction n with
    | zero => exact initial
    | succ n ih => exact preserved _ _ _ ih (goes n).1 (goes n).2
  obtain ⟨n, still⟩ := WellFounded.not_rel_apply_succ (r := (· < ·)) fun n => measure (states n)
  exact still (lowers _ _ _ (kept n) (goes n).1 (goes n).2)

end Transition
