import Mathlib.Logic.Function.Basic
import Mathlib.Data.List.Count

/-!
# The stacks of many threads

Threads that step one at a time, each with a stack of layers, innermost first. A layer that one
thread at most may have, and once at most (a lock that is held, a job that is being done), keeps
to that as each thread changes its own stack.
-/

namespace Stacks

variable {T L : Type*}

/-- Some layer of some thread satisfies `f`. -/
def Somewhere (f : L → Bool) (stack : T → List L) : Prop := ∃ t, ∃ layer ∈ stack t, f layer = true

/-- At most one layer of at most one thread satisfies `f`. -/
structure Sole (f : L → Bool) (stack : T → List L) : Prop where
  once : ∀ t, (stack t).countP f ≤ 1
  alone : ∀ t u, 0 < (stack t).countP f → 0 < (stack u).countP f → t = u

theorem somewhere_iff {f : L → Bool} {stack : T → List L} :
    Somewhere f stack ↔ ∃ t, 0 < (stack t).countP f := by
  simp only [Somewhere, List.countP_pos_iff]

theorem sole_nil (f : L → Bool) : Sole f (fun _ : T => []) := by
  constructor
  · intro t
    simp
  · intro t u held
    simp at held

variable [DecidableEq T]

/-- A thread's stack changes, and has no more layers that satisfy `f` than before. -/
theorem Sole.update {f : L → Bool} {stack : T → List L} (sole : Sole f stack) (t : T)
    {layers : List L} (fewer : layers.countP f ≤ (stack t).countP f) :
    Sole f (Function.update stack t layers) := by
  have bound : ∀ u, (Function.update stack t layers u).countP f ≤ (stack u).countP f := by
    intro u
    by_cases own : u = t
    · subst own
      simpa using fewer
    · simp [Function.update_of_ne own]
  constructor
  · intro u
    exact Nat.le_trans (bound u) (sole.once u)
  · intro u v one other
    exact sole.alone u v (Nat.lt_of_lt_of_le one (bound u)) (Nat.lt_of_lt_of_le other (bound v))

theorem somewhere_update {f : L → Bool} {stack : T → List L} {t : T} {layers : List L}
    (fewer : layers.countP f ≤ (stack t).countP f)
    (present : Somewhere f (Function.update stack t layers)) : Somewhere f stack := by
  rw [somewhere_iff] at present ⊢
  obtain ⟨u, here⟩ := present
  by_cases own : u = t
  · subst own
    rw [Function.update_self] at here
    exact ⟨u, Nat.lt_of_lt_of_le here fewer⟩
  · rw [Function.update_of_ne own] at here
    exact ⟨u, here⟩

theorem somewhere_kept {f : L → Bool} {stack : T → List L} {t : T} {layers : List L}
    (more : (stack t).countP f ≤ layers.countP f) (present : Somewhere f stack) :
    Somewhere f (Function.update stack t layers) := by
  rw [somewhere_iff] at present ⊢
  obtain ⟨u, here⟩ := present
  refine ⟨u, ?_⟩
  by_cases own : u = t
  · subst own
    rw [Function.update_self]
    exact Nat.lt_of_lt_of_le here more
  · rwa [Function.update_of_ne own]

/-- A thread gets the only layer that satisfies `f`. -/
theorem sole_first {f : L → Bool} {stack : T → List L} (absent : ¬ Somewhere f stack) (t : T)
    {layers : List L} (one : layers.countP f ≤ 1) : Sole f (Function.update stack t layers) := by
  have other : ∀ u, u ≠ t → (Function.update stack t layers u).countP f = 0 := by
    intro u apart
    rw [Function.update_of_ne apart]
    by_contra more
    exact absent (somewhere_iff.mpr ⟨u, Nat.pos_of_ne_zero more⟩)
  have here : ∀ u, 0 < (Function.update stack t layers u).countP f → u = t := by
    intro u held
    by_contra apart
    rw [other u apart] at held
    exact absurd held (Nat.lt_irrefl 0)
  constructor
  · intro u
    by_cases own : u = t
    · subst own
      simpa using one
    · rw [other u own]
      exact Nat.zero_le 1
  · intro u v held more
    exact (here u held).trans (here v more).symm

/-- If the thread with the sole such layer loses it, no layer satisfies `f`. -/
theorem Sole.last {f : L → Bool} {stack : T → List L} (sole : Sole f stack) {t : T}
    (had : 0 < (stack t).countP f) {layers : List L} (cleared : layers.countP f = 0) :
    ¬ Somewhere f (Function.update stack t layers) := by
  rw [somewhere_iff]
  rintro ⟨u, held⟩
  by_cases own : u = t
  · subst own
    simp [cleared] at held
  · rw [Function.update_of_ne own] at held
    exact own (sole.alone u t held had)

/-- What holds of every layer still does after a thread changed its stack. -/
theorem each_update {P : T → L → Prop} {stack : T → List L} (each : ∀ u, ∀ layer ∈ stack u, P u layer)
    (t : T) {layers : List L} (own : ∀ layer ∈ layers, layer ∈ stack t ∨ P t layer) :
    ∀ u, ∀ layer ∈ Function.update stack t layers u, P u layer := by
  intro u layer member
  by_cases here : u = t
  · subst here
    rw [Function.update_self] at member
    exact (own layer member).elim (each u layer) id
  · rw [Function.update_of_ne here] at member
    exact each u layer member

end Stacks
