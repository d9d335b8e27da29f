import Mathlib.Data.Fintype.Card
import Mathlib.Data.Fintype.EquivFin
import Mathlib.Data.Fintype.Sets
import Mathlib.Logic.Relation
import Mathlib.Order.WellFounded

/-!
# Acyclic relations

A relation on a finite set that has no cycles can be recursed along: a function that reads itself
only at what is below can be defined.
-/

namespace Acyclic

variable {α β : Type*} {below : α → α → Prop} {s : Finset α}

/-- Within the set, going down along the relation ends. -/
theorem wellFounded (acyclic : ∀ a ∈ s, ¬ Relation.TransGen below a a) :
    WellFounded fun a b : s => below a b := by
  have lifted : ∀ a b : s, Relation.TransGen (fun a b : s => below a b) a b →
      Relation.TransGen below a b :=
    Relation.TransGen.lift (p := below) Subtype.val fun _ _ => id
  have irreflexive : Std.Irrefl (Relation.TransGen fun a b : s => below a b) :=
    ⟨fun a cycle => acyclic a a.2 (lifted a a cycle)⟩
  have ends := Finite.wellFounded_of_trans_of_irrefl (Relation.TransGen fun a b : s => below a b)
  have once : Subrelation (fun a b : s => below a b)
      (Relation.TransGen fun a b : s => below a b) := fun lower => .single lower
  exact once.wf ends

/-- The equations of a function that reads itself only below, and within the set, have a solution
there. -/
theorem exists_solution [Inhabited β] (acyclic : ∀ a ∈ s, ¬ Relation.TransGen below a a)
    (equations : (α → β) → α → β)
    (reads : ∀ a ∈ s, ∀ f g : α → β, (∀ b ∈ s, below b a → f b = g b) →
      equations f a = equations g a) :
    ∃ f : α → β, ∀ a ∈ s, f a = equations f a := by
  classical
  -- outside the set the values do not matter
  let extend : (s → β) → α → β := fun f a => if member : a ∈ s then f ⟨a, member⟩ else default
  have inside : ∀ (f : s → β) (a : s), extend f a = f a := by
    intro f a
    exact dif_pos a.2
  let solution : s → β := (wellFounded acyclic).fix fun a values =>
    equations (fun b => if lower : ∃ member : b ∈ s, below b a then values ⟨b, lower.1⟩ lower.2
      else default) a
  refine ⟨extend solution, fun a member => ?_⟩
  calc extend solution a = solution ⟨a, member⟩ := inside solution ⟨a, member⟩
    _ = equations (fun b => if lower : ∃ member : b ∈ s, below b a then solution ⟨b, lower.1⟩
          else default) a := (wellFounded acyclic).fix_eq _ _
    _ = equations (extend solution) a := by
      apply reads a member
      intro b there lower
      rw [dif_pos ⟨there, lower⟩]
      exact (inside solution ⟨b, there⟩).symm

end Acyclic
