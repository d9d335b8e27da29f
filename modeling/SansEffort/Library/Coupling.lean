import Mathlib.Data.Option.Basic
import Mathlib.Order.Basic

/-!
# Two computations side by side

Stateful computations that may fail, each started in a state of its own. They are coupled when
both fail, or both return and what they return is related. Coupled computations put in sequence
are coupled again, so a relation between two programs is proved one step of theirs at a time.
-/

namespace Coupling

universe u v

/-- Results related before a function is applied to each, and after. -/
theorem rel_map {α β γ δ : Type*} {rel : α → β → Prop} {after : γ → δ → Prop} {x : Option α}
    {y : Option β} {f : α → γ} {g : β → δ} (related : Option.Rel rel x y)
    (implies : ∀ a b, rel a b → after (f a) (g b)) : Option.Rel after (x.map f) (y.map g) := by
  cases related with
  | some both => exact .some (implies _ _ both)
  | none => exact .none

variable {S₁ α₁ β₁ : Type u} {S₂ α₂ β₂ : Type v}

/-- Both fail, or both return in states that are related. -/
def Coupled (rel : α₁ → S₁ → α₂ → S₂ → Prop) (m₁ : StateT S₁ Option α₁) (s₁ : S₁)
    (m₂ : StateT S₂ Option α₂) (s₂ : S₂) : Prop :=
  Option.Rel (fun p₁ p₂ => rel p₁.1 p₁.2 p₂.1 p₂.2) (m₁.run s₁) (m₂.run s₂)

variable {rel : α₁ → S₁ → α₂ → S₂ → Prop} {m₁ : StateT S₁ Option α₁} {m₂ : StateT S₂ Option α₂}
  {s₁ : S₁} {s₂ : S₂}

theorem coupled_pure {a₁ : α₁} {a₂ : α₂} (related : rel a₁ s₁ a₂ s₂) :
    Coupled rel (pure a₁) s₁ (pure a₂) s₂ := .some related

theorem coupled_failure : Coupled rel failure s₁ failure s₂ := .none

theorem Coupled.mono {weaker : α₁ → S₁ → α₂ → S₂ → Prop} (coupled : Coupled rel m₁ s₁ m₂ s₂)
    (implies : ∀ a₁ t₁ a₂ t₂, rel a₁ t₁ a₂ t₂ → weaker a₁ t₁ a₂ t₂) :
    Coupled weaker m₁ s₁ m₂ s₂ := by
  unfold Coupled at coupled ⊢
  generalize m₁.run s₁ = r₁ at coupled ⊢
  generalize m₂.run s₂ = r₂ at coupled ⊢
  cases coupled with
  | some related => exact .some (implies _ _ _ _ related)
  | none => exact .none

/-- Sequencing. -/
theorem Coupled.bind {after : β₁ → S₁ → β₂ → S₂ → Prop} {k₁ : α₁ → StateT S₁ Option β₁}
    {k₂ : α₂ → StateT S₂ Option β₂} (coupled : Coupled rel m₁ s₁ m₂ s₂)
    (rest : ∀ a₁ t₁ a₂ t₂, rel a₁ t₁ a₂ t₂ → Coupled after (k₁ a₁) t₁ (k₂ a₂) t₂) :
    Coupled after (m₁ >>= k₁) s₁ (m₂ >>= k₂) s₂ := by
  unfold Coupled at coupled
  show Option.Rel _ ((m₁.run s₁).bind fun p => (k₁ p.1).run p.2)
    ((m₂.run s₂).bind fun p => (k₂ p.1).run p.2)
  generalize m₁.run s₁ = r₁ at coupled
  generalize m₂.run s₂ = r₂ at coupled
  cases coupled with
  | some related => exact rest _ _ _ _ related
  | none => exact .none

end Coupling
