import SansEffort.Testing.Moves

/-!
# Effects reach the handler in order

What a machine has yielded is what the handler was handed of it, and then what is ready. Only its
oldest effect that is ready may be picked, and what is removed or added leaves the others in order.
-/

namespace SansEffort.Testing

variable {G E D : Type}

/-- The effects of machine `who` that the handler was handed. -/
def handed (log : List (Event E)) (who : Nat) : List E :=
  log.filterMap fun
    | .handed m effect => if m = who then some effect else none
    | _ => none

/-- The effects that machine `who` has yielded. -/
def yielded (log : List (Event E)) (who : Nat) : List E :=
  log.flatMap fun
    | .yielded m effects => if m = who then effects else []
    | _ => []

/-- The effects of machine `who` that are ready. -/
def waiting (ready : List (Action E D)) (who : Nat) : List E :=
  ready.filterMap fun
    | .effect m effect => if m = who then some effect else none
    | _ => none

theorem handed_append (log log' : List (Event E)) (who : Nat) :
    handed (log ++ log') who = handed log who ++ handed log' who := List.filterMap_append ..

theorem yielded_append (log log' : List (Event E)) (who : Nat) :
    yielded (log ++ log') who = yielded log who ++ yielded log' who := List.flatMap_append ..

theorem waiting_append (ready ready' : List (Action E D)) (who : Nat) :
    waiting (ready ++ ready') who = waiting ready who ++ waiting ready' who := List.filterMap_append ..

theorem waiting_effects (m who : Nat) (effects : List E) :
    waiting (effects.map (Action.effect (D := D) m)) who = if m = who then effects else [] := by
  unfold waiting
  rw [List.filterMap_map]
  by_cases same : m = who
  · simp [same]
  · simp [same]

theorem eq_take_append {α : Type*} {l : List α} {i : Nat} {a : α} (there : l[i]? = some a) :
    l = l.take i ++ a :: l.drop (i + 1) := by
  obtain ⟨low, rfl⟩ := List.getElem?_eq_some_iff.mp there
  rw [← List.drop_eq_getElem_cons low, List.take_append_drop]

/-- Of an action that is picked, the older ones that are ready hold no effect of its machine. -/
theorem waiting_pick {ready : List (Action E D)} {pick who : Nat} {effect : E}
    (offered : pick ∈ eligible ready) (picked : ready[pick]? = some (.effect who effect)) (m : Nat) :
    waiting ready m =
      (if who = m then [effect] else []) ++ waiting (ready.eraseIdx pick) m := by
  obtain ⟨j, action, at_pick, there, oldest⟩ := mem_eligible_go offered
  obtain rfl : pick = j := by omega
  obtain rfl := Option.some.inj (picked.symm.trans there)
  rw [List.eraseIdx_eq_take_drop_succ, waiting_append]
  conv_lhs => rw [eq_take_append picked, waiting_append]
  by_cases same : who = m
  · have older : waiting (ready.take pick) m = [] := by
      rw [← same]
      unfold waiting
      rw [List.filterMap_eq_nil_iff]
      intro a member
      cases a with
      | effect m' e =>
        by_cases its : m' = who
        · rw [its] at member
          exact absurd member ((oldest who effect rfl).2 e)
        · exact if_neg its
      | reply | resume => rfl
    rw [older, if_pos same, ← same]
    simp [waiting]
  · rw [if_neg same]
    simp [waiting, same]

/-- Another action is removed. -/
theorem waiting_erase {ready : List (Action E D)} {pick : Nat} {action : Action E D}
    (picked : ready[pick]? = some action) (other : ∀ who effect, action ≠ .effect who effect)
    (m : Nat) : waiting (ready.eraseIdx pick) m = waiting ready m := by
  rw [List.eraseIdx_eq_take_drop_succ, waiting_append]
  conv_rhs => rw [eq_take_append picked, waiting_append]
  cases action with
  | effect who effect => exact absurd rfl (other who effect)
  | reply | resume => rfl

namespace World

/-- What was yielded is what was handed on, and then what is ready; and so it was at every
moment. -/
structure InOrder (w : World E D) : Prop where
  rest : ∀ who, yielded w.log who = handed w.log who ++ waiting w.ready who
  always : ∀ earlier, earlier <+: w.log → ∀ who, handed earlier who <+: yielded earlier who

variable {w w' : World E D}

/-- At most one event is noted. -/
theorem InOrder.next (inOrder : w.InOrder) (log : w'.log = w.log ∨ ∃ event, w'.log = w.log ++ [event])
    (rest : ∀ who, yielded w'.log who = handed w'.log who ++ waiting w'.ready who) : w'.InOrder := by
  refine ⟨rest, fun earlier before who => ?_⟩
  rcases log with same | ⟨event, noted⟩
  · exact inOrder.always earlier (same ▸ before) who
  · rw [noted] at before
    rcases List.prefix_concat_iff.mp before with rfl | before
    · rw [← noted]
      exact ⟨_, (rest who).symm⟩
    · exact inOrder.always earlier before who

/-- Nothing is yielded or handed on, and no effect becomes ready. -/
theorem InOrder.kept (inOrder : w.InOrder)
    (log : w'.log = w.log ∨ ∃ event, w'.log = w.log ++ [event] ∧
      ∀ who, handed [event] who = [] ∧ yielded [event] who = [])
    (ready : ∀ who, waiting w'.ready who = waiting w.ready who) : w'.InOrder := by
  apply inOrder.next (log.imp_right fun ⟨event, noted, _⟩ => ⟨event, noted⟩)
  intro who
  rw [ready]
  rcases log with same | ⟨event, noted, quiet⟩
  · rw [same]
    exact inOrder.rest who
  · rw [noted, yielded_append, handed_append, (quiet who).1, (quiet who).2, List.append_nil,
      List.append_nil]
    exact inOrder.rest who

theorem InOrder.wakeUp (inOrder : w.InOrder) (who : Nat) : (w.wakeUp who).InOrder := by
  unfold World.wakeUp
  split
  · exact inOrder
  · exact inOrder.kept (.inr ⟨_, rfl, fun _ => ⟨rfl, rfl⟩⟩) fun _ => rfl

theorem InOrder.woken (inOrder : w.InOrder) (woke : List Nat) :
    (woke.foldl World.wakeUp w).InOrder := by
  induction woke generalizing w with
  | nil => exact inOrder
  | cons who rest ih => exact ih (inOrder.wakeUp who)

theorem InOrder.adopt (inOrder : w.InOrder) (m : Machine) (wakeup : Wakeup Nat) :
    (w.adopt m wakeup).InOrder := by
  refine inOrder.kept ?_ fun who => (waiting_append w.ready _ who).trans (List.append_nil _)
  unfold World.adopt
  dsimp only
  split
  · exact .inr ⟨_, rfl, fun _ => ⟨rfl, rfl⟩⟩
  · exact .inl rfl

theorem InOrder.hold (inOrder : w.InOrder) (who : Nat) : (w.hold who).InOrder :=
  inOrder.kept (.inl rfl) fun _ => rfl

/-- A poll's effects are ready behind those that are. -/
theorem InOrder.ran (inOrder : w.InOrder) (who : Nat) (woke : List Nat) (poll : Poll)
    (step : Yield E) (outstanding : Nat) : (w.ran who woke poll step outstanding).InOrder := by
  have cleared : (w.clear who).InOrder :=
    inOrder.kept (.inr ⟨_, rfl, fun _ => ⟨rfl, rfl⟩⟩) fun _ => rfl
  have before := cleared.woken woke
  refine before.next (.inr ⟨.yielded who step.effects, rfl⟩) fun m => ?_
  show yielded (_ ++ [_]) m = handed (_ ++ [_]) m ++ waiting (_ ++ _) m
  rw [yielded_append, handed_append, waiting_append, waiting_effects, before.rest]
  simp [yielded, handed, setMachine]

theorem InOrder.move (inOrder : w.InOrder) (move : w.Move w') : w'.InOrder := by
  cases move with
  | woke who => exact inOrder.wakeUp who
  | drained =>
    obtain ⟨added, taken, _⟩ := takeWoken_spec w
    rw [taken]
    refine inOrder.kept (.inl rfl) fun who => (waiting_append w.ready _ who).trans ?_
    -- a resume is no effect
    have nothing : waiting (added.map (Action.resume (E := E) (D := D))) who = [] := by
      unfold waiting
      rw [List.filterMap_map]
      exact List.filterMap_eq_nil_iff.mpr fun _ _ => rfl
    rw [nothing, List.append_nil]
  | freed who m _ => exact inOrder.kept (.inl rfl) fun _ => rfl
  | polled w₀ who m woke woke' poll step outstanding _ _ either =>
    -- a turn may begin with its machine being woken
    have held : w₀.InOrder := by
      rcases either with rfl | rfl
      · exact inOrder
      · exact (inOrder.hold who).woken woke'
    exact held.ran who woke poll step outstanding
  | unheard who m woke _ _ =>
    exact (inOrder.hold who).woken woke
  | handed pick who effect offered picked =>
    -- the machine's oldest effect goes from those waiting to those handed
    refine inOrder.next (.inr ⟨_, rfl⟩) fun m => ?_
    show yielded (_ ++ [_]) m = Testing.handed (_ ++ [_]) m ++ waiting (w.ready.eraseIdx pick) m
    rw [yielded_append, handed_append, inOrder.rest, waiting_pick offered picked]
    by_cases same : who = m <;> simp [yielded, Testing.handed, same]
  | replied pick who deliver picked =>
    exact inOrder.kept (.inl rfl) fun m => waiting_erase picked (by simp) m
  | resumed pick who m woke poll step outstanding picked _ _ =>
    have erased : ({ w with ready := w.ready.eraseIdx pick } : World E D).InOrder :=
      inOrder.kept (.inl rfl) fun m => waiting_erase picked (by simp) m
    exact erased.ran who woke poll step outstanding
  | ignored pick who picked _ =>
    exact inOrder.kept (.inl rfl) fun m => waiting_erase picked (by simp) m
  | acted who a =>
    cases a with
    | reply deliver =>
      exact inOrder.kept (.inl rfl) fun m => (waiting_append w.ready _ m).trans (List.append_nil _)
    | replyAfter delay deliver => exact inOrder.kept (.inr ⟨_, rfl, fun _ => ⟨rfl, rfl⟩⟩) fun _ => rfl
    | spawn => exact inOrder.adopt _ _
    | spawnPinned => exact inOrder.adopt _ _
    | wake other => exact inOrder.wakeUp other
  | fired _ _ fired =>
    obtain ⟨next, timer, _, rfl⟩ := fireNextTimer_spec fired
    exact inOrder.kept (.inr ⟨_, rfl, fun _ => ⟨rfl, rfl⟩⟩) fun m =>
      (waiting_append w.ready _ m).trans (List.append_nil _)

theorem inOrder_start (root : Machine) (wakeup : Wakeup Nat) :
    (adopt (⟨[], [], [], 0, [], [], 0, []⟩ : World E D) root wakeup).InOrder :=
  InOrder.adopt ⟨fun _ => rfl, fun earlier before who => by
    rw [List.prefix_nil.mp before]
    exact List.prefix_refl _⟩ root wakeup

end World

/-- At every moment of a run the effects of a machine that the handler was handed are the first of
those it has yielded; and when the run returns, they are all of them. -/
theorem effects_reach_the_handler_in_order (code : Code G E D) (shared : G) (root : Machine)
    (wakeup : Wakeup Nat) (actions : List Unit) (s : State G E D)
    (ran : Transition.run (State.step code) (State.start shared root wakeup) actions = some s)
    (who : Nat) :
    (∀ earlier, earlier <+: s.world.log → handed earlier who <+: yielded earlier who) ∧
      (s.result.isSome → handed s.world.log who = yielded s.world.log who) := by
  have inOrder := kept_by_run World.InOrder (fun _ _ => World.InOrder.move)
    (World.inOrder_start root wakeup) ran
  refine ⟨fun earlier before => inOrder.always earlier before who, fun returned => ?_⟩
  have empty := (State.ended_run ran returned).ready
  rw [inOrder.rest, empty]
  exact (List.append_nil _).symm

/-- A root that says two things and returns, under a schedule that takes the newest action. -/
def sayer : Code Unit Nat Unit where
  poll _ g := (g, [], .ready, ⟨[1, 2], []⟩, 0)
  deliver _ _ g := (g, [], .gone)
  wake _ _ g := (g, [], ())
  discard _ g := (g, [], ())
  free _ _ g := (g, [], ())
  handle _ _ _ g := (g, [])
  next ready g := (g, [], ready)
  stutter _ g := (g, [], none)
  kill _ g := (g, [], none)

theorem effects_reach_the_handler_in_order_newest :
    ∃ s, Transition.run (State.step sayer) (State.start () .new .new) [(), (), (), ()] = some s ∧
      handed s.world.log 0 = [1, 2] ∧ handed s.world.log 0 = yielded s.world.log 0 := by
  refine ⟨_, rfl, rfl, ?_⟩
  exact (effects_reach_the_handler_in_order sayer () .new .new [(), (), (), ()] _ rfl 0).2 rfl

end SansEffort.Testing
