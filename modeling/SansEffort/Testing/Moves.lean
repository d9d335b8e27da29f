import SansEffort.Testing.Runner
import SansEffort.Library.Transition
import Mathlib.Data.List.MinMax
import Mathlib.Logic.Relation

/-!
# What an iteration does

An iteration is a chain of moves of the world, whatever the code and the schedule do. An invariant
of a run is kept by each move.
-/

namespace SansEffort.Testing

variable {G E D : Type}

/-! ### Picking -/

/-- An index that is offered is one of an action, and of an effect that no older one of its machine
waits before. -/
theorem mem_eligible_go {seen : List Nat} {i : Nat} {ready : List (Action E D)} {pick : Nat}
    (offered : pick ∈ eligible.go seen i ready) :
    ∃ j action, pick = i + j ∧ ready[j]? = some action ∧ ∀ who e, action = .effect who e →
      who ∉ seen ∧ ∀ e', .effect who e' ∉ ready.take j := by
  induction ready generalizing seen i with
  | nil => cases offered
  | cons first rest ih =>
    -- an index further on, among those seen a machine `who` of the first action at most
    have later : ∀ {seen'}, pick ∈ eligible.go seen' (i + 1) rest →
        (∀ who ∈ seen, who ∈ seen') → (∀ who e, first = .effect who e → who ∈ seen') →
        ∃ j action, pick = i + j ∧ (first :: rest)[j]? = some action ∧
          ∀ who e, action = .effect who e →
            who ∉ seen ∧ ∀ e', .effect who e' ∉ (first :: rest).take j := by
      intro seen' offered grown known
      obtain ⟨j, action, rfl, there, oldest⟩ := ih offered
      refine ⟨j + 1, action, by omega, there, fun who e same => ?_⟩
      obtain ⟨unseen, older⟩ := oldest who e same
      refine ⟨fun member => unseen (grown who member), fun e' member => ?_⟩
      rcases List.mem_cons.mp member with here | there
      · exact unseen (known who e' here.symm)
      · exact older e' there
    cases first with
    | effect who e =>
      unfold eligible.go at offered
      split at offered
      · next member =>
        refine later offered (fun _ => id) ?_
        rintro who' e' ⟨⟩
        exact member
      · next fresh =>
        rcases List.mem_cons.mp offered with rfl | offered
        · refine ⟨0, _, rfl, rfl, ?_⟩
          rintro who' e' ⟨⟩
          exact ⟨fresh, by simp⟩
        · refine later offered (fun who member => List.mem_append_left _ member) ?_
          rintro who' e' ⟨⟩
          exact List.mem_append_right _ (List.mem_singleton_self _)
    | reply who deliver =>
      rcases List.mem_cons.mp offered with rfl | offered
      · exact ⟨0, _, rfl, rfl, by simp⟩
      · exact later offered (fun _ => id) (by simp)
    | resume who =>
      rcases List.mem_cons.mp offered with rfl | offered
      · exact ⟨0, _, rfl, rfl, by simp⟩
      · exact later offered (fun _ => id) (by simp)

theorem eligible_ne_nil {ready : List (Action E D)} (nonempty : ready ≠ []) : eligible ready ≠ [] := by
  cases ready with
  | nil => exact absurd rfl nonempty
  | cons first rest => cases first <;> simp [eligible, eligible.go]

/-- What the schedule chooses is offered, if anything is. -/
theorem pick_mem {offered : List Nat} (nonempty : offered ≠ []) (choice : Nat) :
    ((offered[choice]?).or offered.getLast?).getD 0 ∈ offered := by
  cases chosen : offered[choice]? with
  | some pick => exact List.mem_of_getElem? chosen
  | none =>
    rw [Option.none_or, List.getLast?_eq_some_getLast nonempty]
    exact List.getLast_mem nonempty

/-! ### Moves -/

namespace World

/-- A poll of a running machine, from its call until its effects are ready. -/
def ran (w : World E D) (who : Nat) (woke : List Nat) (poll : Poll) (yielded : Yield E)
    (outstanding : Nat) : World E D :=
  ((woke.foldl wakeUp (w.clear who)).setMachine who (.polled poll outstanding)
    yielded.effects).pushEffects who yielded

inductive Move : World E D → World E D → Prop
  | woke (w : World E D) (who : Nat) : Move w (w.wakeUp who)
  | drained (w : World E D) : Move w w.takeWoken
  | freed (w : World E D) (who : Nat) (m : Machine) : w.machine who = some m →
      Move w { w with
        machines := w.machines.set who none, timers := w.timers.filter (·.who ≠ who) }
  /-- A machine runs: resumed for no reason, or by a reply, which may have held it woken. -/
  | polled (w w' : World E D) (who : Nat) (m : Machine) (woke woke' : List Nat) (poll : Poll)
      (yielded : Yield E) (outstanding : Nat) : w.machine who = some m → m.future = true →
      w' = w ∨ w' = woke'.foldl wakeUp (w.hold who) →
      Move w (w'.ran who woke poll yielded outstanding)
  /-- A reply to a machine that has completed. -/
  | unheard (w : World E D) (who : Nat) (m : Machine) (woke : List Nat) : w.machine who = some m →
      m.future = false → Move w (woke.foldl wakeUp (w.hold who))
  | handed (w : World E D) (pick who : Nat) (effect : E) : pick ∈ eligible w.ready →
      w.ready[pick]? = some (.effect who effect) →
      Move w { w with
        ready := w.ready.eraseIdx pick, log := w.log ++ [.handed who effect] }
  | replied (w : World E D) (pick who : Nat) (deliver : D) :
      w.ready[pick]? = some (.reply who deliver) →
      Move w { w with ready := w.ready.eraseIdx pick }
  | resumed (w : World E D) (pick who : Nat) (m : Machine) (woke : List Nat) (poll : Poll)
      (yielded : Yield E) (outstanding : Nat) : w.ready[pick]? = some (.resume who) →
      w.machine who = some m → m.future = true →
      Move w ({ w with ready := w.ready.eraseIdx pick }.ran who woke poll yielded outstanding)
  /-- A resume of a machine that was killed or has completed. -/
  | ignored (w : World E D) (pick who : Nat) : w.ready[pick]? = some (.resume who) →
      (∀ m, w.machine who = some m → m.future = false) →
      Move w { w with ready := w.ready.eraseIdx pick }
  | acted (w : World E D) (who : Nat) (a : Act D) : Move w (w.act who a)
  | fired (w w' : World E D) : w.ready = [] → w.fireNextTimer = some w' → Move w w'

/-- One world is made of another by moves. -/
abbrev Moves : World E D → World E D → Prop := Relation.ReflTransGen Move

theorem moves_wakeUp (w : World E D) (woke : List Nat) : Moves w (woke.foldl wakeUp w) := by
  induction woke generalizing w with
  | nil => exact .refl
  | cons who rest ih => exact .head (.woke w who) (ih (w.wakeUp who))

theorem moves_act (w : World E D) (who : Nat) (acts : List (Act D)) :
    Moves w (acts.foldl (fun w a => w.act who a) w) := by
  induction acts generalizing w with
  | nil => exact .refl
  | cons a rest ih => exact .head (.acted w who a) (ih (w.act who a))

/-- Waking changes neither the machines nor what is ready. -/
theorem wakeUp_same (w : World E D) (who : Nat) :
    (w.wakeUp who).machines = w.machines ∧ (w.wakeUp who).ready = w.ready ∧
      (w.wakeUp who).timers = w.timers := by
  unfold wakeUp
  split <;> exact ⟨rfl, rfl, rfl⟩

theorem foldl_wakeUp_same (w : World E D) (woke : List Nat) :
    (woke.foldl wakeUp w).machines = w.machines ∧ (woke.foldl wakeUp w).ready = w.ready ∧
      (woke.foldl wakeUp w).timers = w.timers := by
  induction woke generalizing w with
  | nil => exact ⟨rfl, rfl, rfl⟩
  | cons who rest ih =>
    obtain ⟨machines, ready, timers⟩ := ih (w.wakeUp who)
    obtain ⟨machines', ready', timers'⟩ := wakeUp_same w who
    exact ⟨machines.trans machines', ready.trans ready', timers.trans timers'⟩

theorem resumes_iff (who : Nat) (action : Action E D) :
    takeWoken.resumes who action = true ↔ action = .resume who := by
  cases action with
  | effect m e => simp [takeWoken.resumes]
  | reply m d => simp [takeWoken.resumes]
  | resume m => simp [takeWoken.resumes]

/-- Each of them is to be resumed, if it was not already. -/
theorem foldl_resumes (woken : List Nat) (w : World E D) : ∃ added : List Nat,
    woken.foldl (fun w who => if w.ready.any (takeWoken.resumes who) then w
      else { w with ready := w.ready ++ [.resume who] }) w =
        { w with ready := w.ready ++ added.map .resume } ∧
      ∀ who ∈ woken, .resume who ∈ w.ready ++ added.map .resume := by
  induction woken generalizing w with
  | nil => exact ⟨[], by simp, by simp⟩
  | cons first rest ih =>
    rw [List.foldl_cons]
    split
    -- it was to be resumed already
    · next there =>
      obtain ⟨added, same, resumed⟩ := ih w
      refine ⟨added, same, fun who member => ?_⟩
      rcases List.mem_cons.mp member with rfl | member
      · obtain ⟨action, already, its⟩ := List.any_eq_true.mp there
        rw [(resumes_iff _ _).mp its] at already
        exact List.mem_append_left _ already
      · exact resumed who member
    · obtain ⟨added, same, resumed⟩ := ih { w with ready := w.ready ++ [.resume first] }
      have grown : w.ready ++ (first :: added).map Action.resume =
          w.ready ++ [.resume first] ++ added.map .resume := by simp
      refine ⟨first :: added, ?_, fun who member => ?_⟩
      · rw [same, grown]
      · rw [grown]
        rcases List.mem_cons.mp member with rfl | member
        · simp
        · exact resumed who member

/-- Who woke is to be resumed, behind what was ready. -/
theorem takeWoken_spec (w : World E D) : ∃ added : List Nat,
    w.takeWoken = { w with ready := w.ready ++ added.map .resume, woken := [] } ∧
      ∀ who ∈ w.woken, .resume who ∈ w.takeWoken.ready := by
  obtain ⟨added, same, resumed⟩ := w.foldl_resumes w.woken
  have taken : w.takeWoken = { w with ready := w.ready ++ added.map .resume, woken := [] } := by
    unfold takeWoken
    rw [same]
  refine ⟨added, taken, ?_⟩
  rw [taken]
  exact resumed

theorem fireNextTimer_spec {w w' : World E D} (fired : w.fireNextTimer = some w') :
    ∃ next timer, w.timers[next]? = some timer ∧ w' = { w with
      timers := w.timers.eraseIdx next
      now := max w.now timer.due
      ready := w.ready ++ [.reply timer.who timer.deliver]
      log := w.log ++ [.fired timer.serial] } := by
  unfold fireNextTimer at fired
  split at fired
  · cases fired
  · next i _ =>
    split at fired
    · cases fired
    · next timer there => exact ⟨i, timer, there, (Option.some.inj fired).symm⟩

/-- A timer fires if there is one. -/
theorem timers_of_unfired {w : World E D} (unfired : w.fireNextTimer = none) : w.timers = [] := by
  by_contra unset
  obtain ⟨first, least⟩ := Option.ne_none_iff_exists'.mp
    fun empty => unset ((List.argmin_eq_none (f := Timer.due)).mp empty)
  have member := List.argmin_mem least
  have due : w.timers.all (first.due ≤ ·.due) = true := by
    rw [List.all_eq_true]
    intro other there
    exact decide_eq_true (List.le_of_mem_argmin there least)
  unfold fireNextTimer at unfired
  split at unfired
  · next missing =>
    have not := List.findIdx?_eq_none_iff.mp missing first member
    rw [due] at not
    cases not
  · next i found =>
    split at unfired
    · next missing =>
      have low := (List.findIdx?_eq_some_iff_getElem.mp found).1
      have := List.getElem?_eq_none_iff.mp missing
      omega
    · cases unfired

/-- The reply of a timer that fires is ready. -/
theorem ready_of_fired {w w' : World E D} (fired : w.fireNextTimer = some w') : w'.ready ≠ [] := by
  obtain ⟨next, timer, _, rfl⟩ := fireNextTimer_spec fired
  simp

theorem foldl_wakeUp_machine (w : World E D) (woke : List Nat) (who : Nat) :
    (woke.foldl wakeUp w).machine who = w.machine who := by
  unfold machine
  rw [(foldl_wakeUp_same w woke).1]

end World

namespace State

variable {code : Code G E D} {s : State G E D}

/-! ### Each call -/

@[simp] theorem call_world {α : Type} (s : State G E D) (f : Call G α) :
    (s.call f).1.world = (f s.shared).2.1.foldl World.wakeUp s.world := rfl

@[simp] theorem call_result {α : Type} (s : State G E D) (f : Call G α) :
    (s.call f).1.result = s.result := rfl

theorem call_moves {α : Type} (s : State G E D) (f : Call G α) :
    World.Moves s.world (s.call f).1.world := World.moves_wakeUp _ _

theorem call_machine {α : Type} (s : State G E D) (f : Call G α) (who : Nat) :
    (s.call f).1.world.machine who = s.world.machine who :=
  World.foldl_wakeUp_machine _ _ who

theorem call_ready {α : Type} (s : State G E D) (f : Call G α) :
    (s.call f).1.world.ready = s.world.ready := by
  rw [call_world, (World.foldl_wakeUp_same _ _).2.1]

/-- A machine that has completed is not polled; one that runs is. -/
theorem poll_world (code : Code G E D) (s : State G E D) (who : Nat) (m : Machine) :
    m.future = false ∧ (s.poll code who m).1 = s ∧ (s.poll code who m).2 = ⟨[], []⟩ ∨
      m.future = true ∧ ∃ woke poll yielded outstanding, (s.poll code who m).2 = yielded ∧
        ((s.poll code who m).1.pushEffects who yielded).world =
          s.world.ran who woke poll yielded outstanding := by
  cases future : m.future with
  | false =>
    unfold poll
    rw [if_pos future]
    exact .inl ⟨rfl, rfl, rfl⟩
  | true =>
    unfold poll
    rw [if_neg (by simp [future])]
    exact .inr ⟨rfl, _, _, _, _, rfl, rfl⟩

theorem pushEffects_nil (s : State G E D) (who : Nat) : s.pushEffects who ⟨[], []⟩ = s := by
  unfold pushEffects World.pushEffects
  simp

theorem poll_moves (code : Code G E D) (s : State G E D) {who : Nat} {m : Machine}
    (there : s.world.machine who = some m) :
    World.Moves s.world ((s.poll code who m).1.pushEffects who (s.poll code who m).2).world := by
  obtain ⟨_, same, silent⟩ | ⟨future, woke, poll, yielded, outstanding, step, after⟩ :=
    poll_world code s who m
  · rw [same, silent, pushEffects_nil]
  · rw [step, after]
    exact .single (.polled _ _ who m woke [] poll yielded outstanding there future (.inl rfl))

theorem reply_moves (code : Code G E D) (s : State G E D) {who : Nat} {m : Machine} (deliver : D)
    (there : s.world.machine who = some m) :
    World.Moves s.world
      ((s.reply code who m deliver).1.pushEffects who (s.reply code who m deliver).2).world := by
  have called := call_moves s (code.deliver who deliver)
  have there' : (s.call (code.deliver who deliver)).1.world.machine who = some m :=
    (call_machine _ _ _).trans there
  unfold reply
  generalize s.call (code.deliver who deliver) = after at called there'
  obtain ⟨s', delivery⟩ := after
  cases delivery with
  | gone =>
    dsimp only
    rw [pushEffects_nil]
    exact called
  | delivered kept =>
    cases kept with
    | false => exact called.trans (poll_moves code s' there')
    | true =>
      -- the machine is held woken until it is polled
      dsimp only
      generalize woken : { s' with world := s'.world.hold who }.call (code.wake who deliver) = held
      obtain ⟨s'', _⟩ := held
      have world : s''.world =
          (code.wake who deliver s'.shared).2.1.foldl World.wakeUp (s'.world.hold who) :=
        (congrArg (fun p => p.1.world) woken).symm
      obtain ⟨done, same, silent⟩ | ⟨future, woke, poll, yielded, outstanding, step, after⟩ :=
        poll_world code s'' who m
      · rw [same, silent, pushEffects_nil, world]
        exact called.tail (.unheard _ who m _ there' done)
      · rw [step, after, world]
        exact called.tail (.polled _ _ who m woke _ poll yielded outstanding there' future (.inr rfl))

/-! ### An iteration -/

theorem kill_moves (code : Code G E D) (s : State G E D) (who : Nat) :
    World.Moves s.world (s.kill code who).1.world := by
  unfold kill
  split
  · exact .refl
  · next m there =>
    exact .head (.freed s.world who m there) (World.moves_wakeUp _ _)

theorem killing_moves (code : Code G E D) (s : State G E D) :
    World.Moves s.world (s.killing code).1.world := by
  have called := call_moves s (code.kill s.world.machines.length)
  unfold killing
  generalize s.call (code.kill s.world.machines.length) = after at called
  obtain ⟨s', victim⟩ := after
  cases victim with
  | none => exact called
  | some who =>
    have killed := called.trans (kill_moves code s' who)
    dsimp only
    generalize s'.kill code who = after at killed
    obtain ⟨s'', running⟩ := after
    cases running <;> exact killed

theorem stuttering_moves (code : Code G E D) (s : State G E D) :
    World.Moves s.world (s.stuttering code).1.world := by
  have called := call_moves s (code.stutter s.world.machines.length)
  unfold stuttering
  generalize s.call (code.stutter s.world.machines.length) = after at called
  obtain ⟨s', victim⟩ := after
  cases victim with
  | none => exact called
  | some who =>
    dsimp only
    split
    · exact called
    · next m there => exact called.trans (poll_moves code s' there)

/-- What was picked is taken from the list and done. -/
theorem take_moves (code : Code G E D) (s : State G E D) {pick : Nat} {action : Action E D}
    (picked : s.world.ready[pick]? = some action) (offered : pick ∈ eligible s.world.ready) :
    World.Moves s.world
      ({ s with world := { s.world with ready := s.world.ready.eraseIdx pick } }.take code action).world := by
  cases action with
  | effect who effect =>
    exact .head (.handed s.world pick who effect offered picked) (World.moves_act _ who _)
  | reply who deliver =>
    refine .head (.replied s.world pick who deliver picked) ?_
    unfold take
    dsimp only
    split
    · exact call_moves
        { s with world := { s.world with ready := s.world.ready.eraseIdx pick } } (code.discard deliver)
    · next m there =>
      exact reply_moves code
        { s with world := { s.world with ready := s.world.ready.eraseIdx pick } } deliver there
  | resume who =>
    unfold take
    dsimp only
    split
    · next gone =>
      refine .single (.ignored s.world pick who picked fun m there => ?_)
      cases there.symm.trans gone
    · next m there =>
      obtain ⟨done, same, silent⟩ | ⟨future, woke, poll, yielded, outstanding, step, after⟩ :=
        poll_world code { s with world := { s.world with ready := s.world.ready.eraseIdx pick } } who m
      · rw [same, silent, pushEffects_nil]
        refine .single (.ignored s.world pick who picked fun m' there' => ?_)
        obtain rfl := Option.some.inj (there'.symm.trans there)
        exact done
      · rw [step, after]
        exact .single (.resumed s.world pick who m woke poll yielded outstanding picked there future)

theorem picking_moves (code : Code G E D) (s : State G E D) (nonempty : s.world.ready ≠ []) :
    World.Moves s.world (s.picking code).world := by
  have called := call_moves s (code.next (eligible s.world.ready).length)
  have ready := call_ready s (code.next (eligible s.world.ready).length)
  unfold picking
  dsimp only
  split
  · exact called
  · next action picked =>
    refine called.trans (take_moves code _ picked ?_)
    rw [ready]
    exact pick_mem (eligible_ne_nil nonempty) _

theorem turn_moves (code : Code G E D) (s : State G E D) :
    World.Moves s.world (s.turn code).world := by
  have drained : World.Moves s.world s.world.takeWoken := .single (.drained s.world)
  have killed := drained.trans (killing_moves code { s with world := s.world.takeWoken })
  unfold turn
  dsimp only
  generalize State.killing code { s with world := s.world.takeWoken } = after at killed
  obtain ⟨s', ended⟩ := after
  cases ended with
  | true => exact killed
  | false =>
    have stuttered := killed.trans (stuttering_moves code s')
    dsimp only
    generalize s'.stuttering code = after at stuttered
    obtain ⟨s'', ended⟩ := after
    cases ended with
    | true => exact stuttered
    | false =>
      dsimp only
      split
      · next empty =>
        split
        · exact stuttered
        · next world fired =>
          have moved := stuttered.tail (.fired _ world (List.isEmpty_iff.mp empty) fired)
          refine moved.trans (picking_moves code { s'' with world } ?_)
          exact World.ready_of_fired fired
      · next filled => exact stuttered.trans (picking_moves code s'' (by simpa using filled))

/-! ### How a run ends -/

theorem poll_result (code : Code G E D) (s : State G E D) (who : Nat) (m : Machine) :
    (s.poll code who m).1.result = s.result := by
  unfold poll
  split <;> rfl

theorem reply_result (code : Code G E D) (s : State G E D) (who : Nat) (m : Machine) (deliver : D) :
    (s.reply code who m deliver).1.result = s.result := by
  have called := call_result s (code.deliver who deliver)
  unfold reply
  generalize s.call (code.deliver who deliver) = after at called
  obtain ⟨s', delivery⟩ := after
  cases delivery with
  | gone => exact called
  | delivered kept =>
    cases kept with
    | false => exact (poll_result code s' who m).trans called
    | true => exact (poll_result code _ who m).trans called

theorem take_result (code : Code G E D) (s : State G E D) (action : Action E D) :
    (s.take code action).result = s.result := by
  unfold take
  cases action with
  | effect who effect => rfl
  | reply who deliver =>
    dsimp only
    split
    · rfl
    · exact reply_result code s who _ deliver
  | resume who =>
    dsimp only
    split
    · rfl
    · exact poll_result code s who _

/-- The index removed from `ready` exists. -/
theorem picking_result (code : Code G E D) (s : State G E D) (nonempty : s.world.ready ≠ []) :
    (s.picking code).result = s.result := by
  have ready := call_ready s (code.next (eligible s.world.ready).length)
  have offered := pick_mem (eligible_ne_nil nonempty)
    (s.call (code.next (eligible s.world.ready).length)).2
  obtain ⟨j, action, at_pick, there, _⟩ := mem_eligible_go offered
  rw [Nat.zero_add] at at_pick
  unfold picking
  dsimp only
  rw [ready, at_pick, there]
  exact take_result code _ action

theorem killing_result (code : Code G E D) (s : State G E D) :
    (s.killing code).1.result = s.result := by
  have called := call_result s (code.kill s.world.machines.length)
  unfold killing
  generalize s.call (code.kill s.world.machines.length) = after at called
  obtain ⟨s', victim⟩ := after
  cases victim with
  | none => exact called
  | some who =>
    have killed : (s'.kill code who).1.result = s'.result := by
      unfold kill
      split <;> rfl
    dsimp only
    generalize s'.kill code who = after at killed
    obtain ⟨s'', running⟩ := after
    cases running <;> exact killed.trans called

theorem stuttering_result (code : Code G E D) (s : State G E D) :
    (s.stuttering code).1.result = s.result := by
  have called := call_result s (code.stutter s.world.machines.length)
  unfold stuttering
  generalize s.call (code.stutter s.world.machines.length) = after at called
  obtain ⟨s', victim⟩ := after
  cases victim with
  | none => exact called
  | some who =>
    dsimp only
    split
    · exact called
    · exact (poll_result code s' who _).trans called

/-- An iteration goes on with the run, or finds nothing ready and no timer, having neither killed a
running machine nor stuttered. -/
theorem turn_result (code : Code G E D) (s : State G E D) (going : s.result = none) :
    (s.turn code).result = none ∨
      ∃ s' s'', State.killing code { s with world := s.world.takeWoken } = (s', false) ∧
        s'.stuttering code = (s'', false) ∧ s''.world.ready = [] ∧
        s''.world.fireNextTimer = none ∧ s.turn code = s''.finished := by
  have killed := (killing_result code { s with world := s.world.takeWoken }).trans going
  unfold turn
  dsimp only
  generalize State.killing code { s with world := s.world.takeWoken } = after at killed
  obtain ⟨s', ended⟩ := after
  cases ended with
  | true => exact .inl killed
  | false =>
    have stuttered := (stuttering_result code s').trans killed
    dsimp only
    generalize stutters : s'.stuttering code = after at stuttered
    obtain ⟨s'', ended⟩ := after
    cases ended with
    | true => exact .inl stuttered
    | false =>
      dsimp only
      split
      · next empty =>
        split
        · next unset =>
          exact .inr ⟨s', s'', rfl, stutters, List.isEmpty_iff.mp empty, unset, rfl⟩
        · next world fired =>
          refine .inl ((picking_result code { s'' with world } ?_).trans stuttered)
          exact World.ready_of_fired fired
      · next filled =>
        exact .inl ((picking_result code s'' (by simpa using filled)).trans stuttered)

end State

/-! ### Runs -/

/-- The run has returned. -/
structure State.Ended (s : State G E D) : Prop where
  ready : s.world.ready = []
  timers : s.world.timers = []
  result : s.result = s.finished.result

theorem State.ended_run {code : Code G E D} {shared : G} {root : Machine} {wakeup : Wakeup Nat}
    {actions : List Unit} {s : State G E D}
    (ran : Transition.run (State.step code) (State.start shared root wakeup) actions = some s)
    (returned : s.result.isSome) : s.Ended := by
  refine Transition.run_invariant (fun s : State G E D => s.result.isSome → s.Ended)
    (fun s _ next _ stepped returned => ?_) (by simp [State.start]) ran returned
  unfold State.step at stepped
  split at stepped
  · cases stepped
  · next going =>
    obtain rfl := Option.some.inj stepped
    obtain none | ⟨s', s'', _, _, ready, unfired, same⟩ :=
      State.turn_result code s (by simpa using going)
    · rw [none] at returned
      cases returned
    · rw [same]
      exact ⟨ready, World.timers_of_unfired unfired, rfl⟩

/-- What each move keeps, an iteration keeps. -/
theorem kept_by_turn {code : Code G E D} (holds : World E D → Prop)
    (kept : ∀ w w', holds w → World.Move w w' → holds w') {s : State G E D} (held : holds s.world) :
    holds (s.turn code).world := by
  have moves := State.turn_moves code s
  generalize (s.turn code).world = after at moves
  induction moves with
  | refl => exact held
  | tail _ move ih => exact kept _ _ ih move

/-- What each move keeps, a run keeps. -/
theorem kept_by_run {code : Code G E D} (holds : World E D → Prop)
    (kept : ∀ w w', holds w → World.Move w w' → holds w') {s s' : State G E D} {actions : List Unit}
    (initial : holds s.world) (ran : Transition.run (State.step code) s actions = some s') :
    holds s'.world := by
  refine Transition.run_invariant (fun s => holds s.world) (fun s _ next held stepped => ?_) initial ran
  unfold State.step at stepped
  split at stepped
  · cases stepped
  · obtain rfl := Option.some.inj stepped
    exact kept_by_turn holds kept held

end SansEffort.Testing
