import SansEffort.Spurious

/-!
# What a poll comes to

A poll takes a routine through its code until it awaits what is not there. What it awaits stands
within frames: the code that goes on once it returns. Where a routine comes to await a task of its
own, it holds no request, and none is open.
-/

namespace SansEffort

variable {E H M S L W : Type} {own : Waker}

open Coupling

/-! ### Frames -/

/-- A task, and the code that goes on with what it returns, outermost first. -/
def Task.within (task : Task E M S L own) : List (Out M → Task E M S L own) → Task E M S L own
  | [] => task
  | next :: frames => .bind (task.within frames) next

def Fut.within (future : Fut E M S L own) : List (Out M → Task E M S L own) → Fut E M S L own
  | [] => future
  | next :: frames => .bind (future.within frames) next

/-- What is suspended within frames stays there while it does not return. -/
theorem poll_within_pending (src : Source E M S L W own) (frames : List (Out M → Task E M S L own))
    {future left : Fut E M S L own} {before after : Shared E H × W}
    (polled : (future.poll src own).run before = some (.pending left, after)) :
    ((future.within frames).poll src own).run before = some (.pending (left.within frames), after) := by
  induction frames with
  | nil => exact polled
  | cons next frames ih =>
    unfold Fut.within Fut.poll
    rw [StateT.run_bind, ih]
    rfl

/-- Once the inner future returns, the frames go on with its result. -/
theorem poll_within_ready (src : Source E M S L W own) (frames : List (Out M → Task E M S L own))
    {future : Fut E M S L own} {result : Out M} {before after : Shared E H × W}
    (polled : (future.poll src own).run before = some (.ready result, after)) :
    ((future.within frames).poll src own).run before =
      (((Task.ret result).within frames).begin src own).run after := by
  induction frames with
  | nil => exact polled
  | cons next frames ih =>
    show _ = ((Task.bind ((Task.ret result).within frames) next).begin src own).run after
    rw [Fut.within, Fut.poll, StateT.run_bind, ih, Task.begin, Task.begin, Task.beginWith,
      StateT.run_bind]
    rfl

/-! ### Coming to await a task -/

section

variable (src : Source E M S L W own) (awaited : Task E M S L own) (goal : Shared E H × W)

/-- A task that is begun comes to await `awaited`, in the state `goal`. Its parts may call each
other as deep as the number says. -/
inductive Task.Reaches : Nat → Task E M S L own → Shared E H × W →
    List (Out M → Task E M S L own) → Prop
  | here (depth : Nat) : Reaches depth awaited goal []
  | begun {depth : Nat} {first : Task E M S L own} {next : Out M → Task E M S L own} {result : Out M}
      {before middle : Shared E H × W} {frames : List (Out M → Task E M S L own)}
      (ran : (first.beginWith (src.callTo own depth) src.places own).run before =
        some (.ready result, middle))
      (rest : Reaches depth (next result) middle frames) : Reaches depth (.bind first next) before frames
  | within {depth : Nat} {first : Task E M S L own} {next : Out M → Task E M S L own}
      {before : Shared E H × W} {frames : List (Out M → Task E M S L own)}
      (inner : Reaches depth first before frames) :
      Reaches depth (.bind first next) before (next :: frames)
  | called {depth : Nat} {name : L} {before : Shared E H × W}
      {frames : List (Out M → Task E M S L own)} (inner : Reaches depth (src.code name) before frames) :
      Reaches (depth + 1) (.call name) before frames

/-- A later poll comes to it, once what was awaited before has returned. -/
inductive Fut.Reaches : Fut E M S L own → Shared E H × W → List (Out M → Task E M S L own) → Prop
  | polled {first : Fut E M S L own} {next : Out M → Task E M S L own} {result : Out M}
      {before middle : Shared E H × W} {frames : List (Out M → Task E M S L own)}
      (ran : (first.poll src own).run before = some (.ready result, middle))
      (rest : Task.Reaches src awaited goal src.depth (next result) middle frames) :
      Reaches (.bind first next) before frames
  | within {first : Fut E M S L own} {next : Out M → Task E M S L own} {before : Shared E H × W}
      {frames : List (Out M → Task E M S L own)} (inner : Reaches first before frames) :
      Reaches (.bind first next) before (next :: frames)

inductive Stage.Reaches : Stage E M S L own → Shared E H × W → List (Out M → Task E M S L own) → Prop
  | fresh {task : Task E M S L own} {before : Shared E H × W}
      {frames : List (Out M → Task E M S L own)}
      (comes : Task.Reaches src awaited goal src.depth task before frames) :
      Reaches (.fresh task) before frames
  | running {future : Fut E M S L own} {before : Shared E H × W}
      {frames : List (Out M → Task E M S L own)}
      (comes : Fut.Reaches src awaited goal future before frames) :
      Reaches (.running future) before frames

variable {src awaited goal} {before after : Shared E H × W} {left : Fut E M S L own}
  {frames : List (Out M → Task E M S L own)}

/-- Where it awaits what does not return, there it is suspended. -/
theorem Task.Reaches.pends {depth : Nat} {task : Task E M S L own}
    (comes : Task.Reaches src awaited goal depth task before frames)
    (pends : ∀ depth, (awaited.beginWith (src.callTo own depth) src.places own).run goal =
      some (.pending left, after)) :
    (task.beginWith (src.callTo own depth) src.places own).run before =
      some (.pending (left.within frames), after) := by
  induction comes with
  | here depth => exact pends depth
  | begun ran _ ih =>
    unfold Task.beginWith
    rw [StateT.run_bind, ran]
    exact ih
  | within _ ih =>
    unfold Task.beginWith
    rw [StateT.run_bind, ih]
    rfl
  | called _ ih => exact ih

theorem Fut.Reaches.pends {future : Fut E M S L own}
    (comes : Fut.Reaches src awaited goal future before frames)
    (pends : ∀ depth, (awaited.beginWith (src.callTo own depth) src.places own).run goal =
      some (.pending left, after)) :
    (future.poll src own).run before = some (.pending (left.within frames), after) := by
  induction comes with
  | polled ran rest =>
    unfold Fut.poll
    rw [StateT.run_bind, ran]
    exact rest.pends pends
  | within _ ih =>
    unfold Fut.poll
    rw [StateT.run_bind, ih]
    rfl

theorem Stage.Reaches.pends {stage : Stage E M S L own}
    (comes : Stage.Reaches src awaited goal stage before frames)
    (pends : ∀ depth, (awaited.beginWith (src.callTo own depth) src.places own).run goal =
      some (.pending left, after)) :
    (stage.poll src own).run before = some ((.pending, .running (left.within frames)), after) := by
  unfold Stage.poll
  cases comes with
  | fresh comes =>
    have ran : (Task.begin src own _).run before = _ := comes.pends pends
    dsimp only
    rw [StateT.run_bind, ran]
    rfl
  | running comes =>
    dsimp only
    rw [StateT.run_bind, comes.pends pends]
    rfl

/-! ### What is open there -/

/-- What routines build is as it was, between their operations. -/
theorem respects_building (ids : List Nat) :
    Prog.Respects H fun o₁ o₂ : Outbox E => o₁ = o₂ ∧ o₁.Kept ∧ beingBuilt o₁.log = ids := by
  refine respects_invariant fun α p s ⟨kept, building⟩ => ?_
  obtain ⟨ran, built⟩ := p.run_spec s kept
  exact ⟨(ran.grown kept).1, built.trans building⟩

theorem Task.Reaches.building {depth : Nat} {task : Task E M S L own} {ids : List Nat}
    (comes : Task.Reaches src awaited goal depth task before frames) (kept : before.1.outbox.Kept)
    (building : beingBuilt before.1.outbox.log = ids) :
    goal.1.outbox.Kept ∧ beingBuilt goal.1.outbox.log = ids := by
  induction comes with
  | here depth => exact ⟨kept, building⟩
  | @begun depth first next result before middle frames ran _ ih =>
    have lockstep := lockstep_beginWith (H := H) (W := W) (respects_building ids)
      (lockstep_callTo (respects_building ids) src own depth) src.places own first
    obtain ⟨kept', building'⟩ := lockstep.keeps ran ⟨kept, building⟩
    exact ih kept' building'
  | within _ ih => exact ih kept building
  | called _ ih => exact ih kept building

theorem Fut.Reaches.building {future : Fut E M S L own} {ids : List Nat}
    (comes : Fut.Reaches src awaited goal future before frames) (kept : before.1.outbox.Kept)
    (building : beingBuilt before.1.outbox.log = ids) :
    goal.1.outbox.Kept ∧ beingBuilt goal.1.outbox.log = ids := by
  induction comes with
  | @polled first next result before middle frames ran rest =>
    have lockstep := lockstep_poll (H := H) (respects_building ids) src own first
    obtain ⟨kept', building'⟩ := lockstep.keeps ran ⟨kept, building⟩
    exact rest.building kept' building'
  | within _ ih => exact ih kept building

/-- On the way to it, a task leaves no request open. -/
theorem Task.Reaches.moved {depth : Nat} {task : Task E M S L own} {other : Shared E H × W}
    (comes : Task.Reaches src awaited goal depth task before frames) (beside : Beside own other before) :
    (∃ other, Beside own other goal) ∧ Outbox.Moved [] before.1.outbox goal.1.outbox [] := by
  induction comes generalizing other with
  | here depth => exact ⟨⟨other, beside⟩, .refl beside.outbox.kept₂ ⟨.nil, List.forall_mem_nil _⟩⟩
  | @begun depth first next result before middle frames ran _ ih =>
    have coupled := coupled_beginWith (alike_callTo src depth) src.places first beside
    unfold Coupled at coupled
    rw [ran] at coupled
    generalize (first.plain.beginWith _ src.places own).run other = ran' at coupled
    cases coupled with
    | some agree =>
      obtain ⟨left, moved⟩ := ih agree.beside
      exact ⟨left, agree.moved.trans moved⟩
  | within _ ih => exact ih beside
  | called _ ih => exact ih beside

theorem Fut.Reaches.moved {future : Fut E M S L own} {other : Shared E H × W}
    (comes : Fut.Reaches src awaited goal future before frames) (beside : Beside own other before)
    (holds : Outbox.Holds future.ids before.1.outbox) (armed : future.Armed before.1.outbox) :
    (∃ other, Beside own other goal) ∧ Outbox.Moved future.ids before.1.outbox goal.1.outbox [] := by
  induction comes with
  | @polled first next result before middle frames ran rest =>
    have coupled := coupled_poll src first beside holds armed
    unfold Coupled at coupled
    rw [ran] at coupled
    generalize (first.plain.poll src.plain own).run other = ran' at coupled
    cases coupled with
    | some agree =>
      obtain ⟨left, moved⟩ := rest.moved agree.beside
      exact ⟨left, agree.moved.trans moved⟩
  | within _ ih => exact ih beside holds armed

/-- Where a routine that held all there is comes to await a task, nothing is open. -/
theorem Stage.Reaches.none_open {stage : Stage E M S L own} {other : Shared E H × W}
    (comes : Stage.Reaches src awaited goal stage before frames) (beside : Beside own other before)
    (holds : Outbox.Holds stage.ids before.1.outbox) (armed : stage.Armed before.1.outbox)
    (others : ∀ id, id ∉ stage.ids → before.1.outbox.mail.lookup id = none) :
    (∃ other, Beside own other goal) ∧ ∀ id, goal.1.outbox.mail.lookup id = none := by
  have moved : (∃ other, Beside own other goal) ∧
      Outbox.Moved stage.ids before.1.outbox goal.1.outbox [] := by
    cases comes with
    | fresh comes => exact comes.moved beside
    | running comes => exact comes.moved beside holds armed
  refine ⟨moved.1, fun id => ?_⟩
  by_cases mine : id ∈ stage.ids ∨ before.1.outbox.mail.next ≤ id
  · exact moved.2.gone id mine List.not_mem_nil
  · obtain ⟨away, low⟩ := not_or.mp mine
    rw [moved.2.frame id away (by omega), others id away]

theorem Stage.Reaches.building {stage : Stage E M S L own} {ids : List Nat}
    (comes : Stage.Reaches src awaited goal stage before frames) (kept : before.1.outbox.Kept)
    (building : beingBuilt before.1.outbox.log = ids) :
    goal.1.outbox.Kept ∧ beingBuilt goal.1.outbox.log = ids := by
  cases comes with
  | fresh comes => exact comes.building kept building
  | running comes => exact comes.building kept building

end

/-! ### Drivers -/

theorem Source.routine_private (src : Source E M S L W own) :
    (src.routine : Routine (Stage E M S L own × W) E H).Private where
  poll held waker shared result after kept polled := by
    obtain ⟨⟨_, _, _⟩, ran, same⟩ := Option.map_eq_some_iff.mp polled
    cases same
    exact ((held.1.lockstep_poll (respects_building _) src waker).keeps ran ⟨kept, rfl⟩).2
  drop held shared after kept dropped := by
    obtain ⟨⟨_, _, _⟩, ran, rfl⟩ := Option.map_eq_some_iff.mp dropped
    exact ((held.1.lockstep_drop (respects_building _) src.places).keeps ran ⟨kept, rfl⟩).2
  wake held waker shared held' after _ woken := by
    have same : (if (held.1.fire waker).1 then shared.wakeUp else shared) = after :=
      congrArg Prod.snd (Option.some.inj woken)
    have outbox : after.outbox = shared.outbox := by
      rw [← same]
      split <;> rfl
    rw [outbox]

/-- The driver's outbox in the midst of a poll, with no effect half built. -/
structure Outbox.Ready (own : Waker) (o : Outbox E) : Prop where
  kept : o.Kept
  adopted : o.driverWaker = some own
  building : o.building = none
  held : o.held = []

namespace Stepper

/-- The poll that a call ends in begins in `e`. A reply that is not delivered ends in none. -/
inductive Begins (r : Routine (Stage E M S L own × W) E H) (d : Stepper (Stage E M S L own × W) E H) :
    Doing H W → Stepper (Stage E M S L own × W) E H → Prop
  | resume : Begins r d .resume d
  | reply {reply : ReplyHandle} {value : Value} {waker : Option Waker} {outbox : Outbox E}
      {e : Stepper (Stage E M S L own × W) E H}
      (delivered : d.outbox.deliver reply value = some (.delivered waker, outbox))
      (told : d.replied r waker outbox = some e) : Begins r d (.reply reply value) e

/-- In the poll that a call ends in, the routine comes to await `awaited` within `frames`, with its
outbox and its process as in `goal`. -/
def Awaits (src : Source E M S L W own) (d : Stepper (Stage E M S L own × W) E H)
    (doing : Doing H W) (awaited : Task E M S L own) (goal : Shared E H × W)
    (frames : List (Out M → Task E M S L own)) : Prop :=
  ∃ e stage world, d.Begins src.routine doing e ∧ e.future = some (stage, world) ∧
    Stage.Reaches src awaited goal stage
      ({ e.shared with wakeup := e.shared.wakeup.clear }, world) frames

variable {src : Source E M S L W own} {d e : Stepper (Stage E M S L own × W) E H} {doing : Doing H W}

theorem Begins.does (begins : d.Begins src.routine doing e) :
    d.doing src.routine doing = (e.poll src.routine).map fun (yielded, d) => (some (.ok yielded), d) := by
  cases begins with
  | resume => rfl
  | reply delivered told =>
    unfold Stepper.doing
    dsimp only
    rw [tryReply_delivered _ _ delivered, told]
    show ((e.poll src.routine).map _).map _ = _
    rw [Option.map_map]
    rfl

/-- A poll that leaves the routine suspended. -/
theorem poll_pending {stage left : Stage E M S L own} {world world' : W} {shared' : Shared E H}
    (polled : e.waker = own) (future : e.future = some (stage, world))
    (ran : (stage.poll src own).run ({ e.shared with wakeup := e.shared.wakeup.clear }, world) =
      some ((.pending, left), shared', world')) :
    e.poll src.routine = some (e.finishPoll .pending (some (left, world')) shared') := by
  have polls : src.routine.poll (stage, world) e.waker
      { e.shared with wakeup := e.shared.wakeup.clear } =
        ((stage.poll src own).run ({ e.shared with wakeup := e.shared.wakeup.clear }, world)).map
          fun p => ((p.1.1, p.1.2, p.2.2), p.2.1) := by
    rw [polled]
    rfl
  unfold Stepper.poll
  rw [future]
  dsimp only
  rw [polls, ran]
  rfl

/-- No effect is half built between the calls. -/
theorem built_run {driver : Nat} {task : Task E M S L own} {world : W} {doings : List (Doing H W)}
    (ran : Transition.run (does src.routine) (Source.start driver task world) doings = some d) :
    d.outbox.Kept ∧ beingBuilt d.outbox.log = [] := by
  apply Transition.run_invariant (fun d => d.outbox.Kept ∧ beingBuilt d.outbox.log = []) _ _ ran
  · rintro d doing d' ⟨kept, built⟩ stepped
    obtain ⟨⟨returned, _⟩, did, rfl⟩ := Option.map_eq_some_iff.mp stepped
    cases doing with
    | resume =>
      obtain ⟨⟨_, _⟩, polled, same⟩ := Option.map_eq_some_iff.mp did
      cases same
      have later := poll_later _ kept polled
      exact ⟨later.kept, (later.built src.routine_private).trans built⟩
    | reply reply value =>
      obtain ⟨⟨_, _⟩, tried, same⟩ := Option.map_eq_some_iff.mp did
      cases same
      have later := tryReply_later _ kept tried
      exact ⟨later.kept, (later.built src.routine_private).trans built⟩
    | inProcess change =>
      cases did
      have same : (d.inProcess change).outbox = d.outbox := by
        unfold inProcess
        cases d.future with
        | none => rfl
        | some part =>
          dsimp only
          split <;> rfl
      rw [same]
      exact ⟨kept, built⟩
    | wake =>
      cases did
      exact ⟨kept, built⟩
    | onWake hook =>
      cases did
      exact ⟨kept, built⟩
  · exact ⟨(Outbox.kept_new driver).adopt own, rfl⟩

theorem level_run {driver : Nat} {task : Task E M S L own} {world : W} {doings : List (Doing H W)}
    (ran : Transition.run (does src.routine) (Source.start driver task world) doings = some d) :
    ∃ other, Level other d := by
  refine Transition.run_invariant (fun d => ∃ other, Level other d) ?_ ⟨_, level_start driver task world⟩ ran
  rintro d doing d' ⟨other, level⟩ stepped
  obtain ⟨⟨returned, _⟩, did, rfl⟩ := Option.map_eq_some_iff.mp stepped
  have both := level.doing src doing
  rw [did] at both
  generalize other.doing src.plain.routine doing = did' at both
  cases both with
  | @some after _ both => exact ⟨after.2, both.2⟩

/-- As the poll begins, the routine holds all there is, and nothing is half built. -/
theorem Begins.abreast {other : Stepper (Stage E M S L own × W) E H} (level : Level other d)
    (built : beingBuilt d.outbox.log = []) (begins : d.Begins src.routine doing e) :
    (∃ other, Abreast other e) ∧ beingBuilt e.outbox.log = [] := by
  cases begins with
  | resume => exact ⟨⟨other, level.toAbreast⟩, built⟩
  | @reply reply value waker outbox _ delivered told =>
    have built' : beingBuilt outbox.log = [] := by
      obtain ⟨⟨delivery, mail⟩, _, same⟩ := Option.map_eq_some_iff.mp delivered
      cases delivery with
      | delivered waker =>
        cases same
        exact built
      | gone => cases same
      | refused reply error => cases same
    obtain ⟨_, same, _, rfl, _⟩ := d.replied_spec src waker outbox
    obtain rfl := Option.some.inj (told.symm.trans same)
    obtain ⟨_, none₂⟩ | ⟨_, gone₂⟩ | ⟨error, _, refused₂⟩ |
      ⟨waker₁, slot, o₁, o₂, _, delivered₂, twin, found, updated⟩ :=
        level.outbox.deliver reply value
    · cases delivered.symm.trans none₂
    · cases delivered.symm.trans gone₂
    · cases delivered.symm.trans refused₂
    · cases delivered.symm.trans delivered₂
      obtain ⟨e₁, told₁, _⟩ := other.replied_spec src.plain waker₁ o₁
      obtain ⟨abreast, _⟩ := level.toAbreast.replied src twin ⟨found, updated⟩ told₁ told
      exact ⟨⟨e₁, abreast⟩, built'⟩

/-- Where a driver's routine comes to await a task, nothing is open and nothing half built. -/
theorem Awaits.ready {other : Stepper (Stage E M S L own × W) E H} (level : Level other d)
    (built : beingBuilt d.outbox.log = []) {awaited : Task E M S L own} {goal : Shared E H × W}
    {frames : List (Out M → Task E M S L own)} (awaits : d.Awaits src doing awaited goal frames) :
    goal.1.outbox.Ready own ∧ ∀ id, goal.1.outbox.mail.lookup id = none := by
  obtain ⟨e, stage, world, begins, future, comes⟩ := awaits
  obtain ⟨⟨other, abreast⟩, built⟩ := begins.abreast level built
  have holding : held e.future = stage.ids := by rw [future]; rfl
  let cleared : Shared E H → Shared E H := fun shared =>
    { shared with wakeup := shared.wakeup.clear }
  have beside : Beside own (cleared other.shared, world) (cleared e.shared, world) := by
    refine ⟨abreast.outbox, ?_, abreast.hooked, rfl⟩
    show Wakeup.mk false other.shared.wakeup.hook = Wakeup.mk false e.shared.wakeup.hook
    rw [abreast.hook]
  obtain ⟨⟨_, left⟩, unopened⟩ := comes.none_open beside (holding ▸ abreast.holds)
    (abreast.armed stage world future) (holding ▸ abreast.others)
  have before : (cleared e.shared).outbox.Kept := abreast.outbox.kept₂
  obtain ⟨kept, settled⟩ := comes.building before built
  have empty := kept.nothing_waits settled
  unfold Outbox.waiting at empty
  obtain ⟨building, held⟩ := List.append_eq_nil_iff.mp empty
  exact ⟨⟨kept, left.outbox.adopted, by simpa using building, held⟩, unopened⟩

/-- The call ends where what it comes to await does not return. -/
theorem Awaits.pends {awaited : Task E M S L own} {goal after : Shared E H × W}
    {frames : List (Out M → Task E M S L own)} {left : Fut E M S L own}
    {other : Stepper (Stage E M S L own × W) E H} (level : Level other d)
    (built : beingBuilt d.outbox.log = []) (awaits : d.Awaits src doing awaited goal frames)
    (pends : ∀ depth, (awaited.beginWith (src.callTo own depth) src.places own).run goal =
      some (.pending left, after)) :
    ∃ d', d.doing src.routine doing =
        some (some (.ok ⟨after.1.outbox.effects, after.1.outbox.mail.closed⟩), d') ∧
      d'.future = some (.running (left.within frames), after.2) ∧
      d'.outbox = after.1.outbox.drain.2.2 ∧
      d'.status = Status.classify .pending after.1.outbox.mail.opened ∧ d'.waker = own := by
  obtain ⟨e, stage, world, begins, future, comes⟩ := awaits
  obtain ⟨⟨_, abreast⟩, _⟩ := begins.abreast level built
  refine ⟨(e.finishPoll .pending (some (.running (left.within frames), after.2)) after.1).2, ?_, rfl,
    rfl, rfl, abreast.polled₂⟩
  rw [begins.does, poll_pending abreast.polled₂ future (comes.pends pends)]
  rfl

end Stepper

end SansEffort
