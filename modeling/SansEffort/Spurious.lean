import SansEffort.Woken
import Mathlib.Data.List.ReduceOption

/-!
# Spurious resumes

What a poll leaves suspended has no reply to find: each of its requests was polled in vain, and a
reply comes from outside the poll. Polled again, it only looks again, and nothing changes but what
is noted of that.
-/

namespace SansEffort

variable {E H M S L W : Type} {own : Waker}

open Coupling

/-! ### Routines of asks -/

/-- The task is made of tells, asks, sequencing, `join` and `select`, and of parts of the same
kind. -/
def Task.OfAsks : Task E M S L own → Prop
  | .ret _ => True
  | .tell _ => True
  | .ask adapter _ _ => adapter = none
  | .receive _ => False
  | .bind first next => first.OfAsks ∧ ∀ result, (next result).OfAsks
  | .join a b => a.OfAsks ∧ b.OfAsks
  | .select a b => a.OfAsks ∧ b.OfAsks
  | .call _ => True

def Fut.OfAsks : Fut E M S L own → Prop
  | .asked awaited _ => awaited = none
  | .receiving _ => False
  | .bind first next => first.OfAsks ∧ ∀ result, (next result).OfAsks
  | .joinBoth a b => a.OfAsks ∧ b.OfAsks
  | .joinLeft a _ => a.OfAsks
  | .joinRight _ b => b.OfAsks
  | .select a b => a.OfAsks ∧ b.OfAsks

/-- A future of asks has no wakers of its own. -/
theorem Fut.OfAsks.fire {future : Fut E M S L own} (asks : future.OfAsks) (waker : Waker) :
    future.fire waker = (false, future) := by
  induction future with
  | asked awaited id =>
    obtain rfl : awaited = none := asks
    rfl
  | receiving place => exact absurd asks id
  | bind first next ih => simp only [Fut.fire, ih asks.1]
  | joinBoth a b ihA ihB => simp only [Fut.fire, ihA asks.1, ihB asks.2, Bool.or_self]
  | joinLeft a y ih => simp only [Fut.fire, ih asks]
  | joinRight x b ih => simp only [Fut.fire, ih asks]
  | select a b ihA ihB => simp only [Fut.fire, ihA asks.1, ihB asks.2, Bool.or_self]

/-! ### What is left suspended -/

/-- No reply is there for request `id`. -/
def Outbox.Unanswered (o : Outbox E) (id : Nat) : Prop := (life id o.log).value = none

/-- The routine's side does not reply to a request. -/
theorem Outbox.Unanswered.step {o next : Outbox E} {id : Nat} (unanswered : o.Unanswered id)
    {op : Op E} (side : op.byRoutine = true) (stepped : o.step op = some next) :
    next.Unanswered id := by
  -- of the routine's own happenings, none gives a request its value
  have kept : ∀ event : Event E, event.byRoutine = true →
      ((life id o.log).step id event).value = none := by
    intro event side
    unfold Unanswered at unanswered
    obtain ⟨_, _, rfl, opened⟩ | ⟨_, rfl, _⟩ | ⟨_, rfl, collected⟩ | ⟨rfl, dropped⟩ | ⟨same, _⟩ :=
      Life.step_cases id (life id o.log) event
    · rw [opened]
      rfl
    · cases side
    · rw [collected, Life.collect_of_value_none unanswered, unanswered]
    · rw [dropped]
      cases life id o.log <;> rfl
    · rw [same, unanswered]
  unfold Unanswered
  -- each operation adds one happening, and it is the routine's
  cases op with
  | tell effect =>
    cases stepped
    rw [tell_log]
    exact kept _ rfl
  | mint =>
    cases stepped
    rw [mint_log]
    exact kept _ rfl
  | openRequest i effect answer =>
    obtain ⟨_, same⟩ := Option.ite_none_right_eq_some.mp stepped
    rw [← Option.some.inj same, openRequest_log]
    exact kept _ rfl
  | unreserve i =>
    obtain ⟨_, same⟩ := Option.ite_none_right_eq_some.mp stepped
    rw [← Option.some.inj same, unreserve_log]
    exact kept _ rfl
  | collect i waker =>
    cases stepped
    exact kept _ rfl
  | close i =>
    cases stepped
    exact kept _ rfl
  | deliver => cases side
  | drain => cases side

theorem Outbox.Ran.unanswered {o o' : Outbox E} (ran : Outbox.Ran o o') {id : Nat}
    (unanswered : o.Unanswered id) : o'.Unanswered id := by
  obtain ⟨ops, side, ran⟩ := ran
  induction ops generalizing o with
  | nil =>
    cases ran
    exact unanswered
  | cons op ops ih =>
    obtain ⟨next, stepped, rest⟩ := Option.bind_eq_some_iff.mp ran
    have next := unanswered.step (side op List.mem_cons_self) stepped
    exact ih next (fun op member => side op (List.mem_cons_of_mem _ member)) rest

/-- A future of asks, none of which has its reply. -/
structure Fut.Rests (o : Outbox E) (future : Fut E M S L own) : Prop where
  asks : future.OfAsks
  unanswered : ∀ id ∈ future.ids, o.Unanswered id

def Polled.Rests (o : Outbox E) : Polled E M S L own → Prop
  | .ready _ => True
  | .pending future => future.Rests o

theorem Polled.Rests.later {o o' : Outbox E} {polled : Polled E M S L own} (rests : polled.Rests o)
    (ran : Outbox.Ran o o') : polled.Rests o' := by
  cases polled with
  | ready result => trivial
  | pending future =>
    obtain ⟨asks, unanswered⟩ := rests
    exact ⟨asks, fun id member => ran.unanswered (unanswered id member)⟩

theorem Polled.Rests.join {o : Outbox E} {x y : Polled E M S L own} (left : x.Rests o)
    (right : y.Rests o) : (x.join y).Rests o := by
  cases x with
  | ready x =>
    cases y with
    | ready y => trivial
    | pending b => exact ⟨right.asks, right.unanswered⟩
  | pending a =>
    cases y with
    | ready y => exact ⟨left.asks, left.unanswered⟩
    | pending b =>
      refine ⟨⟨left.asks, right.asks⟩, fun id member => ?_⟩
      rcases List.mem_append.mp member with mine | mine
      · exact left.unanswered id mine
      · exact right.unanswered id mine

/-- What it leaves suspended has no reply to find. -/
def Polling.Rests (act : Polling E H W (Polled E M S L own)) : Prop :=
  ∀ before polled after, before.1.outbox.Kept → act.run before = some (polled, after) →
    polled.Rests after.1.outbox

/-- What follows may depend on what was returned. -/
theorem Polling.Rests.bind {α : Type} {act : Polling E H W α}
    {next : α → Polling E H W (Polled E M S L own)} (runs : act.Runs)
    (rest : ∀ before a middle, act.run before = some (a, middle) → (next a).Rests) :
    (act >>= next).Rests := by
  intro before polled after kept ran
  obtain ⟨⟨a, middle⟩, one, two⟩ := Option.bind_eq_some_iff.mp ran
  exact rest before a middle one middle polled after ((runs _ _ _ kept one).grown kept).1 two

theorem rests_ready (result : Out M) :
    (pure (.ready result) : Polling E H W (Polled E M S L own)).Rests := by
  intro before polled after _ ran
  cases ran
  trivial

/-- The side of a `join` that is polled first is left as it is by the other's poll. -/
theorem rests_join {m n : Polling E H W (Polled E M S L own)} (runs : m.Runs) (rests : m.Rests)
    (runs' : n.Runs) (rests' : n.Rests) :
    (do let x ← m; let y ← n; return x.join y : Polling E H W (Polled E M S L own)).Rests := by
  intro before polled after kept ran
  obtain ⟨⟨x, middle⟩, one, ran⟩ := Option.bind_eq_some_iff.mp ran
  obtain ⟨⟨y, last⟩, two, ran⟩ := Option.bind_eq_some_iff.mp ran
  cases ran
  have kept' := ((runs _ _ _ kept one).grown kept).1
  exact .join ((rests _ _ _ kept one).later (runs' _ _ _ kept' two)) (rests' _ _ _ kept' two)

/-- The first side of a `select` is left as it is by the other's poll, if both are left. -/
theorem rests_select {m n : Polling E H W (Polled E M S L own)} {d : Polling E H W Unit}
    (places : Places W M) (runs : m.Runs) (rests : m.Rests) (runs' : n.Runs) (rests' : n.Rests) :
    (do
      match ← m with
      | .ready x =>
        d
        return .ready (.left x)
      | .pending a =>
        match ← n with
        | .ready y =>
          a.drop places
          return .ready (.right y)
        | .pending b => return .pending (.select a b) : Polling E H W (Polled E M S L own)).Rests := by
  -- a side that is ready ends the `select`, and there is nothing to rest
  have ready : ∀ {d : Polling E H W Unit} {result : Out M},
      (do d; return .ready result : Polling E H W (Polled E M S L own)).Rests := by
    intro d result before polled after _ ran
    obtain ⟨_, _, ran⟩ := Option.bind_eq_some_iff.mp ran
    cases ran
    trivial
  intro before polled after kept ran
  obtain ⟨⟨x, middle⟩, one, ran⟩ := Option.bind_eq_some_iff.mp ran
  have kept' := ((runs _ _ _ kept one).grown kept).1
  cases x with
  | ready x => exact ready middle polled after kept' ran
  | pending a =>
    obtain ⟨⟨y, last⟩, two, ran⟩ := Option.bind_eq_some_iff.mp ran
    have ran' := runs' _ _ _ kept' two
    cases y with
    | ready y => exact ready last polled after (ran'.grown kept').1 ran
    | pending b =>
      cases ran
      -- the right side was polled after the left, which rests all the same
      have left : (Polled.pending a).Rests after.1.outbox := (rests _ _ _ kept one).later ran'
      have right := rests' _ _ _ kept' two
      refine ⟨⟨left.asks, right.asks⟩, fun id member => ?_⟩
      rcases List.mem_append.mp member with mine | mine
      · exact left.unanswered id mine
      · exact right.unanswered id mine

/-- A request awaited directly is looked for at every poll. -/
theorem run_pollAsked (waker : Waker) (id : Nat) (shared : Shared E H) (world : W) :
    (pollAsked waker none id : Polling E H W (Polled E M S L own)).run (shared, world) =
      some (match (shared.outbox.collect id waker).1 with
        | some value => (.ready (.reply value),
            { shared with outbox := (shared.outbox.collect id waker).2.close id }, world)
        | none => (.pending (.asked none id),
            { shared with outbox := (shared.outbox.collect id waker).2 }, world)) := by
  unfold pollAsked Awaited.poll
  dsimp only
  rw [StateT.run_bind, Polling.run_code]
  simp only [Prog.run]
  cases (shared.outbox.collect id waker).1 <;> rfl

theorem rests_pollAsked (waker : Waker) (id : Nat) :
    (pollAsked waker none id : Polling E H W (Polled E M S L own)).Rests := by
  intro before polled after kept ran
  have looked := (kept.collect id waker).2
  rw [show before = (before.1, before.2) from rfl, run_pollAsked] at ran
  cases found : (before.1.outbox.collect id waker).1 with
  | none =>
    rw [found] at ran looked
    cases ran
    refine ⟨rfl, fun other member => ?_⟩
    obtain rfl := List.mem_singleton.mp member
    have side : (Outbox.Op.collect (E := E) other waker).byRoutine = true := rfl
    exact Outbox.Unanswered.step looked.symm side rfl
  | some value =>
    rw [found] at ran
    cases ran
    trivial

theorem rests_firstPoll (waker : Waker) {lazily : Polling E H W (Polled E M S L own)}
    (rests : lazily.Rests) (early : Option (Awaited S own × Nat))
    (direct : ∀ awaited id, early = some (awaited, id) → awaited = none) :
    (firstPoll waker lazily early).Rests := by
  cases early with
  | none => exact rests
  | some early =>
    obtain ⟨awaited, id⟩ := early
    obtain rfl := direct awaited id rfl
    exact rests_pollAsked waker id

/-- An ask awaited directly is recorded as one. -/
theorem direct_intoFuture {task : Task E M S L own} (asks : task.OfAsks)
    {before after : Shared E H × W} {early : Option (Awaited S own × Nat)}
    (ran : task.intoFuture.run before = some (early, after)) :
    ∀ awaited id, early = some (awaited, id) → awaited = none := by
  intro awaited id same
  cases task
  case ask adapter answer make =>
    obtain rfl : adapter = none := asks
    obtain ⟨_, _, ran⟩ := Option.bind_eq_some_iff.mp ran
    cases ran
    cases same
    rfl
  all_goals
    cases ran
    cases same

/-- A routine whose parts are made of asks. -/
def Source.OfAsks (src : Source E M S L W own) : Prop := ∀ name, (src.code name).OfAsks

theorem runs_intoFuture (task : Task E M S L own) :
    (task.intoFuture : Polling E H W (Option (Awaited S own × Nat))).Runs :=
  Polling.runs_of_lockstep fun o => lockstep_intoFuture (respects_ran o) task

theorem runs_firstPoll (waker : Waker) {lazily : Polling E H W (Polled E M S L own)}
    (lockstep : ∀ o, lazily.Lockstep fun o₁ o₂ => o₁ = o₂ ∧ o₁.Kept ∧ Outbox.Ran o o₁)
    (early : Option (Awaited S own × Nat)) : (firstPoll waker lazily early).Runs :=
  Polling.runs_of_lockstep fun o => lockstep_firstPoll (respects_ran o) waker (lockstep o) early

theorem rests_beginWith {call : L → Polling E H W (Polled E M S L own)}
    (lockstep : ∀ o name, (call name).Lockstep fun o₁ o₂ => o₁ = o₂ ∧ o₁.Kept ∧ Outbox.Ran o o₁)
    (calls : ∀ name, (call name).Rests) (places : Places W M) (waker : Waker)
    (task : Task E M S L own) (asks : task.OfAsks) : (task.beginWith call places waker).Rests := by
  -- two runs from one state are one run, as the operations of the outbox go
  have steps : ∀ (task : Task E M S L own) (o : Outbox E), (task.beginWith call places waker).Lockstep
      fun o₁ o₂ => o₁ = o₂ ∧ o₁.Kept ∧ Outbox.Ran o o₁ :=
    fun task o => lockstep_beginWith (respects_ran o) (lockstep o) places waker task
  -- by induction on the task: the parts that a combinator polls rest, and then so does it
  induction task with
  | ret result => exact rests_ready result
  | tell effect =>
    exact .bind (Polling.runs_of_lockstep fun o => lockstep_code (respects_ran o) _) fun _ _ _ _ => rests_ready _
  | ask adapter answer make =>
    obtain rfl : adapter = none := asks
    refine .bind (Polling.runs_of_lockstep fun o => lockstep_record (respects_ran o) answer make) ?_
    exact fun _ id _ _ => rests_pollAsked waker id
  -- no part of a task of asks receives
  | receive place => exact absurd asks id
  | bind first next ihFirst ihNext =>
    unfold Task.beginWith
    intro before polled after kept ran
    obtain ⟨⟨p, middle⟩, one, ran⟩ := Option.bind_eq_some_iff.mp ran
    have kept' := ((Polling.runs_of_lockstep (steps first) _ _ _ kept one).grown kept).1
    cases p with
    | ready result => exact ihNext result (asks.2 result) middle polled after kept' ran
    | pending future =>
      cases ran
      obtain ⟨mine, unanswered⟩ := ihFirst asks.1 before _ _ kept one
      exact ⟨⟨mine, asks.2⟩, unanswered⟩
  | join a b ihA ihB =>
    refine .bind (runs_intoFuture a) fun _ early _ recorded => ?_
    refine .bind (runs_intoFuture b) fun _ late _ recorded' => ?_
    exact rests_join (runs_firstPoll waker (steps a) early)
      (rests_firstPoll waker (ihA asks.1) early (direct_intoFuture asks.1 recorded))
      (runs_firstPoll waker (steps b) late)
      (rests_firstPoll waker (ihB asks.2) late (direct_intoFuture asks.2 recorded'))
  | select a b ihA ihB =>
    refine .bind (runs_intoFuture a) fun _ early _ recorded => ?_
    refine .bind (runs_intoFuture b) fun _ late _ recorded' => ?_
    exact rests_select places (runs_firstPoll waker (steps a) early)
      (rests_firstPoll waker (ihA asks.1) early (direct_intoFuture asks.1 recorded))
      (runs_firstPoll waker (steps b) late)
      (rests_firstPoll waker (ihB asks.2) late (direct_intoFuture asks.2 recorded'))
  | call name => exact calls name

theorem rests_callTo {src : Source E M S L W own} (asks : src.OfAsks) (waker : Waker) (depth : Nat)
    (name : L) : (src.callTo waker depth name : Polling E H W (Polled E M S L own)).Rests := by
  induction depth generalizing name with
  | zero =>
    intro before polled after _ ran
    cases ran
  | succ depth ih =>
    exact rests_beginWith (fun o => lockstep_callTo (respects_ran o) src waker depth) ih src.places
      waker (src.code name) (asks name)

theorem rests_begin {src : Source E M S L W own} (asks : src.OfAsks) (waker : Waker)
    {task : Task E M S L own} (mine : task.OfAsks) :
    (task.begin src waker : Polling E H W (Polled E M S L own)).Rests :=
  rests_beginWith (fun o => lockstep_callTo (respects_ran o) src waker src.depth)
    (rests_callTo asks waker src.depth) src.places waker task mine

theorem rests_poll {src : Source E M S L W own} (asks : src.OfAsks) (waker : Waker)
    {future : Fut E M S L own} (mine : future.OfAsks) :
    (future.poll src waker : Polling E H W (Polled E M S L own)).Rests := by
  have runs : ∀ future : Fut E M S L own,
      (future.poll src waker : Polling E H W (Polled E M S L own)).Runs :=
    fun future => Polling.runs_of_lockstep fun o => lockstep_poll (respects_ran o) src waker future
  -- a side of a `join` that has finished
  have joined : ∀ {m : Polling E H W (Polled E M S L own)} (f : Polled E M S L own → Polled E M S L own),
      m.Rests → (∀ p o, p.Rests o → (f p).Rests o) → (do let p ← m; return f p).Rests := by
    intro m f rests joins before polled after kept ran
    obtain ⟨⟨p, middle⟩, one, ran⟩ := Option.bind_eq_some_iff.mp ran
    cases ran
    exact joins p _ (rests _ _ _ kept one)
  induction future with
  | asked awaited id =>
    obtain rfl : awaited = none := mine
    exact rests_pollAsked waker id
  | receiving place => exact absurd mine id
  | bind first next ih =>
    intro before polled after kept ran
    obtain ⟨⟨p, middle⟩, one, ran⟩ := Option.bind_eq_some_iff.mp ran
    have kept' := ((runs first _ _ _ kept one).grown kept).1
    cases p with
    | ready result => exact rests_begin asks waker (mine.2 result) middle polled after kept' ran
    | pending future =>
      cases ran
      obtain ⟨first, unanswered⟩ := ih mine.1 before _ _ kept one
      exact ⟨⟨first, mine.2⟩, unanswered⟩
  | joinBoth a b ihA ihB => exact rests_join (runs a) (ihA mine.1) (runs b) (ihB mine.2)
  | joinLeft a y ih => exact joined (·.join (.ready y)) (ih mine) fun _ _ rests => rests.join trivial
  | joinRight x b ih =>
    exact joined (Polled.join (.ready x)) (ih mine) fun _ _ rests => .join trivial rests
  | select a b ihA ihB =>
    exact rests_select src.places (runs a) (ihA mine.1) (runs b) (ihB mine.2)

/-! ### Polled again -/

/-- A request polled in vain with the driver's own waker leaves the mailbox as it was. -/
theorem Mail.Shape.collect_again {m : Mail} (shape : m.Shape) {id : Nat}
    (missing : (m.collect id none).1 = none) : m.collect id none = (none, m) := by
  unfold Mail.collect at missing ⊢
  obtain ⟨place, slot, found, element, isOpen, _, _⟩ | ⟨found, _, _⟩ := shape.position_bind id
  · rw [found] at missing ⊢
    dsimp only at missing ⊢
    split
    · next arrived =>
      rw [if_pos arrived, (shape.take element isOpen).1] at missing
      rw [missing] at arrived
      cases arrived
    · rfl
  · rw [found]

theorem Outbox.Kept.collect_again {o : Outbox E} (kept : o.Kept) (adopted : o.driverWaker = some own)
    {id : Nat} (unanswered : o.Unanswered id) :
    o.collect id own = (none, o.noting (.collected id none)) := by
  have missing := (kept.collect id own).2.trans unanswered
  have looked : o.collect id own = ((o.mail.collect id none).1,
      { o with mail := (o.mail.collect id none).2 }.noting (.collected id (o.mail.collect id none).1)) := by
    unfold Outbox.collect
    simp [adopted]
  rw [looked] at missing ⊢
  rw [kept.mail.shape.collect_again missing]

/-- A poll with no reply there leaves the future as it is, and changes only the log. -/
def Fut.Looks (src : Source E M S L W own) (world : W) (future : Fut E M S L own)
    (shared : Shared E H) : Prop :=
  shared.outbox.Kept → shared.outbox.driverWaker = some own →
    (∀ id ∈ future.ids, shared.outbox.Unanswered id) → ∃ log,
      (future.poll src own).run (shared, world) = some (.pending future,
        { shared with outbox := { shared.outbox with log } }, world)

/-- Two futures, one after the other. -/
theorem Fut.Looks.both {src : Source E M S L W own} {world : W} {a b : Fut E M S L own}
    (looksA : ∀ shared : Shared E H, a.Looks src world shared)
    (looksB : ∀ shared : Shared E H, b.Looks src world shared) {shared : Shared E H}
    (kept : shared.outbox.Kept) (adopted : shared.outbox.driverWaker = some own)
    (unanswered : ∀ id ∈ a.ids ++ b.ids, shared.outbox.Unanswered id) : ∃ middle log,
      (a.poll src own).run (shared, world) = some (.pending a, middle, world) ∧
        (b.poll src own).run (middle, world) = some (.pending b,
          { shared with outbox := { shared.outbox with log } }, world) := by
  obtain ⟨log, ran⟩ := looksA shared kept adopted fun id member =>
    unanswered id (List.mem_append_left _ member)
  -- the first poll answers nothing the second looks for
  have runs := Polling.runs_of_lockstep (fun o => lockstep_poll (respects_ran o) src own a)
    (shared, world) _ _ kept ran
  obtain ⟨log', ran'⟩ := looksB _ (runs.grown kept).1 adopted fun id member =>
    runs.unanswered (unanswered id (List.mem_append_right _ member))
  exact ⟨_, log', ran, ran'⟩

theorem Fut.OfAsks.looks (src : Source E M S L W own) {future : Fut E M S L own}
    (asks : future.OfAsks) (world : W) (shared : Shared E H) : future.Looks src world shared := by
  induction future generalizing shared with
  | asked awaited id =>
    intro kept adopted unanswered
    obtain rfl : awaited = none := asks
    have looked := kept.collect_again adopted (unanswered id List.mem_cons_self)
    refine ⟨.collected id none :: shared.outbox.log, ?_⟩
    show (pollAsked own none id).run (shared, world) = _
    rw [run_pollAsked, looked]
    rfl
  | receiving place => exact absurd asks id
  | bind first next ih =>
    intro kept adopted unanswered
    obtain ⟨log, ran⟩ := ih asks.1 shared kept adopted unanswered
    refine ⟨log, ?_⟩
    unfold Fut.poll
    rw [StateT.run_bind, ran]
    rfl
  | joinBoth a b ihA ihB =>
    intro kept adopted unanswered
    obtain ⟨middle, log, ran, ran'⟩ :=
      Looks.both (ihA asks.1) (ihB asks.2) kept adopted unanswered
    refine ⟨log, ?_⟩
    unfold Fut.poll
    rw [StateT.run_bind, ran]
    simp only [Option.bind_eq_bind, Option.bind_some]
    rw [StateT.run_bind, ran']
    rfl
  | joinLeft a y ih =>
    intro kept adopted unanswered
    obtain ⟨log, ran⟩ := ih asks shared kept adopted unanswered
    refine ⟨log, ?_⟩
    unfold Fut.poll
    rw [StateT.run_bind, ran]
    rfl
  | joinRight x b ih =>
    intro kept adopted unanswered
    obtain ⟨log, ran⟩ := ih asks shared kept adopted unanswered
    refine ⟨log, ?_⟩
    unfold Fut.poll
    rw [StateT.run_bind, ran]
    rfl
  | select a b ihA ihB =>
    intro kept adopted unanswered
    obtain ⟨middle, log, ran, ran'⟩ :=
      Looks.both (ihA asks.1) (ihB asks.2) kept adopted unanswered
    refine ⟨log, ?_⟩
    unfold Fut.poll
    rw [StateT.run_bind, ran]
    simp only [Option.bind_eq_bind, Option.bind_some]
    rw [StateT.run_bind, ran']
    rfl

/-- A future that rests, polled again, looks again. -/
theorem poll_again (src : Source E M S L W own) {future : Fut E M S L own} {shared : Shared E H}
    (world : W) (kept : shared.outbox.Kept) (adopted : shared.outbox.driverWaker = some own)
    (rests : future.Rests shared.outbox) : ∃ log,
      (future.poll src own).run (shared, world) = some (.pending future,
        { shared with outbox := { shared.outbox with log } }, world) :=
  rests.1.looks src world shared kept adopted rests.2

/-! ### The driver -/

theorem Outbox.unreserve_driverWaker (o : Outbox E) (id : Nat) :
    (o.unreserve id).driverWaker = o.driverWaker := by
  unfold Outbox.unreserve
  dsimp only
  split <;> rfl

/-- The routine's side leaves the driver's waker alone. -/
theorem Prog.run_driverWaker {α : Type} (p : Prog E α) (s : Shared E H) :
    (p.run s).2.outbox.driverWaker = s.outbox.driverWaker := by
  induction p generalizing s with
  | ret a => rfl
  | tell effect next ih => exact (ih _).trans (Outbox.record_driverWaker s.outbox _)
  | ask answer make next ihMake ihNext =>
    have minted : s.outbox.mint.2.driverWaker = s.outbox.driverWaker :=
      Outbox.record_driverWaker { s.outbox with mail := s.outbox.mail.mint.2 } _
    have made := (ihMake s.outbox.mint.1 { s with outbox := s.outbox.mint.2 }).trans minted
    simp only [Prog.run]
    generalize (make s.outbox.mint.1).run { s with outbox := s.outbox.mint.2 } = built at made
    obtain ⟨effect, t⟩ := built
    cases effect with
    | some effect =>
      exact ((ihNext _ _).trans (Outbox.openRequest_driverWaker t.outbox _ effect answer)).trans made
    | none => exact ((ihNext _ _).trans (Outbox.unreserve_driverWaker t.outbox _)).trans made
  | collect id waker next ih => exact ih _ _
  | close id next ih => exact ih _
  | wake next ih => exact ih _

theorem respects_adopted (own : Waker) :
    Prog.Respects H (E := E) fun o₁ o₂ => o₁ = o₂ ∧ o₁.driverWaker = some own :=
  respects_invariant fun _ p s adopted => (p.run_driverWaker s).trans adopted

def Stage.OfAsks : Stage E M S L own → Prop
  | .fresh task => task.OfAsks
  | .running future => future.OfAsks
  | .done => False

/-- A routine of asks, as its driver polls it. -/
structure Composed (d : Stepper (Stage E M S L own × W) E H) : Prop where
  kept : d.outbox.Kept
  adopted : d.outbox.driverWaker = some own
  polled : d.waker = own
  asks : ∀ stage world, d.future = some (stage, world) → stage.OfAsks

/-- A routine that has been polled, and rests. -/
structure Resting (d : Stepper (Stage E M S L own × W) E H) (future : Fut E M S L own) : Prop where
  rests : future.Rests d.outbox
  effects : d.outbox.effects = []
  closed : d.outbox.mail.closed = []
  status : d.status = Status.classify .pending d.outbox.mail.opened

/-- Between the host's calls: the routine has not been polled, or has completed, or rests. -/
structure Calm (d : Stepper (Stage E M S L own × W) E H) : Prop extends Composed d where
  rests : ∀ future world, d.future = some (.running future, world) → Resting d future

/-- The routine has been polled. -/
def Begun (d : Stepper (Stage E M S L own × W) E H) : Prop :=
  ∀ task world, d.future ≠ some (.fresh task, world)

/-- A stage of asks returns, or is left resting. -/
theorem Stage.OfAsks.poll {src : Source E M S L W own} (asks : src.OfAsks)
    {stage stage' : Stage E M S L own} (mine : stage.OfAsks) {shared shared' : Shared E H}
    {world world' : W} {poll : Poll} (kept : shared.outbox.Kept)
    (polled : (stage.poll src own).run (shared, world) = some ((poll, stage'), shared', world')) :
    poll = .ready ∧ stage' = .done ∨
      poll = .pending ∧ ∃ future, stage' = .running future ∧ future.Rests shared'.outbox := by
  have ended : ∀ {act : Polling E H W (Polled E M S L own)}, act.Rests →
      (act >>= fun
        | .ready _ => pure (.ready, .done)
        | .pending future => pure (.pending, Stage.running future)).run (shared, world) =
          some ((poll, stage'), shared', world') →
      poll = .ready ∧ stage' = .done ∨
        poll = .pending ∧ ∃ future, stage' = .running future ∧ future.Rests shared'.outbox := by
    intro act rests ran
    obtain ⟨⟨p, middle⟩, one, ran⟩ := Option.bind_eq_some_iff.mp ran
    have left := rests _ _ _ kept one
    cases p with
    | ready result =>
      cases ran
      exact .inl ⟨rfl, rfl⟩
    | pending future =>
      cases ran
      exact .inr ⟨rfl, future, rfl, left⟩
  cases stage with
  | fresh task => exact ended (rests_begin asks own mine) polled
  | running future => exact ended (rests_poll asks own mine) polled
  | done => exact absurd mine id

theorem Composed.poll {src : Source E M S L W own} (asks : src.OfAsks)
    {d d' : Stepper (Stage E M S L own × W) E H} (composed : Composed d) {yielded : Yield E}
    (polled : d.poll src.routine = some (yielded, d')) : Calm d' ∧ Begun d' := by
  unfold Stepper.poll at polled
  cases future : d.future with
  | none =>
    rw [future] at polled
    cases polled
    refine ⟨⟨composed, fun _ _ running => ?_⟩, fun _ _ fresh => ?_⟩
    · cases running.symm.trans future
    · cases fresh.symm.trans future
  | some part =>
    obtain ⟨stage, world⟩ := part
    rw [future] at polled
    dsimp only at polled
    have mine := composed.asks stage world future
    let cleared : Shared E H := { d.shared with wakeup := d.shared.wakeup.clear }
    -- the driver's waker is the routine's own
    have polls : src.routine.poll (stage, world) d.waker cleared =
        ((stage.poll src own).run (cleared, world)).map fun p => ((p.1.1, p.1.2, p.2.2), p.2.1) := by
      rw [composed.polled]
      rfl
    rw [polls] at polled
    cases ran : (stage.poll src own).run (cleared, world) with
    | none =>
      rw [ran] at polled
      cases polled
    | some result =>
      obtain ⟨⟨poll, stage'⟩, shared', world'⟩ := result
      rw [ran] at polled
      have kept : shared'.outbox.Kept := by
        have runs := Polling.runs_of_lockstep (fun o => stage.lockstep_poll (respects_ran o) src own)
          (cleared, world) _ _ composed.kept ran
        exact (runs.grown composed.kept).1
      have adopted : shared'.outbox.driverWaker = some own :=
        (stage.lockstep_poll (respects_adopted own) src own).keeps ran composed.adopted
      have before : cleared.outbox.Kept := composed.kept
      -- the stage is over, or it waits and rests
      obtain ⟨rfl, rfl⟩ | ⟨rfl, left, rfl, rests⟩ := mine.poll asks before ran
      · cases polled
        refine ⟨⟨⟨kept.drain.1, adopted, composed.polled, ?_⟩, ?_⟩, ?_⟩
        all_goals
          intro _ _ same
          cases same
      · cases polled
        refine ⟨⟨⟨kept.drain.1, adopted, composed.polled, ?_⟩, ?_⟩, ?_⟩
        · rintro _ _ same
          cases same
          exact rests.asks
        · rintro _ _ same
          cases same
          exact ⟨⟨rests.asks, rests.unanswered⟩, rfl, rfl, rfl⟩
        · rintro _ _ same
          cases same

/-- After a reply, as the poll begins. -/
theorem Composed.replied {src : Source E M S L W own} {d e : Stepper (Stage E M S L own × W) E H}
    (composed : Composed d) {waker : Option Waker} {outbox : Outbox E} (kept : outbox.Kept)
    (adopted : outbox.driverWaker = some own)
    (told : d.replied src.routine waker outbox = some e) : Composed e := by
  obtain ⟨_, same, future, rfl, _, _, _, polled⟩ := d.replied_spec src waker outbox
  obtain rfl := Option.some.inj (told.symm.trans same)
  refine ⟨kept, adopted, polled.trans composed.polled, fun stage world running => ?_⟩
  rw [future] at running
  obtain ⟨⟨earlier, _⟩, there, same⟩ := Option.map_eq_some_iff.mp running
  cases same
  have asks := composed.asks _ _ there
  cases waker with
  | none => exact asks
  | some waker =>
    cases earlier with
    | fresh task => exact asks
    | done => exact asks
    | running f =>
      have fired : f.OfAsks := asks
      show ((f.fire waker).2 : Fut E M S L own).OfAsks
      rw [fired.fire waker]
      exact fired

theorem Outbox.deliver_driverWaker {o o' : Outbox E} {reply : ReplyHandle} {value : Value}
    {delivery : Delivery} (delivered : o.deliver reply value = some (delivery, o')) :
    o'.driverWaker = o.driverWaker := by
  obtain ⟨⟨delivery', mail⟩, _, same⟩ := Option.map_eq_some_iff.mp delivered
  cases delivery' <;> cases same <;> rfl

/-- A reply that is not delivered changes nothing. -/
theorem Outbox.deliver_other {o o' : Outbox E} {reply : ReplyHandle} {value : Value}
    {delivery : Delivery} (delivered : o.deliver reply value = some (delivery, o'))
    (other : ∀ waker, delivery ≠ .delivered waker) : o' = o := by
  obtain ⟨⟨delivery', mail⟩, mailed, same⟩ := Option.map_eq_some_iff.mp delivered
  -- only a value that is accepted goes into a slot
  have unchanged : (∀ waker, delivery' ≠ .delivered waker) → mail = o.mail := by
    intro other
    unfold Mail.deliver at mailed
    split at mailed
    · cases mailed
    · split at mailed
      · cases mailed
        rfl
      · obtain ⟨verdict, _, same⟩ := Option.map_eq_some_iff.mp mailed
        cases verdict with
        | ok _ =>
          cases same
          exact absurd rfl (other _)
        | error error =>
          cases same
          rfl
  cases delivery' with
  | delivered waker =>
    cases same
    exact absurd rfl (other waker)
  | gone =>
    obtain rfl := unchanged (by simp)
    cases same
    rfl
  | refused reply error =>
    obtain rfl := unchanged (by simp)
    cases same
    rfl

/-- Whether it was woken, and whom that tells, is of no account. -/
theorem Calm.woken {d d' : Stepper (Stage E M S L own × W) E H} (calm : Calm d)
    (future : d'.future = d.future) (outbox : d'.outbox = d.outbox) (status : d'.status = d.status)
    (waker : d'.waker = d.waker) : Calm d' := by
  refine ⟨⟨outbox ▸ calm.kept, outbox ▸ calm.adopted, waker.trans calm.polled, ?_⟩, ?_⟩
  · exact fun stage world running => calm.asks stage world (future ▸ running)
  · intro f world running
    obtain ⟨rests, effects, closed, same⟩ := calm.rests f world (future ▸ running)
    exact ⟨outbox ▸ rests, outbox ▸ effects, outbox ▸ closed, by rw [status, outbox, same]⟩

/-- What one call leaves, if it does not panic. -/
theorem Calm.doing {src : Source E M S L W own} (asks : src.OfAsks)
    {d d' : Stepper (Stage E M S L own × W) E H} (calm : Calm d) {doing : Doing H W}
    {returned : Option (Except Stepper.Refused (Yield E))}
    (did : d.doing src.routine doing = some (returned, d')) :
    Calm d' ∧ (Begun d ∨ doing = .resume → Begun d') := by
  cases doing with
  | resume =>
    obtain ⟨⟨yielded, _⟩, polled, same⟩ := Option.map_eq_some_iff.mp did
    cases same
    exact (calm.toComposed.poll asks polled).imp_right fun begun _ => begun
  | reply reply value =>
    obtain ⟨⟨result, _⟩, replied, same⟩ := Option.map_eq_some_iff.mp did
    cases same
    -- a reply polls only if it is delivered
    cases delivered : d.outbox.deliver reply value with
    | none =>
      unfold Stepper.tryReply at replied
      rw [delivered] at replied
      cases replied
    | some outcome =>
      obtain ⟨delivery, outbox⟩ := outcome
      cases delivery with
      | delivered waker =>
        rw [Stepper.tryReply_delivered _ _ delivered] at replied
        obtain ⟨e, told, replied⟩ := Option.bind_eq_some_iff.mp replied
        obtain ⟨⟨yielded, _⟩, polled, same⟩ := Option.map_eq_some_iff.mp replied
        cases same
        have composed := calm.toComposed.replied (calm.kept.delivered delivered)
          ((Outbox.deliver_driverWaker delivered).trans calm.adopted) told
        exact (composed.poll asks polled).imp_right fun begun _ => begun
      | gone =>
        obtain rfl := Outbox.deliver_other delivered (by simp)
        unfold Stepper.tryReply at replied
        rw [delivered] at replied
        cases replied
        exact ⟨calm, fun begun => begun.resolve_right (by simp)⟩
      | refused reply error =>
        obtain rfl := Outbox.deliver_other delivered (by simp)
        unfold Stepper.tryReply at replied
        rw [delivered] at replied
        cases replied
        exact ⟨calm, fun begun => begun.resolve_right (by simp)⟩
  | inProcess change =>
    cases did
    unfold Stepper.inProcess
    cases future : d.future with
    | none => exact ⟨calm, fun begun => begun.resolve_right (by simp)⟩
    | some part =>
      obtain ⟨stage, world⟩ := part
      -- the stage rests whatever the world is
      have changed : Calm { d with future := some (stage, (change world).2) } ∧
          (Begun d → Begun { d with future := some (stage, (change world).2) }) := by
        refine ⟨⟨{ calm.toComposed with asks := ?_ }, ?_⟩, fun begun task world' same => ?_⟩
        · rintro _ _ same
          cases same
          exact calm.asks stage world future
        · rintro f _ same
          cases same
          obtain ⟨rests, effects, closed, status⟩ := calm.rests f world future
          exact ⟨rests, effects, closed, status⟩
        · cases same
          exact begun task world future
      dsimp only
      split
      · exact ⟨changed.1.woken rfl rfl rfl rfl, fun begun => changed.2 (begun.resolve_right (by simp))⟩
      · exact ⟨changed.1, fun begun => changed.2 (begun.resolve_right (by simp))⟩
  | wake =>
    cases did
    exact ⟨calm.woken rfl rfl rfl rfl, fun begun => begun.resolve_right (by simp)⟩
  | onWake hook =>
    cases did
    exact ⟨calm.woken rfl rfl rfl rfl, fun begun => begun.resolve_right (by simp)⟩

/-- A resume of a driver whose routine has been polled changes nothing but what is noted. -/
theorem Calm.resume (src : Source E M S L W own) {d : Stepper (Stage E M S L own × W) E H}
    (calm : Calm d) (begun : Begun d) : ∃ d', d.poll src.routine = some (⟨[], []⟩, d') ∧
      d'.future = d.future ∧ d'.status = d.status ∧ d'.waker = d.waker ∧
      ∃ log, d'.outbox = { d.outbox with log } := by
  unfold Stepper.poll
  cases future : d.future with
  | none => exact ⟨d, rfl, future, rfl, rfl, d.outbox.log, rfl⟩
  | some part =>
    obtain ⟨stage, world⟩ := part
    cases stage with
    | fresh task => exact absurd future (begun task world)
    | done => exact absurd (calm.asks _ _ future) id
    | running f =>
      obtain ⟨rests, effects, closed, status⟩ := calm.rests f world future
      let cleared : Shared E H := { d.shared with wakeup := d.shared.wakeup.clear }
      have before : cleared.outbox.Kept := calm.kept
      -- polled again it still waits, and what it did is in the log only
      obtain ⟨log, ran⟩ := poll_again src world before calm.adopted rests
      have polls : src.routine.poll (.running f, world) d.waker cleared =
          (((Stage.running f).poll src own).run (cleared, world)).map
            fun p => ((p.1.1, p.1.2, p.2.2), p.2.1) := by
        rw [calm.polled]
        rfl
      have polled : ((Stage.running f).poll src own).run (cleared, world) =
          some ((.pending, .running f), { cleared with outbox := { cleared.outbox with log } }, world) := by
        unfold Stage.poll
        rw [StateT.run_bind, ran]
        rfl
      let middle : Shared E H := { cleared with outbox := { d.outbox with log } }
      let after := d.finishPoll .pending (some (Stage.running f, world)) middle
      -- it tells of nothing, for nothing was held back
      have yielded : after.1 = ⟨[], []⟩ := by
        show Yield.mk d.outbox.effects d.outbox.mail.closed = _
        rw [effects, closed]
      refine ⟨after.2, ?_, rfl, status.symm, rfl, .drained after.1 :: log, ?_⟩
      · dsimp only
        rw [polls, polled, ← yielded]
        rfl
      · -- there was nothing to drain
        show Outbox.mk [] d.outbox.building d.outbox.held { d.outbox.mail with closed := [] } _ _ = _
        rw [← effects, ← closed]
        rfl

/-! ### Drivers but for what is noted -/

/-- What an outbox does depends on this much of it. -/
def Outbox.bare (o : Outbox E) : Outbox E := { o with log := [] }

namespace Outbox

theorem record_bare (o : Outbox E) (held : Held E) : (o.record held).bare = o.bare.record held := by
  obtain ⟨effects, building, waiting, mail, waker, log⟩ := o
  cases building <;> cases waiting <;> cases held <;> rfl

theorem openRequest_bare (o : Outbox E) (id : Nat) (effect : E) (answer : Answer) :
    (o.openRequest id effect answer).bare = (o.bare.openRequest id effect answer).bare := by
  obtain ⟨effects, building, waiting, mail, waker, log⟩ := o
  unfold Outbox.openRequest bare
  dsimp only
  split
  · rfl
  · split <;> rfl

theorem unreserve_bare (o : Outbox E) (id : Nat) :
    (o.unreserve id).bare = (o.bare.unreserve id).bare := by
  obtain ⟨effects, building, waiting, mail, waker, log⟩ := o
  unfold Outbox.unreserve bare
  dsimp only
  split <;> rfl

/-- No operation reads the log. -/
theorem respected_bare : Respected (E := E) fun o₁ o₂ => o₁.bare = o₂.bare where
  tell o₁ o₂ effect same := by
    have told : ∀ o : Outbox E, (o.tell effect).bare = (o.bare.record (.ready effect)).bare :=
      fun o => (record_bare o (.ready effect)).trans (record_bare o.bare (.ready effect)).symm
    rw [told, told, same]
  mint o₁ o₂ same := by
    have minted : ∀ o : Outbox E, o.mint.1 = o.bare.mint.1 ∧ o.mint.2.bare = o.bare.mint.2.bare := by
      intro o
      let numbered : Outbox E := { o with mail := o.mail.mint.2 }
      exact ⟨rfl, (record_bare numbered _).trans (record_bare numbered.bare _).symm⟩
    rw [(minted o₁).1, (minted o₁).2, (minted o₂).1, (minted o₂).2, same]
    exact ⟨rfl, rfl⟩
  openRequest o₁ o₂ id effect answer same := by
    rw [openRequest_bare, openRequest_bare o₂, same]
  unreserve o₁ o₂ id same := by rw [unreserve_bare, unreserve_bare o₂, same]
  collect o₁ o₂ id waker same := by
    have collected : ∀ o : Outbox E, (o.collect id waker).1 = (o.bare.collect id waker).1 ∧
        (o.collect id waker).2.bare = (o.bare.collect id waker).2.bare := fun o => ⟨rfl, rfl⟩
    rw [(collected o₁).1, (collected o₁).2, (collected o₂).1, (collected o₂).2, same]
    exact ⟨rfl, rfl⟩
  close o₁ o₂ id same := by
    have closed : ∀ o : Outbox E, (o.close id).bare = (o.bare.close id).bare := fun o => rfl
    rw [closed, closed o₂, same]

theorem deliver_bare {o₁ o₂ : Outbox E} (same : o₁.bare = o₂.bare) (reply : ReplyHandle)
    (value : Value) : Option.Rel (fun p₁ p₂ => p₁.1 = p₂.1 ∧ p₁.2.bare = p₂.2.bare)
      (o₁.deliver reply value) (o₂.deliver reply value) := by
  have mail : o₁.mail = o₂.mail := by
    show o₁.bare.mail = o₂.bare.mail
    rw [same]
  unfold Outbox.deliver
  rw [mail]
  cases o₂.mail.deliver reply value with
  | none => exact .none
  | some outcome =>
    obtain ⟨delivery, after⟩ := outcome
    have left : ({ o₁ with mail := after } : Outbox E).bare = ({ o₂ with mail := after } : Outbox E).bare := by
      show { o₁.bare with mail := after } = { o₂.bare with mail := after }
      rw [same]
    cases delivery <;> exact .some ⟨rfl, left⟩

end Outbox

/-- The same drivers, but for their logs, and whether they were woken. -/
structure Matches (d₁ d₂ : Stepper (Stage E M S L own × W) E H) : Prop where
  future : d₁.future = d₂.future
  outbox : d₁.outbox.bare = d₂.outbox.bare
  status : d₁.status = d₂.status
  waker : d₁.waker = d₂.waker

namespace Matches

variable {d₁ d₂ : Stepper (Stage E M S L own × W) E H}

theorem finishPoll (same : Matches d₁ d₂) (poll : Poll) (future : Option (Stage E M S L own × W))
    {shared₁ shared₂ : Shared E H} (outbox : shared₁.outbox.bare = shared₂.outbox.bare) :
    (d₁.finishPoll poll future shared₁).1 = (d₂.finishPoll poll future shared₂).1 ∧
      Matches (d₁.finishPoll poll future shared₁).2 (d₂.finishPoll poll future shared₂).2 := by
  have mail : shared₁.outbox.mail = shared₂.outbox.mail := by
    show shared₁.outbox.bare.mail = shared₂.outbox.bare.mail
    rw [outbox]
  refine ⟨?_, rfl, ?_, ?_, same.waker⟩
  · show Yield.mk shared₁.outbox.bare.effects shared₁.outbox.bare.mail.closed = _
    rw [outbox]
    rfl
  · show { shared₁.outbox.bare with
      effects := [], mail := { shared₁.outbox.mail with closed := [] } } = _
    rw [outbox, mail]
    rfl
  · show Status.classify poll shared₁.outbox.mail.opened = _
    rw [mail]
    rfl

theorem poll (same : Matches d₁ d₂) (src : Source E M S L W own) :
    Option.Rel (fun p₁ p₂ => p₁.1 = p₂.1 ∧ Matches p₁.2 p₂.2) (d₁.poll src.routine)
      (d₂.poll src.routine) := by
  unfold Stepper.poll
  rw [same.future, same.waker]
  cases d₂.future with
  | none => exact .some ⟨rfl, same⟩
  | some part =>
    obtain ⟨stage, world⟩ := part
    -- the two stages run in lockstep, from outboxes that differ in their logs only
    have ran := stage.lockstep_poll Outbox.respected_bare.respects src d₂.waker
      ({ d₁.shared with wakeup := d₁.shared.wakeup.clear }, world)
      ({ d₂.shared with wakeup := d₂.shared.wakeup.clear }, world) same.outbox rfl
    have polls : ∀ shared : Shared E H, src.routine.poll (stage, world) d₂.waker shared =
        ((stage.poll src d₂.waker).run (shared, world)).map
          fun p => ((p.1.1, p.1.2, p.2.2), p.2.1) := fun _ => rfl
    dsimp only
    rw [polls, polls]
    unfold Coupled at ran
    generalize (stage.poll src d₂.waker).run
      ({ d₁.shared with wakeup := d₁.shared.wakeup.clear }, world) = r₁ at ran
    generalize (stage.poll src d₂.waker).run
      ({ d₂.shared with wakeup := d₂.shared.wakeup.clear }, world) = r₂ at ran
    cases ran with
    | none => exact .none
    | @some q₁ q₂ both =>
      obtain ⟨⟨poll, stage'⟩, shared₁, world'⟩ := q₁
      obtain ⟨_, shared₂, _⟩ := q₂
      obtain ⟨rfl, outbox, rfl⟩ := both
      cases poll with
      | pending => exact .some (same.finishPoll .pending (some (stage', world')) outbox)
      | ready =>
        -- and so do the drops of what is left
        have dropped := stage'.lockstep_drop (H := H) Outbox.respected_bare.respects src.places
          (shared₁, world') (shared₂, world') outbox rfl
        have drops : ∀ shared : Shared E H, src.routine.drop (stage', world') shared =
            ((stage'.drop src.places).run (shared, world')).map fun p => p.2.1 := fun _ => rfl
        dsimp only [Option.map_some]
        rw [drops, drops, Option.map_map, Option.map_map]
        refine rel_map dropped ?_
        rintro ⟨_, after₁, _⟩ ⟨_, after₂, _⟩ ⟨_, outbox', _⟩
        exact same.finishPoll .ready none outbox'

theorem tryReply (same : Matches d₁ d₂) (src : Source E M S L W own) (reply : ReplyHandle)
    (value : Value) : Option.Rel (fun p₁ p₂ => p₁.1 = p₂.1 ∧ Matches p₁.2 p₂.2)
      (d₁.tryReply src.routine reply value) (d₂.tryReply src.routine reply value) := by
  -- what becomes of the reply does not depend on the log
  have delivers := Outbox.deliver_bare same.outbox reply value
  cases delivered₁ : d₁.outbox.deliver reply value with
  | none =>
    cases delivered₂ : d₂.outbox.deliver reply value with
    | some _ =>
      rw [delivered₁, delivered₂] at delivers
      cases delivers
    | none =>
      unfold Stepper.tryReply
      rw [delivered₁, delivered₂]
      exact .none
  | some outcome₁ =>
    cases delivered₂ : d₂.outbox.deliver reply value with
    | none =>
      rw [delivered₁, delivered₂] at delivers
      cases delivers
    | some outcome₂ =>
      obtain ⟨delivery, o₁⟩ := outcome₁
      obtain ⟨_, o₂⟩ := outcome₂
      rw [delivered₁, delivered₂] at delivers
      obtain ⟨rfl, outbox⟩ : delivery = _ ∧ o₁.bare = o₂.bare := by
        cases delivers with
        | some both => exact both
      cases delivery with
      | delivered waker =>
        obtain ⟨e₁, told₁, future₁, left₁, _, _, status₁, waker₁⟩ := d₁.replied_spec src waker o₁
        obtain ⟨e₂, told₂, future₂, left₂, _, _, status₂, waker₂⟩ := d₂.replied_spec src waker o₂
        -- both are woken alike, and then polled
        have after : Matches e₁ e₂ := by
          refine ⟨?_, ?_, ?_, ?_⟩
          · rw [future₁, future₂, same.future]
          · rw [left₁, left₂, outbox]
          · rw [status₁, status₂, same.status]
          · rw [waker₁, waker₂, same.waker]
        rw [Stepper.tryReply_delivered _ _ delivered₁, Stepper.tryReply_delivered _ _ delivered₂, told₁,
          told₂]
        refine rel_map (after.poll src) ?_
        rintro ⟨_, _⟩ ⟨_, _⟩ ⟨rfl, matched⟩
        exact ⟨rfl, matched⟩
      | gone =>
        unfold Stepper.tryReply
        rw [delivered₁, delivered₂]
        exact .some ⟨rfl, same.future, outbox, same.status, same.waker⟩
      | refused reply error =>
        unfold Stepper.tryReply
        rw [delivered₁, delivered₂]
        exact .some ⟨rfl, same.future, outbox, same.status, same.waker⟩

theorem doing (same : Matches d₁ d₂) (src : Source E M S L W own) (doing : Doing H W) :
    Option.Rel (fun p₁ p₂ => p₁.1 = p₂.1 ∧ Matches p₁.2 p₂.2) (d₁.doing src.routine doing)
      (d₂.doing src.routine doing) := by
  cases doing with
  | resume =>
    refine rel_map (same.poll src) ?_
    rintro ⟨_, _⟩ ⟨_, _⟩ ⟨rfl, matched⟩
    exact ⟨rfl, matched⟩
  | reply reply value =>
    refine rel_map (same.tryReply src reply value) ?_
    rintro ⟨_, _⟩ ⟨_, _⟩ ⟨rfl, matched⟩
    exact ⟨rfl, matched⟩
  | inProcess change =>
    refine .some ⟨rfl, ?_⟩
    unfold Stepper.inProcess
    rw [same.future]
    cases d₂.future with
    | none => exact same
    | some part =>
      dsimp only
      split
      · exact ⟨rfl, same.outbox, same.status, same.waker⟩
      · exact ⟨rfl, same.outbox, same.status, same.waker⟩
  | wake => exact .some ⟨rfl, same.future, same.outbox, same.status, same.waker⟩
  | onWake hook => exact .some ⟨rfl, same.future, same.outbox, same.status, same.waker⟩

end Matches

/-! ### Whole runs -/

/-- What a call returned, and the status it left. -/
def Seen.answer (seen : Seen E H) : Option (Except Stepper.Refused (Yield E)) × Status :=
  (seen.returned, seen.status)

/-- One call, up to a panic. -/
def Stepper.does {F : Type} (r : Routine (F × W) E H) (d : Stepper (F × W) E H) (doing : Doing H W) :
    Option (Stepper (F × W) E H) := (d.doing r doing).map Prod.snd

section

variable {F : Type} {r : Routine (F × W) E H} {d d' : Stepper (F × W) E H} {doing : Doing H W}

theorem Stepper.watch_did {returned : Option (Except Stepper.Refused (Yield E))}
    (did : d.doing r doing = some (returned, d')) (rest : List (Doing H W)) :
    d.watch r (doing :: rest) = some ⟨returned, d'.status, d'.shared.hooked⟩ :: d'.watch r rest := by
  rw [Stepper.watch, did]

theorem Stepper.watch_panicked (panicked : d.doing r doing = none) (rest : List (Doing H W)) :
    d.watch r (doing :: rest) = [none] := by
  rw [Stepper.watch, panicked]

end

/-- Calls that go alike are seen alike, with what follows them. -/
theorem Matches.watch_cons {src : Source E M S L W own} {d₁ d₂ : Stepper (Stage E M S L own × W) E H}
    {first second : Doing H W} {rest : List (Doing H W)}
    (both : Option.Rel (fun p₁ p₂ => p₁.1 = p₂.1 ∧ Matches p₁.2 p₂.2) (d₁.doing src.routine first)
      (d₂.doing src.routine second))
    (follows : ∀ e₁ e₂ : Stepper (Stage E M S L own × W) E H, Matches e₁ e₂ →
      (e₁.watch src.routine rest).map (Option.map Seen.answer) =
        (e₂.watch src.routine rest).map (Option.map Seen.answer)) :
    (d₁.watch src.routine (first :: rest)).map (Option.map Seen.answer) =
      (d₂.watch src.routine (second :: rest)).map (Option.map Seen.answer) := by
  -- both calls panic, and then nothing follows, or neither does
  cases did₁ : d₁.doing src.routine first with
  | none =>
    cases did₂ : d₂.doing src.routine second with
    | none => rw [Stepper.watch_panicked did₁, Stepper.watch_panicked did₂]
    | some after =>
      rw [did₁, did₂] at both
      cases both
  | some after₁ =>
    cases did₂ : d₂.doing src.routine second with
    | none =>
      rw [did₁, did₂] at both
      cases both
    | some after₂ =>
      obtain ⟨returned, e₁⟩ := after₁
      obtain ⟨_, e₂⟩ := after₂
      rw [did₁, did₂] at both
      obtain ⟨rfl, same⟩ : returned = _ ∧ Matches e₁ e₂ := by
        cases both with
        | some both => exact both
      rw [Stepper.watch_did did₁, Stepper.watch_did did₂, List.map_cons, List.map_cons,
        follows e₁ e₂ same]
      simp [Seen.answer, same.status]

theorem Matches.watch {src : Source E M S L W own} {d₁ d₂ : Stepper (Stage E M S L own × W) E H}
    (same : Matches d₁ d₂) (doings : List (Doing H W)) :
    (d₁.watch src.routine doings).map (Option.map Seen.answer) =
      (d₂.watch src.routine doings).map (Option.map Seen.answer) := by
  induction doings generalizing d₁ d₂ with
  | nil => rfl
  | cons doing rest ih => exact watch_cons (same.doing src doing) fun _ _ same' => ih same'

theorem calm_start (driver : Nat) {task : Task E M S L own} (asks : task.OfAsks) (world : W) :
    Calm (Source.start driver task world : Stepper (Stage E M S L own × W) E H) := by
  refine ⟨⟨(Outbox.kept_new driver).adopt own, rfl, rfl, ?_⟩, ?_⟩
  · rintro _ _ same
    cases same
    exact asks
  · rintro _ _ same
    cases same

theorem calm_run {src : Source E M S L W own} (asks : src.OfAsks)
    {d d' : Stepper (Stage E M S L own × W) E H} (calm : Calm d) {doings : List (Doing H W)}
    (ran : Transition.run (Stepper.does src.routine) d doings = some d') :
    Calm d' ∧ (Begun d ∨ .resume ∈ doings → Begun d') := by
  induction doings generalizing d with
  | nil =>
    cases ran
    exact ⟨calm, fun begun => begun.resolve_right List.not_mem_nil⟩
  | cons doing rest ih =>
    obtain ⟨next, stepped, rest⟩ := Option.bind_eq_some_iff.mp ran
    obtain ⟨⟨returned, _⟩, did, rfl⟩ := Option.map_eq_some_iff.mp stepped
    obtain ⟨calm', begun⟩ := calm.doing asks did
    obtain ⟨calm'', begun'⟩ := ih calm' rest
    refine ⟨calm'', fun before => begun' ?_⟩
    rcases before with before | member
    · exact .inl (begun (.inl before))
    · rcases List.mem_cons.mp member with first | later
      · exact .inl (begun (.inr first.symm))
      · exact .inr later

/-- The calls of a run in which some are resumes put in between. -/
def padded (doings : List (Option (Doing H W))) : List (Doing H W) := doings.map (·.getD .resume)

/-- What is seen of a run, but for the resumes put in between. -/
def unpadded (doings : List (Option (Doing H W))) (seen : List (Option (Seen E H))) :
    List (Option (Option (Except Stepper.Refused (Yield E)) × Status)) :=
  (doings.zip seen).filterMap fun (doing, seen) => doing.map fun _ => seen.map Seen.answer

theorem padded_unseen {src : Source E M S L W own} (asks : src.OfAsks)
    {d₁ d₂ : Stepper (Stage E M S L own × W) E H} (calm : Calm d₁) (begun : Begun d₁)
    (same : Matches d₁ d₂) (doings : List (Option (Doing H W))) :
    unpadded doings (d₁.watch src.routine (padded doings)) =
      (d₂.watch src.routine doings.reduceOption).map (Option.map Seen.answer) := by
  induction doings generalizing d₁ d₂ with
  | nil => rfl
  | cons first rest ih =>
    cases first with
    | none =>
      obtain ⟨d₁', polled, future, status, waker, log, outbox⟩ := calm.resume src begun
      have did : d₁.doing src.routine .resume = some (some (.ok ⟨[], []⟩), d₁') := by
        unfold Stepper.doing
        rw [polled]
        rfl
      have left := calm.doing asks did
      have same' : Matches d₁' d₂ := by
        refine ⟨future.trans same.future, ?_, status.trans same.status, waker.trans same.waker⟩
        rw [outbox]
        exact same.outbox
      have sees : d₁.watch src.routine (padded (none :: rest)) = _ :=
        Stepper.watch_did did (padded rest)
      rw [sees]
      exact ih left.1 (left.2 (.inr rfl)) same'
    | some doing =>
      have both := same.doing src doing
      cases did₁ : d₁.doing src.routine doing with
      | none =>
        rw [did₁] at both
        have did₂ : d₂.doing src.routine doing = none := by
          cases did₂ : d₂.doing src.routine doing with
          | none => rfl
          | some _ =>
            rw [did₂] at both
            cases both
        -- the run ends here
        have sees₁ : d₁.watch src.routine (padded (some doing :: rest)) = _ :=
          Stepper.watch_panicked did₁ (padded rest)
        rw [List.reduceOption_cons_of_some, sees₁, Stepper.watch_panicked did₂]
        simp [unpadded]
      | some after₁ =>
        cases did₂ : d₂.doing src.routine doing with
        | none =>
          rw [did₁, did₂] at both
          cases both
        | some after₂ =>
          obtain ⟨returned, d₁'⟩ := after₁
          obtain ⟨_, d₂'⟩ := after₂
          rw [did₁, did₂] at both
          obtain ⟨rfl, same'⟩ : returned = _ ∧ Matches d₁' d₂' := by
            cases both with
            | some both => exact both
          have left := calm.doing asks did₁
          have rests := ih left.1 (left.2 (.inl begun)) same'
          have sees₁ : d₁.watch src.routine (padded (some doing :: rest)) = _ :=
            Stepper.watch_did did₁ (padded rest)
          rw [List.reduceOption_cons_of_some, sees₁, Stepper.watch_did did₂]
          show some (returned, d₁'.status) :: unpadded rest (d₁'.watch src.routine (padded rest)) =
            some (returned, d₂'.status) :: (d₂'.watch src.routine rest.reduceOption).map _
          rw [rests, same'.status]

/-- A routine of asks that has been resumed once: one more resume, at any moment of a run, yields
nothing and changes neither the status nor the mailbox, so resumes put in between anywhere leave
what the other calls return, and the statuses after them, as they are. -/
theorem spurious_resumes_are_harmless (src : Source E M S L W own) (asks : src.OfAsks) (driver : Nat)
    (task : Task E M S L own) (mine : task.OfAsks) (world : W) (doings : List (Doing H W))
    (resumed : .resume ∈ doings) (d : Stepper (Stage E M S L own × W) E H)
    (ran : Transition.run (Stepper.does src.routine) (Source.start driver task world) doings = some d) :
    (∃ d', d.doing src.routine .resume = some (some (.ok ⟨[], []⟩), d') ∧ d'.future = d.future ∧
      d'.status = d.status ∧ d'.outbox.mail = d.outbox.mail) ∧
    ∀ later : List (Option (Doing H W)),
      unpadded later (d.watch src.routine (padded later)) =
        (d.watch src.routine later.reduceOption).map (Option.map Seen.answer) := by
  obtain ⟨calm, begun⟩ := calm_run asks (calm_start driver mine world) ran
  have begun := begun (.inr resumed)
  refine ⟨?_, fun later => padded_unseen asks calm begun ⟨rfl, rfl, rfl, rfl⟩ later⟩
  obtain ⟨d', polled, future, status, _, log, outbox⟩ := calm.resume src begun
  refine ⟨d', ?_, future, status, by rw [outbox]⟩
  unfold Stepper.doing
  rw [polled]
  rfl

/-- A routine with no parts, in a process where nothing is received. -/
def alone : Source String Empty Empty Empty Unit 0 :=
  ⟨Empty.elim, 0, ⟨fun _ _ _ => ((none, false), ()), fun _ _ => ()⟩⟩

/-- Two requests awaited together, the second beside one that may come first. -/
def racing : Task String Empty Empty Empty 0 :=
  let ask : Task String Empty Empty Empty 0 := .ask none ⟨.u64, fun _ => .ok ()⟩ fun _ => some "ask"
  .bind (.join ask (.select ask ask)) fun _ => .tell "say"

-- one side of the `join` has finished, and the `select` is undecided
theorem spurious_resumes_are_harmless_halfway :
    ∃ d : Stepper (Stage String Empty Empty Empty 0 × Unit) String Nat,
      Transition.run (Stepper.does alone.routine) (Source.start 3 racing ())
        [.resume, .reply ⟨3, 1⟩ (.u64 5)] = some d ∧
      ∃ d', d.doing alone.routine .resume = some (some (.ok ⟨[], []⟩), d') ∧
        d'.outbox.mail = d.outbox.mail := by
  have returns : (Transition.run (Stepper.does alone.routine) (Source.start 3 racing () :
      Stepper (Stage String Empty Empty Empty 0 × Unit) String Nat)
        [.resume, .reply ⟨3, 1⟩ (.u64 5)]).isSome := by
    decide +kernel
  obtain ⟨d, ran⟩ := Option.isSome_iff_exists.mp returns
  obtain ⟨⟨d', resumed, _, _, mail⟩, _⟩ := spurious_resumes_are_harmless alone
    (fun name => name.elim) 3 racing ⟨⟨rfl, rfl, rfl⟩, fun _ => trivial⟩ ()
    [.resume, .reply ⟨3, 1⟩ (.u64 5)] List.mem_cons_self d ran
  exact ⟨d, ran, d', resumed, mail⟩

end SansEffort
