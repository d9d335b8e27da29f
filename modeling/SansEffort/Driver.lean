import SansEffort.Order

/-!
# Drivers

A routine and the stepper that polls it (`driver/stepper.rs`, `driver/wake.rs`,
`driver/asking.rs`). A routine is any program of the outbox operations its context makes;
programs that unwind return `none`.
-/

namespace SansEffort

/-! ### The driver's waker -/

/-- Whether the driver was woken since its last poll began, and whom to tell. -/
structure Wakeup (H : Type) where
  woken : Bool
  hook : Option H

namespace Wakeup

variable {H : Type}

def new : Wakeup H := ⟨false, none⟩

def setHook (w : Wakeup H) (hook : H) : Wakeup H := { w with hook := some hook }

/-- A poll is about to begin: what wakes the routine from now on is news again. -/
def clear (w : Wakeup H) : Wakeup H := { w with woken := false }

/-- A poll will begin at once: mark the routine woken without telling the hook. -/
def hold (w : Wakeup H) : Wakeup H := { w with woken := true }

/-- Record a wake. The hook to call, if this is the first since the last poll began. -/
def wakeUp (w : Wakeup H) : Option H × Wakeup H :=
  (if w.woken then none else w.hook, { w with woken := true })

end Wakeup

/-! ### Routines -/

/-- What the operations of a routine's context act on, and the hooks called so far. -/
structure Shared (E H : Type) where
  outbox : Outbox E
  wakeup : Wakeup H
  hooked : List H

/-- Code that runs in a poll. `ask` is `Asking::into_future`: the effect is built by `make`,
which may itself ask, and panics by returning `none`; what follows gets the id of the request,
or `none` if its effect was not built. -/
inductive Prog (E : Type) : Type → Type 1
  | ret {α : Type} (a : α) : Prog E α
  | tell {α : Type} (effect : E) (next : Prog E α) : Prog E α
  | ask {α : Type} (answer : Answer) (make : ReplyHandle → Prog E (Option E))
      (next : Option Nat → Prog E α) : Prog E α
  | collect {α : Type} (id : Nat) (waker : Waker) (next : Option Value → Prog E α) : Prog E α
  | close {α : Type} (id : Nat) (next : Prog E α) : Prog E α
  | wake {α : Type} (next : Prog E α) : Prog E α

variable {E H : Type}

def Prog.run {α : Type} : Prog E α → Shared E H → α × Shared E H
  | .ret a, s => (a, s)
  | .tell effect next, s => next.run { s with outbox := s.outbox.tell effect }
  | .ask answer make next, s =>
    let (reply, outbox) := s.outbox.mint
    match (make reply).run { s with outbox } with
    | (some effect, s) =>
      (next (some reply.id)).run
        { s with outbox := s.outbox.openRequest reply.id effect answer }
    -- the guard dropped while `make` unwinds gives up the place
    | (none, s) => (next none).run { s with outbox := s.outbox.unreserve reply.id }
  | .collect id waker next, s =>
    let (value, outbox) := s.outbox.collect id waker
    (next value).run { s with outbox }
  | .close id next, s => next.run { s with outbox := s.outbox.close id }
  | .wake next, s =>
    let (hook, wakeup) := s.wakeup.wakeUp
    next.run { s with wakeup, hooked := hook.toList ++ s.hooked }

inductive Poll
  | ready
  | pending
  deriving DecidableEq, Repr

inductive Status
  | awaiting
  | complete
  | idle
  deriving DecidableEq, Repr

def Status.classify (poll : Poll) (outstanding : Nat) : Status :=
  match poll with
  | .ready => .complete
  | .pending => if outstanding > 0 then .awaiting else .idle

/-! ### What a routine does to the outbox -/

/-- What is noted of an operation of the routine's side. -/
def Event.byRoutine : Event E → Bool
  | .delivered _ _ => false
  | .drained _ => false
  | _ => true

namespace Outbox

/-- `after` is `before` with some operations of the routine's side done, by whatever threads. -/
def Ran (before after : Outbox E) : Prop :=
  ∃ ops : List (Op E), (∀ op ∈ ops, op.byRoutine = true) ∧
    Transition.run step before ops = some after

theorem Ran.refl (o : Outbox E) : Ran o o := ⟨[], by simp, rfl⟩

theorem Ran.trans {a b c : Outbox E} (first : Ran a b) (second : Ran b c) : Ran a c := by
  obtain ⟨ops, side, ran⟩ := first
  obtain ⟨more, side', ran'⟩ := second
  refine ⟨ops ++ more, fun op member => ?_, by rw [Transition.run_append, ran]; exact ran'⟩
  rcases List.mem_append.mp member with here | there
  · exact side op here
  · exact side' op there

theorem Ran.one {before after : Outbox E} (op : Op E) (side : op.byRoutine = true)
    (stepped : before.step op = some after) : Ran before after :=
  ⟨[op], by simpa using side, by simp [stepped]⟩

/-- No reply is delivered and nothing drained between `before` and `after`. -/
structure Grown (before after : Outbox E) : Prop where
  log : before.log <:+ after.log
  deliveries : deliveries after.log = deliveries before.log
  drains : drains after.log = drains before.log
  emitted : emitted after.log = emitted before.log
  listed : listed after.log = listed before.log
  driver : after.mail.driver = before.mail.driver

theorem Grown.trans {a b c : Outbox E} (first : Grown a b) (second : Grown b c) : Grown a c :=
  ⟨first.log.trans second.log, second.deliveries.trans first.deliveries,
    second.drains.trans first.drains, second.emitted.trans first.emitted,
    second.listed.trans first.listed, second.driver.trans first.driver⟩

theorem Grown.noted {before after : Outbox E} {event : Event E}
    (log : after.log = event :: before.log) (driver : after.mail.driver = before.mail.driver)
    (side : event.byRoutine = true) : Grown before after := by
  refine ⟨log ▸ List.suffix_cons _ _, ?_, ?_, ?_, ?_, driver⟩ <;> rw [log]
  -- no other event is counted by any of them
  all_goals
    cases event
    case delivered id v => cases side
    case drained y => cases side
    all_goals rfl

theorem record_log (o : Outbox E) (held : Held E) : (o.record held).log = o.log := by
  unfold Outbox.record
  cases o.building <;> cases held <;> dsimp only <;> split <;> rfl

theorem record_mail (o : Outbox E) (held : Held E) : (o.record held).mail = o.mail := by
  unfold Outbox.record
  cases o.building <;> cases held <;> dsimp only <;> split <;> rfl

theorem tell_log (o : Outbox E) (effect : E) : (o.tell effect).log = .told effect :: o.log :=
  congrArg (_ :: ·) (record_log o _)

theorem mint_log (o : Outbox E) : o.mint.2.log = .minted o.mail.next :: o.log :=
  congrArg (_ :: ·) (record_log _ _)

theorem openRequest_log (o : Outbox E) (id : Nat) (effect : E) (answer : Answer) :
    (o.openRequest id effect answer).log = .opened id effect answer :: o.log := by
  unfold Outbox.openRequest
  dsimp only
  split
  · rfl
  · split <;> rfl

theorem openRequest_mail (o : Outbox E) (id : Nat) (effect : E) (answer : Answer) :
    (o.openRequest id effect answer).mail = o.mail.openSlot id answer.check := by
  unfold Outbox.openRequest
  dsimp only
  split
  · rfl
  · split <;> rfl

theorem unreserve_log (o : Outbox E) (id : Nat) :
    (o.unreserve id).log = .unreserved id :: o.log := by
  unfold Outbox.unreserve
  dsimp only
  split <;> rfl

theorem Kept.step_grown {o next : Outbox E} (kept : o.Kept) {op : Op E}
    (side : op.byRoutine = true) (stepped : o.step op = some next) : Grown o next := by
  -- each operation adds one happening to the log and leaves the driver's number alone
  cases op with
  | tell effect =>
    cases stepped
    exact .noted (tell_log o effect) (congrArg Mail.driver (record_mail o _)) rfl
  | mint =>
    cases stepped
    refine .noted (mint_log o) ?_ rfl
    exact (congrArg Mail.driver (record_mail { o with mail := o.mail.mint.2 } _)).trans rfl
  | openRequest id effect answer =>
    simp only [Outbox.step] at stepped
    split at stepped
    · cases stepped
      apply Grown.noted (openRequest_log o id effect answer) _ rfl
      rw [openRequest_mail]
      rfl
    · cases stepped
  | unreserve id =>
    simp only [Outbox.step] at stepped
    split at stepped
    · cases stepped
      refine .noted (unreserve_log o id) ?_ rfl
      unfold Outbox.unreserve
      dsimp only
      split <;> rfl
    · cases stepped
  | collect id waker =>
    cases stepped
    refine .noted rfl ?_ rfl
    -- the filled slot is collected, or a waker is stored in an open one
    obtain ⟨_, _, _, _, _, updated⟩ | ⟨_, _, _, updated⟩ := kept.mail.shape.collect id
      (if o.driverWaker.any (· == waker) then none else some waker)
    · exact updated.driver
    · exact updated.driver
  | close id =>
    cases stepped
    exact .noted rfl (kept.mail.shape.close id).driver rfl
  -- these are the driver's own
  | deliver => cases side
  | drain => cases side

theorem Ran.grown {before after : Outbox E} (ran : Ran before after) (kept : before.Kept) :
    after.Kept ∧ Grown before after := by
  obtain ⟨ops, side, ran⟩ := ran
  induction ops generalizing before with
  | nil =>
    cases ran
    exact ⟨kept, List.suffix_refl _, rfl, rfl, rfl, rfl, rfl⟩
  | cons op ops ih =>
    obtain ⟨next, stepped, rest⟩ := Option.bind_eq_some_iff.mp ran
    have grown := kept.step_grown (side op List.mem_cons_self) stepped
    obtain ⟨kept', grown'⟩ := ih (kept.step stepped)
      (fun op member => side op (List.mem_cons_of_mem _ member)) rest
    exact ⟨kept', grown.trans grown'⟩

end Outbox

/-- Code that runs in a poll is outbox operations, and builds every effect it starts. -/
theorem Prog.run_spec {α : Type} (p : Prog E α) (s : Shared E H) (kept : s.outbox.Kept) :
    Outbox.Ran s.outbox (p.run s).2.outbox ∧
      beingBuilt (p.run s).2.outbox.log = beingBuilt s.outbox.log := by
  induction p generalizing s with
  | ret a => exact ⟨.refl _, rfl⟩
  | tell effect next ih =>
    obtain ⟨ran, built⟩ := ih { s with outbox := s.outbox.tell effect } (kept.tell effect)
    refine ⟨(Outbox.Ran.one (.tell effect) rfl rfl).trans ran, built.trans ?_⟩
    show beingBuilt (s.outbox.tell effect).log = _
    rw [Outbox.tell_log]
    rfl
  | ask answer make next ihMake ihNext =>
    obtain ⟨minted, reply, log⟩ := kept.mint
    obtain ⟨ran, built⟩ := ihMake s.outbox.mint.1 { s with outbox := s.outbox.mint.2 } minted
    have kept' := (ran.grown minted).1
    have started : Outbox.Ran s.outbox s.outbox.mint.2 := .one .mint rfl rfl
    have id : s.outbox.mint.1.id = s.outbox.mail.next := by rw [reply]
    rw [log] at built
    -- the request is the newest, so taking it out again leaves what was being built before
    have first : s.outbox.mail.next ∈ beingBuilt
        ((make s.outbox.mint.1).run { s with outbox := s.outbox.mint.2 }).2.outbox.log :=
      built ▸ List.mem_cons_self
    have rest : (beingBuilt ((make s.outbox.mint.1).run
          { s with outbox := s.outbox.mint.2 }).2.outbox.log).filter (· ≠ s.outbox.mail.next) =
        beingBuilt s.outbox.log := by
      rw [built, beingBuilt, List.filter_cons_of_neg (by simp)]
      refine List.filter_eq_self.mpr fun other earlier => ?_
      have := kept.mail.numbered other (beingBuilt_subset_minted _ earlier)
      simpa using Nat.ne_of_lt this
    simp only [Prog.run, id]
    cases outcome : (make s.outbox.mint.1).run { s with outbox := s.outbox.mint.2 } with
    | mk effect after =>
      rw [outcome] at kept' ran first rest
      cases effect with
      | some effect =>
        obtain ⟨ran', built'⟩ := ihNext (some s.outbox.mail.next)
          { after with outbox := after.outbox.openRequest s.outbox.mail.next effect answer }
          (kept'.openRequest first effect answer)
        have opened : Outbox.Ran after.outbox
            (after.outbox.openRequest s.outbox.mail.next effect answer) :=
          .one (.openRequest s.outbox.mail.next effect answer) rfl (if_pos first)
        refine ⟨((started.trans ran).trans opened).trans ran', built'.trans ?_⟩
        show beingBuilt (after.outbox.openRequest s.outbox.mail.next effect answer).log = _
        rw [Outbox.openRequest_log]
        exact rest
      | none =>
        obtain ⟨ran', built'⟩ := ihNext none
          { after with outbox := after.outbox.unreserve s.outbox.mail.next }
          (kept'.unreserve first)
        have given : Outbox.Ran after.outbox (after.outbox.unreserve s.outbox.mail.next) :=
          .one (.unreserve s.outbox.mail.next) rfl (if_pos first)
        refine ⟨((started.trans ran).trans given).trans ran', built'.trans ?_⟩
        show beingBuilt (after.outbox.unreserve s.outbox.mail.next).log = _
        rw [Outbox.unreserve_log]
        exact rest
  | collect id waker next ih =>
    obtain ⟨ran, built⟩ := ih (s.outbox.collect id waker).1
      { s with outbox := (s.outbox.collect id waker).2 } (kept.collect id waker).1
    exact ⟨(Outbox.Ran.one (.collect id waker) rfl rfl).trans ran, built⟩
  | close id next ih =>
    obtain ⟨ran, built⟩ := ih { s with outbox := s.outbox.close id } (kept.close id)
    exact ⟨(Outbox.Ran.one (.close id) rfl rfl).trans ran, built⟩
  | wake next ih =>
    exact ih { s with
      wakeup := s.wakeup.wakeUp.2, hooked := s.wakeup.wakeUp.1.toList ++ s.hooked } kept

/-! ### Routines -/

/-- A routine's future, with `σ` what it holds between polls: how it is polled with a waker,
how it is dropped, and what a waker of its own does when it is woken. `none` unwinds. Whatever
it does, and whatever others do to its outbox meanwhile, is outbox operations. -/
structure Routine (σ E H : Type) where
  poll : σ → Waker → Shared E H → Option ((Poll × σ) × Shared E H)
  drop : σ → Shared E H → Option (Shared E H)
  wake : σ → Waker → Shared E H → Option (σ × Shared E H)
  poll_ran : ∀ future waker shared result after, shared.outbox.Kept →
    poll future waker shared = some (result, after) → Outbox.Ran shared.outbox after.outbox
  drop_ran : ∀ future shared after, shared.outbox.Kept →
    drop future shared = some after → Outbox.Ran shared.outbox after.outbox
  wake_ran : ∀ future waker shared future' after, shared.outbox.Kept →
    wake future waker shared = some (future', after) → Outbox.Ran shared.outbox after.outbox

/-- A routine that uses its outbox in its own polls only, and alone: its code. -/
structure Program (σ E : Type) where
  poll : σ → Waker → Prog E (Option (Poll × σ))
  drop : σ → Prog E (Option Unit)
  wake : σ → Waker → Option σ

variable {σ : Type}

def Program.routine (p : Program σ E) : Routine σ E H where
  poll future waker shared :=
    let (result, shared) := (p.poll future waker).run shared
    result.map (·, shared)
  drop future shared :=
    let (result, shared) := (p.drop future).run shared
    result.map fun _ => shared
  wake future waker shared := (p.wake future waker).map (·, shared)
  poll_ran future waker shared result after kept polled := by
    obtain ⟨_, _, same⟩ := Option.map_eq_some_iff.mp polled
    cases same
    exact (Prog.run_spec _ shared kept).1
  drop_ran future shared after kept dropped := by
    obtain ⟨_, _, rfl⟩ := Option.map_eq_some_iff.mp dropped
    exact (Prog.run_spec _ shared kept).1
  wake_ran future waker shared future' after _ woken := by
    obtain ⟨_, _, same⟩ := Option.map_eq_some_iff.mp woken
    cases same
    exact .refl _

/-- A routine that leaves no effect half built, whatever it does. -/
structure Routine.Private (r : Routine σ E H) : Prop where
  poll : ∀ future waker shared result after, shared.outbox.Kept →
    r.poll future waker shared = some (result, after) →
    beingBuilt after.outbox.log = beingBuilt shared.outbox.log
  drop : ∀ future shared after, shared.outbox.Kept → r.drop future shared = some after →
    beingBuilt after.outbox.log = beingBuilt shared.outbox.log
  wake : ∀ future waker shared future' after, shared.outbox.Kept →
    r.wake future waker shared = some (future', after) →
    beingBuilt after.outbox.log = beingBuilt shared.outbox.log

theorem Program.routine_private (p : Program σ E) : (p.routine : Routine σ E H).Private where
  poll future waker shared result after kept polled := by
    obtain ⟨_, _, same⟩ := Option.map_eq_some_iff.mp polled
    cases same
    exact (Prog.run_spec _ shared kept).2
  drop future shared after kept dropped := by
    obtain ⟨_, _, rfl⟩ := Option.map_eq_some_iff.mp dropped
    exact (Prog.run_spec _ shared kept).2
  wake future waker shared future' after _ woken := by
    obtain ⟨_, _, same⟩ := Option.map_eq_some_iff.mp woken
    cases same
    rfl

/-! ### Stepping -/

/-- `Stepper`: no future once the routine has completed. -/
structure Stepper (σ E H : Type) where
  future : Option σ
  shared : Shared E H
  status : Status
  waker : Waker

namespace Stepper

abbrev outbox (d : Stepper σ E H) : Outbox E := d.shared.outbox

/-- `Driver::new`: the routine's future is made over a fresh outbox. -/
def new (driver : Nat) (waker : Waker) (make : Prog E σ) : Stepper σ E H :=
  let (future, shared) := make.run ⟨Outbox.new driver, Wakeup.new, []⟩
  ⟨some future, { shared with outbox := shared.outbox.adopt waker }, .awaiting, waker⟩

def onWake (d : Stepper σ E H) (hook : H) : Stepper σ E H :=
  { d with shared := { d.shared with wakeup := d.shared.wakeup.setHook hook } }

def isFinished (d : Stepper σ E H) : Bool := d.future.isNone

/-- The end of a poll: what was recorded is drained, and the status follows. -/
def finishPoll (d : Stepper σ E H) (poll : Poll) (future : Option σ) (shared : Shared E H) :
    Yield E × Stepper σ E H :=
  let (yielded, outstanding, outbox) := shared.outbox.drain
  (yielded, { d with
    future, shared := { shared with outbox }, status := Status.classify poll outstanding })

/-- One poll of the routine. A routine that returns is dropped before the drain. -/
def poll (r : Routine σ E H) (d : Stepper σ E H) : Option (Yield E × Stepper σ E H) :=
  match d.future with
  | none => some (⟨[], []⟩, d)
  | some future =>
    let shared := { d.shared with wakeup := d.shared.wakeup.clear }
    match r.poll future d.waker shared with
    | none => none
    | some ((.pending, future), shared) => some (d.finishPoll .pending (some future) shared)
    | some ((.ready, future), shared) =>
      (r.drop future shared).map fun shared => d.finishPoll .ready none shared

/-- A reply that does not decode as the answer: the handle, and why. -/
structure Refused where
  reply : ReplyHandle
  error : DecodeError
  deriving DecidableEq

def tryReply (r : Routine σ E H) (d : Stepper σ E H) (reply : ReplyHandle) (value : Value) :
    Option (Except Refused (Yield E) × Stepper σ E H) :=
  match d.outbox.deliver reply value with
  | none => none
  | some (.delivered waker, outbox) =>
    let d := { d with shared := { d.shared with outbox } }
    let woken := match waker with
      | none => some d
      | some waker =>
        -- held first: whatever the waker does, it wakes this driver without telling the hook
        let d := { d with shared := { d.shared with wakeup := d.shared.wakeup.hold } }
        match d.future with
        | some future => (r.wake future waker d.shared).map fun (future, shared) =>
            { d with future := some future, shared }
        | none => some d
    woken.bind fun d => (d.poll r).map fun (yielded, d) => (.ok yielded, d)
  | some (.gone, outbox) =>
    some (.ok ⟨[], []⟩, { d with shared := { d.shared with outbox } })
  | some (.refused reply error, outbox) =>
    some (.error ⟨reply, error⟩, { d with shared := { d.shared with outbox } })

end Stepper

namespace Stepper

/-- A later state of the same driver, with no less history. What is half built is the same, if
the routine is `Private`. -/
structure Later (r : Routine σ E H) (d after : Stepper σ E H) : Prop where
  kept : after.outbox.Kept
  log : d.outbox.log <:+ after.outbox.log
  built : r.Private → beingBuilt after.outbox.log = beingBuilt d.outbox.log

theorem Later.refl {r : Routine σ E H} {d : Stepper σ E H} (kept : d.outbox.Kept) : Later r d d :=
  ⟨kept, List.suffix_refl _, fun _ => rfl⟩

theorem kept_new (driver : Nat) (waker : Waker) (make : Prog E σ) :
    (new driver waker make : Stepper σ E H).outbox.Kept ∧
      beingBuilt (new driver waker make : Stepper σ E H).outbox.log = [] ∧
      Outbox.Grown (Outbox.new driver : Outbox E) (new driver waker make : Stepper σ E H).outbox := by
  obtain ⟨ran, built⟩ := make.run_spec (H := H) ⟨Outbox.new driver, Wakeup.new, []⟩
    (Outbox.kept_new driver)
  obtain ⟨kept, grown⟩ := ran.grown (Outbox.kept_new driver)
  exact ⟨kept.adopt waker, built,
    ⟨grown.log, grown.deliveries, grown.drains, grown.emitted, grown.listed, grown.driver⟩⟩

/-- A poll that returns ran the routine's code and drained what it left. -/
structure Polled (r : Routine σ E H) (d after : Stepper σ E H) (yielded : Yield E) : Prop where
  intro ::
  ran : ∃ poll middle, middle.Kept ∧ Outbox.Grown d.outbox middle ∧
    (r.Private → beingBuilt middle.log = beingBuilt d.outbox.log) ∧
    yielded = middle.drain.1 ∧ after.outbox = middle.drain.2.2 ∧
    after.status = Status.classify poll middle.drain.2.1 ∧ (after.future = none ↔ poll = .ready)

theorem poll_cases (r : Routine σ E H) {d after : Stepper σ E H} (kept : d.outbox.Kept)
    {yielded : Yield E} (polled : d.poll r = some (yielded, after)) :
    (d.future = none ∧ yielded = ⟨[], []⟩ ∧ after = d) ∨ Polled r d after yielded := by
  unfold Stepper.poll at polled
  -- a routine that is complete is not polled again
  cases future : d.future with
  | none =>
    rw [future] at polled
    cases polled
    exact .inl ⟨rfl, rfl, rfl⟩
  | some held =>
    rw [future] at polled
    right
    let cleared : Shared E H := { d.shared with wakeup := d.shared.wakeup.clear }
    simp only at polled
    cases outcome : r.poll held d.waker cleared with
    | none =>
      rw [outcome] at polled
      cases polled
    | some result =>
      obtain ⟨⟨poll, next⟩, shared⟩ := result
      rw [outcome] at polled
      obtain ⟨kept', grown⟩ := (r.poll_ran _ _ cleared _ _ kept outcome).grown kept
      have built := fun alone : r.Private => alone.poll _ _ cleared _ _ kept outcome
      cases poll with
      | pending =>
        cases polled
        exact ⟨.pending, shared.outbox, kept', grown, built, rfl, rfl, rfl, by simp⟩
      -- the last poll, and then the drop of what the routine held
      | ready =>
        obtain ⟨shared', dropped, same⟩ := Option.map_eq_some_iff.mp polled
        cases same
        have ran' := r.drop_ran _ _ _ kept' dropped
        obtain ⟨kept'', grown'⟩ := ran'.grown kept'
        refine ⟨.ready, shared'.outbox, kept'', grown.trans grown', fun alone => ?_, rfl, rfl, rfl,
          by simp⟩
        exact (alone.drop _ _ _ kept' dropped).trans (built alone)

theorem Polled.later {r : Routine σ E H} {d after : Stepper σ E H} {yielded : Yield E}
    (polled : Polled r d after yielded) : Later r d after := by
  obtain ⟨poll, middle, kept, grown, built, _, same, _, _⟩ := polled
  obtain ⟨drained, log⟩ := kept.drain
  refine ⟨same ▸ drained, ?_, fun alone => ?_⟩
  · rw [same, log]
    exact grown.log.trans (List.suffix_cons _ _)
  · rw [same, log]
    exact built alone

theorem poll_later (r : Routine σ E H) {d after : Stepper σ E H} (kept : d.outbox.Kept)
    {yielded : Yield E} (polled : d.poll r = some (yielded, after)) : Later r d after := by
  rcases poll_cases r kept polled with ⟨_, _, rfl⟩ | polled
  · exact .refl kept
  · exact polled.later

/-- A reply delivered by its own driver is discarded, refused, or polls the routine. -/
theorem tryReply_cases (r : Routine σ E H) {d : Stepper σ E H} (kept : d.outbox.Kept)
    (reply : ReplyHandle) (value : Value) (own : reply.driver = d.outbox.mail.driver) :
    match (life reply.id d.outbox.log).answer with
    | none => d.tryReply r reply value = some (.ok ⟨[], []⟩, d)
    | some a =>
      match a.check value with
      | none => d.tryReply r reply value = none
      | some (.error error) => d.tryReply r reply value = some (.error ⟨reply, error⟩, d)
      | some (.ok ()) => ∀ result after, d.tryReply r reply value = some (result, after) →
          ∃ (yielded : Yield E) (replied middle : Stepper σ E H), result = .ok yielded ∧
            replied.outbox.Kept ∧ replied.outbox.log = .delivered reply.id value :: d.outbox.log ∧
            replied.outbox.mail.driver = d.outbox.mail.driver ∧
            middle.outbox.Kept ∧ Outbox.Grown replied.outbox middle.outbox ∧
            (r.Private → beingBuilt middle.outbox.log = beingBuilt replied.outbox.log) ∧
            middle.isFinished = d.isFinished ∧ middle.poll r = some (yielded, after) := by
  have delivered := kept.deliver reply value own
  unfold Stepper.tryReply
  -- by the life of the request, and then by what its check says of the value
  cases alive : (life reply.id d.outbox.log).answer with
  | none =>
    rw [alive] at delivered
    simp only at delivered ⊢
    rw [delivered]
  | some a =>
    simp only [alive] at delivered ⊢
    cases verdict : a.check value with
    | none =>
      simp only [verdict] at delivered ⊢
      rw [delivered]
    | some outcome =>
      cases outcome with
      | error error =>
        simp only [verdict] at delivered ⊢
        rw [delivered]
      | ok _ =>
        simp only [verdict] at delivered ⊢
        obtain ⟨waker, outbox, delivered, kept', log, driver⟩ := delivered
        rw [delivered]
        -- the value is in the slot; the waker it held is woken, and the routine polled
        intro result after returned
        obtain ⟨middle, woken, returned⟩ := Option.bind_eq_some_iff.mp returned
        obtain ⟨⟨yielded, last⟩, polled, same⟩ := Option.map_eq_some_iff.mp returned
        cases same
        let replied : Stepper σ E H := { d with shared := { d.shared with outbox } }
        refine ⟨yielded, replied, middle, rfl, kept', log, driver, ?_⟩
        cases waker with
        -- with no waker stored, or no routine left, nothing runs before the poll
        | none =>
          cases woken
          exact ⟨kept', (Outbox.Ran.refl outbox).grown kept' |>.2, fun _ => rfl, rfl, polled⟩
        | some waker =>
          cases future : d.future with
          | none =>
            simp only [future] at woken
            cases woken
            exact ⟨kept', (Outbox.Ran.refl outbox).grown kept' |>.2, fun _ => rfl,
              by simp [isFinished, future], polled⟩
          | some held =>
            simp only [future] at woken
            obtain ⟨⟨next, shared⟩, woke, rfl⟩ := Option.map_eq_some_iff.mp woken
            let holding : Shared E H := { replied.shared with wakeup := d.shared.wakeup.hold }
            obtain ⟨kept'', grown⟩ := (r.wake_ran held waker holding _ _ kept' woke).grown kept'
            exact ⟨kept'', grown, fun alone => alone.wake held waker holding _ _ kept' woke,
              by simp [isFinished, future], polled⟩

/-- A reply that returns left the driver as it was, or was delivered and polled the routine. -/
theorem tryReply_returned (r : Routine σ E H) {d after : Stepper σ E H} (kept : d.outbox.Kept)
    {reply : ReplyHandle} {value : Value} {result : Except Refused (Yield E)}
    (tried : d.tryReply r reply value = some (result, after)) :
    (after = d ∧ (result = .ok ⟨[], []⟩ ∨ ∃ error, result = .error ⟨reply, error⟩)) ∨
    ∃ (yielded : Yield E) (replied middle : Stepper σ E H), result = .ok yielded ∧
      replied.outbox.log = .delivered reply.id value :: d.outbox.log ∧
      replied.outbox.mail.driver = d.outbox.mail.driver ∧
      middle.outbox.Kept ∧ Outbox.Grown replied.outbox middle.outbox ∧
      (r.Private → beingBuilt middle.outbox.log = beingBuilt replied.outbox.log) ∧
      middle.poll r = some (yielded, after) := by
  by_cases own : reply.driver = d.outbox.mail.driver
  -- the same cases, read backwards
  · have cases := tryReply_cases r kept reply value own
    cases alive : (life reply.id d.outbox.log).answer with
    | none =>
      rw [alive] at cases
      cases cases.symm.trans tried
      exact .inl ⟨rfl, .inl rfl⟩
    | some a =>
      simp only [alive] at cases
      cases verdict : a.check value with
      | none =>
        rw [verdict] at cases
        cases cases.symm.trans tried
      | some outcome =>
        rw [verdict] at cases
        cases outcome with
        | error error =>
          cases cases.symm.trans tried
          exact .inl ⟨rfl, .inr ⟨error, rfl⟩⟩
        | ok _ =>
          obtain ⟨yielded, replied, middle, same, _, log, driver, kept', grown, built, _, polled⟩ :=
            cases result after tried
          exact .inr ⟨yielded, replied, middle, same, log, driver, kept', grown, built, polled⟩
  · -- a handle of another driver's panics
    unfold Stepper.tryReply Outbox.deliver Mail.deliver at tried
    rw [if_pos own] at tried
    cases tried

theorem tryReply_refused (r : Routine σ E H) {d after : Stepper σ E H} {reply : ReplyHandle}
    {value : Value} {refused : Refused} (kept : d.outbox.Kept)
    (tried : d.tryReply r reply value = some (.error refused, after)) :
    refused.reply = reply ∧ after = d := by
  obtain ⟨same, empty | ⟨error, given⟩⟩ | ⟨_, _, _, given, _⟩ := tryReply_returned r kept tried
  · cases empty
  · cases given
    exact ⟨rfl, same⟩
  · cases given

theorem tryReply_later (r : Routine σ E H) {d after : Stepper σ E H} (kept : d.outbox.Kept)
    {reply : ReplyHandle} {value : Value} {result : Except Refused (Yield E)}
    (tried : d.tryReply r reply value = some (result, after)) : Later r d after := by
  obtain ⟨rfl, _⟩ | ⟨_, replied, middle, _, log, _, kept', grown, built, polled⟩ :=
    tryReply_returned r kept tried
  · exact .refl kept
  · have later := poll_later r kept' polled
    refine ⟨later.kept, ?_, fun alone => ?_⟩
    · exact ((log ▸ List.suffix_cons _ _).trans grown.log).trans later.log
    · rw [later.built alone, built alone, log]
      rfl

theorem poll_emitted (r : Routine σ E H) {d after : Stepper σ E H} (kept : d.outbox.Kept)
    {yielded : Yield E} (polled : d.poll r = some (yielded, after)) :
    emitted after.outbox.log = emitted d.outbox.log ++ yielded.effects := by
  rcases poll_cases r kept polled with ⟨_, rfl, rfl⟩ | ⟨_, middle, kept', grown, _, rfl, same, _⟩
  · exact (List.append_nil _).symm
  · rw [same, kept'.drain.2, emitted, grown.emitted]

theorem tryReply_emitted (r : Routine σ E H) {d after : Stepper σ E H} (kept : d.outbox.Kept)
    {reply : ReplyHandle} {value : Value} {yielded : Yield E}
    (tried : d.tryReply r reply value = some (.ok yielded, after)) :
    emitted after.outbox.log = emitted d.outbox.log ++ yielded.effects := by
  obtain ⟨rfl, empty | ⟨_, given⟩⟩ | ⟨_, replied, middle, same, log, _, kept', grown, _, polled⟩ :=
    tryReply_returned r kept tried
  · cases empty
    exact (List.append_nil _).symm
  · cases given
  · cases same
    rw [poll_emitted r kept' polled, grown.emitted, log]
    rfl

theorem poll_own (r : Routine σ E H) {d after : Stepper σ E H} (kept : d.outbox.Kept)
    {yielded : Yield E} (polled : d.poll r = some (yielded, after)) :
    after.outbox.mail.driver = d.outbox.mail.driver := by
  rcases poll_cases r kept polled with ⟨_, _, rfl⟩ | ⟨_, middle, _, grown, _, _, same, _⟩
  · rfl
  · rw [same]
    exact grown.driver

theorem tryReply_own (r : Routine σ E H) {d after : Stepper σ E H} (kept : d.outbox.Kept)
    {reply : ReplyHandle} {value : Value} {result : Except Refused (Yield E)}
    (tried : d.tryReply r reply value = some (result, after)) :
    after.outbox.mail.driver = d.outbox.mail.driver := by
  obtain ⟨rfl, _⟩ | ⟨_, _, _, _, _, own, kept', grown, _, polled⟩ := tryReply_returned r kept tried
  · rfl
  · rw [poll_own r kept' polled, grown.driver, own]

end Stepper

end SansEffort
