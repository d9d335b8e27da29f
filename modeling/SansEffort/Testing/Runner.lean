import SansEffort.Driver

/-!
# The test runner

`drive_with` (`testing.rs`): the machines of one run, what is ready for them, and one iteration of
the loop that runs them. The routines, the handler and the schedule are any code; what they share is
one state, and each time the runner calls them they may wake machines. Code that panics ends the
run, which is then that far the run of code that does not.
-/

namespace SansEffort.Testing

/-! ### Types -/

/-- In nanoseconds. -/
abbrev Duration := Nat

def Duration.MAX : Duration := (2 ^ 64 - 1) * 10 ^ 9 + 999999999

def Duration.saturatingAdd (a b : Duration) : Duration := min (a + b) MAX

/-- A driver, migrating or local, but for its wakes. -/
structure Machine where
  /-- Whether its future is there: until the routine has completed. -/
  future : Bool
  status : Status
  complete_iff : status = .complete ↔ future = false

/-- Something the runner can do next. A reply that is queued is what will deliver it. -/
inductive Action (E D : Type)
  | effect (who : Nat) (effect : E)
  | reply (who : Nat) (deliver : D)
  | resume (who : Nat)

structure Timer (D : Type) where
  due : Duration
  who : Nat
  deliver : D
  /-- How many were set before it. -/
  serial : Nat

/-- What is noted of a run. -/
inductive Event (E : Type)
  | polled (who : Nat)
  | woke (who : Nat)
  | yielded (who : Nat) (effects : List E)
  | handed (who : Nat) (effect : E)
  | set (serial : Nat) (due : Duration)
  | fired (serial : Nat)

/-- What a run keeps between steps, with what has happened in it. -/
structure World (E D : Type) where
  /-- By index; `none` once killed. -/
  machines : List (Option Machine)
  ready : List (Action E D)
  timers : List (Timer D)
  now : Duration
  woken : List Nat
  /-- The wakes of each machine, which outlive it with its wakers. -/
  wakeups : List (Wakeup Nat)
  serials : Nat
  log : List (Event E)

inductive Result
  | completed (killed : List Nat)
  | stalled (machines : List Nat)
  /-- An index past the end of `ready` was removed. -/
  | panicked

/-- A call of the code: the state it leaves, the machines it wakes on the way, and what it
returns. -/
abbrev Call (G α : Type) := G → G × List Nat × α

/-- What became of a reply: it was delivered, perhaps with a waker kept for it, or nothing awaits it
any more. -/
inductive Delivery
  | delivered (kept : Bool)
  | gone

/-- What a handler does with an effect, in order. -/
inductive Act (D : Type)
  | reply (deliver : D)
  | replyAfter (delay : Duration) (deliver : D)
  | spawn
  | spawnPinned
  | wake (who : Nat)

/-- The code of a run: its routines with their outboxes, its handler and its schedule. -/
structure Code (G E D : Type) where
  /-- A routine is polled, its future dropped if it is ready, and its outbox drained. -/
  poll (who : Nat) : Call G (Poll × Yield E × Nat)
  deliver (who : Nat) (reply : D) : Call G Delivery
  /-- The waker kept for a request is woken. -/
  wake (who : Nat) (reply : D) : Call G Unit
  /-- A reply is dropped undelivered. -/
  discard (reply : D) : Call G Unit
  /-- A machine is dropped, with the replies of its timers. -/
  free (who : Nat) (replies : List D) : Call G Unit
  handle (who : Nat) (now : Duration) (effect : E) : G → G × List (Act D)
  next (ready : Nat) : Call G Nat
  stutter (machines : Nat) : Call G (Option Nat)
  kill (machines : Nat) : Call G (Option Nat)

structure State (G E D : Type) where
  shared : G
  world : World E D
  killed : List Nat
  result : Option Result

variable {G E D : Type}

/-! ### The world -/

namespace Machine

/-- As a driver is built. -/
def new : Machine := ⟨true, .awaiting, by decide⟩

theorem classify_complete (poll : Poll) (outstanding : Nat) :
    Status.classify poll outstanding = .complete ↔ decide (poll = .pending) = false := by
  unfold Status.classify
  cases poll with
  | ready => simp
  | pending =>
    dsimp only
    split <;> simp

/-- After a poll. -/
def polled (poll : Poll) (outstanding : Nat) : Machine :=
  ⟨poll = .pending, Status.classify poll outstanding, classify_complete poll outstanding⟩

end Machine

namespace World

/-- The machine there, unless it was killed. -/
def machine (w : World E D) (who : Nat) : Option Machine := (w.machines[who]?).join

/-- Add a machine: report its wakes by its index, and queue its first resume. -/
def adopt (w : World E D) (machine : Machine) (wakeup : Wakeup Nat) : World E D :=
  let who := w.machines.length
  { w with
    machines := w.machines ++ [some machine]
    wakeups := w.wakeups ++ [wakeup.setHook who]
    ready := w.ready ++ [.resume who]
    log := if wakeup.woken then w.log ++ [.woke who] else w.log }

/-- A waker of the machine's is woken. -/
def wakeUp (w : World E D) (who : Nat) : World E D :=
  match w.wakeups[who]? with
  | none => w
  | some wakeup =>
    let (hook, wakeup) := wakeup.wakeUp
    { w with
      wakeups := w.wakeups.set who wakeup
      woken := w.woken ++ hook.toList
      log := w.log ++ [.woke who] }

def clear (w : World E D) (who : Nat) : World E D :=
  { w with wakeups := w.wakeups.modify who Wakeup.clear, log := w.log ++ [.polled who] }

def hold (w : World E D) (who : Nat) : World E D :=
  { w with wakeups := w.wakeups.modify who Wakeup.hold }

def setMachine (w : World E D) (who : Nat) (machine : Machine) (effects : List E) : World E D :=
  { w with machines := w.machines.set who (some machine), log := w.log ++ [.yielded who effects] }

def pushEffects (w : World E D) (who : Nat) (step : Yield E) : World E D :=
  { w with ready := w.ready ++ step.effects.map (.effect who) }

/-- Each machine that woke is to be resumed, unless it is already. -/
def takeWoken (w : World E D) : World E D :=
  { w.woken.foldl (fun w who =>
      if w.ready.any (resumes who) then w else { w with ready := w.ready ++ [.resume who] }) w with
    woken := [] }
where
  resumes (who : Nat) : Action E D → Bool
    | .resume m => m = who
    | _ => false

/-- Fire the timer that falls due first, the earliest set among equals. -/
def fireNextTimer (w : World E D) : Option (World E D) :=
  match w.timers.findIdx? fun timer => w.timers.all (timer.due ≤ ·.due) with
  | none => none
  | some next =>
    match w.timers[next]? with
    | none => none
    | some timer =>
      some { w with
        timers := w.timers.eraseIdx next
        now := max w.now timer.due
        ready := w.ready ++ [.reply timer.who timer.deliver]
        log := w.log ++ [.fired timer.serial] }

/-- What the handler of an effect of machine `who` does. -/
def act (w : World E D) (who : Nat) : Act D → World E D
  | .reply deliver => { w with ready := w.ready ++ [.reply who deliver] }
  | .replyAfter delay deliver =>
    let due := w.now.saturatingAdd delay
    { w with
      timers := w.timers ++ [⟨due, who, deliver, w.serials⟩]
      serials := w.serials + 1
      log := w.log ++ [.set w.serials due] }
  | .spawn | .spawnPinned => w.adopt .new .new
  | .wake other => w.wakeUp other

/-- The machines that have neither been killed nor completed. -/
def stuck (w : World E D) : List Nat :=
  (List.range w.machines.length).filter fun who =>
    (w.machine who).any fun m => m.status ≠ .complete

end World

/-- The ready actions a schedule may pick, by index: everything but an effect with an older one from
the same machine still waiting. -/
def eligible (ready : List (Action E D)) : List Nat := go [] 0 ready
where
  go (seen : List Nat) (i : Nat) : List (Action E D) → List Nat
    | [] => []
    | .effect who _ :: rest =>
      if who ∈ seen then go seen (i + 1) rest else i :: go (seen ++ [who]) (i + 1) rest
    | _ :: rest => i :: go seen (i + 1) rest

/-! ### Steps -/

namespace State

/-- The code is called. -/
def call {α : Type} (s : State G E D) (f : Call G α) : State G E D × α :=
  let (shared, woke, a) := f s.shared
  ({ s with shared, world := woke.foldl World.wakeUp s.world }, a)

/-- `Stepper::poll`. -/
def poll (code : Code G E D) (s : State G E D) (who : Nat) (m : Machine) : State G E D × Yield E :=
  if m.future = false then (s, ⟨[], []⟩)
  else
    let s := { s with world := s.world.clear who }
    let (s, poll, yielded, outstanding) := s.call (code.poll who)
    ({ s with world := s.world.setMachine who (.polled poll outstanding) yielded.effects }, yielded)

/-- `Stepper::try_reply`. A waker kept for the request is woken once the machine is held woken. -/
def reply (code : Code G E D) (s : State G E D) (who : Nat) (m : Machine) (deliver : D) :
    State G E D × Yield E :=
  match s.call (code.deliver who deliver) with
  | (s, .delivered true) =>
    let (s, _) := { s with world := s.world.hold who }.call (code.wake who deliver)
    s.poll code who m
  | (s, .delivered false) => s.poll code who m
  | (s, .gone) => (s, ⟨[], []⟩)

def pushEffects (s : State G E D) (who : Nat) (step : Yield E) : State G E D :=
  { s with world := s.world.pushEffects who step }

/-- Drop a machine and its timers. Whether it was still running. -/
def kill (code : Code G E D) (s : State G E D) (who : Nat) : State G E D × Bool :=
  match s.world.machine who with
  | none => (s, false)
  | some m =>
    let dropped := (s.world.timers.filter (·.who = who)).map Timer.deliver
    let (s, _) := { s with world := { s.world with
      machines := s.world.machines.set who none
      timers := s.world.timers.filter (·.who ≠ who) } }.call (code.free who dropped)
    (s, m.status ≠ .complete)

/-- The schedule may kill a machine, and if that was running the iteration is over. -/
def killing (code : Code G E D) (s : State G E D) : State G E D × Bool :=
  match s.call (code.kill s.world.machines.length) with
  | (s, none) => (s, false)
  | (s, some who) =>
    match s.kill code who with
    | (s, true) => ({ s with killed := s.killed ++ [who] }, true)
    | (s, false) => (s, false)

/-- The schedule may resume a machine for no reason, and then the iteration is over. -/
def stuttering (code : Code G E D) (s : State G E D) : State G E D × Bool :=
  match s.call (code.stutter s.world.machines.length) with
  | (s, none) => (s, false)
  | (s, some who) =>
    match s.world.machine who with
    | none => (s, false)
    | some m =>
      let (s, step) := s.poll code who m
      (s.pushEffects who step, true)

/-- Do what was picked. -/
def take (code : Code G E D) (s : State G E D) : Action E D → State G E D
  | .effect who effect =>
    let world := { s.world with log := s.world.log ++ [.handed who effect] }
    let (shared, acts) := code.handle who world.now effect s.shared
    { s with shared, world := acts.foldl (fun w a => w.act who a) world }
  | .reply who deliver =>
    match s.world.machine who with
    | none => (s.call (code.discard deliver)).1
    | some m =>
      let (s, step) := s.reply code who m deliver
      s.pushEffects who step
  | .resume who =>
    match s.world.machine who with
    | none => s
    | some m =>
      let (s, step) := s.poll code who m
      s.pushEffects who step

/-- The schedule picks one of the ready actions. A choice past the end means the newest. -/
def picking (code : Code G E D) (s : State G E D) : State G E D :=
  let offered := eligible s.world.ready
  let (s, choice) := s.call (code.next offered.length)
  let pick := ((offered[choice]?).or offered.getLast?).getD 0
  match s.world.ready[pick]? with
  | none => { s with result := some .panicked }
  | some action =>
    { s with world := { s.world with ready := s.world.ready.eraseIdx pick } }.take code action

/-- Nothing is ready and there is no timer. -/
def finished (s : State G E D) : State G E D :=
  let stuck := s.world.stuck
  { s with result := some (if stuck.isEmpty then .completed s.killed else .stalled stuck) }

/-- One iteration of the loop. -/
def turn (code : Code G E D) (s : State G E D) : State G E D :=
  let s := { s with world := s.world.takeWoken }
  match s.killing code with
  | (s, true) => s
  | (s, false) =>
    match s.stuttering code with
    | (s, true) => s
    | (s, false) =>
      if s.world.ready.isEmpty then
        match s.world.fireNextTimer with
        | none => s.finished
        | some world => { s with world }.picking code
      else s.picking code

/-- As `drive_with` begins, with any root, which may have been driven and woken before. -/
def start (shared : G) (root : Machine) (wakeup : Wakeup Nat) : State G E D where
  shared
  world := World.adopt ⟨[], [], [], 0, [], [], 0, []⟩ root wakeup
  killed := []
  result := none

/-- The loop goes on until it returns. -/
def step (code : Code G E D) (s : State G E D) (_ : Unit) : Option (State G E D) :=
  if s.result.isSome then none else some (s.turn code)

end State

end SansEffort.Testing
