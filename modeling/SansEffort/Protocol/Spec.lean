import SansEffort.Library.Transition
import Mathlib.Data.Finmap
import Mathlib.Data.Finset.Image
import Mathlib.Logic.Function.Basic

/-!
# The host protocol

The specification of the ABI's host protocol (`spec/host_protocol.qnt`): a library that runs
machines one call at a time, and a host that drives them, with several calls in flight on different
workers. Machines are numbered in the order they were made, so the map of them is a list. A set that
is folded over is a list of distinct elements; the others are finite sets.
-/

namespace SansEffort.Protocol

/-! ### Types -/

/-- One step of a routine. -/
inductive Instr
  | send (c : String)
  | recv (c : String)
  | spawn (p : String)
  | spawnPinned (p : String)
  | ask
  | race (c : String)
  | panic
  deriving DecidableEq

inductive Status
  | notStarted
  | running
  | awaiting
  | idle
  | panicking
  | complete
  | gone
  deriving DecidableEq

structure Machine where
  prog : String
  pc : Nat
  status : Status
  /-- The channel it waits on, or `""`. -/
  waiting : String
  /-- Woken since it began to wait. -/
  woken : Bool
  asks : Finset Nat
  /-- The ask of a race still undecided, or 0. -/
  racing : Nat
  nextId : Nat
  holds : List String
  pinned : Bool
  /-- The worker that began it if it is pinned, or -1. -/
  owner : Int
  deriving DecidableEq

/-- A child's place among the call's children, and then its handle, or a request's id. -/
inductive Effect
  | spawned (child : Nat)
  | asked (id : Nat)
  deriving DecidableEq

/-- The library while a call runs, and what the call has emitted so far. -/
structure World where
  machines : List Machine
  queued : String → Nat
  senders : String → Int
  woke : Finset Nat
  effects : List Effect
  closed : Finset Nat
  children : List (String × Bool)

inductive Event
  | resume (h : Nat)
  | reply (h id : Nat)
  deriving DecidableEq

structure Output where
  woke : Finset Nat
  effects : List Effect
  closed : Finset Nat
  status : Status
  worker : Nat

inductive Verdict
  | running
  | ended
  | stall
  deriving DecidableEq

/-- The constants of an instance. A program is a name of `names`, and spawns only those. The maps
of channels are total here: a program looks at the channels it names. -/
structure Instance where
  names : Finset String
  programs : String → List Instr
  holds : String → List String
  root : String
  workers : Nat
  heedsWoke : Bool
  dropsClosed : Bool
  routesPinned : Bool
  checksAllDone : Bool
  waitsForWoke : Bool
  spurious : Int
  kills : Int
  holds_distinct : ∀ p, (holds p).Nodup
  root_named : root ∈ names
  spawns_named : ∀ p ∈ names, ∀ q, .spawn q ∈ programs p ∨ .spawnPinned q ∈ programs p → q ∈ names

structure Host where
  machines : List Machine
  queued : String → Nat
  senders : String → Int
  wakes : Finset Nat
  pending : Finset Event
  inFlight : Finmap fun _ : Nat => Output
  verdict : Verdict
  stale : Nat
  wrongThread : Nat
  steps : Nat
  spuriousLeft : Int
  killsLeft : Int

/-- Enough instructions to run any one call to its next wait. -/
def STEPS : Nat := 8

def BOUND : Nat := 60

def tick (steps : Nat) : Nat := if steps > BOUND then steps else steps + 1

/-! ### The library -/

variable (k : Instance)

def fresh (prog : String) (pinned : Bool) : Machine where
  prog
  pc := 0
  status := .notStarted
  waiting := ""
  woken := false
  asks := ∅
  racing := 0
  nextId := 1
  holds := k.holds prog
  pinned
  owner := -1

/-- A machine that is over: its asks are closed, and it waits for nothing and holds nothing. -/
def Machine.over (m : Machine) (status : Status) : Machine :=
  { m with status, asks := ∅, racing := 0, waiting := "", holds := [] }

namespace World

def update (w : World) (h : Nat) (f : Machine → Machine) : World :=
  { w with machines := w.machines.modify h f }

/-- Wake a machine waiting on `c` that is not already woken. -/
def wakeWaiter (c : String) (w : World) (h : Nat) : World :=
  match w.machines[h]? with
  | none => w
  | some m =>
    if m.waiting = c ∧ m.woken = false then
      { w.update h (fun m => { m with woken := true }) with woke := w.woke ∪ {h} }
    else w

def wakeWaiters (w : World) (c : String) : World :=
  (List.range w.machines.length).foldl (wakeWaiter c) w

def dropSender (w : World) (c : String) : World :=
  let left := w.senders c - 1
  let dropped := { w with senders := Function.update w.senders c left }
  if left = 0 then dropped.wakeWaiters c else dropped

/-- Drop a sender of each of `chans`. A channel whose last sender goes closes. -/
def dropSenders (w : World) (chans : List String) : World := chans.foldl dropSender w

/-- A receive would not wait: there is a message, or the channel is closed. -/
def ready (w : World) (c : String) : Prop := 0 < w.queued c ∨ w.senders c = 0

instance (w : World) (c : String) : Decidable (w.ready c) := inferInstanceAs (Decidable (_ ∨ _))

def take (w : World) (c : String) : World :=
  if 0 < w.queued c then { w with queued := Function.update w.queued c (w.queued c - 1) } else w

/-- The machine returns: its outstanding asks close, what it held drops. -/
def finish (w : World) (h : Nat) : World :=
  match w.machines[h]? with
  | none => w
  | some m =>
    let done := w.update h (·.over .complete)
    { done with closed := done.closed ∪ m.asks }.dropSenders m.holds

/-- The child's senders are held already, and it is registered when the call returns. -/
def spawn (w : World) (h : Nat) (p : String) (pinned : Bool) : World :=
  { w.update h (fun m => { m with pc := m.pc + 1 }) with
    senders := (k.holds p).foldl (fun s c => Function.update s c (s c + 1)) w.senders
    effects := w.effects ++ [.spawned w.children.length]
    children := w.children ++ [(p, pinned)] }

/-- Run one instruction of a running machine. -/
def exec (w : World) (h : Nat) : World :=
  match w.machines[h]? with
  | none => w
  | some m =>
    if m.status ≠ .running then w
    else match (k.programs m.prog)[m.pc]? with
      | none => w.finish h
      | some (.send c) =>
        ({ w with queued := Function.update w.queued c (w.queued c + 1) }.update h
          fun m => { m with pc := m.pc + 1 }).wakeWaiters c
      | some (.recv c) =>
        if 0 < w.queued c then (w.take c).update h fun m => { m with pc := m.pc + 1 }
        else if w.senders c = 0 then w.finish h
        else w.update h fun m => { m with status := .idle, waiting := c, woken := false }
      | some (.spawn p) => w.spawn k h p false
      | some (.spawnPinned p) => w.spawn k h p true
      | some .ask =>
        { w.update h (fun m => { m with
            status := .awaiting, asks := m.asks ∪ {m.nextId}, nextId := m.nextId + 1 }) with
          effects := w.effects ++ [.asked m.nextId] }
      | some (.race c) =>
        if w.ready c then (w.take c).update h fun m => { m with pc := m.pc + 1 }
        else
          { w.update h (fun m => { m with
              status := .awaiting, waiting := c, woken := false, racing := m.nextId,
              asks := m.asks ∪ {m.nextId}, nextId := m.nextId + 1 }) with
            effects := w.effects ++ [.asked m.nextId] }
      | some .panic => w.update h fun m => { m with status := .panicking }

/-- Run a machine to its next wait. -/
def runToWait (w : World) (h : Nat) : World :=
  (List.range STEPS).foldl (fun w _ => w.exec k h) w

/-- A race's receive has won, or its reply has come. -/
def go (w : World) (h : Nat) (id : Nat) : World :=
  w.update h fun m => { m with
    status := .running, pc := m.pc + 1, waiting := "", woken := false, asks := m.asks \ {id},
    racing := 0 }

/-- Begin a machine, or let a waiting one look again. -/
def resume (w : World) (h : Nat) : World :=
  match w.machines[h]? with
  | none => w
  | some m =>
    match m.status with
    | .notStarted => w.update h fun m => { m with status := .running }
    | .idle => w.update h fun m => { m with status := .running, waiting := "", woken := false }
    | .awaiting =>
      if m.racing ≠ 0 ∧ 0 < w.queued m.waiting then
        { (w.take m.waiting).go h m.racing with closed := w.closed ∪ {m.racing} }
      else if m.racing ≠ 0 then w.update h fun m => { m with woken := false }
      else w
    | _ => w

/-- A reply is delivered if the request is outstanding. -/
def deliver (w : World) (h id : Nat) : World :=
  match w.machines[h]? with
  | none => w
  | some m =>
    if id ∉ m.asks then w
    else if id = m.racing ∧ 0 < w.queued m.waiting then (w.take m.waiting).go h id
    else w.go h id

/-- After a panic the machine is removed, what it held drops, and the children it spawned never
existed. -/
def failCall (w : World) (h : Nat) : World :=
  match w.machines[h]? with
  | none => w
  | some m =>
    let unspawned := w.children.foldl (fun s c => s ∪ k.holds c.1) []
    let gone := w.update h (·.over .gone)
    (gone.dropSenders m.holds).dropSenders unspawned

/-- Register the children a successful call spawned, and name each in its effect by its handle. -/
def register (w : World) : World :=
  let base := w.machines.length
  { w with
    machines := w.machines ++ w.children.map fun c => fresh k c.1 c.2
    effects := w.effects.map fun
      | .spawned i => .spawned (base + i)
      | .asked id => .asked id }

end World

/-- The children an output spawned, and the requests it asked. -/
def spawnedIn (effects : List Effect) : Finset Nat :=
  (effects.filterMap fun
    | .spawned c => some c
    | .asked _ => none).toFinset

def askedIn (effects : List Effect) : Finset Nat :=
  (effects.filterMap fun
    | .spawned _ => none
    | .asked id => some id).toFinset

def Machine.waitingIn (m : Machine) : Prop := m.status = .idle ∨ m.status = .awaiting

instance (m : Machine) : Decidable m.waitingIn := inferInstanceAs (Decidable (_ ∨ _))

def Event.target : Event → Nat
  | .resume h => h
  | .reply h _ => h

/-! ### A call -/

namespace World

/-- What the event does before the machine runs. -/
def begin (w : World) : Event → World
  | .resume h => w.resume h
  | .reply h id => w.deliver h id

/-- The event, and the machine run to its next wait. -/
def attempt (w : World) (e : Event) : World := (w.begin e).runToWait k e.target

/-- The call has panicked. -/
def failed (w : World) (h : Nat) : Prop := (w.machines[h]?).any (·.status = .panicking) = true

instance (w : World) (h : Nat) : Decidable (w.failed h) := inferInstanceAs (Decidable (_ = true))

/-- The call ends: what it spawned is registered, or it fails. -/
def conclude (w : World) (h : Nat) : World := if w.failed h then w.failCall k h else w.register k

/-- A pinned machine is begun on the worker of its first call. -/
def own (w : World) (h worker : Nat) (m : Machine) : World :=
  if m.pinned = true ∧ m.owner = -1 then w.update h fun m => { m with owner := worker } else w

/-- The whole of a call, of a machine that is `m` as it begins. -/
def owned (w : World) (e : Event) (worker : Nat) (m : Machine) : World :=
  ((w.attempt k e).conclude k e.target).own e.target worker m

end World

/-! ### The host's actions -/

namespace Host

def init : Host where
  machines := [fresh k k.root false]
  queued _ := 0
  senders c := if c ∈ k.holds k.root then 1 else 0
  wakes := ∅
  pending := {.resume 0}
  inFlight := ∅
  verdict := .running
  stale := 0
  wrongThread := 0
  steps := 0
  spuriousLeft := k.spurious
  killsLeft := k.kills

/-- The library as a call begins. -/
def world (s : Host) : World := ⟨s.machines, s.queued, s.senders, ∅, [], ∅, []⟩

/-- Workers with no call in flight. -/
def idleWorkers (s : Host) : Finset Nat :=
  Finset.range k.workers \
    s.inFlight.keys.image fun h => (s.inFlight.lookup h).elim k.workers Output.worker

/-- A call on another worker than its machine's. -/
def wrong (m : Machine) (worker : Nat) : Prop :=
  m.pinned = true ∧ m.owner ≠ -1 ∧ m.owner ≠ (worker : Int)

instance (m : Machine) (worker : Nat) : Decidable (wrong m worker) :=
  inferInstanceAs (Decidable (_ ∧ _))

/-- A reply to a request that is not outstanding. -/
def isStale (m : Machine) : Event → Prop
  | .resume _ => False
  | .reply _ id => id ∉ m.asks

instance (m : Machine) : (e : Event) → Decidable (isStale m e)
  | .resume _ => inferInstanceAs (Decidable False)
  | .reply _ _ => inferInstanceAs (Decidable (_ ∉ _))

/-- The output of a call that has ended in `w`. A failed call has none. -/
def output (w : World) (h worker : Nat) (failed : Prop) [Decidable failed] (m : Machine) : Output where
  woke := if failed then ∅ else w.woke
  effects := if failed then [] else w.effects
  closed := if failed then ∅ else w.closed
  status := ((w.machines[h]?).getD m).status
  worker

/-- The call is made, on a machine that is `m` as it begins. -/
def called (s : Host) (e : Event) (worker : Nat) (m : Machine) : Host :=
  let h := e.target
  let ran := s.world.attempt k e
  let owned := s.world.owned k e worker m
  { s with
    pending := s.pending.erase e
    machines := owned.machines
    queued := owned.queued
    senders := owned.senders
    wakes := if ran.failed h then s.wakes ∪ owned.woke else s.wakes
    inFlight := s.inFlight.insert h (output owned h worker (ran.failed h) m)
    stale := if isStale m e then s.stale + 1 else s.stale
    steps := tick s.steps }

/-- A call on a free worker, for a machine with none in flight. The table refuses a pinned machine
on another worker than its own, and the event is lost. -/
def call (s : Host) (e : Event) (worker : Nat) : Option Host :=
  match s.machines[e.target]? with
  | none => none
  | some m =>
    if e ∈ s.pending ∧ worker ∈ s.idleWorkers k ∧ s.verdict = .running ∧
        e.target ∉ s.inFlight.keys ∧ s.inFlight.keys.card < k.workers ∧
        (k.routesPinned = true → ¬ wrong m worker) then
      if wrong m worker then
        some { s with
          pending := s.pending.erase e
          wrongThread := s.wrongThread + 1
          steps := tick s.steps }
      else some (s.called k e worker m)
    else none

/-- A machine that has ended is freed. -/
def retire (machines : List Machine) (h : Nat) (out : Output) : List Machine :=
  let ended := out.status = .complete ∨ out.status = .gone
  if ended then machines.modify h fun m => { m with status := .gone } else machines

/-- The host acts on the output of a call. -/
def returned (s : Host) (h : Nat) (out : Output) : Host :=
  let woken := if k.heedsWoke then out.woke.image .resume else ∅
  let polled := if !k.waitsForWoke ∧ out.status = .idle then {.resume h} else ∅
  let dropped := if k.dropsClosed then out.closed.image (.reply h) else ∅
  { s with
    inFlight := s.inFlight.erase h
    pending := (s.pending ∪ woken ∪ polled ∪ (spawnedIn out.effects).image .resume ∪
      (askedIn out.effects).image (.reply h)) \ dropped
    machines := retire s.machines h out
    steps := tick s.steps }

/-- A call returns. -/
def ret (s : Host) (h : Nat) : Option Host :=
  match s.inFlight.lookup h with
  | none => none
  | some out => some (s.returned k h out)

def allGone (s : Host) : Prop := ∀ m ∈ s.machines, m.status = .gone

instance (s : Host) : Decidable s.allGone := inferInstanceAs (Decidable (∀ _ ∈ _, _))

/-- Nothing to call and nothing in flight: ask `wakes`. If it names nobody, it is the end, or a
stall. -/
def quiet (s : Host) : Option Host :=
  if s.verdict = .running ∧ s.pending = ∅ ∧ s.inFlight.keys = ∅ then
    if s.wakes ≠ ∅ then
      some { s with pending := s.wakes.image .resume, wakes := ∅, steps := tick s.steps }
    else
      some { s with
        verdict := if !k.checksAllDone ∨ s.allGone then .ended else .stall
        steps := tick s.steps }
  else none

/-- A resume of a waiting machine for no reason. -/
def spurious (s : Host) (h : Nat) : Option Host :=
  match s.machines[h]? with
  | none => none
  | some m =>
    if m.waitingIn ∧ h ∉ s.inFlight.keys ∧ s.verdict = .running ∧ 0 < s.spuriousLeft then
      some { s with
        pending := s.pending ∪ {.resume h}
        spuriousLeft := s.spuriousLeft - 1
        steps := tick s.steps }
    else none

/-- The host frees machine `m`, and forgets the events it had for it. -/
def killed (s : Host) (h : Nat) (m : Machine) : Host :=
  let gone := s.world.update h (·.over .gone)
  let w := gone.dropSenders m.holds
  { s with
    machines := w.machines
    queued := w.queued
    senders := w.senders
    wakes := s.wakes ∪ w.woke
    pending := s.pending.filter fun e => e.target ≠ h
    killsLeft := s.killsLeft - 1
    steps := tick s.steps }

/-- A waiting machine with no call in flight is freed. -/
def kill (s : Host) (h : Nat) : Option Host :=
  match s.machines[h]? with
  | none => none
  | some m =>
    if m.waitingIn ∧ h ∉ s.inFlight.keys ∧ s.verdict = .running ∧ 0 < s.killsLeft then
      some (s.killed h m)
    else none

/-- The host has given its verdict, and nothing more happens. -/
def done (s : Host) : Option Host := if s.verdict ≠ .running then some s else none

inductive Action
  | call (e : Event) (worker : Nat)
  | ret (h : Nat)
  | quiet
  | spurious (h : Nat)
  | kill (h : Nat)
  | done
  deriving DecidableEq

def step (s : Host) : Action → Option Host
  | .call e worker => s.call k e worker
  | .ret h => s.ret k h
  | .quiet => s.quiet k
  | .spurious h => s.spurious h
  | .kill h => s.kill h
  | .done => s.done

/-! ### Properties -/

/-- The library would let this machine progress if it were called. -/
def runnable (s : Host) (m : Machine) : Prop :=
  match m.status with
  | .notStarted => True
  | .idle => s.world.ready m.waiting
  | .awaiting => m.racing ≠ 0 ∧ s.world.ready m.waiting
  | _ => False

/-- A machine that could progress is about to be called, or will be named by `wakes` or by a call
in flight. -/
def noLostWake (s : Host) : Prop :=
  ∀ h m, s.machines[h]? = some m → s.runnable m →
    .resume h ∈ s.pending ∨ h ∈ s.wakes ∨ h ∈ s.inFlight.keys ∨
      ∃ x out, s.inFlight.lookup x = some out ∧ (h ∈ out.woke ∨ h ∈ spawnedIn out.effects)

def stallIsSound (s : Host) : Prop := s.verdict = .stall → ∀ m ∈ s.machines, ¬ s.runnable m

def endIsSound (s : Host) : Prop := s.verdict = .ended → s.allGone

def settled (s : Host) : Prop := ∀ m ∈ s.machines, m.status ≠ .running ∧ m.status ≠ .panicking

def noStaleReply (s : Host) : Prop := s.stale = 0

end Host

/-- The correct host. -/
structure Instance.Correct : Prop where
  heedsWoke : k.heedsWoke = true
  dropsClosed : k.dropsClosed = true
  routesPinned : k.routesPinned = true
  checksAllDone : k.checksAllDone = true
  waitsForWoke : k.waitsForWoke = true

/-- `STEPS` is enough for every program. -/
def Instance.Short : Prop := ∀ p ∈ k.names, (k.programs p).length ≤ STEPS - 1

end SansEffort.Protocol
