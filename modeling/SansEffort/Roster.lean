import SansEffort.Sessions
import SansEffort.Spawning

/-!
# A session's machines

The machines of one recording session by their handles, without the rest of the table: where each
is, what its driver has, and the call being made on them. What their code does acts on this alone,
so a thread that shows a roster goes on showing it, whatever else its table holds.
-/

namespace SansEffort

/-- What the code of a session's machines does next. It names a machine by its handle. -/
inductive CodeAct
  | wake (handle : Nat)
  | create (pinned : Bool)
  | built
  | hold
  | beginPoll
  | finish (result : Coded)
  | panics
  | dropped
  | left
  | freed
  deriving DecidableEq

/-! ### The machines -/

/-- Where a machine is. -/
inductive Spot
  | tabled
  | parked
  | building
  | owned
  | gone
  deriving DecidableEq

/-- One machine: its kind, its place, and its driver. -/
structure Part where
  pinned : Bool
  spot : Spot
  woken : Bool
  hooked : Bool
  completed : Bool

namespace Part

/-- A machine just created. -/
def new (pinned : Bool) : Part :=
  ⟨pinned, if pinned then .parked else .tabled, false, !pinned, false⟩

def find (p : Part) : Except Error Unit :=
  match p.spot with
  | .tabled | .owned => .ok ()
  | .parked => .error .badInput
  | .building | .gone => .error .badHandle

/-- A machine is in the tables of its kind. -/
def fits (p : Part) : Bool :=
  match p.spot with
  | .tabled => !p.pinned
  | .gone => true
  | _ => p.pinned

end Part

/-- The call being made, and the machines woken during it. -/
inductive Top
  | building (handle : Nat)
  | running (handle : Nat) (c : PollCall) (phase : Phase) (woken : List Nat)
  | dropping (handle : Nat) (c : PollCall) (phase : Phase) (woken : List Nat)
  | leaving (handle : Nat) (c : PollCall) (result : Coded) (woken : List Nat)
  | freeing (handle : Nat)

namespace Top

def handle : Top → Nat
  | building handle => handle
  | running handle _ _ _ => handle
  | dropping handle _ _ _ => handle
  | leaving handle _ _ _ => handle
  | freeing handle => handle

/-- A poll's call, during which machines are created. -/
def polls : Top → Bool
  | running _ _ _ _ => true
  | dropping _ _ _ _ => true
  | leaving _ _ _ _ => true
  | _ => false

/-- A machine that runs was found, and one being built is in no table. -/
def Found (p : Part) : Top → Prop
  | building _ => p.spot = .building
  | running _ _ _ _ => p.find = .ok ()
  | dropping _ _ _ _ => p.find = .ok ()
  | _ => True

/-- Note a wake, if it is during a poll's call. -/
def collect (handle : Nat) : Top → Top
  | running h c phase woken => running h c phase (woken ++ [handle])
  | dropping h c phase woken => dropping h c phase (woken ++ [handle])
  | leaving h c result woken => leaving h c result (woken ++ [handle])
  | top => top

theorem collect_handle (handle : Nat) (top : Top) : (top.collect handle).handle = top.handle := by
  cases top <;> rfl

theorem collect_found (handle : Nat) (p : Part) (top : Top) :
    (top.collect handle).Found p ↔ top.Found p := by
  cases top <;> rfl

end Top

structure Roster where
  handles : List Nat
  events : List Record.Event
  parts : Nat → Part
  top : Option Top

namespace Roster

open Record (Log)

/-- A root that was just created, and is recorded. -/
def begin (root : Nat) (pinned : Bool) : Roster := ⟨[root], [], fun _ => .new pinned, none⟩

def set (r : Roster) (handle : Nat) (p : Part) (top : Option Top) : Roster :=
  { r with parts := Function.update r.parts handle p, top }

def returns (r : Roster) (handle : Nat) (c : AnyCall) (outcome : Record.Outcome) : Roster :=
  { r with
    events := r.events ++ [c.event outcome (Log.number (r.handles.idxOf handle))], top := none }

def report (r : Roster) (handle : Nat) (c : PollCall) (result : Coded) (woken : List Nat) : Roster :=
  match result with
  | .ok (bytes, status) =>
    r.returns handle (.poll c) (Record.outcome (.ok (bytes ++ wokeFrames woken, status)))
  | .error error => r.returns handle (.poll c) (Record.outcome (.error error))

def enter (r : Roster) (handle : Nat) (c : PollCall) : Roster :=
  match (r.parts handle).find with
  | .error error => r.report handle c (.error error) []
  | .ok () => { r with top := some (.running handle c .entered []) }

def call (r : Roster) (handle : Nat) : AnyCall → Roster
  | .poll .resume =>
    let p := r.parts handle
    if p.spot = .parked then r.set handle { p with spot := .building } (some (.building handle))
    else r.enter handle .resume
  | .poll (.reply record) => r.enter handle (.reply record)
  | .free =>
    let p := r.parts handle
    if p.spot = .gone then r.returns handle .free ⟨Error.badHandle.code, []⟩
    else r.set handle { p with spot := .gone } (some (.freeing handle))

def wake (r : Roster) (handle : Nat) : Roster :=
  let p := r.parts handle
  if p.hooked && !p.woken then
    r.set handle { p with woken := true } (r.top.map (Top.collect handle))
  else r

def create (r : Roster) (pinned : Bool) (handle : Nat) : Roster :=
  { r with
    handles := r.handles ++ [handle], parts := Function.update r.parts handle (Part.new pinned) }

/-- What the code does, other than to create a machine: `none` if it cannot. -/
def act (r : Roster) : CodeAct → Option Roster
  | .wake handle => some (r.wake handle)
  | .create _ => none
  | .built =>
    match r.top with
    | some (.building handle) =>
      let p := r.parts handle
      some ((r.set handle { p with spot := .owned, woken := false, hooked := true } none).enter
        handle .resume)
    | _ => none
  | .hold =>
    match r.top with
    | some (.running handle (.reply record) .entered woken) =>
      some (r.set handle { r.parts handle with woken := true }
        (some (.running handle (.reply record) .holding woken)))
    | _ => none
  | .beginPoll =>
    match r.top with
    | some (.running handle c phase woken) =>
      if phase = .polling ∨ (r.parts handle).completed then none
      else some (r.set handle { r.parts handle with woken := false }
        (some (.running handle c .polling woken)))
    | _ => none
  | .finish result =>
    match r.top with
    | some (.running handle c phase woken) =>
      if phase = .holding then none
      else
        let p := r.parts handle
        some ((r.set handle { p with completed := p.completed || Thread.completes phase result }
          none).report handle c result woken)
    | _ => none
  | .panics =>
    match r.top with
    | some (.running handle c phase woken) =>
      some { r with top := some (.dropping handle c phase woken) }
    | _ => none
  | .dropped =>
    match r.top with
    | some (.dropping handle c _ woken) =>
      some (r.set handle { r.parts handle with spot := .gone }
        (some (.leaving handle c (.error .panicked) woken)))
    | _ => none
  | .left =>
    match r.top with
    | some (.leaving handle c result woken) => some (r.report handle c result woken)
    | _ => none
  | .freed =>
    match r.top with
    | some (.freeing handle) => some (r.returns handle .free ⟨Contract.ok, []⟩)
    | _ => none

/-- No constructor runs. -/
def Quiet (r : Roster) : Prop := ∀ handle, (r.parts handle).spot ≠ .building

theorem Quiet.set {r : Roster} (quiet : r.Quiet) {handle : Nat} {p : Part} (built : p.spot ≠ .building)
    (top : Option Top) : (r.set handle p top).Quiet := by
  intro other
  show (Function.update r.parts handle p other).spot ≠ _
  by_cases same : other = handle
  · rw [same, Function.update_self]
    exact built
  · rw [Function.update_of_ne same]
    exact quiet other

end Roster

/-! ### A thread that shows them -/

def AnyCall.act (handle : Nat) : AnyCall → Act
  | .poll c => c.act handle
  | .free => .free handle

/-- The handles a frame was made with. -/
def Frame.handles : Frame → List Nat
  | building called => [called.handle]
  | running called who _ _ outer =>
    called.handle :: who.handle :: (outer.map CallState.handle).toList
  | dropping called who _ _ outer =>
    called.handle :: who.handle :: (outer.map CallState.handle).toList
  | abandoning called => [called.handle]
  | leaving called _ _ outer => called.handle :: (outer.map CallState.handle).toList
  | freeing called => [called.handle]

namespace Thread

/-- A driver that was never built has no waker to call. -/
def codeStep (t : Thread) : CodeAct → Option Thread
  | .wake handle =>
    if (t.wakeups (t.issued handle)).hook.isSome then t.step (.wake (t.issued handle)) else some t
  | .create _ => none
  | .built => t.step .built
  | .hold => t.step .hold
  | .beginPoll => t.step .beginPoll
  | .finish result => t.step (.finish result)
  | .panics => t.step .panics
  | .dropped => t.step .dropped
  | .left => t.step .left
  | .freed => t.step .freed

/-- The thread makes no call. -/
structure Rest (t : Thread) : Prop where
  frames : t.frames = []
  call : t.call = none

/-- The calls it makes are not of those machines. -/
structure Away (t : Thread) (handles : List Nat) : Prop where
  frames : ∀ frame ∈ t.frames, ∀ handle ∈ frame.handles, handle ∉ handles
  call : ∀ call, t.call = some call → call.handle ∉ handles

theorem Rest.away {t : Thread} (rest : t.Rest) (handles : List Nat) : t.Away handles := by
  constructor
  · intro frame member
    rw [rest.frames] at member
    cases member
  · intro call here
    rw [rest.call] at here
    cases here

structure HasPart (t : Thread) (handle : Nat) (p : Part) : Prop where
  kind : (t.issued handle).pinned = p.pinned
  machines : t.table.machines handle = if p.spot = .tabled then some (t.issued handle) else none
  parked : t.table.parked handle = if p.spot = .parked then some (t.issued handle) else none
  pinned : t.table.pinned handle = decide (p.spot = .building ∨ p.spot = .owned)
  locals : p.spot = .owned → t.locals handle = some (t.issued handle)
  wakeup : t.wakeups (t.issued handle) = ⟨p.woken, if p.hooked then some (t.issued handle) else none⟩
  completed : t.completed (t.issued handle) = p.completed
  fits : p.fits = true
  unpoisoned : t.poisoned (t.issued handle) = false

/-- The notices a call has collected are of those machines. -/
def Collects (t : Thread) (handle : Nat) (woken : List Nat) : Prop :=
  ∃ collected, t.call = some ⟨handle, collected⟩ ∧ collected.map (·.who.handle) = woken

def HasTop (t : Thread) (handles : List Nat) : Option Top → Prop
  | none => t.Away handles
  | some (.building handle) => t.frames = [.building (t.issued handle)] ∧ t.call = none
  | some (.running handle c phase woken) =>
    t.frames = [.running (t.issued handle) (t.issued handle) c phase none] ∧
      t.Collects handle woken
  | some (.dropping handle c phase woken) =>
    t.frames = [.dropping (t.issued handle) (t.issued handle) c phase none] ∧
      t.Collects handle woken
  | some (.leaving handle c result woken) =>
    t.frames = [.leaving (t.issued handle) c result none] ∧ t.Collects handle woken
  | some (.freeing handle) => t.frames = [.freeing (t.issued handle)] ∧ t.call = none

/-- The session's machines are as the roster has them. -/
structure Holds (session : Nat) (t : Thread) (r : Roster) : Prop where
  issued : ∀ handle, (t.issued handle).handle = handle
  log : t.table.sessions session = some ⟨r.handles, r.events⟩
  taps : ∀ handle, Table.tapsIn (t.table.recorded handle) session =
    if handle ∈ r.handles then [⟨session, Record.Log.number (r.handles.idxOf handle)⟩] else []
  parts : ∀ handle ∈ r.handles, t.HasPart handle (r.parts handle)

/-- The thread shows the roster of the session. -/
structure Shows (session : Nat) (t : Thread) (r : Roster) : Prop extends Holds session t r where
  top : t.HasTop r.handles r.top
  own : ∀ top, r.top = some top → top.handle ∈ r.handles ∧ top.Found (r.parts top.handle)
  settled : ∀ handle, (r.parts handle).spot = .building → r.top = some (.building handle)

/-- The thread shows the roster, and the last call to return is the roster's last event. -/
structure Tells (session : Nat) (t : Thread) (r : Roster) : Prop extends Shows session t r where
  rest : r.top = none → t.Rest
  told : r.top = none → ∀ event, r.events.getLast? = some event →
    lastOutcome t.history = some event.outcome

/-- The machine of a handle is where it was. -/
structure SameAt (t after : Thread) (handle : Nat) : Prop where
  issued : after.issued handle = t.issued handle
  machines : after.table.machines handle = t.table.machines handle
  parked : after.table.parked handle = t.table.parked handle
  pinned : after.table.pinned handle = t.table.pinned handle
  locals : after.locals handle = t.locals handle
  wakeups : after.wakeups (t.issued handle) = t.wakeups (t.issued handle)
  completed : after.completed (t.issued handle) = t.completed (t.issued handle)
  poisoned : after.poisoned (t.issued handle) = t.poisoned (t.issued handle)

section

variable {session : Nat} {t after : Thread} {r : Roster} {handle : Nat}

theorem HasPart.of_same {p : Part} (part : t.HasPart handle p) (same : t.SameAt after handle) :
    after.HasPart handle p := by
  constructor
  · rw [same.issued, part.kind]
  · rw [same.issued, same.machines, part.machines]
  · rw [same.issued, same.parked, part.parked]
  · rw [same.pinned, part.pinned]
  · intro owned
    rw [same.issued, same.locals, part.locals owned]
  · rw [same.issued, same.wakeups, part.wakeup]
  · rw [same.issued, same.completed, part.completed]
  · exact part.fits
  · rw [same.issued, same.poisoned, part.unpoisoned]

theorem HasPart.find {p : Part} (part : t.HasPart handle p) (built : p.spot ≠ .building) :
    t.find handle = p.find.map fun _ => t.issued handle := by
  have locals := part.locals
  unfold Thread.find Part.find
  rw [part.machines, part.parked, part.pinned]
  cases spot : p.spot with
  | tabled | parked | gone => rfl
  | owned => simp [locals spot, Except.map]
  | building => exact absurd spot built

/-- A machine that is found is in the table of its kind. -/
theorem HasPart.kept {p : Part} (part : t.HasPart handle p) (found : p.find = .ok ())
    (own : (t.issued handle).handle = handle) : t.isKept (t.issued handle) = true := by
  have fits := part.fits
  have locals := part.locals
  unfold Part.find at found
  unfold Part.fits at fits
  unfold Thread.isKept
  rw [part.kind, own, part.machines]
  cases spot : p.spot <;> rw [spot] at found fits <;> simp_all

theorem Holds.apart (holds : Holds session t r) {other : Nat} (away : other ≠ handle) :
    t.issued other ≠ t.issued handle := by
  intro same
  apply away
  rw [← holds.issued other, same, holds.issued]

theorem Holds.with_top (holds : Holds session t r) (top : Option Top) :
    Holds session t { r with top } :=
  ⟨holds.issued, holds.log, holds.taps, holds.parts⟩

/-- No machine moved. -/
theorem Holds.of_same (holds : Holds session t r) (same : ∀ handle, t.SameAt after handle)
    (sessions : after.table.sessions = t.table.sessions)
    (recorded : after.table.recorded = t.table.recorded) (issued : after.issued = t.issued) :
    Holds session after r := by
  constructor
  · rw [issued]
    exact holds.issued
  · rw [sessions]
    exact holds.log
  · rw [recorded]
    exact holds.taps
  · exact fun other member => (holds.parts other member).of_same (same other)

/-- One machine moved, or its driver did. -/
theorem Holds.set (holds : Holds session t r) {p : Part} {top : Option Top}
    (part : after.HasPart handle p)
    (others : ∀ other, other ≠ handle → t.SameAt after other)
    (sessions : after.table.sessions = t.table.sessions)
    (recorded : after.table.recorded = t.table.recorded) (issued : after.issued = t.issued) :
    Holds session after (r.set handle p top) := by
  constructor
  · rw [issued]
    exact holds.issued
  · rw [sessions]
    exact holds.log
  · rw [recorded]
    exact holds.taps
  · intro other member
    show after.HasPart other (Function.update r.parts handle p other)
    by_cases same : other = handle
    · rw [same, Function.update_self]
      exact part
    · rw [Function.update_of_ne same]
      exact (holds.parts other member).of_same (others other same)

theorem event_outcome (c : AnyCall) (outcome : Record.Outcome) (machine : Nat) :
    (c.event outcome machine).outcome = outcome := by
  cases c with
  | poll c => cases c <;> rfl
  | free => rfl

/-! ### Calls -/

/-- A call on a machine of the session returns. -/
theorem Holds.returns (holds : Holds session t r) (counted : t.Counted) (rest : t.Rest)
    (quiet : r.Quiet) (member : handle ∈ r.handles) (c : AnyCall) (outcome : Record.Outcome)
    (woken : List Notice) :
    Tells session (t.returns (t.issued handle) c outcome woken) (r.returns handle c outcome) := by
  obtain ⟨sessions, same, logged⟩ := counted.returns_spec (t.issued handle) c outcome woken
  rw [same]
  have resting : Rest { t with
      table := { t.table with sessions }
      history := .returned (t.issued handle) c outcome woken :: t.history } := ⟨rest.frames, rest.call⟩
  constructor
  · constructor
    · constructor
      · exact holds.issued
      · show sessions session = _
        rw [logged, holds.log, holds.issued, holds.taps, if_pos member]
        rfl
      · exact holds.taps
      · intro other here
        exact (holds.parts other here).of_same ⟨rfl, rfl, rfl, rfl, rfl, rfl, rfl, rfl⟩
    · exact resting.away _
    · intro top running
      cases running
    · exact fun other building => absurd building (quiet other)
  · exact fun _ => resting
  · intro _ event last
    simp only [Roster.returns, List.getLast?_concat, Option.some.injEq] at last
    rw [← last, event_outcome]
    rfl

theorem Holds.report (holds : Holds session t r) (counted : t.Counted) (frames : t.frames = [])
    {woken : List Nat} (collects : t.Collects handle woken) (quiet : r.Quiet)
    (member : handle ∈ r.handles) (c : PollCall) (result : Coded) :
    Tells session (t.report (t.issued handle) c result none) (r.report handle c result woken) := by
  obtain ⟨collected, call, rfl⟩ := collects
  have left : ∀ wakes, Holds session { t with call := none, wakes } r := by
    intro wakes
    exact holds.of_same (fun _ => ⟨rfl, rfl, rfl, rfl, rfl, rfl, rfl, rfl⟩) rfl rfl rfl
  have uncounted : ∀ wakes, Counted { t with call := none, wakes } := by
    intro wakes
    exact counted.of_same rfl rfl rfl rfl
  cases result with
  | ok reply =>
    obtain ⟨bytes, status⟩ := reply
    have returned := (left t.wakes).returns (uncounted _) ⟨frames, rfl⟩ quiet member (.poll c)
      (Record.outcome (.ok (bytes ++ wokeFrames (collected.map (·.who.handle)), status))) collected
    unfold Thread.report
    rw [call]
    exact returned
  | error error =>
    exact (left _).returns (uncounted _) ⟨frames, rfl⟩ quiet member (.poll c)
      (Record.outcome (.error error)) []

/-- A call on a machine of the session that has a driver, or is refused. -/
theorem Holds.enter (holds : Holds session t r) (counted : t.Counted) (rest : t.Rest)
    (quiet : r.Quiet) (member : handle ∈ r.handles) (c : PollCall) :
    Tells session (t.enter (t.issued handle) c) (r.enter handle c) := by
  have found := (holds.parts handle member).find (quiet handle)
  have begun : ∀ frames, Holds session { t with call := some ⟨handle, []⟩, frames } r := by
    intro frames
    exact holds.of_same (fun _ => ⟨rfl, rfl, rfl, rfl, rfl, rfl, rfl, rfl⟩) rfl rfl rfl
  unfold Thread.enter Roster.enter
  rw [holds.issued, rest.call]
  dsimp only
  rw [show Thread.find { t with call := some ⟨handle, []⟩ } handle = t.find handle from rfl, found]
  cases reached : (r.parts handle).find with
  | error error =>
    exact (begun t.frames).report (counted.of_same rfl rfl rfl rfl) rest.frames ⟨[], rfl, rfl⟩ quiet
      member c (.error error)
  | ok _ =>
    have free : Thread.isLocked { t with call := some ⟨handle, []⟩ } (t.issued handle) = false := by
      simp [Thread.isLocked, rest.frames]
    have unpoisoned : Thread.isPoisoned { t with call := some ⟨handle, []⟩ } (t.issued handle) =
        false := by
      simp [Thread.isPoisoned, (holds.parts handle member).unpoisoned]
    simp only [Except.map]
    rw [if_neg (by rw [free]; exact Bool.false_ne_true),
      if_neg (by rw [unpoisoned]; exact Bool.false_ne_true)]
    constructor
    · constructor
      · exact (begun _).with_top _
      · show _ = _ ∧ _
        rw [rest.frames]
        exact ⟨rfl, [], rfl, rfl⟩
      · intro top here
        cases here
        exact ⟨member, reached⟩
      · exact fun other building => absurd building (quiet other)
    · intro idle
      cases idle
    · intro idle
      cases idle

/-- A machine freed, up to its destructors. -/
theorem Holds.free (holds : Holds session t r) (counted : t.Counted) (rest : t.Rest)
    (quiet : r.Quiet) (member : handle ∈ r.handles) :
    Tells session (t.free handle) (r.call handle .free) := by
  have here := holds.parts handle member
  have unlocked : ∀ who, t.isLocked who = false := fun who => by simp [Thread.isLocked, rest.frames]
  -- its place is the one that changes
  have freeing : ∀ {after : Thread}, (after.HasPart handle { r.parts handle with spot := .gone }) →
      (∀ other, other ≠ handle → t.SameAt after other) → after.table.sessions = t.table.sessions →
      after.table.recorded = t.table.recorded → after.issued = t.issued → after.call = t.call →
      after.frames = [.freeing (t.issued handle)] → Tells session after
        (r.set handle { r.parts handle with spot := .gone } (some (.freeing handle))) := by
    intro after part others sessions recorded issued call stack
    constructor
    · constructor
      · exact holds.set part others sessions recorded issued
      · show _ = _ ∧ _
        rw [stack, issued, call, rest.call]
        exact ⟨rfl, rfl⟩
      · intro top here
        cases here
        exact ⟨member, trivial⟩
      · exact fun other building => absurd building (quiet.set (by simp) none other)
    · intro idle
      cases idle
    · intro idle
      cases idle
  unfold Thread.free Roster.call
  dsimp only
  rw [here.machines, here.parked, here.pinned]
  cases spot : (r.parts handle).spot with
  | building => exact absurd spot (quiet handle)
  | gone => exact holds.returns counted rest quiet member .free ⟨Error.badHandle.code, []⟩ []
  | tabled | parked =>
    simp only [unlocked, reduceCtorEq, if_true, if_false, Option.isSome_some, Option.isSome_none,
      Bool.or_true, Bool.true_or, Option.any_some, Option.any_none, Bool.false_eq_true]
    refine freeing ⟨here.kind, Function.update_self _ _ _, Function.update_self _ _ _, ?_,
      (by simp), here.wakeup, here.completed, rfl, here.unpoisoned⟩ (fun other away => ?_) rfl rfl
      rfl rfl (by rw [rest.frames])
    · exact here.pinned.trans (by rw [spot]; rfl)
    · exact ⟨rfl, Function.update_of_ne away _ _, Function.update_of_ne away _ _, rfl, rfl, rfl, rfl,
        rfl⟩
  | owned =>
    have machine := here.locals spot
    simp only [Thread.isLocked, rest.frames, List.any_nil, machine, reduceCtorEq, if_false,
      Option.isSome_none, Bool.or_self, Bool.false_eq_true, or_true, decide_true, if_true]
    have absent := here.machines
    have unparked := here.parked
    rw [spot] at absent unparked
    refine freeing ⟨here.kind, absent, unparked, Function.update_self _ _ _, (by simp), here.wakeup,
      here.completed, rfl, here.unpoisoned⟩ (fun other away => ?_) rfl rfl rfl rfl rfl
    exact ⟨rfl, rfl, rfl, Function.update_of_ne away _ _, Function.update_of_ne away _ _, rfl, rfl,
      rfl⟩

theorem Shows.quiet (shows : Shows session t r) (built : ∀ handle, r.top ≠ some (.building handle)) :
    r.Quiet := fun handle building => built handle (shows.settled handle building)

/-- A call on a machine of the session. -/
theorem Shows.call (shows : Shows session t r) (counted : t.Counted) (rest : t.Rest)
    (idle : r.top = none) (member : handle ∈ r.handles) (c : AnyCall) :
    ∃ after, t.step (c.act handle) = some after ∧ Tells session after (r.call handle c) := by
  have holds := shows.toHolds
  have here := holds.parts handle member
  have quiet : r.Quiet := shows.quiet fun handle building => by
    rw [idle] at building
    cases building
  rcases c with (_ | record) | _
  case free => exact ⟨_, rfl, holds.free counted rest quiet member⟩
  case poll.reply => exact ⟨_, rfl, holds.enter counted rest quiet member _⟩
  case poll.resume =>
    simp only [AnyCall.act, PollCall.act, Thread.step, Roster.call]
    rw [here.parked]
    -- its constructor runs first, with the machine in no map
    by_cases parked : (r.parts handle).spot = .parked
    · rw [if_pos parked, if_pos parked]
      have part : Thread.HasPart { t with
          table := { t.table with
            parked := Function.update t.table.parked handle none
            pinned := Function.update t.table.pinned handle true }
          frames := .building (t.issued handle) :: t.frames } handle
          { r.parts handle with spot := .building } := by
        have fits := here.fits
        have unlisted := here.machines
        rw [Part.fits, parked] at fits
        rw [parked] at unlisted
        exact ⟨here.kind, unlisted, Function.update_self _ _ _, Function.update_self _ _ _, by simp,
          here.wakeup, here.completed, fits, here.unpoisoned⟩
      refine ⟨_, rfl, ⟨⟨holds.set part (fun other away => ?_) rfl rfl rfl, ⟨?_, rest.call⟩, ?_, ?_⟩,
        by simp [Roster.set], by simp [Roster.set]⟩⟩
      · exact ⟨rfl, rfl, Function.update_of_ne away _ _, Function.update_of_ne away _ _, rfl, rfl,
          rfl, rfl⟩
      · rw [rest.frames]
      · intro top running
        cases running
        refine ⟨member, ?_⟩
        show (Function.update r.parts handle { r.parts handle with spot := .building } handle).spot = _
        rw [Function.update_self]
      -- nothing else is being built
      · intro other building
        by_cases same : other = handle
        · rw [same]
          rfl
        · have before := (congrArg Part.spot (Function.update_of_ne same _ _)).symm.trans building
          exact absurd before (quiet other)
    · rw [if_neg parked, if_neg parked]
      exact ⟨_, rfl, holds.enter counted rest quiet member _⟩

/-! ### What the code does -/

theorem HasTop.of_same {handles : List Nat} {top : Option Top} (shown : t.HasTop handles top)
    (frames : after.frames = t.frames) (call : after.call = t.call)
    (issued : after.issued = t.issued) : after.HasTop handles top := by
  rcases top with _ | (_ | _ | _ | _ | _)
  case none =>
    constructor
    · rw [frames]
      exact shown.frames
    · rw [call]
      exact shown.call
  all_goals
    simp only [HasTop, Collects, frames, call, issued]
    exact shown

/-- A wake is noted by the call being made, if that is a poll's. -/
theorem HasTop.woke {handles : List Nat} {top : Option Top} (shown : t.HasTop handles top)
    (issued : (t.issued handle).handle = handle) :
    (t.woke (t.issued handle)).HasTop handles (top.map (Top.collect handle)) := by
  obtain ⟨call, current, same⟩ | ⟨idle, same⟩ := t.woke_spec (t.issued handle) <;> rw [same]
  · rcases top with _ | (h | ⟨h, c, phase, woken⟩ | ⟨h, c, phase, woken⟩ | ⟨h, c, result, woken⟩ | h)
    case none =>
      obtain ⟨frames, away⟩ := shown
      refine ⟨frames, ?_⟩
      intro other here
      cases here
      exact away call current
    case some.running | some.dropping | some.leaving =>
      obtain ⟨frames, collected, here, names⟩ := shown
      rw [current] at here
      cases here
      exact ⟨frames, _, rfl, by simp [names, issued]⟩
    all_goals
      have here := shown.2
      rw [current] at here
      cases here
  · rcases top with _ | (h | ⟨h, c, phase, woken⟩ | ⟨h, c, phase, woken⟩ | ⟨h, c, result, woken⟩ | h)
    case some.running | some.dropping | some.leaving =>
      obtain ⟨frames, collected, here, names⟩ := shown
      rw [idle] at here
      cases here
    case none =>
      obtain ⟨frames, away⟩ := shown
      exact ⟨frames, away⟩
    all_goals exact shown

theorem Holds.woke (holds : Holds session t r) (who : Who) : Holds session (t.woke who) r := by
  obtain ⟨_, _, same⟩ | ⟨_, same⟩ := t.woke_spec who <;> rw [same]
  all_goals exact holds.of_same (fun _ => ⟨rfl, rfl, rfl, rfl, rfl, rfl, rfl, rfl⟩) rfl rfl rfl

theorem Shows.wake (shows : Shows session t r) (member : handle ∈ r.handles) :
    ∃ after, t.codeStep (.wake handle) = some after ∧ Shows session after (r.wake handle) := by
  have here := shows.parts handle member
  have wakeup := here.wakeup
  have noted : r.wake handle = if ((r.parts handle).hooked && !(r.parts handle).woken) = true then
      r.set handle { r.parts handle with woken := true } (r.top.map (Top.collect handle)) else r := rfl
  simp only [Thread.codeStep, Thread.step]
  cases hooked : (r.parts handle).hooked with
  | false =>
    rw [wakeup, hooked, noted, hooked]
    exact ⟨t, rfl, shows⟩
  | true =>
    rw [hooked, if_pos rfl] at wakeup
    have hook : (t.wakeups (t.issued handle)).hook = some (t.issued handle) := by rw [wakeup]
    rw [hook]
    refine ⟨_, rfl, ?_⟩
    rw [t.wakeUp_spec hook, wakeup]
    have called : ∀ {top}, Holds session ({ t with
        wakeups := Function.update t.wakeups (t.issued handle) ⟨true, some (t.issued handle)⟩ }.happen
          (.wakerCalled (t.issued handle))) (r.set handle { r.parts handle with woken := true } top) := by
      intro top
      refine shows.toHolds.set ⟨here.kind, here.machines, here.parked, here.pinned, here.locals, ?_,
        here.completed, here.fits, here.unpoisoned⟩ (fun other away => ?_) rfl rfl rfl
      · exact (Function.update_self _ _ _).trans (by rw [hooked]; rfl)
      · exact ⟨rfl, rfl, rfl, rfl, rfl, Function.update_of_ne (shows.apart away) _ _, rfl, rfl⟩
    cases woken : (r.parts handle).woken with
    | true =>
      -- the flag is set already
      have same : r.set handle { r.parts handle with woken := true } r.top = r := by
        have part : ({ r.parts handle with woken := true } : Part) = r.parts handle := by
          rw [← woken]
        rw [Roster.set, part, Function.update_eq_self]
      rw [noted, hooked, woken]
      exact ⟨same ▸ called, shows.top.of_same rfl rfl rfl, shows.own, shows.settled⟩
    | false =>
      have set : r.wake handle = r.set handle { r.parts handle with woken := true }
          (r.top.map (Top.collect handle)) := by rw [noted, if_pos (by rw [hooked, woken]; rfl)]
      have still : ∀ other, (Function.update r.parts handle
          { r.parts handle with woken := true } other).spot = (r.parts other).spot ∧
          (Function.update r.parts handle
            { r.parts handle with woken := true } other).find = (r.parts other).find := by
        intro other
        by_cases same : other = handle
        · rw [same, Function.update_self]
          exact ⟨rfl, rfl⟩
        · rw [Function.update_of_ne same]
          exact ⟨rfl, rfl⟩
      rw [set]
      refine ⟨called.woke _, HasTop.woke (shows.top.of_same rfl rfl rfl) (shows.issued handle),
        fun top running => ?_,
        fun other building => ?_⟩
      · obtain ⟨before, was, rfl⟩ := Option.map_eq_some_iff.mp running
        obtain ⟨own, found⟩ := shows.own before was
        rw [Top.collect_handle, Top.collect_found]
        refine ⟨own, ?_⟩
        cases before with
        | building => exact (still _).1.trans found
        | running | dropping => exact (still _).2.trans found
        | _ => trivial
      · have was := shows.settled other ((still other).1.symm.trans building)
        show r.top.map _ = _
        rw [was]
        rfl

/-- One machine's driver changed, or its place, and the call goes on. -/
theorem Shows.goes_on (shows : Shows session t r) (quiet : r.Quiet) {p : Part} {top : Top}
    (member : handle ∈ r.handles) (part : after.HasPart handle p) (built : p.spot ≠ .building)
    (others : ∀ other, other ≠ handle → t.SameAt after other)
    (sessions : after.table.sessions = t.table.sessions)
    (recorded : after.table.recorded = t.table.recorded) (issued : after.issued = t.issued)
    (own : top.handle = handle) (found : top.Found p) (shown : after.HasTop r.handles (some top)) :
    Tells session after (r.set handle p (some top)) := by
  refine ⟨⟨shows.toHolds.set part others sessions recorded issued, shown, ?_, ?_⟩, by simp [Roster.set],
    by simp [Roster.set]⟩
  · intro top' here
    cases here
    rw [own]
    refine ⟨member, ?_⟩
    show top.Found (Function.update r.parts handle p handle)
    rwa [Function.update_self]
  · exact fun other building => absurd building (quiet.set built none other)

/-- The stack, as far as the code looks at it. -/
theorem Shows.stack (shows : Shows session t r) {top : Top} (here : r.top = some top) :
    t.frames = [match top with
      | .building handle => .building (t.issued handle)
      | .running handle c phase _ => .running (t.issued handle) (t.issued handle) c phase none
      | .dropping handle c phase _ => .dropping (t.issued handle) (t.issued handle) c phase none
      | .leaving handle c result _ => .leaving (t.issued handle) c result none
      | .freeing handle => .freeing (t.issued handle)] := by
  have shown := shows.top
  rw [here] at shown
  cases top <;> exact shown.1

/-- The constructor returns, and the call goes on to the first poll. -/
theorem Shows.built (shows : Shows session t r) (counted : t.Counted)
    (top : r.top = some (.building handle)) : ∃ after next, t.codeStep .built = some after ∧
      r.act .built = some next ∧ Tells session after next := by
  have shown := shows.top
  obtain ⟨member, building⟩ := shows.own _ top
  change (r.parts handle).spot = .building at building
  rw [top] at shown
  obtain ⟨frames, call⟩ := shown
  have here := shows.parts handle member
  have own := shows.issued handle
  simp only [Thread.codeStep, Thread.step, Roster.act, top, frames]
  refine ⟨_, _, rfl, rfl, ?_⟩
  have moved : Holds session { t.hook (t.issued handle) with
      frames := []
      locals := Function.update t.locals (t.issued handle).handle (some (t.issued handle)) }
      (r.set handle { r.parts handle with spot := .owned, woken := false, hooked := true } none) := by
    have unlisted := here.machines
    have unparked := here.parked
    have pinned := here.pinned
    have fits := here.fits
    rw [building] at unlisted unparked pinned
    rw [Part.fits, building] at fits
    rw [own]
    refine shows.toHolds.set ⟨here.kind, unlisted, unparked, pinned, fun _ => Function.update_self _ _ _,
      Function.update_self _ _ _, here.completed, fits, here.unpoisoned⟩ (fun other away => ?_)
      rfl rfl rfl
    exact ⟨rfl, rfl, rfl, rfl, Function.update_of_ne away _ _,
      Function.update_of_ne (shows.apart away) _ _, rfl, rfl⟩
  refine moved.enter (counted.of_same rfl rfl rfl rfl) ⟨rfl, call⟩ ?_ member .resume
  intro other constructs
  by_cases same : other = handle
  · rw [same] at constructs
    cases (congrArg Part.spot (Function.update_self _ _ _)).symm.trans constructs
  · have was := (congrArg Part.spot (Function.update_of_ne same _ _)).symm.trans constructs
    have running := shows.settled other was
    rw [top] at running
    cases running
    exact same rfl

theorem Shows.quiet_of (shows : Shows session t r) {top : Top} (here : r.top = some top)
    (built : ∀ handle, top ≠ .building handle) : r.Quiet := by
  apply shows.quiet
  intro handle building
  rw [here] at building
  exact built handle (Option.some.inj building)

/-- A call that runs is of a machine that is found, and its frame is the only one. -/
theorem Shows.runs (shows : Shows session t r) {c : PollCall} {phase : Phase} {woken : List Nat}
    (top : r.top = some (.running handle c phase woken)) :
    handle ∈ r.handles ∧ (r.parts handle).find = .ok () ∧ r.Quiet ∧
      t.frames = [.running (t.issued handle) (t.issued handle) c phase none] ∧
      t.Collects handle woken := by
  have shown := shows.top
  obtain ⟨member, found⟩ := shows.own _ top
  rw [top] at shown
  exact ⟨member, found, shows.quiet_of top (by simp), shown⟩

theorem Shows.hold (shows : Shows session t r) {record : Bytes} {woken : List Nat}
    (top : r.top = some (.running handle (.reply record) .entered woken)) :
    ∃ after next, t.codeStep .hold = some after ∧ r.act .hold = some next ∧
      Tells session after next := by
  obtain ⟨member, found, quiet, frames, collects⟩ := shows.runs top
  have here := shows.parts handle member
  simp only [Thread.codeStep, Thread.step, Roster.act, top, frames]
  refine ⟨_, _, rfl, rfl, shows.goes_on quiet member ⟨here.kind, here.machines, here.parked,
    here.pinned, here.locals, ?_, here.completed, here.fits, here.unpoisoned⟩ (quiet handle)
    (fun other away => ?_) rfl rfl rfl rfl found ⟨rfl, collects⟩⟩
  · exact (Function.update_self _ _ _).trans (by rw [here.wakeup]; rfl)
  · exact ⟨rfl, rfl, rfl, rfl, rfl, Function.update_of_ne (shows.apart away) _ _, rfl, rfl⟩

theorem Shows.beginPoll (shows : Shows session t r) {c : PollCall} {phase : Phase} {woken : List Nat}
    (top : r.top = some (.running handle c phase woken)) :
    (t.codeStep .beginPoll = none ∧ r.act .beginPoll = none) ∨ ∃ after next,
      t.codeStep .beginPoll = some after ∧ r.act .beginPoll = some next ∧
        Tells session after next := by
  obtain ⟨member, found, quiet, frames, collects⟩ := shows.runs top
  have here := shows.parts handle member
  simp only [Thread.codeStep, Thread.step, Roster.act, top, frames, here.completed]
  split
  · exact .inl ⟨rfl, rfl⟩
  · refine .inr ⟨_, _, rfl, rfl, shows.goes_on quiet member ⟨here.kind, here.machines, here.parked,
      here.pinned, here.locals, ?_, here.completed, here.fits, here.unpoisoned⟩ (quiet handle)
      (fun other away => ?_) rfl rfl rfl rfl found ⟨rfl, collects⟩⟩
    · exact (Function.update_self _ _ _).trans (by rw [here.wakeup]; rfl)
    · exact ⟨rfl, rfl, rfl, rfl, rfl, Function.update_of_ne (shows.apart away) _ _, rfl, rfl⟩

/-- The call's closure returns. Its machine is where it was found. -/
theorem Shows.finish (shows : Shows session t r) (counted : t.Counted) {c : PollCall} {phase : Phase}
    {woken : List Nat} (top : r.top = some (.running handle c phase woken)) (result : Coded) :
    (t.codeStep (.finish result) = none ∧ r.act (.finish result) = none) ∨ ∃ after next,
      t.codeStep (.finish result) = some after ∧ r.act (.finish result) = some next ∧
        Tells session after next := by
  obtain ⟨member, found, quiet, frames, collects⟩ := shows.runs top
  have here := shows.parts handle member
  simp only [Thread.codeStep, Thread.step, Roster.act, top, frames, here.completed]
  split
  · exact .inl ⟨rfl, rfl⟩
  · right
    have moved : Holds session { t with
        completed := Function.update t.completed (t.issued handle)
          ((r.parts handle).completed || completes phase result)
        frames := [] }
        (r.set handle { r.parts handle with
          completed := (r.parts handle).completed || completes phase result } none) := by
      refine shows.toHolds.set ⟨here.kind, here.machines, here.parked, here.pinned, here.locals,
        here.wakeup, Function.update_self _ _ _, here.fits, here.unpoisoned⟩ (fun other away => ?_)
        rfl rfl rfl
      exact ⟨rfl, rfl, rfl, rfl, rfl, rfl, Function.update_of_ne (shows.apart away) _ _, rfl⟩
    have kept : Thread.isKept { t with
        completed := Function.update t.completed (t.issued handle)
          ((r.parts handle).completed || completes phase result)
        frames := [] } (t.issued handle) = true := here.kept found (shows.issued handle)
    rw [if_pos kept]
    have still : (r.set handle { r.parts handle with
        completed := (r.parts handle).completed || completes phase result } none).Quiet :=
      quiet.set (by exact quiet handle) none
    exact ⟨_, _, rfl, rfl, moved.report (counted.of_same rfl rfl rfl rfl) rfl collects still member c
      result⟩

/-- The code panics, and the panic's payload is dropped first. -/
theorem Shows.panics (shows : Shows session t r) {c : PollCall} {phase : Phase} {woken : List Nat}
    (top : r.top = some (.running handle c phase woken)) : ∃ after next,
      t.codeStep .panics = some after ∧ r.act .panics = some next ∧ Tells session after next := by
  obtain ⟨member, found, quiet, frames, collects⟩ := shows.runs top
  simp only [Thread.codeStep, Thread.step, Roster.act, top, frames]
  have still : Holds session { t with
      frames := [.dropping (t.issued handle) (t.issued handle) c phase none] } r :=
    shows.toHolds.of_same (fun _ => ⟨rfl, rfl, rfl, rfl, rfl, rfl, rfl, rfl⟩) rfl rfl rfl
  refine ⟨_, _, rfl, rfl, ⟨⟨still.with_top _, ⟨rfl, collects⟩, ?_, fun other building =>
      absurd building (quiet other)⟩, by simp, by simp⟩⟩
  intro top here
  cases here
  exact ⟨member, found⟩

/-- The machine that panicked leaves its table. -/
theorem Shows.dropped (shows : Shows session t r) {c : PollCall} {phase : Phase} {woken : List Nat}
    (top : r.top = some (.dropping handle c phase woken)) : ∃ after next,
      t.codeStep .dropped = some after ∧ r.act .dropped = some next ∧ Tells session after next := by
  have shown := shows.top
  obtain ⟨member, found⟩ := shows.own _ top
  have quiet := shows.quiet_of top (by simp)
  rw [top] at shown
  obtain ⟨frames, collects⟩ := shown
  change (r.parts handle).find = .ok () at found
  have here := shows.parts handle member
  have machines := here.machines
  have parked := here.parked
  have pinned := here.pinned
  have fits := here.fits
  simp only [Thread.codeStep, Thread.step, Roster.act, top, frames, shows.issued, here.kind]
  -- a machine that is found is in the table of its kind
  unfold Part.find at found
  unfold Part.fits at fits
  cases spot : (r.parts handle).spot <;> rw [spot] at found fits machines parked pinned
  case parked | building | gone => cases found
  case tabled =>
    rw [if_neg (by simpa using fits)]
    refine ⟨_, _, rfl, rfl, shows.goes_on quiet member ⟨here.kind, Function.update_self _ _ _, parked,
      pinned, by simp, here.wakeup, here.completed, rfl, here.unpoisoned⟩ (by simp)
      (fun other away => ?_) rfl rfl rfl rfl trivial ⟨rfl, collects⟩⟩
    exact ⟨rfl, Function.update_of_ne away _ _, rfl, rfl, rfl, rfl, rfl, rfl⟩
  case owned =>
    rw [if_pos fits]
    refine ⟨_, _, rfl, rfl, shows.goes_on quiet member ⟨here.kind, machines, parked,
      Function.update_self _ _ _, by simp, here.wakeup, here.completed, rfl, here.unpoisoned⟩
      (by simp) (fun other away => ?_) rfl rfl rfl rfl trivial ⟨rfl, collects⟩⟩
    exact ⟨rfl, rfl, rfl, Function.update_of_ne away _ _, Function.update_of_ne away _ _, rfl, rfl,
      rfl⟩

theorem Shows.popped (shows : Shows session t r) : Holds session { t with frames := [] } r :=
  shows.toHolds.of_same (fun _ => ⟨rfl, rfl, rfl, rfl, rfl, rfl, rfl, rfl⟩) rfl rfl rfl

theorem Shows.left (shows : Shows session t r) (counted : t.Counted) {c : PollCall} {result : Coded}
    {woken : List Nat} (top : r.top = some (.leaving handle c result woken)) : ∃ after next,
      t.codeStep .left = some after ∧ r.act .left = some next ∧ Tells session after next := by
  have shown := shows.top
  obtain ⟨member, _⟩ := shows.own _ top
  have quiet := shows.quiet_of top (by simp)
  rw [top] at shown
  obtain ⟨frames, collects⟩ := shown
  simp only [Thread.codeStep, Thread.step, Roster.act, top, frames]
  exact ⟨_, _, rfl, rfl,
    shows.popped.report (counted.of_same rfl rfl rfl rfl) rfl collects quiet member c result⟩

theorem Shows.freed (shows : Shows session t r) (counted : t.Counted)
    (top : r.top = some (.freeing handle)) : ∃ after next,
      t.codeStep .freed = some after ∧ r.act .freed = some next ∧ Tells session after next := by
  have shown := shows.top
  obtain ⟨member, _⟩ := shows.own _ top
  have quiet := shows.quiet_of top (by simp)
  rw [top] at shown
  obtain ⟨frames, call⟩ := shown
  simp only [Thread.codeStep, Thread.step, Roster.act, top, frames]
  exact ⟨_, _, rfl, rfl, shows.popped.returns (counted.of_same rfl rfl rfl rfl) ⟨rfl, call⟩ quiet
    member .free ⟨Contract.ok, []⟩ []⟩

theorem wake_busy (busy : r.top ≠ none) : (r.wake handle).top ≠ none := by
  unfold Roster.wake
  dsimp only
  split
  · exact fun idle => busy (Option.map_eq_none_iff.mp idle)
  · exact busy

/-- What the code does, other than to create a machine, can be done where the roster says, and
shows in it. -/
theorem Shows.act (shows : Shows session t r) (counted : t.Counted) (busy : r.top ≠ none)
    {a : CodeAct} (known : ∀ handle, a = .wake handle → handle ∈ r.handles)
    (creates : ∀ pinned, a ≠ .create pinned) :
    (t.codeStep a = none ∧ r.act a = none) ∨ ∃ after next,
      t.codeStep a = some after ∧ r.act a = some next ∧ Tells session after next := by
  obtain ⟨top, here⟩ := Option.ne_none_iff_exists'.mp busy
  have stack := shows.stack here
  -- what the thread refuses the roster refuses too
  have cannot : ∀ b : CodeAct, t.codeStep b = none → r.act b = none → (t.codeStep b = none ∧
      r.act b = none) ∨ ∃ after next, t.codeStep b = some after ∧ r.act b = some next ∧
        Tells session after next := fun _ thread roster => .inl ⟨thread, roster⟩
  cases a with
  | create pinned => exact absurd rfl (creates pinned)
  | wake handle =>
    obtain ⟨after, done, shown⟩ := shows.wake (known handle rfl)
    exact .inr ⟨after, _, done, rfl, shown, fun idle => absurd idle (wake_busy busy),
      fun idle => absurd idle (wake_busy busy)⟩
  | built =>
    cases top with
    | building handle => exact .inr (shows.built counted here)
    | _ => exact cannot _ (by simp [Thread.codeStep, Thread.step, stack]) (by simp [Roster.act, here])
  | hold =>
    cases top with
    | running handle c phase woken =>
      cases c with
      | resume =>
        exact cannot _ (by simp [Thread.codeStep, Thread.step, stack]) (by simp [Roster.act, here])
      | reply record =>
        cases phase with
        | entered => exact .inr (shows.hold here)
        | _ =>
          exact cannot _ (by simp [Thread.codeStep, Thread.step, stack]) (by simp [Roster.act, here])
    | _ => exact cannot _ (by simp [Thread.codeStep, Thread.step, stack]) (by simp [Roster.act, here])
  | beginPoll =>
    cases top with
    | running handle c phase woken => exact shows.beginPoll here
    | _ => exact cannot _ (by simp [Thread.codeStep, Thread.step, stack]) (by simp [Roster.act, here])
  | finish result =>
    cases top with
    | running handle c phase woken => exact shows.finish counted here result
    | _ => exact cannot _ (by simp [Thread.codeStep, Thread.step, stack]) (by simp [Roster.act, here])
  | panics =>
    cases top with
    | running handle c phase woken => exact .inr (shows.panics here)
    | _ => exact cannot _ (by simp [Thread.codeStep, Thread.step, stack]) (by simp [Roster.act, here])
  | dropped =>
    cases top with
    | dropping handle c phase woken => exact .inr (shows.dropped here)
    | _ => exact cannot _ (by simp [Thread.codeStep, Thread.step, stack]) (by simp [Roster.act, here])
  | left =>
    cases top with
    | leaving handle c result woken => exact .inr (shows.left counted here)
    | _ => exact cannot _ (by simp [Thread.codeStep, Thread.step, stack]) (by simp [Roster.act, here])
  | freed =>
    cases top with
    | freeing handle => exact .inr (shows.freed counted here)
    | _ => exact cannot _ (by simp [Thread.codeStep, Thread.step, stack]) (by simp [Roster.act, here])

/-! ### Machines created -/

/-- `new`, or `new_pinned`: the machine created. -/
def make (t : Thread) (pinned : Bool) : Option (Who × Thread) :=
  (t.create pinned).map fun (who, t) => (who, if pinned then t else t.hook who)

theorem step_make (t : Thread) (pinned : Bool) :
    t.step (if pinned then .newPinned else .new) = (t.make pinned).map Prod.snd := by
  unfold Thread.make
  cases pinned <;> simp [Thread.step, Function.comp_def]

/-- A machine is created under a handle that is free, and is as it is to be there. -/
structure Makes (t after : Thread) (who : Who) (pinned : Bool) : Prop where
  unused : t.table.inUse who.handle = false
  positive : who.handle ≠ 0
  turn : who.turn = (t.issued who.handle).turn + 1
  issued : after.issued = Function.update t.issued who.handle who
  part : after.HasPart who.handle (.new pinned)
  others : ∀ other, other ≠ who.handle → t.SameAt after other
  frames : after.frames = t.frames
  call : after.call = t.call

theorem make_makes (sound : t.Sound) {who : Who} {pinned : Bool}
    (made : t.make pinned = some (who, after)) : t.Makes after who pinned := by
  obtain ⟨⟨w, middle⟩, created, same⟩ := Option.map_eq_some_iff.mp made
  obtain ⟨rfl, rfl⟩ := Prod.mk.inj same
  obtain ⟨next, reissue, sessions, recorded, named, unused, positive, rfl⟩ := t.create_spec pinned created
  have kind : w.pinned = pinned := by rw [named]
  have turn : w.turn = (t.issued w.handle).turn + 1 := by rw [named]
  -- its driver is untouched, since it was never built
  have idle := sound.dated.unbuilt w fun built => by
    have dated := sound.dated.built w built
    omega
  have apart : ∀ other, other ≠ w.handle → t.issued other ≠ w := by
    intro other away same
    apply away
    rw [← sound.dated.issued other, same]
  obtain ⟨machines, parked, notPinned⟩ := Table.inUse_eq_false.mp unused
  cases pinned with
  | true =>
    refine ⟨unused, (positive sound.dated.next).1, turn, rfl, ?_, fun other away => ?_, rfl, rfl⟩
    · constructor
      all_goals simp [Part.new, Part.fits, machines, notPinned, kind, idle.wakeup, idle.completed,
        idle.unpoisoned, Wakeup.new]
    · constructor <;> simp [Function.update_of_ne away]
  | false =>
    refine ⟨unused, (positive sound.dated.next).1, turn, rfl, ?_, fun other away => ?_, rfl, rfl⟩
    · constructor
      all_goals simp [Thread.hook, Thread.happen, Part.new, Part.fits, parked, notPinned, kind,
        idle.completed, idle.unpoisoned, Wakeup.new, Wakeup.setHook]
    · constructor <;>
        simp [Thread.hook, Thread.happen, Function.update_of_ne away, apart other away]

/-- The call that creates a machine is of the session. -/
theorem Shows.current (shows : Shows session t r) {top : Top} (here : r.top = some top)
    (polls : top.polls = true) : t.call.map CallState.handle = some top.handle := by
  have shown := shows.top
  rw [here] at shown
  cases top with
  | building | freeing => cases polls
  | running | dropping | leaving =>
    obtain ⟨_, collected, current, _⟩ := shown
    rw [current]
    rfl

/-- The machine it creates joins the session. -/
theorem Shows.joins (shows : Shows session t r) {top : Top} (here : r.top = some top)
    (polls : top.polls = true) {pinned : Bool} {who : Who} (made : t.make pinned = some (who, after))
    (fresh : who.handle ∉ r.handles) :
    after.table.sessions session = some ⟨r.handles ++ [who.handle], r.events⟩ ∧
      ∀ handle, Table.tapsIn (after.table.recorded handle) session =
        if handle ∈ r.handles ++ [who.handle] then
          [⟨session, Record.Log.number ((r.handles ++ [who.handle]).idxOf handle)⟩] else [] := by
  obtain ⟨member, _⟩ := shows.own top here
  obtain ⟨⟨w, middle⟩, created, same⟩ := Option.map_eq_some_iff.mp made
  obtain ⟨rfl, rfl⟩ := Prod.mk.inj same
  obtain ⟨log, taps⟩ := t.create_sessions pinned created session
  have joined : Table.tapsIn (t.table.callTaps (t.call.map CallState.handle)) session =
      [⟨session, Record.Log.number (r.handles.idxOf top.handle)⟩] := by
    rw [shows.current here polls]
    exact (shows.taps top.handle).trans (if_pos member)
  have table : (if pinned then middle else middle.hook w).table = middle.table := by
    cases pinned <;> rfl
  rw [joined, shows.log] at log
  constructor
  · rw [table, log]
    rfl
  · intro handle
    rw [table, taps, joined, shows.log, shows.taps]
    by_cases own : handle = w.handle
    · rw [own, if_neg fresh]
      simp [List.idxOf_append_of_notMem fresh]
    · by_cases old : handle ∈ r.handles
      · simp [own, old, List.idxOf_append_of_mem old]
      · simp [own, old]

/-- A machine created by a call of the session is one more of its machines. -/
theorem Shows.create (shows : Shows session t r) (sound : t.Sound) {top : Top}
    (here : r.top = some top) (polls : top.polls = true) {pinned : Bool} {who : Who}
    (made : t.make pinned = some (who, after)) (fresh : who.handle ∉ r.handles) :
    Tells session after (r.create pinned who.handle) := by
  have makes := make_makes sound made
  obtain ⟨log, taps⟩ := shows.joins here polls made fresh
  obtain ⟨member, found⟩ := shows.own top here
  have other : ∀ {handle}, handle ∈ r.handles → handle ≠ who.handle := by
    rintro handle member rfl
    exact fresh member
  have busy : (r.create pinned who.handle).top ≠ none := by
    show r.top ≠ none
    rw [here]
    simp
  refine ⟨⟨⟨fun handle => ?_, log, taps, fun handle joined => ?_⟩, ?_, fun top' running => ?_,
    fun handle building => ?_⟩, fun idle => absurd idle busy, fun idle => absurd idle busy⟩
  -- handles, and the machines under them
  · rw [makes.issued, Function.update_apply]
    split
    · next own => exact own.symm
    · exact shows.issued handle
  · show after.HasPart handle (Function.update r.parts who.handle (Part.new pinned) handle)
    by_cases own : handle = who.handle
    · rw [own, Function.update_self]
      exact makes.part
    · have old : handle ∈ r.handles := by simpa [Roster.create, own] using joined
      rw [Function.update_of_ne own]
      exact (shows.parts handle old).of_same (makes.others handle own)
  · -- the call goes on
    have shown := shows.top
    have issued := (makes.others top.handle (other member)).issued
    show after.HasTop _ r.top
    rw [here] at shown ⊢
    cases top with
    | building | freeing => cases polls
    | running | dropping | leaving =>
      simp only [HasTop, Collects, makes.frames, makes.call, Top.handle] at issued shown ⊢
      rw [issued]
      exact shown
  · change r.top = some top' at running
    rw [here] at running
    cases running
    refine ⟨List.mem_append_left _ member, ?_⟩
    show top.Found (Function.update r.parts who.handle _ top.handle)
    rwa [Function.update_of_ne (other member)]
  -- it is not being built, parked or not
  · by_cases own : handle = who.handle
    · rw [own] at building
      have new := (congrArg Part.spot (Function.update_self _ _ _)).symm.trans building
      cases pinned <;> cases new
    · exact shows.settled handle
        ((congrArg Part.spot (Function.update_of_ne own _ _)).symm.trans building)

end

end Thread

end SansEffort
