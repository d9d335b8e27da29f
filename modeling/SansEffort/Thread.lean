import SansEffort.Table

/-!
# A thread's calls

The functions of the handle table (`table.rs`) as one thread runs them. The code they call back
into (routines, constructors, destructors) does what it likes, calls of its own included, one
act at a time; what runs it is a stack of frames. A panic is an act of the code that panics.
-/

namespace SansEffort

/-- A machine's wake, on its way to the host: the `serial`th there was. -/
structure Notice where
  serial : Nat
  who : Who
  deriving DecidableEq

/-- `CALL`: the call the thread is making, and the machines woken during it. -/
structure CallState where
  handle : Nat
  woken : List Notice
  deriving DecidableEq

/-- A call that polls. -/
inductive PollCall
  | resume
  | reply (record : Bytes)
  deriving DecidableEq

/-- Any call on a machine. -/
inductive AnyCall
  | poll (c : PollCall)
  | free
  deriving DecidableEq

def AnyCall.event (outcome : Record.Outcome) (machine : Nat) : AnyCall → Record.Event
  | .poll .resume => .resume machine outcome
  | .poll (.reply record) => .reply machine record outcome
  | .free => .free machine outcome

/-- How far a call has come in its machine's driver: a reply was delivered and its waker is
being called while the driver is held, or the poll has begun. -/
inductive Phase
  | entered
  | holding
  | polling
  deriving DecidableEq

/-- What runs the code on top of it, innermost first. `called` is the machine whose handle the
caller gave; `outer` is what `CALL` was before. -/
inductive Frame
  /-- A parked machine's constructor, in `resume`. -/
  | building (called : Who)
  /-- A machine's poll, in `guarded`. -/
  | running (called who : Who) (c : PollCall) (phase : Phase) (outer : Option CallState)
  /-- The destructor of a panic's payload, in `guarded`: the machine is locked, and not removed. -/
  | dropping (called who : Who) (c : PollCall) (phase : Phase) (outer : Option CallState)
  /-- The destructor of the payload of a constructor's panic, as `resume` ends. -/
  | abandoning (called : Who)
  /-- The destructors of a machine removed from the table during its call, as `guarded` ends. -/
  | leaving (called : Who) (c : PollCall) (result : Coded) (outer : Option CallState)
  /-- The destructors of a machine freed. -/
  | freeing (called : Who)

namespace Frame

def called : Frame → Who
  | building called => called
  | running called _ _ _ _ => called
  | dropping called _ _ _ _ => called
  | abandoning called => called
  | leaving called _ _ _ => called
  | freeing called => called

/-- The machine's lock is taken, or its cell borrowed. -/
def locks (who : Who) : Frame → Bool
  | running _ w _ _ _ => w = who
  | dropping _ w _ _ _ => w = who
  | _ => false

/-- The machine's driver is held for a reply that was delivered. -/
def holds (who : Who) : Frame → Bool
  | running _ w _ .holding _ => w = who
  | dropping _ w _ .holding _ => w = who
  | _ => false

end Frame

/-- What a host can tell of a run, and what wakes there were. -/
inductive Happening
  /-- A machine was created, during the given machine's call. -/
  | created (who : Who) (parent : Option Who)
  /-- A machine's driver was built, or a poll of it begun. -/
  | built (who : Who)
  | began (who : Who)
  /-- A machine's waker was called. -/
  | wakerCalled (who : Who)
  /-- The hook of a machine's driver was called. -/
  | noticed (notice : Notice)
  /-- A call returned, with the notices its output carries. -/
  | returned (who : Who) (c : AnyCall) (outcome : Record.Outcome) (woken : List Notice)
  | wakesReturned (woken : List Notice)
  | opened (session : Nat) (root : Who)
  | finished (session : Nat)

/-- The statics and thread-locals, the stack, and beside them a history, newest first, that
nothing reads. -/
structure Thread where
  table : Table
  locals : Nat → Option Who
  call : Option CallState
  reissue : List Nat
  openSessions : Nat
  wakes : List Notice
  /-- The driver of each machine that has been built. -/
  wakeups : Who → Wakeup Who
  completed : Who → Bool
  /-- The locks of migrating machines that a call unwound past. -/
  poisoned : Who → Bool
  /-- The last machine each handle was issued to. -/
  issued : Nat → Who
  frames : List Frame
  history : List Happening

/-- A step of the code that runs, or of the table function it returns to. -/
inductive Act
  | new
  | newPinned
  | resume (handle : Nat)
  | reply (handle : Nat) (record : Bytes)
  | free (handle : Nat)
  | wakes
  | wake (who : Who)
  | record (root : Nat)
  | finishRecording (session : Nat)
  | reissue (handles : List Nat)
  | stopReissue
  -- the constructor of a pinned machine returns, or panics
  | built
  | buildPanicked
  -- a reply was delivered, a poll begins, the call's closure returns or panics
  | hold
  | beginPoll
  | finish (result : Coded)
  | panics
  -- the destructor of a panic's payload returns, or panics in turn; a lock let go by its unwinding
  -- is poisoned, unless the thread was unwinding already when it took the lock
  | dropped
  | droppingPanicked (poisons : Bool)
  | abandoned
  | abandoningPanicked
  -- destructors return, or panic
  | left
  | leavingPanicked
  | freed
  | freeingPanicked
  deriving DecidableEq

/-- A woke frame for each handle. -/
def wokeFrames : List Nat → Bytes
  | [] => []
  | handle :: rest => Contract.frameWoke :: (toLeBytes 4 8 ++ toLeBytes 8 handle) ++ wokeFrames rest

/-- They are what a writer writes: a frame's kind, and a handle as `bytes`. -/
theorem wokeFrames_written (handles : List Nat) (w : Writer) :
    handles.foldlM (fun w handle => (w.u8 Contract.frameWoke).bytes (toLeBytes 8 handle)) w =
      some ⟨w.buffer ++ wokeFrames handles⟩ := by
  induction handles generalizing w with
  | nil => simp [wokeFrames]
  | cons handle rest ih =>
    have written : (w.u8 Contract.frameWoke).bytes (toLeBytes 8 handle) =
        some ⟨w.buffer ++ (Contract.frameWoke :: (toLeBytes 4 8 ++ toLeBytes 8 handle))⟩ := by
      simp [Writer.bytes, Writer.u8, Writer.u32]
    rw [List.foldlM_cons, written, Option.bind_eq_bind, Option.bind_some, ih]
    simp [wokeFrames]

namespace Thread

def new : Thread where
  table := Table.new
  locals := fun _ => none
  call := none
  reissue := []
  openSessions := 0
  wakes := []
  wakeups := fun _ => Wakeup.new
  completed := fun _ => false
  poisoned := fun _ => false
  issued := fun handle => ⟨handle, 0, false⟩
  frames := []
  history := []

def happen (t : Thread) (h : Happening) : Thread := { t with history := h :: t.history }

def notices : List Happening → List Notice
  | [] => []
  | .noticed n :: history => n :: notices history
  | _ :: history => notices history

/-- The hook of a machine's driver: note it for the current call, or for `wakes`. -/
def woke (t : Thread) (who : Who) : Thread :=
  let notice : Notice := ⟨(notices t.history).length, who⟩
  let t := match t.call with
    | some call => { t with call := some { call with woken := call.woken ++ [notice] } }
    | none => { t with wakes := t.wakes ++ [notice] }
  t.happen (.noticed notice)

/-- A machine's waker is called. -/
def wakeUp (t : Thread) (who : Who) : Thread :=
  let (hook, wakeup) := (t.wakeups who).wakeUp
  let t := { t with wakeups := Function.update t.wakeups who wakeup }.happen (.wakerCalled who)
  match hook with
  | some who => t.woke who
  | none => t

/-- Log a call that returned, in each session recording its handle. -/
def note (t : Thread) (handle : Nat) (event : Nat → Record.Event) : Thread :=
  if t.openSessions > 0 then { t with table := t.table.note handle event } else t

/-- A call returns to its caller. -/
def returns (t : Thread) (called : Who) (c : AnyCall) (outcome : Record.Outcome)
    (woken : List Notice) : Thread :=
  (t.note called.handle fun machine => c.event outcome machine).happen
    (.returned called c outcome woken)

/-- The end of `reporting_wakes`, and the call's note. -/
def report (t : Thread) (called : Who) (c : PollCall) (result : Coded) (outer : Option CallState) :
    Thread :=
  let woken := (t.call.map CallState.woken).getD []
  let t := { t with call := outer }
  match result with
  | .ok (bytes, status) =>
    t.returns called (.poll c)
      (Record.outcome (.ok (bytes ++ wokeFrames (woken.map (·.who.handle)), status))) woken
  | .error error =>
    { t with wakes := t.wakes ++ woken }.returns called (.poll c) (Record.outcome (.error error)) []

/-- The machine behind a handle. -/
def find (t : Thread) (handle : Nat) : Except Error Who :=
  match t.table.machines handle with
  | some who => .ok who
  | none =>
    if (t.table.parked handle).isSome then .error .badInput
    else if t.table.pinned handle then
      match t.locals handle with
      | some who => .ok who
      | none => .error .badHandle
    else .error .badHandle

def isLocked (t : Thread) (who : Who) : Bool := t.frames.any fun frame => frame.locks who

/-- A pinned machine is in a cell, which is never poisoned. -/
def isPoisoned (t : Thread) (who : Who) : Bool := !who.pinned && t.poisoned who

/-- The machine of the handle is in the table, and every call on it is refused. -/
def isBarred (t : Thread) (handle : Nat) : Bool :=
  match t.find handle with
  | .ok who => t.isPoisoned who
  | .error _ => false

/-- `reporting_wakes` of `guarded`, up to the machine's own code. -/
def enter (t : Thread) (called : Who) (c : PollCall) : Thread :=
  let outer := t.call
  let t := { t with call := some ⟨called.handle, []⟩ }
  match t.find called.handle with
  | .error error => t.report called c (.error error) outer
  | .ok who =>
    if t.isLocked who then t.report called c (.error .busy) outer
    else if t.isPoisoned who then t.report called c (.error .panicked) outer
    else { t with frames := .running called who c .entered outer :: t.frames }

/-- The machine is in the table still, so that its call's end does not drop it. -/
def isKept (t : Thread) (who : Who) : Bool :=
  if who.pinned then t.locals who.handle = some who else t.table.machines who.handle = some who

/-- The machine of the innermost call. -/
def caller (t : Thread) : Option Who := t.frames.head?.map Frame.called

/-- A machine takes the next handle, and joins the sessions of the call that creates it. -/
def create (t : Thread) (pinned : Bool) : Option (Who × Thread) :=
  (t.table.issue t.reissue).map fun (handle, table, reissue) =>
    let who : Who := ⟨handle, (t.issued handle).turn + 1, pinned⟩
    let table :=
      if pinned then { table with parked := Function.update table.parked handle (some who) }
      else { table with machines := Function.update table.machines handle (some who) }
    (who, { t with
      table := table.adopt (t.call.map CallState.handle) handle
      reissue, issued := Function.update t.issued handle who }.happen (.created who t.caller))

/-- A machine's driver is built, and its hook set. -/
def hook (t : Thread) (who : Who) : Thread :=
  { t with wakeups := Function.update t.wakeups who (Wakeup.new.setHook who) }.happen (.built who)

/-- `free`, up to the machine's destructors. -/
def free (t : Thread) (handle : Nat) : Thread :=
  let called := t.issued handle
  let done := fun t : Thread => t.returns called .free ⟨Contract.ok, []⟩ []
  let dropping := fun t : Thread => { t with frames := .freeing called :: t.frames }
  if (t.table.machines handle).isSome || (t.table.parked handle).isSome then
    let locked := (t.table.machines handle).any t.isLocked
    let t := { t with table := { t.table with
      machines := Function.update t.table.machines handle none
      parked := Function.update t.table.parked handle none } }
    if locked then done t else dropping t
  else if t.table.pinned handle then
    let t := { t with table := { t.table with pinned := Function.update t.table.pinned handle false } }
    let machine := t.locals handle
    let t := { t with locals := Function.update t.locals handle none }
    match machine with
    | some who => if t.isLocked who then done t else dropping t
    | none => done t
  else t.returns called .free ⟨Error.badHandle.code, []⟩ []

/-- A poll that reports completion has dropped its routine. -/
def completes : Phase → Coded → Bool
  | .polling, .ok (_, .complete) => true
  | _, _ => false

/-- One step: `none` if it cannot be taken. -/
def step (t : Thread) : Act → Option Thread
  | .new => (t.create false).map fun (who, t) => t.hook who
  | .newPinned => (t.create true).map Prod.snd
  | .resume handle =>
    match t.table.parked handle with
    | some who =>
      some { t with
        table := { t.table with
          parked := Function.update t.table.parked handle none
          pinned := Function.update t.table.pinned handle true }
        frames := .building who :: t.frames }
    | none => some (t.enter (t.issued handle) .resume)
  | .reply handle record => some (t.enter (t.issued handle) (.reply record))
  | .free handle => some (t.free handle)
  | .wakes => some ({ t with wakes := [] }.happen (.wakesReturned t.wakes))
  | .wake who => if (t.wakeups who).hook.isSome then some (t.wakeUp who) else none
  | .record root =>
    (t.table.startRecording root).map fun (session, table) =>
      { t with table, openSessions := t.openSessions + 1 }.happen (.opened session (t.issued root))
  | .finishRecording session =>
    match t.table.finishRecording session with
    | (some _, table) =>
      some ({ t with table, openSessions := t.openSessions - 1 }.happen (.finished session))
    | (none, table) => some { t with table }
  | .reissue handles => some { t with reissue := handles }
  | .stopReissue => some { t with reissue := [] }
  | .built =>
    match t.frames with
    | .building who :: frames =>
      let t := { t.hook who with frames, locals := Function.update t.locals who.handle (some who) }
      some (t.enter who .resume)
    | _ => none
  | .buildPanicked =>
    match t.frames with
    | .building who :: frames =>
      some { t with
        table := { t.table with pinned := Function.update t.table.pinned who.handle false }
        frames := .abandoning who :: frames }
    | _ => none
  | .hold =>
    match t.frames with
    | .running called who (.reply record) .entered outer :: frames =>
      some { t with
        wakeups := Function.update t.wakeups who (t.wakeups who).hold
        frames := .running called who (.reply record) .holding outer :: frames }
    | _ => none
  | .beginPoll =>
    match t.frames with
    | .running called who c phase outer :: frames =>
      if phase = .polling ∨ t.completed who then none
      else some ({ t with
        wakeups := Function.update t.wakeups who (t.wakeups who).clear
        frames := .running called who c .polling outer :: frames }.happen (.began who))
    | _ => none
  | .finish result =>
    match t.frames with
    | .running called who c phase outer :: frames =>
      if phase = .holding then none
      else
        let complete := t.completed who || completes phase result
        let t := { t with completed := Function.update t.completed who complete, frames }
        if t.isKept who then some (t.report called c result outer)
        else some { t with frames := .leaving called c result outer :: frames }
    | _ => none
  | .panics =>
    match t.frames with
    | .running called who c phase outer :: frames =>
      some { t with frames := .dropping called who c phase outer :: frames }
    | _ => none
  | .dropped =>
    match t.frames with
    | .dropping called who c _ outer :: frames =>
      let handle := called.handle
      let t :=
        if who.pinned then { t with
          table := { t.table with pinned := Function.update t.table.pinned handle false }
          locals := Function.update t.locals handle none }
        else { t with table := { t.table with
          machines := Function.update t.table.machines handle none } }
      some { t with frames := .leaving called c (.error .panicked) outer :: frames }
    | _ => none
  | .droppingPanicked poisons =>
    match t.frames with
    -- the machine stays where it was found; if the code has freed it, its destructors run in the
    -- unwinding, where the steps that follow may be theirs
    | .dropping _ who _ _ _ :: frames =>
      some { t with
        frames, poisoned := Function.update t.poisoned who (t.poisoned who || poisons) }
    | _ => none
  | .abandoned =>
    match t.frames with
    -- an early return: nothing is noted
    | .abandoning who :: frames =>
      some ({ t with frames }.happen
        (.returned who (.poll .resume) (Record.outcome (.error .panicked)) []))
    | _ => none
  | .abandoningPanicked =>
    match t.frames with
    | .abandoning _ :: frames => some { t with frames }
    | _ => none
  | .left =>
    match t.frames with
    | .leaving called c result outer :: frames => some ({ t with frames }.report called c result outer)
    | _ => none
  | .leavingPanicked =>
    match t.frames with
    -- unwinds through `reporting_wakes`, which restores nothing
    | .leaving _ _ _ _ :: frames => some { t with frames }
    | _ => none
  | .freed =>
    match t.frames with
    | .freeing called :: frames =>
      some ({ t with frames }.returns called .free ⟨Contract.ok, []⟩ [])
    | _ => none
  | .freeingPanicked =>
    match t.frames with
    | .freeing _ :: frames => some { t with frames }
    | _ => none

/-! ### What a step does -/

/-- The steps that can be taken, and where each leads. -/
inductive Stepped (t : Thread) : Act → Thread → Prop
  | new (who : Who) (made : Thread) (created : t.create false = some (who, made)) :
      Stepped t .new (made.hook who)
  | newPinned (who : Who) (made : Thread) (created : t.create true = some (who, made)) :
      Stepped t .newPinned made
  | starts (handle : Nat) (who : Who) (parked : t.table.parked handle = some who) :
      Stepped t (.resume handle) { t with
        table := { t.table with
          parked := Function.update t.table.parked handle none
          pinned := Function.update t.table.pinned handle true }
        frames := .building who :: t.frames }
  | resumes (handle : Nat) (started : t.table.parked handle = none) :
      Stepped t (.resume handle) (t.enter (t.issued handle) .resume)
  | replies (handle : Nat) (record : Bytes) :
      Stepped t (.reply handle record) (t.enter (t.issued handle) (.reply record))
  | frees (handle : Nat) : Stepped t (.free handle) (t.free handle)
  | wakes : Stepped t .wakes ({ t with wakes := [] }.happen (.wakesReturned t.wakes))
  | wake (who : Who) (hooked : (t.wakeups who).hook.isSome = true) :
      Stepped t (.wake who) (t.wakeUp who)
  | records (root session : Nat) (table : Table)
      (started : t.table.startRecording root = some (session, table)) :
      Stepped t (.record root) ({ t with table, openSessions := t.openSessions + 1 }.happen
        (.opened session (t.issued root)))
  | finishes (session : Nat) (log : Record.Log) (table : Table)
      (finished : t.table.finishRecording session = (some log, table)) :
      Stepped t (.finishRecording session)
        ({ t with table, openSessions := t.openSessions - 1 }.happen (.finished session))
  | unopened (session : Nat) (table : Table)
      (finished : t.table.finishRecording session = (none, table)) :
      Stepped t (.finishRecording session) { t with table }
  | reissue (handles : List Nat) : Stepped t (.reissue handles) { t with reissue := handles }
  | stopReissue : Stepped t .stopReissue { t with reissue := [] }
  | built (who : Who) (frames : List Frame) (stack : t.frames = .building who :: frames) :
      Stepped t .built (Thread.enter { t.hook who with
        frames, locals := Function.update t.locals who.handle (some who) } who .resume)
  | buildPanicked (who : Who) (frames : List Frame) (stack : t.frames = .building who :: frames) :
      Stepped t .buildPanicked { t with
        table := { t.table with pinned := Function.update t.table.pinned who.handle false }
        frames := .abandoning who :: frames }
  | hold (called who : Who) (record : Bytes) (outer : Option CallState) (frames : List Frame)
      (stack : t.frames = .running called who (.reply record) .entered outer :: frames) :
      Stepped t .hold { t with
        wakeups := Function.update t.wakeups who (t.wakeups who).hold
        frames := .running called who (.reply record) .holding outer :: frames }
  | beginPoll (called who : Who) (c : PollCall) (phase : Phase) (outer : Option CallState)
      (frames : List Frame) (stack : t.frames = .running called who c phase outer :: frames)
      (idle : ¬ (phase = .polling ∨ t.completed who = true)) :
      Stepped t .beginPoll ({ t with
        wakeups := Function.update t.wakeups who (t.wakeups who).clear
        frames := .running called who c .polling outer :: frames }.happen (.began who))
  | returns (result : Coded) (called who : Who) (c : PollCall) (phase : Phase)
      (outer : Option CallState) (frames : List Frame)
      (stack : t.frames = .running called who c phase outer :: frames) (begun : phase ≠ .holding)
      (kept : Thread.isKept { t with
        completed := Function.update t.completed who (t.completed who || completes phase result)
        frames } who = true) :
      Stepped t (.finish result) (Thread.report { t with
        completed := Function.update t.completed who (t.completed who || completes phase result)
        frames } called c result outer)
  | leaves (result : Coded) (called who : Who) (c : PollCall) (phase : Phase)
      (outer : Option CallState) (frames : List Frame)
      (stack : t.frames = .running called who c phase outer :: frames) (begun : phase ≠ .holding)
      (gone : ¬ Thread.isKept { t with
        completed := Function.update t.completed who (t.completed who || completes phase result)
        frames } who = true) :
      Stepped t (.finish result) { t with
        completed := Function.update t.completed who (t.completed who || completes phase result)
        frames := .leaving called c result outer :: frames }
  | panics (called who : Who) (c : PollCall) (phase : Phase) (outer : Option CallState)
      (frames : List Frame) (stack : t.frames = .running called who c phase outer :: frames) :
      Stepped t .panics { t with frames := .dropping called who c phase outer :: frames }
  | dropped (called who : Who) (c : PollCall) (phase : Phase) (outer : Option CallState)
      (frames : List Frame) (stack : t.frames = .dropping called who c phase outer :: frames) :
      Stepped t .dropped { (if who.pinned then { t with
          table := { t.table with pinned := Function.update t.table.pinned called.handle false }
          locals := Function.update t.locals called.handle none }
        else { t with table := { t.table with
          machines := Function.update t.table.machines called.handle none } } : Thread) with
        frames := .leaving called c (.error .panicked) outer :: frames }
  | droppingPanicked (poisons : Bool) (called who : Who) (c : PollCall) (phase : Phase)
      (outer : Option CallState) (frames : List Frame)
      (stack : t.frames = .dropping called who c phase outer :: frames) :
      Stepped t (.droppingPanicked poisons) { t with
        frames, poisoned := Function.update t.poisoned who (t.poisoned who || poisons) }
  | abandoned (who : Who) (frames : List Frame) (stack : t.frames = .abandoning who :: frames) :
      Stepped t .abandoned (Thread.happen { t with frames }
        (.returned who (.poll .resume) (Record.outcome (.error .panicked)) []))
  | abandoningPanicked (who : Who) (frames : List Frame)
      (stack : t.frames = .abandoning who :: frames) :
      Stepped t .abandoningPanicked { t with frames }
  | left (called : Who) (c : PollCall) (result : Coded) (outer : Option CallState)
      (frames : List Frame) (stack : t.frames = .leaving called c result outer :: frames) :
      Stepped t .left (Thread.report { t with frames } called c result outer)
  | leavingPanicked (called : Who) (c : PollCall) (result : Coded) (outer : Option CallState)
      (frames : List Frame) (stack : t.frames = .leaving called c result outer :: frames) :
      Stepped t .leavingPanicked { t with frames }
  | freed (called : Who) (frames : List Frame) (stack : t.frames = .freeing called :: frames) :
      Stepped t .freed (Thread.returns { t with frames } called .free ⟨Contract.ok, []⟩ [])
  | freeingPanicked (called : Who) (frames : List Frame)
      (stack : t.frames = .freeing called :: frames) :
      Stepped t .freeingPanicked { t with frames }

/-- A step that is taken is one of these. -/
theorem step_cases {t after : Thread} {a : Act} (stepped : t.step a = some after) :
    Stepped t a after := by
  cases a <;> simp only [Thread.step] at stepped
  case new =>
    obtain ⟨⟨who, made⟩, created, rfl⟩ := Option.map_eq_some_iff.mp stepped
    exact .new who made created
  case newPinned =>
    obtain ⟨⟨who, made⟩, created, rfl⟩ := Option.map_eq_some_iff.mp stepped
    exact .newPinned who made created
  case resume handle =>
    split at stepped <;> cases stepped
    · next who parked => exact .starts handle who parked
    · next started => exact .resumes handle started
  case reply handle record =>
    cases stepped
    exact .replies handle record
  case free handle =>
    cases stepped
    exact .frees handle
  case wakes =>
    cases stepped
    exact .wakes
  case wake who =>
    split at stepped <;> cases stepped
    next hooked => exact .wake who hooked
  case record root =>
    obtain ⟨⟨session, table⟩, started, rfl⟩ := Option.map_eq_some_iff.mp stepped
    exact .records root session table started
  case finishRecording session =>
    split at stepped <;> cases stepped
    · next log table finished => exact .finishes session log table finished
    · next table finished => exact .unopened session table finished
  case reissue handles =>
    cases stepped
    exact .reissue handles
  case stopReissue =>
    cases stepped
    exact .stopReissue
  case built =>
    split at stepped <;> cases stepped
    next who frames stack => exact .built who frames stack
  case buildPanicked =>
    split at stepped <;> cases stepped
    next who frames stack => exact .buildPanicked who frames stack
  case hold =>
    split at stepped <;> cases stepped
    next called who record outer frames stack => exact .hold called who record outer frames stack
  case beginPoll =>
    split at stepped
    · next called who c phase outer frames stack =>
      split at stepped <;> cases stepped
      next idle => exact .beginPoll called who c phase outer frames stack idle
    · cases stepped
  case finish result =>
    split at stepped
    · next called who c phase outer frames stack =>
      split at stepped
      · cases stepped
      · next begun =>
        split at stepped <;> cases stepped
        · next kept => exact .returns result called who c phase outer frames stack begun kept
        · next gone => exact .leaves result called who c phase outer frames stack begun gone
    · cases stepped
  case panics =>
    split at stepped <;> cases stepped
    next called who c phase outer frames stack => exact .panics called who c phase outer frames stack
  case dropped =>
    split at stepped <;> cases stepped
    next called who c phase outer frames stack => exact .dropped called who c phase outer frames stack
  case droppingPanicked poisons =>
    split at stepped <;> cases stepped
    next called who c phase outer frames stack =>
      exact .droppingPanicked poisons called who c phase outer frames stack
  case abandoned =>
    split at stepped <;> cases stepped
    next who frames stack => exact .abandoned who frames stack
  case abandoningPanicked =>
    split at stepped <;> cases stepped
    next who frames stack => exact .abandoningPanicked who frames stack
  case left =>
    split at stepped <;> cases stepped
    next called c result outer frames stack => exact .left called c result outer frames stack
  case leavingPanicked =>
    split at stepped <;> cases stepped
    next called c result outer frames stack =>
      exact .leavingPanicked called c result outer frames stack
  case freed =>
    split at stepped <;> cases stepped
    next called frames stack => exact .freed called frames stack
  case freeingPanicked =>
    split at stepped <;> cases stepped
    next called frames stack => exact .freeingPanicked called frames stack

/-! ### What the parts of a step leave alone -/

theorem note_spec (t : Thread) (handle : Nat) (event : Nat → Record.Event) :
    ∃ sessions, t.note handle event = { t with table := { t.table with sessions } } := by
  unfold Thread.note
  split
  · obtain ⟨sessions, same⟩ := Table.note_spec t.table handle event
    exact ⟨sessions, by rw [same]⟩
  · exact ⟨t.table.sessions, rfl⟩

theorem returns_spec (t : Thread) (called : Who) (c : AnyCall) (outcome : Record.Outcome)
    (woken : List Notice) : ∃ sessions, t.returns called c outcome woken =
      { t with
        table := { t.table with sessions }
        history := .returned called c outcome woken :: t.history } := by
  obtain ⟨sessions, same⟩ := t.note_spec called.handle fun machine => c.event outcome machine
  exact ⟨sessions, by unfold Thread.returns; rw [same]; rfl⟩

/-- What the call has collected goes into its output, or to `wakes`. -/
theorem report_spec (t : Thread) (called : Who) (c : PollCall) (result : Coded)
    (outer : Option CallState) :
    ∃ sessions outcome, (∃ bytes status, result = .ok (bytes, status) ∧
        outcome = Record.outcome (.ok (bytes ++ wokeFrames
          (((t.call.map CallState.woken).getD []).map (·.who.handle)), status)) ∧
        t.report called c result outer = { t with
          call := outer, table := { t.table with sessions }
          history := .returned called (.poll c) outcome ((t.call.map CallState.woken).getD []) ::
            t.history }) ∨
      (∃ error, result = .error error ∧ outcome = Record.outcome (.error error) ∧
        t.report called c result outer = { t with
          call := outer, table := { t.table with sessions }
          wakes := t.wakes ++ (t.call.map CallState.woken).getD []
          history := .returned called (.poll c) outcome [] :: t.history }) := by
  cases result with
  | ok reply =>
    obtain ⟨bytes, status⟩ := reply
    obtain ⟨sessions, same⟩ := ({ t with call := outer } : Thread).returns_spec called (.poll c)
      (Record.outcome (.ok (bytes ++ wokeFrames
        (((t.call.map CallState.woken).getD []).map (·.who.handle)), status)))
      ((t.call.map CallState.woken).getD [])
    exact ⟨sessions, _, .inl ⟨bytes, status, rfl, rfl, same⟩⟩
  | error error =>
    obtain ⟨sessions, same⟩ := ({ t with
      call := outer, wakes := t.wakes ++ (t.call.map CallState.woken).getD [] } : Thread).returns_spec
      called (.poll c) (Record.outcome (.error error)) []
    exact ⟨sessions, _, .inr ⟨error, rfl, rfl, same⟩⟩

theorem find_refused {t : Thread} {handle : Nat} {error : Error}
    (missing : t.find handle = .error error) : error ≠ .panicked := by
  unfold Thread.find at missing
  split at missing
  · cases missing
  · split at missing
    · cases missing
      simp
    · split at missing
      · split at missing <;> cases missing
        simp
      · cases missing
        simp

/-- A call is refused at once, with nothing woken, or the machine's code takes over. It returns
`Panicked` if the machine's lock is poisoned, and then only. -/
theorem enter_spec (t : Thread) (called : Who) (c : PollCall) :
    (∃ sessions error, (error = .panicked → t.isBarred called.handle = true) ∧
      t.enter called c = { t with
        table := { t.table with sessions }
        history := .returned called (.poll c) (Record.outcome (.error error)) [] :: t.history }) ∨
    (∃ who, t.find called.handle = .ok who ∧ t.isLocked who = false ∧
      t.isBarred called.handle = false ∧ t.enter called c = { t with
        call := some ⟨called.handle, []⟩
        frames := .running called who c .entered t.call :: t.frames }) := by
  have refused : ∀ error, ∃ sessions, ({ t with call := some ⟨called.handle, []⟩ } : Thread).report
      called c (.error error) t.call = { t with
        table := { t.table with sessions }
        history := .returned called (.poll c) (Record.outcome (.error error)) [] :: t.history } := by
    intro error
    obtain ⟨sessions, same⟩ := ({ t with wakes := t.wakes ++ [] } : Thread).returns_spec called
      (.poll c) (Record.outcome (.error error)) []
    refine ⟨sessions, same.trans ?_⟩
    rw [List.append_nil]
  have found : ({ t with call := some ⟨called.handle, []⟩ } : Thread).find called.handle =
    t.find called.handle := rfl
  unfold Thread.enter
  simp only [found]
  cases outcome : t.find called.handle with
  | error error =>
    obtain ⟨sessions, same⟩ := refused error
    exact .inl ⟨sessions, error, fun panicked => absurd panicked (find_refused outcome), same⟩
  | ok who =>
    have barred : t.isBarred called.handle = t.isPoisoned who := by
      simp only [Thread.isBarred, outcome]
    simp only [show Thread.isLocked { t with call := some ⟨called.handle, []⟩ } who = t.isLocked who
      from rfl, show Thread.isPoisoned { t with call := some ⟨called.handle, []⟩ } who =
      t.isPoisoned who from rfl]
    cases locked : t.isLocked who with
    | true =>
      obtain ⟨sessions, same⟩ := refused .busy
      exact .inl ⟨sessions, .busy, nofun, same⟩
    | false =>
      cases poisoned : t.isPoisoned who with
      | true =>
        obtain ⟨sessions, same⟩ := refused .panicked
        exact .inl ⟨sessions, .panicked, fun _ => barred.trans poisoned, same⟩
      | false => exact .inr ⟨who, rfl, locked, barred.trans poisoned, rfl⟩

/-- A notice goes to the current call, or to `wakes` if there is none. -/
theorem woke_spec (t : Thread) (who : Who) :
    (∃ call, t.call = some call ∧ t.woke who = { t with
      call := some { call with woken := call.woken ++ [⟨(notices t.history).length, who⟩] }
      history := .noticed ⟨(notices t.history).length, who⟩ :: t.history }) ∨
    (t.call = none ∧ t.woke who = { t with
      wakes := t.wakes ++ [⟨(notices t.history).length, who⟩]
      history := .noticed ⟨(notices t.history).length, who⟩ :: t.history }) := by
  unfold Thread.woke Thread.happen
  cases current : t.call with
  | some call => exact .inl ⟨call, rfl, rfl⟩
  | none => exact .inr ⟨rfl, rfl⟩

/-- The flag is set, and the hook called if it was not. -/
theorem wakeUp_spec (t : Thread) {who : Who} (hook : (t.wakeups who).hook = some who) :
    t.wakeUp who =
      let called := { t with wakeups := Function.update t.wakeups who ⟨true, some who⟩ }.happen
        (.wakerCalled who)
      if (t.wakeups who).woken then called else called.woke who := by
  unfold Thread.wakeUp Wakeup.wakeUp
  simp only [hook]
  cases (t.wakeups who).woken <;> rfl

/-- Creating a machine puts it in its place and its handle to use. -/
theorem create_spec (t : Thread) (pinned : Bool) {who : Who} {after : Thread}
    (created : t.create pinned = some (who, after)) :
    ∃ next reissue sessions recorded,
      who = ⟨who.handle, (t.issued who.handle).turn + 1, pinned⟩ ∧ t.table.inUse who.handle = false ∧
      (0 < t.table.next → who.handle ≠ 0 ∧ 0 < next) ∧ after = { t with
        table := { t.table with
          machines := if pinned then t.table.machines
            else Function.update t.table.machines who.handle (some who)
          parked := if pinned then Function.update t.table.parked who.handle (some who)
            else t.table.parked
          next, sessions, recorded }
        reissue
        issued := Function.update t.issued who.handle who
        history := .created who t.caller :: t.history } := by
  obtain ⟨⟨handle, table, reissue⟩, issued, same⟩ := Option.map_eq_some_iff.mp created
  have positive := fun next => Table.issue_pos next issued
  obtain ⟨unused, next, rfl⟩ := Table.issue_spec issued
  obtain ⟨rfl, rfl⟩ := Prod.mk.inj same
  let who : Who := ⟨handle, (t.issued handle).turn + 1, pinned⟩
  cases pinned with
  | true =>
    obtain ⟨sessions, recorded, adopted⟩ := Table.adopt_spec
      { t.table with next, parked := Function.update t.table.parked handle (some who) }
      (t.call.map CallState.handle) handle
    refine ⟨next, reissue, sessions, recorded, rfl, unused, positive, ?_⟩
    simp only [Thread.happen, if_true]
    rw [adopted]
  | false =>
    obtain ⟨sessions, recorded, adopted⟩ := Table.adopt_spec
      { t.table with next, machines := Function.update t.table.machines handle (some who) }
      (t.call.map CallState.handle) handle
    refine ⟨next, reissue, sessions, recorded, rfl, unused, positive, ?_⟩
    simp only [Thread.happen, Bool.false_eq_true, if_false]
    rw [adopted]

/-- A machine created joins each session that records the handle of the call. -/
theorem create_sessions (t : Thread) (pinned : Bool) {who : Who} {after : Thread}
    (created : t.create pinned = some (who, after)) (session : Nat) :
    after.table.sessions session = (t.table.sessions session).map (fun log => { log with
      handles := log.handles ++ List.replicate
        (Table.tapsIn (t.table.callTaps (t.call.map CallState.handle)) session).length who.handle }) ∧
    ∀ handle, Table.tapsIn (after.table.recorded handle) session =
      Table.tapsIn (t.table.recorded handle) session ++
        if handle = who.handle then match t.table.sessions session with
          | none => []
          | some log => (List.range (Table.tapsIn (t.table.callTaps (t.call.map CallState.handle))
              session).length).map fun place =>
                ⟨session, Record.Log.number (log.handles.length + place)⟩
        else [] := by
  obtain ⟨⟨handle, table, reissue⟩, issued, same⟩ := Option.map_eq_some_iff.mp created
  obtain ⟨unused, next, rfl⟩ := Table.issue_spec issued
  obtain ⟨rfl, rfl⟩ := Prod.mk.inj same
  cases pinned
  all_goals
    exact ⟨Table.adopt_sessions _ _ _ session, fun h => Table.adopt_taps _ _ _ h session⟩

/-- `after` is `before` with some machines taken out. -/
structure Fewer (before after : Thread) : Prop where
  machines : ∀ handle who, after.table.machines handle = some who →
    before.table.machines handle = some who
  parked : ∀ handle who, after.table.parked handle = some who →
    before.table.parked handle = some who
  locals : ∀ handle who, after.locals handle = some who → before.locals handle = some who
  rest : after = { before with
    locals := after.locals
    table := { before.table with
      machines := after.table.machines, parked := after.table.parked, pinned := after.table.pinned } }

theorem of_update_none {α : Type} {f : Nat → Option α} {key handle : Nat} {value : α}
    (present : Function.update f key none handle = some value) : f handle = some value := by
  rw [Function.update_apply] at present
  split at present
  · cases present
  · exact present

/-- A free returns at once, or runs destructors first. -/
theorem free_spec (t : Thread) (handle : Nat) : ∃ after, Fewer t after ∧
    ((∃ code, t.free handle = after.returns (t.issued handle) .free ⟨code, []⟩ []) ∨
      t.free handle = { after with frames := .freeing (t.issued handle) :: after.frames }) := by
  unfold Thread.free
  dsimp only
  split
  · refine ⟨{ t with table := { t.table with
        machines := Function.update t.table.machines handle none
        parked := Function.update t.table.parked handle none } },
      ⟨fun h w => of_update_none, fun h w => of_update_none, fun _ _ => id, rfl⟩, ?_⟩
    split
    · exact .inl ⟨_, rfl⟩
    · exact .inr rfl
  · split
    · refine ⟨{ t with
        table := { t.table with pinned := Function.update t.table.pinned handle false }
        locals := Function.update t.locals handle none },
        ⟨fun _ _ => id, fun _ _ => id, fun h w => of_update_none, rfl⟩, ?_⟩
      split
      · split
        · exact .inl ⟨_, rfl⟩
        · exact .inr rfl
      · exact .inl ⟨_, rfl⟩
    · exact ⟨t, ⟨fun _ _ => id, fun _ _ => id, fun _ _ => id, rfl⟩, .inl ⟨_, rfl⟩⟩

end Thread

end SansEffort
