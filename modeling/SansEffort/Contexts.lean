import SansEffort.Library.Dialogue
import SansEffort.Awaiting

/-!
# Contexts

A routine does everything through its context: it tells messages and asks requests, one after
another, in the turns of a loop (`step.rs`). Over the reifying context (`ctx.rs`, `ask.rs`) each of
them is an effect of the host's vocabulary, recorded in the outbox, and the routine waits for each
reply. Here is that future, and what a machine that holds it does in a call.
-/

namespace SansEffort

open Dialogue

/-- What a routine may do through its context: messages it tells, and requests it asks, each with
the answer that it awaits (`Ask`). -/
structure Abilities where
  Message : Type
  Request : Type
  reply : Request → AnswerType

abbrev Abilities.interface (X : Abilities) : Interface :=
  ⟨X.Message, X.Request, fun request => (X.reply request).Carrier⟩

/-- A host's vocabulary that can carry them (`E: From<M> + From<Asked<R>>`), and how a host sees
each of its effects. -/
structure Vocabulary (X : Abilities) (E V : Type) where
  told : X.Message → E
  asked : X.Request → ReplyHandle → E
  split : E → V × Option Pending
  showTold : X.Message → V
  showAsked : X.Request → Nat → V
  split_told : ∀ message, split (told message) = (showTold message, none)
  split_asked : ∀ request reply, split (asked request reply) =
    (showAsked request reply.id, some ((X.reply request).wire.intoPending reply))

/-- A value as the answer, as `Awaiting::poll` reads it. -/
def AnswerType.read (A : AnswerType) (value : Value) : Option A.Carrier :=
  (A.wire.fromValue value).bind fun wire => (A.fromWire wire).toOption

/-- A host's value carries the answer `x`: it is accepted, and read back as `x`. -/
def AnswerType.Carries (A : AnswerType) (value : Value) (x : A.Carrier) : Prop :=
  ∃ wire, A.wire.fromValue value = some wire ∧ A.check wire = .ok () ∧ A.fromWire wire = .ok x

theorem AnswerType.Carries.read {A : AnswerType} {value : Value} {x : A.Carrier}
    (carries : A.Carries value x) : A.read value = some x := by
  obtain ⟨wire, taken, _, decoded⟩ := carries
  simp [AnswerType.read, taken, decoded, Except.toOption]

theorem AnswerType.Carries.kind {A : AnswerType} {value : Value} {x : A.Carrier}
    (carries : A.Carries value x) : value.kind = A.wire := by
  obtain ⟨wire, taken, _, _⟩ := carries
  by_contra other
  have untaken := (Kind.fromValueRef_eq_none_iff A.wire value).mpr other
  cases untaken.symm.trans taken

theorem AnswerType.Carries.check {A : AnswerType} {value : Value} {x : A.Carrier}
    (carries : A.Carries value x) : A.answer.check value = some (.ok ()) := by
  obtain ⟨wire, taken, accepted, _⟩ := carries
  show (A.wire.fromValueRef value).map A.check = _
  rw [show A.wire.fromValueRef value = some wire from taken, Option.map_some, accepted]

/-! ### A routine over the reifying context -/

/-- `Step::run` over a `Ctx`, between polls. -/
inductive Running (X : Abilities) (S : Type)
  | fresh (s : S)
  | waiting (request : X.Request) (id : Nat)
      (next : (X.reply request).Carrier → Dialogue X.interface (Option S))
  | done

section

variable {X : Abilities} {E V S H W : Type}

/-- A poll of a request's future. Once the reply is there the future is dropped, and the routine
goes on with it; a reply that does not decode panics. -/
def hear (waker : Waker) (request : X.Request) (id : Nat)
    (next : (X.reply request).Carrier → Dialogue X.interface (Option S))
    (goOn : (X.reply request).Carrier → Prog E (Option (Poll × Running X S))) :
    Prog E (Option (Poll × Running X S)) :=
  .collect id waker fun value =>
    value.elim (.ret (some (.pending, .waiting request id next))) fun value =>
      .close id (((X.reply request).read value).elim (.ret none) goOn)

/-- A poll that goes on from here: until it waits, or returns. What follows a turn that is over is
`after`. -/
def speak (voc : Vocabulary X E V) (waker : Waker)
    (after : Option S → Prog E (Option (Poll × Running X S))) :
    Dialogue X.interface (Option S) → Prog E (Option (Poll × Running X S))
  | .done flow => after flow
  | .tell message next => .tell (voc.told message) (speak voc waker after next)
  | .ask request next =>
    .ask (X.reply request).answer (fun reply => .ret (some (voc.asked request reply))) fun id =>
      id.elim (.ret none) fun id =>
        hear waker request id next fun reply => speak voc waker after (next reply)

/-- A poll begins at most so many turns: one that goes on for longer does not return. -/
def turnsOf (voc : Vocabulary X E V) (step : Loop X.interface S) (waker : Waker) :
    Nat → Dialogue X.interface (Option S) → Prog E (Option (Poll × Running X S))
  | 0 => speak voc waker fun flow =>
    flow.elim (.ret (some (.ready, .done))) fun _ => .ret none
  | turns + 1 => speak voc waker fun flow =>
    flow.elim (.ret (some (.ready, .done))) fun s => turnsOf voc step waker turns (step s)

/-- `Step::run`'s future. -/
def Running.program (voc : Vocabulary X E V) (step : Loop X.interface S) (turns : Nat) :
    Program (Running X S) E where
  poll future waker :=
    match future with
    | .fresh s => turnsOf voc step waker turns (step s)
    | .waiting request id next =>
      hear waker request id next fun reply => turnsOf voc step waker turns (next reply)
    -- a future that has returned panics if it is polled again
    | .done => .ret none
  drop future :=
    match future with
    | .waiting _ id _ => .close id (.ret (some ()))
    | _ => .ret (some ())
  -- it hands out no wakers of its own
  wake future _ := some future

end

/-! ### One request at a time -/

namespace Outbox

variable {E : Type}

/-- An outbox with no request outstanding. -/
def clear (driver next : Nat) (waker : Waker) (effects : List E) (log : List (Event E)) : Outbox E :=
  ⟨effects, none, [], ⟨driver, [], 0, [], next⟩, some waker, log⟩

/-- An outbox with one request outstanding, whose reply may have come. -/
def awaits (driver id : Nat) (waker : Waker) (check : Check) (value : Option Value)
    (effects : List E) (log : List (Event E)) : Outbox E :=
  ⟨effects, none, [], ⟨driver, [⟨id, true, value, check, none⟩], 1, [], id + 1⟩, some waker, log⟩

variable {driver next id : Nat} {waker : Waker} {check : Check} {effects : List E}
  {log : List (Event E)}

theorem clear_open (effect : E) (answer : Answer) :
    (clear driver next waker effects log).mint.2.openRequest next effect answer =
      awaits driver next waker answer.check none (effects ++ [effect])
        (.opened next effect answer :: .minted next :: log) := by
  simp [clear, awaits, mint, Mail.mint, record, noting, openRequest, Mail.openSlot]

theorem clear_close : (clear driver next waker effects log).close id =
    clear driver next waker effects (.dropped id :: log) := by
  simp [clear, close, Mail.close, Mail.position, noting]

/-- The request is polled with the driver's own waker, which is not kept. -/
theorem awaits_collect_none : (awaits driver id waker check none effects log).collect id waker =
    (none, awaits driver id waker check none effects (.collected id none :: log)) := by
  simp [awaits, collect, Mail.collect, Mail.position, noting]

theorem awaits_collect_some (value : Value) :
    (awaits driver id waker check (some value) effects log).collect id waker =
      (some value, clear driver (id + 1) waker effects (.collected id (some value) :: log)) := by
  simp [awaits, clear, collect, Mail.collect, Mail.position, Mail.take, noting,
    List.rdropWhile, Option.filter]

theorem awaits_deliver {value : Value} (accepted : check value = some (.ok ())) :
    (awaits driver id waker check none effects log).deliver ⟨driver, id⟩ value =
      some (.delivered none, awaits driver id waker check (some value) effects
        (.delivered id value :: log)) := by
  simp [awaits, deliver, Mail.deliver, Mail.position, noting, accepted]

end Outbox

section

variable {X : Abilities} {E V S H W : Type} (voc : Vocabulary X E V) (driver next : Nat) (waker : Waker)

/-- What a poll returns if it comes to `stop` and the next request has the id `next`. -/
def comes : Stop X.interface S → Poll × Running X S
  | .asks request more => (.pending, .waiting request next more)
  | .ends => (.ready, .done)

/-- The effects of a stretch. -/
def recordedBy (messages : List X.Message) : Stop X.interface S → List E
  | .asks request _ => messages.map voc.told ++ [voc.asked request ⟨driver, next⟩]
  | .ends => messages.map voc.told

/-- The outbox once it has come to `stop`. -/
def outboxAt (effects : List E) (log : List (Event E)) : Stop X.interface S → Outbox E
  | .asks request _ => .awaits driver next waker (X.reply request).answer.check none effects log
  | .ends => .clear driver next waker effects log

def Shared.put (s : Shared E H) (outbox : Outbox E) : Shared E H := { s with outbox }

theorem Prog.run_ask {α : Type} (answer : Answer) (make : ReplyHandle → E)
    (k : Option Nat → Prog E α) (s : Shared E H) :
    (Prog.ask answer (fun reply => .ret (some (make reply))) k).run s =
      (k (some s.outbox.mint.1.id)).run (s.put (s.outbox.mint.2.openRequest s.outbox.mint.1.id
        (make s.outbox.mint.1) answer)) := rfl

theorem run_hear_none {waker : Waker} {driver id : Nat} {check : Check} {effects : List E}
    {log : List (Event E)} {request : X.Request}
    {next : (X.reply request).Carrier → Dialogue X.interface (Option S)}
    {goOn : (X.reply request).Carrier → Prog E (Option (Poll × Running X S))} (s : Shared E H) :
    (hear waker request id next goOn).run (s.put (.awaits driver id waker check none effects log)) =
      (some (.pending, .waiting request id next),
        s.put (.awaits driver id waker check none effects (.collected id none :: log))) := by
  simp only [hear, Prog.run, Shared.put, Outbox.awaits_collect_none, Option.elim]

theorem run_hear_some {waker : Waker} {driver id : Nat} {check : Check} {effects : List E}
    {log : List (Event E)} {request : X.Request}
    {next : (X.reply request).Carrier → Dialogue X.interface (Option S)}
    {goOn : (X.reply request).Carrier → Prog E (Option (Poll × Running X S))} {value : Value}
    {reply : (X.reply request).Carrier} (read : (X.reply request).read value = some reply)
    (s : Shared E H) :
    (hear waker request id next goOn).run
        (s.put (.awaits driver id waker check (some value) effects log)) =
      (goOn reply).run (s.put (.clear driver (id + 1) waker effects
        (.dropped id :: .collected id (some value) :: log))) := by
  simp only [hear, Prog.run, Shared.put, Outbox.awaits_collect_some, Option.elim, read,
    Outbox.clear_close]

/-- A poll that goes on from here with nothing outstanding comes to `stop`. -/
def Comes (poll : Prog E (Option (Poll × Running X S))) (messages : List X.Message)
    (stop : Stop X.interface S) : Prop :=
  ∀ (s : Shared E H) (effects : List E) (log : List (Event E)), ∃ log',
    poll.run (s.put (.clear driver next waker effects log)) =
      (some (comes next stop), s.put (outboxAt driver next waker
        (effects ++ recordedBy voc driver next messages stop) log' stop))

variable {voc driver next waker}

theorem speak_comes {after : Option S → Prog E (Option (Poll × Running X S))}
    {follows : Option S → Option (List X.Message × Stop X.interface S)}
    (rest : ∀ flow messages stop, follows flow = some (messages, stop) →
      Comes (H := H) voc driver next waker (after flow) messages stop)
    {d : Dialogue X.interface (Option S)} {messages : List X.Message} {stop : Stop X.interface S}
    (said : upTo follows d = some (messages, stop)) :
    Comes (H := H) voc driver next waker (speak voc waker after d) messages stop := by
  induction d generalizing messages stop with
  | done flow => exact rest flow messages stop said
  | tell message d ih =>
    obtain ⟨⟨later, last⟩, more, same⟩ := Option.map_eq_some_iff.mp said
    cases same
    intro s effects log
    obtain ⟨log', ran⟩ := ih more s (effects ++ [voc.told message]) (.told (voc.told message) :: log)
    refine ⟨log', ?_⟩
    have recorded : effects ++ recordedBy voc driver next (message :: later) last =
        effects ++ [voc.told message] ++ recordedBy voc driver next later last := by
      cases last <;> simp [recordedBy]
    show _ = (_, s.put (outboxAt driver next waker (effects ++ recordedBy voc driver next
      (message :: later) last) log' last))
    rw [recorded]
    exact ran
  | ask request more _ =>
    cases said
    intro s effects log
    -- the request is recorded, and a first poll of it finds no reply
    let o : Outbox E := .clear driver next waker effects log
    have opened : o.mint.2.openRequest next (voc.asked request ⟨driver, next⟩)
        (X.reply request).answer = _ := Outbox.clear_open _ _
    have heard : (hear waker request next more fun reply => speak voc waker after (more reply)).run
        (s.put (.awaits driver next waker (X.reply request).answer.check none
          (effects ++ [voc.asked request ⟨driver, next⟩])
          (.opened next (voc.asked request ⟨driver, next⟩) (X.reply request).answer ::
            .minted next :: log))) = _ := run_hear_none s
    rw [← opened] at heard
    exact ⟨_, (Prog.run_ask _ _ _ (s.put o)).trans heard⟩

theorem turnsOf_comes {step : Loop X.interface S} {turns : Nat}
    {d : Dialogue X.interface (Option S)} {messages : List X.Message} {stop : Stop X.interface S}
    (said : stretch step turns d = some (messages, stop)) :
    Comes (H := H) voc driver next waker (turnsOf voc step waker turns d) messages stop := by
  have comes : Comes (H := H) voc driver next waker
      (.ret (some (.ready, .done)) : Prog E (Option (Poll × Running X S))) [] .ends := by
    intro s effects log
    exact ⟨log, by simp [Prog.run, comes, recordedBy, outboxAt]⟩
  induction turns generalizing d messages stop with
  | zero =>
    refine speak_comes (fun flow messages stop follows => ?_) said
    cases flow with
    | none =>
      cases follows
      exact comes
    | some s => cases follows
  | succ turns ih =>
    refine speak_comes (fun flow messages stop follows => ?_) said
    cases flow with
    | none =>
      cases follows
      exact comes
    | some s => exact ih follows

end

/-! ### A machine that holds it -/

section

variable {X : Abilities} {E V S H : Type} (voc : Vocabulary X E V) (driver next : Nat) (waker : Waker)

/-- The effects of a stretch, as a host is shown them. -/
def shownBy (messages : List X.Message) : Stop X.interface S → List (Shown V)
  | .asks request _ => messages.map (⟨voc.showTold ·, false⟩) ++ [⟨voc.showAsked request next, true⟩]
  | .ends => messages.map (⟨voc.showTold ·, false⟩)

/-- A driver that is not running is where its routine stopped. `next` is the id of the request it
waits for, or would have the next one. -/
def Came (d : Stepper (Running X S) E H) : Stop X.interface S → Prop
  | .asks request more => d.future = some (.waiting request next more) ∧ d.waker = waker ∧
    d.status = .awaiting ∧ ∃ log, d.shared.outbox =
      .awaits driver next waker (X.reply request).answer.check none [] log
  | .ends => d.future = none ∧ d.status = .complete

/-- The machine's driver has come to `stop`, and its table has just the handle of that request. -/
structure Stands (m : Machine (Running X S) E H) (stop : Stop X.interface S) : Prop where
  came : Came driver next waker m.driver stop
  pending : m.pending = match stop with
    | .asks request _ => [(next, (X.reply request).wire.intoPending ⟨driver, next⟩)]
    | .ends => []
  highest : ∀ request more, stop = .asks request more → m.highestShown = next
  never : m.neverShown = []

variable {voc driver next waker}

theorem showEffects_told {m : Machine (Running X S) E H} (messages : List X.Message)
    (rest : List E) : m.showEffects voc.split (messages.map voc.told ++ rest) =
      (messages.map (⟨voc.showTold ·, false⟩) ++ (m.showEffects voc.split rest).1,
        (m.showEffects voc.split rest).2) := by
  induction messages with
  | nil => rfl
  | cons message messages ih =>
    simp only [List.map_cons, List.cons_append, Machine.showEffects, voc.split_told, Option.elim,
      ih]
    rfl

/-- The machine's table once a stretch has been shown. -/
def remembered (driver next : Nat) (m : Machine (Running X S) E H) :
    Stop X.interface S → Machine (Running X S) E H
  | .asks request _ =>
    { m with
      pending := [(next, (X.reply request).wire.intoPending ⟨driver, next⟩)]
      highestShown := next }
  | .ends => m

theorem showYield_stretch {m : Machine (Running X S) E H} (messages : List X.Message)
    (stop : Stop X.interface S) (pending : m.pending = []) (highest : m.highestShown + 1 = next)
    (never : m.neverShown = []) :
    m.showYield voc.split ⟨recordedBy voc driver next messages stop, []⟩ =
      (⟨shownBy voc next messages stop, []⟩, remembered driver next m stop) := by
  have whole : recordedBy voc driver next messages stop =
      messages.map voc.told ++ recordedBy voc driver next [] stop := by
    cases stop <;> simp [recordedBy]
  obtain ⟨driver', _, _, _⟩ := m
  obtain rfl : _ = [] := pending
  obtain rfl : _ = [] := never
  obtain rfl : _ = next := highest
  unfold Machine.showYield
  simp only [whole, showEffects_told]
  cases stop with
  | ends => simp [recordedBy, Machine.showEffects, shownBy, remembered, Machine.forget]
  | asks request more =>
    simp [recordedBy, Machine.showEffects, shownBy, remembered, Machine.forget, voc.split_asked,
      Machine.remember]

/-- A poll of a future that comes to `stop`, and the driver after it. -/
theorem poll_comes {step : Loop X.interface S} {turns : Nat} {d : Stepper (Running X S) E H}
    {future : Running X S} {messages : List X.Message} {stop : Stop X.interface S}
    (held : d.future = some future) (polled : d.waker = waker)
    (polls : ∀ s : Shared E H, s.outbox = d.shared.outbox → ∃ log,
      ((Running.program voc step turns).poll future waker).run s =
        (some (comes next stop), s.put (outboxAt driver next waker
          (recordedBy voc driver next messages stop) log stop))) :
    ∃ after, d.poll (Running.program voc step turns).routine =
        some (⟨recordedBy voc driver next messages stop, []⟩, after) ∧
      Came driver next waker after stop := by
  let cleared : Shared E H := { d.shared with wakeup := d.shared.wakeup.clear }
  obtain ⟨log, ran⟩ := polls cleared rfl
  have returned : (Running.program voc step turns).routine.poll future d.waker cleared =
      some (comes next stop, cleared.put (outboxAt driver next waker
        (recordedBy voc driver next messages stop) log stop)) := by
    show Option.map _ _ = _
    rw [polled, ran]
    rfl
  unfold Stepper.poll
  rw [held]
  simp only
  rw [returned]
  cases stop with
  | asks request more => exact ⟨_, rfl, rfl, polled, rfl, _, rfl⟩
  | ends => exact ⟨_, rfl, rfl, rfl⟩

theorem stands_of_came {m : Machine (Running X S) E H} {d : Stepper (Running X S) E H}
    {stop : Stop X.interface S} (came : Came driver next waker d stop) (pending : m.pending = [])
    (never : m.neverShown = []) :
    Stands driver next waker (remembered driver next { m with driver := d } stop) stop := by
  cases stop with
  | asks request more => exact ⟨came, rfl, fun _ _ _ => rfl, never⟩
  | ends => exact ⟨came, pending, nofun, never⟩

/-- The call that begins a routine shows its first stretch. -/
theorem resume_stands {step : Loop X.interface S} {turns : Nat} {s : S}
    {messages : List X.Message} {stop : Stop X.interface S}
    (said : stretch step turns (step s) = some (messages, stop)) :
    ∃ after, (Machine.fromDriver (.new driver waker (.ret (.fresh s)))).resumeShown
        (Running.program voc step turns).routine voc.split =
          some (.ok ⟨shownBy voc 1 messages stop, []⟩, after) ∧
      Stands (H := H) driver 1 waker after stop := by
  let m : Machine (Running X S) E H := .fromDriver (.new driver waker (.ret (.fresh s)))
  have comes : Comes (H := H) voc driver 1 waker _ messages stop := turnsOf_comes said
  obtain ⟨d, polled, came⟩ : ∃ after, m.driver.poll (Running.program voc step turns).routine =
      some (⟨recordedBy voc driver 1 messages stop, []⟩, after) ∧ Came driver 1 waker after stop := by
    refine poll_comes rfl rfl fun shared same => ?_
    obtain ⟨log, ran⟩ := comes shared [] []
    refine ⟨log, Eq.trans ?_ ran⟩
    have whole : shared = shared.put (.clear driver 1 waker [] []) := by
      rw [Shared.put, ← show shared.outbox = Outbox.clear driver 1 waker [] [] from same]
    rw [← whole]
    rfl
  have shown : { m with driver := d }.showYield voc.split
      ⟨recordedBy voc driver 1 messages stop, []⟩ = _ := showYield_stretch messages stop rfl rfl rfl
  have stands := stands_of_came (m := m) came rfl rfl
  refine ⟨_, ?_, stands⟩
  show (if m.isFinished then _ else _) = _
  rw [if_neg (by simp [m, Machine.isFinished, Machine.fromDriver, Stepper.isFinished, Stepper.new,
    Prog.run]), polled, Option.map_some]
  exact congrArg (fun result => some (Except.ok result.1, result.2)) shown

/-- A reply to the request it waits for shows the stretch that follows. -/
theorem reply_stands {step : Loop X.interface S} {turns : Nat} {m : Machine (Running X S) E H}
    {request : X.Request} {more : (X.reply request).Carrier → Dialogue X.interface (Option S)}
    (stands : Stands driver next waker m (.asks request more)) {value : Value}
    {reply : (X.reply request).Carrier} (carries : (X.reply request).Carries value reply)
    {messages : List X.Message} {stop : Stop X.interface S}
    (said : stretch step turns (more reply) = some (messages, stop)) :
    ∃ after, m.replyShown (Running.program voc step turns).routine voc.split next value =
        some (.ok ⟨shownBy voc (next + 1) messages stop, []⟩, after) ∧
      Stands driver (next + 1) waker after stop := by
  obtain ⟨⟨future, polled, status, log, outbox⟩, pending, highest, never⟩ := stands
  -- the handle is taken out of the table, and is of the value's kind
  have taken : m.take next = .ok ((X.reply request).wire.intoPending ⟨driver, next⟩,
      { m with pending := [] }) := by
    unfold Machine.take
    rw [if_neg (by simp [Machine.isFinished, Stepper.isFinished, future]), pending]
    simp [List.findIdx_cons, Slice.swapRemove]
  have own : value.kind.fromPending ((X.reply request).wire.intoPending ⟨driver, next⟩) =
      .ok ⟨driver, next⟩ := by
    rw [carries.kind, Kind.fromPending_intoPending, if_pos rfl]
  let answered : Stepper (Running X S) E H := { m.driver with
    shared := m.driver.shared.put (.awaits driver next waker (X.reply request).answer.check
      (some value) [] (.delivered next value :: log)) }
  have comes : Comes (H := H) voc driver (next + 1) waker _ messages stop := turnsOf_comes said
  obtain ⟨d, polled', came⟩ : ∃ after,
      answered.poll (Running.program voc step turns).routine =
        some (⟨recordedBy voc driver (next + 1) messages stop, []⟩, after) ∧
      Came driver (next + 1) waker after stop := by
    refine poll_comes future polled fun shared same => ?_
    obtain ⟨log', ran⟩ := comes shared []
      (.dropped next :: .collected next (some value) :: .delivered next value :: log)
    refine ⟨log', Eq.trans ?_ ran⟩
    have whole : shared = shared.put (.awaits driver next waker
        (X.reply request).answer.check (some value) [] (.delivered next value :: log)) := by
      rw [Shared.put, ← show shared.outbox = Outbox.awaits driver next waker
        (X.reply request).answer.check (some value) [] (.delivered next value :: log) from same]
    rw [whole]
    exact run_hear_some carries.read shared
  have tried : m.driver.tryReply (Running.program voc step turns).routine ⟨driver, next⟩ value =
      some (.ok ⟨recordedBy voc driver (next + 1) messages stop, []⟩, d) := by
    unfold Stepper.tryReply
    rw [show m.driver.outbox = _ from outbox, Outbox.awaits_deliver carries.check]
    exact congrArg (Option.map _) polled'
  have shown : { m with driver := d, pending := [] }.showYield voc.split
      ⟨recordedBy voc driver (next + 1) messages stop, []⟩ = _ :=
    showYield_stretch messages stop rfl (congrArg (· + 1) (highest request more rfl)) never
  have stands := stands_of_came (m := { m with pending := [] }) came rfl never
  refine ⟨_, ?_, stands⟩
  unfold Machine.replyShown
  rw [taken]
  simp only [own, Machine.deliver, tried, Option.map_some, shown]

end

end SansEffort
