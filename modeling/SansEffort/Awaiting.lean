import SansEffort.Codable
import SansEffort.Refusal

/-!
# Answers

The types a routine can wait for (`reply.rs`), and a poll of a request for one
(`driver/awaiting.rs`). A host's value passes two places: it is checked against the answer when it
is delivered, and decoded as the answer when the routine next polls. Between them it is stored
without its type, so what the first let pass is all that the second has to go by.
-/

namespace SansEffort

variable {σ E H V : Type}

/-! ### What can be awaited -/

/-- `Decode for Result`: a tag says which of the two types follows. -/
def Reader.result {α β : Type} (ok : Reader α) (err : Reader β) : Reader (Except β α) := do
  let tag ← Reader.u8
  if tag = 0 then .ok <$> ok
  else if tag = 1 then .error <$> err
  else throw (.unknownTag tag)

/-- `Decode for Option`. -/
def Reader.option {α : Type} (inner : Reader α) : Reader (Option α) := do
  let tag ← Reader.u8
  if tag = 0 then pure none
  else if tag = 1 then some <$> inner
  else throw (.unknownTag tag)

/-- Take a value as this kind: it sees what borrowing it sees. -/
def Kind.fromValue (k : Kind) (value : Value) : Option k.Carrier := k.fromValueRef value

/-- A type with an `Answer`: how it crosses, how it is read back, and how a wire value is checked
without keeping it. Nothing makes the last two agree. -/
structure AnswerType where
  wire : Kind
  Carrier : Type
  fromWire : wire.Carrier → Except DecodeError Carrier
  check : wire.Carrier → Except DecodeError Unit

namespace AnswerType

/-- What a slot keeps of the type. -/
def answer (A : AnswerType) : Answer := ⟨A.wire, A.check⟩

/-- A value is of the type's kind, and holds one of its answers. -/
def Reads (A : AnswerType) (value : Value) : Prop :=
  ∃ wire x, A.wire.fromValue value = some wire ∧ A.fromWire wire = .ok x

/-- `Awaiting::poll`. It panics where the value is of another kind, and where it does not
decode. -/
def poll (A : AnswerType) (o : Outbox E) (id : Nat) (waker : Waker) :
    Option (Option A.Carrier × Outbox E) :=
  match o.collect id waker with
  | (some value, o) =>
    match A.wire.fromValue value with
    | none => none
    | some wire =>
      match A.fromWire wire with
      | .ok x => some (some x, o)
      | .error _ => none
  | (none, o) => some (none, o)

/-- The wire kinds answer as themselves. -/
def itself (k : Kind) : AnswerType where
  wire := k
  Carrier := k.Carrier
  fromWire wire := .ok wire
  check _ := .ok ()

def result {α β : Type} (ok : Reader α) (err : Reader β) : AnswerType where
  wire := .bytes
  Carrier := Except β α
  fromWire wire := (Reader.result ok err).fromBytes wire
  check wire := ((Reader.result ok err).fromBytes wire).map fun _ => ()

def option {α : Type} (inner : Reader α) : AnswerType where
  wire := .bytes
  Carrier := Option α
  fromWire wire := (Reader.option inner).fromBytes wire
  check wire := ((Reader.option inner).fromBytes wire).map fun _ => ()

end AnswerType

/-- `Duration`: whole seconds, and the nanoseconds past them. -/
structure Duration where
  secs : UInt64
  nanos : Nat
  small : nanos < 1000000000

def Duration.fromNanos (nanos : UInt64) : Duration where
  secs := nanos / 1000000000
  nanos := nanos.toNat % 1000000000
  small := Nat.mod_lt _ (by decide)

/-- A time, as the duration since the Unix epoch. -/
structure UnixTime where
  sinceEpoch : Duration

namespace AnswerType

/-- `Answer for UnixTime`: whole nanoseconds since the epoch cross the wire. -/
def unixTime : AnswerType where
  wire := .u64
  Carrier := UnixTime
  fromWire nanos := .ok ⟨.fromNanos nanos⟩
  check _ := .ok ()

/-- The library's own answers. A `Result` or an `Option` may be of any types with a `Decode`. -/
inductive Library : AnswerType → Prop
  | itself (k : Kind) : Library (itself k)
  | result {α β : Type} (ok : Reader α) (err : Reader β) : Library (result ok err)
  | option {α : Type} (inner : Reader α) : Library (option inner)
  | unixTime : Library unixTime

/-- The library's answers accept no wire value that they cannot read back. -/
theorem Library.reads_of_check {A : AnswerType} (library : A.Library) {wire : A.wire.Carrier}
    (accepted : A.check wire = .ok ()) : ∃ x, A.fromWire wire = .ok x := by
  have dropped : ∀ {α : Type} {read : Except DecodeError α},
      (read.map fun _ => ()) = .ok () → ∃ x, read = .ok x := by
    intro α read kept
    cases read with
    | ok x => exact ⟨x, rfl⟩
    | error error => cases kept
  cases library with
  | itself k => exact ⟨wire, rfl⟩
  | result ok err => exact dropped accepted
  | option inner => exact dropped accepted
  | unixTime => exact ⟨_, rfl⟩

theorem Library.reads {A : AnswerType} (library : A.Library) {value : Value}
    (accepted : A.answer.check value = some (.ok ())) : A.Reads value := by
  obtain ⟨wire, taken, checked⟩ := Option.map_eq_some_iff.mp accepted
  obtain ⟨x, read⟩ := library.reads_of_check checked
  exact ⟨wire, x, taken, read⟩

/-- A poll panics only over a value that it takes out and cannot read. -/
theorem poll_ne_none (A : AnswerType) (o : Outbox E) (id : Nat) (waker : Waker)
    (reads : ∀ value, (o.collect id waker).1 = some value → A.Reads value) :
    A.poll o id waker ≠ none := by
  unfold AnswerType.poll
  cases collected : o.collect id waker with
  | mk value after =>
    cases value with
    | none => nofun
    | some value =>
      obtain ⟨wire, x, taken, read⟩ := reads value (by rw [collected])
      simp only [taken, read]
      nofun

end AnswerType

/-! ### What a slot may hold -/

/-- A reply that was delivered and not collected passed the check of the answer awaited. -/
theorem Valid.answered_checked {log : List (Event E)} (valid : Valid log) {id : Nat} {a : Answer}
    {v : Value} (answered : life id log = .answered a v) : a.check v = some (.ok ()) := by
  induction log with
  | nil => cases answered
  | cons event log ih =>
    cases valid with
    | cons valid allowed =>
      rw [life] at answered
      obtain ⟨e, b, rfl, step⟩ | ⟨w, rfl, step⟩ | ⟨w, rfl, step⟩ | ⟨rfl, step⟩ | ⟨step, _⟩ :=
        Life.step_cases id (life id log) event
      · rw [step] at answered
        cases answered
      · -- the value stored is the one delivered last, and it was checked then
        obtain ⟨b, alive, checked⟩ := allowed
        rw [step] at answered
        cases state : life id log <;> rw [state] at answered alive <;> cases answered <;>
          cases alive <;> exact checked
      · rw [step] at answered
        cases state : life id log <;> rw [state] at answered <;> cases answered
      · rw [step] at answered
        cases state : life id log <;> rw [state] at answered <;> cases answered
      · rw [step] at answered
        exact ih valid answered

/-- The future of each request opened awaits one of the library's answers. -/
def Awaits (types : Nat → AnswerType) (log : List (Event E)) : Prop :=
  ∀ id a, (id, a) ∈ openings log → (types id).Library ∧ a = (types id).answer

theorem Outbox.Kept.value_reads {o : Outbox E} (kept : o.Kept) {types : Nat → AnswerType}
    (awaits : Awaits types o.log) {id : Nat} {value : Value}
    (stored : (life id o.log).value = some value) : (types id).Reads value := by
  obtain ⟨a, state⟩ : ∃ a, life id o.log = .answered a value := Life.value_eq_some stored
  have opened := life_answer_opened id o.log a (by rw [state]; rfl)
  obtain ⟨library, rfl⟩ := awaits id a opened
  exact library.reads (kept.valid.answered_checked state)

theorem Outbox.Kept.slot_reads {o : Outbox E} (kept : o.Kept) {types : Nat → AnswerType}
    (awaits : Awaits types o.log) {id : Nat} {slot : Slot} {value : Value}
    (found : o.mail.lookup id = some slot) (stored : slot.value = some value) :
    (types id).Reads value := by
  apply kept.value_reads awaits
  obtain ⟨_, _, _, same, _⟩ := kept.mail.lookup_some found
  exact same.symm.trans stored

theorem Outbox.Kept.poll_ne_none {o : Outbox E} (kept : o.Kept) {types : Nat → AnswerType}
    (awaits : Awaits types o.log) (id : Nat) (waker : Waker) :
    (types id).poll o id waker ≠ none := by
  apply AnswerType.poll_ne_none
  intro value collected
  apply kept.value_reads awaits
  exact (kept.collect id waker).2.symm.trans collected

/-! ### A host's calls -/

/-- A call from Rust, with a wire value, or over an ABI, with a record. -/
inductive MachineCall
  | typed (c : Call)
  | record (c : EncodedCall)

namespace Machine

def act (r : Routine σ E H) (split : E → V × Option Pending) (view : V → Writer → Option Writer)
    (m : Machine σ E H) : HostAct MachineCall E → Option (Machine σ E H)
  | .call (.typed c) => (m.call r split c).map Prod.snd
  | .call (.record c) => (Encoded.call r split view m c).map Prod.snd
  | .other op => m.other op
  | .wake => some m.wake

/-- What a reply is delivered to: the machine's outbox, once the request's handle is taken out of
the table. `none` if there is no such handle, or it is of another kind. -/
def delivered (m : Machine σ E H) (id : Nat) (value : Value) :
    Option (Option (Delivery × Outbox E)) :=
  match m.take id with
  | .error _ => none
  | .ok (p, m) =>
    match value.kind.fromPending p with
    | .ok reply => some (m.driver.outbox.deliver reply value)
    | .error _ => none

/-- The outbox at a moment between two calls, or during one: the routine's operations may have
been done by any thread since the last call, and since a reply that this call delivered. -/
inductive Moment (m : Machine σ E H) : Outbox E → Prop
  | since {o : Outbox E} (ran : Outbox.Ran m.driver.outbox o) : Moment m o
  | replied {id : Nat} {value : Value} {waker : Option Waker} {filled o : Outbox E}
      (delivered : m.delivered id value = some (some (.delivered waker, filled)))
      (ran : Outbox.Ran filled o) : Moment m o

/-- The machine's handles are the ones minted for the requests they stand under, in the kind of the
answer each awaits. -/
structure Traced (split : E → V × Option Pending) (driver : Nat) (m : Machine σ E H) : Prop where
  kept : m.driver.outbox.Kept
  own : m.driver.outbox.mail.driver = driver
  handles : ∀ id p, (id, p) ∈ m.pending → ∃ a, (id, a) ∈ openings m.driver.outbox.log ∧
    p = a.wire.intoPending ⟨driver, id⟩

variable {split : E → V × Option Pending} {driver : Nat} {r : Routine σ E H}

theorem traced_new (split : E → V × Option Pending) (driver : Nat) (waker : Waker)
    (make : Prog E σ) :
    (fromDriver (.new driver waker make) : Machine σ E H).Traced split driver := by
  obtain ⟨kept, _, grown⟩ := Stepper.kept_new (H := H) driver waker make
  exact ⟨kept, grown.driver, fun _ _ member => by cases member⟩

/-- The same table over a longer history. -/
theorem Traced.later {m : Machine σ E H} (traced : m.Traced split driver) {m' : Machine σ E H}
    (kept : m'.driver.outbox.Kept) (own : m'.driver.outbox.mail.driver = m.driver.outbox.mail.driver)
    (log : m.driver.outbox.log <:+ m'.driver.outbox.log) (pending : m'.pending ⊆ m.pending) :
    m'.Traced split driver := by
  refine ⟨kept, own.trans traced.own, fun id p member => ?_⟩
  obtain ⟨a, opened, handle⟩ := traced.handles id p (pending member)
  obtain ⟨e, there⟩ := (mem_openings_iff _ _ _).mp opened
  exact ⟨a, (mem_openings_iff _ _ _).mpr ⟨e, log.subset there⟩, handle⟩

/-- After a call the table's handles are still the ones minted for its requests. -/
theorem Traced.call {m m' : Machine σ E H} (traced : m.Traced split driver) {c : Call}
    {result : Except Error (Yield (Shown V))} (returned : m.call r split c = some (result, m'))
    (lawful : Lawful split driver m'.driver.outbox.log) : m'.Traced split driver := by
  have later := Hosted.call_later r split traced.kept returned
  -- a call that is refused shows nothing, and opens no request
  cases result with
  | error error =>
    have alike := call_refused r split traced.kept returned
    refine traced.later later.kept ?_ later.log alike.pending.subset
    rw [alike.driver]
  -- what it shows is one batch of effects, the last that the log tells of
  | ok shown =>
    obtain ⟨taken, n, after, yielded, removed, rfl, more, own⟩ :=
      Hosted.call_shown r split traced.kept returned
    have driver' := showYield_driver split { n with driver := after } yielded
    refine ⟨later.kept, ?_, fun id p member => ?_⟩
    · rw [driver']
      exact own.trans traced.own
    -- what is pending was so before, or is in the batch just shown
    · rcases List.mem_append.mp ((showYield_pending _ _ _).subset member) with before | shown
      · have there : (id, p) ∈ m.pending := removed.subset (List.mem_append_right _ before)
        obtain ⟨a, opened, handle⟩ := traced.handles id p there
        obtain ⟨e, told⟩ := (mem_openings_iff _ _ _).mp opened
        exact ⟨a, (mem_openings_iff _ _ _).mpr ⟨e, later.log.subset told⟩, handle⟩
      · obtain ⟨q, inside, same⟩ := List.mem_map.mp shown
        cases same
        refine shown_opened later.kept.valid lawful ?_
        rw [driver']
        show p ∈ Machine.handles split (emitted after.outbox.log)
        rw [more, Machine.handles, List.filterMap_append]
        exact List.mem_append_right _ inside

/-- An act is a call, or does to the outbox what others may. -/
theorem act_cases {view : V → Writer → Option Writer} {m m' : Machine σ E H}
    (kept : m.driver.outbox.Kept) {a : HostAct MachineCall E} (acted : m.act r split view a = some m') :
    (∃ c result, m.call r split c = some (result, m')) ∨
    (m'.driver.outbox.Kept ∧ Outbox.Grown m.driver.outbox m'.driver.outbox ∧
      m'.pending = m.pending) := by
  have same := (Outbox.Ran.refl m.driver.outbox).grown kept
  cases a with
  | call c =>
    cases c with
    | typed c =>
      obtain ⟨⟨result, last⟩, called, rfl⟩ := Option.map_eq_some_iff.mp acted
      exact .inl ⟨c, result, called⟩
    | record c =>
      obtain ⟨⟨coded, last⟩, called, rfl⟩ := Option.map_eq_some_iff.mp acted
      rcases Encoded.call_cases called with ⟨_, _, rfl, _⟩ | ⟨inner, result, called, _, _⟩
      · -- the record was malformed, and nothing was called
        exact .inr ⟨kept, same.2, rfl⟩
      · exact .inl ⟨inner, result, called⟩
  | other op =>
    simp only [Machine.act, Machine.other] at acted
    split at acted
    · next side =>
      obtain ⟨outbox, moved, rfl⟩ := Option.map_eq_some_iff.mp acted
      exact .inr ⟨kept.step moved, kept.step_grown side moved, rfl⟩
    · cases acted
  | wake =>
    cases acted
    exact .inr ⟨kept, same.2, rfl⟩

/-- What holds between the acts of a run, as far as the effects so far are lawful. -/
theorem run_traced {view : V → Writer → Option Writer} {waker : Waker} {make : Prog E σ}
    {acts : List (HostAct MachineCall E)} {m : Machine σ E H}
    (ran : Transition.run (act r split view) (fromDriver (.new driver waker make)) acts = some m) :
    m.driver.outbox.Kept ∧ (Lawful split driver m.driver.outbox.log → m.Traced split driver) := by
  refine Transition.run_invariant (fun m : Machine σ E H => m.driver.outbox.Kept ∧
    (Lawful split driver m.driver.outbox.log → m.Traced split driver)) ?_ ?_ ran
  · intro m a next ⟨kept, traced⟩ acted
    obtain ⟨c, result, called⟩ | ⟨kept', grown, pending⟩ := act_cases kept acted
    · have later := Hosted.call_later r split kept called
      refine ⟨later.kept, fun lawful => ?_⟩
      exact (traced (lawful.of_suffix later.log)).call called lawful
    · refine ⟨kept', fun lawful => ?_⟩
      have before := traced (lawful.of_suffix grown.log)
      exact before.later kept' grown.driver grown.log (pending ▸ List.Subset.refl _)
  · have new := traced_new (H := H) split driver waker make
    exact ⟨new.kept, fun _ => new⟩

/-- A reply is delivered to this very machine's outbox. -/
theorem delivered_cases {m : Machine σ E H} {id : Nat} {value : Value}
    {result : Option (Delivery × Outbox E)} (delivered : m.delivered id value = some result) :
    ∃ p reply, (id, p) ∈ m.pending ∧ value.kind.fromPending p = .ok reply ∧
      result = m.driver.outbox.deliver reply value := by
  -- the pending id is taken off its record first, and then the reply is unwrapped
  unfold Machine.delivered at delivered
  cases taken : m.take id with
  | error error =>
    rw [taken] at delivered
    cases delivered
  | ok found =>
    obtain ⟨p, n⟩ := found
    rw [taken] at delivered
    simp only at delivered
    split at delivered
    · next reply unwrapped =>
      cases delivered
      rw [take_driver taken]
      -- `take` finds it, or the machine would have refused the call
      refine ⟨p, reply, ?_, unwrapped, rfl⟩
      cases finished : m.isFinished with
      | true =>
        rw [m.take_finished finished id] at taken
        cases taken
      | false =>
        rcases m.take_spec finished id with ⟨q, n', found, removed, _⟩ | ⟨_, missing⟩
        · rw [taken] at found
          cases found
          exact removed.subset List.mem_cons_self
        · rw [taken] at missing
          split at missing <;> cases missing
    · cases delivered

/-- A value that gets as far as a slot is of the slot's kind, so its check can tell. -/
theorem Traced.delivered {m : Machine σ E H} (traced : m.Traced split driver) (id : Nat)
    (value : Value) : m.delivered id value ≠ some none := by
  intro panicked
  obtain ⟨p, reply, member, unwrapped, result⟩ := delivered_cases panicked
  obtain ⟨a, opened, rfl⟩ := traced.handles id p member
  rw [Kind.fromPending_intoPending] at unwrapped
  split at unwrapped
  · next kind =>
    cases unwrapped
    have delivered := traced.kept.deliver ⟨driver, id⟩ value traced.own.symm
    rw [← result] at delivered
    cases alive : (life id m.driver.outbox.log).answer with
    | none =>
      rw [alive] at delivered
      cases delivered
    | some b =>
      -- the slot still open under this id was opened for the answer of the handle
      have again := life_answer_opened id _ b alive
      obtain rfl := traced.kept.valid.openings_unique opened again
      obtain ⟨verdict, checked⟩ := a.check_of_kind value kind.symm
      simp only [alive, checked] at delivered
      cases verdict with
      | error error => cases delivered
      | ok _ =>
        obtain ⟨_, _, delivered, _⟩ := delivered
        cases delivered
  · cases unwrapped

theorem Moment.kept {m : Machine σ E H} {o : Outbox E} (moment : m.Moment o)
    (kept : m.driver.outbox.Kept) : o.Kept := by
  cases moment with
  | since ran => exact (ran.grown kept).1
  | replied delivered ran =>
    obtain ⟨_, reply, _, _, result⟩ := delivered_cases delivered
    exact (ran.grown (kept.delivered result.symm)).1

/-- A reply that panics was delivered first: it is the routine's own code that unwinds. -/
theorem Traced.replyShown {m : Machine σ E H} (traced : m.Traced split driver) (id : Nat)
    (value : Value) (panicked : m.replyShown r split id value = none) :
    ∃ waker filled, m.delivered id value = some (some (.delivered waker, filled)) := by
  have safe := traced.delivered id value
  -- what was delivered cannot have panicked on the way, by the invariant
  unfold Machine.delivered at safe ⊢
  unfold Machine.replyShown at panicked
  cases taken : m.take id with
  | error error =>
    rw [taken] at panicked
    cases panicked
  | ok found =>
    obtain ⟨p, n⟩ := found
    rw [taken] at panicked safe
    simp only at panicked safe ⊢
    cases unwrapped : value.kind.fromPending p with
    | error other =>
      rw [unwrapped] at panicked
      cases panicked
    | ok reply =>
      rw [unwrapped] at panicked safe
      simp only [Machine.deliver, Option.map_eq_none_iff] at panicked
      simp only at safe ⊢
      unfold Stepper.tryReply at panicked
      -- so what panics comes after the delivery
      cases delivered : n.driver.outbox.deliver reply value with
      | none => exact absurd (congrArg some delivered) safe
      | some outcome =>
        obtain ⟨delivery, filled⟩ := outcome
        rw [delivered] at panicked
        cases delivery with
        | delivered waker => exact ⟨waker, filled, rfl⟩
        | gone => cases panicked
        | refused _ _ => cases panicked

/-- In every run, however its values are sent: a reply finds a slot of its own driver and its own
kind if it gets as far as one, and at every moment a slot's value is what its future reads. -/
theorem replies_never_panic (r : Routine σ E H) (split : E → V × Option Pending)
    (view : V → Writer → Option Writer) (driver : Nat) (waker : Waker) (make : Prog E σ)
    (acts : List (HostAct MachineCall E)) (m : Machine σ E H)
    (ran : Transition.run (act r split view) (fromDriver (.new driver waker make)) acts = some m)
    (lawful : Lawful split driver m.driver.outbox.log) :
    (∀ id value, m.delivered id value ≠ some none ∧
      (m.replyShown r split id value = none → ∃ waker filled,
        m.delivered id value = some (some (.delivered waker, filled)))) ∧
    ∀ o types, m.Moment o → Awaits types o.log →
      (∀ id slot value, o.mail.lookup id = some slot → slot.value = some value →
        (types id).Reads value) ∧
      ∀ id waker, (types id).poll o id waker ≠ none := by
  obtain ⟨kept, traced⟩ := run_traced ran
  have traced := traced lawful
  constructor
  · intro id value
    exact ⟨traced.delivered id value, traced.replyShown id value⟩
  · intro o types moment awaits
    have kept := moment.kept kept
    exact ⟨fun id slot value => kept.slot_reads awaits, kept.poll_ne_none awaits⟩

end Machine

/-! ### A routine that awaits a result -/

namespace Fetch

inductive Effect
  | get (reply : ReplyHandle)

def Effect.split : Effect → Unit × Option Pending
  | .get reply => ((), some (.bytes reply))

/-- `Result<u64, String>`. -/
def content : AnswerType := .result Reader.u64 Reader.str

inductive State
  | start
  | asked (id : Nat)
  | done

def awaiting (id : Nat) (waker : Waker) : Prog Effect (Option (Poll × State)) :=
  .collect id waker fun
    | some _ => .close id (.ret (some (.ready, .done)))
    | none => .ret (some (.pending, .asked id))

def program : Program State Effect where
  poll
    | .start, waker => .ask content.answer (fun reply => .ret (some (.get reply))) fun
        | some id => awaiting id waker
        | none => .ret none
    | .asked id, waker => awaiting id waker
    | .done, _ => .ret none
  drop
    | .asked id => .close id (.ret (some ()))
    | _ => .ret (some ())
  wake state _ := some state

/-- What is sent before the answer: a text, and a record of bytes with no tag of a `Result`. -/
def refused : List (HostAct MachineCall Effect) :=
  [.call (.typed .resume), .call (.typed (.reply 1 (.str "hi"))),
    .call (.record (.reply [4, 1, 0, 0, 0, 0, 0, 0, 0, 1, 0, 0, 0, 2]))]

theorem lawful_of_asked {log : List (Event Effect)}
    (asked : ∀ event ∈ log, match event with
      | .told _ => False
      | .opened id (.get reply) a => reply = ⟨1, id⟩ ∧ a.wire = .bytes
      | _ => True) : Lawful Effect.split 1 log := by
  constructor
  · intro e told
    exact (asked _ told).elim
  · intro id e a opened
    obtain ⟨reply⟩ := e
    obtain ⟨rfl, wire⟩ := asked _ opened
    rw [wire]
    rfl

/-- The outbox once `get` is asked, with what its slot holds and what was done since. -/
def outbox (value : Option Value) (since : List (Event Effect)) : Outbox Effect where
  effects := []
  building := none
  held := []
  mail := ⟨1, [⟨1, true, value, content.answer.check, none⟩], 1, [], 2⟩
  driverWaker := some 0
  log := since ++ [.drained ⟨[.get ⟨1, 1⟩], []⟩, .collected 1 none,
    .opened 1 (.get ⟨1, 1⟩) content.answer, .minted 1]

def asked : Machine State Effect Unit where
  driver := ⟨some (.asked 1), ⟨outbox none [], ⟨false, none⟩, []⟩, .awaiting, 0⟩
  pending := [(1, .bytes ⟨1, 1⟩)]
  highestShown := 1
  neverShown := []

/-- `Ok(5)`. -/
def five : Value := .bytes [0, 5, 0, 0, 0, 0, 0, 0, 0]

theorem replies_never_panic_refused :
    Transition.run (Machine.act program.routine Effect.split fun _ => some)
      (.fromDriver (.new 1 0 (.ret .start))) refused = some asked ∧
    asked.delivered 1 (.str "hi") ≠ some none ∧
    asked.Moment (outbox (some five) [.delivered 1 five]) ∧ content.Reads five := by
  have ran : Transition.run (Machine.act program.routine Effect.split fun _ => some)
      (.fromDriver (.new 1 0 (.ret .start))) refused = some asked := rfl
  have lawful : Lawful Effect.split 1 asked.driver.outbox.log :=
    lawful_of_asked (by simp [asked, outbox, content, AnswerType.answer, AnswerType.result])
  have moment : asked.Moment (outbox (some five) [.delivered 1 five]) :=
    .replied (show asked.delivered 1 five = some (some (.delivered none, _)) from rfl) (.refl _)
  obtain ⟨safe, moments⟩ := Machine.replies_never_panic program.routine Effect.split
    (fun _ => some) 1 0 (.ret .start) refused asked ran lawful
  refine ⟨ran, (safe 1 (.str "hi")).1, moment, ?_⟩
  refine (moments _ (fun _ => content) moment ?_).1 1 _ five rfl rfl
  intro id a opened
  obtain ⟨_, rfl⟩ : id = 1 ∧ a = content.answer := by simpa [outbox, openings] using opened
  exact ⟨.result _ _, rfl⟩

end Fetch

end SansEffort
