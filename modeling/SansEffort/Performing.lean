import SansEffort.Contexts

/-!
# Routines, performed

A host that performs a machine's effects oldest first, and answers each request as it comes to it.
What it does for a routine is what the routine's context would have done if it had been there
itself: the routine is the same program on a native context, where every wait is over at once.
-/

namespace SansEffort

open Dialogue

/-- What a host does for an effect that it is shown: it performs a tell, and makes the reply to an
ask, whose id it reads off. -/
structure Performer (V W : Type) where
  tell : V → W → W
  ask : V → W → Value × W
  id : V → Nat

/-- A host between two effects: those it has not come to yet, its machine, and its world. -/
structure Performance (M V W : Type) where
  queue : List (Shown V)
  machine : M
  world : W

namespace Performance

variable {M V W : Type}

/-- The host deals with the next effect. What a reply makes the machine show joins the end of the
queue. `none` if a call fails. -/
def turn (host : Performer V W) (reply : M → Nat → Value → Option (List (Shown V) × M))
    (s : Performance M V W) : Option (Performance M V W) :=
  match s.queue with
  | [] => some s
  | ⟨view, false⟩ :: rest => some { s with queue := rest, world := host.tell view s.world }
  | ⟨view, true⟩ :: rest =>
    let (value, world) := host.ask view s.world
    (reply s.machine (host.id view) value).map fun (more, machine) => ⟨rest ++ more, machine, world⟩

/-- The machine is begun, and a number of effects performed. -/
def after (host : Performer V W) (resume : M → Option (List (Shown V) × M))
    (reply : M → Nat → Value → Option (List (Shown V) × M)) (machine : M) (w : W) :
    Nat → Option (Performance M V W)
  | 0 => (resume machine).map fun (queue, machine) => ⟨queue, machine, w⟩
  | k + 1 => (after host resume reply machine w k).bind (turn host reply)

end Performance

section

variable {σ E H V : Type}

/-- What a call shows a host that performs effects: it fails if the call does. -/
def shownOf : Option (Except Error (Yield (Shown V)) × Machine σ E H) →
    Option (List (Shown V) × Machine σ E H)
  | some (.ok yielded, m) => some (yielded.effects, m)
  | _ => none

def Machine.resumed (r : Routine σ E H) (split : E → V × Option Pending) (m : Machine σ E H) :
    Option (List (Shown V) × Machine σ E H) :=
  shownOf (m.resumeShown r split)

def Machine.replied (r : Routine σ E H) (split : E → V × Option Pending) (m : Machine σ E H)
    (id : Nat) (value : Value) : Option (List (Shown V) × Machine σ E H) :=
  shownOf (m.replyShown r split id value)

end

variable {X : Abilities} {E V S H W : Type}

/-- Wherever the routine gets on the context `ctx`, the host does for what it is shown what the
context does itself: its replies are accepted, and are read back as the context's. -/
structure Performer.Serves (host : Performer V W) (voc : Vocabulary X E V)
    (ctx : Listener X.interface W) (step : Loop X.interface S) (start : Point X.interface S W) :
    Prop where
  tells : ∀ message w, host.tell (voc.showTold message) w = ctx.tell message w
  ids : ∀ request id, host.id (voc.showAsked request id) = id
  answers : ∀ n request next, (start.after ctx step n).rest = .ask request next →
    ∀ id, (host.ask (voc.showAsked request id) (start.after ctx step n).world).2 =
        (ctx.ask request (start.after ctx step n).world).2 ∧
      (X.reply request).Carries
        (host.ask (voc.showAsked request id) (start.after ctx step n).world).1
        (ctx.ask request (start.after ctx step n).world).1

/-- The host has the rest of a stretch before it, and the machine stands where the stretch stops. -/
structure Performing (voc : Vocabulary X E V) (driver : Nat) (waker : Waker)
    (s : Performance (Machine (Running X S) E H) V W) (q : Served X.interface S W) : Prop where
  intro ::
  stands : ∃ next, s.queue = shownBy voc next q.messages q.stop ∧
    Stands driver next waker s.machine q.stop
  world : s.world = q.world

section

variable {voc : Vocabulary X E V} {ctx : Listener X.interface W} {step : Loop X.interface S}
  {host : Performer V W} {driver : Nat} {waker : Waker} {turns : Nat}
  {start : Point X.interface S W}

/-- The host performs an effect where a stretch is served: a message is heard, or a request
answered. -/
theorem Performing.turn {s : Performance (Machine (Running X S) E H) V W}
    {q next : Served X.interface S W} (performing : Performing voc driver waker s q)
    (serves : host.Serves voc ctx step start) {n : Nat} (at_ : q.At step (start.after ctx step n))
    (served : q.turn ctx step turns = some next) :
    ∃ s', s.turn host (Machine.replied (Running.program voc step turns).routine voc.split) = some s' ∧
      Performing voc driver waker s' next := by
  obtain ⟨queue, m, u⟩ := s
  obtain ⟨messages, stop, w⟩ := q
  obtain ⟨⟨id, shown, stands⟩, same⟩ := performing
  obtain rfl : u = w := same
  obtain rfl : queue = shownBy voc id messages stop := shown
  cases messages with
  | cons message rest =>
    cases served
    refine ⟨⟨shownBy voc id rest stop, m, host.tell (voc.showTold message) u⟩, ?_, ?_⟩
    · cases stop <;> rfl
    · exact ⟨⟨id, rfl, stands⟩, serves.tells message u⟩
  | nil =>
    cases stop with
    | ends =>
      cases served
      exact ⟨_, rfl, ⟨id, rfl, stands⟩, rfl⟩
    | asks request more =>
      obtain ⟨⟨messages, stop⟩, said, same⟩ := Option.map_eq_some_iff.mp served
      cases same
      obtain ⟨j, reached⟩ := at_.asks (h := ctx)
      have here : start.after ctx step (j + n) = ⟨.ask request more, u⟩ := by
        rw [Point.after_add, reached]
      -- the host's value carries the reply that the context gives here
      obtain ⟨world, carries⟩ := serves.answers (j + n) request more (by rw [here]) id
      rw [here] at world carries
      obtain ⟨after, replied, stands'⟩ : ∃ after, m.replyShown
          (Running.program voc step turns).routine voc.split id
            (host.ask (voc.showAsked request id) u).1 =
          some (.ok ⟨shownBy voc (id + 1) messages stop, []⟩, after) ∧
          Stands driver (id + 1) waker after stop := reply_stands stands carries said
      refine ⟨⟨shownBy voc (id + 1) messages stop, after,
        (host.ask (voc.showAsked request id) u).2⟩, ?_, ⟨⟨id + 1, rfl, stands'⟩, world⟩⟩
      show Option.map _ (Machine.replied _ _ _ (host.id (voc.showAsked request id)) _) = _
      rw [serves.ids, Machine.replied, replied]
      rfl

theorem Performing.begins {s : S} {w : W} {messages : List X.Message} {stop : Stop X.interface S}
    (said : stretch step turns (step s) = some (messages, stop)) :
    ∃ s', Performance.after host
        (Machine.resumed (Running.program voc step turns).routine voc.split)
        (Machine.replied (Running.program voc step turns).routine voc.split)
        (.fromDriver (.new driver waker (.ret (.fresh s)))) w 0 = some s' ∧
      Performing (H := H) voc driver waker s' ⟨messages, stop, w⟩ := by
  obtain ⟨after, resumed, stands⟩ : ∃ after,
      (Machine.fromDriver (.new driver waker (.ret (.fresh s)))).resumeShown
        (Running.program voc step turns).routine voc.split =
          some (.ok ⟨shownBy voc 1 messages stop, []⟩, after) ∧
      Stands (H := H) driver 1 waker after stop := resume_stands said
  refine ⟨⟨shownBy voc 1 messages stop, after, w⟩, ?_, ⟨1, rfl, stands⟩, rfl⟩
  show Option.map _ (Machine.resumed _ _ _) = _
  rw [Machine.resumed, resumed]
  rfl

theorem Performing.machine {s : Performance (Machine (Running X S) E H) V W}
    {q : Served X.interface S W} (performing : Performing voc driver waker s q) :
    q.ended ↔ s.queue = [] ∧ s.machine.status = .complete := by
  obtain ⟨messages, stop, _⟩ := q
  obtain ⟨⟨id, shown, stands⟩, _⟩ := performing
  have came := stands.came
  unfold Served.ended
  rw [shown]
  cases stop with
  | asks request more =>
    simp [shownBy]
  | ends =>
    have complete : s.machine.status = .complete := came.2
    simp [shownBy, complete]

/-- A run of the routine over its machine. -/
def performed (voc : Vocabulary X E V) (host : Performer V W) (step : Loop X.interface S)
    (turns driver : Nat) (waker : Waker) (s : S) (w : W) :
    Nat → Option (Performance (Machine (Running X S) E H) V W) :=
  Performance.after host (Machine.resumed (Running.program voc step turns).routine voc.split)
    (Machine.replied (Running.program voc step turns).routine voc.split)
    (.fromDriver (.new driver waker (.ret (.fresh s)))) w

/-- Where `k` turns of service bring the routine, `k` effects bring the host. -/
theorem performed_served {s : S} {w : W} {messages : List X.Message} {stop : Stop X.interface S}
    (serves : host.Serves voc ctx step ⟨step s, w⟩)
    (said : stretch step turns (step s) = some (messages, stop)) {k : Nat}
    {q : Served X.interface S W}
    (served : Served.after ctx step turns k ⟨messages, stop, w⟩ = some q) :
    ∃ p, performed (H := H) voc host step turns driver waker s w k = some p ∧
      Performing voc driver waker p q := by
  have at_ : Served.At step ⟨messages, stop, w⟩ ⟨step s, w⟩ := ⟨stretch_sound said, rfl⟩
  induction k generalizing q with
  | zero =>
    cases served
    exact Performing.begins said
  | succ k ih =>
    obtain ⟨middle, before, last⟩ := Option.bind_eq_some_iff.mp served
    obtain ⟨p, performed, performing⟩ := ih before
    obtain ⟨n, here⟩ := at_.after (h := ctx) before
    obtain ⟨p', turned, performing'⟩ := performing.turn serves here last
    exact ⟨p', Option.bind_eq_some_iff.mpr ⟨p, performed, turned⟩, performing'⟩

/-- A host that serves a patient routine gets through all the worlds that the routine gets through
natively, and through no others. It is told that the routine is complete where the native run ends,
and only there. -/
theorem driven_is_native {s : S} {w : W} (patient : Patient ctx step turns ⟨step s, w⟩)
    (serves : host.Serves voc ctx step ⟨step s, w⟩) :
    (∀ k, ∃ p n, performed (H := H) voc host step turns driver waker s w k = some p ∧
      p.world = (Point.after ctx step n ⟨step s, w⟩).world) ∧
    (∀ n, ∃ k p, performed (H := H) voc host step turns driver waker s w k = some p ∧
      p.world = (Point.after ctx step n ⟨step s, w⟩).world) ∧
    ∀ w', (∃ fuel, Loop.run ctx step fuel s w = some w') ↔
      ∃ k p, performed (H := H) voc host step turns driver waker s w k = some p ∧
        p.queue = [] ∧ p.machine.status = .complete ∧ p.world = w' := by
  obtain ⟨⟨messages, stop⟩, said⟩ := Option.isSome_iff_exists.mp patient.first
  let q : Served X.interface S W := ⟨messages, stop, w⟩
  have at_ : q.At step ⟨step s, w⟩ := ⟨stretch_sound said, rfl⟩
  refine ⟨fun k => ?_, fun n => ?_, fun w' => ⟨fun ran => ?_, ?_⟩⟩
  · obtain ⟨next, served⟩ := patient.after at_ k
    obtain ⟨p, performed, performing⟩ := performed_served serves said served
    obtain ⟨n, here⟩ := at_.after (h := ctx) served
    exact ⟨p, n, performed, performing.world.trans here.world.symm⟩
  · obtain ⟨k, next, _, served, here⟩ := patient.reaches at_ n
    obtain ⟨p, performed, performing⟩ := performed_served serves said served
    exact ⟨k, p, performed, performing.world.trans here.world.symm⟩
  · obtain ⟨n, gone⟩ := Loop.run_iff.mp ran
    obtain ⟨k, next, _, served, here⟩ := patient.reaches at_ n
    obtain ⟨p, performed, performing⟩ := performed_served serves said served
    rw [gone] at here
    obtain ⟨emptied, complete⟩ := performing.machine.mp (here.ended rfl)
    exact ⟨k, p, performed, emptied, complete, performing.world.trans here.world.symm⟩
  · rintro ⟨k, p, performed, emptied, complete, rfl⟩
    obtain ⟨next, served⟩ := patient.after at_ k
    obtain ⟨p', performed', performing⟩ := performed_served (H := H) serves said served
    cases performed.symm.trans performed'
    obtain ⟨n, here⟩ := at_.after (h := ctx) served
    obtain ⟨m, gone⟩ := here.of_ended (h := ctx) (performing.machine.mpr ⟨emptied, complete⟩)
    rw [performing.world]
    exact Loop.run_iff.mpr ⟨m + n, by rw [Point.after_add, gone]⟩

end

/-- A routine that says something, asks for something, and ends. -/
theorem driven_is_native_once :
    let X : Abilities := ⟨String, Unit, fun _ => .itself .u64⟩
    let voc : Vocabulary X (String ⊕ ReplyHandle) (String ⊕ Nat) :=
      { told := .inl
        asked := fun _ reply => .inr reply
        split := fun
          | .inl message => (.inl message, none)
          | .inr reply => (.inr reply.id, some ((AnswerType.itself .u64).wire.intoPending reply))
        showTold := .inl
        showAsked := fun _ id => .inr id
        split_told := fun _ => rfl
        split_asked := fun _ _ => rfl }
    let step : Loop X.interface Unit := fun _ =>
      .tell "How many?" (.ask () fun _ => .done none)
    let host : Performer (String ⊕ Nat) (List String) :=
      ⟨fun view w => w ++ view.elim ([·]) fun _ => [], fun _ w => (.u64 3, w), Sum.elim (fun _ => 0) id⟩
    ∃ k p, performed (H := Unit) voc host step 1 7 0 () [] k = some p ∧ p.queue = [] ∧
      p.machine.status = .complete ∧ p.world = ["How many?"] := by
  intro X voc step host
  let ctx : Listener X.interface (List String) :=
    ⟨fun message w => w ++ [message], fun _ w => ((3 : UInt64), w)⟩
  have serves : host.Serves voc ctx step ⟨step (), []⟩ :=
    ⟨fun _ _ => rfl, fun _ _ => rfl, fun _ _ _ _ _ => ⟨rfl, _, rfl, rfl, rfl⟩⟩
  exact ((driven_is_native (.of_asking (fun _ => rfl) _) serves).2.2 _).mp ⟨1, rfl⟩

end SansEffort
