import SansEffort.Replies

/-!
# One routine, driven from Python

A routine that spawns nothing, on a machine of its own behind the C ABI. What comes of driving it is
what the routine does where the host's world is its own context.
-/

namespace SansEffort.Python

open Boundary Dialogue

section

variable {C S H R : Type}

/-! ### The machine behind the C ABI -/

/-- A call on the machine registered as `root`. One that panics takes it out. -/
def called {M : Type} (root : Nat) (call : M → Option (Coded × M)) (m : Option M) (handle : Nat) :
    Coded × Option M :=
  match m with
  | none => (.error .badHandle, none)
  | some m =>
    if handle = root then
      match call m with
      | none => (.error .panicked, none)
      | some (result, m) => (result, some m)
    else (.error .badHandle, some m)

/-- A library with one machine, which nothing wakes. -/
def alone {σ E : Type} (r : Routine σ E H) (split : E → View × Option Pending) (root : Nat) :
    Lib (Option (Machine σ E H)) where
  resume m handle := called root (Encoded.resume r split View.encode) m handle
  reply m handle record := called root (Encoded.reply r split View.encode · record) m handle
  wakes m := ([], m)

/-- The library whose one machine runs a routine over `Full`. -/
abbrev lone (C H : Type) {S : Type} (step : Loop everything.interface S) (turns root : Nat) :
    Lib (Option (Machine (Running everything S) (Full C) H)) :=
  alone (Running.program (full C) step turns).routine (full C).split root

/-- The host with a stretch before it, and the machine where it stops. Nothing else is going on. -/
structure Drives (root driver : Nat) (waker : Waker) (bound : Nat)
    (host : Host (Option (Machine (Running everything S) (Full C) H)) R)
    (q : Served everything.interface S World) : Prop where
  intro ::
  machine : ∃ m next, host.lib = some m ∧ Stands driver next waker m q.stop ∧ next ≤ bound ∧
    host.queue = (viewsOf (C := C) next q.messages q.stop).map
      (fun view => (.machine root, root, .effect (.of view))) ∧
    host.machines = [(root, m.status)]
  still : host.rng = none ∧ host.closed = [] ∧ host.timers = []
  world : host.world = q.world

/-! ### A turn -/

theorem Host.after_add {L : Type} {lib : Lib L} {rng : Rng R} {host middle : Host L R} {t : Nat}
    (first : host.after lib rng t = .ok (middle, true)) (u : Nat) :
    host.after lib rng (t + u) = middle.after lib rng u := by
  induction u with
  | zero => exact first
  | succ u ih =>
    show (do
      let (host, going) ← host.after lib rng (t + u)
      if going then host.turn lib rng else return (host, false)) = _
    rw [ih]
    rfl

theorem Host.after_one {L : Type} (lib : Lib L) (rng : Rng R) (host : Host L R) :
    host.after lib rng 1 = host.turn lib rng := by
  rfl

/-- The effects of a call are queued. -/
theorem Host.ran_views {L : Type} {host : Host L R} {handle : Nat} {data : Bytes} {status : Status}
    {l : L} {views : List View} (read : decode data = .ok (views.map .of)) :
    host.ran handle (.ok (data, status), l) = .ok { host with
      lib := l
      machines := assign handle status host.machines
      queue := host.queue ++ views.map fun view => (.machine handle, handle, .effect (.of view)) } := by
  have noted : ∀ (host : Host L R), (views.map .of).foldl (note handle) host = { host with
      queue := host.queue ++ views.map fun view => (.machine handle, handle, .effect (.of view)) } := by
    clear read
    induction views with
    | nil => simp
    | cons view views ih =>
      intro host
      rw [List.map_cons, List.foldl_cons, ih]
      simp [note]
  show (do
    let effects ← decode data
    return effects.foldl (note handle) _) = _
  rw [read]
  exact congrArg Except.ok (noted _)

variable {driver bound : Nat} {waker : Waker} {step : Loop everything.interface S}
  {turns : Nat}

theorem alone_reply (root : Nat) {m : Machine (Running everything S) (Full C) H} {next : Nat}
    {request : Boundary.Request} {more : request.reply.Carrier → Dialogue everything.interface (Option S)}
    (stands : Stands driver next waker m (.asks request more)) {value : Value} {record : Bytes}
    (replies : Replies next value record) {reply : request.reply.Carrier}
    (carries : request.reply.Carries value reply) {messages : List WriteLineEffect}
    {stop : Stop everything.interface S} (said : stretch step turns (more reply) = some (messages, stop))
    {data : Bytes}
    (written : encode View.encode ⟨shownBy (full C) (next + 1) messages stop, []⟩ = some data) :
    ∃ after, (lone C H step turns root).reply (some m) root record =
        (.ok (data, after.status), some after) ∧ Stands driver (next + 1) waker after stop := by
  obtain ⟨input, read, rfl, rfl⟩ := replies
  obtain ⟨after, replied, stands⟩ : ∃ after, m.replyShown
      (Running.program (full C) step turns).routine (full C).split input.id input.value =
        some (.ok ⟨shownBy (full C) (input.id + 1) messages stop, []⟩, after) ∧
      Stands driver (input.id + 1) waker after stop := reply_stands stands carries said
  refine ⟨after, ?_, stands⟩
  have coded : Encoded.reply (Running.program (full C) step turns).routine (full C).split View.encode
      m record = some (.ok (data, after.status), after) := by
    unfold Encoded.reply
    rw [read]
    show (m.replyShown _ _ input.id input.value).bind _ = _
    rw [replied]
    show (encode View.encode _).map _ = _
    rw [written]
    rfl
  simp only [alone, called, if_pos, coded]

/-- Without a seed, and with no request closed, the oldest action is done. -/
theorem Host.turn_taken {L : Type} {lib : Lib L} {rng : Rng R} {host : Host L R} {lane : Lane}
    {handle : Nat} {item : Item} {rest : List (Lane × Nat × Item)} (seedless : host.rng = none)
    (queued : host.queue = (lane, handle, item) :: rest) (open_ : host.closed = []) :
    host.turn lib rng =
      (do return (← Host.perform lib handle { host with queue := rest } item, true)) := by
  unfold Host.turn Host.take
  simp only [queued, seedless, open_]
  simp [Bind.bind, Except.bind, pure, Except.pure]

/-- A request other than a sleep is answered at once. -/
theorem Host.perform_ask {L : Type} {lib : Lib L} {host : Host L R} {handle id : Nat}
    {request : Boundary.Request} (awake : ∀ r, request ≠ .sleep r) (seedless : host.rng = none)
    {record : Bytes} {w : World} (made : host.world.answer (request.view id) = .ok (record, w)) :
    Host.perform lib handle host (.effect (.of (request.view id))) =
      Host.ran handle (lib.reply host.lib handle record) { host with world := w } := by
  obtain ⟨_, rng, _⟩ := host
  cases seedless
  cases request with
  | sleep r => exact absurd rfl (awake r)
  | _ =>
    show Bind.bind (World.answer _ _) _ = _
    rw [made]
    rfl

/-- A sleep is replied to when there is nothing else to do. -/
theorem Host.turn_asleep {L : Type} {lib : Lib L} {rng : Rng R} {host : Host L R}
    (queued : host.queue = []) (open_ : host.closed = []) (quiet : lib.wakes host.lib = ([], host.lib))
    {timer : Timer} (sleeping : host.timers = [timer]) {record : Bytes}
    (made : replyUnit timer.id = .ok record) :
    host.turn lib rng = (do return (← Host.ran timer.handle (lib.reply host.lib timer.handle record)
      { host with timers := [], world.now := timer.due }, true)) := by
  have due : ({ host with lib := host.lib } : Host L R).due = [timer] := by
    simp [Host.due, sleeping, open_]
  have nothing : decode [] = .ok [] := rfl
  unfold Host.turn
  rw [if_pos queued, quiet]
  simp only [nothing, Bind.bind, Except.bind, due, made, ne_eq, not_true_eq_false, if_false]

theorem Drives.turn {root : Nat} {host : Host (Option (Machine (Running everything S) (Full C) H)) R}
    {q next : Served everything.interface S World} {rng : Rng R}
    (drives : Drives root driver waker bound host q) (few : bound + 1 < 2 ^ 64)
    (served : q.turn World.context step turns = some next)
    (fits : ∀ request more, q.messages = [] → q.stop = .asks request more → Fits q.world request)
    (lines : ∀ message ∈ next.messages, (utf8 message.line).length + 5 < 2 ^ 32)
    (short : ∀ request more, next.stop = .asks request more → Short request) :
    ∃ t host', host.after (lone C H step turns root) rng t = .ok (host', true) ∧
      Drives root driver waker (bound + 1) host' next := by
  obtain ⟨lib, _, queue, machines, _, _, order, world⟩ := host
  obtain ⟨messages, stop, w⟩ := q
  obtain ⟨⟨m, id, held, stands, little, waiting, known⟩, ⟨unseeded, open_, idle⟩, same⟩ := drives
  obtain rfl : lib = some m := held
  obtain rfl : queue = _ := waiting
  obtain rfl : machines = _ := known
  obtain rfl : _ = none := unseeded
  obtain rfl : _ = [] := open_
  obtain rfl : _ = [] := idle
  obtain rfl : world = w := same
  cases messages with
  | cons message rest =>
    cases served
    refine ⟨1, ⟨some m, none, _, _, [], [], order,
      { world with written := world.written ++ [message.line] }⟩, ?_,
      ⟨⟨m, id, rfl, stands, by omega, rfl, rfl⟩, ⟨rfl, rfl, rfl⟩, rfl⟩⟩
    cases stop <;> rfl
  | nil =>
    cases stop with
    | ends =>
      cases served
      exact ⟨0, _, rfl, ⟨⟨m, id, rfl, stands, by omega, rfl, rfl⟩, ⟨rfl, rfl, rfl⟩, rfl⟩⟩
    | asks request more =>
      obtain ⟨⟨messages, stop⟩, said, same⟩ := Option.map_eq_some_iff.mp served
      cases same
      have small : id < 2 ^ 64 := by omega
      obtain ⟨data, written, read⟩ : ∃ data,
          encode View.encode ⟨shownBy (full C) (id + 1) messages stop, []⟩ = some data ∧
          decode data = .ok ((viewsOf (C := C) (id + 1) messages stop).map .of) :=
        stretch_output (by omega) lines short
      by_cases sleeps : ∃ r, request = .sleep r
      · obtain ⟨r, rfl⟩ := sleeps
        obtain ⟨record, value, made, replies, carries⟩ := answers_sleep world r small
        obtain ⟨after, replied, stands⟩ := alone_reply root stands replies carries said written
        -- a turn to set the timer, and one to find nothing else to do
        let timer : Timer := ⟨world.now + r.millis.toNat, order, root, id⟩
        let asleep : Host (Option (Machine (Running everything S) (Full C) H)) R :=
          ⟨some m, none, [], [(root, m.status)], [], [timer], order + 1, world⟩
        let resting : Host (Option (Machine (Running everything S) (Full C) H)) R :=
          ⟨some after, none, (viewsOf (C := C) (id + 1) messages stop).map
            (fun view => (.machine root, root, .effect (.of view))), [(root, after.status)], [], [],
            order + 1, (World.context.ask (.sleep r) world).2⟩
        refine ⟨1 + 1, resting, ?_, ⟨⟨after, id + 1, rfl, stands, by omega, rfl, rfl⟩,
          ⟨rfl, rfl, rfl⟩, rfl⟩⟩
        have set : Host.after (lone C H step turns root) rng 1 ⟨some m, none,
            (viewsOf (C := C) id [] (.asks (.sleep r) more)).map
              (fun view => (.machine root, root, .effect (.of view))),
            [(root, m.status)], [], [], order, world⟩ = .ok (asleep, true) := by
          rw [Host.after_one]
          refine (Host.turn_taken rfl rfl rfl).trans ?_
          rfl
        refine (Host.after_add set 1).trans ?_
        rw [Host.after_one, Host.turn_asleep rfl rfl rfl rfl made, replied, Host.ran_views read]
        simp [assign, resting, asleep, timer, World.context, Bind.bind, Except.bind, pure, Except.pure]
      · obtain ⟨record, value, made, replies, carries⟩ := answers small
          (fits request more rfl rfl) (not_exists.mp sleeps)
        obtain ⟨after, replied, stands⟩ := alone_reply root stands replies carries said written
        let rest : Host (Option (Machine (Running everything S) (Full C) H)) R :=
          ⟨some m, none, [], [(root, m.status)], [], [], order, world⟩
        let resting : Host (Option (Machine (Running everything S) (Full C) H)) R :=
          ⟨some after, none, (viewsOf (C := C) (id + 1) messages stop).map
            (fun view => (.machine root, root, .effect (.of view))), [(root, after.status)], [], [],
            order, (World.context.ask request world).2⟩
        refine ⟨1, resting, ?_, ⟨⟨after, id + 1, rfl, stands, by omega, rfl, rfl⟩, ⟨rfl, rfl, rfl⟩,
          rfl⟩⟩
        have performed : Host.perform (lone C H step turns root) root rest
            (.effect (.of (request.view id))) = .ok resting := by
          rw [Host.perform_ask (not_exists.mp sleeps) rfl made, replied, Host.ran_views read]
          simp [assign, resting, rest]
        rw [Host.after_one]
        refine (Host.turn_taken rfl rfl rfl).trans ?_
        show (do return (← Host.perform (lone C H step turns root) root rest _, true)) = _
        exact congrArg (· >>= fun after => pure (after, true)) performed

/-! ### A run -/

/-- What crosses at every point of the native run crosses in each stretch of it. -/
theorem crosses_served {start : Point everything.interface S World} {n : Nat}
    (crosses : ∀ n, Crosses (start.after World.context step n))
    {q : Served everything.interface S World} (at_ : q.At step (start.after World.context step n)) :
    (∀ message ∈ q.messages, (utf8 message.line).length + 5 < 2 ^ 32) ∧
    (∀ request more, q.stop = .asks request more → Short request) ∧
    ∀ request more, q.messages = [] → q.stop = .asks request more → Fits q.world request := by
  obtain ⟨messages, stop, w⟩ := q
  refine ⟨fun message member => ?_, ?_, ?_⟩
  · obtain ⟨k, next, w', reached⟩ := at_.stretch.tells (h := World.context)
      (start.after World.context step n).world member
    have here := crosses (k + n)
    rw [Point.after_add, reached] at here
    exact here
  · rintro request more rfl
    obtain ⟨k, w', reached⟩ := at_.stretch.comes (h := World.context)
      (start.after World.context step n).world
    have here := crosses (k + n)
    rw [Point.after_add, reached] at here
    exact here.1
  · rintro request more rfl rfl
    obtain ⟨k, reached⟩ := at_.asks (h := World.context)
    have here := crosses (k + n)
    rw [Point.after_add, reached] at here
    exact here.2

/-- The machine that the routine is given to the library on. -/
abbrev newborn (C H : Type) {S : Type} (driver : Nat) (waker : Waker) (s : S) :
    Option (Machine (Running everything S) (Full C) H) :=
  some (.fromDriver (.new driver waker (.ret (.fresh s))))

/-- Where `k` turns of service bring the routine, the host brings its machine. -/
theorem drives_served (root driver : Nat) (waker : Waker) (rng : Rng R) {s : S} {w : World}
    (crosses : ∀ n, Crosses (Point.after World.context step n ⟨step s, w⟩))
    {messages : List WriteLineEffect} {stop : Stop everything.interface S}
    (said : stretch step turns (step s) = some (messages, stop)) {k : Nat} (few : k + 1 < 2 ^ 64)
    {q : Served everything.interface S World}
    (served : Served.after World.context step turns k ⟨messages, stop, w⟩ = some q) :
    ∃ host t middle, Host.begin (lone C H step turns root) root w none
        (newborn C H driver waker s) = .ok host ∧
      host.after (lone C H step turns root) rng t = .ok (middle, true) ∧
      Drives root driver waker (k + 1) middle q := by
  let start : Point everything.interface S World := ⟨step s, w⟩
  have at_ : Served.At step ⟨messages, stop, w⟩ start := ⟨stretch_sound said, rfl⟩
  induction k generalizing q with
  | zero =>
    cases served
    obtain ⟨lines, short, _⟩ := crosses_served (n := 0) crosses at_
    obtain ⟨data, written, read⟩ : ∃ data,
        encode View.encode ⟨shownBy (full C) 1 messages stop, []⟩ = some data ∧
        decode data = .ok ((viewsOf (C := C) 1 messages stop).map .of) :=
      stretch_output (by omega) lines short
    obtain ⟨after, shown, stands⟩ : ∃ after,
        (Machine.fromDriver (.new driver waker (.ret (.fresh s)))).resumeShown
          (Running.program (full C) step turns).routine (full C).split =
            some (.ok ⟨shownBy (full C) 1 messages stop, []⟩, after) ∧
        Stands (H := H) driver 1 waker after stop := resume_stands said
    have resumed : (lone C H step turns root).resume (newborn C H driver waker s) root =
        (.ok (data, after.status), some after) := by
      have coded : Encoded.resume (Running.program (full C) step turns).routine (full C).split
          View.encode (.fromDriver (.new driver waker (.ret (.fresh s)))) =
            some (.ok (data, after.status), after) := by
        unfold Encoded.resume
        rw [shown]
        show (encode View.encode _).map _ = _
        rw [written]
        rfl
      simp only [alone, called, if_pos, coded]
    let begun : Host (Option (Machine (Running everything S) (Full C) H)) R :=
      ⟨some after, none, (viewsOf (C := C) 1 messages stop).map
        (fun view => (.machine root, root, .effect (.of view))), [(root, after.status)], [], [], 0, w⟩
    refine ⟨begun, 0, begun, ?_, rfl, ⟨⟨after, 1, rfl, stands, Nat.le_refl 1, rfl, rfl⟩,
      ⟨rfl, rfl, rfl⟩, rfl⟩⟩
    unfold Host.begin
    rw [resumed, Host.ran_views read]
    rfl
  | succ k ih =>
    obtain ⟨middle, before, last⟩ := Option.bind_eq_some_iff.mp served
    obtain ⟨host, t, there, begun, gone, drives⟩ := ih (by omega) before
    obtain ⟨n, here⟩ := at_.after (h := World.context) before
    obtain ⟨m, next⟩ := here.turn last
    rw [← Point.after_add] at next
    obtain ⟨_, _, fits⟩ := crosses_served crosses here
    obtain ⟨lines, short, _⟩ := crosses_served crosses next
    obtain ⟨u, host', turned, drives⟩ := drives.turn few last fits lines short
    exact ⟨host, t + u, host', begun, (Host.after_add gone u).trans turned, drives⟩

theorem Host.after_going {L : Type} {lib : Lib L} {rng : Rng R} {host middle : Host L R} {t u : Nat}
    (gone : host.after lib rng (t + u) = .ok (middle, true)) :
    ∃ before, host.after lib rng t = .ok (before, true) := by
  induction u generalizing middle with
  | zero => exact ⟨middle, gone⟩
  | succ u ih =>
    have last : (do
        let (host, going) ← host.after lib rng (t + u)
        if going then host.turn lib rng else return (host, false)) = .ok (middle, true) := gone
    cases ran : host.after lib rng (t + u) with
    | error raised =>
      rw [ran] at last
      cases last
    | ok reached =>
      obtain ⟨before, going⟩ := reached
      cases going with
      | true => exact ih ran
      | false =>
        rw [ran] at last
        cases last

/-- A host whose loop has ended stays as it is. -/
theorem Host.after_ended {L : Type} {lib : Lib L} {rng : Rng R} {host last : Host L R} {t : Nat}
    (ended : host.after lib rng t = .ok (last, false)) (u : Nat) :
    host.after lib rng (t + u) = .ok (last, false) := by
  induction u with
  | zero => exact ended
  | succ u ih =>
    show (do
      let (host, going) ← host.after lib rng (t + u)
      if going then host.turn lib rng else return (host, false)) = _
    rw [ih]
    rfl

theorem Drives.ends {root : Nat} {host : Host (Option (Machine (Running everything S) (Full C) H)) R}
    {q : Served everything.interface S World} (rng : Rng R)
    (drives : Drives root driver waker bound host q) (ended : q.ended) :
    ∃ last, host.turn (lone C H step turns root) rng = .ok (last, false) ∧
      last.verdict = .ok q.world.written := by
  obtain ⟨lib, _, queue, machines, _, _, order, world⟩ := host
  obtain ⟨messages, stop, w⟩ := q
  obtain ⟨⟨m, id, held, stands, little, waiting, known⟩, ⟨unseeded, open_, idle⟩, same⟩ := drives
  obtain ⟨rfl, rfl⟩ : messages = [] ∧ stop = .ends := ended
  obtain rfl : lib = some m := held
  obtain rfl : queue = _ := waiting
  obtain rfl : machines = _ := known
  obtain rfl : _ = none := unseeded
  obtain rfl : _ = [] := open_
  obtain rfl : _ = [] := idle
  obtain rfl : world = w := same
  have complete : m.status = .complete := stands.came.2
  refine ⟨_, rfl, ?_⟩
  simp [Host.verdict, Host.live, complete]
  rfl

/-- Where the routine ends the loop ends, and the host has written what the routine wrote. -/
theorem drive_ends (root driver : Nat) (waker : Waker) (rng : Rng R) {s : S}
    {script : List String} (patient : Patient World.context step turns ⟨step s, .new script⟩)
    (crosses : ∀ n, Crosses (Point.after World.context step n ⟨step s, .new script⟩))
    {n : Nat} {w : World}
    (ends : Point.after World.context step n ⟨step s, .new script⟩ = ⟨.done none, w⟩)
    (few : n + 1 < 2 ^ 64) :
    ∃ t, ∀ rounds, drive (lone C H step turns root) rng root script none
        (newborn C H driver waker s) rounds =
      if rounds < t then none else some (.ok w.written) := by
  obtain ⟨⟨messages, stop⟩, said⟩ := Option.isSome_iff_exists.mp patient.first
  let q : Served everything.interface S World := ⟨messages, stop, .new script⟩
  have at_ : q.At step ⟨step s, .new script⟩ := ⟨stretch_sound said, rfl⟩
  obtain ⟨k, last, within, served, here⟩ := patient.reaches at_ n
  obtain ⟨host, t, middle, begun, gone, drives⟩ := drives_served (C := C) (H := H) root driver waker rng
    crosses said (by omega : k + 1 < 2 ^ 64) served
  have world : last.world = w := by
    have same := here.world
    rw [ends] at same
    exact same.symm
  have ended : last.ended := here.ended (by rw [ends])
  obtain ⟨final, last, verdict⟩ := drives.ends rng ended
  have stops : host.after (lone C H step turns root) rng (t + 1) = .ok (final, false) := by
    rw [Host.after_add gone, Host.after_one, last]
  refine ⟨t + 1, fun rounds => ?_⟩
  unfold drive
  rw [begun]
  by_cases before : rounds < t + 1
  · obtain ⟨more, rfl⟩ := Nat.exists_eq_add_of_le (Nat.lt_succ_iff.mp before)
    obtain ⟨reached, going⟩ := Host.after_going gone
    rw [if_pos before]
    simp [Bind.bind, Except.bind, going]
  · obtain ⟨more, rfl⟩ := Nat.exists_eq_add_of_le (Nat.not_lt.mp before)
    rw [if_neg before]
    simp [Bind.bind, Except.bind, Host.after_ended stops more, verdict, world]

/-- Let a routine be patient, with the host's world as its context, and say only what can cross. The
host that drives its machine through the C ABI reaches every world that the routine reaches while
request ids last. Where the routine ends the host's loop ends, and the host has written what the
routine wrote. -/
theorem driven_from_python (root driver : Nat) (waker : Waker) (rng : Rng R) {s : S}
    {script : List String} (patient : Patient World.context step turns ⟨step s, .new script⟩)
    (crosses : ∀ n, Crosses (Point.after World.context step n ⟨step s, .new script⟩))
    {n : Nat} (few : n + 1 < 2 ^ 64) :
    (∃ host rounds reached,
      Host.begin (lone C H step turns root) root (.new script) none (newborn C H driver waker s) =
        .ok host ∧
      host.after (lone C H step turns root) rng rounds = .ok (reached, true) ∧
      reached.world = (Point.after World.context step n ⟨step s, .new script⟩).world) ∧
    ∀ w, Point.after World.context step n ⟨step s, .new script⟩ = ⟨.done none, w⟩ →
      ∃ t, ∀ rounds, drive (lone C H step turns root) rng root script none
          (newborn C H driver waker s) rounds =
        if rounds < t then none else some (.ok w.written) := by
  refine ⟨?_, fun w ends => drive_ends root driver waker rng patient crosses ends few⟩
  obtain ⟨⟨messages, stop⟩, said⟩ := Option.isSome_iff_exists.mp patient.first
  let q : Served everything.interface S World := ⟨messages, stop, .new script⟩
  have at_ : q.At step ⟨step s, .new script⟩ := ⟨stretch_sound said, rfl⟩
  obtain ⟨k, last, within, served, here⟩ := patient.reaches at_ n
  obtain ⟨host, rounds, reached, begun, gone, drives⟩ := drives_served (C := C) (H := H) root driver
    waker rng crosses said (by omega : k + 1 < 2 ^ 64) served
  exact ⟨host, rounds, reached, begun, gone, drives.world.trans here.world.symm⟩

end

/-- A routine that reads a line, repeats it, and ends. -/
theorem driven_from_python_echo :
    let step : Loop everything.interface Unit := fun _ =>
      .ask (.readLine ⟨⟩) fun line => .tell ⟨(line : Except ReadLineError String).toOption.getD "?"⟩
        (.done none)
    let rng : Rng Unit := ⟨fun r => (false, r), fun _ r => (0, r), fun _ _ nonempty => nonempty⟩
    ∃ t, ∀ rounds, drive (lone Empty Unit step 1 5) rng 5 ["héllo", "more"] none
        (newborn Empty Unit 1 0 ()) rounds =
      if rounds < t then none else some (.ok ["héllo"]) := by
  intro step rng
  have patient : Patient World.context step 1 ⟨step (), .new ["héllo", "more"]⟩ :=
    .of_asking (fun _ => rfl) _
  have holds : ∀ (s : Unit) (w : World), w = .new ["héllo", "more"] →
      Throughout World.context Crosses (step s) w := by
    rintro s w rfl
    refine ⟨⟨trivial, ?_⟩, ?_, trivial⟩
    · intro line same
      cases same
      decide
    · show (utf8 "héllo").length + 5 < 2 ^ 32
      decide
  have crosses : ∀ n, Crosses (Point.after World.context step n ⟨step (), .new ["héllo", "more"]⟩) :=
    Loop.always (s := ()) holds (by rintro s w s' w' rfl turn; cases congrArg Prod.fst turn) rfl
  have ends : Point.after World.context step 2 ⟨step (), .new ["héllo", "more"]⟩ =
      ⟨.done none, { World.new ["more"] with written := ["héllo"] }⟩ := rfl
  exact (driven_from_python 5 1 0 rng patient crosses (by decide : 2 + 1 < 2 ^ 64)).2 _ ends

end SansEffort.Python
