import SansEffort.Testing.Stalls

/-!
# The virtual clock

Every timer that a handler sets fires, once, unless its machine is killed first: in the order they
fall due, and as they were set where they fall due together. The clock is at the last that fired. A
timer fires only when nothing is ready, and nobody is waiting to be resumed; but the schedule is
asked after the look at those woken, and whom it wakes then, or the completed machine that it kills,
comes after the timer.
-/

namespace SansEffort.Testing

variable {G E D : Type}

/-! ### What the log says of timers -/

/-- A timer as it was set: `who` is the machine whose effect the handler had. -/
structure Setting where
  serial : Nat
  who : Option Nat
  due : Duration

/-- Whose effect the handler has, or had last, and the timers set, in order. -/
def noted (log : List (Event E)) : Option Nat × List Setting :=
  log.foldl (fun (last, set) event =>
    match event with
    | .handed who _ => (some who, set)
    | .set serial due => (last, set ++ [⟨serial, last, due⟩])
    | _ => (last, set)) (none, [])

def settings (log : List (Event E)) : List Setting := (noted log).2

/-- The serials of the timers that fired, in order. -/
def firings (log : List (Event E)) : List Nat :=
  log.filterMap fun
    | .fired serial => some serial
    | _ => none

theorem noted_append (log : List (Event E)) (event : Event E) :
    noted (log ++ [event]) = match event with
      | .handed who _ => (some who, settings log)
      | .set serial due => ((noted log).1, settings log ++ [⟨serial, (noted log).1, due⟩])
      | _ => noted log := by
  unfold settings noted
  rw [List.foldl_append]
  cases event <;> rfl

@[simp] theorem settings_append (log : List (Event E)) (event : Event E) :
    settings (log ++ [event]) = match event with
      | .set serial due => settings log ++ [⟨serial, (noted log).1, due⟩]
      | _ => settings log := by
  unfold settings
  rw [noted_append]
  cases event <;> rfl

@[simp] theorem firings_append (log more : List (Event E)) :
    firings (log ++ more) = firings log ++ firings more := List.filterMap_append ..

@[simp] theorem firings_fired (serial : Nat) : firings [(.fired serial : Event E)] = [serial] := rfl

namespace World

/-! ### What leaves the clock alone -/

/-- What is told of timers and the clock, but for those that are set. -/
def clockwork (w : World E D) : Duration × Nat × List Setting × List Nat :=
  (w.now, w.serials, settings w.log, firings w.log)

theorem clockwork_wakeUp (w : World E D) (who : Nat) : (w.wakeUp who).clockwork = w.clockwork := by
  unfold wakeUp
  split
  · rfl
  · simp [clockwork, firings]

theorem clockwork_foldl_wakeUp (w : World E D) (woke : List Nat) :
    (woke.foldl wakeUp w).clockwork = w.clockwork := by
  induction woke generalizing w with
  | nil => rfl
  | cons who rest ih => exact (ih (w.wakeUp who)).trans (clockwork_wakeUp w who)

theorem clockwork_clear (w : World E D) (who : Nat) : (w.clear who).clockwork = w.clockwork := by
  simp [clockwork, clear, firings]

theorem clockwork_ran (w : World E D) (who : Nat) (woke : List Nat) (poll : Poll) (yielded : Yield E)
    (outstanding : Nat) : (w.ran who woke poll yielded outstanding).clockwork = w.clockwork := by
  have before := (clockwork_foldl_wakeUp (w.clear who) woke).trans (clockwork_clear w who)
  rw [← before]
  simp [clockwork, ran, setMachine, pushEffects, firings]

theorem clockwork_adopt (w : World E D) (m : Machine) (wakeup : Wakeup Nat) :
    (w.adopt m wakeup).clockwork = w.clockwork := by
  unfold adopt clockwork
  dsimp only
  split
  · simp [firings]
  · rfl

theorem clockwork_takeWoken (w : World E D) : w.takeWoken.clockwork = w.clockwork := by
  obtain ⟨added, taken, _⟩ := takeWoken_spec w
  rw [taken]
  rfl

theorem timers_ran (w : World E D) (who : Nat) (woke : List Nat) (poll : Poll) (yielded : Yield E)
    (outstanding : Nat) : (w.ran who woke poll yielded outstanding).timers = w.timers :=
  (foldl_wakeUp_same (w.clear who) woke).2.2

end World

/-! ### The order of timers -/

/-- When a timer falls due. -/
def DueAt (log : List (Event E)) (serial : Nat) (due : Duration) : Prop :=
  ∃ who, ⟨serial, who, due⟩ ∈ settings log

/-- The first timer falls due before the second, or with it and was set before it. -/
def Earlier (log : List (Event E)) (first second : Nat) : Prop :=
  ∃ due due', DueAt log first due ∧ DueAt log second due' ∧
    (due < due' ∨ due = due' ∧ first < second)

/-- The clock is at the timer that fired last. -/
def ClockAt (log : List (Event E)) (now : Duration) : Prop :=
  match (firings log).getLast? with
  | none => now = 0
  | some serial => DueAt log serial now

section

variable {log log' : List (Event E)} {more : List Setting}
  (grown : settings log' = settings log ++ more)

include grown

theorem DueAt.later {serial : Nat} {due : Duration} (dueAt : DueAt log serial due) :
    DueAt log' serial due := by
  obtain ⟨who, member⟩ := dueAt
  refine ⟨who, ?_⟩
  rw [grown]
  exact List.mem_append_left _ member

theorem Earlier.later {first second : Nat} (earlier : Earlier log first second) :
    Earlier log' first second := by
  obtain ⟨due, due', one, two, order⟩ := earlier
  exact ⟨due, due', one.later grown, two.later grown, order⟩

theorem ClockAt.later (fired : firings log' = firings log) {now : Duration} (clock : ClockAt log now) :
    ClockAt log' now := by
  unfold ClockAt at clock ⊢
  rw [fired]
  cases last : (firings log).getLast? with
  | none =>
    rw [last] at clock
    exact clock
  | some serial =>
    rw [last] at clock
    exact clock.later grown

end

namespace World

structure Clock (w : World E D) : Prop where
  numbered : (settings w.log).map Setting.serial = List.range w.serials
  known : ∀ timer ∈ w.timers, DueAt w.log timer.serial timer.due
  sorted : w.timers.Pairwise (·.serial < ·.serial)
  ahead : ∀ timer ∈ w.timers, w.now ≤ timer.due
  most : w.now ≤ Duration.MAX ∧ ∀ timer ∈ w.timers, timer.due ≤ Duration.MAX
  ordered : (firings w.log).Pairwise (Earlier w.log)
  passed : ∀ serial ∈ firings w.log, ∃ due, DueAt w.log serial due ∧ due ≤ w.now ∧
    ∀ timer ∈ w.timers, due < timer.due ∨ due = timer.due ∧ serial < timer.serial
  clock : ClockAt w.log w.now

variable {w w' : World E D}

theorem Clock.serial_lt (clock : w.Clock) {serial : Nat} {due : Duration}
    (set : DueAt w.log serial due) : serial < w.serials := by
  obtain ⟨who, member⟩ := set
  rw [← List.mem_range, ← clock.numbered]
  exact List.mem_map_of_mem member

/-- Timers may go, but nothing else changes. -/
theorem Clock.kept (clock : w.Clock) (same : w'.clockwork = w.clockwork)
    (fewer : w'.timers.Sublist w.timers) : w'.Clock := by
  simp only [clockwork, Prod.mk.injEq] at same
  obtain ⟨now, serials, set, fired⟩ := same
  have still := fewer.subset
  constructor
  -- what was set, and when, is read off the log
  case numbered =>
    rw [set, serials]
    exact clock.numbered
  case known =>
    intro timer member
    unfold DueAt
    rw [set]
    exact clock.known timer (still member)
  case sorted => exact clock.sorted.sublist fewer
  -- the clock stands still, and there is no timer that was not there
  case ahead =>
    intro timer member
    rw [now]
    exact clock.ahead timer (still member)
  case most =>
    rw [now]
    exact ⟨clock.most.1, fun timer member => clock.most.2 timer (still member)⟩
  -- the order of those that fired is their due times', which stand
  case ordered =>
    unfold Earlier DueAt
    rw [set, fired]
    exact clock.ordered
  case passed =>
    unfold DueAt
    rw [set, fired, now]
    intro serial member
    obtain ⟨due, dueAt, past, order⟩ := clock.passed serial member
    exact ⟨due, dueAt, past, fun timer member => order timer (still member)⟩
  case clock =>
    unfold ClockAt DueAt
    rw [set, fired, now]
    exact clock.clock

/-- A timer is set: it falls due no earlier than now, and comes after all that were set. -/
theorem Clock.replyAfter (clock : w.Clock) (who : Nat) (delay : Duration) (deliver : D) :
    (w.act who (.replyAfter delay deliver)).Clock := by
  let due := w.now.saturatingAdd delay
  have grown : settings (w.log ++ [.set w.serials due]) =
      settings w.log ++ [⟨w.serials, (noted w.log).1, due⟩] := settings_append _ _
  have fired : firings (w.log ++ [.set w.serials due]) = firings w.log := by simp [firings]
  have late : w.now ≤ due := Nat.le_min.mpr ⟨Nat.le_add_right _ _, clock.most.1⟩
  have each : ∀ {holds : Timer D → Prop}, (∀ timer ∈ w.timers, holds timer) →
      holds ⟨due, who, deliver, w.serials⟩ →
      ∀ timer ∈ w.timers ++ [⟨due, who, deliver, w.serials⟩], holds timer := by
    intro holds before new timer member
    rcases List.mem_append.mp member with old | last
    · exact before timer old
    · rw [List.mem_singleton.mp last]
      exact new
  refine ⟨?_, each ?_ ?_, ?_, each clock.ahead late, ⟨clock.most.1, each clock.most.2 ?_⟩, ?_, ?_, ?_⟩
  · show (settings (w.log ++ [_])).map Setting.serial = List.range (w.serials + 1)
    rw [grown, List.map_append, clock.numbered, List.range_succ]
    rfl
  · exact fun timer member => (clock.known timer member).later grown
  · refine ⟨(noted w.log).1, ?_⟩
    show _ ∈ settings (w.log ++ [_])
    rw [grown]
    exact List.mem_append_right _ (List.mem_singleton_self _)
  · refine List.pairwise_append.mpr ⟨clock.sorted, List.pairwise_singleton _ _, ?_⟩
    intro timer member new last
    rw [List.mem_singleton.mp last]
    exact clock.serial_lt (clock.known timer member)
  · exact Nat.min_le_right _ _
  · show (firings (w.log ++ [_])).Pairwise _
    rw [fired]
    exact clock.ordered.imp (Earlier.later grown)
  · show ∀ serial ∈ firings (w.log ++ [_]), _
    rw [fired]
    intro serial member
    obtain ⟨d, dueAt, past, order⟩ := clock.passed serial member
    refine ⟨d, dueAt.later grown, past, each order ?_⟩
    -- among equals the one that fired was set before
    have low := clock.serial_lt dueAt
    rcases Nat.lt_or_eq_of_le (past.trans late) with before | equal
    · exact .inl before
    · exact .inr ⟨equal, low⟩
  · exact clock.clock.later grown fired

/-- The timer that fires falls due before the others, or with them and was set before them. -/
theorem fireNextTimer_first (sorted : w.timers.Pairwise (·.serial < ·.serial))
    (fired : w.fireNextTimer = some w') :
    ∃ next timer, w.timers[next]? = some timer ∧ w' = { w with
        timers := w.timers.eraseIdx next
        now := max w.now timer.due
        ready := w.ready ++ [.reply timer.who timer.deliver]
        log := w.log ++ [.fired timer.serial] } ∧
      ∀ other ∈ w.timers.eraseIdx next,
        timer.due < other.due ∨ timer.due = other.due ∧ timer.serial < other.serial := by
  unfold fireNextTimer at fired
  split at fired
  · cases fired
  · next next found =>
    obtain ⟨low, least, first⟩ := List.findIdx?_eq_some_iff_getElem.mp found
    rw [List.getElem?_eq_getElem low] at fired
    refine ⟨next, w.timers[next], List.getElem?_eq_getElem low, (Option.some.inj fired).symm, ?_⟩
    intro other member
    obtain ⟨i, away, there⟩ := List.mem_eraseIdx_iff_getElem?.mp member
    obtain ⟨low', rfl⟩ := List.getElem?_eq_some_iff.mp there
    have all : ∀ timer ∈ w.timers, w.timers[next].due ≤ timer.due := by simpa using least
    rcases Nat.lt_or_eq_of_le (all _ (List.getElem_mem low')) with before | equal
    · exact .inl before
    · refine .inr ⟨equal, ?_⟩
      -- one before it that falls due with it would have been found first
      rcases Nat.lt_or_gt_of_ne away with earlier | later
      · have not := first i earlier
        rw [← equal] at not
        exact absurd least (by simpa using not)
      · exact List.pairwise_iff_getElem.mp sorted next i low low' later

theorem Clock.fired (clock : w.Clock) (fired : w.fireNextTimer = some w') : w'.Clock := by
  obtain ⟨next, timer, there, rfl, first⟩ := fireNextTimer_first clock.sorted fired
  -- the clock moves to the timer's time, which is not behind it
  have member := List.mem_of_getElem? there
  have at_due : max w.now timer.due = timer.due := Nat.max_eq_right (clock.ahead timer member)
  have set : settings (w.log ++ [.fired timer.serial]) = settings w.log ++ [] := by simp
  have fired : firings (w.log ++ [.fired timer.serial]) = firings w.log ++ [timer.serial] := by simp
  have fewer : (w.timers.eraseIdx next).Sublist w.timers := List.eraseIdx_sublist ..
  have dueAt : DueAt (w.log ++ [.fired timer.serial]) timer.serial timer.due :=
    (clock.known timer member).later set
  rw [at_due]
  refine ⟨?_, ?_, clock.sorted.sublist fewer, ?_, ⟨clock.most.2 timer member, ?_⟩, ?_, ?_, ?_⟩
  -- firing sets no timer
  · show (settings (w.log ++ [_])).map Setting.serial = _
    rw [set, List.append_nil]
    exact clock.numbered
  · exact fun other member => (clock.known other (fewer.subset member)).later set
  -- what remains is due no earlier than what fires, the first of them
  · intro other member
    rcases first other member with before | ⟨equal, _⟩
    · exact Nat.le_of_lt before
    · exact Nat.le_of_eq equal
  · exact fun other member => clock.most.2 other (fewer.subset member)
  · show (firings (w.log ++ [_])).Pairwise _
    rw [fired]
    refine List.pairwise_append.mpr
      ⟨clock.ordered.imp (Earlier.later set), List.pairwise_singleton _ _, ?_⟩
    -- those that fired before it were due before any timer still set, this one included
    intro serial old last new
    rw [List.mem_singleton.mp new]
    obtain ⟨due, dueAt', _, order⟩ := clock.passed serial old
    exact ⟨due, timer.due, dueAt'.later set, dueAt, order timer member⟩
  · show ∀ serial ∈ firings (w.log ++ [_]), _
    rw [fired]
    -- and those still set are due after it
    intro serial member'
    rcases List.mem_append.mp member' with old | new
    · obtain ⟨due, dueAt', past, order⟩ := clock.passed serial old
      refine ⟨due, dueAt'.later set, past.trans (clock.ahead timer member), fun other still => ?_⟩
      exact order other (fewer.subset still)
    · rw [List.mem_singleton.mp new]
      exact ⟨timer.due, dueAt, Nat.le_refl _, first⟩
  -- the clock is at the last that fired
  · show ClockAt (w.log ++ [_]) timer.due
    unfold ClockAt
    rw [fired, List.getLast?_concat]
    exact dueAt

theorem Clock.move (clock : w.Clock) (move : w.Move w') : w'.Clock := by
  have all : w.timers.Sublist w.timers := List.Sublist.refl _
  -- `timers` only grows at `replyAfter`, and time only moves when one fires
  cases move with
  | woke who => exact clock.kept (clockwork_wakeUp w who) (by rw [(wakeUp_same w who).2.2])
  | drained =>
    refine clock.kept (clockwork_takeWoken w) ?_
    obtain ⟨added, taken, _⟩ := takeWoken_spec w
    rw [taken]
  | freed who m _ => exact clock.kept rfl List.filter_sublist
  | polled w₀ who m woke woke' poll step outstanding there runs either =>
    have before : w₀.clockwork = w.clockwork ∧ w₀.timers = w.timers := by
      rcases either with rfl | rfl
      · exact ⟨rfl, rfl⟩
      · exact ⟨clockwork_foldl_wakeUp _ _, (foldl_wakeUp_same _ _).2.2⟩
    refine clock.kept ((clockwork_ran ..).trans before.1) ?_
    rw [timers_ran, before.2]
  | unheard who m woke there stopped =>
    refine clock.kept (clockwork_foldl_wakeUp _ _) ?_
    rw [(foldl_wakeUp_same _ _).2.2]
    exact all
  | handed pick who effect _ picked => exact clock.kept (by simp [clockwork, firings]) all
  | replied pick who deliver picked => exact clock.kept rfl all
  | resumed pick who m woke poll step outstanding picked there runs =>
    refine clock.kept ((clockwork_ran ..).trans rfl) ?_
    rw [timers_ran]
  | ignored pick who picked stopped => exact clock.kept rfl all
  | acted who a =>
    cases a with
    | reply deliver => exact clock.kept rfl all
    | replyAfter delay deliver => exact clock.replyAfter who delay deliver
    | spawn => exact clock.kept (clockwork_adopt ..) all
    | spawnPinned => exact clock.kept (clockwork_adopt ..) all
    | wake other =>
      refine clock.kept (clockwork_wakeUp w other) ?_
      show (w.wakeUp other).timers.Sublist w.timers
      rw [(wakeUp_same w other).2.2]
  | fired _ _ fired => exact clock.fired fired

theorem clock_start (root : Machine) (wakeup : Wakeup Nat) :
    (World.adopt (⟨[], [], [], 0, [], [], 0, []⟩ : World E D) root wakeup).Clock := by
  have empty : (⟨[], [], [], 0, [], [], 0, []⟩ : World E D).Clock :=
    ⟨rfl, by simp, List.Pairwise.nil, by simp, by simp, List.Pairwise.nil, by simp [firings], rfl⟩
  exact empty.kept (clockwork_adopt ..) (List.Sublist.refl _)

end World

namespace State

/-! ### An iteration and the clock -/

variable {code : Code G E D} {s : State G E D}

theorem call_clockwork {α : Type} (s : State G E D) (f : Call G α) :
    (s.call f).1.world.clockwork = s.world.clockwork := World.clockwork_foldl_wakeUp _ _

theorem poll_clockwork (code : Code G E D) (s : State G E D) (who : Nat) (m : Machine) :
    ((s.poll code who m).1.pushEffects who (s.poll code who m).2).world.clockwork =
      s.world.clockwork := by
  obtain ⟨_, same, silent⟩ | ⟨_, woke, poll, yielded, outstanding, step, after⟩ :=
    poll_world code s who m
  · rw [same, silent, pushEffects_nil]
  · rw [step, after]
    exact World.clockwork_ran ..

theorem reply_clockwork (code : Code G E D) (s : State G E D) (who : Nat) (m : Machine) (deliver : D) :
    ((s.reply code who m deliver).1.pushEffects who (s.reply code who m deliver).2).world.clockwork =
      s.world.clockwork := by
  have called := call_clockwork s (code.deliver who deliver)
  unfold reply
  generalize s.call (code.deliver who deliver) = after at called
  obtain ⟨s', delivery⟩ := after
  cases delivery with
  | gone =>
    dsimp only
    rw [pushEffects_nil]
    exact called
  | delivered kept =>
    cases kept with
    | false => exact (poll_clockwork code s' who m).trans called
    | true =>
      refine (poll_clockwork code _ who m).trans ?_
      exact (call_clockwork { s' with world := s'.world.hold who } _).trans called

theorem killing_clockwork (code : Code G E D) (s : State G E D) :
    (s.killing code).1.world.clockwork = s.world.clockwork := by
  have called := call_clockwork s (code.kill s.world.machines.length)
  unfold killing
  generalize s.call (code.kill s.world.machines.length) = after at called
  obtain ⟨s', victim⟩ := after
  cases victim with
  | none => exact called
  | some who =>
    have killed : (s'.kill code who).1.world.clockwork = s'.world.clockwork := by
      unfold kill
      split
      · rfl
      · exact call_clockwork _ _
    dsimp only
    generalize s'.kill code who = after at killed
    obtain ⟨s'', running⟩ := after
    cases running <;> exact killed.trans called

theorem stuttering_clockwork (code : Code G E D) (s : State G E D) :
    (s.stuttering code).1.world.clockwork = s.world.clockwork := by
  have called := call_clockwork s (code.stutter s.world.machines.length)
  unfold stuttering
  generalize s.call (code.stutter s.world.machines.length) = after at called
  obtain ⟨s', victim⟩ := after
  cases victim with
  | none => exact called
  | some who =>
    dsimp only
    split
    · exact called
    · exact (poll_clockwork code s' who _).trans called

/-- The handler is given an effect, or no timer is set. -/
inductive Took (code : Code G E D) (w w' : World E D) : Prop
  | unset : World.Moves w w' → w'.clockwork = w.clockwork → Took code w w'
  | handled (w₁ : World E D) (pick who : Nat) (effect : E) (acts : List (Act D)) :
      World.Moves w w₁ → w₁.clockwork = w.clockwork →
      w' = acts.foldl (fun w a => w.act who a)
        { w₁ with ready := w₁.ready.eraseIdx pick, log := w₁.log ++ [.handed who effect] } →
      w₁.ready[pick]? = some (.effect who effect) → pick ∈ eligible w₁.ready → Took code w w'

theorem take_clockwork (code : Code G E D) (s : State G E D) {action : Action E D}
    (other : ∀ who effect, action ≠ .effect who effect) :
    (s.take code action).world.clockwork = s.world.clockwork := by
  cases action with
  | effect who effect => exact absurd rfl (other who effect)
  | reply who deliver =>
    unfold take
    dsimp only
    split
    · exact call_clockwork s _
    · exact reply_clockwork code s who _ deliver
  | resume who =>
    unfold take
    dsimp only
    split
    · rfl
    · exact poll_clockwork code s who _

theorem picking_took (code : Code G E D) (s : State G E D) (nonempty : s.world.ready ≠ []) :
    Took code s.world (s.picking code).world := by
  have moves := picking_moves code s nonempty
  have called := call_moves s (code.next (eligible s.world.ready).length)
  have same := call_clockwork s (code.next (eligible s.world.ready).length)
  have ready := call_ready s (code.next (eligible s.world.ready).length)
  have offered := pick_mem (eligible_ne_nil nonempty)
    (s.call (code.next (eligible s.world.ready).length)).2
  unfold picking at moves ⊢
  dsimp only at moves ⊢
  generalize s.call (code.next (eligible s.world.ready).length) = after at *
  obtain ⟨s', choice⟩ := after
  dsimp only at *
  generalize (((eligible s.world.ready)[choice]?).or (eligible s.world.ready).getLast?).getD 0 = pick
    at *
  cases picked : s'.world.ready[pick]? with
  | none => exact .unset called same
  | some action =>
    rw [picked] at moves
    cases action with
    | effect who effect =>
      exact .handled s'.world pick who effect _ called same rfl picked (ready ▸ offered)
    | reply who deliver => exact .unset moves ((take_clockwork code _ (by simp)).trans same)
    | resume who => exact .unset moves ((take_clockwork code _ (by simp)).trans same)

theorem Took.head {w w₁ w' : World E D} (moves : World.Moves w w₁)
    (same : w₁.clockwork = w.clockwork) (took : Took code w₁ w') : Took code w w' := by
  cases took with
  | unset more still => exact .unset (moves.trans more) (still.trans same)
  | handled w₂ pick who effect acts more still after picked offered =>
    exact .handled w₂ pick who effect acts (moves.trans more) (still.trans same) after picked offered

/-- The iteration once the schedule was asked, unless it kills a running machine or resumes one. -/
def asked (code : Code G E D) (s : State G E D) : Option (State G E D) :=
  match State.killing code { s with world := s.world.takeWoken } with
  | (_, true) => none
  | (s, false) =>
    match s.stuttering code with
    | (_, true) => none
    | (s, false) => some s

theorem asked_eq_some {s' : State G E D} : s.asked code = some s' ↔
    ∃ s₁, State.killing code { s with world := s.world.takeWoken } = (s₁, false) ∧
      s₁.stuttering code = (s', false) := by
  unfold asked
  generalize State.killing code { s with world := s.world.takeWoken } = after
  obtain ⟨s₁, killed⟩ := after
  cases killed with
  | true => simp
  | false =>
    dsimp only
    generalize stuttered : s₁.stuttering code = after
    obtain ⟨s₂, resumed⟩ := after
    cases resumed with
    | true => simp [stuttered]
    | false => simp [stuttered]

/-- An iteration fires no timer, or it fires one that is set, when nothing is ready. -/
theorem turn_cases (code : Code G E D) (s : State G E D) :
    (∀ s', s.asked code = some s' → s'.world.ready = [] → s'.world.fireNextTimer = none) ∧
        Took code s.world (s.turn code).world ∨
      ∃ s' w, s.asked code = some s' ∧ World.Moves s.world s'.world ∧
        s'.world.clockwork = s.world.clockwork ∧ s'.world.ready = [] ∧
        s'.world.fireNextTimer = some w ∧ Took code w (s.turn code).world := by
  -- the four parts of an iteration, each up to where it may end the run
  have drained : World.Moves s.world s.world.takeWoken := .single (.drained s.world)
  have killed := drained.trans (killing_moves code { s with world := s.world.takeWoken })
  have same := (killing_clockwork code { s with world := s.world.takeWoken }).trans
    (World.clockwork_takeWoken s.world)
  unfold asked turn
  dsimp only
  generalize State.killing code { s with world := s.world.takeWoken } = after at killed same
  obtain ⟨s', ended⟩ := after
  cases ended with
  | true => exact .inl ⟨by simp, .unset killed same⟩
  | false =>
    have stuttered := killed.trans (stuttering_moves code s')
    have same := (stuttering_clockwork code s').trans same
    dsimp only
    generalize s'.stuttering code = after at stuttered same
    obtain ⟨s'', ended⟩ := after
    cases ended with
    | true => exact .inl ⟨by simp, .unset stuttered same⟩
    | false =>
      dsimp only
      -- nothing is ready: a timer is fired, or the run is over
      split
      · next empty =>
        split
        · next unset => exact .inl ⟨by simpa using fun _ => unset, .unset stuttered same⟩
        · next world fired =>
          refine .inr ⟨s'', world, rfl, stuttered, same, List.isEmpty_iff.mp empty, fired, ?_⟩
          exact picking_took code { s'' with world } (World.ready_of_fired fired)
      -- something is ready, and it is picked
      · next filled =>
        have nonempty : s''.world.ready ≠ [] := by simpa using filled
        refine .inl ⟨?_, (picking_took code s'' nonempty).head stuttered same⟩
        rintro _ ⟨⟩ empty
        exact absurd empty nonempty

/-- A handler moves no clock and fires no timer. -/
theorem act_fires_none (w : World E D) (who : Nat) (a : Act D) :
    (w.act who a).now = w.now ∧ firings (w.act who a).log = firings w.log := by
  have plain : ∀ {w' : World E D}, w'.clockwork = w.clockwork →
      w'.now = w.now ∧ firings w'.log = firings w.log :=
    fun same => ⟨congrArg (·.1) same, congrArg (·.2.2.2) same⟩
  cases a with
  | reply deliver => exact plain rfl
  | replyAfter delay deliver => exact ⟨rfl, by simp [World.act, firings]⟩
  | spawn => exact plain (World.clockwork_adopt w .new .new)
  | spawnPinned => exact plain (World.clockwork_adopt w .new .new)
  | wake other => exact plain (World.clockwork_wakeUp w other)

theorem acts_fire_none (w : World E D) (who : Nat) (acts : List (Act D)) :
    (acts.foldl (fun w a => w.act who a) w).now = w.now ∧
      firings (acts.foldl (fun w a => w.act who a) w).log = firings w.log := by
  induction acts generalizing w with
  | nil => exact ⟨rfl, rfl⟩
  | cons a rest ih =>
    obtain ⟨now, fired⟩ := ih (w.act who a)
    obtain ⟨now', fired'⟩ := act_fires_none w who a
    exact ⟨now.trans now', fired.trans fired'⟩

theorem Took.fires_none {w w' : World E D} (took : Took code w w') :
    w'.now = w.now ∧ firings w'.log = firings w.log := by
  cases took with
  | unset _ same => exact ⟨congrArg (·.1) same, congrArg (·.2.2.2) same⟩
  | handled w₁ pick who effect acts _ same after _ _ =>
    obtain ⟨now, fired⟩ := acts_fire_none
      { w₁ with ready := w₁.ready.eraseIdx pick, log := w₁.log ++ [.handed who effect] } who acts
    rw [after, now, fired]
    refine ⟨congrArg (·.1) same, Eq.trans ?_ (congrArg (·.2.2.2) same)⟩
    simp [World.clockwork, firings]

/-- The clock never goes back. -/
theorem now_le_turn (code : Code G E D) (s : State G E D) : s.world.now ≤ (s.turn code).world.now := by
  rcases turn_cases code s with ⟨_, took⟩ | ⟨s', w, _, _, same, _, fired, took⟩
  · exact Nat.le_of_eq took.fires_none.1.symm
  · have now : s'.world.now = s.world.now := congrArg (·.1) same
    obtain ⟨next, timer, _, rfl⟩ := World.fireNextTimer_spec fired
    rw [took.fires_none.1, ← now]
    exact Nat.le_max_left _ _

end State

namespace World

/-! ### Whose timer it is -/

/-- The timer is set still, or has fired, or its machine was killed. -/
def Accounted (w : World E D) (x : Setting) : Prop :=
  ∃ who, x.who = some who ∧
    ((∃ timer ∈ w.timers, timer.serial = x.serial ∧ timer.who = who) ∨
      x.serial ∈ firings w.log ∨ w.machines[who]? = some none)

variable {w w' : World E D}

/-- No timer is lost, but with its machine. -/
structure Keeps (w w' : World E D) : Prop where
  timers : ∀ timer ∈ w.timers, timer ∈ w'.timers ∨ timer.serial ∈ firings w'.log ∨
    w'.machines[timer.who]? = some none
  fired : ∀ serial ∈ firings w.log, serial ∈ firings w'.log
  gone : ∀ who : Nat, w.machines[who]? = some none → w'.machines[who]? = some none

theorem Keeps.accounted (keeps : Keeps w w') {x : Setting} (accounted : w.Accounted x) :
    w'.Accounted x := by
  obtain ⟨who, own, still⟩ := accounted
  refine ⟨who, own, ?_⟩
  rcases still with ⟨timer, member, same, rfl⟩ | fired | gone
  · rcases keeps.timers timer member with stays | fired | gone
    · exact .inl ⟨timer, stays, same, rfl⟩
    · exact .inr (.inl (same ▸ fired))
    · exact .inr (.inr gone)
  · exact .inr (.inl (keeps.fired _ fired))
  · exact .inr (.inr (keeps.gone who gone))

theorem Keeps.of_same (timers : w'.timers = w.timers) (fired : firings w'.log = firings w.log)
    (gone : ∀ who : Nat, w.machines[who]? = some none → w'.machines[who]? = some none) :
    Keeps w w' := by
  refine ⟨fun timer member => .inl (timers ▸ member), fun serial member => ?_, gone⟩
  rw [fired]
  exact member

theorem firings_of_clockwork (same : w'.clockwork = w.clockwork) : firings w'.log = firings w.log :=
  congrArg (·.2.2.2) same

theorem Keeps.trans {w'' : World E D} (first : Keeps w w') (second : Keeps w' w'') : Keeps w w'' := by
  refine ⟨fun timer member => ?_, fun serial member => second.fired serial (first.fired serial member),
    fun who gone => second.gone who (first.gone who gone)⟩
  rcases first.timers timer member with stays | fired | gone
  · exact second.timers timer stays
  · exact .inr (.inl (second.fired _ fired))
  · exact .inr (.inr (second.gone _ gone))

theorem keeps_wakeUp (w : World E D) (who : Nat) : Keeps w (w.wakeUp who) := by
  obtain ⟨machines, _, timers⟩ := wakeUp_same w who
  refine .of_same timers (firings_of_clockwork (clockwork_wakeUp w who)) fun other gone => ?_
  rw [machines]
  exact gone

theorem keeps_woken (w : World E D) (woke : List Nat) : Keeps w (woke.foldl World.wakeUp w) := by
  induction woke generalizing w with
  | nil => exact .of_same rfl rfl fun _ => id
  | cons who rest ih => exact (keeps_wakeUp w who).trans (ih (w.wakeUp who))

theorem keeps_hold (w : World E D) (who : Nat) : Keeps w (w.hold who) := .of_same rfl rfl fun _ => id

/-- A machine that is there is polled. -/
theorem keeps_ran {m : Machine} {who : Nat} (there : w.machine who = some m) (woke : List Nat)
    (poll : Poll) (step : Yield E) (outstanding : Nat) :
    Keeps w (w.ran who woke poll step outstanding) := by
  refine .of_same (timers_ran ..) (firings_of_clockwork (clockwork_ran ..)) fun other gone => ?_
  show ((woke.foldl World.wakeUp (w.clear who)).machines.set who _)[other]? = some none
  rw [(foldl_wakeUp_same _ _).1]
  have differs : who ≠ other := by
    rintro rfl
    rw [(machine_eq w).mp there] at gone
    cases gone
  rw [List.getElem?_set_ne differs]
  exact gone

theorem keeps_adopt (w : World E D) (m : Machine) (wakeup : Wakeup Nat) :
    Keeps w (w.adopt m wakeup) := by
  refine .of_same rfl (firings_of_clockwork (clockwork_adopt ..)) fun who gone => ?_
  exact (List.getElem?_append_left (List.getElem?_eq_some_iff.mp gone).1).trans gone

theorem keeps_of_move (move : w.Move w') : Keeps w w' := by
  cases move with
  | woke who => exact keeps_wakeUp w who
  | drained =>
    obtain ⟨added, taken, _⟩ := takeWoken_spec w
    rw [taken]
    exact .of_same rfl rfl fun _ => id
  | freed who m there =>
    refine ⟨fun timer member => ?_, fun _ => id, fun other gone => ?_⟩
    · by_cases its : timer.who = who
      · -- the timers of the machine go with it
        refine .inr (.inr ?_)
        have low := (List.getElem?_eq_some_iff.mp ((machine_eq w).mp there)).1
        show (w.machines.set who none)[timer.who]? = some none
        rw [its, List.getElem?_set_self low]
      · exact .inl (List.mem_filter.mpr ⟨member, by simpa using its⟩)
    · show (w.machines.set who none)[other]? = some none
      rw [List.getElem?_set]
      split
      · next same =>
        have low := (List.getElem?_eq_some_iff.mp gone).1
        rw [if_pos (same ▸ low)]
      · exact gone
  | polled w₀ who m woke woke' poll step outstanding there runs either =>
    rcases either with rfl | rfl
    · exact keeps_ran there woke poll step outstanding
    · have there : (woke'.foldl World.wakeUp (w.hold who)).machine who = some m :=
        (foldl_wakeUp_machine _ woke' who).trans there
      exact ((keeps_hold w who).trans (keeps_woken _ woke')).trans
        (keeps_ran there woke poll step outstanding)
  | unheard who m woke there stopped => exact (keeps_hold w who).trans (keeps_woken _ woke)
  | handed pick who effect _ picked => exact .of_same rfl (by simp [firings]) fun _ => id
  | replied pick who deliver picked => exact .of_same rfl rfl fun _ => id
  | resumed pick who m woke poll step outstanding picked there runs =>
    have erased : Keeps w { w with ready := w.ready.eraseIdx pick } := .of_same rfl rfl fun _ => id
    exact erased.trans (keeps_ran (w := { w with ready := w.ready.eraseIdx pick }) there woke poll step
      outstanding)
  | ignored pick who picked stopped => exact .of_same rfl rfl fun _ => id
  | acted who a =>
    cases a with
    | reply deliver => exact .of_same rfl rfl fun _ => id
    | replyAfter delay deliver =>
      refine ⟨fun timer member => .inl (List.mem_append_left _ member), fun serial member => ?_,
        fun _ => id⟩
      show serial ∈ firings (w.log ++ [_])
      rw [firings_append]
      exact List.mem_append_left _ member
    | spawn => exact keeps_adopt ..
    | spawnPinned => exact keeps_adopt ..
    | wake other => exact keeps_wakeUp w other
  | fired _ _ fired =>
    -- the timer that fires is in the log, and each other stays
    obtain ⟨next, timer, there, rfl⟩ := fireNextTimer_spec fired
    have grown : firings (w.log ++ [.fired timer.serial]) = firings w.log ++ [timer.serial] := by simp
    refine ⟨fun other member => ?_, fun serial member => ?_, fun _ => id⟩
    · obtain ⟨i, found⟩ := List.mem_iff_getElem?.mp member
      by_cases its : i = next
      · subst its
        obtain rfl := Option.some.inj (there.symm.trans found)
        refine .inr (.inl ?_)
        rw [grown]
        exact List.mem_append_right _ (List.mem_singleton_self _)
      · exact .inl (List.mem_eraseIdx_iff_getElem?.mpr ⟨i, its, found⟩)
    · rw [grown]
      exact List.mem_append_left _ member

theorem keeps_of_moves (moves : World.Moves w w') : Keeps w w' := by
  induction moves with
  | refl => exact .of_same rfl rfl fun _ => id
  | tail _ move ih => exact ih.trans (keeps_of_move move)

/-- Each timer that was set is accounted for. -/
def Owned (w : World E D) : Prop := ∀ x ∈ settings w.log, w.Accounted x

theorem Owned.kept (owned : w.Owned) (keeps : Keeps w w') (same : settings w'.log = settings w.log) :
    w'.Owned := by
  intro x member
  rw [same] at member
  exact keeps.accounted (owned x member)

theorem noted_wakeUp (w : World E D) (who : Nat) : noted (w.wakeUp who).log = noted w.log := by
  unfold wakeUp
  split
  · rfl
  · exact noted_append _ _

theorem noted_adopt (w : World E D) (m : Machine) (wakeup : Wakeup Nat) :
    noted (w.adopt m wakeup).log = noted w.log := by
  unfold adopt
  dsimp only
  split
  · exact noted_append _ _
  · rfl

/-- The handler has an effect of machine `who`: the timers it sets are that machine's. -/
theorem Owned.act {who : Nat} (owned : w.Owned) (has : (noted w.log).1 = some who) (a : Act D) :
    (w.act who a).Owned ∧ (noted (w.act who a).log).1 = some who := by
  have keeps := keeps_of_move (.acted w who a)
  have plain : noted (w.act who a).log = noted w.log →
      (w.act who a).Owned ∧ (noted (w.act who a).log).1 = some who := by
    intro same
    exact ⟨owned.kept keeps (congrArg Prod.snd same), (congrArg Prod.fst same).trans has⟩
  cases a with
  | reply deliver => exact plain rfl
  | replyAfter delay deliver =>
    have log : (w.act who (.replyAfter delay deliver)).log =
      w.log ++ [.set w.serials (w.now.saturatingAdd delay)] := rfl
    refine ⟨fun x member => ?_, ?_⟩
    · rw [log, settings_append] at member
      rcases List.mem_append.mp member with before | new
      · exact keeps.accounted (owned x before)
      · rw [List.mem_singleton.mp new]
        exact ⟨who, has, .inl ⟨_, List.mem_append_right _ (List.mem_singleton_self _), rfl, rfl⟩⟩
    · rw [log, noted_append]
      exact has
  | spawn => exact plain (noted_adopt ..)
  | spawnPinned => exact plain (noted_adopt ..)
  | wake other => exact plain (noted_wakeUp w other)

theorem Owned.acts {who : Nat} (owned : w.Owned) (has : (noted w.log).1 = some who)
    (acts : List (Act D)) : (acts.foldl (fun w a => w.act who a) w).Owned := by
  induction acts generalizing w with
  | nil => exact owned
  | cons a rest ih =>
    obtain ⟨owned, has⟩ := owned.act has a
    exact ih owned has

theorem settings_of_clockwork (same : w'.clockwork = w.clockwork) :
    settings w'.log = settings w.log := congrArg (·.2.2.1) same

theorem Owned.took {code : Code G E D} (owned : w.Owned) (took : State.Took code w w') : w'.Owned := by
  cases took with
  | unset moves same => exact owned.kept (keeps_of_moves moves) (settings_of_clockwork same)
  | handled w₁ pick who effect acts moves same after picked offered =>
    have before := owned.kept (keeps_of_moves moves) (settings_of_clockwork same)
    have handed := keeps_of_move (.handed w₁ pick who effect offered picked)
    rw [after]
    refine (before.kept handed ?_).acts ?_ acts
    · exact settings_append _ _
    · exact congrArg Prod.fst (noted_append _ _)

theorem Owned.turn {code : Code G E D} {s : State G E D} (owned : s.world.Owned) :
    (s.turn code).world.Owned := by
  rcases State.turn_cases code s with ⟨_, took⟩ | ⟨s', w, _, moves, same, ready, fired, took⟩
  · exact owned.took took
  · have before := owned.kept (keeps_of_moves moves) (settings_of_clockwork same)
    refine (before.kept (keeps_of_move (.fired _ w ready fired)) ?_).took took
    obtain ⟨next, timer, _, rfl⟩ := fireNextTimer_spec fired
    exact settings_append _ _

/-- The queue only grows. -/
theorem unwoken_of_foldl (woke : List Nat) (empty : (woke.foldl World.wakeUp w).woken = []) :
    w.woken = [] := by
  induction woke generalizing w with
  | nil => exact empty
  | cons who rest ih =>
    have first := ih empty
    unfold World.wakeUp at first
    split at first
    · exact first
    · exact (List.append_eq_nil_iff.mp first).1

/-- Who is woken joins the queue unless the machine's flag is up. -/
theorem woken_eq_nil_iff (hooks : ∀ (who : Nat) (u : Wakeup Nat), w.wakeups[who]? = some u →
      u.hook = some who) (woke : List Nat) :
    (woke.foldl World.wakeUp w).woken = [] ↔
      w.woken = [] ∧ ∀ who ∈ woke, ∀ u, w.wakeups[who]? = some u → u.woken = true := by
  -- by induction on those woken, since the first may already raise a flag that the rest look at
  induction woke generalizing w with
  | nil => simp
  | cons who rest ih =>
    rw [List.foldl_cons]
    cases found : w.wakeups[who]? with
    | none =>
      have same : w.wakeUp who = w := by
        unfold World.wakeUp
        rw [found]
      rw [same, ih hooks]
      simp [found]
    | some u =>
      cases up : u.woken with
      | true =>
        -- its flag is up already, so waking it does nothing
        have kept : w.wakeups.set who { u with woken := true } = w.wakeups := by
          have own : ({ u with woken := true } : Wakeup Nat) = u := by rw [← up]
          rw [own]
          obtain ⟨low, rfl⟩ := List.getElem?_eq_some_iff.mp found
          exact List.set_getElem_self low
        have same : w.wakeUp who = { w with log := w.log ++ [.woke who] } := by
          unfold World.wakeUp
          rw [found]
          simp [Wakeup.wakeUp, up, kept]
        have later := ih (w := { w with log := w.log ++ [.woke who] }) hooks
        rw [same, later]
        simp [found, up]
      | false =>
        -- its flag is down and its hook is its own, so it joins the queue
        have queued : (w.wakeUp who).woken = w.woken ++ [who] := by
          unfold World.wakeUp
          rw [found]
          simp [Wakeup.wakeUp, up, hooks who u found]
        refine iff_of_false (fun empty => ?_) fun both => ?_
        · have first := unwoken_of_foldl rest empty
          rw [queued] at first
          simp at first
        · have raised := both.2 who List.mem_cons_self u found
          rw [up] at raised
          cases raised

end World

/-! ### Nothing else to do -/

/-- The iteration fires a timer. -/
def Fires (code : Code G E D) (s : State G E D) : Prop :=
  firings (s.turn code).world.log ≠ firings s.world.log

/-- If it does, nothing was ready when it did, and nobody waited to be resumed. -/
def FiresLast (code : Code G E D) (s : State G E D) : Prop :=
  Fires code s → ∃ s', s.asked code = some s' ∧ s'.world.ready = [] ∧ s'.world.woken = []

/-- The iteration has nothing to do but to fire a timer: nothing is ready, no one has woken, the
machine that the schedule kills had completed, the schedule resumes no machine that is left, and
there is a timer that is not the killed machine's. -/
structure Waits (code : Code G E D) (s : State G E D) : Prop where
  ready : s.world.ready = []
  woken : s.world.woken = []
  victim : ∀ who m, code.victim s = some who → s.world.machine who = some m → m.status = .complete
  stutter : ∀ who m, (code.stutter s.world.machines.length (code.killed s).1).2.2 = some who →
    s.world.machine who = some m → code.victim s = some who
  timer : ∃ timer ∈ s.world.timers,
    ¬ (code.victim s = some timer.who ∧ (s.world.machine timer.who).isSome)

/-- If the iteration has nothing to do but to fire a timer, the schedule, and the completed machine
it kills, wake no machine that was not woken already. -/
def Unprompted (code : Code G E D) (s : State G E D) : Prop :=
  Waits code s → ∀ who, who ∈ (code.killed s).2 ∨
      who ∈ (code.stutter s.world.machines.length (code.killed s).1).2.1 →
    ∀ u, s.world.wakeups[who]? = some u → u.woken = true

variable {code : Code G E D} {s : State G E D}

theorem fires_iff : Fires code s ↔ ∃ s', s.asked code = some s' ∧ s'.world.ready = [] ∧
    s'.world.timers ≠ [] := by
  rcases State.turn_cases code s with ⟨unset, took⟩ | ⟨s', w, asked, _, same, ready, fired, took⟩
  · refine iff_of_false (fun fires => fires took.fires_none.2) ?_
    rintro ⟨s', asked, ready, set⟩
    exact set (World.timers_of_unfired (unset s' asked ready))
  · obtain ⟨next, timer, there, rfl⟩ := World.fireNextTimer_spec fired
    refine iff_of_true (fun unfired => ?_) ⟨s', asked, ready, fun empty => ?_⟩
    · have grown := took.fires_none.2.symm.trans unfired
      rw [← World.firings_of_clockwork same] at grown
      simp at grown
    · rw [empty] at there
      cases there

theorem takeWoken_of_unwoken {w : World E D} (unwoken : w.woken = []) : w.takeWoken = w := by
  cases w
  obtain rfl : _ = [] := unwoken
  rfl

/-- The schedule names no machine that is left. -/
theorem stuttering_eq
    (gone : ∀ who, (code.stutter s.world.machines.length s.shared).2.2 = some who →
      s.world.machine who = none) :
    s.stuttering code = ((s.call (code.stutter s.world.machines.length)).1, false) := by
  have machine := State.call_machine s (code.stutter s.world.machines.length)
  have named : (s.call (code.stutter s.world.machines.length)).2 =
      (code.stutter s.world.machines.length s.shared).2.2 := rfl
  rw [← named] at gone
  unfold State.stuttering
  generalize s.call (code.stutter s.world.machines.length) = after at gone machine
  obtain ⟨s', who⟩ := after
  cases who with
  | none => rfl
  | some who =>
    dsimp only
    rw [machine, gone who rfl]

/-- An iteration that has nothing to do but to fire a timer, once the schedule was asked. -/
theorem asked_of_waits (waits : Waits code s) :
    ∃ s', s.asked code = some s' ∧
      s'.world = (code.stutter s.world.machines.length (code.killed s).1).2.1.foldl World.wakeUp
        (code.without s ((code.killed s).2.foldl World.wakeUp s.world)) := by
  have machines := (World.foldl_wakeUp_same s.world (code.killed s).2).1
  have length : (code.without s ((code.killed s).2.foldl World.wakeUp s.world)).machines.length =
      s.world.machines.length := by
    obtain ⟨left, timers, length, same⟩ :=
      without_same code s ((code.killed s).2.foldl World.wakeUp s.world)
    rw [same]
    exact length.trans (congrArg List.length machines)
  have killed := killing_eq waits.victim
  let s₁ : State G E D := { s with
    shared := (code.killed s).1,
    world := code.without s ((code.killed s).2.foldl World.wakeUp s.world) }
  have stuttered : s₁.stuttering code =
      ((s₁.call (code.stutter s₁.world.machines.length)).1, false) := by
    apply stuttering_eq
    intro who named
    show (code.without s _).machine who = none
    rw [without_machine machines]
    split
    · rfl
    · next other =>
      -- whom it names was killed just now, or has gone before
      by_contra there
      obtain ⟨m, there⟩ := Option.ne_none_iff_exists'.mp there
      rw [show s₁.world.machines.length = _ from length] at named
      exact other (waits.stutter who m named there)
  refine ⟨_, State.asked_eq_some.mpr ⟨s₁, ?_, stuttered⟩, ?_⟩
  · rw [takeWoken_of_unwoken waits.woken]
    exact killed
  · show (code.stutter s₁.world.machines.length _).2.1.foldl World.wakeUp _ = _
    rw [show s₁.world.machines.length = _ from length]

/-- An iteration that is found to have nothing ready and a timer set. -/
theorem waits_of_asked (told : s.world.Told none) {s' : State G E D} (asked : s.asked code = some s')
    (ready : s'.world.ready = []) (timers : s'.world.timers ≠ []) : Waits code s := by
  obtain ⟨s₁, killed, stuttered⟩ := State.asked_eq_some.mp asked
  obtain ⟨nothing, unwoken, killed, spared, stutter, world⟩ :=
    spared_of_nothing told killed stuttered ready
  refine ⟨nothing, unwoken, spared.victim, stutter, ?_⟩
  obtain ⟨timer, member⟩ := List.exists_mem_of_ne_nil _ timers
  rw [world, (World.foldl_wakeUp_same _ _).2.2] at member
  rw [killing_eq spared.victim] at killed
  obtain rfl := (Prod.mk.inj killed).1
  obtain ⟨before, own⟩ := (mem_without_timers timer).mp member
  rw [(World.foldl_wakeUp_same _ _).2.2] at before
  exact ⟨timer, before, own⟩

/-- A timer fires last in an iteration just where nobody is woken who was not. -/
theorem firesLast_iff (told : s.world.Told none) : FiresLast code s ↔ Unprompted code s := by
  -- whom the schedule and what it kills wake, and who is then in the queue
  have queue : ∀ {s' : State G E D}, s'.world =
      (code.stutter s.world.machines.length (code.killed s).1).2.1.foldl World.wakeUp
        (code.without s ((code.killed s).2.foldl World.wakeUp s.world)) →
      s.world.woken = [] → (s'.world.woken = [] ↔ ∀ who, who ∈ (code.killed s).2 ∨
        who ∈ (code.stutter s.world.machines.length (code.killed s).1).2.1 →
          ∀ u, s.world.wakeups[who]? = some u → u.woken = true) := by
    intro s' world unwoken
    obtain ⟨machines, timers, _, same⟩ :=
      without_same code s ((code.killed s).2.foldl World.wakeUp s.world)
    rw [world, same, World.foldl_wakeUp_aside, ← List.foldl_append,
      World.woken_eq_nil_iff told.hooks]
    simp only [unwoken, true_and, List.mem_append]
  constructor
  · intro last waits
    obtain ⟨s', asked, world⟩ := asked_of_waits waits
    obtain ⟨_, ready, timers⟩ := World.foldl_wakeUp_same s.world (code.killed s).2
    have ready' : s'.world.ready = [] := by
      obtain ⟨_, _, _, same⟩ := without_same code s ((code.killed s).2.foldl World.wakeUp s.world)
      rw [world, (World.foldl_wakeUp_same _ _).2.1, same]
      exact ready.trans waits.ready
    have set : s'.world.timers ≠ [] := by
      obtain ⟨timer, member, own⟩ := waits.timer
      apply List.ne_nil_of_mem
      rw [world, (World.foldl_wakeUp_same _ _).2.2]
      exact (mem_without_timers timer).mpr ⟨timers.symm ▸ member, own⟩
    obtain ⟨s'', asked', _, unset⟩ := last (fires_iff.mpr ⟨s', asked, ready', set⟩)
    obtain rfl := Option.some.inj (asked.symm.trans asked')
    exact (queue world waits.woken).mp unset
  · intro unprompted fires
    obtain ⟨s', asked, ready, timers⟩ := fires_iff.mp fires
    have waits := waits_of_asked told asked ready timers
    obtain ⟨s'', asked', world⟩ := asked_of_waits waits
    obtain rfl := Option.some.inj (asked.symm.trans asked')
    exact ⟨s', asked, ready, (queue world waits.woken).mpr (unprompted waits)⟩

/-! ### The clock of a run -/

theorem World.Clock.due_unique {w : World E D} (clock : w.Clock) {serial : Nat} {due due' : Duration}
    (first : DueAt w.log serial due) (second : DueAt w.log serial due') : due = due' := by
  obtain ⟨who, one⟩ := first
  obtain ⟨who', two⟩ := second
  have nodup : ((settings w.log).map Setting.serial).Nodup := by
    rw [clock.numbered]
    exact List.nodup_range
  exact congrArg Setting.due (List.inj_on_of_nodup_map nodup one two rfl)

/-- No timer fires twice. -/
theorem World.Clock.nodup {w : World E D} (clock : w.Clock) : (firings w.log).Nodup := by
  refine clock.ordered.imp ?_
  rintro m _ ⟨due, due', first, second, order⟩ rfl
  obtain rfl := clock.due_unique first second
  exact order.elim (Nat.lt_irrefl due) fun both => Nat.lt_irrefl m both.2

theorem World.owned_start (root : Machine) (wakeup : Wakeup Nat) :
    (World.adopt (⟨[], [], [], 0, [], [], 0, []⟩ : World E D) root wakeup).Owned := by
  intro x member
  rw [World.settings_of_clockwork (World.clockwork_adopt ..)] at member
  cases member

theorem State.next_eq {next : State G E D} {action : Unit} (stepped : s.step code action = some next) :
    next = s.turn code := by
  unfold State.step at stepped
  split at stepped
  · cases stepped
  · exact (Option.some.inj stepped).symm

/-- Every timer set is due now at the earliest; timers have fired in the order they fall due, and
were set; the clock is at the last of them, and never goes back; and when the run returns each has
fired once, unless its machine was killed. A timer fires only when nothing else is to be done just
as far as no iteration is prompted while the schedule is asked. -/
theorem virtual_clock_is_sound_iff (code : Code G E D) (shared : G) (root : Machine)
    (wakeup : Wakeup Nat) (actions : List Unit) (s : State G E D)
    (ran : Transition.run (State.step code) (State.start shared root wakeup) actions = some s) :
    (∀ timer ∈ s.world.timers, s.world.now ≤ timer.due) ∧
    ((settings s.world.log).map Setting.serial = List.range s.world.serials ∧
      (firings s.world.log).Pairwise (Earlier s.world.log)) ∧
    (ClockAt s.world.log s.world.now ∧
      ∀ next, s.step code () = some next → s.world.now ≤ next.world.now) ∧
    ((∀ x ∈ settings s.world.log, ∃ who, x.who = some who) ∧
      (s.result.isSome → ∀ x ∈ settings s.world.log, ∀ who, x.who = some who →
        s.world.machine who ≠ none → (firings s.world.log).count x.serial = 1)) ∧
    (Transition.Along (State.step code) (fun s _ => FiresLast code s)
        (State.start shared root wakeup) actions ↔
      Transition.Along (State.step code) (fun s _ => Unprompted code s)
        (State.start shared root wakeup) actions) := by
  have clock := kept_by_run World.Clock (fun _ _ => World.Clock.move)
    (World.clock_start root wakeup) ran
  have owned : s.world.Owned := by
    refine Transition.run_invariant (fun s : State G E D => s.world.Owned)
      (fun s _ next owned stepped => ?_) (World.owned_start root wakeup) ran
    rw [State.next_eq stepped]
    exact owned.turn
  refine ⟨clock.ahead, ⟨clock.numbered, clock.ordered⟩, ⟨clock.clock, fun next stepped => ?_⟩,
    ⟨fun x member => ?_, fun returned x member who own there => ?_⟩, ?_⟩
  · rw [State.next_eq stepped]
    exact State.now_le_turn code s
  -- each timer is a machine's
  · obtain ⟨who, own, _⟩ := owned x member
    exact ⟨who, own⟩
  -- a run returns only with no timer left, so what was set has fired, or its machine is gone
  · obtain ⟨who', own', still⟩ := owned x member
    obtain rfl := Option.some.inj (own.symm.trans own')
    have empty := (State.ended_run ran returned).timers
    rcases still with ⟨timer, set, _⟩ | fired | gone
    · rw [empty] at set
      cases set
    · exact List.count_eq_one_of_mem clock.nodup fired
    · exact absurd (Option.join_eq_none_iff.mpr (.inr gone)) there
  -- the two conditions agree where wakes find their machines, as they do in each state reached
  · refine Transition.along_congr (fun s : State G E D => s.world.Told none)
      (fun s _ next told stepped => ?_) (fun s _ told => firesLast_iff told)
      (World.told_start root wakeup) actions
    rw [State.next_eq stepped]
    exact kept_by_turn _ (fun _ _ => World.Told.move) told

/-- A root whose one ask is abandoned, and answered in a second with what keeps a channel open; and
a child that waits for that channel to be closed, or for an answer in two. The schedule may kill the
root once the child waits. -/
def rivals (kills : Bool) : Code Nat Unit Unit where
  poll who g :=
    if who = 0 then (g, [], .ready, ⟨[()], []⟩, 0)
    else if g = 0 then (1, [], .pending, ⟨[()], []⟩, 1)
    else (g, [], .pending, ⟨[], []⟩, 1)
  deliver _ _ g := (g, [], .gone)
  wake _ _ g := (g, [], ())
  discard _ g := (g, [], ())
  free _ replies g := (g, if replies.isEmpty then [] else [1], ())
  handle who _ _ g :=
    if who = 0 then (g, [.spawn, .replyAfter 1000000000 ()]) else (2, [.replyAfter 2000000000 ()])
  next _ g := (g, [], 0)
  stutter _ g := (g, [], none)
  kill _ g := if kills && g = 2 then (3, [], some 0) else (g, [], none)

theorem unprompted_of_spares (s : State Nat Unit Unit) : Unprompted (rivals false) s := by
  intro _ who woken
  rcases woken with woken | woken <;> cases woken

/-- The root is left alone: its timer fires, and then the child's. -/
theorem virtual_clock_is_sound_iff_spared :
    ∃ s, Transition.run (State.step (rivals false)) (State.start 0 .new .new)
        [(), (), (), (), (), (), ()] = some s ∧
      s.result = some (.stalled [1]) ∧ firings s.world.log = [0, 1] ∧
      s.world.now = 2000000000 ∧ (firings s.world.log).Pairwise (Earlier s.world.log) ∧
      Transition.Along (State.step (rivals false)) (fun s _ => FiresLast (rivals false) s)
        (State.start 0 .new .new) [(), (), (), (), (), (), ()] := by
  obtain ⟨_, order, _, _, along⟩ := virtual_clock_is_sound_iff (rivals false) 0 .new .new
    [(), (), (), (), (), (), ()] _ rfl
  refine ⟨_, rfl, rfl, by decide +kernel, by decide +kernel, order.2, along.mpr ?_⟩
  exact Transition.along_of_all (fun s _ => unprompted_of_spares s) _ _

/-- The completed root is killed, with the timer that would have answered it. This wakes the child,
but its own timer fires first, and two seconds pass. -/
theorem fires_before_the_woken :
    ∃ s s', Transition.run (State.step (rivals true)) (State.start 0 .new .new)
        [(), (), (), ()] = some s ∧
      s.asked (rivals true) = some s' ∧ s'.world.woken = [1] ∧
      s'.world.machine 1 = some (.polled .pending 1) ∧
      firings s.world.log = [] ∧ firings (s.turn (rivals true)).world.log = [1] ∧
      (s.turn (rivals true)).world.now = 2000000000 :=
  ⟨_, _, rfl, rfl, rfl, rfl, rfl, by decide +kernel, by decide +kernel⟩

end SansEffort.Testing
