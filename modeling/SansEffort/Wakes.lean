import SansEffort.Places

/-!
# Wakes reach the host

A machine that is woken is noticed once, however often its waker is called until it is next
polled, and its notice stays in one place until a call or `wakes` hands it to the host.
-/

namespace SansEffort.Thread

/-! ### The flag of each driver -/

/-- The driver's flag is set if its waker was called, and then there was one notice. -/
def Flag (t : Thread) (who : Who) : Prop :=
  (t.wakeups who).woken = wokenSince who t.history ∧
    (noticesSince who t.history).length = if wokenSince who t.history then 1 else 0

/-- A reply to the machine was delivered, and the poll it starts has not begun. -/
def isHolding (t : Thread) (who : Who) : Bool := t.frames.any fun frame => frame.holds who

def Present (t : Thread) (who : Who) : Prop :=
  t.table.machines who.handle = some who ∨ t.locals who.handle = some who

/-- Each machine to be found is noticed as its flag says, unless a reply to it was delivered. -/
def Flagged (t : Thread) : Prop :=
  ∀ who, t.Flag who ∨ t.isHolding who = true ∨ ¬ t.Present who

theorem flagged_new : Flagged new := fun _ => .inl ⟨rfl, rfl⟩

theorem Flagged.of_same {t after : Thread} (flagged : t.Flagged)
    (wakeups : after.wakeups = t.wakeups)
    (woken : ∀ who, wokenSince who after.history = wokenSince who t.history)
    (notices : ∀ who, noticesSince who after.history = noticesSince who t.history)
    (holding : ∀ who, t.isHolding who = true → after.isHolding who = true ∨ ¬ after.Present who)
    (present : ∀ who, after.Present who → t.Present who) : after.Flagged := by
  intro who
  rcases flagged who with flag | holds | absent
  · left
    unfold Flag
    rw [wakeups, woken, notices]
    exact flag
  · exact .inr (holding who holds)
  · exact .inr (.inr fun here => absent (present who here))

/-- A driver built anew. Only its machine can have taken a place. -/
theorem flagged_hook {t : Thread} {who : Who}
    (others : ∀ w, w ≠ who → t.Flag w ∨ t.isHolding w = true ∨ ¬ t.Present w) :
    (t.hook who).Flagged := by
  intro w
  by_cases same : w = who
  · subst same
    left
    simp [Flag, Thread.hook, Thread.happen, wokenSince, noticesSince, Wakeup.new, Wakeup.setHook]
  · rcases others w same with flag | rest
    · left
      have away : ¬ who = w := fun h => same h.symm
      simpa [Flag, Thread.hook, Thread.happen, wokenSince, noticesSince, away, same] using flag
    · exact .inr rest

theorem Flagged.returns {t : Thread} (flagged : t.Flagged) (called : Who) (c : AnyCall)
    (outcome : Record.Outcome) (woken : List Notice) :
    (t.returns called c outcome woken).Flagged := by
  obtain ⟨sessions, same⟩ := t.returns_spec called c outcome woken
  rw [same]
  exact flagged.of_same rfl (fun _ => rfl) (fun _ => rfl) (fun _ => .inl) fun _ => id

theorem Flagged.report {t : Thread} (flagged : t.Flagged) (called : Who) (c : PollCall)
    (result : Coded) (outer : Option CallState) : (t.report called c result outer).Flagged := by
  obtain ⟨sessions, outcome, ⟨_, _, _, _, same⟩ | ⟨_, _, _, same⟩⟩ :=
    t.report_spec called c result outer <;>
  · rw [same]
    exact flagged.of_same rfl (fun _ => rfl) (fun _ => rfl) (fun _ => .inl) fun _ => id

/-- A frame that holds nothing changes nothing. -/
theorem holding_cons {t : Thread} {frame : Frame} {frames : List Frame} {who : Who}
    (holding : t.isHolding who = true) (stack : t.frames = frame :: frames)
    (idle : frame.holds who = false) : (frames.any fun frame => frame.holds who) = true := by
  unfold isHolding at holding
  rw [stack, List.any_cons, idle, Bool.false_or] at holding
  exact holding

theorem Flagged.enter {t : Thread} (flagged : t.Flagged) (called : Who) (c : PollCall) :
    (t.enter called c).Flagged := by
  obtain ⟨sessions, error, _, same⟩ | ⟨who, _, _, _, same⟩ := t.enter_spec called c
  · rw [same]
    exact flagged.of_same rfl (fun _ => rfl) (fun _ => rfl) (fun _ => .inl) fun _ => id
  · rw [same]
    exact flagged.of_same rfl (fun _ => rfl) (fun _ => rfl) (fun _ => .inl) fun _ => id

theorem Flagged.wakeUp {t : Thread} (flagged : t.Flagged)
    (hooks : ∀ who w, (t.wakeups who).hook = some w → w = who) {who : Who}
    (hooked : (t.wakeups who).hook.isSome = true) : (t.wakeUp who).Flagged := by
  obtain ⟨w, hook⟩ := Option.isSome_iff_exists.mp hooked
  obtain rfl := hooks who w hook
  rw [t.wakeUp_spec hook]
  dsimp only
  cases set : (t.wakeups w).woken with
  | true =>
    -- it was noticed when the flag was set
    rw [if_pos rfl]
    intro v
    rcases flagged v with ⟨woken, count⟩ | rest
    · left
      by_cases same : v = w
      · subst same
        rw [set] at woken
        rw [← woken] at count
        simpa [Flag, Thread.happen, wokenSince, noticesSince] using count
      · have away : ¬ w = v := fun h => same h.symm
        simpa [Flag, Thread.happen, wokenSince, noticesSince, away, same] using And.intro woken count
    · exact .inr rest
  | false =>
    rw [if_neg Bool.false_ne_true]
    obtain ⟨_, _, same⟩ | ⟨_, same⟩ := woke_spec ({ t with
        wakeups := Function.update t.wakeups w ⟨true, some w⟩ }.happen (.wakerCalled w)) w <;>
    · rw [same]
      intro v
      rcases flagged v with ⟨woken, count⟩ | rest
      · left
        by_cases same : v = w
        · subst same
          rw [set] at woken
          rw [← woken] at count
          simpa [Flag, Thread.happen, wokenSince, noticesSince] using count
        · have away : ¬ w = v := fun h => same h.symm
          simpa [Flag, Thread.happen, wokenSince, noticesSince, away, same] using
            And.intro woken count
      · exact .inr rest

/-- A machine is created in the table, and its driver built. -/
theorem Flagged.create {t middle : Thread} {who : Who} (flagged : t.Flagged)
    (created : t.create false = some (who, middle)) : (middle.hook who).Flagged := by
  obtain ⟨_, _, _, _, named, unused, _, rfl⟩ := t.create_spec false created
  refine flagged_hook fun w away => ?_
  rcases flagged w with flag | holds | absent
  · exact .inl flag
  · exact .inr (.inl holds)
  · refine .inr (.inr fun present => absent ?_)
    rcases present with here | here
    · change Function.update t.table.machines who.handle (some who) w.handle = some w at here
      rw [Function.update_apply] at here
      split at here
      · cases here
        exact absurd rfl away
      · exact .inl here
    · exact .inr here

theorem Flagged.free {t : Thread} (flagged : t.Flagged) (handle : Nat) : (t.free handle).Flagged := by
  obtain ⟨middle, fewer, outcome⟩ := t.free_spec handle
  have kept : middle.Flagged := by
    apply flagged.of_same
    · rw [fewer.rest]
    · rw [fewer.rest]
      exact fun _ => rfl
    · rw [fewer.rest]
      exact fun _ => rfl
    · rw [fewer.rest]
      exact fun _ => .inl
    · exact fun who => Or.imp (fewer.machines _ _) (fewer.locals _ _)
  rcases outcome with ⟨code, same⟩ | same <;> rw [same]
  · exact kept.returns _ _ _ _
  · exact kept.of_same rfl (fun _ => rfl) (fun _ => rfl) (fun _ => .inl) fun _ => id

/-- A pinned machine's driver is built, and the machine is in its thread's table from now on. -/
theorem Flagged.built {t : Thread} {who : Who} {frames : List Frame} (flagged : t.Flagged)
    (stack : t.frames = .building who :: frames) : Flagged ({ t with
      frames, locals := Function.update t.locals who.handle (some who) }.hook who) := by
  refine flagged_hook fun w away => ?_
  rcases flagged w with flag | holds | absent
  · exact .inl flag
  · exact .inr (.inl (holding_cons holds stack rfl))
  · refine .inr (.inr fun present => absent ?_)
    rcases present with here | here
    · exact .inl here
    · change Function.update t.locals who.handle (some who) w.handle = some w at here
      rw [Function.update_apply] at here
      split at here
      · cases here
        exact absurd rfl away
      · exact .inr here

/-- A reply was delivered: whatever the machine's flag says, a poll begins at once. -/
theorem Flagged.hold {t : Thread} {called who : Who} {record : Bytes} {outer : Option CallState}
    {frames : List Frame} (flagged : t.Flagged)
    (stack : t.frames = .running called who (.reply record) .entered outer :: frames) :
    Flagged { t with
      wakeups := Function.update t.wakeups who (t.wakeups who).hold
      frames := .running called who (.reply record) .holding outer :: frames } := by
  intro w
  by_cases same : w = who
  · subst same
    right
    left
    simp [isHolding, Frame.holds]
  · rcases flagged w with flag | holds | absent
    · left
      simpa [Flag, same] using flag
    · right
      left
      have rest := holding_cons holds stack rfl
      simp only [isHolding, List.any_cons, rest, Bool.or_true]
    · exact .inr (.inr absent)

/-- A poll begins, and a wake is news again. -/
theorem Flagged.beginPoll {t : Thread} {called who : Who} {c : PollCall} {phase : Phase}
    {outer : Option CallState} {frames : List Frame} (flagged : t.Flagged)
    (stack : t.frames = .running called who c phase outer :: frames) :
    Flagged ({ t with
      wakeups := Function.update t.wakeups who (t.wakeups who).clear
      frames := .running called who c .polling outer :: frames }.happen (.began who)) := by
  intro w
  by_cases same : w = who
  · subst same
    left
    simp [Flag, Thread.happen, wokenSince, noticesSince, Wakeup.clear]
  · have away : ¬ who = w := fun h => same h.symm
    rcases flagged w with flag | holds | absent
    · left
      simpa [Flag, Thread.happen, wokenSince, noticesSince, same, away] using flag
    · right
      left
      have idle : (Frame.running called who c phase outer).holds w = false := by
        cases phase <;> simp [Frame.holds, away]
      have rest := holding_cons holds stack idle
      simp only [isHolding, Thread.happen, List.any_cons, rest, Bool.or_true]
    · exact .inr (.inr absent)

/-- A machine that panicked is held as it was, until it is removed. -/
theorem Flagged.panics {t : Thread} {called who : Who} {c : PollCall} {phase : Phase}
    {outer : Option CallState} {frames : List Frame} (flagged : t.Flagged)
    (stack : t.frames = .running called who c phase outer :: frames) :
    Flagged { t with frames := .dropping called who c phase outer :: frames } := by
  refine flagged.of_same rfl (fun _ => rfl) (fun _ => rfl) (fun w holds => .inl ?_) fun _ => id
  rw [← holds, isHolding, isHolding, stack, List.any_cons, List.any_cons]
  cases phase <;> rfl

/-- A machine that is removed after a panic is gone, whatever its flag. -/
theorem Flagged.dropped {t after : Thread} {called who : Who} {c : PollCall} {phase : Phase}
    {outer : Option CallState} {frames : List Frame} (flagged : t.Flagged) (placed : t.Placed)
    (stack : t.frames = .dropping called who c phase outer :: frames)
    (stepped : t.step .dropped = some after) : after.Flagged := by
  have own : who.handle = called.handle := (placed called.handle who .running
    ⟨_, by rw [stack]; exact List.mem_cons_self, rfl⟩).1
  -- no frame but the one that is gone was this machine's
  have gone : ∀ w, t.isHolding w = true →
      (frames.any fun frame => frame.holds w) = true ∨ w = who := by
    intro w holds
    by_cases same : w = who
    · exact .inr same
    · refine .inl (holding_cons holds stack ?_)
      have away : ¬ who = w := fun h => same h.symm
      cases phase <;> simp [Frame.holds, away]
  simp only [Thread.step, stack] at stepped
  cases stepped
  split
  -- a pinned machine is its thread's only, and no longer
  · next pinned =>
    refine flagged.of_same rfl (fun _ => rfl) (fun _ => rfl) (fun w holds => ?_)
      fun w => Or.imp_right of_update_none
    rcases gone w holds with rest | rfl
    · exact .inl rest
    · refine .inr fun present => ?_
      rcases present with here | here
      · have : w.pinned = false := (placed _ _ .table here).2
        rw [pinned] at this
        cases this
      · change Function.update t.locals called.handle none w.handle = some w at here
        rw [own, Function.update_self] at here
        cases here
  · next migrating =>
    refine flagged.of_same rfl (fun _ => rfl) (fun _ => rfl) (fun w holds => ?_)
      fun w => Or.imp_left of_update_none
    rcases gone w holds with rest | rfl
    · exact .inl rest
    · refine .inr fun present => ?_
      rcases present with here | here
      · change Function.update t.table.machines called.handle none w.handle = some w at here
        rw [own, Function.update_self] at here
        cases here
      · exact migrating (placed _ _ .here here).2

/-- A frame that holds no driver is taken off the stack. -/
theorem Flagged.pop {t : Thread} {frame : Frame} {frames : List Frame} (flagged : t.Flagged)
    (stack : t.frames = frame :: frames) (idle : ∀ who, frame.holds who = false) :
    Flagged { t with frames } :=
  flagged.of_same rfl (fun _ => rfl) (fun _ => rfl)
    (fun who holds => .inl (holding_cons holds stack (idle who))) fun _ => id

/-- A machine that finishes is not holding its flag. -/
theorem Flagged.finished {t : Thread} {called who : Who} {c : PollCall} {phase : Phase}
    {outer : Option CallState} {frames : List Frame} (flagged : t.Flagged)
    (stack : t.frames = .running called who c phase outer :: frames) (begun : phase ≠ .holding)
    (completed : Who → Bool) : Flagged { t with frames, completed } := by
  have idle : ∀ w, (Frame.running called who c phase outer).holds w = false := by
    intro w
    cases phase with
    | holding => exact absurd rfl begun
    | entered => rfl
    | polling => rfl
  exact (flagged.pop stack idle).of_same rfl (fun _ => rfl) (fun _ => rfl) (fun _ => .inl) fun _ => id

theorem Flagged.step {t after : Thread} (flagged : t.Flagged) (placed : t.Placed)
    (hooks : ∀ who w, (t.wakeups who).hook = some w → w = who) {a : Act} (steady : a.unwinds = false)
    (stepped : t.step a = some after) : after.Flagged := by
  cases step_cases stepped with
  | new who made created => exact flagged.create created
  | newPinned who made created =>
    obtain ⟨_, _, _, _, _, _, _, rfl⟩ := t.create_spec true created
    exact flagged.of_same rfl (fun _ => rfl) (fun _ => rfl) (fun _ => .inl) fun _ => id
  | resumes | replies => exact flagged.enter _ _
  | frees handle => exact flagged.free handle
  | wake who hooked => exact flagged.wakeUp hooks hooked
  | records root session table started =>
    obtain ⟨rfl, rfl⟩ := Table.startRecording_spec started
    exact flagged.of_same rfl (fun _ => rfl) (fun _ => rfl) (fun _ => .inl) fun _ => id
  | finishes session log table finished =>
    obtain rfl := congrArg Prod.snd finished
    exact flagged.of_same rfl (fun _ => rfl) (fun _ => rfl) (fun _ => .inl) fun _ => id
  | unopened session table finished =>
    obtain rfl := congrArg Prod.snd finished
    exact flagged.of_same rfl (fun _ => rfl) (fun _ => rfl) (fun _ => .inl) fun _ => id
  | starts | wakes | reissue | stopReissue =>
    exact flagged.of_same rfl (fun _ => rfl) (fun _ => rfl) (fun _ => .inl) fun _ => id
  | built who frames stack => exact (flagged.built stack).enter _ _
  | buildPanicked who frames stack =>
    exact (flagged.pop stack fun _ => rfl).of_same rfl (fun _ => rfl) (fun _ => rfl)
      (fun _ => .inl) fun _ => id
  | abandoned who frames stack =>
    exact (flagged.pop stack fun _ => rfl).of_same rfl (fun _ => rfl) (fun _ => rfl)
      (fun _ => .inl) fun _ => id
  | abandoningPanicked who frames stack => exact flagged.pop stack fun _ => rfl
  | hold called who record outer frames stack => exact flagged.hold stack
  | beginPoll called who c phase outer frames stack => exact flagged.beginPoll stack
  | returns result called who c phase outer frames stack begun =>
    exact (flagged.finished stack begun _).report _ _ _ _
  | leaves result called who c phase outer frames stack begun =>
    exact (flagged.finished stack begun t.completed).of_same rfl (fun _ => rfl) (fun _ => rfl)
      (fun _ => .inl)
      fun _ => id
  | panics called who c phase outer frames stack => exact flagged.panics stack
  | dropped called who c phase outer frames stack => exact flagged.dropped placed stack stepped
  | left called c result outer frames stack => exact (flagged.pop stack fun _ => rfl).report _ _ _ _
  | leavingPanicked | droppingPanicked => cases steady
  | freed called frames stack => exact (flagged.pop stack fun _ => rfl).returns _ _ _ _
  | freeingPanicked called frames stack => exact flagged.pop stack fun _ => rfl

/-- What holds in every state of a thread. -/
structure Sound (t : Thread) : Prop where
  placed : t.Placed
  dated : t.Dated
  hooks : ∀ who w, (t.wakeups who).hook = some w → w = who

theorem sound_new : Sound new := ⟨placed_new, dated_new, nofun⟩

theorem Sound.step {t after : Thread} (sound : t.Sound) {a : Act} (stepped : t.step a = some after) :
    after.Sound :=
  ⟨sound.placed.step stepped, sound.dated.step sound.placed sound.hooks stepped,
    (step_grows sound.hooks stepped).hooks sound.hooks⟩

/-- While no destructor panics as a call ends, a machine's or that of a panic's payload: each
machine to be found is noticed once for each wait, if its waker is called, one not built yet is not,
and every notice is in one place, on its way to the host or with it. The exception is a machine
whose reply was delivered and whose poll has not begun. -/
theorem every_wake_reaches_the_host (acts : List Act) (t : Thread)
    (ran : Transition.run step new acts = some t) (steady : ∀ a ∈ acts, a.unwinds = false) :
    (∀ handle who, t.find handle = .ok who → t.isHolding who = false →
      (noticesSince who t.history).length = if wokenSince who t.history then 1 else 0) ∧
    (∀ handle who, t.table.parked handle = some who →
      noticesSince who t.history = [] ∧ wokenSince who t.history = false) ∧
    t.places.Perm (notices t.history) ∧ t.places.Nodup ∧ Framed t.history := by
  have inv : t.Conserving ∧ t.Sound ∧ t.Flagged := by
    refine Transition.run_invariant_along (fun _ a => a.unwinds = false)
      (fun t => t.Conserving ∧ t.Sound ∧ t.Flagged) ?_
      ⟨conserving_new, sound_new, flagged_new⟩ (Transition.along_of_forall _ steady _) ran
    intro t a next ⟨conserving, sound, flagged⟩ steady stepped
    exact ⟨conserving.step steady stepped, sound.step stepped,
      flagged.step sound.placed sound.hooks steady stepped⟩
  obtain ⟨conserving, ⟨placed, dated, _⟩, flagged⟩ := inv
  refine ⟨fun handle who found released => ?_, fun handle who parked => ?_, conserving.placed, ?_,
    conserving.framed⟩
  · rcases flagged who with flag | holds | absent
    · exact flag.2
    · rw [released] at holds
      cases holds
    · obtain ⟨rfl, present⟩ := placed.find found
      exact absurd present absent
  · have idle := dated.unbuilt who (dated.parked handle who parked).1
    exact ⟨idle.unnoticed, idle.quiet⟩
  · exact conserving.placed.nodup_iff.mpr (.of_map _ conserving.numbered.1)

/-- The first machine to carry a handle. -/
def first (handle : Nat) : Who := ⟨handle, 1, false⟩

/-- A machine woken during another's poll is in that poll's output. -/
theorem every_wake_reaches_the_host_woken :
    ∃ t, Transition.run step new [.new, .new, .resume 1, .beginPoll, .wake (first 2),
        .finish (.ok ([], .idle))] = some t ∧
      t.places.Perm [⟨0, first 2⟩] ∧ Framed t.history ∧
      (noticesSince (first 2) t.history).length = if wokenSince (first 2) t.history then 1 else 0 := by
  refine ⟨_, rfl, ?_⟩
  obtain ⟨once, _, placed, _, framed⟩ := every_wake_reaches_the_host
    [.new, .new, .resume 1, .beginPoll, .wake (first 2), .finish (.ok ([], .idle))] _ rfl (by decide)
  exact ⟨placed, framed, once 2 (first 2) rfl rfl⟩

/-- A machine wakes another and panics, and one of its destructors panics too, or that of the
panic's payload: the notice is nowhere, with no call running. -/
theorem wake_lost_unwinding :
    (∃ t, Transition.run step new [.new, .new, .resume 1, .beginPoll, .wake (first 2), .panics,
        .dropped, .leavingPanicked, .wakes] = some t ∧
      t.frames = [] ∧ t.find 2 = .ok (first 2) ∧ wokenSince (first 2) t.history = true ∧
      notices t.history = [⟨0, first 2⟩] ∧ t.places = [] ∧
      ¬ t.places.Perm (notices t.history)) ∧
    ∃ t, Transition.run step new [.new, .new, .resume 1, .beginPoll, .wake (first 2), .panics,
        .droppingPanicked true, .wakes] = some t ∧
      t.frames = [] ∧ t.find 2 = .ok (first 2) ∧ wokenSince (first 2) t.history = true ∧
      notices t.history = [⟨0, first 2⟩] ∧ t.places = [] ∧ ¬ t.places.Perm (notices t.history) := by
  constructor
  all_goals
    refine ⟨_, rfl, rfl, rfl, rfl, rfl, rfl, fun placed => ?_⟩
    cases placed.length_eq

end SansEffort.Thread
