import SansEffort.Roster

/-!
# The rest of the table

What a thread does with machines of its own while it makes no call of a session, machines it
creates and frees and calls it makes on them, leaves the session's machines as they are.
-/

namespace SansEffort.Thread

/-- A step that is not about a session's machines. -/
def Apart (t : Thread) (session : Nat) (handles : List Nat) : Act → Prop
  | .resume handle => handle ∉ handles
  | .reply handle _ => handle ∉ handles
  | .free handle => handle ∉ handles
  | .wake who => ∀ handle ∈ handles, t.issued handle ≠ who
  | .new => ∀ who after, t.make false = some (who, after) → who.handle ∉ handles
  | .newPinned => ∀ who after, t.make true = some (who, after) → who.handle ∉ handles
  | .finishRecording s => s ≠ session
  | _ => True

/-- The handles of a running machine's frame, with those of what `CALL` was before. -/
theorem running_apart {called who : Who} {c : PollCall} {phase : Phase} {outer : Option CallState}
    {handles : List Nat} :
    (∀ handle ∈ (Frame.running called who c phase outer).handles, handle ∉ handles) ↔
      called.handle ∉ handles ∧ who.handle ∉ handles ∧
        ∀ call, outer = some call → call.handle ∉ handles := by
  cases outer <;> simp [Frame.handles]

/-- The frame of the destructor of a panic's payload has the same handles. -/
theorem dropping_apart {called who : Who} {c : PollCall} {phase : Phase} {outer : Option CallState}
    {handles : List Nat} :
    (∀ handle ∈ (Frame.dropping called who c phase outer).handles, handle ∉ handles) ↔
      called.handle ∉ handles ∧ who.handle ∉ handles ∧
        ∀ call, outer = some call → call.handle ∉ handles := by
  cases outer <;> simp [Frame.handles]

theorem leaving_apart {called : Who} {c : PollCall} {result : Coded} {outer : Option CallState}
    {handles : List Nat} :
    (∀ handle ∈ (Frame.leaving called c result outer).handles, handle ∉ handles) ↔
      called.handle ∉ handles ∧ ∀ call, outer = some call → call.handle ∉ handles := by
  cases outer <;> simp [Frame.handles]

section

variable {session : Nat} {t after : Thread} {r : Roster}

theorem Shows.away (shows : Shows session t r) (idle : r.top = none) : t.Away r.handles := by
  have top := shows.top
  rwa [idle] at top

/-- A machine apart is none of the session's. -/
theorem Shows.other (shows : Shows session t r) {who : Who} (apart : who.handle ∉ r.handles) :
    ∀ handle ∈ r.handles, t.issued handle ≠ who := by
  rintro handle member rfl
  rw [shows.issued] at apart
  exact apart member

theorem Shows.untapped (shows : Shows session t r) {handle : Nat} (apart : handle ∉ r.handles) :
    Table.tapsIn (t.table.recorded handle) session = [] :=
  (shows.taps handle).trans (if_neg apart)

/-- The session's machines and its log are as they were. -/
theorem Shows.aside (shows : Shows session t r) (idle : r.top = none)
    (issued : ∀ handle, (after.issued handle).handle = handle)
    (same : ∀ handle ∈ r.handles, t.SameAt after handle)
    (log : after.table.sessions session = t.table.sessions session)
    (taps : ∀ handle, Table.tapsIn (after.table.recorded handle) session =
      Table.tapsIn (t.table.recorded handle) session)
    (away : after.Away r.handles) : Shows session after r := by
  constructor
  · constructor
    · exact issued
    · rw [log, shows.log]
    · intro handle
      rw [taps, shows.taps]
    · exact fun handle member => (shows.parts handle member).of_same (same handle member)
  · rw [idle]
    exact away
  · exact shows.own
  · exact shows.settled

/-- The thread still shows the roster if only machines apart have changed. -/
theorem Shows.kept (shows : Shows session t r) (idle : r.top = none)
    (same : ∀ handle ∈ r.handles, t.SameAt after handle)
    (sessions : after.table.sessions = t.table.sessions)
    (recorded : after.table.recorded = t.table.recorded) (issued : after.issued = t.issued)
    (away : after.Away r.handles) : Shows session after r := by
  apply shows.aside idle
  · rw [issued]
    exact shows.issued
  · exact same
  · rw [sessions]
  · intro handle
    rw [recorded]
  · exact away

/-- Calls that are not of the session begin and end. -/
theorem Shows.stacked (shows : Shows session t r) (idle : r.top = none) {frames : List Frame}
    {call : Option CallState} (wakes : List Notice)
    (away : ∀ frame ∈ frames, ∀ handle ∈ frame.handles, handle ∉ r.handles)
    (current : ∀ c, call = some c → c.handle ∉ r.handles) :
    Shows session { t with frames, call, wakes } r :=
  shows.kept idle (fun _ _ => ⟨rfl, rfl, rfl, rfl, rfl, rfl, rfl, rfl⟩) rfl rfl rfl ⟨away, current⟩

theorem Shows.returns_aside (shows : Shows session t r) (idle : r.top = none) (counted : t.Counted)
    {called : Who} (apart : called.handle ∉ r.handles) (c : AnyCall) (outcome : Record.Outcome)
    (woken : List Notice) : Shows session (t.returns called c outcome woken) r := by
  obtain ⟨sessions, same, logged⟩ := counted.returns_spec called c outcome woken
  rw [same]
  have away := shows.away idle
  refine shows.aside idle shows.issued (fun _ _ => ⟨rfl, rfl, rfl, rfl, rfl, rfl, rfl, rfl⟩) ?_
    (fun _ => rfl) ⟨away.frames, away.call⟩
  show sessions session = _
  rw [logged, shows.untapped apart, shows.log]
  simp

theorem Shows.report_aside (shows : Shows session t r) (idle : r.top = none) (counted : t.Counted)
    {called : Who} (apart : called.handle ∉ r.handles) (c : PollCall) (result : Coded)
    {outer : Option CallState} (away : ∀ call, outer = some call → call.handle ∉ r.handles) :
    Shows session (t.report called c result outer) r := by
  have left : ∀ wakes, Shows session { t with call := outer, wakes } r := by
    intro wakes
    exact shows.stacked idle wakes (shows.away idle).frames away
  have uncounted : ∀ wakes, Counted { t with call := outer, wakes } := by
    intro wakes
    exact counted.of_same rfl rfl rfl rfl
  cases result with
  | ok reply => exact (left t.wakes).returns_aside idle (uncounted _) apart _ _ _
  | error error => exact (left _).returns_aside idle (uncounted _) apart _ _ _

theorem Shows.enter_aside (shows : Shows session t r) (idle : r.top = none) (counted : t.Counted)
    (own : ∀ handle who, t.find handle = .ok who → who.handle = handle) {called : Who}
    (apart : called.handle ∉ r.handles) (c : PollCall) : Shows session (t.enter called c) r := by
  have away := shows.away idle
  have begun : Shows session { t with call := some ⟨called.handle, []⟩ } r := by
    refine shows.stacked idle t.wakes away.frames ?_
    intro call here
    cases here
    exact apart
  have uncounted : Counted { t with call := some ⟨called.handle, []⟩ } :=
    counted.of_same rfl rfl rfl rfl
  unfold Thread.enter
  dsimp only
  split
  · exact begun.report_aside idle uncounted apart c _ away.call
  · next who found =>
    split
    · exact begun.report_aside idle uncounted apart c _ away.call
    split
    · exact begun.report_aside idle uncounted apart c _ away.call
    · have named : who.handle = called.handle := own _ _ found
      refine begun.stacked idle t.wakes (List.forall_mem_cons.mpr ⟨running_apart.mpr ?_, away.frames⟩)
        (begun.away idle).call
      exact ⟨apart, by rwa [named], away.call⟩

theorem Shows.free_aside (shows : Shows session t r) (idle : r.top = none) (counted : t.Counted)
    {handle : Nat} (apart : handle ∉ r.handles) : Shows session (t.free handle) r := by
  have away := shows.away idle
  have other : ∀ other ∈ r.handles, other ≠ handle := by
    rintro other member rfl
    exact apart member
  have named : (t.issued handle).handle ∉ r.handles := by
    rwa [shows.issued]
  -- whether or not there is something to drop
  have freeing : ∀ {middle : Thread}, Shows session middle r → middle.Counted →
      Shows session (middle.returns (t.issued handle) .free ⟨Contract.ok, []⟩ []) r ∧
        Shows session { middle with frames := .freeing (t.issued handle) :: middle.frames } r := by
    intro middle shown counted
    refine ⟨shown.returns_aside idle counted named _ _ _, ?_⟩
    refine shown.stacked idle middle.wakes (List.forall_mem_cons.mpr ⟨?_, (shown.away idle).frames⟩)
      (shown.away idle).call
    intro h member
    obtain rfl := List.mem_singleton.mp member
    exact named
  unfold Thread.free
  dsimp only
  split
  · obtain ⟨returned, dropping⟩ := @freeing { t with table := { t.table with
        machines := Function.update t.table.machines handle none
        parked := Function.update t.table.parked handle none } }
      (shows.kept idle (fun h member => ⟨rfl, Function.update_of_ne (other h member) _ _,
        Function.update_of_ne (other h member) _ _, rfl, rfl, rfl, rfl, rfl⟩) rfl rfl rfl
        ⟨away.frames, away.call⟩) (counted.of_same rfl rfl rfl rfl)
    split
    · exact returned
    · exact dropping
  · split
    · obtain ⟨returned, dropping⟩ := @freeing { t with
          table := { t.table with pinned := Function.update t.table.pinned handle false }
          locals := Function.update t.locals handle none }
        (shows.kept idle (fun h member => ⟨rfl, rfl, rfl, Function.update_of_ne (other h member) _ _,
          Function.update_of_ne (other h member) _ _, rfl, rfl, rfl⟩) rfl rfl rfl
          ⟨away.frames, away.call⟩) (counted.of_same rfl rfl rfl rfl)
      split
      · split
        · exact returned
        · exact dropping
      · exact returned
    · exact shows.returns_aside idle counted named _ _ _

/-- The thread still shows the roster when a frame apart is taken off its stack. -/
theorem Shows.pop (shows : Shows session t r) (idle : r.top = none) {frame : Frame}
    {frames : List Frame} (stack : t.frames = frame :: frames) :
    (∀ handle ∈ frame.handles, handle ∉ r.handles) ∧ Shows session { t with frames } r := by
  have away := shows.away idle
  obtain ⟨apart, rest⟩ := List.forall_mem_cons.mp (stack ▸ away.frames)
  exact ⟨apart, shows.stacked idle t.wakes rest away.call⟩

theorem Shows.make_aside (shows : Shows session t r) (idle : r.top = none) (sound : t.Sound)
    {pinned : Bool} {who : Who} (made : t.make pinned = some (who, after))
    (apart : who.handle ∉ r.handles) : Shows session after r := by
  have away := shows.away idle
  have makes := make_makes sound made
  obtain ⟨⟨w, middle⟩, created, same⟩ := Option.map_eq_some_iff.mp made
  obtain ⟨rfl, rfl⟩ := Prod.mk.inj same
  obtain ⟨log, taps⟩ := t.create_sessions pinned created session
  -- the call that creates it, if any, is not of the session
  have unjoined : Table.tapsIn (t.table.callTaps (t.call.map CallState.handle)) session = [] := by
    cases current : t.call with
    | none => rfl
    | some call => exact shows.untapped (away.call call current)
  have table : (if pinned then middle else middle.hook w).table = middle.table := by
    cases pinned <;> rfl
  refine shows.aside idle (fun handle => ?_) (fun handle member => makes.others handle ?_) ?_
    (fun handle => ?_) ⟨by rw [makes.frames]; exact away.frames, by rw [makes.call]; exact away.call⟩
  · rw [makes.issued, Function.update_apply]
    split
    · next own => exact own.symm
    · exact shows.issued handle
  · rintro rfl
    exact apart member
  · rw [table, log, unjoined, shows.log]
    simp
  · rw [table, taps, unjoined, shows.log]
    simp

theorem Shows.wake_aside (shows : Shows session t r) (idle : r.top = none) {who : Who}
    (hook : (t.wakeups who).hook = some who) (apart : ∀ handle ∈ r.handles, t.issued handle ≠ who) :
    Shows session (t.wakeUp who) r := by
  have away := shows.away idle
  have called : Shows session ({ t with
      wakeups := Function.update t.wakeups who ⟨true, some who⟩ }.happen (.wakerCalled who)) r := by
    refine shows.kept idle (fun handle member => ?_) rfl rfl rfl ⟨away.frames, away.call⟩
    exact ⟨rfl, rfl, rfl, rfl, rfl, Function.update_of_ne (apart handle member) _ _, rfl, rfl⟩
  rw [t.wakeUp_spec hook]
  dsimp only
  split
  · exact called
  · obtain ⟨call, current, same⟩ | ⟨_, same⟩ := woke_spec ({ t with
        wakeups := Function.update t.wakeups who ⟨true, some who⟩ }.happen (.wakerCalled who)) who <;>
      rw [same]
    · refine called.kept idle (fun _ _ => ⟨rfl, rfl, rfl, rfl, rfl, rfl, rfl, rfl⟩) rfl rfl rfl
        ⟨away.frames, ?_⟩
      intro call' here
      cases here
      exact away.call call current
    · exact called.kept idle (fun _ _ => ⟨rfl, rfl, rfl, rfl, rfl, rfl, rfl, rfl⟩) rfl rfl rfl
        ⟨away.frames, away.call⟩

/-- Another session is opened. -/
theorem Shows.record_aside (shows : Shows session t r) (idle : r.top = none)
    (opened : session < t.table.nextSession) {root : Nat}
    (stepped : t.step (.record root) = some after) : Shows session after r := by
  have away := shows.away idle
  cases step_cases stepped with
  | records root s table started =>
    obtain ⟨rfl, rfl⟩ := Table.startRecording_spec started
    have later : session ≠ t.table.nextSession := Nat.ne_of_lt opened
    refine shows.aside idle shows.issued (fun _ _ => ⟨rfl, rfl, rfl, rfl, rfl, rfl, rfl, rfl⟩)
      (Function.update_of_ne later _ _) (fun handle => ?_) ⟨away.frames, away.call⟩
    show Table.tapsIn (Function.update t.table.recorded root _ handle) session = _
    by_cases same : handle = root
    · rw [same, Function.update_self, Table.tapsIn_append]
      simp [Table.tapsIn, Ne.symm later]
    · rw [Function.update_of_ne same]

/-- Another session is finished: its taps are taken off, and the others stay. -/
theorem Shows.finishRecording_aside (shows : Shows session t r) (idle : r.top = none) {s : Nat}
    (apart : s ≠ session) (stepped : t.step (.finishRecording s) = some after) :
    Shows session after r := by
  have away := shows.away idle
  have taps : ∀ handle, Table.tapsIn ((t.table.recorded handle).filter (·.session ≠ s)) session =
      Table.tapsIn (t.table.recorded handle) session := by
    intro handle
    rw [Table.tapsIn, Table.tapsIn, List.filter_filter]
    refine List.filter_congr fun tap _ => ?_
    by_cases here : tap.session = session <;> simp [here, Ne.symm apart]
  cases step_cases stepped with
  | finishes _ log table finished =>
    obtain rfl := congrArg Prod.snd finished
    exact shows.aside idle shows.issued (fun _ _ => ⟨rfl, rfl, rfl, rfl, rfl, rfl, rfl, rfl⟩)
      (Function.update_of_ne (Ne.symm apart) _ _) taps ⟨away.frames, away.call⟩
  | unopened _ table finished =>
    obtain rfl := congrArg Prod.snd finished
    exact shows.aside idle shows.issued (fun _ _ => ⟨rfl, rfl, rfl, rfl, rfl, rfl, rfl, rfl⟩)
      (Function.update_of_ne (Ne.symm apart) _ _) taps ⟨away.frames, away.call⟩

theorem Shows.built_aside (shows : Shows session t r) (idle : r.top = none) (sound : t.Sound)
    (counted : t.Counted) (stepped : t.step .built = some after) : Shows session after r := by
  have away := shows.away idle
  cases step_cases stepped with
  | built who frames stack =>
    obtain ⟨named, popped⟩ := shows.pop idle stack
    have unnamed : who.handle ∉ r.handles := named _ List.mem_cons_self
    have built : Shows session { t.hook who with
        frames, locals := Function.update t.locals who.handle (some who) } r := by
      refine popped.kept idle (fun handle member => ⟨rfl, rfl, rfl, rfl,
        Function.update_of_ne ?_ _ _, Function.update_of_ne (shows.other unnamed handle member) _ _,
        rfl, rfl⟩) rfl rfl rfl ⟨(popped.away idle).frames, away.call⟩
      rintro rfl
      exact unnamed member
    refine built.enter_aside idle (counted.of_same rfl rfl rfl rfl) (fun handle w found => ?_)
      unnamed _
    rcases find_at found with there | there
    · exact (sound.placed handle w .table there).1
    · change Function.update t.locals who.handle (some who) handle = some w at there
      rw [Function.update_apply] at there
      split at there
      · next same =>
        cases there
        exact same.symm
      · exact (sound.placed handle w .here there).1

theorem Shows.finish_aside (shows : Shows session t r) (idle : r.top = none) (counted : t.Counted)
    {result : Coded} (stepped : t.step (.finish result) = some after) :
    Shows session after r := by
  have away := shows.away idle
  -- the poll is over, and its frame is gone
  have ended : ∀ {called who : Who} {c : PollCall} {phase : Phase} {outer : Option CallState}
      {frames : List Frame}, t.frames = .running called who c phase outer :: frames →
      Shows session { t with
        completed := Function.update t.completed who (t.completed who || completes phase result)
        frames } r := by
    intro called who c phase outer frames stack
    obtain ⟨named, popped⟩ := shows.pop idle stack
    obtain ⟨_, other, _⟩ := running_apart.mp named
    exact popped.kept idle (fun handle member => ⟨rfl, rfl, rfl, rfl, rfl, rfl,
      Function.update_of_ne (shows.other other handle member) _ _, rfl⟩) rfl rfl rfl
      ⟨(popped.away idle).frames, away.call⟩
  cases step_cases stepped with
  | returns _ called who c phase outer frames stack =>
    obtain ⟨unnamed, _, outside⟩ := running_apart.mp (shows.pop idle stack).1
    exact (ended stack).report_aside idle (counted.of_same rfl rfl rfl rfl) unnamed c result outside
  | leaves _ called who c phase outer frames stack =>
    obtain ⟨named, popped⟩ := shows.pop idle stack
    obtain ⟨unnamed, _, outside⟩ := running_apart.mp named
    exact (ended stack).stacked idle t.wakes (List.forall_mem_cons.mpr
      ⟨leaving_apart.mpr ⟨unnamed, outside⟩, (popped.away idle).frames⟩) away.call

/-- The machine whose code panicked is removed, and it is none of the roster's. -/
theorem Shows.dropped_aside (shows : Shows session t r) (idle : r.top = none)
    (stepped : t.step .dropped = some after) : Shows session after r := by
  have away := shows.away idle
  cases step_cases stepped with
  | dropped called who c phase outer frames stack =>
    obtain ⟨named, popped⟩ := shows.pop idle stack
    obtain ⟨unnamed, _, outside⟩ := dropping_apart.mp named
    have other : ∀ handle ∈ r.handles, handle ≠ called.handle := by
      rintro handle member rfl
      exact unnamed member
    have ends : ∀ frame ∈ Frame.leaving called c (.error .panicked) outer :: frames,
        ∀ handle ∈ frame.handles, handle ∉ r.handles := List.forall_mem_cons.mpr
      ⟨leaving_apart.mpr ⟨unnamed, outside⟩, (popped.away idle).frames⟩
    split
    · exact shows.kept idle (fun handle member => ⟨rfl, rfl, rfl,
        Function.update_of_ne (other handle member) _ _,
        Function.update_of_ne (other handle member) _ _, rfl, rfl, rfl⟩) rfl rfl rfl
        ⟨ends, away.call⟩
    · exact shows.kept idle (fun handle member => ⟨rfl,
        Function.update_of_ne (other handle member) _ _, rfl, rfl, rfl, rfl, rfl, rfl⟩) rfl rfl rfl
        ⟨ends, away.call⟩

/-- A step apart leaves the roster as it is. -/
theorem Shows.step_aside (shows : Shows session t r) (idle : r.top = none) (sound : t.Sound)
    (counted : t.Counted) {a : Act} (apart : t.Apart session r.handles a)
    (stepped : t.step a = some after) : Shows session after r := by
  have away := shows.away idle
  have own : ∀ handle who, t.find handle = .ok who → who.handle = handle :=
    fun handle who found => (sound.placed.find found).1
  have opened : session < t.table.nextSession := counted.fresh session (by rw [shows.log]; rfl)
  cases step_cases stepped with
  | new who middle created =>
    have here : t.make false = some (who, middle.hook who) := by
      rw [Thread.make, created]
      rfl
    exact shows.make_aside idle sound here (apart who _ here)
  | newPinned who middle created =>
    have here : t.make true = some (who, after) := by
      rw [Thread.make, created]
      rfl
    exact shows.make_aside idle sound here (apart who _ here)
  | records => exact shows.record_aside idle opened stepped
  | finishes | unopened => exact shows.finishRecording_aside idle apart stepped
  | starts handle who parked =>
    have other : ∀ h ∈ r.handles, h ≠ handle := by
      rintro h member rfl
      exact apart member
    have named : who.handle = handle := (sound.placed handle who .parked parked).1
    refine shows.kept idle (fun h member => ⟨rfl, rfl, Function.update_of_ne (other h member) _ _,
      Function.update_of_ne (other h member) _ _, rfl, rfl, rfl, rfl⟩) rfl rfl rfl
      ⟨List.forall_mem_cons.mpr ⟨?_, away.frames⟩, away.call⟩
    intro h member
    obtain rfl := List.mem_singleton.mp member
    rwa [named]
  | resumes | replies => exact shows.enter_aside idle counted own (by rwa [shows.issued]) _
  | frees => exact shows.free_aside idle counted apart
  | wake who hooked =>
    obtain ⟨w, hook⟩ := Option.isSome_iff_exists.mp hooked
    obtain rfl := sound.hooks who w hook
    exact shows.wake_aside idle hook apart
  | built => exact shows.built_aside idle sound counted stepped
  | buildPanicked who frames stack =>
    obtain ⟨named, popped⟩ := shows.pop idle stack
    have unnamed : who.handle ∉ r.handles := named _ List.mem_cons_self
    refine shows.kept idle (fun handle member => ⟨rfl, rfl, rfl, Function.update_of_ne ?_ _ _, rfl,
      rfl, rfl, rfl⟩) rfl rfl rfl
      ⟨List.forall_mem_cons.mpr ⟨named, (popped.away idle).frames⟩, away.call⟩
    rintro rfl
    exact unnamed member
  -- the frame on top is another machine's, and stays so
  | hold called who record outer frames stack =>
    obtain ⟨named, popped⟩ := shows.pop idle stack
    obtain ⟨_, unnamed, _⟩ := running_apart.mp named
    refine shows.kept idle (fun handle member => ⟨rfl, rfl, rfl, rfl, rfl,
      Function.update_of_ne (shows.other unnamed handle member) _ _, rfl, rfl⟩) rfl rfl rfl
      ⟨List.forall_mem_cons.mpr ⟨named, (popped.away idle).frames⟩, away.call⟩
  | beginPoll called who c phase outer frames stack =>
    obtain ⟨named, popped⟩ := shows.pop idle stack
    obtain ⟨_, unnamed, _⟩ := running_apart.mp named
    refine shows.kept idle (fun handle member => ⟨rfl, rfl, rfl, rfl, rfl,
      Function.update_of_ne (shows.other unnamed handle member) _ _, rfl, rfl⟩) rfl rfl rfl
      ⟨List.forall_mem_cons.mpr ⟨named, (popped.away idle).frames⟩, away.call⟩
  | returns | leaves => exact shows.finish_aside idle counted stepped
  | panics called who c phase outer frames stack =>
    obtain ⟨named, popped⟩ := shows.pop idle stack
    exact shows.stacked idle t.wakes (List.forall_mem_cons.mpr
      ⟨dropping_apart.mpr (running_apart.mp named), (popped.away idle).frames⟩) away.call
  | dropped => exact shows.dropped_aside idle stepped
  | droppingPanicked poisons called who c phase outer frames stack =>
    obtain ⟨named, popped⟩ := shows.pop idle stack
    obtain ⟨_, unnamed, _⟩ := dropping_apart.mp named
    exact popped.kept idle (fun handle member => ⟨rfl, rfl, rfl, rfl, rfl, rfl, rfl,
      Function.update_of_ne (shows.other unnamed handle member) _ _⟩) rfl rfl rfl
      ⟨(popped.away idle).frames, away.call⟩
  | abandoned who frames stack =>
    have popped := (shows.pop idle stack).2
    exact popped.kept idle (fun _ _ => ⟨rfl, rfl, rfl, rfl, rfl, rfl, rfl, rfl⟩) rfl rfl rfl
      ⟨(popped.away idle).frames, away.call⟩
  | abandoningPanicked who frames stack => exact (shows.pop idle stack).2
  | left called c result outer frames stack =>
    obtain ⟨named, popped⟩ := shows.pop idle stack
    obtain ⟨unnamed, outside⟩ := leaving_apart.mp named
    exact popped.report_aside idle (counted.of_same rfl rfl rfl rfl) unnamed c result outside
  | leavingPanicked called c result outer frames stack => exact (shows.pop idle stack).2
  | freed called frames stack =>
    obtain ⟨named, popped⟩ := shows.pop idle stack
    exact popped.returns_aside idle (counted.of_same rfl rfl rfl rfl) (named _ List.mem_cons_self)
      _ _ _
  | freeingPanicked called frames stack => exact (shows.pop idle stack).2
  | wakes | reissue | stopReissue =>
    exact shows.kept idle (fun _ _ => ⟨rfl, rfl, rfl, rfl, rfl, rfl, rfl, rfl⟩) rfl rfl rfl
      ⟨away.frames, away.call⟩

end

end SansEffort.Thread
