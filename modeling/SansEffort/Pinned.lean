import SansEffort.Wakes

/-!
# Building a pinned machine

The first `resume` of a parked machine runs its constructor before it sets `CALL`. The wakes of
the constructor are not this call's, and the machines it creates join the sessions of the call
outside, if there is one.
-/

namespace SansEffort

/-- What a constructor does before it returns: wake machines, and create them. -/
def Act.constructs : Act → Bool
  | .wake _ => true
  | .new => true
  | .newPinned => true
  | _ => false

def Act.creates : Act → Bool
  | .new => true
  | .newPinned => true
  | _ => false

namespace Thread

/-- What happened between two states of a run. -/
def since (before after : Thread) : List Happening :=
  after.history.take (after.history.length - before.history.length)

theorem since_eq {before after : Thread} {events : List Happening}
    (grown : after.history = events ++ before.history) : since before after = events := by
  simp [since, grown]

theorem notices_append (left right : List Happening) :
    notices (left ++ right) = notices left ++ notices right := by
  induction left with
  | nil => rfl
  | cons h left ih => cases h <;> simp [notices, ih]

/-- The machines created. -/
def creations : List Happening → List Who
  | [] => []
  | .created who _ :: history => who :: creations history
  | _ :: history => creations history

theorem creations_append (left right : List Happening) :
    creations (left ++ right) = creations left ++ creations right := by
  induction left with
  | nil => rfl
  | cons h left ih => cases h <;> simp [creations, ih]

/-- The session is open, and records the handle. -/
def Records (t : Thread) (handle session : Nat) : Prop :=
  (t.table.sessions session).isSome = true ∧ Table.tapsIn (t.table.recorded handle) session ≠ []

/-- The session records the machine of the call that the thread is making. -/
def CallRecords (t : Thread) (session : Nat) : Prop :=
  (t.table.sessions session).isSome = true ∧
    Table.tapsIn (t.table.callTaps (t.call.map CallState.handle)) session ≠ []

/-- The machine's handle was added to the session's log, and its calls will be logged. -/
def Joined (before after : Thread) (child : Who) (session : Nat) : Prop :=
  ∃ log later, before.table.sessions session = some log ∧
    after.table.sessions session = some later ∧
    child.handle ∈ later.handles.drop log.handles.length ∧
    Table.tapsIn (after.table.recorded child.handle) session ≠ []

/-- The act, if it is a wake, is of a machine noticed already. -/
def Quiet (t : Thread) (a : Act) : Prop := ∀ who, a = .wake who → (t.wakeups who).woken = true

/-! ### What a constructor does -/

/-- `after` is `before` with a constructor's acts done. -/
structure Constructs (before after : Thread) (events : List Happening) : Prop where
  history : after.history = events ++ before.history
  frames : after.frames = before.frames
  call : after.call.map CallState.handle = before.call.map CallState.handle
  serials : ∀ n ∈ notices events, n.serial < (notices after.history).length
  opened : ∀ session, after.CallRecords session ↔ before.CallRecords session
  left : ∀ session, ¬ before.CallRecords session →
    after.table.sessions session = before.table.sessions session
  joined : ∀ session, before.CallRecords session → ∃ log extra,
    before.table.sessions session = some log ∧
    after.table.sessions session = some { log with handles := log.handles ++ extra } ∧
    ∀ child ∈ creations events, child.handle ∈ extra ∧
      Table.tapsIn (after.table.recorded child.handle) session ≠ []
  taps : ∀ handle session, Table.tapsIn (before.table.recorded handle) session ≠ [] →
    Table.tapsIn (after.table.recorded handle) session ≠ []

/-- The table is left alone. -/
theorem Constructs.of_same {before after : Thread} (events : List Happening)
    (history : after.history = events ++ before.history) (frames : after.frames = before.frames)
    (call : after.call.map CallState.handle = before.call.map CallState.handle)
    (table : after.table = before.table) (childless : creations events = [])
    (serials : ∀ n ∈ notices events, n.serial = (notices before.history).length) :
    Constructs before after events := by
  have opened : ∀ session, after.CallRecords session ↔ before.CallRecords session := by
    intro session
    unfold CallRecords
    rw [table, call]
  refine ⟨history, frames, call, fun n member => ?_, opened, fun _ _ => by rw [table],
    fun session records => ?_, fun _ _ => by rw [table]; exact id⟩
  · rw [history, notices_append, List.length_append, serials n member]
    exact Nat.lt_add_of_pos_left (List.length_pos_of_mem member)
  · obtain ⟨log, present⟩ := Option.isSome_iff_exists.mp records.1
    refine ⟨log, [], present, by rw [table, present, List.append_nil], fun child member => ?_⟩
    rw [childless] at member
    cases member

theorem Constructs.trans {before middle after : Thread} {early late : List Happening}
    (first : Constructs before middle early) (second : Constructs middle after late) :
    Constructs before after (late ++ early) := by
  refine ⟨?_, second.frames.trans first.frames, second.call.trans first.call, fun n member => ?_,
    fun session => (second.opened session).trans (first.opened session), fun session absent => ?_,
    fun session records => ?_, fun handle session => second.taps _ _ ∘ first.taps _ _⟩
  · rw [second.history, first.history, List.append_assoc]
  · rw [notices_append, List.mem_append] at member
    rcases member with member | member
    · exact second.serials n member
    · have below := first.serials n member
      rw [second.history, notices_append, List.length_append]
      exact below.trans_le (Nat.le_add_left _ _)
  · rw [second.left session fun here => absent ((first.opened session).mp here),
      first.left session absent]
  · obtain ⟨log, extra, present, grown, joined⟩ := first.joined session records
    obtain ⟨log', extra', present', grown', joined'⟩ :=
      second.joined session ((first.opened session).mpr records)
    rw [grown] at present'
    cases present'
    refine ⟨log, extra ++ extra', present, ?_, fun child member => ?_⟩
    · rw [grown', List.append_assoc]
    · rw [creations_append, List.mem_append] at member
      rcases member with member | member
      · obtain ⟨inside, tapped⟩ := joined' child member
        exact ⟨List.mem_append_right _ inside, tapped⟩
      · obtain ⟨inside, tapped⟩ := joined child member
        exact ⟨List.mem_append_left _ inside, second.taps _ _ tapped⟩

theorem constructs_create {t after : Thread} {pinned : Bool} {who : Who}
    (created : t.create pinned = some (who, after)) :
    Constructs t after [.created who t.caller] := by
  have logs := t.create_sessions pinned created
  have same : after.history = .created who t.caller :: t.history ∧ after.frames = t.frames ∧
      after.call = t.call := by
    obtain ⟨_, _, _, _, _, _, _, rfl⟩ := t.create_spec pinned created
    exact ⟨rfl, rfl, rfl⟩
  obtain ⟨history, frames, call⟩ := same
  have present : ∀ session, (after.table.sessions session).isSome =
      (t.table.sessions session).isSome := fun session => by
    rw [(logs session).1, Option.isSome_map]
  have taps : ∀ handle session, Table.tapsIn (t.table.recorded handle) session ≠ [] →
      Table.tapsIn (after.table.recorded handle) session ≠ [] := by
    intro handle session tapped untapped
    rw [(logs session).2 handle] at untapped
    exact tapped (List.append_eq_nil_iff.mp untapped).1
  refine ⟨history, frames, by rw [call], nofun, fun session => ?_, fun session absent => ?_,
    fun session records => ?_, taps⟩
  · unfold CallRecords
    rw [present, call]
    refine and_congr_right fun opened => not_congr ?_
    cases current : t.call with
    | none => exact Iff.rfl
    | some current =>
      simp only [Option.map_some, Table.callTaps]
      rw [(logs session).2, current, List.append_eq_nil_iff, and_iff_left_of_imp]
      intro untapped
      -- a child that takes the handle of the call itself gets the like of its taps
      split
      · cases t.table.sessions session with
        | none => rfl
        | some log => simp [Table.callTaps, untapped]
      · rfl
  · rw [(logs session).1]
    cases closed : t.table.sessions session with
    | none => rfl
    | some log =>
      have untapped : Table.tapsIn (t.table.callTaps (t.call.map CallState.handle)) session = [] := by
        by_contra tapped
        exact absent ⟨by rw [closed]; rfl, tapped⟩
      simp [untapped]
  · obtain ⟨log, opened⟩ := Option.isSome_iff_exists.mp records.1
    obtain ⟨n, more⟩ : ∃ n,
        (Table.tapsIn (t.table.callTaps (t.call.map CallState.handle)) session).length = n + 1 :=
      Nat.exists_eq_succ_of_ne_zero fun empty => records.2 (List.length_eq_zero_iff.mp empty)
    refine ⟨log, _, opened, by rw [(logs session).1, opened]; rfl, fun child member => ?_⟩
    obtain rfl := List.mem_singleton.mp member
    rw [(logs session).2, if_pos rfl, opened, more]
    refine ⟨List.mem_replicate.mpr ⟨Nat.succ_ne_zero _, rfl⟩, fun untapped => ?_⟩
    simpa using (List.append_eq_nil_iff.mp untapped).2

theorem constructs_woke (t : Thread) (who : Who) :
    Constructs t (t.woke who) [.noticed ⟨(notices t.history).length, who⟩] := by
  obtain ⟨call, current, same⟩ | ⟨_, same⟩ := t.woke_spec who <;> rw [same]
  · exact .of_same _ rfl rfl (by rw [current]; rfl) rfl rfl fun n member =>
      (List.mem_singleton.mp member) ▸ rfl
  · exact .of_same _ rfl rfl rfl rfl rfl fun n member => (List.mem_singleton.mp member) ▸ rfl

/-- A waker called is a notice more, unless there is one already. -/
theorem constructs_wakeUp {t : Thread} {who : Who} (hooked : (t.wakeups who).hook.isSome = true) :
    ∃ events, Constructs t (t.wakeUp who) events ∧ creations events = [] ∧
      (notices events = [] ↔ (t.wakeups who).woken = true) := by
  obtain ⟨w, hook⟩ := Option.isSome_iff_exists.mp hooked
  have called : ∀ wakeup, Constructs t ({ t with
      wakeups := Function.update t.wakeups who wakeup }.happen (.wakerCalled who))
      [.wakerCalled who] := fun _ => .of_same _ rfl rfl rfl rfl rfl (List.forall_mem_nil _)
  unfold Thread.wakeUp Wakeup.wakeUp
  rw [hook]
  cases woken : (t.wakeups who).woken with
  | true => exact ⟨_, called _, rfl, by simp [notices]⟩
  | false => exact ⟨_, (called _).trans (constructs_woke _ w), rfl, by simp [notices]⟩

theorem constructs_step {t after : Thread} {a : Act} (constructs : a.constructs = true)
    (stepped : t.step a = some after) : ∃ events, Constructs t after events ∧
      (creations events = [] ↔ a.creates = false) ∧ (notices events = [] ↔ t.Quiet a) := by
  cases step_cases stepped with
  | wake who hooked =>
    obtain ⟨events, constructed, childless, quiet⟩ := constructs_wakeUp hooked
    refine ⟨events, constructed, by simp [childless, Act.creates], quiet.trans ?_⟩
    exact ⟨fun woken w same => Act.wake.inj same ▸ woken, fun quiet => quiet who rfl⟩
  | new who middle created =>
    have hooked : Constructs middle (middle.hook who) [.built who] :=
      .of_same _ rfl rfl rfl rfl rfl (List.forall_mem_nil _)
    exact ⟨_, (constructs_create created).trans hooked, by simp [creations, Act.creates],
      by simp [notices, Quiet]⟩
  | newPinned who middle created =>
    exact ⟨_, constructs_create created, by simp [creations, Act.creates], by simp [notices, Quiet]⟩
  | _ => cases constructs

/-- What a whole constructor does: nothing is noticed just if each wake is of a machine noticed
already. -/
theorem constructs_run {t made : Thread} {script : List Act}
    (constructs : ∀ a ∈ script, a.constructs = true)
    (ran : Transition.run step t script = some made) : ∃ events, Constructs t made events ∧
      (creations events = [] ↔ ∀ a ∈ script, a.creates = false) ∧
      (notices events = [] ↔ Transition.Along step Quiet t script) := by
  induction script generalizing t with
  | nil =>
    cases ran
    exact ⟨[], .of_same _ rfl rfl rfl rfl rfl (List.forall_mem_nil _), by simp [creations],
      by simp [notices, Transition.Along]⟩
  | cons a rest ih =>
    obtain ⟨middle, stepped, remaining⟩ := Option.bind_eq_some_iff.mp ran
    obtain ⟨early, first, created, quiet⟩ :=
      constructs_step (constructs a List.mem_cons_self) stepped
    obtain ⟨late, second, created', quiet'⟩ :=
      ih (fun b member => constructs b (List.mem_cons_of_mem _ member)) remaining
    refine ⟨late ++ early, first.trans second, ?_, ?_⟩
    · rw [creations_append, List.append_eq_nil_iff, created, created', List.forall_mem_cons,
        and_comm]
    · rw [notices_append, List.append_eq_nil_iff, quiet, quiet', Transition.Along, and_comm]
      refine and_congr_right fun _ => ⟨fun along next here => ?_, fun along => along _ stepped⟩
      rw [stepped] at here
      exact Option.some.inj here ▸ along

/-! ### What the call collects afterwards -/

/-- The call that began with `base` beneath it has collected no notice before the `first`th, and
nor has any call made since `start`. -/
structure Recent (first : Nat) (base : List Frame) (start : List Happening) (t : Thread) : Prop where
  stack : ∃ above, t.frames = above ++ base ∧ ∀ n ∈ collecting t.call above, first ≤ n.serial
  count : first ≤ (notices t.history).length
  told : ∃ events, t.history = events ++ start ∧ ∀ called c outcome woken,
    .returned called c outcome woken ∈ events → ∀ n ∈ woken, first ≤ n.serial

section

variable {first : Nat} {base : List Frame} {start : List Happening} {t after : Thread}

theorem Recent.of_stack (recent : t.Recent first base start) {above : List Frame}
    (frames : after.frames = above ++ base)
    (collected : ∀ n ∈ collecting after.call above, first ≤ n.serial) (events : List Happening)
    (history : after.history = events ++ t.history)
    (told : ∀ called c outcome woken, .returned called c outcome woken ∈ events →
      ∀ n ∈ woken, first ≤ n.serial) : after.Recent first base start := by
  refine ⟨⟨above, frames, collected⟩, ?_, ?_⟩
  · rw [history, notices_append, List.length_append]
    exact recent.count.trans (Nat.le_add_left _ _)
  · obtain ⟨earlier, grown, fresh⟩ := recent.told
    refine ⟨events ++ earlier, by rw [history, grown, List.append_assoc], ?_⟩
    intro called c outcome woken member
    rcases List.mem_append.mp member with member | member
    · exact told called c outcome woken member
    · exact fresh called c outcome woken member

theorem Recent.of_same (recent : t.Recent first base start) (frames : after.frames = t.frames)
    (call : after.call = t.call) (events : List Happening)
    (history : after.history = events ++ t.history)
    (told : ∀ called c outcome woken, .returned called c outcome woken ∈ events →
      ∀ n ∈ woken, first ≤ n.serial) : after.Recent first base start := by
  obtain ⟨above, stack, collected⟩ := recent.stack
  exact recent.of_stack (frames.trans stack) (call ▸ collected) events history told

/-- A step that tells nobody anything. -/
theorem Recent.of_still (recent : t.Recent first base start) (frames : after.frames = t.frames)
    (call : after.call = t.call) (history : after.history = t.history) :
    after.Recent first base start :=
  recent.of_same frames call [] history (by simp)

theorem Recent.returns (recent : t.Recent first base start) (called : Who) (c : AnyCall)
    (outcome : Record.Outcome) {woken : List Notice} (fresh : ∀ n ∈ woken, first ≤ n.serial) :
    (t.returns called c outcome woken).Recent first base start := by
  obtain ⟨sessions, same⟩ := t.returns_spec called c outcome woken
  rw [same]
  refine recent.of_same rfl rfl [.returned called c outcome woken] rfl ?_
  rintro _ _ _ _ member n inside
  obtain ⟨rfl, rfl, rfl, rfl⟩ := Happening.returned.inj (List.mem_singleton.mp member)
  exact fresh n inside

theorem Recent.enter (recent : t.Recent first base start) (called : Who) (c : PollCall) :
    (t.enter called c).Recent first base start := by
  obtain ⟨sessions, error, _, same⟩ | ⟨who, _, _, _, same⟩ := t.enter_spec called c
  · rw [same]
    refine recent.of_same rfl rfl [.returned called (.poll c) _ []] rfl ?_
    rintro _ _ _ _ member n inside
    obtain ⟨-, -, -, rfl⟩ := Happening.returned.inj (List.mem_singleton.mp member)
    cases inside
  · rw [same]
    obtain ⟨above, stack, collected⟩ := recent.stack
    exact recent.of_stack
      (show _ = (.running called who c .entered t.call :: above) ++ base from congrArg _ stack)
      collected [] rfl nofun

/-- The call whose frame was on top returns. -/
theorem Recent.report (above : List Frame) (frames : t.frames = above ++ base)
    {outer : Option CallState}
    (collected : ∀ n ∈ (t.call.map CallState.woken).getD [] ++ collecting outer above,
      first ≤ n.serial) (count : first ≤ (notices t.history).length)
    (told : ∃ events, t.history = events ++ start ∧ ∀ called c outcome woken,
      .returned called c outcome woken ∈ events → ∀ n ∈ woken, first ≤ n.serial)
    (called : Who) (c : PollCall) (result : Coded) :
    (t.report called c result outer).Recent first base start := by
  have own := fun n member => collected n (List.mem_append_left _ member)
  have popped : ∀ wakes, Recent first base start { t with call := outer, wakes } := fun _ =>
    ⟨⟨above, frames, fun n member => collected n (List.mem_append_right _ member)⟩, count, told⟩
  cases result with
  | ok reply => exact (popped t.wakes).returns _ _ _ own
  | error error => exact (popped _).returns _ _ _ nofun

theorem collecting_mem {call : CallState} {notice n : Notice} {frames : List Frame}
    (member : n ∈ collecting (some { call with woken := call.woken ++ [notice] }) frames) :
    n ∈ collecting (some call) frames ∨ n = notice := by
  induction frames with
  | nil => cases member
  | cons frame frames ih =>
    cases frame with
    | building _ => exact ih member
    | freeing _ => exact ih member
    | abandoning _ => exact ih member
    | _ =>
      rcases List.mem_append.mp member with inside | outside
      · exact (List.mem_append.mp inside).imp (List.mem_append_left _) List.mem_singleton.mp
      · exact .inl (List.mem_append_right _ outside)

theorem collecting_swap {call : Option CallState} (other : Option CallState) {n : Notice}
    {frames : List Frame} (member : n ∈ collecting call frames) :
    n ∈ (call.map CallState.woken).getD [] ∨ n ∈ collecting other frames := by
  induction frames with
  | nil => cases member
  | cons frame frames ih =>
    cases frame with
    | building _ => exact ih member
    | freeing _ => exact ih member
    | abandoning _ => exact ih member
    | _ => exact (List.mem_append.mp member).imp_right (List.mem_append_right _)

theorem Recent.woke (recent : t.Recent first base start) (who : Who) :
    (t.woke who).Recent first base start := by
  obtain ⟨call, current, same⟩ | ⟨_, same⟩ := t.woke_spec who
  · obtain ⟨above, stack, collected⟩ := recent.stack
    rw [same]
    refine recent.of_stack stack (fun n member => ?_) [.noticed _] rfl (by simp)
    rcases collecting_mem member with inside | rfl
    · exact collected n (current ▸ inside)
    · exact recent.count
  · rw [same]
    exact recent.of_same rfl rfl [.noticed _] rfl (by simp)

/-- Each step of the call, or of what runs on top of it. -/
theorem Recent.step (recent : t.Recent first base start)
    (inside : base.length < t.frames.length) {a : Act} (stepped : t.step a = some after) :
    after.Recent first base start := by
  obtain ⟨above, stack, collected⟩ := recent.stack
  -- the frame on top is not one of `base`
  have top : ∀ frame frames, t.frames = frame :: frames →
      ∃ above', above = frame :: above' ∧ frames = above' ++ base := by
    intro frame frames here
    cases above with
    | nil =>
      rw [stack] at inside
      exact absurd inside (Nat.lt_irrefl _)
    | cons frame' above' =>
      rw [stack] at here
      obtain ⟨rfl, rfl⟩ := List.cons.inj here
      exact ⟨above', rfl, rfl⟩
  cases step_cases stepped with
  | new who middle created =>
    obtain ⟨_, _, _, _, _, _, _, rfl⟩ := t.create_spec false created
    exact recent.of_same rfl rfl [.built who, .created who t.caller] rfl (by simp)
  | newPinned who middle created =>
    obtain ⟨_, _, _, _, _, _, _, rfl⟩ := t.create_spec true created
    exact recent.of_same rfl rfl [.created who t.caller] rfl (by simp)
  | starts handle who parked =>
    exact recent.of_stack (show _ = (.building who :: above) ++ base from congrArg _ stack)
      collected [] rfl (by simp)
  | resumes | replies => exact recent.enter _ _
  | frees handle =>
    obtain ⟨middle, fewer, outcome⟩ := t.free_spec handle
    have kept : middle.Recent first base start := by
      rw [fewer.rest]
      exact recent.of_still rfl rfl rfl
    rcases outcome with ⟨code, same⟩ | same <;> rw [same]
    · exact kept.returns _ _ _ (List.forall_mem_nil _)
    · obtain ⟨above', stack', collected'⟩ := kept.stack
      exact kept.of_stack
        (show _ = (.freeing (t.issued handle) :: above') ++ base from congrArg _ stack')
        collected' [] rfl (by simp)
  | wakes => exact recent.of_same rfl rfl [.wakesReturned t.wakes] rfl (by simp)
  | wake who =>
    have called : Recent first base start ({ t with
        wakeups := Function.update t.wakeups who (t.wakeups who).wakeUp.2 }.happen
          (.wakerCalled who)) := recent.of_same rfl rfl [.wakerCalled who] rfl (by simp)
    unfold Thread.wakeUp
    dsimp only
    split
    · exact called.woke _
    · exact called
  | records root session =>
    exact recent.of_same rfl rfl [.opened session (t.issued root)] rfl (by simp)
  | finishes session => exact recent.of_same rfl rfl [.finished session] rfl (by simp)
  | unopened | reissue | stopReissue => exact recent.of_still rfl rfl rfl
  | built who frames here =>
    obtain ⟨above', rfl, rest⟩ := top _ _ here
    have popped : Recent first base start { t.hook who with
        frames, locals := Function.update t.locals who.handle (some who) } :=
      recent.of_stack rest collected [.built who] rfl (by simp)
    exact popped.enter _ _
  | buildPanicked who frames here =>
    obtain ⟨above', rfl, rfl⟩ := top _ _ here
    exact recent.of_stack (show _ = (.abandoning who :: above') ++ base from rfl) collected [] rfl
      (by simp)
  | abandoningPanicked who frames here =>
    obtain ⟨above', rfl, rest⟩ := top _ _ here
    exact recent.of_stack rest collected [] rfl (by simp)
  | abandoned who frames here =>
    obtain ⟨above', rfl, rest⟩ := top _ _ here
    refine recent.of_stack rest collected
      [.returned who (.poll .resume) (Record.outcome (.error .panicked)) []] rfl ?_
    rintro _ _ _ _ member n inside
    obtain ⟨-, -, -, rfl⟩ := Happening.returned.inj (List.mem_singleton.mp member)
    cases inside
  -- the call on top goes on, under the same calls
  | hold called who record outer frames here =>
    obtain ⟨above', rfl, rfl⟩ := top _ _ here
    exact recent.of_stack
      (show _ = (.running called who (.reply record) .holding outer :: above') ++ base from rfl)
      collected [] rfl (by simp)
  | beginPoll called who c phase outer frames here =>
    obtain ⟨above', rfl, rfl⟩ := top _ _ here
    exact recent.of_stack
      (show _ = (.running called who c .polling outer :: above') ++ base from rfl)
      collected [.began who] rfl (by simp)
  | returns result called who c phase outer frames here =>
    obtain ⟨above', rfl, rfl⟩ := top _ _ here
    refine Recent.report above' ?_ ?_ ?_ ?_ _ _ _
    · rfl
    · exact collected
    · exact recent.count
    · exact recent.told
  | leaves result called who c phase outer frames here =>
    obtain ⟨above', rfl, rfl⟩ := top _ _ here
    exact recent.of_stack
      (show _ = (.leaving called c result outer :: above') ++ base from rfl)
      collected [] rfl (by simp)
  | panics called who c phase outer frames here =>
    obtain ⟨above', rfl, rfl⟩ := top _ _ here
    exact recent.of_stack
      (show _ = (.dropping called who c phase outer :: above') ++ base from rfl)
      collected [] rfl (by simp)
  | dropped called who c phase outer frames here =>
    obtain ⟨above', rfl, rfl⟩ := top _ _ here
    refine recent.of_stack (show _ =
      (.leaving called c (.error .panicked) outer :: above') ++ base from rfl) ?_ [] ?_ (by simp) <;>
    split <;> first | exact collected | rfl
  | left called c result outer frames here =>
    obtain ⟨above', rfl, rfl⟩ := top _ _ here
    refine Recent.report above' ?_ ?_ ?_ ?_ _ _ _
    · rfl
    · exact collected
    · exact recent.count
    · exact recent.told
  -- the calls below collect into what the unwound call leaves in `CALL`
  | leavingPanicked called c result outer frames here =>
    obtain ⟨above', rfl, rfl⟩ := top _ _ here
    refine recent.of_stack (show _ = above' ++ base from rfl) (fun n member => ?_) [] rfl (by simp)
    exact collected n (List.mem_append.mpr (collecting_swap outer member))
  | droppingPanicked poisons called who c phase outer frames here =>
    obtain ⟨above', rfl, rfl⟩ := top _ _ here
    refine recent.of_stack (show _ = above' ++ base from rfl) (fun n member => ?_) [] rfl (by simp)
    exact collected n (List.mem_append.mpr (collecting_swap outer member))
  | freed called frames here =>
    obtain ⟨above', rfl, rest⟩ := top _ _ here
    have popped : Recent first base start { t with frames } :=
      recent.of_stack rest collected [] rfl (by simp)
    exact popped.returns _ _ _ (List.forall_mem_nil _)
  | freeingPanicked called frames here =>
    obtain ⟨above', rfl, rest⟩ := top _ _ here
    exact recent.of_stack rest collected [] rfl (by simp)

end

/-- What the constructor of a parked machine wakes is in the output of the `resume` that builds it
just if it wakes none not noticed already; and the machines it creates join the machine's sessions
just if there are none or the sessions record the machine of the call outside too. -/
theorem construction_is_part_of_its_call (t made : Thread) (who : Who) (script : List Act)
    (parked : t.table.parked who.handle = some who)
    (constructs : ∀ a ∈ script, a.constructs = true)
    (ran : Transition.run step t (.resume who.handle :: script) = some made) :
    (∀ rest later outcome woken, Transition.run step made (.built :: rest) = some later →
      Transition.Along step (fun s _ => t.frames.length < s.frames.length) made (.built :: rest) →
      .returned who (.poll .resume) outcome woken ∈ since made later →
      ((∀ n ∈ notices (since t made), n ∈ woken) ↔
        Transition.Along step Quiet t (.resume who.handle :: script))) ∧
    ((∀ child ∈ creations (since t made), ∀ session, t.Records who.handle session →
        Joined t made child session) ↔
      (∀ a ∈ script, a.creates = false) ∨
        ∀ session, t.Records who.handle session → t.CallRecords session) := by
  have begun : t.step (.resume who.handle) = some { t with
      table := { t.table with
        parked := Function.update t.table.parked who.handle none
        pinned := Function.update t.table.pinned who.handle true }
      frames := .building who :: t.frames } := by
    simp only [Thread.step]
    rw [parked]
  rw [Transition.run_cons, begun] at ran
  obtain ⟨events, made', creates, quiet⟩ := constructs_run constructs ran
  -- what happened since is the resume and the constructor's own acts
  have during : since t made = events := since_eq made'.history
  rw [during]
  constructor
  · intro rest later outcome woken ended still returned
    -- the resume itself wakes nothing
    have quiet' : notices events = [] ↔ Transition.Along step Quiet t (.resume who.handle :: script) := by
      rw [quiet, Transition.Along, begun]
      constructor
      · intro along
        refine ⟨?_, fun next same => Option.some.inj same ▸ along⟩
        intro w calls
        cases calls
      · intro along
        exact along.2 _ rfl
    rw [← quiet']
    refine ⟨fun named => ?_, fun empty => empty ▸ List.forall_mem_nil _⟩
    -- while the call goes on its output names only what is noticed in it
    have recent : Recent (notices made.history).length t.frames made.history later := by
      refine Transition.run_invariant_along (fun s _ => t.frames.length < s.frames.length) _
        (fun s a next recent inside stepped => recent.step inside stepped) ?_ still ended
      refine ⟨⟨[.building who], made'.frames, ?_⟩, le_rfl, ⟨[], rfl, by simp⟩⟩
      exact List.forall_mem_nil _
    obtain ⟨after, grown, told⟩ := recent.told
    rw [since_eq grown] at returned
    refine List.eq_nil_iff_forall_not_mem.mpr fun n member => ?_
    -- the constructor's notices have earlier serials than those
    have late := told _ _ _ _ returned n (named n member)
    exact absurd (made'.serials n member) (Nat.not_lt.mpr late)
  · constructor
    · intro joined
      by_cases childless : creations events = []
      · exact .inl (creates.mp childless)
      · right
        intro session records
        obtain ⟨child, member⟩ := List.exists_mem_of_ne_nil _ childless
        obtain ⟨log, later, before, after, added, _⟩ := joined child member session records
        -- a session that is not the call's gains nothing from a creation
        by_contra absent
        have same := made'.left session absent
        rw [after, before] at same
        cases same
        rw [List.drop_length] at added
        cases added
    · rintro (childless | covered) child member session records
      · rw [creates.mpr childless] at member
        cases member
      · obtain ⟨log, extra, before, after, joined⟩ := made'.joined session (covered session records)
        obtain ⟨added, tapped⟩ := joined child member
        exact ⟨log, _, before, after, by rw [List.drop_left]; exact added, tapped⟩

/-- A machine that a routine creates and resumes joins its session, and so do the machines its
constructor creates. -/
theorem construction_is_part_of_its_call_nested :
    ∃ t made, Transition.run step new
        [.new, .record 1, .resume 1, .beginPoll, .newPinned, .wake (first 1)] = some t ∧
      Transition.run step t [.resume 2, .wake (first 1), .new] = some made ∧
      Joined t made (first 3) 1 := by
  obtain ⟨t, here⟩ : ∃ t, Transition.run step new
      [.new, .record 1, .resume 1, .beginPoll, .newPinned, .wake (first 1)] = some t := ⟨_, rfl⟩
  obtain ⟨made, ran⟩ : ∃ made,
      Transition.run step t [.resume 2, .wake (first 1), .new] = some made := by
    cases here
    exact ⟨_, rfl⟩
  have parked : t.table.parked 2 = some ⟨2, 1, true⟩ := by
    cases here
    rfl
  have child : creations (since t made) = [first 3] := by
    cases here
    cases ran
    rfl
  have opened : (t.table.sessions 1).isSome = true := by
    cases here
    rfl
  have taps : t.table.recorded 2 = [⟨1, 1⟩] ∧
      t.table.callTaps (t.call.map CallState.handle) = [⟨1, 0⟩] := by
    cases here
    exact ⟨rfl, rfl⟩
  refine ⟨t, made, here, ran, ?_⟩
  obtain ⟨_, joins⟩ := construction_is_part_of_its_call t made ⟨2, 1, true⟩ [.wake (first 1), .new]
    parked (by decide) ran
  refine joins.mpr (.inr fun session ⟨opened, tapped⟩ => ⟨opened, ?_⟩) (first 3) (by simp [child]) 1
    ⟨opened, by simp [taps.1, Table.tapsIn]⟩
  rw [taps.1] at tapped
  rw [taps.2]
  by_cases own : session = 1
  · subst own
    exact List.cons_ne_nil _ _
  · exact absurd (by simp [Table.tapsIn, Ne.symm own]) tapped

/-- A pinned machine is recorded, and its constructor wakes a machine and creates one: the output
names no machine, and the one created is not in the session. -/
theorem construction_outside_its_call :
    ∃ t made later, Transition.run step new [.new, .newPinned, .record 2] = some t ∧
      t.Records 2 1 ∧
      Transition.run step t [.resume 2, .wake (first 1), .new] = some made ∧
      notices (since t made) = [⟨0, first 1⟩] ∧ creations (since t made) = [first 3] ∧
      Transition.run step made [.built, .beginPoll, .finish (.ok ([], .idle))] = some later ∧
      since made later = [.returned ⟨2, 1, true⟩ (.poll .resume) ⟨2, []⟩ [], .began ⟨2, 1, true⟩,
        .built ⟨2, 1, true⟩] ∧
      ¬ Joined t made (first 3) 1 := by
  refine ⟨_, _, _, rfl, ⟨rfl, List.cons_ne_nil _ _⟩, rfl, rfl, rfl, rfl, rfl, ?_⟩
  rintro ⟨log, later, before, after, added, _⟩
  cases before
  cases after
  cases added

end Thread

end SansEffort
