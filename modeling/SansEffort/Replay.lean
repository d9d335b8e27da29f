import SansEffort.Aside

/-!
# A recorded run replays

`record` and `replay` (`record.rs`), over a thread and the code of a session's machines. Recording
and replay show the same roster, step by step, wherever their threads are otherwise.
-/

namespace SansEffort

open Record (Log Outcome)

/-- What the code of a session's machines has to go by, newest first. -/
inductive Learned
  | called (handle : Nat) (c : AnyCall)
  | issued (handle : Nat)
  | did (a : CodeAct)
  deriving DecidableEq

/-- The routines of a session are deterministic: what they do next is a function of the calls made
on them, of the handles of the machines they created, and of what they did. -/
abbrev Code := List Learned → CodeAct

/-- A thread with a session's machines, in the order they were created. -/
structure Scene where
  thread : Thread
  members : List Who
  learned : List Learned

/-- A call that polls is being made. -/
def Frame.polls : Frame → Bool
  | running _ _ _ _ _ => true
  | dropping _ _ _ _ _ => true
  | leaving _ _ _ _ => true
  | _ => false

namespace Scene

/-- What the code does: `none` if it may not. It creates machines during its calls alone, and wakes
only machines of the session. -/
def act (s : Scene) (a : CodeAct) : Option Scene :=
  match a with
  | .create pinned =>
    if (s.thread.frames.head?.map Frame.polls).getD false then
      (s.thread.make pinned).map fun (who, thread) =>
        ⟨thread, s.members ++ [who], .issued who.handle :: s.learned⟩
    else none
  | .wake handle =>
    if s.thread.issued handle ∈ s.members then
      (s.thread.codeStep (.wake handle)).map fun thread => { s with thread, learned := .did a :: s.learned }
    else none
  | a => (s.thread.codeStep a).map fun thread => { s with thread, learned := .did a :: s.learned }

/-- The code runs until the call returns, for at most `fuel` steps. -/
def settle (code : Code) : Nat → Scene → Option Scene
  | 0, _ => none
  | fuel + 1, s =>
    if s.thread.frames.isEmpty then some s else (s.act (code s.learned)).bind (settle code fuel)

/-- A call on a machine of the session. -/
def call (code : Code) (fuel : Nat) (s : Scene) (handle : Nat) (c : AnyCall) : Option Scene :=
  (s.thread.step (c.act handle)).bind fun thread =>
    settle code fuel { s with
      thread, learned := if thread.frames.isEmpty then s.learned else .called handle c :: s.learned }

end Scene

/-! ### Recording -/

/-- What the host does next: a call on a machine of the session, or an act of something else. -/
inductive Move
  | call (handle : Nat) (c : AnyCall)
  | aside (a : Act)
  deriving DecidableEq

namespace Scene

/-- An act on none of the session's machines, nor on the session. -/
def isAside (s : Scene) (session : Nat) : Act → Bool
  | .resume handle => s.thread.issued handle ∉ s.members
  | .reply handle _ => s.thread.issued handle ∉ s.members
  | .free handle => s.thread.issued handle ∉ s.members
  | .wake who => who ∉ s.members
  | .finishRecording n => n ≠ session
  | _ => true

/-- The host makes one call at a time. -/
def move (code : Code) (fuel session : Nat) (s : Scene) : Move → Option Scene
  | .call handle c =>
    if s.thread.frames.isEmpty && s.thread.call.isNone && decide (s.thread.issued handle ∈ s.members)
    then s.call code fuel handle c else none
  | .aside a =>
    if s.isAside session a then (s.thread.step a).map fun thread => { s with thread } else none

end Scene

/-- The root is recorded, the host drives it and the machines it leads to, and the recording is
finished: the log, and the scene it was finished in. -/
def recordRun (code : Code) (fuel root : Nat) (moves : List Move) (t : Thread) :
    Option (Log × Scene) := do
  let session := t.table.nextSession
  let begun ← t.step (.record root)
  let s ← moves.foldlM (Scene.move code fuel session) ⟨begun, [begun.issued root], []⟩
  let log ← (s.thread.table.finishRecording session).1
  let thread ← s.thread.step (.finishRecording session)
  return (log, { s with thread })

/-! ### Replaying -/

/-- Where a replay stopped agreeing with its recording. -/
inductive Divergence
  | outcome (place : Nat) (expected actual : Outcome)
  | missing (place machine : Nat)
  deriving DecidableEq

/-- The call an event is of. -/
def Record.Event.call : Event → AnyCall
  | .resume _ _ => .poll .resume
  | .reply _ record _ => .poll (.reply record)
  | .free _ _ => .free

/-- Make the calls of `events` again, and compare each outcome with the recorded one. -/
def Scene.replayEvents (code : Code) (fuel session : Nat) :
    Nat → List Record.Event → Scene → Option (Except Divergence Unit × Scene)
  | _, [], s => some (.ok (), s)
  | place, event :: events, s =>
    match s.thread.table.recordedHandle session event.machine with
    | none => some (.error (.missing place event.machine), s)
    | some handle => do
      let s ← s.call code fuel handle event.call
      let actual ← Thread.lastOutcome s.thread.history
      if actual = event.outcome then s.replayEvents code fuel session (place + 1) events
      else some (.error (.outcome place event.outcome actual), s)

/-- Make the calls of `log` again, against a root made anew, and free every machine of it: the
result, the log the replay's own recorder kept, and the thread. -/
def replay (code : Code) (fuel : Nat) (pinned : Bool) (log : Log) (t : Thread) :
    Option (Except Divergence Unit × Log × Thread) := do
  let t ← t.step (.reissue log.handles)
  let (root, t) ← t.make pinned
  let session := t.table.nextSession
  let t ← t.step (.record root.handle)
  let (result, s) ← Scene.replayEvents code fuel session 0 log.events ⟨t, [root], []⟩
  let t ← s.thread.step .stopReissue
  let own := (t.table.finishRecording session).1.getD Log.empty
  let t ← t.step (.finishRecording session)
  let s ← own.handles.foldlM (fun s handle => s.call code fuel handle .free) { s with thread := t }
  return (result, own, s.thread)

/-! ### Where a run leads -/

/-- An act that has nothing to do with the handles to be issued. -/
def Act.plain : Act → Bool
  | .new | .newPinned | .reissue _ | .stopReissue => false
  | _ => true

namespace Thread

variable {t middle after : Thread}

/-- A state that some run leads to. -/
def Reached (t : Thread) : Prop := ∃ acts, Transition.run step new acts = some t

theorem Reached.step (reached : t.Reached) {a : Act} (stepped : t.step a = some after) :
    after.Reached := by
  obtain ⟨acts, ran⟩ := reached
  refine ⟨acts ++ [a], ?_⟩
  rw [Transition.run_append, ran]
  simp [stepped]

theorem Reached.sound (reached : t.Reached) : t.Sound := by
  obtain ⟨acts, ran⟩ := reached
  exact sound_reached ran

theorem Reached.counted (reached : t.Reached) : t.Counted := by
  obtain ⟨acts, ran⟩ := reached
  exact Transition.run_invariant Counted (fun _ _ _ counted stepped => counted.step stepped)
    counted_new ran

/-- Each handle was issued last to the machine it was before, or to a later one. -/
def Follows (t after : Thread) : Prop :=
  ∀ handle, after.issued handle = t.issued handle ∨
    (t.issued handle).turn < (after.issued handle).turn

theorem Follows.refl (t : Thread) : t.Follows t := fun _ => .inl rfl

theorem Follows.trans (first : t.Follows middle) (second : middle.Follows after) :
    t.Follows after := by
  intro handle
  have one := first handle
  rcases second handle with same | later
  · rw [same]
    exact one
  · right
    rcases one with same | earlier
    · rwa [← same]
    · exact earlier.trans later

theorem Reached.follows (reached : t.Reached) {a : Act} (stepped : t.step a = some after) :
    t.Follows after := by
  intro handle
  rcases (step_grows reached.sound.hooks stepped).issued with same | ⟨who, pinned, creates⟩
  · exact .inl (by rw [same])
  · rw [creates.2.2, Function.update_apply]
    split
    · next own =>
      right
      rw [creates.1, own]
      exact Nat.lt_succ_self _
    · exact .inl rfl

theorem step_plain {a : Act} (plain : a.plain = true) (stepped : t.step a = some after) :
    after.reissue = t.reissue ∧ after.issued = t.issued := by
  -- what ends or begins a call touches neither
  have returned : ∀ (u : Thread) (called : Who) (c : AnyCall) (outcome : Outcome)
      (woken : List Notice), (u.returns called c outcome woken).reissue = u.reissue ∧
        (u.returns called c outcome woken).issued = u.issued := by
    intro u called c outcome woken
    obtain ⟨sessions, same⟩ := u.returns_spec called c outcome woken
    rw [same]
    exact ⟨rfl, rfl⟩
  have reported : ∀ (u : Thread) (called : Who) (c : PollCall) (result : Coded)
      (outer : Option CallState), (u.report called c result outer).reissue = u.reissue ∧
        (u.report called c result outer).issued = u.issued := by
    intro u called c result outer
    cases result <;> exact returned _ _ _ _ _
  have entered : ∀ (u : Thread) (called : Who) (c : PollCall),
      (u.enter called c).reissue = u.reissue ∧ (u.enter called c).issued = u.issued := by
    intro u called c
    obtain ⟨sessions, error, _, same⟩ | ⟨who, _, _, _, same⟩ := u.enter_spec called c <;> rw [same]
    all_goals exact ⟨rfl, rfl⟩
  cases step_cases stepped with
  | new | newPinned | reissue | stopReissue => cases plain
  | resumes | replies | built => exact entered _ _ _
  | frees handle =>
    obtain ⟨middle, fewer, outcome⟩ := t.free_spec handle
    have same : middle.reissue = t.reissue ∧ middle.issued = t.issued := by
      rw [fewer.rest]
      exact ⟨rfl, rfl⟩
    rcases outcome with ⟨code, done⟩ | dropping
    · rw [done]
      obtain ⟨reissue, issued⟩ := returned middle (t.issued handle) .free ⟨code, []⟩ []
      exact ⟨reissue.trans same.1, issued.trans same.2⟩
    · rw [dropping]
      exact same
  | wake who =>
    unfold Thread.wakeUp
    dsimp only
    split
    · next w _ =>
      obtain ⟨_, _, same⟩ | ⟨_, same⟩ := woke_spec ({ t with
        wakeups := Function.update t.wakeups who (t.wakeups who).wakeUp.2 }.happen
          (.wakerCalled who)) w <;> rw [same]
      all_goals exact ⟨rfl, rfl⟩
    · exact ⟨rfl, rfl⟩
  | returns | left => exact reported _ _ _ _ _
  | freed => exact returned _ _ _ _ _
  | dropped => split <;> exact ⟨rfl, rfl⟩
  | _ => exact ⟨rfl, rfl⟩

/-- A handle that is free stays free. -/
theorem step_unused {a : Act} (plain : a.plain = true) (stepped : t.step a = some after) {handle : Nat}
    (unused : t.table.inUse handle = false) : after.table.inUse handle = false := by
  obtain ⟨machines, parked, pinned⟩ := Table.inUse_eq_false.mp unused
  -- nothing was created
  have uncreated : ∀ who p, ¬ t.Creates after who p := by
    rintro who p ⟨named, _, issued⟩
    rw [(step_plain plain stepped).2] at issued
    have same := congrFun issued who.handle
    rw [Function.update_self] at same
    have turn := congrArg Who.turn named
    rw [same] at turn
    exact absurd turn (Nat.ne_of_lt (Nat.lt_succ_self _))
  refine Table.inUse_eq_false.mpr ⟨?_, ?_, ?_⟩
  · refine Option.eq_none_iff_forall_ne_some.mpr fun who there => ?_
    rcases step_places stepped (show after.At handle who .table from there) with old | ⟨_, creates, _⟩
    · change t.table.machines handle = some who at old
      rw [machines] at old
      cases old
    · exact uncreated who _ creates
  · refine Option.eq_none_iff_forall_ne_some.mpr fun who there => ?_
    rcases step_places stepped (show after.At handle who .parked from there) with old | ⟨_, creates⟩
    · change t.table.parked handle = some who at old
      rw [parked] at old
      cases old
    · exact uncreated who _ creates
  · cases step_moves stepped with
    | fewer _ _ fewer =>
      by_contra there
      rw [fewer handle (by simpa using there)] at pinned
      cases pinned
    | comes _ _ _ _ same => rw [same, pinned]
    | starts other there _ _ same =>
      have away : handle ≠ other := by
        rintro rfl
        rw [parked] at there
        cases there
      rw [same, Function.update_of_ne away, pinned]

/-- What the code does is at most a step. -/
theorem codeStep_step {a : CodeAct} (stepped : t.codeStep a = some after) :
    after = t ∨ ∃ b, b.plain = true ∧ t.step b = some after := by
  cases a with
  | create pinned => cases stepped
  | wake handle =>
    unfold Thread.codeStep at stepped
    dsimp only at stepped
    split at stepped
    · exact .inr ⟨_, rfl, stepped⟩
    · cases stepped
      exact .inl rfl
  | built => exact .inr ⟨.built, rfl, stepped⟩
  | hold => exact .inr ⟨.hold, rfl, stepped⟩
  | beginPoll => exact .inr ⟨.beginPoll, rfl, stepped⟩
  | finish result => exact .inr ⟨.finish result, rfl, stepped⟩
  | panics => exact .inr ⟨.panics, rfl, stepped⟩
  | dropped => exact .inr ⟨.dropped, rfl, stepped⟩
  | left => exact .inr ⟨.left, rfl, stepped⟩
  | freed => exact .inr ⟨.freed, rfl, stepped⟩

end Thread

namespace Scene

variable {code : Code} {fuel session : Nat} {s next final : Scene}

/-- What the code does: a machine created, or a step of a machine. -/
theorem act_cases {a : CodeAct} (acted : s.act a = some next) :
    (∃ pinned who thread, a = .create pinned ∧ s.thread.frames.head?.map Frame.polls = some true ∧
      s.thread.make pinned = some (who, thread) ∧
      next = ⟨thread, s.members ++ [who], .issued who.handle :: s.learned⟩) ∨
    (∃ thread, (∀ pinned, a ≠ .create pinned) ∧
      (∀ handle, a = .wake handle → s.thread.issued handle ∈ s.members) ∧
      s.thread.codeStep a = some thread ∧ next = ⟨thread, s.members, .did a :: s.learned⟩) := by
  cases a with
  | create pinned =>
    simp only [Scene.act] at acted
    split at acted
    · next polls =>
      obtain ⟨⟨who, thread⟩, made, rfl⟩ := Option.map_eq_some_iff.mp acted
      refine .inl ⟨pinned, who, thread, rfl, ?_, made, rfl⟩
      cases here : s.thread.frames.head?.map Frame.polls with
      | none =>
        rw [here] at polls
        cases polls
      | some polling =>
        rw [here] at polls
        exact congrArg some polls
    · cases acted
  | wake handle =>
    simp only [Scene.act] at acted
    split at acted
    · next member =>
      obtain ⟨thread, stepped, rfl⟩ := Option.map_eq_some_iff.mp acted
      refine .inr ⟨thread, by simp, ?_, stepped, rfl⟩
      rintro h ⟨⟩
      exact member
    · cases acted
  | _ =>
    obtain ⟨thread, stepped, rfl⟩ := Option.map_eq_some_iff.mp acted
    exact .inr ⟨thread, by simp, by simp, stepped, rfl⟩

/-- The session has the machines it had, and handles go to later machines alone. -/
structure Before (s next : Scene) : Prop where
  members : s.members <+: next.members
  follows : s.thread.Follows next.thread

theorem Before.refl (s : Scene) : s.Before s := ⟨List.prefix_rfl, .refl _⟩

theorem Before.trans (first : s.Before next) (second : next.Before final) : s.Before final :=
  ⟨first.members.trans second.members, first.follows.trans second.follows⟩

theorem act_before (reached : s.thread.Reached) {a : CodeAct} (acted : s.act a = some next) :
    next.thread.Reached ∧ s.Before next := by
  rcases act_cases acted with ⟨pinned, who, thread, _, _, made, rfl⟩ | ⟨thread, _, _, stepped, rfl⟩
  · have stepped := s.thread.step_make pinned
    rw [made] at stepped
    exact ⟨reached.step stepped, List.prefix_append _ _, reached.follows stepped⟩
  · rcases Thread.codeStep_step stepped with rfl | ⟨b, _, stepped⟩
    · exact ⟨reached, List.prefix_rfl, .refl _⟩
    · exact ⟨reached.step stepped, List.prefix_rfl, reached.follows stepped⟩

theorem settle_before (reached : s.thread.Reached) (settled : settle code fuel s = some next) :
    next.thread.Reached ∧ s.Before next := by
  induction fuel generalizing s with
  | zero => cases settled
  | succ fuel ih =>
    unfold settle at settled
    split at settled
    · cases settled
      exact ⟨reached, .refl _⟩
    · obtain ⟨middle, acted, rest⟩ := Option.bind_eq_some_iff.mp settled
      obtain ⟨there, first⟩ := act_before reached acted
      obtain ⟨final, second⟩ := ih there rest
      exact ⟨final, first.trans second⟩

theorem call_before (reached : s.thread.Reached) {handle : Nat} {c : AnyCall}
    (called : s.call code fuel handle c = some next) : next.thread.Reached ∧ s.Before next := by
  obtain ⟨thread, stepped, settled⟩ := Option.bind_eq_some_iff.mp called
  obtain ⟨final, rest⟩ := settle_before (reached.step stepped) settled
  exact ⟨final, rest.members, (reached.follows stepped).trans rest.follows⟩

theorem settle_more {more : Nat} (enough : fuel ≤ more) (settled : settle code fuel s = some next) :
    settle code more s = some next := by
  induction fuel generalizing s more with
  | zero => cases settled
  | succ fuel ih =>
    obtain ⟨more, rfl⟩ : ∃ m, more = m + 1 := ⟨more - 1, by omega⟩
    unfold settle at settled ⊢
    split at settled
    · next empty => rwa [if_pos empty]
    · next busy =>
      obtain ⟨middle, acted, rest⟩ := Option.bind_eq_some_iff.mp settled
      rw [if_neg busy, acted]
      exact ih (Nat.le_of_succ_le_succ enough) rest

theorem call_more {more handle : Nat} {c : AnyCall} (enough : fuel ≤ more)
    (called : s.call code fuel handle c = some next) : s.call code more handle c = some next := by
  obtain ⟨thread, stepped, settled⟩ := Option.bind_eq_some_iff.mp called
  unfold Scene.call
  rw [stepped]
  exact settle_more enough settled

theorem move_before (reached : s.thread.Reached) {m : Move}
    (moved : s.move code fuel session m = some next) : next.thread.Reached ∧ s.Before next := by
  cases m with
  | call handle c =>
    unfold Scene.move at moved
    dsimp only at moved
    split at moved
    · exact call_before reached moved
    · cases moved
  | aside a =>
    unfold Scene.move at moved
    dsimp only at moved
    split at moved
    · obtain ⟨thread, stepped, rfl⟩ := Option.map_eq_some_iff.mp moved
      exact ⟨reached.step stepped, List.prefix_rfl, reached.follows stepped⟩
    · cases moved

theorem moves_before (reached : s.thread.Reached) {moves : List Move}
    (moved : moves.foldlM (Scene.move code fuel session) s = some next) :
    next.thread.Reached ∧ s.Before next := by
  induction moves generalizing s with
  | nil =>
    cases moved
    exact ⟨reached, .refl _⟩
  | cons m moves ih =>
    obtain ⟨middle, first, rest⟩ := Option.bind_eq_some_iff.mp moved
    obtain ⟨there, one⟩ := move_before reached first
    obtain ⟨final, others⟩ := ih there rest
    exact ⟨final, one.trans others⟩

end Scene

/-! ### A roster's calls -/

/-- The call that is being made at the top of the roster. -/
def Top.call : Top → AnyCall
  | building _ => .poll .resume
  | running _ c _ _ => .poll c
  | dropping _ c _ _ => .poll c
  | leaving _ c _ _ => .poll c
  | freeing _ => .free

namespace Roster

variable {r next : Roster} {handle : Nat} {c : AnyCall} {events : List Record.Event}

/-- What the code does, as the roster shows it, and what it learns. -/
inductive Acts (r : Roster) : CodeAct → Learned → Roster → Prop
  | creates {top : Top} {pinned : Bool} {handle : Nat} (here : r.top = some top)
      (polls : top.polls = true) (fresh : handle ∉ r.handles) (positive : handle ≠ 0) :
      Acts r (.create pinned) (.issued handle) (r.create pinned handle)
  | does {a : CodeAct} {next : Roster} (plain : ∀ pinned, a ≠ .create pinned)
      (known : ∀ handle, a = .wake handle → handle ∈ r.handles) (acted : r.act a = some next) :
      Acts r a (.did a) next

/-- The call is being made, or has returned as the last event. -/
structure Called (r : Roster) (handle : Nat) (c : AnyCall) (events : List Record.Event) : Prop where
  member : handle ∈ r.handles
  running : ∀ top, r.top = some top → top.handle = handle ∧ top.call = c ∧ r.events = events
  returned : r.top = none → ∃ outcome,
    r.events = events ++ [c.event outcome (Log.number (r.handles.idxOf handle))]

theorem called_returns (member : handle ∈ r.handles) (outcome : Outcome) :
    (r.returns handle c outcome).Called handle c r.events := by
  refine ⟨member, fun top running => ?_, fun _ => ⟨outcome, rfl⟩⟩
  cases running

theorem called_report (member : handle ∈ r.handles) (c : PollCall) (result : Coded)
    (woken : List Nat) : (r.report handle c result woken).Called handle (.poll c) r.events := by
  cases result with
  | ok reply => exact called_returns member _
  | error error => exact called_returns member _

theorem called_running (member : handle ∈ r.handles) {top : Top} (here : r.top = some top)
    (own : top.handle = handle) (same : top.call = c) : r.Called handle c r.events := by
  refine ⟨member, fun top' running => ?_, fun idle => ?_⟩
  · rw [here] at running
    cases running
    exact ⟨own, same, rfl⟩
  · rw [here] at idle
    cases idle

theorem called_enter (member : handle ∈ r.handles) (c : PollCall) :
    (r.enter handle c).Called handle (.poll c) r.events := by
  unfold Roster.enter
  split
  · exact called_report member c _ _
  · exact called_running member rfl rfl rfl

theorem called_call (member : handle ∈ r.handles) (c : AnyCall) :
    (r.call handle c).Called handle c r.events := by
  rcases c with (_ | record) | _
  all_goals unfold Roster.call
  case poll.resume =>
    dsimp only
    split
    · exact called_running member rfl rfl rfl
    · exact called_enter member _
  case poll.reply => exact called_enter member _
  case free =>
    dsimp only
    split
    · exact called_returns member _
    · exact called_running member rfl rfl rfl

theorem report_handles (r : Roster) (handle : Nat) (c : PollCall) (result : Coded)
    (woken : List Nat) : (r.report handle c result woken).handles = r.handles := by
  cases result <;> rfl

theorem enter_handles (r : Roster) (handle : Nat) (c : PollCall) :
    (r.enter handle c).handles = r.handles := by
  unfold Roster.enter
  split
  · exact r.report_handles _ _ _ _
  · rfl

theorem call_handles (r : Roster) (handle : Nat) (c : AnyCall) :
    (r.call handle c).handles = r.handles := by
  rcases c with (_ | record) | _
  all_goals unfold Roster.call
  case poll.reply => exact r.enter_handles _ _
  all_goals
    dsimp only
    split
  case poll.resume.isFalse => exact r.enter_handles _ _
  all_goals rfl

/-- A roster grows only as machines are created. -/
theorem act_handles {a : CodeAct} (acted : r.act a = some next) : next.handles = r.handles := by
  cases a <;> simp only [Roster.act] at acted
  case create => cases acted
  case wake handle =>
    cases acted
    unfold Roster.wake
    dsimp only
    split <;> rfl
  case built =>
    split at acted <;> cases acted
    exact enter_handles _ _ _
  case hold =>
    split at acted <;> cases acted
    rfl
  case beginPoll =>
    split at acted
    · split at acted <;> cases acted
      rfl
    · cases acted
  case finish result =>
    split at acted
    · split at acted <;> cases acted
      exact report_handles _ _ _ _ _
    · cases acted
  case panics | dropped =>
    split at acted <;> cases acted
    rfl
  case left =>
    split at acted <;> cases acted
    exact report_handles _ _ _ _ _
  case freed =>
    split at acted <;> cases acted
    rfl

/-- The call goes on, or returns. -/
theorem Called.acts (called : r.Called handle c events) (busy : r.top ≠ none) {a : CodeAct}
    {l : Learned} (acts : r.Acts a l next) : next.Called handle c events := by
  obtain ⟨top, here⟩ := Option.ne_none_iff_exists'.mp busy
  have member := called.member
  obtain ⟨rfl, rfl, rfl⟩ := called.running top here
  -- a creation adds an event of its own; nothing else does but the end of the call
  cases acts with
  | creates =>
    exact called_running (List.mem_append_left _ member) here rfl rfl
  | does plain known acted =>
    cases a with
    | create pinned => exact absurd rfl (plain pinned)
    -- a notice goes into the call's own, or into no call's
    | wake handle =>
      cases acted
      unfold Roster.wake
      dsimp only
      split
      · refine called_running member (congrArg (Option.map (Top.collect handle)) here)
          (top.collect_handle handle) ?_
        cases top <;> rfl
      · exact called_running member here rfl rfl
    | built =>
      cases top <;> simp only [Roster.act, here] at acted <;> cases acted
      exact @called_enter (r.set _ _ none) _ member .resume
    | hold =>
      cases top <;> simp only [Roster.act, here] at acted
      case running h c phase woken =>
        cases c <;> cases phase <;> cases acted
        exact @called_running (r.set _ _ _) _ _ member _ rfl rfl rfl
      all_goals cases acted
    | beginPoll =>
      cases top <;> simp only [Roster.act, here] at acted
      case running h c phase woken =>
        split at acted <;> cases acted
        exact @called_running (r.set _ _ _) _ _ member _ rfl rfl rfl
      all_goals cases acted
    | finish result =>
      cases top <;> simp only [Roster.act, here] at acted
      case running h c phase woken =>
        split at acted <;> cases acted
        exact @called_report (r.set _ _ none) _ member c result woken
      all_goals cases acted
    | panics =>
      cases top <;> simp only [Roster.act, here] at acted <;> cases acted
      exact called_running member rfl rfl rfl
    | dropped =>
      cases top <;> simp only [Roster.act, here] at acted <;> cases acted
      exact @called_running (r.set _ _ _) _ _ member _ rfl rfl rfl
    | left =>
      cases top <;> simp only [Roster.act, here] at acted <;> cases acted
      exact called_report member _ _ _
    | freed =>
      cases top <;> simp only [Roster.act, here] at acted <;> cases acted
      exact called_returns member _

end Roster

/-! ### Both sides show it -/

namespace Thread

variable {session : Nat} {t after : Thread} {r : Roster}

theorem Shows.polls (shows : Shows session t r) {top : Top} (here : r.top = some top) :
    t.frames.head?.map Frame.polls = some top.polls := by
  rw [shows.stack here]
  cases top <;> rfl

/-- The thread runs code just where a call is being made. -/
theorem Shows.isEmpty (shows : Shows session t r) (rest : r.top = none → t.Rest) :
    t.frames.isEmpty = r.top.isNone := by
  cases here : r.top with
  | none => rw [(rest here).frames]; rfl
  | some top => rw [shows.stack here]; rfl

/-- A machine takes the handle that is to be issued again. -/
theorem make_reissued (sound : t.Sound) {handle : Nat} {rest : List Nat}
    (coming : t.reissue = handle :: rest) (positive : handle ≠ 0)
    (unused : t.table.inUse handle = false) (pinned : Bool) :
    ∃ who after, t.make pinned = some (who, after) ∧ who.handle = handle ∧ after.reissue = rest ∧
      ∀ other, other ≠ handle → after.table.inUse other = t.table.inUse other := by
  obtain ⟨who, after, made, own, left⟩ : ∃ who after, t.make pinned = some (who, after) ∧
      who.handle = handle ∧ after.reissue = rest := by
    unfold Thread.make Thread.create Table.issue
    rw [coming]
    simp only [ne_eq, positive, not_false_eq_true, unused, and_self, if_true, Option.map_some]
    refine ⟨_, _, rfl, rfl, ?_⟩
    cases pinned <;> rfl
  refine ⟨who, after, made, own, left, fun other away => ?_⟩
  have same := (make_makes sound made).others other (by rwa [own])
  unfold Table.inUse
  rw [same.machines, same.parked, same.pinned]

end Thread

namespace Scene

variable {code : Code} {fuel session : Nat} {s next final : Scene} {r : Roster}

/-- The scene shows the roster of the session. -/
structure Shows (session : Nat) (s : Scene) (r : Roster) : Prop where
  reached : s.thread.Reached
  shows : s.thread.Shows session r
  members : s.members = r.handles.map s.thread.issued

/-- No handle of the session's machines was issued again. -/
def Current (s : Scene) : Prop := ∀ who ∈ s.members, s.thread.issued who.handle = who

theorem Shows.member (shows : s.Shows session r) {handle : Nat} :
    s.thread.issued handle ∈ s.members ↔ handle ∈ r.handles := by
  rw [shows.members, List.mem_map]
  constructor
  · rintro ⟨other, member, same⟩
    have named := congrArg Who.handle same
    rw [shows.shows.issued, shows.shows.issued] at named
    rwa [← named]
  · exact fun member => ⟨handle, member, rfl⟩

theorem Shows.handles (shows : s.Shows session r) : s.members.map Who.handle = r.handles := by
  rw [shows.members, List.map_map]
  exact (List.map_congr_left fun handle _ => shows.shows.issued handle).trans (List.map_id _)

/-- The machine a handle of the session has in the end is the one it had all along. -/
theorem Shows.lasting (shows : s.Shows session r) (before : s.Before final) (current : final.Current)
    {handle : Nat} (member : handle ∈ r.handles) :
    final.thread.issued handle = s.thread.issued handle := by
  have kept := current _ (before.members.subset (shows.member.mpr member))
  rwa [shows.shows.issued] at kept

theorem Shows.still (shows : s.Shows session r) (first : s.Before next) (second : next.Before final)
    (current : final.Current) {handle : Nat} (member : handle ∈ r.handles) :
    next.thread.issued handle = s.thread.issued handle := by
  have last := shows.lasting (first.trans second) current member
  rcases first.follows handle with same | later
  · exact same
  · rcases second.follows handle with same | further
    · rw [last] at same
      rw [← same] at later
      exact absurd later (Nat.lt_irrefl _)
    · rw [last] at further
      exact absurd (later.trans further) (Nat.lt_irrefl _)

/-- No machine created takes a handle of the session. -/
theorem Shows.fresh (shows : s.Shows session r) {thread : Thread} {members : List Who}
    {learned : List Learned} {pinned : Bool} {who : Who}
    (made : s.thread.make pinned = some (who, thread)) (kept : s.members <+: members)
    (before : Before ⟨thread, members, learned⟩ final) (current : final.Current) :
    who.handle ∉ r.handles := by
  intro member
  have makes := Thread.make_makes shows.reached.sound made
  have stepped := s.thread.step_make pinned
  rw [made] at stepped
  have first : s.Before ⟨thread, members, learned⟩ := ⟨kept, shows.reached.follows stepped⟩
  have same := shows.still first before current member
  have issued : thread.issued who.handle = who := by
    rw [makes.issued, Function.update_self]
  have turn := makes.turn
  rw [← same] at turn
  change who.turn = (thread.issued who.handle).turn + 1 at turn
  rw [issued] at turn
  exact absurd turn (Nat.ne_of_lt (Nat.lt_succ_self _))

/-- What the code does shows in the roster. -/
theorem Shows.act (shows : s.Shows session r) (busy : r.top ≠ none) {a : CodeAct}
    (acted : s.act a = some next) (before : next.Before final) (current : final.Current) :
    ∃ l r', r.Acts a l r' ∧ next.Shows session r' ∧ next.thread.Tells session r' ∧
      next.learned = l :: s.learned := by
  obtain ⟨there, earlier⟩ := act_before shows.reached acted
  rcases act_cases acted with ⟨pinned, who, thread, rfl, polls, made, rfl⟩ |
    ⟨thread, plain, known, stepped, rfl⟩
  · obtain ⟨top, here⟩ := Option.ne_none_iff_exists'.mp busy
    rw [shows.shows.polls here] at polls
    have polling := Option.some.inj polls
    have fresh := shows.fresh made (List.prefix_append _ _) before current
    have makes := Thread.make_makes shows.reached.sound made
    have tells := shows.shows.create shows.reached.sound here polling made fresh
    refine ⟨_, _, .creates here polling fresh makes.positive, ⟨there, tells.toShows, ?_⟩, tells, rfl⟩
    show s.members ++ [who] = (r.handles ++ [who.handle]).map thread.issued
    rw [List.map_append, shows.members, List.map_singleton]
    congr 1
    · refine List.map_congr_left fun handle member => ?_
      exact (shows.still earlier before current member).symm
    · rw [makes.issued, Function.update_self]
  · have known' : ∀ handle, a = .wake handle → handle ∈ r.handles := fun handle woken =>
      shows.member.mp (known handle woken)
    rcases shows.shows.act shows.reached.counted busy known' plain with ⟨refused, _⟩ |
      ⟨after, r', done, acted', tells⟩
    · rw [refused] at stepped
      cases stepped
    · rw [done] at stepped
      cases stepped
      have issued : thread.issued = s.thread.issued := by
        rcases Thread.codeStep_step done with rfl | ⟨b, plain', taken⟩
        · rfl
        · exact (Thread.step_plain plain' taken).2
      refine ⟨_, _, .does plain known' acted', ⟨there, tells.toShows, ?_⟩, tells, rfl⟩
      show s.members = r'.handles.map thread.issued
      rw [Roster.act_handles acted', issued, shows.members]

/-- A replay shows the same roster, with the handles still to come free. -/
structure Replays (session : Nat) (whole : List Nat) (s : Scene) (r : Roster) : Prop
    extends Shows session s r where
  tells : s.thread.Tells session r
  coming : r.handles ++ s.thread.reissue = whole
  unused : ∀ handle ∈ s.thread.reissue, handle ∉ r.handles → s.thread.table.inUse handle = false

/-- What a roster shows, the replay does. -/
theorem Replays.act {whole : List Nat} {r' : Roster} {l : Learned}
    (replays : s.Replays session whole r) (busy : r.top ≠ none) {a : CodeAct} (acts : r.Acts a l r')
    (expected : r'.handles <+: whole) : ∃ next, s.act a = some next ∧ next.Replays session whole r' ∧
      next.learned = l :: s.learned := by
  have shows := replays.toShows
  cases acts with
  | @creates top pinned handle here polls fresh positive =>
    -- the handle is the next to come
    obtain ⟨rest, coming⟩ : ∃ rest, s.thread.reissue = handle :: rest := by
      obtain ⟨rest, ends⟩ := expected
      refine ⟨rest, ?_⟩
      have both := replays.coming.trans ends.symm
      rw [show (r.create pinned handle).handles = r.handles ++ [handle] from rfl,
        List.append_assoc] at both
      exact List.append_cancel_left both
    have unused := replays.unused handle (by rw [coming]; exact List.mem_cons_self) fresh
    obtain ⟨who, after, made, rfl, left, others⟩ := Thread.make_reissued shows.reached.sound coming
      positive unused pinned
    have tells := shows.shows.create shows.reached.sound here polls made fresh
    have makes := Thread.make_makes shows.reached.sound made
    have stepped := s.thread.step_make pinned
    rw [made] at stepped
    have acted : s.act (.create pinned) =
        some ⟨after, s.members ++ [who], .issued who.handle :: s.learned⟩ := by
      simp only [Scene.act, shows.shows.polls here, polls, Option.getD_some, if_true, made,
        Option.map_some]
    refine ⟨_, acted, ⟨⟨shows.reached.step stepped, tells.toShows, ?_⟩, tells, ?_, ?_⟩, rfl⟩
    · show s.members ++ [who] = (r.handles ++ [who.handle]).map after.issued
      rw [List.map_append, shows.members, List.map_singleton, makes.issued, Function.update_self]
      congr 1
      refine List.map_congr_left fun other member => ?_
      rw [Function.update_of_ne]
      rintro rfl
      exact fresh member
    · show (r.handles ++ [who.handle]) ++ after.reissue = whole
      rw [left, ← replays.coming, coming, List.append_assoc]
      rfl
    · intro other member apart
      change other ∈ after.reissue at member
      have away : other ≠ who.handle ∧ other ∉ r.handles := by
        simpa [Roster.create, and_comm] using apart
      rw [left] at member
      refine (others other away.1).trans (replays.unused other ?_ away.2)
      rw [coming]
      exact List.mem_cons_of_mem _ member
  | does plain known acted =>
    rcases shows.shows.act shows.reached.counted busy known plain with ⟨_, refused⟩ |
      ⟨after, r'', done, acted', tells⟩
    · rw [refused] at acted
      cases acted
    · rw [acted'] at acted
      cases acted
      have goes : s.act a = some ⟨after, s.members, .did a :: s.learned⟩ := by
        cases a with
        | create pinned => exact absurd rfl (plain pinned)
        | wake handle =>
          simp only [Scene.act, shows.member.mpr (known handle rfl), if_true, done, Option.map_some]
        | _ => simp only [Scene.act, done, Option.map_some]
      obtain ⟨there, _⟩ := act_before shows.reached goes
      have kept : after.reissue = s.thread.reissue ∧ after.issued = s.thread.issued ∧
          ∀ handle, s.thread.table.inUse handle = false → after.table.inUse handle = false := by
        rcases Thread.codeStep_step done with rfl | ⟨b, plain', taken⟩
        · exact ⟨rfl, rfl, fun _ => id⟩
        · obtain ⟨reissue, issued⟩ := Thread.step_plain plain' taken
          exact ⟨reissue, issued, fun handle => Thread.step_unused plain' taken⟩
      obtain ⟨reissue, issued, unused⟩ := kept
      have handles := Roster.act_handles acted'
      refine ⟨_, goes, ⟨⟨there, tells.toShows, ?_⟩, tells, ?_, ?_⟩, rfl⟩
      · show s.members = _
        rw [handles, issued, shows.members]
      · show _ ++ after.reissue = whole
        rw [handles, reissue, replays.coming]
      · intro handle member apart
        rw [handles] at apart
        change handle ∈ after.reissue at member
        rw [reissue] at member
        exact unused handle (replays.unused handle member apart)

/-- A call that runs to its end in one scene does in the other. -/
theorem Replays.settle {whole : List Nat} {s' : Scene} {handle : Nat} {c : AnyCall}
    {events : List Record.Event} {session' : Nat} (shows : s.Shows session r) (rest : r.top = none → s.thread.Rest)
    (replays : s'.Replays session' whole r) (learned : s'.learned = s.learned)
    (called : r.Called handle c events) (settled : s.settle code fuel = some next)
    (before : next.Before final) (current : final.Current)
    (all : final.members.map Who.handle = whole) :
    ∃ next' r', s'.settle code fuel = some next' ∧ next.Shows session r' ∧
      next'.Replays session' whole r' ∧ next'.learned = next.learned ∧ r'.top = none ∧
      r'.Called handle c events := by
  -- by induction on the fuel, both scenes an act further each time
  induction fuel generalizing s s' r with
  | zero => cases settled
  | succ fuel ih =>
    unfold Scene.settle at settled ⊢
    rw [shows.shows.isEmpty rest] at settled
    rw [replays.shows.isEmpty replays.tells.rest]
    cases here : r.top with
    | none =>
      rw [here] at settled
      cases settled
      exact ⟨s', r, rfl, shows, replays, learned, here, called⟩
    | some top =>
      have busy : r.top ≠ none := by
        rw [here]
        simp
      rw [here] at settled
      obtain ⟨middle, acted, remaining⟩ := Option.bind_eq_some_iff.mp settled
      obtain ⟨there, _⟩ := act_before shows.reached acted
      -- the members are those there will be, or fewer
      have onward := ((settle_before there remaining).2).trans before
      obtain ⟨l, r', acts, shows', tells, learned'⟩ := shows.act busy acted onward current
      have expected : r'.handles <+: whole := by
        rw [← all, ← shows'.handles]
        exact onward.members.map _
      obtain ⟨middle', acted', replays', learned''⟩ := replays.act busy acts expected
      obtain ⟨next', r'', settled', rest'⟩ := ih shows' tells.rest replays'
        (by rw [learned', learned'', learned]) (called.acts busy acts) remaining
      refine ⟨next', r'', ?_, rest'⟩
      rw [learned]
      simp only [Option.isNone_some, Bool.false_eq_true, if_false]
      rw [acted']
      exact settled'

theorem plain_act (handle : Nat) (c : AnyCall) : (c.act handle).plain = true := by
  rcases c with (_ | record) | _ <;> rfl

/-- A call on a machine of the session, in a scene that shows it. -/
theorem Shows.called (shows : s.Shows session r) (rest : s.thread.Rest) (idle : r.top = none)
    {handle : Nat} (member : handle ∈ r.handles) (c : AnyCall) :
    ∃ after, s.thread.step (c.act handle) = some after ∧
      after.Tells session (r.call handle c) ∧ after.reissue = s.thread.reissue ∧
      ∀ learned, Shows session ⟨after, s.members, learned⟩ (r.call handle c) := by
  obtain ⟨after, stepped, tells⟩ := shows.shows.call shows.reached.counted rest idle member c
  obtain ⟨reissue, issued⟩ := Thread.step_plain (plain_act handle c) stepped
  refine ⟨after, stepped, tells, reissue, fun learned => ⟨shows.reached.step stepped, tells.toShows, ?_⟩⟩
  show s.members = (r.call handle c).handles.map after.issued
  rw [r.call_handles, issued, shows.members]

/-- A call made again. -/
theorem Replays.call {whole : List Nat} {s' : Scene} {session' : Nat} (shows : s.Shows session r) (rest : s.thread.Rest) (idle : r.top = none)
    (replays : s'.Replays session' whole r) (learned : s'.learned = s.learned)
    {handle : Nat} (member : handle ∈ r.handles) {c : AnyCall}
    (called : s.call code fuel handle c = some next) (before : next.Before final)
    (current : final.Current) (all : final.members.map Who.handle = whole) :
    ∃ next' r', s'.call code fuel handle c = some next' ∧ next.Shows session r' ∧
      next'.Replays session' whole r' ∧ next'.learned = next.learned ∧ r'.top = none ∧
      r'.Called handle c r.events := by
  obtain ⟨after, stepped, tells, _, shows₁⟩ := shows.called rest idle member c
  obtain ⟨after', stepped', tells', reissue, shows₂⟩ :=
    replays.toShows.called (replays.tells.rest idle) idle member c
  obtain ⟨thread, taken, settled⟩ := Option.bind_eq_some_iff.mp called
  rw [stepped] at taken
  cases taken
  have empty := tells.toShows.isEmpty tells.rest
  have empty' := tells'.toShows.isEmpty tells'.rest
  have begun : Replays session' whole ⟨after', s'.members,
      if after'.frames.isEmpty then s'.learned else .called handle c :: s'.learned⟩
      (r.call handle c) := by
    refine ⟨shows₂ _, tells', ?_, fun other member apart => ?_⟩
    · show (r.call handle c).handles ++ after'.reissue = whole
      rw [r.call_handles, reissue, replays.coming]
    · change other ∈ after'.reissue at member
      rw [reissue] at member
      rw [r.call_handles] at apart
      exact Thread.step_unused (plain_act handle c) stepped' (replays.unused other member apart)
  obtain ⟨next', r', settled', rest'⟩ := Replays.settle (shows₁ _) tells.rest begun (by
    rw [empty, empty', learned]) (Roster.called_call member c) settled before current all
  refine ⟨next', r', ?_, rest'⟩
  unfold Scene.call
  rw [stepped']
  exact settled'

/-- What the rest of the thread does leaves the roster as it is. -/
theorem Shows.aside (shows : s.Shows session r) (idle : r.top = none) {a : Act} {thread : Thread}
    (aside : s.isAside session a = true) (stepped : s.thread.step a = some thread)
    (before : Before { s with thread } final) (current : final.Current) :
    Shows session { s with thread } r := by
  have first : s.Before { s with thread } := ⟨List.prefix_rfl, shows.reached.follows stepped⟩
  have issuing : ∀ pinned, s.thread.step (if pinned then .newPinned else .new) = some thread →
      ∀ who after, s.thread.make pinned = some (who, after) → who.handle ∉ r.handles := by
    intro pinned taken who after made
    rw [s.thread.step_make, made] at taken
    cases taken
    exact shows.fresh made List.prefix_rfl before current
  have apart : s.thread.Apart session r.handles a := by
    cases a with
    | new => exact issuing false stepped
    | newPinned => exact issuing true stepped
    | resume handle | reply handle record | free handle =>
      have other : s.thread.issued handle ∉ s.members := by simpa [Scene.isAside] using aside
      exact fun member => other (shows.member.mpr member)
    | wake who =>
      have other : who ∉ s.members := by simpa [Scene.isAside] using aside
      rintro handle member rfl
      exact other (shows.member.mpr member)
    | finishRecording n =>
      have other : n ≠ session := by simpa [Scene.isAside] using aside
      exact other
    | _ => trivial
  have shown := shows.shows.step_aside idle shows.reached.sound shows.reached.counted apart stepped
  refine ⟨shows.reached.step stepped, shown, ?_⟩
  show s.members = r.handles.map thread.issued
  rw [shows.members]
  exact List.map_congr_left fun handle member => (shows.still first before current member).symm

theorem event_call (c : AnyCall) (outcome : Outcome) (machine : Nat) :
    (c.event outcome machine).call = c := by
  rcases c with (_ | record) | _ <;> rfl

theorem event_machine (c : AnyCall) (outcome : Outcome) (machine : Nat) :
    (c.event outcome machine).machine = machine := by
  rcases c with (_ | record) | _ <;> rfl

/-- A handle of the session keeps its place. -/
theorem Replays.place {whole : List Nat} (replays : s.Replays session whole r) {handle : Nat}
    (member : handle ∈ r.handles) : r.handles.idxOf handle = whole.idxOf handle := by
  rw [← replays.coming, List.idxOf_append_of_mem member]

/-- A replay finds the machine an event is of. -/
theorem Replays.recordedHandle {whole : List Nat} (replays : s.Replays session whole r)
    (few : whole.length ≤ 2 ^ 32) {handle : Nat} (member : handle ∈ r.handles) :
    s.thread.table.recordedHandle session (Log.number (r.handles.idxOf handle)) = some handle := by
  have place := List.idxOf_lt_length_of_mem member
  have small : r.handles.length ≤ whole.length := by
    rw [← replays.coming, List.length_append]
    exact Nat.le_add_right _ _
  unfold Table.recordedHandle
  rw [replays.shows.log, Option.bind_some, Log.number_of_lt (by omega)]
  exact (List.getElem?_eq_getElem place).trans (congrArg some (List.getElem_idxOf place))

/-- What the host did is done again: the events it left are the ones that are made again. -/
theorem Replays.moves {whole : List Nat} {s' : Scene} {session' : Nat} {moves : List Move} (shows : s.Shows session r) (idle : r.top = none)
    (replays : s'.Replays session' whole r) (learned : s'.learned = s.learned)
    (moved : moves.foldlM (Scene.move code fuel session) s = some final) (current : final.Current)
    (all : final.members.map Who.handle = whole) (few : whole.length ≤ 2 ^ 32) :
    ∃ events next' r', r'.events = r.events ++ events ∧ r'.top = none ∧ final.Shows session r' ∧
      next'.Replays session' whole r' ∧ next'.learned = final.learned ∧
      ∀ more place, fuel ≤ more →
        s'.replayEvents code more session' place events = some (.ok (), next') := by
  induction moves generalizing s s' r with
  | nil =>
    cases moved
    exact ⟨[], s', r, (List.append_nil _).symm, idle, shows, replays, learned,
      fun _ _ _ => rfl⟩
  | cons m moves ih =>
    obtain ⟨middle, first, rest⟩ := Option.bind_eq_some_iff.mp moved
    obtain ⟨there, _⟩ := move_before shows.reached first
    obtain ⟨_, before⟩ := moves_before there rest
    unfold Scene.move at first
    cases m with
    | aside a =>
      -- the replay stays where it is
      dsimp only at first
      split at first
      · next aside =>
        obtain ⟨thread, stepped, rfl⟩ := Option.map_eq_some_iff.mp first
        exact ih (shows.aside idle aside stepped before current) idle replays learned rest
      · cases first
    | call handle c =>
      dsimp only at first
      split at first
      · next met =>
        have guard : (s.thread.frames = [] ∧ s.thread.call = none) ∧
            s.thread.issued handle ∈ s.members := by simpa using met
        obtain ⟨⟨frames, call⟩, member⟩ := guard
        have own := shows.member.mp member
        obtain ⟨middle', r', called', shows', replays', learned', idle', called⟩ :=
          Replays.call shows ⟨frames, call⟩ idle replays learned own first before current all
        obtain ⟨outcome, returned⟩ := called.returned idle'
        obtain ⟨events, next', r'', more', idle'', shown, replayed, learned'', again⟩ :=
          ih shows' idle' replays' learned' rest
        rw [replays'.place called.member, ← replays.place own] at returned
        have told := replays'.tells.told idle' _ (by rw [returned, List.getLast?_concat])
        rw [Thread.event_outcome] at told
        refine ⟨c.event outcome (Log.number (r.handles.idxOf handle)) :: events, next', r'', ?_,
          idle'', shown, replayed, learned'', fun more place enough => ?_⟩
        · rw [more', returned, List.append_assoc]
          rfl
        · have found := replays.recordedHandle few own
          unfold Scene.replayEvents
          simp only [event_machine, found, event_call, call_more enough called', Option.bind_eq_bind,
            Option.bind_some, told, Thread.event_outcome, if_true]
          exact again more (place + 1) enough
      · cases first

/-! ### From the root to the last machine freed -/

/-- A root that is as it was created, at the start of its session. -/
theorem begins {t begun : Thread} (reached : t.Reached) (rest : t.Rest) {root : Nat} {pinned : Bool}
    (part : t.HasPart root (.new pinned)) (stepped : t.step (.record root) = some begun) :
    begun.Tells t.table.nextSession (Roster.begin root pinned) := by
  have counted := reached.counted
  simp only [Thread.step] at stepped
  obtain ⟨⟨session, table⟩, started, rfl⟩ := Option.map_eq_some_iff.mp stepped
  obtain ⟨rfl, rfl⟩ := Table.startRecording_spec started
  have unopened : t.table.sessions t.table.nextSession = none := by
    by_contra opened
    exact absurd (counted.fresh _ (Option.isSome_iff_ne_none.mpr opened)) (Nat.lt_irrefl _)
  refine ⟨⟨⟨reached.sound.dated.issued, ?_, fun handle => ?_, fun handle member => ?_⟩, ?_, ?_, ?_⟩,
    fun _ => ⟨rest.frames, rest.call⟩, ?_⟩
  · exact Function.update_self _ _ _
  · show Table.tapsIn (Function.update t.table.recorded root _ handle) t.table.nextSession = _
    have untapped := counted.untapped _ unopened handle
    by_cases own : handle = root
    · subst own
      rw [Function.update_self, Table.tapsIn_append, untapped]
      simp [Roster.begin, Table.tapsIn]
    · rw [Function.update_of_ne own, untapped]
      simp [Roster.begin, own]
  · obtain rfl := List.mem_singleton.mp member
    exact part.of_same ⟨rfl, rfl, rfl, rfl, rfl, rfl, rfl, rfl⟩
  · have away := rest.away [root]
    exact ⟨away.frames, away.call⟩
  · intro top running
    cases running
  · intro handle building
    cases pinned <;> cases building
  · intro _ event last
    cases last

/-- The destructors that a free runs come to an end, and wake only machines of the session. -/
inductive Drops (code : Code) (handles : List Nat) : List Learned → Prop
  | freed {learned : List Learned} (done : code learned = .freed) : Drops code handles learned
  | wake {learned : List Learned} {handle : Nat} (woken : code learned = .wake handle)
      (known : handle ∈ handles) (rest : Drops code handles (.did (.wake handle) :: learned)) :
      Drops code handles learned

/-- A machine freed as a replay ends. -/
structure Frees (handles : List Nat) (s next : Scene) : Prop where
  frames : next.thread.frames = []
  known : ∀ handle ∈ handles, next.thread.issued handle ∈ next.members
  learned : s.learned <:+ next.learned

theorem settle_frees {handles : List Nat} (known : ∀ handle ∈ handles, s.thread.issued handle ∈ s.members)
    {called : Who} (stack : s.thread.frames = [.freeing called])
    (drops : Drops code handles s.learned) :
    ∃ enough next, Frees handles s next ∧
      ∀ fuel, enough ≤ fuel → s.settle code fuel = some next := by
  generalize same : s.learned = learned at drops
  induction drops generalizing s with
  | @freed learned done =>
    obtain ⟨thread, acted, frames, issued⟩ : ∃ thread,
        s.act .freed = some ⟨thread, s.members, .did .freed :: s.learned⟩ ∧ thread.frames = [] ∧
          thread.issued = s.thread.issued := by
      obtain ⟨sessions, returned⟩ := Thread.returns_spec { s.thread with frames := [] } called .free
        ⟨Contract.ok, []⟩ []
      refine ⟨Thread.returns { s.thread with frames := [] } called .free ⟨Contract.ok, []⟩ [], ?_, ?_, ?_⟩
      · simp only [Scene.act, Thread.codeStep, Thread.step, stack, Option.map_some]
      · rw [returned]
      · rw [returned]
    refine ⟨2, ⟨thread, s.members, .did .freed :: s.learned⟩,
      ⟨frames, fun handle member => ?_, List.suffix_cons _ _⟩, fun fuel enough => ?_⟩
    · show thread.issued handle ∈ s.members
      rw [issued]
      exact known handle member
    · obtain ⟨more, rfl⟩ : ∃ m, fuel = m + 2 := ⟨fuel - 2, by omega⟩
      simp only [Scene.settle, stack, List.isEmpty_cons, Bool.false_eq_true, if_false, same, done,
        acted, Option.bind_some, frames, List.isEmpty_nil, if_true]
  | @wake learned handle woken own rest ih =>
    -- the machine it wakes, if it has a waker to call
    obtain ⟨thread, stepped, frames, issued⟩ : ∃ thread,
        s.thread.codeStep (.wake handle) = some thread ∧ thread.frames = s.thread.frames ∧
          thread.issued = s.thread.issued := by
      unfold Thread.codeStep
      dsimp only
      split
      · next hook =>
        have taken : s.thread.step (.wake (s.thread.issued handle)) =
            some (s.thread.wakeUp (s.thread.issued handle)) := if_pos hook
        exact ⟨_, taken, (s.thread.wakeUp_rest _).2.1, (Thread.step_plain rfl taken).2⟩
      · exact ⟨_, rfl, rfl, rfl⟩
    obtain ⟨enough, next, frees, ends⟩ := @ih ⟨thread, s.members, .did (.wake handle) :: s.learned⟩
      (fun h member => by rw [issued]; exact known h member) (frames.trans stack) (by rw [same])
    refine ⟨enough + 1, next, ⟨frees.frames, frees.known, (List.suffix_cons _ _).trans frees.learned⟩,
      fun fuel more => ?_⟩
    obtain ⟨left, rfl⟩ : ∃ m, fuel = m + 1 := ⟨fuel - 1, by omega⟩
    simp only [Scene.settle, stack, List.isEmpty_cons, Bool.false_eq_true, if_false, same, woken,
      Scene.act, known handle own, if_true, stepped, Option.map_some, Option.bind_some]
    rw [← same]
    exact ends left (by omega)

theorem call_frees {handles : List Nat} (known : ∀ handle ∈ handles, s.thread.issued handle ∈ s.members)
    (rest : s.thread.frames = []) (handle : Nat)
    (drops : Drops code handles (.called handle .free :: s.learned)) :
    ∃ enough next, Frees handles s next ∧
      ∀ fuel, enough ≤ fuel → s.call code fuel handle .free = some next := by
  have stepped : s.thread.step (.free handle) = some (s.thread.free handle) := rfl
  have issued := (Thread.step_plain rfl stepped).2
  have known' : ∀ h ∈ handles, (s.thread.free handle).issued h ∈ s.members := by
    intro h member
    rw [issued]
    exact known h member
  -- it is done at once, or its frame is the only one
  have stack : (s.thread.free handle).frames = [] ∨
      (s.thread.free handle).frames = [.freeing (s.thread.issued handle)] := by
    obtain ⟨middle, fewer, outcome⟩ := s.thread.free_spec handle
    have empty : middle.frames = [] := by
      rw [fewer.rest]
      exact rest
    rcases outcome with ⟨code, done⟩ | dropping
    · obtain ⟨sessions, same⟩ := middle.returns_spec (s.thread.issued handle) .free ⟨code, []⟩ []
      rw [done, same]
      exact .inl empty
    · rw [dropping]
      exact .inr (congrArg _ empty)
  rcases stack with returned | dropping
  · refine ⟨1, ⟨s.thread.free handle, s.members, s.learned⟩, ⟨returned, known', List.suffix_rfl⟩,
      fun fuel enough => ?_⟩
    -- one turn is enough to see that there is no frame
    obtain ⟨more, rfl⟩ : ∃ m, fuel = m + 1 := ⟨fuel - 1, by omega⟩
    simp only [Scene.call, AnyCall.act, stepped, Option.bind_some, returned, List.isEmpty_nil,
      if_true, Scene.settle]
  · obtain ⟨enough, next, frees, ends⟩ := @settle_frees code
      ⟨s.thread.free handle, s.members, .called handle .free :: s.learned⟩ handles known'
      (s.thread.issued handle) dropping drops
    refine ⟨enough, next, ⟨frees.frames, frees.known, (List.suffix_cons _ _).trans frees.learned⟩,
      fun fuel more => ?_⟩
    simp only [Scene.call, AnyCall.act, stepped, Option.bind_some, dropping, List.isEmpty_cons,
      Bool.false_eq_true, if_false]
    exact ends fuel more

/-- Freeing machines comes to an end. -/
theorem frees_all {handles : List Nat} (known : ∀ handle ∈ handles, s.thread.issued handle ∈ s.members)
    (rest : s.thread.frames = []) (list : List Nat)
    (drops : ∀ learned handle, s.learned <:+ learned →
      Drops code handles (.called handle .free :: learned)) :
    ∃ enough, ∀ fuel, enough ≤ fuel → ∃ next,
      list.foldlM (fun s handle => Scene.call code fuel s handle .free) s = some next := by
  induction list generalizing s with
  | nil => exact ⟨0, fun _ _ => ⟨s, rfl⟩⟩
  | cons handle list ih =>
    obtain ⟨enough, next, frees, called⟩ := call_frees known rest handle (drops _ handle List.suffix_rfl)
    obtain ⟨more, others⟩ := ih frees.known frees.frames fun learned handle later =>
      drops learned handle (frees.learned.trans later)
    refine ⟨max enough more, fun fuel big => ?_⟩
    obtain ⟨final, freed⟩ := others fuel (by omega)
    refine ⟨final, ?_⟩
    rw [List.foldlM_cons, called fuel (by omega)]
    exact freed

/-- A replay's root takes the handle of the recording's, and those to come take the others. -/
theorem replay_begins {t : Thread} (there : t.Reached) (resting : t.Rest) {root : Nat}
    {tail : List Nat} (positive : root ≠ 0)
    (free : ∀ handle ∈ root :: tail, t.table.inUse handle = false)
    (room : t.table.nextSession + 1 < 2 ^ 32) (pinned : Bool) :
    ∃ (who : Who) (t₂ t₃ : Thread), { t with reissue := root :: tail }.make pinned = some (who, t₂) ∧
      who.handle = root ∧ t₂.step (.record root) = some t₃ ∧
      Replays t₂.table.nextSession (root :: tail) ⟨t₃, [who], []⟩ (Roster.begin root pinned) := by
  have reissued : t.step (.reissue (root :: tail)) = some { t with reissue := root :: tail } := rfl
  have there₁ := there.step reissued
  obtain ⟨who, t₂, made, own, coming, others⟩ := Thread.make_reissued there₁.sound rfl positive
    (free root List.mem_cons_self) pinned
  have makes := Thread.make_makes there₁.sound made
  have stepped := Thread.step_make { t with reissue := root :: tail } pinned
  rw [made] at stepped
  have there₂ := there₁.step stepped
  have rest₂ : t₂.Rest := by
    constructor
    · rw [makes.frames]
      exact resting.frames
    · rw [makes.call]
      exact resting.call
  -- there is a session number left
  obtain ⟨t₃, opened⟩ : ∃ t₃, t₂.step (.record root) = some t₃ := by
    have sessions : t₂.table.nextSession = t.table.nextSession := by
      obtain ⟨⟨w, middle⟩, made', same⟩ := Option.map_eq_some_iff.mp made
      obtain ⟨_, _, _, _, _, _, _, rfl⟩ := Thread.create_spec _ pinned made'
      obtain ⟨-, rfl⟩ := Prod.mk.inj same
      cases pinned <;> rfl
    simp only [Thread.step, Table.startRecording, sessions, room, if_true, Option.map_some]
    exact ⟨_, rfl⟩
  subst own
  have tells := begins there₂ rest₂ makes.part opened
  obtain ⟨reissue₃, issued₃⟩ := Thread.step_plain (by rfl) opened
  refine ⟨who, t₂, t₃, made, rfl, opened, ⟨there₂.step opened, tells.toShows, ?_⟩, tells, ?_,
    fun handle member apart => ?_⟩
  · show [who] = [t₃.issued who.handle]
    rw [issued₃, makes.issued, Function.update_self]
  · show [who.handle] ++ t₃.reissue = _
    rw [reissue₃, coming]
    rfl
  · change handle ∈ t₃.reissue at member
    rw [reissue₃, coming] at member
    refine Thread.step_unused (by rfl) opened ?_
    refine (others handle ?_).trans (free handle (List.mem_cons_of_mem _ member))
    rintro rfl
    exact apart (List.mem_singleton_self _)

/-- A replay that is done finishes its own recording, and frees its machines. -/
theorem Replays.ends {whole : List Nat} {events : List Record.Event}
    (replays : s.Replays session whole r) (idle : r.top = none) (made : r.events = events)
    (drops : ∀ learned handle, s.learned <:+ learned →
      Drops code r.handles (.called handle .free :: learned)) :
    s.thread.table.sessions session = some ⟨r.handles, events⟩ ∧
      ∃ ended, Thread.step { s.thread with reissue := [] } (.finishRecording session) = some ended ∧
        ∃ enough, ∀ fuel, enough ≤ fuel → ∃ after : Scene,
          r.handles.foldlM (fun s handle => Scene.call code fuel s handle .free)
            { s with thread := ended } = some after := by
  have own : s.thread.table.sessions session = some ⟨r.handles, events⟩ := by
    rw [replays.shows.log, made]
  obtain ⟨ended, finished, issued, frames⟩ : ∃ ended,
      Thread.step { s.thread with reissue := [] } (.finishRecording session) = some ended ∧
        ended.issued = s.thread.issued ∧ ended.frames = [] := by
    simp only [Thread.step, Table.finishRecording, own]
    exact ⟨_, rfl, rfl, (replays.tells.rest idle).frames⟩
  have known : ∀ handle ∈ r.handles, ended.issued handle ∈ s.members := by
    intro handle member
    rw [issued]
    exact replays.toShows.member.mpr member
  exact ⟨own, ended, finished, frees_all (s := { s with thread := ended }) known frames r.handles drops⟩

end Scene

/-! ### Recorded runs -/

/-- A recorded run, on a thread that makes no other call: a root that is as it was created is
recorded, and the machines' code does what it may. If no handle of the session was issued again
while it was recorded, and none is in use when the replay begins, the replay makes the same calls
with the same outcomes, on machines with the same handles. -/
theorem recorded_runs_replay (code : Code) (fuel root : Nat) (pinned : Bool) (moves : List Move)
    (start : Thread) (reached : start.Reached) (rest : start.Rest)
    (created : start.HasPart root (.new pinned)) (log : Log) (s : Scene)
    (recorded : recordRun code fuel root moves start = some (log, s)) (current : s.Current)
    (few : s.members.length ≤ 2 ^ 32) (t : Thread) (there : t.Reached) (resting : t.Rest)
    (unused : ∀ who ∈ s.members, t.table.inUse who.handle = false)
    (room : t.table.nextSession + 1 < 2 ^ 32)
    (drops : ∀ learned handle, s.learned <:+ learned →
      Scene.Drops code log.handles (.called handle .free :: learned)) :
    ∃ enough, ∀ fuel, enough ≤ fuel → ∃ after,
      replay code fuel pinned log t = some (.ok (), log, after) := by
  obtain ⟨begun, opened, recorded⟩ := Option.bind_eq_some_iff.mp recorded
  obtain ⟨final, moved, recorded⟩ := Option.bind_eq_some_iff.mp recorded
  obtain ⟨log', kept, recorded⟩ := Option.bind_eq_some_iff.mp recorded
  obtain ⟨ended, finished, same⟩ := Option.bind_eq_some_iff.mp recorded
  cases same
  -- the recording, and the handles it had in the end
  have tells := Scene.begins reached rest created opened
  have still := Thread.step_plain (by rfl) finished
  have current' : final.Current := by
    intro who member
    have kept := current who member
    rwa [show ended.issued = final.thread.issued from still.2] at kept
  have shows : Scene.Shows start.table.nextSession ⟨begun, [begun.issued root], []⟩
      (Roster.begin root pinned) := ⟨reached.step opened, tells.toShows, rfl⟩
  obtain ⟨final_reached, before⟩ := Scene.moves_before shows.reached moved
  generalize whole_is : final.members.map Who.handle = whole
  obtain ⟨tail, rfl⟩ : ∃ tail, whole = root :: tail := by
    obtain ⟨others, members⟩ := before.members
    refine ⟨others.map Who.handle, ?_⟩
    rw [← whole_is, ← members, List.map_append, List.map_singleton, tells.issued]
    rfl
  have free : ∀ handle ∈ root :: tail, t.table.inUse handle = false := by
    intro handle member
    rw [← whole_is] at member
    obtain ⟨who, inside, rfl⟩ := List.mem_map.mp member
    exact unused who inside
  have positive : root ≠ 0 := by
    apply reached.sound.dated.handles root (start.issued root)
    cases pinned with
    | true => exact .inr created.parked
    | false => exact .inl created.machines
  -- the replay's root
  obtain ⟨who, t₂, t₃, made, rfl, opened', replays⟩ :=
    Scene.replay_begins there resting positive free room pinned
  -- the same calls
  obtain ⟨events, s', r, made_events, idle, shown, replayed, learned, again⟩ :=
    Scene.Replays.moves shows rfl replays rfl moved current' whole_is (by
      rw [← whole_is, List.length_map]
      exact few)
  have same : log = ⟨r.handles, events⟩ := by
    change final.thread.table.sessions start.table.nextSession = some log at kept
    rw [shown.shows.log, made_events] at kept
    exact (Option.some.inj kept).symm
  have all : who.handle :: tail = r.handles := whole_is.symm.trans shown.handles
  subst same
  -- its machines are freed
  have drops' : ∀ learned handle, s'.learned <:+ learned →
      Scene.Drops code r.handles (.called handle .free :: learned) := by
    intro learned' handle later
    exact drops learned' handle (learned ▸ later)
  obtain ⟨own, t₅, ended', enough, frees⟩ := replayed.ends idle made_events drops'
  refine ⟨max fuel enough, fun more big => ?_⟩
  obtain ⟨after, freed⟩ := frees more (by omega)
  refine ⟨after.thread, ?_⟩
  have reissued : t.step (.reissue (who.handle :: tail)) =
      some { t with reissue := who.handle :: tail } := rfl
  have stopped : s'.thread.step .stopReissue = some { s'.thread with reissue := [] } := rfl
  unfold replay
  rw [← all]
  simp only [reissued, made, opened', again more 0 (by omega), stopped, ended', Option.bind_eq_bind,
    Option.bind_some, Option.pure_def]
  have finish : (s'.thread.table.finishRecording t₂.table.nextSession).1 =
      some ⟨r.handles, events⟩ := own
  rw [finish, Option.getD_some, freed, Option.bind_some, all]

/-- Every poll creates a machine and wakes it. -/
def spawner : Code
  | .called _ .free :: _ => .freed
  | .called _ (.poll _) :: _ => .beginPoll
  | .did .beginPoll :: _ => .create false
  | .issued child :: _ => .wake child
  | _ => .finish (.ok ([], .idle))

/-- A root creates a machine while it is recorded, and so does something else. The replay is in a
process that has used the handles before. -/
theorem recorded_runs_replay_spawner : ∃ start log s t,
    Transition.run Thread.step Thread.new [.new] = some start ∧
    recordRun spawner 10 1 [.call 1 (.poll .resume), .aside .new, .call 2 (.poll .resume),
      .call 1 .free, .call 1 (.poll .resume)] start = some (log, s) ∧
    Transition.run Thread.step Thread.new [.new, .new, .free 1, .freed, .free 2, .freed] = some t ∧
    ∃ enough, ∀ fuel, enough ≤ fuel → ∃ after,
      replay spawner fuel false log t = some (.ok (), log, after) := by
  refine ⟨_, _, _, _, rfl, rfl, rfl, ?_⟩
  refine recorded_runs_replay spawner 10 1 false [.call 1 (.poll .resume), .aside .new,
    .call 2 (.poll .resume), .call 1 .free, .call 1 (.poll .resume)] _ ⟨[.new], rfl⟩ ⟨rfl, rfl⟩ ?_ _ _
    rfl ?_ (by decide) _ ⟨[.new, .new, .free 1, .freed, .free 2, .freed], rfl⟩ ⟨rfl, rfl⟩ ?_
    (by decide) fun _ _ _ => .freed rfl
  · exact ⟨rfl, rfl, rfl, rfl, by simp [Part.new], rfl, rfl, rfl, rfl⟩
  · unfold Scene.Current
    decide
  · decide

/-- A machine that waits. -/
def idler : Code
  | .called _ .free :: _ => .freed
  | .called _ (.poll _) :: _ => .beginPoll
  | _ => .finish (.ok ([], .idle))

/-- A root is recorded twice, and freed. One recording is replayed while the other is open, whose
log gets the calls of the new machine as well: when it is replayed in turn, the root is gone by
then. -/
theorem recorded_run_diverges : ∃ start log s,
    Transition.run Thread.step Thread.new [.new] = some start ∧
    recordRun idler 10 1 [.aside (.record 1), .call 1 .free, .aside (.finishRecording 2),
      .aside (.reissue [1]), .aside .new, .aside (.record 1), .aside (.resume 1), .aside .beginPoll,
      .aside (.finish (.ok ([], .idle))), .aside .stopReissue, .aside (.finishRecording 3),
      .aside (.free 1), .aside .freed] start = some (log, s) ∧
    s.thread.Rest ∧ (∀ who ∈ s.members, s.thread.table.inUse who.handle = false) ∧
    ∀ fuel, (replay idler (fuel + 10) false log s.thread).map Prod.fst =
      some (.error (.outcome 1 ⟨2, []⟩ ⟨-5, []⟩)) := by
  refine ⟨_, _, _, rfl, rfl, ⟨rfl, rfl⟩, ?_, fun _ => rfl⟩
  decide

end SansEffort
