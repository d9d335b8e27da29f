import SansEffort.Thread
import SansEffort.Library.Transition

/-!
# Notices

What the history says of wakes, and that each notice is in one place until a call or `wakes`
hands it to the host. What breaks that is a destructor that panics as a call ends, a machine's or
that of its panic's payload: it unwinds past the end of `reporting_wakes`, and the notices of the
calls it ends are nobody's.
-/

namespace SansEffort

/-- A destructor panics as `guarded` ends, and unwinds past `reporting_wakes`. -/
def Act.unwinds : Act → Bool
  | .leavingPanicked => true
  | .droppingPanicked _ => true
  | _ => false

namespace Thread

/-! ### What the history says of wakes -/

/-- The machine's waker was called since its last poll began, or since it was built. -/
def wokenSince (who : Who) : List Happening → Bool
  | [] => false
  | .built w :: history => if w = who then false else wokenSince who history
  | .began w :: history => if w = who then false else wokenSince who history
  | .wakerCalled w :: history => if w = who then true else wokenSince who history
  | _ :: history => wokenSince who history

/-- The notices of it since then. -/
def noticesSince (who : Who) : List Happening → List Notice
  | [] => []
  | .built w :: history => if w = who then [] else noticesSince who history
  | .began w :: history => if w = who then [] else noticesSince who history
  | .noticed n :: history =>
    if n.who = who then n :: noticesSince who history else noticesSince who history
  | _ :: history => noticesSince who history

/-- The notices handed over: in the bytes of calls that returned, and of `wakes`. -/
def reported : List Happening → List Notice
  | [] => []
  | .returned _ _ _ woken :: history => woken ++ reported history
  | .wakesReturned woken :: history => woken ++ reported history
  | _ :: history => reported history

/-- What each call returned ends with a frame for each notice it hands over. -/
def Framed : List Happening → Prop
  | [] => True
  | .returned _ _ outcome woken :: history =>
    wokeFrames (woken.map (·.who.handle)) <:+ outcome.bytes ∧ Framed history
  | _ :: history => Framed history

/-- The notices collected by the calls still running. What `CALL` holds when none is running is
no call's. -/
def collecting : Option CallState → List Frame → List Notice
  | _, [] => []
  | call, .running _ _ _ _ outer :: frames =>
    (call.map CallState.woken).getD [] ++ collecting outer frames
  | call, .dropping _ _ _ _ outer :: frames =>
    (call.map CallState.woken).getD [] ++ collecting outer frames
  | call, .leaving _ _ _ outer :: frames =>
    (call.map CallState.woken).getD [] ++ collecting outer frames
  | call, _ :: frames => collecting call frames

/-- Everywhere a notice can be. -/
def places (t : Thread) : List Notice :=
  collecting t.call t.frames ++ t.wakes ++ reported t.history

/-! ### One place for each notice -/

/-- `CALL` is set for the calls that are running, and for none else. -/
def Nested : Option CallState → List Frame → Prop
  | call, [] => call = none
  | call, .running _ _ _ _ outer :: frames => call.isSome = true ∧ Nested outer frames
  | call, .dropping _ _ _ _ outer :: frames => call.isSome = true ∧ Nested outer frames
  | call, .leaving _ _ _ outer :: frames => call.isSome = true ∧ Nested outer frames
  | call, _ :: frames => Nested call frames

/-- Notices are told apart by their numbers. -/
def Numbered (notices : List Notice) : Prop :=
  (notices.map Notice.serial).Nodup ∧ ∀ n ∈ notices, n.serial < notices.length

structure Conserving (t : Thread) : Prop where
  nested : Nested t.call t.frames
  placed : t.places.Perm (notices t.history)
  numbered : Numbered (notices t.history)
  framed : Framed t.history

theorem conserving_new : Conserving new :=
  ⟨rfl, .refl _, ⟨.nil, nofun⟩, trivial⟩

theorem Conserving.of_frames {t after : Thread} (conserving : t.Conserving)
    (call : after.call = t.call) (wakes : after.wakes = t.wakes)
    (notices' : notices after.history = notices t.history)
    (reported' : reported after.history = reported t.history)
    (framed : Framed t.history → Framed after.history)
    (nested : Nested t.call t.frames → Nested t.call after.frames)
    (same : collecting t.call after.frames = collecting t.call t.frames) : after.Conserving := by
  refine ⟨call ▸ nested conserving.nested, ?_, notices' ▸ conserving.numbered,
    framed conserving.framed⟩
  have placed := conserving.placed
  unfold places at placed ⊢
  rw [call, wakes, reported', notices', same]
  exact placed

theorem Conserving.of_same {t after : Thread} (conserving : t.Conserving) (call : after.call = t.call)
    (frames : after.frames = t.frames) (wakes : after.wakes = t.wakes)
    (notices' : notices after.history = notices t.history)
    (reported' : reported after.history = reported t.history)
    (framed : Framed t.history → Framed after.history) : after.Conserving :=
  conserving.of_frames call wakes notices' reported' framed (frames ▸ id) (frames ▸ rfl)

/-- The woken of a call and its outer calls, once it is reported. -/
theorem Conserving.report {t : Thread} {called : Who} {c : PollCall} {result : Coded}
    {outer : Option CallState} (nested : Nested outer t.frames)
    (placed : ((t.call.map CallState.woken).getD [] ++ collecting outer t.frames ++ t.wakes ++
      reported t.history).Perm (notices t.history))
    (numbered : Numbered (notices t.history)) (framed : Framed t.history) :
    (t.report called c result outer).Conserving := by
  obtain ⟨sessions, outcome, ⟨bytes, status, _, written, same⟩ | ⟨error, _, _, same⟩⟩ :=
    t.report_spec called c result outer
  · rw [same]
    refine ⟨nested, ?_, numbered, ⟨?_, framed⟩⟩
    rotate_left
    · rw [written]
      exact List.suffix_append _ _
    show (collecting outer t.frames ++ t.wakes ++ (_ ++ reported t.history)).Perm (notices t.history)
    refine .trans ?_ placed
    rw [← List.append_assoc]
    refine .append_right _ ?_
    rw [List.append_assoc (_ : List Notice) (collecting outer t.frames)]
    exact List.perm_append_comm
  · rw [same]
    refine ⟨nested, ?_, numbered, ⟨List.nil_suffix, framed⟩⟩
    show (collecting outer t.frames ++ (t.wakes ++ _) ++ ([] ++ reported t.history)).Perm
      (notices t.history)
    refine .trans ?_ placed
    rw [List.nil_append, ← List.append_assoc]
    refine .append_right _ ?_
    rw [List.append_assoc (_ : List Notice) (collecting outer t.frames)]
    exact List.perm_append_comm

theorem Conserving.enter {t : Thread} (conserving : t.Conserving) (called : Who) (c : PollCall) :
    (t.enter called c).Conserving := by
  obtain ⟨sessions, error, _, same⟩ | ⟨who, _, _, _, same⟩ := t.enter_spec called c
  · rw [same]
    exact conserving.of_same rfl rfl rfl rfl rfl fun framed => ⟨List.nil_suffix, framed⟩
  · rw [same]
    exact ⟨⟨rfl, conserving.nested⟩, conserving.placed, conserving.numbered, conserving.framed⟩

theorem Conserving.returns {t : Thread} (conserving : t.Conserving) (called : Who) (c : AnyCall)
    (outcome : Record.Outcome) : (t.returns called c outcome []).Conserving := by
  obtain ⟨sessions, same⟩ := t.returns_spec called c outcome []
  rw [same]
  exact conserving.of_same rfl rfl rfl rfl rfl fun framed => ⟨List.nil_suffix, framed⟩

/-- A notice joins the innermost call that collects, or the list of `wakes`. -/
theorem collecting_cons (notice : Notice) (call : CallState) (frames : List Frame)
    (nested : Nested (some call) frames) :
    (collecting (some { call with woken := call.woken ++ [notice] }) frames).Perm
      (notice :: collecting (some call) frames) := by
  induction frames with
  | nil => cases nested
  | cons frame frames ih =>
    cases frame with
    | building _ => exact ih nested
    | freeing _ => exact ih nested
    | abandoning _ => exact ih nested
    | _ =>
      show (call.woken ++ [notice] ++ _).Perm (notice :: (call.woken ++ _))
      rw [List.append_assoc]
      exact List.perm_middle

theorem Nested.set_woken {call : CallState} {frames : List Frame} (nested : Nested (some call) frames)
    (woken : List Notice) : Nested (some { call with woken }) frames := by
  induction frames with
  | nil => cases nested
  | cons frame frames ih =>
    cases frame with
    | building _ => exact ih nested
    | freeing _ => exact ih nested
    | abandoning _ => exact ih nested
    | _ => exact ⟨rfl, nested.2⟩

theorem Conserving.woke {t : Thread} (conserving : t.Conserving) (who : Who) :
    (t.woke who).Conserving := by
  obtain ⟨nested, placed, numbered, framed⟩ := conserving
  unfold places at placed
  have numbered' : Numbered (⟨(notices t.history).length, who⟩ :: notices t.history) := by
    obtain ⟨nodup, below⟩ := numbered
    refine ⟨List.nodup_cons.mpr ⟨fun member => ?_, nodup⟩, fun n member => ?_⟩
    · obtain ⟨n, inside, same⟩ := List.mem_map.mp member
      exact absurd (below n inside) (by rw [same]; exact Nat.lt_irrefl _)
    · rcases List.mem_cons.mp member with rfl | old
      · exact Nat.lt_succ_self _
      · exact Nat.lt_succ_of_lt (below n old)
  obtain ⟨call, current, same⟩ | ⟨_, same⟩ := t.woke_spec who
  · rw [same]
    rw [current] at nested placed
    refine ⟨nested.set_woken _, ?_, numbered', framed⟩
    show (collecting _ t.frames ++ t.wakes ++ reported t.history).Perm (_ :: notices t.history)
    refine (((collecting_cons _ call t.frames nested).append_right _).append_right _).trans ?_
    exact .cons _ placed
  · rw [same]
    refine ⟨nested, ?_, numbered', framed⟩
    show (collecting t.call t.frames ++ (t.wakes ++ [_]) ++ reported t.history).Perm
      (_ :: notices t.history)
    rw [← List.append_assoc, List.append_assoc _ [_]]
    exact List.perm_middle.trans (.cons _ placed)

theorem Conserving.wakeUp {t : Thread} (conserving : t.Conserving) (who : Who) :
    (t.wakeUp who).Conserving := by
  have called : ({ t with wakeups := Function.update t.wakeups who (t.wakeups who).wakeUp.2 }.happen
      (.wakerCalled who)).Conserving := conserving.of_same rfl rfl rfl rfl rfl id
  unfold Thread.wakeUp
  dsimp only
  split
  · exact called.woke _
  · exact called

/-- Every step but one keeps each notice in its one place. -/
theorem Conserving.step {t after : Thread} (conserving : t.Conserving) {a : Act}
    (steady : a.unwinds = false) (stepped : t.step a = some after) : after.Conserving := by
  cases step_cases stepped with
  | new who made created =>
    obtain ⟨_, _, _, _, _, _, _, rfl⟩ := t.create_spec false created
    exact conserving.of_same rfl rfl rfl rfl rfl id
  | newPinned who made created =>
    obtain ⟨_, _, _, _, _, _, _, rfl⟩ := t.create_spec true created
    exact conserving.of_same rfl rfl rfl rfl rfl id
  | starts handle who parked => exact conserving.of_frames rfl rfl rfl rfl id id rfl
  | resumes | replies => exact conserving.enter _ _
  | frees handle =>
    obtain ⟨middle, fewer, outcome⟩ := t.free_spec handle
    have kept : middle.Conserving := by
      rw [fewer.rest]
      exact conserving.of_same rfl rfl rfl rfl rfl id
    rcases outcome with ⟨code, same⟩ | same <;> rw [same]
    · exact kept.returns _ _ _
    · exact kept.of_frames rfl rfl rfl rfl id id rfl
  | wakes =>
    -- from the queue to what the host was told
    refine ⟨conserving.nested, ?_, conserving.numbered, conserving.framed⟩
    have placed := conserving.placed
    unfold places at placed
    show (collecting t.call t.frames ++ [] ++ (t.wakes ++ reported t.history)).Perm
      (notices t.history)
    rwa [List.append_nil, ← List.append_assoc]
  | wake who => exact conserving.wakeUp who
  | records | finishes | unopened | reissue | stopReissue =>
    exact conserving.of_same rfl rfl rfl rfl rfl id
  | built who frames stack =>
    have popped : Conserving { t.hook who with
        frames, locals := Function.update t.locals who.handle (some who) } := by
      refine conserving.of_frames rfl rfl rfl rfl id ?_ ?_ <;> rw [stack]
      · exact id
      · rfl
    exact popped.enter _ _
  | buildPanicked who frames stack =>
    refine conserving.of_frames rfl rfl rfl rfl id ?_ ?_ <;> rw [stack]
    · exact id
    · rfl
  | abandoned who frames stack =>
    refine conserving.of_frames rfl rfl rfl rfl (fun framed => ⟨List.nil_suffix, framed⟩) ?_ ?_ <;>
      rw [stack]
    · exact id
    · rfl
  | abandoningPanicked who frames stack =>
    refine conserving.of_frames rfl rfl rfl rfl id ?_ ?_ <;> rw [stack]
    · exact id
    · rfl
  | hold called who record outer frames stack =>
    refine conserving.of_frames rfl rfl rfl rfl id ?_ ?_ <;> rw [stack]
    · exact id
    · rfl
  | beginPoll called who c phase outer frames stack =>
    refine conserving.of_frames rfl rfl rfl rfl id ?_ ?_ <;> rw [stack]
    · exact id
    · rfl
  | returns result called who c phase outer frames stack =>
    -- what the call has collected is returned, or queued
    obtain ⟨nested, placed, numbered, framed⟩ := conserving
    unfold places at placed
    rw [stack] at nested placed
    exact Conserving.report nested.2 placed numbered framed
  | leaves result called who c phase outer frames stack =>
    obtain ⟨nested, placed, numbered, framed⟩ := conserving
    unfold places at placed
    rw [stack] at nested placed
    exact ⟨nested, placed, numbered, framed⟩
  | panics called who c phase outer frames stack =>
    obtain ⟨nested, placed, numbered, framed⟩ := conserving
    unfold places at placed
    rw [stack] at nested placed
    exact ⟨nested, placed, numbered, framed⟩
  | dropped called who c phase outer frames stack =>
    obtain ⟨nested, placed, numbered, framed⟩ := conserving
    unfold places at placed
    rw [stack] at nested placed
    split <;> exact ⟨nested, placed, numbered, framed⟩
  | left called c result outer frames stack =>
    obtain ⟨nested, placed, numbered, framed⟩ := conserving
    unfold places at placed
    rw [stack] at nested placed
    exact Conserving.report nested.2 placed numbered framed
  | leavingPanicked | droppingPanicked => cases steady
  | freed called frames stack =>
    have popped : Conserving { t with frames } := by
      refine conserving.of_frames rfl rfl rfl rfl id ?_ ?_ <;> rw [stack]
      · exact id
      · rfl
    exact popped.returns _ _ _
  | freeingPanicked called frames stack =>
    refine conserving.of_frames rfl rfl rfl rfl id ?_ ?_ <;> rw [stack]
    · exact id
    · rfl

end Thread

end SansEffort
