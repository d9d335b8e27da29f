import SansEffort.Notices

/-!
# Machines in their places

Where a machine is, from its creation until it is dropped, and what its driver can have done there.
-/

namespace SansEffort

def Frame.builds : Frame → Option Who
  | .building who => some who
  | _ => none

def Frame.runs : Frame → Option (Nat × Who)
  | .running called who _ _ _ => some (called.handle, who)
  | .dropping called who _ _ _ => some (called.handle, who)
  | _ => none

/-- The tables of migrating, parked and started pinned machines, and the stack. -/
inductive Place
  | table
  | parked
  | building
  | here
  | running
  deriving DecidableEq

/-- Migrating machines are in their table, and pinned ones on their way to their thread's. -/
def Place.Takes (who : Who) : Place → Prop
  | .table => who.pinned = false
  | .running => True
  | _ => who.pinned = true

namespace Thread

/-- A machine is there, under that handle. -/
def At (t : Thread) (handle : Nat) (who : Who) : Place → Prop
  | .table => t.table.machines handle = some who
  | .parked => t.table.parked handle = some who
  | .building => (∃ frame ∈ t.frames, frame.builds = some who) ∧ who.handle = handle
  | .here => t.locals handle = some who
  | .running => ∃ frame ∈ t.frames, frame.runs = some (handle, who)

/-- The machine is the next to carry its handle. -/
def Creates (t after : Thread) (who : Who) (pinned : Bool) : Prop :=
  who = ⟨who.handle, (t.issued who.handle).turn + 1, pinned⟩ ∧
    (0 < t.table.next → who.handle ≠ 0) ∧
    after.issued = Function.update t.issued who.handle who

/-- How a machine that was not there before a step came there. -/
def Comes (t after : Thread) (handle : Nat) (who : Who) : Place → Prop
  | .table => who.handle = handle ∧ t.Creates after who false ∧ .built who ∈ after.history
  | .parked => who.handle = handle ∧ t.Creates after who true
  | .building => ∃ handle, t.table.parked handle = some who ∧ after.table.parked handle = none
  | .here => t.At handle who .building ∧ .built who ∈ after.history
  | .running => after.At handle who .table ∨ after.At handle who .here

/-- No machine came anywhere. -/
def Stays (t after : Thread) : Prop :=
  ∀ handle who place, after.At handle who place → t.At handle who place

section

variable {t after : Thread}

theorem Stays.at (stays : t.Stays after) {handle : Nat} {who : Who} {place : Place}
    (there : after.At handle who place) : t.At handle who place := stays handle who place there

theorem stays_of_fewer (machines : ∀ handle who, after.table.machines handle = some who →
      t.table.machines handle = some who)
    (parked : ∀ handle who, after.table.parked handle = some who →
      t.table.parked handle = some who)
    (locals : ∀ handle who, after.locals handle = some who → t.locals handle = some who)
    (frames : ∀ frame ∈ after.frames, frame ∈ t.frames ∨ frame.builds = none ∧
      (frame.runs = none ∨ ∃ other ∈ t.frames, other.runs = frame.runs)) : t.Stays after := by
  intro handle who place there
  cases place with
  | table => exact machines handle who there
  | parked => exact parked handle who there
  | here => exact locals handle who there
  | building =>
    obtain ⟨⟨frame, member, builds⟩, own⟩ := there
    rcases frames frame member with old | ⟨idle, _⟩
    · exact ⟨⟨frame, old, builds⟩, own⟩
    · rw [idle] at builds
      cases builds
  | running =>
    obtain ⟨frame, member, runs⟩ := there
    rcases frames frame member with old | ⟨_, idle | ⟨other, old, same⟩⟩
    · exact ⟨frame, old, runs⟩
    · rw [idle] at runs
      cases runs
    · exact ⟨other, old, same.trans runs⟩

theorem stays_of_same (machines : after.table.machines = t.table.machines)
    (parked : after.table.parked = t.table.parked) (locals : after.locals = t.locals)
    (frames : after.frames ⊆ t.frames) : t.Stays after :=
  stays_of_fewer (fun _ _ => machines ▸ id) (fun _ _ => parked ▸ id) (fun _ _ => locals ▸ id)
    fun _ member => .inl (frames member)

theorem stays_returns (called : Who) (c : AnyCall) (outcome : Record.Outcome)
    (woken : List Notice) : t.Stays (t.returns called c outcome woken) := by
  obtain ⟨sessions, same⟩ := t.returns_spec called c outcome woken
  rw [same]
  exact stays_of_same rfl rfl rfl (List.Subset.refl _)

theorem stays_report (called : Who) (c : PollCall) (result : Coded) (outer : Option CallState) :
    t.Stays (t.report called c result outer) := by
  obtain ⟨sessions, outcome, ⟨_, _, _, _, same⟩ | ⟨_, _, _, same⟩⟩ :=
    t.report_spec called c result outer <;>
  · rw [same]
    exact stays_of_same rfl rfl rfl (List.Subset.refl _)

/-- A frame that neither builds nor runs a machine. -/
theorem stays_cons {frame : Frame} (builds : frame.builds = none) (runs : frame.runs = none) :
    t.Stays { t with frames := frame :: t.frames } := by
  refine stays_of_fewer (fun _ _ => id) (fun _ _ => id) (fun _ _ => id) fun f member => ?_
  rcases List.mem_cons.mp member with rfl | old
  · exact .inr ⟨builds, .inl runs⟩
  · exact .inl old

theorem find_at {handle : Nat} {who : Who} (found : t.find handle = .ok who) :
    t.At handle who .table ∨ t.At handle who .here := by
  unfold Thread.find at found
  split at found
  · next here =>
    cases found
    exact .inl here
  · split at found
    · cases found
    · split at found
      · split at found <;> cases found
        next here => exact .inr here
      · cases found

/-- A call finds its machine in a table. -/
theorem at_enter (called : Who) (c : PollCall) (handle : Nat) (who : Who) (place : Place)
    (there : (t.enter called c).At handle who place) :
    t.At handle who place ∨ place = .running ∧
      ((t.enter called c).At handle who .table ∨ (t.enter called c).At handle who .here) := by
  obtain ⟨sessions, error, _, same⟩ | ⟨w, found, _, _, same⟩ := t.enter_spec called c
  · rw [same] at there
    exact .inl (Stays.at (stays_of_same rfl rfl rfl (List.Subset.refl _)) there)
  · rw [same] at there ⊢
    cases place with
    | running =>
      obtain ⟨frame, member, runs⟩ := there
      rcases List.mem_cons.mp member with rfl | old
      · cases runs
        exact .inr ⟨rfl, find_at found⟩
      · exact .inl ⟨frame, old, runs⟩
    | building =>
      obtain ⟨⟨frame, member, builds⟩, own⟩ := there
      rcases List.mem_cons.mp member with rfl | old
      · cases builds
      · exact .inl ⟨⟨frame, old, builds⟩, own⟩
    | table => exact .inl there
    | parked => exact .inl there
    | here => exact .inl there

theorem at_update {f : Nat → Option Who} {key handle : Nat} {who w : Who}
    (there : Function.update f key (some who) handle = some w) :
    f handle = some w ∨ w = who ∧ key = handle := by
  rw [Function.update_apply] at there
  split at there
  · next own =>
    cases there
    exact .inr ⟨rfl, own.symm⟩
  · exact .inl there

theorem at_create {pinned : Bool} {who : Who} (created : t.create pinned = some (who, after)) :
    t.Creates after who pinned ∧ ∀ handle w place, after.At handle w place → t.At handle w place ∨
      w = who ∧ who.handle = handle ∧ place = if pinned then .parked else .table := by
  obtain ⟨_, _, _, _, named, _, positive, rfl⟩ := t.create_spec pinned created
  refine ⟨⟨named, fun next => (positive next).1, rfl⟩, fun handle w place there => ?_⟩
  cases pinned <;> cases place
  case false.table => exact (at_update there).imp_right fun new => ⟨new.1, new.2, rfl⟩
  case true.parked => exact (at_update there).imp_right fun new => ⟨new.1, new.2, rfl⟩
  all_goals exact .inl there

/-- A frame is taken off the stack. -/
theorem stays_pop {frame : Frame} {frames : List Frame} (stack : t.frames = frame :: frames) :
    t.Stays { t with frames } := by
  have fewer : frames ⊆ t.frames := by
    rw [stack]
    exact List.subset_cons_self _ _
  exact stays_of_same rfl rfl rfl fewer

/-- The frame that runs a machine is replaced by one that does, or that runs none. -/
theorem replaced_frames {frame other : Frame} {frames : List Frame}
    (stack : t.frames = frame :: frames) (builds : other.builds = none)
    (runs : other.runs = none ∨ frame.runs = other.runs) : ∀ f ∈ other :: frames, f ∈ t.frames ∨
      f.builds = none ∧ (f.runs = none ∨ ∃ before ∈ t.frames, before.runs = f.runs) := by
  intro f member
  rw [stack]
  rcases List.mem_cons.mp member with rfl | old
  · exact .inr ⟨builds, runs.imp_right fun same => ⟨frame, List.mem_cons_self, same⟩⟩
  · exact .inl (List.mem_cons_of_mem _ old)

theorem stays_free (handle : Nat) : t.Stays (t.free handle) := by
  obtain ⟨middle, fewer, outcome⟩ := t.free_spec handle
  have kept : t.Stays middle := by
    refine stays_of_fewer fewer.machines fewer.parked fewer.locals fun frame member => .inl ?_
    rw [fewer.rest] at member
    exact member
  rcases outcome with ⟨code, same⟩ | same <;> rw [same] <;> intro h who place there
  · exact kept.at (Stays.at (stays_returns _ _ _ _) there)
  · exact kept.at (Stays.at (stays_cons rfl rfl) there)

theorem stays_wakeUp (who : Who) : t.Stays (t.wakeUp who) := by
  unfold Thread.wakeUp
  dsimp only
  split
  · next hooked _ =>
    obtain ⟨_, _, same⟩ | ⟨_, same⟩ := woke_spec ({ t with
      wakeups := Function.update t.wakeups who (t.wakeups who).wakeUp.2 }.happen
        (.wakerCalled who)) hooked <;>
    · rw [same]
      exact stays_of_same rfl rfl rfl (List.Subset.refl _)
  · exact stays_of_same rfl rfl rfl (List.Subset.refl _)

/-- A parked machine's constructor begins. -/
theorem at_start {h : Nat} {w : Who} (parked : t.table.parked h = some w) {handle : Nat} {who : Who}
    {place : Place} (there : At { t with
      table := { t.table with
        parked := Function.update t.table.parked h none
        pinned := Function.update t.table.pinned h true }
      frames := .building w :: t.frames } handle who place) :
    t.At handle who place ∨ t.Comes { t with
      table := { t.table with
        parked := Function.update t.table.parked h none
        pinned := Function.update t.table.pinned h true }
      frames := .building w :: t.frames } handle who place := by
  cases place with
  | building =>
    obtain ⟨⟨frame, member, builds⟩, own⟩ := there
    rcases List.mem_cons.mp member with rfl | old
    · cases builds
      exact .inr ⟨h, parked, Function.update_self _ _ _⟩
    · exact .inl ⟨⟨frame, old, builds⟩, own⟩
  | running =>
    obtain ⟨frame, member, runs⟩ := there
    rcases List.mem_cons.mp member with rfl | old
    · cases runs
    · exact .inl ⟨frame, old, runs⟩
  | table => exact .inl there
  | parked => exact .inl (of_update_none there)
  | here => exact .inl there

/-- A constructor has returned: its machine is in the thread's table, whatever the poll finds. -/
theorem at_built {w : Who} {frames : List Frame} (stack : t.frames = .building w :: frames)
    {handle : Nat} {who : Who} {place : Place} (there : At (Thread.enter { t.hook w with
      frames, locals := Function.update t.locals w.handle (some w) } w .resume) handle who place) :
    t.At handle who place ∨ t.Comes (Thread.enter { t.hook w with
      frames, locals := Function.update t.locals w.handle (some w) } w .resume) handle who place := by
  have building : t.At w.handle w .building :=
    ⟨⟨_, by rw [stack]; exact List.mem_cons_self, rfl⟩, rfl⟩
  have comes : ∀ {place}, At { t.hook w with
      frames, locals := Function.update t.locals w.handle (some w) } handle who place →
      t.At handle who place ∨ who = w ∧ w.handle = handle ∧ place = .here := by
    intro place there
    cases place with
    | here => exact (at_update there).imp_right fun new => ⟨new.1, new.2, rfl⟩
    | building =>
      obtain ⟨⟨frame, member, builds⟩, own⟩ := there
      exact .inl ⟨⟨frame, by rw [stack]; exact List.mem_cons_of_mem _ member, builds⟩, own⟩
    | running =>
      obtain ⟨frame, member, runs⟩ := there
      exact .inl ⟨frame, by rw [stack]; exact List.mem_cons_of_mem _ member, runs⟩
    | table => exact .inl there
    | parked => exact .inl there
  have grown : .built w ∈ (Thread.enter { t.hook w with
      frames, locals := Function.update t.locals w.handle (some w) } w .resume).history := by
    obtain ⟨_, _, _, same⟩ | ⟨_, _, _, _, same⟩ := Thread.enter_spec { t.hook w with
      frames, locals := Function.update t.locals w.handle (some w) } w .resume <;>
    · rw [same]
      simp [Thread.hook, Thread.happen]
  rcases at_enter _ _ _ _ _ there with old | ⟨rfl, found⟩
  · rcases comes old with old | ⟨rfl, own, rfl⟩
    · exact .inl old
    · exact .inr ⟨own ▸ building, grown⟩
  · exact .inr found

/-- Where a step can have brought a machine. -/
theorem step_places {a : Act} (stepped : t.step a = some after) {handle : Nat} {who : Who}
    {place : Place} (there : after.At handle who place) :
    t.At handle who place ∨ t.Comes after handle who place := by
  cases step_cases stepped with
  | new w middle created =>
    obtain ⟨creates, comes⟩ := at_create created
    rcases comes handle who place there with old | ⟨rfl, own, rfl⟩
    · exact .inl old
    · exact .inr ⟨own, creates, List.mem_cons_self⟩
  | newPinned w middle created =>
    obtain ⟨creates, comes⟩ := at_create created
    rcases comes handle who place there with old | ⟨rfl, own, rfl⟩
    · exact .inl old
    · exact .inr ⟨own, creates⟩
  | starts h w parked => exact at_start parked there
  | resumes | replies =>
    rcases at_enter _ _ _ _ _ there with old | ⟨rfl, found⟩
    · exact .inl old
    · exact .inr found
  | frees h => exact .inl ((stays_free h).at there)
  | wake w => exact .inl ((stays_wakeUp w).at there)
  | records root session table started =>
    obtain ⟨rfl, rfl⟩ := Table.startRecording_spec started
    exact .inl (Stays.at (stays_of_same rfl rfl rfl (List.Subset.refl _)) there)
  | finishes session log table finished =>
    obtain rfl := congrArg Prod.snd finished
    exact .inl (Stays.at (stays_of_same rfl rfl rfl (List.Subset.refl _)) there)
  | unopened session table finished =>
    obtain rfl := congrArg Prod.snd finished
    exact .inl (Stays.at (stays_of_same rfl rfl rfl (List.Subset.refl _)) there)
  | wakes | reissue | stopReissue =>
    exact .inl (Stays.at (stays_of_same rfl rfl rfl (List.Subset.refl _)) there)
  | built w frames stack => exact at_built stack there
  | buildPanicked w frames stack =>
    refine .inl (Stays.at ?_ there)
    refine stays_of_fewer (fun _ _ => id) (fun _ _ => id) (fun _ _ => id) ?_
    exact replaced_frames stack rfl (.inl rfl)
  | abandoned w frames stack =>
    apply Or.inl
    apply (stays_pop stack).at
    exact Stays.at (stays_of_same rfl rfl rfl (List.Subset.refl _)) there
  | abandoningPanicked w frames stack => exact .inl ((stays_pop stack).at there)
  -- another frame of the same machine takes the place of the one on top
  | hold called w record outer frames stack =>
    refine .inl (Stays.at ?_ there)
    refine stays_of_fewer (fun _ _ => id) (fun _ _ => id) (fun _ _ => id) ?_
    exact replaced_frames stack rfl (.inr rfl)
  | beginPoll called w c phase outer frames stack =>
    refine .inl (Stays.at ?_ there)
    refine stays_of_fewer (fun _ _ => id) (fun _ _ => id) (fun _ _ => id) ?_
    exact replaced_frames stack rfl (.inr rfl)
  | returns result called w c phase outer frames stack =>
    have finished := Stays.at (stays_report _ _ _ _) there
    refine .inl ((stays_pop stack).at ?_)
    exact Stays.at (stays_of_same rfl rfl rfl (List.Subset.refl _)) finished
  | leaves result called w c phase outer frames stack =>
    have finished : Thread.At { t with
        frames
        completed := Function.update t.completed w (t.completed w || completes phase result) }
        handle who place := Stays.at (stays_cons rfl rfl) there
    refine .inl ((stays_pop stack).at ?_)
    exact Stays.at (stays_of_same rfl rfl rfl (List.Subset.refl _)) finished
  | panics called w c phase outer frames stack =>
    refine .inl (Stays.at ?_ there)
    refine stays_of_fewer (fun _ _ => id) (fun _ _ => id) (fun _ _ => id) ?_
    exact replaced_frames stack rfl (.inr rfl)
  | droppingPanicked poisons called w c phase outer frames stack =>
    apply Or.inl
    apply (stays_pop stack).at
    exact Stays.at (stays_of_same rfl rfl rfl (List.Subset.refl _)) there
  | dropped called w c phase outer frames stack =>
    have framed := @replaced_frames t _ (.leaving called c (.error .panicked) outer) frames stack
      rfl (.inl rfl)
    refine .inl (Stays.at ?_ there)
    split
    · exact stays_of_fewer (fun _ _ => id) (fun _ _ => id) (fun _ _ => of_update_none) framed
    · exact stays_of_fewer (fun _ _ => of_update_none) (fun _ _ => id) (fun _ _ => id) framed
  | left called c result outer frames stack =>
    exact .inl ((stays_pop stack).at (Stays.at (stays_report _ _ _ _) there))
  | leavingPanicked called c result outer frames stack => exact .inl ((stays_pop stack).at there)
  | freed called frames stack =>
    exact .inl ((stays_pop stack).at (Stays.at (stays_returns _ _ _ _) there))
  | freeingPanicked called frames stack => exact .inl ((stays_pop stack).at there)

/-- Each machine is under its own handle, and in a place for its kind. -/
def Placed (t : Thread) : Prop :=
  ∀ handle who place, t.At handle who place → who.handle = handle ∧ place.Takes who

theorem placed_new : Placed new := by
  intro handle who place there
  cases place with
  | building =>
    obtain ⟨⟨_, member, _⟩, _⟩ := there
    cases member
  | running =>
    obtain ⟨_, member, _⟩ := there
    cases member
  | _ => cases there

theorem Placed.find (placed : t.Placed) {handle : Nat} {who : Who}
    (found : t.find handle = .ok who) : who.handle = handle ∧
      (t.table.machines handle = some who ∨ t.locals handle = some who) := by
  rcases find_at found with there | there
  · exact ⟨(placed _ _ .table there).1, .inl there⟩
  · exact ⟨(placed _ _ .here there).1, .inr there⟩

theorem Placed.step (placed : t.Placed) {a : Act} (stepped : t.step a = some after) :
    after.Placed := by
  have table : ∀ {handle who}, after.At handle who .table → who.handle = handle ∧
      who.pinned = false := by
    intro handle who there
    rcases step_places stepped there with old | ⟨own, creates, _⟩
    · exact placed _ _ _ old
    · exact ⟨own, by rw [creates.1]⟩
  have here : ∀ {handle who}, after.At handle who .here → who.handle = handle ∧
      who.pinned = true := by
    intro handle who there
    rcases step_places stepped there with old | ⟨building, _⟩
    · exact placed _ _ _ old
    · exact placed _ _ _ building
  intro handle who place there
  cases place with
  | table => exact table there
  | here => exact here there
  | parked =>
    rcases step_places stepped there with old | ⟨own, creates⟩
    · exact placed _ _ _ old
    · exact ⟨own, by rw [creates.1]; rfl⟩
  | building =>
    rcases step_places stepped there with old | ⟨_, parked, _⟩
    · exact placed _ _ _ old
    · exact ⟨there.2, (placed _ _ .parked parked).2⟩
  | running =>
    rcases step_places stepped there with old | found | found
    · exact placed _ _ _ old
    · exact ⟨(table found).1, trivial⟩
    · exact ⟨(here found).1, trivial⟩

/-! ### Machines not built yet -/

/-- Nothing was heard of its driver. -/
structure Idle (t : Thread) (who : Who) : Prop where
  wakeup : t.wakeups who = Wakeup.new
  completed : t.completed who = false
  unpoisoned : t.poisoned who = false
  quiet : wokenSince who t.history = false
  unnoticed : noticesSince who t.history = []

/-- The happening is about that machine's driver, or about none. -/
def Regards (who : Who) : Happening → Prop
  | .built w => w = who
  | .began w => w = who
  | .wakerCalled w => w = who
  | .noticed n => n.who = who
  | _ => True

theorem since_regarding {who w : Who} (other : w ≠ who) {events history : List Happening}
    (regards : ∀ h ∈ events, Regards who h) :
    wokenSince w (events ++ history) = wokenSince w history ∧
      noticesSince w (events ++ history) = noticesSince w history := by
  induction events with
  | nil => exact ⟨rfl, rfl⟩
  | cons h events ih =>
    obtain ⟨first, rest⟩ := List.forall_mem_cons.mp regards
    obtain ⟨woken, notices⟩ := ih rest
    have apart : ¬ who = w := fun same => other same.symm
    cases h <;> simp_all [wokenSince, noticesSince, Regards]

/-- What a step adds to the history, and to drivers. -/
structure Grows (t after : Thread) : Prop where
  history : t.history ⊆ after.history
  next : 0 < t.table.next → 0 < after.table.next
  issued : after.issued = t.issued ∨ ∃ who pinned, t.Creates after who pinned
  built : ∀ who, .built who ∈ after.history → .built who ∈ t.history ∨
    t.Creates after who false ∨ t.At who.handle who .building
  hook : ∀ who w, (after.wakeups who).hook = some w → (t.wakeups who).hook = some w ∨ w = who
  idle : ∀ who, t.Idle who → (∀ handle, ¬ t.At handle who .running) →
    .built who ∉ after.history → after.Idle who

/-- One driver changed, which was running or has been built. -/
theorem grows_of_driver (who : Who) (events : List Happening)
    (history : after.history = events ++ t.history) (regards : ∀ h ∈ events, Regards who h)
    (next : 0 < t.table.next → 0 < after.table.next)
    (issued : after.issued = t.issued ∨ ∃ who pinned, t.Creates after who pinned)
    (wakeups : ∀ w, w ≠ who → after.wakeups w = t.wakeups w)
    (hook : ∀ w, (after.wakeups who).hook = some w → (t.wakeups who).hook = some w ∨ w = who)
    (completed : ∀ w, w ≠ who → after.completed w = t.completed w)
    (poisoned : ∀ w, w ≠ who → after.poisoned w = t.poisoned w)
    (built : .built who ∈ events → t.Creates after who false ∨ t.At who.handle who .building)
    (busy : t.Idle who → (∃ handle, t.At handle who .running) ∨ .built who ∈ after.history) :
    t.Grows after := by
  refine ⟨fun h member => history ▸ List.mem_append_right _ member, next, issued,
    fun w member => ?_, fun w x hooked => ?_, fun w idle rests unbuilt => ?_⟩
  · rw [history] at member
    rcases List.mem_append.mp member with member | member
    · obtain rfl : w = who := regards _ member
      exact .inr (built member)
    · exact .inl member
  · by_cases same : w = who
    · subst same
      exact hook x hooked
    · rw [wakeups w same] at hooked
      exact .inl hooked
  · by_cases same : w = who
    · subst same
      rcases busy idle with ⟨handle, running⟩ | here
      · exact absurd running (rests handle)
      · exact absurd here unbuilt
    · obtain ⟨woken, notices⟩ := @since_regarding who w same events t.history regards
      refine ⟨(wakeups w same).trans idle.wakeup, (completed w same).trans idle.completed,
        (poisoned w same).trans idle.unpoisoned, ?_, ?_⟩
      · rw [history, woken, idle.quiet]
      · rw [history, notices, idle.unnoticed]

/-- No driver changed. -/
theorem grows_of_same (events : List Happening) (history : after.history = events ++ t.history)
    (regards : ∀ who, ∀ h ∈ events, Regards who h)
    (next : 0 < t.table.next → 0 < after.table.next)
    (issued : after.issued = t.issued ∨ ∃ who pinned, t.Creates after who pinned)
    (wakeups : after.wakeups = t.wakeups) (completed : after.completed = t.completed)
    (poisoned : after.poisoned = t.poisoned) : t.Grows after := by
  -- the events regard a machine that is not `who`
  have other : ∀ who : Who, who ≠ { who with turn := who.turn + 1 } := fun who same =>
    absurd (congrArg Who.turn same) (Nat.ne_of_lt (Nat.lt_succ_self _))
  refine ⟨fun h member => history ▸ List.mem_append_right _ member, next, issued,
    fun w member => ?_, fun _ _ hooked => .inl (wakeups ▸ hooked), fun w idle _ _ => ?_⟩
  · rw [history] at member
    rcases List.mem_append.mp member with member | member
    · exact absurd (regards _ _ member) (other w)
    · exact .inl member
  · obtain ⟨woken, notices⟩ := @since_regarding _ w (other w) events t.history (regards _)
    refine ⟨by rw [wakeups, idle.wakeup], by rw [completed, idle.completed],
      by rw [poisoned, idle.unpoisoned], ?_, ?_⟩
    · rw [history, woken, idle.quiet]
    · rw [history, notices, idle.unnoticed]

/-- A step that tells nobody anything. -/
theorem grows_of_still (history : after.history = t.history)
    (next : after.table.next = t.table.next) (issued : after.issued = t.issued)
    (wakeups : after.wakeups = t.wakeups) (completed : after.completed = t.completed)
    (poisoned : after.poisoned = t.poisoned) : t.Grows after :=
  grows_of_same [] history (fun _ => List.forall_mem_nil _) (next ▸ id) (.inl issued) wakeups
    completed poisoned

theorem grows_enter (called : Who) (c : PollCall) : t.Grows (t.enter called c) := by
  obtain ⟨_, _, _, same⟩ | ⟨_, _, _, _, same⟩ := t.enter_spec called c <;> rw [same]
  · exact grows_of_same [_] rfl (by simp [Regards]) id (.inl rfl) rfl rfl rfl
  · exact grows_of_still rfl rfl rfl rfl rfl rfl

theorem grows_free (handle : Nat) : t.Grows (t.free handle) := by
  obtain ⟨middle, fewer, outcome⟩ := t.free_spec handle
  rcases outcome with ⟨code, same⟩ | same <;> rw [same]
  · obtain ⟨sessions, returned⟩ := middle.returns_spec (t.issued handle) .free ⟨code, []⟩ []
    rw [returned, fewer.rest]
    exact grows_of_same [_] rfl (by simp [Regards]) id (.inl rfl) rfl rfl rfl
  · rw [fewer.rest]
    exact grows_of_still rfl rfl rfl rfl rfl rfl

/-- A driver changes, and its hook is what it was or its own machine's. -/
theorem hook_update {wakeups : Who → Wakeup Who} {who : Who} {wakeup : Wakeup Who}
    (own : wakeup.hook = (wakeups who).hook ∨ wakeup.hook = some who) (w : Who)
    (hooked : (Function.update wakeups who wakeup who).hook = some w) :
    (wakeups who).hook = some w ∨ w = who := by
  rw [Function.update_self] at hooked
  rcases own with same | new
  · exact .inl (same ▸ hooked)
  · rw [new] at hooked
    exact .inr (Option.some.inj hooked).symm

theorem grows_wakeUp (hooks : ∀ who w, (t.wakeups who).hook = some w → w = who) {who : Who}
    (hooked : (t.wakeups who).hook.isSome = true) : t.Grows (t.wakeUp who) := by
  obtain ⟨w, hook⟩ := Option.isSome_iff_exists.mp hooked
  obtain rfl := hooks who w hook
  have busy : ∀ {after : Thread}, t.Idle w →
      (∃ handle, t.At handle w .running) ∨ .built w ∈ after.history := by
    intro after idle
    rw [idle.wakeup] at hook
    cases hook
  rw [t.wakeUp_spec hook]
  dsimp only
  split
  · exact grows_of_driver w [.wakerCalled w] rfl (by simp [Regards]) id (.inl rfl)
      (fun v other => Function.update_of_ne other _ _) (hook_update (.inr rfl)) (fun _ _ => rfl)
      (fun _ _ => rfl) (by simp) busy
  · obtain ⟨_, _, same⟩ | ⟨_, same⟩ := woke_spec ({ t with
        wakeups := Function.update t.wakeups w ⟨true, some w⟩ }.happen (.wakerCalled w)) w <;>
    · rw [same]
      exact grows_of_driver w [.noticed _, .wakerCalled w] rfl (by simp [Regards]) id
        (.inl rfl) (fun v other => Function.update_of_ne other _ _) (hook_update (.inr rfl))
        (fun _ _ => rfl) (fun _ _ => rfl) (by simp) busy

theorem grows_built {who : Who} {frames : List Frame} (stack : t.frames = .building who :: frames) :
    t.Grows (Thread.enter { t.hook who with
      frames, locals := Function.update t.locals who.handle (some who) } who .resume) := by
  have building : t.At who.handle who .building :=
    ⟨⟨_, by rw [stack]; exact List.mem_cons_self, rfl⟩, rfl⟩
  obtain ⟨_, _, _, same⟩ | ⟨_, _, _, _, same⟩ := Thread.enter_spec { t.hook who with
    frames, locals := Function.update t.locals who.handle (some who) } who .resume <;> rw [same]
  · exact grows_of_driver who [.returned _ _ _ _, .built who] rfl (by simp [Regards]) id
      (.inl rfl) (fun w other => Function.update_of_ne other _ _) (hook_update (.inr rfl))
      (fun _ _ => rfl) (fun _ _ => rfl) (fun _ => .inr building)
      fun _ => .inr (List.mem_cons_of_mem _ List.mem_cons_self)
  · exact grows_of_driver who [.built who] rfl (by simp [Regards]) id
      (.inl rfl) (fun w other => Function.update_of_ne other _ _) (hook_update (.inr rfl))
      (fun _ _ => rfl) (fun _ _ => rfl) (fun _ => .inr building) fun _ => .inr List.mem_cons_self

/-- A step of the machine that runs, or of one that is built or woken. -/
theorem step_grows (hooks : ∀ who w, (t.wakeups who).hook = some w → w = who) {a : Act}
    (stepped : t.step a = some after) : t.Grows after := by
  cases step_cases stepped with
  | new who made created =>
    obtain ⟨creates, _⟩ := at_create created
    obtain ⟨_, _, _, _, _, _, positive, rfl⟩ := t.create_spec false created
    exact grows_of_driver who [.built who, .created who t.caller] rfl (by simp [Regards])
      (fun next => (positive next).2) (.inr ⟨_, _, creates⟩)
      (fun w other => Function.update_of_ne other _ _) (hook_update (.inr rfl)) (fun _ _ => rfl)
      (fun _ _ => rfl) (fun _ => .inl creates)
      fun _ => .inr List.mem_cons_self
  | newPinned who made created =>
    obtain ⟨creates, _⟩ := at_create created
    obtain ⟨_, _, _, _, _, _, positive, rfl⟩ := t.create_spec true created
    exact grows_of_same [.created who t.caller] rfl (by simp [Regards])
      (fun next => (positive next).2) (.inr ⟨_, _, creates⟩) rfl rfl rfl
  | resumes | replies => exact grows_enter _ _
  | frees handle => exact grows_free handle
  | wakes => exact grows_of_same [_] rfl (by simp [Regards]) id (.inl rfl) rfl rfl rfl
  | wake who hooked => exact grows_wakeUp hooks hooked
  | records root session table started =>
    obtain ⟨rfl, rfl⟩ := Table.startRecording_spec started
    exact grows_of_same [_] rfl (by simp [Regards]) id (.inl rfl) rfl rfl rfl
  | finishes session log table finished =>
    obtain rfl := congrArg Prod.snd finished
    exact grows_of_same [_] rfl (by simp [Regards]) id (.inl rfl) rfl rfl rfl
  | unopened session table finished =>
    obtain rfl := congrArg Prod.snd finished
    exact grows_of_still rfl rfl rfl rfl rfl rfl
  | built who frames stack => exact grows_built stack
  | abandoned => exact grows_of_same [_] rfl (by simp [Regards]) id (.inl rfl) rfl rfl rfl
  | hold called who record outer frames stack =>
    exact grows_of_driver who [] rfl (List.forall_mem_nil _) id (.inl rfl)
      (fun w other => Function.update_of_ne other _ _) (hook_update (.inl rfl)) (fun _ _ => rfl)
      (fun _ _ => rfl) (by simp)
      fun _ => .inl ⟨called.handle, _, by rw [stack]; exact List.mem_cons_self, rfl⟩
  | beginPoll called who c phase outer frames stack =>
    exact grows_of_driver who [.began who] rfl (by simp [Regards]) id (.inl rfl)
      (fun w other => Function.update_of_ne other _ _) (hook_update (.inl rfl)) (fun _ _ => rfl)
      (fun _ _ => rfl) (by simp)
      fun _ => .inl ⟨called.handle, _, by rw [stack]; exact List.mem_cons_self, rfl⟩
  -- the machine that finishes was running
  | returns result called who c phase outer frames stack =>
    have running : ∃ handle, t.At handle who .running :=
      ⟨called.handle, _, by rw [stack]; exact List.mem_cons_self, rfl⟩
    obtain ⟨_, _, ⟨_, _, _, _, same⟩ | ⟨_, _, _, same⟩⟩ := Thread.report_spec { t with
        frames
        completed := Function.update t.completed who
          (t.completed who || completes phase result) } called c result outer <;>
    · rw [same]
      exact grows_of_driver who [.returned _ _ _ _] rfl (by simp [Regards]) id
        (.inl rfl) (fun _ _ => rfl) (fun _ => .inl) (fun w other => Function.update_of_ne other _ _)
        (fun _ _ => rfl) (by simp) fun _ => .inl running
  | leaves result called who c phase outer frames stack =>
    have running : ∃ handle, t.At handle who .running :=
      ⟨called.handle, _, by rw [stack]; exact List.mem_cons_self, rfl⟩
    exact grows_of_driver who [] rfl (List.forall_mem_nil _) id (.inl rfl) (fun _ _ => rfl)
      (fun _ => .inl) (fun w other => Function.update_of_ne other _ _) (fun _ _ => rfl) (by simp)
      fun _ => .inl running
  | droppingPanicked poisons called who c phase outer frames stack =>
    exact grows_of_driver who [] rfl (List.forall_mem_nil _) id (.inl rfl) (fun _ _ => rfl)
      (fun _ => .inl) (fun _ _ => rfl) (fun w other => Function.update_of_ne other _ _) (by simp)
      fun _ => .inl ⟨called.handle, _, by rw [stack]; exact List.mem_cons_self, rfl⟩
  | dropped => split <;> exact grows_of_still rfl rfl rfl rfl rfl rfl
  | left called c result outer frames stack =>
    obtain ⟨_, _, ⟨_, _, _, _, same⟩ | ⟨_, _, _, same⟩⟩ :=
      Thread.report_spec { t with frames } called c result outer <;>
    · rw [same]
      exact grows_of_same [_] rfl (by simp [Regards]) id (.inl rfl) rfl rfl rfl
  | freed called frames stack =>
    obtain ⟨sessions, same⟩ := Thread.returns_spec { t with frames } called .free ⟨Contract.ok, []⟩ []
    rw [same]
    exact grows_of_same [_] rfl (by simp [Regards]) id (.inl rfl) rfl rfl rfl
  | starts | reissue | stopReissue | buildPanicked | panics | abandoningPanicked | leavingPanicked
  | freeingPanicked => exact grows_of_still rfl rfl rfl rfl rfl rfl

theorem Grows.hooks (grows : t.Grows after)
    (hooks : ∀ who w, (t.wakeups who).hook = some w → w = who) :
    ∀ who w, (after.wakeups who).hook = some w → w = who := fun who w hooked =>
  (grows.hook who w hooked).elim (hooks who w) id

theorem Grows.turns (grows : t.Grows after) (handle : Nat) :
    (t.issued handle).turn ≤ (after.issued handle).turn := by
  rcases grows.issued with same | ⟨who, pinned, creates⟩
  · rw [same]
  · rw [creates.2.2, Function.update_apply]
    split
    · next same =>
      rw [creates.1, same]
      exact Nat.le_succ _
    · exact le_rfl

/-- A machine is created before it is built, built before it runs, and counted by its handle's
turns; and none has handle `0`. -/
structure Dated (t : Thread) : Prop where
  next : 0 < t.table.next
  issued : ∀ handle, (t.issued handle).handle = handle
  handles : ∀ handle who, t.At handle who .table ∨ t.At handle who .parked → handle ≠ 0
  turns : ∀ handle who place, t.At handle who place → who.turn ≤ (t.issued who.handle).turn
  built : ∀ who, .built who ∈ t.history → who.turn ≤ (t.issued who.handle).turn
  begun : ∀ handle who place, t.At handle who place → place ≠ .parked → place ≠ .building →
    .built who ∈ t.history
  parked : ∀ handle who, t.At handle who .parked →
    .built who ∉ t.history ∧ ∀ h, ¬ t.At h who .building
  unbuilt : ∀ who, .built who ∉ t.history → t.Idle who

theorem dated_new : Dated new := by
  have nowhere : ∀ handle who place, ¬ At new handle who place := by
    intro handle who place there
    cases place with
    | building =>
      obtain ⟨⟨_, member, _⟩, _⟩ := there
      cases member
    | running =>
      obtain ⟨_, member, _⟩ := there
      cases member
    | _ => cases there
  exact ⟨Nat.one_pos, fun _ => rfl, fun _ _ there => (there.elim (nowhere _ _ _) (nowhere _ _ _)).elim,
    fun _ _ _ there => (nowhere _ _ _ there).elim, nofun,
    fun _ _ _ there => (nowhere _ _ _ there).elim, fun _ _ there => (nowhere _ _ _ there).elim,
    fun _ _ => ⟨rfl, rfl, rfl, rfl, rfl⟩⟩

theorem creates_later {who w : Who} {pinned : Bool} (creates : t.Creates after who pinned)
    (earlier : w.turn ≤ (t.issued w.handle).turn) : w ≠ who := by
  rintro rfl
  rw [creates.1] at earlier
  exact absurd earlier (Nat.not_succ_le_self _)

theorem Creates.dated {who : Who} {pinned : Bool} (creates : t.Creates after who pinned) :
    who.turn ≤ (after.issued who.handle).turn := by
  rw [creates.2.2, Function.update_self]

/-- Where a step leaves a machine, it was created or was before, and it is built by then. -/
theorem Dated.at_step (dated : t.Dated)
    (hooks : ∀ who w, (t.wakeups who).hook = some w → w = who) {a : Act}
    (stepped : t.step a = some after) {handle : Nat} {who : Who} {place : Place}
    (there : after.At handle who place) : who.turn ≤ (after.issued who.handle).turn ∧
      (place ≠ .parked → place ≠ .building → .built who ∈ after.history) := by
  have grows := step_grows hooks stepped
  have before : ∀ {h p}, t.At h who p → who.turn ≤ (after.issued who.handle).turn :=
    fun old => (dated.turns _ _ _ old).trans (grows.turns _)
  have tabled : ∀ {h}, after.At h who .table →
      who.turn ≤ (after.issued who.handle).turn ∧ .built who ∈ after.history := by
    intro h there
    rcases step_places stepped there with old | ⟨_, creates, built⟩
    · exact ⟨before old, grows.history (dated.begun _ _ _ old nofun nofun)⟩
    · exact ⟨creates.dated, built⟩
  have local' : ∀ {h}, after.At h who .here →
      who.turn ≤ (after.issued who.handle).turn ∧ .built who ∈ after.history := by
    intro h there
    rcases step_places stepped there with old | ⟨building, built⟩
    · exact ⟨before old, grows.history (dated.begun _ _ _ old nofun nofun)⟩
    · exact ⟨before building, built⟩
  cases place with
  | table => exact (tabled there).imp_right fun built _ _ => built
  | here => exact (local' there).imp_right fun built _ _ => built
  -- a call begins on a machine that is in the table or the thread's own
  | running =>
    rcases step_places stepped there with old | found | found
    · exact ⟨before old, fun _ _ => grows.history (dated.begun _ _ _ old nofun nofun)⟩
    · exact (tabled found).imp_right fun built _ _ => built
    · exact (local' found).imp_right fun built _ _ => built
  | parked =>
    refine ⟨?_, fun parked => absurd rfl parked⟩
    rcases step_places stepped there with old | ⟨_, creates⟩
    · exact before old
    · exact creates.dated
  | building =>
    refine ⟨?_, fun _ building => absurd rfl building⟩
    rcases step_places stepped there with old | ⟨_, parked, _⟩
    · exact before old
    · exact @before _ .parked parked

/-- A machine parked before a step is not built by it, and none that is built is parked by it. -/
theorem Dated.parked_step (dated : t.Dated) (placed : t.Placed)
    (hooks : ∀ who w, (t.wakeups who).hook = some w → w = who) {a : Act}
    (stepped : t.step a = some after) {handle : Nat} {who : Who}
    (there : after.At handle who .parked) :
    .built who ∉ after.history ∧ ∀ h, ¬ after.At h who .building := by
  have grows := step_grows hooks stepped
  have places := fun h (building : after.At h who .building) => step_places stepped building
  rcases step_places stepped there with old | ⟨own, creates⟩
  · refine ⟨fun built => ?_, fun h building => ?_⟩
    · rcases grows.built who built with before | creates | building
      · exact (dated.parked _ _ old).1 before
      · exact creates_later creates (dated.turns _ _ _ old) rfl
      · exact (dated.parked _ _ old).2 _ building
    · rcases places h building with before | ⟨h', parked, unparked⟩
      · exact (dated.parked _ _ old).2 _ before
      · obtain rfl : handle = h' :=
          ((placed _ _ _ old).1).symm.trans (placed _ _ .parked parked).1
        rw [show after.table.parked handle = some who from there] at unparked
        cases unparked
  -- it is newer than all that were anywhere
  · refine ⟨fun built => ?_, fun h building => ?_⟩
    · rcases grows.built who built with old | creates' | building
      · exact creates_later creates (dated.built who old) rfl
      · have kinds := congrArg Who.pinned (creates.1.symm.trans creates'.1)
        cases kinds
      · exact creates_later creates (dated.turns _ _ _ building) rfl
    · rcases places h building with before | ⟨_, parked, _⟩
      · exact creates_later creates (dated.turns _ _ _ before) rfl
      · exact creates_later creates (dated.turns _ _ .parked parked) rfl

theorem Dated.step (dated : t.Dated) (placed : t.Placed)
    (hooks : ∀ who w, (t.wakeups who).hook = some w → w = who) {a : Act}
    (stepped : t.step a = some after) : after.Dated := by
  have grows := step_grows hooks stepped
  constructor
  case next => exact grows.next dated.next
  case issued =>
    intro handle
    rcases grows.issued with same | ⟨who, pinned, creates⟩
    · rw [same, dated.issued]
    · rw [creates.2.2, Function.update_apply]
      split
      · next same => exact same.symm
      · exact dated.issued handle
  case handles =>
    intro handle who there
    rcases there with there | there
    · rcases step_places stepped there with old | ⟨own, creates, _⟩
      · exact dated.handles _ _ (.inl old)
      · exact own ▸ creates.2.1 dated.next
    · rcases step_places stepped there with old | ⟨own, creates⟩
      · exact dated.handles _ _ (.inr old)
      · exact own ▸ creates.2.1 dated.next
  case turns => exact fun _ _ _ there => (dated.at_step hooks stepped there).1
  case built =>
    intro who built
    rcases grows.built who built with old | creates | building
    · exact (dated.built who old).trans (grows.turns _)
    · exact creates.dated
    · exact (dated.turns _ _ _ building).trans (grows.turns _)
  case begun => exact fun _ _ _ there => (dated.at_step hooks stepped there).2
  case parked => exact fun _ _ there => dated.parked_step placed hooks stepped there
  case unbuilt =>
    intro who built
    have old : .built who ∉ t.history := fun here => built (grows.history here)
    exact grows.idle who (dated.unbuilt who old)
      (fun handle running => old (dated.begun _ _ _ running nofun nofun)) built

end

end Thread

end SansEffort
