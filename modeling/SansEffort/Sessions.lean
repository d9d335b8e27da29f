import SansEffort.Wakes
import Mathlib.Data.Finset.Card

/-!
# Recordings hold their machines' calls

A session's machines and their calls are read off the history, by machine; the table keeps them
by handle. The two agree as long as no machine is issued a handle of an open session or of a
running call, no machine is created where `CALL` and the call that creates it are of different
sessions, and no call returns with a constructor's panic while its machine is recorded.
-/

namespace SansEffort.Thread

open Record (Log)

/-! ### Open sessions -/

/-- Sessions are numbered in order, counted while they are open, and tapped only then. -/
structure Counted (t : Thread) : Prop where
  fresh : ∀ session, (t.table.sessions session).isSome = true → session < t.table.nextSession
  count : t.openSessions =
    ((Finset.range t.table.nextSession).filter fun s => (t.table.sessions s).isSome = true).card
  untapped : ∀ session, t.table.sessions session = none → ∀ handle,
    Table.tapsIn (t.table.recorded handle) session = []

theorem counted_new : Counted new := ⟨nofun, rfl, fun _ _ _ => rfl⟩

section

variable {t after : Thread}

theorem Counted.of_present (counted : t.Counted)
    (present : ∀ session, (after.table.sessions session).isSome =
      (t.table.sessions session).isSome)
    (untapped : ∀ session, t.table.sessions session = none → ∀ handle,
      Table.tapsIn (after.table.recorded handle) session = [])
    (next : after.table.nextSession = t.table.nextSession)
    (opened : after.openSessions = t.openSessions) : after.Counted := by
  refine ⟨fun session here => ?_, ?_, fun session closed => untapped session ?_⟩
  · rw [next]
    exact counted.fresh session ((present session).symm.trans here)
  · rw [opened, counted.count, next]
    simp only [present]
  · rw [← Option.not_isSome_iff_eq_none, ← present, closed]
    exact Bool.false_ne_true

theorem Counted.of_same (counted : t.Counted) (sessions : after.table.sessions = t.table.sessions)
    (recorded : after.table.recorded = t.table.recorded)
    (next : after.table.nextSession = t.table.nextSession)
    (opened : after.openSessions = t.openSessions) : after.Counted :=
  counted.of_present (fun _ => by rw [sessions])
    (fun session closed => by rw [recorded]; exact counted.untapped session closed) next opened

/-- While a session is open, calls are noted. -/
theorem Counted.positive (counted : t.Counted) {session : Nat}
    (opened : (t.table.sessions session).isSome = true) : 0 < t.openSessions := by
  rw [counted.count]
  exact Finset.card_pos.mpr ⟨session, Finset.mem_filter.mpr
    ⟨Finset.mem_range.mpr (counted.fresh session opened), opened⟩⟩

theorem Counted.note_sessions (counted : t.Counted) (handle : Nat)
    (event : Nat → Record.Event) (session : Nat) :
    (t.note handle event).table.sessions session = (t.table.sessions session).map fun log =>
      { log with events := log.events ++
        (Table.tapsIn (t.table.recorded handle) session).map fun tap => event tap.machine } := by
  unfold Thread.note
  split
  · exact Table.noteTaps_sessions event (t.table.recorded handle) t.table session
  · next unopened =>
    cases opened : t.table.sessions session with
    | none => rfl
    | some log => exact absurd (counted.positive (by rw [opened]; rfl)) unopened

/-- A call that returns is an event of each session its handle is tapped for. -/
theorem Counted.returns_spec (counted : t.Counted) (called : Who) (c : AnyCall)
    (outcome : Record.Outcome) (woken : List Notice) :
    ∃ sessions, t.returns called c outcome woken =
      { t with
        table := { t.table with sessions }
        history := .returned called c outcome woken :: t.history } ∧
      ∀ session, sessions session = (t.table.sessions session).map fun log => { log with
        events := log.events ++
          (Table.tapsIn (t.table.recorded called.handle) session).map (c.event outcome ·.machine) } := by
  obtain ⟨sessions, same⟩ := t.returns_spec called c outcome woken
  refine ⟨sessions, same, fun session => ?_⟩
  have noted := counted.note_sessions called.handle (fun machine => c.event outcome machine) session
  rw [← noted]
  exact (congrArg (fun t => t.table.sessions session) same).symm

theorem Counted.returns (counted : t.Counted) (called : Who) (c : AnyCall)
    (outcome : Record.Outcome) (woken : List Notice) :
    (t.returns called c outcome woken).Counted := by
  obtain ⟨sessions, same, logged⟩ := counted.returns_spec called c outcome woken
  rw [same]
  exact counted.of_present (fun session => (congrArg Option.isSome (logged session)).trans
    Option.isSome_map) counted.untapped rfl rfl

theorem Counted.report (counted : t.Counted) (called : Who) (c : PollCall) (result : Coded)
    (outer : Option CallState) : (t.report called c result outer).Counted := by
  cases result with
  | ok reply =>
    have left : Counted { t with call := outer } := counted.of_same rfl rfl rfl rfl
    exact left.returns _ _ _ _
  | error error =>
    have left : Counted { t with
        call := outer, wakes := t.wakes ++ (t.call.map CallState.woken).getD [] } :=
      counted.of_same rfl rfl rfl rfl
    exact left.returns _ _ _ _

theorem Counted.enter (counted : t.Counted) (called : Who) (c : PollCall) :
    (t.enter called c).Counted := by
  have begun : Counted { t with call := some ⟨called.handle, []⟩ } :=
    counted.of_same rfl rfl rfl rfl
  unfold Thread.enter
  dsimp only
  split
  · exact begun.report _ _ _ _
  · split
    · exact begun.report _ _ _ _
    · split
      · exact begun.report _ _ _ _
      · exact begun.of_same rfl rfl rfl rfl

theorem Counted.create (counted : t.Counted) {pinned : Bool} {who : Who}
    (created : t.create pinned = some (who, after)) : after.Counted := by
  have logs := t.create_sessions pinned created
  have same : after.table.nextSession = t.table.nextSession ∧
      after.openSessions = t.openSessions := by
    obtain ⟨_, _, _, _, _, _, _, rfl⟩ := t.create_spec pinned created
    exact ⟨rfl, rfl⟩
  refine counted.of_present (fun session => ?_) (fun session closed handle => ?_) same.1 same.2
  · rw [(logs session).1, Option.isSome_map]
  · rw [(logs session).2, counted.untapped session closed, closed]
    simp

theorem Counted.record (counted : t.Counted) {root session : Nat} {table : Table}
    (started : t.table.startRecording root = some (session, table)) :
    Counted ({ t with table, openSessions := t.openSessions + 1 }.happen
      (.opened session (t.issued root))) := by
  obtain ⟨rfl, rfl⟩ := Table.startRecording_spec started
  refine ⟨fun session here => ?_, ?_, fun session closed handle => ?_⟩
  · change (Function.update t.table.sessions t.table.nextSession _ session).isSome = true at here
    show session < t.table.nextSession + 1
    by_cases own : session = t.table.nextSession
    · exact own ▸ Nat.lt_succ_self _
    · rw [Function.update_of_ne own] at here
      exact Nat.lt_succ_of_lt (counted.fresh session here)
  · show t.openSessions + 1 = ((Finset.range (t.table.nextSession + 1)).filter fun s =>
      (Function.update t.table.sessions t.table.nextSession (some _) s).isSome = true).card
    rw [counted.count, Finset.range_add_one, Finset.filter_insert, if_pos (by simp),
      Finset.card_insert_of_notMem (by simp)]
    congr 2
    refine Finset.filter_congr fun s member => ?_
    rw [Function.update_of_ne (Nat.ne_of_lt (Finset.mem_range.mp member))]
  · change Function.update t.table.sessions t.table.nextSession (some _) session = none at closed
    show Table.tapsIn (Function.update t.table.recorded root _ handle) session = []
    by_cases own : session = t.table.nextSession
    · rw [own, Function.update_self] at closed
      cases closed
    · rw [Function.update_of_ne own] at closed
      rw [Function.update_apply]
      split
      · rw [Table.tapsIn_append, counted.untapped session closed]
        simp [Table.tapsIn, Ne.symm own]
      · exact counted.untapped session closed handle

theorem Counted.finish (counted : t.Counted) {session : Nat} {log : Option Log} {table : Table}
    (finished : t.table.finishRecording session = (log, table)) :
    Counted { t with
      table, openSessions := if log.isSome then t.openSessions - 1 else t.openSessions } := by
  obtain ⟨present, rfl⟩ := Prod.mk.inj finished
  refine ⟨fun s here => ?_, ?_, fun s closed handle => ?_⟩
  · change (Function.update t.table.sessions session none s).isSome = true at here
    rw [Function.update_apply] at here
    split at here
    · cases here
    · exact counted.fresh s here
  · show (if log.isSome then t.openSessions - 1 else t.openSessions) =
      ((Finset.range t.table.nextSession).filter fun s =>
        (Function.update t.table.sessions session none s).isSome = true).card
    have ended : (Finset.range t.table.nextSession).filter (fun s =>
        (Function.update t.table.sessions session none s).isSome = true) =
        ((Finset.range t.table.nextSession).filter fun s =>
          (t.table.sessions s).isSome = true).erase session := by
      ext s
      simp only [Finset.mem_erase, Finset.mem_filter, Function.update_apply]
      by_cases own : s = session <;> simp [own]
    rw [ended, counted.count, ← present]
    split
    · next opened =>
      rw [Finset.card_erase_of_mem (Finset.mem_filter.mpr
        ⟨Finset.mem_range.mpr (counted.fresh session opened), opened⟩)]
    · next closed =>
      refine congrArg Finset.card (Finset.erase_eq_of_notMem fun member => closed ?_).symm
      exact (Finset.mem_filter.mp member).2
  · show Table.tapsIn ((t.table.recorded handle).filter (·.session ≠ session)) s = []
    by_cases own : s = session
    · subst own
      simp [Table.tapsIn]
    · change Function.update t.table.sessions session none s = none at closed
      rw [Function.update_of_ne own] at closed
      refine Eq.trans ?_ (counted.untapped s closed handle)
      rw [Table.tapsIn, Table.tapsIn, List.filter_filter]
      refine List.filter_congr fun tap _ => ?_
      by_cases here : tap.session = s <;> simp [here, own]

theorem Counted.step (counted : t.Counted) {a : Act} (stepped : t.step a = some after) :
    after.Counted := by
  cases step_cases stepped with
  | new who made created => exact (counted.create created).of_same rfl rfl rfl rfl
  | newPinned who made created => exact counted.create created
  | resumes | replies => exact counted.enter _ _
  | frees handle =>
    obtain ⟨middle, fewer, outcome⟩ := t.free_spec handle
    have left : middle.Counted := by
      rw [fewer.rest]
      exact counted.of_same rfl rfl rfl rfl
    rcases outcome with ⟨code, same⟩ | same <;> rw [same]
    · exact left.returns _ _ _ _
    · exact left.of_same rfl rfl rfl rfl
  | wake who =>
    unfold Thread.wakeUp
    dsimp only
    split
    · next w _ =>
      obtain ⟨_, _, same⟩ | ⟨_, same⟩ := woke_spec ({ t with
        wakeups := Function.update t.wakeups who (t.wakeups who).wakeUp.2 }.happen
          (.wakerCalled who)) w <;>
      · rw [same]
        exact counted.of_same rfl rfl rfl rfl
    · exact counted.of_same rfl rfl rfl rfl
  | records root session table started => exact counted.record started
  | finishes session log table finished => exact (counted.finish finished).of_same rfl rfl rfl rfl
  | unopened session table finished => exact (counted.finish finished).of_same rfl rfl rfl rfl
  | built who frames stack =>
    have popped : Counted { t.hook who with
        frames, locals := Function.update t.locals who.handle (some who) } :=
      counted.of_same rfl rfl rfl rfl
    exact popped.enter _ _
  | returns result called who c phase outer frames stack =>
    have popped : Counted { t with
        completed := Function.update t.completed who
          (t.completed who || completes phase result), frames } :=
      counted.of_same rfl rfl rfl rfl
    exact popped.report _ _ _ _
  | dropped => split <;> exact counted.of_same rfl rfl rfl rfl
  | left called c result outer frames stack =>
    have popped : Counted { t with frames } := counted.of_same rfl rfl rfl rfl
    exact popped.report _ _ _ _
  | freed called frames stack =>
    have popped : Counted { t with frames } := counted.of_same rfl rfl rfl rfl
    exact popped.returns _ _ _ _
  -- a frame changes, and the table is left alone but for what it holds of a machine
  | starts | wakes | reissue | stopReissue | buildPanicked | abandoned | abandoningPanicked | hold
  | beginPoll | leaves | panics | droppingPanicked | leavingPanicked | freeingPanicked =>
    exact counted.of_same rfl rfl rfl rfl

end

/-! ### What the history says of a session -/

/-- A session's machines and their calls, while it is open. -/
def recording (session : Nat) : List Happening → Option (List Who × List Record.Event)
  | [] => none
  | .opened s root :: history => if s = session then some ([root], []) else recording session history
  | .finished s :: history => if s = session then none else recording session history
  | .created who parent :: history => (recording session history).map fun (members, events) =>
    (if ∃ p ∈ members, parent = some p then members ++ [who] else members, events)
  | .returned who c outcome _ :: history => (recording session history).map fun (members, events) =>
    (members, if who ∈ members then
      events ++ [c.event outcome (Log.number (members.idxOf who))] else events)
  | _ :: history => recording session history

def logOf : List Who × List Record.Event → Log
  | (members, events) => ⟨members.map Who.handle, events⟩

/-- The taps a machine is to have for a session. -/
def tapOf (session : Nat) (who : Who) : Option (List Who × List Record.Event) → List Tap
  | none => []
  | some (members, _) =>
    if who ∈ members then [⟨session, Log.number (members.idxOf who)⟩] else []

/-- What a step must keep to. -/
def Kept (t : Thread) : Act → Prop
  | .new | .newPinned =>
    (∀ handle table rest, t.table.issue t.reissue = some (handle, table, rest) →
      t.table.recorded handle = [] ∧ ∀ frame ∈ t.frames, frame.called.handle ≠ handle) ∧
    ∀ session, Table.tapsIn (t.table.callTaps (t.call.map CallState.handle)) session = [] ↔
      Table.tapsIn (t.table.callTaps (t.caller.map Who.handle)) session = []
  | .abandoned => ∀ who, t.caller = some who → t.table.recorded who.handle = []
  | _ => True

structure Faithful (t : Thread) : Prop where
  counted : t.Counted
  logs : ∀ session, t.table.sessions session = (recording session t.history).map logOf
  taps : ∀ session handle, Table.tapsIn (t.table.recorded handle) session =
    tapOf session (t.issued handle) (recording session t.history)
  members : ∀ session members events, recording session t.history = some (members, events) →
    ∀ who ∈ members, t.issued who.handle = who
  issued : ∀ handle, (t.issued handle).handle = handle
  frames : ∀ frame ∈ t.frames, t.issued frame.called.handle = frame.called
  parked : ∀ handle who, t.table.parked handle = some who → t.issued handle = who

theorem faithful_new : Faithful new :=
  ⟨counted_new, fun _ => rfl, fun _ _ => rfl, nofun, fun _ => rfl, nofun, nofun⟩

section

variable {t after : Thread}

theorem Faithful.of_same (faithful : t.Faithful)
    (sessions : after.table.sessions = t.table.sessions)
    (recorded : after.table.recorded = t.table.recorded)
    (next : after.table.nextSession = t.table.nextSession)
    (opened : after.openSessions = t.openSessions) (issued : after.issued = t.issued)
    (recordings : ∀ session, recording session after.history = recording session t.history)
    (frames : ∀ frame ∈ after.frames, t.issued frame.called.handle = frame.called)
    (parked : ∀ handle who, after.table.parked handle = some who →
      t.table.parked handle = some who) : after.Faithful := by
  constructor
  case counted => exact faithful.counted.of_same sessions recorded next opened
  case logs =>
    intro session
    rw [sessions, recordings, faithful.logs]
  case taps =>
    intro session handle
    rw [recorded, recordings, issued, faithful.taps]
  case members =>
    intro session members events here
    rw [issued]
    exact faithful.members session members events ((recordings session).symm.trans here)
  case issued =>
    rw [issued]
    exact faithful.issued
  case frames =>
    rw [issued]
    exact frames
  case parked =>
    intro handle who here
    rw [issued]
    exact faithful.parked handle who (parked handle who here)

/-- A call that returns is an event of the sessions of the machine it was made on. -/
theorem Faithful.returns (faithful : t.Faithful) {called : Who}
    (current : t.issued called.handle = called) (c : AnyCall) (outcome : Record.Outcome)
    (woken : List Notice) : (t.returns called c outcome woken).Faithful := by
  have counted := faithful.counted.returns called c outcome woken
  obtain ⟨sessions, same, logged⟩ := faithful.counted.returns_spec called c outcome woken
  rw [same] at counted ⊢
  refine ⟨counted, fun session => ?_, fun session handle => ?_,
    fun session members events here => ?_, faithful.issued, faithful.frames, faithful.parked⟩
  · show sessions session = _
    rw [logged, faithful.taps, faithful.logs, current]
    simp only [recording]
    rcases recording session t.history with _ | ⟨members, events⟩
    · rfl
    · by_cases member : called ∈ members <;> simp [tapOf, logOf, member]
  · refine (faithful.taps session handle).trans ?_
    simp only [recording]
    rcases recording session t.history with _ | ⟨members, events⟩
    · rfl
    · rfl
  · simp only [recording] at here
    obtain ⟨⟨members', events'⟩, before, after⟩ := Option.map_eq_some_iff.mp here
    obtain ⟨rfl, -⟩ := Prod.mk.inj after
    exact faithful.members session _ _ before

theorem Faithful.report (faithful : t.Faithful) {called : Who}
    (current : t.issued called.handle = called) (c : PollCall) (result : Coded)
    (outer : Option CallState) : (t.report called c result outer).Faithful := by
  cases result with
  | ok reply =>
    have left : Faithful { t with call := outer } :=
      faithful.of_same rfl rfl rfl rfl rfl (fun _ => rfl) faithful.frames fun _ _ => id
    exact left.returns current _ _ _
  | error error =>
    have left : Faithful { t with
        call := outer, wakes := t.wakes ++ (t.call.map CallState.woken).getD [] } :=
      faithful.of_same rfl rfl rfl rfl rfl (fun _ => rfl) faithful.frames fun _ _ => id
    exact left.returns current _ _ _

theorem Faithful.enter (faithful : t.Faithful) {called : Who}
    (current : t.issued called.handle = called) (c : PollCall) : (t.enter called c).Faithful := by
  have begun : Faithful { t with call := some ⟨called.handle, []⟩ } :=
    faithful.of_same rfl rfl rfl rfl rfl (fun _ => rfl) faithful.frames fun _ _ => id
  unfold Thread.enter
  dsimp only
  split
  · exact begun.report current _ _ _
  · split
    · exact begun.report current _ _ _
    · split
      · exact begun.report current _ _ _
      · refine begun.of_same rfl rfl rfl rfl rfl (fun _ => rfl) ?_ fun _ _ => id
        exact List.forall_mem_cons.mpr ⟨current, faithful.frames⟩

/-- The calls of a machine are those of its handle, as far as a session can tell. -/
theorem Faithful.callTaps (faithful : t.Faithful) (called : Option Nat) (session : Nat) :
    (Table.tapsIn (t.table.callTaps called) session).length ≤ 1 := by
  cases called with
  | none => exact Nat.zero_le _
  | some handle =>
    rw [Table.callTaps, faithful.taps]
    unfold tapOf
    split
    · exact Nat.zero_le _
    · split
      · exact le_rfl
      · exact Nat.zero_le _

/-- A machine is created in the sessions of the machine whose call creates it. -/
theorem Faithful.creating (faithful : t.Faithful) {session : Nat} {members : List Who}
    {events : List Record.Event} (opened : recording session t.history = some (members, events))
    (alike : Table.tapsIn (t.table.callTaps (t.call.map CallState.handle)) session = [] ↔
      Table.tapsIn (t.table.callTaps (t.caller.map Who.handle)) session = []) :
    (Table.tapsIn (t.table.callTaps (t.call.map CallState.handle)) session).length =
      if ∃ p ∈ members, t.caller = some p then 1 else 0 := by
  have called : Table.tapsIn (t.table.callTaps (t.caller.map Who.handle)) session = [] ↔
      ¬ ∃ p ∈ members, t.caller = some p := by
    unfold Thread.caller
    cases stack : t.frames with
    | nil => simp [Table.callTaps]
    | cons frame frames =>
      have own := faithful.frames frame (by rw [stack]; exact List.mem_cons_self)
      have taps := faithful.taps session frame.called.handle
      rw [opened, own, tapOf] at taps
      simp only [List.head?_cons, Option.map_some, Table.callTaps, Option.some.injEq]
      rw [taps]
      by_cases member : frame.called ∈ members <;> simp [member]
  split
  · next joins =>
    have tapped := fun empty => (called.mp (alike.mp empty)) joins
    exact Nat.le_antisymm (faithful.callTaps _ session) (List.length_pos_iff.mpr tapped)
  · next apart => rw [alike.mpr (called.mpr apart), List.length_nil]

theorem Faithful.create (faithful : t.Faithful) {pinned : Bool} {who : Who}
    (kept : t.Kept .new) (created : t.create pinned = some (who, after)) : after.Faithful := by
  obtain ⟨unused, alike⟩ := kept
  have counted := faithful.counted.create created
  have logs := t.create_sessions pinned created
  obtain ⟨untapped, off⟩ : t.table.recorded who.handle = [] ∧
      ∀ frame ∈ t.frames, frame.called.handle ≠ who.handle := by
    obtain ⟨⟨handle, table, reissue⟩, issued, same⟩ := Option.map_eq_some_iff.mp created
    obtain ⟨rfl, -⟩ := Prod.mk.inj same
    exact unused _ _ _ issued
  obtain ⟨next, reissue, sessions, recorded, named, free, _, rfl⟩ := t.create_spec pinned created
  have stranger : ∀ session members events, recording session t.history = some (members, events) →
      who ∉ members := by
    intro session members events here member
    have turn := congrArg Who.turn (faithful.members _ _ _ here who member)
    rw [congrArg Who.turn named] at turn
    exact absurd turn (Nat.ne_of_lt (Nat.lt_succ_self _))
  have opened : ∀ session, recording session (.created who t.caller :: t.history) =
      (recording session t.history).map fun (members, events) =>
        (if ∃ p ∈ members, t.caller = some p then members ++ [who] else members, events) :=
    fun _ => rfl
  have others : ∀ handle, handle ≠ who.handle →
      Function.update t.issued who.handle who handle = t.issued handle :=
    fun handle away => Function.update_of_ne away _ _
  constructor
  case counted => exact counted
  case logs =>
    intro session
    refine (logs session).1.trans ?_
    rw [opened, faithful.logs]
    cases here : recording session t.history with
    | none => rfl
    | some kept =>
      obtain ⟨members, events⟩ := kept
      simp only [Option.map_some, faithful.creating here (alike session)]
      by_cases joins : ∃ p ∈ members, t.caller = some p <;> simp [logOf, joins]
  case taps =>
    intro session handle
    refine ((logs session).2 handle).trans ?_
    rw [faithful.taps, opened, faithful.logs]
    change _ = tapOf session (Function.update t.issued who.handle who handle) _
    cases here : recording session t.history with
    | none => simp [tapOf]
    | some kept =>
      obtain ⟨members, events⟩ := kept
      have absent := stranger _ _ _ here
      simp only [Option.map_some, faithful.creating here (alike session), tapOf]
      by_cases own : handle = who.handle
      · subst own
        have before := faithful.taps session who.handle
        rw [untapped, here] at before
        simp only [Function.update_self, if_true]
        rw [show (if t.issued who.handle ∈ members then _ else []) = _ from before.symm]
        by_cases joins : ∃ p ∈ members, t.caller = some p
        · simp [joins, logOf, List.idxOf_append_of_notMem absent]
        · simp [joins, absent]
      · rw [others handle own, if_neg own, List.append_nil]
        have apart : t.issued handle ≠ who := fun same => own (by rw [← same, faithful.issued])
        by_cases joins : ∃ p ∈ members, t.caller = some p
        · rw [if_pos joins]
          by_cases member : t.issued handle ∈ members
          · simp [member, List.idxOf_append_of_mem]
          · simp [member, apart]
        · rw [if_neg joins]
  case members =>
    intro session members events here w member
    rw [opened] at here
    obtain ⟨⟨before, past⟩, old, grown⟩ := Option.map_eq_some_iff.mp here
    obtain ⟨rfl, -⟩ := Prod.mk.inj grown
    by_cases same : w = who
    · rw [same]
      exact Function.update_self _ _ _
    · have elder : w ∈ before := by
        split at member
        · exact (List.mem_append.mp member).resolve_right fun last =>
            same (List.mem_singleton.mp last)
        · exact member
      have current := faithful.members _ _ _ old w elder
      refine (others _ fun own => ?_).trans current
      -- its handle would be tapped
      have taps := faithful.taps session w.handle
      rw [own, untapped, ← own, current, old, tapOf, if_pos elder] at taps
      cases taps
  case issued =>
    intro handle
    show (Function.update t.issued who.handle who handle).handle = handle
    by_cases own : handle = who.handle
    · rw [own, Function.update_self]
    · rw [others handle own, faithful.issued]
  case frames =>
    intro frame member
    exact (others _ (off frame member)).trans (faithful.frames frame member)
  case parked =>
    intro handle w here
    show Function.update t.issued who.handle who handle = w
    by_cases own : handle = who.handle
    · subst own
      rw [Function.update_self]
      simp only [Table.inUse, Bool.or_eq_false_iff, Option.isSome_eq_false_iff,
        Option.isNone_iff_eq_none] at free
      cases pinned with
      | true =>
        simp only [if_true, Function.update_self] at here
        exact Option.some.inj here
      | false =>
        simp only [Bool.false_eq_true, if_false] at here
        rw [free.1.2] at here
        cases here
    · rw [others handle own]
      refine faithful.parked handle w ?_
      cases pinned with
      | true => simpa [own] using here
      | false => simpa using here

theorem Faithful.record (faithful : t.Faithful) {root session : Nat} {table : Table}
    (started : t.table.startRecording root = some (session, table)) :
    Faithful ({ t with table, openSessions := t.openSessions + 1 }.happen
      (.opened session (t.issued root))) := by
  have counted := faithful.counted.record started
  obtain ⟨rfl, rfl⟩ := Table.startRecording_spec started
  -- the session's number is new, so nothing is told of it
  have closed : t.table.sessions t.table.nextSession = none := by
    by_contra opened
    exact absurd (faithful.counted.fresh _ (Option.isSome_iff_ne_none.mpr opened)) (Nat.lt_irrefl _)
  have unheard : recording t.table.nextSession t.history = none := by
    have logs := faithful.logs t.table.nextSession
    rw [closed] at logs
    exact Option.map_eq_none_iff.mp logs.symm
  have opened : ∀ session, recording session
      (.opened t.table.nextSession (t.issued root) :: t.history) =
        if t.table.nextSession = session then some ([t.issued root], [])
        else recording session t.history := fun _ => rfl
  refine ⟨counted, fun session => ?_, fun session handle => ?_,
    fun session members events here w member => ?_, faithful.issued, faithful.frames, faithful.parked⟩
  · show Function.update t.table.sessions t.table.nextSession _ session = _
    simp only [Thread.happen, opened]
    by_cases own : session = t.table.nextSession
    · subst own
      simp [logOf, faithful.issued]
    · rw [Function.update_of_ne own, if_neg (Ne.symm own), faithful.logs]
  · show Table.tapsIn (Function.update t.table.recorded root _ handle) session = _
    simp only [Thread.happen, opened]
    have before := faithful.taps session handle
    by_cases own : session = t.table.nextSession
    · subst own
      rw [unheard] at before
      rw [if_pos rfl]
      by_cases same : handle = root
      · subst same
        rw [Function.update_self, Table.tapsIn_append, before]
        simp [Table.tapsIn, tapOf]
      -- the root alone is tapped
      · have apart : t.issued handle ≠ t.issued root := fun alike =>
          same (by rw [← faithful.issued handle, alike, faithful.issued])
        rw [Function.update_of_ne same, before]
        simp [tapOf, apart]
    · rw [if_neg (Ne.symm own), ← before]
      by_cases same : handle = root
      · subst same
        simp [Table.tapsIn, Ne.symm own]
      · rw [Function.update_of_ne same]
  · simp only [Thread.happen, opened] at here
    split at here
    · cases here
      obtain rfl := List.mem_singleton.mp member
      show t.issued (t.issued root).handle = t.issued root
      rw [faithful.issued]
    · exact faithful.members session members events here w member

theorem Faithful.finish (faithful : t.Faithful) {session : Nat} {log : Log} {table : Table}
    (finished : t.table.finishRecording session = (some log, table)) :
    Faithful ({ t with table, openSessions := t.openSessions - 1 }.happen (.finished session)) := by
  have counted := faithful.counted.finish finished
  obtain ⟨present, rfl⟩ := Prod.mk.inj finished
  have ended : ∀ s, recording s (.finished session :: t.history) =
      if session = s then none else recording s t.history := fun _ => rfl
  refine ⟨counted.of_same rfl rfl rfl rfl, fun s => ?_, fun s handle => ?_,
    fun s members events here w member => ?_, faithful.issued, faithful.frames, faithful.parked⟩
  · show Function.update t.table.sessions session none s = _
    simp only [Thread.happen, ended]
    by_cases own : s = session
    · subst own
      simp
    · rw [Function.update_of_ne own, if_neg (Ne.symm own), faithful.logs]
  · show Table.tapsIn ((t.table.recorded handle).filter (·.session ≠ session)) s = _
    simp only [Thread.happen, ended]
    by_cases own : s = session
    · subst own
      simp [Table.tapsIn, tapOf]
    · rw [if_neg (Ne.symm own)]
      refine Eq.trans ?_ (faithful.taps s handle)
      rw [Table.tapsIn, Table.tapsIn, List.filter_filter]
      refine List.filter_congr fun tap _ => ?_
      by_cases here : tap.session = s <;> simp [here, own]
  · simp only [Thread.happen, ended] at here
    split at here
    · cases here
    · exact faithful.members s members events here w member

/-- A frame is taken off the stack. -/
theorem Faithful.pop (faithful : t.Faithful) {frame : Frame} {frames : List Frame}
    (stack : t.frames = frame :: frames) :
    t.issued frame.called.handle = frame.called ∧ Faithful { t with frames } := by
  obtain ⟨own, rest⟩ := List.forall_mem_cons.mp (stack ▸ faithful.frames)
  exact ⟨own, faithful.of_same rfl rfl rfl rfl rfl (fun _ => rfl) rest fun _ _ => id⟩

theorem Faithful.free (faithful : t.Faithful) (handle : Nat) : (t.free handle).Faithful := by
  obtain ⟨middle, fewer, outcome⟩ := t.free_spec handle
  have left : middle.Faithful := by
    have parked := fewer.parked
    rw [fewer.rest] at parked ⊢
    exact faithful.of_same rfl rfl rfl rfl rfl (fun _ => rfl) faithful.frames parked
  have own : middle.issued (t.issued handle).handle = t.issued handle := by
    rw [fewer.rest]
    rw [faithful.issued]
  rcases outcome with ⟨code, returned⟩ | dropping
  · rw [returned]
    exact left.returns own _ _ _
  · rw [dropping]
    refine left.of_same rfl rfl rfl rfl rfl (fun _ => rfl) ?_ fun _ _ => id
    exact List.forall_mem_cons.mpr ⟨own, left.frames⟩

theorem Faithful.wakeUp (faithful : t.Faithful) (who : Who) : (t.wakeUp who).Faithful := by
  have called : Faithful ({ t with
      wakeups := Function.update t.wakeups who (t.wakeups who).wakeUp.2 }.happen
        (.wakerCalled who)) :=
    faithful.of_same rfl rfl rfl rfl rfl (fun _ => rfl) faithful.frames fun _ _ => id
  unfold Thread.wakeUp
  dsimp only
  split
  · next w hook =>
    obtain ⟨_, _, same⟩ | ⟨_, same⟩ := woke_spec ({ t with
        wakeups := Function.update t.wakeups who (t.wakeups who).wakeUp.2 }.happen
          (.wakerCalled who)) w <;>
    · rw [same]
      exact called.of_same rfl rfl rfl rfl rfl (fun _ => rfl) called.frames fun _ _ => id
  · exact called

/-- A session that is not open is finished: nothing has a tap of it. -/
theorem Faithful.unopened (faithful : t.Faithful) {session : Nat} {table : Table}
    (finished : t.table.finishRecording session = (none, table)) : Faithful { t with table } := by
  obtain ⟨closed, rfl⟩ := Prod.mk.inj finished
  refine faithful.of_same ?_ (funext fun handle => ?_) rfl rfl rfl (fun _ => rfl)
    faithful.frames fun _ _ => id
  · exact Function.update_eq_self_iff.mpr closed.symm
  · -- it has no taps
    have unheard := faithful.logs session
    rw [closed] at unheard
    have taps := faithful.taps session handle
    rw [Option.map_eq_none_iff.mp unheard.symm] at taps
    refine List.filter_eq_self.mpr fun tap member => ?_
    have := List.filter_eq_nil_iff.mp taps tap member
    simpa using this

/-- A call that returns without a note is on a machine that no session has. -/
theorem Faithful.abandoned (faithful : t.Faithful) {who : Who} {frames : List Frame}
    (stack : t.frames = .abandoning who :: frames) (untapped : t.table.recorded who.handle = []) :
    Faithful (Thread.happen { t with frames }
      (.returned who (.poll .resume) (Record.outcome (.error .panicked)) [])) := by
  obtain ⟨own, rest⟩ := List.forall_mem_cons.mp (stack ▸ faithful.frames)
  refine faithful.of_same rfl rfl rfl rfl rfl (fun session => ?_) rest fun _ _ => id
  -- no open session has the machine
  have taps := faithful.taps session who.handle
  rw [untapped, show t.issued who.handle = who from own] at taps
  simp only [Thread.happen, recording]
  cases here : recording session t.history with
  | none => rfl
  | some kept =>
    obtain ⟨members, events⟩ := kept
    have absent : who ∉ members := fun member => by
      simp [here, tapOf, member] at taps
    simp [absent]

theorem Faithful.step (faithful : t.Faithful) {a : Act} (kept : t.Kept a)
    (stepped : t.step a = some after) : after.Faithful := by
  have same : ∀ {handle}, t.issued (t.issued handle).handle = t.issued handle := by
    intro handle
    rw [faithful.issued]
  cases step_cases stepped with
  | new who made created =>
    have joined := faithful.create kept created
    exact joined.of_same rfl rfl rfl rfl rfl (fun _ => rfl) joined.frames fun _ _ => id
  | newPinned who made created => exact faithful.create kept created
  | starts handle who parked =>
    have own := faithful.parked handle who parked
    refine faithful.of_same rfl rfl rfl rfl rfl (fun _ => rfl) ?_ fun _ _ => of_update_none
    exact List.forall_mem_cons.mpr ⟨own ▸ same, faithful.frames⟩
  | resumes | replies => exact faithful.enter same _
  | frees handle => exact faithful.free handle
  | wake who => exact faithful.wakeUp who
  | records root session table started => exact faithful.record started
  | finishes session log table finished => exact faithful.finish finished
  | unopened session table finished => exact faithful.unopened finished
  | wakes | reissue | stopReissue =>
    exact faithful.of_same rfl rfl rfl rfl rfl (fun _ => rfl) faithful.frames fun _ _ => id
  | built who frames stack =>
    obtain ⟨own, popped⟩ := faithful.pop stack
    have built : Faithful { t.hook who with
        frames, locals := Function.update t.locals who.handle (some who) } :=
      popped.of_same rfl rfl rfl rfl rfl (fun _ => rfl) popped.frames fun _ _ => id
    exact built.enter own _
  | buildPanicked who frames stack =>
    exact faithful.of_same rfl rfl rfl rfl rfl (fun _ => rfl)
      (List.forall_mem_cons.mpr (List.forall_mem_cons.mp (stack ▸ faithful.frames))) fun _ _ => id
  -- nothing is noted of it, and it is in no session
  | abandoned who frames stack =>
    exact faithful.abandoned stack (kept who (by rw [Thread.caller, stack]; rfl))
  | abandoningPanicked who frames stack => exact (faithful.pop stack).2
  | hold called who record outer frames stack =>
    exact faithful.of_same rfl rfl rfl rfl rfl (fun _ => rfl)
      (List.forall_mem_cons.mpr (List.forall_mem_cons.mp (stack ▸ faithful.frames))) fun _ _ => id
  | beginPoll called who c phase outer frames stack =>
    exact faithful.of_same rfl rfl rfl rfl rfl (fun _ => rfl)
      (List.forall_mem_cons.mpr (List.forall_mem_cons.mp (stack ▸ faithful.frames))) fun _ _ => id
  | returns result called who c phase outer frames stack =>
    obtain ⟨own, rest⟩ := List.forall_mem_cons.mp (stack ▸ faithful.frames)
    have popped : Faithful { t with
        completed := Function.update t.completed who
          (t.completed who || completes phase result), frames } :=
      faithful.of_same rfl rfl rfl rfl rfl (fun _ => rfl) rest fun _ _ => id
    exact popped.report own _ _ _
  | leaves result called who c phase outer frames stack =>
    obtain ⟨own, rest⟩ := List.forall_mem_cons.mp (stack ▸ faithful.frames)
    exact faithful.of_same rfl rfl rfl rfl rfl (fun _ => rfl)
      (List.forall_mem_cons.mpr ⟨own, rest⟩) fun _ _ => id
  | panics called who c phase outer frames stack =>
    exact faithful.of_same rfl rfl rfl rfl rfl (fun _ => rfl)
      (List.forall_mem_cons.mpr (List.forall_mem_cons.mp (stack ▸ faithful.frames))) fun _ _ => id
  | droppingPanicked poisons called who c phase outer frames stack =>
    have popped := (faithful.pop stack).2
    exact popped.of_same rfl rfl rfl rfl rfl (fun _ => rfl) popped.frames fun _ _ => id
  | dropped called who c phase outer frames stack =>
    have both := List.forall_mem_cons.mp (stack ▸ faithful.frames)
    split <;>
    exact faithful.of_same rfl rfl rfl rfl rfl (fun _ => rfl)
      (List.forall_mem_cons.mpr both) fun _ _ => id
  | left called c result outer frames stack =>
    obtain ⟨own, popped⟩ := faithful.pop stack
    exact popped.report own _ _ _
  | leavingPanicked called c result outer frames stack => exact (faithful.pop stack).2
  | freed called frames stack =>
    obtain ⟨own, popped⟩ := faithful.pop stack
    exact popped.returns own _ _ _
  | freeingPanicked called frames stack => exact (faithful.pop stack).2

end

/-- In every run whose steps all meet `Kept`, each open session holds its machines and their calls, as
they returned, and nothing else. -/
theorem recordings_hold_their_machines_calls (acts : List Act) (t : Thread)
    (ran : Transition.run step new acts = some t) (kept : Transition.Along step Kept new acts)
    (session : Nat) : t.table.sessions session = (recording session t.history).map logOf :=
  (Transition.run_invariant_along Kept Faithful (fun _ _ _ faithful kept stepped =>
    faithful.step kept stepped) faithful_new kept ran).logs session

/-- Where `CALL` is the innermost call, and a machine takes a handle new to the sessions. -/
def keeps (t : Thread) : Act → Bool
  | .new | .newPinned =>
    ((t.table.issue t.reissue).all fun (handle, _, _) => (t.table.recorded handle).isEmpty &&
      t.frames.all fun frame => frame.called.handle != handle) &&
    t.call.map CallState.handle == t.caller.map Who.handle
  | .abandoned => t.caller.all fun who => (t.table.recorded who.handle).isEmpty
  | _ => true

theorem kept_of_keeps (t : Thread) (a : Act) (keeps : t.keeps a = true) : t.Kept a := by
  have issuing : ∀ {table : Table} {rest : List Nat} {handle : Nat},
      t.keeps .new = true → t.table.issue t.reissue = some (handle, table, rest) →
      t.table.recorded handle = [] ∧ ∀ frame ∈ t.frames, frame.called.handle ≠ handle := by
    intro table rest handle keeps issued
    simpa [Thread.keeps, issued] using (Bool.and_eq_true _ _).mp keeps |>.1
  have current : t.keeps .new = true → t.call.map CallState.handle = t.caller.map Who.handle :=
    fun keeps => eq_of_beq ((Bool.and_eq_true _ _).mp keeps).2
  cases a
  case new => exact ⟨fun _ _ _ => issuing keeps, fun session => by rw [current keeps]⟩
  case newPinned => exact ⟨fun _ _ _ => issuing keeps, fun session => by rw [current keeps]⟩
  case abandoned =>
    intro who caller
    simpa [Thread.keeps, caller] using keeps
  all_goals trivial

/-- A root creates a machine, and both are called. -/
theorem recordings_hold_their_machines_calls_child :
    ∃ t, Transition.run step new [.new, .record 1, .resume 1, .beginPoll, .new,
        .finish (.ok ([], .idle)), .free 2, .freed, .reply 2 [7]] = some t ∧
      t.table.sessions 1 = (recording 1 t.history).map logOf := by
  obtain ⟨t, here⟩ : ∃ t, Transition.run step new [.new, .record 1, .resume 1, .beginPoll, .new,
      .finish (.ok ([], .idle)), .free 2, .freed, .reply 2 [7]] = some t := ⟨_, rfl⟩
  exact ⟨t, here, recordings_hold_their_machines_calls _ _ here
    (Transition.along_of_check kept_of_keeps rfl) 1⟩

/-- A recorded machine whose constructor panics: no event. And a machine of two recordings, one of
which is replayed with the other open: that one gets the calls of the new machine. -/
theorem recording_of_other_calls :
    (∃ t, Transition.run step new [.newPinned, .record 1, .resume 1, .buildPanicked,
        .abandoned] = some t ∧
      t.table.sessions 1 = some ⟨[1], []⟩ ∧
      recording 1 t.history = some ([⟨1, 1, true⟩], [.resume 0 ⟨-4, []⟩])) ∧
    ∃ t, Transition.run step new [.new, .record 1, .record 1, .free 1, .freed, .finishRecording 2,
        .reissue [1], .new, .record 1, .resume 1, .beginPoll, .finish (.ok ([], .idle))] = some t ∧
      t.table.sessions 1 = some ⟨[1], [.free 0 ⟨0, []⟩, .resume 0 ⟨2, []⟩]⟩ ∧
      recording 1 t.history = some ([first 1], [.free 0 ⟨0, []⟩]) :=
  ⟨⟨_, rfl, rfl, rfl⟩, _, rfl, rfl, rfl⟩

end SansEffort.Thread
