import SansEffort.Record
import Mathlib.Logic.Function.Basic

/-!
# The handle table

Machines behind handles (`table.rs`), as one thread that makes all the calls sees them: the
owner of a pinned machine is that thread. A map is a function to `Option`, or to a list where
an absent entry is an empty one.
-/

namespace SansEffort

/-- A machine, as opposed to its handle: the `turn`th machine to carry it. -/
structure Who where
  handle : Nat
  turn : Nat
  pinned : Bool
  deriving DecidableEq

/-- Where a recorded machine's calls go: its session, and its number in it. -/
structure Tap where
  session : Nat
  machine : Nat
  deriving DecidableEq

structure Table where
  machines : Nat → Option Who
  parked : Nat → Option Who
  pinned : Nat → Bool
  next : Nat
  recorded : Nat → List Tap
  sessions : Nat → Option Record.Log
  nextSession : Nat

namespace Table

open Record (Log)

def new : Table := ⟨fun _ => none, fun _ => none, fun _ => false, 1, fun _ => [], fun _ => none, 1⟩

def inUse (t : Table) (handle : Nat) : Bool :=
  (t.machines handle).isSome || (t.parked handle).isSome || t.pinned handle

/-- `checked_add(1)`. -/
def successor (handle : Nat) : Option Nat := if handle + 1 < 2 ^ 64 then some (handle + 1) else none

/-- The loop of `issue`, at most `tries` times round. -/
def fresh : Nat → Table → Option (Nat × Table)
  | 0, _ => none
  | tries + 1, t =>
    let handle := t.next
    let t := { t with next := (successor t.next).getD 1 }
    if !t.inUse handle then some (handle, t) else fresh tries t

/-- A fresh handle, or while the thread replays the next one recorded, if that is not `0` and
is free again. `none` if every handle there is is in use. -/
def issue (t : Table) (reissue : List Nat) : Option (Nat × Table × List Nat) :=
  match reissue with
  | [] => (t.fresh (2 ^ 64)).map fun (handle, t) => (handle, t, [])
  | handle :: rest =>
    if handle ≠ 0 ∧ t.inUse handle = false then
      let next := match successor handle with
        | some past => max t.next past
        | none => t.next
      some (handle, { t with next }, rest)
    else (t.fresh (2 ^ 64)).map fun (handle, t) => (handle, t, rest)

/-- Record `child` in the sessions of `taps` that are open: its own taps. -/
def adoptTaps (child : Nat) : List Tap → Table → List Tap × Table
  | [], t => ([], t)
  | tap :: taps, t =>
    match t.sessions tap.session with
    | none => adoptTaps child taps t
    | some log =>
      let (machine, log) := log.adopt child
      let t := { t with sessions := Function.update t.sessions tap.session (some log) }
      let (own, t) := adoptTaps child taps t
      (⟨tap.session, machine⟩ :: own, t)

/-- Record `child`, just created by the call on `call`, in each of that machine's sessions. -/
def adopt (t : Table) (call : Option Nat) (child : Nat) : Table :=
  match call with
  | none => t
  | some parent =>
    let (taps, t) := adoptTaps child (t.recorded parent) t
    { t with recorded := Function.update t.recorded child (t.recorded child ++ taps) }

def noteTaps (event : Nat → Record.Event) : List Tap → Table → Table
  | [], t => t
  | tap :: taps, t =>
    match t.sessions tap.session with
    | none => noteTaps event taps t
    | some log => noteTaps event taps
        { t with sessions := Function.update t.sessions tap.session (some (log.push (event tap.machine))) }

/-- Log `event` for `handle` in each session recording it. -/
def note (t : Table) (handle : Nat) (event : Nat → Record.Event) : Table :=
  noteTaps event (t.recorded handle) t

/-- The session's number, and the table with its log begun. `none` past the last number. -/
def startRecording (t : Table) (root : Nat) : Option (Nat × Table) :=
  if t.nextSession + 1 < 2 ^ 32 then
    let (machine, log) := Log.empty.adopt root
    some (t.nextSession, { t with
      nextSession := t.nextSession + 1
      sessions := Function.update t.sessions t.nextSession (some log)
      recorded := Function.update t.recorded root
        (t.recorded root ++ [⟨t.nextSession, machine⟩]) })
  else none

def finishRecording (t : Table) (session : Nat) : Option Log × Table :=
  (t.sessions session, { t with
    recorded := fun handle => (t.recorded handle).filter (·.session ≠ session)
    sessions := Function.update t.sessions session none })

def recordedHandle (t : Table) (session machine : Nat) : Option Nat :=
  (t.sessions session).bind fun log => log.handle machine

/-- A session that is opened has the next number, and the root is recorded in it alone. -/
theorem startRecording_spec {t table : Table} {root session : Nat}
    (started : t.startRecording root = some (session, table)) :
    session = t.nextSession ∧ table = { t with
      nextSession := t.nextSession + 1
      sessions := Function.update t.sessions t.nextSession (some ⟨[root], []⟩)
      recorded := Function.update t.recorded root
        (t.recorded root ++ [⟨t.nextSession, Log.number 0⟩]) } := by
  unfold startRecording at started
  split at started <;> cases started
  exact ⟨rfl, rfl⟩

theorem noteTaps_spec (event : Nat → Record.Event) (taps : List Tap) (t : Table) :
    ∃ sessions, noteTaps event taps t = { t with sessions } := by
  induction taps generalizing t with
  | nil => exact ⟨t.sessions, rfl⟩
  | cons tap taps ih =>
    simp only [noteTaps]
    split
    · exact ih t
    · exact ih _

theorem note_spec (t : Table) (handle : Nat) (event : Nat → Record.Event) :
    ∃ sessions, t.note handle event = { t with sessions } :=
  noteTaps_spec event (t.recorded handle) t

theorem adoptTaps_spec (child : Nat) (taps : List Tap) (t : Table) :
    ∃ sessions, (adoptTaps child taps t).2 = { t with sessions } := by
  induction taps generalizing t with
  | nil => exact ⟨t.sessions, rfl⟩
  | cons tap taps ih =>
    simp only [adoptTaps]
    split
    · exact ih t
    · exact ih _

theorem adopt_spec (t : Table) (call : Option Nat) (child : Nat) :
    ∃ sessions recorded, t.adopt call child = { t with sessions, recorded } := by
  cases call with
  | none => exact ⟨t.sessions, t.recorded, rfl⟩
  | some parent =>
    obtain ⟨sessions, same⟩ := adoptTaps_spec child (t.recorded parent) t
    simp only [Table.adopt]
    rw [same]
    exact ⟨sessions, _, rfl⟩

/-! ### What adopting and noting do to each log -/

/-- The taps of a session among `taps`. -/
def tapsIn (taps : List Tap) (session : Nat) : List Tap := taps.filter (·.session = session)

@[simp] theorem tapsIn_nil (session : Nat) : tapsIn [] session = [] := rfl

theorem tapsIn_cons_same (tap : Tap) (taps : List Tap) :
    tapsIn (tap :: taps) tap.session = tap :: tapsIn taps tap.session := by
  simp [tapsIn]

theorem tapsIn_cons_other {tap : Tap} {session : Nat} (taps : List Tap)
    (other : session ≠ tap.session) : tapsIn (tap :: taps) session = tapsIn taps session := by
  simp [tapsIn, other.symm]

theorem tapsIn_append (taps more : List Tap) (session : Nat) :
    tapsIn (taps ++ more) session = tapsIn taps session ++ tapsIn more session := by
  simp [tapsIn]

/-- A log gains the event of each of its taps. -/
theorem noteTaps_sessions (event : Nat → Record.Event) (taps : List Tap) (t : Table) (session : Nat) :
    (noteTaps event taps t).sessions session = (t.sessions session).map fun log =>
      { log with events := log.events ++ (tapsIn taps session).map (event ·.machine) } := by
  induction taps generalizing t with
  | nil => cases same : t.sessions session <;> simp [noteTaps, same]
  | cons tap taps ih =>
    unfold noteTaps
    by_cases own : session = tap.session
    · subst own
      rw [tapsIn_cons_same]
      split
      · next closed => simp [ih, closed]
      · next log opened => simp [ih, opened, Log.push]
    · rw [tapsIn_cons_other taps own]
      split
      · exact ih t
      · next log opened => simp only [ih, Function.update_of_ne own]

/-- A log gains the child once for each of its taps. -/
theorem adoptTaps_sessions (child : Nat) (taps : List Tap) (t : Table) (session : Nat) :
    (adoptTaps child taps t).2.sessions session = (t.sessions session).map fun log =>
      { log with handles := log.handles ++ List.replicate (tapsIn taps session).length child } := by
  induction taps generalizing t with
  | nil => cases same : t.sessions session <;> simp [adoptTaps, same]
  | cons tap taps ih =>
    unfold adoptTaps
    by_cases own : session = tap.session
    · subst own
      rw [tapsIn_cons_same]
      split
      · next closed => simp [ih, closed]
      · next log opened =>
        simp only [ih, opened, Log.adopt, Function.update_self, Option.map_some, List.append_assoc,
          List.length_cons, List.replicate_succ, List.singleton_append]
    · rw [tapsIn_cons_other taps own]
      split
      · exact ih t
      · next log opened => simp only [ih, Function.update_of_ne own]

/-- The child gets a tap for each of the parent's, numbered by the child's places in the log. -/
theorem adoptTaps_taps (child : Nat) (taps : List Tap) (t : Table) (session : Nat) :
    tapsIn (adoptTaps child taps t).1 session = match t.sessions session with
      | none => []
      | some log => (List.range (tapsIn taps session).length).map fun place =>
          ⟨session, Log.number (log.handles.length + place)⟩ := by
  induction taps generalizing t with
  | nil => cases t.sessions session <;> simp [adoptTaps]
  | cons tap taps ih =>
    unfold adoptTaps
    by_cases own : session = tap.session
    · subst own
      rw [tapsIn_cons_same]
      split
      · next closed => simp [ih, closed]
      · next log opened =>
        simp only [List.length_cons, List.range_succ_eq_map, List.map_cons, List.map_map]
        refine (tapsIn_cons_same ⟨tap.session, (log.adopt child).1⟩ _).trans ?_
        simp [ih, Log.adopt, Function.comp_def, Nat.add_assoc, Nat.add_comm 1]
    · rw [tapsIn_cons_other taps own]
      split
      · exact ih t
      · next log opened =>
        refine (@tapsIn_cons_other ⟨tap.session, (log.adopt child).1⟩ session _ own).trans ?_
        simp only [ih, Function.update_of_ne own]

/-- The taps a machine created by the call on `call` gets the like of. -/
def callTaps (t : Table) : Option Nat → List Tap
  | none => []
  | some parent => t.recorded parent

theorem adopt_sessions (t : Table) (call : Option Nat) (child session : Nat) :
    (t.adopt call child).sessions session = (t.sessions session).map fun log => { log with
      handles := log.handles ++
        List.replicate (tapsIn (t.callTaps call) session).length child } := by
  cases call with
  | none => cases same : t.sessions session <;> simp [Table.adopt, callTaps, same]
  | some parent => exact adoptTaps_sessions child (t.recorded parent) t session

theorem adopt_taps (t : Table) (call : Option Nat) (child handle session : Nat) :
    tapsIn ((t.adopt call child).recorded handle) session = tapsIn (t.recorded handle) session ++
      if handle = child then match t.sessions session with
        | none => []
        | some log => (List.range (tapsIn (t.callTaps call) session).length).map fun place =>
            ⟨session, Log.number (log.handles.length + place)⟩
      else [] := by
  cases call with
  | none => cases t.sessions session <;> simp [Table.adopt, callTaps]
  | some parent =>
    obtain ⟨sessions, same⟩ := adoptTaps_spec child (t.recorded parent) t
    have taps := adoptTaps_taps child (t.recorded parent) t session
    by_cases own : handle = child
    · subst own
      simp only [Table.adopt, same, Function.update_self, tapsIn_append, if_true, callTaps, taps]
    · simp only [Table.adopt, same, Function.update_of_ne own, if_neg own, List.append_nil]

theorem fresh_spec {tries : Nat} {t after : Table} {handle : Nat}
    (found : t.fresh tries = some (handle, after)) :
    t.inUse handle = false ∧ ∃ next, after = { t with next } := by
  induction tries generalizing t with
  | zero => cases found
  | succ tries ih =>
    rw [Table.fresh] at found
    split at found
    · next free =>
      cases found
      exact ⟨by simpa [Table.inUse] using free, _, rfl⟩
    · obtain ⟨unused, next, same⟩ := ih found
      exact ⟨unused, next, same⟩

/-- A handle issued is not in use. -/
theorem issue_spec {t after : Table} {reissue rest : List Nat} {handle : Nat}
    (issued : t.issue reissue = some (handle, after, rest)) :
    t.inUse handle = false ∧ ∃ next, after = { t with next } := by
  have fresh : ∀ {rest'}, ((t.fresh (2 ^ 64)).map fun (handle, t) => (handle, t, rest')) =
      some (handle, after, rest) → t.inUse handle = false ∧ ∃ next, after = { t with next } := by
    intro rest' found
    obtain ⟨⟨_, _⟩, searched, same⟩ := Option.map_eq_some_iff.mp found
    cases same
    exact fresh_spec searched
  unfold Table.issue at issued
  split at issued
  · exact fresh issued
  · split at issued
    · next free =>
      cases issued
      exact ⟨free.2, _, rfl⟩
    · exact fresh issued

theorem successor_pos (handle : Nat) : 0 < (successor handle).getD 1 := by
  unfold successor
  split
  · exact Nat.succ_pos _
  · exact Nat.one_pos

theorem fresh_pos {tries : Nat} {t after : Table} {handle : Nat} (positive : 0 < t.next)
    (found : t.fresh tries = some (handle, after)) : handle ≠ 0 ∧ 0 < after.next := by
  induction tries generalizing t with
  | zero => cases found
  | succ tries ih =>
    rw [Table.fresh] at found
    split at found
    · cases found
      exact ⟨Nat.ne_of_gt positive, successor_pos _⟩
    · exact ih (successor_pos _) found

/-- A handle issued is never `0`. -/
theorem issue_pos {t after : Table} {reissue rest : List Nat} {handle : Nat} (positive : 0 < t.next)
    (issued : t.issue reissue = some (handle, after, rest)) : handle ≠ 0 ∧ 0 < after.next := by
  have fresh : ∀ {rest'}, ((t.fresh (2 ^ 64)).map fun (handle, t) => (handle, t, rest')) =
      some (handle, after, rest) → handle ≠ 0 ∧ 0 < after.next := by
    intro rest' found
    obtain ⟨⟨_, _⟩, searched, same⟩ := Option.map_eq_some_iff.mp found
    cases same
    exact fresh_pos positive searched
  unfold Table.issue at issued
  split at issued
  · exact fresh issued
  · split at issued
    · next free =>
      cases issued
      refine ⟨free.1, ?_⟩
      simp only
      split
      · exact positive.trans_le (Nat.le_max_left _ _)
      · exact positive
    · exact fresh issued

end Table

end SansEffort
