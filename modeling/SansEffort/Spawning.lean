import SansEffort.Encoded
import SansEffort.Wakes

/-!
# A call and its children

`Machine::show` splits a batch effect by effect, and a vocabulary's `split` registers the machine
an effect spawns. So a batch changes the table as it is shown, and a panic comes before or after
each change.
-/

namespace SansEffort

/-! ### Each handle is in one map -/

/-- What a step can do to the maps: take entries out, put a new machine in, or start a parked
one. -/
inductive Table.Moves (t after : Table) : Prop
  | fewer (machines : ∀ handle, (after.machines handle).isSome → (t.machines handle).isSome)
      (parked : ∀ handle, (after.parked handle).isSome → (t.parked handle).isSome)
      (pinned : ∀ handle, after.pinned handle → t.pinned handle)
  | comes (handle : Nat) (unused : t.inUse handle = false)
      (own : after.machines handle = none ∨ after.parked handle = none)
      (others : ∀ other ≠ handle, after.machines other = t.machines other ∧
        after.parked other = t.parked other)
      (pinned : after.pinned = t.pinned)
  | starts (handle : Nat) (there : (t.parked handle).isSome) (machines : after.machines = t.machines)
      (parked : after.parked = Function.update t.parked handle none)
      (pinned : after.pinned = Function.update t.pinned handle true)

/-- A handle is in at most one of the maps. -/
structure Table.Exclusive (t : Table) : Prop where
  machines : ∀ handle, (t.machines handle).isSome → t.parked handle = none ∧ t.pinned handle = false
  parked : ∀ handle, (t.parked handle).isSome → t.pinned handle = false

theorem Table.inUse_eq_false {t : Table} {handle : Nat} : t.inUse handle = false ↔
    t.machines handle = none ∧ t.parked handle = none ∧ t.pinned handle = false := by
  simp [Table.inUse, and_assoc]

theorem Table.Exclusive.moves {t after : Table} (exclusive : t.Exclusive) (moves : t.Moves after) :
    after.Exclusive := by
  -- the handle that comes was in no map, and the one that starts only changes maps
  cases moves with
  | fewer machines parked pinned =>
    constructor
    · intro handle there
      obtain ⟨absent, unpinned⟩ := exclusive.machines handle (machines handle there)
      constructor
      · by_contra there
        have before := parked handle (Option.isSome_iff_ne_none.mpr there)
        simp [absent] at before
      · by_contra still
        have before := pinned handle (by simpa using still)
        simp [unpinned] at before
    · intro handle there
      have unpinned := exclusive.parked handle (parked handle there)
      by_contra still
      have before := pinned handle (by simpa using still)
      simp [unpinned] at before
  | comes fresh unused own others pinned =>
    obtain ⟨noMachine, notParked, unpinned⟩ := Table.inUse_eq_false.mp unused
    constructor
    · intro handle there
      rw [pinned]
      by_cases here : handle = fresh
      · subst here
        constructor
        · rcases own with noMachine | notParked
          · simp [noMachine] at there
          · exact notParked
        · exact unpinned
      · rw [(others handle here).1] at there
        rw [(others handle here).2]
        exact exclusive.machines handle there
    · intro handle there
      rw [pinned]
      by_cases here : handle = fresh
      · rw [here]
        exact unpinned
      · rw [(others handle here).2] at there
        exact exclusive.parked handle there
  | starts started there machines parked pinned =>
    have absent : t.machines started = none := by
      by_contra present
      have notParked := (exclusive.machines started (Option.isSome_iff_ne_none.mpr present)).1
      simp [notParked] at there
    constructor
    · intro handle present
      rw [machines] at present
      have other : handle ≠ started := by
        rintro rfl
        simp [absent] at present
      rw [parked, pinned, Function.update_of_ne other, Function.update_of_ne other]
      exact exclusive.machines handle present
    · intro handle present
      rw [parked] at present
      have other : handle ≠ started := by
        rintro rfl
        simp at present
      rw [pinned, Function.update_of_ne other]
      rw [Function.update_of_ne other] at present
      exact exclusive.parked handle present

namespace Thread

variable {t after : Thread}

theorem moves_of_same (machines : after.table.machines = t.table.machines)
    (parked : after.table.parked = t.table.parked) (pinned : after.table.pinned = t.table.pinned) :
    t.table.Moves after.table := by
  apply Table.Moves.fewer
  · intro handle there
    rwa [machines] at there
  · intro handle there
    rwa [parked] at there
  · intro handle there
    rwa [pinned] at there

theorem enter_table (t : Thread) (called : Who) (c : PollCall) :
    ∃ sessions, (t.enter called c).table = { t.table with sessions } := by
  obtain ⟨sessions, error, _, same⟩ | ⟨who, _, _, _, same⟩ := t.enter_spec called c
  · exact ⟨sessions, by rw [same]⟩
  · exact ⟨t.table.sessions, by rw [same]⟩

theorem report_table (t : Thread) (called : Who) (c : PollCall) (result : Coded)
    (outer : Option CallState) :
    ∃ sessions, (t.report called c result outer).table = { t.table with sessions } := by
  obtain ⟨sessions, _, ⟨_, _, _, _, same⟩ | ⟨_, _, _, same⟩⟩ := t.report_spec called c result outer
  all_goals exact ⟨sessions, by rw [same]⟩

theorem returns_table (t : Thread) (called : Who) (c : AnyCall) (outcome : Record.Outcome)
    (woken : List Notice) :
    ∃ sessions, (t.returns called c outcome woken).table = { t.table with sessions } := by
  obtain ⟨sessions, same⟩ := t.returns_spec called c outcome woken
  exact ⟨sessions, by rw [same]⟩

/-- The outcome of the last call that returned. -/
def lastOutcome : List Happening → Option Record.Outcome
  | [] => none
  | .returned _ _ outcome _ :: _ => some outcome
  | _ :: history => lastOutcome history

/-- A wake is noted, and moves nothing. -/
theorem wakeUp_rest (t : Thread) (who : Who) :
    (t.wakeUp who).table = t.table ∧ (t.wakeUp who).frames = t.frames ∧
      (t.wakeUp who).locals = t.locals ∧
      lastOutcome (t.wakeUp who).history = lastOutcome t.history := by
  unfold Thread.wakeUp
  dsimp only
  split
  · next hooked _ =>
    obtain ⟨_, _, same⟩ | ⟨_, same⟩ := woke_spec ({ t with
      wakeups := Function.update t.wakeups who (t.wakeups who).wakeUp.2 }.happen
        (.wakerCalled who)) hooked
    all_goals
      rw [same]
      exact ⟨rfl, rfl, rfl, rfl⟩
  · exact ⟨rfl, rfl, rfl, rfl⟩

theorem create_moves {pinned : Bool} {who : Who} (created : t.create pinned = some (who, after)) :
    t.table.Moves after.table := by
  obtain ⟨next, _, sessions, recorded, _, unused, _, rfl⟩ := t.create_spec pinned created
  obtain ⟨noMachine, notParked, _⟩ := Table.inUse_eq_false.mp unused
  apply Table.Moves.comes who.handle unused
  · cases pinned
    · exact .inr notParked
    · exact .inl noMachine
  · intro other apart
    cases pinned <;> simp [Function.update_of_ne apart]
  · rfl

theorem isSome_of_update {f : Nat → Option Who} {key handle : Nat}
    (there : (Function.update f key none handle).isSome) : (f handle).isSome := by
  obtain ⟨who, present⟩ := Option.isSome_iff_exists.mp there
  rw [of_update_none present]
  rfl

theorem of_update_false {f : Nat → Bool} {key handle : Nat}
    (there : Function.update f key false handle) : f handle := by
  by_cases own : handle = key
  · simp [own] at there
  · rwa [Function.update_of_ne own] at there

theorem free_moves (t : Thread) (handle : Nat) : t.table.Moves (t.free handle).table := by
  unfold Thread.free
  dsimp only
  split
  · split
    · obtain ⟨sessions, same⟩ := returns_table { t with table := { t.table with
        machines := Function.update t.table.machines handle none
        parked := Function.update t.table.parked handle none } } (t.issued handle) .free
        ⟨Contract.ok, []⟩ []
      rw [same]
      exact .fewer (fun _ => isSome_of_update) (fun _ => isSome_of_update) (fun _ => id)
    · exact .fewer (fun _ => isSome_of_update) (fun _ => isSome_of_update) (fun _ => id)
  · split
    -- freed from the thread's own table, whether or not there was anything to drop
    · have done : ∀ locals, t.table.Moves (({ t with
          locals
          table := { t.table with pinned := Function.update t.table.pinned handle false } } :
            Thread).returns (t.issued handle) .free ⟨Contract.ok, []⟩ []).table := by
        intro locals
        obtain ⟨sessions, same⟩ := returns_table { t with
          locals, table := { t.table with pinned := Function.update t.table.pinned handle false } }
          (t.issued handle) .free ⟨Contract.ok, []⟩ []
        rw [same]
        exact .fewer (fun _ => id) (fun _ => id) (fun _ => of_update_false)
      split
      · split
        · exact done _
        · exact .fewer (fun _ => id) (fun _ => id) (fun _ => of_update_false)
      · exact done _
    · obtain ⟨sessions, same⟩ := t.returns_table (t.issued handle) .free
        ⟨Error.badHandle.code, []⟩ []
      rw [same]
      exact .fewer (fun _ => id) (fun _ => id) (fun _ => id)

theorem step_moves {a : Act} (stepped : t.step a = some after) : t.table.Moves after.table := by
  cases step_cases stepped with
  | new who middle created =>
    have moves := create_moves created
    exact moves
  | newPinned who middle created => exact create_moves created
  | starts handle who parked => exact .starts handle (by rw [parked]; rfl) rfl rfl rfl
  | resumes handle =>
    obtain ⟨sessions, same⟩ := t.enter_table (t.issued handle) .resume
    exact moves_of_same (by rw [same]) (by rw [same]) (by rw [same])
  | replies handle record =>
    obtain ⟨sessions, same⟩ := t.enter_table (t.issued handle) (.reply record)
    exact moves_of_same (by rw [same]) (by rw [same]) (by rw [same])
  | frees handle => exact t.free_moves handle
  | wake who =>
    have same := (t.wakeUp_rest who).1
    exact moves_of_same (by rw [same]) (by rw [same]) (by rw [same])
  -- recording has to do with the sessions only
  | records root session table started =>
    obtain ⟨rfl, rfl⟩ := Table.startRecording_spec started
    exact moves_of_same rfl rfl rfl
  | finishes session log table finished =>
    obtain rfl := congrArg Prod.snd finished
    exact moves_of_same rfl rfl rfl
  | unopened session table finished =>
    obtain rfl := congrArg Prod.snd finished
    exact moves_of_same rfl rfl rfl
  | built who frames =>
    obtain ⟨sessions, same⟩ := enter_table { t.hook who with
      frames, locals := Function.update t.locals who.handle (some who) } who .resume
    exact moves_of_same (by rw [same]; rfl) (by rw [same]; rfl) (by rw [same]; rfl)
  | buildPanicked => exact .fewer (fun _ => id) (fun _ => id) (fun _ => of_update_false)
  | returns result called who c phase outer frames =>
    obtain ⟨sessions, same⟩ := report_table { t with
      completed := Function.update t.completed who (t.completed who || completes phase result)
      frames } called c result outer
    exact moves_of_same (by rw [same]) (by rw [same]) (by rw [same])
  -- the machine's code has panicked, and it is removed
  | dropped called who =>
    cases who.pinned
    · exact .fewer (fun _ => isSome_of_update) (fun _ => id) (fun _ => id)
    · exact .fewer (fun _ => id) (fun _ => id) (fun _ => of_update_false)
  | left called c result outer frames =>
    obtain ⟨sessions, same⟩ := report_table { t with frames } called c result outer
    exact moves_of_same (by rw [same]) (by rw [same]) (by rw [same])
  | freed called frames =>
    obtain ⟨sessions, same⟩ := returns_table { t with frames } called .free ⟨Contract.ok, []⟩ []
    exact moves_of_same (by rw [same]) (by rw [same]) (by rw [same])
  -- these leave the maps alone
  | wakes | reissue | stopReissue | hold | beginPoll | leaves | panics | droppingPanicked
  | abandoned | abandoningPanicked | leavingPanicked | freeingPanicked =>
    exact moves_of_same rfl rfl rfl

theorem exclusive_reached {acts : List Act} (reached : Transition.run step new acts = some t) :
    t.table.Exclusive := by
  apply Transition.run_invariant (fun t => t.table.Exclusive) _ _ reached
  · intro t a after exclusive stepped
    exact exclusive.moves (step_moves stepped)
  · constructor
    · intro handle there
      cases there
    · intro handle there
      cases there

theorem sound_reached {acts : List Act} (reached : Transition.run step new acts = some t) :
    t.Sound := by
  apply Transition.run_invariant Sound _ sound_new reached
  intro t a after sound stepped
  exact sound.step stepped

end Thread

/-! ### Splitting a batch -/

/-- What splitting an effect does: the children it registers, each pinned or not, and from their
handles what the host sees and the handle that is kept, or a panic. -/
structure Split (V : Type) where
  spawned : List Bool
  shown : List Nat → Option (V × Option Pending)

/-- How the code of a call ends: the call is refused and none runs, the constructor of a parked
machine panics, the poll panics, or it yields. -/
inductive Ending (E : Type)
  | refused
  | buildPanicked
  | pollPanicked
  | yielded (step : Yield E) (status : Status)

/-- No effect up to the first whose split panics spawns. -/
def childless {E V : Type} (split : E → Split V) : List E → Bool
  | [] => true
  | effect :: rest =>
    (split effect).spawned.isEmpty && (((split effect).shown []).isNone || childless split rest)

/-- What a machine's code does that calls no function of the table. -/
def Act.callsNothing : Act → Bool
  | .wake _ | .built | .hold | .beginPoll | .dropped | .abandoned | .left => true
  | _ => false

def PollCall.act (handle : Nat) : PollCall → Act
  | .resume => .resume handle
  | .reply record => .reply handle record

namespace Thread

variable {E V : Type}

/-- The machines a split registers take their handles. -/
def spawn (t : Thread) : List Bool → Option (List Nat × Thread)
  | [] => some ([], t)
  | pinned :: rest => do
    let (who, t) ← t.create pinned
    let t := if pinned then t else t.hook who
    let (handles, t) ← t.spawn rest
    return (who.handle :: handles, t)

/-- Split a batch, effect by effect, into what the host sees: that is `none` if a split panics.
The outer `none` is a handle that cannot be issued. -/
def showEffects (split : E → Split V) (t : Thread) : List E → Option (Option (List (Shown V)) × Thread)
  | [] => some (some [], t)
  | effect :: rest => do
    let (handles, t) ← t.spawn (split effect).spawned
    match (split effect).shown handles with
    | none => return (none, t)
    | some (view, pending) =>
      let (shown, t) ← t.showEffects split rest
      return (shown.map (⟨view, pending.isSome⟩ :: ·), t)

/-- The code of a call ends. What it yielded is split, then encoded, and a panic in either is a
panic of the call. -/
def ends (split : E → Split V) (view : V → Writer → Option Writer) (t : Thread) :
    Ending E → Option Thread
  | .refused => if t.frames.isEmpty then some t else none
  | .buildPanicked => t.step .buildPanicked
  | .pollPanicked => t.step .panics
  | .yielded yielded status => do
    let (shown, t) ← t.showEffects split yielded.effects
    match shown.bind fun shown => encode view ⟨shown, yielded.closed⟩ with
    | some bytes => t.step (.finish (.ok (bytes, status)))
    | none => t.step .panics

/-- A whole call: what the machine's code does before it ends, its ending, and what comes after
(the destructors of a panic's payload, and of a panicked machine). -/
def called (split : E → Split V) (view : V → Writer → Option Writer) (t : Thread) (handle : Nat)
    (c : PollCall) (early : List Act) (ending : Ending E) (late : List Act) : Option Thread := do
  let t ← t.step (c.act handle)
  let t ← Transition.run step t early
  let t ← t.ends split view ending
  Transition.run step t late

/-! ### What a batch adds to the table -/

/-- Machines were added. -/
structure Extends (t after : Thread) : Prop where
  frames : after.frames = t.frames
  locals : after.locals = t.locals
  pinned : after.table.pinned = t.table.pinned
  others : ∀ handle, t.table.inUse handle = true →
    after.table.machines handle = t.table.machines handle ∧
      after.table.parked handle = t.table.parked handle

variable {t after : Thread}

theorem Extends.refl (t : Thread) : t.Extends t := ⟨rfl, rfl, rfl, fun _ _ => ⟨rfl, rfl⟩⟩

theorem Extends.inUse (extended : t.Extends after) {handle : Nat}
    (used : t.table.inUse handle = true) : after.table.inUse handle = true := by
  obtain ⟨machines, parked⟩ := extended.others handle used
  unfold Table.inUse at used ⊢
  rwa [machines, parked, extended.pinned]

theorem find_inUse {handle : Nat} {who : Who} (found : t.find handle = .ok who) :
    t.table.inUse handle = true := by
  by_contra unused
  rw [Bool.not_eq_true, Table.inUse_eq_false] at unused
  simp [Thread.find, unused] at found

theorem Extends.find (extended : t.Extends after) {handle : Nat} {who : Who}
    (found : t.find handle = .ok who) : after.find handle = .ok who := by
  obtain ⟨machines, parked⟩ := extended.others handle (find_inUse found)
  unfold Thread.find at found ⊢
  rwa [machines, parked, extended.pinned, extended.locals]

theorem Extends.trans {middle : Thread} (first : t.Extends middle) (second : middle.Extends after) :
    t.Extends after := by
  constructor
  · exact second.frames.trans first.frames
  · exact second.locals.trans first.locals
  · exact second.pinned.trans first.pinned
  · intro handle used
    obtain ⟨machines, parked⟩ := first.others handle used
    obtain ⟨machines', parked'⟩ := second.others handle (first.inUse used)
    exact ⟨machines'.trans machines, parked'.trans parked⟩

theorem extends_create {pinned : Bool} {who : Who} (created : t.create pinned = some (who, after)) :
    t.Extends after ∧ t.table.inUse who.handle = false ∧ after.table.inUse who.handle = true := by
  obtain ⟨next, _, sessions, recorded, _, unused, _, rfl⟩ := t.create_spec pinned created
  refine ⟨⟨rfl, rfl, rfl, ?_⟩, unused, ?_⟩
  · intro handle used
    have other : handle ≠ who.handle := by
      rintro rfl
      simp [unused] at used
    cases pinned <;> simp [Function.update_of_ne other]
  · cases pinned <;> simp [Table.inUse]

/-- A split adds a machine to the table just if it spawns. -/
theorem spawn_spec {flags : List Bool} {handles : List Nat}
    (spawned : t.spawn flags = some (handles, after)) :
    t.Extends after ∧ (flags = [] → handles = [] ∧ after = t) ∧
      (flags ≠ [] → ∃ handle, t.table.inUse handle = false ∧ after.table.inUse handle = true) := by
  induction flags generalizing t handles with
  | nil =>
    cases spawned
    exact ⟨.refl _, fun _ => ⟨rfl, rfl⟩, fun spawns => absurd rfl spawns⟩
  | cons pinned rest ih =>
    obtain ⟨⟨who, middle⟩, created, remaining⟩ := Option.bind_eq_some_iff.mp spawned
    obtain ⟨⟨more, final⟩, others, same⟩ := Option.bind_eq_some_iff.mp remaining
    cases same
    obtain ⟨first, unused, used⟩ := extends_create created
    have hooked : t.Extends (if pinned then middle else middle.hook who) ∧
        (if pinned then middle else middle.hook who).table.inUse who.handle = true := by
      cases pinned
      · exact ⟨⟨first.frames, first.locals, first.pinned, first.others⟩, used⟩
      · exact ⟨first, used⟩
    obtain ⟨second, _, _⟩ := ih others
    refine ⟨hooked.1.trans second, nofun, fun _ => ?_⟩
    exact ⟨who.handle, unused, second.inUse hooked.2⟩

/-- A batch leaves the table as it was just if no effect that is split spawns. -/
theorem showEffects_spec {split : E → Split V} {effects : List E} {shown : Option (List (Shown V))}
    (split_all : t.showEffects split effects = some (shown, after)) : t.Extends after ∧
      ((∀ handle, after.table.inUse handle = t.table.inUse handle) ↔
        childless split effects = true) := by
  induction effects generalizing t shown with
  | nil =>
    cases split_all
    exact ⟨.refl _, by simp [childless]⟩
  | cons effect rest ih =>
    obtain ⟨⟨handles, middle⟩, spawned, remaining⟩ := Option.bind_eq_some_iff.mp split_all
    obtain ⟨first, spawnless, spawning⟩ := spawn_spec spawned
    -- what the rest of the batch spawns comes on top of what the first did
    have second : middle.Extends after := by
      dsimp only at remaining
      split at remaining
      · cases remaining
        exact .refl _
      · obtain ⟨_, later, same⟩ := Option.bind_eq_some_iff.mp remaining
        cases same
        exact (ih later).1
    refine ⟨first.trans second, ?_⟩
    -- the first spawns no child, and then it is down to the rest; or it does
    cases flags : (split effect).spawned with
    | nil =>
      obtain ⟨rfl, rfl⟩ := spawnless flags
      dsimp only at remaining
      cases outcome : (split effect).shown [] with
      | none =>
        rw [outcome] at remaining
        cases remaining
        simp [childless, flags, outcome]
      | some pair =>
        rw [outcome] at remaining
        obtain ⟨_, later, same⟩ := Option.bind_eq_some_iff.mp remaining
        cases same
        simp [childless, flags, outcome, (ih later).2]
    | cons pinned flags' =>
      obtain ⟨child, unused, used⟩ := spawning (by simp [flags])
      -- whose handle stays in use
      have still := second.inUse used
      constructor
      · intro same
        rw [same child, unused] at still
        cases still
      · intro barren
        simp [childless, flags] at barren

/-- Splitting takes the table's own steps. -/
theorem spawn_runs {flags : List Bool} {handles : List Nat}
    (spawned : t.spawn flags = some (handles, after)) :
    ∃ acts, Transition.run step t acts = some after := by
  induction flags generalizing t handles with
  | nil =>
    cases spawned
    exact ⟨[], rfl⟩
  | cons pinned rest ih =>
    obtain ⟨⟨who, middle⟩, created, remaining⟩ := Option.bind_eq_some_iff.mp spawned
    obtain ⟨⟨more, final⟩, others, same⟩ := Option.bind_eq_some_iff.mp remaining
    cases same
    obtain ⟨acts, ran⟩ := ih others
    cases pinned
    · refine ⟨.new :: acts, ?_⟩
      simp only [Transition.run_cons, Thread.step, created, Option.map_some, Option.bind_some]
      exact ran
    · refine ⟨.newPinned :: acts, ?_⟩
      simp only [Transition.run_cons, Thread.step, created, Option.map_some, Option.bind_some]
      exact ran

theorem showEffects_runs {split : E → Split V} {effects : List E} {shown : Option (List (Shown V))}
    (split_all : t.showEffects split effects = some (shown, after)) :
    ∃ acts, Transition.run step t acts = some after := by
  induction effects generalizing t shown with
  | nil =>
    cases split_all
    exact ⟨[], rfl⟩
  | cons effect rest ih =>
    obtain ⟨⟨handles, middle⟩, spawned, remaining⟩ := Option.bind_eq_some_iff.mp split_all
    obtain ⟨first, early⟩ := spawn_runs spawned
    dsimp only at remaining
    split at remaining
    · cases remaining
      exact ⟨first, early⟩
    · obtain ⟨_, later, same⟩ := Option.bind_eq_some_iff.mp remaining
      cases same
      obtain ⟨second, late⟩ := ih later
      refine ⟨first ++ second, ?_⟩
      rw [Transition.run_append, early]
      exact late

/-! ### Before a call ends, and after -/

/-- The call has been refused, or its constructor or its machine's code runs. It is refused if the
machine's lock is poisoned, and returns `PANICKED` then only. -/
structure InCall (before : Thread) (handle : Nat) (t : Thread) : Prop where
  inUse : ∀ other, t.table.inUse other = before.table.inUse other
  refused : before.isBarred handle = true → t.frames = []
  frames : (t.frames = [] ∧ (before.isBarred handle = true ∨
      (lastOutcome t.history).map Record.Outcome.code ≠ some Error.panicked.code)) ∨
    (∃ who, t.frames = [.building who] ∧ who.handle = handle ∧ who.pinned = true ∧
      t.table.pinned handle = true ∧ t.table.machines handle = none) ∨
    ∃ called who c phase outer, t.frames = [.running called who c phase outer] ∧
      called.handle = handle ∧ t.find handle = .ok who

/-- The last destructors run, or the call has returned that code. -/
structure Ended (before : Thread) (code : Int) (t : Thread) : Prop where
  inUse : ∀ other, t.table.inUse other = before.table.inUse other
  frames : (∃ called c result outer, t.frames = [.leaving called c result outer] ∧
      (Record.outcome result).code = code) ∨
    (∃ called, t.frames = [.abandoning called] ∧ Error.panicked.code = code) ∨
    t.frames = [] ∧ (lastOutcome t.history).map Record.Outcome.code = some code

theorem code_ne_panicked {error : Error} (other : error ≠ .panicked) :
    error.code ≠ Error.panicked.code := by
  cases error <;> simp [Error.code] at other ⊢

theorem InCall.enter {before : Thread} (called : Who) (c : PollCall) (empty : t.frames = [])
    (inUse : ∀ other, t.table.inUse other = before.table.inUse other)
    (barred : t.isBarred called.handle = before.isBarred called.handle) :
    InCall before called.handle (t.enter called c) := by
  obtain ⟨sessions, error, poisoned, same⟩ | ⟨who, found, _, open_, same⟩ := t.enter_spec called c
  · rw [same]
    refine ⟨inUse, fun _ => empty, .inl ⟨empty, ?_⟩⟩
    by_cases panicked : error = .panicked
    · exact .inl (barred.symm.trans (poisoned panicked))
    · exact .inr fun code => code_ne_panicked panicked (Option.some.inj code)
  · rw [same]
    refine ⟨inUse, fun refused => ?_, .inr (.inr ⟨called, who, c, .entered, t.call, ?_, rfl, found⟩)⟩
    · rw [← barred, open_] at refused
      cases refused
    · rw [empty]

/-- The call begins. -/
theorem InCall.begins {handle : Nat} {c : PollCall} (placed : t.Placed)
    (exclusive : t.table.Exclusive) (own : (t.issued handle).handle = handle)
    (empty : t.frames = []) (stepped : t.step (c.act handle) = some after) :
    InCall t handle after := by
  cases c with
  | resume =>
    simp only [PollCall.act, Thread.step] at stepped
    split at stepped <;> cases stepped
    · next who parked =>
      obtain ⟨named, pinned⟩ := placed handle who .parked parked
      have noMachine : t.table.machines handle = none := by
        by_contra there
        have notParked := (exclusive.machines handle (Option.isSome_iff_ne_none.mpr there)).1
        simp [parked] at notParked
      constructor
      -- its place among the parked becomes one among the pinned
      · intro other
        by_cases here : other = handle
        · subst here
          simp [Table.inUse, parked]
        · simp [Table.inUse, Function.update_of_ne here]
      · intro refused
        simp [Thread.isBarred, Thread.find, noMachine, parked] at refused
      · refine .inr (.inl ⟨who, ?_, named, pinned, ?_, noMachine⟩)
        · simp [empty]
        · simp
    · have begun := InCall.enter (t.issued handle) .resume empty (fun _ => rfl) rfl
      rwa [own] at begun
  | reply record =>
    simp only [PollCall.act, Thread.step] at stepped
    cases stepped
    have begun := InCall.enter (t.issued handle) (.reply record) empty (fun _ => rfl) rfl
    rwa [own] at begun

/-- A frame of the machine's code is the call's. -/
theorem InCall.runs {before : Thread} {handle : Nat} (call : InCall before handle t)
    {called who : Who} {c : PollCall} {phase : Phase} {outer : Option CallState}
    {frames : List Frame} (stack : t.frames = .running called who c phase outer :: frames) :
    frames = [] ∧ called.handle = handle ∧ t.find handle = .ok who := by
  rcases call.frames with ⟨empty, _⟩ | ⟨_, single, _⟩ | ⟨_, _, _, _, _, single, own, found⟩
  · simp [empty] at stack
  · simp [single] at stack
  · rw [single] at stack
    cases stack
    exact ⟨rfl, own, found⟩

theorem InCall.builds {before : Thread} {handle : Nat} (call : InCall before handle t) {who : Who}
    {frames : List Frame} (stack : t.frames = .building who :: frames) :
    frames = [] ∧ who.handle = handle ∧ who.pinned = true ∧ t.table.pinned handle = true ∧
      t.table.machines handle = none := by
  rcases call.frames with ⟨empty, _⟩ | ⟨w, single, facts⟩ | ⟨_, _, _, _, _, single, _⟩
  · simp [empty] at stack
  · rw [single] at stack
    cases stack
    exact ⟨rfl, facts⟩
  · simp [single] at stack

/-- Before the code of a call ends, none of its destructors runs. -/
theorem InCall.top {before : Thread} {handle : Nat} (call : InCall before handle t) {frame : Frame}
    {frames : List Frame} (stack : t.frames = frame :: frames) :
    (∃ who, frame = .building who) ∨ ∃ called who c phase outer,
      frame = .running called who c phase outer := by
  rcases call.frames with ⟨empty, _⟩ | ⟨who, single, _⟩ | ⟨called, who, c, phase, outer, single, _⟩
  · simp [empty] at stack
  · rw [single] at stack
    cases stack
    exact .inl ⟨who, rfl⟩
  · rw [single] at stack
    cases stack
    exact .inr ⟨called, who, c, phase, outer, rfl⟩

theorem InCall.unbarred {before : Thread} {handle : Nat} (call : InCall before handle t)
    {frame : Frame} {frames : List Frame} (stack : t.frames = frame :: frames) :
    before.isBarred handle = false := by
  by_contra barred
  rw [call.refused (by simpa using barred)] at stack
  cases stack

theorem InCall.step {before : Thread} {handle : Nat} (call : InCall before handle t) {a : Act}
    (callsNothing : a.callsNothing = true) (stepped : t.step a = some after) :
    InCall before handle after := by
  -- what runs in the call calls no other function of the host's
  cases step_cases stepped with
  | wake who =>
    obtain ⟨table, frames, locals, outcome⟩ := t.wakeUp_rest who
    -- a wake moves no machine
    have found : (t.wakeUp who).find handle = t.find handle := by
      unfold Thread.find
      rw [table, locals]
    constructor
    · rw [table]
      exact call.inUse
    · rw [frames]
      exact call.refused
    · rw [frames, table, found, outcome]
      exact call.frames
  | built who frames stack =>
    -- its constructor returns, and the call it was made for goes on
    have unbarred := call.unbarred stack
    obtain ⟨rfl, rfl, pinned, there, noMachine⟩ := call.builds stack
    refine InCall.enter who .resume rfl call.inUse (Eq.trans ?_ unbarred.symm)
    -- the thread's own entry is found, which has no lock
    unfold Thread.isBarred
    split
    · next found =>
      simp only [Thread.find, Thread.hook, Thread.happen, noMachine, there] at found
      split at found
      · cases found
      · simp only [ite_true, Function.update_self] at found
        cases found
        simp [Thread.isPoisoned, pinned]
    · rfl
  | hold called who record outer frames stack =>
    have unbarred := call.unbarred stack
    obtain ⟨rfl, own, found⟩ := call.runs stack
    refine ⟨call.inUse, fun refused => ?_, .inr (.inr ⟨_, _, _, _, _, rfl, own, found⟩)⟩
    simp [unbarred] at refused
  | beginPoll called who c phase outer frames stack =>
    have unbarred := call.unbarred stack
    obtain ⟨rfl, own, found⟩ := call.runs stack
    refine ⟨call.inUse, fun refused => ?_, .inr (.inr ⟨_, _, _, _, _, rfl, own, found⟩)⟩
    simp [unbarred] at refused
  -- no destructor is on the stack yet
  | dropped _ _ _ _ _ _ stack | abandoned _ _ stack | left _ _ _ _ _ stack =>
    rcases call.top stack with ⟨_, other⟩ | ⟨_, _, _, _, _, other⟩ <;> cases other
  | _ => cases callsNothing

theorem Ended.report (called : Who) (c : PollCall) (result : Coded) (outer : Option CallState)
    (empty : t.frames = []) (before : Thread)
    (inUse : ∀ other, t.table.inUse other = before.table.inUse other) :
    Ended before (Record.outcome result).code (t.report called c result outer) := by
  obtain ⟨sessions, outcome, ⟨bytes, status, rfl, rfl, same⟩ | ⟨error, rfl, rfl, same⟩⟩ :=
    t.report_spec called c result outer
  all_goals
    rw [same]
    exact ⟨inUse, .inr (.inr ⟨empty, rfl⟩)⟩

/-- All that is on the stack once the code has ended is the last destructors. -/
theorem Ended.top {before : Thread} {code : Int} (ended : Ended before code t) {frame : Frame}
    {frames : List Frame} (stack : t.frames = frame :: frames) : frames = [] ∧
      ((∃ called c result outer, frame = .leaving called c result outer ∧
        (Record.outcome result).code = code) ∨
      ∃ called, frame = .abandoning called ∧ Error.panicked.code = code) := by
  rcases ended.frames with ⟨called, c, result, outer, single, same⟩ | ⟨called, single, same⟩ |
    ⟨empty, _⟩
  · rw [single] at stack
    cases stack
    exact ⟨rfl, .inl ⟨called, c, result, outer, rfl, same⟩⟩
  · rw [single] at stack
    cases stack
    exact ⟨rfl, .inr ⟨called, rfl, same⟩⟩
  · simp [empty] at stack

theorem Ended.step {before : Thread} {code : Int} (ended : Ended before code t) {a : Act}
    (callsNothing : a.callsNothing = true) (stepped : t.step a = some after) :
    Ended before code after := by
  cases step_cases stepped with
  | wake who =>
    obtain ⟨table, frames, _, outcome⟩ := t.wakeUp_rest who
    constructor
    · rw [table]
      exact ended.inUse
    · rw [frames, outcome]
      exact ended.frames
  | left called c result outer frames stack =>
    obtain ⟨rfl, ⟨_, _, _, _, same, rfl⟩ | ⟨_, other, _⟩⟩ := ended.top stack
    · cases same
      exact Ended.report _ _ _ _ rfl before ended.inUse
    · cases other
  | abandoned who frames stack =>
    obtain ⟨rfl, ⟨_, _, _, _, other, _⟩ | ⟨_, _, rfl⟩⟩ := ended.top stack
    · cases other
    · exact ⟨ended.inUse, .inr (.inr ⟨rfl, rfl⟩)⟩
  -- no other frame is on the stack
  | built _ _ stack | hold _ _ _ _ _ stack | beginPoll _ _ _ _ _ _ stack
  | dropped _ _ _ _ _ _ stack =>
    obtain ⟨_, ⟨_, _, _, _, other, _⟩ | ⟨_, other, _⟩⟩ := ended.top stack <;> cases other
  | _ => cases callsNothing

theorem InCall.run {before : Thread} {handle : Nat} (call : InCall before handle t) {acts : List Act}
    (callsNothing : ∀ a ∈ acts, a.callsNothing = true)
    (ran : Transition.run Thread.step t acts = some after) : InCall before handle after := by
  apply Transition.run_invariant_along (fun _ a => a.callsNothing = true) (InCall before handle) _
    call (Transition.along_of_forall _ callsNothing t) ran
  intro t a after call callsNothing stepped
  exact call.step callsNothing stepped

theorem Ended.run {before : Thread} {code : Int} (ended : Ended before code t) {acts : List Act}
    (callsNothing : ∀ a ∈ acts, a.callsNothing = true)
    (ran : Transition.run Thread.step t acts = some after) : Ended before code after := by
  apply Transition.run_invariant_along (fun _ a => a.callsNothing = true) (Ended before code) _
    ended (Transition.along_of_forall _ callsNothing t) ran
  intro t a after ended callsNothing stepped
  exact ended.step callsNothing stepped

/-- The handle is in no map but that of the machine's kind. -/
def Only (t : Thread) (handle : Nat) (who : Who) : Prop :=
  t.table.parked handle = none ∧
    if who.pinned then t.table.machines handle = none else t.table.pinned handle = false

/-- Where a machine was found is the one map its handle is in. -/
theorem find_only (sound : t.Sound) (exclusive : t.table.Exclusive) {handle : Nat} {who : Who}
    (found : t.find handle = .ok who) : t.Only handle who := by
  rcases (sound.placed.find found).2 with there | there
  · have migrating : who.pinned = false := (sound.placed _ _ .table there).2
    have only := exclusive.machines handle (by rw [there]; rfl)
    simpa [Only, migrating] using only
  · have pinned : who.pinned = true := (sound.placed _ _ .here there).2
    -- `find` looks at `machines` first, and found another
    have noMachine : t.table.machines handle = none := by
      by_contra present
      obtain ⟨w, present⟩ := Option.ne_none_iff_exists'.mp present
      simp only [Thread.find, present] at found
      cases found
      have migrating : who.pinned = false := (sound.placed _ _ .table present).2
      simp [migrating] at pinned
    -- and what is parked is not found
    have notParked : t.table.parked handle = none := by
      by_contra present
      simp [Thread.find, noMachine, Option.isSome_iff_ne_none.mpr present] at found
    simp [Only, pinned, noMachine, notParked]

/-- A machine that panicked is removed, and then its handle is in no map. -/
theorem dropped_inUse {called who : Who} {c : PollCall} {phase : Phase} {outer : Option CallState}
    (stack : t.frames = [.dropping called who c phase outer]) (only : t.Only called.handle who)
    (stepped : t.step .dropped = some after) :
    after.frames = [.leaving called c (.error .panicked) outer] ∧ ∀ other,
      after.table.inUse other = true ↔ t.table.inUse other = true ∧ other ≠ called.handle := by
  simp only [Thread.step, stack] at stepped
  cases stepped
  refine ⟨rfl, fun other => ?_⟩
  obtain ⟨notParked, only⟩ := only
  by_cases here : other = called.handle
  · subst here
    simp only [ne_eq, not_true, and_false, iff_false, Bool.not_eq_true, Table.inUse_eq_false]
    cases pinned : who.pinned
    · have unpinned : t.table.pinned called.handle = false := by simpa [pinned] using only
      simp [notParked, unpinned]
    · have noMachine : t.table.machines called.handle = none := by simpa [pinned] using only
      simp [notParked, noMachine]
  · cases who.pinned <;> simp [Table.inUse, here]

/-- A panic has ended the call's code: its payload is dropped, and then the machine is removed. -/
inductive Failing (grown : Thread) (handle : Nat) (t : Thread) : Prop
  | dropping (called who : Who) (c : PollCall) (phase : Phase) (outer : Option CallState)
      (stack : t.frames = [.dropping called who c phase outer]) (own : called.handle = handle)
      (only : t.Only handle who) (inUse : ∀ other, t.table.inUse other = grown.table.inUse other)
  | removed (inUse : ∀ other, t.table.inUse other = true ↔
        grown.table.inUse other = true ∧ other ≠ handle)
      (ended : Ended t Error.panicked.code t)

theorem Failing.step {grown : Thread} {handle : Nat} (failing : Failing grown handle t) {a : Act}
    (callsNothing : a.callsNothing = true) (stepped : t.step a = some after) :
    Failing grown handle after := by
  cases failing with
  | dropping called who c phase outer stack own only inUse =>
    cases step_cases stepped with
    | wake woken =>
      obtain ⟨table, frames, _⟩ := t.wakeUp_rest woken
      refine .dropping called who c phase outer (frames.trans stack) own ?_ ?_
      · unfold Only
        rw [table]
        exact only
      · rw [table]
        exact inUse
    | dropped _ _ _ _ _ _ same =>
      rw [same] at stack
      cases stack
      subst own
      obtain ⟨leaving, gone⟩ := dropped_inUse same only stepped
      refine .removed (fun other => ?_) ⟨fun _ => rfl, .inl ⟨_, _, _, _, leaving, rfl⟩⟩
      rw [gone other, inUse other]
    | built _ _ same | hold _ _ _ _ _ same | beginPoll _ _ _ _ _ _ same | abandoned _ _ same
    | left _ _ _ _ _ same =>
      rw [stack] at same
      cases same
    | _ => cases callsNothing
  | removed inUse ended =>
    have still := ended.step callsNothing stepped
    refine .removed (fun other => ?_) ⟨fun _ => rfl, still.frames⟩
    rw [still.inUse other]
    exact inUse other

theorem Failing.run {grown : Thread} {handle : Nat} (failing : Failing grown handle t)
    {acts : List Act} (callsNothing : ∀ a ∈ acts, a.callsNothing = true)
    (ran : Transition.run Thread.step t acts = some after) : Failing grown handle after := by
  apply Transition.run_invariant_along (fun _ a => a.callsNothing = true) (Failing grown handle) _
    failing (Transition.along_of_forall _ callsNothing t) ran
  intro t a after failing callsNothing stepped
  exact failing.step callsNothing stepped

/-- Once it has returned, the machine is gone. -/
theorem Failing.returned {grown : Thread} {handle : Nat} (failing : Failing grown handle t)
    (empty : t.frames = []) (other : Nat) :
    t.table.inUse other = true ↔ grown.table.inUse other = true ∧ other ≠ handle := by
  cases failing with
  | dropping _ _ _ _ _ stack =>
    rw [empty] at stack
    cases stack
  | removed inUse ended => exact inUse other

/-- A call whose code ends with a panic, the table having grown meanwhile. -/
theorem InCall.panics {before middle : Thread} {handle : Nat} (call : InCall before handle middle)
    (grown : middle.Extends t) (sound : t.Sound) (exclusive : t.table.Exclusive)
    (stepped : t.step .panics = some after) : before.isBarred handle = false ∧
      middle.table.inUse handle = true ∧ Failing t handle after := by
  cases step_cases stepped with
  | panics called who c phase outer frames stack =>
    rw [grown.frames] at stack
    have unbarred := call.unbarred stack
    obtain ⟨rfl, rfl, found⟩ := call.runs stack
    exact ⟨unbarred, find_inUse found, .dropping called who c phase outer rfl rfl
      (find_only sound exclusive (grown.find found)) fun _ => rfl⟩

/-- A call whose code returns does not return `PANICKED`. -/
theorem InCall.finishes {before middle : Thread} {handle : Nat} (call : InCall before handle middle)
    (grown : middle.Extends t) {bytes : Bytes} {status : Status}
    (stepped : t.step (.finish (.ok (bytes, status))) = some after) :
    Ended after (Contract.statusCode status) after := by
  cases step_cases stepped with
  | returns _ called who c phase outer frames stack =>
    rw [grown.frames] at stack
    obtain ⟨rfl, _⟩ := call.runs stack
    have returned := @Ended.report { t with
        completed := Function.update t.completed who
          (t.completed who || completes phase (.ok (bytes, status)))
        frames := [] } called c (.ok (bytes, status)) outer rfl t fun _ => rfl
    exact ⟨fun _ => rfl, returned.frames⟩
  | leaves _ called who c phase outer frames stack =>
    rw [grown.frames] at stack
    obtain ⟨rfl, _⟩ := call.runs stack
    exact ⟨fun _ => rfl, .inl ⟨_, _, _, _, rfl, rfl⟩⟩

/-- A parked machine whose constructor panics is gone, and the panic's payload is dropped. -/
theorem InCall.buildPanics {before : Thread} {handle : Nat} (call : InCall before handle t)
    (exclusive : t.table.Exclusive) (stepped : t.step .buildPanicked = some after) :
    before.isBarred handle = false ∧ Failing t handle after := by
  cases step_cases stepped with
  | buildPanicked who frames stack =>
    have unbarred := call.unbarred stack
    obtain ⟨rfl, rfl, _, there, noMachine⟩ := call.builds stack
    refine ⟨unbarred, .removed (fun other => ?_) ⟨fun _ => rfl, .inr (.inl ⟨who, rfl, rfl⟩)⟩⟩
    by_cases here : other = who.handle
    · subst here
      have notParked : t.table.parked who.handle = none := by
        by_contra present
        have unpinned := exclusive.parked _ (Option.isSome_iff_ne_none.mpr present)
        simp [there] at unpinned
      simp [Table.inUse, noMachine, notParked]
    · simp [Table.inUse, here]

/-- The handles in the table after a call that returned `PANICKED` are those before it but for the
called machine's, just if its lock was not poisoned, and its poll or its constructor panicked or no
effect that was split spawned. -/
theorem failed_call_leaves_no_child_iff (split : E → Split V) (view : V → Writer → Option Writer)
    (acts : List Act) (t after : Thread) (handle : Nat) (c : PollCall) (early : List Act)
    (ending : Ending E) (late : List Act) (reached : Transition.run step new acts = some t)
    (outermost : t.frames = []) (before : ∀ a ∈ early, a.callsNothing = true)
    (afterwards : ∀ a ∈ late, a.callsNothing = true)
    (ran : t.called split view handle c early ending late = some after)
    (panicked : (lastOutcome after.history).map Record.Outcome.code = some Error.panicked.code)
    (returned : after.frames = []) :
    (∀ other, after.table.inUse other = true ↔ t.table.inUse other = true ∧ other ≠ handle) ↔
      t.isBarred handle = false ∧ ∀ yielded status, ending = .yielded yielded status →
        childless split yielded.effects = true := by
  obtain ⟨entered, begun, remaining⟩ := Option.bind_eq_some_iff.mp ran
  obtain ⟨running, prior, remaining⟩ := Option.bind_eq_some_iff.mp remaining
  obtain ⟨ended, ends, later⟩ := Option.bind_eq_some_iff.mp remaining
  have sound := sound_reached reached
  have call : InCall t handle running :=
    (InCall.begins sound.placed (exclusive_reached reached) (sound.dated.issued handle) outermost
      begun).run before prior
  have reached : Transition.run step new (acts ++ c.act handle :: early) = some running := by
    rw [Transition.run_append, reached, Option.bind_some, Transition.run_cons, begun]
    exact prior
  cases ending with
  | refused =>
    simp only [Thread.ends, List.isEmpty_iff] at ends
    split at ends <;> cases ends
    next empty =>
    -- nothing runs after a refusal but wakes, and only a poisoned lock refuses with `PANICKED`
    have call := call.run afterwards later
    have barred : t.isBarred handle = true := by
      rcases call.frames with ⟨_, barred | code⟩ | ⟨_, stack, _⟩ | ⟨_, _, _, _, _, stack, _⟩
      · exact barred
      · exact absurd panicked code
      · simp [returned] at stack
      · simp [returned] at stack
    refine iff_of_false (fun same => ?_) (by simp [barred])
    have used : t.table.inUse handle = true := by
      unfold Thread.isBarred at barred
      split at barred
      · next found => exact find_inUse found
      · cases barred
    exact ((same handle).mp ((call.inUse handle).trans used)).2 rfl
  | buildPanicked =>
    obtain ⟨unbarred, failing⟩ := call.buildPanics (exclusive_reached reached) ends
    refine iff_of_true (fun other => ?_) ⟨unbarred, nofun⟩
    rw [← call.inUse other]
    exact (failing.run afterwards later).returned returned other
  | pollPanicked =>
    obtain ⟨unbarred, _, failing⟩ := call.panics (.refl running) (sound_reached reached)
      (exclusive_reached reached) ends
    refine iff_of_true (fun other => ?_) ⟨unbarred, nofun⟩
    rw [← call.inUse other]
    exact (failing.run afterwards later).returned returned other
  | yielded yielded status =>
    obtain ⟨⟨shown, grown⟩, split_all, remaining⟩ := Option.bind_eq_some_iff.mp ends
    obtain ⟨extended, childless⟩ := showEffects_spec split_all
    dsimp only at remaining
    split at remaining
    · next bytes _ =>
      -- the call returned a status
      have final := (call.finishes extended remaining).run afterwards later
      rcases final.frames with ⟨_, _, _, _, stack, _⟩ | ⟨_, stack, _⟩ | ⟨_, code⟩
      · simp [returned] at stack
      · simp [returned] at stack
      · rw [panicked] at code
        cases status <;> simp [Error.code, Contract.statusCode] at code
    · obtain ⟨more, spawned⟩ := showEffects_runs split_all
      have reached : Transition.run step new ((acts ++ c.act handle :: early) ++ more) =
          some grown := by
        rw [Transition.run_append, reached]
        exact spawned
      obtain ⟨unbarred, used, failing⟩ := call.panics extended (sound_reached reached)
        (exclusive_reached reached) remaining
      have changed := (failing.run afterwards later).returned returned
      constructor
      · intro same
        refine ⟨unbarred, ?_⟩
        rintro _ _ ⟨⟩
        refine childless.mp fun other => Bool.eq_iff_iff.mpr ?_
        by_cases own : other = handle
        · subst own
          exact iff_of_true (extended.inUse used) used
        · have kept := (changed other).symm.trans (same other)
          simpa only [own, ne_eq, not_false_eq_true, and_true, call.inUse other] using kept
      · rintro ⟨_, barren⟩ other
        rw [changed other, childless.mpr (barren _ _ rfl) other, call.inUse other]

/-- A vocabulary of two effects: one spawns a machine, and one cannot be split. -/
inductive Brood
  | spawns
  | breaks

def Brood.split : Brood → Split Nat
  | .spawns => ⟨[false], fun handles => some (handles.headD 0, none)⟩
  | .breaks => ⟨[], fun _ => none⟩

/-- A panic before the spawn leaves nothing behind. -/
theorem failed_call_leaves_no_child_first :
    ∃ t after, Transition.run step new [.new] = some t ∧
      t.called Brood.split (fun _ w => some w) 1 .resume [.beginPoll]
        (.yielded ⟨[.breaks, .spawns], []⟩ .idle) [.dropped, .left] = some after ∧
      ∀ other, after.table.inUse other = true ↔ t.table.inUse other = true ∧ other ≠ 1 := by
  refine ⟨_, _, rfl, rfl, ?_⟩
  apply (failed_call_leaves_no_child_iff Brood.split (fun _ w => some w) [.new] _ _ 1 .resume
    [.beginPoll] (.yielded ⟨[.breaks, .spawns], []⟩ .idle) [.dropped, .left] rfl rfl (by decide)
    (by decide) rfl rfl rfl).mpr
  refine ⟨rfl, ?_⟩
  rintro _ _ ⟨⟩
  rfl

/-- A panic after the spawn leaves the child, which the host is never told of. And a call on a machine
whose lock a payload's destructor poisoned returns `PANICKED`, and leaves the machine itself. -/
theorem failed_call_leaves_child :
    (∃ t after, Transition.run step new [.new] = some t ∧
      t.called Brood.split (fun _ w => some w) 1 .resume [.beginPoll]
        (.yielded ⟨[.spawns, .breaks], []⟩ .idle) [.dropped, .left] = some after ∧
      (lastOutcome after.history).map Record.Outcome.code = some Error.panicked.code ∧
      after.table.inUse 2 = true ∧ t.table.inUse 2 = false ∧
      ¬ ∀ other, after.table.inUse other = true ↔ t.table.inUse other = true ∧ other ≠ 1) ∧
    ∃ t after, Transition.run step new
        [.new, .resume 1, .beginPoll, .panics, .droppingPanicked true] = some t ∧
      t.called Brood.split (fun _ w => some w) 1 .resume [] .refused [] = some after ∧
      t.frames = [] ∧ after.frames = [] ∧
      (lastOutcome after.history).map Record.Outcome.code = some Error.panicked.code ∧
      ¬ ∀ other, after.table.inUse other = true ↔ t.table.inUse other = true ∧ other ≠ 1 := by
  constructor
  · refine ⟨_, _, rfl, rfl, rfl, rfl, rfl, fun same => ?_⟩
    have leaked := (same 2).mp rfl
    cases leaked.1
  · refine ⟨_, _, rfl, rfl, rfl, rfl, rfl, fun same => ?_⟩
    have kept := (same 1).mp rfl
    exact kept.2 rfl

end Thread

end SansEffort
