import SansEffort.Agenda
import SansEffort.Protocol.Serving
import SansEffort.Protocol.Wire

/-!
# A host that follows the specification

The Python host over the specified library, and the host of the specification: how the queue and the
timers of the one are the pending events of the other, and that a call keeps it so.
-/

namespace SansEffort.Protocol

open Boundary Python

variable {k : Instance} {asks : Nat → Nat → Boundary.Request} {R : Type}

/-- A record that the machine takes for the reply to the request. -/
def Answering (asks : Nat → Nat → Boundary.Request) (g id : Nat) (record : Bytes) : Prop :=
  ∃ value x, Replies id value record ∧ (asks g id).reply.Carries value x

/-- What is queued is of machines of the library. -/
inductive Queued (asks : Nat → Nat → Boundary.Request) : Python.Entry → Prop
  | born (lane : Lane) (h g : Nat) : Queued asks (lane, h, .effect (.of (.spawned (g + 1))))
  | bornPinned (lane : Lane) (h g : Nat) :
      Queued asks (lane, h, .effect (.of (.spawnedPinned (g + 1))))
  | asks (lane : Lane) (g id : Nat) : Queued asks (lane, g + 1, .effect (.of ((asks g id).view id)))
  | replies (lane : Lane) (g id : Nat) (record : Bytes) : Answering asks g id record →
      Queued asks (lane, g + 1, .reply id record)
  | woke (lane : Lane) (h g : Nat) : Queued asks (lane, h, .effect (.woke (g + 1)))

/-- The library that the specification's host has. -/
def Host.library (s : Host) (finished : Finset Nat) : Library :=
  ⟨s.machines, s.queued, s.senders, ∅, finished⟩

theorem Host.library_world (s : Host) (finished : Finset Nat) :
    (s.library finished).world = s.world := rfl

/-- What the Python host and the library have written down of machine `g`. -/
structure Known (machines : List (Nat × SansEffort.Status)) (finished : Finset Nat) (g : Nat)
    (m : Machine) : Prop where
  status : machines.lookup (g + 1) =
    if m.status = .notStarted then none else some m.status.reported
  finished : g ∈ finished ↔ m.status = .gone
  freed : m.status ≠ .complete
  owner : m.owner = -1 ∨ m.owner = 0
  owned : m.status ≠ .notStarted → m.pinned = true → m.owner ≠ -1

/-- The request is one that its machine has made. -/
def Host.Made (s : Host) (pair : Nat × Nat) : Prop :=
  ∃ g m, pair.1 = g + 1 ∧ s.machines[g]? = some m ∧ pair.2 < m.nextId

/-- The host's machines and request ids fit the wire. -/
def Host.Small (s : Host) : Prop := s.machines.length < 2 ^ 64 ∧ ∀ m ∈ s.machines, m.nextId ≤ 2 ^ 64

/-- The Python host is where the specification's is, with `hand` the event that it has taken up. -/
structure Follows (k : Instance) (asks : Nat → Nat → Boundary.Request) (hand : Option Event)
    (host : Python.Host Library R) (s : Host) : Prop where
  judging : s.Judging k
  live : s.Live
  running : s.verdict = .running
  idle : s.inFlight = ∅
  wakes : s.wakes = ∅
  library : host.lib = s.library host.lib.finished
  finished : ∀ g ∈ host.lib.finished, g < s.machines.length
  known : ∀ g m, s.machines[g]? = some m → Known host.machines host.lib.finished g m
  apart : (host.machines.map Prod.fst).Nodup
  handles : ∀ handle ∈ host.machines.map Prod.fst, ∃ g < s.machines.length, handle = g + 1
  queue : ∀ entry ∈ host.queue, Queued asks entry
  timers : ∀ timer ∈ host.timers, ∃ g r, timer.handle = g + 1 ∧ asks g timer.id = .sleep r
  held : ∀ e, hand = some e → e ∈ s.pending
  -- one way only: a wake may stay queued after its machine was resumed for another reason
  resumes : ∀ g, .resume g ∈ s.pending → hand = some (.resume g) ∨ g + 1 ∈ host.born ∨
    g + 1 ∈ host.told ∨ ∃ m, s.machines[g]? = some m ∧ m.status = .gone
  replies : ∀ g id, .reply g id ∈ s.pending ↔ hand = some (.reply g id) ∨
    (g + 1, id) ∈ host.awaited ∧ (g + 1, id) ∉ host.closed
  once : host.awaited.Nodup ∧ ∀ g id, hand = some (.reply g id) → (g + 1, id) ∉ host.awaited
  made : ∀ pair, pair ∈ host.awaited ∨ pair ∈ host.closed → s.Made pair
  born : host.born.Nodup ∧ ∀ handle ∈ host.born, ∃ g m, handle = g + 1 ∧
    s.machines[g]? = some m ∧ m.status = .notStarted ∧ hand ≠ some (.resume g)
  begins : ∀ g m, s.machines[g]? = some m → m.status = .notStarted →
    hand = some (.resume g) ∨ g + 1 ∈ host.born

/-! ### What a call says -/

theorem mem_askedIn {effects : List Effect} {id : Nat} :
    id ∈ askedIn effects ↔ id ∈ effects.filterMap Effect.request := by
  unfold askedIn
  rw [List.mem_toFinset]
  exact Iff.rfl

theorem mem_children {effects : List Effect} {g : Nat} :
    g ∈ spawnedIn effects ↔ g ∈ effects.filterMap Effect.child := by
  rw [World.mem_spawnedIn, List.mem_filterMap]
  constructor
  · exact fun member => ⟨_, member, rfl⟩
  · rintro ⟨effect, member, same⟩
    cases effect with
    | spawned c =>
      obtain rfl := Option.some.inj same
      exact member
    | asked id => cases same

theorem shown_spawned (asks : Nat → Nat → Boundary.Request) (machines : List Machine) (h child : Nat) :
    (shown asks machines h (.spawned child)).view = .spawned (child + 1) ∨
      (shown asks machines h (.spawned child)).view = .spawnedPinned (child + 1) := by
  by_cases pinned : (machines[child]?).any (·.pinned) = true
  · exact .inr (if_pos pinned)
  · exact .inl (if_neg pinned)

theorem Output.yielded_requests (out : Output) (machines : List Machine) (h : Nat) :
    ((out.yielded asks machines h).effects.filterMap fun shown => (Item.effect (.of shown.view)).id) =
      out.effects.filterMap Effect.request := by
  unfold Output.yielded
  rw [List.filterMap_map]
  congr 1
  funext effect
  cases effect with
  | asked id => exact Item.id_request (asks h id) id
  | spawned child =>
    show (Item.effect (.of (shown asks machines h (.spawned child)).view)).id = none
    rcases shown_spawned asks machines h child with same | same <;> rw [same] <;> rfl

theorem Output.yielded_children (out : Output) (machines : List Machine) (h : Nat) :
    ((out.yielded asks machines h).effects.filterMap fun shown =>
      (Item.effect (.of shown.view)).child) = (out.effects.filterMap Effect.child).map (· + 1) := by
  unfold Output.yielded
  rw [List.filterMap_map, List.map_filterMap]
  congr 1
  funext effect
  cases effect with
  | asked id => exact Item.child_request (asks h id) id
  | spawned child =>
    show (Item.effect (.of (shown asks machines h (.spawned child)).view)).child = some (child + 1)
    rcases shown_spawned asks machines h child with same | same <;> rw [same] <;> rfl

theorem Output.mem_woken {out : Output} {g : Nat} : g + 1 ∈ out.woken ↔ g ∈ out.woke := by
  unfold Output.woken
  simp

/-- The items of a call's output are of the kinds that a queue holds. -/
theorem queued_yielded (out : Output) (machines : List Machine) (h : Nat) {entry : Python.Entry}
    (queued : entry ∈ (out.yielded asks machines h).effects.map fun shown =>
      ((.machine (h + 1), h + 1, .effect (.of shown.view)) : Python.Entry)) : Queued asks entry := by
  unfold Output.yielded at queued
  rw [List.map_map, List.mem_map] at queued
  obtain ⟨effect, _, rfl⟩ := queued
  cases effect with
  | asked id => exact .asks _ h id
  | spawned child =>
    show Queued asks (_, _, .effect (.of (shown asks machines h (.spawned child)).view))
    rcases shown_spawned asks machines h child with same | same <;> rw [same]
    · exact .born _ _ child
    · exact .bornPinned _ _ child

/-- The output of a call whose numbers fit is written, and the Python host reads it back. -/
theorem Output.encoded_read {out : Output} {machines : List Machine} {h : Nat}
    (short : ∀ g id, Short (asks g id))
    (children : ∀ child ∈ spawnedIn out.effects, child + 1 < 2 ^ 64)
    (requests : ∀ id ∈ askedIn out.effects, id < 2 ^ 64) (closed : ∀ id ∈ out.closed, id < 2 ^ 64)
    (woke : ∀ g ∈ out.woke, g + 1 < 2 ^ 64) :
    ∃ data, out.encoded asks machines h = some data ∧
      decode data = .ok (said (out.yielded asks machines h) out.woken) := by
  have each : ∀ shown ∈ (out.yielded asks machines h).effects, shown.view.number < 2 ^ 64 ∧
      ∃ b, shown.view.layout = some b ∧ b.length < 2 ^ 32 := by
    intro view member
    obtain ⟨effect, told, rfl⟩ := List.mem_map.mp member
    cases effect with
    | asked id =>
      have low := requests id (mem_askedIn.mpr (List.mem_filterMap.mpr ⟨_, told, rfl⟩))
      refine ⟨?_, view_laid (short h id) id⟩
      show ((asks h id).view id).number < _
      cases asks h id <;> exact low
    | spawned child =>
      have low := children child (World.mem_spawnedIn.mpr told)
      rcases shown_spawned asks machines h child with same | same <;>
        exact same ▸ ⟨low, _, rfl, by simp⟩
  have handles : ∀ handle ∈ out.woken, handle < 2 ^ 64 := by
    intro handle member
    obtain ⟨g, named, rfl⟩ := List.mem_map.mp member
    exact woke g ((Finset.mem_sort _).mp named)
  obtain ⟨data, written, read⟩ := views_read each
    (fun id member => closed id ((Finset.mem_sort _).mp member)) handles
  refine ⟨_, ?_, read⟩
  unfold Output.encoded
  rw [written]
  rfl

/-! ### A call -/

namespace Host

variable {s : Host} {e : Event} {m n : Machine}

/-- The machines completed and not freed, after the call. -/
def finishedBy (k : Instance) (s : Host) (e : Event) (m : Machine) (finished : Finset Nat) :
    Finset Nat :=
  if (s.outcome k e m).status = .complete then insert e.target finished else finished

/-- What the Python host hears of the call. -/
def told (k : Instance) (asks : Nat → Nat → Boundary.Request) (s : Host) (e : Event) (m : Machine)
    (host : Python.Host Library R) : Python.Host Library R :=
  host.heard (e.target + 1) (s.outcome k e m).status.reported
    ((s.served k e m).library (s.finishedBy k e m host.lib.finished))
    ((s.outcome k e m).yielded asks (s.world.owned k e 0 m).machines e.target)
    (s.outcome k e m).woken

/-- The children of a call take the next numbers. -/
theorem children_owned (calm : ¬ (s.world.attempt k e).failed e.target) :
    (s.world.owned k e 0 m).effects.filterMap Effect.child =
      (List.range (s.world.attempt k e).children.length).map (s.machines.length + ·) := by
  have attempted : (s.world.attempt k e).machines.length = s.machines.length :=
    (World.only_attempt (k := k) s.world e).length
  rw [(World.owned_tells s.world e 0 m calm).1, (World.tells_attempt e rfl rfl).children, attempted]

theorem requests_nodup (calm : ¬ (s.world.attempt k e).failed e.target) :
    ((s.world.owned k e 0 m).effects.filterMap Effect.request).Nodup := by
  rw [(World.owned_tells s.world e 0 m calm).2]
  exact (World.tells_attempt e rfl rfl).requests

/-- The output of a call can be read, if its numbers fit. -/
theorem outcome_read (short : ∀ g id, Short (asks g id)) (ran : s.Ran k e m n)
    (calm : ¬ (s.world.attempt k e).failed e.target) (small : (s.served k e m).Small) :
    ∃ data, (s.outcome k e m).encoded asks (s.world.owned k e 0 m).machines e.target = some data ∧
      decode data = .ok (said ((s.outcome k e m).yielded asks (s.world.owned k e 0 m).machines
        e.target) (s.outcome k e m).woken) := by
  have length : (s.world.owned k e 0 m).machines.length < 2 ^ 64 :=
    Nat.lt_of_le_of_lt (length_retire _ e.target (s.outcome k e m)).ge small.1
  obtain ⟨_, woke, spawned⟩ := World.placed_owned (k := k) (w := s.world) (e := e)
    (World.Listed.attempt ⟨by simp [world], by simp [world]⟩ e) 0 m
  -- the machine's own next id bounds those that it has asked and closed
  have next : n.nextId ≤ 2 ^ 64 := by
    have low := small.2 _ (List.mem_of_getElem? (served_self ran))
    split at low <;> exact low
  refine Output.encoded_read short (fun child named => ?_) (fun id named => ?_) (fun id named => ?_)
    fun g named => ?_
  · rw [outcome_effects calm] at named
    have := spawned calm child named
    omega
  · rw [outcome_effects calm] at named
    have := (ran.asked id named).2
    omega
  · rw [outcome_closed calm] at named
    have := ran.closed id named
    omega
  · rw [outcome_woke calm] at named
    have := woke g named
    omega

/-- What the library returns from the call. -/
theorem library_call (asks : Nat → Nat → Boundary.Request) (finished : Finset Nat)
    (calm : ¬ (s.world.attempt k e).failed e.target)
    {data : Bytes} (written : (s.outcome k e m).encoded asks (s.world.owned k e 0 m).machines
      e.target = some data) : (s.library finished).call k asks e m =
        (.ok (data, (s.outcome k e m).status.reported),
          (s.served k e m).library (s.finishedBy k e m finished)) := by
  have left : (s.library finished).left (s.world.owned k e 0 m) e.target
      (decide ((s.world.attempt k e).failed e.target)) (s.outcome k e m) =
        (s.served k e m).library (s.finishedBy k e m finished) := by
    unfold Library.left library finishedBy
    simp only [calm, decide_false]
    rfl
  unfold Library.call
  dsimp only
  have same : output (s.world.owned k e 0 m) e.target 0 ((s.world.attempt k e).failed e.target) m =
      s.outcome k e m := rfl
  rw [library_world, same, if_neg calm, written, Option.elim_some, left]

theorem library_failed (asks : Nat → Nat → Boundary.Request) (m : Machine) (finished : Finset Nat)
    (failed : (s.world.attempt k e).failed e.target) :
    ((s.library finished).call k asks e m).1 = .error .panicked := by
  unfold Library.call
  dsimp only
  rw [library_world, if_pos failed]

end Host

theorem Known.same {machines machines' : List (Nat × SansEffort.Status)} {finished finished' : Finset Nat}
    {g : Nat} {m m' : Machine} (known : Known machines finished g m) (same : m'.bare = m.bare)
    (lookup : machines'.lookup (g + 1) = machines.lookup (g + 1))
    (ended : g ∈ finished' ↔ g ∈ finished) : Known machines' finished' g m' := by
  have status : m'.status = m.status := Host.status_of_bare same
  have owner : m'.owner = m.owner := (congrArg Machine.owner same : m'.bare.owner = m.bare.owner)
  have pinned : m'.pinned = m.pinned := (congrArg Machine.pinned same : m'.bare.pinned = m.bare.pinned)
  refine ⟨?_, ?_, status ▸ known.freed, owner ▸ known.owner, ?_⟩
  · rw [lookup, status]
    exact known.status
  · rw [ended, status]
    exact known.finished
  · rw [status, pinned, owner]
    exact known.owned

namespace Follows

variable {host : Python.Host Library R} {s : Host} {e : Event} {m n : Machine}

/-- The machine of the event can be called on the one worker. -/
theorem callable {hand : Option Event} (follows : Follows k asks hand host s) (pending : e ∈ s.pending) :
    ∃ m, s.machines[e.target]? = some m ∧ ¬ Host.wrong m 0 ∧
      (m.status ≠ .notStarted ∨ ∃ h, e = .resume h) := by
  have low := follows.judging.placed.pending e pending
  have found := List.getElem?_eq_getElem low
  refine ⟨_, found, fun wrong => ?_, ?_⟩
  · exact (follows.known _ _ found).owner.elim wrong.2.1 wrong.2.2
  · cases e with
    | resume h => exact .inr ⟨h, rfl⟩
    | reply h id =>
      -- nothing is in flight, so the request is outstanding
      obtain ⟨m, there, asked | ⟨out, flying, _⟩⟩ := follows.live h id pending
      · obtain rfl := Option.some.inj (found.symm.trans there)
        left
        rw [((follows.judging.awake.sound.world.machines _
          (List.mem_of_getElem? found)).asks_of_waits asked).1]
        simp
      · rw [follows.idle] at flying
        cases flying

theorem known_told (follows : Follows k asks (some e) host s) (stays : m.status ≠ .gone)
    (found : s.machines[e.target]? = some m) (ran : s.Ran k e m n) {g : Nat} {m' : Machine}
    (there : (s.served k e m).machines[g]? = some m') :
    Known (s.told k asks e m host).machines (s.told k asks e m host).lib.finished g m' := by
  show Known (assign (e.target + 1) _ host.machines) (s.finishedBy k e m host.lib.finished) g m'
  unfold Host.finishedBy
  rw [Host.outcome_status ran]
  have lookup : ∀ g, g ≠ e.target → (assign (e.target + 1) n.status.reported host.machines).lookup
      (g + 1) = host.machines.lookup (g + 1) := by
    intro g away
    rw [lookup_assign, if_neg (by omega)]
  have ended : ∀ g, g ≠ e.target → (g ∈ (if n.status = .complete then
      insert e.target host.lib.finished else host.lib.finished) ↔ g ∈ host.lib.finished) := by
    intro g away
    split
    · rw [Finset.mem_insert, or_iff_right away]
    · exact Iff.rfl
  by_cases here : g = e.target
  · subst here
    obtain rfl := Option.some.inj ((Host.served_self ran).symm.trans there)
    have before := follows.known _ _ found
    have owner : n.owner = -1 ∨ n.owner = 0 :=
      ran.owner.elim (fun same => same ▸ before.owner) .inr
    by_cases complete : n.status = .complete
    · rw [if_pos complete, if_pos complete]
      refine ⟨?_, by simp, by simp, owner, fun _ => ran.owned⟩
      rw [lookup_assign, if_pos rfl, complete]
      rfl
    · rw [if_neg complete, if_neg complete]
      refine ⟨?_, ?_, complete, owner, fun _ => ran.owned⟩
      · rw [lookup_assign, if_pos rfl, if_neg ran.begun]
      · rw [before.finished]
        exact iff_of_false stays ran.stays
  · rcases Host.of_served there here with ⟨before, at_g, same⟩ | ⟨i, child, far, _, same⟩
    · exact (follows.known g before at_g).same same (lookup g here) (ended g here)
    · have status : m'.status = .notStarted := (congrArg Machine.status same : m'.bare.status = _)
      have owner : m'.owner = -1 := (congrArg Machine.owner same : m'.bare.owner = _)
      refine ⟨?_, ?_, by simp [status], .inl owner, fun begun => absurd status begun⟩
      · rw [lookup g here, if_pos status, List.lookup_eq_none_iff]
        intro pair member
        obtain ⟨g', low, same⟩ := follows.handles pair.1 (List.mem_map_of_mem member)
        have away : g + 1 ≠ pair.1 := by omega
        simpa using away
      · rw [ended g here, status]
        refine iff_of_false (fun member => ?_) (by simp)
        have := follows.finished g member
        omega

theorem mem_told_queue (host : Python.Host Library R) {entry : Python.Entry}
    (before : ∀ entry ∈ host.queue, Queued asks entry)
    (member : entry ∈ (s.told k asks e m host).queue) : Queued asks entry := by
  have member : entry ∈ host.queue ++ _ ++ _ := member
  rcases List.mem_append.mp member with front | woken
  · rcases List.mem_append.mp front with old | yielded
    · exact before entry old
    · exact queued_yielded _ _ e.target yielded
  · obtain ⟨handle, named, rfl⟩ := List.mem_map.mp woken
    obtain ⟨g, _, rfl⟩ := List.mem_map.mp named
    exact .woke _ _ g

section

variable (host) (calm : ¬ (s.world.attempt k e).failed e.target)
include calm

theorem mem_told_awaited {pair : Nat × Nat} : pair ∈ (s.told k asks e m host).awaited ↔
    pair ∈ host.awaited ∨
      pair.1 = e.target + 1 ∧ pair.2 ∈ askedIn (s.world.owned k e 0 m).effects := by
  unfold Host.told
  rw [(Python.Host.heard_awaited host _ _ _ _ _).mem_iff, Output.yielded_requests,
    Host.outcome_effects calm, mem_askedIn, List.mem_append, List.mem_map]
  constructor
  · rintro (before | ⟨id, asked, rfl⟩)
    · exact .inl before
    · exact .inr ⟨rfl, asked⟩
  · rintro (before | ⟨same, asked⟩)
    · exact .inl before
    · exact .inr ⟨pair.2, asked, Prod.ext same.symm rfl⟩

theorem mem_told_closed {pair : Nat × Nat} : pair ∈ (s.told k asks e m host).closed ↔
    pair ∈ host.closed ∨
      pair.1 = e.target + 1 ∧ pair.2 ∈ (s.world.owned k e 0 m).closed := by
  unfold Host.told Python.Host.heard Output.yielded
  dsimp only
  rw [Host.outcome_closed calm, List.mem_append, List.mem_reverse, List.mem_map]
  simp only [Finset.mem_sort]
  constructor
  · rintro (⟨id, closed, rfl⟩ | before)
    · exact .inr ⟨rfl, closed⟩
    · exact .inl before
  · rintro (before | ⟨same, closed⟩)
    · exact .inr before
    · exact .inl ⟨pair.2, closed, Prod.ext same.symm rfl⟩

theorem told_born : (s.told k asks e m host).born = host.born ++
    (List.range (s.world.attempt k e).children.length).map fun i => s.machines.length + i + 1 := by
  unfold Host.told
  rw [Python.Host.heard_born, Output.yielded_children, Host.outcome_effects calm,
    Host.children_owned calm, List.map_map]
  rfl

theorem mem_told_told {g : Nat} : g + 1 ∈ (s.told k asks e m host).told ↔
    g + 1 ∈ host.told ∨ g ∈ (s.world.owned k e 0 m).woke := by
  unfold Host.told
  rw [Python.Host.heard_told, List.mem_append, Output.mem_woken, Host.outcome_woke calm]

end

/-! ### The host once it has heard -/

/-- After a call each machine is there, with no lower id, and as far on as before. -/
theorem older_served (found : s.machines[e.target]? = some m) (ran : s.Ran k e m n)
    (calm : ¬ (s.world.attempt k e).failed e.target) {g : Nat} {before : Machine}
    (there : s.machines[g]? = some before) :
    ∃ m', (s.served k e m).machines[g]? = some m' ∧ before.nextId ≤ m'.nextId ∧
      (before.status = .gone → g ≠ e.target → m'.status = .gone) ∧
      (before.status = .notStarted → g ≠ e.target → m'.status = .notStarted) := by
  by_cases here : g = e.target
  · subst here
    obtain rfl := Option.some.inj (found.symm.trans there)
    refine ⟨_, Host.served_self ran, ?_, fun _ away => absurd rfl away, fun _ away => absurd rfl away⟩
    split <;> exact ran.older
  · have low : g < (s.served k e m).machines.length := by
      rw [Host.served_length k s e m calm]
      exact Nat.lt_add_right _ (List.getElem?_eq_some_iff.mp there).1
    have after := List.getElem?_eq_getElem low
    rcases Host.of_served after here with ⟨m', at_g, same⟩ | ⟨i, _, far, _⟩
    · obtain rfl := Option.some.inj (there.symm.trans at_g)
      have status := Host.status_of_bare same
      have next : ((s.served k e m).machines[g]).nextId = before.nextId :=
        (congrArg Machine.nextId same : Machine.nextId (Machine.bare _) = before.bare.nextId)
      exact ⟨_, after, next.ge, fun gone _ => status.trans gone, fun fresh _ => status.trans fresh⟩
    · have := (List.getElem?_eq_some_iff.mp there).1
      omega

section

variable (follows : Follows k asks (some e) host s) (found : s.machines[e.target]? = some m)
include follows found

/-- A request that the call has made is not known to the host yet. -/
theorem fresh_asked (ran : s.Ran k e m n) {id : Nat}
    (asked : id ∈ askedIn (s.world.owned k e 0 m).effects) :
    (e.target + 1, id) ∉ host.awaited ∧ (e.target + 1, id) ∉ host.closed := by
  have old : (e.target + 1, id) ∈ host.awaited ∨ (e.target + 1, id) ∈ host.closed → id < m.nextId := by
    intro known
    obtain ⟨g, m', same, there, low⟩ := follows.made _ known
    obtain rfl : e.target = g := Nat.succ.inj same
    obtain rfl := Option.some.inj (found.symm.trans there)
    exact low
  have high := (ran.asked id asked).1
  exact ⟨fun there => absurd (old (.inl there)) (by omega),
    fun there => absurd (old (.inr there)) (by omega)⟩

variable (calm : ¬ (s.world.attempt k e).failed e.target)
include calm

theorem told_finished {g : Nat} (member : g ∈ s.finishedBy k e m host.lib.finished) :
    g < (s.served k e m).machines.length := by
  have low := (List.getElem?_eq_some_iff.mp found).1
  have length := Host.served_length k s e m calm
  have before := fun known => follows.finished g known
  unfold Host.finishedBy at member
  split at member
  · rcases Finset.mem_insert.mp member with rfl | known
    · omega
    · have := before known
      omega
  · have := before member
    omega

/-- The called machine is in the host's list of machines, and in it once. -/
theorem told_handles (status : SansEffort.Status) :
    ((assign (e.target + 1) status host.machines).map Prod.fst).Nodup ∧
      ∀ handle ∈ (assign (e.target + 1) status host.machines).map Prod.fst,
        ∃ g < (s.served k e m).machines.length, handle = g + 1 := by
  have low := (List.getElem?_eq_some_iff.mp found).1
  have length := Host.served_length k s e m calm
  rw [assign_handles]
  constructor
  · split
    · exact follows.apart
    · next absent =>
      exact List.nodup_append.mpr ⟨follows.apart, List.nodup_singleton _, fun a there b only same =>
        absent (List.mem_singleton.mp only ▸ same ▸ there)⟩
  · intro handle member
    have known : handle ∈ host.machines.map Prod.fst ∨ handle = e.target + 1 := by
      split at member
      · exact .inl member
      · exact (List.mem_append.mp member).imp_right List.mem_singleton.mp
    rcases known with before | rfl
    · obtain ⟨g, low, rfl⟩ := follows.handles handle before
      exact ⟨g, by omega, rfl⟩
    · exact ⟨e.target, by omega, rfl⟩

theorem told_resumes (correct : k.Correct) (stays : m.status ≠ .gone) (ran : s.Ran k e m n) {g : Nat}
    (due : .resume g ∈ (s.served k e m).pending) :
    g + 1 ∈ (s.told k asks e m host).born ∨ g + 1 ∈ (s.told k asks e m host).told ∨
      ∃ m', (s.served k e m).machines[g]? = some m' ∧ m'.status = .gone := by
  rw [mem_told_told host calm, told_born host calm]
  rcases (Host.mem_served_resume correct calm).mp due with ⟨before, other⟩ | woken | child
  · rcases follows.resumes g before with hand | born | told | ⟨m', there, gone⟩
    · exact absurd (Option.some.inj hand) other
    · exact .inl (List.mem_append_left _ born)
    · exact .inr (.inl (.inl told))
    · have away : g ≠ e.target := by
        rintro rfl
        obtain rfl := Option.some.inj (found.symm.trans there)
        exact stays gone
      obtain ⟨m'', after, _, kept, _⟩ := older_served found ran calm there
      exact .inr (.inr ⟨m'', after, kept gone away⟩)
  · exact .inr (.inl (.inr woken))
  · rw [mem_children, Host.children_owned calm, List.mem_map] at child
    obtain ⟨i, listed, rfl⟩ := child
    exact .inl (List.mem_append_right _ (List.mem_map.mpr ⟨i, listed, rfl⟩))

theorem told_replies (correct : k.Correct) (ran : s.Ran k e m n) (g id : Nat) :
    .reply g id ∈ (s.served k e m).pending ↔
      (g + 1, id) ∈ (s.told k asks e m host).awaited ∧ (g + 1, id) ∉ (s.told k asks e m host).closed := by
  rw [Host.mem_served_reply correct calm, mem_told_awaited host calm, mem_told_closed host calm,
    follows.replies]
  simp only [Nat.add_right_cancel_iff, not_or]
  constructor
  · rintro ⟨⟨hand | ⟨before, opened⟩, other⟩ | ⟨rfl, asked⟩, kept⟩
    · exact absurd (Option.some.inj hand) other
    · exact ⟨.inl before, opened, kept⟩
    · exact ⟨.inr ⟨rfl, asked⟩, (follows.fresh_asked found ran asked).2, kept⟩
  · rintro ⟨before | ⟨rfl, asked⟩, opened, kept⟩
    · refine ⟨.inl ⟨.inr ⟨before, opened⟩, ?_⟩, kept⟩
      rintro rfl
      exact follows.once.2 g id rfl before
    · exact ⟨.inr ⟨rfl, asked⟩, kept⟩

theorem told_once (ran : s.Ran k e m n) : (s.told k asks e m host).awaited.Nodup := by
  unfold Host.told
  rw [(Python.Host.heard_awaited host _ _ _ _ _).nodup_iff, Output.yielded_requests,
    Host.outcome_effects calm]
  refine List.nodup_append.mpr ⟨follows.once.1,
    (Host.requests_nodup calm).map (Prod.mk_right_injective _), fun pair before pair' new same => ?_⟩
  obtain ⟨id, asked, rfl⟩ := List.mem_map.mp new
  exact (follows.fresh_asked found ran (mem_askedIn.mpr asked)).1 (same ▸ before)

theorem told_made (ran : s.Ran k e m n) {pair : Nat × Nat}
    (known : pair ∈ (s.told k asks e m host).awaited ∨ pair ∈ (s.told k asks e m host).closed) :
    (s.served k e m).Made pair := by
  rw [mem_told_awaited host calm, mem_told_closed host calm] at known
  have old : pair ∈ host.awaited ∨ pair ∈ host.closed → (s.served k e m).Made pair := by
    intro known
    obtain ⟨g, m', same, there, low⟩ := follows.made pair known
    obtain ⟨m'', after, more, _⟩ := older_served found ran calm there
    exact ⟨g, m'', same, after, by omega⟩
  have new : pair.1 = e.target + 1 → pair.2 < n.nextId → (s.served k e m).Made pair := by
    intro same low
    refine ⟨e.target, _, same, Host.served_self ran, ?_⟩
    split <;> exact low
  rcases known with (before | ⟨same, asked⟩) | (before | ⟨same, closed⟩)
  · exact old (.inl before)
  · exact new same (ran.asked _ asked).2
  · exact old (.inr before)
  · exact new same (ran.closed _ closed)

/-- Each child still to be begun is of this call or of an earlier one. -/
theorem told_births (begins : m.status ≠ .notStarted ∨ ∃ h, e = .resume h) (ran : s.Ran k e m n) :
    (s.told k asks e m host).born.Nodup ∧ ∀ handle ∈ (s.told k asks e m host).born, ∃ g m',
      handle = g + 1 ∧ (s.served k e m).machines[g]? = some m' ∧ m'.status = .notStarted := by
  have low := (List.getElem?_eq_some_iff.mp found).1
  have length := Host.served_length k s e m calm
  rw [told_born host calm]
  refine ⟨List.nodup_append.mpr ⟨follows.born.1, List.nodup_range.map fun i j same => by omega,
    fun a before b new same => ?_⟩, fun handle listed => ?_⟩
  · obtain ⟨g, m', rfl, there, _⟩ := follows.born.2 a before
    obtain ⟨i, _, rfl⟩ := List.mem_map.mp new
    have := (List.getElem?_eq_some_iff.mp there).1
    omega
  · rcases List.mem_append.mp listed with before | new
    · obtain ⟨g, m', rfl, there, unstarted, hand⟩ := follows.born.2 handle before
      have away : g ≠ e.target := by
        rintro rfl
        obtain rfl := Option.some.inj (found.symm.trans there)
        obtain ⟨h, rfl⟩ := begins.resolve_left (not_not.mpr unstarted)
        exact hand rfl
      obtain ⟨m'', after, _, _, kept⟩ := older_served found ran calm there
      exact ⟨g, m'', rfl, after, kept unstarted away⟩
    · obtain ⟨i, low', rfl⟩ := List.mem_map.mp new
      have inside : s.machines.length + i < (s.served k e m).machines.length := by
        have := List.mem_range.mp low'
        omega
      refine ⟨s.machines.length + i, _, rfl, List.getElem?_eq_getElem inside, ?_⟩
      rcases Host.of_served (List.getElem?_eq_getElem inside) (by omega) with
        ⟨before, there, _⟩ | ⟨_, _, _, _, same⟩
      · have := (List.getElem?_eq_some_iff.mp there).1
        omega
      · exact (congrArg Machine.status same : Machine.status (Machine.bare _) = _)

theorem told_begins (ran : s.Ran k e m n) {g : Nat} {m' : Machine}
    (there : (s.served k e m).machines[g]? = some m') (unstarted : m'.status = .notStarted) :
    g + 1 ∈ (s.told k asks e m host).born := by
  rw [told_born host calm]
  by_cases here : g = e.target
  · subst here
    obtain rfl := Option.some.inj ((Host.served_self ran).symm.trans there)
    split at unstarted
    · cases unstarted
    · exact absurd unstarted ran.begun
  · rcases Host.of_served there here with ⟨before, at_g, same⟩ | ⟨i, child, rfl, listed, _⟩
    · rcases follows.begins g before at_g ((Host.status_of_bare same).symm.trans unstarted) with
        hand | born
      · obtain rfl := Option.some.inj hand
        exact absurd rfl here
      · exact List.mem_append_left _ born
    · exact List.mem_append_right _ (List.mem_map.mpr
        ⟨i, List.mem_range.mpr (List.getElem?_eq_some_iff.mp listed).1, rfl⟩)

end

section

variable (correct : k.Correct) (short : k.Short) (workers : 1 ≤ k.workers)
include correct short workers

theorem told_follows (follows : Follows k asks (some e) host s)
    (found : s.machines[e.target]? = some m) (right : ¬ Host.wrong m 0) (stays : m.status ≠ .gone)
    (begins : m.status ≠ .notStarted ∨ ∃ h, e = .resume h) (ran : s.Ran k e m n)
    (calm : ¬ (s.world.attempt k e).failed e.target) :
    Follows k asks none (s.told k asks e m host) (s.served k e m) := by
  have pending := follows.held e rfl
  obtain ⟨apart, births⟩ := follows.told_births found calm begins ran
  exact {
    judging := follows.judging.served correct short workers found pending follows.running follows.idle
      right
    live := follows.live.served correct workers follows.judging found pending follows.running
      follows.idle right calm
    running := follows.running
    idle := Host.served_inFlight follows.idle
    wakes := (Host.served_wakes calm).trans follows.wakes
    library := rfl
    finished := fun g member => follows.told_finished found calm member
    known := fun g m' there => follows.known_told stays found ran there
    apart := (follows.told_handles found calm _).1
    handles := (follows.told_handles found calm _).2
    queue := fun entry member => mem_told_queue host follows.queue member
    timers := follows.timers
    held := by simp
    resumes := fun g due => .inr (follows.told_resumes found calm correct stays ran due)
    replies := fun g id => by simp [follows.told_replies found calm correct ran g id]
    once := ⟨follows.told_once found calm ran, by simp⟩
    made := fun pair known => follows.told_made found calm ran known
    born := ⟨apart, fun handle listed => by
      obtain ⟨g, m', same, there, unstarted⟩ := births handle listed
      exact ⟨g, m', same, there, unstarted, by simp⟩⟩
    begins := fun g m' there unstarted => .inr (follows.told_begins found calm ran there unstarted) }

/-- After a call that panicked the host raises `Failed`, and after any other it has heard the
output. -/
theorem called (shorts : ∀ g id, Short (asks g id)) (follows : Follows k asks (some e) host s)
    (found : s.machines[e.target]? = some m) (stays : m.status ≠ .gone)
    (small : ¬ (s.world.attempt k e).failed e.target → (s.served k e m).Small) :
    (s.world.attempt k e).failed e.target ∧
        host.ran (e.target + 1) (host.lib.call k asks e m) = .error (.failed (-4)) ∨
      ¬ (s.world.attempt k e).failed e.target ∧
        host.ran (e.target + 1) (host.lib.call k asks e m) = .ok (s.told k asks e m host) ∧
        Follows k asks none (s.told k asks e m host) (s.served k e m) := by
  obtain ⟨m', there, right, begins⟩ := follows.callable (follows.held e rfl)
  obtain rfl := Option.some.inj (found.symm.trans there)
  have library := follows.library
  by_cases failed : (s.world.attempt k e).failed e.target
  · refine .inl ⟨failed, ?_⟩
    have raised := Host.library_failed asks m host.lib.finished failed
    rw [← library] at raised
    unfold Python.Host.ran
    rw [← Prod.mk.eta (p := host.lib.call k asks e m), raised]
    rfl
  · refine .inr ⟨failed, ?_⟩
    obtain ⟨n, ran⟩ := Host.ran_of_found follows.judging.awake.sound.world found stays begins failed
    obtain ⟨data, written, read⟩ := Host.outcome_read shorts ran failed (small failed)
    have said := Host.library_call asks host.lib.finished failed written
    rw [← library] at said
    rw [said]
    exact ⟨Python.Host.ran_said read,
      follows.told_follows correct short workers found right stays begins ran failed⟩

end

/-! ### Through the C ABI -/

variable {hand : Option Event}

theorem entry_of_found (follows : Follows k asks hand host s) {g : Nat}
    (found : s.machines[g]? = some m) (stays : m.status ≠ .gone) :
    host.lib.entry (g + 1) = some m ∧ g ∉ host.lib.finished := by
  refine ⟨?_, fun finished => stays ((follows.known g m found).finished.mp finished)⟩
  rw [follows.library]
  unfold Library.entry Host.library
  simp [found, stays]

theorem resumed (follows : Follows k asks hand host s) {g : Nat} (found : s.machines[g]? = some m)
    (stays : m.status ≠ .gone) :
    (spoken k asks).resume host.lib (g + 1) = host.lib.call k asks (.resume g) m := by
  obtain ⟨entry, going⟩ := follows.entry_of_found found stays
  show Library.resume k asks host.lib (g + 1) = _
  unfold Library.resume
  rw [entry]
  exact if_neg going

/-- A reply to an outstanding request is a call on its machine. -/
theorem replied (follows : Follows k asks hand host s) {g id : Nat} (found : s.machines[g]? = some m)
    (asked : id ∈ m.asks) {record : Bytes} (answering : Answering asks g id record) :
    m.status ≠ .gone ∧
      (spoken k asks).reply host.lib (g + 1) record = host.lib.call k asks (.reply g id) m := by
  have sound := follows.judging.awake.sound.world.machines m (List.mem_of_getElem? found)
  have stays : m.status ≠ .gone := by simp [(sound.asks_of_waits asked).1]
  refine ⟨stays, ?_⟩
  obtain ⟨entry, going⟩ := follows.entry_of_found found stays
  obtain ⟨value, x, ⟨input, read, rfl, rfl⟩, carries⟩ := answering
  show Library.reply k asks host.lib (g + 1) record = _
  unfold Library.reply
  rw [entry, read]
  dsimp only
  rw [Nat.add_sub_cancel, if_neg going]
  unfold Library.answer
  dsimp only
  rw [if_neg (not_not.mpr asked), if_neg (not_not.mpr carries.kind), carries.check]

/-! ### What it takes up -/

/-- The host takes an item off its queue or timers, and has its event in hand, or none if it was for
nobody. -/
theorem take (follows : Follows k asks none host s) {after : Python.Host Library R}
    (lib : after.lib = host.lib) (machines : after.machines = host.machines)
    (closed : after.closed = host.closed) (queue : ∀ entry ∈ after.queue, Queued asks entry)
    (timers : ∀ timer ∈ after.timers, ∃ g r, timer.handle = g + 1 ∧ asks g timer.id = .sleep r)
    (off : List (Nat × Nat)) (child woken : Option Nat)
    (awaited : host.awaited.Perm (off ++ after.awaited))
    (born : host.born.Perm (child.toList ++ after.born))
    (told : host.told.Perm (woken.toList ++ after.told)) (held : ∀ e, hand = some e → e ∈ s.pending)
    (replies : ∀ g id, hand = some (.reply g id) ↔ (g + 1, id) ∈ off ∧ (g + 1, id) ∉ host.closed)
    (begins : ∀ g, child = some (g + 1) → hand = some (.resume g))
    (resumes : ∀ g, woken = some (g + 1) → .resume g ∈ s.pending → hand = some (.resume g) ∨
      ∃ m, s.machines[g]? = some m ∧ (m.status = .notStarted ∨ m.status = .gone))
    (once : ∀ g, hand = some (.resume g) → g + 1 ∉ after.born) :
    Follows k asks hand after s := by
  have births : ∀ g, g + 1 ∈ host.born → hand = some (.resume g) ∨ g + 1 ∈ after.born := by
    intro g listed
    rcases List.mem_append.mp (born.mem_iff.mp listed) with now | later
    · exact .inl (begins g (Option.mem_toList.mp now))
    · exact .inr later
  refine {
    judging := follows.judging
    live := follows.live
    running := follows.running
    idle := follows.idle
    wakes := follows.wakes
    library := lib ▸ follows.library
    finished := lib ▸ follows.finished
    known := lib ▸ machines ▸ follows.known
    apart := machines ▸ follows.apart
    handles := machines ▸ follows.handles
    queue
    timers
    held
    resumes := ?_
    replies := ?_
    once := ?_
    made := ?_
    born := ?_
    begins := ?_ }
  · intro g pending
    rcases follows.resumes g pending with up | listed | named | gone
    · cases up
    · exact (births g listed).imp_right .inl
    · rcases List.mem_append.mp (told.mem_iff.mp named) with now | later
      · rcases resumes g (Option.mem_toList.mp now) pending with hand | ⟨m, there, fresh | gone⟩
        · exact .inl hand
        · rcases follows.begins g m there fresh with up | listed
          · cases up
          · exact (births g listed).imp_right .inl
        · exact .inr (.inr (.inr ⟨m, there, gone⟩))
      · exact .inr (.inr (.inl later))
    · exact .inr (.inr (.inr gone))
  · intro g id
    rw [follows.replies, replies, closed, awaited.mem_iff, List.mem_append, or_and_right]
    simp
  · obtain ⟨_, rest, apart⟩ := List.nodup_append.mp (awaited.nodup_iff.mp follows.once.1)
    refine ⟨rest, fun g id up there => ?_⟩
    exact apart _ ((replies g id).mp up).1 _ there rfl
  · intro pair known
    rw [closed] at known
    exact follows.made pair (known.imp_left fun there =>
      awaited.mem_iff.mpr (List.mem_append_right _ there))
  · obtain ⟨_, rest, _⟩ := List.nodup_append.mp (born.nodup_iff.mp follows.born.1)
    refine ⟨rest, fun handle listed => ?_⟩
    obtain ⟨g, m, rfl, there, fresh, _⟩ := follows.born.2 handle
      (born.mem_iff.mpr (List.mem_append_right _ listed))
    exact ⟨g, m, rfl, there, fresh, fun up => once g up listed⟩
  · intro g m there fresh
    rcases follows.begins g m there fresh with up | listed
    · cases up
    · exact births g listed

/-- A waiting machine can be resumed: its resume is pending, or a spurious one makes it so. -/
theorem up (correct : k.Correct) (short : k.Short) (follows : Follows k asks none host s) {g : Nat}
    (found : s.machines[g]? = some m) (waits : m.waitingIn) (left : 0 < s.spuriousLeft) :
    Follows k asks (some (.resume g)) host s ∨
      s.step k (.spurious g) = some (s.spurred g) ∧
        Follows k asks (some (.resume g)) host (s.spurred g) := by
  have begun : g + 1 ∉ host.born := by
    intro listed
    obtain ⟨g', m', same, there, fresh, _⟩ := follows.born.2 _ listed
    obtain rfl : g = g' := Nat.succ.inj same
    obtain rfl := Option.some.inj (found.symm.trans there)
    rcases waits with status | status <;> cases fresh.symm.trans status
  by_cases pending : .resume g ∈ s.pending
  · refine .inl (follows.take rfl rfl rfl follows.queue follows.timers [] none none
      (.refl _) (.refl _) (.refl _) ?_ (by simp) (by simp) (by simp) ?_)
    · rintro e same
      exact Option.some.inj same ▸ pending
    · rintro g' same
      obtain rfl := Event.resume.inj (Option.some.inj same)
      exact begun
  · have stepped := Host.step_spurious (k := k) found waits follows.running follows.idle left
    refine .inr ⟨stepped, ?_⟩
    have grown : ∀ e, e ∈ (s.spurred g).pending ↔ e ∈ s.pending ∨ e = .resume g := by
      intro e
      show e ∈ s.pending ∪ {.resume g} ↔ _
      rw [Finset.mem_union, Finset.mem_singleton]
    have sound := follows.judging.awake.sound
    refine { follows with
      judging := follows.judging.step correct short stepped
      live := Host.step_live correct sound follows.judging.owing follows.live
        (a := .spurious g) trivial stepped
      held := ?_
      resumes := ?_
      replies := ?_
      once := ⟨follows.once.1, by simp⟩
      born := ⟨follows.born.1, fun handle listed => ?_⟩
      begins := fun g' m' there fresh =>
        .inr ((follows.begins g' m' there fresh).resolve_left (by simp)) }
    · intro e same
      exact (grown e).mpr (.inr (Option.some.inj same).symm)
    · intro g' due
      rcases (grown _).mp due with before | now
      · exact (follows.resumes g' before).imp_left (by simp)
      · exact .inl (congrArg some now.symm)
    · intro g' id
      rw [grown, follows.replies]
      simp
    · obtain ⟨g', m', rfl, there, fresh, _⟩ := follows.born.2 handle listed
      refine ⟨g', m', rfl, there, fresh, fun same => ?_⟩
      obtain rfl := Event.resume.inj (Option.some.inj same)
      exact begun listed

end Follows

end SansEffort.Protocol
