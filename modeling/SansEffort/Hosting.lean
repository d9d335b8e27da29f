import SansEffort.Machine

/-!
# A host's run

Any sequence of calls on a machine, from a fresh one, with what each returned. `Sound` says
how the machine's table, the routine's outbox and what the host has heard hang together after
each of them.
-/

namespace SansEffort

variable {σ E H V : Type}

inductive Call
  | resume
  | reply (id : Nat) (value : Value)

/-- A call by the host, or what others may do between the calls: an operation on a clone of the
outbox, or on a request future moved to them, or a wake of the routine. -/
inductive HostAct (C E : Type)
  | call (c : C)
  | other (op : Outbox.Op E)
  | wake

/-- Others only tell effects and wake the routine: its requests are recorded, polled and dropped
in its own polls. -/
def HostAct.isQuiet {C E : Type} : HostAct C E → Bool
  | .other (.tell _) => true
  | .other _ => false
  | _ => true

def Machine.call (r : Routine σ E H) (split : E → V × Option Pending) (m : Machine σ E H) :
    Call → Option (Except Error (Yield (Shown V)) × Machine σ E H)
  | .resume => m.resumeShown r split
  | .reply id value => m.replyShown r split id value

/-- A refused call only reorders the table. -/
theorem Machine.call_refused (r : Routine σ E H) (split : E → V × Option Pending)
    {m m' : Machine σ E H} (kept : m.driver.outbox.Kept) {c : Call} {error : Error}
    (refused : m.call r split c = some (.error error, m')) : m.Alike m' := by
  cases c with
  | resume => exact m.resumeShown_refused r split refused ▸ .refl m
  | reply id value => exact m.replyShown_refused r split kept refused

namespace Machine

def setOutbox (m : Machine σ E H) (outbox : Outbox E) : Machine σ E H :=
  { m with driver := { m.driver with shared := { m.driver.shared with outbox } } }

/-- An operation by others, which is neither a reply nor a drain. -/
def other (m : Machine σ E H) (op : Outbox.Op E) : Option (Machine σ E H) :=
  if op.byRoutine then (m.driver.outbox.step op).map m.setOutbox else none

def wake (m : Machine σ E H) : Machine σ E H :=
  let (hook, wakeup) := m.driver.shared.wakeup.wakeUp
  { m with driver := { m.driver with
    shared := { m.driver.shared with wakeup, hooked := hook.toList ++ m.driver.shared.hooked } } }

end Machine

/-- What a host has called and what was returned, newest first. -/
abbrev Heard (V : Type) := List (Call × Except Error (Yield (Shown V)))

/-- The replies that returned `Ok`. -/
def accepted : Heard V → List (Nat × Value)
  | [] => []
  | (.reply id value, .ok _) :: heard => (id, value) :: accepted heard
  | _ :: heard => accepted heard

/-- The ids in `closed` lists, oldest first. -/
def closedIds : Heard V → List Nat
  | [] => []
  | (_, .ok y) :: heard => closedIds heard ++ y.closed
  | _ :: heard => closedIds heard

structure Hosted (σ E H V : Type) where
  machine : Machine σ E H
  heard : Heard V

namespace Hosted

def new (driver : Nat) (waker : Waker) (make : Prog E σ) : Hosted σ E H V :=
  ⟨.fromDriver (.new driver waker make), []⟩

abbrev outbox (s : Hosted σ E H V) : Outbox E := s.machine.driver.shared.outbox

/-- A call that panics is the last: the machine is not called again. -/
def step (r : Routine σ E H) (split : E → V × Option Pending) (s : Hosted σ E H V) :
    HostAct Call E → Option (Hosted σ E H V)
  | .call c => (s.machine.call r split c).map fun (result, machine) =>
      ⟨machine, (c, result) :: s.heard⟩
  | .other op => (s.machine.other op).map ({ s with machine := · })
  | .wake => some { s with machine := s.machine.wake }

end Hosted

/-- `split` gives back the handle each effect was built around, and none for a tell. -/
structure Lawful (split : E → V × Option Pending) (driver : Nat) (log : List (Event E)) :
    Prop where
  told : ∀ e, .told e ∈ log → (split e).2 = none
  opened : ∀ id e a, .opened id e a ∈ log →
    (split e).2 = some (a.wire.intoPending ⟨driver, id⟩)

namespace Lawful

variable {split : E → V × Option Pending} {driver : Nat} {log : List (Event E)}

theorem of_suffix {older : List (Event E)} (lawful : Lawful split driver log)
    (suffix : older <:+ log) : Lawful split driver older :=
  ⟨fun e told => lawful.told e (suffix.subset told),
    fun id e a opened => lawful.opened id e a (suffix.subset opened)⟩

theorem labelled (lawful : Lawful split driver log) :
    Labelled (fun e => (split e).2.map Pending.id) log := by
  refine ⟨fun e told => ?_, fun id e a opened => .inr ?_⟩
  · rw [lawful.told e told]
    rfl
  · rw [lawful.opened id e a opened]
    exact congrArg some (Kind.intoPending_id _ _)

end Lawful

/-- The ids of the requests a host has been shown. -/
def shownIds (split : E → V × Option Pending) (log : List (Event E)) : List Nat :=
  (Machine.handles split (emitted log)).map Pending.id

theorem shownIds_eq (split : E → V × Option Pending) (log : List (Event E)) :
    shownIds split log = (emitted log).filterMap fun e => (split e).2.map Pending.id := by
  unfold shownIds Machine.handles
  rw [List.map_filterMap]

/-- Ids are shown in increasing order. -/
theorem shownIds_sorted {split : E → V × Option Pending} {driver : Nat} {log : List (Event E)}
    (valid : Valid log) (lawful : Lawful split driver log) :
    (shownIds split log).Pairwise (· < ·) := by
  obtain ⟨rest, whole, _⟩ := readyFront_spec (recorded log)
  have sorted := (valid.recorded_sorted lawful.labelled).1
  rw [whole, List.filterMap_append, List.filterMap_map] at sorted
  rw [shownIds_eq]
  exact (List.pairwise_append.mp sorted).1.sublist (valid.emitted_prefix.sublist.filterMap _)

/-- What is shown was asked for, and its handle is the one minted for it. -/
theorem shown_opened {split : E → V × Option Pending} {driver : Nat} {log : List (Event E)}
    (valid : Valid log) (lawful : Lawful split driver log) {p : Pending}
    (member : p ∈ Machine.handles split (emitted log)) :
    ∃ a, (p.id, a) ∈ openings log ∧ p = a.wire.intoPending ⟨driver, p.id⟩ := by
  obtain ⟨e, inside, carried⟩ := List.mem_filterMap.mp member
  have ready := ready_of_readyFront (valid.emitted_prefix.subset inside)
  rcases recorded_origin log e ready with told | ⟨id, a, opened⟩
  · rw [lawful.told e told] at carried
    cases carried
  · rw [lawful.opened id e a opened] at carried
    cases carried
    rw [Kind.intoPending_id]
    exact ⟨a, (mem_openings_iff log id a).mpr ⟨e, opened⟩, rfl⟩

/-- After a drain, a request has been shown unless an ask minted before it is still being
built. -/
theorem opened_shown {split : E → V × Option Pending} {driver : Nat} {o : Outbox E}
    (kept : o.Kept) (lawful : Lawful split driver o.log) (drained : o.effects = []) {id : Nat}
    (first : ∀ r ∈ beingBuilt o.log, id < r) (opened : id ∈ (openings o.log).map Prod.fst) :
    id ∈ shownIds split o.log := by
  obtain ⟨⟨i, a⟩, member, same⟩ := List.mem_map.mp opened
  obtain rfl : i = id := same
  obtain ⟨e, there⟩ := (mem_openings_iff _ _ _).mp member
  have carried : (split e).2.map Pending.id = some i := by
    rw [lawful.opened i e a there]
    exact congrArg some (Kind.intoPending_id _ _)
  have ready := kept.valid.ready_front lawful.labelled there carried first
  rw [← kept.front, drained, List.append_nil] at ready
  rw [shownIds_eq]
  exact List.mem_filterMap.mpr ⟨e, ready, carried⟩

namespace Hosted

/-- A request the host has done with: answered, or closed. -/
def gone (log : List (Event E)) (id : Nat) : Prop :=
  id ∈ (deliveries log).map Prod.fst ∨ id ∈ listed log

/-- What holds between calls, whoever uses the outbox: the machine's table and what the host has
heard are as the outbox's history says. -/
structure Orderly (split : E → V × Option Pending) (driver : Nat) (s : Hosted σ E H V) :
    Prop where
  kept : s.outbox.Kept
  own : s.outbox.mail.driver = driver
  accepted : accepted s.heard = deliveries s.outbox.log
  closed : closedIds s.heard = listed s.outbox.log
  once : ((deliveries s.outbox.log).map Prod.fst).Nodup
  table : s.machine.Tabled (Machine.handles split (emitted s.outbox.log)) (gone s.outbox.log)
  known : ∀ id, gone s.outbox.log id → id ∈ shownIds split s.outbox.log

/-- What holds as well when the routine uses its outbox alone: a drain leaves nothing behind. -/
structure Sound (split : E → V × Option Pending) (driver : Nat) (s : Hosted σ E H V) : Prop
    extends Orderly split driver s where
  built : beingBuilt s.outbox.log = []
  flushed : drains s.outbox.log ≠ [] → s.outbox.mail.closed = [] ∧
    ∀ id ∈ (openings s.outbox.log).map Prod.fst, id ∈ shownIds split s.outbox.log

theorem sound_new (split : E → V × Option Pending) (driver : Nat) (waker : Waker)
    (make : Prog E σ) : Sound split driver (new driver waker make : Hosted σ E H V) := by
  obtain ⟨kept, built, ran⟩ := Stepper.kept_new (H := H) driver waker make
  have deliveries : deliveries (new driver waker make : Hosted σ E H V).outbox.log = [] :=
    ran.deliveries
  have emitted : emitted (new driver waker make : Hosted σ E H V).outbox.log = [] := ran.emitted
  have listed : listed (new driver waker make : Hosted σ E H V).outbox.log = [] := ran.listed
  refine ⟨⟨kept, ran.driver, deliveries.symm, listed.symm, ?_, ?_, ?_⟩, built, ?_⟩
  · rw [deliveries]
    exact .nil
  · rw [emitted]
    exact Machine.tabled_new _ _
  · rintro id (answered | closed)
    · rw [deliveries] at answered
      cases answered
    · rw [listed] at closed
      cases closed
  · intro drained
    exact absurd ran.drains drained

/-- The requests in a yield are new to the host, and what is gone after it was shown. -/
structure Yielded (split : E → V × Option Pending) (before after : List (Event E))
    (yielded : Yield E) : Prop where
  deliveries : deliveries after = deliveries before
  emitted : emitted after = emitted before ++ yielded.effects
  listed : listed after = listed before ++ yielded.closed
  sorted : (shownIds split after).Pairwise (· < ·)
  fresh : ∀ p ∈ Machine.handles split yielded.effects, 0 < p.id ∧ ¬ gone before p.id
  known : ∀ id, gone after id → id ∈ shownIds split after

theorem yielded_of_polled {split : E → V × Option Pending} {driver : Nat}
    {r : Routine σ E H} {d after : Stepper σ E H} {yielded : Yield E}
    (polled : Stepper.Polled r d after yielded) (lawful : Lawful split driver after.outbox.log)
    (clear : ∀ y older, after.outbox.log = .drained y :: older → Unhindered older)
    (known : ∀ id, gone d.outbox.log id → id ∈ shownIds split d.outbox.log) :
    after.outbox.mail.driver = d.outbox.mail.driver ∧
      Yielded split d.outbox.log after.outbox.log yielded := by
  obtain ⟨poll, middle, kept, ran, _, rfl, same, _, _⟩ := polled
  obtain ⟨drained, log⟩ := kept.drain
  rw [same] at lawful clear ⊢
  have sorted := shownIds_sorted drained.valid lawful
  have shown : shownIds split middle.drain.2.2.log = shownIds split d.outbox.log ++
      (Machine.handles split middle.drain.1.effects).map Pending.id := by
    unfold shownIds Machine.handles
    rw [log, emitted, ran.emitted, List.filterMap_append, List.map_append]
  refine ⟨ran.driver, ?_, ?_, ?_, sorted, fun p member => ⟨?_, fun went => ?_⟩, ?_⟩
  · rw [log]
    exact ran.deliveries
  · rw [log, emitted, ran.emitted]
  · rw [log, listed, ran.listed]
  · obtain ⟨a, opened, _⟩ := shown_opened drained.valid lawful (p := p) <| by
      rw [log, emitted, Machine.handles, List.filterMap_append]
      exact List.mem_append_right _ member
    have := (drained.valid.opened_minted p.id (List.mem_map_of_mem opened)).1
    exact drained.valid.minted_pos p.id this
  · rw [shown, List.pairwise_append] at sorted
    have := sorted.2.2 p.id (known p.id went) p.id (List.mem_map_of_mem member)
    exact Nat.lt_irrefl _ this
  · rintro id (answered | closed)
    · rw [shown]
      rw [log] at answered
      exact List.mem_append_left _ (known id (.inl (ran.deliveries ▸ answered)))
    · -- what is listed was dropped before the drain, and so was ready to leave by then
      have abandoned := drained.valid.listed_abandoned id closed
      refine opened_shown drained lawful rfl (fun r building => ?_) ?_
      · rw [log] at abandoned building
        exact clear _ _ log id ((kept.valid.abandoned_iff id).mpr abandoned) r building
      · by_contra unopened
        rw [(life_unopened_iff id _).mpr unopened] at abandoned
        cases abandoned

/-- What is shown, not gone and not dropped since is a request that waits, under the handle
minted for it. -/
theorem Orderly.waits {split : E → V × Option Pending} {driver : Nat} {s : Hosted σ E H V}
    (orderly : Orderly split driver s) {id : Nat} {a : Answer}
    (opened : (id, a) ∈ openings s.outbox.log) (here : ¬ gone s.outbox.log id)
    (undropped : id ∉ s.outbox.mail.closed) : life id s.outbox.log = .waiting a := by
  have valid := orderly.kept.valid
  have unreplied : (life id s.outbox.log).replied ≠ true :=
    fun replied => here (.inl ((valid.replied_iff id).mp replied))
  have kept : life id s.outbox.log ≠ .abandoned := by
    intro abandoned
    have := (valid.abandoned_iff id).mpr abandoned
    rw [← orderly.kept.mail.closed] at this
    rcases List.mem_append.mp this with listed | waiting
    · exact here (.inr listed)
    · exact undropped waiting
  have started : life id s.outbox.log ≠ .unopened := by
    intro unopened
    exact (life_unopened_iff _ _).mp unopened (List.mem_map_of_mem opened)
  cases state : life id s.outbox.log with
  | waiting b =>
    have again := life_answer_opened id s.outbox.log b (by rw [state]; rfl)
    rw [valid.openings_unique opened again]
  | unopened => exact absurd state started
  | abandoned => exact absurd state kept
  | _ => exact absurd (by rw [state]; rfl) unreplied

theorem Sound.waits {split : E → V × Option Pending} {driver : Nat} {s : Hosted σ E H V}
    (sound : Sound split driver s) (lawful : Lawful split driver s.outbox.log) {p : Pending}
    (member : p ∈ Machine.handles split (emitted s.outbox.log)) (here : ¬ gone s.outbox.log p.id) :
    ∃ a, (p.id, a) ∈ openings s.outbox.log ∧ life p.id s.outbox.log = .waiting a ∧
      p = a.wire.intoPending ⟨driver, p.id⟩ := by
  obtain ⟨a, opened, handle⟩ := shown_opened sound.kept.valid lawful member
  obtain ⟨e, inside, _⟩ := List.mem_filterMap.mp member
  have nothing := (sound.flushed (drains_of_emitted inside)).1
  refine ⟨a, opened, sound.toOrderly.waits opened here ?_, handle⟩
  rw [nothing]
  exact List.not_mem_nil

/-- A call whose poll returned leaves everything in step. -/
theorem orderly_yielded {split : E → V × Option Pending} {driver : Nat} {m : Machine σ E H}
    {heard : Heard V} {c : Call} {r : Routine σ E H} {d after : Stepper σ E H} {yielded : Yield E}
    (polled : Stepper.Polled r d after yielded) (lawful : Lawful split driver after.outbox.log)
    (clear : ∀ y older, after.outbox.log = .drained y :: older → Unhindered older)
    (own : d.outbox.mail.driver = driver)
    (known : ∀ id, gone d.outbox.log id → id ∈ shownIds split d.outbox.log)
    (once : ((deliveries d.outbox.log).map Prod.fst).Nodup)
    (table : m.Tabled (Machine.handles split (emitted d.outbox.log)) (gone d.outbox.log))
    (accepts : ∀ y, SansEffort.accepted ((c, .ok y) :: heard) = deliveries d.outbox.log)
    (closed : closedIds heard = listed d.outbox.log) :
    Orderly split driver ⟨({ m with driver := after }.showYield split yielded).2,
      (c, .ok ({ m with driver := after }.showYield split yielded).1) :: heard⟩ := by
  have later := polled.later
  obtain ⟨driver', news⟩ := yielded_of_polled polled lawful clear known
  -- what was gone before the poll is gone from the table
  have table' : { m with driver := after }.Tabled
      (Machine.handles split (emitted d.outbox.log)) (gone d.outbox.log) :=
    table.congr (.refl _) rfl rfl fun _ => Iff.rfl
  -- the requests yielded have the highest ids so far
  have sorted := news.sorted
  have more : Machine.handles split (emitted after.outbox.log) =
      Machine.handles split (emitted d.outbox.log) ++ Machine.handles split yielded.effects := by
    unfold Machine.handles
    rw [news.emitted, List.filterMap_append]
  rw [shownIds, more] at sorted
  have table'' := table'.showYield yielded sorted news.fresh
  -- showing does not touch the outbox
  have outbox : ({ m with driver := after }.showYield split yielded).2.driver.shared.outbox =
      after.outbox := by
    rw [Machine.showYield_driver]
  constructor
  case kept => exact (congrArg Outbox.Kept outbox).mpr later.kept
  case own =>
    show (Machine.driver _).shared.outbox.mail.driver = driver
    rw [outbox]
    exact driver'.trans own
  case accepted =>
    rw [accepts]
    show _ = deliveries (Machine.driver _).shared.outbox.log
    rw [outbox, news.deliveries]
  case closed =>
    show closedIds heard ++ _ = listed (Machine.driver _).shared.outbox.log
    rw [outbox, news.listed, closed]
    rfl
  case once =>
    show ((deliveries (Machine.driver _).shared.outbox.log).map Prod.fst).Nodup
    rw [outbox, news.deliveries]
    exact once
  case table =>
    show Machine.Tabled _ (Machine.handles split (emitted (Machine.driver _).shared.outbox.log))
      (gone (Machine.driver _).shared.outbox.log)
    rw [outbox, more]
    refine table''.congr (.refl _) rfl rfl fun id => ?_
    unfold gone
    rw [news.deliveries, news.listed, List.mem_append, or_assoc]
  case known =>
    show ∀ id, gone (Machine.driver _).shared.outbox.log id →
      id ∈ shownIds split (Machine.driver _).shared.outbox.log
    rw [outbox]
    exact news.known

/-- What others do to the outbox between calls. -/
theorem Orderly.grown {split : E → V × Option Pending} {driver : Nat} {s : Hosted σ E H V}
    (orderly : Orderly split driver s) {outbox : Outbox E} (kept : outbox.Kept)
    (grown : Outbox.Grown s.outbox outbox) :
    Orderly split driver { s with machine := s.machine.setOutbox outbox } := by
  constructor
  case kept => exact kept
  case own => exact grown.driver.trans orderly.own
  case accepted => exact orderly.accepted.trans grown.deliveries.symm
  case closed => exact orderly.closed.trans grown.listed.symm
  case once => exact grown.deliveries.symm ▸ orderly.once
  case table =>
    show Machine.Tabled _ (Machine.handles split (emitted outbox.log)) (gone outbox.log)
    rw [grown.emitted]
    refine orderly.table.congr (.refl _) rfl rfl fun id => ?_
    unfold gone
    rw [grown.deliveries, grown.listed]
  case known =>
    show ∀ id, gone outbox.log id → id ∈ shownIds split outbox.log
    unfold gone shownIds
    rw [grown.deliveries, grown.listed, grown.emitted]
    exact orderly.known

/-- A call that only returned an error, and put back what it took out. -/
theorem Orderly.refused {split : E → V × Option Pending} {driver : Nat} {s : Hosted σ E H V}
    (orderly : Orderly split driver s) (c : Call) (error : Error) {m : Machine σ E H}
    (alike : Machine.Alike s.machine m) :
    Orderly split driver ⟨m, (c, .error error) :: s.heard⟩ := by
  have hears : SansEffort.accepted ((c, .error error) :: s.heard) = SansEffort.accepted s.heard := by
    cases c <;> rfl
  obtain ⟨driver', pending, highest, never⟩ := alike
  obtain ⟨_, _, _, _⟩ := m
  cases driver'
  exact ⟨orderly.kept, orderly.own, hears.trans orderly.accepted, orderly.closed, orderly.once,
    orderly.table.congr pending highest never fun _ => Iff.rfl, orderly.known⟩

end Hosted

end SansEffort
