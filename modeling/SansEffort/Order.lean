import SansEffort.Ledger
import SansEffort.Library.Transition

/-!
# Effects leave in the order they were recorded

Any interleaving of outbox operations by any threads is a list of operations. What has been
drained is read off the history alone: tells at their call, asks at their mint, the asks given
up left out, and nothing from the first ask still being built.
-/

namespace SansEffort

variable {E : Type*}

namespace Outbox

inductive Op (E : Type*)
  | tell (effect : E)
  | mint
  | openRequest (id : Nat) (effect : E) (answer : Answer)
  | unreserve (id : Nat)
  | collect (id : Nat) (waker : Waker)
  | close (id : Nat)
  | deliver (reply : ReplyHandle) (value : Value)
  | drain

/-- The operations of a routine's side, which is not to reply and not to drain. -/
def Op.byRoutine : Op E → Bool
  | .deliver _ _ => false
  | .drain => false
  | _ => true

/-- One operation by some thread. `Asking::into_future` opens or gives up a request once, and
only the one it has minted and is building. A delivery that panics ends the run. -/
def step (o : Outbox E) : Op E → Option (Outbox E)
  | .tell effect => some (o.tell effect)
  | .mint => some o.mint.2
  | .openRequest id effect answer =>
    if id ∈ beingBuilt o.log then some (o.openRequest id effect answer) else none
  | .unreserve id => if id ∈ beingBuilt o.log then some (o.unreserve id) else none
  | .collect id waker => some (o.collect id waker).2
  | .close id => some (o.close id)
  | .deliver reply value => (o.deliver reply value).map Prod.snd
  | .drain => some o.drain.2.2

theorem Kept.delivered {o after : Outbox E} (kept : o.Kept) {reply : ReplyHandle} {value : Value}
    {outcome : Delivery} (delivered : o.deliver reply value = some (outcome, after)) :
    after.Kept := by
  by_cases own : reply.driver = o.mail.driver
  · have cases := kept.deliver reply value own
    cases alive : (life reply.id o.log).answer with
    | none =>
      rw [alive] at cases
      cases delivered.symm.trans cases
      exact kept
    | some a =>
      simp only [alive] at cases
      cases verdict : a.check value with
      | none =>
        rw [verdict] at cases
        cases delivered.symm.trans cases
      | some result =>
        rw [verdict] at cases
        cases result with
        | error error =>
          cases delivered.symm.trans cases
          exact kept
        | ok _ =>
          obtain ⟨waker, next, same, kept', _⟩ := cases
          cases delivered.symm.trans same
          exact kept'
  · unfold Outbox.deliver Mail.deliver at delivered
    rw [if_pos own] at delivered
    cases delivered

theorem Kept.step {o next : Outbox E} (kept : o.Kept) {op : Op E}
    (stepped : o.step op = some next) : next.Kept := by
  cases op with
  | tell effect => cases stepped; exact kept.tell effect
  | mint => cases stepped; exact kept.mint.1
  | openRequest id effect answer =>
    simp only [Outbox.step] at stepped
    split at stepped
    · next built => cases stepped; exact kept.openRequest built effect answer
    · cases stepped
  | unreserve id =>
    simp only [Outbox.step] at stepped
    split at stepped
    · next built => cases stepped; exact kept.unreserve built
    · cases stepped
  | collect id waker => cases stepped; exact (kept.collect id waker).1
  | close id => cases stepped; exact kept.close id
  | deliver reply value =>
    obtain ⟨⟨outcome, after⟩, delivered, rfl⟩ := Option.map_eq_some_iff.mp stepped
    exact kept.delivered delivered
  | drain => cases stepped; exact kept.drain.1

theorem kept_run (driver : Nat) (ops : List (Op E)) (o : Outbox E)
    (ran : Transition.run step (new driver) ops = some o) : o.Kept :=
  Transition.run_invariant Kept (fun _ _ _ kept stepped => kept.step stepped) (kept_new driver) ran

end Outbox

/-! ### The order, read off a history -/

/-- What became of an ask. -/
inductive Fate (E : Type*)
  | built (effect : E)
  | givenUp
  | building

def fate (id : Nat) : List (Event E) → Fate E
  | [] => .building
  | .opened i e _ :: log => if i = id then .built e else fate id log
  | .unreserved i :: log => if i = id then .givenUp else fate id log
  | _ :: log => fate id log

/-- The places the events of a history take, oldest first. -/
def places (fates : Nat → Fate E) : List (Event E) → List (Held E)
  | [] => []
  | .told e :: rest => .ready e :: places fates rest
  | .minted id :: rest =>
    match fates id with
    | .built e => .ready e :: places fates rest
    | .givenUp => places fates rest
    | .building => .reserved id :: places fates rest
  | _ :: rest => places fates rest

/-- Tells at their call and asks at their mint, those given up left out, up to the first ask
still being built. -/
def sequence (fates : Nat → Fate E) : List (Event E) → List E
  | [] => []
  | .told e :: rest => e :: sequence fates rest
  | .minted id :: rest =>
    match fates id with
    | .built e => e :: sequence fates rest
    | .givenUp => sequence fates rest
    | .building => []
  | _ :: rest => sequence fates rest

theorem readyFront_places (fates : Nat → Fate E) (events : List (Event E)) :
    readyFront (places fates events) = sequence fates events := by
  induction events with
  | nil => rfl
  | cons event rest ih =>
    cases event
    case told e => exact congrArg (e :: ·) ih
    case minted id =>
      simp only [places, sequence]
      cases fates id with
      | built e => exact congrArg (e :: ·) ih
      | givenUp => exact ih
      | building => rfl
    all_goals exact ih

private theorem places_append (fates : Nat → Fate E) (older newer : List (Event E)) :
    places fates (older ++ newer) = places fates older ++ places fates newer := by
  induction older with
  | nil => rfl
  | cons event rest ih =>
    cases event
    case told e => exact congrArg (Held.ready e :: ·) ih
    case minted id =>
      simp only [List.cons_append, places]
      cases fates id with
      | built e => exact congrArg (Held.ready e :: ·) ih
      | givenUp => exact ih
      | building => exact congrArg (Held.reserved id :: ·) ih
    all_goals exact ih

/-- An ask's fate is open until its effect is built or given up. -/
theorem Valid.fate_building_iff {log : List (Event E)} (valid : Valid log) (id : Nat) :
    fate id log = .building ↔ id ∉ minted log ∨ id ∈ beingBuilt log := by
  induction valid with
  | nil => simp [fate, minted]
  | @cons event log valid allowed ih =>
    cases event
    case minted new =>
      show fate id log = .building ↔ id ∉ new :: minted log ∨ id ∈ new :: beingBuilt log
      by_cases same : id = new
      · subst same
        have fresh : id ∉ minted log := fun known => Nat.lt_irrefl id (allowed.2 id known)
        exact ⟨fun _ => .inr List.mem_cons_self, fun _ => ih.mpr (.inl fresh)⟩
      · simpa [same] using ih
    case opened i e a =>
      have known := beingBuilt_subset_minted log allowed
      by_cases same : i = id
      · subst same
        simp [fate, minted, beingBuilt, known]
      · simpa [fate, minted, beingBuilt, same, Ne.symm same] using ih
    case unreserved i =>
      have known := beingBuilt_subset_minted log allowed
      by_cases same : i = id
      · subst same
        simp [fate, minted, beingBuilt, known]
      · simpa [fate, minted, beingBuilt, same, Ne.symm same] using ih
    all_goals exact ih

/-- Deciding one ask's fate touches its place only. -/
private theorem places_decided (id : Nat) (before after : Nat → Fate E)
    (others : ∀ other, other ≠ id → after other = before other) (undecided : before id = .building)
    (events : List (Event E)) :
    (∀ e, after id = .built e → places after events =
      (places before events).map (Held.fill id e)) ∧
    (after id = .givenUp → places after events =
      (places before events).filter fun held => !held.isFor id) := by
  induction events with
  | nil => exact ⟨fun _ _ => rfl, fun _ => rfl⟩
  | cons event rest ih =>
    cases event
    case told e => exact ⟨fun e' built => congrArg (Held.ready e :: ·) (ih.1 e' built),
      fun gone => congrArg (Held.ready e :: ·) (ih.2 gone)⟩
    case minted i =>
      simp only [places]
      -- its own place is filled or goes, and the others are as they were
      by_cases same : i = id
      · subst same
        rw [undecided]
        refine ⟨fun e built => ?_, fun gone => ?_⟩
        · simp only [built, List.map_cons, Held.fill, if_true]
          rw [ih.1 e built]
        · simp only [gone]
          rw [ih.2 gone, List.filter_cons_of_neg (by simp [Held.isFor])]
      · rw [others i same]
        refine ⟨fun e built => ?_, fun gone => ?_⟩
        · cases before i with
          | built e' => exact congrArg (Held.ready e' :: ·) (ih.1 e built)
          | givenUp => exact ih.1 e built
          | building =>
            simp only [List.map_cons, Held.fill, if_neg same]
            rw [ih.1 e built]
        · cases before i with
          | built e' => exact congrArg (Held.ready e' :: ·) (ih.2 gone)
          | givenUp => exact ih.2 gone
          | building =>
            simp only
            rw [ih.2 gone, List.filter_cons_of_pos (by simp [Held.isFor, same])]
    all_goals exact ih

/-- What is recorded is what the events' places say, each with the fate of its ask. -/
theorem Valid.recorded_eq {log : List (Event E)} (valid : Valid log) :
    recorded log = places (fate · log) log.reverse := by
  induction valid with
  | nil => rfl
  | @cons event log valid allowed ih =>
    rw [List.reverse_cons, places_append]
    cases event
    case told e => exact congrArg (· ++ [Held.ready e]) ih
    case minted new =>
      have undecided : fate new log = .building :=
        (valid.fate_building_iff new).mpr (.inl fun known => Nat.lt_irrefl _ (allowed.2 new known))
      have last : places (fate · (.minted new :: log)) [.minted new] = [.reserved new] := by
        simp only [places, fate, undecided]
      rw [last]
      exact congrArg (· ++ [Held.reserved new]) ih
    case opened id e a =>
      have undecided := (valid.fate_building_iff id).mpr (.inr allowed)
      have decided := places_decided id (fate · log) (fate · (.opened id e a :: log))
        (fun other away => if_neg (Ne.symm away)) undecided log.reverse
      rw [decided.1 e (if_pos rfl), ← ih]
      exact (List.append_nil _).symm
    case unreserved id =>
      have undecided := (valid.fate_building_iff id).mpr (.inr allowed)
      have decided := places_decided id (fate · log) (fate · (.unreserved id :: log))
        (fun other away => if_neg (Ne.symm away)) undecided log.reverse
      rw [decided.2 (if_pos rfl), ← ih]
      exact (List.append_nil _).symm
    all_goals exact ih.trans (List.append_nil _).symm

/-- With no ask being built, nothing waits. -/
theorem Outbox.Kept.nothing_waits {o : Outbox E} (kept : o.Kept) (settled : beingBuilt o.log = []) :
    o.waiting = [] := by
  have free : ∀ id, .reserved id ∉ o.waiting := by
    intro id there
    have : .reserved id ∈ recorded o.log := by
      rw [kept.order, queue]
      exact List.mem_append_right _ (List.mem_append_right _ there)
    rw [kept.valid.reserved_iff, settled] at this
    cases this
  unfold waiting at free ⊢
  cases building : o.building with
  | some id => exact absurd (by simp [building]) (free id)
  | none =>
    cases held : o.held with
    | nil => rfl
    | cons first rest =>
      cases first with
      | ready e => exact absurd held (kept.queued.blocked e rest)
      | reserved id => exact absurd (by simp [held]) (free id)

theorem Outbox.Kept.front {o : Outbox E} (kept : o.Kept) :
    emitted o.log ++ o.effects = readyFront (recorded o.log) := by
  cases kept.drain.2 ▸ kept.drain.1.valid with
  | cons _ allowed => exact allowed.1

/-- After any interleaving of operations: what has been drained and what is next to be drained
are the tells and asks in the order they were recorded, up to the first ask still being built.
So request ids leave in strictly increasing order, and nothing stays behind once no ask is
being built. -/
theorem effects_leave_as_recorded (driver : Nat) (ops : List (Outbox.Op E)) (o : Outbox E)
    (ran : Transition.run Outbox.step (Outbox.new driver) ops = some o) :
    emitted o.log ++ o.effects = sequence (fate · o.log) o.log.reverse ∧
    (∀ label, Labelled label o.log →
      ((emitted o.log ++ o.effects).filterMap label).Pairwise (· < ·)) ∧
    ((∀ id ∈ minted o.log, fate id o.log ≠ .building) → o.building = none ∧ o.held = [] ∧
      (emitted o.log ++ o.effects).map .ready = places (fate · o.log) o.log.reverse) := by
  have kept := Outbox.kept_run driver ops o ran
  refine ⟨?_, fun label labelled => ?_, fun settled => ?_⟩
  · rw [kept.front, kept.valid.recorded_eq, readyFront_places]
  · obtain ⟨rest, whole, _⟩ := readyFront_spec (recorded o.log)
    have sorted := (kept.valid.recorded_sorted labelled).1
    rw [whole, List.filterMap_append, List.filterMap_map] at sorted
    rw [kept.front]
    exact (List.pairwise_append.mp sorted).1
  · have none_built : beingBuilt o.log = [] := by
      refine List.eq_nil_iff_forall_not_mem.mpr fun id built => ?_
      exact settled id (beingBuilt_subset_minted o.log built)
        ((kept.valid.fate_building_iff id).mpr (.inr built))
    have empty := kept.nothing_waits none_built
    unfold Outbox.waiting at empty
    obtain ⟨building, held⟩ := List.append_eq_nil_iff.mp empty
    refine ⟨by simpa using building, held, ?_⟩
    rw [kept.front, ← kept.valid.recorded_eq]
    refine readyFront_all _ fun id there => ?_
    rw [kept.valid.reserved_iff, none_built] at there
    cases there

/-- An answer any reply of its kind is valid for. -/
def anyAnswer (wire : Kind) : Answer := ⟨wire, fun _ => .ok ()⟩

/-- Two asks, one built inside the other, with a tell between and a drain in the middle. -/
def nestedAsks : List (Outbox.Op Nat) :=
  [.mint, .tell 7, .mint, .openRequest 2 20 (anyAnswer .unit), .drain,
    .openRequest 1 10 (anyAnswer .str), .drain]

theorem effects_leave_as_recorded_nested :
    ∃ o, Transition.run Outbox.step (Outbox.new 1) nestedAsks = some o ∧
      [10, 7, 20] = sequence (fate · o.log) o.log.reverse := by
  refine ⟨_, rfl, ?_⟩
  exact (effects_leave_as_recorded 1 nestedAsks _ rfl).1

end SansEffort
